import Mdh.Core.Rounding
import Mdh.Core.Types
import Mdh.Lib.BigEndian

/-! Fixed-width integers on the wire, in network byte order, and the checked reader that
takes them off again. -/

namespace Mdh.Core.ByteIo
open Mdh.Lib

def putU8 (value : Nat) : List UInt8 := BigEndian.put 1 value

def putU16 (value : Nat) : List UInt8 := BigEndian.put 2 value

def putU32 (value : Nat) : List UInt8 := BigEndian.put 4 value

def putU64 (value : Nat) : List UInt8 := BigEndian.put 8 value

/-- `static_cast<std::uint64_t>`. -/
def toUnsigned (value : Int) : Nat := (value % 2 ^ 64).toNat

/-- `static_cast<std::int64_t>`. -/
def toSigned (value : Nat) : Int := if value < 2 ^ 63 then value else (value : Int) - 2 ^ 64

def putI64 (value : Int) : List UInt8 := putU64 (toUnsigned value)

/-- A reader of a span: what it returns and the bytes it leaves, or nothing when they run out. -/
abbrev ByteReader := StateT (List UInt8) Option

def getU8 : ByteReader Nat := BigEndian.get 1

def getU16 : ByteReader Nat := BigEndian.get 2

def getU32 : ByteReader Nat := BigEndian.get 4

def getU64 : ByteReader Nat := BigEndian.get 8

def getI64 : ByteReader Int := do
  let value ← getU64
  return toSigned value

section RoundTrips
variable {value : Nat} (rest : List UInt8)

theorem getU8_put (fits : value < 2 ^ 8) : getU8 (putU8 value ++ rest) = some (value, rest) :=
  BigEndian.get_put fits rest

theorem getU16_put (fits : value < 2 ^ 16) : getU16 (putU16 value ++ rest) = some (value, rest) :=
  BigEndian.get_put fits rest

theorem getU32_put (fits : value < 2 ^ 32) : getU32 (putU32 value ++ rest) = some (value, rest) :=
  BigEndian.get_put fits rest

theorem getU64_put (fits : value < 2 ^ 64) : getU64 (putU64 value ++ rest) = some (value, rest) :=
  BigEndian.get_put fits rest

theorem toUnsigned_lt (value : Int) : toUnsigned value < 2 ^ 64 := by
  unfold toUnsigned
  omega

theorem toSigned_toUnsigned {value : Int} (range : Rounding.InRange value) : toSigned (toUnsigned value) = value := by
  unfold Rounding.InRange at range
  unfold toSigned toUnsigned
  split_ifs <;> omega

theorem getI64_put {value : Int} (range : Rounding.InRange value) :
    getI64 (putI64 value ++ rest) = some (value, rest) := by
  have read := getU64_put rest (toUnsigned_lt value)
  show (getU64 (putU64 (toUnsigned value) ++ rest)).bind (fun read => some (toSigned read.1, read.2)) = _
  rw [read, Option.bind_some, toSigned_toUnsigned range]

end RoundTrips

section Inverses
variable {bytes rest : List UInt8} {value : Nat}

theorem putU8_get (read : getU8 bytes = some (value, rest)) : bytes = putU8 value ++ rest ∧ value < 2 ^ 8 :=
  BigEndian.put_get read

theorem putU16_get (read : getU16 bytes = some (value, rest)) : bytes = putU16 value ++ rest ∧ value < 2 ^ 16 :=
  BigEndian.put_get read

theorem putU32_get (read : getU32 bytes = some (value, rest)) : bytes = putU32 value ++ rest ∧ value < 2 ^ 32 :=
  BigEndian.put_get read

theorem putU64_get (read : getU64 bytes = some (value, rest)) : bytes = putU64 value ++ rest ∧ value < 2 ^ 64 :=
  BigEndian.put_get read

theorem toUnsigned_toSigned (fits : value < 2 ^ 64) : toUnsigned (toSigned value) = value := by
  unfold toUnsigned toSigned
  split_ifs <;> omega

theorem toSigned_inRange (fits : value < 2 ^ 64) : Rounding.InRange (toSigned value) := by
  unfold Rounding.InRange toSigned
  split_ifs <;> omega

theorem putI64_get {value : Int} (read : getI64 bytes = some (value, rest)) :
    bytes = putI64 value ++ rest ∧ Rounding.InRange value := by
  have read : (getU64 bytes).bind (fun read => some (toSigned read.1, read.2)) = some (value, rest) := read
  obtain ⟨⟨raw, left⟩, taken, same⟩ := Option.bind_eq_some_iff.mp read
  obtain ⟨split, fits⟩ := putU64_get taken
  cases same
  exact ⟨by rw [putI64, toUnsigned_toSigned fits, split], toSigned_inRange fits⟩

end Inverses

/-- A reader that goes on after a first read made that read. -/
theorem read_of_bind {α β : Type} {reader : ByteReader α} {next : α → ByteReader β} {bytes rest : List UInt8} {out : β}
    (read : (reader >>= next) bytes = some (out, rest)) :
    ∃ value middle, reader bytes = some (value, middle) ∧ next value middle = some (out, rest) := by
  have read : (reader bytes).bind (fun read => next read.1 read.2) = some (out, rest) := read
  obtain ⟨⟨value, middle⟩, first, later⟩ := Option.bind_eq_some_iff.mp read
  exact ⟨value, middle, first, later⟩

/-- One read, and the rest of the reader on what it leaves. -/
theorem bind_of_read {α β : Type} {reader : ByteReader α} {bytes rest : List UInt8} {value : α}
    (read : reader bytes = some (value, rest)) (next : α → ByteReader β) : (reader >>= next) bytes = next value rest := by
  show (reader bytes).bind (fun read => next read.1 read.2) = _
  rw [read, Option.bind_some]

end Mdh.Core.ByteIo
