import Mathlib.Algebra.Order.Ring.Nat
import Mathlib.Data.List.Induction
import Mathlib.Data.Nat.ModEq
import Mathlib.Tactic.Ring

/-! Numbers as bytes, most significant byte first. -/

namespace Mdh.Lib.BigEndian

/-- The low `width` bytes of a number. -/
def put : Nat → Nat → List UInt8
  | 0, _ => []
  | width + 1, value => UInt8.ofNat (value >>> (8 * width)) :: put width value

/-- The next byte below the ones read so far. -/
def append (value : Nat) (byte : UInt8) : Nat := (value <<< 8) ||| byte.toNat

/-- Takes a number of `width` bytes off the front, or nothing when there are fewer. -/
def get (width : Nat) (bytes : List UInt8) : Option (Nat × List UInt8) :=
  if bytes.length < width then none else some ((bytes.take width).foldl append 0, bytes.drop width)

@[simp] theorem put_length (width value : Nat) : (put width value).length = width := by
  induction width with
  | zero => rfl
  | succ width ih => rw [put, List.length_cons, ih]

theorem append_eq (value : Nat) (byte : UInt8) : append value byte = value * 256 + byte.toNat := by
  unfold append
  rw [← Nat.shiftLeft_add_eq_or_of_lt (i := 8) byte.toNat_lt, Nat.shiftLeft_eq]

theorem foldl_put (width value start : Nat) :
    (put width value).foldl append start = start * 256 ^ width + value % 256 ^ width := by
  induction width generalizing start with
  | zero => simp [put, Nat.mod_one]
  | succ width ih =>
    have byte : (UInt8.ofNat (value >>> (8 * width))).toNat = value / 256 ^ width % 256 := by
      rw [UInt8.toNat_ofNat', Nat.shiftRight_eq_div_pow, Nat.pow_mul]
    rw [put, List.foldl_cons, ih, append_eq, byte, Nat.mod_pow_succ]
    ring

/-- What was written is read back, and nothing after it is touched. -/
theorem get_put {width value : Nat} (fits : value < 256 ^ width) (rest : List UInt8) :
    get width (put width value ++ rest) = some (value, rest) := by
  unfold get
  rw [if_neg (by simp), List.take_left' (put_length width value), List.drop_left' (put_length width value), foldl_put,
    Nat.zero_mul, Nat.zero_add, Nat.mod_eq_of_lt fits]

theorem foldl_append_injective {front back : List UInt8} (length : front.length = back.length)
    (same : front.foldl append 0 = back.foldl append 0) : front = back := by
  induction front using List.reverseRecOn generalizing back with
  | nil => exact (List.length_eq_zero_iff.mp length.symm).symm
  | append_singleton front byte ih =>
    rcases List.eq_nil_or_concat back with rfl | ⟨rest, last, rfl⟩
    · simp at length
    · have small : byte.toNat < 256 := byte.toNat_lt
      have smallLast : last.toNat < 256 := last.toNat_lt
      simp only [List.concat_eq_append] at length same ⊢
      rw [List.foldl_append, List.foldl_append, List.foldl_cons, List.foldl_cons, List.foldl_nil, List.foldl_nil, append_eq,
        append_eq] at same
      have fronts : front = rest := ih (by simpa using length) (by omega)
      have lasts : byte = last := UInt8.toNat_inj.mp (by omega)
      rw [fronts, lasts]

theorem foldl_append_lt (bytes : List UInt8) : bytes.foldl append 0 < 256 ^ bytes.length := by
  induction bytes using List.reverseRecOn with
  | nil => exact Nat.one_pos
  | append_singleton front byte ih =>
    have small : byte.toNat < 256 := byte.toNat_lt
    rw [List.foldl_append, List.foldl_cons, List.foldl_nil, append_eq, List.length_append, List.length_singleton, Nat.pow_succ]
    omega

/-- Bytes are those of the number they make. -/
theorem put_foldl (bytes : List UInt8) : put bytes.length (bytes.foldl append 0) = bytes := by
  have same : (put bytes.length (bytes.foldl append 0)).foldl append 0 = bytes.foldl append 0 := by
    rw [foldl_put, Nat.zero_mul, Nat.zero_add, Nat.mod_eq_of_lt (foldl_append_lt bytes)]
  exact foldl_append_injective (put_length ..) same

/-- What was read is what would be written for it. -/
theorem put_get {width value : Nat} {bytes rest : List UInt8} (taken : get width bytes = some (value, rest)) :
    bytes = put width value ++ rest ∧ value < 256 ^ width := by
  unfold get at taken
  split_ifs at taken with short
  have length : (bytes.take width).length = width := List.length_take_of_le (not_lt.mp short)
  have whole := put_foldl (bytes.take width)
  have bound := foldl_append_lt (bytes.take width)
  rw [length] at whole bound
  cases taken
  refine ⟨?_, bound⟩
  rw [whole, List.take_append_drop]

end Mdh.Lib.BigEndian
