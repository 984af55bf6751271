import Mdh.Core.Types

/-! How the program's two integer types hold a result. Prices and cash are signed and
quantities unsigned, both of 64 bits; a definition that does arithmetic on them says
where it is rounded, and exact arithmetic is the case where nothing is. -/

namespace Mdh.Core

structure Rounding where
  signed : Int → Int
  unsigned : Int → Int

namespace Rounding

def exact : Rounding where
  signed value := value
  unsigned value := value

/-- Two's complement: the representative modulo `2 ^ 64` that the type can hold. -/
def machine : Rounding where
  signed value := value.bmod (2 ^ 64)
  unsigned value := value % 2 ^ 64

@[simp] theorem exact_signed (value : Int) : exact.signed value = value := rfl

@[simp] theorem exact_unsigned (value : Int) : exact.unsigned value = value := rfl

/-- A value the signed type holds. -/
def InRange (value : Int) : Prop := -2 ^ 63 ≤ value ∧ value ≤ 2 ^ 63 - 1

instance : DecidablePred InRange := fun value => by
  unfold InRange
  infer_instance

theorem InRange.machine_signed {value : Int} (inRange : InRange value) : machine.signed value = value :=
  Int.bmod_eq_of_le_mul_two (by unfold InRange at inRange; omega) (by unfold InRange at inRange; omega)

theorem machine_signed_of_fits {value : Int} (low : -2 ^ 63 ≤ value) (high : value < 2 ^ 63) :
    machine.signed value = value :=
  InRange.machine_signed ⟨low, by omega⟩

/-- Rounding the factors and terms of an expression changes nothing once the result is rounded. -/
theorem machine_signed_mul (first second : Int) :
    machine.signed (machine.signed first * second) = machine.signed (first * second) := Int.bmod_mul_bmod

theorem machine_signed_sub (first second : Int) :
    machine.signed (machine.signed first - machine.signed second) = machine.signed (first - second) :=
  (Int.sub_bmod first second _).symm

end Rounding

end Mdh.Core
