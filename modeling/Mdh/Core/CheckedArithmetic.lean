import Mdh.Core.Rounding

/-! Arithmetic on the program's integer types as a parameter: exact, as the machine holds it, or
checked, where an operation that its type has no result for has none. -/

namespace Mdh.Core

/-- What becomes of the result of an operation, for each of the two types, and of a division,
which truncates towards zero. -/
structure Arithmetic (m : Type → Type) where
  signed : Int → m Int
  unsigned : Int → m Int
  quotient : Int → Int → m Int

namespace Arithmetic

def ofRounding (round : Rounding) : Arithmetic Id where
  signed value := round.signed value
  unsigned value := round.unsigned value
  quotient dividend divisor := round.signed (dividend.tdiv divisor)

def exact : Arithmetic Id := ofRounding .exact

def machine : Arithmetic Id := ofRounding .machine

/-- Signed overflow and division by zero are errors, and so is an unsigned result that wraps. -/
def checked : Arithmetic Option where
  signed value := if Rounding.InRange value then some value else none
  unsigned value := if 0 ≤ value ∧ value < 2 ^ 64 then some value else none
  quotient dividend divisor :=
    if divisor ≠ 0 ∧ Rounding.InRange (dividend.tdiv divisor) then some (dividend.tdiv divisor) else none

section Exact

@[simp] theorem exact_signed (value : Int) : exact.signed value = value := rfl

@[simp] theorem exact_unsigned (value : Int) : exact.unsigned value = value := rfl

@[simp] theorem exact_quotient (dividend divisor : Int) : exact.quotient dividend divisor = dividend.tdiv divisor := rfl

theorem id_bind {α β : Type} (value : Id α) (rest : α → Id β) : (value >>= rest) = rest value := rfl

theorem id_pure {α : Type} (value : α) : (pure value : Id α) = value := rfl

end Exact

section Defined
variable {α : Type} {value dividend divisor : Int} {rest : Int → Option α}

/-! A computation goes through when each of its operations does. -/

theorem checked_signed_of_fits (fits : Rounding.InRange value) : checked.signed value = some value := if_pos fits

theorem some_bind {β : Type} (result : β) (next : β → Option α) : (some result >>= next) = next result := rfl

theorem checked_signed_isSome :
    (checked.signed value >>= rest).isSome ↔ Rounding.InRange value ∧ (rest value).isSome := by
  unfold checked
  dsimp only
  split_ifs with fits
  · exact (and_iff_right fits).symm
  · exact iff_of_false Bool.false_ne_true fun both => fits both.1

theorem checked_unsigned_isSome :
    (checked.unsigned value >>= rest).isSome ↔ (0 ≤ value ∧ value < 2 ^ 64) ∧ (rest value).isSome := by
  unfold checked
  dsimp only
  split_ifs with fits
  · exact (and_iff_right fits).symm
  · exact iff_of_false Bool.false_ne_true fun both => fits both.1

theorem checked_quotient_isSome :
    (checked.quotient dividend divisor >>= rest).isSome ↔
      (divisor ≠ 0 ∧ Rounding.InRange (dividend.tdiv divisor)) ∧ (rest (dividend.tdiv divisor)).isSome := by
  unfold checked
  dsimp only
  split_ifs with fits
  · exact (and_iff_right fits).symm
  · exact iff_of_false Bool.false_ne_true fun both => fits both.1

end Defined

section Yields
variable {α β : Type} {attempt : Option α} {value : Id α} {arithmetic : Arithmetic Id}

/-- Where the attempt goes through, this is its result. -/
def Yields (attempt : Option α) (value : Id α) : Prop := ∀ result, attempt = some result → value = result

theorem Yields.pure (value : α) : Yields (pure value) (pure value) := fun _ same => Option.some.inj same

theorem Yields.bind {next : α → Option β} {rest : α → Id β} (first : Yields attempt value)
    (continues : ∀ middle, Yields (next middle) (rest middle)) : Yields (attempt >>= next) (value >>= rest) := by
  intro result through
  obtain ⟨middle, reached, finished⟩ := Option.bind_eq_some_iff.mp through
  rw [id_bind, first middle reached]
  exact continues middle result finished

theorem Yields.ite {condition : Prop} [Decidable condition] {other : Option α} {otherValue : Id α}
    (yes : Yields attempt value) (no : Yields other otherValue) :
    Yields (if condition then attempt else other) (if condition then value else otherValue) := by
  split_ifs
  · exact yes
  · exact no

/-- An arithmetic that leaves alone whatever its types hold. -/
structure Keeps (arithmetic : Arithmetic Id) : Prop where
  signed : ∀ value, Rounding.InRange value → arithmetic.signed value = value
  unsigned : ∀ value, 0 ≤ value ∧ value < 2 ^ 64 → arithmetic.unsigned value = value
  quotient : ∀ dividend divisor, Rounding.InRange (dividend.tdiv divisor) →
    arithmetic.quotient dividend divisor = dividend.tdiv divisor

theorem exact_keeps : Keeps exact := ⟨fun _ _ => rfl, fun _ _ => rfl, fun _ _ _ => rfl⟩

theorem machine_keeps : Keeps machine where
  signed _ fits := fits.machine_signed
  unsigned _ fits := Int.emod_eq_of_lt fits.1 fits.2
  quotient _ _ fits := fits.machine_signed

variable (keeps : Keeps arithmetic)
include keeps

theorem Keeps.signed_yields (value : Int) : Yields (checked.signed value) (arithmetic.signed value) := by
  intro result through
  obtain ⟨fits, same⟩ := Option.ite_none_right_eq_some.mp through
  exact (keeps.signed value fits).trans (Option.some.inj same)

theorem Keeps.unsigned_yields (value : Int) : Yields (checked.unsigned value) (arithmetic.unsigned value) := by
  intro result through
  obtain ⟨fits, same⟩ := Option.ite_none_right_eq_some.mp through
  exact (keeps.unsigned value fits).trans (Option.some.inj same)

theorem Keeps.quotient_yields (dividend divisor : Int) :
    Yields (checked.quotient dividend divisor) (arithmetic.quotient dividend divisor) := by
  intro result through
  obtain ⟨fits, same⟩ := Option.ite_none_right_eq_some.mp through
  exact (keeps.quotient dividend divisor fits.2).trans (Option.some.inj same)

end Yields

end Arithmetic

end Mdh.Core
