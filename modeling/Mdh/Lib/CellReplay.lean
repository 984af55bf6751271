import Mathlib.Data.Option.Basic

/-! A cell that events fill, change and empty. A stretch of events that fitted the cell they met,
applied once more to the cell they left, leads back to that cell: some of them fail on the way,
but none of the failures lasts. -/

namespace Mdh.Lib

/-- What an event does to a cell. The mark is set when the cell is filled, and stays. -/
inductive CellEffect (κ ν : Type*) where
  | fill (mark : κ) (value : ν)
  | change (value : ν)
  | clear
  | skip

namespace CellEffect
variable {κ ν : Type*}

def apply : CellEffect κ ν → Option (κ × ν) → Option (κ × ν)
  | fill mark value, none => some (mark, value)
  | fill _ _, some held => some held
  | change value, some (mark, _) => some (mark, value)
  | change _, none => none
  | clear, _ => none
  | skip, cell => cell

/-- The cell is as the effect expects it. -/
def Fits : CellEffect κ ν → Option (κ × ν) → Prop
  | fill _ _, cell => cell = none
  | change _, cell => cell ≠ none
  | clear, _ => True
  | skip, _ => True

/-- The effect leaves the same cell whatever value was in it. -/
def Sets : CellEffect κ ν → Prop
  | fill _ _ => False
  | change _ => True
  | clear => True
  | skip => False

def applyAll (effects : List (CellEffect κ ν)) (cell : Option (κ × ν)) : Option (κ × ν) :=
  effects.foldl (fun cell effect => effect.apply cell) cell

/-- Each effect of a stretch fits the cell it meets. -/
def FitAll : List (CellEffect κ ν) → Option (κ × ν) → Prop
  | [], _ => True
  | effect :: rest, cell => effect.Fits cell ∧ FitAll rest (effect.apply cell)

@[simp] theorem applyAll_cons (effect : CellEffect κ ν) (rest : List (CellEffect κ ν)) (cell : Option (κ × ν)) :
    applyAll (effect :: rest) cell = applyAll rest (effect.apply cell) := rfl

theorem applyAll_append (front back : List (CellEffect κ ν)) (cell : Option (κ × ν)) :
    applyAll (front ++ back) cell = applyAll back (applyAll front cell) := List.foldl_append

theorem fitAll_append (front back : List (CellEffect κ ν)) (cell : Option (κ × ν)) :
    FitAll (front ++ back) cell ↔ FitAll front cell ∧ FitAll back (applyAll front cell) := by
  induction front generalizing cell with
  | nil => exact (and_iff_right trivial).symm
  | cons effect rest ih =>
    rw [List.cons_append, FitAll, FitAll, ih, applyAll_cons, and_assoc]

variable {effect : CellEffect κ ν} {effects : List (CellEffect κ ν)} {cell other : Option (κ × ν)}

/-- A full cell is changed only by what sets it. -/
theorem applyAll_quiet (fits : FitAll effects cell) (quiet : ∀ effect ∈ effects, ¬ effect.Sets) (full : cell ≠ none) :
    applyAll effects cell = cell := by
  induction effects with
  | nil => rfl
  | cons effect rest ih =>
    obtain ⟨here, later⟩ := fits
    have same : effect.apply cell = cell := by
      cases effect with
      | fill mark value => exact absurd here full
      | change value => exact absurd trivial (quiet _ List.mem_cons_self)
      | clear => exact absurd trivial (quiet _ List.mem_cons_self)
      | skip => rfl
    rw [same] at later
    rw [applyAll_cons, same]
    exact ih later fun effect among => quiet effect (List.mem_cons_of_mem _ among)

/-- Another cell is level with the one the effects fit, or it has the mark the effects will leave,
and the value too if none of them is going to set it. -/
def CatchesUp (effects : List (CellEffect κ ν)) (cell other : Option (κ × ν)) : Prop :=
  other = cell ∨ other.map Prod.fst = (applyAll effects cell).map Prod.fst ∧
    ((∀ effect ∈ effects, ¬ effect.Sets) → other = applyAll effects cell)

theorem CatchesUp.step (fits : FitAll (effect :: effects) cell) (catches : CatchesUp (effect :: effects) cell other) :
    CatchesUp effects (effect.apply cell) (effect.apply other) := by
  obtain ⟨here, later⟩ := fits
  rcases catches with rfl | ⟨marked, quiet⟩
  · exact Or.inl rfl
  rw [applyAll_cons] at marked quiet
  have unset (harmless : ¬ effect.Sets) (rest : ∀ effect ∈ effects, ¬ effect.Sets) :
      other = applyAll effects (effect.apply cell) :=
    quiet (List.forall_mem_cons.mpr ⟨harmless, rest⟩)
  cases effect with
  | fill mark value =>
    cases other with
    | none => exact Or.inl (by rw [show cell = none from here])
    | some held => exact Or.inr ⟨marked, unset nofun⟩
  | change value =>
    cases cell with
    | none => exact absurd rfl here
    | some held =>
      cases other with
      | none =>
        refine Or.inr ⟨marked, fun _ => ?_⟩
        exact (Option.map_eq_none_iff.mp marked.symm).symm
      | some late =>
        refine Or.inr ⟨marked, fun rest => ?_⟩
        have kept := applyAll_quiet later rest (by simp [apply])
        rw [kept] at marked ⊢
        have sameMark : late.1 = held.1 := Option.some.inj marked
        show some (late.1, value) = some (held.1, value)
        rw [sameMark]
  | clear => exact Or.inl rfl
  | skip => exact Or.inr ⟨marked, unset nofun⟩

theorem CatchesUp.applyAll_eq (fits : FitAll effects cell) (catches : CatchesUp effects cell other) :
    applyAll effects other = applyAll effects cell := by
  induction effects generalizing cell other with
  | nil =>
    rcases catches with rfl | ⟨_, quiet⟩
    · rfl
    · exact quiet nofun
  | cons effect rest ih => exact ih fits.2 (catches.step fits)

/-- Once more over the same stretch changes nothing. -/
theorem reapply (fits : FitAll effects cell) : applyAll effects (applyAll effects cell) = applyAll effects cell :=
  CatchesUp.applyAll_eq fits (Or.inr ⟨rfl, fun _ => rfl⟩)

end CellEffect

end Mdh.Lib
