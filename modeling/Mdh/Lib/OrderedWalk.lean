import Mathlib.Data.Finset.Card
import Mathlib.Order.Defs.Unbundled

/-! Walking a finite set in order with nothing but a function to the next member. If each
step goes to the nearest member strictly past the last, the walk visits every member
once, in order, and ends. -/

namespace Mdh.Lib.OrderedWalk

variable {α : Type*} (before : α → α → Prop)

/-- `choice` is the first of the members past `here`, or there is none. -/
def Nearest (members : Set α) (here : α) : Option α → Prop
  | none => ∀ other ∈ members, ¬ before here other
  | some next => (next ∈ members ∧ before here next) ∧ ∀ other ∈ members, before here other → ¬ before other next

/-- At most `fuel` steps of the walk. -/
def walk (next : α → Option α) : Nat → Option α → List α
  | fuel + 1, some here => here :: walk next fuel (next here)
  | _, _ => []

@[simp] theorem walk_none (next : α → Option α) (fuel : Nat) : walk next fuel none = [] := by
  cases fuel <;> rfl

/-- Two walks that step alike from every member, and stay among the members, are one. -/
theorem walk_congr {members : Set α} {next other : α → Option α} (same : ∀ here ∈ members, other here = next here)
    (closed : ∀ here ∈ members, ∀ following ∈ next here, following ∈ members) (fuel : Nat) {start : Option α}
    (member : ∀ first ∈ start, first ∈ members) : walk other fuel start = walk next fuel start := by
  induction fuel generalizing start with
  | zero => rfl
  | succ fuel ih =>
    cases start with
    | none => rfl
    | some here =>
      have inside := member here rfl
      rw [walk, walk, same here inside, ih (closed here inside)]

variable [IsStrictTotalOrder α before]

/-- Between two members that are in order, neither comes before the other only if they are one. -/
theorem eq_or_before {here other : α} (notEarlier : ¬ before other here) : other = here ∨ before here other := by
  rcases trichotomous_of before other here with earlier | same | later
  · exact absurd earlier notEarlier
  · exact Or.inl same
  · exact Or.inr later

variable [DecidableRel before]

/-- From a member on, the walk visits exactly what does not come before it, in order, and with
fuel for that many steps it has ended. -/
theorem walk_from {members : Finset α} {next : α → Option α}
    (nearest : ∀ here ∈ members, Nearest before members here (next here)) (fuel : Nat) {here : α}
    (member : here ∈ members) (enough : (members.filter fun other => ¬ before other here).card ≤ fuel) :
    (walk next fuel (some here)).Pairwise before ∧
      ∀ other, other ∈ walk next fuel (some here) ↔ other ∈ members ∧ ¬ before other here := by
  induction fuel generalizing here with
  | zero =>
    have self : here ∈ members.filter fun other => ¬ before other here :=
      Finset.mem_filter.mpr ⟨member, irrefl_of before here⟩
    exact absurd (Finset.card_pos.mpr ⟨here, self⟩) (by omega)
  | succ fuel ih =>
    rw [walk]
    have step := nearest here member
    cases choice : next here with
    | none =>
      rw [choice] at step
      rw [walk_none]
      refine ⟨List.pairwise_singleton before here, fun other => ?_⟩
      rw [List.mem_singleton]
      constructor
      · rintro rfl
        exact ⟨member, irrefl_of before other⟩
      · rintro ⟨there, notEarlier⟩
        exact (eq_or_before before notEarlier).resolve_right (step other there)
    | some following =>
      rw [choice] at step
      obtain ⟨⟨there, later⟩, first⟩ := step
      -- What does not come before the next member is what does not come before this one, but it.
      have rest : ∀ other ∈ members, ¬ before other following ↔ other ≠ here ∧ ¬ before other here := by
        intro other inside
        constructor
        · intro notEarlier
          refine ⟨fun same => notEarlier (same ▸ later), fun earlier => notEarlier (trans_of before earlier later)⟩
        · rintro ⟨different, notEarlier⟩
          exact first other inside ((eq_or_before before notEarlier).resolve_left different)
      have fewer : (members.filter fun other => ¬ before other following).card ≤ fuel := by
        have smaller : (members.filter fun other => ¬ before other following) ⊂
            members.filter fun other => ¬ before other here := by
          refine (Finset.ssubset_iff_of_subset fun other inside => ?_).mpr
            ⟨here, Finset.mem_filter.mpr ⟨member, irrefl_of before here⟩, fun inside => ?_⟩
          · obtain ⟨inside, notEarlier⟩ := Finset.mem_filter.mp inside
            exact Finset.mem_filter.mpr ⟨inside, ((rest other inside).mp notEarlier).2⟩
          · exact (Finset.mem_filter.mp inside).2 later
        have less := Finset.card_lt_card smaller
        omega
      obtain ⟨ordered, visits⟩ := ih there fewer
      refine ⟨List.pairwise_cons.mpr ⟨fun other inside => ?_, ordered⟩, fun other => ?_⟩
      · obtain ⟨inside, notEarlier⟩ := (visits other).mp inside
        obtain ⟨different, notEarlier⟩ := (rest other inside).mp notEarlier
        exact (eq_or_before before notEarlier).resolve_left different
      · rw [List.mem_cons, visits]
        constructor
        · rintro (rfl | ⟨inside, notEarlier⟩)
          · exact ⟨member, irrefl_of before other⟩
          · exact ⟨inside, ((rest other inside).mp notEarlier).2⟩
        · rintro ⟨inside, notEarlier⟩
          rcases eq_or_before before notEarlier with same | later
          · exact Or.inl same
          · exact Or.inr ⟨inside, first other inside later⟩

/-- The walk from the first member visits all of them. -/
theorem walk_all {members : Finset α} {next : α → Option α}
    (nearest : ∀ here ∈ members, Nearest before members here (next here)) {first : α} (member : first ∈ members)
    (least : ∀ other ∈ members, ¬ before other first) {fuel : Nat} (enough : members.card ≤ fuel) :
    (walk next fuel (some first)).Pairwise before ∧ ∀ other, other ∈ walk next fuel (some first) ↔ other ∈ members := by
  obtain ⟨ordered, visits⟩ := walk_from before nearest fuel member ((Finset.card_filter_le _ _).trans enough)
  refine ⟨ordered, fun other => (visits other).trans ?_⟩
  exact and_iff_left_of_imp (least other)

end Mdh.Lib.OrderedWalk
