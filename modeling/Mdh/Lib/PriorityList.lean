import Mathlib.Data.List.Sort
import Mathlib.Order.Defs.Unbundled

/-! A queue with priorities as one list: entries of better rank first, and
entries of equal rank in the order they arrived. Ranks are compared by an
arbitrary strict total order. -/

namespace Mdh.Lib.PriorityList

variable {α κ : Type*} (before : κ → κ → Prop) (rank : α → κ)

/-- No entry is preceded by one of strictly worse rank. -/
def Ordered (entries : List α) : Prop :=
  entries.Pairwise fun first second => ¬ before (rank second) (rank first)

variable {before rank}

theorem Ordered.sublist {entries fewer : List α} (ordered : Ordered before rank entries)
    (sub : fewer.Sublist entries) : Ordered before rank fewer :=
  List.Pairwise.sublist sub ordered

theorem Ordered.map {entries : List α} (ordered : Ordered before rank entries) (change : α → α)
    (same : ∀ entry, rank (change entry) = rank entry) : Ordered before rank (entries.map change) := by
  refine List.pairwise_map.mpr (List.Pairwise.imp (fun earlier => ?_) ordered)
  rw [same, same]
  exact earlier

/-- The first entry has the best rank of all. -/
theorem Ordered.head_first {entry : α} {entries : List α} (ordered : Ordered before rank (entry :: entries)) :
    ∀ other ∈ entries, ¬ before (rank other) (rank entry) :=
  (List.pairwise_cons.mp ordered).1

variable (before rank) [DecidableRel before]

/-- An arrival goes behind every entry of its own rank and ahead of every worse one. -/
def enqueue (entry : α) (entries : List α) : List α :=
  entries.orderedInsert (fun first second => before (rank first) (rank second)) entry

theorem enqueue_perm (entry : α) (entries : List α) :
    (enqueue before rank entry entries).Perm (entry :: entries) :=
  List.perm_orderedInsert _ entry entries

@[simp] theorem mem_enqueue (entry other : α) (entries : List α) :
    other ∈ enqueue before rank entry entries ↔ other = entry ∨ other ∈ entries :=
  List.mem_orderedInsert _

theorem enqueue_map {β : Type*} (project : α → β) (rank' : β → κ) (same : ∀ entry, rank' (project entry) = rank entry)
    (entry : α) (entries : List α) :
    (enqueue before rank entry entries).map project =
      enqueue before rank' (project entry) (entries.map project) := by
  induction entries with
  | nil => rfl
  | cons first rest ih =>
    simp only [enqueue, List.map_cons, List.orderedInsert_cons, same] at ih ⊢
    split_ifs
    · simp
    · simp only [List.map_cons, ih]

variable {before rank} [IsStrictTotalOrder κ before]

theorem Ordered.enqueue {entries : List α} (ordered : Ordered before rank entries) (entry : α) :
    Ordered before rank (enqueue before rank entry entries) := by
  induction entries with
  | nil => exact List.pairwise_singleton _ _
  | cons first rest ih =>
    have later := ordered.head_first
    have tail := ih (ordered.sublist (List.sublist_cons_self first rest))
    unfold PriorityList.enqueue
    rw [List.orderedInsert_cons]
    split_ifs with better
    · refine List.pairwise_cons.mpr ⟨fun other member worse => ?_, ordered⟩
      rcases List.mem_cons.mp member with rfl | member
      · exact asymm_of before better worse
      · exact later other member (trans_of before worse better)
    · refine List.pairwise_cons.mpr ⟨fun other member => ?_, tail⟩
      rcases (mem_enqueue before rank entry other rest).mp member with rfl | member
      · exact better
      · exact later other member

/-- Entries of one rank form a first-in-first-out queue. -/
theorem filter_enqueue [DecidableEq κ] {entries : List α} (ordered : Ordered before rank entries) (entry : α)
    (level : κ) :
    (PriorityList.enqueue before rank entry entries).filter (fun other => rank other = level) =
      entries.filter (fun other => rank other = level) ++ if rank entry = level then [entry] else [] := by
  induction entries with
  | nil => simp [PriorityList.enqueue, List.filter_cons]
  | cons first rest ih =>
    have tail := ih (ordered.sublist (List.sublist_cons_self first rest))
    unfold PriorityList.enqueue at tail ⊢
    rw [List.orderedInsert_cons]
    split_ifs with better here
    · -- Everything from `first` on is worse than the arrival, so nothing there has its rank.
      have none : (first :: rest).filter (fun other => rank other = level) = [] := by
        simp only [List.filter_eq_nil_iff, decide_eq_true_eq]
        intro other member same
        have worse : ¬ before (rank other) (rank first) := by
          rcases List.mem_cons.mp member with rfl | member
          · exact irrefl_of before _
          · exact ordered.head_first other member
        exact worse (by rw [same, ← here]; exact better)
      rw [List.filter_cons, none]
      simp [here]
    · rw [List.filter_cons]
      simp [here]
    · rw [List.filter_cons, tail, List.filter_cons]
      split_ifs <;> simp_all
    · rw [List.filter_cons, tail, List.filter_cons]
      split_ifs <;> simp_all

/-- From a rank on, an ordered list is the queue of that rank and then everything worse. -/
theorem Ordered.filter_split [DecidableEq κ] {entries : List α} (ordered : Ordered before rank entries) (level : κ) :
    entries.filter (fun other => ¬ before (rank other) level) =
      entries.filter (fun other => rank other = level) ++ entries.filter (fun other => before level (rank other)) := by
  induction entries with
  | nil => rfl
  | cons first rest ih =>
    have tail := ih (ordered.sublist (List.sublist_cons_self first rest))
    rcases trichotomous_of before (rank first) level with better | same | worse
    · have different : rank first ≠ level := fun same => irrefl_of before level (same ▸ better)
      simp only [List.filter_cons, better, different, asymm_of before better] at tail ⊢
      simpa using tail
    · have here := irrefl_of before level
      simp only [List.filter_cons, same, here] at tail ⊢
      simpa using tail
    · have notBetter := asymm_of before worse
      have different : rank first ≠ level := fun same => irrefl_of before level (same ▸ worse)
      have none : rest.filter (fun other => rank other = level) = [] := by
        simp only [List.filter_eq_nil_iff, decide_eq_true_eq]
        intro other member same
        exact ordered.head_first other member (same ▸ worse)
      simp only [List.filter_cons, worse, notBetter, different, none] at tail ⊢
      simpa using tail

omit [DecidableRel before] in
/-- An ordered list is determined by its queues. -/
theorem Ordered.ext [DecidableEq κ] {left right : List α} (one : Ordered before rank left)
    (two : Ordered before rank right)
    (same : ∀ level, left.filter (fun entry => rank entry = level) = right.filter (fun entry => rank entry = level)) :
    left = right := by
  induction left generalizing right with
  | nil =>
    cases right with
    | nil => rfl
    | cons entry rest =>
      have absent := same (rank entry)
      simp at absent
  | cons first rest ih =>
    cases right with
    | nil =>
      have absent := same (rank first)
      simp at absent
    | cons entry others =>
      -- Each head occurs in the other list, so neither can be strictly worse than the other.
      have inRight : first ∈ (entry :: others).filter (fun other => rank other = rank first) := by
        rw [← same]
        simp
      have inLeft : entry ∈ (first :: rest).filter (fun other => rank other = rank entry) := by
        rw [same]
        simp
      have ranks : rank entry = rank first := by
        rcases List.mem_cons.mp (List.mem_of_mem_filter inRight) with rfl | later
        · rfl
        · rcases List.mem_cons.mp (List.mem_of_mem_filter inLeft) with rfl | later'
          · rfl
          · rcases trichotomous_of before (rank entry) (rank first) with better | equal | worse
            · exact absurd better (one.head_first entry later')
            · exact equal
            · exact absurd worse (two.head_first first later)
      have heads := same (rank first)
      simp only [List.filter_cons, ranks, decide_true, if_true] at heads
      obtain ⟨rfl, _⟩ := List.cons.inj heads
      congr 1
      refine ih (one.sublist (List.sublist_cons_self first rest)) (two.sublist (List.sublist_cons_self first others)) ?_
      intro level
      have tails := same level
      simp only [List.filter_cons] at tails
      split_ifs at tails
      · exact (List.cons.inj tails).2
      · exact tails

/-- Nothing lies strictly between a rank and the best rank worse than it. -/
theorem filter_worse_eq {entries : List α} {level next : κ} (worse : before level next)
    (first : ∀ other ∈ entries, before level (rank other) → ¬ before (rank other) next) :
    entries.filter (fun other => before level (rank other)) =
      entries.filter (fun other => ¬ before (rank other) next) := by
  refine List.filter_congr fun other member => ?_
  simp only [decide_eq_decide]
  constructor
  · exact first other member
  · intro notBetter
    rcases trichotomous_of before (rank other) next with better | same | later
    · exact absurd better notBetter
    · exact same ▸ worse
    · exact trans_of before worse later

end Mdh.Lib.PriorityList
