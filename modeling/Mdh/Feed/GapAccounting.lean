import Mdh.Feed.ReplayEngine

/-! What a sequence validator accounts for: the numbers that moved it on, and the ranges it reported
as missing in front of them, are the numbers from the first to the largest, each of them once. -/

namespace Mdh.Feed

namespace SequenceValidator

/-- Every number of a stretch, classified in 64 bits. -/
def checkAll64 (validator : SequenceValidator) (seqs : List Nat) : SequenceValidator × List SequenceCheck :=
  seqs.foldl (fun (validator, checks) seq =>
    let (validator, check) := validator.check64 seq
    (validator, checks ++ [check])) (validator, [])

theorem checkAll64_concat (validator : SequenceValidator) (seqs : List Nat) (seq : Nat) :
    validator.checkAll64 (seqs ++ [seq]) =
      (((validator.checkAll64 seqs).1.check64 seq).1,
        (validator.checkAll64 seqs).2 ++ [((validator.checkAll64 seqs).1.check64 seq).2]) := by
  unfold checkAll64
  rw [List.foldl_append]
  rfl

/-- The checks of a stretch are the first of those of a longer one. -/
theorem checkAll64_keeps (validator : SequenceValidator) (seqs later : List Nat) :
    ∃ more, (validator.checkAll64 (seqs ++ later)).2 = (validator.checkAll64 seqs).2 ++ more := by
  induction later using List.reverseRecOn with
  | nil => exact ⟨[], by rw [List.append_nil, List.append_nil]⟩
  | append_singleton later seq ih =>
    obtain ⟨more, same⟩ := ih
    refine ⟨more ++ [((validator.checkAll64 (seqs ++ later)).1.check64 seq).2], ?_⟩
    rw [← List.append_assoc, checkAll64_concat, same, List.append_assoc]

end SequenceValidator

/-- What a check accounts for: the number that arrived, behind the missing ones up to it. -/
def SequenceCheck.accounted (check : SequenceCheck) : List Nat :=
  match check.outcome with
  | .inOrder => [check.observed]
  | .missing => List.range' check.expected (check.observed - check.expected) ++ [check.observed]
  | .duplicate | .outOfOrder => []

/-- The check is of a late number: one that is not above all that came before. -/
def SequenceCheck.Late (check : SequenceCheck) : Prop := check.outcome = .duplicate ∨ check.outcome = .outOfOrder

/-- A range, and the next number behind a gap. -/
theorem range'_gap {first last seq : Nat} (ordered : first ≤ last) (ahead : last < seq) :
    List.range' first (last + 1 - first) ++ (List.range' (last + 1) (seq - (last + 1)) ++ [seq]) =
      List.range' first (seq + 1 - first) := by
  have one : [seq] = List.range' (last + 1 + (seq - (last + 1))) 1 := by
    rw [Nat.add_sub_cancel' ahead]
    rfl
  have start : first + (last + 1 - first) = last + 1 := by omega
  have total : seq + 1 - first = last + 1 - first + (seq - (last + 1) + 1) := by omega
  have joined : List.range' first (last + 1 - first) ++ List.range' (first + (last + 1 - first)) (seq - (last + 1) + 1) =
      List.range' first (last + 1 - first + (seq - (last + 1) + 1)) := List.range'_append_1
  rw [one, List.range'_append_1, total, ← joined, start]

section Step
variable {validator : SequenceValidator} {seq last : Nat}

/-- A number is late and moves nothing, or is the new last one and accounts for all up to it. -/
theorem check64_moves (seen : validator.lastSeen = some last) (below : last < 2 ^ 64 - 1) :
    (seq ≤ last ∧ (validator.check64 seq).1 = validator ∧ (validator.check64 seq).2.Late) ∨
      (last < seq ∧ (validator.check64 seq).1.lastSeen = some seq ∧
        ((validator.check64 seq).2.outcome = .inOrder ∨ (validator.check64 seq).2.outcome = .missing) ∧
        (validator.check64 seq).2.accounted = List.range' (last + 1) (seq - (last + 1)) ++ [seq]) := by
  have next : (last + 1) % 2 ^ 64 = last + 1 := Nat.mod_eq_of_lt (by omega)
  unfold SequenceValidator.check64
  rw [seen]
  dsimp only
  rw [next]
  split_ifs with follows same older
  · right
    refine ⟨by omega, rfl, Or.inl rfl, ?_⟩
    rw [follows, Nat.sub_self]
    rfl
  · exact Or.inl ⟨same.le, rfl, Or.inl rfl⟩
  · exact Or.inl ⟨older.le, rfl, Or.inr rfl⟩
  · exact Or.inr ⟨by omega, rfl, Or.inr rfl, rfl⟩

theorem check64_observed (validator : SequenceValidator) (seq : Nat) : (validator.check64 seq).2.observed = seq := by
  unfold SequenceValidator.check64
  cases validator.lastSeen with
  | none => rfl
  | some last =>
    dsimp only
    split_ifs <;> rfl

theorem late_accounted {check : SequenceCheck} (late : check.Late) : check.accounted = [] := by
  unfold SequenceCheck.accounted
  rcases late with same | same <;> rw [same]

end Step

/-- The numbers from the first to the largest are what the checks account for. -/
structure Spans (first : Nat) (rest : List Nat) (last : Nat) (checks : List SequenceCheck) : Prop where
  largest : IsGreatest {number | number ∈ first :: rest} last
  accounted : checks.flatMap SequenceCheck.accounted = List.range' first (last + 1 - first)

section Run
variable {first last : Nat} {rest : List Nat} {checks : List SequenceCheck}

theorem Spans.first_le (spans : Spans first rest last checks) : first ≤ last := spans.largest.2 List.mem_cons_self

/-- A late number changes nothing. -/
theorem Spans.late (spans : Spans first rest last checks) {seq : Nat} (old : seq ≤ last) {check : SequenceCheck}
    (late : check.Late) : Spans first (rest ++ [seq]) last (checks ++ [check]) where
  largest := by
    refine ⟨?_, fun other member => ?_⟩
    · rcases List.mem_cons.mp spans.largest.1 with same | later
      · exact List.mem_cons.mpr (Or.inl same)
      · exact List.mem_cons_of_mem _ (List.mem_append_left _ later)
    · rcases List.mem_append.mp (List.cons_append ▸ member : other ∈ (first :: rest) ++ [seq]) with before | final
      · exact spans.largest.2 before
      · exact (List.mem_singleton.mp final).trans_le old
  accounted := by
    rw [List.flatMap_append, spans.accounted, List.flatMap_singleton, late_accounted late, List.append_nil]

/-- A number above all before it takes the range up to itself. -/
theorem Spans.ahead (spans : Spans first rest last checks) {seq : Nat} (ahead : last < seq) {check : SequenceCheck}
    (account : check.accounted = List.range' (last + 1) (seq - (last + 1)) ++ [seq]) :
    Spans first (rest ++ [seq]) seq (checks ++ [check]) where
  largest := by
    refine ⟨List.mem_cons_of_mem _ (List.mem_append_right _ (List.mem_singleton_self _)), fun other member => ?_⟩
    rcases List.mem_append.mp (List.cons_append ▸ member : other ∈ (first :: rest) ++ [seq]) with before | final
    · exact (spans.largest.2 before).trans ahead.le
    · exact (List.mem_singleton.mp final).le
  accounted := by
    rw [List.flatMap_append, spans.accounted, List.flatMap_singleton, account, range'_gap spans.first_le ahead]

/-- The run: the last number seen is the largest, and everything up to it is accounted for. -/
theorem checkAll64_spans (below : ∀ number ∈ first :: rest, number < 2 ^ 64 - 1) :
    ∃ last, (SequenceValidator.checkAll64 {} (first :: rest)).1.lastSeen = some last ∧
      Spans first rest last (SequenceValidator.checkAll64 {} (first :: rest)).2 := by
  induction rest using List.reverseRecOn with
  | nil =>
    refine ⟨first, rfl, ⟨List.mem_cons_self, fun other member => (List.mem_singleton.mp member).le⟩, ?_⟩
    rw [Nat.add_sub_cancel_left]
    rfl
  | append_singleton rest seq ih =>
    have earlier : ∀ number ∈ first :: rest, number < 2 ^ 64 - 1 := fun number member =>
      below number (List.cons_append ▸ List.mem_append_left [seq] member)
    obtain ⟨last, seen, spans⟩ := ih earlier
    rw [← List.cons_append, SequenceValidator.checkAll64_concat]
    rcases @check64_moves _ seq _ seen (earlier last spans.largest.1) with ⟨old, same, late⟩ | ⟨ahead, moved, _, account⟩
    · exact ⟨last, by rw [same, seen], spans.late old late⟩
    · exact ⟨seq, moved, spans.ahead ahead account⟩

theorem checkAll64_observed (seqs : List Nat) :
    (SequenceValidator.checkAll64 {} seqs).2.map SequenceCheck.observed = seqs := by
  induction seqs using List.reverseRecOn with
  | nil => rfl
  | append_singleton seqs seq ih =>
    rw [SequenceValidator.checkAll64_concat, List.map_append, ih, List.map_singleton, check64_observed]

theorem lastSeen_eq_some {seqs : List Nat} (below : ∀ number ∈ seqs, number < 2 ^ 64 - 1) (last : Nat) :
    (SequenceValidator.checkAll64 {} seqs).1.lastSeen = some last ↔ IsGreatest {number | number ∈ seqs} last := by
  cases seqs with
  | nil => exact iff_of_false (by rintro ⟨⟩) fun greatest => List.not_mem_nil greatest.1
  | cons first rest =>
    obtain ⟨largest, seen, spans⟩ := checkAll64_spans below
    rw [seen, Option.some.injEq]
    constructor
    · intro same
      exact same ▸ spans.largest
    · exact fun greatest => spans.largest.unique greatest

end Run

/-- Gap accounting is a partition: the numbers that came in order or behind a gap, each with the
missing range reported in front of it, are the numbers from the first to the largest in their
order. Every other number is late, and the last number seen is always the largest. -/
theorem checkAll64_partition (seqs : List Nat) (below : ∀ number ∈ seqs, number < 2 ^ 64 - 1) :
    (SequenceValidator.checkAll64 {} seqs).2.map SequenceCheck.observed = seqs ∧
    (∀ first last, seqs.head? = some first → IsGreatest {number | number ∈ seqs} last →
      (SequenceValidator.checkAll64 {} seqs).2.flatMap SequenceCheck.accounted = List.range' first (last + 1 - first)) ∧
    ∀ before seq after, seqs = before ++ seq :: after →
      let validator := (SequenceValidator.checkAll64 {} before).1
      let check := (validator.check64 seq).2
      (SequenceValidator.checkAll64 {} seqs).2[before.length]? = some check ∧
      (∀ last, validator.lastSeen = some last ↔ IsGreatest {number | number ∈ before} last) ∧
      (check.outcome = .inOrder ∨ check.outcome = .missing ∨
        check.Late ∧ ∃ last, IsGreatest {number | number ∈ before} last ∧ seq ≤ last) := by
  refine ⟨checkAll64_observed seqs, fun first last head greatest => ?_, fun before seq after split => ⟨?_, ?_, ?_⟩⟩
  · obtain ⟨rest, rfl⟩ := List.head?_eq_some_iff.mp head
    obtain ⟨largest, _, spans⟩ := checkAll64_spans below
    rw [spans.accounted, spans.largest.unique greatest]
  · obtain ⟨more, same⟩ := SequenceValidator.checkAll64_keeps {} (before ++ [seq]) after
    have length : (SequenceValidator.checkAll64 {} before).2.length = before.length := by
      have observed := congrArg List.length (checkAll64_observed before)
      rwa [List.length_map] at observed
    rw [split, List.append_cons, same, SequenceValidator.checkAll64_concat, List.append_assoc, ← length,
      List.getElem?_append_right le_rfl, Nat.sub_self]
    rfl
  · exact lastSeen_eq_some fun number member => below number (split ▸ List.mem_append_left _ member)
  · have earlier : ∀ number ∈ before, number < 2 ^ 64 - 1 := fun number member =>
      below number (split ▸ List.mem_append_left _ member)
    cases before with
    | nil => exact Or.inl rfl
    | cons first rest =>
      obtain ⟨last, seen, spans⟩ := checkAll64_spans earlier
      rcases @check64_moves _ seq _ seen (earlier last spans.largest.1) with ⟨old, _, late⟩ | ⟨_, _, onward, _⟩
      · exact Or.inr (Or.inr ⟨late, last, spans.largest, old⟩)
      · exact onward.imp_right Or.inl

/-- A gap, a late number inside it, one below the first, and the number after the gap again. -/
theorem checkAll64_partition_gap :
    (SequenceValidator.checkAll64 {} [5, 9, 7, 3, 9, 10]).2.flatMap SequenceCheck.accounted = [5, 6, 7, 8, 9, 10] ∧
      (SequenceValidator.checkAll64 {} [5, 9, 7, 3, 9, 10]).2[3]? = some { outcome := .outOfOrder, observed := 3 } := by
  obtain ⟨_, partition, each⟩ := checkAll64_partition [5, 9, 7, 3, 9, 10] (by decide)
  have bounded : ∀ number ∈ [5, 9, 7, 3, 9, 10], number ≤ 10 := by decide
  exact ⟨partition 5 10 rfl ⟨by decide, bounded⟩, (each [5, 9, 7] 3 [9, 10] rfl).1⟩

end Mdh.Feed
