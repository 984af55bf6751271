import Mdh.Feed.GapAccounting

/-! A subscriber over a stretch of events: what it has applied, and what the number of sequence
failures it shows says about the events it never got. -/

namespace Mdh.Feed
open Mdh.Core Mdh.Lib

/-- The events as the receive loop takes them from a datagram, with nothing undecodable among them. -/
def arrivalsOf (events : List WireEvent) : List Arrival := events.map fun event => { frame := .ok event }

/-- The live loop over a stretch of frames. -/
def Replay.takeAll (replay : Replay) (arrivals : List Arrival) : Replay :=
  arrivals.foldl (fun replay arrival => (applyFrameResult FeedSubscriber.replayOptions arrival replay).1) replay

/-- Where a subscriber stands that has been given these events and no others. -/
structure Followed (events : List WireEvent) (replay : Replay) : Prop where
  applied : applyAll events {} {} = (replay.outcome.books, replay.outcome.stats.toReplayStats)
  validator : replay.validator = (SequenceValidator.checkAll64 {} (events.map WireEvent.sequenceNumber)).1
  sequenceFailures : replay.outcome.stats.sequenceFailures =
    (SequenceValidator.checkAll64 {} (events.map WireEvent.sequenceNumber)).2.countP fun check => check.outcome ≠ .inOrder
  messagesProcessed : replay.outcome.stats.messagesProcessed = events.length
  decodeFailures : replay.outcome.stats.decodeFailures = 0
  lastSequenceNumber : replay.outcome.lastSequenceNumber = events.getLast?.map WireEvent.sequenceNumber

section Following
variable {events : List WireEvent} {replay : Replay}

theorem followed_nothing : Followed [] {} := ⟨rfl, rfl, rfl, rfl, rfl, rfl⟩

theorem applyAll_concat (events : List WireEvent) (event : WireEvent) (books : BookManager) (stats : ReplayStats) :
    applyAll (events ++ [event]) books stats =
      applyEvent event (applyAll events books stats).1 (applyAll events books stats).2 := by
  unfold applyAll
  rw [List.foldl_append]
  rfl

/-- A live subscriber applies an event whatever its number is, and counts one that is not in order. -/
theorem applyFrameResult_live (replay : Replay) (event : WireEvent) :
    (applyFrameResult FeedSubscriber.replayOptions { frame := .ok event } replay).1 =
      { validator := (replay.validator.check64 event.sequenceNumber).1
        outcome := (if (replay.validator.check64 event.sequenceNumber).2.outcome = .inOrder then replay.outcome
          else replay.outcome.failedSequence).apply event } := by
  unfold applyFrameResult
  dsimp only
  cases (replay.validator.check64 event.sequenceNumber).2.outcome <;> rfl

theorem Followed.next (followed : Followed events replay) (event : WireEvent) :
    Followed (events ++ [event]) (applyFrameResult FeedSubscriber.replayOptions { frame := .ok event } replay).1 := by
  obtain ⟨applied, validator, failures, processed, decodes, _⟩ := followed
  have books := applyAll_concat events event {} {}
  have checked := SequenceValidator.checkAll64_concat {} (events.map WireEvent.sequenceNumber) event.sequenceNumber
  have numbers : (events ++ [event]).map WireEvent.sequenceNumber =
      events.map WireEvent.sequenceNumber ++ [event.sequenceNumber] := List.map_append
  rw [applied] at books
  rw [← validator, ← numbers] at checked
  have counted : ((SequenceValidator.checkAll64 {} ((events ++ [event]).map WireEvent.sequenceNumber)).2.countP
      fun check => check.outcome ≠ .inOrder) = replay.outcome.stats.sequenceFailures +
        if (replay.validator.check64 event.sequenceNumber).2.outcome = .inOrder then 0 else 1 := by
    rw [checked, List.countP_append, ← failures, List.countP_singleton]
    simp only [ne_eq, decide_not, Bool.not_eq_true', decide_eq_false_iff_not, ite_not]
  rw [applyFrameResult_live]
  constructor
  · rw [books]
    split_ifs <;> rfl
  · exact (congrArg Prod.fst checked).symm
  · rw [counted]
    split_ifs <;> rfl
  · rw [List.length_append, ← processed]
    split_ifs <;> rfl
  · rw [← decodes]
    split_ifs <;> rfl
  · rw [List.getLast?_append, List.getLast?_singleton]
    rfl

theorem Followed.takeAll (followed : Followed events replay) (later : List WireEvent) :
    Followed (events ++ later) (replay.takeAll (arrivalsOf later)) := by
  induction later generalizing events replay with
  | nil =>
    rw [List.append_nil]
    exact followed
  | cons event later ih =>
    rw [List.append_cons]
    exact ih (followed.next event)

/-- With no failure shown, the numbers from the first on are all there. -/
theorem Followed.consecutive (followed : Followed events replay) (clean : replay.outcome.stats.sequenceFailures = 0)
    (below : ∀ event ∈ events, event.sequenceNumber < 2 ^ 64 - 1) {first : WireEvent} {rest : List WireEvent}
    (split : events = first :: rest) :
    events.map WireEvent.sequenceNumber = List.range' first.sequenceNumber events.length := by
  have inOrder := followed.sequenceFailures
  rw [clean, eq_comm, List.countP_eq_zero] at inOrder
  have bounded : ∀ number ∈ first.sequenceNumber :: rest.map WireEvent.sequenceNumber, number < 2 ^ 64 - 1 := by
    intro number member
    rw [← List.map_cons, ← split] at member
    obtain ⟨event, among, rfl⟩ := List.mem_map.mp member
    exact below event among
  obtain ⟨last, _, spans⟩ := checkAll64_spans bounded
  rw [← List.map_cons, ← split] at spans
  have each : ∀ checks : List SequenceCheck, (∀ check ∈ checks, ¬ decide (check.outcome ≠ .inOrder) = true) →
      checks.flatMap SequenceCheck.accounted = checks.map SequenceCheck.observed := by
    intro checks fine
    induction checks with
    | nil => rfl
    | cons check checks ih =>
      have here : check.outcome = .inOrder := by
        have this := fine check List.mem_cons_self
        simpa using this
      have alone : check.accounted = [check.observed] := by
        unfold SequenceCheck.accounted
        rw [here]
      rw [List.flatMap_cons, alone, List.map_cons, ih fun other member => fine other (List.mem_cons_of_mem _ member)]
      rfl
  have accounted := spans.accounted
  rw [each _ inOrder, checkAll64_observed] at accounted
  have length := congrArg List.length accounted
  rw [List.length_map, List.length_range'] at length
  rw [accounted, length]

/-- Events out of a numbered stretch whose own numbers miss none from the first on are its first ones. -/
theorem prefix_of_numbers {part whole : List WireEvent} {start : Nat} (within : part.Sublist whole)
    (numbered : whole.map WireEvent.sequenceNumber = List.range' start whole.length)
    (consecutive : part.map WireEvent.sequenceNumber = List.range' start part.length) : part <+: whole := by
  induction within generalizing start with
  | slnil => exact List.prefix_rfl
  | @cons part rest event within _ =>
    cases part with
    | nil => exact List.nil_prefix
    | cons first part =>
      rw [List.map_cons, List.length_cons, List.range'_succ, List.cons.injEq] at numbered consecutive
      have later : first.sequenceNumber ∈ List.range' (start + 1) rest.length :=
        numbered.2 ▸ List.mem_map_of_mem (within.subset List.mem_cons_self)
      rw [List.mem_range'_1, consecutive.1] at later
      omega
  | cons_cons event _ ih =>
    rw [List.map_cons, List.length_cons, List.range'_succ, List.cons.injEq] at numbered consecutive
    exact List.cons_prefix_cons.mpr ⟨rfl, ih numbered.2 consecutive.2⟩

/-- Events out of a numbered stretch whose own numbers miss none are a stretch of it. -/
theorem infix_of_numbers {part whole : List WireEvent} {first start : Nat} (within : part.Sublist whole)
    (numbered : whole.map WireEvent.sequenceNumber = List.range' start whole.length)
    (consecutive : part.map WireEvent.sequenceNumber = List.range' first part.length) : part <:+: whole := by
  induction within generalizing start with
  | slnil => exact List.infix_rfl
  | cons event _ ih =>
    rw [List.map_cons, List.length_cons, List.range'_succ, List.cons.injEq] at numbered
    exact List.infix_cons (ih numbered.2 consecutive)
  | @cons_cons part rest event within _ =>
    have same : first = start := by
      rw [List.map_cons, List.length_cons, List.range'_succ, List.cons.injEq] at numbered consecutive
      exact consecutive.1.symm.trans numbered.1
    exact (prefix_of_numbers (within.cons_cons event) numbered (same ▸ consecutive)).isInfix

end Following

end Mdh.Feed
