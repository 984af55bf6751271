import Mdh.Feed.ReplayEngine

/-! What a frame does whose number is not above the last one seen. The validator calls it stale
whatever the options are; whether it is kept off the books is up to them. -/

namespace Mdh.Feed
open Mdh.Core Mdh.Lib

/-- The validator classifies the event as a duplicate or as out of order. -/
def SequenceValidator.Stale (validator : SequenceValidator) (event : WireEvent) : Prop :=
  (validator.check64 event.sequenceNumber).2.outcome = .duplicate ∨
    (validator.check64 event.sequenceNumber).2.outcome = .outOfOrder

/-- Books, trade statistics and the number they stand for. -/
structure ReplayOutcome.Untouched (before after : ReplayOutcome) : Prop where
  books : after.books = before.books
  counts : after.stats.toReplayStats = before.stats.toReplayStats
  lastSequenceNumber : after.lastSequenceNumber = before.lastSequenceNumber
  applied : after.applied = before.applied

/-- One frame after the other, the answers not looked at. -/
def Replay.step (options : ReplayOptions) (replay : Replay) (arrival : Arrival) : Option Replay :=
  some (applyFrameResult options arrival replay).1

/-- A number that is not above the last one seen comes only where sequence errors stop the
replay, and is not 0 after the largest number. -/
def Replay.Guarded (options : ReplayOptions) (replay : Replay) (arrival : Arrival) : Prop :=
  ∀ event, arrival.frame = .ok event → ∀ last, replay.validator.lastSeen = some last → event.sequenceNumber ≤ last →
    options.stopOnSequenceError = true ∧ event.sequenceNumber ≠ (last + 1) % 2 ^ 64

instance (options : ReplayOptions) (replay : Replay) (arrival : Arrival) : Decidable (replay.Guarded options arrival) :=
  match frame : arrival.frame, seen : replay.validator.lastSeen with
  | .error _, _ => isTrue (by simp [Replay.Guarded, frame])
  | .ok _, none => isTrue (by simp [Replay.Guarded, seen])
  | .ok event, some last =>
      decidable_of_iff (event.sequenceNumber ≤ last →
        options.stopOnSequenceError = true ∧ event.sequenceNumber ≠ (last + 1) % 2 ^ 64)
        (by simp [Replay.Guarded, frame, seen])

section Check
variable {validator : SequenceValidator} {seq : Nat}

/-- What the validator remembers afterwards is never lower. -/
theorem check64_seen (guarded : ∀ last, validator.lastSeen = some last → seq ≤ last → seq ≠ (last + 1) % 2 ^ 64) :
    ((validator.check64 seq).2.outcome = .inOrder ∨ (validator.check64 seq).2.outcome = .missing) ∧
        (validator.check64 seq).1.lastSeen = some seq ∧ (∀ last, validator.lastSeen = some last → last < seq) ∨
      ((validator.check64 seq).2.outcome = .duplicate ∨ (validator.check64 seq).2.outcome = .outOfOrder) ∧
        (validator.check64 seq).1 = validator ∧ ∃ last, validator.lastSeen = some last ∧ seq ≤ last := by
  unfold SequenceValidator.check64
  cases seen : validator.lastSeen with
  | none => exact Or.inl ⟨Or.inl rfl, rfl, nofun⟩
  | some last =>
    dsimp only
    split_ifs with next same below
    · refine Or.inl ⟨Or.inl rfl, rfl, ?_⟩
      rintro _ ⟨⟩
      by_contra notAbove
      exact guarded last seen (not_lt.mp notAbove) next
    · exact Or.inr ⟨Or.inl rfl, rfl, last, rfl, same.le⟩
    · exact Or.inr ⟨Or.inr rfl, rfl, last, rfl, below.le⟩
    · refine Or.inl ⟨Or.inr rfl, rfl, ?_⟩
      rintro _ ⟨⟩
      exact lt_of_le_of_ne (not_lt.mp below) (Ne.symm same)

end Check

section Steps
variable {options : ReplayOptions} {arrival : Arrival} {replay : Replay} {event : WireEvent}

/-- With the replay stopped by sequence errors, a stale event goes no further than the counts. -/
theorem applyFrameResult_stale (frame : arrival.frame = .ok event) (stale : replay.validator.Stale event)
    (stops : options.stopOnSequenceError = true) :
    ReplayOutcome.Untouched replay.outcome (applyFrameResult options arrival replay).1.outcome ∧
      (applyFrameResult options arrival replay).1.validator = (replay.validator.check64 event.sequenceNumber).1 ∧
      (applyFrameResult options arrival replay).2 = true := by
  unfold applyFrameResult
  rw [frame]
  dsimp only
  rcases stale with duplicate | late
  · rw [duplicate, if_neg nofun, if_pos stops]
    exact ⟨⟨rfl, rfl, rfl, rfl⟩, rfl, rfl⟩
  · rw [late, if_neg nofun, if_pos stops]
    exact ⟨⟨rfl, rfl, rfl, rfl⟩, rfl, rfl⟩

/-- An event that is not stale is applied, or is not and leaves the outcome as it is. -/
theorem applyFrameResult_fresh (options : ReplayOptions) (frame : arrival.frame = .ok event)
    (seen : (replay.validator.check64 event.sequenceNumber).1.lastSeen = some event.sequenceNumber) :
    (applyFrameResult options arrival replay).1.validator.lastSeen = some event.sequenceNumber ∧
      ((applyFrameResult options arrival replay).1.outcome.applied = replay.outcome.applied ∨
        (applyFrameResult options arrival replay).1.outcome.applied = replay.outcome.applied ++ [event.sequenceNumber]) := by
  unfold applyFrameResult
  rw [frame]
  dsimp only
  split
  · exact ⟨seen, Or.inr rfl⟩
  · split
    · split
      · exact ⟨seen, Or.inl rfl⟩
      · exact ⟨rfl, Or.inr rfl⟩
    · split
      · exact ⟨seen, Or.inl rfl⟩
      · exact ⟨seen, Or.inr rfl⟩

theorem applyFrameResult_error (options : ReplayOptions) (replay : Replay) {error : DecodeError} (frame : arrival.frame = .error error) :
    ReplayOutcome.Untouched replay.outcome (applyFrameResult options arrival replay).1.outcome ∧
      (applyFrameResult options arrival replay).1.validator = replay.validator := by
  unfold applyFrameResult
  rw [frame]
  dsimp only
  split <;> exact ⟨⟨rfl, rfl, rfl, rfl⟩, rfl⟩

/-- The numbers applied so far ascend, and the validator has seen them. -/
structure Replay.Ascends (replay : Replay) : Prop where
  ascending : replay.outcome.applied.Pairwise (· < ·)
  seen : ∀ number ∈ replay.outcome.applied, ∃ last, replay.validator.lastSeen = some last ∧ number ≤ last

theorem Replay.Ascends.apply (ascends : replay.Ascends) (guarded : replay.Guarded options arrival) :
    (applyFrameResult options arrival replay).1.Ascends := by
  obtain ⟨ascending, seen⟩ := ascends
  cases frame : arrival.frame with
  | error error =>
    obtain ⟨untouched, validator⟩ := applyFrameResult_error options replay frame
    exact ⟨untouched.applied ▸ ascending, by rw [untouched.applied, validator]; exact seen⟩
  | ok event =>
    rcases check64_seen fun last known notAbove => (guarded event frame last known notAbove).2 with
      ⟨_, remembered, above⟩ | ⟨stale, same, last, known, notAbove⟩
    · have lower : ∀ number ∈ replay.outcome.applied, number < event.sequenceNumber := by
        intro number among
        obtain ⟨last, known, below⟩ := seen number among
        exact lt_of_le_of_lt below (above last known)
      obtain ⟨now, either⟩ := applyFrameResult_fresh options frame remembered
      refine ⟨?_, fun number among => ⟨event.sequenceNumber, now, ?_⟩⟩
      · rcases either with unchanged | grown
        · rw [unchanged]
          exact ascending
        · rw [grown]
          exact List.pairwise_append.mpr ⟨ascending, List.pairwise_singleton _ _, fun number among other last =>
            List.mem_singleton.mp last ▸ lower number among⟩
      · rcases either with unchanged | grown
        · rw [unchanged] at among
          exact (lower number among).le
        · rw [grown, List.mem_append, List.mem_singleton] at among
          rcases among with earlier | rfl
          · exact (lower number earlier).le
          · exact le_rfl
    · obtain ⟨untouched, validator, _⟩ :=
        applyFrameResult_stale frame stale (guarded event frame last known notAbove).1
      exact ⟨untouched.applied ▸ ascending, by rw [untouched.applied, validator, same]; exact seen⟩

end Steps

section Runs
variable {options : ReplayOptions} {arrivals : List Arrival} {replay : Replay}

theorem run_eq_foldl (options : ReplayOptions) (start : Replay) (arrivals : List Arrival) :
    Transitions.run (Replay.step options) start arrivals =
      some (arrivals.foldl (fun replay arrival => (applyFrameResult options arrival replay).1) start) := by
  induction arrivals generalizing start with
  | nil => rfl
  | cons arrival rest ih => exact ih _

theorem run_ascends (ran : Transitions.run (Replay.step options) {} arrivals = some replay)
    (guarded : Transitions.Throughout (Replay.step options) (Replay.Guarded options) {} arrivals) : replay.Ascends := by
  refine Transitions.run_rule (fun actions replay =>
    Transitions.Throughout (Replay.step options) (Replay.Guarded options) {} actions → replay.Ascends)
    (fun _ => ⟨List.Pairwise.nil, nofun⟩) ?_ ran guarded
  intro actions before arrival after earlier ascends stepped every
  obtain ⟨front, here⟩ := (Transitions.throughout_concat earlier).mp every
  cases stepped
  exact (ascends front).apply here

/-- A replay that is stopped has made the steps of a front of its frames. -/
theorem replayLoop_prefix (options : ReplayOptions) (start : Replay) (arrivals : List Arrival) :
    ∃ front back, arrivals = front ++ back ∧
      Transitions.run (Replay.step options) start front = some (replayLoop options arrivals start) := by
  induction arrivals generalizing start with
  | nil => exact ⟨[], [], rfl, rfl⟩
  | cons arrival rest ih =>
    unfold replayLoop
    dsimp only
    split_ifs with stops
    · exact ⟨[arrival], rest, rfl, rfl⟩
    · obtain ⟨front, back, split, ran⟩ := ih (applyFrameResult options arrival start).1
      exact ⟨arrival :: front, back, by rw [split, List.cons_append], ran⟩

theorem throughout_front {front back : List Arrival}
    (guarded : Transitions.Throughout (Replay.step options) (Replay.Guarded options) {} (front ++ back)) :
    Transitions.Throughout (Replay.step options) (Replay.Guarded options) {} front := by
  intro earlier arrival later state split reached
  exact guarded earlier arrival (later ++ back) state (by rw [split, List.append_assoc, List.cons_append]) reached

theorem receive_foldl (options : ReplayOptions) (subscriber : FeedSubscriber) (datagrams : List (Option (List Arrival))) :
    (datagrams.foldl (FeedSubscriber.receive options) subscriber).replay =
      (datagrams.flatMap fun unpacked => unpacked.getD []).foldl
        (fun replay arrival => (applyFrameResult options arrival replay).1) subscriber.replay := by
  induction datagrams generalizing subscriber with
  | nil => rfl
  | cons unpacked rest ih =>
    rw [List.foldl_cons, ih, List.flatMap_cons, List.foldl_append]
    cases unpacked <;> rfl

/-- Where every frame is guarded, a stale event leaves books, trade statistics and number alone,
and the numbers applied ascend: after any stretch of frames, in a replayed file, and in a
subscriber however the frames are packed. -/
theorem stale_frames_dropped
    (guarded : Transitions.Throughout (Replay.step options) (Replay.Guarded options) {} arrivals) :
    (∀ front arrival back before event, arrivals = front ++ arrival :: back →
      Transitions.run (Replay.step options) {} front = some before → arrival.frame = .ok event →
      before.validator.Stale event → before.outcome.Untouched (applyFrameResult options arrival before).1.outcome) ∧
    (∀ replay, Transitions.run (Replay.step options) {} arrivals = some replay →
      replay.outcome.applied.Pairwise (· < ·)) ∧
    (∀ inputPath, (runReplay options inputPath (some arrivals)).applied.Pairwise (· < ·)) ∧
    ∀ datagrams : List (Option (List Arrival)), (datagrams.flatMap fun unpacked => unpacked.getD []) = arrivals →
      (datagrams.foldl (FeedSubscriber.receive options) {}).replay.outcome.applied.Pairwise (· < ·) := by
  refine ⟨?_, fun replay ran => (run_ascends ran guarded).ascending, fun inputPath => ?_, fun datagrams packed => ?_⟩
  · intro front arrival back before event split reached frame stale
    have here := guarded front arrival back before split reached
    rcases check64_seen fun last known notAbove => (here event frame last known notAbove).2 with
      ⟨fresh, _⟩ | ⟨_, _, last, known, notAbove⟩
    · rcases fresh with fresh | fresh <;> rcases stale with stale | stale <;> rw [fresh] at stale <;> cases stale
    · exact (applyFrameResult_stale frame stale (here event frame last known notAbove).1).1
  · obtain ⟨front, back, split, ran⟩ := replayLoop_prefix options {} arrivals
    exact (run_ascends ran (throughout_front (split ▸ guarded))).ascending
  · have ran := run_eq_foldl options {} arrivals
    rw [receive_foldl options {} datagrams, packed]
    exact (run_ascends ran guarded).ascending

end Runs

/-- A trade of one lot. -/
def singleTrade (sequenceNumber : Nat) : Arrival where
  frame := .ok (.trade { sequenceNumber, timestamp := 0, instrumentId := 1, price := 100, quantity := 10, aggressorSide := .buy })

/-- A file in which the second trade is there twice. The replay stops at the repeat. -/
theorem stale_frames_dropped_repeat :
    (runReplay {} "feed" (some [singleTrade 1, singleTrade 2, singleTrade 2])).applied.Pairwise (· < ·) := by
  have guarded : Transitions.Throughout (Replay.step {}) (Replay.Guarded {}) {}
      [singleTrade 1, singleTrade 2, singleTrade 2] := Transitions.throughout_of_check (by decide +kernel)
  exact (stale_frames_dropped guarded).2.2.1 "feed"

/-- With a subscriber's own options a trade that is repeated is counted again. -/
theorem repeated_trade_applied :
    ∃ before : Replay, Transitions.run (Replay.step FeedSubscriber.replayOptions) {} [singleTrade 1] = some before ∧
      (∀ event, (singleTrade 1).frame = .ok event → before.validator.Stale event) ∧
      ¬ before.outcome.Untouched (applyFrameResult FeedSubscriber.replayOptions (singleTrade 1) before).1.outcome ∧
      (KeyedStore.valueAt (applyFrameResult FeedSubscriber.replayOptions (singleTrade 1) before).1.outcome.books.stats 1)
        = { tradeCount := 2, tradedQuantity := 20, lastTradePrice := 100 } ∧
      (applyFrameResult FeedSubscriber.replayOptions (singleTrade 1) before).1.outcome.applied = [1, 1] := by
  refine ⟨_, rfl, fun event same => ?_, fun untouched => ?_, by decide +kernel, by rfl⟩
  · cases same
    exact Or.inl (by decide +kernel)
  · have counted := congrArg ReplayStats.trades untouched.counts
    exact absurd counted (by decide +kernel)

end Mdh.Feed
