import Mdh.Feed.MarketDataPublisher
import Mdh.Lib.DrainLoop
import Mdh.Sequencing.MatchingPipeline

/-! Stopping the matching thread and the routing thread. Both drain their queue until it is
empty and test the stop flag only then; here each operation of the queue is one step. -/

namespace Mdh.Sequencing
open Mdh.Core Mdh.Lib Mdh.Feed

/-- What the matching thread keeps of its own. -/
structure MatchingThread where
  sequencer : CommandSequencer := {}
  processed : List ExchangeCommand := []
  commandsProcessed : Nat := 0
  deriving DecidableEq, Repr

/-- A popped command is sequenced and processed. -/
def MatchingThread.process (thread : MatchingThread) (command : ExchangeCommand) : MatchingThread :=
  { sequencer := (thread.sequencer.sequence command).2
    processed := thread.processed ++ [(thread.sequencer.sequence command).1]
    commandsProcessed := thread.commandsProcessed + 1 }

/-- The matching thread takes one command at a time. -/
def MatchingThread.deliver (thread : MatchingThread) (batch : List ExchangeCommand) : MatchingThread :=
  batch.foldl MatchingThread.process thread

def MatchingThread.start (queueCapacity : Nat) : DrainLoop MatchingThread ExchangeCommand :=
  { capacity := queueCapacity.nextPowerOfTwo, downstream := {} }

/-- What the routing thread keeps of its own; `sent` is what downstream was called with. -/
structure RoutingThread where
  sent : List (List WireEvent) := []
  routed : Nat := 0
  batches : Nat := 0
  maxBatchObserved : Nat := 0
  deriving DecidableEq, Repr

/-- A batch goes downstream in one call. -/
def RoutingThread.deliver (thread : RoutingThread) (batch : List WireEvent) : RoutingThread :=
  { sent := thread.sent ++ [batch]
    routed := thread.routed + batch.length
    batches := thread.batches + 1
    maxBatchObserved := if batch.length > thread.maxBatchObserved then batch.length else thread.maxBatchObserved }

def RoutingThread.start (queueCapacity : Nat) : DrainLoop RoutingThread WireEvent :=
  { capacity := queueCapacity.nextPowerOfTwo, downstream := {} }

/-- A cap of zero counts as one. -/
def batchCap (maxBatch : Nat) : Nat := if maxBatch = 0 then 1 else maxBatch

/-- A run of the pipeline with one stop call, up to its return. -/
def PipelineStop (queueCapacity : Nat) (atStop final : DrainLoop MatchingThread ExchangeCommand) : Prop :=
  DrainLoop.StoppedRun 1 MatchingThread.deliver (MatchingThread.start queueCapacity) atStop final

/-- A run of a started router with one stop call, up to its return. -/
def RouterStop (queueCapacity maxBatch : Nat) (atStop final : DrainLoop RoutingThread WireEvent) : Prop :=
  DrainLoop.StoppedRun (batchCap maxBatch) RoutingThread.deliver (RoutingThread.start queueCapacity) atStop final

theorem numbered_leads {front commands : List ExchangeCommand} (before : front <+: commands) :
    numbered front <+: numbered commands := by
  obtain ⟨rest, rfl⟩ := before
  unfold numbered
  rw [List.mapIdx_append]
  exact List.prefix_append ..

theorem process_numbered {thread : MatchingThread} {handed : List ExchangeCommand} (command : ExchangeCommand)
    (before : thread.processed = numbered handed ∧ thread.sequencer.nextSequence = handed.length + 1) :
    (thread.process command).processed = numbered (handed ++ [command]) ∧
      (thread.process command).sequencer.nextSequence = (handed ++ [command]).length + 1 := by
  rw [numbered_append, ← before.1, ← before.2, List.length_append]
  exact ⟨rfl, congrArg (· + 1) before.2⟩

theorem deliver_numbered (thread : MatchingThread) (handed batch : List ExchangeCommand)
    (before : thread.processed = numbered handed ∧ thread.sequencer.nextSequence = handed.length + 1) :
    (thread.deliver batch).processed = numbered (handed ++ batch) ∧
      (thread.deliver batch).sequencer.nextSequence = (handed ++ batch).length + 1 := by
  induction batch generalizing thread handed with
  | nil =>
    rw [List.append_nil]
    exact before
  | cons command rest ih =>
    have after := ih (thread.process command) (handed ++ [command]) (process_numbered command before)
    rw [List.append_assoc, List.singleton_append] at after
    exact after

theorem PipelineStop.processed {queueCapacity : Nat} {atStop final : DrainLoop MatchingThread ExchangeCommand}
    (run : PipelineStop queueCapacity atStop final) : final.downstream.processed = numbered final.handed :=
  (DrainLoop.StoppedRun.delivered deliver_numbered run ⟨rfl, rfl⟩).1

theorem RouterStop.sent {queueCapacity maxBatch : Nat} {atStop final : DrainLoop RoutingThread WireEvent}
    (run : RouterStop queueCapacity maxBatch atStop final) : final.downstream.sent.flatten = final.handed := by
  have kept : ∀ (thread : RoutingThread) (handed batch : List WireEvent), thread.sent.flatten = handed →
      (thread.deliver batch).sent.flatten = handed ++ batch := by
    intro thread handed batch before
    show (thread.sent ++ [batch]).flatten = handed ++ batch
    rw [List.flatten_append, before, List.flatten_singleton]
  exact DrainLoop.StoppedRun.delivered kept run rfl

/-- `stop` of the pipeline and of the router returns with everything processed, once and in
order, that was accepted before it was called, if and only if it was not called between an
empty pop and the test of the flag with something queued in between. -/
theorem stop_drains_iff {queueCapacity : Nat} {atStop final : DrainLoop MatchingThread ExchangeCommand}
    (pipeline : PipelineStop queueCapacity atStop final) {routerCapacity maxBatch : Nat}
    {routerAtStop routerFinal : DrainLoop RoutingThread WireEvent}
    (router : RouterStop routerCapacity maxBatch routerAtStop routerFinal) :
    ((numbered atStop.accepted <+: final.downstream.processed ∧
        final.downstream.processed <+: numbered final.accepted) ↔ ¬ atStop.CaughtAtTest) ∧
      ((routerAtStop.accepted <+: routerFinal.downstream.sent.flatten ∧
        routerFinal.downstream.sent.flatten <+: routerFinal.accepted) ↔ ¬ routerAtStop.CaughtAtTest) := by
  constructor
  · rw [← DrainLoop.StoppedRun.drained_iff pipeline rfl ⟨rfl, nofun⟩, pipeline.processed]
    have once := numbered_leads (DrainLoop.StoppedRun.handed_prefix pipeline rfl)
    constructor
    · rintro ⟨drained, _⟩
      have short := drained.length_le
      rw [numbered_length, numbered_length] at short
      exact List.prefix_of_prefix_length_le (DrainLoop.StoppedRun.accepted_prefix pipeline)
        (DrainLoop.StoppedRun.handed_prefix pipeline rfl) short
    · exact fun drained => ⟨numbered_leads drained, once⟩
  · rw [← DrainLoop.StoppedRun.drained_iff router rfl ⟨rfl, nofun⟩, router.sent]
    exact and_iff_left (DrainLoop.StoppedRun.handed_prefix router rfl)

/-- Two stretches of steps around the stop request, and what they come to. -/
theorem stoppedRun_of_steps {S T : Type} {maxBatch : Nat} {deliver : S → List T → S} {start : DrainLoop S T}
    (front back : List (DrainAction T)) {accepted : List T} {downstream : S} (quiet : .requestStop ∉ front)
    (comes : ((Transitions.run (DrainLoop.step maxBatch deliver) start front).bind fun atStop =>
      (Transitions.run (DrainLoop.step maxBatch deliver) { atStop with stopRequested := true } back).map fun final =>
        (atStop.accepted, final.downstream, final.place)) = some (accepted, downstream, .ended)) :
    ∃ atStop final, DrainLoop.StoppedRun maxBatch deliver start atStop final ∧
      atStop.accepted = accepted ∧ final.downstream = downstream := by
  obtain ⟨atStop, before, rest⟩ := Option.bind_eq_some_iff.mp comes
  obtain ⟨final, after, seen⟩ := Option.map_eq_some_iff.mp rest
  simp only [Prod.mk.injEq] at seen
  exact ⟨atStop, final, ⟨⟨front, quiet, before⟩, ⟨back, after⟩, seen.2.2⟩, seen.1, seen.2.1⟩

def oneCommand : ExchangeCommand :=
  .cancelOrder { commandSequence := 0, accountId := 1, clientOrderId := 1, instrumentId := 1 }

/-- A command accepted before `stop` is called is never processed: the thread has found the
queue empty, the command is pushed, the stop is requested, and the thread tests the flag. -/
theorem stop_loses_command :
    ¬ ∀ (queueCapacity : Nat) (atStop final : DrainLoop MatchingThread ExchangeCommand),
      PipelineStop queueCapacity atStop final → numbered atStop.accepted <+: final.downstream.processed := by
  intro drains
  obtain ⟨atStop, final, run, accepted, downstream⟩ :
      ∃ atStop final, PipelineStop 1 atStop final ∧ atStop.accepted = [oneCommand] ∧ final.downstream = {} :=
    stoppedRun_of_steps [.loop, .submit oneCommand] [.loop] (by simp) (by decide +kernel)
  have lost := drains 1 atStop final run
  rw [accepted, downstream] at lost
  exact absurd lost (by decide)

/-- With the command popped before the stop request, both threads end with all they accepted. -/
theorem stop_drains_iff_popped :
    ∃ (atStop final : DrainLoop MatchingThread ExchangeCommand) (routerAtStop routerFinal : DrainLoop RoutingThread WireEvent),
      atStop.accepted = [oneCommand] ∧
      ((numbered atStop.accepted <+: final.downstream.processed ∧
        final.downstream.processed <+: numbered final.accepted) ↔ ¬ atStop.CaughtAtTest) ∧
      ((routerAtStop.accepted <+: routerFinal.downstream.sent.flatten ∧
        routerFinal.downstream.sent.flatten <+: routerFinal.accepted) ↔ ¬ routerAtStop.CaughtAtTest) := by
  obtain ⟨atStop, final, pipeline, accepted, _⟩ :
      ∃ atStop final, PipelineStop 1 atStop final ∧ atStop.accepted = [oneCommand] ∧
        final.downstream = MatchingThread.deliver {} [oneCommand] :=
    stoppedRun_of_steps [.submit oneCommand, .loop] (List.replicate 4 .loop) (by simp) (by decide +kernel)
  obtain ⟨routerAtStop, routerFinal, router, _⟩ :
      ∃ atStop final, RouterStop 1 8 atStop final ∧ atStop.accepted = [] ∧ final.downstream = {} :=
    stoppedRun_of_steps [] [.loop, .loop] (by simp) (by decide +kernel)
  exact ⟨atStop, final, routerAtStop, routerFinal, accepted, stop_drains_iff pipeline router⟩

end Mdh.Sequencing
