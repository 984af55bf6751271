import Mdh.Risk.CommandOutcomes
import Mdh.Risk.HoldBacking
import Mdh.Risk.Solvency
import Mdh.Sequencing.RouterDelivery

/-! The exchange process: producers that submit, the matching thread with its engine and its end of
the router, and the routing thread, interleaved anyhow. It comes to one engine run over the log. -/

namespace Mdh.Server
open Mdh.Core Mdh.Lib Mdh.Feed Mdh.Concurrency Mdh.Sequencing Mdh.Matching Mdh.Matching.MatchingEngine Mdh.Risk
  Mdh.Accounts

/-- What the process is started with. -/
structure ServerOptions where
  matchingQueueCapacity : Nat := 1024
  riskLimits : RiskLimits := {}
  instruments : List InstrumentId
  deposits : List Deposit := []
  router : MarketDataRouterOptions := {}

/-- The process; `unpublished` are the events of the command in hand that `route_event` has not seen. -/
structure TradingServer (P : Type) where
  pipeline : MatchingPipeline P
  gated : RiskGatedEngine
  unpublished : List ExchangeEvent := []
  router : MarketDataRouter

inductive ServerAction (P : Type) where
  | submit (producer : P) (command : ExchangeCommand)
  | push (producer : P) (spurious : Bool)
  | matching
  | startRouting
  | routing
  | stopPipeline
  | stopRouter
  deriving DecidableEq, Repr

namespace TradingServer
variable {P : Type} [DecidableEq P] (round : Rounding) (clock : Nat → Nat)

/-- The engine before its first command, with the accounts seeded. -/
def seededEngine (options : ServerOptions) : RiskGatedEngine :=
  RiskGatedEngine.start round options.riskLimits options.instruments options.deposits

def make (options : ServerOptions) : Option (TradingServer P) :=
  (MarketDataRouter.make options.router).map fun router =>
    { pipeline := MatchingPipeline.make options.matchingQueueCapacity, gated := seededEngine round options, router }

/-- The matching thread's loop. A popped command is numbered, checked, matched and settled. -/
def pipelineStep (server : TradingServer P) : Option (TradingServer P) :=
  (server.pipeline.loopStep 0).map fun pipeline =>
    match server.pipeline.queue.consumer with
    | .returned (some command) =>
        let out := server.gated.process round (server.pipeline.sequencer.sequence command).1
        { server with pipeline, gated := out.gated, unpublished := out.events }
    | _ => { server with pipeline }

/-- The matching thread publishes every event of a command before it looks at the queue again. -/
def matchingStep (server : TradingServer P) : Option (TradingServer P) :=
  if server.router.matching = .idle then
    match server.unpublished with
    | event :: rest => some { server with unpublished := rest, router := server.router.publish clock event }
    | [] => server.pipelineStep round
  else server.router.matchingStep.map fun router => { server with router }

/-- A step of the pipeline that is not the matching thread's. -/
def withPipeline (server : TradingServer P) (action : PipelineAction P) : Option (TradingServer P) :=
  (server.pipeline.step 0 action).map fun pipeline => { server with pipeline }

/-- A step of the router that is not the matching thread's. -/
def withRouter (server : TradingServer P) (action : RouterAction) : Option (TradingServer P) :=
  (server.router.step clock action).map fun router => { server with router }

def step (server : TradingServer P) : ServerAction P → Option (TradingServer P)
  | .submit producer command => server.withPipeline (.submit producer command)
  | .push producer spurious => server.withPipeline (.push producer spurious)
  | .matching => server.matchingStep round clock
  | .startRouting => server.withRouter clock .start
  | .routing => server.withRouter clock .routing
  | .stopPipeline => server.withPipeline .requestStop
  | .stopRouter => server.withRouter clock .requestStop

/-- The invariant: engine and events are those of one run over what the pipeline has processed. -/
structure Sequential (options : ServerOptions) (server : TradingServer P) : Prop where
  sequenced : ∃ commands, server.pipeline.Sequenced commands
  gated : server.gated = (seededEngine round options).run round server.pipeline.processed
  events : server.router.published ++ server.unpublished =
    (seededEngine round options).runEvents round server.pipeline.processed
  delivering : MarketDataRouter.Delivering clock options.router server.router

section Steps
variable {round clock} {options : ServerOptions} {server next : TradingServer P}

theorem withPipeline_eq {action : PipelineAction P} (stepped : server.withPipeline action = some next) :
    ∃ pipeline, server.pipeline.step 0 action = some pipeline ∧ next = { server with pipeline } := by
  obtain ⟨pipeline, taken, same⟩ := Option.map_eq_some_iff.mp stepped
  exact ⟨pipeline, taken, same.symm⟩

omit [DecidableEq P] in
theorem withRouter_eq {action : RouterAction} (stepped : server.withRouter clock action = some next) :
    ∃ router, server.router.step clock action = some router ∧ next = { server with router } := by
  obtain ⟨router, taken, same⟩ := Option.map_eq_some_iff.mp stepped
  exact ⟨router, taken, same.symm⟩

theorem Sequential.withRouter (sequential : Sequential round clock options server) {action : RouterAction}
    {router : MarketDataRouter} (stepped : server.router.step clock action = some router)
    (quiet : ∀ event, action ≠ .publish event) :
    Sequential round clock options { server with router } where
  sequenced := sequential.sequenced
  gated := sequential.gated
  events := (congrArg (· ++ server.unpublished) (MarketDataRouter.step_published quiet stepped)).trans sequential.events
  delivering := sequential.delivering.step stepped

/-- A step that processes no command. -/
theorem Sequential.withPipeline (sequential : Sequential round clock options server) {action : PipelineAction P}
    {pipeline : MatchingPipeline P} (stepped : server.pipeline.step 0 action = some pipeline)
    (same : pipeline.processed = server.pipeline.processed) :
    Sequential round clock options { server with pipeline } where
  sequenced := sequential.sequenced.elim fun _ sequenced => sequenced.step stepped
  gated := same ▸ sequential.gated
  events := same ▸ sequential.events
  delivering := sequential.delivering

/-- A command goes through the engine once all events before it are published. -/
theorem Sequential.process (sequential : Sequential round clock options server) (published : server.unpublished = [])
    {command : ExchangeCommand} (popped : server.pipeline.queue.consumer = .returned (some command)) :
    let sequenced := (server.pipeline.sequencer.sequence command).1
    let out := server.gated.process round sequenced
    Sequential round clock options { server with
      pipeline := server.pipeline.handle command
      gated := out.gated
      unpublished := out.events } where
  sequenced := sequential.sequenced.elim fun commands sequenced => ⟨commands ++ [command], sequenced.handle popped⟩
  gated := by
    show _ = (seededEngine round options).run round (server.pipeline.processed ++ [_])
    rw [RiskGatedEngine.run_concat, ← sequential.gated]
  events := by
    have before := sequential.events
    rw [published, List.append_nil] at before
    show _ = (seededEngine round options).runEvents round (server.pipeline.processed ++ [_])
    rw [RiskGatedEngine.runEvents_concat, ← sequential.gated, before]
  delivering := sequential.delivering

theorem Sequential.publish (sequential : Sequential round clock options server) (idle : server.router.matching = .idle)
    {event : ExchangeEvent} {rest : List ExchangeEvent} (left : server.unpublished = event :: rest) :
    Sequential round clock options { server with
      unpublished := rest
      router := server.router.publish clock event } where
  sequenced := sequential.sequenced
  gated := sequential.gated
  events := by
    have before := sequential.events
    rw [left] at before
    calc server.router.published ++ [event] ++ rest
        = server.router.published ++ event :: rest := by rw [List.append_assoc, List.singleton_append]
      _ = _ := before
  delivering := by
    have stepped : server.router.step clock (.publish event) = some (server.router.publish clock event) := if_pos idle
    exact sequential.delivering.step stepped

theorem Sequential.matchingStep (sequential : Sequential round clock options server)
    (stepped : server.matchingStep round clock = some next) : Sequential round clock options next := by
  unfold TradingServer.matchingStep at stepped
  split_ifs at stepped with idle
  · cases left : server.unpublished with
    | cons event rest =>
      rw [left] at stepped
      cases stepped
      exact sequential.publish idle left
    | nil =>
      rw [left] at stepped
      obtain ⟨pipeline, looped, rfl⟩ := Option.map_eq_some_iff.mp stepped
      rcases MatchingPipeline.loopStep_processed looped with ⟨command, popped, rfl⟩ | ⟨nothing, same⟩
      · rw [popped]
        exact sequential.process left popped
      · have taken : server.pipeline.step 0 .loop = some pipeline := looped
        split
        · rename_i command popped
          exact absurd popped (nothing command)
        · exact sequential.withPipeline taken same
  · obtain ⟨router, pushed, rfl⟩ := Option.map_eq_some_iff.mp stepped
    have taken : server.router.step clock .matching = some router := pushed
    exact sequential.withRouter taken fun _ => nofun

theorem Sequential.step (sequential : Sequential round clock options server) {action : ServerAction P}
    (stepped : server.step round clock action = some next) : Sequential round clock options next := by
  cases action with
  | matching => exact sequential.matchingStep stepped
  | submit producer command =>
    obtain ⟨pipeline, called, rfl⟩ := withPipeline_eq stepped
    exact sequential.withPipeline called (MatchingPipeline.queueStep_processed called)
  | push producer spurious =>
    obtain ⟨pipeline, pushed, rfl⟩ := withPipeline_eq stepped
    exact sequential.withPipeline pushed (MatchingPipeline.queueStep_processed pushed)
  | stopPipeline =>
    obtain ⟨pipeline, raised, rfl⟩ := withPipeline_eq stepped
    apply sequential.withPipeline raised
    cases raised
    rfl
  | startRouting | routing | stopRouter =>
    obtain ⟨router, routed, rfl⟩ := withRouter_eq stepped
    exact sequential.withRouter routed fun _ => nofun

theorem make_sequential (built : make round options = some server) : Sequential round clock options server := by
  obtain ⟨router, routerBuilt, rfl⟩ := Option.map_eq_some_iff.mp built
  have quiet : router.published = [] := by
    obtain ⟨_, _, rfl⟩ := Option.map_eq_some_iff.mp routerBuilt
    rfl
  refine ⟨⟨[], MatchingPipeline.make_sequenced _⟩, rfl, ?_, MarketDataRouter.make_delivering routerBuilt⟩
  exact (List.append_nil _).trans quiet

variable {start : TradingServer P} {actions : List (ServerAction P)}

theorem run_sequential (built : make round options = some start)
    (ran : Transitions.run (TradingServer.step round clock) start actions = some server) :
    Sequential round clock options server :=
  Transitions.run_invariant (fun _ _ _ sequential => sequential.step) (make_sequential built) ran

end Steps

section Results
variable {round : Rounding} {clock : Nat → Nat} {options : ServerOptions} {start server : TradingServer P}
  {actions : List (ServerAction P)}

/-- At every moment of every interleaving no bid has reached an ask, however sums are rounded. If
they are exact, no account was seeded with a debt and every replacement processed took a fresh id,
then no account has more reserved than it owns, what is reserved is what its resting orders lock, and
cash and units are those it was seeded with. -/
theorem stays_safe (built : make round options = some start)
    (ran : Transitions.run (TradingServer.step round clock) start actions = some server) :
    (∀ bid ∈ server.gated.engine.resting, ∀ ask ∈ server.gated.engine.resting, bid.instrumentId = ask.instrumentId →
      bid.order.side = .buy → ask.order.side = .sell → bid.order.price < ask.order.price) ∧
    (round = .exact → (∀ deposit ∈ options.deposits, deposit.NonNegative) →
      (seededEngine .exact options).FreshIds server.pipeline.processed →
      Solvent server.gated.ledger ∧ HoldsAgree server.gated.engine server.gated.ledger ∧
        Conserves (seededEngine .exact options).ledger server.gated.ledger) := by
  have gated := (run_sequential built ran).gated
  rw [gated]
  constructor
  · exact (RiskGatedEngine.run_sound round (MatchingEngine.make_sound options.instruments) server.pipeline.processed).uncrossed
  · rintro rfl nonNegative fresh
    have seeded : Funded (seededEngine .exact options).ledger := seeded_funded options.deposits nonNegative
    obtain ⟨⟨funded, conserves⟩, inStep⟩ := RiskGatedEngine.run_rule
      (fun gated => Funded gated.ledger ∧ Conserves (seededEngine .exact options).ledger gated.ledger)
      (fun gated command before inStep fresh => by
        obtain ⟨funded, moves⟩ := process_funded inStep before.1 command fresh
        exact ⟨funded, before.2.trans moves⟩)
      ⟨seeded, Conserves.refl _⟩ (start_inStep options.riskLimits options.instruments options.deposits)
      server.pipeline.processed fresh
    exact ⟨inStep.solvent funded, inStep.holdsAgree, conserves⟩

end Results

section TwoProducers

def twoSeeded : ServerOptions where
  matchingQueueCapacity := 2
  instruments := [3]
  deposits := [.cash 7 1000, .position 8 3 10]
  router := { queueCapacity := 4, maxBatch := 2 }

/-- Producer 0 reserves first and is overtaken by producer 1, whose order then waits for it. -/
def twoSubmitted : List (ServerAction (Fin 2)) :=
  let first : Fin 2 := ⟨0, Nat.two_pos⟩
  let second : Fin 2 := ⟨1, Nat.one_lt_two⟩
  let pushes (producer : Fin 2) (steps : Nat) := List.replicate steps (ServerAction.push producer false)
  [.submit first (.newOrder (limitOrder 1 .buy 100 5 .gtc))] ++ pushes first 3 ++
    [.submit second (.newOrder { limitOrder 2 .sell 99 2 .ioc with accountId := 8 })] ++ pushes second 8 ++
    pushes first 5 ++ [.startRouting] ++ List.replicate 50 .matching ++ List.replicate 30 .routing

/-- What the two commands come to. -/
theorem twoSubmitted_runs :
    ∃ start server : TradingServer (Fin 2), make .exact twoSeeded = some start ∧
      Transitions.run (TradingServer.step .exact fun _ => 0) start twoSubmitted = some server ∧
      server.pipeline.processed = numbered [.newOrder (limitOrder 1 .buy 100 5 .gtc),
        .newOrder { limitOrder 2 .sell 99 2 .ioc with accountId := 8 }] ∧
      server.unpublished = [] ∧ server.router.handed.map WireEvent.sequenceNumber = [1, 2, 3] := by
  have comes : ((make .exact twoSeeded).bind fun start : TradingServer (Fin 2) =>
      (Transitions.run (TradingServer.step .exact fun _ => 0) start twoSubmitted).map fun server =>
        (server.pipeline.processed, server.unpublished, server.router.handed.map WireEvent.sequenceNumber)) =
      some (numbered [.newOrder (limitOrder 1 .buy 100 5 .gtc),
        .newOrder { limitOrder 2 .sell 99 2 .ioc with accountId := 8 }], [], [1, 2, 3]) := by
    decide +kernel
  obtain ⟨start, built, rest⟩ := Option.bind_eq_some_iff.mp comes
  obtain ⟨server, ran, same⟩ := Option.map_eq_some_iff.mp rest
  exact ⟨start, server, built, ran, congrArg Prod.fst same, congrArg (fun seen => seen.2.1) same,
    congrArg (fun seen => seen.2.2) same⟩

theorem stays_safe_two :
    ∃ server : TradingServer (Fin 2), server.pipeline.processed.length = 2 ∧ Solvent server.gated.ledger := by
  obtain ⟨start, server, built, ran, processed, _⟩ := twoSubmitted_runs
  have fresh : (seededEngine .exact twoSeeded).FreshIds server.pipeline.processed := by
    rw [processed]
    exact ⟨trivial, trivial, trivial⟩
  exact ⟨server, congrArg List.length processed, ((stays_safe built ran).2 rfl (by decide) fresh).1⟩

end TwoProducers

end TradingServer

end Mdh.Server
