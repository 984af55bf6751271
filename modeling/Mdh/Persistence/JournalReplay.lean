import Mdh.Matching.TwinEngines
import Mdh.Persistence.CommandReplay

/-! A live run against the replay of its own journal. The live engine knows its universe and
how much to make room for from the start, the other learns its instruments one at a time. -/

namespace Mdh.Persistence
open Mdh.Core Mdh.Matching Mdh.Matching.MatchingEngine

/-- An engine and the room it asked its containers to keep. -/
structure ProvisionedEngine where
  engine : MatchingEngine
  expectedOrdersPerBook : Nat := 0
  slabReserves : List Nat := []
  ordersReserve : Nat := 0

namespace ProvisionedEngine

def registerInstrument (provisioned : ProvisionedEngine) (id : InstrumentId) : ProvisionedEngine :=
  let (engine, registered) := provisioned.engine.registerInstrument id
  { provisioned with
    engine
    slabReserves :=
      if registered then provisioned.slabReserves ++ [provisioned.expectedOrdersPerBook] else provisioned.slabReserves }

/-- The constructor with its hint: every book gets an equal share of the expected orders. -/
def make (instruments : List InstrumentId) (expectedRestingOrders : Nat) : ProvisionedEngine :=
  let widest := instruments.foldl
    (fun widest id => if id ≤ kMaxInstrumentId then max widest id else widest) 0
  let provisioned : ProvisionedEngine :=
    if instruments = [] then { engine := {} }
    else
      { engine :=
          { slotOfId := List.replicate (widest + 1) none
            bandTicks := MatchingBook.bandFor instruments.length kLadderByteBudget }
        expectedOrdersPerBook := expectedRestingOrders / instruments.length }
  { instruments.foldl registerInstrument provisioned with ordersReserve := expectedRestingOrders }

def process (provisioned : ProvisionedEngine) (command : ExchangeCommand) :
    ProvisionedEngine × List ExchangeEvent :=
  let step := provisioned.engine.process command
  ({ provisioned with engine := step.engine }, step.events)

/-- The engine after a sequence of commands, and everything it emitted. -/
def run (provisioned : ProvisionedEngine) : List ExchangeCommand → ProvisionedEngine × List ExchangeEvent
  | [] => (provisioned, [])
  | command :: rest =>
      let (provisioned, events) := provisioned.process command
      let (provisioned, later) := provisioned.run rest
      (provisioned, events ++ later)

theorem foldl_registerInstrument_engine (provisioned : ProvisionedEngine) (instruments : List InstrumentId) :
    (instruments.foldl registerInstrument provisioned).engine =
      instruments.foldl (fun engine id => (engine.registerInstrument id).1) provisioned.engine := by
  induction instruments generalizing provisioned with
  | nil => rfl
  | cons id ids ih => exact ih (provisioned.registerInstrument id)

/-- The hint reaches nothing but the room. -/
theorem make_engine (instruments : List InstrumentId) (expectedRestingOrders : Nat) :
    (make instruments expectedRestingOrders).engine = MatchingEngine.make instruments := by
  unfold make MatchingEngine.make
  simp only [foldl_registerInstrument_engine]
  split_ifs <;> rfl

theorem run_eq (provisioned : ProvisionedEngine) (commands : List ExchangeCommand) :
    (provisioned.run commands).1.engine = provisioned.engine.run commands ∧
      (provisioned.run commands).2 = provisioned.engine.runEvents commands := by
  induction commands generalizing provisioned with
  | nil => exact ⟨rfl, rfl⟩
  | cons command rest ih =>
    obtain ⟨engine, events⟩ := ih (provisioned.process command).1
    exact ⟨engine, congrArg ((provisioned.process command).2 ++ ·) events⟩

end ProvisionedEngine

/-- What a replay makes of a journal that was written: the universe registered in order, and
every command processed. -/
theorem runCommandReplay_journalOf (journalPath : String) (options : CommandReplayOptions)
    {instruments : List InstrumentId} {commands : List ExchangeCommand} (instrumentsFit : ∀ id ∈ instruments, id < 2 ^ 32)
    (commandsFit : ∀ command ∈ commands, Representable command) :
    let learned := instruments.foldl (fun engine id => (engine.registerInstrument id).1) (MatchingEngine.make [])
    let outcome := runCommandReplay journalPath (some (journalOf instruments commands)) options
    outcome.engine = learned.run commands ∧ outcome.events = learned.runEvents commands ∧
      outcome.commandsProcessed = commands.length ∧ outcome.stoppedEarly = false := by
  intro learned outcome
  have replayed : outcome = commands.foldl CommandReplayOutcome.process
      (instruments.foldl CommandReplayOutcome.register {}) := by
    show replayFrames options (journalOf instruments commands) {} = _
    rw [journalOf, replayFrames_universe options instrumentsFit, replayFrames_commands options commandsFit]
  obtain ⟨engine, events, processed, stopped⟩ := foldl_register {} instruments
  obtain ⟨finalEngine, finalEvents, finalProcessed, finalStopped⟩ :=
    foldl_process (instruments.foldl CommandReplayOutcome.register {}) commands
  rw [replayed]
  refine ⟨by rw [finalEngine, engine], ?_, ?_, finalStopped.trans stopped⟩
  · rw [finalEvents, events, engine]
    rfl
  · rw [finalProcessed, processed]
    exact Nat.zero_add _

/-- A journal reproduces the run that wrote it: the same events, the same orders on every
book in the same order, every command processed and nothing refused. -/
theorem replay_reproduces_live_run (journalPath : String) (options : CommandReplayOptions)
    (instruments : List InstrumentId) (expectedRestingOrders : Nat) (commands : List ExchangeCommand)
    (instrumentsFit : ∀ id ∈ instruments, id < 2 ^ 32) (commandsFit : ∀ command ∈ commands, Representable command) :
    let live := (ProvisionedEngine.make instruments expectedRestingOrders).run commands
    let outcome := runCommandReplay journalPath (some (journalOf instruments commands)) options
    outcome.events = live.2 ∧
      outcome.engine.instruments = live.1.engine.instruments ∧
      (∀ id ∈ live.1.engine.instruments, ∀ side,
        (outcome.engine.bookFor id).allOf side = (live.1.engine.bookFor id).allOf side) ∧
      outcome.engine.orders = live.1.engine.orders ∧
      outcome.commandsProcessed = commands.length ∧ outcome.stoppedEarly = false := by
  intro live outcome
  obtain ⟨engine, events, processed, stopped⟩ := runCommandReplay_journalOf journalPath options instrumentsFit commandsFit
  obtain ⟨liveEngine, liveEvents⟩ := (ProvisionedEngine.make instruments expectedRestingOrders).run_eq commands
  rw [ProvisionedEngine.make_engine] at liveEngine liveEvents
  obtain ⟨alike, sameEvents⟩ := (make_alike instruments).run (make_sound instruments) commands
  rw [← liveEngine, ← engine] at alike
  refine ⟨?_, alike.instruments.symm, fun id member side => ?_, alike.orders.symm, processed, stopped⟩
  · rw [events, ← sameEvents]
    exact liveEvents.symm
  · exact ((alike.books id ((alike.left.mem_instruments id).mp member)).allOf_eq side).symm

/-- A repeated instrument, one no engine registers, a fill and a cancel. -/
theorem replay_reproduces_two_orders :
    let commands : List ExchangeCommand :=
      [.newOrder { commandSequence := 1, accountId := 1, clientOrderId := 10, instrumentId := 7, side := .buy,
                   price := 100, quantity := 5, orderType := .limit, timeInForce := .gtc },
       .newOrder { commandSequence := 2, accountId := 2, clientOrderId := 10, instrumentId := 7, side := .sell,
                   price := 99, quantity := 3, orderType := .limit, timeInForce := .ioc },
       .cancelOrder { commandSequence := 3, accountId := 1, clientOrderId := 10, instrumentId := 7 }]
    let instruments : List InstrumentId := [7, 3, 7, 4194304]
    (∀ id ∈ instruments, id < 2 ^ 32) ∧ (∀ command ∈ commands, Representable command) ∧
      (runCommandReplay "day.journal" (some (journalOf instruments commands)) {}).events =
        ((ProvisionedEngine.make instruments 1000).run commands).2 := by
  intro commands instruments
  have instrumentsFit : ∀ id ∈ instruments, id < 2 ^ 32 := by decide
  have commandsFit : ∀ command ∈ commands, Representable command := by decide
  exact ⟨instrumentsFit, commandsFit,
    (replay_reproduces_live_run "day.journal" {} instruments 1000 commands instrumentsFit commandsFit).1⟩

end Mdh.Persistence
