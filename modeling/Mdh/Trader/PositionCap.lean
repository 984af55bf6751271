import Mathlib.Algebra.Order.Group.Unbundled.Abs
import Mdh.Feed.BookIntegrity
import Mdh.Trader.MomentumStrategy
import Mdh.Trader.NetTraded

/-! The momentum strategy and its position cap. The room that it leaves is measured from the fills it
has been shown; what has been traded and not shown, and what is still asked for, it does not see. -/

namespace Mdh.Trader
open Mdh.Core Mdh.Lib Mdh.Matching Mdh.Matching.MatchingEngine Mdh.Risk Mdh.Risk.RiskGatedEngine Mdh.Gateway

/-- The events of the command that the exchange takes in the action. -/
def TradingFloor.eventsOf (round : Rounding) (floor : TradingFloor) : FloorAction → List ExchangeEvent
  | .takeRequest account =>
      match (floor.clients account).requests.head?.bind toCommand with
      | none => []
      | some command => (floor.exchange.process round (floor.sequencer.sequence command).1).events
  | .outside command => (floor.exchange.process round (floor.sequencer.sequence command).1).events
  | .submitNewOrder .. | .cancelOrder .. | .replaceOrder .. | .handleReport _ => []

section Floor
variable {round : Rounding} {managed : AccountId → Bool} {floor after : TradingFloor} {account : AccountId} {action : FloorAction}

/-- What a step is to the requests of an account and to the exchange. -/
inductive Meets (round : Rounding) (account : AccountId) (floor after : TradingFloor) (events : List ExchangeEvent) : Prop where
  | quiet (exchange : after.exchange = floor.exchange)
      (requests : (after.clients account).requests = (floor.clients account).requests) (none : events = [])
  | own (request : Message) (requests : List Message) (command : ExchangeCommand)
      (queued : (floor.clients account).requests = request :: requests) (stands : toCommand request = some command)
      (exchange : after.exchange = (floor.exchange.process round (floor.sequencer.sequence command).1).gated)
      (left : (after.clients account).requests = requests)
      (all : events = (floor.exchange.process round (floor.sequencer.sequence command).1).events)
  | foreign (command : ExchangeCommand) (other : (subject command).accountId ≠ account)
      (exchange : after.exchange = (floor.exchange.process round command).gated)
      (requests : (after.clients account).requests = (floor.clients account).requests)
      (all : events = (floor.exchange.process round command).events)

theorem setClient_clients_of_ne {other : AccountId} (different : other ≠ account) (client : Client) :
    ((floor.setClient other client).clients account) = floor.clients account := Function.update_of_ne different.symm ..

theorem step_meets (alone : managed account = true) (followed : Followed managed floor)
    (stepped : floor.step round managed action = some after) (uncalled : action.calls account = false) :
    Meets round account floor after (floor.eventsOf round action) := by
  cases action with
  | submitNewOrder other | cancelOrder other | replaceOrder other =>
    simp only [TradingFloor.step] at stepped
    split_ifs at stepped
    obtain rfl := Option.some.inj stepped
    have different : other ≠ account := of_decide_eq_false uncalled
    exact .quiet rfl (congrArg Client.requests (setClient_clients_of_ne different _)) rfl
  | handleReport other =>
    simp only [TradingFloor.step] at stepped
    split at stepped
    · cases stepped
    · obtain rfl := Option.some.inj stepped
      refine .quiet rfl ?_ rfl
      by_cases same : other = account
      · subst same
        show (Function.update floor.clients other _ other).requests = _
        rw [Function.update_self]
        rfl
      · exact congrArg Client.requests (setClient_clients_of_ne same _)
  | takeRequest other =>
    simp only [TradingFloor.step] at stepped
    split at stepped
    · cases stepped
    · rename_i request requests queued
      obtain ⟨command, stands, rfl⟩ := Option.map_eq_some_iff.mp stepped
      have events : floor.eventsOf round (.takeRequest other) =
          (floor.exchange.process round (floor.sequencer.sequence command).1).events := by
        unfold TradingFloor.eventsOf
        dsimp only
        rw [queued, List.head?_cons, Option.bind_some, stands]
      by_cases same : other = account
      · subst same
        refine .own request requests command queued stands rfl ?_ events
        show (Function.update floor.clients other _ other).requests = requests
        rw [Function.update_self]
      · refine .foreign (floor.sequencer.sequence command).1 ?_ rfl ?_ events
        swap
        · show (Function.update floor.clients other _ account).requests = _
          rw [Function.update_of_ne (Ne.symm same)]
        have managed' : managed other = true := by
          by_contra outside
          rw [followed.silent other (Bool.eq_false_of_not_eq_true outside)] at queued
          cases queued
        obtain ⟨_, asked, _⟩ := (followed.synced other managed').takes queued stands
        rw [(sequence_alike floor.sequencer command).1, asked.own]
        exact same
  | outside command =>
    simp only [TradingFloor.step] at stepped
    split_ifs at stepped with foreign
    obtain rfl := Option.some.inj stepped
    refine .foreign (floor.sequencer.sequence command).1 ?_ rfl rfl rfl
    have named : (subject command).accountId = command.accountId := by cases command <;> rfl
    rw [(sequence_alike floor.sequencer command).1, named]
    rintro rfl
    exact foreign alone

end Floor

/-- A desk, and what its account has bought at the exchange less what it has sold. -/
structure Tallied (σ : Type) where
  desk : Desk σ
  executed : Int := 0

def Tallied.step {σ ι : Type} (round : Rounding) (managed : AccountId → Bool) (account : AccountId) (strategy : Strategy σ ι)
    (tallied : Tallied σ) (action : DeskAction ι) : Option (Tallied σ) :=
  (tallied.desk.step round managed account strategy action).map fun desk => {
    desk
    executed := match action with
      | .act _ => tallied.executed
      | .floor action => tallied.executed + netTraded account (tallied.desk.floor.eventsOf round action) }

/-- The quantity that a request asks for on a side. -/
def askedOn (side : Side) : ExchangeCommand → Nat
  | .newOrder command => if command.side = side then command.quantity else 0
  | .cancelOrder _ | .replaceOrder _ => 0

/-- The quantity on their way to the exchange on a side. -/
def asked (side : Side) (commands : List ExchangeCommand) : Nat := (commands.map (askedOn side)).sum

/-- How far the position could go on a side beyond what the strategy has been shown: the trades it has not
been shown, and what it still asks for. -/
def unseen (account : AccountId) (tallied : Tallied MomentumTrading) : Side → Int
  | .buy => tallied.executed - tallied.desk.memory.netPosition account +
      asked .buy (tallied.desk.floor.clients account).commands
  | .sell => tallied.desk.memory.netPosition account - tallied.executed +
      asked .sell (tallied.desk.floor.clients account).commands

/-- When an order goes out, what the strategy does not see fits the room that the order leaves. -/
def LeavesRoom (round : Rounding) (limits : TraderRiskLimits) (account : AccountId) (tallied : Tallied MomentumTrading) :
    DeskAction BookUpdate → Prop
  | .floor _ => True
  | .act update =>
      let strategy := tallied.desk.memory.strategy
      let position := tallied.desk.memory.netPosition account
      ∀ entry ∈ (strategy.observeBook update.instrumentId update.book).2, update.sent = true →
        TraderRiskEngine.check round limits account strategy.config.instrumentId entry.1 entry.2
          (strategy.headroom position entry.1) (tallied.desk.floor.clients account).positions = .none →
        unseen account tallied entry.1 ≤ max 0 (strategy.room position entry.1 - strategy.config.tradeSize)

instance (round : Rounding) (limits : TraderRiskLimits) (account : AccountId) (tallied : Tallied MomentumTrading) :
    (action : DeskAction BookUpdate) → Decidable (LeavesRoom round limits account tallied action)
  | .floor _ => inferInstanceAs (Decidable True)
  | .act _ => inferInstanceAs (Decidable (∀ entry ∈ _, _ → _ → _))

section Cap
variable {round : Rounding} {managed : AccountId → Bool} {account : AccountId} {limits : TraderRiskLimits}
  {command : NewOrderCommand}

theorem asked_append (side : Side) (front back : List ExchangeCommand) :
    asked side (front ++ back) = asked side front + asked side back := by
  unfold asked
  rw [List.map_append, List.sum_append]

theorem asked_cons (side : Side) (command : ExchangeCommand) (rest : List ExchangeCommand) :
    asked side (command :: rest) = askedOn side command + asked side rest := by
  unfold asked
  rw [List.map_cons, List.sum_cons]

/-- What is traded and what is asked for are within the cap together, whatever comes of it. -/
structure WithinCap (account : AccountId) (maxPosition executed : Int) (engine : MatchingEngine)
    (commands : List ExchangeCommand) : Prop where
  immediate : ∀ command ∈ commands, ∃ order : NewOrderCommand, command = .newOrder order ∧ order.timeInForce = .ioc
  absent : Absent account engine
  bought : executed + asked .buy commands ≤ maxPosition
  sold : -maxPosition ≤ executed - asked .sell commands

section Within
variable {maxPosition executed : Int} {engine : MatchingEngine} {commands : List ExchangeCommand} {gated : RiskGatedEngine}

theorem WithinCap.executed_le (within : WithinCap account maxPosition executed engine commands) :
    |executed| ≤ maxPosition := by
  obtain ⟨_, _, bought, sold⟩ := within
  exact abs_le'.mpr ⟨by omega, by omega⟩

/-- The exchange takes the first of the requests. -/
theorem WithinCap.takes (within : WithinCap account maxPosition executed gated.engine (.newOrder command :: commands))
    (sound : gated.engine.Sound) {order : NewOrderCommand} (own : order.accountId = account)
    (immediate : order.timeInForce = .ioc) (same : ∀ side, askedOn side (.newOrder order) = askedOn side (.newOrder command)) :
    WithinCap account maxPosition (executed + netTraded account (gated.process round (.newOrder order)).events)
      (gated.process round (.newOrder order)).gated.engine commands := by
  obtain ⟨ioc, absent, bought, sold⟩ := within
  obtain ⟨absent', units⟩ := process_net round sound absent own (by rw [immediate]; exact nofun)
  rw [asked_cons, ← same] at bought sold
  unfold askedOn at bought sold
  refine ⟨fun other member => ioc other (List.mem_cons_of_mem _ member), absent', ?_, ?_⟩
  all_goals
    cases side : order.side with
    | buy | sell =>
      simp only [side, WithinSide, if_true, reduceCtorEq, if_false] at units bought sold
      omega

theorem WithinCap.foreign (within : WithinCap account maxPosition executed gated.engine commands) (sound : gated.engine.Sound)
    {command : ExchangeCommand} (other : (subject command).accountId ≠ account) :
    WithinCap account maxPosition (executed + netTraded account (gated.process round command).events)
      (gated.process round command).gated.engine commands := by
  obtain ⟨absent, units⟩ := process_net_foreign round sound within.absent other
  rw [units, add_zero]
  exact { within with absent }

theorem WithinCap.sends (within : WithinCap account maxPosition executed engine commands) {order : NewOrderCommand}
    (immediate : order.timeInForce = .ioc)
    (fits : match order.side with
      | .buy => executed + asked .buy commands + order.quantity ≤ maxPosition
      | .sell => asked .sell commands - executed + order.quantity ≤ maxPosition) :
    WithinCap account maxPosition executed engine (commands ++ [.newOrder order]) := by
  obtain ⟨ioc, absent, bought, sold⟩ := within
  refine ⟨fun command member => ?_, absent, ?_, ?_⟩
  · rcases List.mem_append.mp member with before | new
    · exact ioc command before
    · exact ⟨order, List.mem_singleton.mp new, immediate⟩
  all_goals
    rw [asked_append, asked_cons]
    unfold askedOn
    cases side : order.side with
    | buy | sell =>
      simp only [side] at fits
      have none (side : Side) : asked side [] = 0 := rfl
      simp only [side, none, if_true, reduceCtorEq, if_false]
      omega

end Within

/-- An order that leaves room for what the strategy does not see keeps within the cap. -/
theorem headroom_within {strategy : MomentumStrategy} {position beyond : Int} {side : Side}
    (fits : beyond ≤ max 0 (strategy.room position side - strategy.config.tradeSize))
    (within : beyond ≤ strategy.room position side) :
    beyond + strategy.headroom position side ≤ strategy.room position side := by
  unfold MomentumStrategy.headroom
  dsimp only
  split_ifs
  · rw [Nat.cast_zero, add_zero]
    exact within
  · omega

structure Capped (managed : AccountId → Bool) (account : AccountId) (config : MomentumStrategyConfig)
    (tallied : Tallied MomentumTrading) : Prop where
  followed : Followed managed tallied.desk.floor
  same : tallied.desk.memory.strategy.config = config
  within : WithinCap account config.maxPosition tallied.executed tallied.desk.floor.exchange.engine
    (tallied.desk.floor.clients account).commands

section Steps
variable {config : MomentumStrategyConfig} {tallied after : Tallied MomentumTrading}

/-- A book update comes in. -/
theorem Capped.acts (capped : Capped managed account config tallied) (alone : managed account = true) {update : BookUpdate}
    (leaves : LeavesRoom round limits account tallied (.act update))
    (stepped : tallied.step round managed account (momentum round limits) (.act update) = some after) :
    Capped managed account config after := by
  obtain ⟨desk, moved, rfl⟩ := Option.map_eq_some_iff.mp stepped
  have followed := Desk.step_followed momentum_calls alone capped.followed moved
  have synced := capped.followed.synced account alone
  have within := capped.within
  obtain ⟨moves, config'⟩ := tallied.desk.memory.strategy.onBookUpdate_moves round limits
    (tallied.desk.memory.netPosition (tallied.desk.floor.clients account).oms.accountId) (tallied.desk.floor.clients account)
    update.instrumentId update.book update.sent
  cases Desk.sees alone capped.followed moved with
  | acts _ client exchange memory =>
    have same : desk.memory.strategy.config = config :=
      (congrArg (fun trading : MomentumTrading => trading.strategy.config) memory).trans (config'.trans capped.same)
    have client : desk.floor.clients account = (tallied.desk.memory.strategy.onBookUpdate round limits
        (tallied.desk.memory.netPosition (tallied.desk.floor.clients account).oms.accountId)
        (tallied.desk.floor.clients account) update.instrumentId update.book update.sent).1 := client
    refine ⟨followed, same, ?_⟩
    show WithinCap account _ tallied.executed desk.floor.exchange.engine (desk.floor.clients account).commands
    rw [← client, synced.own] at moves
    rw [exchange]
    generalize desk.floor.clients account = outcome at moves
    cases moves with
    | stays => exact within
    | trades side limitPrice points passes =>
      cases sent : update.sent with
      | false =>
        rw [(synced.fails _ side limitPrice _ .limit .ioc).commands, List.append_nil]
        exact within
      | true =>
        rw [synced.own] at passes
        have fits := leaves (side, limitPrice) points sent passes
        have cap : tallied.desk.memory.strategy.config.maxPosition = config.maxPosition :=
          congrArg MomentumStrategyConfig.maxPosition capped.same
        have bought := within.bought
        have sold := within.sold
        have most := headroom_within fits (by
          cases side with
          | buy | sell =>
            simp only [unseen, MomentumStrategy.room]
            omega)
        rw [(synced.submits _ side limitPrice _ .limit .ioc).commands]
        refine within.sends rfl ?_
        cases side with
        | buy | sell =>
          simp only [unseen, MomentumStrategy.room] at most
          dsimp only
          omega

/-- The exchange takes a request, or a report is handled, or others do as they like. -/
theorem Capped.floors (capped : Capped managed account config tallied) (alone : managed account = true) {action : FloorAction}
    (stepped : tallied.step round managed account (momentum round limits) (.floor action) = some after) :
    Capped managed account config after := by
  obtain ⟨desk, moved, rfl⟩ := Option.map_eq_some_iff.mp stepped
  have followed := Desk.step_followed momentum_calls alone capped.followed moved
  have within := capped.within
  have sound := capped.followed.sound
  simp only [Desk.step] at moved
  split_ifs at moved with called
  obtain ⟨floor, walked, rfl⟩ := Option.map_eq_some_iff.mp moved
  refine ⟨followed, ?_, ?_⟩
  · refine Eq.trans ?_ capped.same
    show ((momentum round limits).shown (fillSeen account tallied.desk.floor action)
      tallied.desk.memory).strategy.config = _
    cases fillSeen account tallied.desk.floor action <;> rfl
  · show WithinCap account _ (tallied.executed + netTraded account (tallied.desk.floor.eventsOf round action))
      floor.exchange.engine ((floor.clients account).requests.filterMap toCommand)
    cases step_meets alone capped.followed walked (Bool.eq_false_of_not_eq_true called) with
    | quiet exchange requests none =>
      rw [none, exchange, requests]
      unfold netTraded
      rw [List.map_nil, List.sum_nil, add_zero]
      exact within
    | foreign command other exchange requests all =>
      rw [all, exchange, requests]
      exact within.foreign sound other
    | own request requests command queued stands exchange left all =>
      have before := commands_takes queued stands
      have own := ((capped.followed.synced account alone).takes queued stands).2.1.own
      rw [before] at within
      obtain ⟨order, rfl, immediate⟩ := within.immediate command List.mem_cons_self
      rw [all, exchange, left]
      exact within.takes sound own immediate fun _ => rfl

theorem Capped.step (capped : Capped managed account config tallied) (alone : managed account = true)
    {action : DeskAction BookUpdate} (leaves : LeavesRoom round limits account tallied action)
    (stepped : tallied.step round managed account (momentum round limits) action = some after) :
    Capped managed account config after := by
  cases action with
  | act update => exact capped.acts alone leaves stepped
  | floor action => exact capped.floors alone stepped

end Steps

section Runs
variable {exchangeLimits : RiskLimits} {instruments : List InstrumentId} {deposits : List Deposit}
  {config : MomentumStrategyConfig} {actions : List (DeskAction BookUpdate)} {tallied : Tallied MomentumTrading}

def momentumStart (round : Rounding) (exchangeLimits : RiskLimits) (instruments : List InstrumentId) (deposits : List Deposit)
    (config : MomentumStrategyConfig) : Tallied MomentumTrading where
  desk := Desk.start round exchangeLimits instruments deposits { strategy := { config } }

theorem start_capped (nonneg : 0 ≤ config.maxPosition) :
    Capped managed account config (momentumStart round exchangeLimits instruments deposits config) where
  followed := start_followed round
  same := rfl
  within := by
    refine ⟨nofun, fun entry member => ?_, ?_, ?_⟩
    · have member : entry ∈ (make instruments).resting := member
      rw [make_resting] at member
      cases member
    · exact nonneg
    · exact neg_nonpos.mpr nonneg

/-- The strategy keeps to its cap in every run in which each order it sends leaves room for what the
strategy does not see. -/
theorem momentum_capped (alone : managed account = true) (nonneg : 0 ≤ config.maxPosition)
    (ran : Transitions.run (Tallied.step round managed account (momentum round limits))
      (momentumStart round exchangeLimits instruments deposits config) actions = some tallied)
    (leaves : Transitions.Throughout (Tallied.step round managed account (momentum round limits))
      (LeavesRoom round limits account) (momentumStart round exchangeLimits instruments deposits config) actions) :
    |tallied.executed| ≤ config.maxPosition := by
  have kept := Transitions.run_rule
    (fun actions state => Transitions.Throughout (Tallied.step round managed account (momentum round limits))
        (LeavesRoom round limits account) (momentumStart round exchangeLimits instruments deposits config) actions →
      Capped managed account config state)
    (fun _ => start_capped nonneg)
    (fun actions state action next reached before stepped every => by
      obtain ⟨earlier, here⟩ := (Transitions.throughout_concat reached).mp every
      exact (before earlier).step alone here stepped) ran
  exact (kept leaves).within.executed_le

/-- A book with one order on each side. -/
def touchBook (bid ask : Int) : Feed.StoredBook :=
  Feed.StoredBook.callAll Feed.StoredBook.freshNode {} [.addOrder 1 bid 5 .buy, .addOrder 2 ask 5 .sell]

/-- Twice the midpoint rises; another account sells as much as two orders ask for. -/
def risingTwice (between : List (DeskAction BookUpdate)) : List (DeskAction BookUpdate) :=
  [.floor (.outside (.newOrder ⟨0, 9, 1, 3, .sell, 101, 10, .limit, .gtc⟩)), .act ⟨3, touchBook 98 100, true⟩,
    .act ⟨3, touchBook 99 101, true⟩] ++ between ++ [.act ⟨3, touchBook 100 102, true⟩]

def hastyConfig : MomentumStrategyConfig where
  instrumentId := 3
  lookback := 1
  entryThreshold := 1
  tradeSize := 5
  maxPosition := 5
  crossSlack := 1
  cooldownUpdates := 0

/-- The fill is shown before the second rise. -/
theorem momentum_capped_shown :
    ∃ tallied, Transitions.run (Tallied.step .machine (· == 7) 7 (momentum .machine {}))
        (momentumStart .machine {} [3] [.cash 7 2000, .position 9 3 10] hastyConfig)
        (risingTwice [.floor (.takeRequest 7), .floor (.handleReport 7), .floor (.handleReport 7)]) = some tallied ∧
      tallied.executed = 5 ∧ |tallied.executed| ≤ hastyConfig.maxPosition := by
  have comes : (Transitions.run (Tallied.step .machine (· == 7) 7 (momentum .machine {}))
        (momentumStart .machine {} [3] [.cash 7 2000, .position 9 3 10] hastyConfig)
        (risingTwice [.floor (.takeRequest 7), .floor (.handleReport 7), .floor (.handleReport 7)])).map
      Tallied.executed = some 5 := by
    decide +kernel
  have leaves : Transitions.checkThroughout (Tallied.step .machine (· == 7) 7 (momentum .machine {}))
      (LeavesRoom .machine {} 7) (momentumStart .machine {} [3] [.cash 7 2000, .position 9 3 10] hastyConfig)
      (risingTwice [.floor (.takeRequest 7), .floor (.handleReport 7), .floor (.handleReport 7)]) = true := by
    decide +kernel
  obtain ⟨tallied, ran, executed⟩ := Option.map_eq_some_iff.mp comes
  exact ⟨tallied, ran, executed, momentum_capped rfl (by decide) ran (Transitions.throughout_of_check leaves)⟩

/-- The first order is still on its way at the second rise, and is not counted. -/
theorem momentum_exceeds_cap :
    ∃ tallied, Transitions.run (Tallied.step .machine (· == 7) 7 (momentum .machine {}))
        (momentumStart .machine {} [3] [.cash 7 2000, .position 9 3 10] hastyConfig)
        (risingTwice [] ++ [.floor (.takeRequest 7), .floor (.takeRequest 7)]) = some tallied ∧
      hastyConfig.maxPosition < |tallied.executed| := by
  have comes : (Transitions.run (Tallied.step .machine (· == 7) 7 (momentum .machine {}))
        (momentumStart .machine {} [3] [.cash 7 2000, .position 9 3 10] hastyConfig)
        (risingTwice [] ++ [.floor (.takeRequest 7), .floor (.takeRequest 7)])).map Tallied.executed = some 10 := by
    decide +kernel
  obtain ⟨tallied, ran, executed⟩ := Option.map_eq_some_iff.mp comes
  exact ⟨tallied, ran, by rw [executed]; decide⟩

end Runs

end Cap

end Mdh.Trader
