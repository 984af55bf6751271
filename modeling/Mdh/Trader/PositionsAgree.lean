import Mdh.Accounts.Reservations
import Mdh.Trader.OrdersFollowed

/-! The trader's positions against the exchange's ledger. A trade moves the same cash and units on
both sides, for its reports name orders that the trader knows, on the side they settle; nothing
else moves any. The ledger is met by the positions the trader will have once it has handled the
reports on their way, whatever the rounding. -/

namespace Mdh.Trader
open Mdh.Core Mdh.Lib Mdh.Lib.KeyedStore Mdh.Matching Mdh.Matching.MatchingEngine Mdh.Accounts Mdh.Risk
open Mdh.Risk.RiskGatedEngine Mdh.Gateway Mdh.Sequencing

section Totals
variable (round : Rounding) {before middle after : Ledger}

/-- Every account has as much cash and as many units; reservations may differ. -/
def SameTotals (before after : Ledger) : Prop :=
  ∀ accountId, after.cashTotal accountId = before.cashTotal accountId ∧
    ∀ instrumentId, after.positionTotal accountId instrumentId = before.positionTotal accountId instrumentId

theorem SameTotals.refl (ledger : Ledger) : SameTotals ledger ledger := fun _ => ⟨rfl, fun _ => rfl⟩

theorem SameTotals.trans (first : SameTotals before middle) (second : SameTotals middle after) : SameTotals before after :=
  fun accountId => ⟨(second accountId).1.trans (first accountId).1,
    fun instrumentId => ((second accountId).2 instrumentId).trans ((first accountId).2 instrumentId)⟩

theorem balances_accountRef (ledger : Ledger) (accountId : AccountId) (change : AccountBalances → AccountBalances)
    (other : AccountId) : (ledger.accountRef accountId change).balances other =
      if other = accountId then change (ledger.balances accountId) else ledger.balances other :=
  valueAt_modifyAt ledger.accounts accountId other change

theorem accountRef_sameTotals (ledger : Ledger) (accountId : AccountId) {change : AccountBalances → AccountBalances}
    (keeps : ∀ balances, (change balances).cashTotal = balances.cashTotal ∧
      (change balances).positionTotal = balances.positionTotal) : SameTotals ledger (ledger.accountRef accountId change) := by
  intro other
  unfold Ledger.cashTotal Ledger.positionTotal
  rw [balances_accountRef]
  split_ifs with same
  · rw [same, (keeps _).1, (keeps _).2]
    exact ⟨rfl, fun _ => rfl⟩
  · exact ⟨rfl, fun _ => rfl⟩

theorem addReserved_keeps (side : Side) (instrumentId : InstrumentId) (limitPrice : Int) (quantity : Nat) (sign : Int)
    (balances : AccountBalances) :
    (Ledger.addReserved round side instrumentId limitPrice quantity sign balances).cashTotal = balances.cashTotal ∧
      (Ledger.addReserved round side instrumentId limitPrice quantity sign balances).positionTotal = balances.positionTotal := by
  cases side <;> exact ⟨rfl, rfl⟩

theorem openHold_sameTotals (ledger : Ledger) (accountId : AccountId) (clientOrderId : ClientOrderId)
    (instrumentId : InstrumentId) (side : Side) (limitPrice : Int) (quantity : Nat) :
    SameTotals ledger (ledger.openHold round accountId clientOrderId instrumentId side limitPrice quantity) := by
  unfold Ledger.openHold
  split_ifs
  · exact .refl ledger
  · exact accountRef_sameTotals ledger accountId (addReserved_keeps round side instrumentId limitPrice quantity 1)

theorem releaseHoldFully_sameTotals (ledger : Ledger) (accountId : AccountId) (hold : Hold) :
    SameTotals ledger (ledger.releaseHoldFully round accountId hold) := by
  unfold Ledger.releaseHoldFully
  split_ifs
  · exact .refl ledger
  · exact accountRef_sameTotals ledger accountId (addReserved_keeps round hold.side _ _ _ _)

theorem shrinkHold_sameTotals (ledger : Ledger) (leg : TradeCounterparty) (side : Side) (instrumentId : InstrumentId)
    (tradeQuantity : Nat) : SameTotals ledger (ledger.shrinkHold round leg side instrumentId tradeQuantity) := by
  unfold Ledger.shrinkHold
  dsimp only
  cases ledger.holds.lookup ⟨leg.accountId, leg.clientOrderId⟩ with
  | none => exact .refl ledger
  | some hold =>
    dsimp only
    have released := accountRef_sameTotals ledger leg.accountId
      (addReserved_keeps round side instrumentId hold.limitPrice tradeQuantity (-1))
    split_ifs
    · exact released
    · exact released

/-- Only a trade moves cash or units. -/
theorem apply_sameTotals (ledger : Ledger) {event : ExchangeEvent} (plain : ∀ trade, event ≠ .tradeExecuted trade) :
    SameTotals ledger (ledger.apply round event) := by
  cases event with
  | tradeExecuted trade => exact absurd rfl (plain trade)
  | orderAccepted event =>
    show SameTotals ledger (ledger.onOrderAccepted round event)
    unfold Ledger.onOrderAccepted
    split_ifs
    · exact .refl ledger
    · exact openHold_sameTotals round ledger _ _ _ _ _ _
  | orderReplaced event =>
    show SameTotals ledger (ledger.onOrderReplaced round event)
    unfold Ledger.onOrderReplaced
    dsimp only
    split
    · exact .refl ledger
    · exact SameTotals.trans (releaseHoldFully_sameTotals round ledger _ _) (openHold_sameTotals round _ _ _ _ _ _ _)
  | orderCancelled event =>
    show SameTotals ledger (ledger.onOrderCancelled round event)
    unfold Ledger.onOrderCancelled
    dsimp only
    split
    · exact .refl ledger
    · exact releaseHoldFully_sameTotals round ledger _ _
  | orderRejected | bookOrderAdded | bookOrderReduced | bookOrderRemoved => exact .refl ledger

end Totals

section Holdings
variable (round : Rounding) {account : AccountId} {positions : PositionTracker} {ledger : Ledger}

/-- The positions have for the account what the ledger has. -/
def SameHoldings (account : AccountId) (positions : PositionTracker) (ledger : Ledger) : Prop :=
  positions.cash account = ledger.cashTotal account ∧
    ∀ instrumentId, positions.position account instrumentId = ledger.positionTotal account instrumentId

theorem SameHoldings.moved (same : SameHoldings account positions ledger) {after : Ledger} (totals : SameTotals ledger after) :
    SameHoldings account positions after :=
  ⟨same.1.trans (totals account).1.symm, fun instrumentId => (same.2 instrumentId).trans ((totals account).2 instrumentId).symm⟩

/-- The fill that a leg of a trade is to its owner, on a side. -/
def legFill (leg : TradeCounterparty) (side : Side) (instrumentId : InstrumentId) (price : Int) (quantity : Nat) : Fill where
  accountId := leg.accountId
  clientOrderId := leg.clientOrderId
  instrumentId
  side
  price
  quantity

def sideSign : Side → Int
  | .buy => 1
  | .sell => -1

/-- What a fill does to the cash and units of one account. -/
theorem apply_holdings (positions : PositionTracker) (fill : Fill) :
    (positions.apply round fill).cash fill.accountId =
        round.signed (positions.cash fill.accountId + -(sideSign fill.side * Ledger.notional round fill.quantity fill.price)) ∧
      ∀ instrumentId, (positions.apply round fill).position fill.accountId instrumentId =
        if instrumentId = fill.instrumentId then
          round.unsigned (positions.position fill.accountId fill.instrumentId + sideSign fill.side * fill.quantity)
        else positions.position fill.accountId instrumentId := by
  unfold PositionTracker.cash PositionTracker.position PositionTracker.apply
  dsimp only
  rw [valueAt_modifyAt, if_pos rfl]
  cases fill.side with
  | buy =>
    refine ⟨congrArg round.signed ?_, fun instrumentId => (valueAt_modifyAt _ _ _ _).trans ?_⟩
    · rw [sideSign, one_mul, sub_eq_add_neg]
      rfl
    · rw [sideSign, one_mul]
  | sell =>
    refine ⟨congrArg round.signed ?_, fun instrumentId => (valueAt_modifyAt _ _ _ _).trans ?_⟩
    · rw [sideSign, neg_one_mul, neg_neg]
      rfl
    · rw [sideSign, neg_one_mul, ← sub_eq_add_neg]

/-- What settling a leg does to the cash and units of an account: those of its own move, on the
units of the one instrument. -/
theorem settleLeg_holdings (ledger : Ledger) (leg : TradeCounterparty) (side : Side) (instrumentId : InstrumentId)
    (price : Int) (quantity : Nat) (other : AccountId) :
    let after := ledger.settleLeg round leg side instrumentId price quantity
    if other = leg.accountId then
      after.cashTotal other =
          round.signed (ledger.cashTotal other + -(sideSign side * Ledger.notional round quantity price)) ∧
        ∀ instrument, after.positionTotal other instrument =
          if instrument = instrumentId then round.unsigned (ledger.positionTotal other instrumentId + sideSign side * quantity)
          else ledger.positionTotal other instrument
    else after.cashTotal other = ledger.cashTotal other ∧
      ∀ instrument, after.positionTotal other instrument = ledger.positionTotal other instrument := by
  intro after
  let shrunk := (ledger.accountRef leg.accountId id).shrinkHold round leg side instrumentId quantity
  have totals : SameTotals ledger shrunk :=
    (accountRef_sameTotals ledger leg.accountId fun _ => ⟨rfl, rfl⟩).trans
      (shrinkHold_sameTotals round _ leg side instrumentId quantity)
  obtain ⟨cash, units⟩ := totals other
  have balances : after.balances other = if other = leg.accountId then
        Ledger.addPosition round instrumentId (sideSign side * quantity)
          (Ledger.addCash round (-(sideSign side * Ledger.notional round quantity price)) (shrunk.balances leg.accountId))
      else shrunk.balances other := by
    cases side <;> exact balances_accountRef ..
  split_ifs with own
  · rw [if_pos own, ← own] at balances
    rw [← cash, ← units]
    refine ⟨?_, fun instrument => ?_⟩
    · unfold Ledger.cashTotal
      rw [balances]
      rfl
    · rw [← units]
      unfold Ledger.positionTotal
      rw [balances]
      exact valueAt_modifyAt ..
  · rw [if_neg own] at balances
    refine ⟨?_, fun instrument => ?_⟩
    · rw [← cash]
      exact congrArg AccountBalances.cashTotal balances
    · rw [← units]
      exact congrArg (fun held : AccountBalances => valueAt held.positionTotal instrument) balances

/-- A leg settled at the exchange, and its fill at the trader. -/
theorem SameHoldings.settleLeg (same : SameHoldings account positions ledger) (leg : TradeCounterparty) (side : Side)
    (instrumentId : InstrumentId) (price : Int) (quantity : Nat) :
    SameHoldings account
      (if leg.accountId = account then positions.apply round (legFill leg side instrumentId price quantity) else positions)
      (ledger.settleLeg round leg side instrumentId price quantity) := by
  have settled := settleLeg_holdings round ledger leg side instrumentId price quantity account
  split_ifs with own
  · subst own
    rw [if_pos rfl] at settled
    obtain ⟨moved, held⟩ := apply_holdings round positions (legFill leg side instrumentId price quantity)
    refine ⟨?_, fun instrument => ?_⟩
    · rw [settled.1, ← same.1]
      exact moved
    · rw [settled.2, ← same.2, ← same.2]
      exact held instrument
  · rw [if_neg fun other => own other.symm] at settled
    exact ⟨same.1.trans settled.1.symm, fun instrument => (same.2 instrument).trans (settled.2 instrument).symm⟩

end Holdings

section Reports
variable (round : Rounding) {account : AccountId} {records : Records} {views : OrderViews} {positions : PositionTracker}
  {ledger : Ledger} {sides : ClientOrderId → Option Side} {command : ExchangeCommand} {events : List ExchangeEvent}

/-- The fill that a report is to the trader, whose orders are on these sides. -/
def fillOf (account : AccountId) (sides : ClientOrderId → Option Side) : Message → Option Fill
  | .tradeReport event => (sides event.clientOrderId).map fun side => {
      accountId := account
      clientOrderId := event.clientOrderId
      instrumentId := event.instrumentId
      side
      price := event.price
      quantity := event.quantity }
  | .accepted _ | .rejected _ | .cancelled _ | .replaced _ | .newOrder _ | .cancelOrder _ | .replaceOrder _ => none

/-- The positions once some reports have been handled. -/
def positionsAfter (account : AccountId) (sides : ClientOrderId → Option Side) (messages : List Message)
    (positions : PositionTracker) : PositionTracker :=
  (messages.filterMap (fillOf account sides)).foldl (PositionTracker.apply round) positions

theorem positionsAfter_append (front back : List Message) :
    positionsAfter round account sides (front ++ back) positions =
      positionsAfter round account sides back (positionsAfter round account sides front positions) := by
  unfold positionsAfter
  rw [List.filterMap_append, List.foldl_append]

/-- The sides of orders that no report names do not matter. -/
theorem positionsAfter_sides {others : ClientOrderId → Option Side} {messages : List Message}
    (alike : ∀ message ∈ messages, ∀ id, Mentions message id → others id = sides id) :
    positionsAfter round account others messages positions = positionsAfter round account sides messages positions := by
  unfold positionsAfter
  rw [List.filterMap_congr]
  intro message member
  cases message with
  | tradeReport event => exact congrArg (Option.map _) (alike _ member event.clientOrderId rfl)
  | accepted | rejected | cancelled | replaced | newOrder | cancelOrder | replaceOrder => rfl

theorem SameHoldings.leg (same : SameHoldings account positions ledger) {leg : TradeCounterparty} {side : Side}
    (sided : leg.accountId = account → sides leg.clientOrderId = some side) (event : TradeExecuted) :
    SameHoldings account
      (positionsAfter round account sides (if leg.accountId = account then [legReport leg event] else []) positions)
      (ledger.settleLeg round leg side event.instrumentId event.price event.quantity) := by
  have settled := same.settleLeg round leg side event.instrumentId event.price event.quantity
  split_ifs at settled ⊢ with own
  · have fill : fillOf account sides (legReport leg event) =
        some (legFill leg side event.instrumentId event.price event.quantity) := by
      show (sides leg.clientOrderId).map _ = _
      rw [sided own, Option.map_some, ← own]
      rfl
    unfold positionsAfter
    rw [List.filterMap_cons_some fill]
    exact settled
  · exact settled

/-- The orders in view are on the sides the trader has them on. -/
theorem Agrees.sided (agrees : Agrees account records views) (known : ∀ id, (records id).map ClientOrder.side = sides id)
    {party : TradeCounterparty} {side : Side} (inView : OnSide account views party side) (own : party.accountId = account) :
    sides party.clientOrderId = some side := by
  obtain ⟨view, seen, rfl⟩ := inView own
  rw [← agrees (partyKey party) own] at seen
  obtain ⟨order, found, shown⟩ := Option.bind_eq_some_iff.mp seen
  rw [← known, show records party.clientOrderId = some order from found]
  unfold ClientOrder.view at shown
  split_ifs at shown
  obtain ⟨_, _, rfl⟩ := Option.map_eq_some_iff.mp shown
  rfl

theorem recordsAfter_sides (messages : List Message) (id : ClientOrderId) :
    (recordsAfter messages records id).map ClientOrder.side = (records id).map ClientOrder.side := by
  unfold recordsAfter
  rw [Option.map_map]
  exact congrArg (Option.map · _) (funext fun order => (effects_keeps messages id order).2)

/-- Handling the reports of an event does to the positions what the event does to the ledger. -/
theorem SameHoldings.after (same : SameHoldings account positions ledger) (agrees : Agrees account records views)
    (known : ∀ id, (records id).map ClientOrder.side = sides id) {event : ExchangeEvent} (told : Told account views event) :
    SameHoldings account (positionsAfter round account sides (reportsFor account [event]) positions)
      (ledger.apply round event) := by
  cases event with
  | tradeExecuted event =>
    rw [reportsFor_trade, positionsAfter_append]
    have filled := agrees.fill told.1 event
    refine (same.leg round (fun own => agrees.sided known told.1 own) event).leg round (fun own => ?_) event
    exact filled.sided (fun id => (recordsAfter_sides _ id).trans (known id)) told.2 own
  | orderAccepted | orderRejected | orderCancelled | orderReplaced =>
    rw [reportsFor_single account rfl]
    split_ifs
    · exact same.moved (apply_sameTotals round ledger nofun)
    · exact same.moved (apply_sameTotals round ledger nofun)
  | bookOrderAdded | bookOrderReduced | bookOrderRemoved => exact same

theorem SameHoldings.ofBook (same : SameHoldings account positions ledger) (agrees : Agrees account records views)
    (known : ∀ id, (records id).map ClientOrder.side = sides id) (recounts : Recounts account views events)
    (ofBook : ∀ event ∈ events, OfBook event) :
    SameHoldings account (positionsAfter round account sides (reportsFor account events) positions)
      (events.foldl (Ledger.apply round) ledger) := by
  induction events generalizing records views positions ledger with
  | nil => exact same
  | cons event rest ih =>
    rw [reportsFor_cons, positionsAfter_append]
    exact ih (same.after round agrees known recounts.1)
      (agrees.after recounts.1 (ofBook_fits (ofBook event List.mem_cons_self)))
      (fun id => (recordsAfter_sides _ id).trans (known id)) recounts.2
      fun other member => ofBook other (List.mem_cons_of_mem _ member)

theorem SameHoldings.follows (same : SameHoldings account positions ledger) (agrees : Agrees account records views)
    (known : ∀ id, (records id).map ClientOrder.side = sides id) (tells : Tells account views command events)
    (asked : (subject command).accountId = account → Asked account records command) :
    SameHoldings account (positionsAfter round account sides (reportsFor account events) positions)
      (events.foldl (Ledger.apply round) ledger) := by
  obtain ⟨event, later, rfl, outcome, ofBook⟩ := tells.first
  rw [reportsFor_cons, positionsAfter_append]
  exact (same.after round agrees known tells.recounts.1).ofBook round
    (agrees.after tells.recounts.1 (Asked.fits asked outcome)) (fun id => (recordsAfter_sides _ id).trans (known id))
    tells.recounts.2 ofBook

end Reports

section Clients
variable (round : Rounding) {account : AccountId} (client : Client)

def Client.sides : ClientOrderId → Option Side := fun id => (client.oms.orders id).map ClientOrder.side

/-- The positions of a trader once it has handled the reports on their way. -/
def Client.settled (account : AccountId) : PositionTracker :=
  positionsAfter round account client.sides client.reports client.positions

theorem records_sides (id : ClientOrderId) : (client.records id).map ClientOrder.side = client.sides id :=
  recordsAfter_sides ..

theorem handle_sides (report : Message) : (client.handle round report).sides = client.sides := by
  funext id
  unfold Client.sides
  rw [handle_orders, Option.map_map]
  exact congrArg (Option.map · _) (funext fun order => (effect_keeps report id order).2)

theorem handle_positions (own : client.oms.accountId = account) (report : Message) :
    (client.handle round report).positions = positionsAfter round account client.sides [report] client.positions := by
  cases report with
  | tradeReport event =>
    unfold Client.handle OrderManagementSystem.handleMessage OrderManagementSystem.onTradeReport positionsAfter
    dsimp only
    cases found : client.oms.orders event.clientOrderId with
    | none =>
      have fill : fillOf account client.sides (.tradeReport event) = none := by
        show ((client.oms.orders event.clientOrderId).map _).map _ = none
        rw [found]
        rfl
      rw [List.filterMap_cons_none fill]
      rfl
    | some order =>
      have fill : fillOf account client.sides (.tradeReport event) = some {
          accountId := client.oms.accountId, clientOrderId := event.clientOrderId, instrumentId := event.instrumentId
          side := order.side, price := event.price, quantity := event.quantity } := by
        show ((client.oms.orders event.clientOrderId).map _).map _ = _
        rw [found, own]
        rfl
      rw [List.filterMap_cons_some fill]
      rfl
  | accepted | rejected | cancelled | replaced | newOrder | cancelOrder | replaceOrder => rfl

/-- What the positions will be is as before a report is handled. -/
theorem handle_settled (own : client.oms.accountId = account) {report : Message} {reports : List Message}
    (queued : client.reports = report :: reports) :
    (({ client with reports } : Client).handle round report).settled round account = client.settled round account := by
  unfold Client.settled
  rw [handle_sides, handle_positions round { client with reports } own, queued]
  exact (positionsAfter_append round [report] reports).symm

/-- Nor does a call change what they will be, for it enters orders that no report names yet. -/
theorem SameHoldings.sends {client : Client} {ledger : Ledger}
    (same : SameHoldings account (client.settled round account) ledger)
    (known : ∀ message ∈ client.reports, ∀ id, Mentions message id → id < client.oms.nextClientOrderId)
    {oms : OrderManagementSystem}
    (alike : ∀ id < client.oms.nextClientOrderId,
      (oms.orders id).map ClientOrder.side = (client.oms.orders id).map ClientOrder.side)
    (request : Option Message) : SameHoldings account ((client.send oms request).settled round account) ledger := by
  have kept : (client.send oms request).settled round account = client.settled round account :=
    positionsAfter_sides round fun message member id mentioned => alike id (known message member id mentioned)
  rw [kept]
  exact same

theorem update_sides (oms : OrderManagementSystem) (clientOrderId id : ClientOrderId) (action : PendingAction) :
    ((oms.update clientOrderId fun order => { order with pendingAction := action }).orders id).map ClientOrder.side =
      (oms.orders id).map ClientOrder.side := by
  rw [update_orders, Option.map_map]
  refine congrArg (Option.map · _) (funext fun order => ?_)
  dsimp only [Function.comp_apply]
  split_ifs <;> rfl

theorem cancelOrder_sides (oms : OrderManagementSystem) (clientOrderId id : ClientOrderId) :
    ((oms.cancelOrder clientOrderId true).1.orders id).map ClientOrder.side = (oms.orders id).map ClientOrder.side := by
  unfold OrderManagementSystem.cancelOrder
  cases oms.workable clientOrderId with
  | none => rfl
  | some order => exact update_sides oms clientOrderId id .cancel

theorem replaceOrder_sides (oms : OrderManagementSystem) (clientOrderId : ClientOrderId) (newPrice : Int) (newQuantity : Nat)
    {id : ClientOrderId} (before : id < oms.nextClientOrderId) :
    ((oms.replaceOrder clientOrderId newPrice newQuantity true).1.orders id).map ClientOrder.side =
      (oms.orders id).map ClientOrder.side := by
  unfold OrderManagementSystem.replaceOrder
  cases oms.workable clientOrderId with
  | none => rfl
  | some order =>
    obtain ⟨_, sameNext⟩ := update_account oms clientOrderId fun order => { order with pendingAction := .replace }
    refine Eq.trans (congrArg (Option.map ClientOrder.side) ?_) (update_sides oms clientOrderId id .replace)
    exact Function.update_of_ne (by rw [sameNext]; exact before.ne) ..

/-- The reports of a command set out. -/
theorem told_settled (events : List ExchangeEvent) :
    (client.told account events).settled round account =
      positionsAfter round account client.sides (reportsFor account events) (client.settled round account) :=
  positionsAfter_append round client.reports (reportsFor account events)

end Clients

section Floor
variable (round : Rounding) {managed : AccountId → Bool} {floor : TradingFloor} {account : AccountId}

/-- The exchange processes a command: its reports do to the positions what it does to the ledger. -/
theorem SameHoldings.process {client : Client} {gated : RiskGatedEngine} (sound : gated.engine.Sound)
    (synced : Synced account client gated.engine)
    (same : SameHoldings account (client.settled round account) gated.ledger) {command : ExchangeCommand}
    (asked : (subject command).accountId = account → Asked account client.records command) :
    SameHoldings account ((client.told account (gated.process round command).events).settled round account)
      (gated.process round command).gated.ledger := by
  obtain ⟨tells, _⟩ := process_tells round sound synced.shown command (Asked.fresh asked synced.shown)
  have agrees : Agrees account client.records (recordViews client.records) := fun _ _ => rfl
  rw [told_settled, process_ledger]
  exact same.follows round agrees (records_sides client) tells asked

theorem SameHoldings.step (followed : Followed managed floor)
    (same : SameHoldings account ((floor.clients account).settled round account) floor.exchange.ledger)
    {action : FloorAction} {after : TradingFloor} (stepped : floor.step round managed action = some after)
    (alone : managed account = true) :
    SameHoldings account ((after.clients account).settled round account) after.exchange.ledger := by
  have synced := followed.synced account alone
  cases followed.sees round stepped alone with
  | stays action client exchange =>
    rw [client, exchange]
    exact same
  | submits instrumentId side price quantity orderType timeInForce client exchange =>
    rw [client, exchange]
    exact same.sends round synced.known
      (fun id before => congrArg (Option.map ClientOrder.side) (Function.update_of_ne before.ne ..)) _
  | cancels clientOrderId client exchange =>
    rw [client, exchange]
    exact same.sends round synced.known (fun id _ => cancelOrder_sides _ clientOrderId id) _
  | replaces clientOrderId newPrice newQuantity client exchange =>
    rw [client, exchange]
    exact same.sends round synced.known (fun id before => replaceOrder_sides _ clientOrderId newPrice newQuantity before) _
  | handles report reports queued client exchange =>
    rw [client, exchange, handle_settled round _ synced.own queued]
    exact same
  | takes request requests command queued stands client exchange =>
    rw [client, exchange]
    obtain ⟨rest, asked, _⟩ := synced.takes queued stands
    obtain ⟨_, _, sameAsked⟩ := sequence_alike floor.sequencer command
    exact SameHoldings.process round followed.sound rest same fun _ => (sameAsked _ _).mpr asked
  | observes action command foreign client exchange =>
    rw [client, exchange]
    exact same.process round followed.sound synced fun own => absurd own foreign

section Runs
variable {limits : RiskLimits} {instruments : List InstrumentId}

theorem into_elsewhere (ledger : Ledger) {deposit : Deposit} (other : depositAccount deposit ≠ account) :
    (Deposit.into round ledger deposit).balances account = ledger.balances account := by
  cases deposit <;> exact (balances_accountRef ..).trans (if_neg (Ne.symm other))

/-- A deposit is made on both sides. -/
theorem SameHoldings.deposited {positions : PositionTracker} {ledger : Ledger} {deposit : Deposit}
    (same : SameHoldings (depositAccount deposit) positions ledger) :
    SameHoldings (depositAccount deposit) (Trader.deposited round positions deposit) (Deposit.into round ledger deposit) := by
  unfold SameHoldings Ledger.cashTotal Ledger.positionTotal PositionTracker.cash PositionTracker.position at same ⊢
  obtain ⟨cash, units⟩ := same
  cases deposit with
  | cash own amount =>
    have balances : (Deposit.into round ledger (.cash own amount)).balances own = _ :=
      (balances_accountRef ..).trans (if_pos rfl)
    have account : valueAt (Trader.deposited round positions (.cash own amount)).accounts own = _ :=
      (valueAt_modifyAt ..).trans (if_pos rfl)
    simp only [depositAccount] at cash units ⊢
    rw [balances, account]
    exact ⟨congrArg (fun held => round.signed (held + amount)) cash, units⟩
  | position own instrumentId amount =>
    have balances : (Deposit.into round ledger (.position own instrumentId amount)).balances own = _ :=
      (balances_accountRef ..).trans (if_pos rfl)
    have account : valueAt (Trader.deposited round positions (.position own instrumentId amount)).accounts own = _ :=
      (valueAt_modifyAt ..).trans (if_pos rfl)
    simp only [depositAccount] at cash units ⊢
    rw [balances, account]
    refine ⟨cash, fun instrument => ?_⟩
    unfold Ledger.addPosition
    rw [valueAt_modifyAt, valueAt_modifyAt, units, units]

theorem start_holdings (deposits : List Deposit) {positions : PositionTracker} {ledger : Ledger}
    (same : SameHoldings account positions ledger) :
    SameHoldings account
      ((deposits.filter fun deposit => depositAccount deposit = account).foldl (Trader.deposited round) positions)
      (deposits.foldl (Deposit.into round) ledger) := by
  induction deposits generalizing positions ledger with
  | nil => exact same
  | cons deposit rest ih =>
    by_cases own : depositAccount deposit = account
    · rw [List.filter_cons_of_pos (by simpa using own)]
      subst own
      exact ih (same.deposited round)
    · rw [List.filter_cons_of_neg (by simpa using own)]
      have balances := into_elsewhere round ledger own
      refine ih ⟨same.1.trans ?_, fun instrumentId => (same.2 instrumentId).trans ?_⟩
      · exact congrArg AccountBalances.cashTotal balances.symm
      · exact congrArg (fun held : AccountBalances => valueAt held.positionTotal instrumentId) balances.symm

/-- The trader's positions match the exchange's ledger, once it has handled every report of a trade. -/
theorem positions_agree {deposits : List Deposit} {actions : List FloorAction}
    (ran : Transitions.run (TradingFloor.step round managed) (TradingFloor.start round limits instruments deposits) actions =
      some floor) (alone : managed account = true)
    (handled : ∀ report ∈ (floor.clients account).reports, ∀ trade, report ≠ .tradeReport trade) :
    (floor.clients account).positions.cash account = floor.exchange.ledger.cashTotal account ∧
      ∀ instrumentId, (floor.clients account).positions.position account instrumentId =
        floor.exchange.ledger.positionTotal account instrumentId := by
  obtain ⟨_, same⟩ := Transitions.run_invariant
    (fun state action next (kept : Followed managed state ∧
        SameHoldings account ((state.clients account).settled round account) state.exchange.ledger) stepped =>
      ⟨kept.1.step round stepped, kept.2.step round kept.1 stepped alone⟩)
    ⟨start_followed round, start_holdings round deposits ⟨rfl, fun _ => rfl⟩⟩ ran
  have settled : (floor.clients account).settled round account = (floor.clients account).positions := by
    unfold Client.settled positionsAfter
    rw [List.filterMap_eq_nil_iff.mpr fun report member => ?_]
    · rfl
    · cases report with
      | tradeReport trade => exact absurd rfl (handled _ member trade)
      | accepted | rejected | cancelled | replaced | newOrder | cancelOrder | replaceOrder => rfl
  rw [settled] at same
  exact same

/-- An order of one account filled by another's and by one of its own. -/
def tradesWithItself : List FloorAction :=
  [.submitNewOrder 7 3 .buy 10 5 .limit .gtc, .takeRequest 7, .submitNewOrder 8 3 .sell 10 2 .limit .gtc, .takeRequest 8,
    .submitNewOrder 7 3 .sell 9 3 .limit .ioc, .takeRequest 7, .handleReport 7, .handleReport 7, .handleReport 7,
    .handleReport 7, .handleReport 7]

theorem positions_agree_itself :
    ∃ floor, Transitions.run (TradingFloor.step .exact fun _ => true)
        (TradingFloor.start .exact {} [3] [.cash 7 1000, .position 7 3 5, .position 8 3 10]) tradesWithItself = some floor ∧
      floor.exchange.ledger.cashTotal 7 = 980 ∧
      (floor.clients 7).positions.cash 7 = floor.exchange.ledger.cashTotal 7 ∧
      ∀ instrumentId, (floor.clients 7).positions.position 7 instrumentId =
        floor.exchange.ledger.positionTotal 7 instrumentId := by
  have comes : (Transitions.run (TradingFloor.step .exact fun _ => true)
      (TradingFloor.start .exact {} [3] [.cash 7 1000, .position 7 3 5, .position 8 3 10]) tradesWithItself).map
      (fun floor => ((floor.clients 7).reports, floor.exchange.ledger.cashTotal 7)) = some ([], 980) := by
    decide +kernel
  obtain ⟨floor, ran, seen⟩ := Option.map_eq_some_iff.mp comes
  obtain ⟨none, cash⟩ := Prod.mk.inj seen
  exact ⟨floor, ran, cash, positions_agree .exact ran rfl (by rw [none]; nofun)⟩

end Runs

end Floor

end Mdh.Trader
