import Mdh.Trader.OrdersFollowed

/-! When the requests of a trader settle. Each order that is pending, and each pending cancel or
replace, has its request on the way, and each order that counts as live rests at the exchange, in
every run in which no replacement is turned down, for its rejection names the original alone, and
no order is discarded, which no event tells. -/

namespace Mdh.Trader
open Mdh.Core Mdh.Lib Mdh.Matching Mdh.Matching.MatchingEngine Mdh.Risk Mdh.Risk.RiskGatedEngine Mdh.Gateway
open Mdh.Sequencing

/-- The order that a command is to cancel or replace. -/
def altered : ExchangeCommand → Option LiveKey
  | .newOrder _ => none
  | .cancelOrder command => some ⟨command.accountId, command.clientOrderId⟩
  | .replaceOrder command => some (originalKey command)

/-- An order that counts as live has the id the exchange gave it. -/
def Identified (records : Records) : Prop :=
  ∀ id order, records id = some order → order.state.isLive = true → order.exchangeOrderId ≠ none

section Effects
variable {message : Message} {clientOrderId : ClientOrderId}

/-- No report makes a cancel or replace pending. -/
theorem effect_quiet {order : ClientOrder} (quiet : order.pendingAction = .none) :
    (effect message clientOrderId order).pendingAction = .none := by
  cases message with
  | replaced event =>
    unfold effect
    dsimp only
    split_ifs
    · rfl
    · exact quiet
    · rfl
    · exact quiet
  | accepted event | rejected event | cancelled event | tradeReport event =>
    unfold effect
    dsimp only
    split_ifs
    · first
      | exact quiet
      | rfl
    · exact quiet
  | newOrder | cancelOrder | replaceOrder => exact quiet

theorem effects_quiet {messages : List Message} {order : ClientOrder} (quiet : order.pendingAction = .none) :
    (effects messages clientOrderId order).pendingAction = .none := by
  induction messages generalizing order with
  | nil => exact quiet
  | cons message rest ih => exact ih (effect_quiet quiet)

/-- A report other than a trade's identifies what it makes live. -/
theorem effect_identified {order : ClientOrder} (plain : ∀ event, message ≠ .tradeReport event)
    (identified : order.state.isLive = true → order.exchangeOrderId ≠ none)
    (live : (effect message clientOrderId order).state.isLive = true) :
    (effect message clientOrderId order).exchangeOrderId ≠ none := by
  cases message with
  | tradeReport event => exact absurd rfl (plain event)
  | accepted event =>
    unfold effect at live ⊢
    dsimp only at live ⊢
    split_ifs at live ⊢
    · nofun
    · exact identified live
  | rejected event =>
    unfold effect at live ⊢
    dsimp only at live ⊢
    split_ifs at live ⊢
    · unfold ClientOrder.reject at live
      dsimp only at live
      split_ifs at live
      · cases live
      · exact identified live
    · exact identified live
  | cancelled event =>
    unfold effect at live ⊢
    dsimp only at live ⊢
    split_ifs at live ⊢
    · cases live
    · exact identified live
  | replaced event =>
    unfold effect at live ⊢
    dsimp only at live ⊢
    split_ifs at live ⊢
    · nofun
    · nofun
    · cases live
    · exact identified live
  | newOrder | cancelOrder | replaceOrder => exact identified live

end Effects

section Identified
variable {account : AccountId} {records : Records} {views : OrderViews} {command : ExchangeCommand} {events : List ExchangeEvent}

theorem Identified.plain (identified : Identified records) {message : Message} (plain : ∀ event, message ≠ .tradeReport event) :
    Identified (recordsAfter [message] records) := by
  intro id order found live
  obtain ⟨before, there, rfl⟩ := Option.map_eq_some_iff.mp found
  exact effect_identified plain (identified id before there) live

theorem Identified.nothing (identified : Identified records) : Identified (recordsAfter [] records) := by
  intro id order found live
  obtain ⟨before, there, rfl⟩ := Option.map_eq_some_iff.mp found
  exact identified id before there live

/-- A fill names an order in view, which has its id. -/
theorem Identified.fill (identified : Identified records) (agrees : Agrees account records views) {party : TradeCounterparty}
    {side : Side} (inView : OnSide account views party side) (event : TradeExecuted) :
    Identified (recordsAfter (if party.accountId = account then [legReport party event] else []) records) := by
  split_ifs with own
  · intro id order found live
    obtain ⟨before, there, rfl⟩ := Option.map_eq_some_iff.mp found
    by_cases named : id = party.clientOrderId
    · obtain ⟨view, seen, _⟩ := inView own
      rw [← agrees (partyKey party) own] at seen
      have found : records (partyKey party).clientOrderId = some before :=
        (congrArg records named).symm.trans there
      rw [found] at seen
      have shown : before.view = some view := seen
      unfold ClientOrder.view at shown
      split_ifs at shown
      obtain ⟨exchangeOrderId, identity, _⟩ := Option.map_eq_some_iff.mp shown
      show (effect (legReport party event) id before).exchangeOrderId ≠ none
      unfold effect legReport
      dsimp only
      rw [if_pos named]
      show before.exchangeOrderId ≠ none
      rw [identity]
      nofun
    · have same : effects [legReport party event] id before = before := if_neg named
      rw [same] at live ⊢
      exact identified id before there live
  · exact identified.nothing

theorem Identified.after (identified : Identified records) (agrees : Agrees account records views) {event : ExchangeEvent}
    (told : Told account views event) : Identified (recordsAfter (reportsFor account [event]) records) := by
  cases event with
  | tradeExecuted event =>
    rw [reportsFor_trade, recordsAfter_append]
    exact (identified.fill agrees told.1 event).fill (agrees.fill told.1 event) told.2 event
  | orderAccepted | orderRejected | orderCancelled | orderReplaced =>
    rw [reportsFor_single account rfl]
    split_ifs
    · exact identified.plain nofun
    · exact identified.nothing
  | bookOrderAdded | bookOrderReduced | bookOrderRemoved => exact identified.nothing

theorem Identified.ofBook (identified : Identified records) (agrees : Agrees account records views)
    (recounts : Recounts account views events) (ofBook : ∀ event ∈ events, OfBook event) :
    Identified (recordsAfter (reportsFor account events) records) := by
  induction events generalizing records views with
  | nil => exact identified.nothing
  | cons event rest ih =>
    rw [reportsFor_cons, recordsAfter_append]
    exact ih (identified.after agrees recounts.1)
      (agrees.after recounts.1 (ofBook_fits (ofBook event List.mem_cons_self))) recounts.2
      fun other member => ofBook other (List.mem_cons_of_mem _ member)

theorem Identified.follows (identified : Identified records) (agrees : Agrees account records views)
    (tells : Tells account views command events) (asked : (subject command).accountId = account → Asked account records command) :
    Identified (recordsAfter (reportsFor account events) records) := by
  obtain ⟨event, later, rfl, outcome, ofBook⟩ := tells.first
  rw [reportsFor_cons, recordsAfter_append]
  exact (identified.after agrees tells.recounts.1).ofBook (agrees.after tells.recounts.1 (Asked.fits asked outcome))
    tells.recounts.2 ofBook

end Identified

section Closing
variable {account : AccountId} {command : ExchangeCommand} {event : ExchangeEvent} {id : ClientOrderId} (order : ClientOrder)

/-- The first report of a command answers the order it asks for, unless it turns a replacement down. -/
theorem Outcome.closesCreated (outcome : Outcome command event) (asks : created command = some ⟨account, id⟩)
    (carried : ∀ replace, command = .replaceOrder replace → Answers command event) :
    (effects (reportsFor account [event]) id order).state ≠ .pendingNew := by
  cases command with
  | newOrder command =>
    obtain ⟨rfl, rfl⟩ := LiveKey.mk.inj (Option.some.inj asks)
    rcases outcome with ⟨_, _, rfl⟩ | ⟨rejection, rfl, named⟩
    · rw [reportsFor_single _ rfl, if_pos rfl]
      show ClientOrder.state (if command.clientOrderId = command.clientOrderId then order.accept _ else order) ≠ _
      rw [if_pos rfl]
      nofun
    · obtain ⟨own, about⟩ := LiveKey.mk.inj named
      rw [reportsFor_single _ rfl, if_pos own]
      show ClientOrder.state (if command.clientOrderId = rejection.clientOrderId then order.reject _ else order) ≠ _
      rw [if_pos about.symm]
      unfold ClientOrder.reject
      dsimp only
      split_ifs with pending
      · nofun
      · exact pending
  | cancelOrder command => cases asks
  | replaceOrder command =>
    obtain ⟨rfl, rfl⟩ := LiveKey.mk.inj (Option.some.inj asks)
    obtain ⟨_, _, rfl⟩ := carried command rfl
    rw [reportsFor_single _ rfl, if_pos rfl]
    show ClientOrder.state (if command.newClientOrderId = command.newClientOrderId then ClientOrder.replaceWith _ _ else _) ≠ _
    rw [if_pos rfl]
    nofun

/-- The first report of a command ends what was pending for the order it is about. -/
theorem Outcome.closesAltered (outcome : Outcome command event) (alters : altered command = some ⟨account, id⟩) :
    (effects (reportsFor account [event]) id order).pendingAction = .none := by
  have rejected {rejection : OrderRejected} (own : rejection.accountId = account) (about : id = rejection.clientOrderId) :
      (effects (reportsFor account [.orderRejected rejection]) id order).pendingAction = .none := by
    rw [reportsFor_single _ rfl, if_pos own]
    show ClientOrder.pendingAction (if id = rejection.clientOrderId then order.reject _ else order) = _
    rw [if_pos about]
    rfl
  cases command with
  | newOrder command => cases alters
  | cancelOrder command =>
    obtain ⟨rfl, rfl⟩ := LiveKey.mk.inj (Option.some.inj alters)
    rcases outcome with ⟨_, _, rfl⟩ | ⟨rejection, rfl, named⟩
    · rw [reportsFor_single _ rfl, if_pos rfl]
      show ClientOrder.pendingAction (if command.clientOrderId = command.clientOrderId then order.cancel else order) = _
      rw [if_pos rfl]
      rfl
    · obtain ⟨own, about⟩ := LiveKey.mk.inj named
      exact rejected own about.symm
  | replaceOrder command =>
    obtain ⟨rfl, rfl⟩ := LiveKey.mk.inj (Option.some.inj alters)
    rcases outcome with ⟨_, _, rfl⟩ | ⟨rejection, rfl, named⟩
    · rw [reportsFor_single _ rfl, if_pos rfl]
      show ClientOrder.pendingAction (if _ then ClientOrder.replaceWith (if _ then order.supersede else order) _ else
        if _ then order.supersede else order) = _
      rw [if_pos rfl]
      split_ifs <;> rfl
    · obtain ⟨own, about⟩ := LiveKey.mk.inj named
      exact rejected own about.symm

/-- The reports of a command close what it asks for, unless it is a replacement that is turned down. -/
theorem Tells.closes {views : OrderViews} {events : List ExchangeEvent} (tells : Tells account views command events)
    (carried : ∀ replace, command = .replaceOrder replace → ∃ event later, events = event :: later ∧ Answers command event) :
    (∀ id, created command = some ⟨account, id⟩ → ∀ order,
      (effects (reportsFor account events) id order).state ≠ .pendingNew) ∧
    ∀ id, altered command = some ⟨account, id⟩ → ∀ order,
      (effects (reportsFor account events) id order).pendingAction = .none := by
  obtain ⟨event, later, rfl, outcome, _⟩ := tells.first
  rw [reportsFor_cons]
  refine ⟨fun id asks order => ?_, fun id alters order => ?_⟩
  · rw [effects_append]
    refine fun pending => outcome.closesCreated order asks (fun replace same => ?_) (effects_pendingNew pending)
    obtain ⟨answer, _, split, answers⟩ := carried replace same
    obtain ⟨rfl, _⟩ := List.cons.inj split
    exact answers
  · rw [effects_append]
    exact effects_quiet (outcome.closesAltered order alters)

end Closing

/-- The orders of a trader once it has handled the reports on their way. -/
def Client.upcoming (client : Client) : Records := fun id => (client.oms.orders id).map (effects client.reports id)

/-- What is open at a trader has one of these requests on the way, or rests at the exchange. -/
structure Settling (account : AccountId) (commands : List ExchangeCommand) (client : Client) (engine : MatchingEngine) : Prop where
  entered : ∀ id order, client.upcoming id = some order → order.state = .pendingNew →
    some ⟨account, id⟩ ∈ commands.map created
  pending : ∀ id order, client.upcoming id = some order → order.pendingAction ≠ .none →
    some ⟨account, id⟩ ∈ commands.map altered
  identified : Identified client.records
  live : Live account (recordViews client.records) engine

section Steps
variable {account : AccountId} {commands : List ExchangeCommand} {client : Client} {engine : MatchingEngine}

theorem Settling.more (settling : Settling account commands client engine) {others : List ExchangeCommand}
    (included : commands ⊆ others) : Settling account others client engine where
  entered id order found open_ := List.map_subset _ included (settling.entered id order found open_)
  pending id order found open_ := List.map_subset _ included (settling.pending id order found open_)
  identified := settling.identified
  live := settling.live

/-- An order is entered whose request is on the way. -/
theorem Settling.registers (settling : Settling account commands client engine) (synced : Synced account client engine)
    {order : ClientOrder} (pending : order.state = .pendingNew) (quiet : order.pendingAction = .none)
    (sent : some ⟨account, client.oms.nextClientOrderId⟩ ∈ commands.map created) :
    Settling account commands { client with oms := client.oms.register order } engine := by
  have records : ({ client with oms := client.oms.register order } : Client).records =
      Function.update client.records client.oms.nextClientOrderId (some order.idle) := synced.records_register order
  have upcoming (id : ClientOrderId) : ({ client with oms := client.oms.register order } : Client).upcoming id =
      if id = client.oms.nextClientOrderId then some order else client.upcoming id := by
    unfold Client.upcoming OrderManagementSystem.register
    dsimp only
    rw [Function.update_apply]
    split_ifs with same
    · rw [same, Option.map_some, effects_unmentioned fun message member mentioned =>
        lt_irrefl _ (synced.known message member _ mentioned)]
    · rfl
  refine ⟨fun id other found open_ => ?_, fun id other found open_ => ?_, fun id other found live => ?_, ?_⟩
  · rw [upcoming] at found
    split_ifs at found with same
    · rw [same]
      exact sent
    · exact settling.entered id other found open_
  · rw [upcoming] at found
    split_ifs at found with same
    · obtain rfl := Option.some.inj found
      exact absurd quiet open_
    · exact settling.pending id other found open_
  · rw [records, Function.update_apply] at found
    split_ifs at found
    · obtain rfl := Option.some.inj found
      rw [show order.idle.state = .pendingNew from pending] at live
      cases live
    · exact settling.identified id other found live
  · rw [records, recordViews_register synced.records_next]
    · exact settling.live
    · exact pendingNew_view pending

/-- A cancel or replace becomes pending whose request is on the way. -/
theorem Settling.pends (settling : Settling account commands client engine) (synced : Synced account client engine)
    {clientOrderId : ClientOrderId} (action : PendingAction) (sent : some ⟨account, clientOrderId⟩ ∈ commands.map altered) :
    Settling account commands
      { client with oms := client.oms.update clientOrderId fun order => { order with pendingAction := action } } engine := by
  obtain ⟨records, _⟩ := synced.pends clientOrderId action
  have same (order : ClientOrder) (id : ClientOrderId) :
      (effects client.reports id { order with pendingAction := action }).state = (effects client.reports id order).state := by
    show (effects client.reports id { order with pendingAction := action }).idle.state = _
    rw [effects_pendingAction]
    rfl
  refine ⟨fun id order found open_ => ?_, fun id order found open_ => ?_, ?_, ?_⟩
  · unfold Client.upcoming at found
    rw [update_orders, Option.map_map] at found
    obtain ⟨before, there, rfl⟩ := Option.map_eq_some_iff.mp found
    refine settling.entered id (effects client.reports id before) (congrArg (Option.map _) there) ?_
    rw [Function.comp_apply] at open_
    split_ifs at open_
    · exact (same before id).symm.trans open_
    · exact open_
  · unfold Client.upcoming at found
    rw [update_orders, Option.map_map] at found
    obtain ⟨before, there, rfl⟩ := Option.map_eq_some_iff.mp found
    by_cases named : id = clientOrderId
    · rw [named]
      exact sent
    · rw [Function.comp_apply, if_neg named] at open_
      exact settling.pending id _ (congrArg (Option.map _) there) open_
  · rw [records]
    exact settling.identified
  · rw [records]
    exact settling.live

theorem Settling.sends {oms : OrderManagementSystem} {request : Message} {command : ExchangeCommand}
    (stands : toCommand request = some command)
    (settling : Settling account (client.commands ++ [command]) { client with oms } engine) :
    Settling account (client.send oms (some request)).commands (client.send oms (some request)) engine := by
  rw [commands_send client oms stands]
  exact ⟨settling.entered, settling.pending, settling.identified, settling.live⟩

theorem mem_map_last {names : ExchangeCommand → Option LiveKey} {command : ExchangeCommand} {key : LiveKey}
    (named : names command = some key) (commands : List ExchangeCommand) : some key ∈ (commands ++ [command]).map names :=
  List.mem_map.mpr ⟨command, List.mem_append_right _ (List.mem_singleton_self _), named⟩

theorem Settling.nothingSent (settling : Settling account client.commands client engine) :
    Settling account (client.send client.oms none).commands (client.send client.oms none) engine := by
  have same : client.send client.oms none = client := by
    unfold Client.send
    rw [Option.toList_none, List.append_nil]
  rw [same]
  exact settling

theorem Settling.submitNewOrder (settling : Settling account client.commands client engine)
    (synced : Synced account client engine) (instrumentId : InstrumentId) (side : Side) (price : Int)
    (quantity : Nat) (orderType : Core.OrderType) (timeInForce : TimeInForce) :
    let (oms, _, request) := client.oms.submitNewOrder instrumentId side price quantity orderType timeInForce true
    Settling account (client.send oms request).commands (client.send oms request) engine := by
  refine Settling.sends rfl ?_
  refine (settling.more (List.subset_append_left _ _)).registers synced rfl rfl (mem_map_last ?_ _)
  rw [← synced.own]
  rfl

theorem Settling.cancelOrder (settling : Settling account client.commands client engine)
    (synced : Synced account client engine) (clientOrderId : ClientOrderId) :
    let (oms, request) := client.oms.cancelOrder clientOrderId true
    Settling account (client.send oms request).commands (client.send oms request) engine := by
  unfold OrderManagementSystem.cancelOrder
  cases client.oms.workable clientOrderId with
  | none => exact settling.nothingSent
  | some order =>
    refine Settling.sends rfl ?_
    refine (settling.more (List.subset_append_left _ _)).pends synced .cancel (mem_map_last ?_ _)
    rw [← (synced.pends clientOrderId .cancel).2.own]
    rfl

theorem Settling.replaceOrder (settling : Settling account client.commands client engine)
    (synced : Synced account client engine) (clientOrderId : ClientOrderId) (newPrice : Int) (newQuantity : Nat) :
    let (oms, request) := client.oms.replaceOrder clientOrderId newPrice newQuantity true
    Settling account (client.send oms (request.map Prod.snd)).commands (client.send oms (request.map Prod.snd)) engine := by
  unfold OrderManagementSystem.replaceOrder
  cases client.oms.workable clientOrderId with
  | none => exact settling.nothingSent
  | some original =>
    have pends := (synced.pends clientOrderId .replace).2
    obtain ⟨_, sameNext⟩ := update_account client.oms clientOrderId fun order => { order with pendingAction := .replace }
    refine Settling.sends rfl ?_
    refine ((settling.more (List.subset_append_left _ _)).pends synced .replace (mem_map_last ?_ _)).registers pends rfl rfl
      (mem_map_last ?_ _)
    · rw [← pends.own]
      rfl
    · rw [← pends.own]
      exact congrArg (some <| LiveKey.mk _ ·) sameNext.symm

theorem Settling.handle (round : Rounding) (settling : Settling account commands client engine) {report : Message}
    {reports : List Message} (queued : client.reports = report :: reports) :
    Settling account commands (({ client with reports } : Client).handle round report) engine := by
  have records := handle_records round queued
  have upcoming : (({ client with reports } : Client).handle round report).upcoming = client.upcoming := by
    funext id
    show ((({ client with reports } : Client).handle round report).oms.orders id).map _ = (client.oms.orders id).map _
    rw [handle_orders, Option.map_map, queued]
    rfl
  constructor
  · rw [upcoming]
    exact settling.entered
  · rw [upcoming]
    exact settling.pending
  · rw [records]
    exact settling.identified
  · rw [records]
    exact settling.live

/-- The reports of a command set out. Those requests that are not on the way any more have been answered. -/
theorem Settling.told (settling : Settling account commands client engine)
    {command : ExchangeCommand} {events : List ExchangeEvent} {after : MatchingEngine} {others : List ExchangeCommand}
    (tells : Tells account (recordViews client.records) command events)
    (asked : (subject command).accountId = account → Asked account client.records command)
    (live : Live account (events.foldl viewsAfter (recordViews client.records)) after)
    (entered : ∀ id, some ⟨account, id⟩ ∈ commands.map created → some ⟨account, id⟩ ∈ others.map created ∨
      ∀ order, (effects (reportsFor account events) id order).state ≠ .pendingNew)
    (pending : ∀ id, some ⟨account, id⟩ ∈ commands.map altered → some ⟨account, id⟩ ∈ others.map altered ∨
      ∀ order, (effects (reportsFor account events) id order).pendingAction = .none) :
    Settling account others (client.told account events) after := by
  have agrees : Agrees account client.records (recordViews client.records) := fun _ _ => rfl
  have records : (client.told account events).records = recordsAfter (reportsFor account events) client.records :=
    recordsAfter_append ..
  have upcoming (id : ClientOrderId) : (client.told account events).upcoming id =
      (client.upcoming id).map (effects (reportsFor account events) id) := by
    show (client.oms.orders id).map _ = ((client.oms.orders id).map _).map _
    rw [Option.map_map]
    exact congrArg (Option.map · _) (funext fun order => effects_append ..)
  refine ⟨fun id order found open_ => ?_, fun id order found open_ => ?_, ?_, ?_⟩
  · rw [upcoming] at found
    obtain ⟨before, there, rfl⟩ := Option.map_eq_some_iff.mp found
    rcases entered id (settling.entered id before there (effects_pendingNew open_)) with sent | answered
    · exact sent
    · exact absurd open_ (answered before)
  · rw [upcoming] at found
    obtain ⟨before, there, rfl⟩ := Option.map_eq_some_iff.mp found
    rcases pending id (settling.pending id before there fun quiet => open_ (effects_quiet quiet)) with sent | answered
    · exact sent
    · exact absurd (answered before) open_
  · rw [records]
    exact settling.identified.follows agrees tells asked
  · rw [records]
    intro key own seen
    refine live key own ?_
    rw [← agrees.follows tells asked key own]
    exact seen

end Steps

section Floor
variable (round : Rounding) {managed : AccountId → Bool} {floor : TradingFloor} {account : AccountId}

/-- A replacement passes every check, and an order that does is not discarded in part or whole. -/
def Settles (exchange : RiskGatedEngine) : ExchangeCommand → Prop
  | .newOrder command => exchange.Admits round (.newOrder command) → exchange.engine.FillsWhole (.newOrder command)
  | .cancelOrder _ => True
  | .replaceOrder command => exchange.Admits round (.replaceOrder command)

instance (exchange : RiskGatedEngine) : DecidablePred (Settles round exchange) := fun command =>
  match command with
  | .newOrder _ => inferInstanceAs (Decidable (_ → _))
  | .cancelOrder _ => inferInstanceAs (Decidable True)
  | .replaceOrder command => inferInstanceAs (Decidable (exchange.Admits round (.replaceOrder command)))

/-- The next request of the account at the exchange. -/
def nextCommand (account : AccountId) (floor : TradingFloor) : Option ExchangeCommand :=
  ((floor.clients account).requests.head?.bind toCommand).map fun command => (floor.sequencer.sequence command).1

/-- The step takes up no request of the account that leaves something open. -/
def LeavesNothingOpen (account : AccountId) (floor : TradingFloor) : FloorAction → Prop
  | .takeRequest other => other = account → ∀ command ∈ nextCommand account floor, Settles round floor.exchange command
  | _ => True

instance (floor : TradingFloor) : DecidablePred (LeavesNothingOpen round account floor) := fun action =>
  match action with
  | .takeRequest _ => inferInstanceAs (Decidable (_ → _))
  | .submitNewOrder .. | .cancelOrder .. | .replaceOrder .. | .outside _ | .handleReport _ =>
      inferInstanceAs (Decidable True)

/-- What is in view rests after a command that leaves nothing open. -/
theorem process_live {gated : RiskGatedEngine} (sound : gated.engine.Sound) {views : OrderViews}
    (shown : Shown account views gated.engine) {command : ExchangeCommand} (fresh : FreshFor account gated.engine command)
    (settles : (subject command).accountId = account → Settles round gated command)
    (live : Live account views gated.engine) :
    Live account ((gated.process round command).events.foldl viewsAfter views) (gated.process round command).gated.engine := by
  rcases process_admits round sound command with ⟨_, turned⟩ | ⟨admitted, forwarded, taken⟩
  · obtain ⟨rejection, events, _⟩ := turned.events
    rw [events]
    intro key own seen
    obtain ⟨entry, member, same⟩ := live key own seen
    exact ⟨entry, by rw [turned.resting]; exact member, same⟩
  · have viewed := taken.viewed sound shown fresh
    rw [forwarded]
    refine viewed.live (fun own => ?_) live
    cases command with
    | newOrder command => exact settles own admitted
    | cancelOrder command => trivial
    | replaceOrder command => trivial

/-- A replacement that passes every check is answered. -/
theorem process_answers {gated : RiskGatedEngine} (sound : gated.engine.Sound) {views : OrderViews}
    (shown : Shown account views gated.engine) {command : ExchangeCommand} (fresh : FreshFor account gated.engine command)
    (admitted : gated.Admits round command) :
    ∃ event later, (gated.process round command).events = event :: later ∧ Answers command event := by
  rcases process_admits round sound command with ⟨refused, _⟩ | ⟨_, forwarded, taken⟩
  · exact absurd admitted refused
  · obtain ⟨event, later, events, answers, _⟩ := (taken.viewed sound shown fresh).answered
    rw [forwarded]
    exact ⟨event, later, events, answers⟩

theorem Settling.step (followed : Followed managed floor)
    (settling : Settling account (floor.clients account).commands (floor.clients account) floor.exchange.engine)
    {action : FloorAction} {after : TradingFloor} (stepped : floor.step round managed action = some after)
    (alone : managed account = true) (clear : LeavesNothingOpen round account floor action) :
    Settling account (after.clients account).commands (after.clients account) after.exchange.engine := by
  have synced := followed.synced account alone
  cases followed.sees round stepped alone with
  | stays action client exchange =>
    rw [client, exchange]
    exact settling
  | submits instrumentId side price quantity orderType timeInForce client exchange =>
    rw [client, exchange]
    exact settling.submitNewOrder synced instrumentId side price quantity orderType timeInForce
  | cancels clientOrderId client exchange =>
    rw [client, exchange]
    exact settling.cancelOrder synced clientOrderId
  | replaces clientOrderId newPrice newQuantity client exchange =>
    rw [client, exchange]
    exact settling.replaceOrder synced clientOrderId newPrice newQuantity
  | handles report reports queued client exchange =>
    rw [client, exchange]
    exact settling.handle round queued
  | takes request requests command queued stands client exchange =>
    rw [client, exchange]
    obtain ⟨rest, asked, _⟩ := synced.takes queued stands
    obtain ⟨_, sameCreated, sameAsked⟩ := sequence_alike floor.sequencer command
    have sameAltered : altered (floor.sequencer.sequence command).1 = altered command := by cases command <;> rfl
    have entered : (subject (floor.sequencer.sequence command).1).accountId = account →
        Asked account ({ floor.clients account with requests } : Client).records (floor.sequencer.sequence command).1 :=
      fun _ => (sameAsked _ _).mpr asked
    have fresh := Asked.fresh entered rest.shown
    obtain ⟨tells, _⟩ := process_tells round followed.sound rest.shown (floor.sequencer.sequence command).1 fresh
    have settles : Settles round floor.exchange (floor.sequencer.sequence command).1 := by
      refine clear rfl _ ?_
      unfold nextCommand
      rw [queued]
      show _ ∈ (toCommand request).map _
      rw [stands]
      rfl
    obtain ⟨closesCreated, closesAltered⟩ := tells.closes fun replace same => by
      refine process_answers round followed.sound rest.shown fresh ?_
      rw [same] at settles ⊢
      exact settles
    have all := commands_takes queued stands
    have before : Settling account (floor.clients account).commands { floor.clients account with requests }
        floor.exchange.engine := ⟨settling.entered, settling.pending, settling.identified, settling.live⟩
    refine before.told tells entered (process_live round followed.sound rest.shown fresh (fun _ => settles) settling.live)
      (fun id sent => ?_) fun id sent => ?_
    · rw [all] at sent
      rcases List.mem_cons.mp sent with first | later
      · exact Or.inr (closesCreated id (sameCreated.trans first.symm))
      · exact Or.inl later
    · rw [all] at sent
      rcases List.mem_cons.mp sent with first | later
      · exact Or.inr (closesAltered id (sameAltered.trans first.symm))
      · exact Or.inl later
  | observes action command foreign client exchange =>
    rw [client, exchange]
    have fresh : FreshFor account floor.exchange.engine command :=
      Asked.fresh (fun own => absurd own foreign) synced.shown
    obtain ⟨tells, _⟩ := process_tells round followed.sound synced.shown command fresh
    exact settling.told tells (fun own => absurd own foreign)
      (process_live round followed.sound synced.shown fresh (fun own => absurd own foreign) settling.live)
      (fun _ sent => Or.inl sent) fun _ sent => Or.inl sent

section Runs
variable {limits : RiskLimits} {instruments : List InstrumentId} {deposits : List Deposit}

/-- No order is pending, none has a cancel or replace outstanding, and each is done with or rests. -/
def AllSettled (account : AccountId) (oms : OrderManagementSystem) (engine : MatchingEngine) : Prop :=
  ∀ id order, oms.orders id = some order →
    (order.state.isTerminal = true ∨ engine.Rests ⟨account, id⟩) ∧ order.state ≠ .pendingNew ∧ order.pendingAction = .none

theorem start_settling (commands : List ExchangeCommand) (engine : MatchingEngine) :
    Settling account commands (Client.start round deposits account) engine where
  entered _ _ found := by cases found
  pending _ _ found := by cases found
  identified _ _ found := by cases found
  live _ _ seen := absurd rfl seen

/-- With nothing on the way, what counts as live rests. -/
theorem Settling.allSettled {client : Client} {engine : MatchingEngine}
    (settling : Settling account client.commands client engine) (sent : client.requests = [])
    (answered : client.reports = []) : AllSettled account client.oms engine := by
  have commands : client.commands = [] := congrArg (List.filterMap toCommand) sent
  intro id order found
  have upcoming : client.upcoming id = some order := by
    unfold Client.upcoming
    rw [answered, found]
    rfl
  have records : client.records id = some order.idle := by
    unfold Client.records recordsAfter
    rw [answered, found]
    rfl
  have entered : order.state ≠ .pendingNew := fun open_ => by
    have sent := settling.entered id order upcoming open_
    rw [commands] at sent
    cases sent
  refine ⟨?_, entered, ?_⟩
  · by_cases done : order.state.isTerminal = true
    · exact Or.inl done
    · right
      have live : order.idle.state.isLive = true := by
        show order.state.isLive = true
        cases state : order.state with
        | pendingNew => exact absurd state entered
        | live | partiallyFilled => rfl
        | filled | rejected | cancelled | replaced => rw [state] at done; exact absurd rfl done
      refine settling.live ⟨account, id⟩ rfl fun unseen => ?_
      unfold recordViews at unseen
      rw [records, Option.bind_some] at unseen
      unfold ClientOrder.view at unseen
      rw [if_pos live] at unseen
      exact settling.identified id order.idle records live (Option.map_eq_none_iff.mp unseen)
  · by_contra open_
    have sent := settling.pending id order upcoming open_
    rw [commands] at sent
    cases sent

/-- Every request settles in a run that leaves nothing of the account open: with both of its channels
empty, each of its orders is done with or rests, and nothing is pending. -/
theorem requests_settle {actions : List FloorAction}
    (ran : Transitions.run (TradingFloor.step round managed) (TradingFloor.start round limits instruments deposits) actions =
      some floor) (alone : managed account = true)
    (clear : Transitions.Throughout (TradingFloor.step round managed) (LeavesNothingOpen round account)
      (TradingFloor.start round limits instruments deposits) actions)
    (sent : (floor.clients account).requests = []) (answered : (floor.clients account).reports = []) :
    AllSettled account (floor.clients account).oms floor.exchange.engine := by
  have kept := Transitions.run_rule
    (fun actions state => Transitions.Throughout (TradingFloor.step round managed) (LeavesNothingOpen round account)
        (TradingFloor.start round limits instruments deposits) actions → Followed managed state ∧
      Settling account (state.clients account).commands (state.clients account) state.exchange.engine)
    (fun _ => ⟨start_followed round, start_settling round _ _⟩)
    (fun actions state action next reached before stepped every => ?_) ran
  · exact (kept clear).2.allSettled sent answered
  · obtain ⟨earlier, here⟩ := (Transitions.throughout_concat reached).mp every
    obtain ⟨followed, settling⟩ := before earlier
    exact ⟨followed.step round stepped, settling.step round followed stepped alone here⟩

/-- An order that rests, then a replacement of it, each answered and handled. -/
def replacedAt (newPrice : Int) (newQuantity : Nat) : List FloorAction :=
  [.submitNewOrder 7 3 .buy 10 1 .limit .gtc, .takeRequest 7, .handleReport 7,
    .replaceOrder 7 1 newPrice newQuantity, .takeRequest 7, .handleReport 7]

/-- The replacement is admitted, and the order that takes the other's place rests. -/
theorem requests_settle_replaced :
    ∃ floor, Transitions.run (TradingFloor.step .machine fun _ => true)
        (TradingFloor.start .machine {} [3] [.cash 7 1000]) (replacedAt 11 2) = some floor ∧
      floor.exchange.engine.Rests ⟨7, 2⟩ ∧ AllSettled 7 (floor.clients 7).oms floor.exchange.engine := by
  have comes : (Transitions.run (TradingFloor.step .machine fun _ => true)
      (TradingFloor.start .machine {} [3] [.cash 7 1000]) (replacedAt 11 2)).map
      (fun floor => ((floor.clients 7).requests, (floor.clients 7).reports,
        decide (floor.exchange.engine.Rests ⟨7, 2⟩))) = some ([], [], true) := by
    decide +kernel
  have clear : Transitions.checkThroughout (TradingFloor.step .machine fun _ => true) (LeavesNothingOpen .machine 7)
      (TradingFloor.start .machine {} [3] [.cash 7 1000]) (replacedAt 11 2) = true := by
    decide +kernel
  obtain ⟨floor, ran, seen⟩ := Option.map_eq_some_iff.mp comes
  obtain ⟨sent, seen⟩ := Prod.mk.inj seen
  obtain ⟨answered, rests⟩ := Prod.mk.inj seen
  exact ⟨floor, ran, of_decide_eq_true rests,
    requests_settle .machine ran rfl (Transitions.throughout_of_check clear) sent answered⟩

/-- The account cannot pay for the replacement. The rejection names the original, and the order that
was entered for the replacement is pending for good. -/
theorem rejected_replacement_stays_pending :
    ∃ floor order, Transitions.run (TradingFloor.step .machine fun _ => true)
        (TradingFloor.start .machine {} [3] [.cash 7 1000]) (replacedAt 10 1000) = some floor ∧
      (floor.clients 7).requests = [] ∧ (floor.clients 7).reports = [] ∧ (floor.clients 7).oms.orders 2 = some order ∧
      order.state = .pendingNew ∧ ¬ floor.exchange.engine.Rests ⟨7, 2⟩ ∧
      ¬ AllSettled 7 (floor.clients 7).oms floor.exchange.engine := by
  have comes : (Transitions.run (TradingFloor.step .machine fun _ => true)
      (TradingFloor.start .machine {} [3] [.cash 7 1000]) (replacedAt 10 1000)).map
      (fun floor => ((floor.clients 7).requests, (floor.clients 7).reports,
        decide (floor.exchange.engine.Rests ⟨7, 2⟩), ((floor.clients 7).oms.orders 2).map ClientOrder.state)) =
          some ([], [], false, some .pendingNew) := by
    decide +kernel
  obtain ⟨floor, ran, seen⟩ := Option.map_eq_some_iff.mp comes
  obtain ⟨sent, seen⟩ := Prod.mk.inj seen
  obtain ⟨answered, seen⟩ := Prod.mk.inj seen
  obtain ⟨unlisted, states⟩ := Prod.mk.inj seen
  obtain ⟨order, found, pending⟩ := Option.map_eq_some_iff.mp states
  refine ⟨floor, order, ran, sent, answered, found, pending, of_decide_eq_false unlisted, fun settled => ?_⟩
  exact (settled 2 order found).2.1 pending

end Runs

end Floor

end Mdh.Trader
