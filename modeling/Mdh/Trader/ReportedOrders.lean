import Mdh.Matching.OrderViews
import Mdh.Trader.TradingFloor

/-! What reports make of a trader's orders. A report changes each order by itself, so that a trader
with reports in flight can be taken for one that has handled them; whether a cancel or replace is
pending plays no part in how an order is seen. -/

namespace Mdh.Trader
open Mdh.Core Mdh.Matching Mdh.Matching.MatchingEngine Mdh.Risk Mdh.Gateway

/-- What a report makes of an order. -/
def effect (message : Message) (clientOrderId : ClientOrderId) (order : ClientOrder) : ClientOrder :=
  match message with
  | .accepted event => if clientOrderId = event.clientOrderId then order.accept event else order
  | .rejected event => if clientOrderId = event.clientOrderId then order.reject event else order
  | .cancelled event => if clientOrderId = event.clientOrderId then order.cancel else order
  | .replaced event =>
      let order := if clientOrderId = event.originalClientOrderId then order.supersede else order
      if clientOrderId = event.newClientOrderId then order.replaceWith event else order
  | .tradeReport event => if clientOrderId = event.clientOrderId then order.fill event else order
  | .newOrder _ | .cancelOrder _ | .replaceOrder _ => order

/-- The report names the order. -/
def Mentions (message : Message) (clientOrderId : ClientOrderId) : Prop :=
  match message with
  | .accepted event => clientOrderId = event.clientOrderId
  | .rejected event => clientOrderId = event.clientOrderId
  | .cancelled event => clientOrderId = event.clientOrderId
  | .replaced event => clientOrderId = event.originalClientOrderId ∨ clientOrderId = event.newClientOrderId
  | .tradeReport event => clientOrderId = event.clientOrderId
  | .newOrder _ | .cancelOrder _ | .replaceOrder _ => False

def effects (messages : List Message) (clientOrderId : ClientOrderId) (order : ClientOrder) : ClientOrder :=
  messages.foldl (fun order message => effect message clientOrderId order) order

theorem effects_append (front back : List Message) (clientOrderId : ClientOrderId) (order : ClientOrder) :
    effects (front ++ back) clientOrderId order = effects back clientOrderId (effects front clientOrderId order) :=
  List.foldl_append ..

section Effects
variable {message : Message} {clientOrderId : ClientOrderId}

theorem effect_unmentioned (silent : ¬ Mentions message clientOrderId) (order : ClientOrder) :
    effect message clientOrderId order = order := by
  cases message with
  | replaced event =>
    obtain ⟨original, new⟩ := not_or.mp silent
    simp only [effect, original, new, if_false]
  | accepted | rejected | cancelled | tradeReport => exact if_neg silent
  | newOrder | cancelOrder | replaceOrder => rfl

theorem effects_unmentioned {messages : List Message} (silent : ∀ message ∈ messages, ¬ Mentions message clientOrderId)
    (order : ClientOrder) : effects messages clientOrderId order = order := by
  induction messages generalizing order with
  | nil => rfl
  | cons message rest ih =>
    show effects rest clientOrderId (effect message clientOrderId order) = order
    rw [effect_unmentioned (silent message List.mem_cons_self)]
    exact ih (fun other member => silent other (List.mem_cons_of_mem _ member)) order

/-- What no report changes: where and on which side the order is. -/
theorem effect_keeps (message : Message) (clientOrderId : ClientOrderId) (order : ClientOrder) :
    (effect message clientOrderId order).instrumentId = order.instrumentId ∧
      (effect message clientOrderId order).side = order.side := by
  cases message with
  | replaced event =>
    unfold effect
    dsimp only
    split_ifs <;> exact ⟨rfl, rfl⟩
  | accepted | rejected | cancelled | tradeReport =>
    unfold effect
    dsimp only
    split_ifs <;> exact ⟨rfl, rfl⟩
  | newOrder | cancelOrder | replaceOrder => exact ⟨rfl, rfl⟩

theorem effects_keeps (messages : List Message) (clientOrderId : ClientOrderId) (order : ClientOrder) :
    (effects messages clientOrderId order).instrumentId = order.instrumentId ∧
      (effects messages clientOrderId order).side = order.side := by
  induction messages generalizing order with
  | nil => exact ⟨rfl, rfl⟩
  | cons message rest ih =>
    obtain ⟨instrument, side⟩ := ih (effect message clientOrderId order)
    obtain ⟨sameInstrument, sameSide⟩ := effect_keeps message clientOrderId order
    exact ⟨instrument.trans sameInstrument, side.trans sameSide⟩

/-- No report makes an order pending that was not. -/
theorem effect_pendingNew {order : ClientOrder} (pending : (effect message clientOrderId order).state = .pendingNew) :
    order.state = .pendingNew := by
  cases message with
  | accepted event | cancelled event =>
    unfold effect at pending
    dsimp only at pending
    split_ifs at pending
    · cases pending
    · exact pending
  | rejected event =>
    unfold effect at pending
    dsimp only at pending
    split_ifs at pending
    · by_cases was : order.state = .pendingNew
      · exact was
      · simp only [ClientOrder.reject, was, if_false] at pending
    · exact pending
  | tradeReport event =>
    unfold effect at pending
    dsimp only at pending
    split_ifs at pending
    · unfold ClientOrder.fill at pending
      dsimp only at pending
      split_ifs at pending
    · exact pending
  | replaced event =>
    unfold effect at pending
    dsimp only at pending
    split_ifs at pending
    · cases pending
    · cases pending
    · cases pending
    · exact pending
  | newOrder | cancelOrder | replaceOrder => exact pending

theorem effects_pendingNew {messages : List Message} {order : ClientOrder}
    (pending : (effects messages clientOrderId order).state = .pendingNew) : order.state = .pendingNew := by
  induction messages generalizing order with
  | nil => exact pending
  | cons message rest ih => exact effect_pendingNew (ih pending)

end Effects

section Idle
variable {message : Message} {clientOrderId : ClientOrderId}

/-- The order, a pending cancel or replace aside. -/
def ClientOrder.idle (order : ClientOrder) : ClientOrder := { order with pendingAction := .none }

theorem effect_idle (message : Message) (clientOrderId : ClientOrderId) (order : ClientOrder) :
    (effect message clientOrderId order.idle).idle = (effect message clientOrderId order).idle := by
  cases message with
  | replaced event =>
    unfold effect
    dsimp only
    split_ifs <;> rfl
  | accepted | rejected | cancelled | tradeReport =>
    unfold effect
    dsimp only
    split_ifs <;> rfl
  | newOrder | cancelOrder | replaceOrder => rfl

theorem effects_idle (messages : List Message) (clientOrderId : ClientOrderId) (order : ClientOrder) :
    (effects messages clientOrderId order.idle).idle = (effects messages clientOrderId order).idle := by
  induction messages generalizing order with
  | nil => rfl
  | cons message rest ih =>
    show (effects rest clientOrderId (effect message clientOrderId order.idle)).idle =
      (effects rest clientOrderId (effect message clientOrderId order)).idle
    rw [← ih, effect_idle, ih]

/-- What is pending plays no part in what reports make of the rest. -/
theorem effects_pendingAction (messages : List Message) (clientOrderId : ClientOrderId) (order : ClientOrder)
    (action : PendingAction) :
    (effects messages clientOrderId { order with pendingAction := action }).idle =
      (effects messages clientOrderId order).idle := by
  rw [← effects_idle, ← effects_idle _ _ order]
  rfl

end Idle

section Handling
variable (oms : OrderManagementSystem)

theorem update_orders (clientOrderId : ClientOrderId) (change : ClientOrder → ClientOrder) (other : ClientOrderId) :
    (oms.update clientOrderId change).orders other =
      (oms.orders other).map fun order => if other = clientOrderId then change order else order := by
  unfold OrderManagementSystem.update
  cases found : oms.orders clientOrderId with
  | none =>
    by_cases same : other = clientOrderId
    · rw [same]
      simp only [found, Option.map_none]
    · simp only [same, if_false, Option.map_id_fun', id]
  | some order =>
    dsimp only
    rw [Function.update_apply]
    split_ifs with same
    · rw [same, found]
      rfl
    · rw [Option.map_id_fun']
      rfl

theorem update_account (clientOrderId : ClientOrderId) (change : ClientOrder → ClientOrder) :
    (oms.update clientOrderId change).accountId = oms.accountId ∧
      (oms.update clientOrderId change).nextClientOrderId = oms.nextClientOrderId := by
  unfold OrderManagementSystem.update
  split <;> exact ⟨rfl, rfl⟩

theorem handleMessage_orders (message : Message) (clientOrderId : ClientOrderId) :
    (oms.handleMessage message).1.orders clientOrderId = (oms.orders clientOrderId).map (effect message clientOrderId) := by
  cases message with
  | accepted event => exact update_orders oms _ _ _
  | rejected event => exact update_orders oms _ _ _
  | cancelled event => exact update_orders oms _ _ _
  | replaced event =>
    show ((oms.update _ _).update _ _).orders _ = _
    rw [update_orders, update_orders, Option.map_map]
    rfl
  | tradeReport event =>
    show (oms.onTradeReport event).1.orders clientOrderId = _
    have same : (oms.onTradeReport event).1 = oms.update event.clientOrderId (ClientOrder.fill · event) := by
      unfold OrderManagementSystem.onTradeReport
      cases found : oms.orders event.clientOrderId with
      | none => simp only [OrderManagementSystem.update, found]
      | some order => rfl
    rw [same]
    exact update_orders oms _ _ _
  | newOrder | cancelOrder | replaceOrder => exact (congrFun Option.map_id _).symm

theorem handleMessage_account (message : Message) :
    (oms.handleMessage message).1.accountId = oms.accountId ∧
      (oms.handleMessage message).1.nextClientOrderId = oms.nextClientOrderId := by
  cases message with
  | accepted event | rejected event | cancelled event => exact update_account oms _ _
  | replaced event =>
    obtain ⟨account, next⟩ := update_account (oms.update event.originalClientOrderId ClientOrder.supersede)
      event.newClientOrderId (ClientOrder.replaceWith · event)
    obtain ⟨sameAccount, sameNext⟩ := update_account oms event.originalClientOrderId ClientOrder.supersede
    exact ⟨account.trans sameAccount, next.trans sameNext⟩
  | tradeReport event =>
    show (oms.onTradeReport event).1.accountId = _ ∧ (oms.onTradeReport event).1.nextClientOrderId = _
    unfold OrderManagementSystem.onTradeReport
    split
    · exact ⟨rfl, rfl⟩
    · exact update_account oms _ _
  | newOrder | cancelOrder | replaceOrder => exact ⟨rfl, rfl⟩

end Handling

/-- The order as its owner sees it, while it is live. -/
def ClientOrder.view (order : ClientOrder) : Option OrderView :=
  if order.state.isLive then order.exchangeOrderId.map fun exchangeOrderId => {
    instrumentId := order.instrumentId
    side := order.side
    price := order.price
    exchangeOrderId
    remainingQuantity := order.remainingQuantity }
  else none

/-- The orders of a trader, pending cancels and replaces aside. -/
abbrev Records := ClientOrderId → Option ClientOrder

/-- The records once some reports have been handled. -/
def recordsAfter (messages : List Message) (records : Records) : Records :=
  fun clientOrderId => (records clientOrderId).map fun order => (effects messages clientOrderId order).idle

theorem recordsAfter_append (front back : List Message) (records : Records) :
    recordsAfter (front ++ back) records = recordsAfter back (recordsAfter front records) := by
  funext clientOrderId
  unfold recordsAfter
  rw [Option.map_map]
  refine congrArg (Option.map · _) (funext fun order => ?_)
  rw [effects_append]
  exact (effects_idle back clientOrderId _).symm

/-- The records show the orders of the account as the views have them. -/
def Agrees (account : AccountId) (records : Records) (views : OrderViews) : Prop :=
  ∀ key, key.accountId = account → (records key.clientOrderId).bind ClientOrder.view = views key

/-- The report of a trade to one of its parties. -/
def legReport (party : TradeCounterparty) (event : TradeExecuted) : Message := .tradeReport {
  accountId := party.accountId
  clientOrderId := party.clientOrderId
  exchangeOrderId := party.exchangeOrderId
  instrumentId := event.instrumentId
  price := event.price
  quantity := event.quantity
  remainingQuantity := party.remainingQuantity }

theorem reportsFor_append (account : AccountId) (front back : List ExchangeEvent) :
    reportsFor account (front ++ back) = reportsFor account front ++ reportsFor account back :=
  List.flatMap_append

theorem reportsFor_single (account : AccountId) {event : ExchangeEvent} {key : OrderKey} {message : Message}
    (reports : toExecutionReports event = [(key, message)]) :
    reportsFor account [event] = if key.accountId = account then [message] else [] := by
  by_cases own : key.accountId = account <;> simp [reportsFor, reports, own]

theorem reportsFor_trade (account : AccountId) (event : TradeExecuted) :
    reportsFor account [.tradeExecuted event] =
      (if event.buyer.accountId = account then [legReport event.buyer event] else []) ++
        if event.seller.accountId = account then [legReport event.seller event] else [] := by
  by_cases buys : event.buyer.accountId = account <;> by_cases sells : event.seller.accountId = account <;>
    simp [reportsFor, toExecutionReports, legReport, buys, sells]

/-- The records the event is about are what it takes them to be. -/
def Fits (account : AccountId) (records : Records) : ExchangeEvent → Prop
  | .orderAccepted event => event.accountId = account → ∃ order, records event.clientOrderId = some order ∧
      order.instrumentId = event.instrumentId ∧ order.side = event.side ∧ order.price = event.price
  | .orderCancelled event => event.accountId = account → ∃ order, records event.clientOrderId = some order ∧
      order.state ≠ .pendingNew
  | .orderReplaced event => event.accountId = account → event.newClientOrderId ≠ event.originalClientOrderId ∧
      ∃ original order, records event.originalClientOrderId = some original ∧
        records event.newClientOrderId = some order ∧ order.instrumentId = original.instrumentId ∧
        order.side = original.side
  | .orderRejected _ | .tradeExecuted _ | .bookOrderAdded _ | .bookOrderReduced _ | .bookOrderRemoved _ => True

section Views
variable {account : AccountId} {records : Records} {views : OrderViews}

/-- A record that no report names is as it was. -/
theorem recordsAfter_view {messages : List Message} {clientOrderId : ClientOrderId}
    (silent : ∀ message ∈ messages, ¬ Mentions message clientOrderId) :
    (recordsAfter messages records clientOrderId).bind ClientOrder.view = (records clientOrderId).bind ClientOrder.view := by
  unfold recordsAfter
  cases records clientOrderId with
  | none => rfl
  | some order =>
    show (effects messages clientOrderId order).idle.view = order.view
    rw [effects_unmentioned silent]
    rfl

theorem Agrees.fill (agrees : Agrees account records views) {party : TradeCounterparty} {side : Side}
    (inView : OnSide account views party side) (event : TradeExecuted) :
    Agrees account (recordsAfter (if party.accountId = account then [legReport party event] else []) records)
      (fillView views party) := by
  intro key own
  rw [fillView_apply, ← agrees key own]
  split_ifs with named same same
  · subst same
    obtain ⟨view, seen, _⟩ := inView named
    rw [← agrees (partyKey party) own] at seen
    obtain ⟨order, found, shown⟩ := Option.bind_eq_some_iff.mp seen
    have found : records party.clientOrderId = some order := found
    unfold recordsAfter
    show ((records party.clientOrderId).map _).bind _ = leftOf _ ((records party.clientOrderId).bind _)
    rw [found]
    show (effect (legReport party event) party.clientOrderId order).idle.view = leftOf party.remainingQuantity order.view
    rw [shown]
    have step : effect (legReport party event) party.clientOrderId order = order.fill {
        accountId := party.accountId, clientOrderId := party.clientOrderId, exchangeOrderId := party.exchangeOrderId
        instrumentId := event.instrumentId, price := event.price, quantity := event.quantity
        remainingQuantity := party.remainingQuantity } := if_pos rfl
    rw [step]
    unfold ClientOrder.view at shown
    split_ifs at shown
    obtain ⟨id, identified, rfl⟩ := Option.map_eq_some_iff.mp shown
    unfold ClientOrder.idle ClientOrder.fill ClientOrder.view leftOf
    dsimp only
    rw [identified]
    by_cases filled : party.remainingQuantity = 0
    · simp [filled, ClientOrderState.isLive]
    · simp [filled, ClientOrderState.isLive]
  · refine recordsAfter_view fun message member mentioned => same ?_
    obtain rfl := List.mem_singleton.mp member
    obtain ⟨account, id⟩ := key
    exact congrArg₂ LiveKey.mk (own.trans named.symm) mentioned
  · subst same
    exact absurd own named
  · exact recordsAfter_view nofun

/-- An event of another account sends no report. -/
theorem Agrees.elsewhere (agrees : Agrees account records views) {views' : OrderViews}
    (same : ∀ key, key.accountId = account → views' key = views key) : Agrees account (recordsAfter [] records) views' := by
  intro key own
  rw [same key own, ← agrees key own]
  exact recordsAfter_view nofun

/-- One report that names one order. -/
theorem Agrees.single (agrees : Agrees account records views) {message : Message} {named : LiveKey}
    (own : named.accountId = account) (names : ∀ other, Mentions message other → other = named.clientOrderId)
    {view : Option OrderView}
    (seen : ((records named.clientOrderId).map (effect message named.clientOrderId)).bind ClientOrder.view = view) :
    Agrees account (recordsAfter [message] records) (Function.update views named view) := by
  intro key here
  rw [Function.update_apply]
  split_ifs with same
  · rw [same, ← seen]
    show ((records named.clientOrderId).map _).bind _ = _
    cases records named.clientOrderId with
    | none => rfl
    | some order => rfl
  · rw [← agrees key here]
    refine recordsAfter_view fun other member mentioned => same ?_
    rw [List.mem_singleton.mp member] at mentioned
    obtain ⟨account, id⟩ := key
    exact congrArg₂ LiveKey.mk (here.trans own.symm) (names _ mentioned)

/-- A rejection changes nothing that is seen of an order. -/
theorem reject_view (order : ClientOrder) (event : Rejected) : (order.reject event).view = order.view := by
  unfold ClientOrder.reject ClientOrder.view
  dsimp only
  split_ifs with pending <;> simp_all [ClientOrderState.isLive]

/-- The two orders a replacement names. -/
theorem effect_replaced {event : Replaced} (different : event.newClientOrderId ≠ event.originalClientOrderId)
    (order : ClientOrder) :
    effect (.replaced event) event.originalClientOrderId order = order.supersede ∧
      effect (.replaced event) event.newClientOrderId order = order.replaceWith event := by
  constructor
  · show (if _ then _ else _) = _
    rw [if_neg different.symm]
    exact if_pos rfl
  · show (if _ then ClientOrder.replaceWith (if _ then _ else _) _ else _) = _
    rw [if_pos rfl, if_neg different]

/-- The report of a replacement: the original is gone, and the order entered for it is in view. -/
theorem Agrees.replaced (agrees : Agrees account records views) {report : Replaced} (own : report.accountId = account)
    (different : report.newClientOrderId ≠ report.originalClientOrderId) {original order : ClientOrder} {view : OrderView}
    (was : records report.originalClientOrderId = some original) (found : records report.newClientOrderId = some order)
    (instrument : order.instrumentId = original.instrumentId) (side : order.side = original.side)
    (shown : views ⟨report.accountId, report.originalClientOrderId⟩ = some view) :
    Agrees account (recordsAfter [.replaced report] records)
      (Function.update (Function.update views ⟨report.accountId, report.originalClientOrderId⟩ none)
        ⟨report.accountId, report.newClientOrderId⟩ (some { view with
          price := report.newPrice
          exchangeOrderId := report.exchangeOrderId
          remainingQuantity := report.newQuantity })) := by
  have viewed : original.view = some view := by
    rw [← agrees _ own, was] at shown
    exact shown
  intro key here
  rw [Function.update_apply, Function.update_apply]
  split_ifs with new replaced
  · subst new
    show ((records report.newClientOrderId).map _).bind _ = _
    rw [found]
    show (effect (.replaced report) report.newClientOrderId order).idle.view = _
    rw [(effect_replaced different order).2]
    unfold ClientOrder.view at viewed
    split_ifs at viewed
    obtain ⟨_, _, rfl⟩ := Option.map_eq_some_iff.mp viewed
    rw [← instrument, ← side]
    rfl
  · subst replaced
    show ((records report.originalClientOrderId).map _).bind _ = none
    rw [was]
    show (effect (.replaced report) report.originalClientOrderId original).idle.view = none
    rw [(effect_replaced different original).1]
    rfl
  · refine Eq.trans ?_ (agrees key here)
    refine recordsAfter_view fun message member mentioned => ?_
    obtain rfl := List.mem_singleton.mp member
    obtain ⟨account, id⟩ := key
    rcases mentioned with same | same
    · exact replaced (congrArg₂ LiveKey.mk (here.trans own.symm) same)
    · exact new (congrArg₂ LiveKey.mk (here.trans own.symm) same)

/-- Handling the reports of an event does to the records what the event does to the views. -/
theorem Agrees.after (agrees : Agrees account records views) {event : ExchangeEvent} (told : Told account views event)
    (fits : Fits account records event) :
    Agrees account (recordsAfter (reportsFor account [event]) records) (viewsAfter views event) := by
  have apart {named : AccountId} {id : ClientOrderId} (other : named ≠ account) (key : LiveKey) (own : key.accountId = account) :
      key ≠ ⟨named, id⟩ := by
    rintro rfl
    exact other own
  cases event with
  | orderAccepted event =>
    rw [reportsFor_single account rfl]
    split_ifs with own
    · obtain ⟨order, found, instrument, side, price⟩ := fits own
      refine agrees.single own ?_ ?_
      · exact fun _ mentioned => mentioned
      rw [found, Option.map_some, ← instrument, ← side, ← price]
      show ClientOrder.view (if event.clientOrderId = event.clientOrderId then order.accept _ else order) = _
      rw [if_pos rfl]
      rfl
    · exact agrees.elsewhere fun key other => Function.update_of_ne (apart own key other) ..
  | orderRejected event =>
    rw [reportsFor_single account rfl]
    split_ifs with own
    · intro key here
      refine Eq.trans ?_ (agrees key here)
      unfold recordsAfter
      cases records key.clientOrderId with
      | none => rfl
      | some order =>
        show ClientOrder.view (if key.clientOrderId = event.clientOrderId then order.reject _ else order) = order.view
        split_ifs
        · exact reject_view order _
        · rfl
    · exact agrees.elsewhere fun _ _ => rfl
  | orderCancelled event =>
    rw [reportsFor_single account rfl]
    split_ifs with own
    · refine agrees.single own ?_ ?_
      · exact fun _ mentioned => mentioned
      cases records event.clientOrderId with
      | none => rfl
      | some order =>
        show ClientOrder.view (if event.clientOrderId = event.clientOrderId then order.cancel else order) = none
        rw [if_pos rfl]
        rfl
    · exact agrees.elsewhere fun key other => Function.update_of_ne (apart own key other) ..
  | orderReplaced event =>
    rw [reportsFor_single account rfl]
    split_ifs with own
    · obtain ⟨different, original, order, foundOriginal, found, instrument, side⟩ := fits own
      obtain ⟨view, shown⟩ := Option.ne_none_iff_exists'.mp (told own)
      unfold viewsAfter
      dsimp only
      rw [shown]
      exact agrees.replaced own different foundOriginal found instrument side shown
    · refine agrees.elsewhere fun key other => ?_
      exact (Function.update_of_ne (apart own key other) ..).trans (Function.update_of_ne (apart own key other) ..)
  | tradeExecuted event =>
    rw [reportsFor_trade, recordsAfter_append]
    exact (agrees.fill told.1 event).fill told.2 event
  | bookOrderAdded | bookOrderReduced | bookOrderRemoved => exact agrees.elsewhere fun _ _ => rfl

end Views

end Mdh.Trader
