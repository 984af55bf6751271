import Mdh.Trader.FinishedOrders
import Mdh.Trader.RequestsSettled

/-! The orders of an account that stand: those that rest, and those that will once the exchange has
taken the requests on their way. What the owner believes of their sides and prices is so, and a
request is safe when it is apart from all that will stand before it. -/

namespace Mdh.Trader
open Mdh.Core Mdh.Lib Mdh.Matching Mdh.Matching.MatchingEngine Mdh.Risk Mdh.Risk.RiskGatedEngine Mdh.Gateway
open Mdh.Sequencing

/-- Which orders stand after a command. A replacement takes the place of an order that stands. -/
def standsAfter (stands : ClientOrderId → Bool) : ExchangeCommand → ClientOrderId → Bool
  | .newOrder command => fun id => id = command.clientOrderId ∨ stands id
  | .cancelOrder command => fun id => id ≠ command.clientOrderId ∧ stands id
  | .replaceOrder command => fun id =>
      if id = command.newClientOrderId then stands command.originalClientOrderId
      else id ≠ command.originalClientOrderId ∧ stands id

def resting (account : AccountId) (engine : MatchingEngine) (id : ClientOrderId) : Bool := engine.Rests ⟨account, id⟩

/-- The order stands once the requests on their way are taken. -/
def upcoming (account : AccountId) (client : Client) (engine : MatchingEngine) : ClientOrderId → Bool :=
  client.commands.foldl standsAfter (resting account engine)

section Stands
variable {first second : ClientOrderId → Bool} {command : ExchangeCommand} {commands : List ExchangeCommand} {id : ClientOrderId}

theorem standsAfter_mono (fewer : ∀ id, first id = true → second id = true) (stands : standsAfter first command id = true) :
    standsAfter second command id = true := by
  cases command with
  | newOrder command => exact decide_eq_true ((of_decide_eq_true stands).imp_right (fewer id))
  | cancelOrder command => exact decide_eq_true ((of_decide_eq_true stands).imp_right (fewer id))
  | replaceOrder command =>
    unfold standsAfter at stands ⊢
    dsimp only at stands ⊢
    split_ifs at stands ⊢
    · exact fewer _ stands
    · exact decide_eq_true ((of_decide_eq_true stands).imp_right (fewer id))

theorem standsFinally_mono (fewer : ∀ id, first id = true → second id = true)
    (stands : commands.foldl standsAfter first id = true) : commands.foldl standsAfter second id = true := by
  induction commands generalizing first second with
  | nil => exact fewer id stands
  | cons command rest ih => exact ih (fun _ => standsAfter_mono fewer) stands

/-- What stands after a command stood before, or is asked for by it. -/
theorem standsAfter_source (stands : standsAfter first command id = true) :
    first id = true ∨ ∃ key, created command = some key ∧ key.clientOrderId = id := by
  cases command with
  | newOrder command =>
    rcases of_decide_eq_true stands with rfl | before
    · exact Or.inr ⟨_, rfl, rfl⟩
    · exact Or.inl before
  | cancelOrder command => exact Or.inl (of_decide_eq_true stands).2
  | replaceOrder command =>
    unfold standsAfter at stands
    dsimp only at stands
    split_ifs at stands with new
    · exact Or.inr ⟨_, rfl, new.symm⟩
    · exact Or.inl (of_decide_eq_true stands).2

theorem standsFinally_source (stands : commands.foldl standsAfter first id = true) :
    first id = true ∨ ∃ command ∈ commands, ∃ key, created command = some key ∧ key.clientOrderId = id := by
  induction commands generalizing first with
  | nil => exact Or.inl stands
  | cons command rest ih =>
    rcases ih stands with before | ⟨other, member, asks⟩
    · rcases standsAfter_source before with initially | asks
      · exact Or.inl initially
      · exact Or.inr ⟨command, List.mem_cons_self, asks⟩
    · exact Or.inr ⟨other, List.mem_cons_of_mem _ member, asks⟩

end Stands

/-- The side and the price of each order that was entered. -/
abbrev Terms := ClientOrderId → Option (Side × Int)

def Client.terms (client : Client) : Terms := fun id => (client.oms.orders id).map fun order => (order.side, order.price)

/-- The orders are on one side, or at prices that do not meet. -/
def Apart (terms : Terms) (id other : ClientOrderId) : Prop :=
  ∀ side price otherPrice, terms id = some (side, price) → terms other = some (side.contra, otherPrice) →
    ¬ side.Crosses price otherPrice

/-- Each request asks for an order apart from all that stand before it. -/
def Safe (terms : Terms) : (ClientOrderId → Bool) → List ExchangeCommand → Prop
  | _, [] => True
  | stands, command :: rest =>
      (∀ key, created command = some key → ∀ other, stands other = true → Apart terms key.clientOrderId other) ∧
        Safe terms (standsAfter stands command) rest

section Safe
variable {terms after : Terms} {first second : ClientOrderId → Bool} {command : ExchangeCommand}
  {commands : List ExchangeCommand}

theorem Safe.mono (safe : Safe terms second commands) (fewer : ∀ id, first id = true → second id = true) :
    Safe terms first commands := by
  induction commands generalizing first second with
  | nil => trivial
  | cons command rest ih =>
    obtain ⟨here, later⟩ := safe
    exact ⟨fun key asks other stands => here key asks other (fewer other stands), ih later fun _ => standsAfter_mono fewer⟩

theorem safe_append (front back : List ExchangeCommand) : Safe terms first (front ++ back) ↔
    Safe terms first front ∧ Safe terms (front.foldl standsAfter first) back := by
  induction front generalizing first with
  | nil => exact (and_iff_right trivial).symm
  | cons command rest ih => rw [List.cons_append, Safe, Safe, ih, and_assoc, List.foldl_cons]

/-- Only the terms of what stands or is asked for matter. -/
theorem Safe.congr (safe : Safe terms first commands) (stood : ∀ id, first id = true → after id = terms id)
    (asked : ∀ command ∈ commands, ∀ key, created command = some key → after key.clientOrderId = terms key.clientOrderId) :
    Safe after first commands := by
  induction commands generalizing first with
  | nil => trivial
  | cons command rest ih =>
    refine ⟨fun key asks other stands => ?_, ih safe.2 (fun id stands => ?_) fun other member =>
      asked other (List.mem_cons_of_mem _ member)⟩
    · unfold Apart
      rw [asked command List.mem_cons_self key asks, stood other stands]
      exact safe.1 key asks other stands
    · rcases standsAfter_source stands with before | ⟨key, asks, rfl⟩
      · exact stood id before
      · exact asked command List.mem_cons_self key asks

end Safe

section Prices
variable {message : Message} {id : ClientOrderId} {order : ClientOrder}

theorem effect_price (keeps : ∀ event, message = .replaced event → id = event.newClientOrderId → order.price = event.newPrice) :
    (effect message id order).price = order.price := by
  cases message with
  | replaced event =>
    have keeps := keeps event rfl
    unfold effect
    dsimp only
    split_ifs with new
    · exact (keeps new).symm
    · exact (keeps new).symm
    · rfl
    · rfl
  | accepted | rejected | cancelled | tradeReport =>
    unfold effect
    dsimp only
    split_ifs <;> rfl
  | newOrder | cancelOrder | replaceOrder => rfl

theorem effects_price {messages : List Message}
    (keeps : ∀ event, .replaced event ∈ messages → id = event.newClientOrderId → order.price = event.newPrice) :
    (effects messages id order).price = order.price := by
  induction messages generalizing order with
  | nil => rfl
  | cons message rest ih =>
    have here : (effect message id order).price = order.price := effect_price fun event same named =>
      keeps event (same ▸ List.mem_cons_self) named
    show (effects rest id (effect message id order)).price = _
    rw [ih fun event member named => here.trans (keeps event (List.mem_cons_of_mem _ member) named), here]

/-- A replacement has the price its order was entered with, on its way there and back. -/
structure Priced (client : Client) : Prop where
  reports : ∀ event, .replaced event ∈ client.reports →
    ∀ order, client.oms.orders event.newClientOrderId = some order → order.price = event.newPrice
  requests : ∀ command, .replaceOrder command ∈ client.commands →
    ∀ order, client.oms.orders command.newClientOrderId = some order → order.price = command.newPrice

section Clients
variable {account : AccountId} {client : Client} {engine : MatchingEngine}

theorem Priced.recorded (priced : Priced client) {recorded : ClientOrder} (found : client.records id = some recorded) :
    client.terms id = some (recorded.side, recorded.price) := by
  obtain ⟨order, there, rfl⟩ := Option.map_eq_some_iff.mp found
  have price : (effects client.reports id order).price = order.price :=
    effects_price fun event member named => priced.reports event member order (named ▸ there)
  obtain ⟨_, side⟩ := effects_keeps client.reports id order
  unfold Client.terms
  rw [there]
  exact congrArg some (Prod.ext side.symm price.symm)

/-- The owner knows the side and the price of each of its orders that rests. -/
theorem Priced.resting (priced : Priced client) (synced : Synced account client engine) {entry : Resting}
    (member : entry ∈ engine.resting) (own : entry.key.accountId = account) :
    client.terms entry.key.clientOrderId = some (entry.order.side, entry.order.price) := by
  have shown := synced.shown entry member own
  obtain ⟨recorded, found, view⟩ := Option.bind_eq_some_iff.mp shown
  rw [priced.recorded found]
  unfold ClientOrder.view at view
  split_ifs at view
  · obtain ⟨exchangeOrderId, _, same⟩ := Option.map_eq_some_iff.mp view
    exact congrArg some (Prod.ext (congrArg OrderView.side same) (congrArg OrderView.price same))

theorem handle_terms (round : Rounding) (priced : Priced client) {report : Message} {reports : List Message}
    (queued : client.reports = report :: reports) :
    (({ client with reports } : Client).handle round report).terms = client.terms := by
  funext id
  unfold Client.terms
  rw [handle_orders, Option.map_map]
  cases found : client.oms.orders id with
  | none => rfl
  | some order =>
    have price : (effect report id order).price = order.price := effect_price fun event same named =>
      priced.reports event (by rw [queued, ← same]; exact List.mem_cons_self) order (named ▸ found)
    obtain ⟨_, side⟩ := effect_keeps report id order
    exact congrArg some (Prod.ext side price)

theorem terms_price {first second : Client} (same : second.terms id = first.terms id) {price : Int}
    (keeps : ∀ order, first.oms.orders id = some order → order.price = price) (order : ClientOrder)
    (found : second.oms.orders id = some order) : order.price = price := by
  have there : second.terms id = some (order.side, order.price) := congrArg (Option.map _) found
  rw [same] at there
  obtain ⟨before, was, terms⟩ := Option.map_eq_some_iff.mp there
  exact (Prod.mk.inj terms).2.symm.trans (keeps before was)

theorem Priced.handle (round : Rounding) (priced : Priced client) {report : Message} {reports : List Message}
    (queued : client.reports = report :: reports) : Priced (({ client with reports } : Client).handle round report) := by
  have same := handle_terms round priced queued
  refine ⟨fun event member => ?_, fun command member => ?_⟩
  · exact terms_price (congrFun same _) (priced.reports event (by rw [queued]; exact List.mem_cons_of_mem _ member))
  · exact terms_price (congrFun same _) (priced.requests command member)

end Clients

end Prices

section Reports
variable {account : AccountId} {views : OrderViews} {command : ExchangeCommand} {events : List ExchangeEvent}

theorem replaced_ofBook (ofBook : ∀ event ∈ events, OfBook event) {event : Replaced} :
    .replaced event ∉ reportsFor account events := by
  induction events with
  | nil => exact List.not_mem_nil
  | cons first rest ih =>
    rw [reportsFor_cons]
    intro member
    rcases List.mem_append.mp member with here | later
    · have kind := ofBook first List.mem_cons_self
      cases first with
      | orderAccepted | orderCancelled | orderReplaced | orderRejected => cases kind
      | bookOrderAdded | bookOrderReduced | bookOrderRemoved => cases here
      | tradeExecuted trade =>
        rw [reportsFor_trade] at here
        rcases List.mem_append.mp here with buys | sells
        · split_ifs at buys
          · cases List.mem_singleton.mp buys
          · cases buys
        · split_ifs at sells
          · cases List.mem_singleton.mp sells
          · cases sells
    · exact ih (fun other among => ofBook other (List.mem_cons_of_mem _ among)) later

/-- A replacement is reported under the terms it was asked for. -/
theorem Tells.replaced (tells : Tells account views command events) {event : Replaced}
    (member : .replaced event ∈ reportsFor account events) :
    ∃ request, command = .replaceOrder request ∧ request.accountId = account ∧
      event.newClientOrderId = request.newClientOrderId ∧ event.newPrice = request.newPrice := by
  obtain ⟨first, later, rfl, outcome, ofBook⟩ := tells.first
  rw [reportsFor_cons] at member
  rcases List.mem_append.mp member with here | after
  · rcases outcome with answers | ⟨rejection, rfl, _⟩
    · cases command with
      | newOrder request | cancelOrder request =>
        obtain ⟨_, _, rfl⟩ := answers
        rw [reportsFor_single account rfl] at here
        split_ifs at here
        · cases List.mem_singleton.mp here
        · cases here
      | replaceOrder request =>
        obtain ⟨_, _, rfl⟩ := answers
        rw [reportsFor_single account rfl] at here
        split_ifs at here with own
        · cases List.mem_singleton.mp here
          exact ⟨request, rfl, own, rfl, rfl⟩
        · cases here
    · rw [reportsFor_single account rfl] at here
      split_ifs at here
      · cases List.mem_singleton.mp here
      · cases here
  · exact absurd after (replaced_ofBook ofBook)

end Reports

section Processing
variable (round : Rounding) {account : AccountId} {records : Records} {gated : RiskGatedEngine} {command : ExchangeCommand}
  {key : LiveKey}

/-- The orders on record that rest. -/
def restingViews (records : Records) (engine : MatchingEngine) : OrderViews := fun key =>
  if engine.Rests key then recordViews records key else none

theorem restingViews_shown {engine : MatchingEngine} (shown : Shown account (recordViews records) engine) :
    Shown account (restingViews records engine) engine := fun entry member own =>
  (if_pos ⟨entry, member, rfl⟩).trans (shown entry member own)

/-- An order of the account rests only if it did before, or is what the command asks for. -/
theorem process_rests (sound : gated.engine.Sound) (shown : Shown account (recordViews records) gated.engine)
    (fresh : FreshFor account gated.engine command) (own : key.accountId = account)
    (rests : (gated.process round command).gated.engine.Rests key) : created command = some key ∨ gated.engine.Rests key := by
  obtain ⟨tells, shown'⟩ := process_tells round sound (restingViews_shown shown) command fresh
  obtain ⟨entry, member, rfl⟩ := rests
  have seen := shown' entry member own
  rcases tells.seen (by rw [seen]; exact Option.some_ne_none _) with asks | before
  · exact Or.inl asks
  · right
    by_contra gone
    exact before (if_neg gone)

/-- An order that is cancelled or replaced rests no longer. -/
theorem process_alters (sound : gated.engine.Sound) (shown : Shown account (recordViews records) gated.engine)
    (fresh : FreshFor account gated.engine command) (own : key.accountId = account)
    (admits : gated.Admits round command) (alters : altered command = some key) (other : created command ≠ some key) :
    ¬ (gated.process round command).gated.engine.Rests key := by
  rcases process_admits round sound command with ⟨refused, _⟩ | ⟨_, forwarded, taken⟩
  · exact absurd admits refused
  · have viewed := taken.viewed sound shown fresh
    obtain ⟨event, later, events, answers, ofBook⟩ := viewed.answered
    have shown' := viewed.shown
    rw [events] at shown'
    have gone : viewsAfter (recordViews records) event key = none := by
      cases command with
      | newOrder command => cases alters
      | cancelOrder command =>
        obtain ⟨_, _, rfl⟩ := answers
        cases alters
        exact Function.update_self ..
      | replaceOrder command =>
        obtain ⟨_, _, rfl⟩ := answers
        cases alters
        exact (Function.update_of_ne (fun same => other (congrArg some same.symm)) ..).trans (Function.update_self ..)
    rw [forwarded]
    rintro ⟨entry, member, rfl⟩
    have seen := shown' entry member own
    rw [List.foldl_cons, ofBook_allUnseen ofBook gone] at seen
    cases seen

/-- A replacement that rests took the place of an order that did. -/
theorem process_replaces (sound : gated.engine.Sound) {request : ReplaceOrderCommand}
    (absent : ¬ gated.engine.Rests (replacementKey request))
    (rests : (gated.process round (.replaceOrder request)).gated.engine.Rests (replacementKey request)) :
    gated.engine.Rests (originalKey request) := by
  rcases process_admits round sound (.replaceOrder request) with ⟨_, turned⟩ | ⟨admits, _⟩
  · obtain ⟨entry, member, same⟩ := rests
    exact absurd ⟨entry, turned.resting ▸ member, same⟩ absent
  · obtain ⟨ref, found, _⟩ := admits.2.2.2.found
    obtain ⟨entry, member, same, _⟩ := sound.located _ ref found
    exact ⟨entry, member, same⟩

/-- The exchange carries out what is asked of an order that rests. -/
def Honours (round : Rounding) (gated : RiskGatedEngine) (command : ExchangeCommand) : Prop :=
  ∀ key ∈ altered command, gated.engine.Rests key → gated.Admits round command

instance : Decidable (Honours round gated command) := inferInstanceAs (Decidable (∀ _ ∈ _, _ → _))

/-- What rests after a command of the account is what was to stand. -/
theorem Relates.rests {client : Client} (relates : Relates round account client gated command)
    (own : (subject command).accountId = account) (honours : Honours round gated command) {id : ClientOrderId}
    (rests : resting account (gated.process round command).gated.engine id = true) :
    standsAfter (resting account gated.engine) command id = true := by
  have shown := relates.synced.shown
  have rests := of_decide_eq_true rests
  have source := process_rests round relates.sound shown relates.fresh rfl rests
  have stays (alters : altered command = some ⟨account, id⟩) (other : created command ≠ some ⟨account, id⟩) : False := by
    have before := source.resolve_left other
    exact process_alters round relates.sound shown relates.fresh rfl (honours _ alters before) alters other rests
  cases command with
  | newOrder command =>
    rcases source with asks | before
    · exact decide_eq_true (Or.inl (congrArg LiveKey.clientOrderId (Option.some.inj asks)).symm)
    · exact decide_eq_true (Or.inr (decide_eq_true before))
  | cancelOrder command =>
    have before := source.resolve_left nofun
    refine decide_eq_true ⟨?_, decide_eq_true before⟩
    rintro rfl
    exact stays (congrArg some (congrArg (LiveKey.mk · command.clientOrderId) own)) nofun
  | replaceOrder command =>
    unfold standsAfter
    dsimp only
    split_ifs with new
    · subst new
      have key : replacementKey command = ⟨account, command.newClientOrderId⟩ :=
        congrArg (LiveKey.mk · command.newClientOrderId) own
      have absent : ¬ gated.engine.Rests (replacementKey command) := relates.fresh _ rfl own
      have original : gated.engine.Rests ⟨command.accountId, command.originalClientOrderId⟩ :=
        process_replaces round relates.sound absent (key ▸ rests)
      have own : command.accountId = account := own
      rw [own] at original
      exact decide_eq_true original
    · have other : created (.replaceOrder command) ≠ some ⟨account, id⟩ := fun asks =>
        new (congrArg LiveKey.clientOrderId (Option.some.inj asks)).symm
      refine decide_eq_true ⟨?_, decide_eq_true (source.resolve_left other)⟩
      rintro rfl
      exact stays (congrArg some (congrArg (LiveKey.mk · command.originalClientOrderId) own)) other

/-- Others' commands bring nothing of the account to rest. -/
theorem Relates.rests_foreign {client : Client} (relates : Relates round account client gated command)
    (foreign : (subject command).accountId ≠ account) {id : ClientOrderId}
    (rests : resting account (gated.process round command).gated.engine id = true) :
    resting account gated.engine id = true := by
  rcases process_rests round relates.sound relates.synced.shown relates.fresh rfl (of_decide_eq_true rests) with asks | before
  · exact absurd (created_account asks).symm foreign
  · exact decide_eq_true before

end Processing

/-- What the owner has entered of its orders holds, no order that stands waits for a cancel or a
replacement, and the requests on their way are safe. -/
structure Poised (account : AccountId) (client : Client) (engine : MatchingEngine) : Prop where
  priced : Priced client
  quiet : ∀ id, upcoming account client engine id = true →
    ∀ order, client.oms.orders id = some order → order.pendingAction = .none
  safe : Safe client.terms (resting account engine) client.commands

section Poised
variable {round : Rounding} {account : AccountId} {client : Client} {gated : RiskGatedEngine} {command : ExchangeCommand}
  {engine : MatchingEngine} {events : List ExchangeEvent} {views : OrderViews}

theorem Poised.handle (poised : Poised account client engine) (round : Rounding) {report : Message} {reports : List Message}
    (queued : client.reports = report :: reports) :
    Poised account (({ client with reports } : Client).handle round report) engine where
  priced := poised.priced.handle round queued
  quiet id stands order found := by
    rw [handle_orders] at found
    obtain ⟨before, there, rfl⟩ := Option.map_eq_some_iff.mp found
    exact effect_quiet (poised.quiet id stands before there)
  safe := by
    rw [handle_terms round poised.priced queued]
    exact poised.safe

theorem Priced.told (priced : Priced client) (tells : Tells account views command events)
    (asked : ∀ request, command = .replaceOrder request → request.accountId = account →
      ∀ order, client.oms.orders request.newClientOrderId = some order → order.price = request.newPrice) :
    Priced (client.told account events) := by
  refine ⟨fun event member order found => ?_, priced.requests⟩
  rcases List.mem_append.mp member with before | new
  · exact priced.reports event before order found
  · obtain ⟨request, same, own, named, price⟩ := tells.replaced new
    rw [price]
    exact asked request same own order (named ▸ found)

theorem standsAfter_sequence (stands : ClientOrderId → Bool) (sequencer : CommandSequencer) (command : ExchangeCommand) :
    standsAfter stands (sequencer.sequence command).1 = standsAfter stands command := by
  cases command <;> rfl

theorem Relates.rests_takes {sequencer : CommandSequencer}
    {requests : List Message} (own : (subject command).accountId = account)
    (relates : Relates round account { client with requests } gated (sequencer.sequence command).1)
    (honours : Honours round gated (sequencer.sequence command).1) {id : ClientOrderId}
    (rests : resting account (gated.process round (sequencer.sequence command).1).gated.engine id = true) :
    standsAfter (resting account gated.engine) command id = true := by
  rw [← standsAfter_sequence _ sequencer]
  exact relates.rests round (by rw [(sequence_alike sequencer command).1]; exact own) honours rests

/-- What is to stand shrinks as the exchange takes requests. -/
theorem Relates.upcoming_takes {sequencer : CommandSequencer} {request : Message} {requests : List Message}
    (queued : client.requests = request :: requests) (stands : toCommand request = some command)
    (own : (subject command).accountId = account)
    (relates : Relates round account { client with requests } gated (sequencer.sequence command).1)
    (honours : Honours round gated (sequencer.sequence command).1) {id : ClientOrderId}
    (upcomes : upcoming account
      (({ client with requests } : Client).told account (gated.process round (sequencer.sequence command).1).events)
      (gated.process round (sequencer.sequence command).1).gated.engine id = true) :
    upcoming account client gated.engine id = true := by
  unfold upcoming
  rw [commands_takes queued stands, List.foldl_cons]
  exact standsFinally_mono (fun other rests => relates.rests_takes own honours rests) upcomes

/-- The exchange takes the account's next request. -/
theorem Poised.takes (poised : Poised account client gated.engine) (sequencer : CommandSequencer) {request : Message}
    {requests : List Message} (queued : client.requests = request :: requests) (stands : toCommand request = some command)
    (own : (subject command).accountId = account)
    (relates : Relates round account { client with requests } gated (sequencer.sequence command).1)
    (honours : Honours round gated (sequencer.sequence command).1) :
    Poised account
      (({ client with requests } : Client).told account (gated.process round (sequencer.sequence command).1).events)
      (gated.process round (sequencer.sequence command).1).gated.engine := by
  have all := commands_takes queued stands
  have safe := poised.safe
  rw [all] at safe
  refine ⟨?_, fun id upcomes => poised.quiet id (relates.upcoming_takes queued stands own honours upcomes),
    safe.2.mono fun id => relates.rests_takes own honours⟩
  · have rest : Priced { client with requests } :=
      ⟨poised.priced.reports, fun other member => poised.priced.requests other (by rw [all]; exact List.mem_cons_of_mem _ member)⟩
    refine rest.told relates.tells.1 fun replacement same _ => ?_
    cases command with
    | newOrder | cancelOrder => cases same
    | replaceOrder command =>
      obtain rfl := ExchangeCommand.replaceOrder.inj same
      exact poised.priced.requests command (by rw [all]; exact List.mem_cons_self)

/-- The exchange takes another's command. -/
theorem Poised.observes (poised : Poised account client gated.engine) (relates : Relates round account client gated command)
    (foreign : (subject command).accountId ≠ account) :
    Poised account (client.told account (gated.process round command).events) (gated.process round command).gated.engine := by
  have fewer (id : ClientOrderId) (rests : resting account (gated.process round command).gated.engine id = true) :
      resting account gated.engine id = true := relates.rests_foreign round foreign rests
  refine ⟨poised.priced.told relates.tells.1 fun replacement same own => ?_, fun id upcomes order found => ?_,
    poised.safe.mono fewer⟩
  · subst same
    exact absurd own foreign
  · exact poised.quiet id (standsFinally_mono fewer upcomes) order found

theorem Relates.upcoming_observes (relates : Relates round account client gated command)
    (foreign : (subject command).accountId ≠ account) {id : ClientOrderId}
    (upcomes : upcoming account (client.told account (gated.process round command).events)
      (gated.process round command).gated.engine id = true) : upcoming account client gated.engine id = true :=
  standsFinally_mono (fun _ rests => relates.rests_foreign round foreign rests) upcomes

/-- An order that stands is entered, and its owner does not count it as finished. -/
theorem upcoming_entered (synced : Synced account client engine) (finishes : Finishes client) {id : ClientOrderId}
    (upcomes : upcoming account client engine id = true) :
    ∃ order, client.oms.orders id = some order ∧ order.state.isTerminal = false := by
  have unfinished {recorded : ClientOrder} (found : client.records id = some recorded)
      (live : recorded.state.isTerminal = false) : ∃ order, client.oms.orders id = some order ∧ order.state.isTerminal = false := by
    obtain ⟨order, there, _⟩ := Option.map_eq_some_iff.mp found
    refine ⟨order, there, ?_⟩
    by_contra done
    obtain ⟨other, same, ended⟩ := finishes.unseen there (Bool.eq_true_of_not_eq_false done)
    obtain rfl := Option.some.inj (found.symm.trans same)
    rw [live] at ended
    cases ended
  rcases standsFinally_source upcomes with rests | ⟨command, sent, key, asks, rfl⟩
  · obtain ⟨entry, member, same⟩ := of_decide_eq_true rests
    have shown := synced.shown entry member (by rw [same])
    rw [same] at shown
    obtain ⟨recorded, found, view⟩ := Option.bind_eq_some_iff.mp shown
    refine unfinished found ?_
    by_contra done
    rw [terminal_view (Bool.eq_true_of_not_eq_false done)] at view
    cases view
  · obtain ⟨_, order, found, pending⟩ := (synced.asked command sent).creates asks
    exact unfinished found (by rw [pending]; rfl)

end Poised

end Mdh.Trader
