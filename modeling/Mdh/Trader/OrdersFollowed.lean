import Mdh.Risk.Admission
import Mdh.Trader.ReportedOrders

/-! A trader that is alone on its account follows its orders. Each request on its way is entered
among the trader's orders, and what the trader will have made of the reports on their way is what
the exchange has: every order of the account that rests there is known to its owner. -/

namespace Mdh.Trader
open Mdh.Core Mdh.Lib Mdh.Matching Mdh.Matching.MatchingEngine Mdh.Risk Mdh.Risk.RiskGatedEngine Mdh.Gateway
open Mdh.Sequencing

/-- The live orders among the records, whoever the account is. -/
def recordViews (records : Records) : OrderViews := fun key => (records key.clientOrderId).bind ClientOrder.view

/-- The first event of a command: it answers the command, or turns it down under its subject's key. -/
def Outcome (command : ExchangeCommand) (event : ExchangeEvent) : Prop :=
  Answers command event ∨ ∃ rejection, event = .orderRejected rejection ∧
    (⟨rejection.accountId, rejection.clientOrderId⟩ : LiveKey) = subject command

/-- The events of a command, as the account sees them. -/
structure Tells (account : AccountId) (views : OrderViews) (command : ExchangeCommand) (events : List ExchangeEvent) : Prop where
  first : ∃ event later, events = event :: later ∧ Outcome command event ∧ ∀ event ∈ later, OfBook event
  recounts : Recounts account views events

/-- Every command tells the account what becomes of its orders. -/
theorem process_tells (round : Rounding) {gated : RiskGatedEngine} (sound : gated.engine.Sound) {account : AccountId}
    {views : OrderViews} (shown : Shown account views gated.engine) (command : ExchangeCommand)
    (fresh : FreshFor account gated.engine command) :
    Tells account views command (gated.process round command).events ∧
      Shown account ((gated.process round command).events.foldl viewsAfter views) (gated.process round command).gated.engine := by
  rcases process_admits round sound command with ⟨_, turned⟩ | ⟨_, forwarded, taken⟩
  · obtain ⟨rejection, events, named⟩ := turned.events
    rw [events]
    refine ⟨⟨⟨_, [], rfl, Or.inr ⟨rejection, rfl, named⟩, nofun⟩, trivial, trivial⟩, fun entry member own => ?_⟩
    rw [turned.resting] at member
    exact shown entry member own
  · have viewed := taken.viewed sound shown fresh
    obtain ⟨event, later, events, answers, ofBook⟩ := viewed.answered
    rw [forwarded]
    exact ⟨⟨⟨event, later, events, Or.inl answers, ofBook⟩, viewed.recounts⟩, viewed.shown⟩

section Records
variable {account : AccountId} {records : Records} {command : ExchangeCommand}

/-- The orders a command names are entered: one it asks for is pending, and one it is about is not. -/
def Asked (account : AccountId) (records : Records) : ExchangeCommand → Prop
  | .newOrder command => command.accountId = account ∧ ∃ order, records command.clientOrderId = some order ∧
      order.state = .pendingNew ∧ order.instrumentId = command.instrumentId ∧ order.side = command.side ∧
      order.price = command.price
  | .cancelOrder command => command.accountId = account ∧ ∃ order, records command.clientOrderId = some order ∧
      order.state ≠ .pendingNew
  | .replaceOrder command => command.accountId = account ∧ command.newClientOrderId ≠ command.originalClientOrderId ∧
      ∃ original order, records command.originalClientOrderId = some original ∧
        records command.newClientOrderId = some order ∧ original.state ≠ .pendingNew ∧ order.state = .pendingNew ∧
        order.instrumentId = original.instrumentId ∧ order.side = original.side

theorem Asked.own (asked : Asked account records command) : (subject command).accountId = account := by
  cases command <;> exact asked.1

/-- The order a command asks for is entered and pending. -/
theorem Asked.creates (asked : Asked account records command) {key : LiveKey} (asks : created command = some key) :
    key.accountId = account ∧ ∃ order, records key.clientOrderId = some order ∧ order.state = .pendingNew := by
  cases command with
  | newOrder command =>
    obtain ⟨own, order, found, pending, _⟩ := asked
    cases asks
    exact ⟨own, order, found, pending⟩
  | cancelOrder command => cases asks
  | replaceOrder command =>
    obtain ⟨own, _, _, order, _, found, _, pending, _⟩ := asked
    cases asks
    exact ⟨own, order, found, pending⟩

/-- The order a command is about is entered, and pending only if the command asks for it. -/
theorem Asked.about (asked : Asked account records command) :
    created command = some (subject command) ∨
      ∃ order, records (subject command).clientOrderId = some order ∧ order.state ≠ .pendingNew := by
  cases command with
  | newOrder command => exact Or.inl rfl
  | cancelOrder command => exact Or.inr asked.2
  | replaceOrder command =>
    obtain ⟨_, _, original, _, found, _, answered, _⟩ := asked
    exact Or.inr ⟨original, found, answered⟩

theorem pendingNew_view {order : ClientOrder} (pending : order.state = .pendingNew) : order.view = none := by
  unfold ClientOrder.view
  rw [pending]
  rfl

theorem Asked.fresh (asked : (subject command).accountId = account → Asked account records command)
    {engine : MatchingEngine} (shown : Shown account (recordViews records) engine) : FreshFor account engine command := by
  intro key asks own ⟨entry, member, same⟩
  have named : (subject command).accountId = account := by
    cases command <;> cases asks <;> exact own
  obtain ⟨_, order, found, pending⟩ := (asked named).creates asks
  have there := shown entry member (by rw [same]; exact own)
  rw [same] at there
  unfold recordViews at there
  rw [found, Option.bind_some, pendingNew_view pending] at there
  cases there

theorem Asked.fits (asked : (subject command).accountId = account → Asked account records command) {event : ExchangeEvent}
    (outcome : Outcome command event) : Fits account records event := by
  rcases outcome with answers | ⟨rejection, rfl, named⟩
  · cases command with
    | newOrder command =>
      obtain ⟨_, _, rfl⟩ := answers
      intro own
      obtain ⟨_, order, found, _, instrument, side, price⟩ := asked own
      exact ⟨order, found, instrument, side, price⟩
    | cancelOrder command =>
      obtain ⟨_, _, rfl⟩ := answers
      exact fun own => (asked own).2
    | replaceOrder command =>
      obtain ⟨_, _, rfl⟩ := answers
      intro own
      obtain ⟨_, different, original, order, foundOriginal, found, _, _, instrument, side⟩ := asked own
      exact ⟨different, original, order, foundOriginal, found, instrument, side⟩
  · trivial

end Records

section Events
variable {account : AccountId} {records : Records} {views : OrderViews} {command : ExchangeCommand} {events : List ExchangeEvent}

theorem reportsFor_cons (account : AccountId) (event : ExchangeEvent) (rest : List ExchangeEvent) :
    reportsFor account (event :: rest) = reportsFor account [event] ++ reportsFor account rest :=
  reportsFor_append account [event] rest

theorem ofBook_fits {event : ExchangeEvent} (ofBook : OfBook event) : Fits account records event := by
  cases event with
  | orderAccepted | orderCancelled | orderReplaced => cases ofBook
  | orderRejected | tradeExecuted | bookOrderAdded | bookOrderReduced | bookOrderRemoved => trivial

theorem Agrees.ofBook (agrees : Agrees account records views) (recounts : Recounts account views events)
    (ofBook : ∀ event ∈ events, OfBook event) :
    Agrees account (recordsAfter (reportsFor account events) records) (events.foldl viewsAfter views) := by
  induction events generalizing records views with
  | nil => exact agrees.elsewhere fun _ _ => rfl
  | cons event rest ih =>
    rw [reportsFor_cons, recordsAfter_append]
    exact ih (agrees.after recounts.1 (ofBook_fits (ofBook event List.mem_cons_self))) recounts.2
      fun other member => ofBook other (List.mem_cons_of_mem _ member)

/-- The reports of a command do to the records what its events do to the views. -/
theorem Agrees.follows (agrees : Agrees account records views) (tells : Tells account views command events)
    (asked : (subject command).accountId = account → Asked account records command) :
    Agrees account (recordsAfter (reportsFor account events) records) (events.foldl viewsAfter views) := by
  obtain ⟨event, later, rfl, outcome, ofBook⟩ := tells.first
  rw [reportsFor_cons, recordsAfter_append]
  exact (agrees.after tells.recounts.1 (Asked.fits asked outcome)).ofBook tells.recounts.2 ofBook

/-- Nothing of the book brings an order into view. -/
theorem ofBook_unseen {event : ExchangeEvent} (ofBook : OfBook event) {key : LiveKey} (none : views key = none) :
    viewsAfter views event key = Option.none := by
  have filled {views : OrderViews} (none : views key = Option.none) (party : TradeCounterparty) :
      fillView views party key = Option.none := by
    rw [fillView_apply, none]
    unfold leftOf
    split_ifs <;> rfl
  cases event with
  | orderAccepted | orderCancelled | orderReplaced => cases ofBook
  | tradeExecuted event => exact filled (filled none event.buyer) event.seller
  | orderRejected | bookOrderAdded | bookOrderReduced | bookOrderRemoved => exact none

/-- What the book's events report names orders in view. -/
theorem ofBook_mentions {event : ExchangeEvent} (ofBook : OfBook event) (told : Told account views event)
    {message : Message} (member : message ∈ reportsFor account [event]) {id : ClientOrderId}
    (mentioned : Mentions message id) : views ⟨account, id⟩ ≠ none := by
  cases event with
  | orderAccepted | orderCancelled | orderReplaced | orderRejected => cases ofBook
  | bookOrderAdded | bookOrderReduced | bookOrderRemoved => cases member
  | tradeExecuted event =>
    rw [reportsFor_trade] at member
    rcases List.mem_append.mp member with buys | sells
    · split_ifs at buys with own
      · obtain rfl := List.mem_singleton.mp buys
        obtain ⟨view, seen, _⟩ := told.1 own
        have named : (⟨account, id⟩ : LiveKey) = partyKey event.buyer := congrArg₂ LiveKey.mk own.symm mentioned
        rw [named, seen]
        nofun
      · cases buys
    · split_ifs at sells with own
      · obtain rfl := List.mem_singleton.mp sells
        obtain ⟨view, seen, _⟩ := told.2 own
        have named : (⟨account, id⟩ : LiveKey) = partyKey event.seller := congrArg₂ LiveKey.mk own.symm mentioned
        intro none
        rw [← named, fillView_apply, none] at seen
        unfold leftOf at seen
        split_ifs at seen
        cases seen
      · cases sells

theorem mentions_ofBook (recounts : Recounts account views events) (ofBook : ∀ event ∈ events, OfBook event)
    {message : Message} (member : message ∈ reportsFor account events) {id : ClientOrderId}
    (mentioned : Mentions message id) : views ⟨account, id⟩ ≠ none := by
  induction events generalizing views with
  | nil => cases member
  | cons event rest ih =>
    have here := ofBook event List.mem_cons_self
    rw [reportsFor_cons] at member
    rcases List.mem_append.mp member with first | later
    · exact ofBook_mentions here recounts.1 first mentioned
    · exact fun none => ih recounts.2 (fun other among => ofBook other (List.mem_cons_of_mem _ among)) later
        (ofBook_unseen here none)

/-- Only the order a command asks for comes into view. -/
theorem Outcome.seen {event : ExchangeEvent} (outcome : Outcome command event) {key : LiveKey}
    (seen : viewsAfter views event key ≠ none) : created command = some key ∨ views key ≠ none := by
  rcases outcome with answers | ⟨rejection, rfl, _⟩
  · cases command with
    | newOrder command =>
      obtain ⟨_, _, rfl⟩ := answers
      by_cases same : key = ⟨command.accountId, command.clientOrderId⟩
      · exact Or.inl (congrArg some same.symm)
      · exact Or.inr fun none => seen ((Function.update_of_ne same ..).trans none)
    | cancelOrder command =>
      obtain ⟨_, _, rfl⟩ := answers
      refine Or.inr fun none => seen ?_
      by_cases same : key = ⟨command.accountId, command.clientOrderId⟩
      · rw [same]
        exact Function.update_self ..
      · exact (Function.update_of_ne same ..).trans none
    | replaceOrder command =>
      obtain ⟨_, _, rfl⟩ := answers
      by_cases new : key = replacementKey command
      · exact Or.inl (congrArg some new.symm)
      · refine Or.inr fun none => seen ((Function.update_of_ne new ..).trans ?_)
        by_cases original : key = originalKey command
        · rw [original]
          exact Function.update_self ..
        · exact (Function.update_of_ne original ..).trans none
  · exact Or.inr seen

theorem Outcome.mentions {event : ExchangeEvent} (outcome : Outcome command event) {message : Message}
    (member : message ∈ reportsFor account [event]) {id : ClientOrderId} (mentioned : Mentions message id) :
    created command = some ⟨account, id⟩ ∨ subject command = ⟨account, id⟩ := by
  rcases outcome with answers | ⟨rejection, rfl, named⟩
  · cases command with
    | newOrder command =>
      obtain ⟨_, _, rfl⟩ := answers
      rw [reportsFor_single account rfl] at member
      split_ifs at member with own
      · obtain rfl := List.mem_singleton.mp member
        exact Or.inl (congrArg some (congrArg₂ LiveKey.mk own mentioned.symm))
      · cases member
    | cancelOrder command =>
      obtain ⟨_, _, rfl⟩ := answers
      rw [reportsFor_single account rfl] at member
      split_ifs at member with own
      · obtain rfl := List.mem_singleton.mp member
        exact Or.inr (congrArg₂ LiveKey.mk own mentioned.symm)
      · cases member
    | replaceOrder command =>
      obtain ⟨_, _, rfl⟩ := answers
      rw [reportsFor_single account rfl] at member
      split_ifs at member with own
      · obtain rfl := List.mem_singleton.mp member
        rcases mentioned with original | new
        · exact Or.inr (congrArg₂ LiveKey.mk own original.symm)
        · exact Or.inl (congrArg some (congrArg₂ LiveKey.mk own new.symm))
      · cases member
  · rw [reportsFor_single account rfl] at member
    split_ifs at member with own
    · obtain rfl := List.mem_singleton.mp member
      exact Or.inr (named.symm.trans (congrArg₂ LiveKey.mk own mentioned.symm))
    · cases member

/-- An order a command's events name to the account: the one it asks for, the one it is about, or one in view. -/
theorem Tells.mentions (tells : Tells account views command events) {message : Message}
    (member : message ∈ reportsFor account events) {id : ClientOrderId} (mentioned : Mentions message id) :
    created command = some ⟨account, id⟩ ∨ subject command = ⟨account, id⟩ ∨ views ⟨account, id⟩ ≠ none := by
  obtain ⟨event, later, rfl, outcome, ofBook⟩ := tells.first
  rw [reportsFor_cons] at member
  rcases List.mem_append.mp member with first | after
  · exact (outcome.mentions first mentioned).imp_right Or.inl
  · exact (outcome.seen (mentions_ofBook tells.recounts.2 ofBook after mentioned)).imp_right Or.inr

theorem ofBook_allUnseen (ofBook : ∀ event ∈ events, OfBook event) {key : LiveKey} (none : views key = none) :
    events.foldl viewsAfter views key = Option.none := by
  induction events generalizing views with
  | nil => exact none
  | cons event rest ih =>
    exact ih (fun other member => ofBook other (List.mem_cons_of_mem _ member))
      (ofBook_unseen (ofBook event List.mem_cons_self) none)

/-- Only the order a command asks for comes into view. -/
theorem Tells.seen (tells : Tells account views command events) {key : LiveKey}
    (seen : events.foldl viewsAfter views key ≠ none) : created command = some key ∨ views key ≠ none := by
  obtain ⟨event, later, rfl, outcome, ofBook⟩ := tells.first
  exact outcome.seen fun none => seen (ofBook_allUnseen ofBook none)

/-- A report of a command names the order that it asks for, or one whose answer is known. -/
theorem Tells.answered (tells : Tells account (recordViews records) command events)
    (asked : (subject command).accountId = account → Asked account records command) {message : Message}
    (member : message ∈ reportsFor account events) {id : ClientOrderId} (mentioned : Mentions message id) :
    created command = some ⟨account, id⟩ ∨ ∃ order, records id = some order ∧ order.state ≠ .pendingNew := by
  rcases tells.mentions member mentioned with creates | about | seen
  · exact Or.inl creates
  · have named := (asked (congrArg LiveKey.accountId about)).about
    rw [about] at named
    exact named
  · right
    obtain ⟨view, viewed⟩ := Option.ne_none_iff_exists'.mp seen
    obtain ⟨order, found, shown⟩ := Option.bind_eq_some_iff.mp viewed
    exact ⟨order, found, fun pending => by rw [pendingNew_view pending] at shown; cases shown⟩

/-- A request stays entered, whatever is reported, if no report names the order it asks for. -/
theorem Asked.kept {messages : List Message} (asked : Asked account records command)
    (silent : ∀ key, created command = some key → ∀ message ∈ messages, ¬ Mentions message key.clientOrderId) :
    Asked account (recordsAfter messages records) command := by
  have after {id : ClientOrderId} {order : ClientOrder} (found : records id = some order) :
      recordsAfter messages records id = some (effects messages id order).idle := congrArg (Option.map _) found
  cases command with
  | newOrder command =>
    obtain ⟨own, order, found, pending, instrument, side, price⟩ := asked
    refine ⟨own, _, after found, ?_⟩
    rw [effects_unmentioned (silent _ rfl)]
    exact ⟨pending, instrument, side, price⟩
  | cancelOrder command =>
    obtain ⟨own, order, found, answered⟩ := asked
    exact ⟨own, _, after found, fun pending => answered (effects_pendingNew pending)⟩
  | replaceOrder command =>
    obtain ⟨own, different, original, order, was, found, answered, pending, instrument, side⟩ := asked
    refine ⟨own, different, _, _, after was, after found, fun pending => answered (effects_pendingNew pending), ?_⟩
    obtain ⟨sameInstrument, sameSide⟩ := effects_keeps messages command.originalClientOrderId original
    have untouched : effects messages command.newClientOrderId order = order := effects_unmentioned (silent _ rfl) order
    rw [untouched]
    exact ⟨pending, instrument.trans sameInstrument.symm, side.trans sameSide.symm⟩

end Events

/-- The orders of a trader once it has handled every report on its way. -/
def Client.records (client : Client) : Records := recordsAfter client.reports client.oms.orders

/-- What the requests on their way ask for. -/
def Client.commands (client : Client) : List ExchangeCommand := client.requests.filterMap toCommand

/-- The client once the exchange has processed a command. -/
def Client.told (client : Client) (account : AccountId) (events : List ExchangeEvent) : Client :=
  { client with reports := client.reports ++ reportsFor account events }

/-- A trader alone on its account, and the exchange: the requests on their way are entered, each
asking for an order of its own, and the orders that rest are known. -/
structure Synced (account : AccountId) (client : Client) (engine : MatchingEngine) : Prop where
  own : client.oms.accountId = account
  unused : ∀ id, client.oms.nextClientOrderId ≤ id → client.oms.orders id = none
  known : ∀ message ∈ client.reports, ∀ id, Mentions message id → id < client.oms.nextClientOrderId
  asked : ∀ command ∈ client.commands, Asked account client.records command
  distinct : (client.commands.filterMap created).Nodup
  shown : Shown account (recordViews client.records) engine

section Steps
variable {account : AccountId} {client : Client} {engine : MatchingEngine}

theorem Synced.entered (synced : Synced account client engine) {id : ClientOrderId} {order : ClientOrder}
    (found : client.records id = some order) : id < client.oms.nextClientOrderId := by
  by_contra past
  have none := synced.unused id (not_lt.mp past)
  unfold Client.records recordsAfter at found
  rw [none] at found
  cases found

/-- The exchange processes a command, and its reports set out. -/
theorem Synced.told (synced : Synced account client engine) {command : ExchangeCommand} {events : List ExchangeEvent}
    {after : MatchingEngine} (tells : Tells account (recordViews client.records) command events)
    (shown : Shown account (events.foldl viewsAfter (recordViews client.records)) after)
    (asked : (subject command).accountId = account → Asked account client.records command)
    (apart : ∀ other ∈ client.commands, ∀ key, created other = some key → created command ≠ some key) :
    Synced account (client.told account events) after := by
  have records : (client.told account events).records = recordsAfter (reportsFor account events) client.records :=
    recordsAfter_append ..
  refine ⟨synced.own, synced.unused, fun message member id mentioned => ?_, fun other member => ?_, synced.distinct, ?_⟩
  · rcases List.mem_append.mp member with before | new
    · exact synced.known message before id mentioned
    · rcases tells.answered asked new mentioned with creates | ⟨order, found, _⟩
      · have named : (subject command).accountId = account := by
          cases command <;> cases creates <;> rfl
        obtain ⟨_, order, found, _⟩ := (asked named).creates creates
        exact synced.entered found
      · exact synced.entered found
  · rw [records]
    refine (synced.asked other member).kept fun key asks message reported mentioned => ?_
    obtain ⟨own, order, found, pending⟩ := (synced.asked other member).creates asks
    obtain ⟨account', id⟩ := key
    obtain rfl : account' = account := own
    rcases tells.answered asked reported mentioned with creates | ⟨same, there, answered⟩
    · exact apart other member _ asks creates
    · obtain rfl : order = same := Option.some.inj (found.symm.trans there)
      exact answered pending
  · have agrees : Agrees account client.records (recordViews client.records) := fun _ _ => rfl
    rw [records]
    intro entry member own
    exact (agrees.follows tells asked entry.key own).trans (shown entry member own)

theorem handle_orders (round : Rounding) (client : Client) (report : Message) (id : ClientOrderId) :
    (client.handle round report).oms.orders id = (client.oms.orders id).map (effect report id) :=
  handleMessage_orders client.oms report id

/-- What will have been made of all reports is as before one of them is handled. -/
theorem handle_records (round : Rounding) {report : Message} {reports : List Message}
    (queued : client.reports = report :: reports) :
    (({ client with reports } : Client).handle round report).records = client.records := by
  funext id
  show ((({ client with reports } : Client).handle round report).oms.orders id).map _ = (client.oms.orders id).map _
  rw [handle_orders, Option.map_map, queued]
  rfl

/-- A report is handled. -/
theorem Synced.handle (round : Rounding) (synced : Synced account client engine) {report : Message} {reports : List Message}
    (queued : client.reports = report :: reports) :
    Synced account (({ client with reports } : Client).handle round report) engine := by
  obtain ⟨sameAccount, sameNext⟩ := handleMessage_account client.oms report
  have next : (({ client with reports } : Client).handle round report).oms.nextClientOrderId =
      client.oms.nextClientOrderId := sameNext
  have records := handle_records round queued
  refine ⟨sameAccount.trans synced.own, fun id past => ?_, fun message member id mentioned => ?_, fun command member => ?_,
    synced.distinct, ?_⟩
  · rw [next] at past
    rw [handle_orders]
    exact congrArg (Option.map _) (synced.unused id past)
  · rw [next]
    exact synced.known message (by rw [queued]; exact List.mem_cons_of_mem _ member) id mentioned
  · rw [records]
    exact synced.asked command member
  · rw [records]
    exact synced.shown

/-- An order is entered under the next id, and nothing else changes. -/
theorem Synced.records_register (synced : Synced account client engine) (order : ClientOrder) :
    recordsAfter client.reports (client.oms.register order).orders =
      Function.update client.records client.oms.nextClientOrderId (some order.idle) := by
  funext id
  unfold recordsAfter OrderManagementSystem.register
  dsimp only
  rw [Function.update_apply, Function.update_apply]
  split_ifs with same
  · rw [same, Option.map_some, effects_unmentioned fun message member mentioned =>
      lt_irrefl _ (synced.known message member _ mentioned)]
  · rfl

theorem Synced.records_next (synced : Synced account client engine) : client.records client.oms.nextClientOrderId = none := by
  cases found : client.records client.oms.nextClientOrderId with
  | none => rfl
  | some order => exact absurd (synced.entered found) (lt_irrefl _)

/-- A request is still entered once another order is. -/
theorem Asked.register {records : Records} {command : ExchangeCommand} (asked : Asked account records command)
    {id : ClientOrderId} (fresh : records id = none) (order : Option ClientOrder) :
    Asked account (Function.update records id order) command := by
  have after {other : ClientOrderId} {there : ClientOrder} (found : records other = some there) :
      Function.update records id order other = some there := by
    rw [Function.update_of_ne (by rintro rfl; rw [found] at fresh; cases fresh), found]
  cases command with
  | newOrder command =>
    obtain ⟨own, there, found, rest⟩ := asked
    exact ⟨own, there, after found, rest⟩
  | cancelOrder command =>
    obtain ⟨own, there, found, rest⟩ := asked
    exact ⟨own, there, after found, rest⟩
  | replaceOrder command =>
    obtain ⟨own, different, original, there, was, found, rest⟩ := asked
    exact ⟨own, different, original, there, after was, after found, rest⟩

/-- An order that is not in view yet is entered. -/
theorem recordViews_register {records : Records} {id : ClientOrderId} (fresh : records id = none) {order : ClientOrder}
    (unseen : order.view = none) : recordViews (Function.update records id (some order)) = recordViews records := by
  funext key
  unfold recordViews
  rw [Function.update_apply]
  split_ifs with same
  · rw [same, fresh]
    exact unseen
  · rfl

theorem Synced.registers (synced : Synced account client engine) {order : ClientOrder} (unseen : order.view = none) :
    Synced account { client with oms := client.oms.register order } engine := by
  have records : ({ client with oms := client.oms.register order } : Client).records =
      Function.update client.records client.oms.nextClientOrderId (some order.idle) := synced.records_register order
  refine ⟨synced.own, fun id past => ?_, fun message member id mentioned => ?_, fun command member => ?_, synced.distinct, ?_⟩
  · have past : client.oms.nextClientOrderId < id := past
    exact (Function.update_of_ne past.ne' ..).trans (synced.unused id past.le)
  · exact (synced.known message member id mentioned).trans (Nat.lt_succ_self _)
  · rw [records]
    exact (synced.asked command member).register synced.records_next _
  · rw [records, recordViews_register synced.records_next]
    · exact synced.shown
    · exact unseen

/-- That a cancel or replace is pending is not recorded. -/
theorem Synced.pends (synced : Synced account client engine) (clientOrderId : ClientOrderId) (action : PendingAction) :
    ({ client with oms := client.oms.update clientOrderId fun order => { order with pendingAction := action } } : Client).records =
        client.records ∧
      Synced account { client with oms := client.oms.update clientOrderId fun order => { order with pendingAction := action } }
        engine := by
  have records : ({ client with
      oms := client.oms.update clientOrderId fun order => { order with pendingAction := action } } : Client).records =
        client.records := by
    funext id
    show ((client.oms.update clientOrderId _).orders id).map _ = (client.oms.orders id).map _
    rw [update_orders, Option.map_map]
    refine congrArg (Option.map · _) (funext fun order => ?_)
    dsimp only [Function.comp_apply]
    split_ifs
    · exact effects_pendingAction _ _ order action
    · rfl
  obtain ⟨sameAccount, sameNext⟩ := update_account client.oms clientOrderId fun order => { order with pendingAction := action }
  refine ⟨records, sameAccount.trans synced.own, fun id past => ?_, fun message member id mentioned => ?_,
    fun command member => ?_, synced.distinct, ?_⟩
  · show (client.oms.update clientOrderId _).orders id = none
    rw [update_orders, synced.unused id (sameNext ▸ past)]
    rfl
  · rw [sameNext]
    exact synced.known message member id mentioned
  · rw [records]
    exact synced.asked command member
  · rw [records]
    exact synced.shown

theorem commands_send (client : Client) (oms : OrderManagementSystem) {request : Message} {command : ExchangeCommand}
    (stands : toCommand request = some command) : (client.send oms (some request)).commands = client.commands ++ [command] := by
  show (client.requests ++ [request]).filterMap toCommand = _
  rw [List.filterMap_append, List.filterMap_cons_some stands]
  rfl

/-- A request that is entered goes out. -/
theorem Synced.sends (synced : Synced account client engine) {request : Message} {command : ExchangeCommand}
    (stands : toCommand request = some command) (asked : Asked account client.records command)
    (fresh : ∀ key, created command = some key → key ∉ client.commands.filterMap created) :
    Synced account (client.send client.oms (some request)) engine := by
  have commands := commands_send client client.oms stands
  refine ⟨synced.own, synced.unused, synced.known, fun other member => ?_, ?_, synced.shown⟩
  · rw [commands] at member
    rcases List.mem_append.mp member with before | new
    · exact synced.asked other before
    · obtain rfl := List.mem_singleton.mp new
      exact asked
  · rw [commands, List.filterMap_append]
    cases asks : created command with
    | none =>
      rw [List.filterMap_cons_none asks, List.filterMap_nil, List.append_nil]
      exact synced.distinct
    | some key =>
      rw [List.filterMap_cons_some asks, List.filterMap_nil]
      exact List.nodup_append.mpr ⟨synced.distinct, List.nodup_singleton _, fun earlier before last new same =>
        fresh key asks (by rw [← List.mem_singleton.mp new, ← same]; exact before)⟩

/-- The next id is asked for by no request on its way. -/
theorem Synced.next_fresh (synced : Synced account client engine) {key : LiveKey}
    (next : key.clientOrderId = client.oms.nextClientOrderId) : key ∉ client.commands.filterMap created := by
  intro member
  obtain ⟨command, sent, asks⟩ := List.mem_filterMap.mp member
  obtain ⟨_, order, found, _⟩ := (synced.asked command sent).creates asks
  rw [next, synced.records_next] at found
  cases found

section Calls

theorem Synced.submitNewOrder (synced : Synced account client engine) (instrumentId : InstrumentId) (side : Side) (price : Int)
    (quantity : Nat) (orderType : Core.OrderType) (timeInForce : TimeInForce) :
    let (oms, _, request) := client.oms.submitNewOrder instrumentId side price quantity orderType timeInForce true
    Synced account (client.send oms request) engine := by
  let order : ClientOrder := {
    accountId := client.oms.accountId
    clientOrderId := client.oms.nextClientOrderId
    instrumentId
    side
    price
    quantity
    remainingQuantity := quantity
    orderType
    timeInForce }
  have entered : Synced account { client with oms := client.oms.register order } engine := synced.registers (pendingNew_view rfl)
  have records : ({ client with oms := client.oms.register order } : Client).records =
      Function.update client.records client.oms.nextClientOrderId (some order.idle) := synced.records_register order
  refine entered.sends rfl ⟨synced.own, order.idle, ?_, rfl, rfl, rfl, rfl⟩ fun key asks => ?_
  · rw [records]
    exact Function.update_self ..
  · cases asks
    exact synced.next_fresh rfl

/-- What may be cancelled or replaced is live, and so on record as answered. -/
theorem workable_recorded {clientOrderId : ClientOrderId} {order : ClientOrder}
    (found : client.oms.workable clientOrderId = some order) :
    ∃ recorded, client.records clientOrderId = some recorded ∧ recorded.state ≠ .pendingNew ∧
      recorded.instrumentId = order.instrumentId ∧ recorded.side = order.side := by
  obtain ⟨there, working⟩ := Option.filter_eq_some_iff.mp found
  obtain ⟨live, _⟩ := of_decide_eq_true working
  obtain ⟨instrument, side⟩ := effects_keeps client.reports clientOrderId order
  refine ⟨(effects client.reports clientOrderId order).idle, congrArg (Option.map _) there, fun pending => ?_, instrument, side⟩
  rw [effects_pendingNew pending] at live
  cases live

theorem Synced.cancelOrder (synced : Synced account client engine) (clientOrderId : ClientOrderId) :
    let (oms, request) := client.oms.cancelOrder clientOrderId true
    Synced account (client.send oms request) engine := by
  unfold OrderManagementSystem.cancelOrder
  cases found : client.oms.workable clientOrderId with
  | none =>
    show Synced account { client with requests := client.requests ++ [] } engine
    rw [List.append_nil]
    exact synced
  | some order =>
    obtain ⟨recorded, there, answered, _⟩ := workable_recorded found
    obtain ⟨records, pends⟩ := synced.pends clientOrderId .cancel
    refine pends.sends rfl ⟨pends.own, recorded, ?_, answered⟩ nofun
    rw [records]
    exact there

theorem Synced.replaceOrder (synced : Synced account client engine) (clientOrderId : ClientOrderId) (newPrice : Int)
    (newQuantity : Nat) :
    let (oms, request) := client.oms.replaceOrder clientOrderId newPrice newQuantity true
    Synced account (client.send oms (request.map Prod.snd)) engine := by
  unfold OrderManagementSystem.replaceOrder
  cases found : client.oms.workable clientOrderId with
  | none =>
    show Synced account { client with requests := client.requests ++ [] } engine
    rw [List.append_nil]
    exact synced
  | some original =>
    obtain ⟨recorded, there, answered, instrument, side⟩ := workable_recorded found
    obtain ⟨records, pends⟩ := synced.pends clientOrderId .replace
    obtain ⟨_, sameNext⟩ := update_account client.oms clientOrderId fun order => { order with pendingAction := .replace }
    let order : ClientOrder := {
      accountId := client.oms.accountId
      clientOrderId := client.oms.nextClientOrderId
      instrumentId := original.instrumentId
      side := original.side
      price := newPrice
      quantity := newQuantity
      remainingQuantity := newQuantity
      orderType := original.orderType
      timeInForce := original.timeInForce }
    have pending : order.state = .pendingNew := rfl
    have entered := pends.registers (pendingNew_view pending)
    have all := pends.records_register order
    rw [sameNext] at all
    have different : client.oms.nextClientOrderId ≠ clientOrderId := by
      rintro same
      rw [← same, synced.records_next] at there
      cases there
    refine entered.sends rfl ⟨entered.own, different, recorded, order.idle, ?_, ?_, answered, rfl, instrument.symm, side.symm⟩
      fun key asks => ?_
    · refine (congrFun all clientOrderId).trans ((Function.update_of_ne different.symm ..).trans ?_)
      rw [records]
      exact there
    · exact (congrFun all _).trans (Function.update_self ..)
    · cases asks
      exact pends.next_fresh sameNext.symm

end Calls

end Steps

section Floor
variable (round : Rounding) {managed : AccountId → Bool} {floor : TradingFloor}

/-- Each trader that is alone on its account follows its orders. -/
structure Followed (managed : AccountId → Bool) (floor : TradingFloor) : Prop where
  sound : floor.exchange.engine.Sound
  synced : ∀ account, managed account = true → Synced account (floor.clients account) floor.exchange.engine
  silent : ∀ account, managed account = false → (floor.clients account).requests = []

theorem created_account {command : ExchangeCommand} {key : LiveKey} (asks : created command = some key) :
    key.accountId = (subject command).accountId := by
  cases command <;> cases asks <;> rfl

/-- The number a command is given changes nothing of what it asks for. -/
theorem sequence_alike (sequencer : CommandSequencer) (command : ExchangeCommand) :
    subject (sequencer.sequence command).1 = subject command ∧ created (sequencer.sequence command).1 = created command ∧
      ∀ account records, Asked account records (sequencer.sequence command).1 ↔ Asked account records command := by
  cases command <;> exact ⟨rfl, rfl, fun _ _ => Iff.rfl⟩

theorem Followed.setClient (followed : Followed managed floor) {account : AccountId} {client : Client}
    (synced : managed account = true → Synced account client floor.exchange.engine)
    (silent : managed account = false → client.requests = []) : Followed managed (floor.setClient account client) := by
  have clients (other : AccountId) : (floor.setClient account client).clients other =
      if other = account then client else floor.clients other := Function.update_apply ..
  refine ⟨followed.sound, fun other alone => ?_, fun other outside => ?_⟩
  · rw [clients]
    split_ifs with same
    · subst same
      exact synced alone
    · exact followed.synced other alone
  · rw [clients]
    split_ifs with same
    · subst same
      exact silent outside
    · exact followed.silent other outside

/-- A command is processed that is entered with the trader it comes from, if that is alone on its account. -/
theorem Followed.process (followed : Followed managed floor) {command : ExchangeCommand}
    (asked : managed (subject command).accountId = true →
      Asked (subject command).accountId (floor.clients (subject command).accountId).records command)
    (apart : managed (subject command).accountId = true → ∀ key, created command = some key →
      key ∉ (floor.clients (subject command).accountId).commands.filterMap created) :
    Followed managed (floor.process round command) := by
  obtain ⟨sameSubject, sameCreated, sameAsked⟩ := sequence_alike floor.sequencer command
  refine ⟨process_sound round followed.sound _, fun account alone => ?_, followed.silent⟩
  have synced := followed.synced account alone
  have entered : (subject (floor.sequencer.sequence command).1).accountId = account →
      Asked account (floor.clients account).records (floor.sequencer.sequence command).1 := by
    rw [sameSubject, sameAsked]
    rintro rfl
    exact asked alone
  obtain ⟨tells, shown⟩ := process_tells round followed.sound synced.shown (floor.sequencer.sequence command).1
    (Asked.fresh entered synced.shown)
  refine synced.told tells shown entered fun other member key asks creates => ?_
  rw [sameCreated] at creates
  obtain ⟨own, _⟩ := (synced.asked other member).creates asks
  have same : (subject command).accountId = account := (created_account creates).symm.trans own
  subst same
  exact apart alone key creates (List.mem_filterMap.mpr ⟨other, member, asks⟩)

theorem commands_takes {client : Client} {request : Message} {requests : List Message}
    (queued : client.requests = request :: requests) {command : ExchangeCommand} (stands : toCommand request = some command) :
    client.commands = command :: ({ client with requests } : Client).commands := by
  show client.requests.filterMap toCommand = _
  rw [queued, List.filterMap_cons_some stands]
  rfl

/-- A request taken off the channel is entered, and asks for an order no other one does. -/
theorem Synced.takes {account : AccountId} {client : Client} {engine : MatchingEngine} (synced : Synced account client engine)
    {request : Message} {requests : List Message} (queued : client.requests = request :: requests) {command : ExchangeCommand}
    (stands : toCommand request = some command) :
    Synced account { client with requests } engine ∧ Asked account client.records command ∧
      ∀ key, created command = some key → key ∉ ({ client with requests } : Client).commands.filterMap created := by
  have commands := commands_takes queued stands
  have distinct := synced.distinct
  rw [commands] at distinct
  refine ⟨⟨synced.own, synced.unused, synced.known, fun other member => ?_, ?_, synced.shown⟩, ?_, fun key asks => ?_⟩
  · exact synced.asked other (by rw [commands]; exact List.mem_cons_of_mem _ member)
  · cases asks : created command with
    | none => rwa [List.filterMap_cons_none asks] at distinct
    | some key =>
      rw [List.filterMap_cons_some asks] at distinct
      exact (List.nodup_cons.mp distinct).2
  · exact synced.asked command (by rw [commands]; exact List.mem_cons_self)
  · rw [List.filterMap_cons_some asks] at distinct
    exact (List.nodup_cons.mp distinct).1

theorem Followed.step (followed : Followed managed floor) {action : FloorAction} {after : TradingFloor}
    (stepped : floor.step round managed action = some after) : Followed managed after := by
  cases action with
  | submitNewOrder account instrumentId side price quantity orderType timeInForce =>
    simp only [TradingFloor.step] at stepped
    split_ifs at stepped with alone
    obtain rfl := Option.some.inj stepped
    exact followed.setClient
      (fun _ => (followed.synced account alone).submitNewOrder instrumentId side price quantity orderType timeInForce)
      fun outside => by rw [alone] at outside; cases outside
  | cancelOrder account clientOrderId =>
    simp only [TradingFloor.step] at stepped
    split_ifs at stepped with alone
    obtain rfl := Option.some.inj stepped
    exact followed.setClient (fun _ => (followed.synced account alone).cancelOrder clientOrderId)
      fun outside => by rw [alone] at outside; cases outside
  | replaceOrder account clientOrderId newPrice newQuantity =>
    simp only [TradingFloor.step] at stepped
    split_ifs at stepped with alone
    obtain rfl := Option.some.inj stepped
    exact followed.setClient (fun _ => (followed.synced account alone).replaceOrder clientOrderId newPrice newQuantity)
      fun outside => by rw [alone] at outside; cases outside
  | takeRequest account =>
    simp only [TradingFloor.step] at stepped
    split at stepped
    · cases stepped
    · rename_i request requests queued
      obtain ⟨command, stands, rfl⟩ := Option.map_eq_some_iff.mp stepped
      have alone : managed account = true := by
        by_contra outside
        rw [followed.silent account (Bool.eq_false_of_not_eq_true outside)] at queued
        cases queued
      obtain ⟨synced, asked, fresh⟩ := (followed.synced account alone).takes queued stands
      have middle : Followed managed (floor.setClient account { floor.clients account with requests }) :=
        followed.setClient (fun _ => synced) fun outside => by rw [alone] at outside; cases outside
      have here : (floor.setClient account { floor.clients account with requests }).clients account =
          { floor.clients account with requests } := Function.update_self ..
      refine middle.process round (fun _ => ?_) fun _ => ?_
      · rw [asked.own, here]
        exact asked
      · rw [asked.own, here]
        exact fresh
  | outside command =>
    simp only [TradingFloor.step] at stepped
    split_ifs at stepped with alone
    obtain rfl := Option.some.inj stepped
    have named : (subject command).accountId = command.accountId := by cases command <;> rfl
    refine followed.process round (fun own => ?_) fun own => ?_
    · rw [named] at own
      exact absurd own alone
    · rw [named] at own
      exact absurd own alone
  | handleReport account =>
    simp only [TradingFloor.step] at stepped
    split at stepped
    · cases stepped
    · rename_i report reports queued
      obtain rfl := Option.some.inj stepped
      exact followed.setClient (fun alone => (followed.synced account alone).handle round queued)
        fun outside => followed.silent account outside

/-- What a step is to one trader: one of its calls, a report it handles, a request of its own or
another's command at the exchange, or nothing. -/
inductive Sees (account : AccountId) (floor after : TradingFloor) : FloorAction → Prop where
  | stays (action : FloorAction) (client : after.clients account = floor.clients account)
      (exchange : after.exchange = floor.exchange) : Sees account floor after action
  | submits (instrumentId : InstrumentId) (side : Side) (price : Int) (quantity : Nat) (orderType : Core.OrderType)
      (timeInForce : TimeInForce)
      (client : after.clients account =
        let (oms, _, request) :=
          (floor.clients account).oms.submitNewOrder instrumentId side price quantity orderType timeInForce true
        (floor.clients account).send oms request)
      (exchange : after.exchange = floor.exchange) :
      Sees account floor after (.submitNewOrder account instrumentId side price quantity orderType timeInForce)
  | cancels (clientOrderId : ClientOrderId)
      (client : after.clients account =
        let (oms, request) := (floor.clients account).oms.cancelOrder clientOrderId true
        (floor.clients account).send oms request)
      (exchange : after.exchange = floor.exchange) : Sees account floor after (.cancelOrder account clientOrderId)
  | replaces (clientOrderId : ClientOrderId) (newPrice : Int) (newQuantity : Nat)
      (client : after.clients account =
        let (oms, request) := (floor.clients account).oms.replaceOrder clientOrderId newPrice newQuantity true
        (floor.clients account).send oms (request.map Prod.snd))
      (exchange : after.exchange = floor.exchange) :
      Sees account floor after (.replaceOrder account clientOrderId newPrice newQuantity)
  | handles (report : Message) (reports : List Message) (queued : (floor.clients account).reports = report :: reports)
      (client : after.clients account = ({ floor.clients account with reports } : Client).handle round report)
      (exchange : after.exchange = floor.exchange) : Sees account floor after (.handleReport account)
  | takes (request : Message) (requests : List Message) (command : ExchangeCommand)
      (queued : (floor.clients account).requests = request :: requests) (stands : toCommand request = some command)
      (client : after.clients account = ({ floor.clients account with requests } : Client).told account
        (floor.exchange.process round (floor.sequencer.sequence command).1).events)
      (exchange : after.exchange = (floor.exchange.process round (floor.sequencer.sequence command).1).gated) :
      Sees account floor after (.takeRequest account)
  | observes (action : FloorAction) (command : ExchangeCommand) (foreign : (subject command).accountId ≠ account)
      (client : after.clients account = (floor.clients account).told account (floor.exchange.process round command).events)
      (exchange : after.exchange = (floor.exchange.process round command).gated) : Sees account floor after action

theorem Followed.sees (followed : Followed managed floor) {action : FloorAction} {after : TradingFloor}
    (stepped : floor.step round managed action = some after) {account : AccountId} (alone : managed account = true) :
    Sees round account floor after action := by
  have apart {other : AccountId} (different : other ≠ account) (client : Client) :
      (floor.setClient other client).clients account = floor.clients account := Function.update_of_ne different.symm ..
  have here (client : Client) : (floor.setClient account client).clients account = client := Function.update_self ..
  cases action with
  | submitNewOrder other instrumentId side price quantity orderType timeInForce =>
    simp only [TradingFloor.step] at stepped
    split_ifs at stepped
    obtain rfl := Option.some.inj stepped
    by_cases same : other = account
    · subst same
      exact .submits _ _ _ _ _ _ (here _) rfl
    · exact .stays _ (apart same _) rfl
  | cancelOrder other clientOrderId =>
    simp only [TradingFloor.step] at stepped
    split_ifs at stepped
    obtain rfl := Option.some.inj stepped
    by_cases same : other = account
    · subst same
      exact .cancels _ (here _) rfl
    · exact .stays _ (apart same _) rfl
  | replaceOrder other clientOrderId newPrice newQuantity =>
    simp only [TradingFloor.step] at stepped
    split_ifs at stepped
    obtain rfl := Option.some.inj stepped
    by_cases same : other = account
    · subst same
      exact .replaces _ _ _ (here _) rfl
    · exact .stays _ (apart same _) rfl
  | takeRequest other =>
    simp only [TradingFloor.step] at stepped
    split at stepped
    · cases stepped
    · rename_i request requests queued
      obtain ⟨command, stands, rfl⟩ := Option.map_eq_some_iff.mp stepped
      by_cases same : other = account
      · subst same
        refine .takes request requests command queued stands ?_ rfl
        exact congrArg (Client.told · other _) (here _)
      · have owned : managed other = true := by
          by_contra outside
          rw [followed.silent other (Bool.eq_false_of_not_eq_true outside)] at queued
          cases queued
        obtain ⟨_, asked, _⟩ := (followed.synced other owned).takes queued stands
        obtain ⟨sameSubject, _⟩ := sequence_alike floor.sequencer command
        refine .observes _ (floor.sequencer.sequence command).1 ?_ ?_ rfl
        · rw [sameSubject, asked.own]
          exact same
        · exact congrArg (Client.told · account _) (apart same _)
  | outside command =>
    simp only [TradingFloor.step] at stepped
    split_ifs at stepped with foreign
    obtain rfl := Option.some.inj stepped
    obtain ⟨sameSubject, _⟩ := sequence_alike floor.sequencer command
    refine .observes _ (floor.sequencer.sequence command).1 ?_ rfl rfl
    have named : (subject command).accountId = command.accountId := by cases command <;> rfl
    rw [sameSubject, named]
    rintro rfl
    exact foreign alone
  | handleReport other =>
    simp only [TradingFloor.step] at stepped
    split at stepped
    · cases stepped
    · rename_i report reports queued
      obtain rfl := Option.some.inj stepped
      by_cases same : other = account
      · subst same
        exact .handles report reports queued (here _) rfl
      · exact .stays _ (apart same _) rfl

section Runs
variable {limits : RiskLimits} {instruments : List InstrumentId} {deposits : List Deposit}

theorem start_followed : Followed managed (TradingFloor.start round limits instruments deposits) where
  sound := make_sound instruments
  synced _ _ := by
    refine ⟨rfl, fun _ _ => rfl, nofun, nofun, List.nodup_nil, fun entry member => ?_⟩
    have member : entry ∈ (make instruments).resting := member
    rw [make_resting] at member
    cases member
  silent _ _ := rfl

theorem run_followed {actions : List FloorAction}
    (ran : Transitions.run (TradingFloor.step round managed) (TradingFloor.start round limits instruments deposits) actions =
      some floor) : Followed managed floor :=
  Transitions.run_invariant (fun _ _ _ followed stepped => followed.step round stepped) (start_followed round) ran

/-- Every order working at the exchange is known to its owner: once a trader that is alone on its
account has handled its reports, whatever requests it has on their way. -/
theorem resting_known {actions : List FloorAction}
    (ran : Transitions.run (TradingFloor.step round managed) (TradingFloor.start round limits instruments deposits) actions =
      some floor) {account : AccountId} (alone : managed account = true)
    (answered : (floor.clients account).reports = []) {entry : Resting} (rests : entry ∈ floor.exchange.engine.resting)
    (own : entry.key.accountId = account) :
    ∃ order, (floor.clients account).oms.orders entry.key.clientOrderId = some order ∧
      (order.state = .live ∨ order.state = .partiallyFilled) ∧ order.instrumentId = entry.instrumentId ∧
      order.side = entry.order.side ∧ order.price = entry.order.price ∧
      order.exchangeOrderId = some entry.order.exchangeOrderId ∧ order.remainingQuantity = entry.order.remainingQuantity := by
  have seen := ((run_followed round ran).synced account alone).shown entry rests own
  have records : (floor.clients account).records = recordsAfter [] (floor.clients account).oms.orders := by
    unfold Client.records
    rw [answered]
  unfold recordViews at seen
  rw [records] at seen
  obtain ⟨recorded, found, shown⟩ := Option.bind_eq_some_iff.mp seen
  obtain ⟨order, there, rfl⟩ := Option.map_eq_some_iff.mp found
  unfold ClientOrder.view at shown
  split_ifs at shown with live
  obtain ⟨exchangeOrderId, identified, same⟩ := Option.map_eq_some_iff.mp shown
  unfold Resting.view at same
  obtain ⟨instrument, side, price, id, remaining⟩ := OrderView.mk.inj same
  refine ⟨order, there, of_decide_eq_true live, instrument, side, price, ?_, remaining⟩
  rw [← id]
  exact identified

/-- An order for five units that rests, while another account sells two. -/
def filledWhileResting : List FloorAction :=
  [.submitNewOrder 7 3 .buy 10 5 .limit .gtc, .takeRequest 7,
    .outside (.newOrder {
      commandSequence := 0
      accountId := 8
      clientOrderId := 1
      instrumentId := 3
      side := .sell
      price := 10
      quantity := 2
      orderType := .limit
      timeInForce := .gtc }),
    .handleReport 7, .handleReport 7]

theorem resting_known_filled :
    ∃ floor entry, Transitions.run (TradingFloor.step .machine (· = 7))
        (TradingFloor.start .machine {} [3] [.cash 7 1000, .position 8 3 10]) filledWhileResting = some floor ∧
      entry ∈ floor.exchange.engine.resting ∧ entry.order.remainingQuantity = 3 ∧
      ∃ order, (floor.clients 7).oms.orders entry.key.clientOrderId = some order ∧
        (order.state = .live ∨ order.state = .partiallyFilled) ∧ order.instrumentId = entry.instrumentId ∧
        order.side = entry.order.side ∧ order.price = entry.order.price ∧
        order.exchangeOrderId = some entry.order.exchangeOrderId ∧
        order.remainingQuantity = entry.order.remainingQuantity := by
  have comes : (Transitions.run (TradingFloor.step .machine (· = 7))
      (TradingFloor.start .machine {} [3] [.cash 7 1000, .position 8 3 10]) filledWhileResting).map
      (fun floor => ((floor.clients 7).reports,
        floor.exchange.engine.resting.map fun entry => (entry.key, entry.order.remainingQuantity))) =
          some ([], [(⟨7, 1⟩, 3)]) := by
    decide +kernel
  obtain ⟨floor, ran, seen⟩ := Option.map_eq_some_iff.mp comes
  obtain ⟨answered, listed⟩ := Prod.mk.inj seen
  obtain ⟨entry, rests, same⟩ := List.mem_map.mp (show _ ∈ _ by rw [listed]; exact List.mem_singleton_self _)
  obtain ⟨key, left⟩ := Prod.mk.inj same
  exact ⟨floor, entry, ran, rests, left,
    resting_known .machine ran (by decide) answered rests (by rw [key])⟩

end Runs

end Floor

end Mdh.Trader
