import Mdh.Gateway.ReportOrder
import Mdh.Risk.HoldCoverage

/-! Reports and the session that placed the order. They go to it as long as the table has it
under the order's key when the order is taken up, and no replacement writes over a live entry. -/

namespace Mdh.Gateway
open Mdh.Core Mdh.Lib Mdh.Matching Mdh.Matching.MatchingEngine Mdh.Risk Mdh.Sequencing

/-- The exchange order a report is about. -/
def Message.exchangeOrderId : Message → Option Nat
  | .accepted message => some message.exchangeOrderId
  | .cancelled message => some message.exchangeOrderId
  | .replaced message => some message.exchangeOrderId
  | .tradeReport message => some message.exchangeOrderId
  | .newOrder _ | .cancelOrder _ | .replaceOrder _ | .rejected _ => none

namespace OrderEntryGateway
variable (round : Rounding) {gateway next : OrderEntryGateway}

/-- A report about an order goes to the session that placed it, if that is still connected. -/
def ReportsFollow (gateway : OrderEntryGateway) : Prop :=
  ∀ key message reports event events, gateway.matching = .delivering ((key, message) :: reports) event events →
    ∀ exchangeOrderId session, message.exchangeOrderId = some exchangeOrderId →
      gateway.origins exchangeOrderId = some session → gateway.isOpen session → gateway.resolve key = some session

/-- A command the engine carries out leaves the ownership of orders clear: a new order has its
session under its key, and a replacement does not ask for the id of another live order, nor for
its own while that has a connected owner. -/
def OwnsOrder (gateway : OrderEntryGateway) (session : SessionId) (command : ExchangeCommand) : Prop :=
  gateway.exchange.CarriesOut round (gateway.sequencer.sequence command).1 →
    match command with
    | .newOrder _ => gateway.isOpen session → gateway.orderOwner (claimedKey command) = some session
    | .cancelOrder _ => True
    | .replaceOrder replace => gateway.exchange.engine.FreeId command ∧
        (replace.newClientOrderId = replace.originalClientOrderId →
          (gateway.orderOwner (claimedKey command)).filter gateway.isOpen = none)

instance (gateway : OrderEntryGateway) (session : SessionId) (command : ExchangeCommand) :
    Decidable (gateway.OwnsOrder round session command) :=
  match command with
  | .newOrder order => inferInstanceAs (Decidable (gateway.exchange.CarriesOut round _ →
      gateway.isOpen session → gateway.orderOwner (claimedKey (.newOrder order)) = some session))
  | .cancelOrder _ => inferInstanceAs (Decidable (gateway.exchange.CarriesOut round _ → True))
  | .replaceOrder order => inferInstanceAs (Decidable (gateway.exchange.CarriesOut round _ →
      gateway.exchange.engine.FreeId (.replaceOrder order) ∧
        (order.newClientOrderId = order.originalClientOrderId →
          (gateway.orderOwner (claimedKey (.replaceOrder order))).filter gateway.isOpen = none)))

/-- The matching thread takes up only commands that leave ownership clear. -/
def OwnershipClear (gateway : OrderEntryGateway) : GatewayAction → Prop
  | .matching =>
      match gateway.matching, gateway.queue with
      | .popping, (session, command) :: _ => gateway.OwnsOrder round session command
      | _, _ => True
  | _ => True

instance (gateway : OrderEntryGateway) (action : GatewayAction) : Decidable (gateway.OwnershipClear round action) :=
  match action with
  | .matching => by
      unfold OwnershipClear
      dsimp only
      split <;> infer_instance
  | .accept | .receive .. | .hangUp _ | .popOutbound _ | .io => isTrue trivial

/-- The events that are not routed to the end. -/
def unrouted : MatchingPlace → List ExchangeEvent
  | .popping => []
  | .routing events => events
  | .delivering _ event events | .pushing _ _ _ event events => event :: events

/-- The reports still to deliver are reports of the event. -/
def ReportsOf : MatchingPlace → Prop
  | .popping | .routing _ => True
  | .delivering reports event _ | .pushing _ _ reports event _ => reports ⊆ toExecutionReports event

/-- An order and its replacement go back to one session. -/
def Linked (gateway : OrderEntryGateway) (old new : Nat) : Prop := gateway.origins new = gateway.origins old

def Held (gateway : OrderEntryGateway) (key : LiveKey) : Prop :=
  (gateway.exchange.ledger.findHold key.accountId key.clientOrderId).isSome

/-- Whoever placed the order is not connected. -/
def Gone (gateway : OrderEntryGateway) (exchangeOrderId : Nat) : Prop :=
  ∀ session, gateway.origins exchangeOrderId = some session → ¬ gateway.isOpen session

/-- Whoever placed a live order has its key, as long as it is connected. -/
def Owns (gateway : OrderEntryGateway) (ids : OrderIds) (owner : OrderKey → Option SessionId) : Prop :=
  ∀ key exchangeOrderId session, ids key = some exchangeOrderId → gateway.origins exchangeOrderId = some session →
    gateway.isOpen session → owner key = some session

/-- The invariant. -/
structure Owned (gateway : OrderEntryGateway) : Prop where
  covered : LiveCovered gateway.exchange
  live : ∃ ids, gateway.Owns ids gateway.orderOwner ∧
    Follows gateway.Linked gateway.Held gateway.Gone ids (unrouted gateway.matching) ∧
    Tracks ((unrouted gateway.matching).foldl idsAfter ids) gateway.exchange.engine
  reports : ReportsOf gateway.matching
  queued : ∀ entry ∈ gateway.queue, entry.1 < gateway.nextSessionId
  seen : ∀ exchangeOrderId session, gateway.origins exchangeOrderId = some session → session < gateway.nextSessionId

section Routing
variable {ids : OrderIds} {owner : OrderKey → Option SessionId}

theorem Owns.erase (owns : gateway.Owns ids owner) (key : LiveKey) :
    gateway.Owns (Function.update ids key none) (eraseOwner owner key) := by
  intro other exchangeOrderId session live origin opened
  unfold eraseOwner
  rw [Function.update_apply] at live ⊢
  split_ifs at live ⊢
  exact owns other exchangeOrderId session live origin opened

theorem Owns.dropFilled (owns : gateway.Owns ids owner) (party : TradeCounterparty) :
    gateway.Owns (dropFilled ids party)
      (if party.remainingQuantity = 0 then eraseOwner owner (partyKey party) else owner) := by
  unfold MatchingEngine.dropFilled
  split_ifs
  · exact owns.erase (partyKey party)
  · exact owns

/-- Routing an event moves ownership as the event moves the orders. -/
theorem Owns.after (owns : gateway.Owns ids gateway.orderOwner) {event : ExchangeEvent}
    (named : Named gateway.Linked gateway.Held gateway.Gone ids event) :
    gateway.Owns (idsAfter ids event) (gateway.ownershipAfter event) := by
  cases event with
  | orderRejected event =>
    simp only [ownershipAfter, idsAfter]
    split_ifs with held
    · exact owns
    · have free : ids ⟨event.accountId, event.clientOrderId⟩ = none := by_contra fun live => held (named live)
      have same : Function.update ids ⟨event.accountId, event.clientOrderId⟩ none = ids := by
        rw [← free]
        exact Function.update_eq_self ..
      have erased := owns.erase ⟨event.accountId, event.clientOrderId⟩
      rwa [same] at erased
  | orderCancelled event => exact owns.erase _
  | orderReplaced event =>
    obtain ⟨old, live, linked, left⟩ := named
    intro key exchangeOrderId session named origin opened
    simp only [idsAfter] at named
    rw [Function.update_apply] at named
    split_ifs at named with new
    · -- The replacement: its original's owner is the session both go back to.
      cases named
      have owned := owns _ old session live (linked.symm.trans origin) opened
      have different : (⟨event.accountId, event.newClientOrderId⟩ : LiveKey) ≠
          ⟨event.accountId, event.originalClientOrderId⟩ := fun same =>
        left (congrArg LiveKey.clientOrderId same) session (linked.symm.trans origin) opened
      simp only [ownershipAfter, owned, eraseOwner, new]
      rw [Function.update_of_ne different, Function.update_self]
    · rw [Function.update_apply] at named
      split_ifs at named with original
      have owned := owns key exchangeOrderId session named origin opened
      simp only [ownershipAfter]
      cases gateway.orderOwner ⟨event.accountId, event.originalClientOrderId⟩ with
      | none => exact owned
      | some _ =>
        unfold eraseOwner
        dsimp only
        rw [Function.update_of_ne original, Function.update_of_ne new]
        exact owned
  | tradeExecuted event => exact (owns.dropFilled event.buyer).dropFilled event.seller
  | orderAccepted | bookOrderAdded | bookOrderReduced | bookOrderRemoved => exact owns

/-- A report of an event goes by the key its order is live under. -/
theorem Owns.report (owns : gateway.Owns ids owner) {event : ExchangeEvent}
    (named : Named gateway.Linked gateway.Held gateway.Gone ids event) {key : OrderKey} {message : Message}
    (member : (key, message) ∈ toExecutionReports event) {exchangeOrderId : Nat} {session : SessionId}
    (about : message.exchangeOrderId = some exchangeOrderId) (origin : gateway.origins exchangeOrderId = some session)
    (opened : gateway.isOpen session) : owner key = some session := by
  cases event with
  | orderAccepted event | orderCancelled event =>
    obtain ⟨rfl, rfl⟩ := Prod.mk.inj (List.mem_singleton.mp member)
    cases about
    exact owns _ _ session named origin opened
  | orderRejected event =>
    obtain ⟨rfl, rfl⟩ := Prod.mk.inj (List.mem_singleton.mp member)
    cases about
  | orderReplaced event =>
    obtain ⟨rfl, rfl⟩ := Prod.mk.inj (List.mem_singleton.mp member)
    cases about
    obtain ⟨old, live, linked, _⟩ := named
    exact owns _ old session live (linked.symm.trans origin) opened
  | tradeExecuted event =>
    rcases List.mem_pair.mp member with side | side
    · obtain ⟨rfl, rfl⟩ := Prod.mk.inj side
      cases about
      exact owns _ _ session named.1 origin opened
    · obtain ⟨rfl, rfl⟩ := Prod.mk.inj side
      cases about
      exact owns _ _ session named.2 origin opened
  | bookOrderAdded | bookOrderReduced | bookOrderRemoved => cases member

end Routing

/-- The invariant is what the property needs of a state. -/
theorem Owned.reportsFollow (owned : Owned gateway) : gateway.ReportsFollow := by
  intro key message reports event events place exchangeOrderId session about origin opened
  obtain ⟨ids, owns, follows, _⟩ := owned.live
  have within := owned.reports
  rw [place] at follows within
  have owner := owns.report follows.1 (within List.mem_cons_self) about origin opened
  have found : (gateway.orderOwner key).filter gateway.isOpen = some session :=
    Option.filter_eq_some_iff.mpr ⟨owner, opened⟩
  unfold resolve
  rw [found]

/-- A step that processes no command and routes no event to its end. -/
theorem Owned.kept (owned : Owned gateway) (exchange : next.exchange = gateway.exchange)
    (origins : next.origins = gateway.origins) (known : gateway.nextSessionId ≤ next.nextSessionId)
    (unchanged : unrouted next.matching = unrouted gateway.matching) (reports : ReportsOf next.matching)
    (queued : ∀ entry ∈ next.queue, entry ∈ gateway.queue ∨ entry.1 < gateway.nextSessionId)
    (opened : ∀ session < gateway.nextSessionId, next.isOpen session → gateway.isOpen session)
    (owners : ∀ key session, gateway.orderOwner key = some session → gateway.isOpen session →
      next.orderOwner key = some session) : Owned next := by
  obtain ⟨ids, owns, follows, tracks⟩ := owned.live
  have linked : next.Linked = gateway.Linked := by
    unfold Linked
    rw [origins]
  have gone (id : Nat) (left : gateway.Gone id) : next.Gone id := by
    intro session origin nowOpen
    rw [origins] at origin
    exact left session origin (opened session (owned.seen id session origin) nowOpen)
  have held : next.Held = gateway.Held := by
    unfold Held
    rw [exchange]
  refine ⟨exchange ▸ owned.covered, ⟨ids, ?_, ?_, ?_⟩, reports, fun entry member => ?_, fun id session origin => ?_⟩
  · intro key id session live origin nowOpen
    rw [origins] at origin
    have still := opened session (owned.seen id session origin) nowOpen
    exact owners key session (owns key id session live origin still) still
  · rw [linked, held, unchanged]
    exact follows.weaken gone
  · rw [unchanged, exchange]
    exact tracks
  · rcases queued entry member with before | new
    · exact (owned.queued entry before).trans_le known
    · exact new.trans_le known
  · rw [origins] at origin
    exact (owned.seen id session origin).trans_le known

/-- A step that leaves the connections and the ownership table alone as well. -/
theorem Owned.moved (owned : Owned gateway) (exchange : next.exchange = gateway.exchange)
    (origins : next.origins = gateway.origins) (known : next.nextSessionId = gateway.nextSessionId)
    (queue : next.queue = gateway.queue) (isOpen : next.isOpen = gateway.isOpen)
    (owners : next.orderOwner = gateway.orderOwner) (unchanged : unrouted next.matching = unrouted gateway.matching)
    (reports : ReportsOf next.matching) : Owned next :=
  owned.kept exchange origins known.ge unchanged reports (fun entry member => Or.inl (queue ▸ member))
    (fun session _ opened => isOpen ▸ opened) fun key session owner _ => by rwa [owners]

/-- A change to one connection that does not open it. -/
theorem isOpen_setConnection {session : SessionId} {connection : Connection}
    (closed : connection.closed = (gateway.connections session).closed) :
    (gateway.setConnection session connection).isOpen = gateway.isOpen := by
  funext other
  exact congrArg (! ·) (setConnection_keeps gateway session connection Connection.closed closed other)

/-- The end of an event's routing. -/
theorem Owned.unlock (owned : Owned gateway) {event : ExchangeEvent} {events : List ExchangeEvent}
    (place : gateway.matching = .delivering [] event events) :
    Owned { gateway with orderOwner := gateway.ownershipAfter event, matching := .routing events } := by
  obtain ⟨ids, owns, follows, tracks⟩ := owned.live
  rw [place] at follows tracks
  exact ⟨owned.covered, ⟨idsAfter ids event, owns.after follows.1, follows.2, tracks⟩, trivial, owned.queued, owned.seen⟩

theorem toExecutionReports_nil {event : ExchangeEvent} (none : toExecutionReports event = []) (ids : OrderIds) :
    idsAfter ids event = ids := by
  cases event with
  | bookOrderAdded | bookOrderReduced | bookOrderRemoved => rfl
  | orderAccepted | orderRejected | orderCancelled | orderReplaced | tradeExecuted => cases none

/-- An event that has no private report. -/
theorem Owned.silent (owned : Owned gateway) {event : ExchangeEvent} {events : List ExchangeEvent}
    (place : gateway.matching = .routing (event :: events)) (none : toExecutionReports event = []) :
    Owned { gateway with matching := .routing events } := by
  obtain ⟨ids, owns, follows, tracks⟩ := owned.live
  rw [place] at follows tracks
  have same := toExecutionReports_nil none ids
  have rest := follows.2
  rw [unrouted, List.foldl_cons] at tracks
  rw [same] at rest tracks
  exact ⟨owned.covered, ⟨ids, owns, rest, tracks⟩, trivial, owned.queued, owned.seen⟩

section Process
variable {session : SessionId} {command : ExchangeCommand} {queue : List (SessionId × ExchangeCommand)}

theorem recordOrigin_quiet {event : ExchangeEvent} (quiet : announced event = none) (origins : Nat → Option SessionId) :
    gateway.recordOrigin session command origins event = origins := by
  cases event with
  | orderAccepted | orderReplaced => cases quiet
  | orderRejected | orderCancelled | tradeExecuted | bookOrderAdded | bookOrderReduced | bookOrderRemoved => rfl

theorem recordOrigins_quiet {later : List ExchangeEvent} (quiet : ∀ event ∈ later, announced event = none)
    (origins : Nat → Option SessionId) : later.foldl (gateway.recordOrigin session command) origins = origins := by
  induction later with
  | nil => rfl
  | cons event rest ih =>
    rw [List.foldl_cons, recordOrigin_quiet (quiet event List.mem_cons_self)]
    exact ih fun event member => quiet event (List.mem_cons_of_mem _ member)

/-- Where the events of a command lead, once the engine has processed it. -/
theorem Owned.processed (owned : Owned gateway) (ids : OrderIds)
    (queued : gateway.queue = (session, command) :: queue)
    (covered : LiveCovered (gateway.processNext round session command queue).exchange)
    (owns : (gateway.processNext round session command queue).Owns ids gateway.orderOwner)
    (follows : Follows (gateway.processNext round session command queue).Linked
      (gateway.processNext round session command queue).Held
      (gateway.processNext round session command queue).Gone ids
      (gateway.exchange.process round (gateway.sequencer.sequence command).1).events)
    (tracks : Tracks ((gateway.exchange.process round (gateway.sequencer.sequence command).1).events.foldl idsAfter ids)
      (gateway.exchange.process round (gateway.sequencer.sequence command).1).gated.engine)
    (seen : ∀ exchangeOrderId other,
      (gateway.processNext round session command queue).origins exchangeOrderId = some other →
        other = session ∨ ∃ id, gateway.origins id = some other) :
    Owned (gateway.processNext round session command queue) := by
  refine ⟨covered, ⟨ids, owns, follows, tracks⟩, trivial, fun entry member => ?_, fun id other origin => ?_⟩
  · exact owned.queued entry (by rw [queued]; exact List.mem_cons_of_mem _ member)
  · rcases seen id other origin with rfl | ⟨id, before⟩
    · exact owned.queued (other, command) (by rw [queued]; exact List.mem_cons_self)
    · exact owned.seen id other before

/-- Between commands what rests has its owners. -/
theorem Owned.idle (owned : Owned gateway) (place : gateway.matching = .popping) :
    gateway.Owns gateway.exchange.engine.idsOf gateway.orderOwner := by
  obtain ⟨ids, owns, _, tracks⟩ := owned.live
  rw [place] at tracks
  intro key exchangeOrderId session live origin opened
  obtain ⟨entry, member, rfl, rfl⟩ := idsOf_some live
  exact owns _ _ session (tracks entry member) origin opened

/-- The replaced order's entry leads to the session it goes back to. -/
theorem Owned.originReplaced (owned : Owned gateway) {replace : ReplaceOrderCommand} {entry : Resting}
    (rested : entry ∈ gateway.exchange.engine.resting) (key : entry.key = originalKey replace)
    (instrument : entry.instrumentId = replace.instrumentId) :
    gateway.originReplaced replace = gateway.origins entry.order.exchangeOrderId := by
  have sound := owned.covered.sound
  have matched := owned.covered.matched
  have listed : originalKey replace ∈ gateway.exchange.engine.orders :=
    (matched.mem_orders sound _).mpr ⟨entry, rested, key⟩
  obtain ⟨ref, found⟩ := Option.isSome_iff_exists.mp (AList.lookup_isSome.mpr listed)
  obtain ⟨placed, located⟩ := sound.locate found
  have same : Resting.of ref.instrumentId placed = entry := List.inj_on_of_nodup_map (matched.distinct sound)
    (located.resting sound.intact) rested (located.key.trans key.symm)
  have book : ref.instrumentId = replace.instrumentId := (congrArg Resting.instrumentId same).trans instrument
  have order : placed.order = entry.order := congrArg Resting.order same
  unfold OrderEntryGateway.originReplaced
  dsimp only
  rw [show gateway.exchange.engine.orders.lookup ⟨replace.accountId, replace.originalClientOrderId⟩ = some ref from found]
  dsimp only
  rw [← book, located.order, order]

theorem processNext_origins (events : List ExchangeEvent)
    (emitted : (gateway.exchange.process round (gateway.sequencer.sequence command).1).events = events) :
    (gateway.processNext round session command queue).origins =
      events.foldl (gateway.recordOrigin session command) gateway.origins := by
  rw [← emitted]
  rfl

/-- A command turned down moves no order, and its rejection leaves a live order its owner. -/
theorem Owned.refused (owned : Owned gateway) (place : gateway.matching = .popping)
    (queued : gateway.queue = (session, command) :: queue) {rejection : OrderRejected}
    (refused : gateway.exchange.Refuses
      (gateway.exchange.process round (gateway.sequencer.sequence command).1) rejection) :
    Owned (gateway.processNext round session command queue) := by
  have origins : (gateway.processNext round session command queue).origins = _ :=
    processNext_origins round _ refused.events
  refine owned.processed round gateway.exchange.engine.idsOf queued refused.covered ?_ ?_ ?_ fun id other origin => ?_
  · intro key id other live origin opened
    rw [origins] at origin
    exact owned.idle place key id other live origin opened
  · rw [refused.events]
    refine ⟨fun live => ?_, trivial⟩
    obtain ⟨id, found⟩ := Option.ne_none_iff_exists'.mp live
    obtain ⟨entry, member, key, _⟩ := idsOf_some found
    have hold := refused.covered.findHold (refused.resting ▸ member)
    rw [key] at hold
    exact hold
  · rw [refused.events]
    intro entry member
    exact owned.covered.matched.tracks owned.covered.sound entry (refused.resting ▸ member)
  · rw [origins] at origin
    exact Or.inr ⟨id, origin⟩

/-- An order taken up is live from its acceptance on, with its session under its key. -/
theorem Owned.accepted (owned : Owned gateway) (place : gateway.matching = .popping) {order : NewOrderCommand}
    (queued : gateway.queue = (session, .newOrder order) :: queue)
    (covered : LiveCovered (gateway.processNext round session (.newOrder order) queue).exchange)
    (owner : gateway.isOpen session → gateway.orderOwner (claimedKey (.newOrder order)) = some session)
    {eventSequence commandSequence : Nat} {later : List ExchangeEvent}
    (events : (gateway.exchange.process round (gateway.sequencer.sequence (.newOrder order)).1).events =
      acceptedEvent { order with commandSequence } gateway.exchange.engine.nextExchangeOrderId eventSequence :: later)
    (quiet : ∀ event ∈ later, announced event = none)
    (follows : Follows (gateway.processNext round session (.newOrder order) queue).Linked
      (gateway.processNext round session (.newOrder order) queue).Held
      (gateway.processNext round session (.newOrder order) queue).Gone
      (Function.update gateway.exchange.engine.idsOf ⟨order.accountId, order.clientOrderId⟩
        (some gateway.exchange.engine.nextExchangeOrderId)) later)
    (tracks : Tracks (later.foldl idsAfter
        (Function.update gateway.exchange.engine.idsOf ⟨order.accountId, order.clientOrderId⟩
          (some gateway.exchange.engine.nextExchangeOrderId)))
      (gateway.exchange.process round (gateway.sequencer.sequence (.newOrder order)).1).gated.engine) :
    Owned (gateway.processNext round session (.newOrder order) queue) := by
  have origins : (gateway.processNext round session (.newOrder order) queue).origins =
      Function.update gateway.origins gateway.exchange.engine.nextExchangeOrderId (some session) := by
    rw [processNext_origins round _ events, List.foldl_cons, recordOrigins_quiet quiet]
    rfl
  refine owned.processed round (Function.update gateway.exchange.engine.idsOf ⟨order.accountId, order.clientOrderId⟩
    (some gateway.exchange.engine.nextExchangeOrderId)) queued covered ?_ ?_ ?_ fun id other origin => ?_
  · intro key id other live origin opened
    rw [origins] at origin
    rw [Function.update_apply] at live
    split_ifs at live with own
    · cases live
      rw [Function.update_self] at origin
      cases origin
      rw [own]
      exact owner opened
    · obtain ⟨entry, member, _, rfl⟩ := idsOf_some live
      rw [Function.update_of_ne (owned.covered.sound.issued entry member).ne] at origin
      exact owned.idle place key _ other live origin opened
  · rw [events]
    exact ⟨Function.update_self .., follows⟩
  · rw [events]
    exact tracks
  · rw [origins, Function.update_apply] at origin
    split_ifs at origin
    · cases origin
      exact Or.inl rfl
    · exact Or.inr ⟨id, origin⟩

/-- A cancelled order is reported under the key it was live under. -/
theorem Owned.cancelled (owned : Owned gateway) (place : gateway.matching = .popping) {cancel : CancelOrderCommand}
    (queued : gateway.queue = (session, .cancelOrder cancel) :: queue)
    (covered : LiveCovered (gateway.processNext round session (.cancelOrder cancel) queue).exchange)
    {entry : Resting} (rested : entry ∈ gateway.exchange.engine.resting)
    (key : entry.key = ⟨cancel.accountId, cancel.clientOrderId⟩) {eventSequence commandSequence : Nat}
    (events : (gateway.exchange.process round (gateway.sequencer.sequence (.cancelOrder cancel)).1).events =
      [cancelledEvent { cancel with commandSequence } entry.order eventSequence,
        removedEvent cancel.instrumentId entry.order (eventSequence + 1)])
    (tracks : Tracks (idsAfter gateway.exchange.engine.idsOf
        (cancelledEvent { cancel with commandSequence } entry.order eventSequence))
      (gateway.exchange.process round (gateway.sequencer.sequence (.cancelOrder cancel)).1).gated.engine) :
    Owned (gateway.processNext round session (.cancelOrder cancel) queue) := by
  have origins : (gateway.processNext round session (.cancelOrder cancel) queue).origins = gateway.origins := by
    rw [processNext_origins round _ events]
    rfl
  refine owned.processed round gateway.exchange.engine.idsOf queued covered ?_ ?_ ?_ fun id other origin => ?_
  · intro key id other live origin opened
    rw [origins] at origin
    exact owned.idle place key id other live origin opened
  · rw [events]
    have live := owned.covered.matched.tracks owned.covered.sound entry rested
    rw [key] at live
    exact ⟨live, trivial, trivial⟩
  · rw [events]
    exact tracks
  · rw [origins] at origin
    exact Or.inr ⟨id, origin⟩

/-- A replacement goes back to the session the order it replaces goes back to. -/
theorem Owned.replaced (owned : Owned gateway) (place : gateway.matching = .popping) {replace : ReplaceOrderCommand}
    (queued : gateway.queue = (session, .replaceOrder replace) :: queue)
    (covered : LiveCovered (gateway.processNext round session (.replaceOrder replace) queue).exchange)
    {entry : Resting} (rested : entry ∈ gateway.exchange.engine.resting) (key : entry.key = originalKey replace)
    (instrument : entry.instrumentId = replace.instrumentId) {exchangeOrderId eventSequence commandSequence : Nat}
    (issued : exchangeOrderId = entry.order.exchangeOrderId ∨
      exchangeOrderId = gateway.exchange.engine.nextExchangeOrderId)
    (own : replace.newClientOrderId = replace.originalClientOrderId →
      (gateway.orderOwner (claimedKey (.replaceOrder replace))).filter gateway.isOpen = none)
    {later : List ExchangeEvent}
    (events : (gateway.exchange.process round (gateway.sequencer.sequence (.replaceOrder replace)).1).events =
      replacedEvent { replace with commandSequence } exchangeOrderId eventSequence :: later)
    (quiet : ∀ event ∈ later, announced event = none)
    (follows : Follows (gateway.processNext round session (.replaceOrder replace) queue).Linked
      (gateway.processNext round session (.replaceOrder replace) queue).Held
      (gateway.processNext round session (.replaceOrder replace) queue).Gone
      (idsAfter gateway.exchange.engine.idsOf
        (replacedEvent { replace with commandSequence } exchangeOrderId eventSequence)) later)
    (tracks : Tracks (later.foldl idsAfter (idsAfter gateway.exchange.engine.idsOf
        (replacedEvent { replace with commandSequence } exchangeOrderId eventSequence)))
      (gateway.exchange.process round (gateway.sequencer.sequence (.replaceOrder replace)).1).gated.engine) :
    Owned (gateway.processNext round session (.replaceOrder replace) queue) := by
  have origins : (gateway.processNext round session (.replaceOrder replace) queue).origins =
      Function.update gateway.origins exchangeOrderId (gateway.origins entry.order.exchangeOrderId) := by
    rw [processNext_origins round _ events, List.foldl_cons, recordOrigins_quiet quiet,
      ← owned.originReplaced rested key instrument]
    rfl
  -- A live order's origin is what it was, also if the replacement keeps its number.
  have kept : ∀ other ∈ gateway.exchange.engine.resting,
      (gateway.processNext round session (.replaceOrder replace) queue).origins other.order.exchangeOrderId =
        gateway.origins other.order.exchangeOrderId := by
    intro other member
    rw [origins, Function.update_apply]
    split_ifs with same
    · rcases issued with inPlace | new
      · rw [same, inPlace]
      · exact absurd (same.trans new) (owned.covered.sound.issued other member).ne
    · rfl
  refine owned.processed round gateway.exchange.engine.idsOf queued covered ?_ ?_ ?_ fun id other origin => ?_
  · intro key id other live origin opened
    obtain ⟨entry, member, _, rfl⟩ := idsOf_some live
    rw [kept entry member] at origin
    exact owned.idle place key _ other live origin opened
  · rw [events]
    have live := owned.covered.matched.tracks owned.covered.sound entry rested
    rw [key] at live
    refine ⟨⟨_, live, ?_, fun same other origin opened => ?_⟩, follows⟩
    · show (gateway.processNext round session (.replaceOrder replace) queue).origins exchangeOrderId = _
      rw [kept entry rested, origins, Function.update_self]
    · rw [kept entry rested] at origin
      have owner : gateway.orderOwner (originalKey replace) = some other :=
        owned.idle place _ _ other live origin opened
      have stillOpen : gateway.isOpen other = true := opened
      have none := own same
      rw [show claimedKey (.replaceOrder replace) = originalKey replace from rfl, owner, Option.filter_some,
        if_pos stillOpen] at none
      cases none
  · rw [events]
    exact tracks
  · rw [origins, Function.update_apply] at origin
    split_ifs at origin
    · exact Or.inr ⟨_, origin⟩
    · exact Or.inr ⟨id, origin⟩

/-- Taking up a command that leaves ownership clear. -/
theorem Owned.processNext (owned : Owned gateway) (place : gateway.matching = .popping)
    (queued : gateway.queue = (session, command) :: queue) (clear : gateway.OwnsOrder round session command) :
    Owned (gateway.processNext round session command queue) := by
  have free : gateway.exchange.CarriesOut round (gateway.sequencer.sequence command).1 →
      gateway.exchange.engine.FreeId (gateway.sequencer.sequence command).1 := by
    intro carried
    have free := clear carried
    cases command with
    | newOrder => trivial
    | cancelOrder => trivial
    | replaceOrder => exact free.1
  rcases gateway.exchange.process_traced round (gateway.processNext round session command queue).Linked
    (gateway.processNext round session command queue).Held (gateway.processNext round session command queue).Gone
    owned.covered _ free with
    ⟨rejection, refused⟩ | ⟨carried, covered, traced⟩
  · exact owned.refused round place queued refused
  · have owner := clear carried
    cases command with
    | newOrder order =>
      cases traced with
      | accepted _ eventSequence later free events quiet follows tracks =>
        exact owned.accepted round place queued covered owner events quiet follows tracks
    | cancelOrder cancel =>
      cases traced with
      | cancelled _ entry eventSequence rested key events tracks =>
        exact owned.cancelled round place queued covered rested key events tracks
    | replaceOrder replace =>
      cases traced with
      | replaced _ entry exchangeOrderId eventSequence later rested key instrument issued free events quiet follows tracks =>
        exact owned.replaced round place queued covered rested key instrument issued owner.2 events quiet follows tracks

end Process

/-- A claim takes no entry from its owner. -/
theorem Owned.claim (owned : Owned gateway) (session : SessionId) (command : ExchangeCommand) :
    Owned (gateway.claimOrderOwnership session command) := by
  unfold claimOrderOwnership
  dsimp only
  cases claimed : gateway.orderOwner (claimedKey command) with
  | some _ => exact owned.moved rfl rfl rfl rfl rfl rfl rfl owned.reports
  | none =>
    refine owned.kept rfl rfl le_rfl rfl owned.reports (fun _ member => Or.inl member) (fun _ _ opened => opened)
      fun key other owner _ => ?_
    have different : key ≠ claimedKey command := by
      rintro rfl
      rw [claimed] at owner
      cases owner
    exact (Function.update_of_ne different ..).trans owner

/-- A session that has left owns nothing that is asked for. -/
theorem Owned.unbind (owned : Owned gateway) {session : SessionId} (gone : ¬ gateway.isOpen session) :
    Owned (gateway.unbindSession session) := by
  unfold unbindSession
  split
  · exact owned.moved rfl rfl rfl rfl rfl rfl rfl owned.reports
  · refine owned.kept rfl rfl le_rfl rfl owned.reports (fun _ member => Or.inl member) (fun _ _ opened => opened)
      fun key other owner opened => ?_
    have different : gateway.orderOwner key ≠ some session := by
      rw [owner]
      rintro same
      exact gone (Option.some.inj same ▸ opened)
    exact (if_neg different).trans owner

theorem Owned.popOutbound (owned : Owned gateway) (session : SessionId) : Owned (gateway.popOutbound session) := by
  unfold OrderEntryGateway.popOutbound
  dsimp only
  split
  case h_4 => exact owned
  all_goals exact owned.moved rfl rfl rfl rfl (isOpen_setConnection (by rfl)) rfl rfl owned.reports

theorem Owned.submit (owned : Owned gateway) {session : SessionId} (seen : session < gateway.nextSessionId)
    (command : ExchangeCommand) (claimed : Bool) : Owned (gateway.submitCommand session command claimed) := by
  unfold submitCommand
  dsimp only
  split_ifs
  · exact owned.moved rfl rfl rfl rfl rfl rfl rfl owned.reports
  · refine owned.kept rfl rfl le_rfl rfl owned.reports (fun entry member => ?_) (fun _ _ opened => opened)
      fun _ _ owner _ => owner
    rcases List.mem_append.mp member with before | new
    · exact Or.inl before
    · rw [List.mem_singleton.mp new]
      exact Or.inr seen

/-- Every step that leaves ownership clear keeps the owners. -/
theorem Owned.step (owned : Owned gateway) (isolated : Isolated gateway) (ordered : Ordered gateway)
    {action : GatewayAction} (stepped : gateway.step round action = some next)
    (clear : gateway.OwnershipClear round action) : Owned next := by
  have ioFine := isolated.io
  have ioOpen := ordered.io
  have within := owned.reports
  cases step_move stepped with
  | accept waits =>
    refine owned.kept rfl rfl (Nat.le_succ _) rfl owned.reports (fun _ member => Or.inl member)
      (fun session seen opened => ?_) fun _ _ owner _ => owner
    rwa [isOpen, show gateway.acceptReady.connections session = gateway.connections session from
      setConnection_other _ _ _ _ seen.ne] at opened
  | receive session chunk waits isOpen =>
    exact owned.moved rfl rfl rfl rfl (isOpen_setConnection (by rfl)) rfl rfl owned.reports
  | hangUp session waits isOpen =>
    refine owned.kept rfl rfl le_rfl rfl owned.reports (fun _ member => Or.inl member) (fun other _ opened => ?_)
      fun _ _ owner _ => owner
    rw [isOpen_close] at opened
    exact (Bool.and_eq_true_iff.mp opened).1
  | popOutbound session waits isOpen => exact owned.popOutbound session
  | frameDone session place => exact owned.moved rfl rfl rfl rfl rfl rfl rfl owned.reports
  | frameSkipped session rest place =>
    exact owned.moved rfl rfl rfl rfl (isOpen_setConnection (by rfl)) rfl rfl owned.reports
  | request session command rest place =>
    exact owned.moved rfl rfl rfl rfl (isOpen_setConnection (by rfl)) rfl rfl owned.reports
  | bind session command place free =>
    exact owned.moved rfl rfl rfl rfl (bindSession_isOpen session command) rfl rfl owned.reports
  | reject session command place =>
    unfold rejectAccountMismatch
    dsimp only
    split_ifs
    · exact owned.moved rfl rfl rfl rfl rfl rfl rfl owned.reports
    · exact owned.moved rfl rfl rfl rfl (isOpen_setConnection (by rfl)) rfl rfl owned.reports
  | claim session command place free => exact owned.claim session command
  | submit session command claimed place =>
    rw [place] at ioFine
    exact owned.submit ioFine.1 command claimed
  | unbind session place free =>
    rw [place] at ioOpen
    exact owned.unbind ioOpen
  | processNext session command queue place queued =>
    by_cases matching : action = .matching
    · subst matching
      simp only [OwnershipClear, place, queued] at clear
      exact owned.processNext round place queued clear
    · have same : gateway.dequeued ++ [(session, command)] = gateway.dequeued := step_dequeued matching stepped
      exact absurd same (by simp)
  | routed place => exact owned.moved rfl rfl rfl rfl rfl rfl (by rw [place]; rfl) trivial
  | silent event events place none => exact owned.silent place none
  | lock event events place =>
    exact owned.moved rfl rfl rfl rfl rfl rfl (by rw [place]; rfl) (List.Subset.refl _)
  | unlock event events place => exact owned.unlock place
  | target key message reports event events session place resolved =>
    rw [place] at within
    exact owned.moved rfl rfl rfl rfl rfl rfl (by rw [place]; rfl) (List.cons_subset.mp within).2
  | retain key message reports event events place resolved =>
    rw [place] at within
    have rest : ReportsOf (.delivering reports event events) := (List.cons_subset.mp within).2
    unfold OrderEntryGateway.retain
    dsimp only
    split_ifs <;> exact owned.moved rfl rfl rfl rfl rfl rfl (by rw [place]; rfl) rest
  | push session message reports event events place =>
    rw [place] at within
    have rest : ReportsOf (.delivering reports event events) := within
    unfold OrderEntryGateway.deliver
    dsimp only
    split_ifs
    · exact owned.moved rfl rfl rfl rfl rfl rfl (by rw [place]; rfl) rest
    · exact owned.moved rfl rfl rfl rfl (isOpen_setConnection (by rfl)) rfl (by rw [place]; rfl) rest

section Runs
variable {options : OrderEntryGatewayOptions} {limits : RiskLimits} {instruments : List InstrumentId}
  {deposits : List Deposit}

theorem start_owned : Owned (start round options limits instruments deposits) where
  covered := start_covered round limits instruments deposits
  live := by
    refine ⟨fun _ => none, fun _ _ _ live => ?_, trivial, fun entry member => ?_⟩
    · cases live
    · have rested : entry ∈ (make instruments).resting := member
      rw [make_resting] at rested
      cases rested
  reports := trivial
  queued _ member := by cases member
  seen _ _ origin := by cases origin

/-- In a run whose commands leave ownership clear when they are taken up, every report about an
order goes to the session that placed it, if that is connected, and so to no other. -/
theorem reports_follow_orders {actions : List GatewayAction}
    (ran : Transitions.run (step round) (start round options limits instruments deposits) actions = some gateway)
    (clear : Transitions.Throughout (step round) (OwnershipClear round)
      (start round options limits instruments deposits) actions) : gateway.ReportsFollow := by
  have kept := Transitions.run_rule
    (fun actions state => (Isolated state ∧ Ordered state) ∧
      (Transitions.Throughout (step round) (OwnershipClear round)
        (start round options limits instruments deposits) actions → Owned state))
    ⟨⟨start_isolated options limits instruments deposits, start_ordered options limits instruments deposits⟩,
      fun _ => start_owned round⟩
    (fun actions state action next reached before stepped => ?_) ran
  · exact (kept.2 clear).reportsFollow
  · obtain ⟨⟨isolated, ordered⟩, owned⟩ := before
    have move := step_move stepped
    refine ⟨⟨isolated.step move, ordered.step isolated move⟩, fun every => ?_⟩
    obtain ⟨earlier, here⟩ := (Transitions.throughout_concat reached).mp every
    exact (owned earlier).step round isolated ordered stepped here

end Runs

/-- A new limit order, good till cancelled, as a client sends it. -/
def newOrderFrame (accountId : AccountId) (clientOrderId : ClientOrderId) (instrumentId : InstrumentId) (side : Side)
    (price : Int) (quantity : Nat) : List UInt8 :=
  ByteIo.putU8 1 ++ ByteIo.putU16 39 ++ ByteIo.putU64 accountId ++ ByteIo.putU64 clientOrderId ++
    ByteIo.putU32 instrumentId ++ ByteIo.putU8 side.code ++ ByteIo.putI64 price ++ ByteIo.putU64 quantity ++
    ByteIo.putU8 Core.OrderType.limit.code ++ ByteIo.putU8 TimeInForce.gtc.code

/-- The second of two sessions places an order, which is accepted. -/
def secondSessionOrders : List GatewayAction :=
  [.accept, .accept, .receive 1 (cancelFrame 7 4 3)] ++ List.replicate 5 .io ++
    [.receive 2 (newOrderFrame 7 5 3 .buy 10 1)] ++ List.replicate 5 .io ++ List.replicate 8 .matching

/-- Its acceptance goes to the second session, not to the one that bound first. -/
theorem reports_follow_orders_second :
    ∃ gateway key message reports event events,
      Transitions.run (step .machine) (start .machine {} {} [3] [.cash 7 1000]) secondSessionOrders = some gateway ∧
      gateway.matching = .delivering ((key, message) :: reports) event events ∧
      message.exchangeOrderId = some 1 ∧ gateway.resolve key = some 2 := by
  have comes : (Transitions.run (step .machine) (start .machine {} {} [3] [.cash 7 1000]) secondSessionOrders).map
      (fun gateway => (gateway.matching, gateway.origins 1, gateway.isOpen 2)) = some (.delivering
        [(⟨7, 5⟩, .accepted {
          accountId := 7, clientOrderId := 5, exchangeOrderId := 1, instrumentId := 3, side := .buy, price := 10
          quantity := 1, orderType := .limit, timeInForce := .gtc })]
        (.orderAccepted {
          eventSequence := 2, commandSequence := 2, accountId := 7, clientOrderId := 5, exchangeOrderId := 1
          instrumentId := 3, side := .buy, price := 10, quantity := 1, orderType := .limit, timeInForce := .gtc })
        [.bookOrderAdded {
          eventSequence := 3, instrumentId := 3, exchangeOrderId := 1, side := .buy, price := 10, quantity := 1 }],
        some 2, true) := by
    decide +kernel
  have clear : Transitions.checkThroughout (step .machine) (OwnershipClear .machine)
      (start .machine {} {} [3] [.cash 7 1000]) secondSessionOrders = true := by
    decide +kernel
  obtain ⟨gateway, ran, seen⟩ := Option.map_eq_some_iff.mp comes
  obtain ⟨place, seen⟩ := Prod.mk.inj seen
  obtain ⟨origin, opened⟩ := Prod.mk.inj seen
  have follows := reports_follow_orders .machine ran (Transitions.throughout_of_check clear)
  exact ⟨gateway, _, _, _, _, _, ran, place, rfl, follows _ _ _ _ _ place 1 2 rfl origin opened⟩

/-- As above, but the first session has asked to cancel an order of that id before there is one.
The rejection of the cancel takes the entry away, and the acceptance goes to the first session. -/
theorem early_cancel_misroutes :
    ∃ gateway, Transitions.run (step .machine) (start .machine {} {} [3] [.cash 7 1000])
        ([.accept, .accept, .receive 1 (cancelFrame 7 5 3)] ++ List.replicate 5 .io ++
          [.receive 2 (newOrderFrame 7 5 3 .buy 10 1)] ++ List.replicate 5 .io ++ List.replicate 8 .matching) =
        some gateway ∧
      gateway.isOpen 2 ∧ gateway.resolve ⟨7, 5⟩ = some 1 ∧ ¬ gateway.ReportsFollow := by
  have comes : (Transitions.run (step .machine) (start .machine {} {} [3] [.cash 7 1000])
        ([.accept, .accept, .receive 1 (cancelFrame 7 5 3)] ++ List.replicate 5 .io ++
          [.receive 2 (newOrderFrame 7 5 3 .buy 10 1)] ++ List.replicate 5 .io ++ List.replicate 8 .matching)).map
      (fun gateway => (gateway.matching, gateway.origins 1, gateway.isOpen 2, gateway.resolve ⟨7, 5⟩)) =
      some (.delivering
        [(⟨7, 5⟩, .accepted {
          accountId := 7, clientOrderId := 5, exchangeOrderId := 1, instrumentId := 3, side := .buy, price := 10
          quantity := 1, orderType := .limit, timeInForce := .gtc })]
        (.orderAccepted {
          eventSequence := 2, commandSequence := 2, accountId := 7, clientOrderId := 5, exchangeOrderId := 1
          instrumentId := 3, side := .buy, price := 10, quantity := 1, orderType := .limit, timeInForce := .gtc })
        [.bookOrderAdded {
          eventSequence := 3, instrumentId := 3, exchangeOrderId := 1, side := .buy, price := 10, quantity := 1 }],
        some 2, true, some 1) := by
    decide +kernel
  obtain ⟨gateway, ran, seen⟩ := Option.map_eq_some_iff.mp comes
  obtain ⟨place, seen⟩ := Prod.mk.inj seen
  obtain ⟨origin, seen⟩ := Prod.mk.inj seen
  obtain ⟨opened, target⟩ := Prod.mk.inj seen
  refine ⟨gateway, ran, opened, target, fun follows => ?_⟩
  have right := follows _ _ _ _ _ place 1 2 rfl origin opened
  rw [target] at right
  cases right

end OrderEntryGateway

end Mdh.Gateway
