import Mdh.Matching.EnginePaths

/-! The event stream of a command. Every event takes the next sequence number, and which
kinds of event a stretch of a command can emit is read off its sinks. -/

namespace Mdh.Matching.MatchingEngine
open Mdh.Core Mdh.Lib

/-- From `before` to `after`, consecutively numbered events of an allowed kind were emitted. -/
structure Emits (allowed : ExchangeEvent → Prop) (before after : Step) (later : List ExchangeEvent) : Prop where
  events : after.events = before.events ++ later
  kinds : ∀ event ∈ later, allowed event
  numbers : later.map ExchangeEvent.eventSequence = List.range' before.engine.nextEventSequence later.length
  next : after.engine.nextEventSequence = before.engine.nextEventSequence + later.length

section Rules
variable {allowed : ExchangeEvent → Prop} {first second third : Step}

theorem Emits.refl (step : Step) : Emits allowed step step [] :=
  ⟨(List.append_nil _).symm, by simp, rfl, rfl⟩

theorem Emits.trans {one two : List ExchangeEvent} (here : Emits allowed first second one)
    (there : Emits allowed second third two) : Emits allowed first third (one ++ two) := by
  refine ⟨?_, fun event member => ?_, ?_, ?_⟩
  · rw [there.events, here.events, List.append_assoc]
  · exact (List.mem_append.mp member).elim (here.kinds event) (there.kinds event)
  · rw [List.map_append, here.numbers, there.numbers, here.next, List.length_append, List.range'_append_1]
  · rw [there.next, here.next, List.length_append, Nat.add_assoc]

theorem Emits.weaken {other : ExchangeEvent → Prop} {later : List ExchangeEvent}
    (emits : Emits allowed first second later) (implies : ∀ event, allowed event → other event) :
    Emits other first second later :=
  ⟨emits.events, fun event member => implies event (emits.kinds event member), emits.numbers, emits.next⟩

/-- A change to the engine that emits nothing. -/
theorem Emits.silent (events : second.events = first.events)
    (next : second.engine.nextEventSequence = first.engine.nextEventSequence) : Emits allowed first second [] :=
  ⟨by simp [events], by simp, rfl, next⟩

theorem Emits.sink (step : Step) (event : Nat → ExchangeEvent)
    (numbered : ∀ eventSequence, (event eventSequence).eventSequence = eventSequence)
    (kind : ∀ eventSequence, allowed (event eventSequence)) :
    Emits allowed step (step.sink event) [event step.engine.nextEventSequence] :=
  ⟨rfl, by simp [kind], by simp [numbered], rfl⟩

/-- One more event, after whatever else. -/
theorem Emits.thenSink {later : List ExchangeEvent} (emits : Emits allowed first second later)
    (event : Nat → ExchangeEvent) (numbered : ∀ eventSequence, (event eventSequence).eventSequence = eventSequence)
    (kind : ∀ eventSequence, allowed (event eventSequence)) :
    Emits allowed first (second.sink event) (later ++ [event second.engine.nextEventSequence]) :=
  emits.trans (Emits.sink second event numbered kind)

end Rules

/-- The events matching and resting can emit. -/
def FromMatching (commandSequence : Nat) (id : InstrumentId) : ExchangeEvent → Prop
  | .tradeExecuted event => event.commandSequence = commandSequence ∧ event.instrumentId = id
  | .bookOrderAdded event => event.instrumentId = id
  | .bookOrderReduced event => event.instrumentId = id
  | .bookOrderRemoved event => event.instrumentId = id
  | _ => False

def IsRejection : ExchangeEvent → Prop
  | .orderRejected _ => True
  | _ => False

instance : DecidablePred IsRejection := fun event =>
  match event with
  | .orderRejected _ => isTrue trivial
  | .orderAccepted _ | .orderCancelled _ | .orderReplaced _ | .tradeExecuted _ | .bookOrderAdded _
  | .bookOrderReduced _ | .bookOrderRemoved _ => isFalse not_false

theorem FromMatching.accepts {commandSequence : Nat} {id : InstrumentId} (event : ExchangeEvent)
    (matching : FromMatching commandSequence id event) : ¬ IsRejection event := by
  cases event <;> simp_all [FromMatching, IsRejection]

section Matching
variable (commandSequence : Nat) (incoming : ExchangeRestingOrder) (step : Step)

theorem fillFront_emits (contra : BookOrder) :
    ∃ later, Emits (FromMatching commandSequence incoming.instrumentId) step
      (fillFront commandSequence incoming contra step).2 later := by
  obtain ⟨events, next⟩ := fillFront_events commandSequence incoming step contra
  refine ⟨_, events, ?_, ?_, next⟩
  · intro event member
    rcases List.mem_pair.mp member with rfl | rfl
    · exact ⟨rfl, rfl⟩
    · unfold bookEvent
      split_ifs <;> rfl
  · simp only [List.map_cons, List.map_nil, List.length_cons, List.length_nil, tradeEvent, bookEvent]
    split_ifs <;> rfl

/-- What every fill preserves whatever it fills, the loop preserves. -/
theorem matchLoop_keeps (motive : ExchangeRestingOrder → Step → Prop)
    (preserved : ∀ incoming contra step, motive incoming step →
      motive (fillFront commandSequence incoming contra step).1 (fillFront commandSequence incoming contra step).2)
    (fuel : Nat) (start : motive incoming step) :
    motive (matchLoop commandSequence fuel incoming step).1 (matchLoop commandSequence fuel incoming step).2 := by
  induction fuel generalizing incoming step with
  | zero => exact start
  | succ fuel ih =>
    rw [matchLoop]
    split_ifs
    · exact start
    · split
      · exact start
      · split_ifs
        · exact ih _ _ (preserved _ _ _ start)
        · exact start

/-- Matching emits only its own kinds of event and takes no order number. -/
theorem matchAndRest_emits :
    let out := matchAndRest commandSequence incoming step
    out.1.instrumentId = incoming.instrumentId ∧
      out.2.engine.nextExchangeOrderId = step.engine.nextExchangeOrderId ∧
      ∃ later, Emits (FromMatching commandSequence incoming.instrumentId) step out.2 later := by
  refine matchLoop_keeps commandSequence incoming step (fun order after =>
    order.instrumentId = incoming.instrumentId ∧
      after.engine.nextExchangeOrderId = step.engine.nextExchangeOrderId ∧
      ∃ later, Emits (FromMatching commandSequence incoming.instrumentId) step after later)
    (fun order contra middle => ?_) _ ⟨rfl, rfl, [], Emits.refl step⟩
  rintro ⟨same, counter, before, one⟩
  obtain ⟨here, two⟩ := fillFront_emits commandSequence order middle contra
  rw [same] at two
  refine ⟨by rw [fillFront_incoming, same], ?_, before ++ here, one.trans two⟩
  rw [← counter]
  simp only [fillFront]
  split_ifs <;> rfl

theorem restRemainder_emits (order : ExchangeRestingOrder) :
    ∃ later, Emits (FromMatching commandSequence order.instrumentId) step
      (restRemainderIfApplicable order step) later := by
  by_cases stays : order.timeInForce ≠ .gtc ∨ order.remainingQuantity = 0
  · rw [restRemainder_stays stays]
    exact ⟨[], Emits.refl step⟩
  · rw [restRemainder_eq stays]
    have silent : Emits (FromMatching commandSequence order.instrumentId) step (Step.place order step) [] :=
      Emits.silent rfl rfl
    exact ⟨_, silent.thenSink (addedEvent order) (fun _ => rfl) fun _ => rfl⟩

theorem matchThenRest_emits :
    let after := matchThenRest commandSequence incoming step
    after.engine.nextExchangeOrderId = step.engine.nextExchangeOrderId ∧
      ∃ later, Emits (FromMatching commandSequence incoming.instrumentId) step after later := by
  obtain ⟨same, counter, fills, one⟩ := matchAndRest_emits commandSequence incoming step
  obtain ⟨rest, two⟩ := restRemainder_emits commandSequence (matchAndRest commandSequence incoming step).2
    (matchAndRest commandSequence incoming step).1
  rw [same] at two
  refine ⟨?_, fills ++ rest, one.trans two⟩
  rw [← counter]
  unfold matchThenRest restRemainderIfApplicable
  split_ifs <;> rfl

end Matching

/-- The command was turned down: one rejection, and nothing but the event counter moved. -/
structure TurnsDown (before after : Step) (rejection : OrderRejected) : Prop where
  events : after.events = before.events ++ [.orderRejected rejection]
  number : rejection.eventSequence = before.engine.nextEventSequence
  engine : after.engine = { before.engine with nextEventSequence := before.engine.nextEventSequence + 1 }

section Outcome
variable (step : Step)

/-- The command was carried out, and no event of it is a rejection. -/
def CarriesOut (before after : Step) : Prop :=
  ∃ later, Emits (fun event => ¬ IsRejection event) before after later

theorem matchThenRest_carriesOut {start middle : Step} {later : List ExchangeEvent} (commandSequence : Nat)
    (incoming : ExchangeRestingOrder) (before : Emits (fun event => ¬ IsRejection event) start middle later) :
    CarriesOut start (matchThenRest commandSequence incoming middle) := by
  obtain ⟨_, rest, after⟩ := matchThenRest_emits commandSequence incoming middle
  exact ⟨later ++ rest, before.trans (after.weaken FromMatching.accepts)⟩

theorem processNewOrder_outcome (command : NewOrderCommand) :
    (∃ rejection, TurnsDown step (processNewOrder command step) rejection) ∨
      CarriesOut step (processNewOrder command step) := by
  unfold processNewOrder
  cases step.engine.newOrderError command with
  | some reason => exact Or.inl ⟨_, rfl, rfl, rfl⟩
  | none =>
    have numbered : Emits (fun event => ¬ IsRejection event) step step.numbered [] := Emits.silent rfl rfl
    simp only [acceptNewOrder_eq]
    exact Or.inr (matchThenRest_carriesOut _ _ (numbered.thenSink
      (acceptedEvent command step.engine.nextExchangeOrderId) (fun _ => rfl) fun _ => not_false))

theorem processCancel_outcome (command : CancelOrderCommand) :
    (∃ rejection, TurnsDown step (processCancel command step) rejection) ∨
      CarriesOut step (processCancel command step) := by
  unfold processCancel
  split_ifs
  · cases step.engine.orders.lookup ⟨command.accountId, command.clientOrderId⟩ with
    | none => exact Or.inl ⟨_, rfl, rfl, rfl⟩
    | some ref =>
      by_cases same : ref.instrumentId = command.instrumentId
      · simp only [same, ne_eq, not_true_eq_false, if_false]
        have silent : Emits (fun event => ¬ IsRejection event) step
            ((step.forget ⟨command.accountId, command.clientOrderId⟩).onBook command.instrumentId fun _ =>
              ((step.engine.bookFor command.instrumentId).removeAt ref.handle).1) [] := Emits.silent rfl rfl
        exact Or.inr ⟨_, (silent.thenSink (cancelledEvent command _) (fun _ => rfl) fun _ => not_false).thenSink
          (removedEvent command.instrumentId _) (fun _ => rfl) fun _ => not_false⟩
      · simp only [ne_eq, same, not_false_eq_true, if_true]
        exact Or.inl ⟨_, rfl, rfl, rfl⟩
  · exact Or.inl ⟨_, rfl, rfl, rfl⟩

theorem processReplace_outcome (command : ReplaceOrderCommand) :
    (∃ rejection, TurnsDown step (processReplace command step) rejection) ∨
      CarriesOut step (processReplace command step) := by
  unfold processReplace
  split_ifs
  · exact Or.inl ⟨_, rfl, rfl, rfl⟩
  · cases step.engine.orders.lookup ⟨command.accountId, command.originalClientOrderId⟩ with
    | none => exact Or.inl ⟨_, rfl, rfl, rfl⟩
    | some ref =>
      by_cases same : ref.instrumentId = command.instrumentId
      · simp only [same, ne_eq, not_true_eq_false, if_false]
        split_ifs
        · have silent : ∀ orders, Emits (fun event => ¬ IsRejection event) step
              (let edited := step.onBook command.instrumentId fun book =>
                (book.reduceAt ref.handle command.newQuantity).setClientOrderIdAt ref.handle command.newClientOrderId
              { edited with engine := { edited.engine with orders } }) [] := fun _ => Emits.silent rfl rfl
          exact Or.inr ⟨_, ((silent _).thenSink (replacedEvent command _) (fun _ => rfl) fun _ => not_false).thenSink
            (reducedEvent command.instrumentId _ _) (fun _ => rfl) fun _ => not_false⟩
        · rw [replaceByNew_eq, replacing]
          have silent : Emits (fun event => ¬ IsRejection event) step (withdrawn command ref step).numbered [] :=
            Emits.silent rfl rfl
          exact Or.inr (matchThenRest_carriesOut _ _
            ((silent.thenSink (replacedEvent command _) (fun _ => rfl) fun _ => not_false).thenSink
              (removedEvent command.instrumentId _) (fun _ => rfl) fun _ => not_false))
      · simp only [ne_eq, same, not_false_eq_true, if_true]
        exact Or.inl ⟨_, rfl, rfl, rfl⟩
  · exact Or.inl ⟨_, rfl, rfl, rfl⟩

/-- Every command is turned down or carried out, and none is half done. -/
theorem dispatch_outcome (command : ExchangeCommand) :
    (∃ rejection, TurnsDown step (dispatch command step) rejection) ∨ CarriesOut step (dispatch command step) := by
  cases command with
  | newOrder command => exact processNewOrder_outcome step command
  | cancelOrder command => exact processCancel_outcome step command
  | replaceOrder command => exact processReplace_outcome step command

end Outcome

section Numbers

/-- The exchange order id an event announces for an order that comes into being or is replaced. -/
def announced : ExchangeEvent → Option Nat
  | .orderAccepted event => some event.exchangeOrderId
  | .orderReplaced event => some event.exchangeOrderId
  | _ => none

/-- The command edits an order in place, so that no order comes into being. -/
def keepsOrder (engine : MatchingEngine) : ExchangeCommand → Bool
  | .replaceOrder command =>
      match engine.orders.lookup (originalKey command) with
      | none => false
      | some ref => preservesPriority command ((engine.bookFor command.instrumentId).orderAt ref.handle)
  | _ => false

/-- The exchange order ids a command's events give to new orders. -/
def issuedBy (engine : MatchingEngine) (command : ExchangeCommand) (events : List ExchangeEvent) : List Nat :=
  if engine.keepsOrder command then [] else events.filterMap announced

/-- The ids are the next ones of the counter, and the counter has moved past them. -/
def Issues (engine after : MatchingEngine) (ids : List Nat) : Prop :=
  ids = List.range' engine.nextExchangeOrderId ids.length ∧
    after.nextExchangeOrderId = engine.nextExchangeOrderId + ids.length

theorem FromMatching.silent {commandSequence : Nat} {id : InstrumentId} {event : ExchangeEvent}
    (matching : FromMatching commandSequence id event) : announced event = none := by
  cases event <;> simp_all [FromMatching, announced]

/-- An arrival announces nothing after the event that gave the order its id. -/
theorem matchThenRest_announces (commandSequence : Nat) (incoming : ExchangeRestingOrder) (step : Step) :
    (matchThenRest commandSequence incoming step).events.filterMap announced = step.events.filterMap announced := by
  obtain ⟨_, later, emits⟩ := matchThenRest_emits commandSequence incoming step
  have none : later.filterMap announced = [] :=
    List.filterMap_eq_nil_iff.mpr fun event member => (emits.kinds event member).silent
  rw [emits.events, List.filterMap_append, none, List.append_nil]

theorem processNewOrder_issues (engine : MatchingEngine) (command : NewOrderCommand) :
    Issues engine (processNewOrder command { engine }).engine
      ((processNewOrder command { engine }).events.filterMap announced) := by
  unfold processNewOrder
  cases engine.newOrderError command with
  | some reason => exact ⟨rfl, rfl⟩
  | none =>
    simp only [acceptNewOrder_eq]
    rw [matchThenRest_announces]
    exact ⟨rfl, (matchThenRest_emits _ _ _).1⟩

theorem processCancel_issues (engine : MatchingEngine) (command : CancelOrderCommand) :
    Issues engine (processCancel command { engine }).engine
      ((processCancel command { engine }).events.filterMap announced) := by
  unfold processCancel
  split_ifs
  · cases engine.orders.lookup ⟨command.accountId, command.clientOrderId⟩ with
    | none => exact ⟨rfl, rfl⟩
    | some ref =>
      by_cases same : ref.instrumentId = command.instrumentId
      · simp only [same, ne_eq, not_true_eq_false, if_false]
        exact ⟨rfl, rfl⟩
      · simp only [ne_eq, same, not_false_eq_true, if_true]
        exact ⟨rfl, rfl⟩
  · exact ⟨rfl, rfl⟩

theorem processReplace_issues (engine : MatchingEngine) (command : ReplaceOrderCommand) :
    Issues engine (processReplace command { engine }).engine
      (engine.issuedBy (.replaceOrder command) (processReplace command { engine }).events) := by
  cases found : engine.orders.lookup (originalKey command) with
  | none =>
    have unknown : engine.orders.lookup ⟨command.accountId, command.originalClientOrderId⟩ = none := found
    simp only [issuedBy, keepsOrder, found, processReplace, unknown]
    split_ifs <;> exact ⟨rfl, rfl⟩
  | some ref =>
    have known : engine.orders.lookup ⟨command.accountId, command.originalClientOrderId⟩ = some ref := found
    simp only [issuedBy, keepsOrder, found, processReplace, known]
    split_ifs <;> try exact ⟨rfl, rfl⟩
    rw [replaceByNew_eq, matchThenRest_announces]
    exact ⟨rfl, (matchThenRest_emits _ _ _).1⟩

/-- Every command issues the next ids of the counter, none of them twice. -/
theorem process_issues (engine : MatchingEngine) (command : ExchangeCommand) :
    Issues engine (process engine command).engine (engine.issuedBy command (process engine command).events) := by
  cases command with
  | newOrder command => exact processNewOrder_issues engine command
  | cancelOrder command => exact processCancel_issues engine command
  | replaceOrder command => exact processReplace_issues engine command

theorem Issues.trans {first second third : MatchingEngine} {one two : List Nat} (here : Issues first second one)
    (there : Issues second third two) : Issues first third (one ++ two) := by
  refine ⟨?_, ?_⟩
  · rw [List.length_append, ← List.range'_append_1, ← here.1, ← here.2, ← there.1]
  · rw [there.2, here.2, List.length_append, Nat.add_assoc]

end Numbers

end Mdh.Matching.MatchingEngine
