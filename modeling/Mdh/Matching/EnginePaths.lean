import Mdh.Matching.MatchingRefinement

/-! What each command does to the resting orders: one lemma for each path of new,
cancel and replace, as the change it makes and the events it emits. -/

namespace Mdh.Matching.MatchingEngine
open Mdh.Core Mdh.Lib

/-- The directory entry `ref` of `key` locates the order `placed`. -/
structure Locates (engine : MatchingEngine) (key : LiveKey) (ref : OrderRef) (placed : Placed) : Prop where
  known : engine.knowsInstrument ref.instrumentId = true
  member : ∃ side, placed ∈ (engine.bookFor ref.instrumentId).queues side
  slot : placed.slot = ref.handle.slot
  key : (Resting.of ref.instrumentId placed).key = key
  order : (engine.bookFor ref.instrumentId).orderAt ref.handle = placed.order

theorem Sound.locate {engine : MatchingEngine} (sound : engine.Sound) {key : LiveKey} {ref : OrderRef}
    (found : engine.orders.lookup key = some ref) : ∃ placed, engine.Locates key ref placed := by
  obtain ⟨entry, there, sameKey, instrument, slot⟩ := sound.located key ref found
  obtain ⟨known, side, member⟩ := (sound.intact.registry.mem_resting entry).mp there
  rw [instrument] at known member
  obtain ⟨free, holds⟩ := sound.intact.books _ known
  refine ⟨⟨entry.slot, entry.order⟩, known, ⟨side, member⟩, slot, sameKey, ?_⟩
  rw [← holds.stored side _ member]
  unfold MatchingBook.orderAt
  rw [← slot]

theorem Locates.resting {engine : MatchingEngine} {key : LiveKey} {ref : OrderRef} {placed : Placed}
    (located : engine.Locates key ref placed) (intact : engine.Intact) :
    Resting.of ref.instrumentId placed ∈ engine.resting := by
  obtain ⟨side, member⟩ := located.member
  exact intact.mem_resting located.known member

theorem Locates.handle {engine : MatchingEngine} {key : LiveKey} {ref : OrderRef} {placed : Placed}
    (located : engine.Locates key ref placed) : ref.handle = ⟨placed.slot⟩ := by
  rw [located.slot]

section Rest
variable {order : ExchangeRestingOrder} {step : Step}

theorem restRemainder_stays (stays : order.timeInForce ≠ .gtc ∨ order.remainingQuantity = 0) :
    restRemainderIfApplicable order step = step := by
  unfold restRemainderIfApplicable
  rw [if_pos stays]

/-- The directory entry of an order that comes to rest. -/
def restedRef (order : ExchangeRestingOrder) (engine : MatchingEngine) : OrderRef where
  originalQuantity := order.originalQuantity
  orderSequence := order.orderSequence
  handle := ((engine.bookFor order.instrumentId).add (toBookOrder order)).2
  instrumentId := order.instrumentId

/-- The order where it comes to rest. -/
def rested (order : ExchangeRestingOrder) (engine : MatchingEngine) : Resting where
  instrumentId := order.instrumentId
  slot := (restedRef order engine).handle.slot
  order := toBookOrder order

def addedEvent (order : ExchangeRestingOrder) (eventSequence : Nat) : ExchangeEvent :=
  .bookOrderAdded {
    eventSequence
    instrumentId := order.instrumentId
    exchangeOrderId := order.exchangeOrderId
    side := order.side
    price := order.price
    quantity := order.remainingQuantity }

/-- The order is in the book and in the directory, and nothing has been announced. -/
def Step.place (order : ExchangeRestingOrder) (step : Step) : Step :=
  { step with engine := { step.engine.setBook order.instrumentId
        ((step.engine.bookFor order.instrumentId).add (toBookOrder order)).1 with
      orders := step.engine.orders.insert ⟨order.accountId, order.clientOrderId⟩ (restedRef order step.engine)
      restingOrders := step.engine.restingOrders + 1 } }

theorem restRemainder_eq (rests : ¬ (order.timeInForce ≠ .gtc ∨ order.remainingQuantity = 0)) :
    restRemainderIfApplicable order step = (Step.place order step).sink (addedEvent order) := by
  unfold restRemainderIfApplicable
  rw [if_neg rests]
  rfl

theorem restRemainder_adds (intact : step.engine.Intact) (known : step.engine.knowsInstrument order.instrumentId = true)
    (gtc : order.timeInForce = .gtc) (left : order.remainingQuantity ≠ 0) :
    Adds (rested order step.engine) (restedRef order step.engine) step.engine
        (restRemainderIfApplicable order step).engine ∧
      (restRemainderIfApplicable order step).events =
        step.events ++ [addedEvent order step.engine.nextEventSequence] := by
  obtain ⟨wf, queues, _⟩ := MatchingBook.add_spec (intact.books _ known) (toBookOrder order)
  rw [restRemainder_eq (by simp [gtc, left])]
  have change : Rebooks order.instrumentId ((step.engine.bookFor order.instrumentId).add (toBookOrder order)).1
      step.engine ((Step.place order step).sink (addedEvent order)).engine := ⟨rfl, rfl, rfl, rfl⟩
  exact ⟨change.adds intact known wf queues rfl rfl rfl rfl rfl, rfl⟩

end Rest

section Cancel
variable {command : CancelOrderCommand} (step : Step) {ref : OrderRef} {placed : Placed}

def cancelledEvent (command : CancelOrderCommand) (order : BookOrder) (eventSequence : Nat) : ExchangeEvent :=
  .orderCancelled {
    eventSequence
    commandSequence := command.commandSequence
    accountId := command.accountId
    clientOrderId := command.clientOrderId
    exchangeOrderId := order.exchangeOrderId
    instrumentId := command.instrumentId }

/-- A cancel that gets through the checks removes the order its key locates. -/
theorem processCancel_removes (intact : step.engine.Intact)
    (found : step.engine.orders.lookup ⟨command.accountId, command.clientOrderId⟩ = some ref)
    (same : ref.instrumentId = command.instrumentId)
    (located : step.engine.Locates ⟨command.accountId, command.clientOrderId⟩ ref placed) :
    Removes (Resting.of command.instrumentId placed) step.engine (processCancel command step).engine ∧
      (processCancel command step).events = step.events ++
        [cancelledEvent command placed.order step.engine.nextEventSequence,
          removedEvent command.instrumentId placed.order (step.engine.nextEventSequence + 1)] := by
  have handle := located.handle
  obtain ⟨known, ⟨side, member⟩, _, key, _⟩ := located
  rw [same] at known member key
  obtain ⟨wf, queues, removed⟩ := MatchingBook.removeAt_spec (intact.books _ known) member
  have out : processCancel command step =
      (((step.forget ⟨command.accountId, command.clientOrderId⟩).onBook command.instrumentId fun _ =>
        ((step.engine.bookFor command.instrumentId).removeAt ⟨placed.slot⟩).1).sink
          (cancelledEvent command placed.order)).sink (removedEvent command.instrumentId placed.order) := by
    simp only [processCancel, found, known, same, handle]
    simp only [not_true_eq_false, if_false, ne_eq]
    rw [← removed]
    rfl
  rw [out]
  have change : Rebooks command.instrumentId
      ((step.engine.bookFor command.instrumentId).removeAt ⟨placed.slot⟩).1 step.engine
      ((((step.forget ⟨command.accountId, command.clientOrderId⟩).onBook command.instrumentId fun _ =>
        ((step.engine.bookFor command.instrumentId).removeAt ⟨placed.slot⟩).1).sink
          (cancelledEvent command placed.order)).sink (removedEvent command.instrumentId placed.order)).engine :=
    ⟨rfl, rfl, rfl, rfl⟩
  refine ⟨change.removes intact known member wf queues ?_ rfl rfl, ?_⟩
  · rw [key]
    rfl
  · simp [Step.sink, Step.forget, Step.onBook, setBook]

end Cancel

section Replace
variable {command : ReplaceOrderCommand} (step : Step) {ref : OrderRef} {placed : Placed}

def originalKey (command : ReplaceOrderCommand) : LiveKey :=
  ⟨command.accountId, command.originalClientOrderId⟩

def replacementKey (command : ReplaceOrderCommand) : LiveKey :=
  ⟨command.accountId, command.newClientOrderId⟩

/-- What a replacement in place makes of the order. -/
def editFor (command : ReplaceOrderCommand) (order : BookOrder) : BookOrder :=
  { order with remainingQuantity := command.newQuantity, clientOrderId := command.newClientOrderId }

theorem editFor_faithful (command : ReplaceOrderCommand) : Faithful (editFor command) :=
  ⟨fun _ => rfl, fun _ => rfl, fun _ => rfl, fun _ => rfl, fun _ => rfl⟩

theorem amend_amend (queues : Queues) (slot : Nat) (first second : BookOrder → BookOrder) :
    (queues.amend slot first).amend slot second = queues.amend slot (second ∘ first) := by
  funext side
  unfold Queues.amend
  rw [List.map_map]
  refine List.map_congr_left fun placed _ => ?_
  simp only [Function.comp]
  split_ifs <;> rfl

/-- A replacement in place edits the order its key locates and moves the entry. -/
theorem replaceInPlace_amends (intact : step.engine.Intact) (same : ref.instrumentId = command.instrumentId)
    (located : step.engine.Locates (originalKey command) ref placed) :
    Amends (Resting.of command.instrumentId placed) (editFor command) step.engine
        (replaceInPlace command ref placed.order step).engine ∧
      (replaceInPlace command ref placed.order step).engine.orders =
        (step.engine.orders.erase (originalKey command)).insert
          (replacementKey command) ref ∧
      (replaceInPlace command ref placed.order step).events = step.events ++
        [replacedEvent command placed.order.exchangeOrderId step.engine.nextEventSequence,
          reducedEvent command.instrumentId placed.order command.newQuantity
            (step.engine.nextEventSequence + 1)] := by
  have handle := located.handle
  obtain ⟨known, ⟨side, member⟩, _, _, _⟩ := located
  rw [same] at known member
  obtain ⟨wf, reduced⟩ := MatchingBook.reduceAt_spec (intact.books _ known) member command.newQuantity
  have still : (⟨placed.slot, { placed.order with remainingQuantity := command.newQuantity }⟩ : Placed) ∈
      ((step.engine.bookFor command.instrumentId).reduceAt ⟨placed.slot⟩ command.newQuantity).queues side := by
    rw [reduced]
    exact List.mem_map.mpr ⟨placed, member, if_pos rfl⟩
  obtain ⟨wf, queues⟩ := MatchingBook.setClientOrderIdAt_spec wf still command.newClientOrderId
  rw [reduced, amend_amend] at queues
  have change : Rebooks command.instrumentId
      (((step.engine.bookFor command.instrumentId).reduceAt ref.handle command.newQuantity).setClientOrderIdAt
        ref.handle command.newClientOrderId) step.engine (replaceInPlace command ref placed.order step).engine :=
    ⟨rfl, rfl, rfl, rfl⟩
  rw [handle] at change
  refine ⟨change.amends intact known member wf queues rfl rfl, rfl, ?_⟩
  simp [replaceInPlace, Step.sink, Step.onBook, setBook]

/-- The book after the order has left it, on the way to a replacement by a new order. -/
def withdrawn (command : ReplaceOrderCommand) (ref : OrderRef) (step : Step) : Step :=
  (step.onBook command.instrumentId fun book => (book.removeAt ref.handle).1).forget
    (originalKey command)

theorem withdrawn_removes (intact : step.engine.Intact) (same : ref.instrumentId = command.instrumentId)
    (located : step.engine.Locates (originalKey command) ref placed) :
    Removes (Resting.of command.instrumentId placed) step.engine (withdrawn command ref step).engine := by
  have handle := located.handle
  obtain ⟨known, ⟨side, member⟩, _, key, _⟩ := located
  rw [same] at known member key
  obtain ⟨wf, queues, _⟩ := MatchingBook.removeAt_spec (intact.books _ known) member
  have change : Rebooks command.instrumentId
      ((step.engine.bookFor command.instrumentId).removeAt ref.handle).1 step.engine
      (withdrawn command ref step).engine := ⟨rfl, rfl, rfl, rfl⟩
  rw [handle] at change
  refine change.removes intact known member wf queues ?_ rfl rfl
  rw [key]
  rfl

end Replace

section Arrival
variable {step : Step}

/-- Matching an order that has its numbers, and resting what is left of it. -/
def matchThenRest (commandSequence : Nat) (order : ExchangeRestingOrder) (step : Step) : Step :=
  restRemainderIfApplicable (matchAndRest commandSequence order step).1 (matchAndRest commandSequence order step).2

def newOrderOf (command : NewOrderCommand) (engine : MatchingEngine) : ExchangeRestingOrder where
  exchangeOrderId := engine.nextExchangeOrderId
  clientOrderId := command.clientOrderId
  accountId := command.accountId
  price := command.price
  originalQuantity := command.quantity
  remainingQuantity := command.quantity
  orderSequence := engine.nextPriority
  instrumentId := command.instrumentId
  side := command.side
  timeInForce := command.timeInForce

def acceptedEvent (command : NewOrderCommand) (exchangeOrderId eventSequence : Nat) : ExchangeEvent :=
  .orderAccepted {
    eventSequence
    commandSequence := command.commandSequence
    accountId := command.accountId
    clientOrderId := command.clientOrderId
    exchangeOrderId
    instrumentId := command.instrumentId
    side := command.side
    price := command.price
    quantity := command.quantity
    orderType := command.orderType
    timeInForce := command.timeInForce }

theorem acceptNewOrder_eq (command : NewOrderCommand) (step : Step) :
    acceptNewOrder command step =
      matchThenRest command.commandSequence (newOrderOf command step.engine)
        (step.numbered.sink (acceptedEvent command step.engine.nextExchangeOrderId)) := rfl

def replacementOf (command : ReplaceOrderCommand) (old : BookOrder) (engine : MatchingEngine) :
    ExchangeRestingOrder where
  exchangeOrderId := engine.nextExchangeOrderId
  clientOrderId := command.newClientOrderId
  accountId := command.accountId
  price := command.newPrice
  originalQuantity := command.newQuantity
  remainingQuantity := command.newQuantity
  orderSequence := engine.nextPriority
  instrumentId := command.instrumentId
  side := old.side
  timeInForce := old.timeInForce

/-- The state a replacement by a new order reaches before it matches. -/
def replacing (command : ReplaceOrderCommand) (ref : OrderRef) (old : BookOrder) (step : Step) : Step :=
  ((withdrawn command ref step).numbered.sink (replacedEvent command step.engine.nextExchangeOrderId)).sink
    (removedEvent command.instrumentId old)

theorem replaceByNew_eq (command : ReplaceOrderCommand) (ref : OrderRef) (old : BookOrder) (step : Step) :
    replaceByNew command ref old step =
      matchThenRest command.commandSequence (replacementOf command old step.engine)
        (replacing command ref old step) := rfl

theorem Sound.numbered (sound : step.engine.Sound) : step.numbered.engine.Sound :=
  sound.renumbered _ _ _ (Nat.le_succ _)

/-- The number just taken belongs to no resting order. -/
theorem Sound.unissued (sound : step.engine.Sound) : step.numbered.engine.Unissued step.engine.nextExchangeOrderId :=
  ⟨Nat.lt_succ_self _, fun entry member => ne_of_lt (sound.issued entry member)⟩

end Arrival

end Mdh.Matching.MatchingEngine
