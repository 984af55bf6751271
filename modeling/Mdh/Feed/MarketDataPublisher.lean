import Mdh.Core.Messages

/-! The public feed: what a subscriber is sent, and how the exchange's events become it.
A private event becomes nothing and takes no sequence number. -/

namespace Mdh.Feed
open Mdh.Core

structure AddOrder where
  sequenceNumber : Nat
  timestamp : Nat
  orderId : Nat
  instrumentId : InstrumentId
  price : Int
  quantity : Nat
  side : Side
  deriving DecidableEq, Repr

structure CancelOrder where
  sequenceNumber : Nat
  timestamp : Nat
  orderId : Nat
  instrumentId : InstrumentId
  deriving DecidableEq, Repr

structure ModifyOrder where
  sequenceNumber : Nat
  timestamp : Nat
  orderId : Nat
  instrumentId : InstrumentId
  newPrice : Int
  newQuantity : Nat
  deriving DecidableEq, Repr

structure Trade where
  sequenceNumber : Nat
  timestamp : Nat
  instrumentId : InstrumentId
  price : Int
  quantity : Nat
  aggressorSide : Side
  deriving DecidableEq, Repr

structure ClearBook where
  sequenceNumber : Nat
  timestamp : Nat
  instrumentId : InstrumentId
  deriving DecidableEq, Repr

/-- A message of the feed. -/
inductive WireEvent where
  | addOrder (message : AddOrder)
  | cancelOrder (message : CancelOrder)
  | modifyOrder (message : ModifyOrder)
  | trade (message : Trade)
  | clearBook (message : ClearBook)
  deriving DecidableEq, Repr

def WireEvent.sequenceNumber : WireEvent → Nat
  | .addOrder message => message.sequenceNumber
  | .cancelOrder message => message.sequenceNumber
  | .modifyOrder message => message.sequenceNumber
  | .trade message => message.sequenceNumber
  | .clearBook message => message.sequenceNumber

structure MarketDataPublisher where
  nextSequence : Nat := 1
  deriving DecidableEq, Repr

/-- The accounts of a trade stay private. A reduction never reprices its order. -/
def translate (sequenceNumber timestamp : Nat) : ExchangeEvent → Option WireEvent
  | .bookOrderAdded event => some (.addOrder {
      sequenceNumber
      timestamp
      orderId := event.exchangeOrderId
      instrumentId := event.instrumentId
      price := event.price
      quantity := event.quantity
      side := event.side })
  | .bookOrderReduced event => some (.modifyOrder {
      sequenceNumber
      timestamp
      orderId := event.exchangeOrderId
      instrumentId := event.instrumentId
      newPrice := event.price
      newQuantity := event.newRemainingQuantity })
  | .bookOrderRemoved event => some (.cancelOrder {
      sequenceNumber
      timestamp
      orderId := event.exchangeOrderId
      instrumentId := event.instrumentId })
  | .tradeExecuted event => some (.trade {
      sequenceNumber
      timestamp
      instrumentId := event.instrumentId
      price := event.price
      quantity := event.quantity
      aggressorSide := event.aggressorSide })
  | .orderAccepted _ | .orderRejected _ | .orderCancelled _ | .orderReplaced _ => none

/-- The clock is read once for each message, so a reading is named by the message's number. -/
def MarketDataPublisher.publish (clock : Nat → Nat) (publisher : MarketDataPublisher) (event : ExchangeEvent) :
    MarketDataPublisher × Option WireEvent :=
  match translate publisher.nextSequence (clock publisher.nextSequence) event with
  | some message => ({ nextSequence := publisher.nextSequence + 1 }, some message)
  | none => (publisher, none)

/-- Everything a stretch of events sends, and the publisher after it. -/
def MarketDataPublisher.publishAll (clock : Nat → Nat) (publisher : MarketDataPublisher) :
    List ExchangeEvent → MarketDataPublisher × List WireEvent
  | [] => (publisher, [])
  | event :: rest =>
      let (publisher, message) := publisher.publish clock event
      let (publisher, messages) := publisher.publishAll clock rest
      (publisher, message.toList ++ messages)

def IsPublic : ExchangeEvent → Bool
  | .bookOrderAdded _ | .bookOrderReduced _ | .bookOrderRemoved _ | .tradeExecuted _ => true
  | .orderAccepted _ | .orderRejected _ | .orderCancelled _ | .orderReplaced _ => false

section Numbers
variable (clock : Nat → Nat) (publisher : MarketDataPublisher)

theorem translate_isSome (sequenceNumber timestamp : Nat) (event : ExchangeEvent) :
    (translate sequenceNumber timestamp event).isSome = IsPublic event := by
  cases event <;> rfl

theorem translate_sequenceNumber {sequenceNumber timestamp : Nat} {event : ExchangeEvent} {message : WireEvent}
    (sent : translate sequenceNumber timestamp event = some message) : message.sequenceNumber = sequenceNumber := by
  cases event <;> simp only [translate, Option.some.injEq, reduceCtorEq] at sent <;> rw [← sent] <;> rfl

/-- A private event is not sent and leaves the counter where it is. -/
theorem publish_private {event : ExchangeEvent} (hidden : IsPublic event = false) :
    publisher.publish clock event = (publisher, none) := by
  unfold MarketDataPublisher.publish
  have none := translate_isSome publisher.nextSequence (clock publisher.nextSequence) event
  rw [hidden, Option.isSome_eq_false_iff, Option.isNone_iff_eq_none] at none
  rw [none]

theorem publish_public {event : ExchangeEvent} (shown : IsPublic event = true) :
    ∃ message, translate publisher.nextSequence (clock publisher.nextSequence) event = some message ∧
      publisher.publish clock event = ({ nextSequence := publisher.nextSequence + 1 }, some message) := by
  have sent := translate_isSome publisher.nextSequence (clock publisher.nextSequence) event
  rw [shown, Option.isSome_iff_exists] at sent
  obtain ⟨message, found⟩ := sent
  refine ⟨message, found, ?_⟩
  unfold MarketDataPublisher.publish
  rw [found]

/-- One number to a public event, in order, from the counter on. -/
theorem publishAll_numbers (events : List ExchangeEvent) :
    let sent := publisher.publishAll clock events
    sent.2.map WireEvent.sequenceNumber = List.range' publisher.nextSequence (events.countP IsPublic) ∧
      sent.1.nextSequence = publisher.nextSequence + events.countP IsPublic := by
  induction events generalizing publisher with
  | nil => exact ⟨rfl, rfl⟩
  | cons event rest ih =>
    cases shown : IsPublic event with
    | false =>
      have skipped := publish_private clock publisher shown
      simp only [MarketDataPublisher.publishAll, skipped, List.countP_cons, shown]
      exact ih publisher
    | true =>
      obtain ⟨message, found, sent⟩ := publish_public clock publisher shown
      obtain ⟨numbers, next⟩ := ih { nextSequence := publisher.nextSequence + 1 }
      simp only [MarketDataPublisher.publishAll, sent, List.countP_cons, shown, if_true]
      constructor
      · rw [Option.toList_some, List.singleton_append, List.map_cons, numbers, translate_sequenceNumber found,
          List.range'_succ]
      · rw [next]
        show publisher.nextSequence + 1 + _ = _
        omega

theorem publishAll_concat (events : List ExchangeEvent) (event : ExchangeEvent) :
    publisher.publishAll clock (events ++ [event]) =
      (((publisher.publishAll clock events).1.publish clock event).1,
        (publisher.publishAll clock events).2 ++ ((publisher.publishAll clock events).1.publish clock event).2.toList) := by
  induction events generalizing publisher with
  | nil =>
    show (_, _ ++ []) = _
    rw [List.append_nil]
    rfl
  | cons first rest ih =>
    rw [List.cons_append, MarketDataPublisher.publishAll, MarketDataPublisher.publishAll]
    simp only [ih, List.append_assoc]

/-- What is published first is sent first. -/
theorem publishAll_leads {front events : List ExchangeEvent} (first : front <+: events) :
    (publisher.publishAll clock front).2 <+: (publisher.publishAll clock events).2 := by
  obtain ⟨later, rfl⟩ := first
  induction later generalizing front with
  | nil => exact ⟨[], by rw [List.append_nil, List.append_nil]⟩
  | cons event later ih =>
    have one : (publisher.publishAll clock front).2 <+: (publisher.publishAll clock (front ++ [event])).2 := by
      rw [publishAll_concat]
      exact List.prefix_append ..
    rw [List.append_cons]
    exact one.trans ih

/-- What is sent is in the order of its numbers, which tell any two messages apart. -/
theorem publishAll_ascends (events : List ExchangeEvent) :
    (publisher.publishAll clock events).2.Pairwise fun first second => first.sequenceNumber < second.sequenceNumber := by
  rw [← List.pairwise_map (f := WireEvent.sequenceNumber) (R := (· < ·)),
    (publishAll_numbers clock publisher events).1]
  exact List.pairwise_lt_range'

end Numbers

end Mdh.Feed
