import Mdh.Core.Types

/-! What goes into the exchange, what rests there and what comes out of it. -/

namespace Mdh.Core

structure NewOrderCommand where
  commandSequence : Nat
  accountId : AccountId
  clientOrderId : ClientOrderId
  instrumentId : InstrumentId
  side : Side
  price : Int
  quantity : Nat
  orderType : OrderType
  timeInForce : TimeInForce
  deriving DecidableEq, Repr

structure CancelOrderCommand where
  commandSequence : Nat
  accountId : AccountId
  clientOrderId : ClientOrderId
  instrumentId : InstrumentId
  deriving DecidableEq, Repr

structure ReplaceOrderCommand where
  commandSequence : Nat
  accountId : AccountId
  originalClientOrderId : ClientOrderId
  newClientOrderId : ClientOrderId
  instrumentId : InstrumentId
  newPrice : Int
  newQuantity : Nat
  deriving DecidableEq, Repr

inductive ExchangeCommand where
  | newOrder (command : NewOrderCommand)
  | cancelOrder (command : CancelOrderCommand)
  | replaceOrder (command : ReplaceOrderCommand)
  deriving DecidableEq, Repr

structure OrderAccepted where
  eventSequence : Nat
  commandSequence : Nat
  accountId : AccountId
  clientOrderId : ClientOrderId
  exchangeOrderId : Nat
  instrumentId : InstrumentId
  side : Side
  price : Int
  quantity : Nat
  orderType : OrderType
  timeInForce : TimeInForce
  deriving DecidableEq, Repr

structure OrderRejected where
  eventSequence : Nat
  commandSequence : Nat
  accountId : AccountId
  clientOrderId : ClientOrderId
  instrumentId : InstrumentId
  reason : RejectReason
  deriving DecidableEq, Repr

structure OrderCancelled where
  eventSequence : Nat
  commandSequence : Nat
  accountId : AccountId
  clientOrderId : ClientOrderId
  exchangeOrderId : Nat
  instrumentId : InstrumentId
  deriving DecidableEq, Repr

structure OrderReplaced where
  eventSequence : Nat
  commandSequence : Nat
  accountId : AccountId
  originalClientOrderId : ClientOrderId
  newClientOrderId : ClientOrderId
  exchangeOrderId : Nat
  instrumentId : InstrumentId
  newPrice : Int
  newQuantity : Nat
  deriving DecidableEq, Repr

/-- One side of a trade, with what is left on that order after it. -/
structure TradeCounterparty where
  accountId : AccountId
  clientOrderId : ClientOrderId
  exchangeOrderId : Nat
  remainingQuantity : Nat
  deriving DecidableEq, Repr

structure TradeExecuted where
  eventSequence : Nat
  commandSequence : Nat
  instrumentId : InstrumentId
  price : Int
  quantity : Nat
  aggressorSide : Side
  buyer : TradeCounterparty
  seller : TradeCounterparty
  deriving DecidableEq, Repr

structure BookOrderAdded where
  eventSequence : Nat
  instrumentId : InstrumentId
  exchangeOrderId : Nat
  side : Side
  price : Int
  quantity : Nat
  deriving DecidableEq, Repr

structure BookOrderReduced where
  eventSequence : Nat
  instrumentId : InstrumentId
  exchangeOrderId : Nat
  side : Side
  price : Int
  newRemainingQuantity : Nat
  deriving DecidableEq, Repr

structure BookOrderRemoved where
  eventSequence : Nat
  instrumentId : InstrumentId
  exchangeOrderId : Nat
  side : Side
  price : Int
  deriving DecidableEq, Repr

inductive ExchangeEvent where
  | orderAccepted (event : OrderAccepted)
  | orderRejected (event : OrderRejected)
  | orderCancelled (event : OrderCancelled)
  | orderReplaced (event : OrderReplaced)
  | tradeExecuted (event : TradeExecuted)
  | bookOrderAdded (event : BookOrderAdded)
  | bookOrderReduced (event : BookOrderReduced)
  | bookOrderRemoved (event : BookOrderRemoved)
  deriving DecidableEq, Repr

def ExchangeEvent.eventSequence : ExchangeEvent → Nat
  | .orderAccepted event => event.eventSequence
  | .orderRejected event => event.eventSequence
  | .orderCancelled event => event.eventSequence
  | .orderReplaced event => event.eventSequence
  | .tradeExecuted event => event.eventSequence
  | .bookOrderAdded event => event.eventSequence
  | .bookOrderReduced event => event.eventSequence
  | .bookOrderRemoved event => event.eventSequence

end Mdh.Core

namespace Mdh.Matching
open Mdh.Core

/-- What the book stores while an order rests. -/
structure ExchangeRestingOrder where
  exchangeOrderId : Nat
  clientOrderId : ClientOrderId
  accountId : AccountId
  price : Int
  originalQuantity : Nat
  remainingQuantity : Nat
  orderSequence : Nat
  instrumentId : InstrumentId
  side : Side
  timeInForce : TimeInForce
  deriving DecidableEq, Repr, Inhabited

/-- The complete form a command becomes on its way to the book. -/
structure BookOrder where
  exchangeOrderId : Nat
  clientOrderId : ClientOrderId
  accountId : AccountId
  price : Int
  remainingQuantity : Nat
  side : Side
  timeInForce : TimeInForce
  deriving DecidableEq, Repr, Inhabited

/-- Where one resting order sits: an index into its book's slab, nothing more. -/
structure Handle where
  slot : Nat
  deriving DecidableEq, Repr, Inhabited

end Mdh.Matching
