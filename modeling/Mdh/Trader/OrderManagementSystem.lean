import Mathlib.Logic.Function.Basic
import Mdh.Gateway.OrderEntry

/-! The trader's order management system: it turns intent into requests, and the answers back
into the state of each order it has asked for. Whether a request goes out is the sender's to say. -/

namespace Mdh.Trader
open Mdh.Core Mdh.Gateway

inductive ClientOrderState where
  | pendingNew
  | live
  | partiallyFilled
  | filled
  | rejected
  | cancelled
  | replaced
  deriving DecidableEq, Repr

/-- Nothing further will ever be observed. -/
def ClientOrderState.isTerminal : ClientOrderState → Bool
  | .filled | .rejected | .cancelled | .replaced => true
  | .pendingNew | .live | .partiallyFilled => false

def ClientOrderState.isLive (state : ClientOrderState) : Bool := state = .live ∨ state = .partiallyFilled

/-- A cancel or replace that was sent for the order and is not answered yet. -/
inductive PendingAction where
  | none
  | cancel
  | replace
  deriving DecidableEq, Repr

structure ClientOrder where
  accountId : AccountId
  clientOrderId : ClientOrderId
  exchangeOrderId : Option Nat := Option.none
  instrumentId : InstrumentId
  side : Side
  price : Int
  quantity : Nat
  remainingQuantity : Nat
  orderType : Core.OrderType
  timeInForce : TimeInForce
  state : ClientOrderState := .pendingNew
  pendingAction : PendingAction := .none
  lastRejectReason : RejectReason := .none
  deriving DecidableEq, Repr

namespace ClientOrder
variable (order : ClientOrder)

def accept (event : Accepted) : ClientOrder := { order with
  exchangeOrderId := some event.exchangeOrderId
  state := .live
  quantity := event.quantity
  remainingQuantity := event.quantity }

/-- Only an order that is pending is itself rejected; otherwise a cancel or replace of it was. -/
def reject (event : Rejected) : ClientOrder := { order with
  state := if order.state = .pendingNew then .rejected else order.state
  pendingAction := .none
  lastRejectReason := event.reason }

def cancel : ClientOrder := { order with
  state := .cancelled
  pendingAction := .none }

def supersede : ClientOrder := { order with
  state := .replaced
  pendingAction := .none }

def replaceWith (event : Replaced) : ClientOrder := { order with
  state := .live
  exchangeOrderId := some event.exchangeOrderId
  price := event.newPrice
  quantity := event.newQuantity
  remainingQuantity := event.newQuantity }

def fill (event : TradeReport) : ClientOrder := { order with
  remainingQuantity := event.remainingQuantity
  state := if event.remainingQuantity = 0 then .filled else .partiallyFilled }

end ClientOrder

/-- One fill, on the side of the order it fills. -/
structure Fill where
  accountId : AccountId
  clientOrderId : ClientOrderId
  instrumentId : InstrumentId
  side : Side
  price : Int
  quantity : Nat
  deriving DecidableEq, Repr

structure OrderManagementSystem where
  accountId : AccountId
  nextClientOrderId : ClientOrderId := 1
  orders : ClientOrderId → Option ClientOrder := fun _ => none

namespace OrderManagementSystem
variable (oms : OrderManagementSystem)

/-- An order the system does not know is left alone. -/
def update (clientOrderId : ClientOrderId) (change : ClientOrder → ClientOrder) : OrderManagementSystem :=
  match oms.orders clientOrderId with
  | none => oms
  | some order => { oms with orders := Function.update oms.orders clientOrderId (some (change order)) }

/-- Enters an order under the next id. -/
def register (order : ClientOrder) : OrderManagementSystem :=
  { oms with
    nextClientOrderId := oms.nextClientOrderId + 1
    orders := Function.update oms.orders oms.nextClientOrderId (some order) }

def clearPendingAction (clientOrderId : ClientOrderId) : OrderManagementSystem :=
  oms.update clientOrderId fun order => { order with pendingAction := .none }

def markSendFailed (clientOrderId : ClientOrderId) : OrderManagementSystem :=
  oms.update clientOrderId fun order => { order with
    state := .rejected
    pendingAction := .none
    lastRejectReason := .internalError }

section Requests

/-- The order as it is entered, and as it is sent. -/
def submitNewOrder (instrumentId : InstrumentId) (side : Side) (price : Int) (quantity : Nat) (orderType : Core.OrderType)
    (timeInForce : TimeInForce) (sent : Bool) : OrderManagementSystem × ClientOrderId × Option Message :=
  let id := oms.nextClientOrderId
  let oms := oms.register {
    accountId := oms.accountId
    clientOrderId := id
    instrumentId
    side
    price
    quantity
    remainingQuantity := quantity
    orderType
    timeInForce }
  if sent then (oms, id, some (.newOrder {
    accountId := oms.accountId
    clientOrderId := id
    instrumentId
    side
    price
    quantity
    orderType
    timeInForce }))
  else (oms.markSendFailed id, id, none)

/-- The order that may be cancelled or replaced: it is live, with nothing pending. -/
def workable (clientOrderId : ClientOrderId) : Option ClientOrder :=
  (oms.orders clientOrderId).filter fun order => order.state.isLive ∧ order.pendingAction = .none

/-- Gives the request that went out, if one did. -/
def cancelOrder (clientOrderId : ClientOrderId) (sent : Bool) : OrderManagementSystem × Option Message :=
  match oms.workable clientOrderId with
  | none => (oms, none)
  | some order =>
      let oms := oms.update clientOrderId fun order => { order with pendingAction := .cancel }
      if sent then (oms, some (.cancelOrder {
        accountId := oms.accountId
        clientOrderId
        instrumentId := order.instrumentId }))
      else (oms.clearPendingAction clientOrderId, none)

/-- The replacement is entered before the answer is known, on the side of the original. -/
def replaceOrder (clientOrderId : ClientOrderId) (newPrice : Int) (newQuantity : Nat) (sent : Bool) :
    OrderManagementSystem × Option (ClientOrderId × Message) :=
  match oms.workable clientOrderId with
  | none => (oms, none)
  | some original =>
      let newId := oms.nextClientOrderId
      let oms := (oms.update clientOrderId fun order => { order with pendingAction := .replace }).register {
        accountId := oms.accountId
        clientOrderId := newId
        instrumentId := original.instrumentId
        side := original.side
        price := newPrice
        quantity := newQuantity
        remainingQuantity := newQuantity
        orderType := original.orderType
        timeInForce := original.timeInForce }
      if sent then (oms, some (newId, .replaceOrder {
        accountId := oms.accountId
        originalClientOrderId := clientOrderId
        newClientOrderId := newId
        instrumentId := original.instrumentId
        newPrice
        newQuantity }))
      else
        let oms := { oms with orders := Function.update oms.orders newId none }
        (oms.clearPendingAction clientOrderId, none)

end Requests

section Answers

def onAccepted (event : Accepted) : OrderManagementSystem := oms.update event.clientOrderId (ClientOrder.accept · event)

def onRejected (event : Rejected) : OrderManagementSystem := oms.update event.clientOrderId (ClientOrder.reject · event)

def onCancelled (event : Cancelled) : OrderManagementSystem := oms.update event.clientOrderId ClientOrder.cancel

def onReplaced (event : Replaced) : OrderManagementSystem :=
  (oms.update event.originalClientOrderId ClientOrder.supersede).update event.newClientOrderId
    (ClientOrder.replaceWith · event)

/-- A report of a fill goes on to the fill sink, with the side the order has here. -/
def onTradeReport (event : TradeReport) : OrderManagementSystem × Option Fill :=
  match oms.orders event.clientOrderId with
  | none => (oms, none)
  | some order =>
      (oms.update event.clientOrderId (ClientOrder.fill · event), some {
        accountId := oms.accountId
        clientOrderId := event.clientOrderId
        instrumentId := event.instrumentId
        side := order.side
        price := event.price
        quantity := event.quantity })

/-- A request is not meant to arrive here and is ignored. -/
def handleMessage : Message → OrderManagementSystem × Option Fill
  | .accepted event => (oms.onAccepted event, none)
  | .rejected event => (oms.onRejected event, none)
  | .cancelled event => (oms.onCancelled event, none)
  | .replaced event => (oms.onReplaced event, none)
  | .tradeReport event => oms.onTradeReport event
  | .newOrder _ | .cancelOrder _ | .replaceOrder _ => (oms, none)

end Answers

end OrderManagementSystem

end Mdh.Trader
