import Mdh.Core.ByteIo
import Mdh.Core.Codes
import Mdh.Core.Messages

/-! The order entry protocol: what a client sends, what it is sent, and how a frame of bytes
becomes a message. -/

namespace Mdh.Gateway
open Mdh.Core Mdh.Core.ByteIo

structure NewOrder where
  accountId : AccountId
  clientOrderId : ClientOrderId
  instrumentId : InstrumentId
  side : Side
  price : Int
  quantity : Nat
  orderType : Core.OrderType
  timeInForce : TimeInForce
  deriving DecidableEq, Repr

structure CancelOrder where
  accountId : AccountId
  clientOrderId : ClientOrderId
  instrumentId : InstrumentId
  deriving DecidableEq, Repr

structure ReplaceOrder where
  accountId : AccountId
  originalClientOrderId : ClientOrderId
  newClientOrderId : ClientOrderId
  instrumentId : InstrumentId
  newPrice : Int
  newQuantity : Nat
  deriving DecidableEq, Repr

structure Accepted where
  accountId : AccountId
  clientOrderId : ClientOrderId
  exchangeOrderId : Nat
  instrumentId : InstrumentId
  side : Side
  price : Int
  quantity : Nat
  orderType : Core.OrderType
  timeInForce : TimeInForce
  deriving DecidableEq, Repr

structure Rejected where
  accountId : AccountId
  clientOrderId : ClientOrderId
  instrumentId : InstrumentId
  reason : RejectReason
  deriving DecidableEq, Repr

structure Cancelled where
  accountId : AccountId
  clientOrderId : ClientOrderId
  exchangeOrderId : Nat
  instrumentId : InstrumentId
  deriving DecidableEq, Repr

structure Replaced where
  accountId : AccountId
  originalClientOrderId : ClientOrderId
  newClientOrderId : ClientOrderId
  exchangeOrderId : Nat
  instrumentId : InstrumentId
  newPrice : Int
  newQuantity : Nat
  deriving DecidableEq, Repr

structure TradeReport where
  accountId : AccountId
  clientOrderId : ClientOrderId
  exchangeOrderId : Nat
  instrumentId : InstrumentId
  price : Int
  quantity : Nat
  remainingQuantity : Nat
  deriving DecidableEq, Repr

/-- The first three are requests; the others go from the gateway to the client. -/
inductive Message where
  | newOrder (message : NewOrder)
  | cancelOrder (message : CancelOrder)
  | replaceOrder (message : ReplaceOrder)
  | accepted (message : Accepted)
  | rejected (message : Rejected)
  | cancelled (message : Cancelled)
  | replaced (message : Replaced)
  | tradeReport (message : TradeReport)
  deriving DecidableEq, Repr

def Message.accountId : Message → AccountId
  | .newOrder message => message.accountId
  | .cancelOrder message => message.accountId
  | .replaceOrder message => message.accountId
  | .accepted message => message.accountId
  | .rejected message => message.accountId
  | .cancelled message => message.accountId
  | .replaced message => message.accountId
  | .tradeReport message => message.accountId

inductive MessageType where
  | newOrder
  | cancelOrder
  | replaceOrder
  | accepted
  | rejected
  | cancelled
  | replaced
  | tradeReport
  deriving DecidableEq, Repr

def MessageType.ofCode : Nat → Option MessageType
  | 1 => some newOrder
  | 2 => some cancelOrder
  | 3 => some replaceOrder
  | 10 => some accepted
  | 11 => some rejected
  | 12 => some cancelled
  | 13 => some replaced
  | 14 => some tradeReport
  | _ => none

def rejectReasonOfCode : Nat → Option RejectReason
  | 0 => some .none
  | 1 => some .invalidPrice
  | 2 => some .invalidQuantity
  | 3 => some .duplicateOrderId
  | 4 => some .unknownOrderId
  | 5 => some .invalidInstrument
  | 6 => some .insufficientLiquidity
  | 7 => some .invalidReplacement
  | 8 => some .internalError
  | 9 => some .insufficientFunds
  | 10 => some .insufficientPosition
  | 11 => some .orderTooLarge
  | 12 => some .accountMismatch
  | _ => none

/-- A type in one byte and a payload size in two. -/
def HEADER_SIZE : Nat := 3

structure Header where
  type : MessageType
  payloadSize : Nat
  deriving DecidableEq, Repr

def payloadSizeFor : MessageType → Nat
  | .newOrder => 8 + 8 + 4 + 1 + 8 + 8 + 1 + 1
  | .cancelOrder => 8 + 8 + 4
  | .replaceOrder => 8 + 8 + 8 + 4 + 8 + 8
  | .accepted => 8 + 8 + 8 + 4 + 1 + 8 + 8 + 1 + 1
  | .rejected => 8 + 8 + 4 + 1
  | .cancelled => 8 + 8 + 8 + 4
  | .replaced => 8 + 8 + 8 + 8 + 4 + 8 + 8
  | .tradeReport => 8 + 8 + 8 + 4 + 8 + 8 + 8

inductive DecodeError where
  | truncatedHeader
  | truncatedPayload
  | invalidMessageType
  | invalidMessageSize
  | invalidSide
  | invalidOrderType
  | invalidTimeInForce
  | invalidRejectReason
  deriving DecidableEq, Repr

def readHeader : ByteReader (Nat × Nat) := do
  let typeRaw ← getU8
  let payloadSize ← getU16
  return (typeRaw, payloadSize)

def decodeHeader (data : List UInt8) : Except DecodeError Header :=
  if data.length < HEADER_SIZE then .error .truncatedHeader
  else
    match readHeader (data.take HEADER_SIZE) with
    | none => .error .truncatedHeader
    | some ((typeRaw, payloadSize), _) =>
        match MessageType.ofCode typeRaw with
        | none => .error .invalidMessageType
        | some type => .ok { type, payloadSize }

/-- The checks on the three bytes that stand for an enumerator, in the order they are made. -/
def checkCodes (sideRaw orderTypeRaw tifRaw : Nat) (build : Side → Core.OrderType → TimeInForce → Message) :
    Except DecodeError Message :=
  match Side.ofCode sideRaw, Core.OrderType.ofCode orderTypeRaw, TimeInForce.ofCode tifRaw with
  | none, _, _ => .error .invalidSide
  | some _, none, _ => .error .invalidOrderType
  | some _, some _, none => .error .invalidTimeInForce
  | some side, some orderType, some timeInForce => .ok (build side orderType timeInForce)

def readNewOrder : ByteReader (Except DecodeError Message) := do
  let accountId ← getU64
  let clientOrderId ← getU64
  let instrumentId ← getU32
  let sideRaw ← getU8
  let price ← getI64
  let quantity ← getU64
  let orderTypeRaw ← getU8
  let tifRaw ← getU8
  return checkCodes sideRaw orderTypeRaw tifRaw fun side orderType timeInForce => .newOrder {
    accountId, clientOrderId, instrumentId, side, price, quantity, orderType, timeInForce }

def readCancelOrder : ByteReader (Except DecodeError Message) := do
  let accountId ← getU64
  let clientOrderId ← getU64
  let instrumentId ← getU32
  return .ok (.cancelOrder { accountId, clientOrderId, instrumentId })

def readReplaceOrder : ByteReader (Except DecodeError Message) := do
  let accountId ← getU64
  let originalClientOrderId ← getU64
  let newClientOrderId ← getU64
  let instrumentId ← getU32
  let newPrice ← getI64
  let newQuantity ← getU64
  return .ok (.replaceOrder {
    accountId, originalClientOrderId, newClientOrderId, instrumentId, newPrice, newQuantity })

def readAccepted : ByteReader (Except DecodeError Message) := do
  let accountId ← getU64
  let clientOrderId ← getU64
  let exchangeOrderId ← getU64
  let instrumentId ← getU32
  let sideRaw ← getU8
  let price ← getI64
  let quantity ← getU64
  let orderTypeRaw ← getU8
  let tifRaw ← getU8
  return checkCodes sideRaw orderTypeRaw tifRaw fun side orderType timeInForce => .accepted {
    accountId, clientOrderId, exchangeOrderId, instrumentId, side, price, quantity, orderType, timeInForce }

def readRejected : ByteReader (Except DecodeError Message) := do
  let accountId ← getU64
  let clientOrderId ← getU64
  let instrumentId ← getU32
  let reasonRaw ← getU8
  return match rejectReasonOfCode reasonRaw with
    | none => .error .invalidRejectReason
    | some reason => .ok (.rejected { accountId, clientOrderId, instrumentId, reason })

def readCancelled : ByteReader (Except DecodeError Message) := do
  let accountId ← getU64
  let clientOrderId ← getU64
  let exchangeOrderId ← getU64
  let instrumentId ← getU32
  return .ok (.cancelled { accountId, clientOrderId, exchangeOrderId, instrumentId })

def readReplaced : ByteReader (Except DecodeError Message) := do
  let accountId ← getU64
  let originalClientOrderId ← getU64
  let newClientOrderId ← getU64
  let exchangeOrderId ← getU64
  let instrumentId ← getU32
  let newPrice ← getI64
  let newQuantity ← getU64
  return .ok (.replaced {
    accountId, originalClientOrderId, newClientOrderId, exchangeOrderId, instrumentId, newPrice, newQuantity })

def readTradeReport : ByteReader (Except DecodeError Message) := do
  let accountId ← getU64
  let clientOrderId ← getU64
  let exchangeOrderId ← getU64
  let instrumentId ← getU32
  let price ← getI64
  let quantity ← getU64
  let remainingQuantity ← getU64
  return .ok (.tradeReport {
    accountId, clientOrderId, exchangeOrderId, instrumentId, price, quantity, remainingQuantity })

def readPayload : MessageType → ByteReader (Except DecodeError Message)
  | .newOrder => readNewOrder
  | .cancelOrder => readCancelOrder
  | .replaceOrder => readReplaceOrder
  | .accepted => readAccepted
  | .rejected => readRejected
  | .cancelled => readCancelled
  | .replaced => readReplaced
  | .tradeReport => readTradeReport

def decodeMessage (data : List UInt8) : Except DecodeError Message :=
  match decodeHeader data with
  | .error error => .error error
  | .ok header =>
      if header.payloadSize ≠ payloadSizeFor header.type then .error .invalidMessageSize
      else if data.length < HEADER_SIZE + header.payloadSize then .error .truncatedPayload
      else
        match readPayload header.type ((data.drop HEADER_SIZE).take header.payloadSize) with
        | none => .error .truncatedPayload
        | some (result, _) => result

/-- The first whole frame of a read buffer and the bytes after it. A header that does not
decode leaves the buffer as it is. -/
def nextFrame (readBuffer : List UInt8) : Option (List UInt8 × List UInt8) :=
  match decodeHeader readBuffer with
  | .error _ => none
  | .ok header =>
      let frameSize := HEADER_SIZE + header.payloadSize
      if readBuffer.length < frameSize then none else some (readBuffer.take frameSize, readBuffer.drop frameSize)

/-- The request as a command; its sequence is assigned on the matching thread. Only a
request is a command. -/
def toCommand : Message → Option ExchangeCommand
  | .newOrder message => some (.newOrder {
      commandSequence := 0
      accountId := message.accountId
      clientOrderId := message.clientOrderId
      instrumentId := message.instrumentId
      side := message.side
      price := message.price
      quantity := message.quantity
      orderType := message.orderType
      timeInForce := message.timeInForce })
  | .cancelOrder message => some (.cancelOrder {
      commandSequence := 0
      accountId := message.accountId
      clientOrderId := message.clientOrderId
      instrumentId := message.instrumentId })
  | .replaceOrder message => some (.replaceOrder {
      commandSequence := 0
      accountId := message.accountId
      originalClientOrderId := message.originalClientOrderId
      newClientOrderId := message.newClientOrderId
      instrumentId := message.instrumentId
      newPrice := message.newPrice
      newQuantity := message.newQuantity })
  | .accepted _ | .rejected _ | .cancelled _ | .replaced _ | .tradeReport _ => none

end Mdh.Gateway
