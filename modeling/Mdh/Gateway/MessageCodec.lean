import Mdh.Gateway.OrderEntry

/-! The encoder of the order entry protocol, and what ties it to the decoder: every message
is read back, and whatever is read is the encoding of the message it was read as. -/

namespace Mdh.Gateway
open Mdh.Core Mdh.Core.ByteIo

def MessageType.code : MessageType → Nat
  | newOrder => 1
  | cancelOrder => 2
  | replaceOrder => 3
  | accepted => 10
  | rejected => 11
  | cancelled => 12
  | replaced => 13
  | tradeReport => 14

def rejectReasonCode : RejectReason → Nat
  | .none => 0
  | .invalidPrice => 1
  | .invalidQuantity => 2
  | .duplicateOrderId => 3
  | .unknownOrderId => 4
  | .invalidInstrument => 5
  | .insufficientLiquidity => 6
  | .invalidReplacement => 7
  | .internalError => 8
  | .insufficientFunds => 9
  | .insufficientPosition => 10
  | .orderTooLarge => 11
  | .accountMismatch => 12

def putHeader (type : MessageType) (payloadSize : Nat) : List UInt8 := putU8 type.code ++ putU16 payloadSize

def newOrderPayload (message : NewOrder) : List UInt8 :=
  putU64 message.accountId ++ putU64 message.clientOrderId ++ putU32 message.instrumentId ++ putU8 message.side.code ++
    putI64 message.price ++ putU64 message.quantity ++ putU8 message.orderType.code ++ putU8 message.timeInForce.code

def cancelOrderPayload (message : CancelOrder) : List UInt8 :=
  putU64 message.accountId ++ putU64 message.clientOrderId ++ putU32 message.instrumentId

def replaceOrderPayload (message : ReplaceOrder) : List UInt8 :=
  putU64 message.accountId ++ putU64 message.originalClientOrderId ++ putU64 message.newClientOrderId ++
    putU32 message.instrumentId ++ putI64 message.newPrice ++ putU64 message.newQuantity

def acceptedPayload (message : Accepted) : List UInt8 :=
  putU64 message.accountId ++ putU64 message.clientOrderId ++ putU64 message.exchangeOrderId ++
    putU32 message.instrumentId ++ putU8 message.side.code ++ putI64 message.price ++ putU64 message.quantity ++
    putU8 message.orderType.code ++ putU8 message.timeInForce.code

def rejectedPayload (message : Rejected) : List UInt8 :=
  putU64 message.accountId ++ putU64 message.clientOrderId ++ putU32 message.instrumentId ++
    putU8 (rejectReasonCode message.reason)

def cancelledPayload (message : Cancelled) : List UInt8 :=
  putU64 message.accountId ++ putU64 message.clientOrderId ++ putU64 message.exchangeOrderId ++
    putU32 message.instrumentId

def replacedPayload (message : Replaced) : List UInt8 :=
  putU64 message.accountId ++ putU64 message.originalClientOrderId ++ putU64 message.newClientOrderId ++
    putU64 message.exchangeOrderId ++ putU32 message.instrumentId ++ putI64 message.newPrice ++ putU64 message.newQuantity

def tradeReportPayload (message : TradeReport) : List UInt8 :=
  putU64 message.accountId ++ putU64 message.clientOrderId ++ putU64 message.exchangeOrderId ++
    putU32 message.instrumentId ++ putI64 message.price ++ putU64 message.quantity ++ putU64 message.remainingQuantity

def encodeMessage : Message → List UInt8
  | .newOrder message => putHeader .newOrder (payloadSizeFor .newOrder) ++ newOrderPayload message
  | .cancelOrder message => putHeader .cancelOrder (payloadSizeFor .cancelOrder) ++ cancelOrderPayload message
  | .replaceOrder message => putHeader .replaceOrder (payloadSizeFor .replaceOrder) ++ replaceOrderPayload message
  | .accepted message => putHeader .accepted (payloadSizeFor .accepted) ++ acceptedPayload message
  | .rejected message => putHeader .rejected (payloadSizeFor .rejected) ++ rejectedPayload message
  | .cancelled message => putHeader .cancelled (payloadSizeFor .cancelled) ++ cancelledPayload message
  | .replaced message => putHeader .replaced (payloadSizeFor .replaced) ++ replacedPayload message
  | .tradeReport message => putHeader .tradeReport (payloadSizeFor .tradeReport) ++ tradeReportPayload message

/-- The fields fit the types the source gives them. -/
def Representable : Message → Prop
  | .newOrder message => message.accountId < 2 ^ 64 ∧ message.clientOrderId < 2 ^ 64 ∧ message.instrumentId < 2 ^ 32 ∧
      Rounding.InRange message.price ∧ message.quantity < 2 ^ 64
  | .cancelOrder message =>
      message.accountId < 2 ^ 64 ∧ message.clientOrderId < 2 ^ 64 ∧ message.instrumentId < 2 ^ 32
  | .replaceOrder message => message.accountId < 2 ^ 64 ∧ message.originalClientOrderId < 2 ^ 64 ∧
      message.newClientOrderId < 2 ^ 64 ∧ message.instrumentId < 2 ^ 32 ∧ Rounding.InRange message.newPrice ∧
      message.newQuantity < 2 ^ 64
  | .accepted message => message.accountId < 2 ^ 64 ∧ message.clientOrderId < 2 ^ 64 ∧
      message.exchangeOrderId < 2 ^ 64 ∧ message.instrumentId < 2 ^ 32 ∧ Rounding.InRange message.price ∧
      message.quantity < 2 ^ 64
  | .rejected message =>
      message.accountId < 2 ^ 64 ∧ message.clientOrderId < 2 ^ 64 ∧ message.instrumentId < 2 ^ 32
  | .cancelled message => message.accountId < 2 ^ 64 ∧ message.clientOrderId < 2 ^ 64 ∧
      message.exchangeOrderId < 2 ^ 64 ∧ message.instrumentId < 2 ^ 32
  | .replaced message => message.accountId < 2 ^ 64 ∧ message.originalClientOrderId < 2 ^ 64 ∧
      message.newClientOrderId < 2 ^ 64 ∧ message.exchangeOrderId < 2 ^ 64 ∧ message.instrumentId < 2 ^ 32 ∧
      Rounding.InRange message.newPrice ∧ message.newQuantity < 2 ^ 64
  | .tradeReport message => message.accountId < 2 ^ 64 ∧ message.clientOrderId < 2 ^ 64 ∧
      message.exchangeOrderId < 2 ^ 64 ∧ message.instrumentId < 2 ^ 32 ∧ Rounding.InRange message.price ∧
      message.quantity < 2 ^ 64 ∧ message.remainingQuantity < 2 ^ 64

instance : DecidablePred Representable := fun message => by
  cases message <;> unfold Representable <;> infer_instance

section Codes

@[simp] theorem MessageType.ofCode_code (type : MessageType) : ofCode type.code = some type := by cases type <;> rfl

theorem MessageType.code_lt (type : MessageType) : type.code < 2 ^ 8 := by cases type <;> decide

theorem MessageType.code_ofCode {raw : Nat} {type : MessageType} (known : ofCode raw = some type) : raw = type.code := by
  unfold ofCode at known
  split at known <;> cases known <;> rfl

@[simp] theorem rejectReasonOfCode_code (reason : RejectReason) :
    rejectReasonOfCode (rejectReasonCode reason) = some reason := by
  cases reason <;> rfl

theorem rejectReasonCode_lt (reason : RejectReason) : rejectReasonCode reason < 2 ^ 8 := by cases reason <;> decide

theorem rejectReasonCode_ofCode {raw : Nat} {reason : RejectReason} (known : rejectReasonOfCode raw = some reason) :
    raw = rejectReasonCode reason := by
  unfold rejectReasonOfCode at known
  split at known <;> cases known <;> rfl

theorem checkCodes_code (side : Side) (orderType : Core.OrderType) (timeInForce : TimeInForce)
    (build : Side → Core.OrderType → TimeInForce → Message) :
    checkCodes side.code orderType.code timeInForce.code build = .ok (build side orderType timeInForce) := by
  unfold checkCodes
  rw [Side.ofCode_code, Core.OrderType.ofCode_code, TimeInForce.ofCode_code]

/-- The three bytes pass only as the numbers of the enumerators they are cast to. -/
theorem checkCodes_ok {sideRaw orderTypeRaw tifRaw : Nat} {build : Side → Core.OrderType → TimeInForce → Message}
    {message : Message} (passed : checkCodes sideRaw orderTypeRaw tifRaw build = .ok message) :
    ∃ side orderType timeInForce, sideRaw = side.code ∧ orderTypeRaw = orderType.code ∧ tifRaw = timeInForce.code ∧
      message = build side orderType timeInForce := by
  unfold checkCodes at passed
  split at passed
  · cases passed
  · cases passed
  · cases passed
  · rename_i side orderType timeInForce knownSide knownType knownTif
    exact ⟨side, orderType, timeInForce, Side.code_ofCode knownSide, Core.OrderType.code_ofCode knownType,
      TimeInForce.code_ofCode knownTif, (Except.ok.inj passed).symm⟩

end Codes

/-- The type a message goes by in its header. -/
def Message.type : Message → MessageType
  | .newOrder _ => .newOrder
  | .cancelOrder _ => .cancelOrder
  | .replaceOrder _ => .replaceOrder
  | .accepted _ => .accepted
  | .rejected _ => .rejected
  | .cancelled _ => .cancelled
  | .replaced _ => .replaced
  | .tradeReport _ => .tradeReport

def Message.payload : Message → List UInt8
  | .newOrder message => newOrderPayload message
  | .cancelOrder message => cancelOrderPayload message
  | .replaceOrder message => replaceOrderPayload message
  | .accepted message => acceptedPayload message
  | .rejected message => rejectedPayload message
  | .cancelled message => cancelledPayload message
  | .replaced message => replacedPayload message
  | .tradeReport message => tradeReportPayload message

theorem encodeMessage_eq (message : Message) :
    encodeMessage message = putHeader message.type (payloadSizeFor message.type) ++ message.payload := by
  cases message <;> rfl

theorem payloadSizeFor_lt (type : MessageType) : payloadSizeFor type < 2 ^ 16 := by cases type <;> decide

theorem payload_length (message : Message) : message.payload.length = payloadSizeFor message.type := by
  cases message <;>
    simp [Message.payload, Message.type, newOrderPayload, cancelOrderPayload, replaceOrderPayload, acceptedPayload,
      rejectedPayload, cancelledPayload, replacedPayload, tradeReportPayload, putU64, putU32, putU8, putI64, payloadSizeFor]

theorem putHeader_length (type : MessageType) (payloadSize : Nat) : (putHeader type payloadSize).length = HEADER_SIZE := by
  simp only [putHeader, putU8, putU16, List.length_append, Lib.BigEndian.put_length]
  rfl

theorem encodeMessage_length (message : Message) :
    (encodeMessage message).length = HEADER_SIZE + payloadSizeFor message.type := by
  rw [encodeMessage_eq, List.length_append, putHeader_length, payload_length]

section Written
variable (rest : List UInt8)

theorem readNewOrder_put (message : NewOrder) (fits : Representable (.newOrder message)) :
    readNewOrder (newOrderPayload message ++ rest) = some (.ok (.newOrder message), rest) := by
  obtain ⟨account, client, instrument, price, quantity⟩ := fits
  simp only [newOrderPayload, List.append_assoc]
  rw [readNewOrder, bind_of_read (getU64_put _ account), bind_of_read (getU64_put _ client),
    bind_of_read (getU32_put _ instrument), bind_of_read (getU8_put _ message.side.code_lt),
    bind_of_read (getI64_put _ price), bind_of_read (getU64_put _ quantity),
    bind_of_read (getU8_put _ message.orderType.code_lt), bind_of_read (getU8_put _ message.timeInForce.code_lt),
    checkCodes_code]
  rfl

theorem readCancelOrder_put (message : CancelOrder) (fits : Representable (.cancelOrder message)) :
    readCancelOrder (cancelOrderPayload message ++ rest) = some (.ok (.cancelOrder message), rest) := by
  obtain ⟨account, client, instrument⟩ := fits
  simp only [cancelOrderPayload, List.append_assoc]
  rw [readCancelOrder, bind_of_read (getU64_put _ account), bind_of_read (getU64_put _ client),
    bind_of_read (getU32_put _ instrument)]
  rfl

theorem readReplaceOrder_put (message : ReplaceOrder) (fits : Representable (.replaceOrder message)) :
    readReplaceOrder (replaceOrderPayload message ++ rest) = some (.ok (.replaceOrder message), rest) := by
  obtain ⟨account, original, new, instrument, price, quantity⟩ := fits
  simp only [replaceOrderPayload, List.append_assoc]
  rw [readReplaceOrder, bind_of_read (getU64_put _ account), bind_of_read (getU64_put _ original),
    bind_of_read (getU64_put _ new), bind_of_read (getU32_put _ instrument), bind_of_read (getI64_put _ price),
    bind_of_read (getU64_put _ quantity)]
  rfl

theorem readAccepted_put (message : Accepted) (fits : Representable (.accepted message)) :
    readAccepted (acceptedPayload message ++ rest) = some (.ok (.accepted message), rest) := by
  obtain ⟨account, client, exchange, instrument, price, quantity⟩ := fits
  simp only [acceptedPayload, List.append_assoc]
  rw [readAccepted, bind_of_read (getU64_put _ account), bind_of_read (getU64_put _ client),
    bind_of_read (getU64_put _ exchange), bind_of_read (getU32_put _ instrument),
    bind_of_read (getU8_put _ message.side.code_lt), bind_of_read (getI64_put _ price),
    bind_of_read (getU64_put _ quantity), bind_of_read (getU8_put _ message.orderType.code_lt),
    bind_of_read (getU8_put _ message.timeInForce.code_lt), checkCodes_code]
  rfl

theorem readRejected_put (message : Rejected) (fits : Representable (.rejected message)) :
    readRejected (rejectedPayload message ++ rest) = some (.ok (.rejected message), rest) := by
  obtain ⟨account, client, instrument⟩ := fits
  simp only [rejectedPayload, List.append_assoc]
  rw [readRejected, bind_of_read (getU64_put _ account), bind_of_read (getU64_put _ client),
    bind_of_read (getU32_put _ instrument), bind_of_read (getU8_put _ (rejectReasonCode_lt message.reason)),
    rejectReasonOfCode_code]
  rfl

theorem readCancelled_put (message : Cancelled) (fits : Representable (.cancelled message)) :
    readCancelled (cancelledPayload message ++ rest) = some (.ok (.cancelled message), rest) := by
  obtain ⟨account, client, exchange, instrument⟩ := fits
  simp only [cancelledPayload, List.append_assoc]
  rw [readCancelled, bind_of_read (getU64_put _ account), bind_of_read (getU64_put _ client),
    bind_of_read (getU64_put _ exchange), bind_of_read (getU32_put _ instrument)]
  rfl

theorem readReplaced_put (message : Replaced) (fits : Representable (.replaced message)) :
    readReplaced (replacedPayload message ++ rest) = some (.ok (.replaced message), rest) := by
  obtain ⟨account, original, new, exchange, instrument, price, quantity⟩ := fits
  simp only [replacedPayload, List.append_assoc]
  rw [readReplaced, bind_of_read (getU64_put _ account), bind_of_read (getU64_put _ original),
    bind_of_read (getU64_put _ new), bind_of_read (getU64_put _ exchange), bind_of_read (getU32_put _ instrument),
    bind_of_read (getI64_put _ price), bind_of_read (getU64_put _ quantity)]
  rfl

theorem readTradeReport_put (message : TradeReport) (fits : Representable (.tradeReport message)) :
    readTradeReport (tradeReportPayload message ++ rest) = some (.ok (.tradeReport message), rest) := by
  obtain ⟨account, client, exchange, instrument, price, quantity, remaining⟩ := fits
  simp only [tradeReportPayload, List.append_assoc]
  rw [readTradeReport, bind_of_read (getU64_put _ account), bind_of_read (getU64_put _ client),
    bind_of_read (getU64_put _ exchange), bind_of_read (getU32_put _ instrument), bind_of_read (getI64_put _ price),
    bind_of_read (getU64_put _ quantity), bind_of_read (getU64_put _ remaining)]
  rfl

theorem readPayload_put {message : Message} (fits : Representable message) :
    readPayload message.type (message.payload ++ rest) = some (.ok message, rest) := by
  cases message with
  | newOrder message => exact readNewOrder_put rest message fits
  | cancelOrder message => exact readCancelOrder_put rest message fits
  | replaceOrder message => exact readReplaceOrder_put rest message fits
  | accepted message => exact readAccepted_put rest message fits
  | rejected message => exact readRejected_put rest message fits
  | cancelled message => exact readCancelled_put rest message fits
  | replaced message => exact readReplaced_put rest message fits
  | tradeReport message => exact readTradeReport_put rest message fits

end Written

section Read
variable {bytes rest : List UInt8} {message : Message}

theorem readNewOrder_get (read : readNewOrder bytes = some (.ok message, rest)) :
    ∃ order, message = .newOrder order ∧ bytes = newOrderPayload order ++ rest ∧ Representable message := by
  obtain ⟨account, afterAccount, takenAccount, read⟩ := read_of_bind read
  obtain ⟨client, afterClient, takenClient, read⟩ := read_of_bind read
  obtain ⟨instrument, afterInstrument, takenInstrument, read⟩ := read_of_bind read
  obtain ⟨sideRaw, afterSide, takenSide, read⟩ := read_of_bind read
  obtain ⟨price, afterPrice, takenPrice, read⟩ := read_of_bind read
  obtain ⟨quantity, afterQuantity, takenQuantity, read⟩ := read_of_bind read
  obtain ⟨orderTypeRaw, afterType, takenType, read⟩ := read_of_bind read
  obtain ⟨tifRaw, afterTif, takenTif, read⟩ := read_of_bind read
  obtain ⟨checked, rfl⟩ := Prod.mk.inj (Option.some.inj read)
  obtain ⟨side, orderType, timeInForce, rfl, rfl, rfl, rfl⟩ := checkCodes_ok checked
  obtain ⟨rfl, accountFits⟩ := putU64_get takenAccount
  obtain ⟨rfl, clientFits⟩ := putU64_get takenClient
  obtain ⟨rfl, instrumentFits⟩ := putU32_get takenInstrument
  obtain ⟨rfl, _⟩ := putU8_get takenSide
  obtain ⟨rfl, priceFits⟩ := putI64_get takenPrice
  obtain ⟨rfl, quantityFits⟩ := putU64_get takenQuantity
  obtain ⟨rfl, _⟩ := putU8_get takenType
  obtain ⟨rfl, _⟩ := putU8_get takenTif
  exact ⟨_, rfl, by simp only [newOrderPayload, List.append_assoc], accountFits, clientFits, instrumentFits, priceFits,
    quantityFits⟩

theorem readCancelOrder_get (read : readCancelOrder bytes = some (.ok message, rest)) :
    ∃ cancel, message = .cancelOrder cancel ∧ bytes = cancelOrderPayload cancel ++ rest ∧ Representable message := by
  obtain ⟨account, afterAccount, takenAccount, read⟩ := read_of_bind read
  obtain ⟨client, afterClient, takenClient, read⟩ := read_of_bind read
  obtain ⟨instrument, afterInstrument, takenInstrument, read⟩ := read_of_bind read
  cases read
  obtain ⟨rfl, accountFits⟩ := putU64_get takenAccount
  obtain ⟨rfl, clientFits⟩ := putU64_get takenClient
  obtain ⟨rfl, instrumentFits⟩ := putU32_get takenInstrument
  exact ⟨_, rfl, by simp only [cancelOrderPayload, List.append_assoc], accountFits, clientFits, instrumentFits⟩

theorem readReplaceOrder_get (read : readReplaceOrder bytes = some (.ok message, rest)) :
    ∃ replace, message = .replaceOrder replace ∧ bytes = replaceOrderPayload replace ++ rest ∧ Representable message := by
  obtain ⟨account, afterAccount, takenAccount, read⟩ := read_of_bind read
  obtain ⟨original, afterOriginal, takenOriginal, read⟩ := read_of_bind read
  obtain ⟨new, afterNew, takenNew, read⟩ := read_of_bind read
  obtain ⟨instrument, afterInstrument, takenInstrument, read⟩ := read_of_bind read
  obtain ⟨price, afterPrice, takenPrice, read⟩ := read_of_bind read
  obtain ⟨quantity, afterQuantity, takenQuantity, read⟩ := read_of_bind read
  cases read
  obtain ⟨rfl, accountFits⟩ := putU64_get takenAccount
  obtain ⟨rfl, originalFits⟩ := putU64_get takenOriginal
  obtain ⟨rfl, newFits⟩ := putU64_get takenNew
  obtain ⟨rfl, instrumentFits⟩ := putU32_get takenInstrument
  obtain ⟨rfl, priceFits⟩ := putI64_get takenPrice
  obtain ⟨rfl, quantityFits⟩ := putU64_get takenQuantity
  exact ⟨_, rfl, by simp only [replaceOrderPayload, List.append_assoc], accountFits, originalFits, newFits,
    instrumentFits, priceFits, quantityFits⟩

theorem readAccepted_get (read : readAccepted bytes = some (.ok message, rest)) :
    ∃ accepted, message = .accepted accepted ∧ bytes = acceptedPayload accepted ++ rest ∧ Representable message := by
  obtain ⟨account, afterAccount, takenAccount, read⟩ := read_of_bind read
  obtain ⟨client, afterClient, takenClient, read⟩ := read_of_bind read
  obtain ⟨exchange, afterExchange, takenExchange, read⟩ := read_of_bind read
  obtain ⟨instrument, afterInstrument, takenInstrument, read⟩ := read_of_bind read
  obtain ⟨sideRaw, afterSide, takenSide, read⟩ := read_of_bind read
  obtain ⟨price, afterPrice, takenPrice, read⟩ := read_of_bind read
  obtain ⟨quantity, afterQuantity, takenQuantity, read⟩ := read_of_bind read
  obtain ⟨orderTypeRaw, afterType, takenType, read⟩ := read_of_bind read
  obtain ⟨tifRaw, afterTif, takenTif, read⟩ := read_of_bind read
  obtain ⟨checked, rfl⟩ := Prod.mk.inj (Option.some.inj read)
  obtain ⟨side, orderType, timeInForce, rfl, rfl, rfl, rfl⟩ := checkCodes_ok checked
  obtain ⟨rfl, accountFits⟩ := putU64_get takenAccount
  obtain ⟨rfl, clientFits⟩ := putU64_get takenClient
  obtain ⟨rfl, exchangeFits⟩ := putU64_get takenExchange
  obtain ⟨rfl, instrumentFits⟩ := putU32_get takenInstrument
  obtain ⟨rfl, _⟩ := putU8_get takenSide
  obtain ⟨rfl, priceFits⟩ := putI64_get takenPrice
  obtain ⟨rfl, quantityFits⟩ := putU64_get takenQuantity
  obtain ⟨rfl, _⟩ := putU8_get takenType
  obtain ⟨rfl, _⟩ := putU8_get takenTif
  exact ⟨_, rfl, by simp only [acceptedPayload, List.append_assoc], accountFits, clientFits, exchangeFits,
    instrumentFits, priceFits, quantityFits⟩

theorem readRejected_get (read : readRejected bytes = some (.ok message, rest)) :
    ∃ rejected, message = .rejected rejected ∧ bytes = rejectedPayload rejected ++ rest ∧ Representable message := by
  obtain ⟨account, afterAccount, takenAccount, read⟩ := read_of_bind read
  obtain ⟨client, afterClient, takenClient, read⟩ := read_of_bind read
  obtain ⟨instrument, afterInstrument, takenInstrument, read⟩ := read_of_bind read
  obtain ⟨reasonRaw, afterReason, takenReason, read⟩ := read_of_bind read
  obtain ⟨checked, rfl⟩ := Prod.mk.inj (Option.some.inj read)
  split at checked
  · cases checked
  rename_i reason known
  cases rejectReasonCode_ofCode known
  cases checked
  obtain ⟨rfl, accountFits⟩ := putU64_get takenAccount
  obtain ⟨rfl, clientFits⟩ := putU64_get takenClient
  obtain ⟨rfl, instrumentFits⟩ := putU32_get takenInstrument
  obtain ⟨rfl, _⟩ := putU8_get takenReason
  exact ⟨_, rfl, by simp only [rejectedPayload, List.append_assoc], accountFits, clientFits, instrumentFits⟩

theorem readCancelled_get (read : readCancelled bytes = some (.ok message, rest)) :
    ∃ cancelled, message = .cancelled cancelled ∧ bytes = cancelledPayload cancelled ++ rest ∧ Representable message := by
  obtain ⟨account, afterAccount, takenAccount, read⟩ := read_of_bind read
  obtain ⟨client, afterClient, takenClient, read⟩ := read_of_bind read
  obtain ⟨exchange, afterExchange, takenExchange, read⟩ := read_of_bind read
  obtain ⟨instrument, afterInstrument, takenInstrument, read⟩ := read_of_bind read
  cases read
  obtain ⟨rfl, accountFits⟩ := putU64_get takenAccount
  obtain ⟨rfl, clientFits⟩ := putU64_get takenClient
  obtain ⟨rfl, exchangeFits⟩ := putU64_get takenExchange
  obtain ⟨rfl, instrumentFits⟩ := putU32_get takenInstrument
  exact ⟨_, rfl, by simp only [cancelledPayload, List.append_assoc], accountFits, clientFits, exchangeFits,
    instrumentFits⟩

theorem readReplaced_get (read : readReplaced bytes = some (.ok message, rest)) :
    ∃ replaced, message = .replaced replaced ∧ bytes = replacedPayload replaced ++ rest ∧ Representable message := by
  obtain ⟨account, afterAccount, takenAccount, read⟩ := read_of_bind read
  obtain ⟨original, afterOriginal, takenOriginal, read⟩ := read_of_bind read
  obtain ⟨new, afterNew, takenNew, read⟩ := read_of_bind read
  obtain ⟨exchange, afterExchange, takenExchange, read⟩ := read_of_bind read
  obtain ⟨instrument, afterInstrument, takenInstrument, read⟩ := read_of_bind read
  obtain ⟨price, afterPrice, takenPrice, read⟩ := read_of_bind read
  obtain ⟨quantity, afterQuantity, takenQuantity, read⟩ := read_of_bind read
  cases read
  obtain ⟨rfl, accountFits⟩ := putU64_get takenAccount
  obtain ⟨rfl, originalFits⟩ := putU64_get takenOriginal
  obtain ⟨rfl, newFits⟩ := putU64_get takenNew
  obtain ⟨rfl, exchangeFits⟩ := putU64_get takenExchange
  obtain ⟨rfl, instrumentFits⟩ := putU32_get takenInstrument
  obtain ⟨rfl, priceFits⟩ := putI64_get takenPrice
  obtain ⟨rfl, quantityFits⟩ := putU64_get takenQuantity
  exact ⟨_, rfl, by simp only [replacedPayload, List.append_assoc], accountFits, originalFits, newFits, exchangeFits,
    instrumentFits, priceFits, quantityFits⟩

theorem readTradeReport_get (read : readTradeReport bytes = some (.ok message, rest)) :
    ∃ report, message = .tradeReport report ∧ bytes = tradeReportPayload report ++ rest ∧ Representable message := by
  obtain ⟨account, afterAccount, takenAccount, read⟩ := read_of_bind read
  obtain ⟨client, afterClient, takenClient, read⟩ := read_of_bind read
  obtain ⟨exchange, afterExchange, takenExchange, read⟩ := read_of_bind read
  obtain ⟨instrument, afterInstrument, takenInstrument, read⟩ := read_of_bind read
  obtain ⟨price, afterPrice, takenPrice, read⟩ := read_of_bind read
  obtain ⟨quantity, afterQuantity, takenQuantity, read⟩ := read_of_bind read
  obtain ⟨remaining, afterRemaining, takenRemaining, read⟩ := read_of_bind read
  cases read
  obtain ⟨rfl, accountFits⟩ := putU64_get takenAccount
  obtain ⟨rfl, clientFits⟩ := putU64_get takenClient
  obtain ⟨rfl, exchangeFits⟩ := putU64_get takenExchange
  obtain ⟨rfl, instrumentFits⟩ := putU32_get takenInstrument
  obtain ⟨rfl, priceFits⟩ := putI64_get takenPrice
  obtain ⟨rfl, quantityFits⟩ := putU64_get takenQuantity
  obtain ⟨rfl, remainingFits⟩ := putU64_get takenRemaining
  exact ⟨_, rfl, by simp only [tradeReportPayload, List.append_assoc], accountFits, clientFits, exchangeFits,
    instrumentFits, priceFits, quantityFits, remainingFits⟩

theorem readPayload_get {type : MessageType} (read : readPayload type bytes = some (.ok message, rest)) :
    message.type = type ∧ bytes = message.payload ++ rest ∧ Representable message := by
  cases type with
  | newOrder =>
    obtain ⟨_, rfl, same, fits⟩ := readNewOrder_get read
    exact ⟨rfl, same, fits⟩
  | cancelOrder =>
    obtain ⟨_, rfl, same, fits⟩ := readCancelOrder_get read
    exact ⟨rfl, same, fits⟩
  | replaceOrder =>
    obtain ⟨_, rfl, same, fits⟩ := readReplaceOrder_get read
    exact ⟨rfl, same, fits⟩
  | accepted =>
    obtain ⟨_, rfl, same, fits⟩ := readAccepted_get read
    exact ⟨rfl, same, fits⟩
  | rejected =>
    obtain ⟨_, rfl, same, fits⟩ := readRejected_get read
    exact ⟨rfl, same, fits⟩
  | cancelled =>
    obtain ⟨_, rfl, same, fits⟩ := readCancelled_get read
    exact ⟨rfl, same, fits⟩
  | replaced =>
    obtain ⟨_, rfl, same, fits⟩ := readReplaced_get read
    exact ⟨rfl, same, fits⟩
  | tradeReport =>
    obtain ⟨_, rfl, same, fits⟩ := readTradeReport_get read
    exact ⟨rfl, same, fits⟩

end Read

theorem readHeader_put {type : MessageType} {payloadSize : Nat} (sizeFits : payloadSize < 2 ^ 16) (rest : List UInt8) :
    readHeader (putHeader type payloadSize ++ rest) = some ((type.code, payloadSize), rest) := by
  simp only [putHeader, List.append_assoc]
  rw [readHeader, bind_of_read (getU8_put _ type.code_lt), bind_of_read (getU16_put _ sizeFits)]
  rfl

theorem decodeHeader_put {type : MessageType} {payloadSize : Nat} (sizeFits : payloadSize < 2 ^ 16) (rest : List UInt8) :
    decodeHeader (putHeader type payloadSize ++ rest) = .ok { type, payloadSize } := by
  have length := putHeader_length type payloadSize
  have read : readHeader (putHeader type payloadSize ++ []) = _ := readHeader_put sizeFits []
  rw [List.append_nil] at read
  unfold decodeHeader
  rw [if_neg (by rw [List.length_append, length]; omega), List.take_left' length, read]
  simp only [MessageType.ofCode_code]

/-- A header that decodes is the three bytes the encoder would write for it. -/
theorem decodeHeader_ok {data : List UInt8} {header : Header} (decoded : decodeHeader data = .ok header) :
    HEADER_SIZE ≤ data.length ∧ data.take HEADER_SIZE = putHeader header.type header.payloadSize ∧
      header.payloadSize < 2 ^ 16 := by
  unfold decodeHeader at decoded
  split_ifs at decoded with short
  have length : (data.take HEADER_SIZE).length = HEADER_SIZE := List.length_take_of_le (not_lt.mp short)
  split at decoded
  · cases decoded
  rename_i typeRaw payloadSize left read
  split at decoded
  · cases decoded
  rename_i type known
  cases decoded
  obtain ⟨raw, afterType, takenType, read⟩ := read_of_bind read
  obtain ⟨size, afterSize, takenSize, read⟩ := read_of_bind read
  cases read
  obtain ⟨whole, _⟩ := putU8_get takenType
  obtain ⟨rfl, sizeFits⟩ := putU16_get takenSize
  have front : data.take HEADER_SIZE = putHeader type payloadSize ++ left := by
    rw [whole, MessageType.code_ofCode known, putHeader, List.append_assoc]
  have nothing : left = [] := by
    rw [front, List.length_append, putHeader_length] at length
    exact List.length_eq_zero_iff.mp (by omega)
  rw [nothing, List.append_nil] at front
  exact ⟨not_lt.mp short, front, sizeFits⟩

/-- What was encoded is decoded, whatever bytes follow it. -/
theorem decodeMessage_encode {message : Message} (fits : Representable message) (tail : List UInt8) :
    decodeMessage (encodeMessage message ++ tail) = .ok message := by
  have length := putHeader_length message.type (payloadSizeFor message.type)
  have read := readPayload_put [] fits
  rw [List.append_nil] at read
  rw [encodeMessage_eq, List.append_assoc, decodeMessage, decodeHeader_put (payloadSizeFor_lt _)]
  simp only [ne_eq, not_true_eq_false, if_false]
  rw [if_neg (by rw [List.length_append, List.length_append, length, payload_length]; omega), List.drop_left' length,
    List.take_left' (payload_length message), read]

/-- What decodes starts with the encoding of what it decodes to, and the header announces
exactly that encoding. -/
theorem encodeMessage_decode {data : List UInt8} {message : Message} (decoded : decodeMessage data = .ok message) :
    Representable message ∧ ∃ header, decodeHeader data = .ok header ∧ HEADER_SIZE + header.payloadSize ≤ data.length ∧
      data.take (HEADER_SIZE + header.payloadSize) = encodeMessage message := by
  unfold decodeMessage at decoded
  split at decoded
  · cases decoded
  rename_i header decodedHeader
  split_ifs at decoded with size short
  split at decoded
  · cases decoded
  rename_i result left read
  subst decoded
  obtain ⟨type, same, fits⟩ := readPayload_get read
  obtain ⟨_, front, _⟩ := decodeHeader_ok decodedHeader
  have size : header.payloadSize = payloadSizeFor header.type := not_not.mp size
  have length : ((data.drop HEADER_SIZE).take header.payloadSize).length = header.payloadSize := by
    rw [List.length_take_of_le]
    rw [List.length_drop]
    omega
  have nothing : left = [] := by
    rw [same, List.length_append, payload_length, type, ← size] at length
    exact List.length_eq_zero_iff.mp (by omega)
  refine ⟨fits, header, decodedHeader, not_lt.mp short, ?_⟩
  rw [List.take_add, front, same, nothing, List.append_nil, encodeMessage_eq, type, size]

theorem decodeHeader_append {data : List UInt8} (enough : HEADER_SIZE ≤ data.length) (tail : List UInt8) :
    decodeHeader (data ++ tail) = decodeHeader data := by
  unfold decodeHeader
  rw [if_neg (by rw [List.length_append]; omega), if_neg (by omega), List.take_append_of_le_length enough]

/-- Nothing after the announced frame is looked at. -/
theorem decodeMessage_append {frame : List UInt8} {header : Header} (decoded : decodeHeader frame = .ok header)
    (whole : HEADER_SIZE + header.payloadSize ≤ frame.length) (tail : List UInt8) :
    decodeMessage (frame ++ tail) = decodeMessage frame := by
  unfold decodeMessage
  rw [decodeHeader_append (decodeHeader_ok decoded).1, decoded]
  have enough : header.payloadSize ≤ (frame.drop HEADER_SIZE).length := by
    rw [List.length_drop]
    omega
  have longer : ¬ (frame ++ tail).length < HEADER_SIZE + header.payloadSize := by
    rw [List.length_append]
    omega
  simp only [if_neg longer, if_neg (not_lt.mpr whole)]
  rw [List.drop_append_of_le_length (decodeHeader_ok decoded).1, List.take_append_of_le_length enough]

/-- The codec is a bijection between the messages and the frames that decode: each message is
read back from its encoding, what is read was encoded from it, every other byte string is
refused, and what lies behind the announced frame is never looked at. -/
theorem orderEntry_codec :
    (∀ message tail, Representable message → decodeMessage (encodeMessage message ++ tail) = .ok message) ∧
    (∀ data message, decodeMessage data = .ok message → Representable message ∧
      ∃ header, decodeHeader data = .ok header ∧ HEADER_SIZE + header.payloadSize ≤ data.length ∧
        data.take (HEADER_SIZE + header.payloadSize) = encodeMessage message) ∧
    (∀ data, (∀ message, Representable message → ¬ encodeMessage message <+: data) →
      ∃ error, decodeMessage data = .error error) ∧
    ∀ frame header tail, decodeHeader frame = .ok header → HEADER_SIZE + header.payloadSize ≤ frame.length →
      decodeMessage (frame ++ tail) = decodeMessage frame := by
  refine ⟨fun message tail fits => decodeMessage_encode fits tail, fun data message => encodeMessage_decode,
    fun data none => ?_, fun frame header tail decoded whole => decodeMessage_append decoded whole tail⟩
  cases decoded : decodeMessage data with
  | error error => exact ⟨error, rfl⟩
  | ok message =>
    obtain ⟨fits, header, _, _, same⟩ := encodeMessage_decode decoded
    exact absurd (same ▸ List.take_prefix _ data) (none message fits)

/-- A cancel with a byte after it, and no bytes at all. -/
theorem orderEntry_codec_cancel :
    let cancel : Message := .cancelOrder { accountId := 7, clientOrderId := 300, instrumentId := 1 }
    decodeMessage (encodeMessage cancel ++ [9]) = .ok cancel ∧
      (encodeMessage cancel ++ [9]).take 23 = encodeMessage cancel ∧
      (∃ error, decodeMessage [] = .error error) ∧
      decodeMessage (encodeMessage cancel ++ [9]) = decodeMessage (encodeMessage cancel) := by
  obtain ⟨written, read, refused, bounded⟩ := orderEntry_codec
  have cancelled := written (.cancelOrder { accountId := 7, clientOrderId := 300, instrumentId := 1 }) [9] (by decide)
  refine ⟨cancelled, ?_, refused [] ?_, bounded _ { type := .cancelOrder, payloadSize := 20 } [9] (by rfl) (by decide)⟩
  · obtain ⟨_, header, decoded, _, same⟩ := read _ _ cancelled
    have size : header = { type := .cancelOrder, payloadSize := 20 } := by
      rw [decodeHeader_append (by decide)] at decoded
      exact (Except.ok.inj decoded).symm
    rw [size] at same
    exact same
  · intro message _ front
    have empty := congrArg List.length (List.prefix_nil.mp front)
    rw [encodeMessage_length] at empty
    exact absurd empty (by simp [HEADER_SIZE])

end Mdh.Gateway
