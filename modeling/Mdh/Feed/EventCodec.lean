import Mdh.Core.ByteIo
import Mdh.Core.Codes
import Mdh.Feed.MarketDataPublisher

/-! The market data protocol on the wire: a header of twenty bytes in front of every event. -/

namespace Mdh.Feed
open Mdh.Core Mdh.Core.ByteIo

/-- Type, reserved, payload size, sequence number and timestamp. -/
def HEADER_SIZE : Nat := 20

inductive MessageType where
  | addOrder
  | cancelOrder
  | modifyOrder
  | trade
  | clearBook
  deriving DecidableEq, Repr

namespace MessageType

def code : MessageType → Nat
  | addOrder => 1
  | cancelOrder => 2
  | modifyOrder => 3
  | trade => 4
  | clearBook => 5

def ofCode : Nat → Option MessageType
  | 1 => some addOrder
  | 2 => some cancelOrder
  | 3 => some modifyOrder
  | 4 => some trade
  | 5 => some clearBook
  | _ => none

@[simp] theorem ofCode_code (type : MessageType) : ofCode type.code = some type := by cases type <;> rfl

theorem code_lt (type : MessageType) : type.code < 2 ^ 8 := by cases type <;> decide

theorem code_ofCode {raw : Nat} {type : MessageType} (known : ofCode raw = some type) : raw = type.code := by
  unfold ofCode at known
  split at known <;> cases known <;> rfl

end MessageType

structure Header where
  type : MessageType
  payloadSize : Nat
  sequenceNumber : Nat
  timestamp : Nat
  deriving DecidableEq, Repr

def payloadSizeFor : MessageType → Nat
  | .addOrder => 8 + 4 + 8 + 8 + 1
  | .cancelOrder => 8 + 4
  | .modifyOrder => 8 + 4 + 8 + 8
  | .trade => 4 + 8 + 8 + 1
  | .clearBook => 4

inductive DecodeError where
  | truncatedHeader
  | truncatedPayload
  | invalidReserved
  | invalidMessageType
  | invalidMessageSize
  | invalidSide
  deriving DecidableEq, Repr

def DecodeError.toString : DecodeError → String
  | truncatedHeader => "TruncatedHeader"
  | truncatedPayload => "TruncatedPayload"
  | invalidReserved => "InvalidReserved"
  | invalidMessageType => "InvalidMessageType"
  | invalidMessageSize => "InvalidMessageSize"
  | invalidSide => "InvalidSide"

def putHeader (type : MessageType) (sequenceNumber timestamp payloadSize : Nat) : List UInt8 :=
  putU8 type.code ++ putU8 0 ++ putU16 payloadSize ++ putU64 sequenceNumber ++ putU64 timestamp

def addOrderPayload (message : AddOrder) : List UInt8 :=
  putU64 message.orderId ++ putU32 message.instrumentId ++ putI64 message.price ++ putU64 message.quantity ++
    putU8 message.side.code

def cancelOrderPayload (message : CancelOrder) : List UInt8 := putU64 message.orderId ++ putU32 message.instrumentId

def modifyOrderPayload (message : ModifyOrder) : List UInt8 :=
  putU64 message.orderId ++ putU32 message.instrumentId ++ putI64 message.newPrice ++ putU64 message.newQuantity

def tradePayload (message : Trade) : List UInt8 :=
  putU32 message.instrumentId ++ putI64 message.price ++ putU64 message.quantity ++ putU8 message.aggressorSide.code

def clearBookPayload (message : ClearBook) : List UInt8 := putU32 message.instrumentId

def encodeEvent : WireEvent → List UInt8
  | .addOrder message => putHeader .addOrder message.sequenceNumber message.timestamp (payloadSizeFor .addOrder) ++
      addOrderPayload message
  | .cancelOrder message =>
      putHeader .cancelOrder message.sequenceNumber message.timestamp (payloadSizeFor .cancelOrder) ++
        cancelOrderPayload message
  | .modifyOrder message =>
      putHeader .modifyOrder message.sequenceNumber message.timestamp (payloadSizeFor .modifyOrder) ++
        modifyOrderPayload message
  | .trade message => putHeader .trade message.sequenceNumber message.timestamp (payloadSizeFor .trade) ++
      tradePayload message
  | .clearBook message => putHeader .clearBook message.sequenceNumber message.timestamp (payloadSizeFor .clearBook) ++
      clearBookPayload message

/-- The five fields of a header, before any of them is looked at. -/
def readHeader : ByteReader (Nat × Nat × Nat × Nat × Nat) := do
  let typeRaw ← getU8
  let reserved ← getU8
  let payloadSize ← getU16
  let seq ← getU64
  let ts ← getU64
  return (typeRaw, reserved, payloadSize, seq, ts)

def decodeHeader (data : List UInt8) : Except DecodeError Header :=
  if data.length < HEADER_SIZE then .error .truncatedHeader
  else
    match readHeader (data.take HEADER_SIZE) with
    | none => .error .truncatedHeader
    | some ((typeRaw, reserved, payloadSize, sequenceNumber, timestamp), _) =>
        if reserved ≠ 0 then .error .invalidReserved
        else
          match MessageType.ofCode typeRaw with
          | none => .error .invalidMessageType
          | some type => .ok { type, payloadSize, sequenceNumber, timestamp }

section Payloads
variable (sequenceNumber timestamp : Nat)

def readAddOrder : ByteReader (Except DecodeError WireEvent) := do
  let orderId ← getU64
  let instrumentId ← getU32
  let price ← getI64
  let quantity ← getU64
  let sideRaw ← getU8
  return match Side.ofCode sideRaw with
    | none => .error .invalidSide
    | some side => .ok (.addOrder { sequenceNumber, timestamp, orderId, instrumentId, price, quantity, side })

def readCancelOrder : ByteReader (Except DecodeError WireEvent) := do
  let orderId ← getU64
  let instrumentId ← getU32
  return .ok (.cancelOrder { sequenceNumber, timestamp, orderId, instrumentId })

def readModifyOrder : ByteReader (Except DecodeError WireEvent) := do
  let orderId ← getU64
  let instrumentId ← getU32
  let newPrice ← getI64
  let newQuantity ← getU64
  return .ok (.modifyOrder { sequenceNumber, timestamp, orderId, instrumentId, newPrice, newQuantity })

def readTrade : ByteReader (Except DecodeError WireEvent) := do
  let instrumentId ← getU32
  let price ← getI64
  let quantity ← getU64
  let sideRaw ← getU8
  return match Side.ofCode sideRaw with
    | none => .error .invalidSide
    | some aggressorSide => .ok (.trade { sequenceNumber, timestamp, instrumentId, price, quantity, aggressorSide })

def readClearBook : ByteReader (Except DecodeError WireEvent) := do
  let instrumentId ← getU32
  return .ok (.clearBook { sequenceNumber, timestamp, instrumentId })

end Payloads

def readPayload (header : Header) : ByteReader (Except DecodeError WireEvent) :=
  match header.type with
  | .addOrder => readAddOrder header.sequenceNumber header.timestamp
  | .cancelOrder => readCancelOrder header.sequenceNumber header.timestamp
  | .modifyOrder => readModifyOrder header.sequenceNumber header.timestamp
  | .trade => readTrade header.sequenceNumber header.timestamp
  | .clearBook => readClearBook header.sequenceNumber header.timestamp

def decodeEvent (data : List UInt8) : Except DecodeError WireEvent :=
  match decodeHeader data with
  | .error error => .error error
  | .ok header =>
      if header.payloadSize ≠ payloadSizeFor header.type then .error .invalidMessageSize
      else if data.length < HEADER_SIZE + header.payloadSize then .error .truncatedPayload
      else
        match readPayload header ((data.drop HEADER_SIZE).take header.payloadSize) with
        | none => .error .truncatedPayload
        | some (result, _) => result

/-- The fields fit the types the source gives them. -/
def WireEvent.Representable : WireEvent → Prop
  | .addOrder message => message.sequenceNumber < 2 ^ 64 ∧ message.timestamp < 2 ^ 64 ∧ message.orderId < 2 ^ 64 ∧
      message.instrumentId < 2 ^ 32 ∧ Rounding.InRange message.price ∧ message.quantity < 2 ^ 64
  | .cancelOrder message => message.sequenceNumber < 2 ^ 64 ∧ message.timestamp < 2 ^ 64 ∧ message.orderId < 2 ^ 64 ∧
      message.instrumentId < 2 ^ 32
  | .modifyOrder message => message.sequenceNumber < 2 ^ 64 ∧ message.timestamp < 2 ^ 64 ∧ message.orderId < 2 ^ 64 ∧
      message.instrumentId < 2 ^ 32 ∧ Rounding.InRange message.newPrice ∧ message.newQuantity < 2 ^ 64
  | .trade message => message.sequenceNumber < 2 ^ 64 ∧ message.timestamp < 2 ^ 64 ∧ message.instrumentId < 2 ^ 32 ∧
      Rounding.InRange message.price ∧ message.quantity < 2 ^ 64
  | .clearBook message =>
      message.sequenceNumber < 2 ^ 64 ∧ message.timestamp < 2 ^ 64 ∧ message.instrumentId < 2 ^ 32

instance : DecidablePred WireEvent.Representable := fun event => by
  cases event <;> unfold WireEvent.Representable <;> infer_instance

namespace WireEvent

/-- The header an event goes out under. -/
def header : WireEvent → Header
  | .addOrder message =>
      { type := .addOrder, payloadSize := payloadSizeFor .addOrder, sequenceNumber := message.sequenceNumber,
        timestamp := message.timestamp }
  | .cancelOrder message =>
      { type := .cancelOrder, payloadSize := payloadSizeFor .cancelOrder, sequenceNumber := message.sequenceNumber,
        timestamp := message.timestamp }
  | .modifyOrder message =>
      { type := .modifyOrder, payloadSize := payloadSizeFor .modifyOrder, sequenceNumber := message.sequenceNumber,
        timestamp := message.timestamp }
  | .trade message =>
      { type := .trade, payloadSize := payloadSizeFor .trade, sequenceNumber := message.sequenceNumber,
        timestamp := message.timestamp }
  | .clearBook message =>
      { type := .clearBook, payloadSize := payloadSizeFor .clearBook, sequenceNumber := message.sequenceNumber,
        timestamp := message.timestamp }

def payload : WireEvent → List UInt8
  | .addOrder message => addOrderPayload message
  | .cancelOrder message => cancelOrderPayload message
  | .modifyOrder message => modifyOrderPayload message
  | .trade message => tradePayload message
  | .clearBook message => clearBookPayload message

end WireEvent

section RoundTrip
variable (event : WireEvent)

theorem encodeEvent_eq : encodeEvent event =
    putHeader event.header.type event.header.sequenceNumber event.header.timestamp event.header.payloadSize ++
      event.payload := by
  cases event <;> rfl

theorem header_payloadSize : event.header.payloadSize = payloadSizeFor event.header.type := by cases event <;> rfl

theorem payload_length : event.payload.length = event.header.payloadSize := by
  cases event <;>
    simp [WireEvent.payload, WireEvent.header, addOrderPayload, cancelOrderPayload, modifyOrderPayload, tradePayload,
      clearBookPayload, putU64, putU32, putU8, putI64, payloadSizeFor]

theorem putHeader_length (type : MessageType) (sequenceNumber timestamp payloadSize : Nat) :
    (putHeader type sequenceNumber timestamp payloadSize).length = HEADER_SIZE := by
  simp only [putHeader, putU8, putU16, putU64, List.length_append, Lib.BigEndian.put_length]
  rfl

theorem encodeEvent_length : (encodeEvent event).length = HEADER_SIZE + event.header.payloadSize := by
  rw [encodeEvent_eq, List.length_append, putHeader_length, payload_length]

theorem payloadSizeFor_lt (type : MessageType) : payloadSizeFor type < 2 ^ 16 := by cases type <;> decide

variable {event}

theorem decodeHeader_encode (fits : event.Representable) (tail : List UInt8) :
    decodeHeader (putHeader event.header.type event.header.sequenceNumber event.header.timestamp
      event.header.payloadSize ++ tail) = .ok event.header := by
  have number : event.header.sequenceNumber < 2 ^ 64 := by cases event <;> exact fits.1
  have stamp : event.header.timestamp < 2 ^ 64 := by cases event <;> exact fits.2.1
  have size : event.header.payloadSize < 2 ^ 16 := by
    rw [header_payloadSize]
    exact payloadSizeFor_lt _
  have length := putHeader_length event.header.type event.header.sequenceNumber event.header.timestamp
    event.header.payloadSize
  have read : readHeader (putHeader event.header.type event.header.sequenceNumber event.header.timestamp
      event.header.payloadSize) = some ((event.header.type.code, 0, event.header.payloadSize,
        event.header.sequenceNumber, event.header.timestamp), []) := by
    rw [← List.append_nil (putHeader ..)]
    simp only [putHeader, List.append_assoc]
    rw [readHeader, bind_of_read (getU8_put _ event.header.type.code_lt), bind_of_read (getU8_put _ (by decide)),
      bind_of_read (getU16_put _ size), bind_of_read (getU64_put _ number), bind_of_read (getU64_put _ stamp)]
    rfl
  unfold decodeHeader
  rw [if_neg (by rw [List.length_append, length]; omega), List.take_left' length, read]
  simp

theorem readPayload_encode (fits : event.Representable) (rest : List UInt8) :
    readPayload event.header (event.payload ++ rest) = some (.ok event, rest) := by
  cases event with
  | addOrder message =>
    obtain ⟨_, _, order, instrument, price, quantity⟩ := fits
    simp only [WireEvent.payload, addOrderPayload, List.append_assoc, WireEvent.header, readPayload]
    rw [readAddOrder, bind_of_read (getU64_put _ order), bind_of_read (getU32_put _ instrument),
      bind_of_read (getI64_put _ price), bind_of_read (getU64_put _ quantity),
      bind_of_read (getU8_put _ message.side.code_lt), Side.ofCode_code]
    rfl
  | cancelOrder message =>
    obtain ⟨_, _, order, instrument⟩ := fits
    simp only [WireEvent.payload, cancelOrderPayload, List.append_assoc, WireEvent.header, readPayload]
    rw [readCancelOrder, bind_of_read (getU64_put _ order), bind_of_read (getU32_put _ instrument)]
    rfl
  | modifyOrder message =>
    obtain ⟨_, _, order, instrument, price, quantity⟩ := fits
    simp only [WireEvent.payload, modifyOrderPayload, List.append_assoc, WireEvent.header, readPayload]
    rw [readModifyOrder, bind_of_read (getU64_put _ order), bind_of_read (getU32_put _ instrument),
      bind_of_read (getI64_put _ price), bind_of_read (getU64_put _ quantity)]
    rfl
  | trade message =>
    obtain ⟨_, _, instrument, price, quantity⟩ := fits
    simp only [WireEvent.payload, tradePayload, List.append_assoc, WireEvent.header, readPayload]
    rw [readTrade, bind_of_read (getU32_put _ instrument), bind_of_read (getI64_put _ price),
      bind_of_read (getU64_put _ quantity), bind_of_read (getU8_put _ message.aggressorSide.code_lt), Side.ofCode_code]
    rfl
  | clearBook message =>
    obtain ⟨_, _, instrument⟩ := fits
    simp only [WireEvent.payload, clearBookPayload, WireEvent.header, readPayload]
    rw [readClearBook, bind_of_read (getU32_put _ instrument)]
    rfl

/-- What was encoded is decoded, whatever bytes follow it. -/
theorem decodeEvent_encode (fits : event.Representable) (tail : List UInt8) :
    decodeEvent (encodeEvent event ++ tail) = .ok event := by
  have length := putHeader_length event.header.type event.header.sequenceNumber event.header.timestamp
    event.header.payloadSize
  have read := readPayload_encode fits []
  rw [List.append_nil] at read
  rw [encodeEvent_eq, List.append_assoc, decodeEvent, decodeHeader_encode fits]
  simp only [header_payloadSize event, ne_eq, not_true_eq_false, if_false]
  rw [← header_payloadSize event, if_neg (by rw [List.length_append, List.length_append, length, payload_length]; omega),
    List.drop_left' length, List.take_left' (payload_length event), read]

end RoundTrip

section Read
variable {sequenceNumber timestamp : Nat} {bytes rest : List UInt8} {event : WireEvent}

theorem readAddOrder_get (numberFits : sequenceNumber < 2 ^ 64) (stampFits : timestamp < 2 ^ 64)
    (read : readAddOrder sequenceNumber timestamp bytes = some (.ok event, rest)) :
    ∃ message, event = .addOrder message ∧ message.sequenceNumber = sequenceNumber ∧ message.timestamp = timestamp ∧
      bytes = addOrderPayload message ++ rest ∧ event.Representable := by
  obtain ⟨order, afterOrder, takenOrder, read⟩ := read_of_bind read
  obtain ⟨instrument, afterInstrument, takenInstrument, read⟩ := read_of_bind read
  obtain ⟨price, afterPrice, takenPrice, read⟩ := read_of_bind read
  obtain ⟨quantity, afterQuantity, takenQuantity, read⟩ := read_of_bind read
  obtain ⟨sideRaw, afterSide, takenSide, read⟩ := read_of_bind read
  obtain ⟨checked, rfl⟩ := Prod.mk.inj (Option.some.inj read)
  cases known : Side.ofCode sideRaw with
  | none =>
    rw [known] at checked
    cases checked
  | some side =>
    rw [known] at checked
    cases checked
    obtain rfl := Side.code_ofCode known
    obtain ⟨rfl, orderFits⟩ := putU64_get takenOrder
    obtain ⟨rfl, instrumentFits⟩ := putU32_get takenInstrument
    obtain ⟨rfl, priceFits⟩ := putI64_get takenPrice
    obtain ⟨rfl, quantityFits⟩ := putU64_get takenQuantity
    obtain ⟨rfl, _⟩ := putU8_get takenSide
    exact ⟨_, rfl, rfl, rfl, by simp only [addOrderPayload, List.append_assoc], numberFits, stampFits, orderFits,
      instrumentFits, priceFits, quantityFits⟩

theorem readCancelOrder_get (numberFits : sequenceNumber < 2 ^ 64) (stampFits : timestamp < 2 ^ 64)
    (read : readCancelOrder sequenceNumber timestamp bytes = some (.ok event, rest)) :
    ∃ message, event = .cancelOrder message ∧ message.sequenceNumber = sequenceNumber ∧ message.timestamp = timestamp ∧
      bytes = cancelOrderPayload message ++ rest ∧ event.Representable := by
  obtain ⟨order, afterOrder, takenOrder, read⟩ := read_of_bind read
  obtain ⟨instrument, afterInstrument, takenInstrument, read⟩ := read_of_bind read
  cases read
  obtain ⟨rfl, orderFits⟩ := putU64_get takenOrder
  obtain ⟨rfl, instrumentFits⟩ := putU32_get takenInstrument
  exact ⟨_, rfl, rfl, rfl, by simp only [cancelOrderPayload, List.append_assoc], numberFits, stampFits, orderFits,
    instrumentFits⟩

theorem readModifyOrder_get (numberFits : sequenceNumber < 2 ^ 64) (stampFits : timestamp < 2 ^ 64)
    (read : readModifyOrder sequenceNumber timestamp bytes = some (.ok event, rest)) :
    ∃ message, event = .modifyOrder message ∧ message.sequenceNumber = sequenceNumber ∧ message.timestamp = timestamp ∧
      bytes = modifyOrderPayload message ++ rest ∧ event.Representable := by
  obtain ⟨order, afterOrder, takenOrder, read⟩ := read_of_bind read
  obtain ⟨instrument, afterInstrument, takenInstrument, read⟩ := read_of_bind read
  obtain ⟨price, afterPrice, takenPrice, read⟩ := read_of_bind read
  obtain ⟨quantity, afterQuantity, takenQuantity, read⟩ := read_of_bind read
  cases read
  obtain ⟨rfl, orderFits⟩ := putU64_get takenOrder
  obtain ⟨rfl, instrumentFits⟩ := putU32_get takenInstrument
  obtain ⟨rfl, priceFits⟩ := putI64_get takenPrice
  obtain ⟨rfl, quantityFits⟩ := putU64_get takenQuantity
  exact ⟨_, rfl, rfl, rfl, by simp only [modifyOrderPayload, List.append_assoc], numberFits, stampFits, orderFits,
    instrumentFits, priceFits, quantityFits⟩

theorem readTrade_get (numberFits : sequenceNumber < 2 ^ 64) (stampFits : timestamp < 2 ^ 64)
    (read : readTrade sequenceNumber timestamp bytes = some (.ok event, rest)) :
    ∃ message, event = .trade message ∧ message.sequenceNumber = sequenceNumber ∧ message.timestamp = timestamp ∧
      bytes = tradePayload message ++ rest ∧ event.Representable := by
  obtain ⟨instrument, afterInstrument, takenInstrument, read⟩ := read_of_bind read
  obtain ⟨price, afterPrice, takenPrice, read⟩ := read_of_bind read
  obtain ⟨quantity, afterQuantity, takenQuantity, read⟩ := read_of_bind read
  obtain ⟨sideRaw, afterSide, takenSide, read⟩ := read_of_bind read
  obtain ⟨checked, rfl⟩ := Prod.mk.inj (Option.some.inj read)
  cases known : Side.ofCode sideRaw with
  | none =>
    rw [known] at checked
    cases checked
  | some side =>
    rw [known] at checked
    cases checked
    obtain rfl := Side.code_ofCode known
    obtain ⟨rfl, instrumentFits⟩ := putU32_get takenInstrument
    obtain ⟨rfl, priceFits⟩ := putI64_get takenPrice
    obtain ⟨rfl, quantityFits⟩ := putU64_get takenQuantity
    obtain ⟨rfl, _⟩ := putU8_get takenSide
    exact ⟨_, rfl, rfl, rfl, by simp only [tradePayload, List.append_assoc], numberFits, stampFits, instrumentFits,
      priceFits, quantityFits⟩

theorem readClearBook_get (numberFits : sequenceNumber < 2 ^ 64) (stampFits : timestamp < 2 ^ 64)
    (read : readClearBook sequenceNumber timestamp bytes = some (.ok event, rest)) :
    ∃ message, event = .clearBook message ∧ message.sequenceNumber = sequenceNumber ∧ message.timestamp = timestamp ∧
      bytes = clearBookPayload message ++ rest ∧ event.Representable := by
  obtain ⟨instrument, afterInstrument, takenInstrument, read⟩ := read_of_bind read
  cases read
  obtain ⟨rfl, instrumentFits⟩ := putU32_get takenInstrument
  exact ⟨_, rfl, rfl, rfl, rfl, numberFits, stampFits, instrumentFits⟩

theorem readPayload_get {header : Header} (numberFits : header.sequenceNumber < 2 ^ 64)
    (stampFits : header.timestamp < 2 ^ 64) (sized : header.payloadSize = payloadSizeFor header.type)
    (read : readPayload header bytes = some (.ok event, rest)) :
    event.header = header ∧ bytes = event.payload ++ rest ∧ event.Representable := by
  obtain ⟨type, payloadSize, sequenceNumber, timestamp⟩ := header
  obtain rfl : payloadSize = payloadSizeFor type := sized
  cases type with
  | addOrder =>
    obtain ⟨_, rfl, rfl, rfl, same, fits⟩ := readAddOrder_get numberFits stampFits read
    exact ⟨rfl, same, fits⟩
  | cancelOrder =>
    obtain ⟨_, rfl, rfl, rfl, same, fits⟩ := readCancelOrder_get numberFits stampFits read
    exact ⟨rfl, same, fits⟩
  | modifyOrder =>
    obtain ⟨_, rfl, rfl, rfl, same, fits⟩ := readModifyOrder_get numberFits stampFits read
    exact ⟨rfl, same, fits⟩
  | trade =>
    obtain ⟨_, rfl, rfl, rfl, same, fits⟩ := readTrade_get numberFits stampFits read
    exact ⟨rfl, same, fits⟩
  | clearBook =>
    obtain ⟨_, rfl, rfl, rfl, same, fits⟩ := readClearBook_get numberFits stampFits read
    exact ⟨rfl, same, fits⟩

/-- A header that decodes is the twenty bytes the encoder would write for it. -/
theorem decodeHeader_ok {data : List UInt8} {header : Header} (decoded : decodeHeader data = .ok header) :
    HEADER_SIZE ≤ data.length ∧
      data.take HEADER_SIZE = putHeader header.type header.sequenceNumber header.timestamp header.payloadSize ∧
      header.sequenceNumber < 2 ^ 64 ∧ header.timestamp < 2 ^ 64 ∧ header.payloadSize < 2 ^ 16 := by
  unfold decodeHeader at decoded
  split_ifs at decoded with short
  have length : (data.take HEADER_SIZE).length = HEADER_SIZE := List.length_take_of_le (not_lt.mp short)
  split at decoded
  · cases decoded
  rename_i typeRaw reserved payloadSize sequenceNumber timestamp left read
  split_ifs at decoded with set
  split at decoded
  · cases decoded
  rename_i type known
  cases decoded
  obtain ⟨raw, afterType, takenType, read⟩ := read_of_bind read
  obtain ⟨flags, afterReserved, takenReserved, read⟩ := read_of_bind read
  obtain ⟨size, afterSize, takenSize, read⟩ := read_of_bind read
  obtain ⟨number, afterNumber, takenNumber, read⟩ := read_of_bind read
  obtain ⟨stamp, afterStamp, takenStamp, read⟩ := read_of_bind read
  cases read
  obtain ⟨whole, _⟩ := putU8_get takenType
  obtain ⟨rfl, _⟩ := putU8_get takenReserved
  obtain ⟨rfl, sizeFits⟩ := putU16_get takenSize
  obtain ⟨rfl, numberFits⟩ := putU64_get takenNumber
  obtain ⟨rfl, stampFits⟩ := putU64_get takenStamp
  obtain rfl : reserved = 0 := not_not.mp set
  have front : data.take HEADER_SIZE = putHeader type sequenceNumber timestamp payloadSize ++ left := by
    rw [whole, MessageType.code_ofCode known]
    simp only [putHeader, List.append_assoc]
  have nothing : left = [] := by
    rw [front, List.length_append, putHeader_length] at length
    exact List.length_eq_zero_iff.mp (by omega)
  rw [nothing, List.append_nil] at front
  exact ⟨not_lt.mp short, front, numberFits, stampFits, sizeFits⟩

/-- What decodes starts with the encoding of what it decodes to, and the header announces
exactly that encoding. -/
theorem encodeEvent_decode {data : List UInt8} (decoded : decodeEvent data = .ok event) :
    event.Representable ∧ decodeHeader data = .ok event.header ∧ encodeEvent event <+: data := by
  unfold decodeEvent at decoded
  split at decoded
  · cases decoded
  rename_i header decodedHeader
  split_ifs at decoded with size short
  split at decoded
  · cases decoded
  rename_i result left read
  subst decoded
  obtain ⟨_, front, numberFits, stampFits, _⟩ := decodeHeader_ok decodedHeader
  obtain ⟨rfl, same, fits⟩ := readPayload_get numberFits stampFits (not_not.mp size) read
  have length : ((data.drop HEADER_SIZE).take event.header.payloadSize).length = event.header.payloadSize := by
    rw [List.length_take_of_le]
    rw [List.length_drop]
    omega
  have nothing : left = [] := by
    rw [same, List.length_append, payload_length] at length
    exact List.length_eq_zero_iff.mp (by omega)
  have taken : data.take (HEADER_SIZE + event.header.payloadSize) = encodeEvent event := by
    rw [List.take_add, front, same, nothing, List.append_nil, encodeEvent_eq]
  exact ⟨fits, decodedHeader, taken ▸ List.take_prefix _ data⟩

theorem decodeHeader_append {data : List UInt8} (enough : HEADER_SIZE ≤ data.length) (tail : List UInt8) :
    decodeHeader (data ++ tail) = decodeHeader data := by
  unfold decodeHeader
  rw [if_neg (by rw [List.length_append]; omega), if_neg (by omega), List.take_append_of_le_length enough]

end Read

end Mdh.Feed
