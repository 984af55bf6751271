import Mdh.Core.ByteIo
import Mdh.Core.Codes
import Mdh.Core.Messages

/-! The journal's frames: a header of twelve bytes, then a payload whose size goes with the
type. Every command that fits the wire's integers decodes to itself. -/

namespace Mdh.Persistence
open Mdh.Core Mdh.Core.ByteIo

def HEADER_SIZE : Nat := 12

inductive CommandMessageType where
  | newOrder
  | cancelOrder
  | replaceOrder
  | registerInstrument
  deriving DecidableEq, Repr

namespace CommandMessageType

def code : CommandMessageType → Nat
  | newOrder => 1
  | cancelOrder => 2
  | replaceOrder => 3
  | registerInstrument => 4

def ofCode : Nat → Option CommandMessageType
  | 1 => some newOrder
  | 2 => some cancelOrder
  | 3 => some replaceOrder
  | 4 => some registerInstrument
  | _ => none

end CommandMessageType

def payloadSizeFor : CommandMessageType → Nat
  | .newOrder => 8 + 8 + 4 + 1 + 8 + 8 + 1 + 1
  | .cancelOrder => 8 + 8 + 4
  | .replaceOrder => 8 + 8 + 8 + 4 + 8 + 8
  | .registerInstrument => 4

structure CommandHeader where
  type : CommandMessageType
  payloadSize : Nat
  commandSequence : Nat
  deriving DecidableEq, Repr

inductive CommandDecodeError where
  | truncatedHeader
  | truncatedPayload
  | invalidReserved
  | invalidMessageType
  | invalidMessageSize
  | invalidSide
  | invalidOrderType
  | invalidTimeInForce
  deriving DecidableEq, Repr

/-- What one frame of a journal turns into. -/
inductive DecodedFrame where
  | command (command : ExchangeCommand)
  | registration (instrumentId : InstrumentId)
  | error (error : CommandDecodeError)
  deriving DecidableEq, Repr

def putHeader (type : CommandMessageType) (commandSequence : Nat) (payloadSize : Nat) : List UInt8 :=
  putU8 type.code ++ putU8 0 ++ putU16 payloadSize ++ putU64 commandSequence

def newOrderPayload (command : NewOrderCommand) : List UInt8 :=
  putU64 command.accountId ++ putU64 command.clientOrderId ++ putU32 command.instrumentId ++ putU8 command.side.code ++
    putI64 command.price ++ putU64 command.quantity ++ putU8 command.orderType.code ++ putU8 command.timeInForce.code

def cancelOrderPayload (command : CancelOrderCommand) : List UInt8 :=
  putU64 command.accountId ++ putU64 command.clientOrderId ++ putU32 command.instrumentId

def replaceOrderPayload (command : ReplaceOrderCommand) : List UInt8 :=
  putU64 command.accountId ++ putU64 command.originalClientOrderId ++ putU64 command.newClientOrderId ++
    putU32 command.instrumentId ++ putI64 command.newPrice ++ putU64 command.newQuantity

def encodeCommand : ExchangeCommand → List UInt8
  | .newOrder command =>
      putHeader .newOrder command.commandSequence (payloadSizeFor .newOrder) ++ newOrderPayload command
  | .cancelOrder command =>
      putHeader .cancelOrder command.commandSequence (payloadSizeFor .cancelOrder) ++ cancelOrderPayload command
  | .replaceOrder command =>
      putHeader .replaceOrder command.commandSequence (payloadSizeFor .replaceOrder) ++ replaceOrderPayload command

def encodeRegisterInstrument (instrumentId : InstrumentId) : List UInt8 :=
  putHeader .registerInstrument 0 (payloadSizeFor .registerInstrument) ++ putU32 instrumentId

/-- The four fields of a header, before any of them is looked at. -/
def readHeader : ByteReader (Nat × Nat × Nat × Nat) := do
  let typeRaw ← getU8
  let reserved ← getU8
  let payloadSize ← getU16
  let commandSequence ← getU64
  return (typeRaw, reserved, payloadSize, commandSequence)

def decodeCommandHeader (data : List UInt8) : Except CommandDecodeError CommandHeader :=
  if data.length < HEADER_SIZE then .error .truncatedHeader
  else
    match readHeader (data.take HEADER_SIZE) with
    | none => .error .truncatedHeader
    | some ((typeRaw, reserved, payloadSize, commandSequence), _) =>
        if reserved ≠ 0 then .error .invalidReserved
        else
          match CommandMessageType.ofCode typeRaw with
          | none => .error .invalidMessageType
          | some type => .ok { type, payloadSize, commandSequence }

def readNewOrder (commandSequence : Nat) : ByteReader DecodedFrame := do
  let accountId ← getU64
  let clientOrderId ← getU64
  let instrumentId ← getU32
  let sideRaw ← getU8
  let price ← getI64
  let quantity ← getU64
  let orderTypeRaw ← getU8
  let tifRaw ← getU8
  return match Side.ofCode sideRaw, Core.OrderType.ofCode orderTypeRaw, TimeInForce.ofCode tifRaw with
    | none, _, _ => .error .invalidSide
    | some _, none, _ => .error .invalidOrderType
    | some _, some _, none => .error .invalidTimeInForce
    | some side, some orderType, some timeInForce => .command (.newOrder {
        commandSequence, accountId, clientOrderId, instrumentId, side, price, quantity, orderType, timeInForce })

def readCancelOrder (commandSequence : Nat) : ByteReader DecodedFrame := do
  let accountId ← getU64
  let clientOrderId ← getU64
  let instrumentId ← getU32
  return .command (.cancelOrder { commandSequence, accountId, clientOrderId, instrumentId })

def readReplaceOrder (commandSequence : Nat) : ByteReader DecodedFrame := do
  let accountId ← getU64
  let originalClientOrderId ← getU64
  let newClientOrderId ← getU64
  let instrumentId ← getU32
  let newPrice ← getI64
  let newQuantity ← getU64
  return .command (.replaceOrder {
    commandSequence, accountId, originalClientOrderId, newClientOrderId, instrumentId, newPrice, newQuantity })

def readRegisterInstrument : ByteReader DecodedFrame := do
  let instrumentId ← getU32
  return .registration instrumentId

def readPayload (header : CommandHeader) : ByteReader DecodedFrame :=
  match header.type with
  | .newOrder => readNewOrder header.commandSequence
  | .cancelOrder => readCancelOrder header.commandSequence
  | .replaceOrder => readReplaceOrder header.commandSequence
  | .registerInstrument => readRegisterInstrument

/-- A whole frame: the header's bytes and then the payload's. -/
def decodeJournalFrame (data : List UInt8) : DecodedFrame :=
  match decodeCommandHeader data with
  | .error error => .error error
  | .ok header =>
      if header.payloadSize ≠ payloadSizeFor header.type then .error .invalidMessageSize
      else if data.length < HEADER_SIZE + header.payloadSize then .error .truncatedPayload
      else
        match readPayload header ((data.drop HEADER_SIZE).take header.payloadSize) with
        | none => .error .truncatedPayload
        | some (frame, _) => frame

/-- The fields fit the types the source gives them. -/
def Representable : ExchangeCommand → Prop
  | .newOrder command => command.commandSequence < 2 ^ 64 ∧ command.accountId < 2 ^ 64 ∧
      command.clientOrderId < 2 ^ 64 ∧ command.instrumentId < 2 ^ 32 ∧ Rounding.InRange command.price ∧
      command.quantity < 2 ^ 64
  | .cancelOrder command => command.commandSequence < 2 ^ 64 ∧ command.accountId < 2 ^ 64 ∧
      command.clientOrderId < 2 ^ 64 ∧ command.instrumentId < 2 ^ 32
  | .replaceOrder command => command.commandSequence < 2 ^ 64 ∧ command.accountId < 2 ^ 64 ∧
      command.originalClientOrderId < 2 ^ 64 ∧ command.newClientOrderId < 2 ^ 64 ∧ command.instrumentId < 2 ^ 32 ∧
      Rounding.InRange command.newPrice ∧ command.newQuantity < 2 ^ 64

instance : DecidablePred Representable := fun command => by
  cases command <;> unfold Representable <;> infer_instance

section Header
variable {type : CommandMessageType} {commandSequence payloadSize : Nat}

@[simp] theorem CommandMessageType.ofCode_code (type : CommandMessageType) : ofCode type.code = some type := by
  cases type <;> rfl

theorem CommandMessageType.code_lt (type : CommandMessageType) : type.code < 2 ^ 8 := by cases type <;> decide

theorem putHeader_length (type : CommandMessageType) (commandSequence payloadSize : Nat) :
    (putHeader type commandSequence payloadSize).length = HEADER_SIZE := by
  simp only [putHeader, putU8, putU16, putU64, List.length_append, Lib.BigEndian.put_length]
  rfl

theorem readHeader_put (sequenceFits : commandSequence < 2 ^ 64) (sizeFits : payloadSize < 2 ^ 16) (rest : List UInt8) :
    readHeader (putHeader type commandSequence payloadSize ++ rest) =
      some ((type.code, 0, payloadSize, commandSequence), rest) := by
  simp only [putHeader, List.append_assoc]
  rw [readHeader, bind_of_read (getU8_put _ type.code_lt), bind_of_read (getU8_put _ (by decide)),
    bind_of_read (getU16_put _ sizeFits), bind_of_read (getU64_put _ sequenceFits)]
  rfl

theorem decodeCommandHeader_put (sequenceFits : commandSequence < 2 ^ 64) (sizeFits : payloadSize < 2 ^ 16)
    (rest : List UInt8) :
    decodeCommandHeader (putHeader type commandSequence payloadSize ++ rest) =
      .ok { type, payloadSize, commandSequence } := by
  have length := putHeader_length type commandSequence payloadSize
  have read : readHeader (putHeader type commandSequence payloadSize ++ []) = _ := readHeader_put sequenceFits sizeFits []
  rw [List.append_nil] at read
  unfold decodeCommandHeader
  rw [if_neg (by rw [List.length_append, length]; omega), List.take_left' length, read]
  simp

end Header

section Payloads
variable (rest : List UInt8)

theorem readNewOrder_put (command : NewOrderCommand) (fits : Representable (.newOrder command)) :
    readNewOrder command.commandSequence (newOrderPayload command ++ rest) = some (.command (.newOrder command), rest) := by
  obtain ⟨_, account, client, instrument, price, quantity⟩ := fits
  simp only [newOrderPayload, List.append_assoc]
  rw [readNewOrder, bind_of_read (getU64_put _ account), bind_of_read (getU64_put _ client),
    bind_of_read (getU32_put _ instrument), bind_of_read (getU8_put _ command.side.code_lt),
    bind_of_read (getI64_put _ price), bind_of_read (getU64_put _ quantity),
    bind_of_read (getU8_put _ command.orderType.code_lt), bind_of_read (getU8_put _ command.timeInForce.code_lt),
    Side.ofCode_code, Core.OrderType.ofCode_code, TimeInForce.ofCode_code]
  rfl

theorem readCancelOrder_put (command : CancelOrderCommand) (fits : Representable (.cancelOrder command)) :
    readCancelOrder command.commandSequence (cancelOrderPayload command ++ rest) =
      some (.command (.cancelOrder command), rest) := by
  obtain ⟨_, account, client, instrument⟩ := fits
  simp only [cancelOrderPayload, List.append_assoc]
  rw [readCancelOrder, bind_of_read (getU64_put _ account), bind_of_read (getU64_put _ client),
    bind_of_read (getU32_put _ instrument)]
  rfl

theorem readReplaceOrder_put (command : ReplaceOrderCommand) (fits : Representable (.replaceOrder command)) :
    readReplaceOrder command.commandSequence (replaceOrderPayload command ++ rest) =
      some (.command (.replaceOrder command), rest) := by
  obtain ⟨_, account, original, new, instrument, price, quantity⟩ := fits
  simp only [replaceOrderPayload, List.append_assoc]
  rw [readReplaceOrder, bind_of_read (getU64_put _ account), bind_of_read (getU64_put _ original),
    bind_of_read (getU64_put _ new), bind_of_read (getU32_put _ instrument), bind_of_read (getI64_put _ price),
    bind_of_read (getU64_put _ quantity)]
  rfl

theorem readRegisterInstrument_put {instrumentId : InstrumentId} (fits : instrumentId < 2 ^ 32) :
    readRegisterInstrument (putU32 instrumentId ++ rest) = some (.registration instrumentId, rest) := by
  rw [readRegisterInstrument, bind_of_read (getU32_put _ fits)]
  rfl

end Payloads

section Frames
variable {type : CommandMessageType} {commandSequence : Nat} {payload : List UInt8} {frame : DecodedFrame}

/-- The bytes of one frame of a journal, and what they stand for. -/
structure Frames (type : CommandMessageType) (commandSequence : Nat) (payload : List UInt8) (frame : DecodedFrame) :
    Prop where
  sequence : commandSequence < 2 ^ 64
  size : payload.length = payloadSizeFor type
  read : readPayload { type, payloadSize := payloadSizeFor type, commandSequence } payload = some (frame, [])

theorem payloadSizeFor_lt (type : CommandMessageType) : payloadSizeFor type < 2 ^ 16 := by
  cases type <;> decide

theorem Frames.decodes (frames : Frames type commandSequence payload frame) :
    decodeJournalFrame (putHeader type commandSequence (payloadSizeFor type) ++ payload) = frame := by
  have length := putHeader_length type commandSequence (payloadSizeFor type)
  unfold decodeJournalFrame
  rw [decodeCommandHeader_put frames.sequence (payloadSizeFor_lt type)]
  simp only [ne_eq, not_true_eq_false, if_false]
  rw [if_neg (by rw [List.length_append, length, frames.size]; omega), List.drop_left' length, ← frames.size,
    List.take_length, frames.size, frames.read]

theorem newOrder_frames (command : NewOrderCommand) (fits : Representable (.newOrder command)) :
    Frames .newOrder command.commandSequence (newOrderPayload command) (.command (.newOrder command)) where
  sequence := fits.1
  size := by simp [newOrderPayload, putU64, putU32, putU8, putI64, payloadSizeFor]
  read := by
    have read := readNewOrder_put [] command fits
    rwa [List.append_nil] at read

theorem cancelOrder_frames (command : CancelOrderCommand) (fits : Representable (.cancelOrder command)) :
    Frames .cancelOrder command.commandSequence (cancelOrderPayload command) (.command (.cancelOrder command)) where
  sequence := fits.1
  size := by simp [cancelOrderPayload, putU64, putU32, payloadSizeFor]
  read := by
    have read := readCancelOrder_put [] command fits
    rwa [List.append_nil] at read

theorem replaceOrder_frames (command : ReplaceOrderCommand) (fits : Representable (.replaceOrder command)) :
    Frames .replaceOrder command.commandSequence (replaceOrderPayload command) (.command (.replaceOrder command)) where
  sequence := fits.1
  size := by simp [replaceOrderPayload, putU64, putU32, putI64, payloadSizeFor]
  read := by
    have read := readReplaceOrder_put [] command fits
    rwa [List.append_nil] at read

theorem registerInstrument_frames {instrumentId : InstrumentId} (fits : instrumentId < 2 ^ 32) :
    Frames .registerInstrument 0 (putU32 instrumentId) (.registration instrumentId) where
  sequence := by decide
  size := by simp [putU32, payloadSizeFor]
  read := by
    have read := readRegisterInstrument_put [] fits
    rwa [List.append_nil] at read

end Frames

end Mdh.Persistence
