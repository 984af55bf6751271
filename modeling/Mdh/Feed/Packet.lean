import Mdh.Feed.EventCodec

/-! Datagrams: a packet header, and then as many event frames as it announces. Finding the frames
and decoding them are two things: a frame whose content is wrong does not lose the packet. -/

namespace Mdh.Feed
open Mdh.Core Mdh.Core.ByteIo

def PACKET_MAGIC : Nat := 0x4D444831

def PACKET_VERSION : Nat := 1

def PACKET_HEADER_SIZE : Nat := 20

structure PacketHeader where
  magic : Nat
  version : Nat
  frameCount : Nat
  packetSequence : Nat
  payloadLength : Nat
  deriving DecidableEq, Repr

inductive PacketError where
  | truncatedHeader
  | invalidMagic
  | invalidVersion
  | zeroFrameCount
  | payloadLengthMismatch
  | innerFrameHeaderInvalid
  | frameCountMismatch
  deriving DecidableEq, Repr

def putPacketHeader (header : PacketHeader) : List UInt8 :=
  putU32 header.magic ++ putU16 header.version ++ putU16 header.frameCount ++ putU64 header.packetSequence ++
    putU32 header.payloadLength

def packFrames (packetSequence : Nat) (events : List WireEvent) : List UInt8 :=
  let payload := events.flatMap encodeEvent
  putPacketHeader {
    magic := PACKET_MAGIC, version := PACKET_VERSION, frameCount := events.length, packetSequence
    payloadLength := payload.length } ++ payload

structure UnpackedPacket where
  header : PacketHeader
  frames : List (Except DecodeError WireEvent)
  deriving DecidableEq, Repr

def readPacketHeader : ByteReader PacketHeader := do
  let magic ← getU32
  let version ← getU16
  let frameCount ← getU16
  let packetSequence ← getU64
  let payloadLength ← getU32
  return { magic, version, frameCount, packetSequence, payloadLength }

/-- Takes the frames off one after the other: what each decodes to, and the offset behind them. -/
def unpackLoop (remaining : List UInt8) :
    Nat → Nat → List (Except DecodeError WireEvent) → Except PacketError (List (Except DecodeError WireEvent) × Nat)
  | 0, offset, frames => .ok (frames, offset)
  | count + 1, offset, frames =>
      let rest := remaining.drop offset
      match decodeHeader rest with
      | .error _ => .error .innerFrameHeaderInvalid
      | .ok header =>
          let frameLen := HEADER_SIZE + header.payloadSize
          if rest.length < frameLen then .error .innerFrameHeaderInvalid
          else unpackLoop remaining count (offset + frameLen) (frames ++ [decodeEvent (rest.take frameLen)])

def unpackFrames (datagram : List UInt8) : Except PacketError UnpackedPacket :=
  if datagram.length < PACKET_HEADER_SIZE then .error .truncatedHeader
  else
    match readPacketHeader (datagram.take PACKET_HEADER_SIZE) with
    | none => .error .truncatedHeader
    | some (header, _) =>
        if header.magic ≠ PACKET_MAGIC then .error .invalidMagic
        else if header.version ≠ PACKET_VERSION then .error .invalidVersion
        else if header.frameCount = 0 then .error .zeroFrameCount
        else
          let remaining := datagram.drop PACKET_HEADER_SIZE
          if remaining.length ≠ header.payloadLength then .error .payloadLengthMismatch
          else
            match unpackLoop remaining header.frameCount 0 [] with
            | .error error => .error error
            | .ok (frames, offset) =>
                if offset ≠ remaining.length then .error .frameCountMismatch else .ok { header, frames }

/-- A header that decodes, and exactly the bytes it announces behind it. -/
def IsFrame (frame : List UInt8) : Prop :=
  ∃ header, decodeHeader frame = .ok header ∧ frame.length = HEADER_SIZE + header.payloadSize

/-- The datagram is a packet header that announces these frames, and the frames. -/
structure WellFramed (datagram : List UInt8) (header : PacketHeader) (frames : List (List UInt8)) : Prop where
  bytes : datagram = putPacketHeader header ++ frames.flatten
  magic : header.magic = PACKET_MAGIC
  version : header.version = PACKET_VERSION
  counted : header.frameCount = frames.length
  nonzero : header.frameCount ≠ 0
  countFits : header.frameCount < 2 ^ 16
  sequenceFits : header.packetSequence < 2 ^ 64
  sized : header.payloadLength = frames.flatten.length
  sizeFits : header.payloadLength < 2 ^ 32
  frames : ∀ frame ∈ frames, IsFrame frame

theorem putPacketHeader_length (header : PacketHeader) : (putPacketHeader header).length = PACKET_HEADER_SIZE := by
  simp only [putPacketHeader, putU16, putU32, putU64, List.length_append, Lib.BigEndian.put_length]
  rfl

section Loop
variable {remaining : List UInt8} {count offset : Nat} {frames out : List (Except DecodeError WireEvent)} {behind : Nat}

/-- The frames the loop went over are what lies ahead of it. -/
theorem unpackLoop_ok (done : unpackLoop remaining count offset frames = .ok (out, behind)) :
    ∃ pieces : List (List UInt8), pieces.length = count ∧ (∀ piece ∈ pieces, IsFrame piece) ∧
      pieces.flatten <+: remaining.drop offset ∧ out = frames ++ pieces.map decodeEvent ∧
      behind = offset + pieces.flatten.length := by
  induction count generalizing offset frames with
  | zero =>
    cases done
    exact ⟨[], rfl, by rintro _ ⟨⟩, List.nil_prefix, (List.append_nil _).symm, rfl⟩
  | succ count ih =>
    unfold unpackLoop at done
    dsimp only at done
    split at done
    · cases done
    rename_i header decoded
    split_ifs at done with short
    obtain ⟨pieces, counted, each, ⟨tail, follows⟩, rfl, rfl⟩ := ih done
    have length : ((remaining.drop offset).take (HEADER_SIZE + header.payloadSize)).length =
        HEADER_SIZE + header.payloadSize := List.length_take_of_le (not_lt.mp short)
    refine ⟨(remaining.drop offset).take (HEADER_SIZE + header.payloadSize) :: pieces, ?_, ?_, ⟨tail, ?_⟩, ?_, ?_⟩
    · rw [List.length_cons, counted]
    · intro piece member
      rcases List.mem_cons.mp member with rfl | later
      · refine ⟨header, ?_, length⟩
        rw [← decodeHeader_append (by rw [length]; omega) ((remaining.drop offset).drop (HEADER_SIZE + header.payloadSize)),
          List.take_append_drop, decoded]
      · exact each piece later
    · rw [List.flatten_cons, List.append_assoc, follows, ← List.drop_drop, List.take_append_drop]
    · rw [List.map_cons, List.append_assoc]
      rfl
    · rw [List.flatten_cons, List.length_append, length, Nat.add_assoc]

theorem unpackLoop_pieces {pieces : List (List UInt8)} (each : ∀ piece ∈ pieces, IsFrame piece)
    (ahead : pieces.flatten <+: remaining.drop offset) :
    unpackLoop remaining pieces.length offset frames =
      .ok (frames ++ pieces.map decodeEvent, offset + pieces.flatten.length) := by
  induction pieces generalizing offset frames with
  | nil => rw [List.map_nil, List.append_nil]; rfl
  | cons piece pieces ih =>
    obtain ⟨header, decoded, length⟩ := each piece List.mem_cons_self
    obtain ⟨tail, same⟩ := ahead
    rw [List.flatten_cons, List.append_assoc] at same
    rw [List.length_cons, unpackLoop, ← same, decodeHeader_append (by omega), decoded]
    dsimp only
    rw [if_neg (by rw [List.length_append]; omega), List.take_left' length, ih, List.map_cons, List.append_assoc,
      List.flatten_cons, List.length_append, length, Nat.add_assoc]
    · rfl
    · exact fun other member => each other (List.mem_cons_of_mem _ member)
    · refine ⟨tail, ?_⟩
      rw [← List.drop_drop, ← same, List.drop_left' length]

end Loop

section Header
variable {header : PacketHeader}

theorem readPacketHeader_put (magic : header.magic < 2 ^ 32) (version : header.version < 2 ^ 16)
    (count : header.frameCount < 2 ^ 16) (sequence : header.packetSequence < 2 ^ 64)
    (size : header.payloadLength < 2 ^ 32) (rest : List UInt8) :
    readPacketHeader (putPacketHeader header ++ rest) = some (header, rest) := by
  simp only [putPacketHeader, List.append_assoc]
  rw [readPacketHeader, bind_of_read (getU32_put _ magic), bind_of_read (getU16_put _ version),
    bind_of_read (getU16_put _ count), bind_of_read (getU64_put _ sequence), bind_of_read (getU32_put _ size)]
  rfl

theorem readPacketHeader_get {bytes rest : List UInt8} (read : readPacketHeader bytes = some (header, rest)) :
    bytes = putPacketHeader header ++ rest ∧ header.frameCount < 2 ^ 16 ∧ header.packetSequence < 2 ^ 64 ∧
      header.payloadLength < 2 ^ 32 := by
  obtain ⟨magic, afterMagic, takenMagic, read⟩ := read_of_bind read
  obtain ⟨version, afterVersion, takenVersion, read⟩ := read_of_bind read
  obtain ⟨count, afterCount, takenCount, read⟩ := read_of_bind read
  obtain ⟨sequence, afterSequence, takenSequence, read⟩ := read_of_bind read
  obtain ⟨size, afterSize, takenSize, read⟩ := read_of_bind read
  cases read
  obtain ⟨rfl, _⟩ := putU32_get takenMagic
  obtain ⟨rfl, _⟩ := putU16_get takenVersion
  obtain ⟨rfl, countFits⟩ := putU16_get takenCount
  obtain ⟨rfl, sequenceFits⟩ := putU64_get takenSequence
  obtain ⟨rfl, sizeFits⟩ := putU32_get takenSize
  exact ⟨by simp only [putPacketHeader, List.append_assoc], countFits, sequenceFits, sizeFits⟩

end Header

variable {datagram : List UInt8}

theorem unpackFrames_framed {header : PacketHeader} {frames : List (List UInt8)}
    (framed : WellFramed datagram header frames) :
    unpackFrames datagram = .ok { header, frames := frames.map decodeEvent } := by
  have length := putPacketHeader_length header
  have read : readPacketHeader (putPacketHeader header ++ []) = _ :=
    readPacketHeader_put (by rw [framed.magic]; decide) (by rw [framed.version]; decide) framed.countFits framed.sequenceFits framed.sizeFits []
  rw [List.append_nil] at read
  rw [framed.bytes]
  unfold unpackFrames
  rw [if_neg (by rw [List.length_append, length]; omega), List.take_left' length, read]
  dsimp only
  rw [if_neg (not_not.mpr framed.magic), if_neg (not_not.mpr framed.version), if_neg framed.nonzero, List.drop_left' length,
    if_neg (not_not.mpr framed.sized.symm), framed.counted, unpackLoop_pieces framed.frames ⟨[], by simp⟩]
  dsimp only
  rw [Nat.zero_add, if_neg (not_not.mpr rfl)]
  rfl

theorem unpackFrames_ok {packet : UnpackedPacket} (unpacked : unpackFrames datagram = .ok packet) :
    ∃ frames, WellFramed datagram packet.header frames ∧ packet.frames = frames.map decodeEvent := by
  unfold unpackFrames at unpacked
  split_ifs at unpacked with short
  split at unpacked
  · cases unpacked
  rename_i header left read
  dsimp only at unpacked
  split_ifs at unpacked with magic version zero size
  split at unpacked
  · cases unpacked
  rename_i frames offset loop
  split_ifs at unpacked with trailing
  cases unpacked
  obtain ⟨pieces, counted, each, ahead, rfl, rfl⟩ := unpackLoop_ok loop
  obtain ⟨front, countFits, sequenceFits, sizeFits⟩ := readPacketHeader_get read
  have nothing : left = [] := by
    have length := congrArg List.length front
    rw [List.length_append, putPacketHeader_length, List.length_take_of_le (not_lt.mp short)] at length
    exact List.length_eq_zero_iff.mp (by omega)
  have all : pieces.flatten = datagram.drop PACKET_HEADER_SIZE := by
    rw [List.drop_zero] at ahead
    exact ahead.eq_of_length (by omega)
  refine ⟨pieces, ⟨?_, not_not.mp magic, not_not.mp version, counted.symm, zero, countFits, sequenceFits, ?_, sizeFits, each⟩, rfl⟩
  · rw [all, ← List.append_nil (putPacketHeader header), ← nothing, ← front, List.take_append_drop]
  · rw [all]
    exact (not_not.mp size).symm

theorem encodeEvent_isFrame {event : WireEvent} (fits : event.Representable) : IsFrame (encodeEvent event) := by
  refine ⟨event.header, ?_, encodeEvent_length event⟩
  rw [encodeEvent_eq]
  exact decodeHeader_encode fits event.payload

theorem payload_le (events : List WireEvent) : (events.flatMap encodeEvent).length ≤ events.length * 49 := by
  induction events with
  | nil => exact Nat.zero_le _
  | cons event events ih =>
    have size : payloadSizeFor event.header.type ≤ 29 := by cases event.header.type <;> decide
    have header : HEADER_SIZE = 20 := rfl
    rw [List.flatMap_cons, List.length_append, encodeEvent_length, header_payloadSize, List.length_cons]
    omega

/-- What is packed is well framed, one frame for each event. -/
theorem packFrames_framed {packetSequence : Nat} {events : List WireEvent} (sequenceFits : packetSequence < 2 ^ 64)
    (nonempty : 1 ≤ events.length) (few : events.length ≤ 65535) (fits : ∀ event ∈ events, event.Representable) :
    ∃ header, header.packetSequence = packetSequence ∧
      WellFramed (packFrames packetSequence events) header (events.map encodeEvent) := by
  have payload : (events.map encodeEvent).flatten = events.flatMap encodeEvent := (List.flatMap_def ..).symm
  have small := payload_le events
  refine ⟨{ magic := PACKET_MAGIC, version := PACKET_VERSION, frameCount := events.length, packetSequence
            payloadLength := (events.flatMap encodeEvent).length }, rfl, ?_⟩
  constructor
  · rw [payload]
    rfl
  · rfl
  · rfl
  · exact (List.length_map _).symm
  · exact Nat.one_le_iff_ne_zero.mp nonempty
  · exact Nat.lt_succ_of_le few
  · exact sequenceFits
  · rw [payload]
  · show (events.flatMap encodeEvent).length < 2 ^ 32
    omega
  · intro frame member
    obtain ⟨event, sent, rfl⟩ := List.mem_map.mp member
    exact encodeEvent_isFrame (fits event sent)

/-- What was packed is unpacked; a datagram is unpacked exactly when it is well framed; and each of
its frames is decoded on its own. -/
theorem packet_framing :
    (∀ packetSequence (events : List WireEvent), packetSequence < 2 ^ 64 → 1 ≤ events.length → events.length ≤ 65535 →
      (∀ event ∈ events, event.Representable) → ∃ packet, unpackFrames (packFrames packetSequence events) = .ok packet ∧
        packet.header.packetSequence = packetSequence ∧ packet.frames = events.map .ok) ∧
    (∀ datagram, (∃ packet, unpackFrames datagram = .ok packet) ↔ ∃ header frames, WellFramed datagram header frames) ∧
    ∀ datagram packet, unpackFrames datagram = .ok packet ↔
      ∃ frames, WellFramed datagram packet.header frames ∧ packet.frames = frames.map decodeEvent := by
  have each : ∀ datagram packet, unpackFrames datagram = .ok packet ↔
      ∃ frames, WellFramed datagram packet.header frames ∧ packet.frames = frames.map decodeEvent := by
    intro datagram packet
    constructor
    · exact unpackFrames_ok
    · intro there
      obtain ⟨frames, framed, same⟩ := there
      rw [unpackFrames_framed framed, ← same]
  refine ⟨fun packetSequence events sequenceFits nonempty few fits => ?_, fun datagram => ⟨fun unpacked => ?_, fun there => ?_⟩, each⟩
  · obtain ⟨header, sequence, framed⟩ := packFrames_framed sequenceFits nonempty few fits
    refine ⟨_, unpackFrames_framed framed, sequence, ?_⟩
    rw [List.map_map]
    refine List.map_congr_left fun event member => ?_
    have decoded := decodeEvent_encode (fits event member) []
    rw [List.append_nil] at decoded
    exact decoded
  · obtain ⟨packet, unpacked⟩ := unpacked
    obtain ⟨frames, framed, _⟩ := (each datagram packet).mp unpacked
    exact ⟨packet.header, frames, framed⟩
  · obtain ⟨header, frames, framed⟩ := there
    exact ⟨_, unpackFrames_framed framed⟩

/-- A packet of one event, and one whose second frame has a type of another size. -/
theorem packet_framing_two :
    let clear : WireEvent := .clearBook { sequenceNumber := 1, timestamp := 2, instrumentId := 3 }
    let oversized := putHeader .clearBook 2 2 5 ++ [0, 0, 0, 3, 0]
    let header : PacketHeader :=
      { magic := PACKET_MAGIC, version := 1, frameCount := 2, packetSequence := 8, payloadLength := 49 }
    (∃ packet, unpackFrames (packFrames 8 [clear]) = .ok packet ∧ packet.header.packetSequence = 8 ∧
      packet.frames = [.ok clear]) ∧
    unpackFrames (putPacketHeader header ++ (encodeEvent clear ++ oversized)) =
      .ok { header, frames := [.ok clear, .error .invalidMessageSize] } := by
  obtain ⟨packed, _, framed⟩ := packet_framing
  refine ⟨packed 8 [_] (by decide) (by decide) (by decide) (by decide), (framed _ _).mpr ?_⟩
  refine ⟨[encodeEvent (.clearBook { sequenceNumber := 1, timestamp := 2, instrumentId := 3 }),
    putHeader .clearBook 2 2 5 ++ [0, 0, 0, 3, 0]], ⟨by decide, rfl, rfl, rfl, by decide, by decide, by decide, by decide,
    by decide, ?_⟩, by rfl⟩
  intro frame member
  simp only [List.mem_cons, List.not_mem_nil, or_false] at member
  rcases member with rfl | rfl
  · exact encodeEvent_isFrame (by decide)
  · exact ⟨{ type := .clearBook, payloadSize := 5, sequenceNumber := 2, timestamp := 2 }, by rfl, by decide⟩

end Mdh.Feed
