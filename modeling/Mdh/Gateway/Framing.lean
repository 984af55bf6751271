import Mdh.Gateway.AccountIsolation
import Mdh.Gateway.MessageCodec
import Mdh.Lib.Framer

/-! Both ends of an order entry connection read the stream in pieces and cut it into frames.
What they decode is what one pass over the whole stream would, wherever the reads end. -/

namespace Mdh.Gateway
open Mdh.Core Mdh.Lib Mdh.Risk

/-- What one read of a socket gives. -/
inductive SocketRead where
  | bytes (chunk : List UInt8)
  | wouldBlock
  | failed
  deriving DecidableEq, Repr

/-- A connection as its reader sees it, with what it has decoded so far. -/
structure Inbound where
  readBuffer : List UInt8 := []
  decoded : List Message := []
  closed : Bool := false
  deriving DecidableEq, Repr

namespace Inbound

/-- The frame loop of either end. A header that does not decode, or that announces more than has
arrived, waits for more; a frame whose payload does not decode is dropped. -/
def frameLoop : Nat → Inbound → Inbound
  | 0, conn => conn
  | fuel + 1, conn =>
      match decodeHeader conn.readBuffer with
      | .error _ => conn
      | .ok header =>
          let frameSize := HEADER_SIZE + header.payloadSize
          if conn.readBuffer.length < frameSize then conn
          else
            let messageResult := decodeMessage (conn.readBuffer.take frameSize)
            let conn := { conn with readBuffer := conn.readBuffer.drop frameSize }
            match messageResult with
            | .error _ => frameLoop fuel conn
            | .ok message => frameLoop fuel { conn with decoded := conn.decoded ++ [message] }

/-- Every turn of the loop takes a header's bytes at least. -/
def readFrames (conn : Inbound) (chunk : List UInt8) : Inbound :=
  let conn := { conn with readBuffer := conn.readBuffer ++ chunk }
  frameLoop conn.readBuffer.length conn

/-- One read of the gateway. With nothing there it waits until it is woken again. -/
def handleRead (conn : Inbound) (read : SocketRead) : Inbound :=
  if conn.closed then conn
  else
    match read with
    | .wouldBlock => conn
    | .failed | .bytes [] => { conn with closed := true }
    | .bytes chunk => conn.readFrames chunk

/-- One read of the client, whose socket blocks: whatever brings no bytes ends the loop. -/
def readerLoop (conn : Inbound) (read : SocketRead) : Inbound :=
  if conn.closed then conn
  else
    match read with
    | .wouldBlock | .failed | .bytes [] => { conn with closed := true }
    | .bytes chunk => conn.readFrames chunk

end Inbound

/-- A single pass over a whole stream: what is decoded, and the bytes that are left. -/
def decodeStream (stream : List UInt8) : Inbound := Inbound.readFrames {} stream

/-- What the reads of a socket bring. -/
def received (reads : List SocketRead) : List UInt8 :=
  reads.flatMap fun read =>
    match read with
    | .bytes chunk => chunk
    | .wouldBlock | .failed => []

section Frames

theorem nextFrame_ok {buffer frame rest : List UInt8} (taken : nextFrame buffer = some (frame, rest)) :
    ∃ header, decodeHeader buffer = .ok header ∧ HEADER_SIZE + header.payloadSize ≤ buffer.length ∧
      frame = buffer.take (HEADER_SIZE + header.payloadSize) ∧ rest = buffer.drop (HEADER_SIZE + header.payloadSize) := by
  unfold nextFrame at taken
  split at taken
  · cases taken
  rename_i header decoded
  dsimp only at taken
  split_ifs at taken with short
  cases taken
  exact ⟨header, decoded, not_lt.mp short, rfl, rfl⟩

theorem nextFrame_split {buffer frame rest : List UInt8} (taken : nextFrame buffer = some (frame, rest)) :
    buffer = frame ++ rest ∧ frame ≠ [] := by
  obtain ⟨header, _, enough, rfl, rfl⟩ := nextFrame_ok taken
  refine ⟨(List.take_append_drop ..).symm, fun empty => ?_⟩
  have length := congrArg List.length empty
  rw [List.length_take_of_le enough, List.length_nil] at length
  exact absurd length (by simp [HEADER_SIZE])

theorem nextFrame_stable {buffer frame rest : List UInt8} (taken : nextFrame buffer = some (frame, rest))
    (later : List UInt8) : nextFrame (buffer ++ later) = some (frame, rest ++ later) := by
  obtain ⟨header, decoded, enough, rfl, rfl⟩ := nextFrame_ok taken
  unfold nextFrame
  rw [decodeHeader_append (decodeHeader_ok decoded).1, decoded]
  dsimp only
  rw [if_neg (by rw [List.length_append]; omega), List.take_append_of_le_length enough,
    List.drop_append_of_le_length enough]

/-- The frames of the order entry protocol. -/
def orderEntryFramer : Framer UInt8 where
  next := nextFrame
  split := nextFrame_split
  stable := nextFrame_stable

/-- The messages among the frames; the others are dropped. -/
def decodeFrames (frames : List (List UInt8)) : List Message := frames.filterMap fun frame => (decodeMessage frame).toOption

theorem decodeFrames_append (front back : List (List UInt8)) :
    decodeFrames (front ++ back) = decodeFrames front ++ decodeFrames back := List.filterMap_append ..

/-- One turn of the loop takes one frame off. -/
theorem frameLoop_succ (fuel : Nat) (conn : Inbound) :
    Inbound.frameLoop (fuel + 1) conn =
      match nextFrame conn.readBuffer with
      | none => conn
      | some (frame, rest) => Inbound.frameLoop fuel
          { conn with readBuffer := rest, decoded := conn.decoded ++ (decodeMessage frame).toOption.toList } := by
  rw [Inbound.frameLoop, nextFrame]
  cases decodeHeader conn.readBuffer with
  | error error => rfl
  | ok header =>
    dsimp only
    split_ifs with short
    · rfl
    · cases decoded : decodeMessage (conn.readBuffer.take (HEADER_SIZE + header.payloadSize)) with
      | error error => simp [decoded, Except.toOption]
      | ok message => simp [decoded, Except.toOption]

theorem frameLoop_drain (fuel : Nat) (conn : Inbound) :
    Inbound.frameLoop fuel conn = { conn with
      readBuffer := (orderEntryFramer.drain fuel conn.readBuffer).2
      decoded := conn.decoded ++ decodeFrames (orderEntryFramer.drain fuel conn.readBuffer).1 } := by
  induction fuel generalizing conn with
  | zero => simp [Inbound.frameLoop, Framer.drain, decodeFrames]
  | succ fuel ih =>
    rw [frameLoop_succ]
    cases taken : nextFrame conn.readBuffer with
    | none =>
      have none : orderEntryFramer.next conn.readBuffer = none := taken
      simp [Framer.drain, none, decodeFrames]
    | some pair =>
      obtain ⟨frame, rest⟩ := pair
      have some : orderEntryFramer.next conn.readBuffer = some (frame, rest) := taken
      simp only [Framer.drain, some, ih]
      congr 1
      rw [List.append_assoc]
      congr 1
      unfold decodeFrames
      rw [List.filterMap_cons]
      cases decodeMessage frame <;> rfl

theorem readFrames_eq (conn : Inbound) (chunk : List UInt8) :
    conn.readFrames chunk = { conn with
      readBuffer := (orderEntryFramer.frames (conn.readBuffer ++ chunk)).2
      decoded := conn.decoded ++ decodeFrames (orderEntryFramer.frames (conn.readBuffer ++ chunk)).1 } := by
  unfold Inbound.readFrames
  rw [frameLoop_drain]
  rfl

theorem decodeStream_eq (stream : List UInt8) : decodeStream stream =
    { readBuffer := (orderEntryFramer.frames stream).2, decoded := decodeFrames (orderEntryFramer.frames stream).1 } := by
  rw [decodeStream, readFrames_eq]
  rfl

end Frames

section Reads

theorem received_cons (read : SocketRead) (reads : List SocketRead) :
    received (read :: reads) = received [read] ++ received reads := by
  simp only [received, List.flatMap_cons, List.flatMap_nil, List.append_nil]

/-- A connection that stands where a single pass over the stream stands. -/
def Inbound.Stands (conn : Inbound) (stream : List UInt8) : Prop := conn = decodeStream stream

theorem Inbound.Stands.readFrames {conn : Inbound} {stream : List UInt8} (stands : conn.Stands stream)
    (chunk : List UInt8) : (conn.readFrames chunk).Stands (stream ++ chunk) := by
  have whole := orderEntryFramer.frames_append stream chunk
  unfold Stands at stands ⊢
  rw [stands, decodeStream_eq, decodeStream_eq, readFrames_eq, whole, decodeFrames_append]

theorem Inbound.Stands.closed {conn : Inbound} {stream : List UInt8} (stands : conn.Stands stream) : conn.closed = false := by
  rw [stands, decodeStream_eq]

/-- A read of bytes, or for the gateway one that finds none, keeps a reader where a single pass stands. -/
theorem Inbound.Stands.handleRead {conn : Inbound} {stream : List UInt8} {read : SocketRead} (stands : conn.Stands stream)
    (usual : read = .wouldBlock ∨ ∃ chunk, chunk ≠ [] ∧ read = .bytes chunk) :
    (conn.handleRead read).Stands (stream ++ received [read]) := by
  unfold Inbound.handleRead
  rw [stands.closed]
  rcases usual with rfl | ⟨chunk, nonempty, rfl⟩
  · rw [received, List.flatMap_singleton, List.append_nil]
    exact stands
  · obtain ⟨byte, bytes, rfl⟩ := List.exists_cons_of_ne_nil nonempty
    rw [received, List.flatMap_singleton]
    exact stands.readFrames (byte :: bytes)

theorem Inbound.Stands.readerLoop {conn : Inbound} {stream chunk : List UInt8} (stands : conn.Stands stream)
    (nonempty : chunk ≠ []) : (conn.readerLoop (.bytes chunk)).Stands (stream ++ chunk) := by
  obtain ⟨byte, bytes, rfl⟩ := List.exists_cons_of_ne_nil nonempty
  unfold Inbound.readerLoop
  rw [stands.closed]
  exact stands.readFrames (byte :: bytes)

theorem handleRead_foldl {conn : Inbound} {stream : List UInt8} (stands : conn.Stands stream) (reads : List SocketRead)
    (usual : ∀ read ∈ reads, read = .wouldBlock ∨ ∃ chunk, chunk ≠ [] ∧ read = .bytes chunk) :
    (reads.foldl Inbound.handleRead conn).Stands (stream ++ received reads) := by
  induction reads generalizing conn stream with
  | nil => exact (List.append_nil stream).symm ▸ stands
  | cons read reads ih =>
    rw [received_cons, ← List.append_assoc]
    exact ih (stands.handleRead (usual read List.mem_cons_self)) fun other among => usual other (List.mem_cons_of_mem _ among)

theorem readerLoop_foldl {conn : Inbound} {stream : List UInt8} (stands : conn.Stands stream) (chunks : List (List UInt8))
    (nonempty : ∀ chunk ∈ chunks, chunk ≠ []) :
    ((chunks.map .bytes).foldl Inbound.readerLoop conn).Stands (stream ++ chunks.flatten) := by
  induction chunks generalizing conn stream with
  | nil => exact (List.append_nil stream).symm ▸ stands
  | cons chunk chunks ih =>
    rw [List.flatten_cons, ← List.append_assoc]
    exact ih (stands.readerLoop (nonempty chunk List.mem_cons_self)) fun other among =>
      nonempty other (List.mem_cons_of_mem _ among)

end Reads

section Streams

/-- A whole frame in front is taken off as it is. -/
theorem nextFrame_append {frame : List UInt8} {header : Header} (decoded : decodeHeader frame = .ok header)
    (whole : frame.length = HEADER_SIZE + header.payloadSize) (rest : List UInt8) :
    nextFrame (frame ++ rest) = some (frame, rest) := by
  unfold nextFrame
  rw [decodeHeader_append (decodeHeader_ok decoded).1, decoded]
  dsimp only
  rw [if_neg (by rw [List.length_append]; omega), ← whole, List.take_left, List.drop_left]

/-- The messages of a stream after one that was used up are those of both, one after the other. -/
theorem decodeStream_append {front back : List UInt8} (used : (decodeStream front).readBuffer = []) :
    decodeStream (front ++ back) = { decodeStream back with
      decoded := (decodeStream front).decoded ++ (decodeStream back).decoded } := by
  have whole := orderEntryFramer.frames_append front back
  have nothing : (orderEntryFramer.frames front).2 = [] := by
    rw [decodeStream_eq] at used
    exact used
  rw [nothing, List.nil_append] at whole
  rw [decodeStream_eq, decodeStream_eq, decodeStream_eq, whole, decodeFrames_append]

/-- One frame by itself is used up, and gives its message if it has one. -/
theorem decodeStream_frame {frame : List UInt8} {header : Header} (decoded : decodeHeader frame = .ok header)
    (whole : frame.length = HEADER_SIZE + header.payloadSize) :
    decodeStream frame = { decoded := (decodeMessage frame).toOption.toList } := by
  have taken := nextFrame_append decoded whole []
  rw [List.append_nil] at taken
  have nothing : orderEntryFramer.next [] = none := rfl
  have first : orderEntryFramer.next frame = some (frame, []) := taken
  rw [decodeStream_eq, Framer.frames_of_next first, Framer.frames_of_none nothing]
  unfold decodeFrames
  rw [List.filterMap_cons]
  cases decodeMessage frame <;> rfl

/-- A stream of encodings gives back what was encoded, and nothing is left. -/
theorem decodeStream_encode (messages : List Message) (fits : ∀ message ∈ messages, Representable message) :
    decodeStream (messages.flatMap encodeMessage) = { decoded := messages } := by
  induction messages with
  | nil => rfl
  | cons message messages ih =>
    have header : decodeHeader (encodeMessage message) = .ok { type := message.type, payloadSize := payloadSizeFor message.type } := by
      rw [encodeMessage_eq]
      exact decodeHeader_put (payloadSizeFor_lt _) _
    have alone := decodeStream_frame header (encodeMessage_length message)
    have decoded := decodeMessage_encode (fits message List.mem_cons_self) []
    rw [List.append_nil] at decoded
    rw [decoded] at alone
    rw [List.flatMap_cons, decodeStream_append (by rw [alone]), alone,
      ih fun other among => fits other (List.mem_cons_of_mem _ among)]
    rfl

end Streams

/-- Framing does not depend on how the stream is cut. The gateway and the client both decode
what a single pass over the whole stream decodes; a stream of encodings is decoded to what was
encoded; and a frame whose payload does not decode is dropped by itself. -/
theorem framing_segmentation :
    (∀ reads : List SocketRead, (∀ read ∈ reads, read = .wouldBlock ∨ ∃ chunk, chunk ≠ [] ∧ read = .bytes chunk) →
      reads.foldl Inbound.handleRead {} = decodeStream (received reads)) ∧
    (∀ chunks : List (List UInt8), (∀ chunk ∈ chunks, chunk ≠ []) →
      (chunks.map .bytes).foldl Inbound.handleRead {} = decodeStream chunks.flatten ∧
      (chunks.map .bytes).foldl Inbound.readerLoop {} = decodeStream chunks.flatten) ∧
    (∀ messages : List Message, (∀ message ∈ messages, Representable message) →
      decodeStream (messages.flatMap encodeMessage) = { readBuffer := [], decoded := messages, closed := false }) ∧
    ∀ (front frame back : List UInt8) (header : Header) (error : DecodeError),
      (decodeStream front).readBuffer = [] → decodeHeader frame = .ok header →
      frame.length = HEADER_SIZE + header.payloadSize → decodeMessage frame = .error error →
      decodeStream (front ++ frame ++ back) = decodeStream (front ++ back) := by
  have initially : Inbound.Stands {} [] := rfl
  refine ⟨fun reads usual => handleRead_foldl initially reads usual, fun chunks nonempty => ⟨?_, ?_⟩,
    fun messages fits => decodeStream_encode messages fits, ?_⟩
  · have usual : ∀ read ∈ chunks.map SocketRead.bytes, read = .wouldBlock ∨ ∃ chunk, chunk ≠ [] ∧ read = .bytes chunk := by
      intro read among
      obtain ⟨chunk, inside, rfl⟩ := List.mem_map.mp among
      exact Or.inr ⟨chunk, nonempty chunk inside, rfl⟩
    have same : received (chunks.map SocketRead.bytes) = chunks.flatten := by
      rw [received, List.flatMap_map, List.flatMap_id']
    rw [← same]
    exact handleRead_foldl initially _ usual
  · exact readerLoop_foldl initially chunks nonempty
  · intro front frame back header error used decoded whole bad
    have alone := decodeStream_frame decoded whole
    rw [bad] at alone
    have both : (decodeStream (front ++ frame)).readBuffer = [] := by rw [decodeStream_append used, alone]
    rw [decodeStream_append both, decodeStream_append used, decodeStream_append used, alone]
    simp [Except.toOption]

/-- A cancel in reads that end inside its header and its payload, and a frame between two
others whose side is no side. -/
theorem framing_segmentation_cancel :
    let cancel : Message := .cancelOrder { accountId := 7, clientOrderId := 300, instrumentId := 1 }
    let frame := encodeMessage cancel
    let sideless : List UInt8 := [1, 0, 39] ++ List.replicate 39 2
    [.bytes (frame.take 2), .wouldBlock, .bytes ((frame.drop 2).take 9), .bytes (frame.drop 11)].foldl
        Inbound.handleRead {} = { decoded := [cancel] } ∧
      [SocketRead.bytes (frame.take 2), .bytes (frame.drop 2)].foldl Inbound.readerLoop {} = { decoded := [cancel] } ∧
      decodeStream [] = {} ∧ decodeStream (frame ++ sideless ++ frame) = { decoded := [cancel, cancel] } := by
  obtain ⟨gateway, both, encoded, dropped⟩ := framing_segmentation
  have pair : decodeStream (encodeMessage (.cancelOrder { accountId := 7, clientOrderId := 300, instrumentId := 1 }) ++
      encodeMessage (.cancelOrder { accountId := 7, clientOrderId := 300, instrumentId := 1 })) =
        { decoded := [.cancelOrder { accountId := 7, clientOrderId := 300, instrumentId := 1 },
          .cancelOrder { accountId := 7, clientOrderId := 300, instrumentId := 1 }] } := by decide +kernel
  refine ⟨(gateway _ ?_).trans (by decide +kernel), ((both [_, _] (by decide +kernel)).2).trans (by decide +kernel),
    encoded [] (by simp), ?_⟩
  · refine List.forall_mem_cons.mpr ⟨Or.inr ⟨_, ?_, rfl⟩, List.forall_mem_cons.mpr ⟨Or.inl rfl,
      List.forall_mem_cons.mpr ⟨Or.inr ⟨_, ?_, rfl⟩, List.forall_mem_cons.mpr ⟨Or.inr ⟨_, ?_, rfl⟩, nofun⟩⟩⟩⟩ <;>
      decide +kernel
  · exact (dropped _ _ _ { type := .newOrder, payloadSize := 39 } .invalidSide (by decide +kernel) (by rfl)
      (by rfl) (by rfl)).trans pair

/-- What has been read from a session and not yet cut into frames, and what the rest was made of. -/
def Connection.framing (connection : Connection) : List UInt8 × List ExchangeCommand :=
  (connection.readBuffer, connection.requests)

namespace OrderEntryGateway
variable {round : Rounding} {gateway next : OrderEntryGateway}

def framed (gateway : OrderEntryGateway) (session : SessionId) : List UInt8 × List ExchangeCommand :=
  (gateway.connections session).framing

/-- What an action brings from a session. -/
def receivedFrom (session : SessionId) : GatewayAction → List UInt8
  | .receive sender chunk => if sender = session then chunk else []
  | _ => []

theorem framed_setConnection {session : SessionId} {connection : Connection}
    (same : connection.framing = gateway.framed session) (any : SessionId) :
    (gateway.setConnection session connection).framed any = gateway.framed any :=
  setConnection_keeps gateway session connection Connection.framing same any

theorem matchingStep_framed (stepped : gateway.matchingStep round = some next) (session : SessionId) :
    next.framed session = gateway.framed session := by
  unfold matchingStep at stepped
  split at stepped
  next =>
    split at stepped
    · cases stepped
    · cases stepped
      rfl
  next =>
    cases stepped
    rfl
  next => split at stepped <;> cases stepped <;> rfl
  next =>
    cases stepped
    rfl
  next =>
    dsimp only at stepped
    split at stepped
    · cases stepped
      rfl
    · cases stepped
      unfold OrderEntryGateway.retain
      dsimp only
      split_ifs <;> rfl
  next target message reports event events place =>
    cases stepped
    unfold OrderEntryGateway.deliver
    dsimp only
    split_ifs
    · rfl
    · exact framed_setConnection (by rfl) session

/-- The I/O thread takes a frame off the buffer of the session it frames, and leaves the others alone. -/
theorem ioStep_framed (stepped : gateway.ioStep = some next) (session : SessionId) :
    next.framed session = gateway.framed session ∨
      ∃ frame rest, nextFrame (gateway.connections session).readBuffer = some (frame, rest) ∧
        next.framed session = (rest, (gateway.connections session).requests ++
          ((decodeMessage frame).toOption.bind toCommand).toList) := by
  unfold ioStep at stepped
  split at stepped
  next => cases stepped
  next reader place =>
    cases stepped
    unfold readFrame
    dsimp only
    split
    next => exact Or.inl rfl
    next frame rest taken =>
      by_cases same : session = reader
      · refine Or.inr ⟨frame, rest, same ▸ taken, ?_⟩
        rw [same]
        cases (decodeMessage frame).toOption.bind toCommand with
        | none =>
          rw [Option.toList_none, List.append_nil]
          exact congrArg Connection.framing (setConnection_self ..)
        | some command => exact congrArg Connection.framing (setConnection_self ..)
      · left
        cases (decodeMessage frame).toOption.bind toCommand with
        | none =>
          unfold framed
          rw [setConnection_other _ _ _ _ same]
        | some command => exact congrArg Connection.framing (setConnection_other _ _ _ _ same)
  next session command place =>
    split_ifs at stepped
    cases stepped
    exact Or.inl (framed_setConnection (by rfl) _)
  next session command place =>
    cases stepped
    unfold rejectAccountMismatch
    dsimp only
    split_ifs
    · exact Or.inl rfl
    · exact Or.inl (framed_setConnection (by rfl) _)
  next session command place =>
    split_ifs at stepped
    cases stepped
    unfold claimOrderOwnership
    dsimp only
    split <;> exact Or.inl rfl
  next session command claimed place =>
    cases stepped
    unfold submitCommand
    dsimp only
    split_ifs <;> exact Or.inl rfl
  next =>
    split_ifs at stepped
    cases stepped
    unfold unbindSession
    split <;> exact Or.inl rfl

/-- A step brings bytes or takes off a frame. -/
theorem step_framed (isolated : Isolated gateway) {action : GatewayAction} (stepped : gateway.step round action = some next)
    (session : SessionId) :
    next.framed session = ((gateway.connections session).readBuffer ++ receivedFrom session action,
        (gateway.connections session).requests) ∨
      receivedFrom session action = [] ∧
        ∃ frame rest, nextFrame (gateway.connections session).readBuffer = some (frame, rest) ∧
          next.framed session = (rest, (gateway.connections session).requests ++
            ((decodeMessage frame).toOption.bind toCommand).toList) := by
  have quiet (same : next.framed session = gateway.framed session) (none : receivedFrom session action = []) :
      next.framed session = ((gateway.connections session).readBuffer ++ receivedFrom session action,
        (gateway.connections session).requests) := by
    rw [same, none, List.append_nil]
    rfl
  cases action with
  | accept =>
    rw [step] at stepped
    split_ifs at stepped
    cases stepped
    have same : (gateway.setConnection gateway.nextSessionId { closed := false }).framed session = gateway.framed session :=
      framed_setConnection (by rw [framed, isolated.unseen _ le_rfl]; rfl) session
    exact Or.inl (quiet same rfl)
  | receive sender chunk =>
    simp only [step] at stepped
    split_ifs at stepped
    cases stepped
    left
    by_cases same : sender = session
    · rw [receivedFrom, if_pos same, ← same]
      exact congrArg Connection.framing (setConnection_self ..)
    · rw [receivedFrom, if_neg same, List.append_nil]
      exact congrArg Connection.framing (setConnection_other _ _ _ _ (Ne.symm same))
  | hangUp sender =>
    rw [step] at stepped
    split_ifs at stepped
    cases stepped
    exact Or.inl (quiet (framed_setConnection (by rfl) session) rfl)
  | popOutbound sender =>
    rw [step] at stepped
    split_ifs at stepped
    cases stepped
    refine Or.inl (quiet ?_ rfl)
    unfold OrderEntryGateway.popOutbound
    dsimp only
    split
    case h_4 => rfl
    all_goals exact framed_setConnection (by rfl) session
  | io =>
    rcases ioStep_framed stepped session with same | taken
    · exact Or.inl (quiet same rfl)
    · exact Or.inr ⟨rfl, taken⟩
  | matching => exact Or.inl (quiet (matchingStep_framed stepped session) rfl)

/-- The requests a stream makes. -/
def requestsIn (stream : List UInt8) : List ExchangeCommand := (decodeStream stream).decoded.filterMap toCommand

/-- A frame cut off a buffer, as a stream of its own. -/
theorem requestsIn_frame {buffer frame rest : List UInt8} (taken : nextFrame buffer = some (frame, rest)) :
    buffer = frame ++ rest ∧ (decodeStream frame).readBuffer = [] ∧
      requestsIn frame = ((decodeMessage frame).toOption.bind toCommand).toList := by
  obtain ⟨header, decoded, enough, rfl, rfl⟩ := nextFrame_ok taken
  have whole : (buffer.take (HEADER_SIZE + header.payloadSize)).length = HEADER_SIZE + header.payloadSize :=
    List.length_take_of_le enough
  have front : decodeHeader (buffer.take (HEADER_SIZE + header.payloadSize)) = .ok header := by
    have enough : HEADER_SIZE ≤ (buffer.take (HEADER_SIZE + header.payloadSize)).length := by omega
    have longer := decodeHeader_append enough (buffer.drop (HEADER_SIZE + header.payloadSize))
    rw [List.take_append_drop, decoded] at longer
    exact longer.symm
  have alone := decodeStream_frame front whole
  refine ⟨(List.take_append_drop ..).symm, by rw [alone], ?_⟩
  rw [requestsIn, alone]
  cases decodeMessage (buffer.take (HEADER_SIZE + header.payloadSize)) with
  | error error => rfl
  | ok message =>
    simp only [Except.toOption, Option.toList_some, Option.bind_some, List.filterMap_cons, List.filterMap_nil]
    cases toCommand message <;> rfl

theorem requestsIn_append {front : List UInt8} (used : (decodeStream front).readBuffer = []) (back : List UInt8) :
    requestsIn (front ++ back) = requestsIn front ++ requestsIn back := by
  unfold requestsIn
  rw [decodeStream_append used, List.filterMap_append]

/-- In every run the requests a session has made are those of the stream it has sent, but for
the ones still in the buffer. -/
theorem requests_of_stream {options : OrderEntryGatewayOptions} {limits : RiskLimits} {instruments : List InstrumentId}
    {deposits : List Deposit} {actions : List GatewayAction}
    (ran : Transitions.run (step round) (start round options limits instruments deposits) actions = some gateway)
    (session : SessionId) :
    requestsIn (actions.flatMap (receivedFrom session)) =
      (gateway.connections session).requests ++ requestsIn (gateway.connections session).readBuffer := by
  obtain ⟨taken, stream, used, requests⟩ : ∃ taken,
      actions.flatMap (receivedFrom session) = taken ++ (gateway.connections session).readBuffer ∧
      (decodeStream taken).readBuffer = [] ∧ requestsIn taken = (gateway.connections session).requests := by
    refine Transitions.run_rule (fun actions gateway => ∃ taken,
      actions.flatMap (receivedFrom session) = taken ++ (gateway.connections session).readBuffer ∧
      (decodeStream taken).readBuffer = [] ∧ requestsIn taken = (gateway.connections session).requests)
      ⟨[], rfl, rfl, rfl⟩ ?_ ran
    rintro actions before action after earlier ⟨taken, stream, used, requests⟩ stepped
    have isolated := run_isolated (start_isolated options limits instruments deposits) earlier
    rw [List.flatMap_append, List.flatMap_singleton, stream]
    rcases step_framed isolated stepped session with grown | ⟨none, frame, rest, whole, shorter⟩
    · obtain ⟨buffer, same⟩ := Prod.mk.inj grown
      exact ⟨taken, by rw [buffer, List.append_assoc], used, requests.trans same.symm⟩
    · obtain ⟨buffer, more⟩ := Prod.mk.inj shorter
      obtain ⟨split, frameUsed, asked⟩ := requestsIn_frame whole
      refine ⟨taken ++ frame, by rw [none, buffer, split, List.append_nil, List.append_assoc], ?_, ?_⟩
      · rw [decodeStream_append used]
        exact frameUsed
      · rw [requestsIn_append used, requests, asked, more]
  rw [stream, requestsIn_append used, requests]

end OrderEntryGateway

end Mdh.Gateway
