import Mdh.Gateway.Framing

/-! One direction of an order entry connection, byte by byte: messages wait to be written, go into a
buffer in batches, leave it as the socket takes them, arrive in pieces and are cut into frames. At
either end they are the same messages in the same order. -/

namespace Mdh.Gateway
open Mdh.Core Mdh.Lib

/-- Whose read loop is at the end of the channel. -/
inductive ReaderEnd where
  | gateway
  | client
  deriving DecidableEq, Repr

def ReaderEnd.read : ReaderEnd → Inbound → SocketRead → Inbound
  | .gateway => Inbound.handleRead
  | .client => Inbound.readerLoop

section Reading
variable {conn : Inbound} {stream chunk : List UInt8}

theorem ReaderEnd.read_stands (readerEnd : ReaderEnd) (stands : conn.Stands stream) (nonempty : chunk ≠ []) :
    (readerEnd.read conn (.bytes chunk)).Stands (stream ++ chunk) := by
  cases readerEnd with
  | gateway =>
    have one : received [.bytes chunk] = chunk := by rw [received, List.flatMap_singleton]
    have after := stands.handleRead (Or.inr ⟨chunk, nonempty, rfl⟩)
    rwa [one] at after
  | client => exact stands.readerLoop nonempty

/-- More bytes take nothing back. -/
theorem decoded_grows (stream later : List UInt8) : (decodeStream stream).decoded <+: (decodeStream (stream ++ later)).decoded := by
  have whole := orderEntryFramer.frames_append stream later
  rw [decodeStream_eq, decodeStream_eq, whole, decodeFrames_append]
  exact List.prefix_append ..

theorem ReaderEnd.read_decoded (readerEnd : ReaderEnd) (stands : conn.Stands stream) (nonempty : chunk ≠ []) :
    conn.decoded <+: (readerEnd.read conn (.bytes chunk)).decoded := by
  have after := readerEnd.read_stands stands nonempty
  unfold Inbound.Stands at stands after
  rw [stands] at after ⊢
  rw [after]
  exact decoded_grows stream chunk

end Reading

/-- A writer, the bytes the network has, and a reader; `taken` is how many of the decoded messages
have been acted on, and `sent` the history of what was handed to the writer. -/
structure ByteChannel where
  queued : List Message := []
  writeBuf : List UInt8 := []
  writeOffset : Nat := 0
  inTransit : List UInt8 := []
  reader : Inbound := {}
  taken : Nat := 0
  sent : List Message := []
  deriving DecidableEq, Repr

inductive ChannelAction where
  | encode (count : Nat)
  | write (accepted : Nat)
  | read (count : Nat)
  deriving DecidableEq, Repr

namespace ByteChannel

def enqueue (channel : ByteChannel) (message : Message) : ByteChannel :=
  { channel with queued := channel.queued ++ [message], sent := channel.sent ++ [message] }

def enqueueAll (channel : ByteChannel) (messages : List Message) : ByteChannel := messages.foldl enqueue channel

/-- A limit of zero counts as one. -/
def batchLimit (writerBatch : Nat) : Nat := if writerBatch = 0 then 1 else writerBatch

/-- With nothing left to write, the next messages are encoded one behind the other. -/
def encode (writerBatch count : Nat) (channel : ByteChannel) : Option ByteChannel :=
  if channel.writeBuf.length ≤ channel.writeOffset ∧ 0 < count ∧ count ≤ batchLimit writerBatch ∧
      count ≤ channel.queued.length then
    some { channel with
      queued := channel.queued.drop count
      writeBuf := (channel.queued.take count).flatMap encodeMessage
      writeOffset := 0 }
  else none

/-- The socket takes some of what is left of the buffer. -/
def write (accepted : Nat) (channel : ByteChannel) : Option ByteChannel :=
  if accepted = 0 ∨ channel.writeBuf.length < channel.writeOffset + accepted then none
  else
    let inTransit := channel.inTransit ++ (channel.writeBuf.drop channel.writeOffset).take accepted
    if channel.writeOffset + accepted < channel.writeBuf.length then
      some { channel with inTransit, writeOffset := channel.writeOffset + accepted }
    else some { channel with inTransit, writeBuf := [], writeOffset := 0 }

def read (readerEnd : ReaderEnd) (count : Nat) (channel : ByteChannel) : Option ByteChannel :=
  if count = 0 ∨ channel.inTransit.length < count then none
  else some { channel with
    inTransit := channel.inTransit.drop count
    reader := readerEnd.read channel.reader (.bytes (channel.inTransit.take count)) }

def step (readerEnd : ReaderEnd) (writerBatch : Nat) (channel : ByteChannel) : ChannelAction → Option ByteChannel
  | .encode count => channel.encode writerBatch count
  | .write accepted => channel.write accepted
  | .read count => channel.read readerEnd count

/-- The next decoded message is acted on. -/
def takeNext (channel : ByteChannel) : Option (Message × ByteChannel) :=
  channel.reader.decoded[channel.taken]?.map fun message => (message, { channel with taken := channel.taken + 1 })

/-- What has been sent and not acted on. -/
def pending (channel : ByteChannel) : List Message := channel.sent.drop channel.taken

/-- The bytes on their way: in the network, in the buffer, and yet to be encoded. -/
def ahead (channel : ByteChannel) : List UInt8 :=
  channel.inTransit ++ channel.writeBuf.drop channel.writeOffset ++ channel.queued.flatMap encodeMessage

/-- The reader stands where one pass over the bytes it has had would, and with the bytes on their way
those are the encodings of what was sent. -/
structure Carries (channel : ByteChannel) : Prop where
  stream : ∃ consumed, channel.reader.Stands consumed ∧ consumed ++ channel.ahead = channel.sent.flatMap encodeMessage
  taken : channel.taken ≤ channel.reader.decoded.length

section Steps
variable {channel next : ByteChannel} {readerEnd : ReaderEnd} {writerBatch : Nat}

theorem Carries.enqueue (carries : channel.Carries) (message : Message) : (channel.enqueue message).Carries := by
  obtain ⟨⟨consumed, stands, whole⟩, taken⟩ := carries
  refine ⟨⟨consumed, stands, ?_⟩, taken⟩
  unfold ahead at whole ⊢
  simp only [ByteChannel.enqueue, List.flatMap_append, ← whole, List.append_assoc]

theorem Carries.enqueueAll (carries : channel.Carries) (messages : List Message) :
    (channel.enqueueAll messages).Carries :=
  List.foldlRecOn (motive := Carries) messages _ carries fun _ carries message _ => carries.enqueue message

theorem enqueueAll_eq (channel : ByteChannel) (messages : List Message) :
    channel.enqueueAll messages = { channel with
      queued := channel.queued ++ messages
      sent := channel.sent ++ messages } := by
  induction messages generalizing channel with
  | nil => simp only [enqueueAll, List.foldl_nil, List.append_nil]
  | cons message messages ih =>
    show (channel.enqueue message).enqueueAll messages = _
    rw [ih]
    simp only [ByteChannel.enqueue, List.append_assoc, List.singleton_append]

/-- No byte is lost, doubled or moved past another. -/
theorem Carries.encode {count : Nat} (carries : channel.Carries) (stepped : channel.encode writerBatch count = some next) :
    next.Carries := by
  obtain ⟨⟨consumed, stands, whole⟩, taken⟩ := carries
  unfold ByteChannel.encode at stepped
  split_ifs at stepped with ready
  cases stepped
  refine ⟨⟨consumed, stands, ?_⟩, taken⟩
  have written : channel.writeBuf.drop channel.writeOffset = [] := List.drop_eq_nil_of_le ready.1
  have same : (channel.queued.take count).flatMap encodeMessage ++ (channel.queued.drop count).flatMap encodeMessage =
      channel.queued.flatMap encodeMessage := by
    rw [← List.flatMap_append, List.take_append_drop]
  unfold ahead at whole ⊢
  rw [written, List.append_nil] at whole
  calc consumed ++ (channel.inTransit ++ ((channel.queued.take count).flatMap encodeMessage).drop 0 ++
        (channel.queued.drop count).flatMap encodeMessage)
      = consumed ++ (channel.inTransit ++ channel.queued.flatMap encodeMessage) := by
        rw [List.drop_zero, List.append_assoc, same]
    _ = channel.sent.flatMap encodeMessage := whole

theorem Carries.write {accepted : Nat} (carries : channel.Carries) (stepped : channel.write accepted = some next) :
    next.Carries := by
  obtain ⟨⟨consumed, stands, whole⟩, taken⟩ := carries
  have split : (channel.writeBuf.drop channel.writeOffset).take accepted ++
      channel.writeBuf.drop (channel.writeOffset + accepted) = channel.writeBuf.drop channel.writeOffset := by
    rw [← List.drop_drop, List.take_append_drop]
  unfold ahead at whole
  unfold ByteChannel.write at stepped
  split_ifs at stepped with refused more
  · cases stepped
    refine ⟨⟨consumed, stands, ?_⟩, taken⟩
    have joined (rest : List UInt8) : (channel.writeBuf.drop channel.writeOffset).take accepted ++
        (channel.writeBuf.drop (channel.writeOffset + accepted) ++ rest) =
          channel.writeBuf.drop channel.writeOffset ++ rest := by
      rw [← List.append_assoc, split]
    unfold ahead
    rw [← whole]
    simp only [List.append_assoc, joined]
  · cases stepped
    refine ⟨⟨consumed, stands, ?_⟩, taken⟩
    have last : channel.writeBuf.drop (channel.writeOffset + accepted) = [] := List.drop_eq_nil_of_le (not_lt.mp more)
    rw [last, List.append_nil] at split
    unfold ahead
    rw [← whole, split]
    simp only [List.append_assoc, List.drop_nil, List.nil_append]

theorem Carries.read {count : Nat} (carries : channel.Carries) (stepped : channel.read readerEnd count = some next) :
    next.Carries := by
  obtain ⟨⟨consumed, stands, whole⟩, taken⟩ := carries
  unfold ByteChannel.read at stepped
  split_ifs at stepped with refused
  cases stepped
  rw [not_or, not_lt] at refused
  obtain ⟨some, enough⟩ := refused
  have nonempty : channel.inTransit.take count ≠ [] := by
    intro empty
    have length := congrArg List.length empty
    rw [List.length_take_of_le enough, List.length_nil] at length
    exact some length
  refine ⟨⟨consumed ++ channel.inTransit.take count, readerEnd.read_stands stands nonempty, ?_⟩, ?_⟩
  · unfold ahead at whole ⊢
    rw [← whole]
    simp only [List.append_assoc, ← List.append_assoc (channel.inTransit.take count), List.take_append_drop]
  · exact taken.trans (readerEnd.read_decoded stands nonempty).length_le

theorem Carries.step {action : ChannelAction} (carries : channel.Carries)
    (stepped : channel.step readerEnd writerBatch action = some next) : next.Carries := by
  cases action with
  | encode count => exact carries.encode stepped
  | write accepted => exact carries.write stepped
  | read count => exact carries.read stepped

/-- Moving bytes is neither sending nor acting. -/
theorem step_pending {action : ChannelAction} (stepped : channel.step readerEnd writerBatch action = some next) :
    next.sent = channel.sent ∧ next.taken = channel.taken := by
  cases action with
  | encode count =>
    simp only [ByteChannel.step, ByteChannel.encode] at stepped
    split_ifs at stepped
    cases stepped
    exact ⟨rfl, rfl⟩
  | write accepted =>
    simp only [ByteChannel.step, ByteChannel.write] at stepped
    split_ifs at stepped <;> cases stepped <;> exact ⟨rfl, rfl⟩
  | read count =>
    simp only [ByteChannel.step, ByteChannel.read] at stepped
    split_ifs at stepped
    cases stepped
    exact ⟨rfl, rfl⟩

end Steps

section Messages
variable {channel next : ByteChannel}

/-- What the reader has decoded is the first part of what was sent. -/
theorem Carries.decoded (carries : channel.Carries) (fits : ∀ message ∈ channel.sent, Representable message) :
    channel.reader.decoded <+: channel.sent := by
  obtain ⟨consumed, stands, whole⟩ := carries.stream
  have all := decodeStream_encode channel.sent fits
  have grows := decoded_grows consumed channel.ahead
  rw [whole, all] at grows
  rwa [stands]

/-- With no byte on its way, everything sent has been decoded, and the reader keeps none back. -/
theorem Carries.emptied (carries : channel.Carries) (fits : ∀ message ∈ channel.sent, Representable message)
    (nothing : channel.ahead = []) : channel.reader = { decoded := channel.sent } := by
  obtain ⟨consumed, stands, whole⟩ := carries.stream
  rw [nothing, List.append_nil] at whole
  rw [stands, whole]
  exact decodeStream_encode channel.sent fits

theorem takeNext_eq {message : Message} (taken : channel.takeNext = some (message, next)) :
    next = { channel with taken := channel.taken + 1 } := by
  obtain ⟨_, _, same⟩ := Option.map_eq_some_iff.mp taken
  exact (congrArg Prod.snd same).symm

theorem Carries.takeNext (carries : channel.Carries) {message : Message}
    (taken : channel.takeNext = some (message, next)) : next.Carries := by
  obtain ⟨found, there, same⟩ := Option.map_eq_some_iff.mp taken
  cases same
  exact ⟨carries.stream, (List.getElem?_eq_some_iff.mp there).1⟩

/-- What is acted on next is what was sent next. -/
theorem Carries.pending_takeNext (carries : channel.Carries) (fits : ∀ message ∈ channel.sent, Representable message)
    {message : Message} (taken : channel.takeNext = some (message, next)) :
    channel.pending = message :: next.pending := by
  obtain ⟨found, there, same⟩ := Option.map_eq_some_iff.mp taken
  cases same
  obtain ⟨inside, here⟩ := List.getElem?_eq_some_iff.mp there
  have first := carries.decoded fits
  have within : channel.taken < channel.sent.length := inside.trans_le first.length_le
  have sent : channel.sent[channel.taken] = message := by
    rw [← here]
    exact (first.getElem inside).symm
  show channel.sent.drop channel.taken = message :: channel.sent.drop (channel.taken + 1)
  rw [List.drop_eq_getElem_cons within, sent]

end Messages

section Draining
variable {channel : ByteChannel} {readerEnd : ReaderEnd} {writerBatch : Nat}

/-- What is in the buffer can be written and read to the end. -/
theorem drain_buffer (readerEnd : ReaderEnd) (writerBatch : Nat) (channel : ByteChannel) :
    ∃ moves next, Transitions.run (ByteChannel.step readerEnd writerBatch) channel moves = some next ∧
      next.queued = channel.queued ∧ next.inTransit = [] ∧ next.writeBuf.length ≤ next.writeOffset := by
  have reads (channel : ByteChannel) (written : channel.writeBuf.length ≤ channel.writeOffset) :
      ∃ moves next, Transitions.run (ByteChannel.step readerEnd writerBatch) channel moves = some next ∧
        next.queued = channel.queued ∧ next.inTransit = [] ∧ next.writeBuf.length ≤ next.writeOffset := by
    by_cases empty : channel.inTransit.length = 0
    · exact ⟨[], channel, rfl, rfl, List.length_eq_zero_iff.mp empty, written⟩
    · refine ⟨[.read channel.inTransit.length], { channel with
        inTransit := channel.inTransit.drop channel.inTransit.length
        reader := readerEnd.read channel.reader (.bytes (channel.inTransit.take channel.inTransit.length)) },
        ?_, rfl, List.drop_length, written⟩
      have stepped : channel.step readerEnd writerBatch (.read channel.inTransit.length) = some _ :=
        if_neg (not_or.mpr ⟨empty, lt_irrefl _⟩)
      rw [Transitions.run, stepped]
      rfl
  by_cases written : channel.writeBuf.length ≤ channel.writeOffset
  · exact reads channel written
  · have left : ¬ (channel.writeBuf.length - channel.writeOffset = 0 ∨
        channel.writeBuf.length < channel.writeOffset + (channel.writeBuf.length - channel.writeOffset)) := by omega
    have all : ¬ channel.writeOffset + (channel.writeBuf.length - channel.writeOffset) < channel.writeBuf.length := by omega
    have stepped : channel.step readerEnd writerBatch (.write (channel.writeBuf.length - channel.writeOffset)) = some _ :=
      (if_neg left).trans (if_neg all)
    obtain ⟨moves, next, ran, queued, rest⟩ := reads { channel with
      inTransit := channel.inTransit ++
        (channel.writeBuf.drop channel.writeOffset).take (channel.writeBuf.length - channel.writeOffset)
      writeBuf := []
      writeOffset := 0 } le_rfl
    refine ⟨.write (channel.writeBuf.length - channel.writeOffset) :: moves, next, ?_, queued, rest⟩
    rw [Transitions.run, stepped]
    exact ran

/-- From wherever the channel stands, its bytes can all be brought across. -/
theorem drains (readerEnd : ReaderEnd) (writerBatch : Nat) (channel : ByteChannel) :
    ∃ moves next, Transitions.run (ByteChannel.step readerEnd writerBatch) channel moves = some next ∧ next.ahead = [] := by
  generalize left : channel.queued.length = count
  induction count generalizing channel with
  | zero =>
    obtain ⟨moves, next, ran, queued, arrived, written⟩ := drain_buffer readerEnd writerBatch channel
    refine ⟨moves, next, ran, ?_⟩
    unfold ahead
    rw [queued, arrived, List.length_eq_zero_iff.mp left, List.drop_eq_nil_of_le written]
    rfl
  | succ count ih =>
    obtain ⟨moves, middle, ran, queued, _, written⟩ := drain_buffer readerEnd writerBatch channel
    have limit : 1 ≤ batchLimit writerBatch := by
      unfold batchLimit
      split_ifs <;> omega
    have some : 1 ≤ middle.queued.length := by
      rw [queued]
      omega
    have stepped : middle.step readerEnd writerBatch (.encode 1) = Option.some _ :=
      if_pos ⟨written, Nat.one_pos, limit, some⟩
    obtain ⟨later, last, laterRan, nothing⟩ := ih { middle with
      queued := middle.queued.drop 1
      writeBuf := (middle.queued.take 1).flatMap encodeMessage
      writeOffset := 0 } (by
        show (middle.queued.drop 1).length = count
        rw [List.length_drop, queued]
        omega)
    refine ⟨moves ++ .encode 1 :: later, last, ?_, nothing⟩
    rw [Transitions.run_append, ran]
    show Transitions.run _ middle (.encode 1 :: later) = _
    rw [Transitions.run, stepped]
    exact laterRan

theorem run_carries {moves : List ChannelAction} {next : ByteChannel} (carries : channel.Carries)
    (ran : Transitions.run (ByteChannel.step readerEnd writerBatch) channel moves = some next) :
    next.Carries ∧ next.sent = channel.sent := by
  refine Transitions.run_rule (fun _ next => next.Carries ∧ next.sent = channel.sent) ⟨carries, rfl⟩ ?_ ran
  intro _ before action after _ earlier stepped
  exact ⟨earlier.1.step stepped, (step_pending stepped).1.trans earlier.2⟩

/-- From wherever the channel stands it can come to where all that was sent has been decoded. -/
theorem Carries.drains (carries : channel.Carries) (readerEnd : ReaderEnd) (writerBatch : Nat)
    (fits : ∀ message ∈ channel.sent, Representable message) :
    ∃ moves next, Transitions.run (ByteChannel.step readerEnd writerBatch) channel moves = some next ∧
      next.reader = { decoded := channel.sent } := by
  obtain ⟨moves, next, ran, nothing⟩ := ByteChannel.drains readerEnd writerBatch channel
  obtain ⟨carried, sent⟩ := run_carries carries ran
  refine ⟨moves, next, ran, ?_⟩
  rw [← sent]
  exact carried.emptied (sent ▸ fits) nothing

end Draining

end ByteChannel

end Mdh.Gateway
