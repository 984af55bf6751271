import Mathlib.Data.List.Flatten
import Mdh.Feed.GapAccounting
import Mdh.Feed.Packet
import Mdh.Feed.RecordedFile

/-! A recorded feed sent over UDP and replayed by a listener with two threads: the sender packs the
file's events into datagrams, one thread unpacks what arrives into a bounded queue, and the other
replays it. A push and a pop are one step each. -/

namespace Mdh.Feed
open Mdh.Core Mdh.Lib

/-- The sender. `attempts` and `batches` are the history: how often it has tried to send, and the events
of every datagram that went out. -/
structure UdpSender where
  batch : List WireEvent := []
  packetSequence : Nat := 1
  eventsSent : Nat := 0
  packetsSent : Nat := 0
  decodeFailuresSkipped : Nat := 0
  datagrams : List (List UInt8) := []
  attempts : Nat := 0
  batches : List (List WireEvent) := []
  deriving DecidableEq, Repr

namespace UdpSender
variable (sendTo : Nat → Bool)

/-- `sendTo` is what the socket answers each attempt. A batch it does not take is dropped, and the next
one goes under its number. -/
def flushBatch (sender : UdpSender) : UdpSender :=
  if sender.batch.isEmpty then sender
  else if sendTo sender.attempts then { sender with
    batch := []
    packetSequence := sender.packetSequence + 1
    eventsSent := sender.eventsSent + sender.batch.length
    packetsSent := sender.packetsSent + 1
    datagrams := sender.datagrams ++ [packFrames sender.packetSequence sender.batch]
    attempts := sender.attempts + 1
    batches := sender.batches ++ [sender.batch] }
  else { sender with
    batch := []
    attempts := sender.attempts + 1 }

/-- One frame of the file. What does not decode is skipped. -/
def take (batchSize : Nat) (sender : UdpSender) : FrameResult → UdpSender
  | .error _ => { sender with decodeFailuresSkipped := sender.decodeFailuresSkipped + 1 }
  | .ok event =>
      let sender := { sender with batch := sender.batch ++ [event] }
      if sender.batch.length ≥ batchSize then sender.flushBatch sendTo else sender

/-- All the frames, and the last batch. -/
def send (batchSize : Nat) (frames : List FrameResult) : UdpSender :=
  (frames.foldl (take sendTo batchSize) {}).flushBatch sendTo

def sendFile (batchSize : Nat) (file : List UInt8) : UdpSender := send sendTo batchSize (EventFileReader.readFrames file)

/-- The events of the datagrams that went out. -/
def eventsOut (sender : UdpSender) : List WireEvent := sender.batches.flatten

end UdpSender

structure PacketSequenceStats where
  packetsSeen : Nat := 0
  inOrder : Nat := 0
  duplicate : Nat := 0
  outOfOrder : Nat := 0
  missingEvents : Nat := 0
  deriving DecidableEq, Repr

structure PacketSequenceTracker where
  validator : SequenceValidator := {}
  stats : PacketSequenceStats := {}
  deriving DecidableEq, Repr

def PacketSequenceTracker.observe (tracker : PacketSequenceTracker) (packetSequence : Nat) : PacketSequenceTracker :=
  let (validator, check) := tracker.validator.check64 packetSequence
  let stats := { tracker.stats with packetsSeen := tracker.stats.packetsSeen + 1 }
  { validator
    stats := match check.outcome with
      | .inOrder => { stats with inOrder := stats.inOrder + 1 }
      | .duplicate => { stats with duplicate := stats.duplicate + 1 }
      | .outOfOrder => { stats with outOfOrder := stats.outOfOrder + 1 }
      | .missing => { stats with missingEvents := stats.missingEvents + 1 } }

/-- Where the receiving thread stands, with what it has taken from the socket and not looked at. -/
inductive ReceiverPlace where
  | checking
  | receiving
  | unpacking (datagrams : List (List UInt8))
  | pushing (frames : List FrameResult) (datagrams : List (List UInt8))
  | ended (unread : List (List UInt8))
  deriving DecidableEq

/-- Where the replaying thread stands. -/
inductive ReplayerPlace where
  | popping
  | applying (frame : FrameResult)
  | testing
  | yielding
  | ended
  deriving DecidableEq

/-- The network and the listener. `lost`, `received`, `accepted` and `handled` are the history. -/
structure UdpListener where
  capacity : Nat := 1024
  taken : Nat := 0
  lost : Nat := 0
  socket : List (List UInt8) := []
  receiver : ReceiverPlace := .checking
  haveReceivedAny : Bool := false
  packetsReceived : Nat := 0
  packetErrors : Nat := 0
  tracker : PacketSequenceTracker := {}
  queue : List FrameResult := []
  droppedCount : Nat := 0
  replayer : ReplayerPlace := .popping
  replay : Replay := {}
  stopRequested : Bool := false
  received : List (List UInt8) := []
  accepted : List FrameResult := []
  handled : List FrameResult := []

inductive ListenAction where
  | arrive
  | lose
  | receiver (count : Nat)
  | idleTimeout
  | replayer
  deriving DecidableEq, Repr

namespace UdpListener

/-- The frames of a datagram, if it unpacks. -/
def framesOf (datagram : List UInt8) : List FrameResult :=
  match unpackFrames datagram with
  | .error _ => []
  | .ok packet => packet.frames

section Step
variable (listener : UdpListener)

def unpack (datagram : List UInt8) (rest : List (List UInt8)) : UdpListener :=
  let listener := { listener with
    packetsReceived := listener.packetsReceived + 1
    received := listener.received ++ [datagram] }
  match unpackFrames datagram with
  | .error _ => { listener with packetErrors := listener.packetErrors + 1, receiver := .unpacking rest }
  | .ok packet => { listener with
      tracker := listener.tracker.observe packet.header.packetSequence
      receiver := .pushing packet.frames rest }

def push (frame : FrameResult) (frames : List FrameResult) (rest : List (List UInt8)) : UdpListener :=
  if listener.queue.length ≥ listener.capacity then
    { listener with droppedCount := listener.droppedCount + 1, receiver := .pushing frames rest }
  else { listener with
    queue := listener.queue ++ [frame]
    accepted := listener.accepted ++ [frame]
    receiver := .pushing frames rest }

/-- `count` is how many datagrams one call takes from the socket. -/
def receiverStep (count : Nat) : Option UdpListener :=
  match listener.receiver with
  | .checking => some { listener with receiver := if listener.stopRequested then .ended [] else .receiving }
  | .receiving =>
      if listener.socket = [] then some { listener with receiver := .checking }
      else if 0 < count ∧ count ≤ 64 ∧ count ≤ listener.socket.length then some { listener with
        socket := listener.socket.drop count
        haveReceivedAny := true
        receiver := .unpacking (listener.socket.take count) }
      else none
  | .unpacking [] => some { listener with receiver := .checking }
  | .unpacking (datagram :: rest) =>
      some (if listener.stopRequested then { listener with receiver := .ended (datagram :: rest) }
        else listener.unpack datagram rest)
  | .pushing [] rest => some { listener with receiver := .unpacking rest }
  | .pushing (frame :: frames) rest => some (listener.push frame frames rest)
  | .ended _ => none

/-- Nothing has come for a while: the sender is taken to have finished. -/
def timeOut : Option UdpListener :=
  if listener.receiver = .receiving ∧ listener.socket = [] ∧ listener.haveReceivedAny then
    some { listener with receiver := .ended [], stopRequested := true }
  else none

def replayerStep (options : ReplayOptions) (files : String → Option (List UInt8)) : Option UdpListener :=
  match listener.replayer with
  | .popping =>
      match listener.queue with
      | [] => some { listener with replayer := .testing }
      | frame :: rest => some { listener with queue := rest, replayer := .applying frame }
  | .applying frame =>
      let (replay, stop) := applyFrameResult options { frame, files } listener.replay
      let listener := { listener with replay, handled := listener.handled ++ [frame] }
      some (if stop then { listener with stopRequested := true, replayer := .ended } else { listener with replayer := .popping })
  | .testing => some { listener with replayer := if listener.stopRequested then .ended else .yielding }
  | .yielding => some { listener with replayer := .popping }
  | .ended => none

end Step

/-- The network delivers in order what it does not lose, and a datagram larger than the buffer is cut off. -/
def step (options : ReplayOptions) (files : String → Option (List UInt8)) (maxDatagramSize : Nat)
    (sent : List (List UInt8)) (listener : UdpListener) : ListenAction → Option UdpListener
  | .arrive => sent[listener.taken]?.map fun datagram =>
      { listener with taken := listener.taken + 1, socket := listener.socket ++ [datagram.take maxDatagramSize] }
  | .lose => sent[listener.taken]?.map fun _ => { listener with taken := listener.taken + 1, lost := listener.lost + 1 }
  | .receiver count => listener.receiverStep count
  | .idleTimeout => listener.timeOut
  | .replayer => listener.replayerStep options files

/-- What the receiving thread has in hand. -/
def unread (listener : UdpListener) : List (List UInt8) :=
  match listener.receiver with
  | .checking | .receiving => []
  | .unpacking datagrams | .pushing _ datagrams | .ended datagrams => datagrams

def unpushed (listener : UdpListener) : List FrameResult :=
  match listener.receiver with
  | .pushing frames _ => frames
  | .checking | .receiving | .unpacking _ | .ended _ => []

def inHand (listener : UdpListener) : List FrameResult :=
  match listener.replayer with
  | .applying frame => [frame]
  | .popping | .testing | .yielding | .ended => []

end UdpListener

namespace UdpSender
variable {sendTo : Nat → Bool} {batchSize : Nat} {events : List WireEvent} {sender : UdpSender}

/-- What the sender keeps: of the events it took, those of the datagrams that went out come before those
of the batch it fills, and they are all of them if everything went out. -/
structure Packing (sendTo : Nat → Bool) (batchSize : Nat) (events : List WireEvent) (sender : UdpSender) : Prop where
  kept : (sender.eventsOut ++ sender.batch).Sublist events
  whole : (∀ attempt, sendTo attempt = true) → sender.eventsOut ++ sender.batch = events
  datagrams : sender.datagrams = sender.batches.mapIdx fun index batch => packFrames (index + 1) batch
  packetSequence : sender.packetSequence = sender.batches.length + 1
  sized : ∀ batch ∈ sender.batches, batch ≠ [] ∧ batch.length ≤ batchSize
  eventsSent : sender.eventsSent = sender.eventsOut.length
  packetsSent : sender.packetsSent = sender.batches.length

theorem flushBatch_batch (sender : UdpSender) : (sender.flushBatch sendTo).batch = [] := by
  unfold flushBatch
  split_ifs with empty
  · exact List.isEmpty_iff.mp empty
  · rfl
  · rfl

theorem Packing.flushBatch (packing : Packing sendTo batchSize events sender) (few : sender.batch.length ≤ batchSize) :
    Packing sendTo batchSize events (sender.flushBatch sendTo) := by
  unfold UdpSender.flushBatch
  split_ifs with empty goes
  · exact packing
  · obtain ⟨kept, whole, datagrams, packetSequence, sized, eventsSent, packetsSent⟩ := packing
    have out : (sender.batches ++ [sender.batch]).flatten = sender.eventsOut ++ sender.batch := by
      rw [List.flatten_append, List.flatten_singleton]
      rfl
    refine ⟨?_, fun all => ?_, ?_, ?_, fun batch member => ?_, ?_, ?_⟩
    · rw [eventsOut, out, List.append_nil]
      exact kept
    · rw [eventsOut, out, List.append_nil]
      exact whole all
    · rw [List.mapIdx_concat, datagrams, packetSequence]
    · rw [List.length_append, packetSequence]
      rfl
    · rcases List.mem_append.mp member with before | last
      · exact sized batch before
      · rw [List.mem_singleton.mp last]
        exact ⟨fun nothing => empty (List.isEmpty_iff.mpr nothing), few⟩
    · rw [eventsOut, out, List.length_append, eventsSent]
    · rw [List.length_append, packetsSent]
      rfl
  · refine { packing with kept := ?_, whole := fun all => absurd (all _) goes }
    show (sender.eventsOut ++ []).Sublist events
    rw [List.append_nil]
    exact (List.sublist_append_left ..).trans packing.kept

theorem Packing.take (packing : Packing sendTo batchSize events sender) (room : sender.batch.length < batchSize)
    (frame : FrameResult) :
    Packing sendTo batchSize (events ++ eventsIn [frame]) (sender.take sendTo batchSize frame) ∧
      (sender.take sendTo batchSize frame).batch.length < batchSize := by
  cases frame with
  | error error =>
    refine ⟨?_, room⟩
    rw [show eventsIn [.error error] = [] from rfl, List.append_nil]
    exact { packing with }
  | ok event =>
    have filled : Packing sendTo batchSize (events ++ [event]) { sender with batch := sender.batch ++ [event] } := by
      refine { packing with kept := ?_, whole := fun all => ?_ }
      · show (sender.eventsOut ++ (sender.batch ++ [event])).Sublist _
        rw [← List.append_assoc]
        exact packing.kept.append_right [event]
      · show sender.eventsOut ++ (sender.batch ++ [event]) = _
        rw [← List.append_assoc, packing.whole all]
    have length : (sender.batch ++ [event]).length = sender.batch.length + 1 := List.length_append
    unfold UdpSender.take
    dsimp only
    split_ifs with full
    · refine ⟨filled.flushBatch ?_, ?_⟩
      · dsimp only
        omega
      · rw [flushBatch_batch, List.length_nil]
        omega
    · exact ⟨filled, not_le.mp full⟩

theorem eventsIn_append (front back : List FrameResult) : eventsIn (front ++ back) = eventsIn front ++ eventsIn back :=
  List.filterMap_append

/-- The events that went out are in the datagrams, in their order and packed into full batches or fewer. -/
theorem send_packing (positive : 0 < batchSize) (frames : List FrameResult) :
    Packing sendTo batchSize (eventsIn frames) (send sendTo batchSize frames) ∧ (send sendTo batchSize frames).batch = [] := by
  have each : Packing sendTo batchSize (eventsIn frames) (frames.foldl (UdpSender.take sendTo batchSize) {}) ∧
      (frames.foldl (UdpSender.take sendTo batchSize) {}).batch.length < batchSize := by
    induction frames using List.reverseRecOn with
    | nil => exact ⟨⟨List.Sublist.refl _, fun _ => rfl, rfl, rfl, by rintro _ ⟨⟩, rfl, rfl⟩, positive⟩
    | append_singleton frames frame ih =>
      rw [List.foldl_append, eventsIn_append]
      exact ih.1.take ih.2 frame
  exact ⟨each.1.flushBatch each.2.le, flushBatch_batch _⟩

end UdpSender

/-- Frames as a replay takes them, with the files as they are. -/
def arrivalsWith (files : String → Option (List UInt8)) (frames : List FrameResult) : List Arrival :=
  frames.map fun frame => { frame, files }

/-- Whether a replay has stopped is what the last frame answered. -/
theorem applyFrameResult_stoppedEarly (options : ReplayOptions) (arrival : Arrival) {replay : Replay}
    (going : replay.outcome.stoppedEarly = false) :
    (applyFrameResult options arrival replay).1.outcome.stoppedEarly = (applyFrameResult options arrival replay).2 := by
  unfold applyFrameResult
  cases arrival.frame with
  | error error =>
    dsimp only
    split_ifs
    · rfl
    · exact going
  | ok event =>
    dsimp only
    by_cases inOrder : (replay.validator.check64 event.sequenceNumber).2.outcome = .inOrder
    · rw [if_pos inOrder]
      exact going
    · rw [if_neg inOrder]
      split
      · split
        · rfl
        · exact going
      · split
        · rfl
        · exact going

section Strict
variable {options : ReplayOptions} {files : String → Option (List UInt8)}

/-- A replay that stops at every sequence error goes on only with the number that comes next. -/
theorem applyFrameResult_strict (strict : options.stopOnSequenceError = true) (alone : options.recoverySnapshotPath = none)
    {replay : Replay} {event : WireEvent}
    (goes : (applyFrameResult options { frame := .ok event, files } replay).2 = false) :
    (replay.validator.check64 event.sequenceNumber).2.outcome = .inOrder ∧
      (applyFrameResult options { frame := .ok event, files } replay).1.validator =
        (replay.validator.check64 event.sequenceNumber).1 := by
  unfold applyFrameResult at goes ⊢
  dsimp only at goes ⊢
  by_cases inOrder : (replay.validator.check64 event.sequenceNumber).2.outcome = .inOrder
  · rw [if_pos inOrder]
    exact ⟨inOrder, rfl⟩
  · rw [if_neg inOrder, alone, if_pos strict] at goes
    cases outcome : (replay.validator.check64 event.sequenceNumber).2.outcome <;>
    · rw [outcome] at goes
      cases goes

/-- If such a replay has not stopped, the numbers it went over are consecutive. -/
theorem replayLoop_consecutive (strict : options.stopOnSequenceError = true) (alone : options.recoverySnapshotPath = none)
    {events : List WireEvent} (below : ∀ event ∈ events, event.sequenceNumber < 2 ^ 64 - 1) {replay : Replay} {last : Nat}
    (seen : replay.validator.lastSeen = some last) (room : last < 2 ^ 64 - 1)
    (going : replay.outcome.stoppedEarly = false)
    (unstopped : (replayLoop options (arrivalsWith files (events.map .ok)) replay).outcome.stoppedEarly = false) :
    events.map WireEvent.sequenceNumber = List.range' (last + 1) events.length := by
  induction events generalizing replay last with
  | nil => rfl
  | cons event events ih =>
    have answer := applyFrameResult_stoppedEarly options { frame := .ok event, files } going
    rw [List.map_cons, arrivalsWith, List.map_cons, replayLoop] at unstopped
    dsimp only at unstopped
    split_ifs at unstopped with stop
    · rw [answer, stop] at unstopped
      cases unstopped
    have goes := Bool.eq_false_iff.mpr stop
    obtain ⟨inOrder, validator⟩ := applyFrameResult_strict strict alone goes
    have small := below event List.mem_cons_self
    obtain ⟨_, _, late⟩ | ⟨ahead, moved, _, accounted⟩ := @check64_moves _ event.sequenceNumber _ seen room
    · exact absurd inOrder (by rcases late with same | same <;> rw [same] <;> exact nofun)
    have one : event.sequenceNumber = last + 1 := by
      rw [SequenceCheck.accounted, inOrder] at accounted
      have length := congrArg List.length accounted
      rw [List.length_append, List.length_range', List.length_singleton, List.length_singleton] at length
      omega
    rw [List.map_cons, List.length_cons, List.range'_succ, ← one]
    congr 1
    exact ih (fun other member => below other (List.mem_cons_of_mem _ member)) (validator ▸ moved) small (answer.trans goes)
      unstopped

/-- A whole file replayed so without a stop has consecutive numbers from its first one on. -/
theorem runReplay_consecutive (strict : options.stopOnSequenceError = true) (alone : options.recoverySnapshotPath = none)
    {first : WireEvent} {rest : List WireEvent} (below : ∀ event ∈ first :: rest, event.sequenceNumber < 2 ^ 64 - 1)
    {inputPath : String}
    (unstopped : (runReplay options inputPath
      (some (arrivalsWith files ((first :: rest).map .ok)))).stoppedEarly = false) :
    (first :: rest).map WireEvent.sequenceNumber = List.range' first.sequenceNumber (rest.length + 1) := by
  have one : applyFrameResult options { frame := .ok first, files } {} =
      ({ validator := { lastSeen := some first.sequenceNumber }, outcome := ({} : ReplayOutcome).apply first }, false) := rfl
  rw [runReplay, List.map_cons, arrivalsWith, List.map_cons, replayLoop, one] at unstopped
  have following : ∀ event ∈ rest, event.sequenceNumber < 2 ^ 64 - 1 := fun event member =>
    below event (List.mem_cons_of_mem _ member)
  have later := replayLoop_consecutive strict alone following rfl (below first List.mem_cons_self) rfl unstopped
  rw [List.map_cons, List.range'_succ, later]

end Strict

namespace UdpListener
variable {options : ReplayOptions} {files : String → Option (List UInt8)} {maxDatagramSize : Nat}
  {sent : List (List UInt8)} {listener next : UdpListener}

/-- What became of the datagrams, as far as the receiving thread has come. -/
structure Received (maxDatagramSize : Nat) (sent : List (List UInt8)) (listener : UdpListener) : Prop where
  delivered : (listener.received ++ listener.unread ++ listener.socket).Sublist
    ((sent.take listener.taken).map (List.take maxDatagramSize))
  within : listener.taken ≤ sent.length
  counted : listener.received.length + listener.unread.length + listener.socket.length + listener.lost = listener.taken
  packetsReceived : listener.packetsReceived = listener.received.length
  packetErrors : listener.packetErrors = listener.received.countP fun datagram => (unpackFrames datagram).toOption = none
  offered : ∃ offered, listener.received.flatMap framesOf = offered ++ listener.unpushed ∧
    listener.accepted.Sublist offered ∧ offered.length = listener.accepted.length + listener.droppedCount

/-- A frame that was accepted is in the queue, in hand, or replayed, in this order. -/
def Queued (listener : UdpListener) : Prop := listener.accepted = listener.handled ++ listener.inHand ++ listener.queue

/-- The replay is that of the frames handled so far, and has gone on to here unless one stopped it. -/
structure Replayed (options : ReplayOptions) (files : String → Option (List UInt8)) (listener : UdpListener) : Prop where
  going : listener.replay.outcome.stoppedEarly = false → ∀ more,
    replayLoop options (arrivalsWith files (listener.handled ++ more)) {} =
      replayLoop options (arrivalsWith files more) listener.replay
  stopped : listener.replay.outcome.stoppedEarly = true → listener.replayer = .ended ∧ ∀ more,
    replayLoop options (arrivalsWith files (listener.handled ++ more)) {} = listener.replay

section Receiver

/-- The thread goes somewhere else with the same in hand. -/
theorem Received.moved (received : Received maxDatagramSize sent listener) {place : ReceiverPlace} {stopRequested : Bool}
    (sameUnread : { listener with receiver := place, stopRequested }.unread = listener.unread)
    (sameUnpushed : { listener with receiver := place, stopRequested }.unpushed = listener.unpushed) :
    Received maxDatagramSize sent { listener with receiver := place, stopRequested } := by
  obtain ⟨delivered, within, counted, packetsReceived, packetErrors, offered⟩ := received
  rw [← sameUnread] at delivered counted
  rw [← sameUnpushed] at offered
  exact ⟨delivered, within, counted, packetsReceived, packetErrors, offered⟩

theorem Received.unpack (received : Received maxDatagramSize sent listener) {datagram : List UInt8} {rest : List (List UInt8)}
    (place : listener.receiver = .unpacking (datagram :: rest)) : Received maxDatagramSize sent (listener.unpack datagram rest) := by
  obtain ⟨delivered, within, counted, packetsReceived, packetErrors, offered⟩ := received
  simp only [unread, unpushed, place] at delivered counted offered
  obtain ⟨frames, all, accepted, lengths⟩ := offered
  rw [List.append_nil] at all
  rw [List.append_cons] at delivered
  have inReceived : (listener.received ++ [datagram]).length = listener.received.length + 1 := List.length_append
  rw [List.length_cons] at counted
  unfold UdpListener.unpack
  cases unpacked : unpackFrames datagram with
  | error error =>
    have nothing : framesOf datagram = [] := by rw [framesOf, unpacked]
    refine ⟨delivered, within, ?_, ?_, ?_, frames, ?_, accepted, lengths⟩
    · dsimp only [unread]
      omega
    · dsimp only
      omega
    · dsimp only
      rw [List.countP_append, List.countP_singleton, unpacked, packetErrors]
      rfl
    · dsimp only [unpushed]
      rw [List.flatMap_append, List.flatMap_singleton, nothing, all]
  | ok packet =>
    have inside : framesOf datagram = packet.frames := by rw [framesOf, unpacked]
    refine ⟨delivered, within, ?_, ?_, ?_, frames, ?_, accepted, lengths⟩
    · dsimp only [unread]
      omega
    · dsimp only
      omega
    · dsimp only
      rw [List.countP_append, List.countP_singleton, unpacked, packetErrors]
      rfl
    · dsimp only [unpushed]
      rw [List.flatMap_append, List.flatMap_singleton, inside, all]

/-- A frame that finds the queue full is gone, and counted. -/
theorem Received.push (received : Received maxDatagramSize sent listener) {frame : FrameResult} {frames : List FrameResult}
    {rest : List (List UInt8)} (place : listener.receiver = .pushing (frame :: frames) rest) :
    Received maxDatagramSize sent (listener.push frame frames rest) := by
  obtain ⟨delivered, within, counted, packetsReceived, packetErrors, offered⟩ := received
  simp only [unread, unpushed, place] at delivered counted offered
  obtain ⟨before, all, accepted, lengths⟩ := offered
  have inOffered : (before ++ [frame]).length = before.length + 1 := List.length_append
  have inAccepted : (listener.accepted ++ [frame]).length = listener.accepted.length + 1 := List.length_append
  rw [List.append_cons] at all
  unfold UdpListener.push
  split_ifs
  · refine ⟨delivered, within, counted, packetsReceived, packetErrors, before ++ [frame], all, ?_, ?_⟩
    · exact accepted.trans (List.sublist_append_left ..)
    · dsimp only
      omega
  · refine ⟨delivered, within, counted, packetsReceived, packetErrors, before ++ [frame], all, ?_, ?_⟩
    · exact accepted.append (List.Sublist.refl _)
    · dsimp only
      omega

theorem Received.receiver (received : Received maxDatagramSize sent listener) {count : Nat}
    (stepped : listener.receiverStep count = some next) : Received maxDatagramSize sent next := by
  unfold receiverStep at stepped
  cases place : listener.receiver with
  | checking =>
    rw [place] at stepped
    cases stepped
    split_ifs <;> exact received.moved (by simp only [unread, place]) (by simp only [unpushed, place])
  | receiving =>
    rw [place] at stepped
    dsimp only at stepped
    split_ifs at stepped with empty enough
    · cases stepped
      exact received.moved (by simp only [unread, place]) (by simp only [unpushed, place])
    · cases stepped
      obtain ⟨delivered, within, counted, packetsReceived, packetErrors, offered⟩ := received
      simp only [unread, unpushed, place] at delivered counted offered
      rw [List.append_nil, ← List.take_append_drop count listener.socket, ← List.append_assoc] at delivered
      have lengths := congrArg List.length (List.take_append_drop count listener.socket)
      rw [List.length_append] at lengths
      refine ⟨delivered, within, ?_, packetsReceived, packetErrors, offered⟩
      dsimp only [unread]
      rw [List.length_nil] at counted
      omega
  | unpacking datagrams =>
    rw [place] at stepped
    cases datagrams with
    | nil =>
      cases stepped
      exact received.moved (by simp only [unread, place]) (by simp only [unpushed, place])
    | cons datagram rest =>
      cases stepped
      split_ifs
      · exact received.moved (by simp only [unread, place]) (by simp only [unpushed, place])
      · exact received.unpack place
  | pushing frames rest =>
    rw [place] at stepped
    cases frames with
    | nil =>
      cases stepped
      exact received.moved (by simp only [unread, place]) (by simp only [unpushed, place])
    | cons frame frames =>
      cases stepped
      exact received.push place
  | ended =>
    rw [place] at stepped
    cases stepped

/-- To the replaying thread a step of the receiving one is what it puts in the queue. -/
theorem receiverStep_queue {count : Nat} (stepped : listener.receiverStep count = some next) :
    (∃ frames, next.accepted = listener.accepted ++ frames ∧ next.queue = listener.queue ++ frames) ∧
      next.handled = listener.handled ∧ next.replayer = listener.replayer ∧ next.replay = listener.replay := by
  have nothing : (∃ frames, listener.accepted = listener.accepted ++ frames ∧ listener.queue = listener.queue ++ frames) :=
    ⟨[], (List.append_nil _).symm, (List.append_nil _).symm⟩
  unfold receiverStep at stepped
  cases place : listener.receiver with
  | checking =>
    rw [place] at stepped
    cases stepped
    exact ⟨nothing, rfl, rfl, rfl⟩
  | receiving =>
    rw [place] at stepped
    dsimp only at stepped
    split_ifs at stepped <;>
    · cases stepped
      exact ⟨nothing, rfl, rfl, rfl⟩
  | unpacking datagrams =>
    rw [place] at stepped
    cases datagrams with
    | nil =>
      cases stepped
      exact ⟨nothing, rfl, rfl, rfl⟩
    | cons datagram rest =>
      cases stepped
      split_ifs
      · exact ⟨nothing, rfl, rfl, rfl⟩
      · unfold UdpListener.unpack
        cases unpackFrames datagram <;> exact ⟨nothing, rfl, rfl, rfl⟩
  | pushing frames rest =>
    rw [place] at stepped
    cases frames with
    | nil =>
      cases stepped
      exact ⟨nothing, rfl, rfl, rfl⟩
    | cons frame frames =>
      cases stepped
      unfold UdpListener.push
      split_ifs
      · exact ⟨nothing, rfl, rfl, rfl⟩
      · exact ⟨⟨[frame], rfl, rfl⟩, rfl, rfl, rfl⟩
  | ended =>
    rw [place] at stepped
    cases stepped

end Receiver

section Replayer

/-- A frame in hand is applied; if it is one to stop at, everybody is told. -/
theorem replayerStep_applying {frame : FrameResult} (place : listener.replayer = .applying frame) :
    listener.replayerStep options files = some { listener with
      replay := (applyFrameResult options { frame, files } listener.replay).1
      handled := listener.handled ++ [frame]
      stopRequested := (applyFrameResult options { frame, files } listener.replay).2 || listener.stopRequested
      replayer := if (applyFrameResult options { frame, files } listener.replay).2 then .ended else .popping } := by
  unfold replayerStep
  rw [place]
  dsimp only
  cases (applyFrameResult options { frame, files } listener.replay).2 <;> rfl

theorem Queued.replayer (queued : listener.Queued) (stepped : listener.replayerStep options files = some next) :
    next.Queued := by
  unfold Queued at queued ⊢
  unfold replayerStep at stepped
  cases place : listener.replayer with
  | popping =>
    simp only [place, inHand, List.append_nil] at stepped queued
    cases waiting : listener.queue with
    | nil =>
      rw [waiting] at stepped
      cases stepped
      dsimp only [inHand]
      rw [List.append_nil, queued, waiting]
    | cons frame rest =>
      rw [waiting] at stepped queued
      cases stepped
      dsimp only [inHand]
      rw [queued, List.append_assoc]
      rfl
  | applying frame =>
    have inHandBefore : listener.inHand = [frame] := by rw [inHand, place]
    rw [← replayerStep, replayerStep_applying place] at stepped
    cases stepped
    rw [inHandBefore] at queued
    cases (applyFrameResult options { frame, files } listener.replay).2 <;>
    · show listener.accepted = listener.handled ++ [frame] ++ [] ++ listener.queue
      rw [queued, List.append_nil]
  | testing =>
    simp only [place, inHand] at stepped queued
    cases stepped
    split_ifs <;> exact queued
  | yielding =>
    simp only [place, inHand] at stepped queued
    cases stepped
    exact queued
  | ended =>
    rw [place] at stepped
    cases stepped

theorem Replayed.replayer (replayed : listener.Replayed options files)
    (stepped : listener.replayerStep options files = some next) : next.Replayed options files := by
  have going : listener.replayer ≠ .ended → listener.replay.outcome.stoppedEarly = false := fun working =>
    Bool.eq_false_iff.mpr fun stopped => working (replayed.stopped stopped).1
  have same {after : UdpListener} (working : listener.replayer ≠ .ended) (replay : after.replay = listener.replay)
      (handled : after.handled = listener.handled) : after.Replayed options files := by
    constructor
    · rw [replay, handled]
      exact replayed.going
    · intro stopped
      rw [replay, going working] at stopped
      cases stopped
  unfold replayerStep at stepped
  cases place : listener.replayer with
  | popping =>
    have working : listener.replayer ≠ .ended := by rw [place]; exact nofun
    rw [place] at stepped
    dsimp only at stepped
    split at stepped <;>
    · cases stepped
      exact same working rfl rfl
  | testing | yielding =>
    have working : listener.replayer ≠ .ended := by rw [place]; exact nofun
    rw [place] at stepped
    cases stepped
    exact same working rfl rfl
  | applying frame =>
    have working : listener.replayer ≠ .ended := by rw [place]; exact nofun
    rw [← replayerStep, replayerStep_applying place] at stepped
    cases stepped
    have answer := applyFrameResult_stoppedEarly options { frame, files } (going working)
    have before := replayed.going (going working)
    have after : ∀ more, replayLoop options (arrivalsWith files (listener.handled ++ [frame] ++ more)) {} =
        if (applyFrameResult options { frame, files } listener.replay).2 then
          (applyFrameResult options { frame, files } listener.replay).1
        else replayLoop options (arrivalsWith files more) (applyFrameResult options { frame, files } listener.replay).1 := by
      intro more
      rw [List.append_assoc, before]
      rfl
    cases stop : (applyFrameResult options { frame, files } listener.replay).2 with
    | false =>
      rw [stop] at answer after
      constructor
      · exact fun _ => after
      · intro stopped
        exact absurd (answer.symm.trans stopped) nofun
    | true =>
      rw [stop] at answer after
      constructor
      · intro running
        exact absurd (answer.symm.trans running) nofun
      · exact fun _ => ⟨rfl, after⟩
  | ended =>
    rw [place] at stepped
    cases stepped

/-- To the receiving thread a step of the replaying one is what it takes from the queue, or a request to stop. -/
theorem Received.replayer (received : Received maxDatagramSize sent listener) (stepped : listener.replayerStep options files = some next) :
    Received maxDatagramSize sent next := by
  obtain ⟨delivered, within, counted, packetsReceived, packetErrors, offered⟩ := received
  unfold replayerStep at stepped
  cases place : listener.replayer with
  | popping =>
    rw [place] at stepped
    dsimp only at stepped
    split at stepped <;>
    · cases stepped
      exact ⟨delivered, within, counted, packetsReceived, packetErrors, offered⟩
  | testing | yielding =>
    rw [place] at stepped
    cases stepped
    exact ⟨delivered, within, counted, packetsReceived, packetErrors, offered⟩
  | applying frame =>
    rw [← replayerStep, replayerStep_applying place] at stepped
    cases stepped
    exact ⟨delivered, within, counted, packetsReceived, packetErrors, offered⟩
  | ended =>
    rw [place] at stepped
    cases stepped

end Replayer

/-- What a listener keeps, whatever it is sent and however its threads and the network take turns. -/
structure Accounted (options : ReplayOptions) (files : String → Option (List UInt8)) (maxDatagramSize : Nat)
    (sent : List (List UInt8)) (listener : UdpListener) : Prop where
  received : Received maxDatagramSize sent listener
  queued : listener.Queued
  replayed : listener.Replayed options files

theorem Received.arrive (received : Received maxDatagramSize sent listener) {datagram : List UInt8}
    (found : sent[listener.taken]? = some datagram) :
    Received maxDatagramSize sent { listener with
      taken := listener.taken + 1
      socket := listener.socket ++ [datagram.take maxDatagramSize] } := by
  obtain ⟨delivered, _, counted, packetsReceived, packetErrors, offered⟩ := received
  obtain ⟨inside, _⟩ := List.getElem?_eq_some_iff.mp found
  have inSocket : (listener.socket ++ [datagram.take maxDatagramSize]).length = listener.socket.length + 1 :=
    List.length_append
  refine ⟨?_, inside, ?_, packetsReceived, packetErrors, offered⟩
  · dsimp only
    rw [List.take_add_one, found, List.map_append, ← List.append_assoc]
    exact delivered.append (List.Sublist.refl _)
  · dsimp only [unread] at counted ⊢
    omega

theorem Received.lose (received : Received maxDatagramSize sent listener) {datagram : List UInt8}
    (found : sent[listener.taken]? = some datagram) :
    Received maxDatagramSize sent { listener with taken := listener.taken + 1, lost := listener.lost + 1 } := by
  obtain ⟨delivered, _, counted, packetsReceived, packetErrors, offered⟩ := received
  obtain ⟨inside, _⟩ := List.getElem?_eq_some_iff.mp found
  refine ⟨delivered.trans ?_, inside, ?_, packetsReceived, packetErrors, offered⟩
  · exact ((List.take_prefix_take_left (Nat.le_succ _)).map _).sublist
  · dsimp only [unread] at counted ⊢
    omega

theorem Accounted.step (accounted : Accounted options files maxDatagramSize sent listener) {action : ListenAction}
    (stepped : listener.step options files maxDatagramSize sent action = some next) : Accounted options files maxDatagramSize sent next := by
  obtain ⟨received, queued, replayed⟩ := accounted
  cases action with
  | arrive =>
    obtain ⟨datagram, found, rfl⟩ := Option.map_eq_some_iff.mp stepped
    exact ⟨received.arrive found, queued, ⟨replayed.going, replayed.stopped⟩⟩
  | lose =>
    obtain ⟨datagram, found, rfl⟩ := Option.map_eq_some_iff.mp stepped
    exact ⟨received.lose found, queued, ⟨replayed.going, replayed.stopped⟩⟩
  | receiver count =>
    obtain ⟨⟨frames, accepted, queue⟩, handled, replayer, replay⟩ := receiverStep_queue stepped
    refine ⟨received.receiver stepped, ?_, ?_⟩
    · have inHand : next.inHand = listener.inHand := by rw [UdpListener.inHand, UdpListener.inHand, replayer]
      have before : listener.accepted = listener.handled ++ listener.inHand ++ listener.queue := queued
      rw [Queued, accepted, queue, handled, inHand, before, List.append_assoc (listener.handled ++ listener.inHand)]
    · constructor
      · rw [replay, handled]
        exact replayed.going
      · rw [replay, handled, replayer]
        exact replayed.stopped
  | idleTimeout =>
    obtain ⟨waiting, timedOut⟩ := Option.ite_none_right_eq_some.mp stepped
    cases timedOut
    refine ⟨received.moved ?_ ?_, queued, ⟨replayed.going, replayed.stopped⟩⟩
    · simp only [unread, waiting.1]
    · simp only [unpushed, waiting.1]
  | replayer => exact ⟨received.replayer stepped, queued.replayer stepped, replayed.replayer stepped⟩

theorem run_accounted {capacity : Nat} {actions : List ListenAction}
    (ran : Transitions.run (step options files maxDatagramSize sent) { capacity } actions = some listener) :
    Accounted options files maxDatagramSize sent listener := by
  refine Transitions.run_invariant (fun _ _ _ accounted stepped => Accounted.step accounted stepped) ?_ ran
  refine ⟨⟨List.nil_sublist _, Nat.zero_le _, rfl, rfl, rfl, [], rfl, List.nil_sublist _, rfl⟩, rfl, ?_⟩
  exact ⟨fun _ _ => rfl, nofun⟩

/-- The two results of a whole run: what was replayed, and the file's own replay of the same frames. -/
theorem Accounted.outcome (accounted : Accounted options files maxDatagramSize sent listener) (inputPath : String) :
    listener.replay.outcome = runReplay options inputPath (some (arrivalsWith files listener.handled)) := by
  cases early : listener.replay.outcome.stoppedEarly with
  | false =>
    have going := accounted.replayed.going early []
    rw [List.append_nil] at going
    rw [runReplay, going]
    rfl
  | true =>
    have stopped := (accounted.replayed.stopped early).2 []
    rw [List.append_nil] at stopped
    rw [runReplay, stopped]

/-- A replay that a frame has stopped is the replay of any file that goes on behind it. -/
theorem Accounted.outcome_of_prefix (accounted : Accounted options files maxDatagramSize sent listener) {frames : List FrameResult}
    (early : listener.replay.outcome.stoppedEarly = true) (handled : listener.handled <+: frames) (inputPath : String) :
    listener.replay.outcome = runReplay options inputPath (some (arrivalsWith files frames)) := by
  obtain ⟨more, rfl⟩ := handled
  rw [runReplay, (accounted.replayed.stopped early).2]

/-- Everything sent is through: nothing is left on the way, in the queue or in hand. -/
structure Through (sent : List (List UInt8)) (listener : UdpListener) : Prop where
  taken : listener.taken = sent.length
  socket : listener.socket = []
  unread : listener.unread = []
  unpushed : listener.unpushed = []
  queue : listener.queue = []
  inHand : listener.inHand = []

/-- What fits the buffer arrives as it was sent. -/
theorem uncut (small : ∀ datagram ∈ sent, datagram.length ≤ maxDatagramSize) :
    (sent.take listener.taken).map (List.take maxDatagramSize) = sent.take listener.taken := by
  calc (sent.take listener.taken).map (List.take maxDatagramSize)
      = (sent.take listener.taken).map id :=
        List.map_congr_left fun datagram member => List.take_of_length_le (small datagram (List.mem_of_mem_take member))
    _ = sent.take listener.taken := List.map_id _

/-- With nothing lost and nothing dropped the frames replayed are the first of those sent. -/
theorem Accounted.whole (accounted : Accounted options files maxDatagramSize sent listener)
    (small : ∀ datagram ∈ sent, datagram.length ≤ maxDatagramSize) (noLoss : listener.lost = 0)
    (noDrop : listener.droppedCount = 0) :
    listener.handled <+: sent.flatMap framesOf ∧
      (listener.Through sent → listener.handled = sent.flatMap framesOf) := by
  obtain ⟨⟨delivered, within, counted, _, _, frames, all, accepted, lengths⟩, queued, _⟩ := accounted
  have everything : listener.received ++ listener.unread ++ listener.socket = sent.take listener.taken := by
    rw [uncut small] at delivered
    apply delivered.eq_of_length
    rw [List.length_append, List.length_append, List.length_take_of_le within]
    omega
  have kept : listener.accepted = frames := accepted.eq_of_length (by omega)
  have order : listener.accepted = listener.handled ++ listener.inHand ++ listener.queue := queued
  have pushed : listener.received.flatMap framesOf = listener.handled ++ (listener.inHand ++ listener.queue ++ listener.unpushed) := by
    rw [all, ← kept, order]
    simp only [List.append_assoc]
  constructor
  · have first : listener.handled <+: listener.received.flatMap framesOf := pushed ▸ List.prefix_append ..
    have heard : listener.received.flatMap framesOf <+: (sent.take listener.taken).flatMap framesOf := by
      rw [← everything, List.append_assoc, List.flatMap_append]
      exact List.prefix_append ..
    have rest : (sent.take listener.taken).flatMap framesOf <+: sent.flatMap framesOf := by
      refine ⟨(sent.drop listener.taken).flatMap framesOf, ?_⟩
      rw [← List.flatMap_append, List.take_append_drop]
    exact (first.trans heard).trans rest
  · intro through
    rw [through.taken, List.take_length, through.unread, through.socket, List.append_nil, List.append_nil] at everything
    rw [through.inHand, through.queue, through.unpushed, List.append_nil, List.append_nil, List.append_nil, everything] at pushed
    exact pushed.symm

/-- Datagrams come in the order they were sent in, and none comes twice. -/
theorem Accounted.received_sublist (accounted : Accounted options files maxDatagramSize sent listener)
    (small : ∀ datagram ∈ sent, datagram.length ≤ maxDatagramSize) : listener.received.Sublist sent := by
  have delivered := accounted.received.delivered
  rw [uncut small, List.append_assoc] at delivered
  exact ((List.sublist_append_left ..).trans delivered).trans (List.take_sublist ..)

/-- Frames are dropped in the order they came in, lost datagrams take theirs with them, and nothing is added. -/
theorem Accounted.handled_sublist (accounted : Accounted options files maxDatagramSize sent listener)
    (small : ∀ datagram ∈ sent, datagram.length ≤ maxDatagramSize) : listener.handled.Sublist (sent.flatMap framesOf) := by
  obtain ⟨frames, all, accepted, _⟩ := accounted.received.offered
  have order : listener.accepted = listener.handled ++ listener.inHand ++ listener.queue := accounted.queued
  have kept : listener.handled.Sublist listener.accepted := by
    rw [order, List.append_assoc]
    exact List.sublist_append_left ..
  have offered : frames.Sublist (listener.received.flatMap framesOf) := all ▸ List.sublist_append_left ..
  exact ((kept.trans accepted).trans offered).trans ((accounted.received_sublist small).flatMap framesOf)

section LeftBehind
variable (options files maxDatagramSize sent) {frames : List FrameResult}

/-- The replaying thread has found the queue empty and not yet looked whether to stop. Meanwhile these
frames have come, and none before them. -/
structure Waiting (frames : List FrameResult) (listener : UdpListener) : Prop where
  replayer : listener.replayer = .testing
  replay : listener.replay = {}
  queue : listener.queue = frames
  handled : listener.handled = []
  lost : listener.lost = 0
  droppedCount : listener.droppedCount = 0
  running : listener.stopRequested = false

theorem Waiting.push (waiting : listener.Waiting frames) {more : List FrameResult} {rest : List (List UInt8)}
    (place : listener.receiver = .pushing more rest) (room : (frames ++ more).length ≤ listener.capacity) :
    ∃ next : UdpListener, Transitions.Leads (step options files maxDatagramSize sent) listener next ∧
      next.Waiting (frames ++ more) ∧ next.receiver = .unpacking rest ∧ next.socket = listener.socket ∧
      next.capacity = listener.capacity ∧ next.haveReceivedAny = listener.haveReceivedAny ∧ next.taken = listener.taken := by
  induction more generalizing listener frames with
  | nil =>
    obtain ⟨replayer, replay, queue, handled, lost, droppedCount, running⟩ := waiting
    have stepped : listener.step options files maxDatagramSize sent (.receiver 0) =
        some { listener with receiver := .unpacking rest } := by
      rw [step, receiverStep, place]
    refine ⟨_, Transitions.leads_step stepped, ?_, rfl, rfl, rfl, rfl, rfl⟩
    rw [List.append_nil]
    exact ⟨replayer, replay, queue, handled, lost, droppedCount, running⟩
  | cons frame more ih =>
    obtain ⟨replayer, replay, queue, handled, lost, droppedCount, running⟩ := waiting
    have space : ¬ listener.queue.length ≥ listener.capacity := by
      rw [List.length_append, List.length_cons] at room
      rw [queue]
      omega
    have stepped : listener.step options files maxDatagramSize sent (.receiver 0) = some { listener with
        queue := listener.queue ++ [frame]
        accepted := listener.accepted ++ [frame]
        receiver := .pushing more rest } := by
      rw [step, receiverStep, place]
      dsimp only
      rw [UdpListener.push, if_neg space]
    have after : Waiting (frames ++ [frame]) { listener with
        queue := listener.queue ++ [frame]
        accepted := listener.accepted ++ [frame]
        receiver := .pushing more rest } :=
      ⟨replayer, replay, congrArg (· ++ [frame]) queue, handled, lost, droppedCount, running⟩
    rw [List.append_cons] at room ⊢
    obtain ⟨next, leads, reached⟩ := ih after rfl room
    exact ⟨next, (Transitions.leads_step stepped).trans leads, reached⟩

/-- The next datagram arrives, and all of it goes into the queue. -/
theorem Waiting.hear (waiting : listener.Waiting frames) (place : listener.receiver = .checking)
    (empty : listener.socket = []) {datagram : List UInt8} (found : sent[listener.taken]? = some datagram)
    (small : datagram.length ≤ maxDatagramSize) (readable : ∃ packet, unpackFrames datagram = .ok packet)
    (room : (frames ++ framesOf datagram).length ≤ listener.capacity) :
    ∃ next : UdpListener, Transitions.Leads (step options files maxDatagramSize sent) listener next ∧
      next.Waiting (frames ++ framesOf datagram) ∧ next.receiver = .checking ∧ next.socket = [] ∧
      next.capacity = listener.capacity ∧ next.haveReceivedAny = true ∧ next.taken = listener.taken + 1 := by
  obtain ⟨packet, unpacked⟩ := readable
  have inside : framesOf datagram = packet.frames := by rw [framesOf, unpacked]
  have running := waiting.running
  have arrived : listener.step options files maxDatagramSize sent .arrive =
      some { listener with taken := listener.taken + 1, socket := [datagram] } := by
    rw [step, found, Option.map_some, empty, List.take_of_length_le small]
    rfl
  have checked : { listener with taken := listener.taken + 1, socket := [datagram] }.step options files maxDatagramSize
      sent (.receiver 0) = some { listener with taken := listener.taken + 1, socket := [datagram], receiver := .receiving } := by
    rw [step, receiverStep]
    simp only [place, running, Bool.false_eq_true, if_false]
  have taken : { listener with taken := listener.taken + 1, socket := [datagram], receiver := .receiving }.step options
      files maxDatagramSize sent (.receiver 1) = some { listener with
        taken := listener.taken + 1, socket := [], receiver := .unpacking [datagram], haveReceivedAny := true } := rfl
  have read : { listener with
        taken := listener.taken + 1, socket := [], receiver := .unpacking [datagram], haveReceivedAny := true }.step
      options files maxDatagramSize sent (.receiver 0) = some { listener with
        taken := listener.taken + 1, socket := [], haveReceivedAny := true
        packetsReceived := listener.packetsReceived + 1, received := listener.received ++ [datagram]
        tracker := listener.tracker.observe packet.header.packetSequence, receiver := .pushing packet.frames [] } := by
    rw [step, receiverStep]
    simp only [running, Bool.false_eq_true, if_false, unpack, unpacked]
  have pushing : Waiting frames { listener with
        taken := listener.taken + 1, socket := [], haveReceivedAny := true
        packetsReceived := listener.packetsReceived + 1, received := listener.received ++ [datagram]
        tracker := listener.tracker.observe packet.header.packetSequence, receiver := .pushing packet.frames [] } :=
    ⟨waiting.replayer, waiting.replay, waiting.queue, waiting.handled, waiting.lost, waiting.droppedCount, running⟩
  rw [inside] at room ⊢
  obtain ⟨pushed, leads, all, place, socket, capacity, any, count⟩ :=
    pushing.push options files maxDatagramSize sent rfl room
  have back : pushed.step options files maxDatagramSize sent (.receiver 0) =
      some { pushed with receiver := .checking } := by
    rw [step, receiverStep, place]
  refine ⟨{ pushed with receiver := .checking }, ?_, ?_, rfl, socket, capacity, any, count⟩
  · apply (Transitions.leads_step arrived).trans
    apply (Transitions.leads_step checked).trans
    apply (Transitions.leads_step taken).trans
    apply (Transitions.leads_step read).trans
    exact leads.trans (Transitions.leads_step back)
  · exact ⟨all.replayer, all.replay, all.queue, all.handled, all.lost, all.droppedCount, all.running⟩

theorem Waiting.hearAll {heard rest : List (List UInt8)} (waiting : listener.Waiting frames)
    (place : listener.receiver = .checking) (empty : listener.socket = []) (split : sent = heard ++ rest)
    (count : listener.taken = heard.length)
    (fine : ∀ datagram ∈ rest, datagram.length ≤ maxDatagramSize ∧ ∃ packet, unpackFrames datagram = .ok packet)
    (room : (frames ++ rest.flatMap framesOf).length ≤ listener.capacity)
    (any : rest = [] → listener.haveReceivedAny = true) :
    ∃ next : UdpListener, Transitions.Leads (step options files maxDatagramSize sent) listener next ∧
      next.Waiting (frames ++ rest.flatMap framesOf) ∧ next.receiver = .checking ∧ next.socket = [] ∧
      next.haveReceivedAny = true ∧ next.taken = sent.length := by
  induction rest generalizing listener frames heard with
  | nil =>
    rw [List.flatMap_nil, List.append_nil]
    rw [List.append_nil] at split
    exact ⟨listener, Transitions.Leads.refl listener, waiting, place, empty, any rfl, split ▸ count⟩
  | cons datagram rest ih =>
    rw [List.flatMap_cons, ← List.append_assoc] at room ⊢
    have found : sent[listener.taken]? = some datagram := by
      rw [count, split, List.getElem?_append_right le_rfl, Nat.sub_self]
      rfl
    obtain ⟨small, readable⟩ := fine datagram List.mem_cons_self
    have fits : (frames ++ framesOf datagram).length ≤ listener.capacity := by
      rw [List.length_append] at room
      omega
    obtain ⟨middle, leads, still, place, empty, capacity, any, one⟩ :=
      waiting.hear options files maxDatagramSize sent place empty found small readable fits
    rw [← capacity] at room
    have next : middle.taken = (heard ++ [datagram]).length := by
      rw [one, count, List.length_append]
      rfl
    obtain ⟨last, onward, reached⟩ := ih still place empty (split.trans (List.append_cons ..)) next
      (fun other member => fine other (List.mem_cons_of_mem _ member)) room fun _ => any
    exact ⟨last, leads.trans onward, reached⟩

/-- The consumer's empty pop and its look at the stop flag are not one step. Between the two all of a
feed can come, and the idle timeout: then everything stays in the queue, and no count shows it. -/
theorem left_behind {capacity : Nat} (nonempty : sent ≠ [])
    (fine : ∀ datagram ∈ sent, datagram.length ≤ maxDatagramSize ∧ ∃ packet, unpackFrames datagram = .ok packet)
    (room : (sent.flatMap framesOf).length ≤ capacity) :
    ∃ last : UdpListener, Transitions.Leads (step options files maxDatagramSize sent) { capacity } last ∧
      last.receiver = .ended [] ∧ last.replayer = .ended ∧ last.taken = sent.length ∧ last.lost = 0 ∧
      last.droppedCount = 0 ∧ last.queue = sent.flatMap framesOf ∧ last.replay = {} := by
  have popped : ({ capacity } : UdpListener).step options files maxDatagramSize sent .replayer =
      some { capacity, replayer := .testing } := rfl
  have waiting : Waiting [] { capacity, replayer := .testing } := ⟨rfl, rfl, rfl, rfl, rfl, rfl, rfl⟩
  obtain ⟨full, leads, all, place, empty, any, taken⟩ := waiting.hearAll options files maxDatagramSize sent
    rfl rfl (List.nil_append sent).symm rfl fine room fun nothing => absurd nothing nonempty
  have looked : full.step options files maxDatagramSize sent (.receiver 0) = some { full with receiver := .receiving } := by
    rw [step, receiverStep]
    simp only [place, all.running, Bool.false_eq_true, if_false]
  have timedOut : { full with receiver := .receiving }.step options files maxDatagramSize sent .idleTimeout =
      some { full with receiver := .ended [], stopRequested := true } := by
    rw [step, timeOut, if_pos ⟨rfl, empty, any⟩]
  have ended : { full with receiver := .ended [], stopRequested := true }.step options files maxDatagramSize sent .replayer =
      some { full with receiver := .ended [], stopRequested := true, replayer := .ended } := by
    rw [step, replayerStep]
    simp only [all.replayer, if_true]
  refine ⟨{ full with receiver := .ended [], stopRequested := true, replayer := .ended }, ?_, rfl, rfl, taken, all.lost,
    all.droppedCount, all.queue, all.replay⟩
  apply (Transitions.leads_step popped).trans
  apply leads.trans
  apply (Transitions.leads_step looked).trans
  exact (Transitions.leads_step timedOut).trans (Transitions.leads_step ended)

end LeftBehind

end UdpListener

end Mdh.Feed
