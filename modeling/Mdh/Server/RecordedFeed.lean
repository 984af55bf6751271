import Mdh.Feed.SubscriberRun
import Mdh.Feed.UdpReplay
import Mdh.Server.LiveFeed

/-! A recorded file sent over UDP: what a listener makes of it, whatever the network loses, the queue
turns away and the two threads do first. -/

namespace Mdh.Server
open Mdh.Core Mdh.Lib Mdh.Feed EventFileReader

/-- A batch size with which a full batch fits a datagram and the receiver's buffer, and a file whose
length a machine can count. -/
structure Sendable (maxDatagramSize batchSize : Nat) (file : List UInt8) : Prop where
  positive : 0 < batchSize
  few : batchSize ≤ 65535
  room : PACKET_HEADER_SIZE + batchSize * 49 ≤ maxDatagramSize
  short : file.length < 2 ^ 64

/-- The events of a file, without the frames that do not decode. -/
def fileEvents (file : List UInt8) : List WireEvent := eventsIn (readFrames file)

section Sending
variable {sendTo : Nat → Bool} {maxDatagramSize batchSize : Nat} {file : List UInt8}

theorem sendFile_packing (sendTo : Nat → Bool) (positive : 0 < batchSize) (file : List UInt8) :
    UdpSender.Packing sendTo batchSize (fileEvents file) (UdpSender.sendFile sendTo batchSize file) ∧
      (UdpSender.sendFile sendTo batchSize file).batch = [] := UdpSender.send_packing positive (readFrames file)

/-- What goes out are events of the file, and all of them if the sender counts as many. -/
theorem eventsOut_sublist (sendTo : Nat → Bool) (positive : 0 < batchSize) (file : List UInt8) :
    (UdpSender.sendFile sendTo batchSize file).eventsOut.Sublist (fileEvents file) ∧
      ((UdpSender.sendFile sendTo batchSize file).eventsSent = (fileEvents file).length →
        (UdpSender.sendFile sendTo batchSize file).eventsOut = fileEvents file) := by
  obtain ⟨packing, last⟩ := sendFile_packing sendTo positive file
  have kept := packing.kept
  rw [last, List.append_nil] at kept
  exact ⟨kept, fun counted => kept.eq_of_length (packing.eventsSent.symm.trans counted)⟩

theorem Sendable.carried (sendable : Sendable maxDatagramSize batchSize file) :
    ∀ batch ∈ (UdpSender.sendFile sendTo batchSize file).batches, Carried maxDatagramSize batch := by
  obtain ⟨packing, _⟩ := sendFile_packing sendTo sendable.positive file
  obtain ⟨kept, _⟩ := eventsOut_sublist sendTo sendable.positive file
  intro batch member
  obtain ⟨nonempty, most⟩ := packing.sized batch member
  refine ⟨nonempty, most.trans sendable.few, fun event among => ?_, ?_⟩
  · exact framesFrom_fits _ _ event (kept.subset (List.mem_flatten.mpr ⟨batch, member, among⟩))
  · have room := sendable.room
    have times : batch.length * 49 ≤ batchSize * 49 := Nat.mul_le_mul_right 49 most
    omega

theorem framesOf_datagrams {batches : List (List WireEvent)} (carried : ∀ batch ∈ batches, Carried maxDatagramSize batch)
    (few : batches.length < 2 ^ 64) :
    (batches.mapIdx fun index batch => packFrames (index + 1) batch).flatMap UdpListener.framesOf =
        batches.flatten.map Except.ok ∧
      ∀ datagram ∈ batches.mapIdx fun index batch => packFrames (index + 1) batch,
        datagram.length ≤ maxDatagramSize ∧ ∃ packet, unpackFrames datagram = .ok packet := by
  induction batches using List.reverseRecOn with
  | nil => exact ⟨rfl, nofun⟩
  | append_singleton batches batch ih =>
    have length : (batches ++ [batch]).length = batches.length + 1 := List.length_append
    have last : Carried maxDatagramSize batch := carried batch (List.mem_append_right _ List.mem_cons_self)
    have sequenceFits : batches.length + 1 < 2 ^ 64 := by omega
    obtain ⟨header, unpacked⟩ := last.unpacked sequenceFits
    have inside : UdpListener.framesOf (packFrames (batches.length + 1) batch) = batch.map Except.ok := by
      rw [UdpListener.framesOf, unpacked]
    obtain ⟨before, small⟩ := ih (fun other member => carried other (List.mem_append_left _ member)) (by omega)
    rw [List.mapIdx_concat]
    constructor
    · rw [List.flatMap_append, before, List.flatMap_singleton, inside, List.flatten_append, List.flatten_singleton,
        List.map_append]
    · intro datagram member
      rcases List.mem_append.mp member with earlier | final
      · exact small datagram earlier
      · rw [List.mem_singleton.mp final]
        exact ⟨last.length_le, _, unpacked⟩

/-- What the datagrams hold is what goes out. -/
theorem Sendable.sent (sendable : Sendable maxDatagramSize batchSize file) (sendTo : Nat → Bool) :
    (UdpSender.sendFile sendTo batchSize file).datagrams.flatMap UdpListener.framesOf =
        (UdpSender.sendFile sendTo batchSize file).eventsOut.map Except.ok ∧
      ∀ datagram ∈ (UdpSender.sendFile sendTo batchSize file).datagrams,
        datagram.length ≤ maxDatagramSize ∧ ∃ packet, unpackFrames datagram = .ok packet := by
  obtain ⟨packing, _⟩ := sendFile_packing sendTo sendable.positive file
  obtain ⟨kept, _⟩ := eventsOut_sublist sendTo sendable.positive file
  have few : (UdpSender.sendFile sendTo batchSize file).batches.length ≤ (fileEvents file).length :=
    (length_le_flatten fun batch member => (packing.sized batch member).1).trans kept.length_le
  have bytes : (fileEvents file).length ≤ file.length := (List.length_filterMap_le ..).trans (framesFrom_length ..)
  rw [packing.datagrams]
  exact framesOf_datagrams sendable.carried ((few.trans bytes).trans_lt sendable.short)

end Sending

section Listening
variable {sendTo : Nat → Bool} {options : ReplayOptions} {files : String → Option (List UInt8)}
  {capacity maxDatagramSize batchSize : Nat} {file : List UInt8} {actions : List ListenAction} {listener : UdpListener}

/-- Of events numbered on without a gap, those that a replay which stops at a gap took in, and did not
stop, are a stretch. -/
theorem stretch_of_unstopped {events heard : List WireEvent} {start : Nat} {inputPath : String}
    (sublist : heard.Sublist events) (strict : options.stopOnSequenceError = true)
    (alone : options.recoverySnapshotPath = none) (below : start + events.length < 2 ^ 64)
    (numbered : events.map WireEvent.sequenceNumber = List.range' start events.length)
    (unstopped : (runReplay options inputPath (some (arrivalsWith files (heard.map Except.ok)))).stoppedEarly = false) :
    heard <:+: events := by
  have small : ∀ event ∈ heard, event.sequenceNumber < 2 ^ 64 - 1 := by
    intro event member
    have number : event.sequenceNumber ∈ List.range' start events.length :=
      numbered ▸ List.mem_map_of_mem (sublist.subset member)
    rw [List.mem_range'_1] at number
    omega
  cases heard with
  | nil => exact List.nil_infix
  | cons first rest => exact infix_of_numbers sublist numbered (runReplay_consecutive strict alone small unstopped)

/-- A recorded file over UDP. Whatever goes out and arrives and whichever thread is first, the outcome
is the file replay of some of the file's events in their order. It is the replay of all that went out
if nothing was lost or dropped and the replay is through, or has stopped; and if the file is numbered
on without a gap, a replay that stops at a gap and has not stopped went over a stretch of the file. -/
theorem udp_replay_of_file (sendable : Sendable maxDatagramSize batchSize file) (inputPath : String)
    (ran : Transitions.run (UdpListener.step options files maxDatagramSize
      (UdpSender.sendFile sendTo batchSize file).datagrams) { capacity } actions = some listener) :
    let events := fileEvents file
    let sender := UdpSender.sendFile sendTo batchSize file
    sender.eventsOut.Sublist events ∧ (sender.eventsSent = events.length → sender.eventsOut = events) ∧
    ∃ heard : List WireEvent, listener.handled = heard.map Except.ok ∧ heard.Sublist sender.eventsOut ∧
      listener.replay.outcome = runReplay options inputPath (some (arrivalsWith files (heard.map Except.ok))) ∧
      listener.packetErrors = 0 ∧
      (listener.lost = 0 → listener.droppedCount = 0 → heard <+: sender.eventsOut ∧
        (listener.replay.outcome.stoppedEarly = true ∨ listener.Through sender.datagrams →
          listener.replay.outcome =
            runReplay options inputPath (some (arrivalsWith files (sender.eventsOut.map Except.ok))))) ∧
      ∀ start, options.stopOnSequenceError = true → options.recoverySnapshotPath = none → start + events.length < 2 ^ 64 →
        events.map WireEvent.sequenceNumber = List.range' start events.length →
        listener.replay.outcome.stoppedEarly = false → heard <:+: events := by
  intro events sender
  obtain ⟨kept, counted⟩ := eventsOut_sublist sendTo sendable.positive file
  refine ⟨kept, counted, ?_⟩
  have accounted := UdpListener.run_accounted ran
  obtain ⟨whole, each⟩ := sendable.sent sendTo
  have small := fun datagram member => (each datagram member).1
  have within := accounted.handled_sublist small
  rw [whole] at within
  obtain ⟨heard, sublist, handled⟩ := List.sublist_map_iff.mp within
  have outcome := accounted.outcome inputPath
  refine ⟨heard, handled, sublist, handled ▸ outcome, ?_, fun noLoss noDrop => ?_, ?_⟩
  · rw [accounted.received.packetErrors, List.countP_eq_zero]
    intro datagram member
    obtain ⟨packet, unpacked⟩ := (each datagram (accounted.received_sublist small |>.subset member)).2
    rw [unpacked]
    exact nofun
  · obtain ⟨front, full⟩ := accounted.whole small noLoss noDrop
    rw [whole] at front full
    refine ⟨?_, fun complete => ?_⟩
    · rw [handled] at front
      exact (List.prefix_map_iff_of_injective fun _ _ => Except.ok.inj).mp front
    · rcases complete with early | through
      · exact accounted.outcome_of_prefix early front inputPath
      · rw [← full through]
        exact outcome
  · intro start strict alone below numbered unstopped
    rw [outcome, handled] at unstopped
    exact stretch_of_unstopped (sublist.trans kept) strict alone below numbered unstopped

/-- The listener can miss a whole file, and show nothing of it. All of it was sent, both threads end,
every datagram has arrived and none was dropped, and the outcome is that of an empty file: the events
are in the queue. -/
theorem udp_replay_can_miss_everything (sendable : Sendable maxDatagramSize batchSize file)
    (nonempty : fileEvents file ≠ []) (room : (fileEvents file).length ≤ capacity)
    (options : ReplayOptions) (files : String → Option (List UInt8)) :
    let sender := UdpSender.sendFile (fun _ => true) batchSize file
    ∃ actions listener,
      Transitions.run (UdpListener.step options files maxDatagramSize sender.datagrams) { capacity } actions = some listener ∧
      listener.receiver = .ended [] ∧ listener.replayer = .ended ∧ listener.taken = sender.datagrams.length ∧
      listener.lost = 0 ∧ listener.droppedCount = 0 ∧ listener.replay.outcome = {} ∧
      listener.queue = (fileEvents file).map Except.ok := by
  intro sender
  obtain ⟨whole, each⟩ := sendable.sent fun _ => true
  have out : sender.eventsOut = fileEvents file := by
    obtain ⟨packing, last⟩ := sendFile_packing (fun _ => true) sendable.positive file
    have all := packing.whole fun _ => rfl
    rw [last, List.append_nil] at all
    exact all
  rw [out] at whole
  have some : sender.datagrams ≠ [] := by
    intro none
    rw [none, List.flatMap_nil, eq_comm, List.map_eq_nil_iff] at whole
    exact nonempty whole
  have fits : (sender.datagrams.flatMap UdpListener.framesOf).length ≤ capacity := by
    rw [whole, List.length_map]
    exact room
  obtain ⟨last, ⟨actions, ran⟩, receiver, replayer, taken, lost, dropped, queue, replay⟩ :=
    UdpListener.left_behind options files maxDatagramSize _ some each fits
  exact ⟨actions, last, ran, receiver, replayer, taken, lost, dropped, congrArg Replay.outcome replay, queue.trans whole⟩

end Listening

section TwoClears

/-- Two events, and between them a frame whose type has another size. -/
def twoClears : List UInt8 :=
  encodeEvent (.clearBook { sequenceNumber := 5, timestamp := 1, instrumentId := 3 }) ++
    (putHeader .clearBook 2 2 5 ++ [0, 0, 0, 3, 0]) ++
    encodeEvent (.clearBook { sequenceNumber := 6, timestamp := 2, instrumentId := 3 })

theorem twoClears_sendable : Sendable 2048 1 twoClears := ⟨by decide, by decide, by decide, by decide⟩

/-- Both datagrams arrive and are received at once, and the frames replayed when both are in the queue. -/
def twoHeard : List ListenAction :=
  [.arrive, .arrive, .receiver 0, .receiver 2] ++ List.replicate 7 (.receiver 0) ++ List.replicate 4 .replayer

theorem twoHeard_run : ∃ listener,
    Transitions.run (UdpListener.step {} (fun _ => none) 2048 (UdpSender.sendFile (fun _ => true) 1 twoClears).datagrams) { capacity := 2 }
        twoHeard = some listener ∧ listener.lost = 0 ∧ listener.droppedCount = 0 ∧
      listener.Through (UdpSender.sendFile (fun _ => true) 1 twoClears).datagrams := by
  have ran : (Transitions.run (UdpListener.step {} (fun _ => none) 2048 (UdpSender.sendFile (fun _ => true) 1 twoClears).datagrams)
      { capacity := 2 } twoHeard).map (fun listener => (listener.lost, listener.droppedCount, listener.taken,
        listener.socket.length + listener.unread.length + listener.unpushed.length + listener.queue.length +
          listener.inHand.length)) = some (0, 0, (UdpSender.sendFile (fun _ => true) 1 twoClears).datagrams.length, 0) := by decide +kernel
  obtain ⟨listener, reached, same⟩ := Option.map_eq_some_iff.mp ran
  simp only [Prod.mk.injEq] at same
  obtain ⟨lost, dropped, taken, nothing⟩ := same
  refine ⟨listener, reached, lost, dropped, taken, ?_, ?_, ?_, ?_, ?_⟩ <;>
  · apply List.length_eq_zero_iff.mp
    omega

/-- The outcome is that of the file without its broken frame. -/
theorem udp_replay_of_file_two : ∃ listener : UdpListener,
    listener.replay.outcome = runReplay {} "feed.bin" (some (arrivalsWith (fun _ => none)
      ((fileEvents twoClears).map Except.ok))) := by
  obtain ⟨listener, ran, noLoss, noDrop, through⟩ := twoHeard_run
  obtain ⟨_, counted, _, _, _, _, _, whole, _⟩ := udp_replay_of_file twoClears_sendable "feed.bin" ran
  have outcome := (whole noLoss noDrop).2 (Or.inr through)
  rw [counted (by decide)] at outcome
  exact ⟨listener, outcome⟩

/-- The same file, and neither event is replayed. -/
theorem udp_replay_can_miss_everything_two : ∃ listener : UdpListener,
    listener.replayer = .ended ∧ listener.queue = (fileEvents twoClears).map Except.ok := by
  obtain ⟨_, listener, _, _, replayer, _, _, _, _, queue⟩ :=
    udp_replay_can_miss_everything twoClears_sendable (by decide) (show (fileEvents twoClears).length ≤ 2 by decide) {}
      fun _ => none
  exact ⟨listener, replayer, queue⟩

end TwoClears

end Mdh.Server
