import Mdh.Feed.Snapshot
import Mdh.Lib.Transitions

/-! The replay engine: what becomes of one frame of a feed, and the two loops that hand it
frames. A recorded file is replayed until the engine says to stop; a live subscriber goes on. -/

namespace Mdh.Feed
open Mdh.Core Mdh.Lib

/-- `check` on 64-bit numbers, in which 0 comes after the last one. -/
def SequenceValidator.check64 (validator : SequenceValidator) (seq : Nat) : SequenceValidator × SequenceCheck :=
  match validator.lastSeen with
  | none => ({ lastSeen := some seq }, { outcome := .inOrder, observed := seq })
  | some last =>
      let next := (last + 1) % 2 ^ 64
      if seq = next then ({ lastSeen := some seq }, { outcome := .inOrder, observed := seq })
      else if seq = last then (validator, { outcome := .duplicate, observed := seq })
      else if seq < last then (validator, { outcome := .outOfOrder, observed := seq })
      else ({ lastSeen := some seq }, { outcome := .missing, observed := seq, expected := next })

def SequenceValidator.reset (seq : Nat) : SequenceValidator := { lastSeen := some seq }

structure ReplayOptions where
  stopOnSequenceError : Bool := true
  stopOnDecodeError : Bool := true
  recoverySnapshotPath : Option String := none
  deriving DecidableEq, Repr

/-- The counts of what was applied, and of what became of the frames. -/
structure OutcomeStats extends ReplayStats where
  messagesProcessed : Nat := 0
  decodeFailures : Nat := 0
  sequenceFailures : Nat := 0
  recoveries : Nat := 0
  deriving DecidableEq, Repr

/-- `applied` is the history: the number of every event that was applied. -/
structure ReplayOutcome where
  stats : OutcomeStats := {}
  books : BookManager := {}
  stoppedEarly : Bool := false
  stopReason : String := ""
  lastSequenceNumber : Option Nat := none
  applied : List Nat := []

def describeSequenceError (check : SequenceCheck) : String :=
  match check.outcome with
  | .duplicate => "duplicate sequence " ++ toString check.observed
  | .outOfOrder => "out-of-order sequence " ++ toString check.observed
  | .missing => "missing sequence(s) [" ++ toString check.expected ++ ".." ++ toString (check.observed - 1) ++ "]"
  | .inOrder => "in-order sequence " ++ toString check.observed

/-- A frame as it comes in, with the files as they are at that time. -/
structure Arrival where
  frame : Except DecodeError WireEvent
  files : String → Option (List UInt8) := fun _ => none

namespace ReplayOutcome

def stop (outcome : ReplayOutcome) (reason : String) : ReplayOutcome :=
  { outcome with stoppedEarly := true, stopReason := reason }

def apply (outcome : ReplayOutcome) (event : WireEvent) : ReplayOutcome :=
  let (books, counts) := applyEvent event outcome.books outcome.stats.toReplayStats
  { outcome with
    stats := { toReplayStats := counts
               messagesProcessed := outcome.stats.messagesProcessed + 1
               decodeFailures := outcome.stats.decodeFailures
               sequenceFailures := outcome.stats.sequenceFailures
               recoveries := outcome.stats.recoveries }
    books
    lastSequenceNumber := some event.sequenceNumber
    applied := outcome.applied ++ [event.sequenceNumber] }

def failedDecode (outcome : ReplayOutcome) : ReplayOutcome :=
  { outcome with stats := { outcome.stats with decodeFailures := outcome.stats.decodeFailures + 1 } }

def failedSequence (outcome : ReplayOutcome) : ReplayOutcome :=
  { outcome with stats := { outcome.stats with sequenceFailures := outcome.stats.sequenceFailures + 1 } }

def recover (outcome : ReplayOutcome) (books : BookManager) : ReplayOutcome :=
  { outcome with books, stats := { outcome.stats with recoveries := outcome.stats.recoveries + 1 } }

end ReplayOutcome

/-- Where a feed stands. -/
structure Replay where
  validator : SequenceValidator := {}
  outcome : ReplayOutcome := {}

/-- One frame. The answer is whether the caller should stop. -/
def applyFrameResult (options : ReplayOptions) (arrival : Arrival) (replay : Replay) : Replay × Bool :=
  let outcome := replay.outcome
  match arrival.frame with
  | .error error =>
      let outcome := outcome.failedDecode
      if options.stopOnDecodeError then
        ({ replay with outcome := outcome.stop ("decode error: " ++ error.toString) }, true)
      else ({ replay with outcome }, false)
  | .ok event =>
      let (validator, check) := replay.validator.check64 event.sequenceNumber
      if check.outcome = .inOrder then ({ validator, outcome := outcome.apply event }, false)
      else
        let outcome := outcome.failedSequence
        match check.outcome, options.recoverySnapshotPath with
        | .missing, some path =>
            match (arrival.files path).bind readSnapshot with
            | none =>
                ({ validator
                   outcome := outcome.stop ("sequence gap recovery failed: could not load snapshot " ++ path) }, true)
            | some loaded =>
                ({ validator := SequenceValidator.reset event.sequenceNumber
                   outcome := (outcome.recover loaded.books).apply event }, false)
        | _, _ =>
            if options.stopOnSequenceError then ({ validator, outcome := outcome.stop (describeSequenceError check) }, true)
            else ({ validator, outcome := outcome.apply event }, false)

/-- The loop of `run_replay` over the frames of a file. -/
def replayLoop (options : ReplayOptions) : List Arrival → Replay → Replay
  | [], replay => replay
  | arrival :: rest, replay =>
      let (replay, stop) := applyFrameResult options arrival replay
      if stop then replay else replayLoop options rest replay

/-- A file that cannot be opened has no frames. -/
def runReplay (options : ReplayOptions) (inputPath : String) (frames : Option (List Arrival)) : ReplayOutcome :=
  match frames with
  | none => ({} : ReplayOutcome).stop ("failed to open input file: " ++ inputPath)
  | some arrivals => (replayLoop options arrivals {}).outcome

/-- What the receive loop of a subscriber keeps. -/
structure FeedSubscriber where
  replay : Replay := {}
  packetsReceived : Nat := 0
  packetErrors : Nat := 0

/-- The options a subscriber has unless it is given others. -/
def FeedSubscriber.replayOptions : ReplayOptions := { stopOnSequenceError := false, stopOnDecodeError := false }

/-- One datagram: its frames, unless it did not unpack. Whether to stop is not looked at. -/
def FeedSubscriber.receive (options : ReplayOptions) (subscriber : FeedSubscriber) (unpacked : Option (List Arrival)) :
    FeedSubscriber :=
  let subscriber := { subscriber with packetsReceived := subscriber.packetsReceived + 1 }
  match unpacked with
  | none => { subscriber with packetErrors := subscriber.packetErrors + 1 }
  | some frames => { subscriber with
      replay := frames.foldl (fun replay arrival => (applyFrameResult options arrival replay).1) subscriber.replay }

end Mdh.Feed
