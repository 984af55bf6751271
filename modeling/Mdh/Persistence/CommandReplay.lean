import Mdh.Matching.EngineRuns
import Mdh.Persistence.CommandJournal

/-! Replaying a journal: a fresh engine with no instruments learns them from the file and
processes every command in it. -/

namespace Mdh.Persistence
open Mdh.Core Mdh.Matching

def CommandDecodeError.toText : CommandDecodeError → String
  | .truncatedHeader => "TruncatedHeader"
  | .truncatedPayload => "TruncatedPayload"
  | .invalidReserved => "InvalidReserved"
  | .invalidMessageType => "InvalidMessageType"
  | .invalidMessageSize => "InvalidMessageSize"
  | .invalidSide => "InvalidSide"
  | .invalidOrderType => "InvalidOrderType"
  | .invalidTimeInForce => "InvalidTimeInForce"

structure CommandReplayOptions where
  stopOnDecodeError : Bool := true
  deriving DecidableEq, Repr

structure CommandReplayOutcome where
  engine : MatchingEngine := MatchingEngine.make []
  events : List ExchangeEvent := []
  commandsProcessed : Nat := 0
  instrumentsRegistered : Nat := 0
  stoppedEarly : Bool := false
  stopReason : String := ""

namespace CommandReplayOutcome

def register (outcome : CommandReplayOutcome) (instrumentId : InstrumentId) : CommandReplayOutcome :=
  let (engine, registered) := outcome.engine.registerInstrument instrumentId
  { outcome with
    engine
    instrumentsRegistered := outcome.instrumentsRegistered + if registered then 1 else 0 }

def process (outcome : CommandReplayOutcome) (command : ExchangeCommand) : CommandReplayOutcome :=
  let step := outcome.engine.process command
  { outcome with
    engine := step.engine
    events := outcome.events ++ step.events
    commandsProcessed := outcome.commandsProcessed + 1 }

def fail (outcome : CommandReplayOutcome) (error : CommandDecodeError) : CommandReplayOutcome :=
  { outcome with stopReason := "decode error: " ++ error.toText }

end CommandReplayOutcome

/-- The loop over the frames of the file. Every frame takes something of the file. -/
def replayFrames (options : CommandReplayOptions) (file : List UInt8) (outcome : CommandReplayOutcome) :
    CommandReplayOutcome :=
  match _taken : nextFrame file with
  | none => outcome
  | some (frame, rest) =>
      match frame with
      | .error error =>
          let outcome := outcome.fail error
          if options.stopOnDecodeError then { outcome with stoppedEarly := true }
          else replayFrames options rest outcome
      | .registration instrumentId => replayFrames options rest (outcome.register instrumentId)
      | .command command => replayFrames options rest (outcome.process command)
termination_by file.length
decreasing_by all_goals exact nextFrame_shorter _taken

/-- `file` is what the path opens, if it opens. -/
def runCommandReplay (journalPath : String) (file : Option (List UInt8)) (options : CommandReplayOptions) :
    CommandReplayOutcome :=
  match file with
  | none => { stoppedEarly := true, stopReason := "could not open journal file: " ++ journalPath }
  | some file => replayFrames options file {}

section Loop
variable (options : CommandReplayOptions) {outcome : CommandReplayOutcome} {file rest : List UInt8}

theorem replayFrames_nil : replayFrames options [] outcome = outcome := by
  rw [replayFrames]
  rfl

theorem replayFrames_registration {instrumentId : InstrumentId}
    (next : nextFrame file = some (.registration instrumentId, rest)) :
    replayFrames options file outcome = replayFrames options rest (outcome.register instrumentId) := by
  rw [replayFrames]
  split
  · rename_i none
    rw [next] at none
    cases none
  · rename_i taken
    rw [next] at taken
    cases taken
    rfl

theorem replayFrames_command {command : ExchangeCommand} (next : nextFrame file = some (.command command, rest)) :
    replayFrames options file outcome = replayFrames options rest (outcome.process command) := by
  rw [replayFrames]
  split
  · rename_i none
    rw [next] at none
    cases none
  · rename_i taken
    rw [next] at taken
    cases taken
    rfl

/-- The universe is registered, entry by entry, in the order it was written. -/
theorem replayFrames_universe {instruments : List InstrumentId} (fits : ∀ id ∈ instruments, id < 2 ^ 32) :
    replayFrames options (instruments.flatMap encodeRegisterInstrument ++ rest) outcome =
      replayFrames options rest (instruments.foldl CommandReplayOutcome.register outcome) := by
  induction instruments generalizing outcome with
  | nil => rfl
  | cons id ids ih =>
    rw [List.flatMap_cons, List.append_assoc,
      replayFrames_registration options (nextFrame_registration (fits id List.mem_cons_self) _), List.foldl_cons]
    exact ih fun other member => fits other (List.mem_cons_of_mem _ member)

theorem replayFrames_commands {commands : List ExchangeCommand} (fits : ∀ command ∈ commands, Representable command) :
    replayFrames options (commands.flatMap encodeCommand) outcome =
      commands.foldl CommandReplayOutcome.process outcome := by
  induction commands generalizing outcome with
  | nil => exact replayFrames_nil options
  | cons command rest ih =>
    rw [List.flatMap_cons, replayFrames_command options (nextFrame_command (fits command List.mem_cons_self) _),
      List.foldl_cons]
    exact ih fun other member => fits other (List.mem_cons_of_mem _ member)

end Loop

section Outcomes
variable (outcome : CommandReplayOutcome)

theorem foldl_register (instruments : List InstrumentId) :
    let after := instruments.foldl CommandReplayOutcome.register outcome
    after.engine = instruments.foldl (fun engine id => (engine.registerInstrument id).1) outcome.engine ∧
      after.events = outcome.events ∧ after.commandsProcessed = outcome.commandsProcessed ∧
      after.stoppedEarly = outcome.stoppedEarly := by
  induction instruments generalizing outcome with
  | nil => exact ⟨rfl, rfl, rfl, rfl⟩
  | cons id ids ih => exact ih (outcome.register id)

theorem foldl_process (commands : List ExchangeCommand) :
    let after := commands.foldl CommandReplayOutcome.process outcome
    after.engine = outcome.engine.run commands ∧ after.events = outcome.events ++ outcome.engine.runEvents commands ∧
      after.commandsProcessed = outcome.commandsProcessed + commands.length ∧
      after.stoppedEarly = outcome.stoppedEarly := by
  induction commands generalizing outcome with
  | nil => exact ⟨rfl, (List.append_nil _).symm, rfl, rfl⟩
  | cons command rest ih =>
    obtain ⟨engine, events, processed, stopped⟩ := ih (outcome.process command)
    refine ⟨engine, ?_, ?_, stopped⟩
    · exact events.trans (List.append_assoc _ _ _)
    · rw [List.foldl_cons, processed, List.length_cons]
      show outcome.commandsProcessed + 1 + rest.length = _
      omega

end Outcomes

end Mdh.Persistence
