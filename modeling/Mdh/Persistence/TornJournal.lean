import Mdh.Lib.TornLog
import Mdh.Persistence.JournalReplay

/-! A journal that was cut off while it was being written. The frame the cut falls into is an
error of the replay and nothing more; every command before it is recovered. -/

namespace Mdh.Persistence
open Mdh.Core Mdh.Lib Mdh.Matching Mdh.Matching.MatchingEngine

/-- The frames of a journal, one after another. -/
def journalFrames (instruments : List InstrumentId) (commands : List ExchangeCommand) : List (List UInt8) :=
  instruments.map encodeRegisterInstrument ++ commands.map encodeCommand

/-- What is found of a frame that was cut off. -/
def tornError (torn : List UInt8) : CommandDecodeError :=
  if torn.length < HEADER_SIZE then .truncatedHeader else .truncatedPayload

section Frames
variable {type : CommandMessageType} {commandSequence : Nat} {payload : List UInt8} {frame : DecodedFrame}

/-- A piece of a frame takes the rest of the file with it. -/
theorem Frames.nextFrame_torn (frames : Frames type commandSequence payload frame) {kept : Nat} (started : 0 < kept)
    (short : kept < (putHeader type commandSequence (payloadSizeFor type) ++ payload).length) :
    let torn := (putHeader type commandSequence (payloadSizeFor type) ++ payload).take kept
    nextFrame torn = some (.error (tornError torn), []) := by
  intro torn
  have header := putHeader_length type commandSequence (payloadSizeFor type)
  have length : torn.length = kept := List.length_take_of_le short.le
  have size : HEADER_SIZE = 12 := rfl
  rw [List.length_append, header, frames.size] at short
  unfold nextFrame tornError
  dsimp only
  rw [if_neg (by rw [List.length_take]; omega), List.length_take]
  by_cases cut : torn.length < HEADER_SIZE
  · rw [if_pos (by omega), if_pos cut, List.drop_of_length_le cut.le]
  · have front : torn = putHeader type commandSequence (payloadSizeFor type) ++ payload.take (kept - HEADER_SIZE) := by
      show List.take _ _ = _
      rw [List.take_append, header, List.take_of_length_le (by omega)]
    have decoded := @decodeCommandHeader_put type commandSequence (payloadSizeFor type) frames.sequence (payloadSizeFor_lt type) []
    rw [List.append_nil] at decoded
    rw [if_neg (by omega), if_neg cut, front, List.take_left' header, List.drop_left' header, decoded]
    dsimp only
    have missing : ((payload.take (kept - HEADER_SIZE)).take (payloadSizeFor type)).length < payloadSizeFor type := by
      rw [List.length_take, List.length_take]
      omega
    rw [if_pos missing, List.drop_of_length_le (by rw [List.length_take]; omega)]

/-- Every frame of a journal is a header and a payload that decode. -/
theorem journalFrames_frames {instruments : List InstrumentId} {commands : List ExchangeCommand}
    (instrumentsFit : ∀ id ∈ instruments, id < 2 ^ 32) (commandsFit : ∀ command ∈ commands, Representable command)
    {bytes : List UInt8} (member : bytes ∈ journalFrames instruments commands) :
    ∃ type commandSequence payload frame, Frames type commandSequence payload frame ∧
      bytes = putHeader type commandSequence (payloadSizeFor type) ++ payload := by
  rcases List.mem_append.mp member with registration | written
  · obtain ⟨id, known, rfl⟩ := List.mem_map.mp registration
    exact ⟨_, _, _, _, registerInstrument_frames (instrumentsFit id known), rfl⟩
  · obtain ⟨command, known, rfl⟩ := List.mem_map.mp written
    have fits := commandsFit command known
    cases command with
    | newOrder command => exact ⟨_, _, _, _, newOrder_frames command fits, rfl⟩
    | cancelOrder command => exact ⟨_, _, _, _, cancelOrder_frames command fits, rfl⟩
    | replaceOrder command => exact ⟨_, _, _, _, replaceOrder_frames command fits, rfl⟩

theorem journalFrames_take (instruments : List InstrumentId) (commands : List ExchangeCommand) (count : Nat) :
    ((journalFrames instruments commands).take count).flatten =
      journalOf (instruments.take count) (commands.take (count - instruments.length)) := by
  rw [journalFrames, List.take_append, ← List.map_take, ← List.map_take, List.length_map, List.flatten_append,
    journalOf, List.flatMap_def, List.flatMap_def]

end Frames

section Replay
variable (options : CommandReplayOptions) {outcome : CommandReplayOutcome} {rest : List UInt8}

theorem replayFrames_error {file : List UInt8} {error : CommandDecodeError}
    (next : nextFrame file = some (.error error, rest)) :
    replayFrames options file outcome =
      if options.stopOnDecodeError then { outcome.fail error with stoppedEarly := true }
      else replayFrames options rest (outcome.fail error) := by
  rw [replayFrames]
  split
  · rename_i none
    rw [next] at none
    cases none
  · rename_i taken
    rw [next] at taken
    cases taken
    rfl

/-- The commands of a journal are processed, whatever follows them. -/
theorem replayFrames_processed {commands : List ExchangeCommand} (fits : ∀ command ∈ commands, Representable command) :
    replayFrames options (commands.flatMap encodeCommand ++ rest) outcome =
      replayFrames options rest (commands.foldl CommandReplayOutcome.process outcome) := by
  induction commands generalizing outcome with
  | nil => rfl
  | cons command commands ih =>
    rw [List.flatMap_cons, List.append_assoc,
      replayFrames_command options (nextFrame_command (fits command List.mem_cons_self) _), List.foldl_cons]
    exact ih fun other member => fits other (List.mem_cons_of_mem _ member)

/-- The outcome of a replay that comes upon a torn frame, or upon nothing. -/
def CommandReplayOutcome.tornAt (outcome : CommandReplayOutcome) (torn : List UInt8) : CommandReplayOutcome :=
  if torn = [] then outcome
  else { outcome.fail (tornError torn) with stoppedEarly := outcome.stoppedEarly || options.stopOnDecodeError }

theorem replayFrames_torn {torn : List UInt8} (cut : torn ≠ [] → nextFrame torn = some (.error (tornError torn), [])) :
    replayFrames options torn outcome = outcome.tornAt options torn := by
  unfold CommandReplayOutcome.tornAt
  split_ifs with nothing
  · rw [nothing, replayFrames_nil]
  · rw [replayFrames_error options (cut nothing), replayFrames_nil]
    obtain ⟨stop⟩ := options
    cases stop
    · rw [if_neg Bool.false_ne_true, Bool.or_false]
      rfl
    · rw [if_pos rfl, Bool.or_true]

end Replay

/-- The replay of a cut journal: its whole frames as ever, then the torn one. -/
theorem runCommandReplay_cut (journalPath : String) (options : CommandReplayOptions) {instruments : List InstrumentId}
    {commands : List ExchangeCommand} (instrumentsFit : ∀ id ∈ instruments, id < 2 ^ 32)
    (commandsFit : ∀ command ∈ commands, Representable command) (size : Nat) :
    let whole := TornLog.whole (journalFrames instruments commands) size
    runCommandReplay journalPath (some ((journalOf instruments commands).take size)) options =
      ((commands.take (whole - instruments.length)).foldl CommandReplayOutcome.process
        ((instruments.take whole).foldl CommandReplayOutcome.register {})).tornAt options
          (TornLog.torn (journalFrames instruments commands) size) := by
  intro whole
  have file : (journalOf instruments commands).take size = (instruments.take whole).flatMap encodeRegisterInstrument ++
      ((commands.take (whole - instruments.length)).flatMap encodeCommand ++
        TornLog.torn (journalFrames instruments commands) size) := by
    have all : journalOf instruments commands = (journalFrames instruments commands).flatten := by
      rw [journalFrames, List.flatten_append, journalOf, List.flatMap_def, List.flatMap_def]
    rw [all, TornLog.take_flatten, journalFrames_take, journalOf, List.append_assoc]
  show replayFrames options _ {} = _
  rw [file, replayFrames_universe options fun id member => instrumentsFit id (List.mem_of_mem_take member),
    replayFrames_processed options fun command member => commandsFit command (List.mem_of_mem_take member)]
  apply replayFrames_torn
  intro there
  rcases TornLog.torn_cut (journalFrames instruments commands) size with nothing | ⟨bytes, member, kept, short, same⟩
  · exact absurd nothing there
  · obtain ⟨type, commandSequence, payload, frame, frames, rfl⟩ := journalFrames_frames instrumentsFit commandsFit member
    have started : 0 < kept := by
      apply Nat.pos_of_ne_zero
      intro zero
      exact there (by rw [same, zero, List.take_zero])
    rw [same]
    exact frames.nextFrame_torn started short

/-- What the whole frames alone come to: the live run of what is recovered. -/
theorem recovered_live (instruments : List InstrumentId) (expectedRestingOrders : Nat) (commands : List ExchangeCommand) :
    let live := (ProvisionedEngine.make instruments expectedRestingOrders).run commands
    let outcome := commands.foldl CommandReplayOutcome.process (instruments.foldl CommandReplayOutcome.register {})
    (outcome.events = live.2 ∧ outcome.engine.instruments = live.1.engine.instruments ∧
      (∀ id ∈ live.1.engine.instruments, ∀ side,
        (outcome.engine.bookFor id).allOf side = (live.1.engine.bookFor id).allOf side) ∧
      outcome.engine.orders = live.1.engine.orders ∧ outcome.commandsProcessed = commands.length) ∧
    outcome.stoppedEarly = false ∧ outcome.stopReason = "" := by
  intro live outcome
  obtain ⟨liveEngine, liveEvents⟩ := (ProvisionedEngine.make instruments expectedRestingOrders).run_eq commands
  rw [ProvisionedEngine.make_engine] at liveEngine liveEvents
  obtain ⟨learnt, noEvents, none, running⟩ := foldl_register {} instruments
  obtain ⟨engine, events, processed, stopped⟩ :=
    foldl_process (instruments.foldl CommandReplayOutcome.register {}) commands
  obtain ⟨alike, sameEvents⟩ := (make_alike instruments).run (make_sound instruments) commands
  rw [learnt] at engine events
  rw [← liveEngine, ← engine] at alike
  refine ⟨⟨?_, alike.instruments.symm, fun id member side => ?_, alike.orders.symm, ?_⟩, stopped.trans running, ?_⟩
  · rw [events, noEvents, liveEvents, sameEvents]
    rfl
  · exact ((alike.books id ((alike.left.mem_instruments id).mp member)).allOf_eq side).symm
  · rw [processed, none]
    exact Nat.zero_add _
  · apply List.foldlRecOn (motive := fun outcome : CommandReplayOutcome => outcome.stopReason = "")
    · exact List.foldlRecOn (motive := fun outcome : CommandReplayOutcome => outcome.stopReason = "") instruments _ rfl
        fun _ same _ _ => same
    · exact fun _ same _ _ => same

/-- Commands whose frames are in the file are recovered, and with them the whole universe. -/
theorem written_recovered {instruments : List InstrumentId} {commands : List ExchangeCommand} {written size : Nat}
    (there : written ≤ commands.length) (inFile : (journalOf instruments (commands.take written)).length ≤ size) :
    instruments.length + written ≤ TornLog.whole (journalFrames instruments commands) size := by
  apply TornLog.le_whole
  · rw [journalFrames, List.length_append, List.length_map, List.length_map]
    omega
  · rw [journalFrames_take, List.take_of_length_le (by omega), Nat.add_sub_cancel_left]
    exact inFile

/-- What is left of a journal after a crash: every command whose frame was written out is
recovered, in order and once, into the state and the events of the live run up to there; the
replay names the frame that was cut, and is stopped by it only if told to. -/
theorem torn_journal_recovers (journalPath : String) (options : CommandReplayOptions)
    (instruments : List InstrumentId) (expectedRestingOrders : Nat) (commands : List ExchangeCommand)
    (instrumentsFit : ∀ id ∈ instruments, id < 2 ^ 32) (commandsFit : ∀ command ∈ commands, Representable command)
    (size : Nat) :
    let whole := TornLog.whole (journalFrames instruments commands) size
    let torn := TornLog.torn (journalFrames instruments commands) size
    let recovered := commands.take (whole - instruments.length)
    let live := (ProvisionedEngine.make (instruments.take whole) expectedRestingOrders).run recovered
    let outcome := runCommandReplay journalPath (some ((journalOf instruments commands).take size)) options
    (outcome.events = live.2 ∧ outcome.engine.instruments = live.1.engine.instruments ∧
      (∀ id ∈ live.1.engine.instruments, ∀ side,
        (outcome.engine.bookFor id).allOf side = (live.1.engine.bookFor id).allOf side) ∧
      outcome.engine.orders = live.1.engine.orders ∧ outcome.commandsProcessed = recovered.length) ∧
    outcome.stoppedEarly = (options.stopOnDecodeError && !torn.isEmpty) ∧
    outcome.stopReason = (if torn = [] then "" else "decode error: " ++ (tornError torn).toText) ∧
    ∀ written, written ≤ commands.length → (journalOf instruments (commands.take written)).length ≤ size →
      instruments.take whole = instruments ∧ commands.take written <+: recovered := by
  intro whole torn recovered live outcome
  have cut : outcome = _ := runCommandReplay_cut journalPath options instrumentsFit commandsFit size
  obtain ⟨run, stopped, reason⟩ := recovered_live (instruments.take whole) expectedRestingOrders recovered
  have durable : ∀ written, written ≤ commands.length → (journalOf instruments (commands.take written)).length ≤ size →
      instruments.take whole = instruments ∧ commands.take written <+: recovered := by
    intro written there inFile
    have kept : instruments.length + written ≤ whole := written_recovered there inFile
    refine ⟨List.take_of_length_le (by omega), ?_⟩
    show _ <+: commands.take (whole - instruments.length)
    rw [List.prefix_take_iff]
    exact ⟨List.take_prefix .., by rw [List.length_take]; omega⟩
  rw [cut]
  unfold CommandReplayOutcome.tornAt
  by_cases nothing : torn = []
  · rw [if_pos nothing, if_pos nothing, nothing, List.isEmpty_nil, Bool.not_true, Bool.and_false]
    exact ⟨run, stopped, reason, durable⟩
  · rw [if_neg nothing, if_neg nothing, List.isEmpty_eq_false_iff.mpr nothing, Bool.not_false, Bool.and_true]
    refine ⟨run, ?_, rfl, durable⟩
    show (_ || _) = _
    rw [stopped, Bool.false_or]

/-- A journal of one instrument and two commands, cut in the payload of the second. -/
theorem torn_journal_recovers_first :
    let order : ExchangeCommand :=
      .newOrder { commandSequence := 1, accountId := 1, clientOrderId := 10, instrumentId := 7, side := .buy,
                  price := 100, quantity := 5, orderType := .limit, timeInForce := .gtc }
    let cancel : ExchangeCommand :=
      .cancelOrder { commandSequence := 2, accountId := 1, clientOrderId := 10, instrumentId := 7 }
    let outcome := runCommandReplay "day.journal" (some ((journalOf [7] [order, cancel]).take 82)) {}
    outcome.commandsProcessed = 1 ∧ outcome.stoppedEarly = true ∧
      outcome.stopReason = "decode error: TruncatedPayload" := by
  intro order cancel outcome
  obtain ⟨⟨_, _, _, _, processed⟩, stopped, reason, _⟩ :=
    torn_journal_recovers "day.journal" {} [7] 1000 [order, cancel] (by decide) (by decide) 82
  refine ⟨processed.trans ?_, stopped.trans ?_, reason.trans ?_⟩ <;> decide +kernel

end Mdh.Persistence
