import Mdh.Persistence.CommandCodec

/-! The journal file: the universe, then every command, one frame after another. A reader
takes a frame at a time, by the size the frame's own header names. -/

namespace Mdh.Persistence
open Mdh.Core Mdh.Core.ByteIo

/-- What the writer puts in the file: the universe when it is opened, then each command. -/
def journalOf (instruments : List InstrumentId) (commands : List ExchangeCommand) : List UInt8 :=
  instruments.flatMap encodeRegisterInstrument ++ commands.flatMap encodeCommand

/-- The next frame and what is left of the file, or nothing at a clean end. A read that the
file cannot fill leaves nothing. -/
def nextFrame (file : List UInt8) : Option (DecodedFrame × List UInt8) :=
  let header := file.take HEADER_SIZE
  if header.length = 0 then none
  else if header.length < HEADER_SIZE then some (.error .truncatedHeader, file.drop HEADER_SIZE)
  else
    match decodeCommandHeader header with
    | .error error => some (.error error, file.drop HEADER_SIZE)
    | .ok decoded =>
        let rest := file.drop HEADER_SIZE
        let payload := rest.take decoded.payloadSize
        if payload.length < decoded.payloadSize then some (.error .truncatedPayload, rest.drop decoded.payloadSize)
        else some (decodeJournalFrame (header ++ payload), rest.drop decoded.payloadSize)

/-- A frame is at least a byte. -/
theorem nextFrame_shorter {file rest : List UInt8} {frame : DecodedFrame}
    (next : nextFrame file = some (frame, rest)) : rest.length < file.length := by
  have dropped : ∀ more, file.length ≠ 0 → ((file.drop HEADER_SIZE).drop more).length < file.length := by
    intro more some
    simp only [List.length_drop, HEADER_SIZE]
    omega
  unfold nextFrame at next
  simp only at next
  split_ifs at next with done short
  · cases next
    exact dropped 0 fun none => done (by simp [List.length_eq_zero_iff.mp none])
  · have some : file.length ≠ 0 := fun none => done (by simp [List.length_eq_zero_iff.mp none])
    split at next
    · cases next
      exact dropped 0 some
    · split_ifs at next <;> cases next <;> exact dropped _ some

section Written
variable {type : CommandMessageType} {commandSequence : Nat} {payload : List UInt8} {frame : DecodedFrame}

/-- A frame that was written is read, and the file is left after it. -/
theorem Frames.next (frames : Frames type commandSequence payload frame) (rest : List UInt8) :
    nextFrame (putHeader type commandSequence (payloadSizeFor type) ++ payload ++ rest) = some (frame, rest) := by
  have length := putHeader_length type commandSequence (payloadSizeFor type)
  have decoded : decodeCommandHeader (putHeader type commandSequence (payloadSizeFor type) ++ []) = _ :=
    decodeCommandHeader_put frames.sequence (payloadSizeFor_lt type) []
  rw [List.append_nil] at decoded
  unfold nextFrame
  rw [List.append_assoc, List.take_left' length, List.drop_left' length]
  simp only [length, decoded, lt_self_iff_false, if_false]
  rw [if_neg (by decide), List.take_left' frames.size, List.drop_left' frames.size, frames.size, frames.decodes,
    if_neg (lt_irrefl _)]

theorem nextFrame_command {command : ExchangeCommand} (fits : Representable command) (rest : List UInt8) :
    nextFrame (encodeCommand command ++ rest) = some (.command command, rest) := by
  cases command with
  | newOrder command => exact (newOrder_frames command fits).next rest
  | cancelOrder command => exact (cancelOrder_frames command fits).next rest
  | replaceOrder command => exact (replaceOrder_frames command fits).next rest

theorem nextFrame_registration {instrumentId : InstrumentId} (fits : instrumentId < 2 ^ 32) (rest : List UInt8) :
    nextFrame (encodeRegisterInstrument instrumentId ++ rest) = some (.registration instrumentId, rest) :=
  (registerInstrument_frames fits).next rest

end Written

end Mdh.Persistence
