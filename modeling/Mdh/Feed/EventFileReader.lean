import Mdh.Feed.EventCodec

/-! The reader of a recorded file. A call reads a header, then as many bytes as the header
announces, and hands both to the decoder. A header that does not decode is skipped alone. -/

namespace Mdh.Feed
open Mdh.Core

/-- An open file: the bytes that are still ahead. -/
structure EventFileReader where
  file : List UInt8
  deriving DecidableEq, Repr

namespace EventFileReader

/-- `file_.read`: as many of the bytes asked for as there are. -/
def read (reader : EventFileReader) (count : Nat) : List UInt8 × EventFileReader :=
  (reader.file.take count, { file := reader.file.drop count })

/-- The next event, the error in its place, or nothing at the end of the file. -/
def next (reader : EventFileReader) : Option (Except DecodeError WireEvent) × EventFileReader :=
  let (headerBytes, reader) := reader.read HEADER_SIZE
  if headerBytes.length = 0 then (none, reader)
  else if headerBytes.length < HEADER_SIZE then (some (.error .truncatedHeader), reader)
  else
    match decodeHeader headerBytes with
    | .error error => (some (.error error), reader)
    | .ok header =>
        let (payloadBytes, reader) := reader.read header.payloadSize
        if payloadBytes.length < header.payloadSize then (some (.error .truncatedPayload), reader)
        else (some (decodeEvent (headerBytes ++ payloadBytes)), reader)

/-- What a number of calls return, one after the other. -/
def calls : Nat → EventFileReader → List (Option (Except DecodeError WireEvent))
  | 0, _ => []
  | count + 1, reader => reader.next.1 :: calls count reader.next.2

variable {reader after : EventFileReader}

theorem next_empty (empty : reader.file = []) : reader.next = (none, reader) := by
  obtain ⟨file⟩ := reader
  obtain rfl : file = [] := empty
  rfl

/-- A call takes bytes off the front of the file, unless there are none. -/
theorem next_drops (there : reader.file ≠ []) :
    ∃ result consumed, 0 < consumed ∧ reader.next = (some result, { file := reader.file.drop consumed }) := by
  have some : 0 < reader.file.length := List.length_pos_of_ne_nil there
  have header : (reader.file.take HEADER_SIZE).length = min HEADER_SIZE reader.file.length := List.length_take
  have size : 0 < HEADER_SIZE := by decide
  unfold next read
  dsimp only
  rw [if_neg (by omega)]
  by_cases short : (reader.file.take HEADER_SIZE).length < HEADER_SIZE
  · rw [if_pos short]
    exact ⟨_, HEADER_SIZE, size, rfl⟩
  · rw [if_neg short]
    cases decodeHeader (reader.file.take HEADER_SIZE) with
    | error error => exact ⟨_, HEADER_SIZE, size, rfl⟩
    | ok header =>
      dsimp only
      rw [List.drop_drop]
      split_ifs
      · exact ⟨_, HEADER_SIZE + header.payloadSize, by omega, rfl⟩
      · exact ⟨_, HEADER_SIZE + header.payloadSize, by omega, rfl⟩

/-- Whatever the bytes are, a call that returns anything is nearer to the end of the file. -/
theorem next_advances {result : Except DecodeError WireEvent} (returned : reader.next = (some result, after)) :
    after.file.length < reader.file.length := by
  by_cases empty : reader.file = []
  · rw [next_empty empty] at returned
    cases returned
  · obtain ⟨_, consumed, positive, drops⟩ := next_drops empty
    rw [drops] at returned
    cases returned
    have some : 0 < reader.file.length := List.length_pos_of_ne_nil empty
    rw [List.length_drop]
    omega

/-- An event that was written is read back, and the file stands behind it. -/
theorem next_encode {event : WireEvent} (fits : event.Representable) (rest : List UInt8) :
    next { file := encodeEvent event ++ rest } = (some (.ok event), { file := rest }) := by
  have length := putHeader_length event.header.type event.header.sequenceNumber event.header.timestamp
    event.header.payloadSize
  have decoded := decodeHeader_encode fits []
  have whole := decodeEvent_encode fits []
  rw [List.append_nil] at decoded whole
  rw [encodeEvent_eq] at whole ⊢
  rw [List.append_assoc]
  unfold next read
  dsimp only
  rw [List.take_left' length, List.drop_left' length, length, if_neg (by decide), if_neg (lt_irrefl _), decoded]
  dsimp only
  rw [List.take_left' (payload_length event), List.drop_left' (payload_length event), payload_length,
    if_neg (lt_irrefl _), whole]

theorem calls_end (empty : reader.file = []) (count : Nat) : reader.calls count = List.replicate count none := by
  induction count with
  | zero => rfl
  | succ count ih => rw [calls, next_empty empty, ih, List.replicate_succ]

theorem calls_encoded {events : List WireEvent} (fits : ∀ event ∈ events, event.Representable) (more : Nat) :
    calls (events.length + more) { file := events.flatMap encodeEvent } =
      events.map (fun event => some (.ok event)) ++ List.replicate more none := by
  induction events with
  | nil =>
    rw [List.length_nil, Nat.zero_add]
    exact calls_end rfl more
  | cons event events ih =>
    rw [List.length_cons, Nat.add_right_comm, calls, List.flatMap_cons, next_encode (fits event List.mem_cons_self),
      ih fun other member => fits other (List.mem_cons_of_mem _ member)]
    rfl

/-- The end of the file comes after finitely many calls, and then stays. -/
theorem calls_finish (reader : EventFileReader) :
    ∃ results : List (Except DecodeError WireEvent), results.length ≤ reader.file.length ∧
      ∀ more, reader.calls (results.length + more) = results.map some ++ List.replicate more none := by
  induction bound : reader.file.length using Nat.strongRecOn generalizing reader with
  | _ length ih =>
    by_cases empty : reader.file = []
    · refine ⟨[], Nat.zero_le _, fun more => ?_⟩
      rw [List.length_nil, Nat.zero_add]
      exact calls_end empty more
    · obtain ⟨result, consumed, _, returned⟩ := next_drops empty
      have shorter := next_advances returned
      obtain ⟨results, few, finish⟩ := ih _ (bound ▸ shorter) _ rfl
      refine ⟨result :: results, ?_, fun more => ?_⟩
      · rw [List.length_cons]
        omega
      · rw [List.length_cons, Nat.add_right_comm, calls, returned, finish more]
        rfl

/-- Events come back as they were written, alone and from a file of them; what is accepted was
written; and no file keeps its reader from coming to the end. -/
theorem eventCodec_fileReader :
    (∀ (event : WireEvent) tail, event.Representable → decodeEvent (encodeEvent event ++ tail) = .ok event) ∧
    (∀ data event, decodeEvent data = .ok event → event.Representable ∧ encodeEvent event <+: data) ∧
    (∀ (events : List WireEvent) more, (∀ event ∈ events, event.Representable) →
      calls (events.length + more) { file := events.flatMap encodeEvent } =
        events.map (fun event => some (.ok event)) ++ List.replicate more none) ∧
    (∀ (reader : EventFileReader) result after, reader.next = (some result, after) →
      after.file.length < reader.file.length) ∧
    ∀ reader : EventFileReader, ∃ results : List (Except DecodeError WireEvent), results.length ≤ reader.file.length ∧
      ∀ more, reader.calls (results.length + more) = results.map some ++ List.replicate more none := by
  refine ⟨fun event tail fits => decodeEvent_encode fits tail, fun data event decoded => ?_,
    fun events more fits => calls_encoded fits more, fun reader result after => next_advances, calls_finish⟩
  obtain ⟨fits, _, front⟩ := encodeEvent_decode decoded
  exact ⟨fits, front⟩

/-- A file of two events, read to its end, and one cut short. -/
theorem eventCodec_fileReader_two :
    let clear : WireEvent := .clearBook { sequenceNumber := 1, timestamp := 2, instrumentId := 3 }
    let cancel : WireEvent := .cancelOrder { sequenceNumber := 2, timestamp := 5, orderId := 9, instrumentId := 3 }
    decodeEvent (encodeEvent clear ++ [7]) = .ok clear ∧
      calls 3 { file := encodeEvent clear ++ encodeEvent cancel } = [some (.ok clear), some (.ok cancel), none] ∧
      encodeEvent clear <+: encodeEvent clear ++ [7] ∧
      (next { file := [0] }).2.file.length < 1 := by
  obtain ⟨written, read, file, advances, _⟩ := eventCodec_fileReader
  have decoded := written (.clearBook { sequenceNumber := 1, timestamp := 2, instrumentId := 3 }) [7] (by decide)
  have both := file [.clearBook { sequenceNumber := 1, timestamp := 2, instrumentId := 3 },
    .cancelOrder { sequenceNumber := 2, timestamp := 5, orderId := 9, instrumentId := 3 }] 1 (by decide)
  exact ⟨decoded, both, (read _ _ decoded).2, advances { file := [0] } (.error .truncatedHeader) _ rfl⟩

end EventFileReader

end Mdh.Feed
