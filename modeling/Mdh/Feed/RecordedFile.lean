import Mdh.Feed.EventFileReader

/-! A recorded file as the frames its reader returns, one call after the other, to the end of it. -/

namespace Mdh.Feed
open Mdh.Core

/-- What a decoder makes of one frame. -/
abbrev FrameResult := Except DecodeError WireEvent

/-- The events among the frames. -/
def eventsIn (frames : List FrameResult) : List WireEvent := frames.filterMap Except.toOption

namespace EventFileReader

def framesFrom : Nat → EventFileReader → List FrameResult
  | 0, _ => []
  | count + 1, reader =>
      match reader.next with
      | (none, _) => []
      | (some result, reader) => result :: framesFrom count reader

/-- A call that returns something takes a byte, so there are no more calls than bytes. -/
def readFrames (file : List UInt8) : List FrameResult := framesFrom file.length { file }

variable {reader after : EventFileReader}

/-- An event a call returns was decoded from bytes. -/
theorem next_event {event : WireEvent} (returned : reader.next = (some (.ok event), after)) : event.Representable := by
  have decodes : ∃ data, decodeEvent data = .ok event := by
    unfold next at returned
    dsimp only at returned
    split_ifs at returned with empty short
    · cases returned
    · cases returned
    · split at returned
      · cases returned
      · split_ifs at returned with cut
        · cases returned
        · exact ⟨_, Option.some.inj (congrArg Prod.fst returned)⟩
  obtain ⟨data, decoded⟩ := decodes
  exact (encodeEvent_decode decoded).1

theorem framesFrom_fits (count : Nat) (reader : EventFileReader) :
    ∀ event ∈ eventsIn (framesFrom count reader), event.Representable := by
  induction count generalizing reader with
  | zero => nofun
  | succ count ih =>
    unfold framesFrom
    split
    · nofun
    · rename_i result after returned
      cases result with
      | error error => exact ih after
      | ok event =>
        intro other member
        rcases List.mem_cons.mp member with rfl | later
        · exact next_event returned
        · exact ih after other later

theorem framesFrom_length (count : Nat) (reader : EventFileReader) : (framesFrom count reader).length ≤ count := by
  induction count generalizing reader with
  | zero => exact Nat.le_refl _
  | succ count ih =>
    unfold framesFrom
    split
    · exact Nat.zero_le _
    · exact Nat.succ_le_succ (ih _)

theorem framesFrom_encoded {events : List WireEvent} (fits : ∀ event ∈ events, event.Representable) {count : Nat}
    (enough : events.length ≤ count) : framesFrom count { file := events.flatMap encodeEvent } = events.map .ok := by
  induction events generalizing count with
  | nil =>
    cases count with
    | zero => rfl
    | succ count => rw [framesFrom, List.flatMap_nil, next_empty rfl]; rfl
  | cons event events ih =>
    obtain ⟨count, rfl⟩ : ∃ fewer, count = fewer + 1 := ⟨count - 1, by rw [List.length_cons] at enough; omega⟩
    rw [framesFrom, List.flatMap_cons, next_encode (fits event List.mem_cons_self)]
    dsimp only
    rw [ih (fun other member => fits other (List.mem_cons_of_mem _ member)) (Nat.succ_le_succ_iff.mp enough)]
    rfl

/-- What was written is what is read. -/
theorem readFrames_encoded {events : List WireEvent} (fits : ∀ event ∈ events, event.Representable) :
    readFrames (events.flatMap encodeEvent) = events.map .ok := by
  apply framesFrom_encoded fits
  induction events with
  | nil => exact Nat.le_refl _
  | cons event events ih =>
    have one : 0 < (encodeEvent event).length := by
      rw [encodeEvent_eq, List.length_append, putHeader_length]
      exact Nat.lt_of_lt_of_le (by decide) (Nat.le_add_right ..)
    have rest := ih fun other member => fits other (List.mem_cons_of_mem _ member)
    rw [List.length_cons, List.flatMap_cons, List.length_append]
    omega

end EventFileReader

end Mdh.Feed
