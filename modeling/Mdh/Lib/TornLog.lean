import Mathlib.Data.List.Basic
import Mathlib.Data.List.TakeDrop
import Mathlib.Tactic.SplitIfs

/-! A log of frames that is cut off anywhere: the frames that are whole before the cut, and the
piece of the frame it falls into. -/

namespace Mdh.Lib.TornLog
variable {β : Type*}

/-- How many frames end within the first `size` elements. -/
def whole : List (List β) → Nat → Nat
  | [], _ => 0
  | frame :: rest, size => if frame.length ≤ size then whole rest (size - frame.length) + 1 else 0

/-- What is there of the first frame that does not. -/
def torn : List (List β) → Nat → List β
  | [], _ => []
  | frame :: rest, size => if frame.length ≤ size then torn rest (size - frame.length) else frame.take size

variable (frames : List (List β)) (size : Nat)

/-- The cut log is its whole frames and then the torn one. -/
theorem take_flatten : frames.flatten.take size = (frames.take (whole frames size)).flatten ++ torn frames size := by
  induction frames generalizing size with
  | nil => simp [whole, torn]
  | cons frame rest ih =>
    rw [List.flatten_cons, List.take_append]
    by_cases fits : frame.length ≤ size
    · rw [whole, torn, if_pos fits, if_pos fits, List.take_of_length_le fits, ih, List.take_succ_cons, List.flatten_cons,
        List.append_assoc]
    · rw [whole, torn, if_neg fits, if_neg fits, Nat.sub_eq_zero_of_le (by omega), List.take_zero, List.append_nil]
      rfl

/-- The torn piece is a front of the frame behind the whole ones, and not all of it. -/
theorem torn_cut : torn frames size = [] ∨ ∃ frame ∈ frames, ∃ kept, kept < frame.length ∧ torn frames size = frame.take kept := by
  induction frames generalizing size with
  | nil => exact Or.inl rfl
  | cons frame rest ih =>
    rw [torn]
    split_ifs with fits
    · rcases ih (size - frame.length) with nothing | ⟨other, member, kept, short, same⟩
      · exact Or.inl nothing
      · exact Or.inr ⟨other, List.mem_cons_of_mem _ member, kept, short, same⟩
    · exact Or.inr ⟨frame, List.mem_cons_self, size, by omega, rfl⟩

variable {frames size}

/-- Frames that were written out before the cut are whole. -/
theorem le_whole {count : Nat} (there : count ≤ frames.length) (written : (frames.take count).flatten.length ≤ size) :
    count ≤ whole frames size := by
  induction frames generalizing count size with
  | nil => exact there
  | cons frame rest ih =>
    cases count with
    | zero => exact Nat.zero_le _
    | succ count =>
      rw [List.take_succ_cons, List.flatten_cons, List.length_append] at written
      rw [whole, if_pos (by omega)]
      exact Nat.succ_le_succ (ih (Nat.le_of_succ_le_succ there) (by omega))

end Mdh.Lib.TornLog
