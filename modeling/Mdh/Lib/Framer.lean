import Mathlib.Data.List.Basic
import Mathlib.Tactic.SplitIfs

/-! A byte stream that arrives in pieces and is cut into frames. What is cut off does not depend
on where the pieces end. -/

namespace Mdh.Lib

/-- Takes the first whole frame off a buffer. A frame is not empty, and what arrives later does
not change it. -/
structure Framer (β : Type*) where
  next : List β → Option (List β × List β)
  split : ∀ {buffer frame rest}, next buffer = some (frame, rest) → buffer = frame ++ rest ∧ frame ≠ []
  stable : ∀ {buffer frame rest}, next buffer = some (frame, rest) →
    ∀ later, next (buffer ++ later) = some (frame, rest ++ later)

namespace Framer
variable {β : Type*} (framer : Framer β)

/-- Takes frames off until there is none, or `fuel` have been taken. -/
def drain : Nat → List β → List (List β) × List β
  | 0, buffer => ([], buffer)
  | fuel + 1, buffer =>
      match framer.next buffer with
      | none => ([], buffer)
      | some (frame, rest) => (frame :: (drain fuel rest).1, (drain fuel rest).2)

/-- All the whole frames of a buffer, and what is left of it. A frame takes a byte at least. -/
def frames (buffer : List β) : List (List β) × List β := framer.drain buffer.length buffer

variable {framer} {buffer frame rest : List β}

theorem rest_length (taken : framer.next buffer = some (frame, rest)) : rest.length < buffer.length := by
  obtain ⟨same, nonempty⟩ := framer.split taken
  have long : 0 < frame.length := List.length_pos_of_ne_nil nonempty
  rw [same, List.length_append]
  omega

theorem drain_enough {fuel : Nat} (enough : buffer.length ≤ fuel) : framer.drain fuel buffer = framer.frames buffer := by
  unfold frames
  induction fuel using Nat.strongRecOn generalizing buffer with
  | _ fuel ih =>
    cases fuel with
    | zero =>
      have empty : buffer.length = 0 := by omega
      rw [empty]
    | succ fuel =>
      cases length : buffer.length with
      | zero =>
        obtain rfl := List.length_eq_zero_iff.mp length
        have none : framer.next [] = none := by
          cases taken : framer.next [] with
          | none => rfl
          | some pair => exact absurd (rest_length taken) (by simp)
        simp only [drain, none]
      | succ length' =>
        cases taken : framer.next buffer with
        | none => simp only [drain, taken]
        | some pair =>
          obtain ⟨frame, rest⟩ := pair
          have shorter := rest_length taken
          have first : framer.drain fuel rest = framer.drain rest.length rest := ih fuel (by omega) (by omega)
          have second : framer.drain length' rest = framer.drain rest.length rest := ih length' (by omega) (by omega)
          simp only [drain, taken, first, second]

theorem frames_of_none (none : framer.next buffer = none) : framer.frames buffer = ([], buffer) := by
  unfold frames
  cases buffer.length with
  | zero => rfl
  | succ length => simp only [drain, none]

theorem frames_of_next (taken : framer.next buffer = some (frame, rest)) :
    framer.frames buffer = (frame :: (framer.frames rest).1, (framer.frames rest).2) := by
  have shorter := rest_length taken
  unfold frames
  cases length : buffer.length with
  | zero => omega
  | succ fuel =>
    have enough : framer.drain fuel rest = framer.frames rest := drain_enough (by omega)
    simp only [drain, taken, enough]
    rfl

/-- The rule for buffers: what holds of one without a whole frame, and of one whenever it holds
after its first frame, holds of all. -/
theorem frames_rule (framer : Framer β) {motive : List β → Prop} (done : ∀ buffer, framer.next buffer = none → motive buffer)
    (step : ∀ buffer frame rest, framer.next buffer = some (frame, rest) → motive rest → motive buffer)
    (buffer : List β) : motive buffer := by
  induction length : buffer.length using Nat.strongRecOn generalizing buffer with
  | _ fuel ih =>
    cases taken : framer.next buffer with
    | none => exact done buffer taken
    | some pair => exact step buffer _ _ taken (ih _ (length ▸ rest_length taken) _ rfl)

/-- The frames of a longer stream are those of its front, and then those of what the front left
with the rest behind it. -/
theorem frames_append (framer : Framer β) (front back : List β) :
    framer.frames (front ++ back) = ((framer.frames front).1 ++ (framer.frames ((framer.frames front).2 ++ back)).1,
      (framer.frames ((framer.frames front).2 ++ back)).2) := by
  induction front using frames_rule framer with
  | done buffer none =>
    rw [frames_of_none none]
    rfl
  | step buffer frame rest taken ih =>
    rw [frames_of_next taken, frames_of_next (framer.stable taken back), ih]
    rfl

end Framer

end Mdh.Lib
