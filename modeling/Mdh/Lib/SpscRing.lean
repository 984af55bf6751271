import Mathlib.Data.List.Basic
import Mathlib.Data.Nat.ModEq
import Mathlib.Logic.Function.Basic

/-! A ring with one producer and one consumer, one load or store at a time. The positions are
machine words that run free and wrap; the capacity is a power of two that a word can hold. -/

namespace Mdh.Lib

structure SpscRing (T : Type) where
  bits : Fin 64
  head : BitVec 64 := 0
  tail : BitVec 64 := 0
  slots : Nat → T

namespace SpscRing
variable {T : Type}

def capacity (ring : SpscRing T) : Nat := 2 ^ ring.bits.val

/-- `storage_[position & mask_]`. -/
def slotAt (ring : SpscRing T) (position : BitVec 64) : T := ring.slots (position.toNat % ring.capacity)

def occupancy (ring : SpscRing T) : Nat := (ring.head - ring.tail).toNat

/-- What has been published and not yet freed, the oldest first. -/
def items (ring : SpscRing T) : List T :=
  (List.range ring.occupancy).map fun offset => ring.slotAt (ring.tail + BitVec.ofNat 64 offset)

/-- Where the producer stands in `try_push`, named by what it does next. -/
inductive PushPlace (T : Type) where
  | loadHead (value : T)
  | loadTail (value : T) (head : BitVec 64)
  | writeSlot (value : T) (head : BitVec 64)
  | storeHead (value : T) (head : BitVec 64)
  deriving DecidableEq, Repr

def PushPlace.value : PushPlace T → T
  | .loadHead value | .loadTail value _ | .writeSlot value _ | .storeHead value _ => value

/-- The head has been loaded and not yet stored. -/
def PushPlace.Loaded : PushPlace T → Prop
  | .loadHead _ => False
  | .loadTail .. | .writeSlot .. | .storeHead .. => True

instance : DecidablePred (PushPlace.Loaded (T := T)) := fun place => by
  cases place <;> unfold PushPlace.Loaded <;> infer_instance

/-- Where the consumer stands in `try_pop`. -/
inductive PopPlace (T : Type) where
  | loadTail
  | loadHead (tail : BitVec 64)
  | readSlot (tail : BitVec 64)
  | storeTail (tail : BitVec 64) (value : T)
  deriving DecidableEq, Repr

/-- One step of `try_push`: the place it comes to, or what it returns. -/
def pushStep (ring : SpscRing T) : PushPlace T → SpscRing T × (PushPlace T ⊕ Bool)
  | .loadHead value => (ring, .inl (.loadTail value ring.head))
  | .loadTail value head =>
      if ring.capacity ≤ (head - ring.tail).toNat then (ring, .inr false) else (ring, .inl (.writeSlot value head))
  | .writeSlot value head =>
      ({ ring with slots := Function.update ring.slots (head.toNat % ring.capacity) value },
        .inl (.storeHead value head))
  | .storeHead _ head => ({ ring with head := head + 1 }, .inr true)

/-- One step of `try_pop`. -/
def popStep (ring : SpscRing T) : PopPlace T → SpscRing T × (PopPlace T ⊕ Option T)
  | .loadTail => (ring, .inl (.loadHead ring.tail))
  | .loadHead tail => if tail = ring.head then (ring, .inr none) else (ring, .inl (.readSlot tail))
  | .readSlot tail => (ring, .inl (.storeTail tail (ring.slotAt tail)))
  | .storeTail tail value => ({ ring with tail := tail + 1 }, .inr (some value))

/-- No more is published than there are slots. -/
def Sound (ring : SpscRing T) : Prop := ring.occupancy ≤ ring.capacity

/-- What the only producer knows where it stands. -/
def PushSound (ring : SpscRing T) : PushPlace T → Prop
  | .loadHead _ => True
  | .loadTail _ head => head = ring.head
  | .writeSlot _ head => head = ring.head ∧ ring.occupancy < ring.capacity
  | .storeHead value head => head = ring.head ∧ ring.occupancy < ring.capacity ∧ ring.slotAt head = value

/-- What the only consumer knows where it stands. -/
def PopSound (ring : SpscRing T) : PopPlace T → Prop
  | .loadTail => True
  | .loadHead tail => tail = ring.tail
  | .readSlot tail => tail = ring.tail ∧ ring.tail ≠ ring.head
  | .storeTail tail value => tail = ring.tail ∧ ring.tail ≠ ring.head ∧ ring.slotAt tail = value

variable {ring : SpscRing T}

theorem capacity_lt (ring : SpscRing T) : ring.capacity < 2 ^ 64 :=
  Nat.pow_lt_pow_right (by decide) ring.bits.isLt

/-- A capacity divides the range of a word, so a position's slot is its count's. -/
theorem position_mod (ring : SpscRing T) (position : BitVec 64) (offset : Nat) :
    (position + BitVec.ofNat 64 offset).toNat % ring.capacity = (position.toNat + offset) % ring.capacity := by
  have divides : ring.capacity ∣ 2 ^ 64 := Nat.pow_dvd_pow 2 ring.bits.isLt.le
  rw [BitVec.toNat_add, BitVec.toNat_ofNat, Nat.add_mod_mod, Nat.mod_mod_of_dvd _ divides]

theorem tail_add_occupancy (ring : SpscRing T) : ring.tail + BitVec.ofNat 64 ring.occupancy = ring.head := by
  unfold occupancy
  rw [BitVec.ofNat_toNat, BitVec.setWidth_eq, BitVec.add_comm, BitVec.sub_add_cancel]

theorem occupancy_eq_zero : ring.occupancy = 0 ↔ ring.tail = ring.head := by
  constructor
  · intro empty
    have whole := ring.tail_add_occupancy
    rw [empty] at whole
    exact (BitVec.add_zero _).symm.trans whole
  · intro same
    unfold occupancy
    rw [same, BitVec.sub_self]
    rfl

theorem items_eq_nil : ring.items = [] ↔ ring.tail = ring.head := by
  rw [← occupancy_eq_zero, items, List.map_eq_nil_iff, List.range_eq_nil]

theorem length_items (ring : SpscRing T) : ring.items.length = ring.occupancy := by
  rw [items, List.length_map, List.length_range]

/-- The slot at the head is none of those published, unless all are. -/
theorem head_unpublished (room : ring.occupancy < ring.capacity) {offset : Nat} (published : offset < ring.occupancy) :
    (ring.tail + BitVec.ofNat 64 offset).toNat % ring.capacity ≠ ring.head.toNat % ring.capacity := by
  intro same
  rw [← ring.tail_add_occupancy, position_mod, position_mod] at same
  have congruent : Nat.ModEq ring.capacity offset ring.occupancy := Nat.ModEq.add_left_cancel' _ same
  have equal := Nat.ModEq.eq_of_lt_of_lt congruent (published.trans room) room
  omega

/-- Writing the slot at the head of a ring with room changes nothing that is published. -/
theorem items_write (room : ring.occupancy < ring.capacity) (value : T) :
    ({ ring with slots := Function.update ring.slots (ring.head.toNat % ring.capacity) value } : SpscRing T).items =
      ring.items := by
  refine List.map_congr_left fun offset member => ?_
  have published : offset < ring.occupancy := List.mem_range.mp member
  exact Function.update_of_ne (head_unpublished room published) ..

theorem occupancy_succ (room : ring.occupancy < ring.capacity) :
    ({ ring with head := ring.head + 1 } : SpscRing T).occupancy = ring.occupancy + 1 := by
  have fits : ring.occupancy + 1 < 2 ^ 64 := (Nat.succ_le_of_lt room).trans_lt ring.capacity_lt
  unfold occupancy at *
  dsimp only
  bv_omega

/-- Storing the head publishes the slot there. -/
theorem items_publish (room : ring.occupancy < ring.capacity) :
    ({ ring with head := ring.head + 1 } : SpscRing T).items = ring.items ++ [ring.slotAt ring.head] := by
  unfold items
  rw [occupancy_succ room, List.range_succ, List.map_append]
  congr 1
  exact congrArg (fun position => [ring.slotAt position]) ring.tail_add_occupancy

theorem occupancy_pred (nonempty : ring.tail ≠ ring.head) :
    ring.occupancy = ({ ring with tail := ring.tail + 1 } : SpscRing T).occupancy + 1 := by
  unfold occupancy
  dsimp only
  bv_omega

/-- Storing the tail frees the oldest slot. -/
theorem items_free (nonempty : ring.tail ≠ ring.head) :
    ring.items = ring.slotAt ring.tail :: ({ ring with tail := ring.tail + 1 } : SpscRing T).items := by
  unfold items
  rw [occupancy_pred nonempty, List.range_succ_eq_map, List.map_cons, List.map_map]
  congr 1
  · exact congrArg ring.slotAt (BitVec.add_zero _)
  · refine List.map_congr_left fun offset _ => ?_
    refine congrArg ring.slotAt ?_
    show ring.tail + BitVec.ofNat 64 (offset + 1) = ring.tail + 1 + BitVec.ofNat 64 offset
    rw [BitVec.ofNat_add, BitVec.add_assoc, BitVec.add_comm 1]
    rfl

/-- The bits of the first power of two that is not less than `capacity`; the shift of a word
leaves none after the last. -/
def nextPowerOfTwo (capacity : Nat) : Option (Fin 64) := (List.finRange 64).find? fun bits => capacity ≤ 2 ^ bits.val

/-- A ring nothing was pushed to. -/
def make (bits : Fin 64) (blank : T) : SpscRing T := { bits, slots := fun _ => blank }

theorem make_items (bits : Fin 64) (blank : T) : (make bits blank).items = [] := items_eq_nil.mpr rfl

theorem make_sound (bits : Fin 64) (blank : T) : (make bits blank).Sound :=
  (occupancy_eq_zero.mpr rfl).trans_le (Nat.zero_le _)

section Push
variable {place : PushPlace T}

/-- A push that goes on stays the push of its value, and what the producer knows stays true. -/
theorem pushStep_goes (sound : ring.PushSound place) {next : PushPlace T}
    (goes : (ring.pushStep place).2 = .inl next) :
    (ring.pushStep place).1.PushSound next ∧ next.value = place.value := by
  cases place with
  | loadHead value =>
    cases goes
    exact ⟨rfl, rfl⟩
  | loadTail value head =>
    simp only [pushStep] at goes ⊢
    split_ifs at goes ⊢ with full
    cases goes
    refine ⟨⟨sound, ?_⟩, rfl⟩
    rw [show head = ring.head from sound] at full
    exact not_le.mp full
  | writeSlot value head =>
    obtain ⟨same, room⟩ := sound
    cases goes
    exact ⟨⟨same, room, Function.update_self ..⟩, rfl⟩
  | storeHead value head => cases goes

theorem pushStep_sound (sound : ring.Sound) (known : ring.PushSound place) : (ring.pushStep place).1.Sound := by
  cases place with
  | loadHead value => exact sound
  | loadTail value head =>
    simp only [pushStep]
    split_ifs <;> exact sound
  | writeSlot value head => exact sound
  | storeHead value head =>
    obtain ⟨rfl, room, _⟩ := known
    show SpscRing.occupancy { ring with head := ring.head + 1 } ≤ ring.capacity
    rw [occupancy_succ room]
    exact room

/-- A push that succeeds adds its value; nothing else changes what is published. -/
theorem pushStep_items (known : ring.PushSound place) :
    match (ring.pushStep place).2 with
    | .inr true => (ring.pushStep place).1.items = ring.items ++ [place.value]
    | .inl _ | .inr false => (ring.pushStep place).1.items = ring.items := by
  cases place with
  | loadHead value => rfl
  | loadTail value head =>
    simp only [pushStep]
    split_ifs <;> rfl
  | writeSlot value head =>
    obtain ⟨rfl, room⟩ := known
    exact items_write room value
  | storeHead value head =>
    obtain ⟨rfl, room, written⟩ := known
    have published := items_publish room
    rw [written] at published
    exact published

@[simp] theorem pushStep_capacity (ring : SpscRing T) (place : PushPlace T) :
    (ring.pushStep place).1.capacity = ring.capacity := by
  cases place with
  | loadHead | writeSlot | storeHead => rfl
  | loadTail value head =>
    simp only [pushStep]
    split_ifs <;> rfl

/-- A push that succeeds has found room. -/
theorem pushStep_room (known : ring.PushSound place) (pushed : (ring.pushStep place).2 = .inr true) :
    ring.items.length < ring.capacity := by
  rw [length_items]
  cases place with
  | loadHead | writeSlot => cases pushed
  | loadTail value head =>
    simp only [pushStep] at pushed
    split_ifs at pushed
    cases pushed
  | storeHead value head => exact known.2.1

/-- A push is turned away where it looks at the tail, and only by a ring that is full. -/
theorem pushStep_full (sound : ring.Sound) (known : ring.PushSound place) :
    (ring.pushStep place).2 = .inr false ↔
      ∃ value head, place = .loadTail value head ∧ ring.items.length = ring.capacity := by
  have most : ring.occupancy ≤ ring.capacity := sound
  rw [length_items]
  cases place with
  | loadHead | writeSlot | storeHead => exact ⟨nofun, nofun⟩
  | loadTail value head =>
    obtain rfl : head = ring.head := known
    have same : (ring.head - ring.tail).toNat = ring.occupancy := rfl
    simp only [pushStep]
    split_ifs with full
    · exact ⟨fun _ => ⟨value, ring.head, rfl, by omega⟩, fun _ => rfl⟩
    · refine ⟨nofun, fun ⟨_, _, _, whole⟩ => ?_⟩
      omega

/-- What the consumer knows is not the producer's to change. -/
theorem pushStep_pop (known : ring.PushSound place) {pop : PopPlace T} (sound : ring.PopSound pop) :
    (ring.pushStep place).1.PopSound pop := by
  cases place with
  | loadHead value => exact sound
  | loadTail value head =>
    simp only [pushStep]
    split_ifs <;> exact sound
  | writeSlot value head =>
    obtain ⟨rfl, room⟩ := known
    cases pop with
    | loadTail | loadHead | readSlot => exact sound
    | storeTail tail read =>
      obtain ⟨rfl, nonempty, same⟩ := sound
      refine ⟨rfl, nonempty, ?_⟩
      have positive : 0 < ring.occupancy := Nat.pos_of_ne_zero (occupancy_eq_zero.not.mpr nonempty)
      have apart := head_unpublished room positive
      rw [show ring.tail + BitVec.ofNat 64 0 = ring.tail from BitVec.add_zero _] at apart
      exact (Function.update_of_ne apart ..).trans same
  | storeHead value head =>
    obtain ⟨rfl, room, _⟩ := known
    have stays : ring.tail ≠ ring.head + 1 := by
      intro same
      have full := occupancy_succ room
      rw [occupancy_eq_zero.mpr (show ring.tail = ring.head + 1 from same)] at full
      omega
    cases pop with
    | loadTail | loadHead => exact sound
    | readSlot tail => exact ⟨sound.1, stays⟩
    | storeTail tail read => exact ⟨sound.1, stays, sound.2.2⟩

end Push

section Pop
variable {place : PopPlace T}

@[simp] theorem popStep_capacity (ring : SpscRing T) (place : PopPlace T) :
    (ring.popStep place).1.capacity = ring.capacity := by
  cases place with
  | loadTail | readSlot | storeTail => rfl
  | loadHead tail =>
    simp only [popStep]
    split_ifs <;> rfl

theorem popStep_goes (sound : ring.PopSound place) {next : PopPlace T} (goes : (ring.popStep place).2 = .inl next) :
    (ring.popStep place).1.PopSound next := by
  cases place with
  | loadTail =>
    cases goes
    exact rfl
  | loadHead tail =>
    simp only [popStep] at goes ⊢
    split_ifs at goes ⊢ with empty
    cases goes
    have same : tail = ring.tail := sound
    exact ⟨same, same ▸ empty⟩
  | readSlot tail =>
    cases goes
    exact ⟨sound.1, sound.2, rfl⟩
  | storeTail tail value => cases goes

theorem popStep_sound (sound : ring.Sound) (known : ring.PopSound place) : (ring.popStep place).1.Sound := by
  cases place with
  | loadTail | readSlot => exact sound
  | loadHead tail =>
    simp only [popStep]
    split_ifs <;> exact sound
  | storeTail tail value =>
    obtain ⟨rfl, nonempty, _⟩ := known
    have less := occupancy_pred nonempty
    unfold Sound at *
    show SpscRing.occupancy { ring with tail := ring.tail + 1 } ≤ ring.capacity
    omega

/-- A pop that goes on takes nothing, one that finds nothing found nothing published, and one
that returns a value has freed the oldest. -/
theorem popStep_items (known : ring.PopSound place) :
    match (ring.popStep place).2 with
    | .inl _ => (ring.popStep place).1.items = ring.items
    | .inr none => (ring.popStep place).1 = ring ∧ ring.items = []
    | .inr (some value) => ring.items = value :: (ring.popStep place).1.items := by
  cases place with
  | loadTail | readSlot => rfl
  | loadHead tail =>
    have same : tail = ring.tail := known
    simp only [popStep]
    split_ifs with empty
    · exact ⟨rfl, items_eq_nil.mpr (same ▸ empty)⟩
    · rfl
  | storeTail tail value =>
    obtain ⟨rfl, nonempty, read⟩ := known
    have freed := items_free nonempty
    rw [read] at freed
    exact freed

/-- What the producer knows is not the consumer's to change. -/
theorem popStep_push (known : ring.PopSound place) {push : PushPlace T} (sound : ring.PushSound push) :
    (ring.popStep place).1.PushSound push := by
  cases place with
  | loadTail | readSlot => exact sound
  | loadHead tail =>
    simp only [popStep]
    split_ifs <;> exact sound
  | storeTail tail value =>
    obtain ⟨rfl, nonempty, _⟩ := known
    have less := occupancy_pred nonempty
    have room (before : ring.occupancy < ring.capacity) :
        SpscRing.occupancy { ring with tail := ring.tail + 1 } < ring.capacity := by omega
    cases push with
    | loadHead | loadTail => exact sound
    | writeSlot value head => exact ⟨sound.1, room sound.2⟩
    | storeHead value head => exact ⟨sound.1, room sound.2.1, sound.2.2⟩

end Pop

end SpscRing

end Mdh.Lib
