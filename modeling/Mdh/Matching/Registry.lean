import Mdh.Matching.BookUpdates
import Mdh.Matching.MatchingEngine

/-! The instrument registry: every known id has a book of its own, so that a change to
one book is a change to one instrument. -/

namespace Mdh.Matching.MatchingEngine
open Mdh.Core Mdh.Lib

/-- The registered instruments, in ascending order. -/
def instruments (engine : MatchingEngine) : List InstrumentId := engine.byId.map Prod.fst

structure Registry (engine : MatchingEngine) : Prop where
  inside : ∀ id slot, engine.slotOfId.getD id none = some slot → slot < engine.books.length
  distinct : ∀ id other slot, engine.slotOfId.getD id none = some slot →
    engine.slotOfId.getD other none = some slot → id = other
  covered : ∀ slot, slot < engine.books.length → ∃ id, engine.slotOfId.getD id none = some slot
  listed : ∀ id slot, (id, slot) ∈ engine.byId ↔ engine.slotOfId.getD id none = some slot
  ascending : engine.instruments.Pairwise (· < ·)
  band : engine.bandTicks ≤ 64 ^ 3

section Lookup
variable {engine : MatchingEngine} {id : InstrumentId}

theorem slotFor_eq (known : engine.knowsInstrument id = true) :
    engine.slotOfId.getD id none = some (engine.slotFor id) := by
  obtain ⟨slot, found⟩ := Option.isSome_iff_exists.mp known
  rw [slotFor, found]
  rfl

theorem Registry.slotFor_lt (registry : engine.Registry) (known : engine.knowsInstrument id = true) :
    engine.slotFor id < engine.books.length :=
  registry.inside id _ (slotFor_eq known)

theorem Registry.mem_instruments (registry : engine.Registry) (id : InstrumentId) :
    id ∈ engine.instruments ↔ engine.knowsInstrument id = true := by
  unfold instruments knowsInstrument
  rw [List.mem_map, Option.isSome_iff_exists]
  constructor
  · rintro ⟨entry, member, rfl⟩
    exact ⟨entry.2, (registry.listed entry.1 entry.2).mp member⟩
  · rintro ⟨slot, found⟩
    exact ⟨(id, slot), (registry.listed id slot).mpr found, rfl⟩

theorem Registry.nodup (registry : engine.Registry) : engine.instruments.Nodup :=
  registry.ascending.imp fun smaller => ne_of_lt smaller

@[simp] theorem instruments_setBook (engine : MatchingEngine) (id : InstrumentId) (book : MatchingBook) :
    (engine.setBook id book).instruments = engine.instruments := rfl

theorem Registry.setBook (registry : engine.Registry) (id : InstrumentId) (book : MatchingBook) :
    (engine.setBook id book).Registry where
  inside other slot found := by
    simpa [MatchingEngine.setBook] using registry.inside other slot found
  distinct := registry.distinct
  covered slot within := registry.covered slot (by simpa [MatchingEngine.setBook] using within)
  listed := registry.listed
  ascending := registry.ascending
  band := registry.band

theorem Registry.bookFor_setBook (registry : engine.Registry) (known : engine.knowsInstrument id = true)
    {other : InstrumentId} (otherKnown : engine.knowsInstrument other = true) (book : MatchingBook) :
    (engine.setBook id book).bookFor other = if other = id then book else engine.bookFor other := by
  have slots : (engine.setBook id book).slotFor other = engine.slotFor other := rfl
  have within := registry.slotFor_lt known
  unfold bookFor
  rw [slots]
  by_cases same : other = id
  · subst same
    simp [MatchingEngine.setBook, List.getD_eq_getElem?_getD, within]
  · have different : engine.slotFor id ≠ engine.slotFor other := fun equal =>
      same (registry.distinct other id (engine.slotFor id)
        (equal ▸ slotFor_eq otherKnown) (slotFor_eq known))
    simp [MatchingEngine.setBook, List.getD_eq_getElem?_getD, same, List.getElem?_set_ne different]

end Lookup

/-- A resting order, with the instrument and the slot it rests at. -/
structure Resting where
  instrumentId : InstrumentId
  slot : Nat
  order : BookOrder
  deriving DecidableEq, Repr

def Resting.key (resting : Resting) : LiveKey := ⟨resting.order.accountId, resting.order.clientOrderId⟩

def Resting.of (instrumentId : InstrumentId) (placed : Placed) : Resting :=
  { instrumentId, slot := placed.slot, order := placed.order }

/-- Both sides of a book, bids first. -/
def bothSides (queues : Queues) : List Placed := queues .buy ++ queues .sell

theorem mem_bothSides (queues : Queues) (placed : Placed) :
    placed ∈ bothSides queues ↔ ∃ side, placed ∈ queues side := by
  unfold bothSides
  rw [List.mem_append]
  constructor
  · rintro (member | member)
    · exact ⟨_, member⟩
    · exact ⟨_, member⟩
  · rintro ⟨side, member⟩
    cases side
    · exact Or.inl member
    · exact Or.inr member

def restingOn (engine : MatchingEngine) (id : InstrumentId) : List Resting :=
  (bothSides (engine.bookFor id).queues).map (Resting.of id)

/-- Every resting order of every instrument. -/
def resting (engine : MatchingEngine) : List Resting := engine.instruments.flatMap engine.restingOn

/-- Every resting order of every other instrument. -/
def restingElsewhere (engine : MatchingEngine) (id : InstrumentId) : List Resting :=
  (engine.instruments.filter (· ≠ id)).flatMap engine.restingOn

section Resting
variable {engine : MatchingEngine} {id : InstrumentId}

theorem flatMap_perm_split {α β : Type*} [DecidableEq α] {keys : List α} (nodup : keys.Nodup) {key : α}
    (member : key ∈ keys) (values : α → List β) :
    (keys.flatMap values).Perm (values key ++ (keys.filter (· ≠ key)).flatMap values) := by
  have perm : keys.Perm (key :: keys.filter (· ≠ key)) := by
    have erased : keys.erase key = keys.filter (· ≠ key) := by
      rw [nodup.erase_eq_filter]
      exact List.filter_congr fun other _ => Bool.eq_iff_iff.mpr (by simp)
    rw [← erased]
    exact List.perm_cons_erase member
  exact (perm.flatMap_right values)

theorem Registry.resting_perm (registry : engine.Registry) (known : engine.knowsInstrument id = true) :
    engine.resting.Perm (engine.restingOn id ++ engine.restingElsewhere id) :=
  flatMap_perm_split registry.nodup ((registry.mem_instruments id).mpr known) engine.restingOn

theorem Registry.restingElsewhere_setBook (registry : engine.Registry) (known : engine.knowsInstrument id = true)
    (book : MatchingBook) : (engine.setBook id book).restingElsewhere id = engine.restingElsewhere id := by
  unfold restingElsewhere
  rw [instruments_setBook]
  refine List.flatMap_congr fun other member => ?_
  obtain ⟨listed, different⟩ := List.mem_filter.mp member
  unfold restingOn
  rw [registry.bookFor_setBook known ((registry.mem_instruments other).mp listed),
    if_neg (by simpa using different)]

/-- After a change to one book, what rests is that book and everything elsewhere. -/
theorem Registry.resting_setBook (registry : engine.Registry) (known : engine.knowsInstrument id = true)
    (book : MatchingBook) :
    (engine.setBook id book).resting.Perm
      ((bothSides book.queues).map (Resting.of id) ++ engine.restingElsewhere id) := by
  have perm : (engine.setBook id book).resting.Perm _ := (registry.setBook id book).resting_perm known
  rw [registry.restingElsewhere_setBook known] at perm
  unfold restingOn at perm
  rwa [registry.bookFor_setBook known known, if_pos rfl] at perm

theorem Registry.mem_resting (registry : engine.Registry) (entry : Resting) :
    entry ∈ engine.resting ↔ engine.knowsInstrument entry.instrumentId = true ∧
      ∃ side, ⟨entry.slot, entry.order⟩ ∈ (engine.bookFor entry.instrumentId).queues side := by
  unfold resting restingOn
  simp only [List.mem_flatMap, registry.mem_instruments, List.mem_map, mem_bothSides]
  constructor
  · rintro ⟨id, known, placed, ⟨side, member⟩, rfl⟩
    exact ⟨known, side, member⟩
  · rintro ⟨known, side, member⟩
    exact ⟨entry.instrumentId, known, _, ⟨side, member⟩, rfl⟩

end Resting

section Sides
variable {queues : Queues} {slot : Nat}

theorem bothSides_enqueue (queues : Queues) (slot : Nat) (order : BookOrder) :
    (bothSides (queues.enqueue slot order)).Perm (⟨slot, order⟩ :: bothSides queues) := by
  unfold bothSides Queues.enqueue
  cases order.side
  · exact (PriorityList.enqueue_perm ..).append_right _
  · exact ((PriorityList.enqueue_perm ..).append_left _).trans List.perm_middle

theorem bothSides_remove (queues : Queues) (slot : Nat) :
    bothSides (queues.remove slot) = (bothSides queues).filter fun placed => placed.slot ≠ slot :=
  (List.filter_append ..).symm

/-- With one order to a slot, an order and the rest of the book are all there is. -/
theorem perm_remove (nodup : ((bothSides queues).map Placed.slot).Nodup) {placed : Placed}
    (member : placed ∈ bothSides queues) :
    (bothSides queues).Perm (placed :: bothSides (queues.remove placed.slot)) := by
  rw [bothSides_remove]
  generalize bothSides queues = entries at nodup member
  induction entries with
  | nil => simp at member
  | cons first rest ih =>
    rw [List.map_cons, List.nodup_cons] at nodup
    rcases List.mem_cons.mp member with rfl | later
    · have kept : rest.filter (fun other => other.slot ≠ placed.slot) = rest :=
        List.filter_eq_self.mpr fun other there => by
          simpa using fun same : other.slot = placed.slot => nodup.1 (same ▸ List.mem_map_of_mem there)
      rw [List.filter_cons, if_neg (by simp), kept]
    · have different : first.slot ≠ placed.slot := fun same => nodup.1 (same ▸ List.mem_map_of_mem later)
      rw [List.filter_cons, if_pos (by simpa using different)]
      exact ((ih nodup.2 later).cons first).trans (List.Perm.swap ..)

theorem perm_amend (nodup : ((bothSides queues).map Placed.slot).Nodup) {placed : Placed}
    (member : placed ∈ bothSides queues) (change : BookOrder → BookOrder) :
    (bothSides (queues.amend placed.slot change)).Perm
      (⟨placed.slot, change placed.order⟩ :: bothSides (queues.remove placed.slot)) := by
  have amended : bothSides (queues.amend placed.slot change) = (bothSides queues).map fun other =>
      if other.slot = placed.slot then { other with order := change other.order } else other :=
    (List.map_append ..).symm
  have others : (bothSides (queues.remove placed.slot)).map (fun other =>
      if other.slot = placed.slot then ({ other with order := change other.order } : Placed) else other) =
        bothSides (queues.remove placed.slot) := by
    conv_rhs => rw [← List.map_id (bothSides (queues.remove placed.slot))]
    refine List.map_congr_left fun other there => ?_
    rw [bothSides_remove] at there
    rw [if_neg (by simpa using (List.mem_filter.mp there).2)]
    rfl
  rw [amended]
  refine ((perm_remove nodup member).map _).trans ?_
  rw [List.map_cons, others, if_pos rfl]

end Sides

theorem wellFormed_slots_nodup {book : MatchingBook} (wf : book.WellFormed) :
    ((bothSides book.queues).map Placed.slot).Nodup := by
  obtain ⟨free, holds⟩ := wf
  unfold bothSides
  rw [List.map_append]
  exact (List.nodup_append.mp holds.nodup).2.1

theorem wellFormed_ownSide {book : MatchingBook} (wf : book.WellFormed) {side : Side} {placed : Placed}
    (member : placed ∈ book.queues side) : placed.order.side = side := by
  obtain ⟨free, holds⟩ := wf
  exact holds.ownSide side placed member

section Register
variable {engine : MatchingEngine} {id : InstrumentId}

theorem getD_resize (table : List (Option Nat)) (count other : Nat) :
    (table ++ List.replicate count none).getD other none = table.getD other none := by
  simp only [List.getD_eq_getElem?_getD, List.getElem?_append, List.getElem?_replicate]
  split_ifs with within extra
  · rfl
  · rw [List.getElem?_eq_none (not_lt.mp within)]
    rfl
  · rw [List.getElem?_eq_none (not_lt.mp within)]

/-- The table after one more instrument. -/
theorem registerInstrument_spec (fresh : ¬ (id > kMaxInstrumentId ∨ engine.knowsInstrument id = true)) :
    let after := (engine.registerInstrument id).1
    (∀ other, after.slotOfId.getD other none =
      if other = id then some engine.books.length else engine.slotOfId.getD other none) ∧
    after.books = engine.books ++ [MatchingBook.make after.bandTicks] ∧
    after.bandTicks ≤ engine.bandTicks ∧
    after.byId = insertById id engine.books.length engine.byId ∧
    after.orders = engine.orders ∧ after.restingOrders = engine.restingOrders ∧
    after.nextExchangeOrderId = engine.nextExchangeOrderId ∧
    after.nextEventSequence = engine.nextEventSequence := by
  unfold registerInstrument
  rw [if_neg fresh]
  refine ⟨fun other => ?_, rfl, min_le_left _ _, rfl, rfl, rfl, rfl, rfl⟩
  simp only
  split_ifs with short same same
  · subst same
    rw [List.getD_eq_getElem?_getD, List.getElem?_set_self (by simp; omega)]
    rfl
  · rw [List.getD_eq_getElem?_getD, List.getElem?_set_ne (Ne.symm same), ← List.getD_eq_getElem?_getD,
      getD_resize]
  · subst same
    rw [List.getD_eq_getElem?_getD, List.getElem?_set_self (not_le.mp short)]
    rfl
  · rw [List.getD_eq_getElem?_getD, List.getElem?_set_ne (Ne.symm same), ← List.getD_eq_getElem?_getD]

theorem insertById_perm (id : InstrumentId) (slot : Nat) (byId : List (InstrumentId × Nat)) :
    (insertById id slot byId).Perm ((id, slot) :: byId) := by
  unfold insertById
  refine List.perm_middle.trans ?_
  rw [List.takeWhile_append_dropWhile]

theorem insertById_ascending {byId : List (InstrumentId × Nat)} (ascending : (byId.map Prod.fst).Pairwise (· < ·))
    {id : InstrumentId} (fresh : id ∉ byId.map Prod.fst) (slot : Nat) :
    ((insertById id slot byId).map Prod.fst).Pairwise (· < ·) := by
  induction byId with
  | nil => simp [insertById]
  | cons entry rest ih =>
    rw [List.map_cons, List.pairwise_cons] at ascending
    rw [List.map_cons, List.mem_cons, not_or] at fresh
    unfold insertById
    by_cases smaller : entry.1 < id
    · have tail := ih ascending.2 fresh.2
      rw [List.takeWhile_cons_of_pos (by simpa using smaller), List.dropWhile_cons_of_pos (by simpa using smaller),
        List.cons_append, List.map_cons, List.pairwise_cons]
      refine ⟨fun other member => ?_, tail⟩
      have perm := (insertById_perm id slot rest).map Prod.fst
      rcases List.mem_cons.mp (perm.mem_iff.mp member) with rfl | old
      · exact smaller
      · exact ascending.1 other old
    · rw [List.takeWhile_cons_of_neg (by simpa using smaller), List.dropWhile_cons_of_neg (by simpa using smaller),
        List.nil_append, List.map_cons, List.pairwise_cons]
      have larger : id < entry.1 := lt_of_le_of_ne (not_lt.mp smaller) fresh.1
      refine ⟨fun other member => ?_, by rw [List.map_cons, List.pairwise_cons]; exact ascending⟩
      rcases List.mem_cons.mp member with rfl | old
      · exact larger
      · exact larger.trans (ascending.1 other old)

theorem Registry.registerInstrument (registry : engine.Registry) (id : InstrumentId) :
    (engine.registerInstrument id).1.Registry := by
  by_cases fresh : id > kMaxInstrumentId ∨ engine.knowsInstrument id = true
  · unfold MatchingEngine.registerInstrument
    rw [if_pos fresh]
    exact registry
  · obtain ⟨table, books, band, byId, _⟩ := registerInstrument_spec fresh
    have unknown : engine.slotOfId.getD id none = none := by
      have not := fun known => fresh (Or.inr known)
      simpa [knowsInstrument] using not
    have length : (engine.registerInstrument id).1.books.length = engine.books.length + 1 := by
      rw [books]
      simp
    have inside := registry.inside
    refine ⟨fun other slot found => ?_, fun first second slot one two => ?_, fun slot within => ?_,
      fun other slot => ?_, ?_, band.trans registry.band⟩
    · rw [table] at found
      rw [length]
      split_ifs at found with same
      · exact Option.some.inj found ▸ Nat.lt_succ_self _
      · exact Nat.lt_succ_of_lt (inside other slot found)
    · rw [table] at one two
      split_ifs at one two with same same'
      · exact same.trans same'.symm
      · exact absurd (inside second slot two) (by rw [← Option.some.inj one]; exact lt_irrefl _)
      · exact absurd (inside first slot one) (by rw [← Option.some.inj two]; exact lt_irrefl _)
      · exact registry.distinct first second slot one two
    · rw [length] at within
      rcases Nat.lt_succ_iff_lt_or_eq.mp within with old | rfl
      · obtain ⟨other, found⟩ := registry.covered slot old
        have different : other ≠ id := by
          rintro rfl
          rw [unknown] at found
          cases found
        exact ⟨other, by rw [table, if_neg different]; exact found⟩
      · exact ⟨id, by rw [table, if_pos rfl]⟩
    · rw [byId, (insertById_perm _ _ _).mem_iff, List.mem_cons, registry.listed, table]
      by_cases same : other = id
      · subst same
        rw [unknown, if_pos rfl]
        simp [eq_comm]
      · simp [same]
    · unfold instruments
      rw [byId]
      refine insertById_ascending registry.ascending (fun member => ?_) _
      exact fresh (Or.inr ((registry.mem_instruments id).mp member))

/-- Registering an instrument leaves every other book where it was. -/
theorem Registry.bookFor_registerInstrument (registry : engine.Registry)
    (fresh : ¬ (id > kMaxInstrumentId ∨ engine.knowsInstrument id = true)) (other : InstrumentId) :
    ((engine.registerInstrument id).1.knowsInstrument other = true ↔
      other = id ∨ engine.knowsInstrument other = true) ∧
    ((engine.registerInstrument id).1.bookFor id = MatchingBook.make (engine.registerInstrument id).1.bandTicks) ∧
    (engine.knowsInstrument other = true →
      (engine.registerInstrument id).1.bookFor other = engine.bookFor other) := by
  obtain ⟨table, books, _⟩ := registerInstrument_spec fresh
  refine ⟨?_, ?_, fun known => ?_⟩
  · unfold knowsInstrument
    rw [table]
    split_ifs with same <;> simp [same]
  · unfold bookFor slotFor
    rw [table, if_pos rfl, books]
    simp [List.getD_eq_getElem?_getD]
  · have different : other ≠ id := fun same => fresh (Or.inr (same ▸ known))
    have within := registry.slotFor_lt known
    unfold bookFor
    have slots : (engine.registerInstrument id).1.slotFor other = engine.slotFor other := by
      unfold slotFor
      rw [table, if_neg different]
    rw [slots, books, List.getD_eq_getElem?_getD, List.getElem?_append_left within, ← List.getD_eq_getElem?_getD]

theorem getD_replicate_none (size other : Nat) :
    (List.replicate size (none : Option Nat)).getD other none = none := by
  simp only [List.getD_eq_getElem?_getD, List.getElem?_replicate]
  split_ifs <;> rfl

/-- The table `make` starts from: the right size and nothing registered. -/
theorem sized_registry (size band : Nat) (fits : band ≤ 64 ^ 3) :
    ({ slotOfId := List.replicate size none, bandTicks := band } : MatchingEngine).Registry where
  inside id _ found := by
    rw [getD_replicate_none] at found
    cases found
  distinct id _ _ found := by
    rw [getD_replicate_none] at found
    cases found
  covered _ within := by simp at within
  listed id _ := by
    rw [getD_replicate_none]
    simp
  ascending := List.Pairwise.nil
  band := fits

end Register

end Mdh.Matching.MatchingEngine
