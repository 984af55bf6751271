import Mdh.Matching.BookQueues

/-! What each operation on a book does to its two lists. Every caller works from
these and never from the slab, the links or the price index. -/

namespace Mdh.Matching.MatchingBook
open Mdh.Core Mdh.Lib

section Entries
variable {book : MatchingBook} {slot : Nat}

theorem entry_modifyEntry (inside : slot < book.slab.length) (change : SlabOrder → SlabOrder) (other : Nat) :
    (book.modifyEntry slot change).entry other =
      if other = slot then change (book.entry other) else book.entry other := by
  unfold entry modifyEntry
  simp only [List.getD_eq_getElem?_getD, List.getElem?_modify]
  by_cases same : other = slot
  · subst same
    simp [List.getElem?_eq_getElem inside]
  · simp [same, Ne.symm same]

@[simp] theorem length_modifyEntry (book : MatchingBook) (slot : Nat) (change : SlabOrder → SlabOrder) :
    (book.modifyEntry slot change).slab.length = book.slab.length := by
  simp [modifyEntry]

@[simp] theorem sideOf_modifyEntry (book : MatchingBook) (slot : Nat) (change : SlabOrder → SlabOrder)
    (side : Side) : (book.modifyEntry slot change).sideOf side = book.sideOf side := by
  cases side <;> rfl

@[simp] theorem sideOf_setSide (book : MatchingBook) (side other : Side) (index : SideIndex) :
    (book.setSide side index).sideOf other = if other = side then index else book.sideOf other := by
  cases side <;> cases other <;> rfl

@[simp] theorem entry_setSide (book : MatchingBook) (side : Side) (index : SideIndex) (slot : Nat) :
    (book.setSide side index).entry slot = book.entry slot := by
  cases side <;> rfl

/-- Two books that differ in links alone. -/
structure Relinked (before after : MatchingBook) : Prop where
  orders : ∀ slot, (after.entry slot).order = (before.entry slot).order
  length : after.slab.length = before.slab.length
  bids : after.bids = before.bids
  asks : after.asks = before.asks
  liveCount : after.liveCount = before.liveCount
  slabCapacity : after.slabCapacity = before.slabCapacity
  freeHead : after.freeHead = before.freeHead

theorem Relinked.refl (book : MatchingBook) : Relinked book book :=
  ⟨fun _ => rfl, rfl, rfl, rfl, rfl, rfl, rfl⟩

theorem Relinked.trans {first second third : MatchingBook} (one : Relinked first second)
    (two : Relinked second third) : Relinked first third :=
  ⟨fun slot => (two.orders slot).trans (one.orders slot), two.length.trans one.length,
    two.bids.trans one.bids, two.asks.trans one.asks, two.liveCount.trans one.liveCount,
    two.slabCapacity.trans one.slabCapacity, two.freeHead.trans one.freeHead⟩

theorem Relinked.sideOf {before after : MatchingBook} (same : Relinked before after) (side : Side) :
    after.sideOf side = before.sideOf side := by
  cases side
  · exact same.bids
  · exact same.asks

theorem modifyEntry_relinked (inside : slot < book.slab.length) (change : SlabOrder → SlabOrder)
    (keeps : ∀ entry, (change entry).order = entry.order) : Relinked book (book.modifyEntry slot change) where
  orders other := by
    rw [entry_modifyEntry inside]
    split_ifs
    · exact keeps _
    · rfl
  length := length_modifyEntry ..
  bids := rfl
  asks := rfl
  liveCount := rfl
  slabCapacity := rfl
  freeHead := rfl

theorem linkBack_spec (inside : slot < book.slab.length) (level : LevelSlot)
    (linked : ∀ tail ∈ level.tail, tail < book.slab.length ∧ tail ≠ slot) :
    Relinked book (book.linkBack level slot).1 ∧
      (book.linkBack level slot).1.links = book.links.pushBack level.tail slot ∧
      (book.linkBack level slot).2 =
        { head := if level.tail = none then some slot else level.head, tail := some slot } := by
  have first := modifyEntry_relinked inside
    (fun entry => { entry with next := none, prev := level.tail }) fun _ => rfl
  unfold linkBack
  cases end' : level.tail with
  | none =>
    rw [end'] at first
    refine ⟨first, ?_, rfl⟩
    ext1 <;> funext other <;> simp only [links, Links.pushBack, entry_modifyEntry inside] <;> split_ifs <;> simp_all
  | some tail =>
    obtain ⟨tailInside, different⟩ := linked tail (by simp [end'])
    rw [end'] at first
    have stillInside : tail < (book.modifyEntry slot fun entry =>
        { entry with next := none, prev := some tail }).slab.length := by simpa using tailInside
    have second := modifyEntry_relinked stillInside (fun entry => { entry with next := some slot }) fun _ => rfl
    refine ⟨first.trans second, ?_, by simp⟩
    have entries : ∀ other, ((book.modifyEntry slot fun entry =>
        { entry with next := none, prev := some tail }).modifyEntry tail fun entry =>
        { entry with next := some slot }).entry other = _ := entry_modifyEntry stillInside _
    ext1 <;> funext other <;> simp only [links, Links.pushBack, entries, entry_modifyEntry inside] <;>
      split_ifs <;> simp_all

theorem unlink_spec (level : LevelSlot)
    (nextInside : ∀ next ∈ (book.entry slot).next, next < book.slab.length)
    (prevInside : ∀ prev ∈ (book.entry slot).prev, prev < book.slab.length) :
    Relinked book (book.unlink level slot).1 ∧
      (book.unlink level slot).1.links = book.links.detach slot ∧
      (book.unlink level slot).2 =
        { head := if (book.entry slot).prev = none then (book.entry slot).next else level.head,
          tail := if (book.entry slot).next = none then (book.entry slot).prev else level.tail } := by
  unfold unlink
  cases prev : (book.entry slot).prev with
  | none =>
    cases next : (book.entry slot).next with
    | none =>
      refine ⟨Relinked.refl book, ?_, by simp⟩
      ext1 <;> funext other <;> simp [links, Links.detach, prev, next]
    | some next' =>
      have inside := nextInside next' (by simp [next])
      refine ⟨modifyEntry_relinked inside _ fun _ => rfl, ?_, by simp⟩
      ext1 <;> funext other <;> simp only [links, Links.detach, prev, next, entry_modifyEntry inside] <;>
        split_ifs <;> simp_all
  | some prev' =>
    have prevIn := prevInside prev' (by simp [prev])
    have first := modifyEntry_relinked prevIn (fun entry => { entry with next := (book.entry slot).next }) fun _ => rfl
    cases next : (book.entry slot).next with
    | none =>
      rw [next] at first
      refine ⟨first, ?_, by simp⟩
      ext1 <;> funext other <;> simp only [links, Links.detach, prev, next, entry_modifyEntry prevIn] <;>
        split_ifs <;> simp_all
    | some next' =>
      have nextIn := nextInside next' (by simp [next])
      rw [next] at first
      have stillIn : next' < (book.modifyEntry prev' fun entry => { entry with next := some next' }).slab.length := by
        simpa using nextIn
      have second := modifyEntry_relinked stillIn (fun entry => { entry with prev := some prev' }) fun _ => rfl
      refine ⟨first.trans second, ?_, by simp⟩
      have entries : ∀ other, ((book.modifyEntry prev' fun entry =>
          { entry with next := some next' }).modifyEntry next' fun entry =>
          { entry with prev := some prev' }).entry other = _ := entry_modifyEntry stillIn _
      ext1 <;> funext other <;> simp only [links, Links.detach, prev, next, entries, entry_modifyEntry prevIn] <;>
        split_ifs <;> simp_all

end Entries

section Add
variable {book : MatchingBook} {queues : Queues} {free : List Nat}

/-- A slot taken for `order` that no queue and no free cell uses. -/
structure Acquired (queues : Queues) (order : BookOrder) (before after : MatchingBook) (slot : Nat)
    (free : List Nat) : Prop where
  sideOf : ∀ side, after.sideOf side = before.sideOf side
  liveCount : after.liveCount = before.liveCount
  slabCapacity : after.slabCapacity = after.slab.length
  others : ∀ other, other ≠ slot → after.entry other = before.entry other
  order : (after.entry slot).order = order
  stack : after.links.Stack free
  freeHead : after.freeHead = free.head?
  slots : (slot :: (free ++ (queues.slots .buy ++ queues.slots .sell))).Perm (List.range after.slab.length)

theorem Acquired.inside {order : BookOrder} {before after : MatchingBook} {slot : Nat}
    (acquired : Acquired queues order before after slot free) : slot < after.slab.length :=
  List.mem_range.mp (acquired.slots.mem_iff.mp List.mem_cons_self)

theorem Acquired.fresh {order : BookOrder} {before after : MatchingBook} {slot : Nat}
    (acquired : Acquired queues order before after slot free) (side : Side) : slot ∉ queues.slots side := by
  have nodup := (acquired.slots.nodup_iff.mpr List.nodup_range)
  intro member
  refine (List.nodup_cons.mp nodup).1 (List.mem_append_right _ ?_)
  cases side
  · exact List.mem_append_left _ member
  · exact List.mem_append_right _ member

theorem Acquired.not_free {order : BookOrder} {before after : MatchingBook} {slot : Nat}
    (acquired : Acquired queues order before after slot free) : slot ∉ free := fun member =>
  (List.nodup_cons.mp (acquired.slots.nodup_iff.mpr List.nodup_range)).1 (List.mem_append_left _ member)

/-- The slot taken is the one freed last, or a new one at the end of the slab. -/
theorem Holds.acquireSlot_slot (holds : book.Holds queues free) (order : BookOrder) :
    (book.acquireSlot order).2 = free.head?.getD book.slab.length := by
  unfold MatchingBook.acquireSlot
  cases free with
  | cons slot rest =>
    have head : book.freeHead = some slot := holds.freeHead
    simp only [head, List.head?_cons, Option.getD_some]
  | nil =>
    have head : book.freeHead = none := holds.freeHead
    simp [head]

theorem Holds.acquireSlot_tail (holds : book.Holds queues free) (order : BookOrder) :
    Acquired queues order book (book.acquireSlot order).1 (book.acquireSlot order).2 free.tail := by
  unfold MatchingBook.acquireSlot
  cases free with
  | cons slot rest =>
    have head : book.freeHead = some slot := holds.freeHead
    have inside : slot < book.slab.length := holds.free_lt List.mem_cons_self
    obtain ⟨next, stack⟩ := holds.stack
    have unchanged : ∀ other, other ≠ slot →
        (({ book with freeHead := (book.entry slot).next } : MatchingBook).modifyEntry slot
          fun entry => { entry with order }).entry other = book.entry other := fun other different => by
      rw [entry_modifyEntry (by exact inside), if_neg different]
      rfl
    have slotFresh : slot ∉ rest :=
      (List.nodup_cons.mp (List.nodup_append.mp holds.nodup).1).1
    simp only [head, List.tail_cons]
    refine ⟨fun side => by cases side <;> rfl, rfl, ?_, unchanged, ?_, ?_, next, ?_⟩
    · simpa [modifyEntry] using holds.slabCapacity
    · rw [entry_modifyEntry (by exact inside), if_pos rfl]
    · refine stack.frame fun cell member => ?_
      have different : cell ≠ slot := fun same => slotFresh (same ▸ member)
      simp only [links, unchanged cell different]
    · simpa [modifyEntry] using holds.slots
  | nil =>
    have head : book.freeHead = none := holds.freeHead
    simp only [head, List.tail_nil]
    refine ⟨fun side => by cases side <;> rfl, rfl, rfl, fun other different => ?_, ?_, trivial, rfl, ?_⟩
    · simp only [List.length_append, List.length_cons, List.length_nil, Nat.zero_add, Nat.add_sub_cancel] at different
      simp only [entry, List.getD_eq_getElem?_getD, List.getElem?_append]
      split_ifs with within
      · rfl
      · rw [List.getElem?_eq_none (by simp only [List.length_cons, List.length_nil]; omega),
          List.getElem?_eq_none (by omega)]
    · simp [entry, List.getD_eq_getElem?_getD]
    · have slots := holds.slots
      simp only [List.length_append, List.length_cons, List.length_nil, List.range_succ, Nat.zero_add,
        Nat.add_sub_cancel]
      exact (slots.cons _).trans (List.perm_append_singleton _ _).symm

theorem level_enqueue (ordered : ∀ side : Side, PriorityList.Ordered side.Before Placed.price (queues side))
    (slot : Nat) (order : BookOrder) (side : Side) (price : Int) :
    (queues.enqueue slot order).level side price =
      queues.level side price ++ if side = order.side ∧ price = order.price then [⟨slot, order⟩] else [] := by
  unfold Queues.level Queues.enqueue
  by_cases here : side = order.side
  · subst here
    rw [if_pos rfl, PriorityList.filter_enqueue (ordered _)]
    simp only [Placed.price, true_and, eq_comm (a := price)]
    rfl
  · simp [here]

theorem levelSlots_enqueue (ordered : ∀ side : Side, PriorityList.Ordered side.Before Placed.price (queues side))
    (slot : Nat) (order : BookOrder) (side : Side) (price : Int) :
    (queues.enqueue slot order).levelSlots side price =
      queues.levelSlots side price ++ if side = order.side ∧ price = order.price then [slot] else [] := by
  unfold Queues.levelSlots
  rw [level_enqueue ordered, List.map_append]
  split_ifs <;> rfl

theorem slots_enqueue (queues : Queues) (slot : Nat) (order : BookOrder) (side : Side) :
    ((queues.enqueue slot order).slots side).Perm
      ((if side = order.side then [slot] else []) ++ queues.slots side) := by
  unfold Queues.slots Queues.enqueue
  split_ifs
  · exact (PriorityList.enqueue_perm side.Before Placed.price ⟨slot, order⟩ (queues side)).map Placed.slot
  · exact List.Perm.refl _

theorem length_enqueue (queues : Queues) (slot : Nat) (order : BookOrder) (side : Side) :
    (queues.enqueue slot order side).length = (if side = order.side then 1 else 0) + (queues side).length := by
  have perm := (slots_enqueue queues slot order side).length_eq
  simp only [Queues.slots, List.length_append, List.length_map] at perm
  rw [perm]
  split_ifs <;> rfl

theorem mem_enqueue (slot : Nat) (order : BookOrder) (side : Side) (placed : Placed) :
    placed ∈ queues.enqueue slot order side ↔
      side = order.side ∧ placed = ⟨slot, order⟩ ∨ placed ∈ queues side := by
  unfold Queues.enqueue
  split_ifs with here <;> simp [here]

theorem levelOf_append (slots : List Nat) (slot : Nat) :
    levelOf (slots ++ [slot]) =
      some { head := if slots.getLast? = none then some slot else slots.head?, tail := some slot } := by
  cases slots with
  | nil => rfl
  | cons first rest => simp [levelOf, List.getLast?_cons]

/-- The level an arrival joins, and what it says about its queue. -/
theorem Holds.levelFor (holds : book.Holds queues free) (side : Side) (price : Int) :
    ((book.sideOf side).levelFor price).1.WellFormed ∧
      ((book.sideOf side).levelFor price).1.side = side ∧
      ((book.sideOf side).levelFor price).1.findLevel price = some ((book.sideOf side).levelFor price).2 ∧
      ((book.sideOf side).levelFor price).1.read ((book.sideOf side).levelFor price).2 =
        { head := (queues.levelSlots side price).head?, tail := (queues.levelSlots side price).getLast? } ∧
      ∀ other, other ≠ price →
        ((book.sideOf side).levelFor price).1.level? other = levelOf (queues.levelSlots side other) := by
  obtain ⟨wf, sameSide, found, levels⟩ := SideIndex.levelFor_spec (holds.index side) price
  refine ⟨wf, sameSide.trans (holds.side side), found, ?_, fun other different => ?_⟩
  · have here := levels price
    rw [if_pos rfl, holds.levels side price, levelOf_getD, SideIndex.level?, found] at here
    exact Option.some.inj here
  · rw [levels other, if_neg different, holds.levels side other]

theorem Acquired.fresh_level {order : BookOrder} {mid : MatchingBook} {slot : Nat}
    (acquired : Acquired queues order book mid slot free) (side : Side) (price : Int) :
    slot ∉ queues.levelSlots side price := fun member => by
  obtain ⟨placed, there, _, same⟩ := (Holds.mem_levelSlots ..).mp member
  exact acquired.fresh side (List.mem_map.mpr ⟨placed, there, same⟩)

theorem Acquired.level_inside {order : BookOrder} {mid : MatchingBook} {slot : Nat}
    (acquired : Acquired queues order book mid slot free) {side : Side} {price : Int} {other : Nat}
    (member : other ∈ queues.levelSlots side price) : other < mid.slab.length := by
  obtain ⟨placed, there, _, same⟩ := (Holds.mem_levelSlots ..).mp member
  have inSide : other ∈ queues.slots side := List.mem_map.mpr ⟨placed, there, same⟩
  refine List.mem_range.mp (acquired.slots.mem_iff.mp (List.mem_cons_of_mem _ (List.mem_append_right _ ?_)))
  cases side
  · exact List.mem_append_left _ inSide
  · exact List.mem_append_right _ inSide

theorem Acquired.chain {order : BookOrder} {mid : MatchingBook} {slot : Nat}
    (acquired : Acquired queues order book mid slot free) {old : List Nat} (holds : book.Holds queues old)
    (side : Side) (price : Int) : mid.links.Chain none (queues.levelSlots side price) := by
  refine (holds.chains side price).frame fun cell member => ?_
  have different : cell ≠ slot := fun same => acquired.fresh_level side price (same ▸ member)
  simp only [links, acquired.others cell different, and_self]

/-- Linking the acquired slot behind its level leaves every queue chained. -/
theorem Acquired.chains_pushBack {order : BookOrder} {mid : MatchingBook} {slot : Nat}
    (acquired : Acquired queues order book mid slot free) {old : List Nat} (holds : book.Holds queues old)
    (side : Side) (price : Int) :
    (mid.links.pushBack (queues.levelSlots order.side order.price).getLast? slot).Chain none
      ((queues.enqueue slot order).levelSlots side price) := by
  rw [levelSlots_enqueue holds.ordered]
  have chain := acquired.chain holds side price
  split_ifs with here
  · obtain ⟨rfl, rfl⟩ := here
    have joined := chain.pushBack (acquired.fresh_level _ _) (holds.levelSlots_nodup _ _)
    rwa [Option.or_none] at joined
  · rw [List.append_nil]
    refine chain.frame fun cell member => ?_
    have notSlot : cell ≠ slot := fun same => acquired.fresh_level side price (same ▸ member)
    have notTail : (queues.levelSlots order.side order.price).getLast? ≠ some cell := fun last => by
      obtain ⟨sides, prices⟩ := holds.levelSlots_disjoint member (List.mem_of_getLast? last)
      exact here ⟨sides, prices⟩
    simp [Links.pushBack, notSlot, notTail]

theorem Acquired.stack_pushBack {order : BookOrder} {mid : MatchingBook} {slot : Nat}
    (acquired : Acquired queues order book mid slot free) :
    (mid.links.pushBack (queues.levelSlots order.side order.price).getLast? slot).Stack free := by
  refine acquired.stack.frame fun cell member => ?_
  have nodup := (List.nodup_cons.mp (acquired.slots.nodup_iff.mpr List.nodup_range)).2
  have notSlot : cell ≠ slot := fun same => acquired.not_free (same ▸ member)
  have notTail : (queues.levelSlots order.side order.price).getLast? ≠ some cell := fun last => by
    obtain ⟨placed, there, _, same⟩ := (Holds.mem_levelSlots ..).mp (List.mem_of_getLast? last)
    have inSide : cell ∈ queues.slots order.side := List.mem_map.mpr ⟨placed, there, same⟩
    refine (List.nodup_append.mp nodup).2.2 cell member cell ?_ rfl
    revert inSide
    cases order.side
    · exact List.mem_append_left _
    · exact List.mem_append_right _
  simp [Links.pushBack, notSlot, notTail]

/-- The last step of `add`. -/
def counted (book : MatchingBook) : MatchingBook := { book with liveCount := book.liveCount + 1 }

/-- The book once the acquired slot is linked and its level written back. -/
theorem Acquired.holds {order : BookOrder} {mid after : MatchingBook} {slot : Nat} {index : SideIndex}
    (acquired : Acquired queues order book mid slot free) {old : List Nat} (holds : book.Holds queues old)
    (relinked : Relinked mid after)
    (linked : after.links = mid.links.pushBack (queues.levelSlots order.side order.price).getLast? slot)
    (indexWf : index.WellFormed) (indexSide : index.side = order.side)
    (levels : ∀ price, index.level? price = levelOf ((queues.enqueue slot order).levelSlots order.side price)) :
    (counted (after.setSide order.side index)).Holds
      (queues.enqueue slot order) free := by
  have sides : ∀ side, (counted (after.setSide order.side index)).sideOf side =
      if side = order.side then index else book.sideOf side := by
    intro side
    rw [← acquired.sideOf side, ← relinked.sideOf side, ← sideOf_setSide]
    cases side <;> rfl
  have entries : ∀ other,
      (counted (after.setSide order.side index)).entry other =
        after.entry other := entry_setSide after order.side index
  have slab : (counted (after.setSide order.side index)).slab =
      after.slab := by cases order.side <;> rfl
  have links : (counted (after.setSide order.side index)).links =
      mid.links.pushBack (queues.levelSlots order.side order.price).getLast? slot := by
    rw [← linked]
    simp only [MatchingBook.links, entries]
  refine ⟨fun side => ?_, fun side => ?_, fun side placed member => ?_, fun side placed member => ?_,
    fun side => ?_, fun side price => ?_, fun side price => ?_, ?_, ?_, ?_, ?_, ?_⟩
  · rw [sides]
    split_ifs with here
    · rw [indexSide, here]
    · exact holds.side side
  · rw [sides]
    split_ifs
    · exact indexWf
    · exact holds.index side
  · rw [entries, relinked.orders]
    rcases (mem_enqueue ..).mp member with ⟨_, rfl⟩ | member
    · exact acquired.order
    · have different : placed.slot ≠ slot := fun same =>
        acquired.fresh side (same ▸ List.mem_map_of_mem member)
      rw [acquired.others _ different]
      exact holds.stored side placed member
  · rcases (mem_enqueue ..).mp member with ⟨here, rfl⟩ | member
    · exact here.symm
    · exact holds.ownSide side placed member
  · unfold Queues.enqueue
    split_ifs
    · exact (holds.ordered side).enqueue _
    · exact holds.ordered side
  · rw [sides]
    split_ifs with here
    · rw [here]
      exact levels price
    · rw [holds.levels side price, levelSlots_enqueue holds.ordered]
      simp [here]
  · rw [links]
    exact acquired.chains_pushBack holds side price
  · rw [slab, relinked.length]
    refine List.Perm.trans ?_ acquired.slots
    have buys := slots_enqueue queues slot order .buy
    have sells := slots_enqueue queues slot order .sell
    refine ((buys.append sells).append_left free).trans ?_
    cases order.side <;> simp only [reduceCtorEq, if_true, if_false, List.nil_append, List.cons_append]
    · exact List.perm_middle
    · exact (List.perm_middle.append_left free).trans List.perm_middle
  · rw [links]
    exact acquired.stack_pushBack
  · refine Eq.trans ?_ (relinked.freeHead.trans acquired.freeHead)
    cases order.side <;> rfl
  · have count : (counted (after.setSide order.side index)).liveCount = after.liveCount + 1 := by
      cases order.side <;> rfl
    rw [count, relinked.liveCount, acquired.liveCount, holds.liveCount]
    simp only [length_enqueue]
    cases order.side <;> simp only [reduceCtorEq, if_true, if_false] <;> omega
  · rw [slab, relinked.length, ← acquired.slabCapacity, ← relinked.slabCapacity]
    cases order.side <;> rfl

/-- Adding an order puts it in its place on its own side, in the slot that was freed last. -/
theorem Holds.add_tail (holds : book.Holds queues free) (order : BookOrder) :
    (book.add order).1.Holds (queues.enqueue (book.add order).2.slot order) free.tail ∧
      (book.add order).2.slot = free.head?.getD book.slab.length := by
  have acquired := holds.acquireSlot_tail order
  obtain ⟨levelWf, levelSide, found, contents, levels⟩ := holds.levelFor order.side order.price
  refine ⟨?_, holds.acquireSlot_slot order⟩
  rw [← acquired.sideOf] at levelWf levelSide found contents levels
  let made := ((book.acquireSlot order).1.sideOf order.side).levelFor order.price
  have linkable : ∀ tail ∈ (made.1.read made.2).tail,
      tail < (book.acquireSlot order).1.slab.length ∧ tail ≠ (book.acquireSlot order).2 := by
    rw [contents]
    exact fun tail last => ⟨acquired.level_inside (List.mem_of_getLast? last),
      fun same => acquired.fresh_level _ _ (same ▸ List.mem_of_getLast? last)⟩
  obtain ⟨relinked, linked, level⟩ := linkBack_spec acquired.inside (made.1.read made.2) linkable
  let joined := (book.acquireSlot order).1.linkBack (made.1.read made.2) (book.acquireSlot order).2
  obtain ⟨wf, _, written⟩ := SideIndex.write_spec levelWf found joined.2
  have side : (made.1.write made.2 joined.2).side = order.side := (SideIndex.write_side ..).trans levelSide
  have levels' : ∀ price, (made.1.write made.2 joined.2).level? price =
      levelOf ((queues.enqueue (book.acquireSlot order).2 order).levelSlots order.side price) := by
    intro price
    rw [written price, levelSlots_enqueue holds.ordered, level, contents]
    by_cases here : price = order.price
    · subst here
      rw [if_pos rfl, if_pos (And.intro rfl rfl), levelOf_append]
    · rw [if_neg here, if_neg fun both => here both.2, List.append_nil, levels price here]
  have final := acquired.holds holds relinked (by rw [linked, contents]) wf side levels'
  exact final

/-- Adding an order puts it in its place on its own side and nowhere else. -/
theorem Holds.add (holds : book.Holds queues free) (order : BookOrder) :
    (∃ free, (book.add order).1.Holds (queues.enqueue (book.add order).2.slot order) free) ∧
      ∀ side, (book.add order).2.slot ∉ queues.slots side :=
  ⟨⟨free.tail, (holds.add_tail order).1⟩, (holds.acquireSlot_tail order).fresh⟩

end Add

section Remove
variable {book : MatchingBook} {queues : Queues} {free : List Nat}

theorem level_remove (queues : Queues) (slot : Nat) (side : Side) (price : Int) :
    (queues.remove slot).level side price = (queues.level side price).filter fun placed => placed.slot ≠ slot := by
  unfold Queues.level Queues.remove
  rw [List.filter_filter, List.filter_filter]
  exact List.filter_congr fun placed _ => Bool.and_comm _ _

theorem levelSlots_remove (queues : Queues) (slot : Nat) (side : Side) (price : Int) :
    (queues.remove slot).levelSlots side price = (queues.levelSlots side price).filter (· ≠ slot) := by
  unfold Queues.levelSlots
  rw [level_remove, List.filter_map]
  rfl

theorem slots_remove (queues : Queues) (slot : Nat) (side : Side) :
    (queues.remove slot).slots side = (queues.slots side).filter (· ≠ slot) := by
  unfold Queues.slots Queues.remove
  rw [List.filter_map]
  rfl

theorem filter_ne_of_nodup {front back : List Nat} {slot : Nat} (nodup : (front ++ slot :: back).Nodup) :
    (front ++ slot :: back).filter (· ≠ slot) = front ++ back := by
  obtain ⟨_, nodupBack, disjoint⟩ := List.nodup_append.mp nodup
  have inFront : front.filter (· ≠ slot) = front := List.filter_eq_self.mpr fun other member => by
    simpa using disjoint other member slot List.mem_cons_self
  have inBack : back.filter (· ≠ slot) = back := List.filter_eq_self.mpr fun other member => by
    simpa using fun same : other = slot => (List.nodup_cons.mp nodupBack).1 (same ▸ member)
  rw [List.filter_append, List.filter_cons, inFront, inBack]
  simp

/-- The neighbours of a queued slot are in the same queue. -/
theorem Holds.neighbours (holds : book.Holds queues free) {side : Side} {price : Int} {slot : Nat}
    (member : slot ∈ queues.levelSlots side price) :
    (∀ next, (book.entry slot).next = some next → next ∈ queues.levelSlots side price) ∧
      ∀ prev, (book.entry slot).prev = some prev → prev ∈ queues.levelSlots side price :=
  ⟨fun _ => (holds.chains side price).next_of_mem member, fun _ => (holds.chains side price).prev_of_mem member⟩

theorem Holds.mem_slots_of_level {side : Side} {price : Int} {slot : Nat}
    (member : slot ∈ queues.levelSlots side price) : slot ∈ queues.slots side := by
  obtain ⟨placed, there, _, same⟩ := (mem_levelSlots ..).mp member
  exact List.mem_map.mpr ⟨placed, there, same⟩

theorem Holds.level_lt (holds : book.Holds queues free) {side : Side} {price : Int} {slot : Nat}
    (member : slot ∈ queues.levelSlots side price) : slot < book.slab.length :=
  (holds.mem_slots slot).mpr (Or.inr ⟨side, mem_slots_of_level member⟩)

theorem Holds.level_not_free (holds : book.Holds queues free) {side : Side} {price : Int} {slot : Nat}
    (member : slot ∈ queues.levelSlots side price) : slot ∉ free := by
  obtain ⟨placed, there, _, rfl⟩ := (mem_levelSlots ..).mp member
  exact holds.not_free there

/-- Detaching a slot from its queue leaves every queue chained. -/
theorem Holds.chains_detach (holds : book.Holds queues free) {own : Side} {level : Int} {slot : Nat}
    (member : slot ∈ queues.levelSlots own level) (side : Side) (price : Int) :
    (book.links.detach slot).Chain none ((queues.remove slot).levelSlots side price) := by
  rw [levelSlots_remove]
  have chain := holds.chains side price
  by_cases here : slot ∈ queues.levelSlots side price
  · have nodup := holds.levelSlots_nodup side price
    obtain ⟨front, back, split⟩ := List.append_of_mem here
    rw [split] at chain nodup ⊢
    rw [filter_ne_of_nodup nodup]
    exact chain.detach nodup (by simp)
  · have kept : (queues.levelSlots side price).filter (· ≠ slot) = queues.levelSlots side price :=
      List.filter_eq_self.mpr fun other there => by
        simpa using fun same : other = slot => here (same ▸ there)
    rw [kept]
    obtain ⟨nexts, prevs⟩ := holds.neighbours member
    have elsewhere : ∀ cell ∈ queues.levelSlots side price, cell ∉ queues.levelSlots own level :=
      fun cell one two => by
        obtain ⟨sides, prices⟩ := holds.levelSlots_disjoint one two
        exact here (sides ▸ prices ▸ member)
    refine chain.frame fun cell there => ?_
    have notNext : (book.entry slot).next ≠ some cell := fun same => elsewhere cell there (nexts cell same)
    have notPrev : (book.entry slot).prev ≠ some cell := fun same => elsewhere cell there (prevs cell same)
    simp [Links.detach, links, notNext, notPrev]

theorem Holds.stack_detach (holds : book.Holds queues free) {own : Side} {level : Int} {slot : Nat}
    (member : slot ∈ queues.levelSlots own level) : (book.links.detach slot).Stack free := by
  obtain ⟨_, prevs⟩ := holds.neighbours member
  refine holds.stack.frame fun cell isFree => ?_
  have notPrev : (book.entry slot).prev ≠ some cell := fun same =>
    holds.level_not_free (prevs cell same) isFree
  simp [Links.detach, links, notPrev]

theorem Holds.remove_perm (holds : book.Holds queues free) {side : Side} {placed : Placed}
    (member : placed ∈ queues side) :
    (placed.slot :: ((queues.remove placed.slot).slots .buy ++ (queues.remove placed.slot).slots .sell)).Perm
      (queues.slots .buy ++ queues.slots .sell) := by
  have there : placed.slot ∈ queues.slots .buy ++ queues.slots .sell := by
    have inSide : placed.slot ∈ queues.slots side := List.mem_map_of_mem member
    cases side
    · exact List.mem_append_left _ inSide
    · exact List.mem_append_right _ inSide
  have nodup := (List.nodup_append.mp holds.nodup).2.1
  have erased : (queues.slots .buy ++ queues.slots .sell).erase placed.slot =
      (queues.slots .buy ++ queues.slots .sell).filter (· ≠ placed.slot) := by
    rw [nodup.erase_eq_filter]
    exact List.filter_congr fun other _ => Bool.eq_iff_iff.mpr (by simp)
  rw [slots_remove, slots_remove, ← List.filter_append, ← erased]
  exact (List.perm_cons_erase there).symm

/-- The last step of a removal. -/
def discounted (book : MatchingBook) : MatchingBook := { book with liveCount := book.liveCount - 1 }

theorem links_releaseSlot {slot : Nat} (inside : slot < book.slab.length) :
    (book.releaseSlot slot).links =
      { book.links with next := fun other => if other = slot then book.freeHead else book.links.next other } := by
  have entries : ∀ other, (book.releaseSlot slot).entry other =
      (book.modifyEntry slot fun entry => { entry with next := book.freeHead }).entry other := fun _ => rfl
  ext1 <;> funext other <;> simp only [links, entries, entry_modifyEntry inside] <;> split_ifs <;> rfl

theorem releaseSlot_order {slot : Nat} (inside : slot < book.slab.length) (other : Nat) :
    ((book.releaseSlot slot).entry other).order = (book.entry other).order := by
  have entries : (book.releaseSlot slot).entry other =
      (book.modifyEntry slot fun entry => { entry with next := book.freeHead }).entry other := rfl
  rw [entries, entry_modifyEntry inside]
  split_ifs <;> rfl

/-- The book once a slot is unlinked, its level written back and the slot freed. -/
theorem Holds.detached (holds : book.Holds queues free) {after : MatchingBook} {index : SideIndex} {side : Side}
    {placed : Placed} (member : placed ∈ queues side) (relinked : Relinked book after)
    (linked : after.links = book.links.detach placed.slot) (indexWf : index.WellFormed) (indexSide : index.side = side)
    (levels : ∀ price, index.level? price = levelOf ((queues.remove placed.slot).levelSlots side price)) :
    (discounted ((after.setSide side index).releaseSlot placed.slot)).Holds (queues.remove placed.slot)
      (placed.slot :: free) := by
  have inSlots := (mem_levelSlots queues side placed.price placed.slot).mpr ⟨placed, member, rfl, rfl⟩
  have slotLt : placed.slot < (after.setSide side index).slab.length := by
    have same : (after.setSide side index).slab = after.slab := by cases side <;> rfl
    rw [same, relinked.length]
    exact holds.slot_lt member
  have head : (after.setSide side index).freeHead = free.head? := by
    rw [← holds.freeHead, ← relinked.freeHead]
    cases side <;> rfl
  have sides : ∀ other, (discounted ((after.setSide side index).releaseSlot placed.slot)).sideOf other =
      if other = side then index else book.sideOf other := by
    intro other
    rw [← relinked.sideOf other, ← sideOf_setSide]
    cases other <;> rfl
  have orders : ∀ slot, ((discounted ((after.setSide side index).releaseSlot placed.slot)).entry slot).order =
      (book.entry slot).order := by
    intro slot
    rw [← relinked.orders slot, ← entry_setSide after side index slot]
    exact releaseSlot_order slotLt slot
  have links : (discounted ((after.setSide side index).releaseSlot placed.slot)).links =
      { book.links.detach placed.slot with
        next := fun other => if other = placed.slot then free.head? else (book.links.detach placed.slot).next other } := by
    have unchanged : (after.setSide side index).links = book.links.detach placed.slot := by
      rw [← linked]
      simp only [MatchingBook.links, entry_setSide]
    rw [← unchanged, ← head]
    exact links_releaseSlot slotLt
  have length : (discounted ((after.setSide side index).releaseSlot placed.slot)).slab.length = book.slab.length := by
    rw [← relinked.length]
    cases side <;> simp [discounted, releaseSlot, setSide, modifyEntry]
  have kept : ∀ other, ∀ entry ∈ queues.remove placed.slot other, entry ∈ queues other :=
    fun other entry there => List.mem_of_mem_filter there
  refine ⟨fun other => ?_, fun other => ?_, fun other entry there => ?_, fun other entry there => ?_,
    fun other => ?_, fun other price => ?_, fun other price => ?_, ?_, ?_, rfl, ?_, ?_⟩
  · rw [sides]
    split_ifs with here
    · rw [indexSide, here]
    · exact holds.side other
  · rw [sides]
    split_ifs
    · exact indexWf
    · exact holds.index other
  · rw [orders]
    exact holds.stored other entry (kept other entry there)
  · exact holds.ownSide other entry (kept other entry there)
  · exact (holds.ordered other).sublist List.filter_sublist
  · rw [sides]
    split_ifs with here
    · rw [here]
      exact levels price
    · have notHere : placed.slot ∉ queues.levelSlots other price := fun there =>
        here (holds.levelSlots_disjoint there inSlots).1
      rw [holds.levels other price, levelSlots_remove, List.filter_eq_self.mpr]
      intro slot there
      simpa using fun same : slot = placed.slot => notHere (same ▸ there)
  · rw [links]
    refine (holds.chains_detach inSlots other price).frame fun cell there => ?_
    rw [levelSlots_remove] at there
    have different : cell ≠ placed.slot := by simpa using (List.mem_filter.mp there).2
    simp [different]
  · rw [length]
    refine List.Perm.trans ?_ holds.slots
    exact List.perm_middle.symm.trans ((holds.remove_perm member).append_left free)
  · rw [links]
    refine ⟨by simp, ?_⟩
    refine (holds.stack_detach inSlots).frame fun cell isFree => ?_
    have different : cell ≠ placed.slot := fun same => holds.not_free member (same ▸ isFree)
    simp [different]
  · have count : (discounted ((after.setSide side index).releaseSlot placed.slot)).liveCount = after.liveCount - 1 := by
      cases side <;> rfl
    have total := (holds.remove_perm member).length_eq
    simp only [Queues.slots, List.length_cons, List.length_append, List.length_map] at total
    rw [count, relinked.liveCount, holds.liveCount]
    omega
  · rw [length, ← holds.slabCapacity, ← relinked.slabCapacity]
    cases side <;> rfl

/-- The index with a shortened level written back, and erased once nothing is left on it. -/
def closeLevel (index : SideIndex) (ref : LevelRef) (price : Int) (level : LevelSlot) : SideIndex :=
  if level.head = none then (index.write ref level).eraseLevel price else index.write ref level

theorem closeLevel_spec {index : SideIndex} {price : Int} {ref : LevelRef} (wf : index.WellFormed)
    (found : index.findLevel price = some ref) (slots : List Nat) :
    (closeLevel index ref price { head := slots.head?, tail := slots.getLast? }).WellFormed ∧
      (closeLevel index ref price { head := slots.head?, tail := slots.getLast? }).side = index.side ∧
      ∀ other, (closeLevel index ref price { head := slots.head?, tail := slots.getLast? }).level? other =
        if other = price then levelOf slots else index.level? other := by
  obtain ⟨wf', _, written⟩ := SideIndex.write_spec wf found { head := slots.head?, tail := slots.getLast? }
  unfold closeLevel
  cases slots with
  | nil =>
    obtain ⟨erasedWf, erased⟩ := SideIndex.eraseLevel_spec wf' price
    refine ⟨erasedWf, (SideIndex.eraseLevel_side ..).trans (SideIndex.write_side ..), fun other => ?_⟩
    refine (erased other).trans ?_
    split_ifs with same
    · rfl
    · rw [written other, if_neg same]
  | cons slot rest => exact ⟨wf', SideIndex.write_side .., written⟩

/-- Unlinking a slot, closing its level and freeing it. -/
def detachFrom (book : MatchingBook) (side : Side) (ref : LevelRef) (price : Int) (slot : Nat) : MatchingBook :=
  let unlinked := book.unlink ((book.sideOf side).read ref) slot
  discounted ((unlinked.1.setSide side (closeLevel (book.sideOf side) ref price unlinked.2)).releaseSlot slot)

theorem Holds.detachFrom (holds : book.Holds queues free) {side : Side} {placed : Placed}
    (member : placed ∈ queues side) {ref : LevelRef} (found : (book.sideOf side).findLevel placed.price = some ref)
    (contents : (book.sideOf side).read ref = { head := (queues.levelSlots side placed.price).head?,
                                                tail := (queues.levelSlots side placed.price).getLast? }) :
    (book.detachFrom side ref placed.price placed.slot).Holds (queues.remove placed.slot) (placed.slot :: free) := by
  have inLevel := (mem_levelSlots queues side placed.price placed.slot).mpr ⟨placed, member, rfl, rfl⟩
  obtain ⟨nexts, prevs⟩ := holds.neighbours inLevel
  obtain ⟨relinked, linked, level⟩ := unlink_spec ((book.sideOf side).read ref)
    (fun next same => holds.level_lt (nexts next same)) (fun prev same => holds.level_lt (prevs prev same))
  have left : (book.unlink ((book.sideOf side).read ref) placed.slot).2 =
      { head := ((queues.remove placed.slot).levelSlots side placed.price).head?,
        tail := ((queues.remove placed.slot).levelSlots side placed.price).getLast? } := by
    have nodup := holds.levelSlots_nodup side placed.price
    have chain := holds.chains side placed.price
    rw [levelSlots_remove, level, contents]
    obtain ⟨front, back, split⟩ := List.append_of_mem inLevel
    rw [split] at nodup chain ⊢
    rw [filter_ne_of_nodup nodup]
    obtain ⟨prev, next⟩ : (book.entry placed.slot).prev = front.getLast?.or none ∧
        (book.entry placed.slot).next = back.head? := chain.links_of_mid
    rw [prev, next, Option.or_none]
    cases front <;> cases back <;> simp [List.getLast?_append, List.getLast?_cons]
  obtain ⟨wf, sameSide, levels⟩ := closeLevel_spec (holds.index side) found
    ((queues.remove placed.slot).levelSlots side placed.price)
  rw [← left] at wf sameSide levels
  refine holds.detached member relinked linked wf (sameSide.trans (holds.side side)) fun price => ?_
  rw [levels price]
  split_ifs with here
  · rw [here]
  · have notHere : placed.slot ∉ queues.levelSlots side price := fun there =>
      here (holds.levelSlots_disjoint there inLevel).2
    rw [holds.levels side price, levelSlots_remove, List.filter_eq_self.mpr]
    intro slot there
    simpa using fun same : slot = placed.slot => notHere (same ▸ there)

/-- Removing an order takes it off its list and leaves every other in place. -/
theorem Holds.removeAt (holds : book.Holds queues free) {side : Side} {placed : Placed}
    (member : placed ∈ queues side) :
    (book.removeAt ⟨placed.slot⟩).1.Holds (queues.remove placed.slot) (placed.slot :: free) ∧
      (book.removeAt ⟨placed.slot⟩).2 = placed.order := by
  have stored : book.orderAt ⟨placed.slot⟩ = placed.order := holds.stored side placed member
  obtain ⟨ref, found, _, contents⟩ := holds.level_lookup member
  have own := holds.ownSide side placed member
  have removal : book.removeAt ⟨placed.slot⟩ = (book.detachFrom side ref placed.price placed.slot, placed.order) := by
    unfold MatchingBook.removeAt
    simp only [stored, own]
    rw [show (book.sideOf side).findLevel placed.order.price = some ref from found]
    rfl
  rw [removal]
  exact ⟨holds.detachFrom member found contents, rfl⟩

theorem removeFront_eq (book : MatchingBook) (side : Side) :
    book.removeFront side = book.detachFrom side ((book.sideOf side).levelAt (book.sideOf side).bestPrice)
      (book.sideOf side).bestPrice (book.frontSlot side) := by
  simp only [MatchingBook.removeFront, MatchingBook.detachFrom, closeLevel]
  split_ifs <;> cases side <;> rfl

/-- Removing the front of a side takes off the first order of its list. -/
theorem Holds.removeFront (holds : book.Holds queues free) {side : Side} {first : Placed} {rest : List Placed}
    (contents : queues side = first :: rest) :
    (book.removeFront side).Holds (queues.remove first.slot) (first.slot :: free) := by
  have member : first ∈ queues side := by simp [contents]
  obtain ⟨ref, found, levelAt, level⟩ := holds.level_lookup member
  have removal : book.removeFront side = book.detachFrom side ref first.price first.slot := by
    rw [removeFront_eq, holds.best_of_cons contents, levelAt, holds.frontSlot_of_cons contents]
  rw [removal]
  exact holds.detachFrom member found level

end Remove

section Amend
variable {book : MatchingBook} {queues : Queues} {free : List Nat}

theorem mem_amend (queues : Queues) (slot : Nat) (change : BookOrder → BookOrder) (side : Side) (placed : Placed) :
    placed ∈ queues.amend slot change side ↔
      placed ∈ queues side ∧ placed.slot ≠ slot ∨
        ∃ order, ⟨slot, order⟩ ∈ queues side ∧ placed = ⟨slot, change order⟩ := by
  unfold Queues.amend
  rw [List.mem_map]
  constructor
  · rintro ⟨old, member, rfl⟩
    split_ifs with here
    · subst here
      exact Or.inr ⟨old.order, member, rfl⟩
    · exact Or.inl ⟨member, here⟩
  · rintro (⟨member, different⟩ | ⟨order, member, rfl⟩)
    · exact ⟨placed, member, if_neg different⟩
    · exact ⟨_, member, if_pos rfl⟩

theorem level_amend (queues : Queues) (slot : Nat) {change : BookOrder → BookOrder}
    (samePrice : ∀ order, (change order).price = order.price) (side : Side) (price : Int) :
    (queues.amend slot change).level side price =
      (queues.level side price).map fun placed =>
        if placed.slot = slot then { placed with order := change placed.order } else placed := by
  unfold Queues.level Queues.amend
  rw [List.filter_map]
  congr 1
  refine List.filter_congr fun placed _ => ?_
  simp only [Function.comp_apply, Placed.price]
  split_ifs
  · rw [samePrice]
    rfl
  · rfl

theorem levelSlots_amend (queues : Queues) (slot : Nat) {change : BookOrder → BookOrder}
    (samePrice : ∀ order, (change order).price = order.price) (side : Side) (price : Int) :
    (queues.amend slot change).levelSlots side price = queues.levelSlots side price := by
  unfold Queues.levelSlots
  rw [level_amend queues slot samePrice, List.map_map]
  refine List.map_congr_left fun placed _ => ?_
  simp only [Function.comp_apply]
  split_ifs <;> rfl

theorem slots_amend (queues : Queues) (slot : Nat) (change : BookOrder → BookOrder) (side : Side) :
    (queues.amend slot change).slots side = queues.slots side := by
  unfold Queues.slots Queues.amend
  rw [List.map_map]
  refine List.map_congr_left fun placed _ => ?_
  simp only [Function.comp_apply]
  split_ifs <;> rfl

/-- Editing an order in place keeps its position. -/
theorem Holds.modifyOrder (holds : book.Holds queues free) {side : Side} {placed : Placed}
    (member : placed ∈ queues side) (change : BookOrder → BookOrder)
    (samePrice : ∀ order, (change order).price = order.price) (sameSide : ∀ order, (change order).side = order.side) :
    (book.modifyOrder placed.slot change).Holds (queues.amend placed.slot change) free := by
  have inside := holds.slot_lt member
  have entries : ∀ slot, (book.modifyOrder placed.slot change).entry slot = _ :=
    entry_modifyEntry inside fun entry => { entry with order := change entry.order }
  have links : (book.modifyOrder placed.slot change).links = book.links := by
    ext1 <;> funext slot <;> simp only [MatchingBook.links, entries] <;> split_ifs <;> rfl
  have sides : ∀ other, (book.modifyOrder placed.slot change).sideOf other = book.sideOf other :=
    sideOf_modifyEntry book placed.slot _
  have length : (book.modifyOrder placed.slot change).slab.length = book.slab.length := length_modifyEntry ..
  refine ⟨fun other => ?_, fun other => ?_, fun other entry there => ?_, fun other entry there => ?_,
    fun other => ?_, fun other price => ?_, fun other price => ?_, ?_, ?_, holds.freeHead, ?_, ?_⟩
  · rw [sides]
    exact holds.side other
  · rw [sides]
    exact holds.index other
  · rw [entries]
    rcases (mem_amend ..).mp there with ⟨old, different⟩ | ⟨order, old, rfl⟩
    · rw [if_neg different]
      exact holds.stored other entry old
    · rw [if_pos rfl, holds.stored other _ old]
  · rcases (mem_amend ..).mp there with ⟨old, _⟩ | ⟨order, old, rfl⟩
    · exact holds.ownSide other entry old
    · exact (sameSide order).trans (holds.ownSide other _ old)
  · refine (holds.ordered other).map _ fun entry => ?_
    split_ifs
    · exact samePrice _
    · rfl
  · rw [sides, levelSlots_amend queues _ samePrice]
    exact holds.levels other price
  · rw [links, levelSlots_amend queues _ samePrice]
    exact holds.chains other price
  · rw [slots_amend, slots_amend, length]
    exact holds.slots
  · rw [links]
    exact holds.stack
  · simp only [Queues.amend, List.length_map]
    exact holds.liveCount
  · rw [length]
    exact holds.slabCapacity

end Amend

theorem make_holds {bandTicks : Nat} (fits : bandTicks ≤ 64 ^ 3) : (make bandTicks).Holds (fun _ => []) [] where
  side side := by cases side <;> rfl
  index side := by cases side <;> exact SideIndex.make_wellFormed _ fits
  stored _ _ member := by simp at member
  ownSide _ _ member := by simp at member
  ordered _ := List.Pairwise.nil
  levels side price := by cases side <;> rfl
  chains _ _ := trivial
  slots := List.Perm.refl _
  stack := trivial
  freeHead := rfl
  liveCount := rfl
  slabCapacity := rfl

section Specs
variable {book : MatchingBook}

theorem make_spec {bandTicks : Nat} (fits : bandTicks ≤ 64 ^ 3) :
    (make bandTicks).WellFormed ∧ (make bandTicks).queues = fun _ => [] :=
  ⟨(make_holds fits).wellFormed, (make_holds fits).queues_eq⟩

theorem add_spec (wf : book.WellFormed) (order : BookOrder) :
    (book.add order).1.WellFormed ∧
      (book.add order).1.queues = book.queues.enqueue (book.add order).2.slot order ∧
      ∀ side, (book.add order).2.slot ∉ book.queues.slots side := by
  obtain ⟨free, holds⟩ := wf
  obtain ⟨⟨free, after⟩, fresh⟩ := holds.add order
  exact ⟨after.wellFormed, after.queues_eq, fresh⟩

theorem removeAt_spec (wf : book.WellFormed) {side : Side} {placed : Placed} (member : placed ∈ book.queues side) :
    (book.removeAt ⟨placed.slot⟩).1.WellFormed ∧
      (book.removeAt ⟨placed.slot⟩).1.queues = book.queues.remove placed.slot ∧
      (book.removeAt ⟨placed.slot⟩).2 = placed.order := by
  obtain ⟨free, holds⟩ := wf
  obtain ⟨after, removed⟩ := holds.removeAt member
  exact ⟨after.wellFormed, after.queues_eq, removed⟩

theorem removeFront_spec (wf : book.WellFormed) {side : Side} {first : Placed} {rest : List Placed}
    (contents : book.queues side = first :: rest) :
    (book.removeFront side).WellFormed ∧ (book.removeFront side).queues = book.queues.remove first.slot := by
  obtain ⟨free, holds⟩ := wf
  have after := holds.removeFront contents
  exact ⟨after.wellFormed, after.queues_eq⟩

theorem reduceAt_spec (wf : book.WellFormed) {side : Side} {placed : Placed} (member : placed ∈ book.queues side)
    (quantity : Nat) :
    (book.reduceAt ⟨placed.slot⟩ quantity).WellFormed ∧
      (book.reduceAt ⟨placed.slot⟩ quantity).queues =
        book.queues.amend placed.slot fun order => { order with remainingQuantity := quantity } := by
  obtain ⟨free, holds⟩ := wf
  have after := holds.modifyOrder member (fun order => { order with remainingQuantity := quantity })
    (fun _ => rfl) fun _ => rfl
  exact ⟨after.wellFormed, after.queues_eq⟩

theorem setClientOrderIdAt_spec (wf : book.WellFormed) {side : Side} {placed : Placed}
    (member : placed ∈ book.queues side) (clientOrderId : ClientOrderId) :
    (book.setClientOrderIdAt ⟨placed.slot⟩ clientOrderId).WellFormed ∧
      (book.setClientOrderIdAt ⟨placed.slot⟩ clientOrderId).queues =
        book.queues.amend placed.slot fun order => { order with clientOrderId := clientOrderId } := by
  obtain ⟨free, holds⟩ := wf
  have after := holds.modifyOrder member (fun order => { order with clientOrderId := clientOrderId })
    (fun _ => rfl) fun _ => rfl
  exact ⟨after.wellFormed, after.queues_eq⟩

theorem reduceFront_spec (wf : book.WellFormed) {side : Side} {first : Placed} {rest : List Placed}
    (contents : book.queues side = first :: rest) (quantity : Nat) :
    (book.reduceFront side quantity).WellFormed ∧
      (book.reduceFront side quantity).queues =
        book.queues.amend first.slot fun order => { order with remainingQuantity := quantity } := by
  obtain ⟨free, holds⟩ := wf
  have front : book.reduceFront side quantity = book.reduceAt ⟨first.slot⟩ quantity := by
    unfold MatchingBook.reduceFront
    rw [holds.frontSlot_of_cons contents]
    rfl
  have member : first ∈ book.queues side := by simp [contents]
  rw [front]
  exact reduceAt_spec ⟨free, holds⟩ member quantity

end Specs

end Mdh.Matching.MatchingBook
