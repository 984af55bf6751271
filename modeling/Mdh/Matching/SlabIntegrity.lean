import Mathlib.Data.List.Infix
import Mdh.Matching.OrderFollowing

/-! The slab of a book over whole runs. Its free list and its queues share the slots between
them, every queue is linked both ways in order of arrival, a handle names one order for as long
as that order rests, and the slab is as long as the most orders that ever rested at once. -/

namespace Mdh.Matching
open Mdh.Core Mdh.Lib

/-- The end-of-chain sentinel, `~0U`. -/
def kNil : BitVec 32 := BitVec.allOnes 32

/-- What a 32-bit link says. -/
def linkOf (word : BitVec 32) : Option Nat := if word = kNil then none else some word.toNat

/-- Where a slot of the slab can be. -/
inductive SlotPlace where
  | freeList
  | level (side : Side) (price : Int)
  deriving DecidableEq, Repr

namespace MatchingBook

def firstIn (book : MatchingBook) : SlotPlace → Option Nat
  | .freeList => book.freeHead
  | .level side price => ((book.sideOf side).level? price).bind LevelSlot.head

/-- The slots met by following `next` through a place. A walk that met more than the slab has
would be going round in circles. -/
def slotsIn (book : MatchingBook) (place : SlotPlace) : List Nat :=
  book.slotsFrom book.slab.length (book.firstIn place)

/-- Every slot is in one place, and what a place leads through is linked as it should be. -/
structure SlabIntact (book : MatchingBook) : Prop where
  inside : ∀ place, ∀ slot ∈ book.slotsIn place, slot < book.slab.length
  onePlace : ∀ slot < book.slab.length, ∃! place, slot ∈ book.slotsIn place
  nodup : ∀ place, (book.slotsIn place).Nodup
  ends : ∀ place, book.links.Stack (book.slotsIn place)
  linked : ∀ side price, book.links.Chain none (book.slotsIn (.level side price))
  freeHead : book.freeHead = (book.slotsIn .freeList).head?
  levels : ∀ side price, (book.sideOf side).level? price = levelOf (book.slotsIn (.level side price))

section Places
variable {book : MatchingBook} {queues : Queues} {free : List Nat}

theorem levelOf_head (slots : List Nat) : (levelOf slots).bind LevelSlot.head = slots.head? := by
  cases slots <;> rfl

theorem Holds.slab_length (holds : book.Holds queues free) : book.slab.length = free.length + book.liveCount := by
  have length := holds.slots.length_eq
  rw [List.length_range, List.length_append, List.length_append] at length
  unfold Queues.slots at length
  rw [List.length_map, List.length_map, ← holds.liveCount] at length
  exact length.symm

theorem Holds.slotsIn_freeList (holds : book.Holds queues free) : book.slotsIn .freeList = free := by
  unfold slotsIn
  rw [firstIn, holds.freeHead]
  apply slotsFrom_of_stack holds.stack
  have length := holds.slab_length
  omega

theorem Holds.slotsIn_level (holds : book.Holds queues free) (side : Side) (price : Int) :
    book.slotsIn (.level side price) = queues.levelSlots side price := by
  unfold slotsIn
  rw [firstIn, holds.levels side price, levelOf_head]
  apply slotsFrom_of_stack (holds.chains side price).stack
  calc
    (queues.levelSlots side price).length = (queues.level side price).length := List.length_map ..
    _ ≤ (queues side).length := List.length_filter_le ..
    _ ≤ book.liveCount := holds.length_le side
    _ ≤ book.slab.length := by rw [holds.slab_length]; exact Nat.le_add_left ..

/-- A slot the slab has is free or in the queue of one level, and nowhere else. -/
theorem Holds.onePlace (holds : book.Holds queues free) {slot : Nat} (inside : slot < book.slab.length) :
    ∃! place, slot ∈ book.slotsIn place := by
  rcases (holds.mem_slots slot).mp inside with isFree | ⟨side, queued⟩
  · rw [← holds.slotsIn_freeList] at isFree
    refine ⟨.freeList, isFree, fun place there => ?_⟩
    cases place with
    | freeList => rfl
    | level other price =>
      rw [holds.slotsIn_level] at there
      rw [holds.slotsIn_freeList] at isFree
      exact absurd isFree (holds.level_not_free there)
  · obtain ⟨placed, member, rfl⟩ := List.mem_map.mp queued
    have here := (mem_levelSlots queues side placed.price placed.slot).mpr ⟨placed, member, rfl, rfl⟩
    rw [← holds.slotsIn_level] at here
    refine ⟨.level side placed.price, here, fun place there => ?_⟩
    cases place with
    | freeList =>
      rw [holds.slotsIn_freeList] at there
      exact absurd there (holds.not_free member)
    | level other price =>
      rw [holds.slotsIn_level] at there here
      obtain ⟨rfl, rfl⟩ := holds.levelSlots_disjoint there here
      rfl

theorem Holds.slabIntact (holds : book.Holds queues free) : book.SlabIntact where
  inside place slot there := by
    cases place with
    | freeList => exact holds.free_lt (holds.slotsIn_freeList ▸ there)
    | level side price => exact holds.level_lt (holds.slotsIn_level side price ▸ there)
  onePlace _ inside := holds.onePlace inside
  nodup place := by
    cases place with
    | freeList =>
      rw [holds.slotsIn_freeList]
      exact (List.nodup_append.mp holds.nodup).1
    | level side price =>
      rw [holds.slotsIn_level]
      exact holds.levelSlots_nodup side price
  ends place := by
    cases place with
    | freeList =>
      rw [holds.slotsIn_freeList]
      exact holds.stack
    | level side price =>
      rw [holds.slotsIn_level]
      exact (holds.chains side price).stack
  linked side price := by
    rw [holds.slotsIn_level]
    exact holds.chains side price
  freeHead := by
    rw [holds.slotsIn_freeList]
    exact holds.freeHead
  levels side price := by
    rw [holds.slotsIn_level]
    exact holds.levels side price

end Places

section Growth
variable {book : MatchingBook} {queues : Queues} {free : List Nat}

/-- The slab grows only when nothing in it is free. -/
theorem Holds.add_slab (holds : book.Holds queues free) (order : BookOrder) :
    (book.add order).1.slab.length = max (book.add order).1.liveCount book.slab.length := by
  have after := (holds.add_tail order).1
  have length := after.slab_length
  have count := after.liveCount
  simp only [length_enqueue] at count
  rw [length, count, holds.slab_length, holds.liveCount, List.length_tail]
  cases order.side <;> simp only [reduceCtorEq, if_true, if_false] <;> omega

theorem Holds.remove_slab (holds : book.Holds queues free) {after : MatchingBook} {side : Side} {placed : Placed}
    (member : placed ∈ queues side) (removed : after.Holds (queues.remove placed.slot) (placed.slot :: free)) :
    after.slab.length = max after.liveCount book.slab.length := by
  have fewer := (holds.remove_perm member).length_eq
  simp only [Queues.slots, List.length_cons, List.length_append, List.length_map] at fewer
  rw [removed.slab_length, removed.liveCount, holds.slab_length, holds.liveCount, List.length_cons]
  omega

theorem Holds.modifyOrder_slab (holds : book.Holds queues free) (slot : Nat) (change : BookOrder → BookOrder) :
    (book.modifyOrder slot change).slab.length = max (book.modifyOrder slot change).liveCount book.slab.length := by
  have length : (book.modifyOrder slot change).slab.length = book.slab.length := length_modifyEntry ..
  have count : (book.modifyOrder slot change).liveCount = book.liveCount := rfl
  rw [length, count, holds.slab_length]
  omega

end Growth

end MatchingBook

section Peak
variable {session : Session} {reference : LevelBook}

theorem Agrees.slab_apply (agrees : Agrees session reference) {op : BookOp} (allowed : reference.Allows op) :
    (session.apply op).book.slab.length = max (session.apply op).book.liveCount session.book.slab.length := by
  obtain ⟨free, holds⟩ := agrees.wellFormed
  cases op with
  | add order => exact holds.add_slab order
  | removeAt arrival =>
    obtain ⟨order, found⟩ := Option.isSome_iff_exists.mp allowed
    exact holds.remove_slab (agrees.live found) (holds.removeAt (agrees.live found)).1
  | reduceAt | setClientOrderIdAt | reduceFront => exact holds.modifyOrder_slab _ _
  | removeFront side =>
    obtain ⟨first, front⟩ := Option.isSome_iff_exists.mp allowed
    obtain ⟨rest, contents, _⟩ := agrees.front front
    exact holds.remove_slab (contents ▸ List.mem_cons_self) (holds.removeFront contents)

theorem session_run_append (session : Session) (front back : List BookOp) :
    session.run (front ++ back) = (session.run front).run back := List.foldl_append ..

/-- How many orders rested at some point of a run. -/
def liveCounts (ops : List BookOp) : Set Nat :=
  {live | ∃ before, before <+: ops ∧ live = (LevelBook.run {} before).liveOrderCount}

theorem forall_liveCounts {ops : List BookOp} {holds : Nat → Prop} :
    (∀ live ∈ liveCounts ops, holds live) ↔ ∀ before ∈ ops.inits, holds (LevelBook.run {} before).liveOrderCount := by
  constructor
  · intro all before isInit
    exact all _ ⟨before, (List.mem_inits before ops).mp isInit, rfl⟩
  · rintro all live ⟨before, isPrefix, rfl⟩
    exact all before ((List.mem_inits before ops).mpr isPrefix)

theorem liveCounts_concat (ops : List BookOp) (op : BookOp) :
    liveCounts (ops ++ [op]) = insert (LevelBook.run {} (ops ++ [op])).liveOrderCount (liveCounts ops) := by
  ext live
  simp only [liveCounts, Set.mem_insert_iff, Set.mem_ofPred_eq, List.prefix_concat_iff]
  grind

theorem slab_length_greatest {bandTicks : Nat} (fits : bandTicks ≤ 64 ^ 3) (ops : List BookOp)
    (allowed : LevelBook.AllowsAll {} ops) :
    IsGreatest (liveCounts ops) ((Session.start bandTicks).run ops).book.slab.length := by
  induction ops using List.reverseRecOn with
  | nil =>
    refine ⟨⟨[], List.prefix_rfl, rfl⟩, ?_⟩
    rintro live ⟨before, isPrefix, rfl⟩
    rw [List.prefix_nil.mp isPrefix]
    exact le_rfl
  | append_singleton front op ih =>
    obtain ⟨allowedFront, allowedOp⟩ := (LevelBook.allowsAll_append {} front [op]).mp allowed
    have agrees := (start_agrees fits).run allowedFront
    have grown := agrees.slab_apply allowedOp.1
    have counted : ((Session.start bandTicks).run (front ++ [op])).book.liveCount =
        (LevelBook.run {} (front ++ [op])).liveOrderCount := ((start_agrees fits).run allowed).observes.liveOrderCount
    have stepped : (Session.start bandTicks).run (front ++ [op]) = ((Session.start bandTicks).run front).apply op :=
      session_run_append ..
    rw [← stepped, counted] at grown
    rw [liveCounts_concat, grown]
    exact (ih allowedFront).insert _

end Peak

/-- What holds of a book after a run, seen beside the reference after the same run. -/
structure SlabIntegrity (bandTicks : Nat) (ops : List BookOp) : Prop where
  intact : ((Session.start bandTicks).run ops).book.SlabIntact
  queued : ∀ side price, ((Session.start bandTicks).run ops).book.slotsIn (.level side price) =
    ((LevelBook.run {} ops).queueAt side price).map fun entry =>
      (((Session.start bandTicks).run ops).handleOf entry.arrival).slot
  resting : ∀ side price entry, entry ∈ (LevelBook.run {} ops).queueAt side price ↔
    (LevelBook.run {} ops).find entry.arrival = some entry.order ∧
      entry.order.side = side ∧ entry.order.price = price
  inOrder : (LevelBook.run {} ops).InOrder
  stored : ∀ arrival order, (LevelBook.run {} ops).find arrival = some order →
    ((Session.start bandTicks).run ops).book.orderAt (((Session.start bandTicks).run ops).handleOf arrival) = order
  /-- From the addition that returned it, a handle names its order while anything is left of it. -/
  handles : ∀ before order after, ops = before ++ .add order :: after →
    ((Session.start bandTicks).run ops).handleOf (LevelBook.run {} before).arrivals =
      (((Session.start bandTicks).run before).book.add order).2 ∧
    (LevelBook.run {} ops).find (LevelBook.run {} before).arrivals =
      LevelBook.followed (LevelBook.run {} before).arrivals after ((LevelBook.run {} before).add order) order ∧
    ∀ current, (LevelBook.run {} ops).find (LevelBook.run {} before).arrivals = some current →
      SameOrder order current ∧
        ((Session.start bandTicks).run ops).book.orderAt (((Session.start bandTicks).run before).book.add order).2 = current
  capacity : IsGreatest (liveCounts ops) ((Session.start bandTicks).run ops).book.slabCapacity
  words : ∀ slot < ((Session.start bandTicks).run ops).book.slab.length, linkOf (BitVec.ofNat 32 slot) = some slot

section Runs
variable {bandTicks : Nat}

theorem linkOf_ofNat {slot : Nat} (fits : slot < 2 ^ 32 - 1) : linkOf (BitVec.ofNat 32 slot) = some slot := by
  have value : (BitVec.ofNat 32 slot).toNat = slot := by
    rw [BitVec.toNat_ofNat]
    omega
  have different : BitVec.ofNat 32 slot ≠ kNil := fun same => by
    have values := congrArg BitVec.toNat same
    rw [value, kNil, BitVec.toNat_allOnes] at values
    omega
  rw [linkOf, if_neg different, value]

theorem handles_followed (fits : bandTicks ≤ 64 ^ 3) {before after : List BookOp} {order : BookOrder}
    (allowed : LevelBook.AllowsAll {} (before ++ .add order :: after)) :
    ((Session.start bandTicks).run (before ++ .add order :: after)).handleOf (LevelBook.run {} before).arrivals =
      (((Session.start bandTicks).run before).book.add order).2 ∧
    (LevelBook.run {} (before ++ .add order :: after)).find (LevelBook.run {} before).arrivals =
      LevelBook.followed (LevelBook.run {} before).arrivals after ((LevelBook.run {} before).add order) order := by
  obtain ⟨allowedBefore, _, allowedAfter⟩ := (LevelBook.allowsAll_append {} before _).mp allowed
  have agrees := (start_agrees fits).run allowedBefore
  have added := agrees.add order
  have newest : (LevelBook.run {} before).arrivals <
      (((Session.start bandTicks).run before).apply (.add order)).handles.length := by
    rw [added.counted]
    exact Nat.lt_succ_self _
  constructor
  · rw [session_run_append]
    refine (handleOf_run _ after newest).trans ?_
    simp [Session.handleOf, Session.apply, ← agrees.counted]
  · rw [added.counted] at newest
    rw [LevelBook.run_append]
    refine (added.find_run allowedAfter newest).trans ?_
    rw [agrees.find_add, Option.bind_some]

/-- Whatever is done with a book, its slab stays in order. -/
theorem slab_integrity (fits : bandTicks ≤ 64 ^ 3) (ops : List BookOp) (allowed : LevelBook.AllowsAll {} ops)
    (few : ∀ live ∈ liveCounts ops, live < 2 ^ 32 - 1) : SlabIntegrity bandTicks ops := by
  have agrees := (start_agrees fits).run allowed
  have greatest := slab_length_greatest fits ops allowed
  obtain ⟨free, holds⟩ := agrees.wellFormed
  refine ⟨holds.slabIntact, fun side price => ?_, agrees.mem_queueAt, ?_, fun _ _ => agrees.orderAt,
    fun before order after split => ?_, ?_, fun slot inside => ?_⟩
  · rw [holds.slotsIn_level, Queues.levelSlots, agrees.levels, List.map_map]
    rfl
  · refine (start_agrees fits).inOrder_run (fun side price => ?_) allowed
    cases side <;> exact List.Pairwise.nil
  · subst split
    obtain ⟨same, found⟩ := handles_followed fits allowed
    refine ⟨same, found, fun current left => ⟨LevelBook.followed_same (found.symm.trans left), ?_⟩⟩
    rw [← same]
    exact agrees.orderAt left
  · rw [holds.slabCapacity]
    exact greatest
  · exact linkOf_ofNat (inside.trans (few _ greatest.1))

/-- Two bids at one price, the first cancelled and its slot taken again. -/
theorem slab_integrity_recycled :
    let bid : BookOrder := { (default : BookOrder) with price := 100, remainingQuantity := 5 }
    let ops := [.add bid, .add bid, .removeAt 0, .add { bid with price := 90000 }, .reduceFront .buy 1]
    SlabIntegrity 1024 ops :=
  slab_integrity (by decide) _ ⟨trivial, trivial, rfl, trivial, rfl, trivial⟩
    (forall_liveCounts.mpr (by decide +kernel))

end Runs

end Mdh.Matching
