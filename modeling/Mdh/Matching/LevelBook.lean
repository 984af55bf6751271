import Mdh.Core.Messages
import Mdh.Lib.PriorityList
import Mdh.Lib.SortedMap

/-! The book a reader has in mind: for each side a sorted map from price to a
first-in-first-out queue. Orders are named by how many were added before them. -/

namespace Mdh.Matching
open Mdh.Core Mdh.Lib

structure Arrived where
  arrival : Nat
  order : BookOrder
  deriving DecidableEq, Repr

def Arrived.price (entry : Arrived) : Int := entry.order.price

structure LevelBook where
  bids : SortedMap Int (List Arrived) := SortedMap.empty
  asks : SortedMap Int (List Arrived) := SortedMap.empty
  arrivals : Nat := 0

namespace LevelBook

def sideOf (book : LevelBook) : Side → SortedMap Int (List Arrived)
  | .buy => book.bids
  | .sell => book.asks

def setSide (book : LevelBook) (side : Side) (map : SortedMap Int (List Arrived)) : LevelBook :=
  match side with
  | .buy => { book with bids := map }
  | .sell => { book with asks := map }

/-- The levels of a side, best price first. -/
def levels (book : LevelBook) (side : Side) : List (Int × List Arrived) :=
  match side with
  | .buy => (book.sideOf side).entries.reverse
  | .sell => (book.sideOf side).entries

/-- Every resting order of a side, by price and then by time. -/
def all (book : LevelBook) (side : Side) : List Arrived := (book.levels side).flatMap Prod.snd

def queueAt (book : LevelBook) (side : Side) (price : Int) : List Arrived :=
  ((book.sideOf side).find? price).getD []

/-- A level with nothing in it has no entry. -/
def setQueue (book : LevelBook) (side : Side) (price : Int) (queue : List Arrived) : LevelBook :=
  book.setSide side
    (if queue = [] then (book.sideOf side).erase price else (book.sideOf side).insert price queue)

def find (book : LevelBook) (arrival : Nat) : Option BookOrder :=
  ((book.all .buy ++ book.all .sell).find? fun entry => entry.arrival = arrival).map Arrived.order

def add (book : LevelBook) (order : BookOrder) : LevelBook :=
  { book.setQueue order.side order.price
      (book.queueAt order.side order.price ++ [⟨book.arrivals, order⟩]) with arrivals := book.arrivals + 1 }

/-- Edits the queue an order is in. -/
def editQueue (book : LevelBook) (arrival : Nat) (edit : List Arrived → List Arrived) : LevelBook :=
  match book.find arrival with
  | none => book
  | some order => book.setQueue order.side order.price (edit (book.queueAt order.side order.price))

def remove (book : LevelBook) (arrival : Nat) : LevelBook :=
  book.editQueue arrival (List.filter fun entry => entry.arrival ≠ arrival)

def amend (book : LevelBook) (arrival : Nat) (change : BookOrder → BookOrder) : LevelBook :=
  book.editQueue arrival
    (List.map fun entry => if entry.arrival = arrival then { entry with order := change entry.order } else entry)

def bestPrice (book : LevelBook) (side : Side) : Option Int := (book.levels side).head?.map Prod.fst

def front (book : LevelBook) (side : Side) : Option Arrived := (book.all side).head?

/-- Everything resting on a side at a price or better. -/
def crossableQuantity (book : LevelBook) (side : Side) (price : Int) : Nat :=
  (((book.all side).filter fun entry => ¬ side.Before price entry.price).map
    fun entry => entry.order.remainingQuantity).sum

def liveOrderCount (book : LevelBook) : Nat := (book.all .buy).length + (book.all .sell).length

/-- No level is empty, and each holds orders of its own side and price. -/
structure Tidy (book : LevelBook) : Prop where
  nonempty : ∀ side price, (book.sideOf side).find? price ≠ some []
  placed : ∀ side price, ∀ entry ∈ book.queueAt side price, entry.order.side = side ∧ entry.price = price

theorem queueAt_setQueue (book : LevelBook) (side other : Side) (price level : Int) (queue : List Arrived) :
    (book.setQueue side price queue).queueAt other level =
      if other = side ∧ level = price then queue else book.queueAt other level := by
  unfold setQueue queueAt
  cases side <;> cases other <;> simp only [setSide, sideOf, reduceCtorEq, false_and, true_and, if_false] <;>
    split_ifs <;> simp_all [SortedMap.find?_insert, SortedMap.find?_erase]

@[simp] theorem setQueue_arrivals (book : LevelBook) (side : Side) (price : Int) (queue : List Arrived) :
    (book.setQueue side price queue).arrivals = book.arrivals := by
  unfold setQueue
  cases side <;> rfl

theorem queueAt_add (book : LevelBook) (order : BookOrder) (side : Side) (price : Int) :
    (book.add order).queueAt side price = if side = order.side ∧ price = order.price
      then book.queueAt order.side order.price ++ [⟨book.arrivals, order⟩] else book.queueAt side price :=
  book.queueAt_setQueue order.side side order.price price _

theorem queueAt_editQueue {book : LevelBook} {arrival : Nat} {order : BookOrder}
    (found : book.find arrival = some order) (edit : List Arrived → List Arrived) (side : Side) (price : Int) :
    (book.editQueue arrival edit).queueAt side price =
      if side = order.side ∧ price = order.price then edit (book.queueAt side price) else book.queueAt side price := by
  unfold editQueue
  rw [found]
  simp only [queueAt_setQueue]
  split_ifs with here
  · rw [here.1, here.2]
  · rfl

theorem editQueue_arrivals (book : LevelBook) (arrival : Nat) (edit : List Arrived → List Arrived) :
    (book.editQueue arrival edit).arrivals = book.arrivals := by
  unfold editQueue
  split
  · rfl
  · exact setQueue_arrivals ..

theorem setQueue_find?_ne (book : LevelBook) (tidy : book.Tidy) (side other : Side) (price level : Int)
    (queue : List Arrived) : ((book.setQueue side price queue).sideOf other).find? level ≠ some [] := by
  have before := tidy.nonempty other level
  unfold setQueue
  cases side <;> cases other <;> simp only [setSide, sideOf] at before ⊢ <;> try exact before
  all_goals
    split_ifs with vacant
    · rw [SortedMap.find?_erase]
      split_ifs <;> simp [before]
    · rw [SortedMap.find?_insert]
      split_ifs <;> simp [before, vacant]

theorem Tidy.setQueue {book : LevelBook} (tidy : book.Tidy) {side : Side} {price : Int} {queue : List Arrived}
    (placed : ∀ entry ∈ queue, entry.order.side = side ∧ entry.price = price) : (book.setQueue side price queue).Tidy where
  nonempty other level := setQueue_find?_ne book tidy side other price level queue
  placed other level entry member := by
    rw [queueAt_setQueue] at member
    split_ifs at member with here
    · obtain ⟨rfl, rfl⟩ := here
      exact placed entry member
    · exact tidy.placed other level entry member

theorem empty_tidy : ({} : LevelBook).Tidy where
  nonempty side price := by cases side <;> simp [sideOf]
  placed side price entry member := by cases side <;> simp [queueAt, sideOf] at member

section Views
variable {book : LevelBook}

theorem levels_nodup (book : LevelBook) (side : Side) : ((book.levels side).map Prod.fst).Nodup := by
  have ascending : ((book.sideOf side).entries.map Prod.fst).Nodup := by
    refine List.pairwise_map.mpr (List.Pairwise.imp ?_ (book.sideOf side).ascending)
    exact fun smaller => ne_of_lt smaller
  cases side
  · exact (List.map_reverse ▸ List.nodup_reverse.mpr ascending :)
  · exact ascending

theorem mem_levels (book : LevelBook) (side : Side) (price : Int) (queue : List Arrived) :
    (price, queue) ∈ book.levels side ↔ (book.sideOf side).find? price = some queue := by
  rw [SortedMap.find?_eq_some_iff]
  cases side
  · exact List.mem_reverse
  · exact Iff.rfl

theorem flatMap_of_key {entries : List (Int × List Arrived)} (nodup : (entries.map Prod.fst).Nodup) (price : Int) :
    (entries.flatMap fun entry => if entry.1 = price then entry.2 else []) =
      ((entries.find? fun entry => entry.1 = price).map Prod.snd).getD [] := by
  induction entries with
  | nil => rfl
  | cons entry rest ih =>
    rw [List.map_cons, List.nodup_cons] at nodup
    rw [List.flatMap_cons, List.find?_cons]
    by_cases here : entry.1 = price
    · have absent : (rest.find? fun entry => entry.1 = price) = none := by
        rw [List.find?_eq_none]
        intro other member same
        exact nodup.1 (List.mem_map.mpr ⟨other, member, by simpa [here] using same⟩)
      simp [here, ih nodup.2, absent]
    · simp [here, ih nodup.2]

theorem Tidy.all_filter (tidy : book.Tidy) (side : Side) (price : Int) :
    ((book.all side).filter fun entry => entry.price = price) = book.queueAt side price := by
  have perLevel : ((book.all side).filter fun entry => entry.price = price) =
      (book.levels side).flatMap fun entry => if entry.1 = price then entry.2 else [] := by
    unfold all
    rw [List.filter_flatMap]
    refine List.flatMap_congr fun entry member => ?_
    have found := (book.mem_levels side entry.1 entry.2).mp member
    have here : ∀ other ∈ entry.2, other.price = entry.1 := fun other inside =>
      (tidy.placed side entry.1 other (by simpa [queueAt, found] using inside)).2
    split_ifs with same
    · exact List.filter_eq_self.mpr fun other inside => by simp [here other inside, same]
    · exact List.filter_eq_nil_iff.mpr fun other inside => by simp [here other inside, same]
  have found : ((book.levels side).find? fun entry => entry.1 = price).map Prod.snd =
      (book.sideOf side).find? price := by
    apply Option.ext
    intro queue
    rw [← mem_levels, Option.map_eq_some_iff]
    constructor
    · rintro ⟨entry, present, rfl⟩
      have same : entry.1 = price := by simpa using List.find?_some present
      exact same ▸ List.mem_of_find?_eq_some present
    · intro member
      cases present : (book.levels side).find? fun entry => entry.1 = price with
      | none => simpa using List.find?_eq_none.mp present _ member
      | some entry =>
        have same : entry.1 = price := by simpa using List.find?_some present
        refine ⟨entry, rfl, ?_⟩
        exact congrArg Prod.snd (List.inj_on_of_nodup_map (book.levels_nodup side)
          (List.mem_of_find?_eq_some present) member same)
  rw [perLevel, flatMap_of_key (book.levels_nodup side), found]
  rfl

theorem Tidy.all_ordered (tidy : book.Tidy) (side : Side) :
    PriorityList.Ordered side.Before Arrived.price (book.all side) := by
  have keys : (book.levels side).Pairwise fun first second => side.Before first.1 second.1 := by
    cases side
    · exact List.pairwise_reverse.mpr (book.bids.ascending)
    · exact book.asks.ascending
  have inside : ∀ level ∈ book.levels side, ∀ entry ∈ level.2, entry.price = level.1 := by
    intro level member entry within
    have found := (book.mem_levels side level.1 level.2).mp member
    exact (tidy.placed side level.1 entry (by simpa [queueAt, found] using within)).2
  unfold all PriorityList.Ordered
  rw [List.pairwise_flatMap]
  constructor
  · intro level member
    refine List.pairwise_of_forall_mem_list fun first one second two => ?_
    rw [inside level member first one, inside level member second two]
    exact Side.Before.irrefl side _
  · refine List.Pairwise.imp_of_mem ?_ keys
    intro first second one two before entry within other within'
    rw [inside first one entry within, inside second two other within']
    exact before.asymm

theorem Tidy.bestPrice_eq (tidy : book.Tidy) (side : Side) :
    book.bestPrice side = (book.all side).head?.map Arrived.price := by
  unfold bestPrice all
  cases shape : book.levels side with
  | nil => rfl
  | cons level rest =>
    have member : level ∈ book.levels side := by simp [shape]
    have found := (book.mem_levels side level.1 level.2).mp member
    obtain ⟨price, queue⟩ := level
    cases queue with
    | nil => exact absurd found (tidy.nonempty side price)
    | cons entry others =>
      have own := (tidy.placed side price entry (by simp [queueAt, found])).2
      simp [own]

theorem mem_all (tidy : book.Tidy) (side : Side) (entry : Arrived) :
    entry ∈ book.all side ↔ entry ∈ book.queueAt side entry.price := by
  rw [← tidy.all_filter]
  simp

theorem find_eq_some (tidy : book.Tidy) {arrival : Nat} {order : BookOrder} (found : book.find arrival = some order) :
    ⟨arrival, order⟩ ∈ book.queueAt order.side order.price := by
  unfold find at found
  obtain ⟨entry, present, rfl⟩ := Option.map_eq_some_iff.mp found
  have same : entry.arrival = arrival := by simpa using List.find?_some present
  subst same
  have member := List.mem_of_find?_eq_some present
  rcases List.mem_append.mp member with member | member <;>
    · have inQueue := (mem_all tidy _ entry).mp member
      rw [(tidy.placed _ _ entry inQueue).1]
      exact inQueue

end Views

end LevelBook

end Mdh.Matching
