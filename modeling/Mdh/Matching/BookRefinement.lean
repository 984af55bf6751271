import Mdh.Matching.BookUpdates
import Mdh.Matching.LevelBook

/-! The banded book behaves as a sorted map of queues. The same script drives both;
an order is named by its position among the additions, and the book's side of the
run keeps the handle each addition returned. -/

namespace Mdh.Matching
open Mdh.Core Mdh.Lib

inductive BookOp where
  | add (order : BookOrder)
  | removeAt (arrival : Nat)
  | reduceAt (arrival quantity : Nat)
  | setClientOrderIdAt (arrival : Nat) (clientOrderId : ClientOrderId)
  | reduceFront (side : Side) (quantity : Nat)
  | removeFront (side : Side)
  deriving DecidableEq, Repr

/-- A book and the handles its additions have returned. -/
structure Session where
  book : MatchingBook
  handles : List Handle

namespace Session

def start (bandTicks : Nat) : Session := { book := MatchingBook.make bandTicks, handles := [] }

def handleOf (session : Session) (arrival : Nat) : Handle := session.handles.getD arrival default

def apply (session : Session) : BookOp → Session
  | .add order =>
      let (book, handle) := session.book.add order
      { book, handles := session.handles ++ [handle] }
  | .removeAt arrival => { session with book := (session.book.removeAt (session.handleOf arrival)).1 }
  | .reduceAt arrival quantity => { session with book := session.book.reduceAt (session.handleOf arrival) quantity }
  | .setClientOrderIdAt arrival clientOrderId =>
      { session with book := session.book.setClientOrderIdAt (session.handleOf arrival) clientOrderId }
  | .reduceFront side quantity => { session with book := session.book.reduceFront side quantity }
  | .removeFront side => { session with book := session.book.removeFront side }

def run (session : Session) (ops : List BookOp) : Session := ops.foldl apply session

end Session

namespace LevelBook

def reduceFront (book : LevelBook) (side : Side) (quantity : Nat) : LevelBook :=
  match book.front side with
  | none => book
  | some first => book.amend first.arrival fun order => { order with remainingQuantity := quantity }

def removeFront (book : LevelBook) (side : Side) : LevelBook :=
  match book.front side with
  | none => book
  | some first => book.remove first.arrival

def apply (book : LevelBook) : BookOp → LevelBook
  | .add order => book.add order
  | .removeAt arrival => book.remove arrival
  | .reduceAt arrival quantity => book.amend arrival fun order => { order with remainingQuantity := quantity }
  | .setClientOrderIdAt arrival clientOrderId => book.amend arrival fun order => { order with clientOrderId := clientOrderId }
  | .reduceFront side quantity => book.reduceFront side quantity
  | .removeFront side => book.removeFront side

def run (book : LevelBook) (ops : List BookOp) : LevelBook := ops.foldl apply book

/-- An operation on a handle needs its order to be resting still, and an operation on
a front needs the side to have one. -/
def Allows (book : LevelBook) : BookOp → Prop
  | .add _ => True
  | .removeAt arrival => (book.find arrival).isSome
  | .reduceAt arrival _ => (book.find arrival).isSome
  | .setClientOrderIdAt arrival _ => (book.find arrival).isSome
  | .reduceFront side _ => (book.front side).isSome
  | .removeFront side => (book.front side).isSome

def AllowsAll (book : LevelBook) : List BookOp → Prop
  | [] => True
  | op :: rest => book.Allows op ∧ (book.apply op).AllowsAll rest

end LevelBook

/-- The slot an order of the reference occupies in the book. -/
def Session.place (session : Session) (entry : Arrived) : Placed :=
  { slot := (session.handleOf entry.arrival).slot, order := entry.order }

/-- Level by level, the book queues the same orders in the same order. -/
structure Agrees (session : Session) (reference : LevelBook) : Prop where
  wellFormed : session.book.WellFormed
  tidy : reference.Tidy
  levels : ∀ side price, session.book.queues.level side price = (reference.queueAt side price).map session.place
  counted : session.handles.length = reference.arrivals
  arrived : ∀ side price, ∀ entry ∈ reference.queueAt side price, entry.arrival < reference.arrivals

section Views
variable {session : Session} {reference : LevelBook}

theorem Agrees.queues_eq (agrees : Agrees session reference) (side : Side) :
    session.book.queues side = (reference.all side).map session.place := by
  obtain ⟨free, holds⟩ := agrees.wellFormed
  have ordered : PriorityList.Ordered side.Before Placed.price ((reference.all side).map session.place) :=
    List.pairwise_map.mpr (agrees.tidy.all_ordered side)
  refine (holds.ordered side).ext ordered fun price => ?_
  rw [List.filter_map]
  refine (agrees.levels side price).trans ?_
  rw [← agrees.tidy.all_filter side price]
  rfl

/-- Two live orders of the reference never share a slot of the book. -/
theorem Agrees.place_injective (agrees : Agrees session reference) {side other : Side} {price level : Int}
    {first second : Arrived} (one : first ∈ reference.queueAt side price) (two : second ∈ reference.queueAt other level)
    (same : (session.place first).slot = (session.place second).slot) :
    side = other ∧ price = level ∧ first = second := by
  obtain ⟨free, holds⟩ := agrees.wellFormed
  have inFirst : session.place first ∈ session.book.queues.level side price := by
    rw [agrees.levels]
    exact List.mem_map_of_mem one
  have inSecond : session.place second ∈ session.book.queues.level other level := by
    rw [agrees.levels]
    exact List.mem_map_of_mem two
  obtain ⟨sides, _⟩ := holds.placed_unique (List.mem_of_mem_filter inFirst) (List.mem_of_mem_filter inSecond) same
  subst sides
  have prices : price = level := by
    obtain ⟨_, prices⟩ := holds.levelSlots_disjoint (List.mem_map_of_mem (f := Placed.slot) inFirst)
      (same ▸ List.mem_map_of_mem (f := Placed.slot) inSecond)
    exact prices
  subst prices
  have nodup := holds.levelSlots_nodup side price
  unfold Queues.levelSlots at nodup
  rw [agrees.levels, List.map_map] at nodup
  exact ⟨rfl, rfl, List.inj_on_of_nodup_map nodup one two same⟩

theorem Agrees.same_arrival (agrees : Agrees session reference) {side other : Side} {price level : Int}
    {first second : Arrived} (one : first ∈ reference.queueAt side price) (two : second ∈ reference.queueAt other level) :
    (session.place first).slot = (session.place second).slot ↔ first.arrival = second.arrival := by
  constructor
  · intro same
    rw [(agrees.place_injective one two same).2.2]
  · intro same
    simp only [Session.place, same]

/-- The book's entry for an order of the reference that still rests. -/
theorem Agrees.live (agrees : Agrees session reference) {arrival : Nat} {order : BookOrder}
    (found : reference.find arrival = some order) :
    session.place ⟨arrival, order⟩ ∈ session.book.queues order.side := by
  have inQueue := LevelBook.find_eq_some agrees.tidy found
  have inLevel : session.place ⟨arrival, order⟩ ∈ session.book.queues.level order.side order.price := by
    rw [agrees.levels]
    exact List.mem_map_of_mem inQueue
  exact List.mem_of_mem_filter inLevel

theorem Agrees.find_of_mem (agrees : Agrees session reference) {side : Side} {price : Int} {entry : Arrived}
    (member : entry ∈ reference.queueAt side price) : reference.find entry.arrival = some entry.order := by
  have inAll : entry ∈ reference.all .buy ++ reference.all .sell := by
    have here : entry ∈ reference.all side := by
      rw [LevelBook.mem_all agrees.tidy, (agrees.tidy.placed side price entry member).2]
      exact member
    cases side
    · exact List.mem_append_left _ here
    · exact List.mem_append_right _ here
  cases found : reference.find entry.arrival with
  | none =>
    simp only [LevelBook.find, Option.map_eq_none_iff, List.find?_eq_none] at found
    simpa using found entry inAll
  | some order =>
    have other := LevelBook.find_eq_some agrees.tidy found
    have same := agrees.place_injective member other ((agrees.same_arrival member other).mpr rfl)
    rw [same.2.2]

theorem Agrees.orderAt (agrees : Agrees session reference) {arrival : Nat} {order : BookOrder}
    (found : reference.find arrival = some order) : session.book.orderAt (session.handleOf arrival) = order := by
  obtain ⟨free, holds⟩ := agrees.wellFormed
  exact holds.stored order.side _ (agrees.live found)

end Views

section Steps
variable {session : Session} {reference : LevelBook}

theorem start_agrees {bandTicks : Nat} (fits : bandTicks ≤ 64 ^ 3) : Agrees (Session.start bandTicks) {} := by
  obtain ⟨wf, queues⟩ := MatchingBook.make_spec fits
  refine ⟨wf, LevelBook.empty_tidy, fun side price => ?_, rfl, fun side price entry member => ?_⟩
  · change (MatchingBook.make bandTicks).queues.level side price = _
    rw [queues]
    cases side <;> rfl
  · cases side <;> simp [LevelBook.queueAt, LevelBook.sideOf] at member

theorem Agrees.add (agrees : Agrees session reference) (order : BookOrder) :
    Agrees (session.apply (.add order)) (reference.add order) := by
  obtain ⟨wf, queues, fresh⟩ := MatchingBook.add_spec agrees.wellFormed order
  obtain ⟨free, holds⟩ := agrees.wellFormed
  have kept : ∀ side price, ∀ entry ∈ reference.queueAt side price,
      (session.apply (.add order)).place entry = session.place entry := by
    intro side price entry member
    have earlier := agrees.arrived side price entry member
    rw [← agrees.counted] at earlier
    simp [Session.place, Session.handleOf, Session.apply, List.getElem?_append_left earlier]
  have placed : (session.apply (.add order)).place ⟨reference.arrivals, order⟩ =
      { slot := (session.book.add order).2.slot, order } := by
    simp [Session.place, Session.handleOf, Session.apply, ← agrees.counted]
  refine ⟨wf, ?_, fun side price => ?_, by simp [Session.apply, LevelBook.add, agrees.counted],
    fun side price entry member => ?_⟩
  · have own : ∀ entry ∈ reference.queueAt order.side order.price ++ [⟨reference.arrivals, order⟩],
        entry.order.side = order.side ∧ entry.price = order.price := by
      intro entry member
      rcases List.mem_append.mp member with member | member
      · exact agrees.tidy.placed _ _ entry member
      · rw [List.mem_singleton.mp member]
        exact ⟨rfl, rfl⟩
    have tidy := agrees.tidy.setQueue own
    exact ⟨tidy.nonempty, tidy.placed⟩
  · change (session.book.add order).1.queues.level side price = _
    rw [queues, LevelBook.queueAt_add, MatchingBook.level_enqueue holds.ordered, agrees.levels]
    split_ifs with here
    · obtain ⟨rfl, rfl⟩ := here
      rw [List.map_append, List.map_singleton, placed]
      exact congrArg (· ++ _) (List.map_congr_left fun entry member => (kept _ _ entry member).symm)
    · rw [List.append_nil]
      exact List.map_congr_left fun entry member => (kept _ _ entry member).symm
  · rw [LevelBook.queueAt_add] at member
    split_ifs at member with here
    · rcases List.mem_append.mp member with member | member
      · exact Nat.lt_succ_of_lt (agrees.arrived _ _ entry member)
      · rw [List.mem_singleton.mp member]
        exact Nat.lt_succ_self _
    · exact Nat.lt_succ_of_lt (agrees.arrived _ _ entry member)

/-- A change of one order's queue on both sides, seen level by level. -/
theorem Agrees.edit (agrees : Agrees session reference) {arrival : Nat} {order : BookOrder} {book : MatchingBook}
    {edit : List Arrived → List Arrived} (found : reference.find arrival = some order) (wf : book.WellFormed)
    (edited : ∀ side price, book.queues.level side price = ((if side = order.side ∧ price = order.price then
      edit (reference.queueAt side price) else reference.queueAt side price)).map session.place)
    (kept : ∀ entry ∈ edit (reference.queueAt order.side order.price),
      ∃ old ∈ reference.queueAt order.side order.price,
        entry.arrival = old.arrival ∧ entry.order.side = old.order.side ∧ entry.price = old.price) :
    Agrees { session with book } (reference.editQueue arrival edit) := by
  have arrivals := reference.editQueue_arrivals arrival edit
  refine ⟨wf, ?_, fun side price => ?_, agrees.counted.trans arrivals.symm, fun side price entry member => ?_⟩
  · unfold LevelBook.editQueue
    rw [found]
    refine agrees.tidy.setQueue fun entry member => ?_
    obtain ⟨old, there, _, sameSide, samePrice⟩ := kept entry member
    rw [sameSide, samePrice]
    exact agrees.tidy.placed _ _ old there
  · rw [LevelBook.queueAt_editQueue found]
    exact edited side price
  · rw [LevelBook.queueAt_editQueue found] at member
    rw [arrivals]
    split_ifs at member with here
    · obtain ⟨rfl, rfl⟩ := here
      obtain ⟨old, there, same, _⟩ := kept entry member
      exact same ▸ agrees.arrived _ _ old there
    · exact agrees.arrived _ _ entry member

theorem Agrees.remove (agrees : Agrees session reference) {arrival : Nat} {order : BookOrder} {book : MatchingBook}
    (found : reference.find arrival = some order) (wf : book.WellFormed)
    (queues : book.queues = session.book.queues.remove (session.handleOf arrival).slot) :
    Agrees { session with book } (reference.remove arrival) := by
  have own := LevelBook.find_eq_some agrees.tidy found
  refine agrees.edit found wf (fun side price => ?_) fun entry member => ?_
  · have same : ∀ entry ∈ reference.queueAt side price,
        (session.place entry).slot = (session.handleOf arrival).slot ↔ entry.arrival = arrival := fun entry member =>
      agrees.same_arrival member own
    rw [queues, MatchingBook.level_remove, agrees.levels, List.filter_map]
    congr 1
    split_ifs with here
    · exact List.filter_congr fun entry member => by simp [same entry member]
    · refine List.filter_eq_self.mpr fun entry member => ?_
      have different : (session.place entry).slot ≠ (session.handleOf arrival).slot := fun equal => by
        obtain ⟨sides, prices, _⟩ := agrees.place_injective member own equal
        exact here ⟨sides, prices⟩
      simpa using different
  · exact ⟨entry, List.mem_of_mem_filter member, rfl, rfl, rfl⟩

theorem Agrees.amend (agrees : Agrees session reference) {arrival : Nat} {order : BookOrder} {book : MatchingBook}
    (found : reference.find arrival = some order) (change : BookOrder → BookOrder)
    (samePrice : ∀ order, (change order).price = order.price) (sameSide : ∀ order, (change order).side = order.side)
    (wf : book.WellFormed)
    (queues : book.queues = session.book.queues.amend (session.handleOf arrival).slot change) :
    Agrees { session with book } (reference.amend arrival change) := by
  have own := LevelBook.find_eq_some agrees.tidy found
  refine agrees.edit found wf (fun side price => ?_) fun entry member => ?_
  · have same : ∀ entry ∈ reference.queueAt side price,
        (session.place entry).slot = (session.handleOf arrival).slot ↔ entry.arrival = arrival := fun entry member =>
      agrees.same_arrival member own
    rw [queues, MatchingBook.level_amend _ _ samePrice, agrees.levels, List.map_map]
    split_ifs with here
    · rw [List.map_map]
      refine List.map_congr_left fun entry member => ?_
      simp only [Function.comp_apply, same entry member]
      split_ifs <;> rfl
    · refine List.map_congr_left fun entry member => ?_
      have different : (session.place entry).slot ≠ (session.handleOf arrival).slot := fun equal => by
        obtain ⟨sides, prices, _⟩ := agrees.place_injective member own equal
        exact here ⟨sides, prices⟩
      simp only [Function.comp_apply, if_neg different]
  · obtain ⟨old, there, rfl⟩ := List.mem_map.mp member
    refine ⟨old, there, ?_⟩
    split_ifs
    · exact ⟨rfl, sameSide _, samePrice _⟩
    · exact ⟨rfl, rfl, rfl⟩

/-- The front of a side is the reference's first order there. -/
theorem Agrees.front (agrees : Agrees session reference) {side : Side} {first : Arrived}
    (front : reference.front side = some first) :
    ∃ rest, session.book.queues side = session.place first :: rest ∧ reference.find first.arrival = some first.order := by
  obtain ⟨rest, contents⟩ := List.head?_eq_some_iff.mp front
  refine ⟨rest.map session.place, by rw [agrees.queues_eq, contents]; rfl, ?_⟩
  exact agrees.find_of_mem ((LevelBook.mem_all agrees.tidy side first).mp (by simp [contents]))

/-- Every allowed operation keeps the two books in step. -/
theorem Agrees.apply (agrees : Agrees session reference) {op : BookOp} (allowed : reference.Allows op) :
    Agrees (session.apply op) (reference.apply op) := by
  cases op with
  | add order => exact agrees.add order
  | removeAt arrival =>
    obtain ⟨order, found⟩ := Option.isSome_iff_exists.mp allowed
    obtain ⟨wf, queues, _⟩ := MatchingBook.removeAt_spec agrees.wellFormed (agrees.live found)
    exact agrees.remove found wf queues
  | reduceAt arrival quantity =>
    obtain ⟨order, found⟩ := Option.isSome_iff_exists.mp allowed
    obtain ⟨wf, queues⟩ := MatchingBook.reduceAt_spec agrees.wellFormed (agrees.live found) quantity
    exact agrees.amend found (fun order => { order with remainingQuantity := quantity })
      (fun _ => rfl) (fun _ => rfl) wf queues
  | setClientOrderIdAt arrival clientOrderId =>
    obtain ⟨order, found⟩ := Option.isSome_iff_exists.mp allowed
    obtain ⟨wf, queues⟩ := MatchingBook.setClientOrderIdAt_spec agrees.wellFormed (agrees.live found) clientOrderId
    exact agrees.amend found (fun order => { order with clientOrderId := clientOrderId })
      (fun _ => rfl) (fun _ => rfl) wf queues
  | reduceFront side quantity =>
    obtain ⟨first, front⟩ := Option.isSome_iff_exists.mp allowed
    obtain ⟨rest, contents, found⟩ := agrees.front front
    obtain ⟨wf, queues⟩ := MatchingBook.reduceFront_spec agrees.wellFormed contents quantity
    have amended := agrees.amend found (fun order => { order with remainingQuantity := quantity })
      (fun _ => rfl) (fun _ => rfl) wf queues
    simpa only [Session.apply, LevelBook.apply, LevelBook.reduceFront, front] using amended
  | removeFront side =>
    obtain ⟨first, front⟩ := Option.isSome_iff_exists.mp allowed
    obtain ⟨rest, contents, found⟩ := agrees.front front
    obtain ⟨wf, queues⟩ := MatchingBook.removeFront_spec agrees.wellFormed contents
    have removed := agrees.remove found wf queues
    simpa only [Session.apply, LevelBook.apply, LevelBook.removeFront, front] using removed

theorem Agrees.run (agrees : Agrees session reference) {ops : List BookOp} (allowed : reference.AllowsAll ops) :
    Agrees (session.run ops) (reference.run ops) := by
  induction ops generalizing session reference with
  | nil => exact agrees
  | cons op rest ih => exact ih (agrees.apply allowed.1) allowed.2

end Steps

section Observations
variable {session : Session} {reference : LevelBook}

/-- Every query of the book answered as the reference answers it. -/
structure Observes (session : Session) (reference : LevelBook) : Prop where
  bestBidPrice : session.book.bestBidPrice = reference.bestPrice .buy
  bestAskPrice : session.book.bestAskPrice = reference.bestPrice .sell
  frontOfBest : ∀ side, session.book.frontOfBest side = (reference.front side).map Arrived.order
  orderAt : ∀ arrival order, reference.find arrival = some order →
    session.book.orderAt (session.handleOf arrival) = order
  removeAt : ∀ arrival order, reference.find arrival = some order →
    (session.book.removeAt (session.handleOf arrival)).2 = order
  allBids : session.book.allBids = (reference.all .buy).map Arrived.order
  allAsks : session.book.allAsks = (reference.all .sell).map Arrived.order
  crossable : ∀ side price quantity, session.book.crossableQuantity side price quantity < quantity ↔
    reference.crossableQuantity side price < quantity
  liveOrderCount : session.book.liveOrderCount = reference.liveOrderCount

theorem Agrees.bestPriceOf (agrees : Agrees session reference) (side : Side) :
    session.book.bestPriceOf side = reference.bestPrice side := by
  obtain ⟨free, holds⟩ := agrees.wellFormed
  rw [holds.bestPriceOf_eq, agrees.queues_eq, agrees.tidy.bestPrice_eq, List.head?_map, Option.map_map]
  rfl

theorem Agrees.allOf (agrees : Agrees session reference) (side : Side) :
    session.book.allOf side = (reference.all side).map Arrived.order := by
  rw [MatchingBook.allOf_eq, agrees.queues_eq, List.map_map]
  rfl

theorem Agrees.crossable (agrees : Agrees session reference) (side : Side) (price : Int) (quantity : Nat) :
    session.book.crossableQuantity side price quantity < quantity ↔
      reference.crossableQuantity side price < quantity := by
  obtain ⟨free, holds⟩ := agrees.wellFormed
  rw [holds.crossableQuantity_eq, MatchingBook.coverFrom_lt_iff, agrees.queues_eq, Nat.zero_add]
  unfold MatchingBook.crossing LevelBook.crossableQuantity
  rw [List.filter_map, List.map_map, List.map_map]
  rfl

theorem Agrees.observes (agrees : Agrees session reference) : Observes session reference where
  bestBidPrice := agrees.bestPriceOf .buy
  bestAskPrice := agrees.bestPriceOf .sell
  frontOfBest side := by
    obtain ⟨free, holds⟩ := agrees.wellFormed
    rw [holds.frontOfBest_eq, agrees.queues_eq, LevelBook.front, List.head?_map, Option.map_map]
    rfl
  orderAt _ _ found := agrees.orderAt found
  removeAt _ _ found := (MatchingBook.removeAt_spec agrees.wellFormed (agrees.live found)).2.2
  allBids := agrees.allOf .buy
  allAsks := agrees.allOf .sell
  crossable := agrees.crossable
  liveOrderCount := by
    obtain ⟨free, holds⟩ := agrees.wellFormed
    refine holds.liveCount.trans ?_
    rw [agrees.queues_eq, agrees.queues_eq, List.length_map, List.length_map]
    rfl

end Observations

/-- The bands the engine can hand out. -/
theorem bandFor_spec (instrumentCount byteBudget : Nat) :
    MatchingBook.bandFor instrumentCount byteBudget = 0 ∨
      ∃ exponent, MatchingBook.bandFor instrumentCount byteBudget = 2 ^ exponent ∧
        MatchingBook.kMinBandTicks ≤ 2 ^ exponent ∧ 2 ^ exponent ≤ MatchingBook.kMaxBandTicks := by
  unfold MatchingBook.bandFor
  split_ifs with none
  · exact Or.inr ⟨13, by decide⟩
  · simp only
    split_ifs with narrow
    · exact Or.inl rfl
    · have wide : MatchingBook.kMinBandTicks ≤ min (byteBudget / instrumentCount / (2 * MatchingBook.levelSlotBytes))
          MatchingBook.kMaxBandTicks := le_min (not_lt.mp narrow) (by decide)
      have nonzero : min (byteBudget / instrumentCount / (2 * MatchingBook.levelSlotBytes))
          MatchingBook.kMaxBandTicks ≠ 0 := fun zero => absurd (zero ▸ wide) (by decide)
      refine Or.inr ⟨_, if_neg nonzero, ?_, (Nat.log2_self_le nonzero).trans (min_le_right _ _)⟩
      have exponent : 10 ≤ (min (byteBudget / instrumentCount / (2 * MatchingBook.levelSlotBytes))
          MatchingBook.kMaxBandTicks).log2 := (Nat.le_log2 nonzero).mpr wide
      have power := Nat.pow_le_pow_right (show 0 < 2 by decide) exponent
      exact power

theorem bandFor_fits (instrumentCount byteBudget : Nat) :
    MatchingBook.bandFor instrumentCount byteBudget ≤ 64 ^ 3 := by
  rcases bandFor_spec instrumentCount byteBudget with zero | ⟨exponent, same, _, bound⟩
  · rw [zero]
    decide
  · rw [same]
    exact bound.trans (by decide)

/-- Whatever the band, a book answers every query as a sorted map of queues would. -/
theorem book_observes_reference (instrumentCount byteBudget : Nat) (ops : List BookOp)
    (allowed : LevelBook.AllowsAll {} ops) :
    Observes ((Session.start (MatchingBook.bandFor instrumentCount byteBudget)).run ops) (LevelBook.run {} ops) :=
  ((start_agrees (bandFor_fits instrumentCount byteBudget)).run allowed).observes

theorem book_observes_reference_laddered :
    let bid : BookOrder := { (default : BookOrder) with price := 100, remainingQuantity := 5 }
    let far : BookOrder := { (default : BookOrder) with price := 90000, remainingQuantity := 2 }
    let ops := [.add bid, .add far, .reduceFront .buy 1, .removeAt 0]
    Observes ((Session.start (MatchingBook.bandFor 1 (8 * 2 ^ 20))).run ops) (LevelBook.run {} ops) :=
  book_observes_reference 1 (8 * 2 ^ 20) _ ⟨trivial, trivial, rfl, rfl, trivial⟩

end Mdh.Matching
