import Mdh.Feed.SnapshotRecovery

/-! A book written to a snapshot and read back is the same book: the entries go out level by level
and in queue order, and adding them one after the other builds every queue again. -/

namespace Mdh.Feed
open Mdh.Core Mdh.Lib Mdh.Lib.KeyedStore

/-- The order an entry puts into a queue. -/
def AddOrder.resting (add : AddOrder) : RestingOrder where
  id := add.orderId
  quantity := add.quantity

def OrderView.resting (view : OrderView) : RestingOrder where
  id := view.orderId
  quantity := view.quantity

namespace OrderBook

/-- The queue at a price, which is empty where there is no level. -/
def queueAt (book : OrderBook) (side : Side) (price : Int) : List RestingOrder :=
  (((book.levelsOf side).find? price).map PriceLevel.orders).getD []

/-- The same levels with the same queues and sums on both sides, and the same index. -/
structure Same (first second : OrderBook) : Prop where
  bids : first.bids = second.bids
  asks : first.asks = second.asks
  index : ∀ id, first.orderIndex.lookup id = second.orderIndex.lookup id

section Queues
variable {book : OrderBook} {orders : List ListedOrder}

theorem queueAt_insertAt (side other : Side) (id : Nat) (price there : Int) (quantity : Nat) :
    (book.insertAt side id price quantity).queueAt other there =
      if other = side ∧ there = price then book.queueAt other there ++ [⟨id, quantity⟩] else book.queueAt other there := by
  unfold queueAt
  rw [find?_insertAt]
  split_ifs with here
  · rw [here.1, here.2]
    cases (book.levelsOf side).find? price <;> rfl
  · rfl

/-- A level is its queue. -/
theorem Lists.level_eq (lists : book.Lists orders) (side : Side) (price : Int) :
    (book.levelsOf side).find? price = if book.queueAt side price = [] then none else
      some { price, orders := book.queueAt side price
             aggregateQuantity := ((book.queueAt side price).map RestingOrder.quantity).sum } := by
  have shows := lists.shows side price
  unfold queueAt
  cases found : (book.levelsOf side).find? price with
  | none => rfl
  | some level =>
    rw [found] at shows
    obtain ⟨own, filled, queue, total⟩ := shows
    have some : level.orders ≠ [] := fun empty => filled (empty ▸ queue).nil_eq.symm
    dsimp only [Option.map_some, Option.getD_some]
    rw [if_neg some, (queue.map RestingOrder.quantity).sum_nat, ← total, ← own]

/-- Books that hold the same orders in the same queues are the same. -/
theorem Holds.same {first second : OrderBook} {cells : Nat → OrderCell} (one : first.Holds cells) (two : second.Holds cells)
    (queues : ∀ side price, first.queueAt side price = second.queueAt side price) : first.Same second := by
  obtain ⟨orders, lists, held⟩ := one
  obtain ⟨others, otherLists, otherHeld⟩ := two
  have levels (side : Side) : first.levelsOf side = second.levelsOf side :=
    SortedMap.ext_find? fun price => by rw [lists.level_eq, otherLists.level_eq, queues]
  refine ⟨levels .buy, levels .sell, fun id => Option.ext fun location => ?_⟩
  rw [lists.located, otherLists.located]
  simp only [held, otherHeld]

end Queues

section Views
variable {levels : List (Int × PriceLevel)} {price : Int}

theorem viewLevels_absent (absent : ∀ entry ∈ levels, entry.1 ≠ price) :
    (viewLevels levels).filter (fun view => view.price = price) = [] := by
  rw [List.filter_eq_nil_iff]
  intro view member here
  obtain ⟨entry, inside, queued⟩ := List.mem_flatMap.mp member
  obtain ⟨order, _, rfl⟩ := List.mem_map.mp queued
  exact absent entry inside (of_decide_eq_true here)

/-- What is shown at a price is the queue there, in its order. -/
theorem viewLevels_at (distinct : (levels.map Prod.fst).Nodup) {level : PriceLevel} (inside : (price, level) ∈ levels) :
    ((viewLevels levels).filter (fun view => view.price = price)).map OrderView.resting = level.orders := by
  obtain ⟨front, back, rfl⟩ := List.append_of_mem inside
  rw [List.map_append, List.map_cons, List.nodup_append, List.nodup_cons] at distinct
  obtain ⟨_, ⟨behind, _⟩, apart⟩ := distinct
  have before : (viewLevels front).filter (fun view => view.price = price) = [] :=
    viewLevels_absent fun entry member => apart _ (List.mem_map_of_mem member) _ List.mem_cons_self
  have after : (viewLevels back).filter (fun view => view.price = price) = [] :=
    viewLevels_absent fun entry member same => behind (List.mem_map.mpr ⟨entry, member, same⟩)
  have split : viewLevels (front ++ (price, level) :: back) = viewLevels front ++
      (level.orders.map fun order => { orderId := order.id, price, quantity := order.quantity }) ++ viewLevels back := by
    unfold viewLevels
    rw [List.flatMap_append, List.flatMap_cons, List.append_assoc]
  have here : (level.orders.map fun order => ({ orderId := order.id, price, quantity := order.quantity } : OrderView)).filter
      (fun view => view.price = price) = level.orders.map fun order =>
        { orderId := order.id, price, quantity := order.quantity } := by
    rw [List.filter_eq_self]
    intro view member
    obtain ⟨order, _, rfl⟩ := List.mem_map.mp member
    exact decide_eq_true rfl
  rw [split, List.filter_append, List.filter_append, before, after, here, List.nil_append, List.append_nil, List.map_map]
  exact List.map_id _

end Views

/-- What a side of the book shows at a price is the queue there. -/
theorem allOn_at (book : OrderBook) (side : Side) (price : Int) :
    ((book.allOn side).filter (fun view => view.price = price)).map OrderView.resting = book.queueAt side price := by
  have distinct : (((book.levelsOf side).entries).map Prod.fst).Nodup := by
    rw [List.nodup_iff_pairwise_ne, List.pairwise_map]
    exact (book.levelsOf side).ascending.imp fun below => below.ne
  have shown : ∃ levels, book.allOn side = viewLevels levels ∧ (levels.map Prod.fst).Nodup ∧
      ∀ entry, entry ∈ levels ↔ entry ∈ (book.levelsOf side).entries := by
    cases side with
    | buy =>
      refine ⟨book.bids.entries.reverse, rfl, ?_, fun entry => List.mem_reverse⟩
      rw [List.map_reverse, List.nodup_reverse]
      exact distinct
    | sell => exact ⟨book.asks.entries, rfl, distinct, fun _ => Iff.rfl⟩
  obtain ⟨levels, same, distinct, members⟩ := shown
  rw [same]
  unfold queueAt
  cases found : (book.levelsOf side).find? price with
  | none =>
    rw [viewLevels_absent]
    · rfl
    · intro entry inside here
      have held := (SortedMap.find?_eq_some_iff (book.levelsOf side) entry.1 entry.2).mpr ((members entry).mp inside)
      rw [here, found] at held
      cases held
  | some level =>
    exact viewLevels_at distinct ((members _).mpr ((SortedMap.find?_eq_some_iff _ _ _).mp found))

end OrderBook

section Adds
variable {books : BookManager} {cells : InstrumentId → Nat → OrderCell}

/-- Orders that are added go to the back of their queues, one after the other. -/
theorem queueAt_adds (holds : books.Holds cells) (adds : List AddOrder)
    (valid : ∀ add ∈ adds, 0 < add.price ∧ add.quantity ≠ 0) (distinct : (adds.map AddOrder.key).Nodup)
    (fresh : ∀ add ∈ adds, cells add.instrumentId add.orderId = none) (stats : ReplayStats) (id : InstrumentId)
    (side : Side) (price : Int) :
    ((applyAll (adds.map .addOrder) books stats).1.bookFor id).queueAt side price =
      (books.bookFor id).queueAt side price ++
        (adds.filter fun add => add.instrumentId = id ∧ add.side = side ∧ add.price = price).map AddOrder.resting := by
  induction adds generalizing books cells stats with
  | nil => exact (List.append_nil _).symm
  | cons add rest ih =>
    obtain ⟨different, others⟩ := List.nodup_cons.mp distinct
    obtain ⟨positive, some⟩ := valid add List.mem_cons_self
    have absent : add.orderId ∉ (books.bookFor add.instrumentId).orderIndex := by
      rw [(holds add.instrumentId).mem_index, not_not]
      exact fresh add List.mem_cons_self
    have added : (applyEvent (.addOrder add) books stats).1 = (books.onBook add.instrumentId fun book =>
      book.addOrder add.orderId add.price add.quantity add.side).1 := rfl
    have apart : ∀ other ∈ rest, ((effectOn other.instrumentId other.orderId (.addOrder add)).apply
        (cells other.instrumentId other.orderId)) = none := by
      intro other among
      rw [effectOn, if_neg fun both => different (List.mem_map.mpr ⟨other, among, Prod.ext both.1.symm both.2.1.symm⟩)]
      exact fresh other (List.mem_cons_of_mem _ among)
    rw [List.map_cons, applyAll_cons, ih (holds.apply (.addOrder add) stats).1
      (fun other among => valid other (List.mem_cons_of_mem _ among)) others apart, added, bookFor_onBook, List.filter_cons]
    unfold OrderBook.addOrder
    by_cases here : id = add.instrumentId
    · rw [if_pos here, if_neg (not_le.mpr positive), if_neg some, if_neg absent, OrderBook.queueAt_insertAt]
      by_cases level : side = add.side ∧ price = add.price
      · rw [if_pos level, if_pos (decide_eq_true ⟨here.symm, level.1.symm, level.2.symm⟩), List.map_cons,
          List.append_assoc, here]
        rfl
      · rw [if_neg level, here, if_neg]
        exact fun both => level ⟨(of_decide_eq_true both).2.1.symm, (of_decide_eq_true both).2.2.symm⟩
    · rw [if_neg here, if_neg]
      exact fun both => here (of_decide_eq_true both).1.symm

end Adds

section Snapshots
variable {books : BookManager} {cells : InstrumentId → Nat → OrderCell} {sequenceNumber : Nat}

/-- What is chosen from a list of lists, where only one list has any of it. -/
theorem filter_flatMap_one {α β : Type} [DecidableEq α] {keys : List α} (distinct : keys.Nodup) {items : α → List β}
    {chosen : β → Bool} {key : α} (others : ∀ other ≠ key, (items other).filter chosen = []) :
    (keys.flatMap items).filter chosen = if key ∈ keys then (items key).filter chosen else [] := by
  induction keys with
  | nil => rfl
  | cons first rest ih =>
    obtain ⟨new, distinct⟩ := List.nodup_cons.mp distinct
    rw [List.flatMap_cons, List.filter_append, ih distinct]
    by_cases same : key = first
    · rw [if_neg (same ▸ new), if_pos (same ▸ List.mem_cons_self), same, List.append_nil]
    · rw [others first (Ne.symm same), List.nil_append]
      simp only [List.mem_cons, same, false_or]

/-- The entries of a level are its queue. -/
theorem ordersOf_at (id : InstrumentId) (side : Side) (price : Int) :
    ((ordersOf sequenceNumber books id).filter fun add => add.instrumentId = id ∧ add.side = side ∧ add.price = price).map
      AddOrder.resting = (books.bookFor id).queueAt side price := by
  have part (of : Side) (views : List OrderView) : ((views.map (entryOrder sequenceNumber id of)).filter fun add =>
      add.instrumentId = id ∧ add.side = side ∧ add.price = price).map AddOrder.resting =
        if of = side then (views.filter fun view => view.price = price).map OrderView.resting else [] := by
    rw [List.filter_map, List.map_map]
    by_cases same : of = side
    · rw [if_pos same]
      have chosen : ((fun add : AddOrder => decide (add.instrumentId = id ∧ add.side = side ∧ add.price = price)) ∘
          entryOrder sequenceNumber id of) = fun view => decide (view.price = price) := by
        funext view
        exact decide_eq_decide.mpr ⟨fun both => both.2.2, fun here => ⟨rfl, same, here⟩⟩
      rw [chosen]
      rfl
    · rw [if_neg same, List.filter_eq_nil_iff.mpr]
      · rfl
      · exact fun view _ here => same (of_decide_eq_true here).2.1
  unfold ordersOf
  rw [List.filter_append, List.map_append, part, part]
  cases side with
  | buy => exact (List.append_nil _).trans ((books.bookFor id).allOn_at .buy price)
  | sell => exact (books.bookFor id).allOn_at .sell price

theorem instruments_nodup (books : BookManager) : books.instruments.Nodup := by
  unfold BookManager.instruments
  exact (List.perm_insertionSort (· ≤ ·) _).nodup_iff.mpr (List.nodup_dedup _)

/-- The entries of a snapshot for a level are its queue. -/
theorem snapshotOrders_at (holds : books.Holds cells) (id : InstrumentId) (side : Side) (price : Int) :
    ((snapshotOrders sequenceNumber books).filter fun add =>
      add.instrumentId = id ∧ add.side = side ∧ add.price = price).map AddOrder.resting =
        (books.bookFor id).queueAt side price := by
  have others : ∀ other ≠ id, ((ordersOf sequenceNumber books other).filter fun add =>
      add.instrumentId = id ∧ add.side = side ∧ add.price = price) = [] := by
    intro other different
    rw [List.filter_eq_nil_iff]
    intro add among here
    exact different (((mem_ordersOf holds).mp among).2.2.1.symm.trans (of_decide_eq_true here).1)
  unfold snapshotOrders
  rw [filter_flatMap_one (instruments_nodup books) others]
  split_ifs with known
  · exact ordersOf_at id side price
  · have queue := @ordersOf_at books sequenceNumber id side price
    have none : ordersOf sequenceNumber books id = [] := by
      refine List.eq_nil_iff_forall_not_mem.mpr fun add among => known ?_
      obtain ⟨_, _, rfl, held⟩ := (mem_ordersOf holds).mp among
      have full : cells add.instrumentId add.orderId ≠ none := by
        rw [held]
        rintro ⟨⟩
      exact mem_instruments holds full
    rw [none] at queue
    exact queue

end Snapshots

/-- How many orders rest in all the books. -/
def BookManager.orderCount (books : BookManager) : Nat :=
  (books.instruments.map fun id => ((books.bookFor id).allBids ++ (books.bookFor id).allAsks).length).sum

theorem snapshotOrders_count (books : BookManager) (sequenceNumber : Nat) :
    (snapshotOrders sequenceNumber books).length = books.orderCount := by
  unfold snapshotOrders BookManager.orderCount ordersOf
  rw [List.length_flatMap]
  congr 1
  refine List.map_congr_left fun id _ => ?_
  rw [List.length_append, List.length_append, List.length_map, List.length_map]
  rfl

/-- Whatever was applied to the books, a snapshot of them is read back as the books they were. The
file counts the orders in 64 bits, which is more of them than a memory holds. -/
theorem snapshot_roundTrip {events : List WireEvent} (fits : ∀ event ∈ events, event.Representable)
    {sequenceNumber : Nat} (numberFits : sequenceNumber < 2 ^ 64)
    (countFits : (applyAll events {} {}).1.orderCount < 2 ^ 64) :
    ∃ loaded, readSnapshot (writeSnapshot sequenceNumber (applyAll events {} {}).1) =
        some { sequenceNumber, books := loaded } ∧
      ∀ id, (loaded.bookFor id).Same ((applyAll events {} {}).1.bookFor id) := by
  have holds := BookManager.Holds.applyAll start_holds events {}
  have wellformed : ∀ id orderId, Wellformed id orderId (CellEffect.applyAll (effectsOn id orderId events) none) :=
    fun id orderId => effectsOn_wellformed fits (by rintro _ _ _ ⟨⟩)
  rw [← snapshotOrders_count _ sequenceNumber] at countFits
  obtain ⟨loaded, read, held⟩ := readSnapshot_write holds wellformed numberFits countFits
  refine ⟨loaded, read, fun id => (held id).same (holds id) fun side price => ?_⟩
  rw [readSnapshot_written holds wellformed numberFits countFits] at read
  obtain ⟨_, rfl⟩ := SnapshotLoadResult.mk.inj (Option.some.inj read)
  have agree := snapshotOrders_agree holds wellformed numberFits
  rw [queueAt_adds start_holds _ (fun add among => ⟨(agree add among).1.1, (agree add among).1.2.1⟩)
    (snapshotOrders_nodup holds sequenceNumber) fun _ _ => rfl, snapshotOrders_at holds]
  cases side <;> rfl

/-- Two bids at one price, of which the first is queued again behind the second, and an order the
book turns away. -/
def requeued : List WireEvent := [
  .addOrder { sequenceNumber := 1, timestamp := 0, orderId := 1, instrumentId := 7, price := 101, quantity := 5, side := .buy },
  .addOrder { sequenceNumber := 2, timestamp := 0, orderId := 2, instrumentId := 7, price := 101, quantity := 6, side := .buy },
  .modifyOrder { sequenceNumber := 3, timestamp := 0, orderId := 1, instrumentId := 7, newPrice := 101, newQuantity := 4 },
  .addOrder { sequenceNumber := 4, timestamp := 0, orderId := 2, instrumentId := 7, price := 99, quantity := 6, side := .sell }]

theorem snapshot_roundTrip_requeued :
    ∃ loaded, readSnapshot (writeSnapshot 4 (applyAll requeued {} {}).1) = some { sequenceNumber := 4, books := loaded } ∧
      ∀ id, (loaded.bookFor id).Same ((applyAll requeued {} {}).1.bookFor id) :=
  snapshot_roundTrip (by decide) (by decide) (by decide +kernel)

end Mdh.Feed
