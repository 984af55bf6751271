import Mathlib.Algebra.Order.BigOperators.Group.List
import Mdh.Feed.BookStorage

/-! The stored book after any calls: its index and its levels describe the same orders, its sums
are right in 64 bits, its best prices are the extreme ones, and a call that fails changes
nothing. -/

namespace Mdh.Feed
open Mdh.Core Mdh.Lib

namespace StoredBook

/-- The node rests on a level of the book. -/
def Rests (book : StoredBook) (side : Side) (price : Int) (node : OrderNode) : Prop :=
  ∃ level, (book.levelsOf side).find? price = some level ∧ node ∈ level.orders

/-- An order of the index is on one node, at the place recorded for it, and every node is that of an
order of the index. A level has orders, a price and the sum of them. -/
structure Intact (book : StoredBook) : Prop where
  indexed : ∀ id location, book.orderIndex.lookup id = some location ↔
    ∃ node, book.Rests location.side location.price node ∧ node.address = location.it ∧ node.order.id = id
  once : ∀ side price level, (book.levelsOf side).find? price = some level →
    (level.orders.map fun node => node.order.id).Nodup ∧ (level.orders.map OrderNode.address).Nodup
  nonempty : ∀ side price level, (book.levelsOf side).find? price = some level → level.orders ≠ []
  positive : ∀ side price node, book.Rests side price node → 0 < price ∧ 0 < node.order.quantity
  summed : ∀ side price level, (book.levelsOf side).find? price = some level → level.price = price ∧
    level.aggregateQuantity = (level.orders.map fun node => node.order.quantity).sum % 2 ^ 64

/-- What is shown is the extreme level of a side, and nothing only when there is none. -/
structure ShowsBest (book : StoredBook) (side : Side) (best : Option PriceLevelView) (Extreme : Set Int → Int → Prop) :
    Prop where
  vacant : best = none ↔ ∀ price, (book.levelsOf side).find? price = none
  extreme : ∀ view, best = some view → Extreme {price | ((book.levelsOf side).find? price).isSome} view.price
  level : ∀ view, best = some view → ∃ level, (book.levelsOf side).find? view.price = some level ∧
    view.aggregateQuantity = level.aggregateQuantity ∧ view.orderCount = level.orders.length

/-- The stored book stores a book of orders that have a price and a quantity. -/
structure Mirrors (stored : StoredBook) (book : OrderBook) : Prop where
  stores : stored.Stores book
  lists : ∃ orders, book.Lists orders ∧ ∀ order ∈ orders, 0 < order.price ∧ 0 < order.quantity

section Calls
variable {stored : StoredBook} {book : OrderBook} (allocator : Allocator)

theorem empty_mirrors : ({} : StoredBook).Mirrors {} :=
  ⟨Stores.empty, [], OrderBook.empty_lists, by rintro _ ⟨⟩⟩

theorem Mirrors.insertAt {orders : List ListedOrder} (stores : stored.Stores book) (lists : book.Lists orders)
    (valid : ∀ order ∈ orders, 0 < order.price ∧ 0 < order.quantity) {side : Side} {id : Nat} {price : Int} {quantity : Nat}
    (fresh : id ∉ orders.map ListedOrder.id) (badPrice : ¬ price ≤ 0) (badQuantity : ¬ quantity = 0) :
    (stored.insertAt allocator side id price quantity).Mirrors (book.insertAt side id price quantity) := by
  refine ⟨stores.insertAt allocator side id price quantity, _, lists.insertAt ⟨id, side, price, quantity⟩ fresh, ?_⟩
  intro order member
  rcases List.mem_cons.mp member with rfl | old
  · exact ⟨not_le.mp badPrice, Nat.pos_of_ne_zero badQuantity⟩
  · exact valid order old

/-- The order found in the index leaves the stored book and the book of orders. -/
theorem Mirrors.withdraw (mirrors : stored.Mirrors book) {id : Nat} {location : OrderLocation}
    (found : stored.orderIndex.lookup id = some location) :
    book.orderIndex.lookup id = some { location with it := id } ∧ ∃ orders : List ListedOrder,
      StoredBook.Stores
        { stored.eraseAt location with orderIndex := (stored.eraseAt location).orderIndex.erase id }
        { book.eraseAt { location with it := id } with
          orderIndex := (book.eraseAt { location with it := id }).orderIndex.erase id } ∧
      OrderBook.Lists { book.eraseAt { location with it := id } with
        orderIndex := (book.eraseAt { location with it := id }).orderIndex.erase id } orders ∧
      id ∉ orders.map ListedOrder.id ∧ ∀ order ∈ orders, 0 < order.price ∧ 0 < order.quantity := by
  obtain ⟨orders, lists, valid⟩ := mirrors.lists
  have listed : book.orderIndex.lookup id = some { location with it := id } := by
    rw [mirrors.stores.located, found]
    rfl
  obtain ⟨order, member, rfl, same⟩ := (lists.located _ _).mp listed
  have split := List.perm_cons_erase member
  have lists' := lists.perm split
  have gone := lists'.withdraw
  rw [same] at gone
  refine ⟨listed, orders.erase order, mirrors.stores.withdraw lists found, gone, ?_, fun other left => ?_⟩
  · exact (List.nodup_cons.mp lists'.distinct).1
  · exact valid other (List.mem_of_mem_erase left)

/-- A call does to the stored book what it does to the book of orders, and returns the same. -/
theorem Mirrors.call (mirrors : stored.Mirrors book) (call : BookCall) :
    (stored.call allocator call).1.Mirrors (book.call call).1 ∧ (stored.call allocator call).2 = (book.call call).2 := by
  obtain ⟨orders, lists, valid⟩ := mirrors.lists
  cases call with
  | addOrder id price quantity side =>
    show (stored.addOrder allocator id price quantity side).1.Mirrors (book.addOrder id price quantity side).1 ∧
      (stored.addOrder allocator id price quantity side).2 = (book.addOrder id price quantity side).2
    unfold StoredBook.addOrder OrderBook.addOrder
    simp only [mirrors.stores.mem_index id]
    split_ifs with badPrice badQuantity known
    · exact ⟨mirrors, rfl⟩
    · exact ⟨mirrors, rfl⟩
    · exact ⟨mirrors, rfl⟩
    · exact ⟨Mirrors.insertAt allocator mirrors.stores lists valid (fun among => known ((lists.mem_index id).mpr among)) badPrice
        badQuantity, rfl⟩
  | cancelOrder id =>
    show (stored.cancelOrder id).1.Mirrors (book.cancelOrder id).1 ∧ (stored.cancelOrder id).2 = (book.cancelOrder id).2
    unfold StoredBook.cancelOrder OrderBook.cancelOrder
    cases found : stored.orderIndex.lookup id with
    | none =>
      rw [mirrors.stores.located, found]
      exact ⟨mirrors, rfl⟩
    | some location =>
      obtain ⟨listed, others, stores, gone, _, positive⟩ := mirrors.withdraw found
      rw [listed]
      exact ⟨⟨stores, others, gone, positive⟩, rfl⟩
  | modifyOrder id newPrice newQuantity =>
    show (stored.modifyOrder allocator id newPrice newQuantity).1.Mirrors (book.modifyOrder id newPrice newQuantity).1 ∧
      (stored.modifyOrder allocator id newPrice newQuantity).2 = (book.modifyOrder id newPrice newQuantity).2
    unfold StoredBook.modifyOrder OrderBook.modifyOrder
    split_ifs with badPrice badQuantity
    · exact ⟨mirrors, rfl⟩
    · exact ⟨mirrors, rfl⟩
    · cases found : stored.orderIndex.lookup id with
      | none =>
        rw [mirrors.stores.located, found]
        exact ⟨mirrors, rfl⟩
      | some location =>
        obtain ⟨listed, others, stores, gone, fresh, positive⟩ := mirrors.withdraw found
        rw [listed]
        exact ⟨Mirrors.insertAt allocator stores gone positive fresh badPrice badQuantity, rfl⟩
  | clear => exact ⟨empty_mirrors, rfl⟩

/-- The run: whatever was called, the stored book stores the book of orders. -/
theorem callAll_mirrors (calls : List BookCall) :
    (StoredBook.callAll allocator {} calls).Mirrors (calls.foldl (fun book call => (book.call call).1) {}) := by
  unfold StoredBook.callAll
  induction calls using List.reverseRecOn with
  | nil => exact empty_mirrors
  | append_singleton calls call ih =>
    rw [List.foldl_append, List.foldl_append]
    exact (ih.call allocator call).1

/-- A call that fails leaves the book as it was. -/
theorem call_error (stored : StoredBook) (call : BookCall) (error : (stored.call allocator call).2 ≠ none) :
    (stored.call allocator call).1 = stored := by
  cases call with
  | addOrder id price quantity side =>
    revert error
    show (stored.addOrder allocator id price quantity side).2 ≠ none → (stored.addOrder allocator id price quantity side).1 = stored
    unfold StoredBook.addOrder
    split_ifs
    · exact fun _ => rfl
    · exact fun _ => rfl
    · exact fun _ => rfl
    · exact fun error => absurd rfl error
  | cancelOrder id =>
    revert error
    show (stored.cancelOrder id).2 ≠ none → (stored.cancelOrder id).1 = stored
    unfold StoredBook.cancelOrder
    cases stored.orderIndex.lookup id with
    | none => exact fun _ => rfl
    | some location => exact fun error => absurd rfl error
  | modifyOrder id newPrice newQuantity =>
    revert error
    show (stored.modifyOrder allocator id newPrice newQuantity).2 ≠ none →
      (stored.modifyOrder allocator id newPrice newQuantity).1 = stored
    unfold StoredBook.modifyOrder
    split_ifs
    · exact fun _ => rfl
    · exact fun _ => rfl
    · cases stored.orderIndex.lookup id with
      | none => exact fun _ => rfl
      | some location => exact fun error => absurd rfl error
  | clear => exact absurd rfl error

end Calls

section Facts
variable {stored : StoredBook} {book : OrderBook}

/-- What the level of a price is: its nodes are those of the orders listed there. -/
theorem Mirrors.level (mirrors : stored.Mirrors book) {side : Side} {price : Int} {level : StoredLevel}
    (found : (stored.levelsOf side).find? price = some level) :
    ∃ orders, book.Lists orders ∧ (∀ order ∈ orders, 0 < order.price ∧ 0 < order.quantity) ∧
      (level.orders.map OrderNode.order).Perm (ordersAt orders side price) ∧ ordersAt orders side price ≠ [] ∧
      level.price = price ∧ (level.orders.map OrderNode.address).Nodup ∧
      level.aggregateQuantity = ((ordersAt orders side price).map RestingOrder.quantity).sum % 2 ^ 64 := by
  obtain ⟨orders, lists, valid⟩ := mirrors.lists
  have kept := mirrors.stores.levels side price
  rw [found] at kept
  obtain ⟨shown, same, stores⟩ := some_of_rel kept
  have shows := lists.shows side price
  rw [same] at shows
  obtain ⟨own, filled, queue, total⟩ := shows
  rw [stores.orders] at queue
  exact ⟨orders, lists, valid, queue, filled, stores.price.symm.trans own, stores.distinct, by rw [stores.total, total]⟩

theorem Mirrors.rests (mirrors : stored.Mirrors book) {side : Side} {price : Int} {node : OrderNode}
    (rests : stored.Rests side price node) :
    0 < price ∧ 0 < node.order.quantity ∧ book.orderIndex.lookup node.order.id = some { side, price, it := node.order.id } := by
  obtain ⟨level, found, member⟩ := rests
  obtain ⟨orders, lists, valid, queue, _⟩ := mirrors.level found
  have listed := queue.mem_iff.mp (List.mem_map_of_mem member)
  obtain ⟨order, among, same⟩ := List.mem_map.mp listed
  obtain ⟨inside, here⟩ := List.mem_filter.mp among
  obtain ⟨rfl, rfl⟩ := of_decide_eq_true here
  obtain ⟨price, quantity⟩ := valid order inside
  rw [← same]
  exact ⟨price, quantity, lists.lookup_mem inside⟩

theorem Mirrors.intact (mirrors : stored.Mirrors book) : stored.Intact where
  indexed id location := by
    constructor
    · intro found
      obtain ⟨level, held, node, member, address, named⟩ := mirrors.stores.points id location found
      exact ⟨node, ⟨level, held, member⟩, address, named⟩
    · intro there
      obtain ⟨node, rests, address, named⟩ := there
      have listed := (mirrors.rests rests).2.2
      rw [mirrors.stores.located, named] at listed
      obtain ⟨place, found, same⟩ := Option.map_eq_some_iff.mp listed
      obtain ⟨level, held, other, member, points, own⟩ := mirrors.stores.points id place found
      obtain ⟨sameSide, samePrice, _⟩ := OrderLocation.mk.inj same
      obtain ⟨queue, at_place, inside⟩ := rests
      rw [sameSide, samePrice, at_place] at held
      cases held
      obtain ⟨orders, lists, _, queued, _⟩ := mirrors.level at_place
      have ids : ((level.orders.map OrderNode.order).map RestingOrder.id).Nodup :=
        (queued.map _).nodup_iff.mpr (ordersAt_ids_nodup lists.distinct _ _)
      rw [List.map_map] at ids
      obtain rfl := List.inj_on_of_nodup_map ids member inside (own.trans named.symm)
      rw [found]
      obtain ⟨side, price, it⟩ := location
      obtain ⟨side', price', it'⟩ := place
      cases sameSide
      cases samePrice
      obtain rfl : it' = it := points.symm.trans address
      rfl
  once side price level found := by
    obtain ⟨orders, lists, _, queue, _, _, addresses, _⟩ := mirrors.level found
    have ids : ((level.orders.map OrderNode.order).map RestingOrder.id).Nodup :=
      (queue.map _).nodup_iff.mpr (ordersAt_ids_nodup lists.distinct side price)
    rw [List.map_map] at ids
    exact ⟨ids, addresses⟩
  nonempty side price level found := by
    obtain ⟨orders, _, _, queue, filled, _⟩ := mirrors.level found
    intro empty
    rw [empty] at queue
    exact filled queue.nil_eq.symm
  positive side price node rests := ⟨(mirrors.rests rests).1, (mirrors.rests rests).2.1⟩
  summed side price level found := by
    obtain ⟨orders, _, _, queue, _, own, _, total⟩ := mirrors.level found
    have sums := (queue.map RestingOrder.quantity).sum_nat
    rw [List.map_map] at sums
    exact ⟨own, total.trans (congrArg (· % 2 ^ 64) sums.symm)⟩

theorem bestBid_showsBest (stored : StoredBook) : stored.ShowsBest .buy stored.bestBid IsGreatest := by
  have entry : ∀ view, stored.bestBid = some view → ∃ price level, stored.bids.entries.getLast? = some (price, level) ∧
      viewOf (price, level) = view := by
    intro view best
    obtain ⟨⟨price, level⟩, last, same⟩ := Option.map_eq_some_iff.mp best
    exact ⟨price, level, last, same⟩
  constructor
  · show stored.bids.entries.getLast?.map viewOf = none ↔ ∀ price, stored.bids.find? price = none
    rw [Option.map_eq_none_iff, List.getLast?_eq_none_iff, ← stored.bids.isEmpty_iff]
    exact List.isEmpty_iff.symm
  · intro view best
    obtain ⟨price, level, last, rfl⟩ := entry view best
    have highest : stored.bids.lastKey? = some price := Option.map_eq_some_iff.mpr ⟨_, last, rfl⟩
    exact SortedMap.lastKey?_isGreatest highest
  · intro view best
    obtain ⟨price, level, last, rfl⟩ := entry view best
    exact ⟨level, (SortedMap.find?_eq_some_iff _ _ _).mpr (List.mem_of_getLast? last), rfl, rfl⟩

theorem bestAsk_showsBest (stored : StoredBook) : stored.ShowsBest .sell stored.bestAsk IsLeast := by
  have entry : ∀ view, stored.bestAsk = some view → ∃ price level, stored.asks.entries.head? = some (price, level) ∧
      viewOf (price, level) = view := by
    intro view best
    obtain ⟨⟨price, level⟩, first, same⟩ := Option.map_eq_some_iff.mp best
    exact ⟨price, level, first, same⟩
  constructor
  · show stored.asks.entries.head?.map viewOf = none ↔ ∀ price, stored.asks.find? price = none
    rw [Option.map_eq_none_iff, List.head?_eq_none_iff, ← stored.asks.isEmpty_iff]
    exact List.isEmpty_iff.symm
  · intro view best
    obtain ⟨price, level, first, rfl⟩ := entry view best
    have lowest : stored.asks.firstKey? = some price := Option.map_eq_some_iff.mpr ⟨_, first, rfl⟩
    exact SortedMap.firstKey?_isLeast lowest
  · intro view best
    obtain ⟨price, level, first, rfl⟩ := entry view best
    exact ⟨level, (SortedMap.find?_eq_some_iff _ _ _).mpr (List.mem_of_head? first), rfl, rfl⟩

end Facts

/-- After any calls the book is intact and shows its best prices, and the next call changes nothing
if it fails. -/
theorem callAll_intact (allocator : Allocator) (calls : List BookCall) :
    let book := StoredBook.callAll allocator {} calls
    book.Intact ∧ book.ShowsBest .buy book.bestBid IsGreatest ∧ book.ShowsBest .sell book.bestAsk IsLeast ∧
      ∀ call, (book.call allocator call).2 ≠ none → (book.call allocator call).1 = book :=
  ⟨(callAll_mirrors allocator calls).intact, bestBid_showsBest _, bestAsk_showsBest _, call_error allocator _⟩

theorem not_mem_of_sum_lt (used : List Nat) : used.sum + 1 ∉ used := fun member =>
  absurd (List.le_sum_of_mem member) (Nat.not_succ_le_self _)

/-- Behind every node there is. -/
def freshNode : Allocator where
  allocate used := used.sum + 1
  fresh := not_mem_of_sum_lt

/-- Two bids of which one moves down, and a cancel of an order that is not there. -/
theorem callAll_intact_moved :
    let book := StoredBook.callAll freshNode {} [.addOrder 1 101 5 .buy, .addOrder 2 101 7 .buy, .modifyOrder 1 99 4]
    book.Intact ∧ book.bestBid = some { price := 101, aggregateQuantity := 7, orderCount := 1 } ∧
      (book.call freshNode (.cancelOrder 9)).1 = book := by
  obtain ⟨intact, _, _, unchanged⟩ :=
    callAll_intact freshNode [.addOrder 1 101 5 .buy, .addOrder 2 101 7 .buy, .modifyOrder 1 99 4]
  exact ⟨intact, by decide +kernel, unchanged (.cancelOrder 9) (by decide +kernel)⟩

end StoredBook

end Mdh.Feed
