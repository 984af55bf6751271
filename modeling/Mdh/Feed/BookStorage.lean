import Mdh.Core.ByteIo
import Mdh.Feed.BookCells

/-! The book as it is stored: a level is a list of nodes, the index points at nodes, and sums are
kept in 64 bits. What the book does with orders, the stored book does with the nodes of the same
orders. -/

namespace Mdh.Feed
open Mdh.Core Mdh.Lib

/-- A node of a list. It keeps its address until it is erased. -/
structure OrderNode where
  address : Nat
  order : RestingOrder
  deriving DecidableEq, Repr

/-- Where a list puts a new node: not on one that is still there. -/
structure Allocator where
  allocate : List Nat → Nat
  fresh : ∀ used, allocate used ∉ used

structure StoredLevel where
  price : Int
  orders : List OrderNode := []
  aggregateQuantity : Nat := 0
  deriving DecidableEq, Repr

namespace StoredLevel

/-- `push_back`. The iterator is the address of the new node. -/
def add (level : StoredLevel) (address id quantity : Nat) : StoredLevel :=
  { level with
    orders := level.orders ++ [{ address, order := { id, quantity } }]
    aggregateQuantity := ByteIo.toUnsigned (level.aggregateQuantity + quantity) }

def remove (level : StoredLevel) (it : Nat) : StoredLevel :=
  let quantity := ((level.orders.find? (·.address = it)).map fun node => node.order.quantity).getD 0
  { level with
    orders := level.orders.eraseP (·.address = it)
    aggregateQuantity := ByteIo.toUnsigned (level.aggregateQuantity - quantity) }

end StoredLevel

structure PriceLevelView where
  price : Int
  aggregateQuantity : Nat
  orderCount : Nat
  deriving DecidableEq, Repr

structure StoredBook where
  bids : SortedMap Int StoredLevel := SortedMap.empty
  asks : SortedMap Int StoredLevel := SortedMap.empty
  orderIndex : AList fun _ : Nat => OrderLocation := ∅

/-- A call that changes a book. -/
inductive BookCall where
  | addOrder (id : Nat) (price : Int) (quantity : Nat) (side : Side)
  | cancelOrder (id : Nat)
  | modifyOrder (id : Nat) (newPrice : Int) (newQuantity : Nat)
  | clear
  deriving DecidableEq, Repr

namespace StoredBook

def levelsOf (book : StoredBook) : Side → SortedMap Int StoredLevel
  | .buy => book.bids
  | .sell => book.asks

def setLevels (book : StoredBook) (side : Side) (levels : SortedMap Int StoredLevel) : StoredBook :=
  match side with
  | .buy => { book with bids := levels }
  | .sell => { book with asks := levels }

/-- The addresses of all the nodes there are. -/
def addresses (book : StoredBook) : List Nat :=
  (book.bids.entries ++ book.asks.entries).flatMap fun entry => entry.2.orders.map OrderNode.address

section Calls
variable (allocator : Allocator) (book : StoredBook)

def insertAt (side : Side) (id : Nat) (price : Int) (quantity : Nat) : StoredBook :=
  let levels := book.levelsOf side
  let level := (levels.find? price).getD { price }
  let address := allocator.allocate book.addresses
  let book := book.setLevels side (levels.insert price (level.add address id quantity))
  { book with orderIndex := book.orderIndex.insert id { side, price, it := address } }

def eraseAt (location : OrderLocation) : StoredBook :=
  let levels := book.levelsOf location.side
  let level := ((levels.find? location.price).getD { price := location.price }).remove location.it
  book.setLevels location.side
    (if level.orders.isEmpty then levels.erase location.price else levels.insert location.price level)

def addOrder (id : Nat) (price : Int) (quantity : Nat) (side : Side) : StoredBook × Option BookError :=
  if price ≤ 0 then (book, some .invalidPrice)
  else if quantity = 0 then (book, some .invalidQuantity)
  else if id ∈ book.orderIndex then (book, some .duplicateOrderId)
  else (book.insertAt allocator side id price quantity, none)

def cancelOrder (id : Nat) : StoredBook × Option BookError :=
  match book.orderIndex.lookup id with
  | none => (book, some .unknownOrderId)
  | some location =>
      let book := book.eraseAt location
      ({ book with orderIndex := book.orderIndex.erase id }, none)

def modifyOrder (id : Nat) (newPrice : Int) (newQuantity : Nat) : StoredBook × Option BookError :=
  if newPrice ≤ 0 then (book, some .invalidPrice)
  else if newQuantity = 0 then (book, some .invalidQuantity)
  else
    match book.orderIndex.lookup id with
    | none => (book, some .unknownOrderId)
    | some location =>
        let book := book.eraseAt location
        let book := { book with orderIndex := book.orderIndex.erase id }
        (book.insertAt allocator location.side id newPrice newQuantity, none)

def clear (_ : StoredBook) : StoredBook := {}

def call : BookCall → StoredBook × Option BookError
  | .addOrder id price quantity side => book.addOrder allocator id price quantity side
  | .cancelOrder id => book.cancelOrder id
  | .modifyOrder id newPrice newQuantity => book.modifyOrder allocator id newPrice newQuantity
  | .clear => (book.clear, none)

/-- One call after the other. What they return is not looked at. -/
def callAll (calls : List BookCall) : StoredBook := calls.foldl (fun book call => (book.call allocator call).1) book

end Calls

def viewOf (entry : Int × StoredLevel) : PriceLevelView where
  price := entry.1
  aggregateQuantity := entry.2.aggregateQuantity
  orderCount := entry.2.orders.length

/-- The bids are kept with the highest first. -/
def bestBid (book : StoredBook) : Option PriceLevelView := book.bids.entries.getLast?.map viewOf

def bestAsk (book : StoredBook) : Option PriceLevelView := book.asks.entries.head?.map viewOf

end StoredBook

/-- The call on the book of orders. -/
def OrderBook.call (book : OrderBook) : BookCall → OrderBook × Option BookError
  | .addOrder id price quantity side => book.addOrder id price quantity side
  | .cancelOrder id => book.cancelOrder id
  | .modifyOrder id newPrice newQuantity => book.modifyOrder id newPrice newQuantity
  | .clear => (book.clear, none)

/-- The nodes of a stored level are those of the orders of a level, each in a place of its own, and
the sum is what 64 bits keep of the level's. -/
structure StoredLevel.Stores (stored : StoredLevel) (level : PriceLevel) : Prop where
  price : level.price = stored.price
  orders : level.orders = stored.orders.map OrderNode.order
  total : stored.aggregateQuantity = level.aggregateQuantity % 2 ^ 64
  distinct : (stored.orders.map OrderNode.address).Nodup

/-- The stored book has the levels of the book, and its index points at the nodes of the orders. -/
structure StoredBook.Stores (stored : StoredBook) (book : OrderBook) : Prop where
  levels : ∀ side price, Option.Rel StoredLevel.Stores ((stored.levelsOf side).find? price) ((book.levelsOf side).find? price)
  located : ∀ id, book.orderIndex.lookup id = (stored.orderIndex.lookup id).map fun location => { location with it := id }
  points : ∀ id location, stored.orderIndex.lookup id = some location →
    ∃ level, (stored.levelsOf location.side).find? location.price = some level ∧
      ∃ node ∈ level.orders, node.address = location.it ∧ node.order.id = id

namespace StoredLevel
variable {stored : StoredLevel} {level : PriceLevel}

theorem Stores.add (stores : stored.Stores level) (id quantity : Nat) {address : Nat}
    (fresh : address ∉ stored.orders.map OrderNode.address) :
    (stored.add address id quantity).Stores (level.add id quantity) where
  price := stores.price
  orders := by
    show level.orders ++ _ = (stored.orders ++ _).map OrderNode.order
    rw [stores.orders, List.map_append]
    rfl
  total := by
    show ByteIo.toUnsigned ((stored.aggregateQuantity : Int) + quantity) = (level.aggregateQuantity + quantity) % 2 ^ 64
    rw [stores.total]
    unfold ByteIo.toUnsigned
    omega
  distinct := by
    show ((stored.orders ++ _).map OrderNode.address).Nodup
    rw [List.map_append, List.nodup_append]
    refine ⟨stores.distinct, List.nodup_singleton _, fun other member last final => ?_⟩
    obtain rfl := List.mem_singleton.mp final
    exact fun same => fresh (same ▸ member)

/-- The node an iterator points at is the one of its order, so both removals take the same. -/
theorem Stores.remove (stores : stored.Stores level) (ids : (level.orders.map RestingOrder.id).Nodup) {node : OrderNode}
    (member : node ∈ stored.orders) (sums : level.aggregateQuantity = (level.orders.map RestingOrder.quantity).sum) :
    (stored.remove node.address).Stores (level.remove node.order.id) := by
  obtain ⟨front, back, split⟩ := List.append_of_mem member
  have addresses := stores.distinct
  have orders := stores.orders
  rw [split, List.map_append, List.map_cons] at addresses orders
  rw [orders, List.map_append, List.map_cons] at ids sums
  have before : ∀ other ∈ front, other.address ≠ node.address := by
    intro other there same
    exact (List.nodup_append.mp addresses).2.2 _ (List.mem_map_of_mem there) _ List.mem_cons_self same
  have earlier : ∀ other ∈ front.map OrderNode.order, other.id ≠ node.order.id := by
    intro other there same
    exact (List.nodup_append.mp ids).2.2 _ (List.mem_map_of_mem there) _ List.mem_cons_self same
  have erased : stored.orders.eraseP (·.address = node.address) = front ++ back := by
    rw [split, List.eraseP_append_right _ fun other there => by simpa using before other there]
    simp
  have taken : level.orders.eraseP (·.id = node.order.id) = (front ++ back).map OrderNode.order := by
    rw [orders, List.eraseP_append_right _ fun other there => by simpa using earlier other there, List.map_append]
    simp
  have found : stored.orders.find? (·.address = node.address) = some node := by
    rw [split, List.find?_append, List.find?_eq_none.mpr fun other there => by simpa using before other there]
    simp
  have named : level.orders.find? (·.id = node.order.id) = some node.order := by
    rw [orders, List.find?_append, List.find?_eq_none.mpr fun other there => by simpa using earlier other there]
    simp
  constructor
  · exact stores.price
  · show level.orders.eraseP _ = (stored.orders.eraseP _).map _
    rw [erased, taken]
  · show ByteIo.toUnsigned (_ - _) = (level.aggregateQuantity - _) % 2 ^ 64
    rw [found, named, stores.total]
    simp only [Option.map_some, Option.getD_some]
    have enough : node.order.quantity ≤ level.aggregateQuantity := by
      rw [sums, List.sum_append, List.sum_cons]
      omega
    unfold ByteIo.toUnsigned
    omega
  · show ((stored.orders.eraseP _).map _).Nodup
    rw [erased, List.map_append]
    exact addresses.sublist (List.Sublist.append_left (List.sublist_cons_self ..) _)

end StoredLevel

namespace StoredBook
variable {stored : StoredBook} {book : OrderBook}

theorem levelsOf_setLevels (side other : Side) (levels : SortedMap Int StoredLevel) :
    (stored.setLevels side levels).levelsOf other = if other = side then levels else stored.levelsOf other := by
  cases side <;> cases other <;> rfl

theorem orderIndex_setLevels (side : Side) (levels : SortedMap Int StoredLevel) :
    (stored.setLevels side levels).orderIndex = stored.orderIndex := by
  cases side <;> rfl

theorem mem_addresses {side : Side} {price : Int} {level : StoredLevel} {node : OrderNode}
    (found : (stored.levelsOf side).find? price = some level) (member : node ∈ level.orders) :
    node.address ∈ stored.addresses := by
  have entry := (SortedMap.find?_eq_some_iff _ _ _).mp found
  refine List.mem_flatMap.mpr ⟨(price, level), List.mem_append.mpr ?_, List.mem_map_of_mem member⟩
  cases side with
  | buy => exact Or.inl entry
  | sell => exact Or.inr entry

/-- Only the level the node was on changes, and it goes when it is empty. -/
theorem find?_eraseAt (location : OrderLocation) (side : Side) (price : Int) :
    ((stored.eraseAt location).levelsOf side).find? price =
      if side = location.side ∧ price = location.price then
        let level := (((stored.levelsOf location.side).find? location.price).getD { price := location.price }).remove
          location.it
        if level.orders.isEmpty then none else some level
      else (stored.levelsOf side).find? price := by
  unfold eraseAt
  simp only [levelsOf_setLevels]
  generalize (((stored.levelsOf location.side).find? location.price).getD { price := location.price }).remove
    location.it = level
  by_cases sameSide : side = location.side
  · rw [sameSide]
    cases level.orders.isEmpty with
    | true =>
      simp only [if_true, true_and]
      exact SortedMap.find?_erase _ _ _
    | false =>
      simp only [if_true, true_and, Bool.false_eq_true, if_false]
      exact SortedMap.find?_insert _ _ _ _
  · simp only [sameSide, false_and, if_false]

theorem find?_insertAt (allocator : Allocator) (side other : Side) (id : Nat) (price there : Int) (quantity : Nat) :
    ((stored.insertAt allocator side id price quantity).levelsOf other).find? there =
      if other = side ∧ there = price then
        some ((((stored.levelsOf side).find? price).getD { price }).add (allocator.allocate stored.addresses) id quantity)
      else (stored.levelsOf other).find? there := by
  show (((stored.setLevels side _).levelsOf other).find? there) = _
  rw [levelsOf_setLevels]
  by_cases sameSide : other = side
  · rw [if_pos sameSide, SortedMap.find?_insert, sameSide]
    simp only [true_and]
  · rw [if_neg sameSide, if_neg fun both => sameSide both.1]

theorem lookup_insertAt (allocator : Allocator) (side : Side) (id other : Nat) (price : Int) (quantity : Nat) :
    (stored.insertAt allocator side id price quantity).orderIndex.lookup other =
      if other = id then some { side, price, it := allocator.allocate stored.addresses }
      else stored.orderIndex.lookup other := by
  show ((stored.setLevels side _).orderIndex.insert id _).lookup other = _
  rw [orderIndex_setLevels]
  split_ifs with same
  · rw [same, AList.lookup_insert]
  · rw [AList.lookup_insert_ne same]

end StoredBook

section Related
variable {α β : Type} {related : α → β → Prop} {other : Option β}

theorem none_of_rel (both : Option.Rel related none other) : other = none := by
  cases both
  rfl

theorem some_of_rel {value : α} (both : Option.Rel related (some value) other) :
    ∃ partner, other = some partner ∧ related value partner := by
  cases both with
  | some holds => exact ⟨_, rfl, holds⟩

end Related

namespace StoredBook.Stores
variable {stored : StoredBook} {book : OrderBook} {orders : List ListedOrder}

theorem empty : ({} : StoredBook).Stores {} where
  levels side price := by cases side <;> exact Option.Rel.none
  located _ := rfl
  points id location found := by cases found

theorem mem_index (stores : stored.Stores book) (id : Nat) : id ∈ stored.orderIndex ↔ id ∈ book.orderIndex := by
  rw [← AList.lookup_isSome, ← AList.lookup_isSome, stores.located, Option.isSome_map]

theorem insertAt (stores : stored.Stores book) (allocator : Allocator) (side : Side) (id : Nat) (price : Int)
    (quantity : Nat) :
    (stored.insertAt allocator side id price quantity).Stores (book.insertAt side id price quantity) where
  levels other there := by
    rw [find?_insertAt, OrderBook.find?_insertAt]
    split_ifs with here
    · refine Option.Rel.some ?_
      have kept := stores.levels side price
      have unused := allocator.fresh stored.addresses
      generalize allocator.allocate stored.addresses = address at unused
      cases found : (stored.levelsOf side).find? price with
      | none =>
        rw [found] at kept
        rw [none_of_rel kept]
        have vacant : ({ price } : StoredLevel).Stores { price } := ⟨rfl, rfl, rfl, List.nodup_nil⟩
        exact vacant.add id quantity (by rintro ⟨⟩)
      | some level =>
        rw [found] at kept
        obtain ⟨shown, same, stores⟩ := some_of_rel kept
        rw [same]
        refine stores.add id quantity fun member => ?_
        obtain ⟨node, inside, rfl⟩ := List.mem_map.mp member
        exact unused (mem_addresses found inside)
    · exact stores.levels other there
  located other := by
    rw [lookup_insertAt, OrderBook.lookup_insertAt, stores.located]
    split_ifs with same
    · rw [same]
      rfl
    · rfl
  points other location found := by
    rw [lookup_insertAt] at found
    rw [find?_insertAt]
    split_ifs at found with same
    · cases found
      rw [if_pos ⟨rfl, rfl⟩]
      exact ⟨_, rfl, _, List.mem_append_right _ (List.mem_singleton_self _), rfl, same.symm⟩
    · obtain ⟨level, held, node, member, address, named⟩ := stores.points other location found
      split_ifs with here
      · rw [← here.1, ← here.2, held]
        exact ⟨_, rfl, node, List.mem_append_left _ member, address, named⟩
      · exact ⟨level, held, node, member, address, named⟩

/-- The node is off its level and its order out of the index, as the order is off the book. -/
theorem withdraw (stores : stored.Stores book) (lists : book.Lists orders) {id : Nat} {location : OrderLocation}
    (found : stored.orderIndex.lookup id = some location) :
    StoredBook.Stores
      { stored.eraseAt location with orderIndex := (stored.eraseAt location).orderIndex.erase id }
      { book.eraseAt { location with it := id } with
        orderIndex := (book.eraseAt { location with it := id }).orderIndex.erase id } := by
  obtain ⟨level, held, node, member, address, named⟩ := stores.points id location found
  have kept := stores.levels location.side location.price
  rw [held] at kept
  obtain ⟨shown, same, level_stores⟩ := some_of_rel kept
  have shows := lists.shows location.side location.price
  rw [same] at shows
  obtain ⟨_, _, queue, sums⟩ := shows
  have ids : (shown.orders.map RestingOrder.id).Nodup :=
    (queue.map RestingOrder.id).nodup_iff.mpr (ordersAt_ids_nodup lists.distinct _ _)
  have total : shown.aggregateQuantity = (shown.orders.map RestingOrder.quantity).sum :=
    sums.trans (queue.map RestingOrder.quantity).sum_nat.symm
  have removed := level_stores.remove ids member total
  rw [address, named] at removed
  constructor
  · intro side price
    show Option.Rel _ (((stored.eraseAt location).levelsOf side).find? price) _
    rw [find?_eraseAt]
    show Option.Rel _ _ (((book.eraseAt { location with it := id }).levelsOf side).find? price)
    rw [OrderBook.find?_eraseAt]
    dsimp only
    by_cases here : side = location.side ∧ price = location.price
    · rw [if_pos here, if_pos here]
      simp only [held, same, Option.getD_some]
      have empties : (level.remove location.it).orders.isEmpty = (shown.remove id).orders.isEmpty := by
        rw [removed.orders, List.isEmpty_map]
      simp only [empties]
      split_ifs
      · exact Option.Rel.none
      · exact Option.Rel.some removed
    · rw [if_neg here, if_neg here]
      exact stores.levels side price
  · intro other
    show ((book.setLevels location.side _).orderIndex.erase id).lookup other =
      (((stored.setLevels location.side _).orderIndex.erase id).lookup other).map _
    rw [OrderBook.orderIndex_setLevels, orderIndex_setLevels]
    by_cases same : other = id
    · rw [same, AList.lookup_erase, AList.lookup_erase]
      rfl
    · rw [AList.lookup_erase_ne same, AList.lookup_erase_ne same]
      exact stores.located other
  · intro other place there
    have there : ((stored.setLevels location.side _).orderIndex.erase id).lookup other = some place := there
    rw [orderIndex_setLevels] at there
    have different : other ≠ id := by
      intro same
      rw [same, AList.lookup_erase] at there
      cases there
    rw [AList.lookup_erase_ne different] at there
    obtain ⟨queue, at_place, first, inside, points, own⟩ := stores.points other place there
    show ∃ level, ((stored.eraseAt location).levelsOf place.side).find? place.price = some level ∧ _
    rw [find?_eraseAt]
    split_ifs with here
    · rw [here.1, here.2, held] at at_place
      cases at_place
      have apart : first.address ≠ location.it := by
        intro same
        have equal := List.inj_on_of_nodup_map level_stores.distinct inside member (same.trans address.symm)
        exact different (own.symm.trans ((congrArg (fun node => node.order.id) equal).trans named))
      have stays : first ∈ (level.remove location.it).orders :=
        (List.mem_eraseP_of_neg (by simpa using apart)).mpr inside
      rw [held]
      dsimp only [Option.getD_some]
      rw [if_neg fun empty => List.ne_nil_of_mem stays (List.isEmpty_iff.mp empty)]
      exact ⟨_, rfl, first, stays, points, own⟩
    · exact ⟨queue, at_place, first, inside, points, own⟩

end StoredBook.Stores

end Mdh.Feed
