import Mdh.Feed.OrderBook

/-! What a subscriber's book says: the orders it lists, read off its index and its levels,
and what adding, cancelling and modifying an order do to that list. -/

namespace Mdh.Feed
open Mdh.Core Mdh.Lib

/-- An order as the feed describes it. -/
structure ListedOrder where
  id : Nat
  side : Side
  price : Int
  quantity : Nat
  deriving DecidableEq, Repr

def ListedOrder.resting (order : ListedOrder) : RestingOrder where
  id := order.id
  quantity := order.quantity

def ListedOrder.location (order : ListedOrder) : OrderLocation where
  side := order.side
  price := order.price
  it := order.id

/-- The orders of one level. -/
def ordersAt (orders : List ListedOrder) (side : Side) (price : Int) : List RestingOrder :=
  (orders.filter fun order => order.side = side ∧ order.price = price).map ListedOrder.resting

/-- A level holds these orders in some order and knows their sum. A level with none is not kept. -/
def Shows (price : Int) (held : Option PriceLevel) (expected : List RestingOrder) : Prop :=
  match held with
  | none => expected = []
  | some level => level.price = price ∧ expected ≠ [] ∧ level.orders.Perm expected ∧
      level.aggregateQuantity = (expected.map RestingOrder.quantity).sum

namespace OrderBook

structure Lists (book : OrderBook) (orders : List ListedOrder) : Prop where
  distinct : (orders.map ListedOrder.id).Nodup
  located : ∀ id location, book.orderIndex.lookup id = some location ↔
    ∃ order ∈ orders, order.id = id ∧ order.location = location
  shows : ∀ side price, Shows price ((book.levelsOf side).find? price) (ordersAt orders side price)

end OrderBook

section Levels
variable {price : Int} {held : Option PriceLevel} {expected : List RestingOrder}

theorem Shows.perm {other : List RestingOrder} (shows : Shows price held expected) (same : expected.Perm other) :
    Shows price held other := by
  cases held with
  | none => exact List.Perm.eq_nil (same.symm.trans (List.Perm.of_eq shows))
  | some level =>
    obtain ⟨at_price, some, orders, total⟩ := shows
    exact ⟨at_price, fun none => some (none ▸ same).eq_nil, orders.trans same,
      total.trans (same.map RestingOrder.quantity).sum_nat⟩

/-- A level that is there or starts empty takes one more order. -/
theorem Shows.add (shows : Shows price held expected) (id quantity : Nat) :
    Shows price (some ((held.getD { price }).add id quantity)) (⟨id, quantity⟩ :: expected) := by
  cases held with
  | none =>
    have empty : expected = [] := shows
    rw [empty]
    exact ⟨rfl, List.cons_ne_nil _ _, List.Perm.refl _, by simp [PriceLevel.add]⟩
  | some level =>
    obtain ⟨at_price, _, orders, total⟩ := shows
    refine ⟨at_price, List.cons_ne_nil _ _, ?_, ?_⟩
    · exact (List.perm_append_singleton _ _).trans (orders.cons _)
    · show level.aggregateQuantity + quantity = _
      rw [total, List.map_cons, List.sum_cons, Nat.add_comm]

/-- The order leaves its level, and the level leaves the book when nothing is left on it. -/
theorem Shows.remove {order : RestingOrder} (shows : Shows price held (order :: expected))
    (distinct : ((order :: expected).map RestingOrder.id).Nodup) :
    let level := (held.getD { price }).remove order.id
    Shows price (if level.orders.isEmpty then none else some level) expected := by
  cases held with
  | none => cases shows
  | some level =>
    obtain ⟨at_price, _, orders, total⟩ := shows
    have only : ∀ other ∈ level.orders, other.id = order.id → other = order := by
      intro other member same
      rcases List.mem_cons.mp (orders.mem_iff.mp member) with here | there
      · exact here
      · rw [List.map_cons, List.nodup_cons] at distinct
        exact absurd (List.mem_map.mpr ⟨other, there, same⟩) distinct.1
    have member : order ∈ level.orders := orders.mem_iff.mpr List.mem_cons_self
    obtain ⟨taken, front, back, before, matched, split, erased⟩ :=
      List.exists_of_eraseP (p := fun other => decide (other.id = order.id)) member (decide_eq_true rfl)
    have here : taken = order := by
      refine only taken ?_ (of_decide_eq_true matched)
      rw [split]
      exact List.mem_append_right _ List.mem_cons_self
    have found : level.orders.find? (fun other => decide (other.id = order.id)) = some order := by
      rw [split, here, List.find?_append, List.find?_eq_none.mpr before]
      simp
    have left : (front ++ back).Perm expected := by
      rw [split, here] at orders
      exact List.perm_middle.symm.trans orders |>.cons_inv
    have quantity : level.aggregateQuantity - order.quantity = (expected.map RestingOrder.quantity).sum := by
      rw [total, List.map_cons, List.sum_cons, Nat.add_sub_cancel_left]
    simp only [Option.getD_some, PriceLevel.remove, erased, found, Option.map_some]
    split_ifs with vacant
    · rw [List.isEmpty_iff.mp vacant] at left
      exact left.nil_eq.symm
    · refine ⟨at_price, fun none => vacant ?_, left, quantity⟩
      rw [none] at left
      rw [left.eq_nil]
      rfl

end Levels

theorem ordersAt_cons (order : ListedOrder) (orders : List ListedOrder) (side : Side) (price : Int) :
    ordersAt (order :: orders) side price =
      if order.side = side ∧ order.price = price then order.resting :: ordersAt orders side price
      else ordersAt orders side price := by
  unfold ordersAt
  rw [List.filter_cons]
  split_ifs with here there there
  · rfl
  · exact absurd (of_decide_eq_true here) there
  · exact absurd (decide_eq_true there) here
  · rfl

theorem ordersAt_perm {orders others : List ListedOrder} (same : orders.Perm others) (side : Side) (price : Int) :
    (ordersAt orders side price).Perm (ordersAt others side price) :=
  (same.filter _).map _

theorem ordersAt_ids_nodup {orders : List ListedOrder} (distinct : (orders.map ListedOrder.id).Nodup) (side : Side)
    (price : Int) : ((ordersAt orders side price).map RestingOrder.id).Nodup := by
  unfold ordersAt
  rw [List.map_map]
  exact distinct.sublist ((List.filter_sublist).map _)

namespace OrderBook

section Sides
variable (book : OrderBook)

theorem levelsOf_setLevels (side other : Side) (levels : SortedMap Int PriceLevel) :
    (book.setLevels side levels).levelsOf other = if other = side then levels else book.levelsOf other := by
  cases side <;> cases other <;> rfl

theorem orderIndex_setLevels (side : Side) (levels : SortedMap Int PriceLevel) :
    (book.setLevels side levels).orderIndex = book.orderIndex := by
  cases side <;> rfl

/-- Only the level the order was on changes, and it goes when it is empty. -/
theorem find?_eraseAt (location : OrderLocation) (side : Side) (price : Int) :
    ((book.eraseAt location).levelsOf side).find? price =
      if side = location.side ∧ price = location.price then
        let level := (((book.levelsOf location.side).find? location.price).getD { price := location.price }).remove
          location.it
        if level.orders.isEmpty then none else some level
      else (book.levelsOf side).find? price := by
  unfold eraseAt
  simp only [levelsOf_setLevels]
  generalize (((book.levelsOf location.side).find? location.price).getD { price := location.price }).remove
    location.it = level
  by_cases sameSide : side = location.side
  · rw [sameSide]
    cases level.orders.isEmpty with
    | true =>
      simp only [if_true, true_and]
      exact SortedMap.find?_erase _ _ _
    | false =>
      simp only [if_true, true_and, Bool.false_eq_true, if_false]
      exact SortedMap.find?_insert _ _ _ _
  · simp only [sameSide, false_and, if_false]

theorem find?_insertAt (side other : Side) (id : Nat) (price there : Int) (quantity : Nat) :
    ((book.insertAt side id price quantity).levelsOf other).find? there =
      if other = side ∧ there = price then some ((((book.levelsOf side).find? price).getD { price }).add id quantity)
      else (book.levelsOf other).find? there := by
  show (((book.setLevels side _).levelsOf other).find? there) = _
  rw [levelsOf_setLevels]
  by_cases sameSide : other = side
  · rw [if_pos sameSide, SortedMap.find?_insert, sameSide]
    simp only [true_and]
  · rw [if_neg sameSide, if_neg fun both => sameSide both.1]

theorem lookup_insertAt (side : Side) (id other : Nat) (price : Int) (quantity : Nat) :
    (book.insertAt side id price quantity).orderIndex.lookup other =
      if other = id then some { side, price, it := id } else book.orderIndex.lookup other := by
  show ((book.setLevels side _).orderIndex.insert id _).lookup other = _
  rw [orderIndex_setLevels]
  split_ifs with same
  · rw [same, AList.lookup_insert]
  · rw [AList.lookup_insert_ne same]

end Sides

section Updates
variable {book : OrderBook} {orders : List ListedOrder}

theorem empty_lists : ({} : OrderBook).Lists [] where
  distinct := List.nodup_nil
  located id location := by
    rw [show ({} : OrderBook).orderIndex = ∅ from rfl, AList.lookup_empty]
    simp
  shows side price := by
    cases side <;> rfl

theorem Lists.perm {others : List ListedOrder} (lists : book.Lists orders) (same : orders.Perm others) :
    book.Lists others where
  distinct := (same.map _).nodup_iff.mp lists.distinct
  located id location := by
    rw [lists.located]
    simp only [same.mem_iff]
  shows side price := (lists.shows side price).perm (ordersAt_perm same side price)

theorem Lists.lookup_mem {order : ListedOrder} (lists : book.Lists orders) (member : order ∈ orders) :
    book.orderIndex.lookup order.id = some order.location :=
  (lists.located _ _).mpr ⟨order, member, rfl, rfl⟩

theorem Lists.mem_index (lists : book.Lists orders) (id : Nat) :
    id ∈ book.orderIndex ↔ id ∈ orders.map ListedOrder.id := by
  rw [← AList.lookup_isSome, Option.isSome_iff_exists, List.mem_map]
  constructor
  · intro ⟨location, found⟩
    obtain ⟨order, member, same, _⟩ := (lists.located _ _).mp found
    exact ⟨order, member, same⟩
  · intro ⟨order, member, same⟩
    exact ⟨order.location, same ▸ lists.lookup_mem member⟩

theorem Lists.insertAt (lists : book.Lists orders) (order : ListedOrder) (fresh : order.id ∉ orders.map ListedOrder.id) :
    (book.insertAt order.side order.id order.price order.quantity).Lists (order :: orders) where
  distinct := by
    rw [List.map_cons, List.nodup_cons]
    exact ⟨fresh, lists.distinct⟩
  located id location := by
    show ((book.setLevels order.side _).orderIndex.insert order.id order.location).lookup id = some location ↔ _
    rw [orderIndex_setLevels]
    by_cases same : id = order.id
    · rw [same, AList.lookup_insert, Option.some.injEq]
      constructor
      · intro here
        exact ⟨order, List.mem_cons_self, rfl, here⟩
      · intro ⟨other, member, sameId, there⟩
        rcases List.mem_cons.mp member with rfl | old
        · exact there
        · exact absurd (List.mem_map.mpr ⟨other, old, sameId⟩) fresh
    · rw [AList.lookup_insert_ne same, lists.located]
      constructor
      · intro ⟨other, member, rest⟩
        exact ⟨other, List.mem_cons_of_mem _ member, rest⟩
      · intro ⟨other, member, sameId, there⟩
        rcases List.mem_cons.mp member with rfl | old
        · exact absurd sameId.symm same
        · exact ⟨other, old, sameId, there⟩
  shows side price := by
    show Shows price (((book.setLevels order.side _).levelsOf side).find? price) _
    rw [levelsOf_setLevels, ordersAt_cons]
    by_cases sameSide : side = order.side
    · rw [if_pos sameSide, SortedMap.find?_insert]
      by_cases samePrice : price = order.price
      · rw [if_pos samePrice, if_pos ⟨sameSide.symm, samePrice.symm⟩, samePrice, sameSide]
        exact (lists.shows order.side order.price).add order.id order.quantity
      · rw [if_neg samePrice, if_neg fun here => samePrice here.2.symm, ← sameSide]
        exact lists.shows side price
    · rw [if_neg sameSide, if_neg fun here => sameSide here.1.symm]
      exact lists.shows side price

/-- The order is off its level and out of the index. -/
theorem Lists.withdraw {order : ListedOrder} (lists : book.Lists (order :: orders)) :
    ({ book.eraseAt order.location with
        orderIndex := (book.eraseAt order.location).orderIndex.erase order.id } : OrderBook).Lists orders where
  distinct := (List.nodup_cons.mp lists.distinct).2
  located id location := by
    have fresh := (List.nodup_cons.mp lists.distinct).1
    show ((book.setLevels order.side _).orderIndex.erase order.id).lookup id = some location ↔ _
    rw [orderIndex_setLevels]
    by_cases same : id = order.id
    · rw [same, AList.lookup_erase]
      constructor
      · intro none
        cases none
      · intro ⟨other, member, sameId, _⟩
        exact absurd (List.mem_map.mpr ⟨other, member, sameId⟩) fresh
    · rw [AList.lookup_erase_ne same, lists.located]
      constructor
      · intro ⟨other, member, sameId, there⟩
        rcases List.mem_cons.mp member with rfl | old
        · exact absurd sameId.symm same
        · exact ⟨other, old, sameId, there⟩
      · intro ⟨other, member, rest⟩
        exact ⟨other, List.mem_cons_of_mem _ member, rest⟩
  shows side price := by
    have shown := lists.shows side price
    have distinct := ordersAt_ids_nodup lists.distinct side price
    rw [ordersAt_cons] at shown distinct
    show Shows price (((book.eraseAt order.location).levelsOf side).find? price) _
    rw [find?_eraseAt]
    by_cases here : side = order.side ∧ price = order.price
    · rw [if_pos ⟨here.1.symm, here.2.symm⟩] at shown distinct
      have left := shown.remove distinct
      rw [here.1, here.2] at left ⊢
      rw [if_pos ⟨rfl, rfl⟩]
      exact left
    · rw [if_neg fun same => here ⟨same.1.symm, same.2.symm⟩] at shown
      rw [if_neg (show ¬ (side = order.location.side ∧ price = order.location.price) from here)]
      exact shown

theorem Lists.addOrder (lists : book.Lists orders) (order : ListedOrder) (fresh : order.id ∉ orders.map ListedOrder.id)
    (price : 0 < order.price) (quantity : order.quantity ≠ 0) :
    (book.addOrder order.id order.price order.quantity order.side).2 = none ∧
      (book.addOrder order.id order.price order.quantity order.side).1.Lists (order :: orders) := by
  unfold OrderBook.addOrder
  rw [if_neg (not_le.mpr price), if_neg quantity, if_neg (by rw [lists.mem_index]; exact fresh)]
  exact ⟨rfl, lists.insertAt order fresh⟩

theorem Lists.cancelOrder {order : ListedOrder} (lists : book.Lists (order :: orders)) :
    (book.cancelOrder order.id).2 = none ∧ (book.cancelOrder order.id).1.Lists orders := by
  unfold OrderBook.cancelOrder
  rw [lists.lookup_mem List.mem_cons_self]
  exact ⟨rfl, lists.withdraw⟩

theorem Lists.modifyOrder {order : ListedOrder} (lists : book.Lists (order :: orders)) {newPrice : Int}
    {newQuantity : Nat} (price : 0 < newPrice) (quantity : newQuantity ≠ 0) :
    (book.modifyOrder order.id newPrice newQuantity).2 = none ∧
      (book.modifyOrder order.id newPrice newQuantity).1.Lists
        ({ order with price := newPrice, quantity := newQuantity } :: orders) := by
  unfold OrderBook.modifyOrder
  rw [if_neg (not_le.mpr price), if_neg quantity, lists.lookup_mem List.mem_cons_self]
  exact ⟨rfl, lists.withdraw.insertAt { order with price := newPrice, quantity := newQuantity }
    (List.nodup_cons.mp lists.distinct).1⟩

end Updates

end OrderBook

end Mdh.Feed
