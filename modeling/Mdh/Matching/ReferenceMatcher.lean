import Mdh.Core.Messages
import Mdh.Lib.PriorityList

/-! What matching is for: each side of a book is one list, best price first and then in
order of arrival, and an incoming order fills the head of the other list for as long
as it crosses. -/

namespace Mdh.Matching.Reference
open Mdh.Core Mdh.Lib

/-- One trade: both parties as it leaves them, at the resting order's price. -/
structure Fill where
  aggressorSide : Side
  aggressor : TradeCounterparty
  counterparty : TradeCounterparty
  price : Int
  quantity : Nat
  deriving DecidableEq, Repr

/-- What came of an incoming order: its trades, what is left of it and of the list it met. -/
structure Filled where
  fills : List Fill
  incoming : BookOrder
  book : List BookOrder
  deriving DecidableEq, Repr

def party (order : BookOrder) : TradeCounterparty where
  accountId := order.accountId
  clientOrderId := order.clientOrderId
  exchangeOrderId := order.exchangeOrderId
  remainingQuantity := order.remainingQuantity

/-- An order with `quantity` of it traded. -/
def traded (order : BookOrder) (quantity : Nat) : BookOrder :=
  { order with remainingQuantity := order.remainingQuantity - quantity }

def fillOf (incoming order : BookOrder) (quantity : Nat) : Fill where
  aggressorSide := incoming.side
  aggressor := party (traded incoming quantity)
  counterparty := party (traded order quantity)
  price := order.price
  quantity := quantity

def fill : BookOrder → List BookOrder → Filled
  | incoming, [] => ⟨[], incoming, []⟩
  | incoming, order :: rest =>
      if incoming.remainingQuantity = 0 ∨ ¬ incoming.side.Crosses incoming.price order.price then
        ⟨[], incoming, order :: rest⟩
      else
        let quantity := min incoming.remainingQuantity order.remainingQuantity
        let this := fillOf incoming order quantity
        let incoming := traded incoming quantity
        if quantity = order.remainingQuantity then
          let after := fill incoming rest
          ⟨this :: after.fills, after.incoming, after.book⟩
        else ⟨[this], incoming, traded order quantity :: rest⟩

/-- What crosses a limit, in all. -/
def crossing (side : Side) (limit : Int) (book : List BookOrder) : Nat :=
  ((book.filter fun order => side.Crosses limit order.price).map BookOrder.remainingQuantity).sum

/-- Both sides of a book. -/
structure Books where
  bids : List BookOrder
  asks : List BookOrder
  deriving DecidableEq, Repr

def Books.side (books : Books) : Side → List BookOrder
  | .buy => books.bids
  | .sell => books.asks

def Books.setSide (books : Books) (side : Side) (orders : List BookOrder) : Books :=
  match side with
  | .buy => { books with bids := orders }
  | .sell => { books with asks := orders }

/-- At the tail of its own price. -/
def Books.rest (books : Books) (order : BookOrder) : Books :=
  books.setSide order.side
    (PriorityList.enqueue order.side.Before BookOrder.price order (books.side order.side))

/-- An incoming order: it fills the other side, and a GTC remainder rests. -/
def Books.accept (books : Books) (incoming : BookOrder) : List Fill × Books :=
  let result := fill incoming (books.side incoming.side.contra)
  let matched := books.setSide incoming.side.contra result.book
  (result.fills,
    if incoming.timeInForce = .gtc ∧ result.incoming.remainingQuantity ≠ 0 then matched.rest result.incoming
    else matched)

/-- A cancelled order leaves its list. -/
def Books.withdraw (books : Books) (exchangeOrderId : Nat) : Books where
  bids := books.bids.filter fun order => order.exchangeOrderId ≠ exchangeOrderId
  asks := books.asks.filter fun order => order.exchangeOrderId ≠ exchangeOrderId

section Laws
variable (incoming : BookOrder) {book : List BookOrder}

section Head
variable {order : BookOrder} {rest : List BookOrder}

theorem fill_stop (stop : incoming.remainingQuantity = 0 ∨ ¬ incoming.side.Crosses incoming.price order.price) :
    fill incoming (order :: rest) = ⟨[], incoming, order :: rest⟩ := by
  rw [fill, if_pos stop]

theorem fill_full (some : incoming.remainingQuantity ≠ 0) (crosses : incoming.side.Crosses incoming.price order.price)
    (full : order.remainingQuantity ≤ incoming.remainingQuantity) :
    fill incoming (order :: rest) =
      let after := fill (traded incoming order.remainingQuantity) rest
      ⟨fillOf incoming order order.remainingQuantity :: after.fills, after.incoming, after.book⟩ := by
  rw [fill, if_neg (by simp [some, crosses])]
  simp only [min_eq_right full, if_true]

theorem fill_partly (some : incoming.remainingQuantity ≠ 0)
    (crosses : incoming.side.Crosses incoming.price order.price)
    (more : incoming.remainingQuantity < order.remainingQuantity) :
    fill incoming (order :: rest) =
      ⟨[fillOf incoming order incoming.remainingQuantity], traded incoming incoming.remainingQuantity,
        traded order incoming.remainingQuantity :: rest⟩ := by
  rw [fill, if_neg (by simp [some, crosses])]
  simp only [min_eq_left more.le, if_neg more.ne]

end Head

/-- Matching changes nothing of the incoming order but its quantity. -/
theorem fill_incoming (book : List BookOrder) :
    (fill incoming book).incoming =
      { incoming with remainingQuantity := (fill incoming book).incoming.remainingQuantity } := by
  induction book generalizing incoming with
  | nil => rfl
  | cons order rest ih =>
    unfold fill
    split_ifs
    · rfl
    · simp only
      split_ifs
      · exact ih (traded incoming _)
      · rfl

/-- Nothing is lost: what is traded and what is left add up to what came in. -/
theorem fill_total (book : List BookOrder) :
    ((fill incoming book).fills.map Fill.quantity).sum + (fill incoming book).incoming.remainingQuantity =
      incoming.remainingQuantity := by
  induction book generalizing incoming with
  | nil => simp [fill]
  | cons order rest ih =>
    unfold fill
    split_ifs
    · simp
    · simp only
      split_ifs
      · have tail := ih (traded incoming (min incoming.remainingQuantity order.remainingQuantity))
        simp only [traded] at tail
        simp only [List.map_cons, List.sum_cons, fillOf, traded]
        omega
      · simp only [List.map_cons, List.map_nil, List.sum_cons, List.sum_nil, fillOf, traded]
        omega

/-- In a list ordered by priority nothing past a price that does not cross does. -/
theorem not_crosses_of_head {side : Side} {limit : Int} {order : BookOrder} {rest : List BookOrder}
    (ordered : PriorityList.Ordered side.contra.Before BookOrder.price (order :: rest))
    (apart : ¬ side.Crosses limit order.price) : ∀ other ∈ order :: rest, ¬ side.Crosses limit other.price := by
  intro other member crosses
  rcases List.mem_cons.mp member with rfl | later
  · exact apart crosses
  · exact apart (crosses.of_not_before (ordered.head_first other later))

/-- An order that is not filled completely leaves exactly what it does not cross. -/
theorem fill_leaves (ordered : PriorityList.Ordered incoming.side.contra.Before BookOrder.price book)
    (left : (fill incoming book).incoming.remainingQuantity ≠ 0) :
    (fill incoming book).book = book.filter fun order => ¬ incoming.side.Crosses incoming.price order.price := by
  induction book generalizing incoming with
  | nil => rfl
  | cons order rest ih =>
    unfold fill at left ⊢
    split_ifs with stop
    · rw [if_pos stop] at left
      have apart := not_crosses_of_head ordered (stop.resolve_left left)
      exact (List.filter_eq_self.mpr fun other member => by simpa using apart other member).symm
    · rw [if_neg stop] at left
      rw [not_or, not_not] at stop
      simp only at left ⊢
      split_ifs with full
      · rw [if_pos full] at left
        rw [List.filter_cons, if_neg (by simpa using stop.2)]
        exact ih (traded incoming _) (ordered.sublist (List.sublist_cons_self order rest)) left
      · rw [if_neg full] at left
        exact absurd (by simp only [traded]; omega) left

/-- An order is filled completely exactly when enough crosses its limit. -/
theorem fill_complete_iff (ordered : PriorityList.Ordered incoming.side.contra.Before BookOrder.price book) :
    (fill incoming book).incoming.remainingQuantity = 0 ↔
      incoming.remainingQuantity ≤ crossing incoming.side incoming.price book := by
  induction book generalizing incoming with
  | nil => simp [fill, crossing]
  | cons order rest ih =>
    unfold fill
    split_ifs with stop
    · by_cases crosses : incoming.side.Crosses incoming.price order.price
      · simp [stop.resolve_right (not_not.mpr crosses)]
      · have none : crossing incoming.side incoming.price (order :: rest) = 0 := by
          unfold crossing
          rw [List.filter_eq_nil_iff.mpr fun other member => by
            simpa using not_crosses_of_head ordered crosses other member]
          rfl
        rw [none]
        simp
    · have crosses : incoming.side.Crosses incoming.price order.price := by
        by_contra apart
        exact stop (Or.inr apart)
      have total : crossing incoming.side incoming.price (order :: rest) =
          order.remainingQuantity + crossing incoming.side incoming.price rest := by
        simp [crossing, crosses]
      have tail := ih (traded incoming (min incoming.remainingQuantity order.remainingQuantity))
        (ordered.sublist (List.sublist_cons_self order rest))
      simp only [traded] at tail
      rw [total]
      simp only [traded]
      split_ifs with full
      · rw [tail]
        omega
      · simp only
        omega

end Laws

end Mdh.Matching.Reference
