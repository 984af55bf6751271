import Mathlib.Data.List.AList
import Mdh.Core.Types
import Mdh.Lib.SortedMap

/-! The subscriber's book of one instrument: a level for every price that has orders,
and an index from order ids to where they are. -/

namespace Mdh.Feed
open Mdh.Core Mdh.Lib

inductive BookError where
  | unknownOrderId
  | duplicateOrderId
  | invalidPrice
  | invalidQuantity
  deriving DecidableEq, Repr

/-- One order of a level's queue. -/
structure RestingOrder where
  id : Nat
  quantity : Nat
  deriving DecidableEq, Repr

structure PriceLevel where
  price : Int
  orders : List RestingOrder := []
  aggregateQuantity : Nat := 0
  deriving DecidableEq, Repr

namespace PriceLevel

def add (level : PriceLevel) (id quantity : Nat) : PriceLevel :=
  { level with
    orders := level.orders ++ [{ id, quantity }]
    aggregateQuantity := level.aggregateQuantity + quantity }

/-- An iterator into a level goes by the id of the order it points at. -/
def remove (level : PriceLevel) (it : Nat) : PriceLevel :=
  { level with
    orders := level.orders.eraseP (·.id = it)
    aggregateQuantity := level.aggregateQuantity - ((level.orders.find? (·.id = it)).map RestingOrder.quantity).getD 0 }

end PriceLevel

structure OrderLocation where
  side : Side
  price : Int
  it : Nat
  deriving DecidableEq, Repr

structure OrderBook where
  bids : SortedMap Int PriceLevel := SortedMap.empty
  asks : SortedMap Int PriceLevel := SortedMap.empty
  orderIndex : AList fun _ : Nat => OrderLocation := ∅

instance : Inhabited OrderBook := ⟨{}⟩

namespace OrderBook

def levelsOf (book : OrderBook) : Side → SortedMap Int PriceLevel
  | .buy => book.bids
  | .sell => book.asks

def setLevels (book : OrderBook) (side : Side) (levels : SortedMap Int PriceLevel) : OrderBook :=
  match side with
  | .buy => { book with bids := levels }
  | .sell => { book with asks := levels }

def insertAt (book : OrderBook) (side : Side) (id : Nat) (price : Int) (quantity : Nat) : OrderBook :=
  let levels := book.levelsOf side
  let level := (levels.find? price).getD { price }
  let book := book.setLevels side (levels.insert price (level.add id quantity))
  { book with orderIndex := book.orderIndex.insert id { side, price, it := id } }

/-- The index locates an order that is there. -/
def eraseAt (book : OrderBook) (location : OrderLocation) : OrderBook :=
  let levels := book.levelsOf location.side
  let level := ((levels.find? location.price).getD { price := location.price }).remove location.it
  book.setLevels location.side
    (if level.orders.isEmpty then levels.erase location.price else levels.insert location.price level)

def addOrder (book : OrderBook) (id : Nat) (price : Int) (quantity : Nat) (side : Side) : OrderBook × Option BookError :=
  if price ≤ 0 then (book, some .invalidPrice)
  else if quantity = 0 then (book, some .invalidQuantity)
  else if id ∈ book.orderIndex then (book, some .duplicateOrderId)
  else (book.insertAt side id price quantity, none)

def cancelOrder (book : OrderBook) (id : Nat) : OrderBook × Option BookError :=
  match book.orderIndex.lookup id with
  | none => (book, some .unknownOrderId)
  | some location =>
      let book := book.eraseAt location
      ({ book with orderIndex := book.orderIndex.erase id }, none)

/-- Queued again at the back of its level, which need not be the level it was on. -/
def modifyOrder (book : OrderBook) (id : Nat) (newPrice : Int) (newQuantity : Nat) : OrderBook × Option BookError :=
  if newPrice ≤ 0 then (book, some .invalidPrice)
  else if newQuantity = 0 then (book, some .invalidQuantity)
  else
    match book.orderIndex.lookup id with
    | none => (book, some .unknownOrderId)
    | some location =>
        let book := book.eraseAt location
        let book := { book with orderIndex := book.orderIndex.erase id }
        (book.insertAt location.side id newPrice newQuantity, none)

def clear (_ : OrderBook) : OrderBook := {}

end OrderBook

end Mdh.Feed
