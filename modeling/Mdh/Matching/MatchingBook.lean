import Mdh.Lib.LinkedQueue
import Mdh.Matching.SideIndex

/-! The order book of one instrument: a flat slab of orders, threaded into one
queue per price level and one free list, and a price index for each side. -/

namespace Mdh.Matching
open Mdh.Core Mdh.Lib

/-- One resting order and its place in a doubly linked queue, held by index. -/
structure SlabOrder where
  order : BookOrder
  next : Option Nat
  prev : Option Nat
  deriving DecidableEq, Repr, Inhabited

structure MatchingBook where
  slab : List SlabOrder
  liveCount : Nat
  slabCapacity : Nat
  freeHead : Option Nat
  bids : SideIndex
  asks : SideIndex

namespace MatchingBook

def kMaxBandTicks : Nat := 8192

def kMinBandTicks : Nat := 1024

/-- `sizeof(LevelSlot)`: two 32-bit slots. -/
def levelSlotBytes : Nat := 8

def bitFloor (value : Nat) : Nat := if value = 0 then 0 else 2 ^ value.log2

/-- The widest band `instrumentCount` books can each afford two of, rounded down
to a power of two, or zero when that is not worth a ladder. -/
def bandFor (instrumentCount byteBudget : Nat) : Nat :=
  if instrumentCount = 0 then kMaxBandTicks
  else
    let ticks := byteBudget / instrumentCount / (2 * levelSlotBytes)
    if ticks < kMinBandTicks then 0 else bitFloor (min ticks kMaxBandTicks)

def make (bandTicks : Nat) : MatchingBook where
  slab := []
  liveCount := 0
  slabCapacity := 0
  freeHead := none
  bids := SideIndex.make .buy bandTicks
  asks := SideIndex.make .sell bandTicks

def sideOf (book : MatchingBook) : Side → SideIndex
  | .buy => book.bids
  | .sell => book.asks

def setSide (book : MatchingBook) (side : Side) (index : SideIndex) : MatchingBook :=
  match side with
  | .buy => { book with bids := index }
  | .sell => { book with asks := index }

/-- `slab[slot]`. -/
def entry (book : MatchingBook) (slot : Nat) : SlabOrder := book.slab.getD slot default

def modifyEntry (book : MatchingBook) (slot : Nat) (change : SlabOrder → SlabOrder) : MatchingBook :=
  { book with slab := book.slab.modify slot change }

/-- Takes a slot for `order`, reusing a freed one if there is any. -/
def acquireSlot (book : MatchingBook) (order : BookOrder) : MatchingBook × Nat :=
  match book.freeHead with
  | some slot =>
      let book := { book with freeHead := (book.entry slot).next }
      (book.modifyEntry slot fun entry => { entry with order }, slot)
  | none =>
      let slab := book.slab ++ [{ order, next := none, prev := none }]
      ({ book with slab, slabCapacity := slab.length }, slab.length - 1)

def releaseSlot (book : MatchingBook) (slot : Nat) : MatchingBook :=
  { book.modifyEntry slot fun entry => { entry with next := book.freeHead } with freeHead := some slot }

def linkBack (book : MatchingBook) (level : LevelSlot) (slot : Nat) : MatchingBook × LevelSlot :=
  let book := book.modifyEntry slot fun entry => { entry with next := none, prev := level.tail }
  match level.tail with
  | none => (book, { head := some slot, tail := some slot })
  | some tail => (book.modifyEntry tail fun entry => { entry with next := some slot }, { level with tail := some slot })

/-- Leaves `level` with no head if `slot` was its last order. -/
def unlink (book : MatchingBook) (level : LevelSlot) (slot : Nat) : MatchingBook × LevelSlot :=
  let next := (book.entry slot).next
  let prev := (book.entry slot).prev
  let (book, level) := match prev with
    | none => (book, { level with head := next })
    | some prev => (book.modifyEntry prev fun entry => { entry with next }, level)
  match next with
  | none => (book, { level with tail := prev })
  | some next => (book.modifyEntry next fun entry => { entry with prev }, level)

/-- Inserts at the back of the queue of its price. -/
def add (book : MatchingBook) (order : BookOrder) : MatchingBook × Handle :=
  let (book, slot) := book.acquireSlot order
  let (index, ref) := (book.sideOf order.side).levelFor order.price
  let (book, level) := book.linkBack (index.read ref) slot
  let book := book.setSide order.side (index.write ref level)
  ({ book with liveCount := book.liveCount + 1 }, { slot })

def orderAt (book : MatchingBook) (handle : Handle) : BookOrder := (book.entry handle.slot).order

/-- Removes the order the handle locates, from any level and any position in its
queue, and returns it. -/
def removeAt (book : MatchingBook) (handle : Handle) : MatchingBook × BookOrder :=
  let removed := book.orderAt handle
  let index := book.sideOf removed.side
  match index.findLevel removed.price with
  | none => (book, removed) -- a null level: the handle is not live
  | some ref =>
      let (book, level) := book.unlink (index.read ref) handle.slot
      let index := index.write ref level
      let index := if level.head = none then index.eraseLevel removed.price else index
      let book := (book.setSide removed.side index).releaseSlot handle.slot
      ({ book with liveCount := book.liveCount - 1 }, removed)

def modifyOrder (book : MatchingBook) (slot : Nat) (change : BookOrder → BookOrder) : MatchingBook :=
  book.modifyEntry slot fun entry => { entry with order := change entry.order }

def reduceAt (book : MatchingBook) (handle : Handle) (newRemainingQuantity : Nat) : MatchingBook :=
  book.modifyOrder handle.slot fun order => { order with remainingQuantity := newRemainingQuantity }

def setClientOrderIdAt (book : MatchingBook) (handle : Handle) (newClientOrderId : ClientOrderId) : MatchingBook :=
  book.modifyOrder handle.slot fun order => { order with clientOrderId := newClientOrderId }

def bestPriceOf (book : MatchingBook) (bookSide : Side) : Option Int :=
  if (book.sideOf bookSide).empty then none else some (book.sideOf bookSide).bestPrice

def bestBidPrice (book : MatchingBook) : Option Int := book.bestPriceOf .buy

def bestAskPrice (book : MatchingBook) : Option Int := book.bestPriceOf .sell

/-- `level_at(best_price()).head`, the slot the front operations work on. -/
def frontSlot (book : MatchingBook) (bookSide : Side) : Nat :=
  let index := book.sideOf bookSide
  (index.read (index.levelAt index.bestPrice)).head.getD 0

/-- The first order in the queue at the best price, or `none` on an empty side. -/
def frontOfBest (book : MatchingBook) (bookSide : Side) : Option BookOrder :=
  if (book.sideOf bookSide).empty then none else some (book.entry (book.frontSlot bookSide)).order

def reduceFront (book : MatchingBook) (bookSide : Side) (newRemainingQuantity : Nat) : MatchingBook :=
  book.modifyOrder (book.frontSlot bookSide) fun order => { order with remainingQuantity := newRemainingQuantity }

def removeFront (book : MatchingBook) (bookSide : Side) : MatchingBook :=
  let index := book.sideOf bookSide
  let price := index.bestPrice
  let ref := index.levelAt price
  let head := book.frontSlot bookSide
  let (book, level) := book.unlink (index.read ref) head
  let index := index.write ref level
  let book := (book.setSide bookSide index).releaseSlot head
  let book := { book with liveCount := book.liveCount - 1 }
  if level.head = none then book.setSide bookSide (index.eraseLevel price) else book

/-- The slots a loop over one queue visits from `slot` on. -/
def slotsFrom (book : MatchingBook) : Nat → Option Nat → List Nat
  | fuel + 1, some slot => slot :: book.slotsFrom fuel (book.entry slot).next
  | _, _ => []

def slotsAt (book : MatchingBook) (bookSide : Side) (price : Int) : List Nat :=
  let index := book.sideOf bookSide
  book.slotsFrom book.liveCount (index.read (index.levelAt price)).head

/-- The level prices a walk visits from `price` on. -/
def pricesFrom (index : SideIndex) : Nat → Option Int → List Int
  | fuel + 1, some price => price :: pricesFrom index fuel (index.nextPrice price)
  | _, _ => []

/-- The walk of a side, `bestPrice` and then `nextPrice` until it runs out. A level
is never empty, so no walk visits more levels than there are orders. -/
def levelPrices (book : MatchingBook) (bookSide : Side) : List Int :=
  pricesFrom (book.sideOf bookSide) book.liveCount (book.bestPriceOf bookSide)

/-- Adds up one queue, and returns at once when `quantity` is covered. -/
def coverFrom (quantity : Nat) : List BookOrder → Nat → Nat × Bool
  | [], total => (total, false)
  | order :: rest, total =>
      let total := total + order.remainingQuantity
      if total ≥ quantity then (total, true) else coverFrom quantity rest total

/-- Sums what rests on `bookSide` at `price` or better, level by level, stopping at
the first level that does not cross or as soon as `quantity` is covered. -/
def coverLevels (book : MatchingBook) (bookSide : Side) (price : Int) (quantity : Nat) : List Int → Nat → Nat
  | [], total => total
  | levelPrice :: rest, total =>
      -- `price > levelPrice` for bids, `price < levelPrice` for asks.
      if bookSide.Before price levelPrice then total
      else
        match coverFrom quantity ((book.slotsAt bookSide levelPrice).map fun slot => (book.entry slot).order) total with
        | (total, true) => total
        | (total, false) => book.coverLevels bookSide price quantity rest total

def crossableQuantity (book : MatchingBook) (bookSide : Side) (price : Int) (quantity : Nat) : Nat :=
  if (book.sideOf bookSide).empty then 0
  else book.coverLevels bookSide price quantity (book.levelPrices bookSide) 0

/-- Every resting order of one side, by price priority then queue position. -/
def allOf (book : MatchingBook) (bookSide : Side) : List BookOrder :=
  if (book.sideOf bookSide).empty then []
  else (book.levelPrices bookSide).flatMap fun price =>
    (book.slotsAt bookSide price).map fun slot => (book.entry slot).order

def allBids (book : MatchingBook) : List BookOrder := book.allOf .buy

def allAsks (book : MatchingBook) : List BookOrder := book.allOf .sell

def liveOrderCount (book : MatchingBook) : Nat := book.liveCount

end MatchingBook

end Mdh.Matching
