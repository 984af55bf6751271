import Mathlib.Data.List.Dedup
import Mathlib.Data.List.Sort
import Mdh.Feed.EventCodec
import Mdh.Feed.FeedReplay

/-! Snapshots: every resting order of every book as a file of the order's own wire frames, and
the books read back from such a file. -/

namespace Mdh.Feed
open Mdh.Core Mdh.Core.ByteIo Mdh.Lib

/-- One resting order, with what it takes to add it again. -/
structure OrderView where
  orderId : Nat
  price : Int
  quantity : Nat
  deriving DecidableEq, Repr

namespace OrderBook

/-- The orders of the levels, level by level and in queue order. -/
def viewLevels (levels : List (Int × PriceLevel)) : List OrderView :=
  levels.flatMap fun entry => entry.2.orders.map fun order =>
    { orderId := order.id, price := entry.1, quantity := order.quantity }

/-- The highest bid first. -/
def allBids (book : OrderBook) : List OrderView := viewLevels book.bids.entries.reverse

/-- The lowest ask first. -/
def allAsks (book : OrderBook) : List OrderView := viewLevels book.asks.entries

def allOn (book : OrderBook) : Side → List OrderView
  | .buy => book.allBids
  | .sell => book.allAsks

end OrderBook

namespace BookManager

def findBook (books : BookManager) (id : InstrumentId) : Option OrderBook := books.books.lookup id

/-- Every instrument heard of, through an order or a trade, ascending. -/
def instruments (books : BookManager) : List InstrumentId :=
  ((books.books.keys ++ books.stats.keys).dedup).insertionSort (· ≤ ·)

end BookManager

def SNAPSHOT_MAGIC : Nat := 0x4D444832
def SNAPSHOT_VERSION : Nat := 1
def SNAPSHOT_HEADER_SIZE : Nat := 24

def snapshotEntry (id : InstrumentId) (side : Side) (sequenceNumber : Nat) (order : OrderView) : WireEvent :=
  .addOrder {
    sequenceNumber
    timestamp := 0
    orderId := order.orderId
    instrumentId := id
    price := order.price
    quantity := order.quantity
    side }

/-- One side of a book behind the entries written so far, which are counted. -/
def appendSide (book : OrderBook) (id : InstrumentId) (side : Side) (sequenceNumber : Nat) (written : Nat × List UInt8) :
    Nat × List UInt8 :=
  (book.allOn side).foldl (fun (entryCount, out) order =>
    (entryCount + 1, out ++ encodeEvent (snapshotEntry id side sequenceNumber order))) written

/-- Both sides of an instrument's book, if it has one. -/
def appendBook (books : BookManager) (sequenceNumber : Nat) (written : Nat × List UInt8) (id : InstrumentId) :
    Nat × List UInt8 :=
  match books.findBook id with
  | none => written
  | some book => appendSide book id .sell sequenceNumber (appendSide book id .buy sequenceNumber written)

/-- What a snapshot file holds. -/
def writeSnapshot (sequenceNumber : Nat) (books : BookManager) : List UInt8 :=
  let (entryCount, entries) := books.instruments.foldl (appendBook books sequenceNumber) (0, [])
  putU32 SNAPSHOT_MAGIC ++ putU16 SNAPSHOT_VERSION ++ putU16 0 ++ putU64 sequenceNumber ++ putU64 entryCount ++ entries

structure SnapshotLoadResult where
  sequenceNumber : Nat := 0
  books : BookManager := {}

/-- The five fields of a snapshot's header, before any of them is looked at. -/
def readSnapshotHeader : ByteReader (Nat × Nat × Nat × Nat × Nat) := do
  let magic ← getU32
  let version ← getU16
  let reserved ← getU16
  let sequenceNumber ← getU64
  let entryCount ← getU64
  return (magic, version, reserved, sequenceNumber, entryCount)

/-- The entries that are left, added to the books. Whatever is no order, or is one a book turns
away, spoils the file. -/
def readEntries : Nat → BookManager → List UInt8 → Option BookManager
  | 0, books, _ => some books
  | entryCount + 1, books, file =>
      if file.length < HEADER_SIZE then none
      else
        match decodeHeader (file.take HEADER_SIZE) with
        | .error _ => none
        | .ok header =>
            if header.type ≠ .addOrder then none
            else if (file.drop HEADER_SIZE).length < header.payloadSize then none
            else
              match decodeEvent (file.take (HEADER_SIZE + header.payloadSize)) with
              | .ok (.addOrder add) =>
                  let (books, err) := books.onBook add.instrumentId fun book =>
                    book.addOrder add.orderId add.price add.quantity add.side
                  if err.isSome then none else readEntries entryCount books (file.drop (HEADER_SIZE + header.payloadSize))
              | _ => none

def readSnapshot (file : List UInt8) : Option SnapshotLoadResult :=
  if file.length < SNAPSHOT_HEADER_SIZE then none
  else
    match readSnapshotHeader (file.take SNAPSHOT_HEADER_SIZE) with
    | none => none
    | some ((magic, version, reserved, sequenceNumber, entryCount), _) =>
        if magic ≠ SNAPSHOT_MAGIC ∨ version ≠ SNAPSHOT_VERSION ∨ reserved ≠ 0 then none
        else (readEntries entryCount {} (file.drop SNAPSHOT_HEADER_SIZE)).map fun books => { sequenceNumber, books }

end Mdh.Feed
