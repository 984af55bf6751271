import Mdh.Core.Messages
import Mdh.Lib.SortedMap
import Mdh.Lib.WordBits

/-! One side's price index: a tick ladder over a band of prices with a
three-level occupancy bitmap, plus an ordered map for every price outside it.
Slab slots are unbounded here, with `none` for the end-of-chain sentinel. -/

namespace Mdh.Matching
open Mdh.Core Mdh.Lib Mdh.Lib.WordBits

/-- A whole price level: the head and tail of its queue through the slab. -/
structure LevelSlot where
  head : Option Nat := none
  tail : Option Nat := none
  deriving DecidableEq, Repr, Inhabited

/-- The ladder array. An entry is `none` until it is first written: the array is
allocated uninitialised. -/
abbrev Ladder := Nat → Option LevelSlot

structure SideIndex where
  side : Side
  bandTicks : Nat
  base : Int := 0
  anchored : Bool := false
  ladder : Option Ladder := none
  occupancy : List Word := []
  midSummary : List Word := []
  summary : Word := 0#64
  overflow : SortedMap Int LevelSlot := SortedMap.empty

/-- What a `LevelSlot&` refers to: a cell of the ladder or a node of the map. -/
inductive LevelRef where
  | laddered (tick : Nat)
  | spilled (price : Int)
  deriving DecidableEq, Repr

namespace SideIndex

def make (side : Side) (bandTicks : Nat) : SideIndex := { side, bandTicks }

def empty (index : SideIndex) : Bool := index.summary == 0#64 && index.overflow.isEmpty

def wordsFor (ticks : Nat) : Nat := (ticks + 63) / 64

/-- `price - base` is compared after a cast to unsigned, so that one comparison
does both bounds: below the base it wraps to a very large offset. -/
def inBand (index : SideIndex) (price : Int) : Bool :=
  index.anchored && decide (0 ≤ price - index.base ∧ price - index.base < index.bandTicks)

def tickOf (index : SideIndex) (price : Int) : Nat := (price - index.base).toNat

def priceOf (index : SideIndex) (tick : Nat) : Int := index.base + tick

def anchor (index : SideIndex) (price : Int) : SideIndex :=
  let anchored := { index with base := price - (index.bandTicks / 2 : Nat), anchored := true }
  match index.ladder with
  | some _ => anchored
  | none =>
      { anchored with
        ladder := some fun _ => none
        occupancy := List.replicate (wordsFor index.bandTicks) 0#64
        midSummary := List.replicate (wordsFor (wordsFor index.bandTicks)) 0#64 }

def setOccupied (index : SideIndex) (tick : Nat) : SideIndex :=
  let word := tick >>> 6
  { index with
    occupancy := index.occupancy.set word (index.occupancy.getD word 0#64 ||| oneBit (tick &&& 63))
    midSummary := index.midSummary.set (word >>> 6)
      (index.midSummary.getD (word >>> 6) 0#64 ||| oneBit (word &&& 63))
    summary := index.summary ||| oneBit (word >>> 6) }

def clearOccupied (index : SideIndex) (tick : Nat) : SideIndex :=
  let word := tick >>> 6
  let cleared := index.occupancy.getD word 0#64 &&& ~~~oneBit (tick &&& 63)
  let index := { index with occupancy := index.occupancy.set word cleared }
  if cleared ≠ 0#64 then index
  else
    -- Only a word that empties makes the summaries above it stale.
    let mid := word >>> 6
    let clearedMid := index.midSummary.getD mid 0#64 &&& ~~~oneBit (word &&& 63)
    let index := { index with midSummary := index.midSummary.set mid clearedMid }
    if clearedMid = 0#64 then { index with summary := index.summary &&& ~~~oneBit mid } else index

def isOccupied (index : SideIndex) (tick : Nat) : Bool :=
  index.occupancy.getD (tick >>> 6) 0#64 &&& oneBit (tick &&& 63) != 0#64

/-- These four return `bandTicks` when there is no such tick. -/
def highestOccupied (index : SideIndex) : Nat :=
  if index.summary = 0#64 then index.bandTicks
  else
    let mid := highestBit index.summary
    let word := mid <<< 6 ||| highestBit (index.midSummary.getD mid 0#64)
    word <<< 6 ||| highestBit (index.occupancy.getD word 0#64)

def lowestOccupied (index : SideIndex) : Nat :=
  if index.summary = 0#64 then index.bandTicks
  else
    let mid := lowestBit index.summary
    let word := mid <<< 6 ||| lowestBit (index.midSummary.getD mid 0#64)
    word <<< 6 ||| lowestBit (index.occupancy.getD word 0#64)

def highestOccupiedBelow (index : SideIndex) (tick : Nat) : Nat :=
  if index.summary = 0#64 ∨ tick = 0 then index.bandTicks
  else
    let word := tick >>> 6
    let rest := index.occupancy.getD word 0#64 &&& maskBelow (tick &&& 63)
    if rest ≠ 0#64 then word <<< 6 ||| highestBit rest
    else
      let mid := word >>> 6
      let rest := index.midSummary.getD mid 0#64 &&& maskBelow (word &&& 63)
      if rest ≠ 0#64 then
        let word := mid <<< 6 ||| highestBit rest
        word <<< 6 ||| highestBit (index.occupancy.getD word 0#64)
      else
        let rest := index.summary &&& maskBelow mid
        if rest = 0#64 then index.bandTicks
        else
          let mid := highestBit rest
          let word := mid <<< 6 ||| highestBit (index.midSummary.getD mid 0#64)
          word <<< 6 ||| highestBit (index.occupancy.getD word 0#64)

def lowestOccupiedAbove (index : SideIndex) (tick : Nat) : Nat :=
  if index.summary = 0#64 ∨ tick + 1 ≥ index.bandTicks then index.bandTicks
  else
    let word := tick >>> 6
    let rest := index.occupancy.getD word 0#64 &&& maskAbove (tick &&& 63)
    if rest ≠ 0#64 then word <<< 6 ||| lowestBit rest
    else
      let mid := word >>> 6
      let rest := index.midSummary.getD mid 0#64 &&& maskAbove (word &&& 63)
      if rest ≠ 0#64 then
        let word := mid <<< 6 ||| lowestBit rest
        word <<< 6 ||| lowestBit (index.occupancy.getD word 0#64)
      else
        let rest := index.summary &&& maskAbove mid
        if rest = 0#64 then index.bandTicks
        else
          let mid := lowestBit rest
          let word := mid <<< 6 ||| lowestBit (index.midSummary.getD mid 0#64)
          word <<< 6 ||| lowestBit (index.occupancy.getD word 0#64)

/-- Reading and writing through a level reference. -/
def read (index : SideIndex) : LevelRef → LevelSlot
  | .laddered tick => (index.ladder.bind (· tick)).getD {}
  | .spilled price => (index.overflow.find? price).getD {}

def write (index : SideIndex) (ref : LevelRef) (level : LevelSlot) : SideIndex :=
  match ref with
  | .laddered tick =>
      { index with ladder := index.ladder.map fun cells => Function.update cells tick (some level) }
  | .spilled price => { index with overflow := index.overflow.insert price level }

/-- `levelFor` once the band is where it should be. -/
def createLevel (index : SideIndex) (price : Int) : SideIndex × LevelRef :=
  if index.inBand price then
    let tick := index.tickOf price
    if index.isOccupied tick then (index, .laddered tick)
    else ((index.setOccupied tick).write (.laddered tick) {}, .laddered tick)
  else
    match index.overflow.find? price with
    | some _ => (index, .spilled price)
    | none => ({ index with overflow := index.overflow.insert price {} }, .spilled price)

/-- Creates the level if this price has none. A side with nothing in it has no
reason to keep its old base, so it re-anchors first. -/
def levelFor (index : SideIndex) (price : Int) : SideIndex × LevelRef :=
  if index.bandTicks ≠ 0 ∧ (index.anchored = false ∨ index.empty = true) then
    (index.anchor price).createLevel price
  else index.createLevel price

/-- `none` if no order rests at this price. -/
def findLevel (index : SideIndex) (price : Int) : Option LevelRef :=
  if index.inBand price then
    if index.isOccupied (index.tickOf price) then some (.laddered (index.tickOf price)) else none
  else (index.overflow.find? price).map fun _ => .spilled price

def eraseLevel (index : SideIndex) (price : Int) : SideIndex :=
  if index.inBand price then index.clearOccupied (index.tickOf price)
  else { index with overflow := index.overflow.erase price }

/-- Precondition: a level rests at this price. -/
def levelAt (index : SideIndex) (price : Int) : LevelRef :=
  if index.inBand price then .laddered (index.tickOf price) else .spilled price

/-- The best price the overflow map holds. -/
def spilledBest (index : SideIndex) : Int :=
  match index.side with
  | .buy => index.overflow.lastKey?.getD 0
  | .sell => index.overflow.firstKey?.getD 0

/-- Precondition: the side is not empty. -/
def bestPrice (index : SideIndex) : Int :=
  let tick := match index.side with
    | .buy => index.highestOccupied
    | .sell => index.lowestOccupied
  if tick = index.bandTicks then index.spilledBest
  else if index.overflow.isEmpty then index.priceOf tick
  else
    let laddered := index.priceOf tick
    let spilled := index.spilledBest
    match index.side with
    | .buy => if laddered > spilled then laddered else spilled
    | .sell => if laddered < spilled then laddered else spilled

/-- The next occupied level in priority order, strictly past `price`: a two-way
merge of the ladder and the overflow map, one step at a time. -/
def nextPrice (index : SideIndex) (price : Int) : Option Int :=
  let laddered :=
    if index.anchored ∧ index.summary ≠ 0#64 then
      let first := index.base
      let last := index.base + index.bandTicks - 1
      let tick := match index.side with
        | .buy =>
            if price > last then index.highestOccupied
            else if price ≤ first then index.bandTicks
            else index.highestOccupiedBelow (index.tickOf price)
        | .sell =>
            if price < first then index.lowestOccupied
            else if price ≥ last then index.bandTicks
            else index.lowestOccupiedAbove (index.tickOf price)
      if tick ≠ index.bandTicks then some (index.priceOf tick) else none
    else none
  let spilled :=
    if index.overflow.isEmpty then none
    else match index.side with
      | .buy => index.overflow.lastKeyBelow? price
      | .sell => index.overflow.firstKeyAbove? price
  match laddered, spilled with
  | none, spilled => spilled
  | some laddered, none => some laddered
  | some laddered, some spilled =>
      match index.side with
      | .buy => some (if laddered > spilled then laddered else spilled)
      | .sell => some (if laddered < spilled then laddered else spilled)

end SideIndex

end Mdh.Matching
