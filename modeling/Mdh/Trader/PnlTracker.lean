import Mdh.Core.CheckedArithmetic
import Mdh.Lib.KeyedStore
import Mdh.Trader.OrderManagementSystem

/-! Trading performance, kept from the fills alone: a signed position that starts at zero, the
notional of what is still open, and what closing the rest has realized. A close takes a
proportional slice of the open notional, rounded; the rounding stays in what remains. -/

namespace Mdh.Trader
open Mdh.Core Mdh.Lib Mdh.Lib.KeyedStore

structure InstrumentPnl where
  position : Int := 0
  openNotional : Int := 0
  realized : Int := 0
  filledQuantity : Int := 0
  fillCount : Int := 0
  deriving DecidableEq, Repr

instance : Inhabited InstrumentPnl := ⟨{}⟩

/-- An instrument's performance at a mark price. -/
structure PnlSnapshot where
  position : Int := 0
  averageEntryPrice : Int := 0
  realized : Int := 0
  unrealized : Int := 0
  total : Int := 0
  filledQuantity : Int := 0
  fillCount : Int := 0
  deriving DecidableEq, Repr

structure PnlTracker where
  accounts : Store AccountId (Store InstrumentId InstrumentPnl) := ∅

namespace InstrumentPnl
variable {m : Type → Type} [Monad m] (arithmetic : Arithmetic m) (pnl : InstrumentPnl)

def magnitude (value : Int) : m Int := if value < 0 then arithmetic.signed (-value) else pure value

def signOf (value : Int) : Int := if value < 0 then -1 else 1

/-- Units bought or sold at a price, on top of what is open. -/
def openAt (delta price : Int) : m InstrumentPnl := do
  let position ← arithmetic.signed (pnl.position + delta)
  let notional ← arithmetic.signed (delta * price)
  let openNotional ← arithmetic.signed (pnl.openNotional + notional)
  return { pnl with position, openNotional }

/-- Whatever a fill had left over past flat opens a new position on the other side. -/
def flipAt (flipped delta price : Int) : m InstrumentPnl := do
  if 0 < flipped then
    if 0 < delta then openAt arithmetic pnl flipped price
    else
      let flippedSigned ← arithmetic.signed (-flipped)
      openAt arithmetic pnl flippedSigned price
  else return pnl

/-- Reduces, closes or flips: the closing part first, against a proportional slice of the open
notional, then what the fill has left over past flat, at its own price. -/
def closeAt (delta price : Int) : m InstrumentPnl := do
  let opened ← magnitude arithmetic pnl.position
  let size ← magnitude arithmetic delta
  let closed := min opened size
  let scaled ← arithmetic.signed (pnl.openNotional * closed)
  let closedNotional ← arithmetic.quotient scaled opened
  let units ← arithmetic.signed (signOf pnl.position * closed)
  let proceeds ← arithmetic.signed (units * price)
  let gain ← arithmetic.signed (proceeds - closedNotional)
  let realized ← arithmetic.signed (pnl.realized + gain)
  let openNotional ← arithmetic.signed (pnl.openNotional - closedNotional)
  let position ← arithmetic.signed (pnl.position - units)
  let flipped ← arithmetic.signed (size - closed)
  let held ← flipAt arithmetic { pnl with position, openNotional, realized } flipped delta price
  return if held.position = 0 then { held with openNotional := 0 } else held

/-- Units bought count up and units sold count down. -/
def deltaOf (fill : Fill) : m Int := do
  let quantity ← arithmetic.signed fill.quantity
  match fill.side with
  | .buy => return quantity
  | .sell => arithmetic.signed (-quantity)

def applyFill (fill : Fill) : m InstrumentPnl := do
  let delta ← deltaOf arithmetic fill
  let filledQuantity ← arithmetic.unsigned (pnl.filledQuantity + fill.quantity)
  let fillCount ← arithmetic.unsigned (pnl.fillCount + 1)
  let counted := { pnl with filledQuantity, fillCount }
  if counted.position = 0 ∨ (0 < counted.position ↔ 0 < delta) then
    openAt arithmetic counted delta fill.price
  else closeAt arithmetic counted delta fill.price

/-- Nothing is unrealized without a mark. -/
def snapshotAt (mark : Option Int) : m PnlSnapshot := do
  let averageEntryPrice ← if pnl.position = 0 then pure 0 else arithmetic.quotient pnl.openNotional pnl.position
  let unrealized ← match mark with
    | none => pure 0
    | some price => do
      let value ← arithmetic.signed (pnl.position * price)
      arithmetic.signed (value - pnl.openNotional)
  let total ← arithmetic.signed (pnl.realized + unrealized)
  return {
    position := pnl.position
    averageEntryPrice, unrealized, total
    realized := pnl.realized
    filledQuantity := pnl.filledQuantity
    fillCount := pnl.fillCount }

end InstrumentPnl

namespace PnlTracker
variable {m : Type → Type} [Monad m] (arithmetic : Arithmetic m) (tracker : PnlTracker)

/-- The entry of a pair, all zero before its first fill. -/
def pnlOf (accountId : AccountId) (instrumentId : InstrumentId) : InstrumentPnl :=
  valueAt (valueAt tracker.accounts accountId) instrumentId

def apply (fill : Fill) : m PnlTracker := do
  let pnl ← (tracker.pnlOf fill.accountId fill.instrumentId).applyFill arithmetic fill
  return ⟨modifyAt tracker.accounts fill.accountId fun instruments =>
    modifyAt instruments fill.instrumentId fun _ => pnl⟩

def applyAll (fills : List Fill) : m PnlTracker := fills.foldlM (apply arithmetic) tracker

def snapshot (accountId : AccountId) (instrumentId : InstrumentId) (mark : Option Int) : m PnlSnapshot :=
  match tracker.accounts.lookup accountId with
  | none => pure {}
  | some instruments =>
    match instruments.lookup instrumentId with
    | none => pure {}
    | some pnl => pnl.snapshotAt arithmetic mark

end PnlTracker

end Mdh.Trader
