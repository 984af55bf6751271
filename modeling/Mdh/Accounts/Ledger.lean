import Mdh.Core.Messages
import Mdh.Core.Rounding
import Mdh.Lib.KeyedStore

/-! Per-account cash and position balances, kept up to date by watching the matching
engine's event stream. A resting GTC order has what it may cost reserved for as long
as it rests. -/

namespace Mdh.Accounts
open Mdh.Core Mdh.Lib Mdh.Lib.KeyedStore

structure AccountBalances where
  cashTotal : Int := 0
  cashReserved : Int := 0
  positionTotal : Store InstrumentId Int := ∅
  positionReserved : Store InstrumentId Int := ∅

instance : Inhabited AccountBalances := ⟨{}⟩

structure HoldView where
  instrumentId : InstrumentId
  side : Side
  limitPrice : Int
  remaining : Nat
  deriving DecidableEq, Repr

/-- One open reservation against a live order. -/
structure Hold where
  instrumentId : InstrumentId
  side : Side
  limitPrice : Int
  remaining : Nat
  deriving DecidableEq, Repr

structure HoldKey where
  accountId : AccountId
  clientOrderId : ClientOrderId
  deriving DecidableEq, Repr

structure Ledger where
  accounts : Store AccountId AccountBalances := ∅
  holds : Store HoldKey Hold := ∅
  accountCount : Nat := 0
  holdCount : Nat := 0

namespace Ledger

/-- Edits the balances of an account, which exists from then on. -/
def accountRef (ledger : Ledger) (accountId : AccountId) (change : AccountBalances → AccountBalances) : Ledger :=
  { ledger with
    accounts := modifyAt ledger.accounts accountId change
    accountCount := if accountId ∈ ledger.accounts then ledger.accountCount else ledger.accountCount + 1 }

def eraseHold (ledger : Ledger) (key : HoldKey) : Ledger :=
  { ledger with holds := ledger.holds.erase key, holdCount := ledger.holdCount - 1 }

/-- All zero for an account never seen. -/
def balances (ledger : Ledger) (accountId : AccountId) : AccountBalances := valueAt ledger.accounts accountId

def findHold (ledger : Ledger) (accountId : AccountId) (clientOrderId : ClientOrderId) : Option HoldView :=
  (ledger.holds.lookup ⟨accountId, clientOrderId⟩).map fun hold =>
    { instrumentId := hold.instrumentId, side := hold.side, limitPrice := hold.limitPrice, remaining := hold.remaining }

section Arithmetic
variable (round : Rounding)

def addCash (amount : Int) (balances : AccountBalances) : AccountBalances :=
  { balances with cashTotal := round.signed (balances.cashTotal + amount) }

def addCashReserved (amount : Int) (balances : AccountBalances) : AccountBalances :=
  { balances with cashReserved := round.signed (balances.cashReserved + amount) }

def addPosition (instrumentId : InstrumentId) (amount : Int) (balances : AccountBalances) : AccountBalances :=
  { balances with
    positionTotal := modifyAt balances.positionTotal instrumentId fun held => round.unsigned (held + amount) }

def addPositionReserved (instrumentId : InstrumentId) (amount : Int) (balances : AccountBalances) : AccountBalances :=
  { balances with
    positionReserved := modifyAt balances.positionReserved instrumentId fun held => round.unsigned (held + amount) }

/-- `static_cast<Balance>(quantity) * price`. -/
def notional (quantity : Nat) (price : Int) : Int := round.signed (round.signed quantity * price)

def depositCash (ledger : Ledger) (accountId : AccountId) (amount : Int) : Ledger :=
  ledger.accountRef accountId (addCash round amount)

def depositPosition (ledger : Ledger) (accountId : AccountId) (instrumentId : InstrumentId) (amount : Nat) : Ledger :=
  ledger.accountRef accountId (addPosition round instrumentId amount)

/-- Cash not already locked behind a resting order. -/
def availableCash (ledger : Ledger) (accountId : AccountId) : Int :=
  match ledger.accounts.lookup accountId with
  | none => 0
  | some balances => round.signed (balances.cashTotal - balances.cashReserved)

/-- Units not already locked behind a resting sell. -/
def availablePosition (ledger : Ledger) (accountId : AccountId) (instrumentId : InstrumentId) : Int :=
  match ledger.accounts.lookup accountId with
  | none => 0
  | some balances =>
      round.unsigned (valueAt balances.positionTotal instrumentId - valueAt balances.positionReserved instrumentId)

/-- What an order of this side locks, added to or, with a negative sign, taken from what
is locked already. -/
def addReserved (side : Side) (instrumentId : InstrumentId) (limitPrice : Int) (quantity : Nat) (sign : Int) :
    AccountBalances → AccountBalances :=
  match side with
  | .buy => addCashReserved round (sign * notional round quantity limitPrice)
  | .sell => addPositionReserved round instrumentId (sign * quantity)

/-- Opens a reservation. With nothing to reserve it does nothing. -/
def openHold (ledger : Ledger) (accountId : AccountId) (clientOrderId : ClientOrderId) (instrumentId : InstrumentId)
    (side : Side) (limitPrice : Int) (quantity : Nat) : Ledger :=
  if quantity = 0 then ledger
  else
    let ledger := ledger.accountRef accountId (addReserved round side instrumentId limitPrice quantity 1)
    let key : HoldKey := ⟨accountId, clientOrderId⟩
    { ledger with
      holds := ledger.holds.insert key { instrumentId, side, limitPrice, remaining := quantity }
      holdCount := if key ∈ ledger.holds then ledger.holdCount else ledger.holdCount + 1 }

/-- Releases a hold's whole remaining reservation. -/
def releaseHoldFully (ledger : Ledger) (accountId : AccountId) (hold : Hold) : Ledger :=
  if hold.remaining = 0 then ledger
  else ledger.accountRef accountId
    (addReserved round hold.side hold.instrumentId hold.limitPrice hold.remaining (-1))

/-- What settling a leg does to its hold: the filled slice is released at the hold's own
limit price, and the hold shrinks to what the engine reports as remaining. -/
def shrinkHold (ledger : Ledger) (leg : TradeCounterparty) (side : Side) (instrumentId : InstrumentId)
    (tradeQuantity : Nat) : Ledger :=
  let key : HoldKey := ⟨leg.accountId, leg.clientOrderId⟩
  match ledger.holds.lookup key with
  | none => ledger
  | some hold =>
      let ledger := ledger.accountRef leg.accountId
        (addReserved round side instrumentId hold.limitPrice tradeQuantity (-1))
      if leg.remainingQuantity = 0 then ledger.eraseHold key
      else { ledger with holds := ledger.holds.insert key { hold with remaining := leg.remainingQuantity } }

/-- One side of a trade: its hold shrinks and its cash and units move. -/
def settleLeg (ledger : Ledger) (leg : TradeCounterparty) (side : Side) (instrumentId : InstrumentId) (tradePrice : Int)
    (tradeQuantity : Nat) : Ledger :=
  let ledger := ledger.accountRef leg.accountId id
  let ledger := ledger.shrinkHold round leg side instrumentId tradeQuantity
  let sign : Int := match side with
    | .buy => 1
    | .sell => -1
  ledger.accountRef leg.accountId fun balances =>
    addPosition round instrumentId (sign * tradeQuantity)
      (addCash round (-(sign * notional round tradeQuantity tradePrice)) balances)

/-- Only a GTC order is reserved for. -/
def onOrderAccepted (ledger : Ledger) (event : OrderAccepted) : Ledger :=
  if event.timeInForce ≠ .gtc then ledger
  else ledger.openHold round event.accountId event.clientOrderId event.instrumentId event.side event.price event.quantity

/-- The old hold is released in full and a fresh one opened, whichever way the engine
replaced the order. -/
def onOrderReplaced (ledger : Ledger) (event : OrderReplaced) : Ledger :=
  let key : HoldKey := ⟨event.accountId, event.originalClientOrderId⟩
  match ledger.holds.lookup key with
  | none => ledger
  | some old =>
      ((ledger.releaseHoldFully round event.accountId old).eraseHold key).openHold round event.accountId
        event.newClientOrderId event.instrumentId old.side event.newPrice event.newQuantity

def onOrderCancelled (ledger : Ledger) (event : OrderCancelled) : Ledger :=
  let key : HoldKey := ⟨event.accountId, event.clientOrderId⟩
  match ledger.holds.lookup key with
  | none => ledger
  | some hold => (ledger.releaseHoldFully round event.accountId hold).eraseHold key

/-- The buyer's leg is settled first. -/
def onTradeExecuted (ledger : Ledger) (event : TradeExecuted) : Ledger :=
  let ledger := ledger.settleLeg round event.buyer .buy event.instrumentId event.price event.quantity
  ledger.settleLeg round event.seller .sell event.instrumentId event.price event.quantity

/-- A rejection and the book's own events name no account. -/
def apply (ledger : Ledger) : ExchangeEvent → Ledger
  | .orderAccepted event => ledger.onOrderAccepted round event
  | .orderReplaced event => ledger.onOrderReplaced round event
  | .orderCancelled event => ledger.onOrderCancelled round event
  | .tradeExecuted event => ledger.onTradeExecuted round event
  | _ => ledger

end Arithmetic

end Ledger

end Mdh.Accounts
