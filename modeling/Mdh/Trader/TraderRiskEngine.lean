import Mdh.Core.Messages
import Mdh.Core.Rounding
import Mdh.Lib.KeyedStore
import Mdh.Trader.OrderManagementSystem

/-! The trader's own cash and holdings, and the pre-trade check made against them: the exchange's
three checks. Only what has settled counts: nothing is reserved for an order in flight. -/

namespace Mdh.Trader
open Mdh.Core Mdh.Lib Mdh.Lib.KeyedStore

structure AccountPosition where
  cash : Int := 0
  holdings : Store InstrumentId Int := ∅

instance : Inhabited AccountPosition := ⟨{}⟩

structure PositionTracker where
  accounts : Store AccountId AccountPosition := ∅

namespace PositionTracker
variable (round : Rounding) (positions : PositionTracker)

def depositCash (accountId : AccountId) (amount : Int) : PositionTracker where
  accounts := modifyAt positions.accounts accountId fun account =>
    { account with cash := round.signed (account.cash + amount) }

def depositPosition (accountId : AccountId) (instrumentId : InstrumentId) (amount : Nat) : PositionTracker where
  accounts := modifyAt positions.accounts accountId fun account =>
    { account with
      holdings := modifyAt account.holdings instrumentId fun held => round.unsigned (held + amount) }

/-- A buy pays for its units and a sell is paid. -/
def apply (fill : Fill) : PositionTracker where
  accounts := modifyAt positions.accounts fill.accountId fun account =>
    let notional := round.signed (round.signed fill.quantity * fill.price)
    match fill.side with
    | .buy => { account with
        cash := round.signed (account.cash - notional)
        holdings := modifyAt account.holdings fill.instrumentId fun held => round.unsigned (held + fill.quantity) }
    | .sell => { account with
        cash := round.signed (account.cash + notional)
        holdings := modifyAt account.holdings fill.instrumentId fun held => round.unsigned (held - fill.quantity) }

/-- Zero for an account never seen. -/
def cash (accountId : AccountId) : Int := (valueAt positions.accounts accountId).cash

def position (accountId : AccountId) (instrumentId : InstrumentId) : Int :=
  valueAt (valueAt positions.accounts accountId).holdings instrumentId

end PositionTracker

structure TraderRiskLimits where
  maxOrderQuantity : Nat := 1000000

namespace TraderRiskEngine

def check (round : Rounding) (limits : TraderRiskLimits) (accountId : AccountId) (instrumentId : InstrumentId)
    (side : Side) (price : Int) (quantity : Nat) (positions : PositionTracker) : RejectReason :=
  if quantity > limits.maxOrderQuantity then .orderTooLarge
  else
    match side with
    | .buy =>
        let notional := round.signed (round.signed quantity * price)
        if positions.cash accountId < notional then .insufficientFunds else .none
    | .sell => if positions.position accountId instrumentId < quantity then .insufficientPosition else .none

end TraderRiskEngine

end Mdh.Trader
