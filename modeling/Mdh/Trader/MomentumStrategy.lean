import Mdh.Feed.BookStorage
import Mdh.Trader.PnlTracker
import Mdh.Trader.StrategyDesk

/-! The momentum strategy: it buys when the midpoint has risen over a window of book updates and
sells when it has fallen, with immediate orders priced through the touch. -/

namespace Mdh.Trader
open Mdh.Core Mdh.Feed Mdh.Lib

structure MomentumStrategyConfig where
  instrumentId : InstrumentId := 1
  lookback : Nat := 20
  entryThreshold : Int := 100
  tradeSize : Nat := 50
  maxPosition : Int := 500
  crossSlack : Int := 100
  cooldownUpdates : Nat := 20
  deriving DecidableEq, Repr

/-- The midpoints, oldest first, and the updates since the last order. -/
structure MomentumStrategy where
  config : MomentumStrategyConfig
  mids : List Int := []
  updatesSinceOrder : Nat := 0
  deriving DecidableEq, Repr

namespace MomentumStrategy
variable (strategy : MomentumStrategy)

def signal : Option Int :=
  if strategy.mids.length ≤ strategy.config.lookback then none
  else some (strategy.mids.getLastD 0 - strategy.mids.headD 0)

/-- The window never spans more than the lookback. -/
def sample (mid : Int) : MomentumStrategy :=
  let mids := strategy.mids ++ [mid]
  { strategy with mids := mids.drop (mids.length - (strategy.config.lookback + 1)) }

/-- The room there is before the cap on a side. -/
def room (position : Int) : Side → Int
  | .buy => strategy.config.maxPosition - position
  | .sell => strategy.config.maxPosition + position

/-- The order is shrunk to fit the room. -/
def headroom (position : Int) (side : Side) : Nat :=
  let room := strategy.room position side
  if room ≤ 0 then 0 else min strategy.config.tradeSize room.toNat

/-- The side that the signal points to, if it is large enough, and the price to trade at. -/
def entry (signal bestBid bestAsk : Int) : Option (Side × Int) :=
  if signal ≥ strategy.config.entryThreshold then some (.buy, bestAsk + strategy.config.crossSlack)
  else if signal ≤ -strategy.config.entryThreshold then some (.sell, max 1 (bestBid - strategy.config.crossSlack))
  else none

/-- What the strategy makes of a book update, and whether it would trade on it. -/
def observeBook (instrumentId : InstrumentId) (book : StoredBook) : MomentumStrategy × Option (Side × Int) :=
  if instrumentId ≠ strategy.config.instrumentId then (strategy, none)
  else
    match book.bestBid, book.bestAsk with
    | some bestBid, some bestAsk =>
        let strategy := strategy.sample ((bestBid.price + bestAsk.price).tdiv 2)
        match strategy.signal with
        | none => (strategy, none)
        | some signal =>
            let strategy := { strategy with updatesSinceOrder := strategy.updatesSinceOrder + 1 }
            if strategy.updatesSinceOrder ≤ strategy.config.cooldownUpdates then (strategy, none)
            else (strategy, strategy.entry signal bestBid.price bestAsk.price)
    | _, _ => (strategy, none)

/-- The cooldown starts again even if the order is turned down. -/
def onBookUpdate (round : Rounding) (limits : TraderRiskLimits) (position : Int) (client : Client)
    (instrumentId : InstrumentId) (book : StoredBook) (sent : Bool) : Client × MomentumStrategy :=
  match strategy.observeBook instrumentId book with
  | (strategy, none) => (client, strategy)
  | (strategy, some (side, limitPrice)) =>
      let quantity := strategy.headroom position side
      if quantity = 0 then (client, strategy)
      else
        let (client, _) := TraderRiskGatedOms.submitNewOrder round limits client strategy.config.instrumentId side limitPrice
          quantity .limit .ioc sent
        (client, { strategy with updatesSinceOrder := 0 })

end MomentumStrategy

/-- The strategy and the profit tracker that it reads its position from. -/
structure MomentumTrading where
  strategy : MomentumStrategy
  pnl : PnlTracker := {}

/-- A book update, and whether the request would go out. -/
structure BookUpdate where
  instrumentId : InstrumentId
  book : StoredBook
  sent : Bool

/-- What was bought less what was sold, of the fills delivered so far. -/
def MomentumTrading.netPosition (trading : MomentumTrading) (accountId : AccountId) : Int :=
  Id.run do
    let snapshot ← trading.pnl.snapshot .exact accountId trading.strategy.config.instrumentId none
    return snapshot.position

def momentum (round : Rounding) (limits : TraderRiskLimits) : Strategy MomentumTrading BookUpdate where
  act update client trading :=
    let (client, strategy) := trading.strategy.onBookUpdate round limits (trading.netPosition client.oms.accountId) client
      update.instrumentId update.book update.sent
    (client, { trading with strategy })
  observe fill trading := { trading with pnl := Id.run (trading.pnl.apply .exact fill) }

section Outcomes
variable {round : Rounding} {limits : TraderRiskLimits}

namespace MomentumStrategy
variable (strategy : MomentumStrategy)

theorem observeBook_config (instrumentId : InstrumentId) (book : StoredBook) :
    (strategy.observeBook instrumentId book).1.config = strategy.config := by
  unfold observeBook
  split_ifs
  · rfl
  · split
    · dsimp only
      split
      · rfl
      · split_ifs <;> rfl
    · rfl

/-- What a book update comes to: nothing, or an immediate order on the side that is pointed to. -/
inductive Moves (round : Rounding) (limits : TraderRiskLimits) (strategy : MomentumStrategy) (position : Int)
    (client : Client) (instrumentId : InstrumentId) (book : StoredBook) (sent : Bool) : Client → Prop where
  | stays : Moves round limits strategy position client instrumentId book sent client
  | trades (side : Side) (limitPrice : Int)
      (points : (strategy.observeBook instrumentId book).2 = some (side, limitPrice))
      (passes : TraderRiskEngine.check round limits client.oms.accountId strategy.config.instrumentId side limitPrice
        (strategy.headroom position side) client.positions = .none) :
      Moves round limits strategy position client instrumentId book sent
        (client.call (.submitNewOrder strategy.config.instrumentId side limitPrice (strategy.headroom position side) .limit
          .ioc sent))

theorem onBookUpdate_moves (round : Rounding) (limits : TraderRiskLimits) (position : Int) (client : Client) (instrumentId : InstrumentId) (book : StoredBook) (sent : Bool) :
    Moves round limits strategy position client instrumentId book sent
        (strategy.onBookUpdate round limits position client instrumentId book sent).1 ∧
      (strategy.onBookUpdate round limits position client instrumentId book sent).2.config = strategy.config := by
  have same := strategy.observeBook_config instrumentId book
  unfold onBookUpdate
  rcases observed : strategy.observeBook instrumentId book with ⟨after, _ | ⟨side, limitPrice⟩⟩
  · rw [observed] at same
    exact ⟨.stays, same⟩
  · rw [observed] at same
    have config : after.config = strategy.config := same
    have room : after.headroom position side = strategy.headroom position side := by
      unfold headroom MomentumStrategy.room
      rw [config]
    dsimp only
    unfold TraderRiskGatedOms.submitNewOrder
    split_ifs with none passes
    · exact ⟨.stays, config⟩
    · refine ⟨?_, config⟩
      rw [room, config] at passes ⊢
      exact .trades side limitPrice (congrArg Prod.snd observed) passes
    · exact ⟨.stays, config⟩

end MomentumStrategy

theorem momentum_calls : (momentum round limits).Calls := by
  intro update client trading
  have moves := (trading.strategy.onBookUpdate_moves round limits (trading.netPosition client.oms.accountId) client
    update.instrumentId update.book update.sent).1
  have result : ((momentum round limits).act update client trading).1 = (trading.strategy.onBookUpdate round limits
      (trading.netPosition client.oms.accountId) client update.instrumentId update.book update.sent).1 := rfl
  rw [result]
  generalize (trading.strategy.onBookUpdate round limits (trading.netPosition client.oms.accountId) client
    update.instrumentId update.book update.sent).1 = after at moves
  cases moves with
  | stays => exact ⟨[], rfl⟩
  | trades side limitPrice => exact ⟨[.submitNewOrder _ _ _ _ _ _ _], rfl⟩

end Outcomes

end Mdh.Trader
