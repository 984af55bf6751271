import Mdh.Feed.BookStorage
import Mdh.Trader.QuotePlans

/-! The market maker: one quote on each side of the midpoint of the book. The side is moved first whose
order, as the strategy believes it to stand, is in the way of the other's. -/

namespace Mdh.Trader
open Mdh.Core Mdh.Feed Mdh.Gateway

structure MarketMakerConfig where
  instrumentId : InstrumentId
  quoteSize : Nat := 10
  halfSpread : Int := 1
  maxPosition : Nat := 100
  requoteThreshold : Int := 1
  deriving DecidableEq, Repr

structure MarketMakerStrategy where
  config : MarketMakerConfig
  bidOrderId : Option ClientOrderId := none
  askOrderId : Option ClientOrderId := none
  deriving DecidableEq, Repr

namespace MarketMakerStrategy
variable (strategy : MarketMakerStrategy)

def close (order : ClientOrder) (desiredPrice : Int) : Bool :=
  absDiff order.price desiredPrice < strategy.config.requoteThreshold

def updateSide (round : Rounding) (limits : TraderRiskLimits) (client : Client) (side : Side) (orderId : Option ClientOrderId)
    (desiredPrice : Option Int) (sent : Bool) : Client × Option ClientOrderId :=
  let (client, orderId, _) := requote round limits strategy.close strategy.config.instrumentId side strategy.config.quoteSize
    client orderId desiredPrice sent
  (client, orderId)

/-- The bid is withdrawn at the position cap. -/
def desiredBid (client : Client) (mid : Int) : Option Int :=
  if client.positions.position client.oms.accountId strategy.config.instrumentId ≥ strategy.config.maxPosition then none
  else some (mid - strategy.config.halfSpread)

def desiredAsk (mid : Int) : Option Int := some (mid + strategy.config.halfSpread)

/-- The desired price meets that of an order of the other side, unless that is known to be done with. -/
def wouldCross (side : Side) (client : Client) (desiredPrice : Option Int) (contraOrderId : Option ClientOrderId) : Bool :=
  ∃ price ∈ desiredPrice, ∃ current ∈ workingOrder client contraOrderId, side.Crosses price current.2.price

def midOf (bestBid bestAsk : PriceLevelView) : Int := (bestBid.price + bestAsk.price).tdiv 2

def onBookUpdate (round : Rounding) (limits : TraderRiskLimits) (client : Client) (instrumentId : InstrumentId)
    (book : StoredBook) (sent : Side → Bool) : Client × MarketMakerStrategy :=
  if instrumentId ≠ strategy.config.instrumentId then (client, strategy)
  else
    match book.bestBid, book.bestAsk with
    | some bestBid, some bestAsk =>
        let mid := midOf bestBid bestAsk
        let desiredBid := strategy.desiredBid client mid
        let desiredAsk := strategy.desiredAsk mid
        let bidWouldCross := wouldCross .buy client desiredBid strategy.askOrderId
        let askWouldCross := wouldCross .sell client desiredAsk strategy.bidOrderId
        if bidWouldCross ∧ ¬ askWouldCross then
          let (client, askOrderId) := strategy.updateSide round limits client .sell strategy.askOrderId desiredAsk (sent .sell)
          let (client, bidOrderId) := strategy.updateSide round limits client .buy strategy.bidOrderId desiredBid (sent .buy)
          (client, { strategy with bidOrderId, askOrderId })
        else
          -- The bid goes first whether the ask alone would cross, or neither, or both.
          let (client, bidOrderId) := strategy.updateSide round limits client .buy strategy.bidOrderId desiredBid (sent .buy)
          let (client, askOrderId) := strategy.updateSide round limits client .sell strategy.askOrderId desiredAsk (sent .sell)
          (client, { strategy with bidOrderId, askOrderId })
    | _, _ => (client, strategy)

end MarketMakerStrategy

structure QuotedBook where
  instrumentId : InstrumentId
  book : StoredBook

namespace MarketMakerStrategy

section Steps
variable (round : Rounding) (limits : TraderRiskLimits) (strategy : MarketMakerStrategy)

def orderId : Side → Option ClientOrderId
  | .buy => strategy.bidOrderId
  | .sell => strategy.askOrderId

def orderIds (side : Side) : List (Option ClientOrderId) := [strategy.orderId side]

def setOrderId (side : Side) (orderId : Option ClientOrderId) : MarketMakerStrategy :=
  match side with
  | .buy => { strategy with bidOrderId := orderId }
  | .sell => { strategy with askOrderId := orderId }

def desiredPrice (client : Client) (mid : Int) : Side → Option Int
  | .buy => strategy.desiredBid client mid
  | .sell => strategy.desiredAsk mid

def bidWouldCross (client : Client) (mid : Int) : Bool := wouldCross .buy client (strategy.desiredBid client mid) strategy.askOrderId

def askWouldCross (client : Client) (mid : Int) : Bool := wouldCross .sell client (strategy.desiredAsk mid) strategy.bidOrderId

/-- The side that is driven first. -/
def leading (client : Client) (mid : Int) : Side :=
  if strategy.bidWouldCross client mid ∧ ¬ strategy.askWouldCross client mid then .sell else .buy

def planAround (client : Client) (mid : Int) : QuotePlan where
  lead := strategy.leading client mid
  first := [{ level := 0, desiredPrice := strategy.desiredPrice client mid (strategy.leading client mid) }]
  second := [{ level := 0, desiredPrice := strategy.desiredPrice client mid (strategy.leading client mid).contra }]

/-- The midpoint that an update is quoted around, if it is ours and the book has both sides. -/
def midFor (update : QuotedBook) : Option Int :=
  if update.instrumentId ≠ strategy.config.instrumentId then none
  else
    match update.book.bestBid, update.book.bestAsk with
    | some bestBid, some bestAsk => some (midOf bestBid bestAsk)
    | _, _ => none

def planBook (client : Client) (update : QuotedBook) : QuotePlan := (strategy.midFor update).elim {} (strategy.planAround client)

def driveQuote (side : Side) (target : Target) (sent : Bool) (client : Client) : Client × MarketMakerStrategy :=
  match (strategy.orderIds side)[target.level]? with
  | none => (client, strategy)
  | some orderId =>
      let (client, orderId) := strategy.updateSide round limits client side orderId target.desiredPrice sent
      (client, strategy.setOrderId side orderId)

end Steps

def quoter (round : Rounding) (limits : TraderRiskLimits) : Quoter MarketMakerStrategy QuotedBook where
  plan update client strategy := (strategy, strategy.planBook client update)
  drive side target sent client strategy := strategy.driveQuote round limits side target sent client

section Drives
variable {round : Rounding} {limits : TraderRiskLimits} {strategy : MarketMakerStrategy} {side : Side}

/-- A book update is its plan, carried out at once. -/
theorem onBookUpdate_atOnce (client : Client) (update : QuotedBook) (sent : Side → Bool) :
    strategy.onBookUpdate round limits client update.instrumentId update.book sent =
      (quoter round limits).atOnce (fun side _ => sent side) (strategy.planBook client update) client strategy := by
  unfold onBookUpdate planBook midFor
  split_ifs with other
  · rfl
  · cases update.book.bestBid with
    | none => rfl
    | some bestBid =>
      cases update.book.bestAsk with
      | none => rfl
      | some bestAsk =>
        show _ = (quoter round limits).atOnce _ (strategy.planAround client (midOf bestBid bestAsk)) client strategy
        unfold planAround leading
        dsimp only
        split_ifs with away away'
        · rfl
        · exact absurd away away'
        · exact absurd ‹_› away
        · rfl

theorem orderIds_setOrderId (orderId : Option ClientOrderId) :
    (strategy.setOrderId side orderId).orderIds = Function.update strategy.orderIds side [orderId] := by
  funext other
  cases side <;> cases other <;> rfl

theorem driveQuote_drove (target : Target) (sent : Bool) (client : Client) :
    let (after, next) := strategy.driveQuote round limits side target sent client
    next.config = strategy.config ∧
      Quoter.Drove orderIds strategy.config.requoteThreshold side target sent client strategy after next := by
  unfold driveQuote
  cases there : (strategy.orderIds side)[target.level]? with
  | none => exact ⟨rfl, .absent there⟩
  | some orderId =>
    have first : target.level = 0 := Nat.lt_one_iff.mp (List.getElem?_eq_some_iff.mp there).1
    refine ⟨?_, .requotes there (fun order price near => of_decide_eq_true near) (requote_requoted target.desiredPrice sent) ?_⟩
    · cases side <;> rfl
    · rw [first]
      exact orderIds_setOrderId _

theorem quoter_calls : (quoter round limits).Calls := by
  intro side target sent client strategy
  show ∃ calls, (strategy.driveQuote round limits side target sent client).1 = _
  unfold driveQuote
  cases (strategy.orderIds side)[target.level]? with
  | none => exact ⟨[], rfl⟩
  | some orderId => exact (requote_requoted target.desiredPrice sent).calls

end Drives

end MarketMakerStrategy

end Mdh.Trader
