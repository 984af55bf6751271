import Mathlib.Data.List.AList
import Mdh.Core.Messages
import Mdh.Matching.MatchingBook

/-! The authoritative matching engine: a command goes in, events come out in order.
The order directory and the books are two stores, written together. -/

namespace Mdh.Matching
open Mdh.Core Mdh.Lib

/-- A client order id is only unique within an account. -/
structure LiveKey where
  accountId : AccountId
  clientOrderId : ClientOrderId
  deriving DecidableEq, Repr, Inhabited

/-- What the engine knows about a live order that its book does not. -/
structure OrderRef where
  originalQuantity : Nat
  orderSequence : Nat
  handle : Handle
  instrumentId : InstrumentId
  deriving DecidableEq, Repr, Inhabited

abbrev Directory := AList fun _ : LiveKey => OrderRef

structure InstrumentBookSnapshot where
  instrumentId : InstrumentId
  bids : List ExchangeRestingOrder
  asks : List ExchangeRestingOrder
  deriving DecidableEq, Repr

abbrev EngineStateSnapshot := List InstrumentBookSnapshot

structure MatchingEngine where
  slotOfId : List (Option Nat) := []
  books : List MatchingBook := []
  bandTicks : Nat := MatchingBook.kMaxBandTicks
  byId : List (InstrumentId × Nat) := []
  orders : Directory := ∅
  restingOrders : Nat := 0
  nextExchangeOrderId : Nat := 1
  nextEventSequence : Nat := 1
  nextPriority : Nat := 1

namespace MatchingEngine

def kMaxInstrumentId : Nat := 2 ^ 22 - 1

def kLadderByteBudget : Nat := 8 <<< 20

def knowsInstrument (engine : MatchingEngine) (instrumentId : InstrumentId) : Bool :=
  (engine.slotOfId.getD instrumentId none).isSome

/-- `slotOfId[instrumentId]`. The instrument is registered. -/
def slotFor (engine : MatchingEngine) (instrumentId : InstrumentId) : Nat :=
  (engine.slotOfId.getD instrumentId none).getD 0

def bookFor (engine : MatchingEngine) (instrumentId : InstrumentId) : MatchingBook :=
  engine.books.getD (engine.slotFor instrumentId) (MatchingBook.make 0)

def setBook (engine : MatchingEngine) (instrumentId : InstrumentId) (book : MatchingBook) : MatchingEngine :=
  { engine with books := engine.books.set (engine.slotFor instrumentId) book }

/-- `byId` stays sorted: the new entry goes to the lower bound of its id. -/
def insertById (instrumentId : InstrumentId) (slot : Nat) (byId : List (InstrumentId × Nat)) :
    List (InstrumentId × Nat) :=
  byId.takeWhile (fun entry => entry.1 < instrumentId) ++
    (instrumentId, slot) :: byId.dropWhile (fun entry => entry.1 < instrumentId)

def registerInstrument (engine : MatchingEngine) (instrumentId : InstrumentId) : MatchingEngine × Bool :=
  if instrumentId > kMaxInstrumentId ∨ engine.knowsInstrument instrumentId then (engine, false)
  else
    let slotOfId :=
      if instrumentId ≥ engine.slotOfId.length then
        engine.slotOfId ++ List.replicate (instrumentId + 1 - engine.slotOfId.length) none
      else engine.slotOfId
    let slot := engine.books.length
    let bandTicks := min engine.bandTicks (MatchingBook.bandFor (engine.books.length + 1) kLadderByteBudget)
    ({ engine with
        bandTicks
        books := engine.books ++ [MatchingBook.make bandTicks]
        slotOfId := slotOfId.set instrumentId (some slot)
        byId := insertById instrumentId slot engine.byId }, true)

/-- An engine built for a universe: the id table and the band are sized once, from
the widest id and the number of instruments. -/
def make (instruments : List InstrumentId) : MatchingEngine :=
  let widest := instruments.foldl
    (fun widest instrumentId => if instrumentId ≤ kMaxInstrumentId then max widest instrumentId else widest) 0
  let engine : MatchingEngine :=
    if instruments = [] then {}
    else
      { slotOfId := List.replicate (widest + 1) none
        bandTicks := MatchingBook.bandFor instruments.length kLadderByteBudget }
  instruments.foldl (fun engine instrumentId => (engine.registerInstrument instrumentId).1) engine

/-- A full resting order put back together. `none` where the directory has no entry
for the order. -/
def compose (engine : MatchingEngine) (instrumentId : InstrumentId) (order : BookOrder) :
    Option ExchangeRestingOrder :=
  (engine.orders.lookup ⟨order.accountId, order.clientOrderId⟩).map fun ref =>
    { exchangeOrderId := order.exchangeOrderId
      clientOrderId := order.clientOrderId
      accountId := order.accountId
      price := order.price
      originalQuantity := ref.originalQuantity
      remainingQuantity := order.remainingQuantity
      orderSequence := ref.orderSequence
      instrumentId
      side := order.side
      timeInForce := order.timeInForce }

/-- Every resting order of every instrument, in a fixed order. -/
def snapshot (engine : MatchingEngine) : Option EngineStateSnapshot := do
  let books ← engine.byId.mapM fun (instrumentId, slot) => do
    let book := engine.books.getD slot (MatchingBook.make 0)
    let bids ← book.allBids.mapM (engine.compose instrumentId)
    let asks ← book.allAsks.mapM (engine.compose instrumentId)
    return { instrumentId, bids, asks : InstrumentBookSnapshot }
  return books.filter fun entry => !(entry.bids.isEmpty && entry.asks.isEmpty)

def restingOrderCount (engine : MatchingEngine) : Nat := engine.restingOrders

def crossableQuantity (engine : MatchingEngine) (instrumentId : InstrumentId) (incomingSide : Side) (price : Int)
    (quantity : Nat) : Nat :=
  (engine.bookFor instrumentId).crossableQuantity incomingSide.contra price quantity

/-- An engine in the middle of a command, with the events emitted so far. -/
structure Step where
  engine : MatchingEngine
  events : List ExchangeEvent := []

/-- Emits one event under the engine's next sequence number. -/
def Step.sink (step : Step) (event : Nat → ExchangeEvent) : Step where
  engine := { step.engine with nextEventSequence := step.engine.nextEventSequence + 1 }
  events := step.events ++ [event step.engine.nextEventSequence]

def Step.onBook (step : Step) (instrumentId : InstrumentId) (change : MatchingBook → MatchingBook) : Step :=
  { step with engine := step.engine.setBook instrumentId (change (step.engine.bookFor instrumentId)) }

/-- Drops a live order's directory entry. -/
def Step.forget (step : Step) (key : LiveKey) : Step :=
  { step with engine := { step.engine with
      orders := step.engine.orders.erase key
      restingOrders := step.engine.restingOrders - 1 } }

def rejectNewOrder (command : NewOrderCommand) (reason : RejectReason) (step : Step) : Step :=
  step.sink fun eventSequence => .orderRejected {
    eventSequence
    commandSequence := command.commandSequence
    accountId := command.accountId
    clientOrderId := command.clientOrderId
    instrumentId := command.instrumentId
    reason }

def rejectCancelOrder (command : CancelOrderCommand) (reason : RejectReason) (step : Step) : Step :=
  step.sink fun eventSequence => .orderRejected {
    eventSequence
    commandSequence := command.commandSequence
    accountId := command.accountId
    clientOrderId := command.clientOrderId
    instrumentId := command.instrumentId
    reason }

/-- Reported under the original id, as every replace rejection is. -/
def rejectReplaceOrder (command : ReplaceOrderCommand) (reason : RejectReason) (step : Step) : Step :=
  step.sink fun eventSequence => .orderRejected {
    eventSequence
    commandSequence := command.commandSequence
    accountId := command.accountId
    clientOrderId := command.originalClientOrderId
    instrumentId := command.instrumentId
    reason }

def aggressorParty (incoming : ExchangeRestingOrder) : TradeCounterparty where
  accountId := incoming.accountId
  clientOrderId := incoming.clientOrderId
  exchangeOrderId := incoming.exchangeOrderId
  remainingQuantity := incoming.remainingQuantity

def restingParty (contra : BookOrder) (remainingQuantity : Nat) : TradeCounterparty where
  accountId := contra.accountId
  clientOrderId := contra.clientOrderId
  exchangeOrderId := contra.exchangeOrderId
  remainingQuantity

/-- The trade event of one fill: `incoming` as it is after the fill, at the resting
order's price. -/
def tradeEvent (commandSequence : Nat) (incoming : ExchangeRestingOrder) (contra : BookOrder) (tradeQuantity : Nat)
    (contraRemainingAfter : Nat) (eventSequence : Nat) : ExchangeEvent :=
  let aggressor := aggressorParty incoming
  let resting := restingParty contra contraRemainingAfter
  .tradeExecuted {
    eventSequence
    commandSequence
    instrumentId := incoming.instrumentId
    price := contra.price
    quantity := tradeQuantity
    aggressorSide := incoming.side
    buyer := if incoming.side = .buy then aggressor else resting
    seller := if incoming.side = .buy then resting else aggressor }

def removedEvent (instrumentId : InstrumentId) (order : BookOrder) (eventSequence : Nat) : ExchangeEvent :=
  .bookOrderRemoved {
    eventSequence
    instrumentId
    exchangeOrderId := order.exchangeOrderId
    side := order.side
    price := order.price }

def reducedEvent (instrumentId : InstrumentId) (order : BookOrder) (newRemainingQuantity : Nat) (eventSequence : Nat) :
    ExchangeEvent :=
  .bookOrderReduced {
    eventSequence
    instrumentId
    exchangeOrderId := order.exchangeOrderId
    side := order.side
    price := order.price
    newRemainingQuantity }

/-- One iteration of the match loop: `incoming` trades with the front of the other side. -/
def fillFront (commandSequence : Nat) (incoming : ExchangeRestingOrder) (contra : BookOrder) (step : Step) :
    ExchangeRestingOrder × Step :=
  let contraSide := incoming.side.contra
  let tradeQuantity := min incoming.remainingQuantity contra.remainingQuantity
  let incoming := { incoming with remainingQuantity := incoming.remainingQuantity - tradeQuantity }
  let contraRemainingAfter := contra.remainingQuantity - tradeQuantity
  let step := step.sink (tradeEvent commandSequence incoming contra tradeQuantity contraRemainingAfter)
  if contraRemainingAfter = 0 then
    let step := step.onBook incoming.instrumentId fun book => book.removeFront contraSide
    let step := step.forget ⟨contra.accountId, contra.clientOrderId⟩
    (incoming, step.sink (removedEvent incoming.instrumentId contra))
  else
    let step := step.onBook incoming.instrumentId fun book => book.reduceFront contraSide contraRemainingAfter
    (incoming, step.sink (reducedEvent incoming.instrumentId contra contraRemainingAfter))

def matchLoop (commandSequence : Nat) : Nat → ExchangeRestingOrder → Step → ExchangeRestingOrder × Step
  | 0, incoming, step => (incoming, step)
  | fuel + 1, incoming, step =>
      if incoming.remainingQuantity = 0 then (incoming, step)
      else
        match (step.engine.bookFor incoming.instrumentId).frontOfBest incoming.side.contra with
        | none => (incoming, step)
        | some contra =>
            if incoming.side.Crosses incoming.price contra.price then
              let (incoming, step) := fillFront commandSequence incoming contra step
              matchLoop commandSequence fuel incoming step
            else (incoming, step)

/-- Matches `incoming` against the other side of its book in price-time priority. An
iteration that is not the last removes a resting order. -/
def matchAndRest (commandSequence : Nat) (incoming : ExchangeRestingOrder) (step : Step) :
    ExchangeRestingOrder × Step :=
  matchLoop commandSequence ((step.engine.bookFor incoming.instrumentId).liveOrderCount + 1) incoming step

/-- What the book keeps of an order that comes to rest. -/
def toBookOrder (order : ExchangeRestingOrder) : BookOrder where
  exchangeOrderId := order.exchangeOrderId
  clientOrderId := order.clientOrderId
  accountId := order.accountId
  price := order.price
  remainingQuantity := order.remainingQuantity
  side := order.side
  timeInForce := order.timeInForce

/-- A GTC remainder rests. Any other remainder is discarded silently. -/
def restRemainderIfApplicable (order : ExchangeRestingOrder) (step : Step) : Step :=
  if order.timeInForce ≠ .gtc ∨ order.remainingQuantity = 0 then step
  else
    let (book, handle) := (step.engine.bookFor order.instrumentId).add (toBookOrder order)
    let engine := step.engine.setBook order.instrumentId book
    let engine := { engine with
      orders := engine.orders.insert ⟨order.accountId, order.clientOrderId⟩
        { originalQuantity := order.originalQuantity, orderSequence := order.orderSequence, handle
          instrumentId := order.instrumentId }
      restingOrders := engine.restingOrders + 1 }
    { step with engine }.sink fun eventSequence => .bookOrderAdded {
      eventSequence
      instrumentId := order.instrumentId
      exchangeOrderId := order.exchangeOrderId
      side := order.side
      price := order.price
      quantity := order.remainingQuantity }

/-- Takes the next exchange order id and the next priority. -/
def Step.numbered (step : Step) : Step :=
  { step with engine := { step.engine with
      nextExchangeOrderId := step.engine.nextExchangeOrderId + 1
      nextPriority := step.engine.nextPriority + 1 } }

def acceptNewOrder (command : NewOrderCommand) (step : Step) : Step :=
  let exchangeOrderId := step.engine.nextExchangeOrderId
  let order : ExchangeRestingOrder :=
    { exchangeOrderId
      clientOrderId := command.clientOrderId
      accountId := command.accountId
      price := command.price
      originalQuantity := command.quantity
      remainingQuantity := command.quantity
      orderSequence := step.engine.nextPriority
      instrumentId := command.instrumentId
      side := command.side
      timeInForce := command.timeInForce }
  let step := step.numbered.sink fun eventSequence => .orderAccepted {
    eventSequence
    commandSequence := command.commandSequence
    accountId := command.accountId
    clientOrderId := command.clientOrderId
    exchangeOrderId
    instrumentId := command.instrumentId
    side := command.side
    price := command.price
    quantity := command.quantity
    orderType := command.orderType
    timeInForce := command.timeInForce }
  let (order, step) := matchAndRest command.commandSequence order step
  restRemainderIfApplicable order step

/-- The checks of a new order, in the order they are made. -/
def newOrderError (engine : MatchingEngine) (command : NewOrderCommand) : Option RejectReason :=
  if ¬ engine.knowsInstrument command.instrumentId then some .invalidInstrument
  else if command.price ≤ 0 then some .invalidPrice
  else if command.quantity = 0 then some .invalidQuantity
  else if (⟨command.accountId, command.clientOrderId⟩ : LiveKey) ∈ engine.orders then some .duplicateOrderId
  else if command.timeInForce = .fok ∧
      engine.crossableQuantity command.instrumentId command.side command.price command.quantity < command.quantity then
    some .insufficientLiquidity
  else none

def processNewOrder (command : NewOrderCommand) (step : Step) : Step :=
  match step.engine.newOrderError command with
  | some reason => rejectNewOrder command reason step
  | none => acceptNewOrder command step

def processCancel (command : CancelOrderCommand) (step : Step) : Step :=
  if ¬ step.engine.knowsInstrument command.instrumentId then rejectCancelOrder command .invalidInstrument step
  else
    match step.engine.orders.lookup ⟨command.accountId, command.clientOrderId⟩ with
    | none => rejectCancelOrder command .unknownOrderId step
    | some ref =>
        if ref.instrumentId ≠ command.instrumentId then rejectCancelOrder command .unknownOrderId step
        else
          let step := step.forget ⟨command.accountId, command.clientOrderId⟩
          let (book, removed) := (step.engine.bookFor command.instrumentId).removeAt ref.handle
          let step := step.onBook command.instrumentId fun _ => book
          let step := step.sink fun eventSequence => .orderCancelled {
            eventSequence
            commandSequence := command.commandSequence
            accountId := command.accountId
            clientOrderId := command.clientOrderId
            exchangeOrderId := removed.exchangeOrderId
            instrumentId := command.instrumentId }
          step.sink (removedEvent command.instrumentId removed)

def replacedEvent (command : ReplaceOrderCommand) (exchangeOrderId : Nat) (eventSequence : Nat) : ExchangeEvent :=
  .orderReplaced {
    eventSequence
    commandSequence := command.commandSequence
    accountId := command.accountId
    originalClientOrderId := command.originalClientOrderId
    newClientOrderId := command.newClientOrderId
    exchangeOrderId
    instrumentId := command.instrumentId
    newPrice := command.newPrice
    newQuantity := command.newQuantity }

/-- Same price and no larger a quantity: the order is edited in place and re-keyed. -/
def replaceInPlace (command : ReplaceOrderCommand) (ref : OrderRef) (resting : BookOrder) (step : Step) : Step :=
  let step := step.onBook command.instrumentId fun book =>
    (book.reduceAt ref.handle command.newQuantity).setClientOrderIdAt ref.handle command.newClientOrderId
  let orders := (step.engine.orders.erase ⟨command.accountId, command.originalClientOrderId⟩).insert
    ⟨command.accountId, command.newClientOrderId⟩ ref
  let step : Step := { step with engine := { step.engine with orders } }
  let step := step.sink (replacedEvent command resting.exchangeOrderId)
  step.sink (reducedEvent command.instrumentId resting command.newQuantity)

/-- Cancel-plus-new: the order leaves the book and a new one goes through matching. -/
def replaceByNew (command : ReplaceOrderCommand) (ref : OrderRef) (resting : BookOrder) (step : Step) : Step :=
  let step := step.onBook command.instrumentId fun book => (book.removeAt ref.handle).1
  let step := step.forget ⟨command.accountId, command.originalClientOrderId⟩
  let exchangeOrderId := step.engine.nextExchangeOrderId
  let order : ExchangeRestingOrder :=
    { exchangeOrderId
      clientOrderId := command.newClientOrderId
      accountId := command.accountId
      price := command.newPrice
      originalQuantity := command.newQuantity
      remainingQuantity := command.newQuantity
      orderSequence := step.engine.nextPriority
      instrumentId := command.instrumentId
      side := resting.side
      timeInForce := resting.timeInForce }
  let step := step.numbered.sink (replacedEvent command exchangeOrderId)
  let step := step.sink (removedEvent command.instrumentId resting)
  let (order, step) := matchAndRest command.commandSequence order step
  restRemainderIfApplicable order step

/-- A replacement at the order's own price that does not grow it keeps its priority. -/
def preservesPriority (command : ReplaceOrderCommand) (resting : BookOrder) : Bool :=
  command.newPrice = resting.price ∧ command.newQuantity ≤ resting.remainingQuantity

def processReplace (command : ReplaceOrderCommand) (step : Step) : Step :=
  if ¬ step.engine.knowsInstrument command.instrumentId then rejectReplaceOrder command .invalidInstrument step
  else if command.newPrice ≤ 0 ∨ command.newQuantity = 0 then rejectReplaceOrder command .invalidReplacement step
  else
    match step.engine.orders.lookup ⟨command.accountId, command.originalClientOrderId⟩ with
    | none => rejectReplaceOrder command .unknownOrderId step
    | some ref =>
        if ref.instrumentId ≠ command.instrumentId then rejectReplaceOrder command .unknownOrderId step
        else
          let resting := (step.engine.bookFor command.instrumentId).orderAt ref.handle
          if preservesPriority command resting then replaceInPlace command ref resting step
          else replaceByNew command ref resting step

def dispatch (command : ExchangeCommand) (step : Step) : Step :=
  match command with
  | .newOrder command => processNewOrder command step
  | .cancelOrder command => processCancel command step
  | .replaceOrder command => processReplace command step

/-- One command, from a state between commands. -/
def process (engine : MatchingEngine) (command : ExchangeCommand) : Step := dispatch command { engine }

end MatchingEngine

end Mdh.Matching
