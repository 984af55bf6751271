import Mdh.Matching.EngineEvents
import Mdh.Matching.EngineRuns

/-! What a replacement amounts to. One that keeps priority edits its order where it stands; any
other leaves the engine where a cancel and a new order leave it, but for the event numbers. -/

namespace Mdh.Matching.MatchingEngine
open Mdh.Core Mdh.Lib

/-- The trade of an event, but for its place in the stream and the command it comes from. -/
def tradeOf : ExchangeEvent → Option TradeExecuted
  | .tradeExecuted trade => some { trade with eventSequence := 0, commandSequence := 0 }
  | .orderAccepted _ | .orderRejected _ | .orderCancelled _ | .orderReplaced _ | .bookOrderAdded _
  | .bookOrderReduced _ | .bookOrderRemoved _ => none

def tradesOf (events : List ExchangeEvent) : List TradeExecuted := events.filterMap tradeOf

section Numbers
variable {one two : Step}

/-- The same engine but for the next event's number, after the same trades. -/
structure SameButNumbers (one two : Step) : Prop where
  engine : ∃ number, two.engine = { one.engine with nextEventSequence := number }
  trades : tradesOf one.events = tradesOf two.events

theorem SameButNumbers.bookFor (same : SameButNumbers one two) (id : InstrumentId) :
    two.engine.bookFor id = one.engine.bookFor id := by
  obtain ⟨number, engine⟩ := same.engine
  rw [engine]
  rfl

theorem SameButNumbers.sink (same : SameButNumbers one two) {event other : Nat → ExchangeEvent}
    (trade : ∀ first second, tradeOf (event first) = tradeOf (other second)) :
    SameButNumbers (one.sink event) (two.sink other) := by
  obtain ⟨⟨number, engine⟩, trades⟩ := same
  refine ⟨⟨two.engine.nextEventSequence + 1, ?_⟩, ?_⟩
  · unfold Step.sink
    rw [engine]
  · show tradesOf (one.events ++ [_]) = tradesOf (two.events ++ [_])
    unfold tradesOf at *
    rw [List.filterMap_append, List.filterMap_append, trades, List.filterMap_cons, List.filterMap_cons,
      trade one.engine.nextEventSequence two.engine.nextEventSequence]

theorem SameButNumbers.onBook (same : SameButNumbers one two) (id : InstrumentId) (change : MatchingBook → MatchingBook) :
    SameButNumbers (one.onBook id change) (two.onBook id change) := by
  obtain ⟨⟨number, engine⟩, trades⟩ := same
  refine ⟨⟨number, ?_⟩, trades⟩
  show two.engine.setBook id (change (two.engine.bookFor id)) = _
  rw [engine]
  rfl

theorem SameButNumbers.forget (same : SameButNumbers one two) (key : LiveKey) :
    SameButNumbers (one.forget key) (two.forget key) := by
  obtain ⟨⟨number, engine⟩, trades⟩ := same
  refine ⟨⟨number, ?_⟩, trades⟩
  unfold Step.forget
  rw [engine]

variable (first second : Nat) (incoming : ExchangeRestingOrder)

theorem fillFront_sameButNumbers (same : SameButNumbers one two) (contra : BookOrder) :
    (fillFront first incoming contra one).1 = (fillFront second incoming contra two).1 ∧
      SameButNumbers (fillFront first incoming contra one).2 (fillFront second incoming contra two).2 := by
  refine ⟨by rw [fillFront_incoming, fillFront_incoming], ?_⟩
  simp only [fillFront]
  split_ifs
  · refine SameButNumbers.sink (SameButNumbers.forget (SameButNumbers.onBook (SameButNumbers.sink same ?_) _ _) _) ?_
    · exact fun _ _ => rfl
    · exact fun _ _ => rfl
  · refine SameButNumbers.sink (SameButNumbers.onBook (SameButNumbers.sink same ?_) _ _) ?_
    · exact fun _ _ => rfl
    · exact fun _ _ => rfl

/-- The loop makes the same fills. The induction is on the fuel. -/
theorem matchLoop_sameButNumbers (fuel : Nat) (same : SameButNumbers one two) :
    (matchLoop first fuel incoming one).1 = (matchLoop second fuel incoming two).1 ∧
      SameButNumbers (matchLoop first fuel incoming one).2 (matchLoop second fuel incoming two).2 := by
  induction fuel generalizing incoming one two with
  | zero => exact ⟨rfl, same⟩
  | succ fuel ih =>
    unfold matchLoop
    rw [same.bookFor]
    split_ifs
    · exact ⟨rfl, same⟩
    · cases (one.engine.bookFor incoming.instrumentId).frontOfBest incoming.side.contra with
      | none => exact ⟨rfl, same⟩
      | some contra =>
        simp only
        split_ifs
        · obtain ⟨incomingSame, filled⟩ := fillFront_sameButNumbers first second incoming same contra
          rw [← incomingSame]
          exact ih _ filled
        · exact ⟨rfl, same⟩

theorem restRemainder_sameButNumbers (order : ExchangeRestingOrder) (same : SameButNumbers one two) :
    SameButNumbers (restRemainderIfApplicable order one) (restRemainderIfApplicable order two) := by
  by_cases stays : order.timeInForce ≠ .gtc ∨ order.remainingQuantity = 0
  · rw [restRemainder_stays stays, restRemainder_stays stays]
    exact same
  · rw [restRemainder_eq stays, restRemainder_eq stays]
    have placed : SameButNumbers (Step.place order one) (Step.place order two) := by
      obtain ⟨⟨number, engine⟩, trades⟩ := same
      refine ⟨⟨number, ?_⟩, trades⟩
      unfold Step.place
      rw [engine]
      rfl
    exact placed.sink fun _ _ => rfl

theorem matchThenRest_sameButNumbers (same : SameButNumbers one two) :
    SameButNumbers (matchThenRest first incoming one) (matchThenRest second incoming two) := by
  unfold matchThenRest matchAndRest
  rw [same.bookFor]
  obtain ⟨remainder, filled⟩ := matchLoop_sameButNumbers first second incoming _ same
  rw [← remainder]
  exact restRemainder_sameButNumbers _ filled

end Numbers

section Replace
variable {engine : MatchingEngine} {command : ReplaceOrderCommand} {ref : OrderRef} {placed : Placed}

/-- The cancel of the order a replacement names. -/
def cancelFor (command : ReplaceOrderCommand) (commandSequence : Nat) : CancelOrderCommand where
  commandSequence
  accountId := command.accountId
  clientOrderId := command.originalClientOrderId
  instrumentId := command.instrumentId

/-- The order a replacement asks for, as a new one. -/
def newOrderFor (command : ReplaceOrderCommand) (commandSequence : Nat) (side : Side) (orderType : Core.OrderType) :
    NewOrderCommand where
  commandSequence
  accountId := command.accountId
  clientOrderId := command.newClientOrderId
  instrumentId := command.instrumentId
  side
  price := command.newPrice
  quantity := command.newQuantity
  orderType
  timeInForce := .gtc

/-- A cancel leaves the engine as a replacement does when its old order has left the book. -/
theorem processCancel_withdrawn (replaces : Replaces command engine ref placed) (commandSequence : Nat) :
    SameButNumbers (withdrawn command ref { engine }) (processCancel (cancelFor command commandSequence) { engine }) := by
  have found : engine.orders.lookup ⟨command.accountId, command.originalClientOrderId⟩ = some ref := replaces.found
  simp only [processCancel, cancelFor, replaces.known, found, replaces.same, ne_eq, not_true_eq_false, if_false]
  exact ⟨⟨engine.nextEventSequence + 2, rfl⟩, rfl⟩

/-- The new id is free once the old order is gone. -/
theorem newOrderError_withdrawn (replaces : Replaces command engine ref placed)
    (unused : command.newClientOrderId = command.originalClientOrderId ∨ replacementKey command ∉ engine.orders)
    {cancelled : MatchingEngine} {number : Nat}
    (left : cancelled = { (withdrawn command ref { engine }).engine with nextEventSequence := number })
    (commandSequence : Nat) (side : Side) (orderType : Core.OrderType) :
    cancelled.newOrderError (newOrderFor command commandSequence side orderType) = none := by
  have known : cancelled.knowsInstrument command.instrumentId = true := by
    rw [left]
    exact replaces.known
  have gone : (⟨command.accountId, command.newClientOrderId⟩ : LiveKey) ∉ cancelled.orders := by
    rw [left]
    show replacementKey command ∉ engine.orders.erase (originalKey command)
    rw [AList.mem_erase]
    rintro ⟨differs, live⟩
    rcases unused with same | free
    · exact differs (congrArg (LiveKey.mk command.accountId) same)
    · exact free live
  unfold newOrderError
  refine (if_neg (not_not.mpr known)).trans ((if_neg (not_le.mpr replaces.price)).trans
    ((if_neg replaces.quantity).trans ((if_neg gone).trans (if_neg fun short => ?_))))
  cases short.1

/-- A replacement that loses its place is a cancel and a new order. -/
theorem replaceByNew_sameButNumbers (sound : engine.Sound) (replaces : Replaces command engine ref placed)
    (unused : command.newClientOrderId = command.originalClientOrderId ∨ replacementKey command ∉ engine.orders)
    (cancelSequence newSequence : Nat) (orderType : Core.OrderType) :
    let cancelled := processCancel (cancelFor command cancelSequence) { engine }
    tradesOf cancelled.events = [] ∧ SameButNumbers (replaceByNew command ref placed.order { engine })
      (processNewOrder (newOrderFor command newSequence placed.order.side orderType) { engine := cancelled.engine }) := by
  intro cancelled
  obtain ⟨⟨number, left⟩, silent⟩ := processCancel_withdrawn replaces cancelSequence
  have gtc : placed.order.timeInForce = .gtc := sound.gtc _ (replaces.located.resting sound.intact)
  have order : newOrderOf (newOrderFor command newSequence placed.order.side orderType) cancelled.engine =
      replacementOf command placed.order engine := by
    unfold newOrderOf replacementOf
    rw [gtc, left]
    rfl
  have valid : cancelled.engine.newOrderError (newOrderFor command newSequence placed.order.side orderType) = none :=
    newOrderError_withdrawn replaces unused left newSequence placed.order.side orderType
  refine ⟨silent.symm, ?_⟩
  simp only [processNewOrder, valid, acceptNewOrder_eq, replaceByNew_eq, order]
  refine matchThenRest_sameButNumbers _ _ _ ⟨⟨cancelled.engine.nextEventSequence + 1, ?_⟩, rfl⟩
  unfold Step.sink Step.numbered
  rw [left]
  rfl

/-- A replacement in place edits its order where it stands in its queue, and no other. -/
theorem replaceInPlace_edits (sound : engine.Sound) (replaces : Replaces command engine ref placed)
    {id : InstrumentId} (known : engine.knowsInstrument id = true) (side : Side) :
    ((replaceInPlace command ref placed.order { engine }).engine.bookFor id).allOf side =
      ((engine.bookFor id).allOf side).map fun order =>
        if order.exchangeOrderId = placed.order.exchangeOrderId then editFor command order else order := by
  obtain ⟨change, _, _⟩ := replaceInPlace_amends { engine } sound.intact replaces.same replaces.located
  have there := replaces.located.resting sound.intact
  rw [replaces.same] at there
  rw [MatchingBook.allOf_eq, MatchingBook.allOf_eq, change.queues id known, List.map_map]
  have entry {other : Placed} (member : other ∈ (engine.bookFor id).queues side)
      (same : other.order.exchangeOrderId = placed.order.exchangeOrderId) :
      Resting.of id other = Resting.of command.instrumentId placed :=
    List.inj_on_of_nodup_map sound.distinct (sound.intact.mem_resting known member) there same
  split_ifs with here
  · have here : id = command.instrumentId := here
    show ((engine.bookFor id).queues.amend placed.slot (editFor command) side).map Placed.order = _
    unfold Queues.amend
    rw [List.map_map]
    refine List.map_congr_left fun other member => ?_
    show (if other.slot = placed.slot then _ else other : Placed).order = _
    obtain ⟨_, holds⟩ := sound.intact.books id known
    obtain ⟨where_, at_⟩ := replaces.located.member
    rw [replaces.same, ← here] at at_
    have slots : other.slot = placed.slot ↔ other.order.exchangeOrderId = placed.order.exchangeOrderId := by
      constructor
      · intro same
        rw [← holds.stored side other member, ← holds.stored where_ placed at_, same]
      · exact fun same => congrArg Resting.slot (entry member same)
    simp only [Function.comp, slots]
    split_ifs <;> rfl
  · refine List.map_congr_left fun other member => (if_neg fun same => ?_).symm
    exact here (congrArg Resting.instrumentId (entry member same))

/-- The replacement of a live order, by price and quantity. At the same price and for no more than
is left of it, no trade happens, the order is edited where it stands in its queue, and its entry
goes to the new id. Otherwise the trades are those of a cancel and a new order, and so is the
engine that is left, but for the next event's number. -/
theorem replace_policy (reachable : engine.Reachable) {replaced : OrderReplaced}
    (accepted : .orderReplaced replaced ∈ (engine.process (.replaceOrder command)).events)
    (unused : command.newClientOrderId = command.originalClientOrderId ∨ replacementKey command ∉ engine.orders) :
    let after := engine.process (.replaceOrder command)
    ∃ ref placed, Replaces command engine ref placed ∧
      if command.newPrice = placed.order.price ∧ command.newQuantity ≤ placed.order.remainingQuantity then
        tradesOf after.events = [] ∧
          after.engine.orders = (engine.orders.erase (originalKey command)).insert (replacementKey command) ref ∧
          ∀ id side, engine.knowsInstrument id = true → (after.engine.bookFor id).allOf side =
            ((engine.bookFor id).allOf side).map fun order =>
              if order.exchangeOrderId = placed.order.exchangeOrderId then editFor command order else order
      else ∀ cancelSequence newSequence orderType,
        let cancelled := engine.process (.cancelOrder (cancelFor command cancelSequence))
        let renewed := cancelled.engine.process
          (.newOrder (newOrderFor command newSequence placed.order.side orderType))
        tradesOf after.events = tradesOf (cancelled.events ++ renewed.events) ∧
          (∀ id side, (after.engine.bookFor id).allOf side = (renewed.engine.bookFor id).allOf side) ∧
          ∃ number, renewed.engine = { after.engine with nextEventSequence := number } := by
  intro after
  have sound := reachable.sound
  rcases processReplace_cases { engine } sound command with ⟨reason, rejected⟩ | ⟨ref, placed, replaces⟩
  · have only : after.events = (rejectReplaceOrder command reason { engine }).events := congrArg Step.events rejected
    rw [show (engine.process (.replaceOrder command)).events = _ from only] at accepted
    cases List.mem_singleton.mp accepted
  · have carried : after = _ := processReplace_eq { engine } replaces
    refine ⟨ref, placed, replaces, ?_⟩
    unfold preservesPriority at carried
    split_ifs with keeps
    · rw [if_pos (decide_eq_true keeps)] at carried
      obtain ⟨_, orders, events⟩ := replaceInPlace_amends { engine } sound.intact replaces.same replaces.located
      rw [carried]
      refine ⟨by rw [events]; rfl, orders, fun id side known => replaceInPlace_edits sound replaces known side⟩
    · rw [if_neg (by rw [decide_eq_true_eq]; exact keeps)] at carried
      intro cancelSequence newSequence orderType cancelled renewed
      obtain ⟨silent, same⟩ := replaceByNew_sameButNumbers sound replaces unused cancelSequence newSequence orderType
      rw [← carried] at same
      refine ⟨?_, fun id side => congrArg (·.allOf side) (same.bookFor id).symm, same.engine⟩
      calc
        tradesOf after.events = tradesOf renewed.events := same.trades
        _ = tradesOf cancelled.events ++ tradesOf renewed.events := by
          rw [show tradesOf cancelled.events = [] from silent, List.nil_append]
        _ = tradesOf (cancelled.events ++ renewed.events) := List.filterMap_append.symm

def restingSell : NewOrderCommand where
  commandSequence := 1
  accountId := 2
  clientOrderId := 1
  instrumentId := 1
  side := .sell
  price := 10
  quantity := 5
  orderType := .limit
  timeInForce := .gtc

def restingBuy : NewOrderCommand :=
  { restingSell with commandSequence := 2, accountId := 1, side := .buy, price := 9 }

def crossingReplace : ReplaceOrderCommand where
  commandSequence := 3
  accountId := 1
  originalClientOrderId := 1
  newClientOrderId := 2
  instrumentId := 1
  newPrice := 10
  newQuantity := 7

/-- A buy repriced to cross the resting sell. -/
theorem replace_policy_crossing :
    let engine := (make [1]).run [.newOrder restingSell, .newOrder restingBuy]
    let after := engine.process (.replaceOrder crossingReplace)
    (tradesOf after.events).map TradeExecuted.quantity = [5] ∧
      ∃ ref placed, Replaces crossingReplace engine ref placed ∧
        if crossingReplace.newPrice = placed.order.price ∧
            crossingReplace.newQuantity ≤ placed.order.remainingQuantity then
          tradesOf after.events = [] ∧
            after.engine.orders =
              (engine.orders.erase (originalKey crossingReplace)).insert (replacementKey crossingReplace) ref ∧
            ∀ id side, engine.knowsInstrument id = true → (after.engine.bookFor id).allOf side =
              ((engine.bookFor id).allOf side).map fun order =>
                if order.exchangeOrderId = placed.order.exchangeOrderId then editFor crossingReplace order else order
        else ∀ cancelSequence newSequence orderType,
          let cancelled := engine.process (.cancelOrder (cancelFor crossingReplace cancelSequence))
          let renewed := cancelled.engine.process
            (.newOrder (newOrderFor crossingReplace newSequence placed.order.side orderType))
          tradesOf after.events = tradesOf (cancelled.events ++ renewed.events) ∧
            (∀ id side, (after.engine.bookFor id).allOf side = (renewed.engine.bookFor id).allOf side) ∧
            ∃ number, renewed.engine = { after.engine with nextEventSequence := number } := by
  have reachable : ((make [1]).run [.newOrder restingSell, .newOrder restingBuy]).Reachable :=
    (Reachable.make [1]).run _
  have accepted : ExchangeEvent.orderReplaced ⟨5, 3, 1, 1, 2, 3, 1, 10, 7⟩ ∈
      (((make [1]).run [.newOrder restingSell, .newOrder restingBuy]).process (.replaceOrder crossingReplace)).events := by
    decide +kernel
  exact ⟨by decide +kernel, replace_policy reachable accepted (Or.inr (by decide +kernel))⟩

end Replace

end Mdh.Matching.MatchingEngine
