import Mdh.Matching.EngineEvents
import Mdh.Matching.EngineRuns

/-! What a client may rely on in every reachable state: price-time priority, books that
never cross, and the two times in force that never rest. -/

namespace Mdh.Matching.MatchingEngine
open Mdh.Core Mdh.Lib

section Priority
variable {engine : MatchingEngine}

theorem Removes.booksOf {before after : MatchingEngine} {entry : Resting} (sound : before.Sound)
    (member : entry ∈ before.resting) (change : Removes entry before after) (id : InstrumentId)
    (known : before.knowsInstrument id = true) :
    after.booksOf id =
      if id = entry.instrumentId then (before.booksOf id).withdraw entry.order.exchangeOrderId
      else before.booksOf id := by
  have queues := change.queues id known
  split_ifs with same
  · rw [if_pos same] at queues
    subst same
    obtain ⟨_, own, there⟩ := (sound.intact.registry.mem_resting entry).mp member
    obtain ⟨free, holds⟩ := sound.intact.books _ known
    have sides : ∀ side, ((before.booksOf entry.instrumentId).withdraw entry.order.exchangeOrderId).side side =
        ((before.booksOf entry.instrumentId).side side).filter fun order =>
          order.exchangeOrderId ≠ entry.order.exchangeOrderId := by
      intro side
      cases side <;> rfl
    refine Books.ext_side fun side => ?_
    rw [sides, booksOf_side, booksOf_side]
    unfold queue
    rw [queues, Queues.remove, List.filter_map]
    refine congrArg (List.map Placed.order) (List.filter_congr fun placed here => decide_eq_decide.mpr ?_)
    refine not_congr ⟨fun slot => ?_, fun id => ?_⟩
    · exact congrArg (fun placed => placed.order.exchangeOrderId) (holds.placed_unique here there slot).2
    · have equal := List.inj_on_of_nodup_map sound.distinct (sound.intact.mem_resting known here) member id
      exact congrArg Resting.slot equal
  · rw [if_neg same] at queues
    refine booksOf_congr fun side => ?_
    unfold queue
    rw [queues]

/-- The order a command sends to matching, and the books it meets: a new order meets them
as they are, and a replacement that loses its priority meets them without the original. -/
inductive Brings (engine : MatchingEngine) :
    ExchangeCommand → InstrumentId → Reference.Books → BookOrder → Prop where
  | newOrder (command : NewOrderCommand) (valid : engine.newOrderError command = none) :
      Brings engine (.newOrder command) command.instrumentId (engine.booksOf command.instrumentId)
        (toBookOrder (newOrderOf command engine))
  | replaceOrder (command : ReplaceOrderCommand) (ref : OrderRef) (old : BookOrder)
      (price : 0 < command.newPrice) (quantity : command.newQuantity ≠ 0)
      (found : engine.orders.lookup (originalKey command) = some ref)
      (same : ref.instrumentId = command.instrumentId)
      (original : (engine.bookFor command.instrumentId).orderAt ref.handle = old)
      (loses : preservesPriority command old = false) :
      Brings engine (.replaceOrder command) command.instrumentId
        ((engine.booksOf command.instrumentId).withdraw old.exchangeOrderId)
        (toBookOrder (replacementOf command old engine))

/-- What an order does to the books it meets is what the reference does with it. -/
structure Executes (engine : MatchingEngine) (id : InstrumentId) (books : Reference.Books) (incoming : BookOrder)
    (out : Step) : Prop where
  trades : fillsOf out.events = (books.accept incoming).1
  books : out.engine.booksOf id = (books.accept incoming).2
  elsewhere : ∀ other, other ≠ id → engine.knowsInstrument other = true →
    out.engine.booksOf other = engine.booksOf other
  instrument : ∀ trade, .tradeExecuted trade ∈ out.events → trade.instrumentId = id

theorem matchThenRest_instrument (commandSequence : Nat) (incoming : ExchangeRestingOrder) {step : Step}
    (before : ∀ trade, .tradeExecuted trade ∉ step.events) :
    ∀ trade, .tradeExecuted trade ∈ (matchThenRest commandSequence incoming step).events →
      trade.instrumentId = incoming.instrumentId := by
  obtain ⟨_, later, emits⟩ := matchThenRest_emits commandSequence incoming step
  intro trade member
  rw [emits.events] at member
  exact (emits.kinds _ ((List.mem_append.mp member).resolve_left (before trade))).2

/-- Price-time priority: in every reachable state, an order that is accepted trades and
rests as it would against sorted lists. -/
theorem price_time_priority (reachable : engine.Reachable) {command : ExchangeCommand} {id : InstrumentId}
    {books : Reference.Books} {incoming : BookOrder} (brings : Brings engine command id books incoming) :
    Executes engine id books incoming (process engine command) := by
  have sound := reachable.sound
  cases brings with
  | newOrder command valid =>
    obtain ⟨known, _⟩ := newOrderError_eq_none valid
    have start : ({ engine } : Step).numbered.engine.Sound := Sound.numbered sound
    have out : process engine (.newOrder command) =
        matchThenRest command.commandSequence (newOrderOf command engine)
          (({ engine } : Step).numbered.sink (acceptedEvent command engine.nextExchangeOrderId)) := by
      simp only [process, dispatch, processNewOrder, valid, acceptNewOrder_eq]
    rw [out]
    obtain ⟨trades, left, elsewhere⟩ := matchThenRest_accept command.commandSequence
      (newOrderOf command engine) (start.sink (acceptedEvent command engine.nextExchangeOrderId)) known
    exact ⟨trades, left, elsewhere, matchThenRest_instrument _ _ (by simp [Step.sink, Step.numbered, acceptedEvent])⟩
  | replaceOrder command ref old price quantity found same original loses =>
    obtain ⟨placed, located⟩ := sound.locate found
    have replaces : Replaces command engine ref placed := ⟨price, quantity, found, same, located⟩
    have order : placed.order = old := by rw [← located.order, same, original]
    subst order
    have known := replaces.known
    have change := withdrawn_removes { engine } sound.intact same located
    have out : process engine (.replaceOrder command) =
        matchThenRest command.commandSequence (replacementOf command placed.order engine)
          (replacing command ref placed.order { engine }) := by
      refine (processReplace_eq { engine } replaces).trans ?_
      rw [if_neg (by simp [loses])]
      exact replaceByNew_eq command ref placed.order { engine }
    obtain ⟨middle, stillKnown, _⟩ := replacing_sound { engine } sound replaces
    obtain ⟨trades, left, elsewhere⟩ := matchThenRest_accept command.commandSequence
      (replacementOf command placed.order engine) middle stillKnown
    -- Taking numbers and announcing the removal leave the books as the removal left them.
    have books : ∀ other, engine.knowsInstrument other = true →
        (replacing command ref placed.order { engine }).engine.booksOf other =
          if other = command.instrumentId then (engine.booksOf other).withdraw placed.order.exchangeOrderId
          else engine.booksOf other := fun other otherKnown =>
      change.booksOf sound (same ▸ located.resting sound.intact) other otherKnown
    rw [out]
    refine ⟨trades.trans ?_, left.trans ?_, fun other different otherKnown => ?_,
      matchThenRest_instrument _ _ (by simp [replacing, withdrawn, Step.sink, Step.numbered, Step.forget, Step.onBook,
        replacedEvent, removedEvent])⟩
    · exact congrArg (fun books => (Reference.Books.accept books _).1) ((books _ known).trans (if_pos rfl))
    · exact congrArg (fun books => (Reference.Books.accept books _).2) ((books _ known).trans (if_pos rfl))
    · rw [elsewhere other different ((change.knows other).trans otherKnown), books other otherKnown, if_neg different]

/-- A limit order of account 7. -/
def limitOrder (clientOrderId : ClientOrderId) (side : Side) (price : Int) (quantity : Nat)
    (timeInForce : TimeInForce) : NewOrderCommand where
  commandSequence := clientOrderId
  accountId := 7
  clientOrderId := clientOrderId
  instrumentId := 3
  side := side
  price := price
  quantity := quantity
  orderType := .limit
  timeInForce := timeInForce

/-- Three asks, two of them at one price and one outside the band. -/
def laddered : MatchingEngine :=
  run (make [3]) [.newOrder (limitOrder 1 .sell 101 5 .gtc), .newOrder (limitOrder 2 .sell 101 4 .gtc),
    .newOrder (limitOrder 3 .sell 20000 6 .gtc)]

theorem laddered_reachable : laddered.Reachable := (Reachable.make [3]).run _

theorem price_time_priority_laddered :
    let command := limitOrder 4 .buy 101 7 .gtc
    Executes laddered 3 (laddered.booksOf 3) (toBookOrder (newOrderOf command laddered))
      (process laddered (.newOrder command)) :=
  price_time_priority laddered_reachable (Brings.newOrder (limitOrder 4 .buy 101 7 .gtc) (by decide +kernel))

example :
    let out := process laddered (.newOrder (limitOrder 4 .buy 101 7 .gtc))
    (fillsOf out.events).map (fun fill => (fill.counterparty.exchangeOrderId, fill.price, fill.quantity)) =
      [(1, 101, 5), (2, 101, 2)] := by decide +kernel

end Priority

section Uncrossed

/-- One side is empty, or the best bid is strictly below the best ask. -/
def Uncrossed (book : MatchingBook) : Prop :=
  (book.allBids = [] ∨ book.allAsks = []) ∨
    ∃ bid ask, book.bestBidPrice = some bid ∧ book.bestAskPrice = some ask ∧ bid < ask

theorem head_of_best {book : MatchingBook} (wf : book.WellFormed) (side : Side) :
    book.allOf side = [] ∨
      ∃ first ∈ book.queues side, book.bestPriceOf side = some first.order.price := by
  obtain ⟨free, holds⟩ := wf
  rw [MatchingBook.allOf_eq, holds.bestPriceOf_eq]
  cases book.queues side with
  | nil => exact Or.inl rfl
  | cons first rest => exact Or.inr ⟨first, List.mem_cons_self, rfl⟩

/-- No book is ever left crossed. -/
theorem book_never_crossed {engine : MatchingEngine} (reachable : engine.Reachable) {id : InstrumentId}
    (known : engine.knowsInstrument id = true) : Uncrossed (engine.bookFor id) := by
  have sound := reachable.sound
  have wf := sound.intact.books id known
  rcases head_of_best wf .buy with noBids | ⟨bid, bidMember, bestBid⟩
  · exact Or.inl (Or.inl noBids)
  rcases head_of_best wf .sell with noAsks | ⟨ask, askMember, bestAsk⟩
  · exact Or.inl (Or.inr noAsks)
  obtain ⟨free, holds⟩ := wf
  exact Or.inr ⟨_, _, bestBid, bestAsk, sound.uncrossed _ (sound.intact.mem_resting known bidMember) _
    (sound.intact.mem_resting known askMember) rfl (holds.ownSide _ _ bidMember) (holds.ownSide _ _ askMember)⟩

theorem book_never_crossed_laddered : Uncrossed (laddered.bookFor 3) :=
  book_never_crossed laddered_reachable (by decide +kernel)

end Uncrossed

section Immediate
variable {engine : MatchingEngine}

/-- The quantity an order of this side and limit could trade. -/
def liquidity (engine : MatchingEngine) (id : InstrumentId) (side : Side) (price : Int) : Nat :=
  Reference.crossing side price ((engine.booksOf id).side side.contra)

/-- The liquidity check sees exactly what crosses the limit. -/
theorem crossableQuantity_lt_iff (intact : engine.Intact) {id : InstrumentId}
    (known : engine.knowsInstrument id = true) (side : Side) (price : Int) (quantity : Nat) :
    engine.crossableQuantity id side price quantity < quantity ↔ engine.liquidity id side price < quantity := by
  obtain ⟨free, holds⟩ := intact.books id known
  unfold crossableQuantity liquidity
  rw [holds.crossableQuantity_eq, MatchingBook.coverFrom_lt_iff, Nat.zero_add, booksOf_side, Reference.crossing,
    List.filter_map]
  unfold MatchingBook.crossing
  have same : ((engine.bookFor id).queues side.contra).filter (fun placed => ¬ side.contra.Before price placed.price) =
      ((engine.bookFor id).queues side.contra).filter
        ((fun order => decide (side.Crosses price order.price)) ∘ Placed.order) :=
    List.filter_congr fun placed _ => decide_eq_decide.mpr (side.crosses_iff price placed.price).symm
  rw [same]
  rfl

/-- The checks every new order goes through, whatever its time in force. -/
structure Admissible (engine : MatchingEngine) (command : NewOrderCommand) : Prop where
  known : engine.knowsInstrument command.instrumentId = true
  price : 0 < command.price
  quantity : command.quantity ≠ 0
  fresh : (⟨command.accountId, command.clientOrderId⟩ : LiveKey) ∉ engine.orders

/-- What rests on the other side at prices the order crosses. -/
def liquidityFor (engine : MatchingEngine) (command : NewOrderCommand) : Nat :=
  engine.liquidity command.instrumentId command.side command.price

theorem Admissible.newOrderError_eq {command : NewOrderCommand} (admissible : Admissible engine command)
    (intact : engine.Intact) : engine.newOrderError command =
      if command.timeInForce = .fok ∧ engine.liquidityFor command < command.quantity then some .insufficientLiquidity
      else none := by
  have enough := crossableQuantity_lt_iff intact admissible.known command.side command.price command.quantity
  unfold newOrderError liquidityFor
  rw [if_neg (by simp [admissible.known]), if_neg (not_le.mpr admissible.price), if_neg admissible.quantity,
    if_neg admissible.fresh]
  simp only [enough]

/-- All or nothing: with too little to fill it the order gets one event, its rejection, and only the
event counter moves; otherwise it is accepted and trades its whole quantity. -/
structure FillsOrKills (engine : MatchingEngine) (command : NewOrderCommand) (out : Step) : Prop where
  kills : engine.liquidityFor command < command.quantity →
    out.events = [.orderRejected {
      eventSequence := engine.nextEventSequence
      commandSequence := command.commandSequence
      accountId := command.accountId
      clientOrderId := command.clientOrderId
      instrumentId := command.instrumentId
      reason := .insufficientLiquidity }] ∧
    out.engine = { engine with nextEventSequence := engine.nextEventSequence + 1 }
  fills : command.quantity ≤ engine.liquidityFor command →
    (∃ later, out.events = acceptedEvent command engine.nextExchangeOrderId engine.nextEventSequence :: later ∧
      ∀ event ∈ later, ¬ IsRejection event) ∧
    ((fillsOf out.events).map Reference.Fill.quantity).sum = command.quantity

/-- No order rests under the number this command takes, if it takes one. -/
def NeverRests (engine : MatchingEngine) (out : Step) : Prop :=
  (∀ accepted, .orderAccepted accepted ∈ out.events → accepted.exchangeOrderId = engine.nextExchangeOrderId) ∧
    ∀ entry ∈ out.engine.resting, entry.order.exchangeOrderId ≠ engine.nextExchangeOrderId

theorem acceptNewOrder_neverRests {command : NewOrderCommand} (sound : engine.Sound)
    (known : engine.knowsInstrument command.instrumentId = true) (immediate : command.timeInForce ≠ .gtc) :
    NeverRests engine (acceptNewOrder command { engine }) := by
  have start : ({ engine } : Step).numbered.engine.Sound := Sound.numbered sound
  have unissued : ({ engine } : Step).numbered.engine.Unissued engine.nextExchangeOrderId := Sound.unissued sound
  have ready : (({ engine } : Step).numbered.sink (acceptedEvent command engine.nextExchangeOrderId)).engine.Sound :=
    start.sink _
  rw [acceptNewOrder_eq]
  refine ⟨fun accepted member => ?_, ?_⟩
  · obtain ⟨_, later, emits⟩ := matchThenRest_emits command.commandSequence (newOrderOf command engine)
      (({ engine } : Step).numbered.sink (acceptedEvent command engine.nextExchangeOrderId))
    rw [emits.events] at member
    rcases List.mem_append.mp member with first | after
    · obtain rfl := ExchangeEvent.orderAccepted.inj (List.mem_singleton.mp first)
      rfl
    · exact (emits.kinds _ after).elim
  · exact (matchThenRest_unissued command.commandSequence (newOrderOf command engine) ready known immediate unissued).2

theorem acceptNewOrder_fills {command : NewOrderCommand} (sound : engine.Sound)
    (known : engine.knowsInstrument command.instrumentId = true)
    (enough : command.quantity ≤ engine.liquidityFor command) :
    ((fillsOf (acceptNewOrder command { engine }).events).map Reference.Fill.quantity).sum = command.quantity := by
  have start : ({ engine } : Step).numbered.engine.Sound := Sound.numbered sound
  obtain ⟨fills, _⟩ := matchThenRest_accept command.commandSequence (newOrderOf command engine)
    (start.sink (acceptedEvent command engine.nextExchangeOrderId)) known
  have total := Reference.fill_total (toBookOrder (newOrderOf command engine))
    ((engine.booksOf command.instrumentId).side command.side.contra)
  have whole := (Reference.fill_complete_iff (toBookOrder (newOrderOf command engine))
    (sound.intact.queue_ordered known command.side.contra)).mpr enough
  have whole' : (Reference.fill (toBookOrder (newOrderOf command engine))
    ((engine.booksOf command.instrumentId).side command.side.contra)).incoming.remainingQuantity = 0 := whole
  rw [whole', Nat.add_zero] at total
  rw [acceptNewOrder_eq, fills]
  exact total

/-- Fill-or-kill is all or nothing, and an order of either immediate kind never rests. -/
theorem immediate_never_rests_fok_fills_or_kills (reachable : engine.Reachable) (command : NewOrderCommand)
    (immediate : command.timeInForce ≠ .gtc) :
    NeverRests engine (process engine (.newOrder command)) ∧
      (command.timeInForce = .fok → Admissible engine command →
        FillsOrKills engine command (process engine (.newOrder command))) := by
  have sound := reachable.sound
  rw [show process engine (.newOrder command) = processNewOrder command { engine } from rfl]
  unfold processNewOrder
  refine ⟨?_, fun fok admissible => ⟨fun short => ?_, fun enough => ⟨?_, ?_⟩⟩⟩
  · cases valid : engine.newOrderError command with
    | none => exact acceptNewOrder_neverRests sound (newOrderError_eq_none valid).1 immediate
    | some reason =>
      refine ⟨fun accepted member => ?_, fun entry member => ne_of_lt (sound.issued entry member)⟩
      cases List.mem_singleton.mp member
  · rw [admissible.newOrderError_eq sound.intact, if_pos ⟨fok, short⟩]
    exact ⟨rfl, rfl⟩
  · have accepted : engine.newOrderError command = none := by
      rw [admissible.newOrderError_eq sound.intact, if_neg fun both => not_lt.mpr enough both.2]
    obtain ⟨_, later, emits⟩ := matchThenRest_emits command.commandSequence (newOrderOf command engine)
      (({ engine } : Step).numbered.sink (acceptedEvent command engine.nextExchangeOrderId))
    rw [accepted]
    exact ⟨later, emits.events, fun event member => FromMatching.accepts event (emits.kinds event member)⟩
  · have accepted : engine.newOrderError command = none := by
      rw [admissible.newOrderError_eq sound.intact, if_neg fun both => not_lt.mpr enough both.2]
    rw [accepted]
    exact acceptNewOrder_fills sound admissible.known enough

theorem immediate_never_rests_laddered :
    let command := limitOrder 4 .buy 101 9 .fok
    NeverRests laddered (process laddered (.newOrder command)) ∧
      FillsOrKills laddered command (process laddered (.newOrder command)) := by
  have holds := immediate_never_rests_fok_fills_or_kills laddered_reachable (limitOrder 4 .buy 101 9 .fok) (by decide)
  exact ⟨holds.1, holds.2 rfl ⟨by decide +kernel, by decide, by decide, by decide +kernel⟩⟩

end Immediate

end Mdh.Matching.MatchingEngine
