import Mdh.Matching.EngineRuns
import Mdh.Matching.TwinBooks

/-! Two engines that agree on everything but their bands and the sizes of their tables. They
answer every command with the same events and go on agreeing. -/

namespace Mdh.Matching.MatchingEngine
open Mdh.Core Mdh.Lib MatchingBook

structure Alike (one two : MatchingEngine) : Prop where
  left : one.Registry
  right : two.Registry
  instruments : one.instruments = two.instruments
  books : ∀ id, one.knowsInstrument id = true → Twins (one.bookFor id) (two.bookFor id)
  orders : one.orders = two.orders
  restingOrders : one.restingOrders = two.restingOrders
  nextExchangeOrderId : one.nextExchangeOrderId = two.nextExchangeOrderId
  nextEventSequence : one.nextEventSequence = two.nextEventSequence
  nextPriority : one.nextPriority = two.nextPriority

structure AlikeSteps (one two : Step) : Prop where
  engine : Alike one.engine two.engine
  events : one.events = two.events

theorem Alike.knows {one two : MatchingEngine} (alike : Alike one two) (id : InstrumentId) :
    one.knowsInstrument id = two.knowsInstrument id := by
  rw [Bool.eq_iff_iff, ← alike.left.mem_instruments, ← alike.right.mem_instruments, alike.instruments]

/-- The same books under the same instruments. -/
structure SameBooks (before after : MatchingEngine) : Prop where
  slotOfId : after.slotOfId = before.slotOfId
  books : after.books = before.books
  byId : after.byId = before.byId
  bandTicks : after.bandTicks = before.bandTicks

theorem SameBooks.registry {before after : MatchingEngine} (same : SameBooks before after)
    (registry : before.Registry) : after.Registry := by
  obtain ⟨slotOfId, books, byId, bandTicks⟩ := same
  refine ⟨?_, ?_, ?_, ?_, ?_, bandTicks ▸ registry.band⟩
  · rw [slotOfId, books]
    exact registry.inside
  · rw [slotOfId]
    exact registry.distinct
  · rw [slotOfId, books]
    exact registry.covered
  · rw [byId, slotOfId]
    exact registry.listed
  · unfold instruments
    rw [byId]
    exact registry.ascending

theorem SameBooks.knows {before after : MatchingEngine} (same : SameBooks before after) (id : InstrumentId) :
    after.knowsInstrument id = before.knowsInstrument id := by
  unfold knowsInstrument
  rw [same.slotOfId]

theorem SameBooks.bookFor {before after : MatchingEngine} (same : SameBooks before after) (id : InstrumentId) :
    after.bookFor id = before.bookFor id := by
  unfold MatchingEngine.bookFor slotFor
  rw [same.slotOfId, same.books]

/-- The directory and the counters may change, as long as both change alike. -/
theorem Alike.revised {one two one' two' : MatchingEngine} (alike : Alike one two) (left : SameBooks one one')
    (right : SameBooks two two') (orders : one'.orders = two'.orders)
    (restingOrders : one'.restingOrders = two'.restingOrders)
    (nextExchangeOrderId : one'.nextExchangeOrderId = two'.nextExchangeOrderId)
    (nextEventSequence : one'.nextEventSequence = two'.nextEventSequence)
    (nextPriority : one'.nextPriority = two'.nextPriority) : Alike one' two' where
  left := left.registry alike.left
  right := right.registry alike.right
  instruments := by
    unfold MatchingEngine.instruments
    rw [left.byId, right.byId]
    exact alike.instruments
  books id known := by
    rw [left.bookFor, right.bookFor]
    exact alike.books id (left.knows id ▸ known)
  orders := orders
  restingOrders := restingOrders
  nextExchangeOrderId := nextExchangeOrderId
  nextEventSequence := nextEventSequence
  nextPriority := nextPriority

section Parts
variable {one two : Step}

/-- The event is the same on both sides, for it depends on no book. -/
theorem AlikeSteps.sink (alike : AlikeSteps one two) (event : Nat → ExchangeEvent) :
    AlikeSteps (one.sink event) (two.sink event) where
  engine := alike.engine.revised ⟨rfl, rfl, rfl, rfl⟩ ⟨rfl, rfl, rfl, rfl⟩ alike.engine.orders
    alike.engine.restingOrders alike.engine.nextExchangeOrderId (congrArg (· + 1) alike.engine.nextEventSequence)
    alike.engine.nextPriority
  events := by
    show one.events ++ [event one.engine.nextEventSequence] = two.events ++ [event two.engine.nextEventSequence]
    rw [alike.events, alike.engine.nextEventSequence]

theorem AlikeSteps.onBook (alike : AlikeSteps one two) {id : InstrumentId}
    (known : one.engine.knowsInstrument id = true) {change other : MatchingBook → MatchingBook}
    (twins : Twins (change (one.engine.bookFor id)) (other (two.engine.bookFor id))) :
    AlikeSteps (one.onBook id change) (two.onBook id other) where
  engine :=
    { left := alike.engine.left.setBook id _
      right := alike.engine.right.setBook id _
      instruments := alike.engine.instruments
      books := fun asked askedKnown => by
        have there := alike.engine.knows id ▸ known
        have askedThere := alike.engine.knows asked ▸ askedKnown
        show Twins ((one.engine.setBook id _).bookFor asked) ((two.engine.setBook id _).bookFor asked)
        rw [alike.engine.left.bookFor_setBook known askedKnown, alike.engine.right.bookFor_setBook there askedThere]
        split_ifs
        · exact twins
        · exact alike.engine.books asked askedKnown
      orders := alike.engine.orders
      restingOrders := alike.engine.restingOrders
      nextExchangeOrderId := alike.engine.nextExchangeOrderId
      nextEventSequence := alike.engine.nextEventSequence
      nextPriority := alike.engine.nextPriority }
  events := alike.events

theorem AlikeSteps.forget (alike : AlikeSteps one two) (key : LiveKey) :
    AlikeSteps (one.forget key) (two.forget key) where
  engine := alike.engine.revised ⟨rfl, rfl, rfl, rfl⟩ ⟨rfl, rfl, rfl, rfl⟩ (congrArg (·.erase key) alike.engine.orders)
    (congrArg (· - 1) alike.engine.restingOrders) alike.engine.nextExchangeOrderId alike.engine.nextEventSequence
    alike.engine.nextPriority
  events := alike.events

theorem AlikeSteps.relist (alike : AlikeSteps one two) (change : Directory → Directory) :
    AlikeSteps { one with engine := { one.engine with orders := change one.engine.orders } }
      { two with engine := { two.engine with orders := change two.engine.orders } } where
  engine := alike.engine.revised ⟨rfl, rfl, rfl, rfl⟩ ⟨rfl, rfl, rfl, rfl⟩ (congrArg change alike.engine.orders)
    alike.engine.restingOrders alike.engine.nextExchangeOrderId alike.engine.nextEventSequence
    alike.engine.nextPriority
  events := alike.events

theorem AlikeSteps.numbered (alike : AlikeSteps one two) : AlikeSteps one.numbered two.numbered where
  engine := alike.engine.revised ⟨rfl, rfl, rfl, rfl⟩ ⟨rfl, rfl, rfl, rfl⟩ alike.engine.orders
    alike.engine.restingOrders (congrArg (· + 1) alike.engine.nextExchangeOrderId) alike.engine.nextEventSequence
    (congrArg (· + 1) alike.engine.nextPriority)
  events := alike.events

end Parts

section Matching
variable {one two : Step} (commandSequence : Nat) (incoming : ExchangeRestingOrder)

theorem Alike.frontOfBest {one two : MatchingEngine} (alike : Alike one two) {id : InstrumentId}
    (known : one.knowsInstrument id = true) (side : Side) :
    (one.bookFor id).frontOfBest side = (two.bookFor id).frontOfBest side :=
  (alike.books id known).frontOfBest_eq side

/-- There is a front only where there is a queue. -/
theorem Alike.front_contents {one two : MatchingEngine} (alike : Alike one two) {id : InstrumentId}
    (known : one.knowsInstrument id = true) {side : Side} {contra : BookOrder}
    (front : (one.bookFor id).frontOfBest side = some contra) :
    ∃ first rest, (one.bookFor id).queues side = first :: rest := by
  obtain ⟨queues, free, left, _⟩ := alike.books id known
  rw [left.frontOfBest_eq] at front
  rw [left.queues_eq]
  cases contents : queues side with
  | nil => simp [contents] at front
  | cons first rest => exact ⟨first, rest, rfl⟩

theorem fillFront_alike (alike : AlikeSteps one two) (known : one.engine.knowsInstrument incoming.instrumentId = true)
    {contra : BookOrder}
    (front : (one.engine.bookFor incoming.instrumentId).frontOfBest incoming.side.contra = some contra) :
    AlikeSteps (fillFront commandSequence incoming contra one).2 (fillFront commandSequence incoming contra two).2 := by
  obtain ⟨first, rest, contents⟩ := alike.engine.front_contents known front
  have twins := alike.engine.books _ known
  simp only [fillFront]
  split_ifs
  · refine AlikeSteps.sink (AlikeSteps.forget (AlikeSteps.onBook (alike.sink _) known ?_) _) _
    exact twins.removeFront contents
  · refine AlikeSteps.sink (AlikeSteps.onBook (alike.sink _) known ?_) _
    exact twins.reduceFront contents _

/-- The loop makes the same fills. The induction is on the fuel. -/
theorem matchLoop_alike (fuel : Nat) (alike : AlikeSteps one two)
    (known : one.engine.knowsInstrument incoming.instrumentId = true) :
    (matchLoop commandSequence fuel incoming one).1 = (matchLoop commandSequence fuel incoming two).1 ∧
      (matchLoop commandSequence fuel incoming one).1.instrumentId = incoming.instrumentId ∧
      AlikeSteps (matchLoop commandSequence fuel incoming one).2 (matchLoop commandSequence fuel incoming two).2 ∧
      ∀ id, (matchLoop commandSequence fuel incoming one).2.engine.knowsInstrument id =
        one.engine.knowsInstrument id := by
  induction fuel generalizing incoming one two with
  | zero => exact ⟨rfl, rfl, alike, fun _ => rfl⟩
  | succ fuel ih =>
    unfold matchLoop
    rw [← alike.engine.frontOfBest known]
    split_ifs
    · exact ⟨rfl, rfl, alike, fun _ => rfl⟩
    · cases front : (one.engine.bookFor incoming.instrumentId).frontOfBest incoming.side.contra with
      | none => exact ⟨rfl, rfl, alike, fun _ => rfl⟩
      | some contra =>
        simp only
        split_ifs
        · have filled := fillFront_alike commandSequence incoming alike known front
          have sameInstrument : (fillFront commandSequence incoming contra one).1.instrumentId =
              incoming.instrumentId := by rw [fillFront_incoming]
          have sameIncoming : (fillFront commandSequence incoming contra one).1 =
              (fillFront commandSequence incoming contra two).1 := by rw [fillFront_incoming, fillFront_incoming]
          have knows : ∀ id, (fillFront commandSequence incoming contra one).2.engine.knowsInstrument id =
              one.engine.knowsInstrument id := fillFront_knows contra
          obtain ⟨final, instrument, after, still⟩ := ih (fillFront commandSequence incoming contra one).1 filled
            (by rw [knows, sameInstrument]; exact known)
          rw [← sameIncoming]
          exact ⟨final, instrument.trans sameInstrument, after, fun id => (still id).trans (knows id)⟩
        · exact ⟨rfl, rfl, alike, fun _ => rfl⟩

theorem matchAndRest_alike (alike : AlikeSteps one two)
    (known : one.engine.knowsInstrument incoming.instrumentId = true) :
    (matchAndRest commandSequence incoming one).1 = (matchAndRest commandSequence incoming two).1 ∧
      (matchAndRest commandSequence incoming one).1.instrumentId = incoming.instrumentId ∧
      AlikeSteps (matchAndRest commandSequence incoming one).2 (matchAndRest commandSequence incoming two).2 ∧
      ∀ id, (matchAndRest commandSequence incoming one).2.engine.knowsInstrument id =
        one.engine.knowsInstrument id := by
  unfold matchAndRest
  rw [← (alike.engine.books _ known).liveOrderCount_eq]
  exact matchLoop_alike commandSequence incoming _ alike known

/-- What is left of an order comes to rest in the same slot. -/
theorem restRemainder_alike {order : ExchangeRestingOrder} (alike : AlikeSteps one two)
    (known : one.engine.knowsInstrument order.instrumentId = true) :
    AlikeSteps (restRemainderIfApplicable order one) (restRemainderIfApplicable order two) := by
  by_cases stays : order.timeInForce ≠ .gtc ∨ order.remainingQuantity = 0
  · rw [restRemainder_stays stays, restRemainder_stays stays]
    exact alike
  · rw [restRemainder_eq stays, restRemainder_eq stays]
    obtain ⟨twins, handle⟩ := (alike.engine.books _ known).add (toBookOrder order)
    have ref : restedRef order one.engine = restedRef order two.engine := by
      unfold restedRef
      rw [handle]
    have added : AlikeSteps
        (one.onBook order.instrumentId fun book => (book.add (toBookOrder order)).1)
        (two.onBook order.instrumentId fun book => (book.add (toBookOrder order)).1) := alike.onBook known twins
    have placed : AlikeSteps (Step.place order one) (Step.place order two) :=
      { engine := added.engine.revised ⟨rfl, rfl, rfl, rfl⟩ ⟨rfl, rfl, rfl, rfl⟩
          (by
            show one.engine.orders.insert _ (restedRef order one.engine) = two.engine.orders.insert _ _
            rw [ref, alike.engine.orders])
          (congrArg (· + 1) alike.engine.restingOrders) alike.engine.nextExchangeOrderId
          alike.engine.nextEventSequence alike.engine.nextPriority
        events := alike.events }
    exact placed.sink _

theorem matchThenRest_alike (alike : AlikeSteps one two)
    (known : one.engine.knowsInstrument incoming.instrumentId = true) :
    AlikeSteps (matchThenRest commandSequence incoming one) (matchThenRest commandSequence incoming two) := by
  obtain ⟨final, instrument, after, knows⟩ := matchAndRest_alike commandSequence incoming alike known
  unfold matchThenRest
  rw [← final]
  exact restRemainder_alike after (by rw [knows, instrument]; exact known)

end Matching

section Commands
variable {one two : Step}

theorem Alike.newOrderError {one two : MatchingEngine} (alike : Alike one two) (command : NewOrderCommand) :
    one.newOrderError command = two.newOrderError command := by
  unfold MatchingEngine.newOrderError MatchingEngine.crossableQuantity
  rw [← alike.knows, ← alike.orders]
  by_cases known : one.knowsInstrument command.instrumentId = true
  · rw [(alike.books _ known).crossableQuantity_eq]
  · rw [if_pos known, if_pos known]

theorem processNewOrder_alike (alike : AlikeSteps one two) (command : NewOrderCommand) :
    AlikeSteps (processNewOrder command one) (processNewOrder command two) := by
  unfold processNewOrder
  rw [← alike.engine.newOrderError]
  cases valid : one.engine.newOrderError command with
  | some reason => exact alike.sink _
  | none =>
    obtain ⟨known, _⟩ := newOrderError_eq_none valid
    simp only [acceptNewOrder_eq]
    have order : newOrderOf command one.engine = newOrderOf command two.engine := by
      unfold newOrderOf
      rw [alike.engine.nextExchangeOrderId, alike.engine.nextPriority]
    rw [← order, ← alike.engine.nextExchangeOrderId]
    exact matchThenRest_alike _ _ (alike.numbered.sink _) known

theorem Locates.front {engine : MatchingEngine} {key : LiveKey} {ref : OrderRef} {placed : Placed}
    (located : engine.Locates key ref placed) {id : InstrumentId} (same : ref.instrumentId = id) :
    engine.knowsInstrument id = true ∧ ∃ side, placed ∈ (engine.bookFor id).queues side :=
  ⟨same ▸ located.known, same ▸ located.member⟩

theorem processCancel_alike (sound : one.engine.Sound) (alike : AlikeSteps one two) (command : CancelOrderCommand) :
    AlikeSteps (processCancel command one) (processCancel command two) := by
  unfold processCancel
  rw [← alike.engine.knows, ← alike.engine.orders]
  split_ifs with unknown
  · cases found : one.engine.orders.lookup ⟨command.accountId, command.clientOrderId⟩ with
    | none => exact alike.sink _
    | some ref =>
      obtain ⟨placed, located⟩ := sound.locate found
      simp only
      split_ifs with elsewhere
      · exact alike.sink _
      · obtain ⟨known, side, member⟩ := located.front (not_not.mp elsewhere)
        have forgot := alike.forget ⟨command.accountId, command.clientOrderId⟩
        rw [located.handle]
        obtain ⟨removed, order⟩ := (forgot.engine.books command.instrumentId known).removeAt member
        rw [← order]
        exact ((forgot.onBook known removed).sink _).sink _
  · exact alike.sink _

theorem replaceInPlace_alike (alike : AlikeSteps one two) {command : ReplaceOrderCommand} {ref : OrderRef}
    {placed : Placed} (replaces : Replaces command one.engine ref placed) (resting : BookOrder) :
    AlikeSteps (replaceInPlace command ref resting one) (replaceInPlace command ref resting two) := by
  obtain ⟨known, side, member⟩ := replaces.located.front replaces.same
  have twins := alike.engine.books _ known
  unfold replaceInPlace
  rw [replaces.located.handle]
  let edit := fun book : MatchingBook =>
    (book.reduceAt ⟨placed.slot⟩ command.newQuantity).setClientOrderIdAt ⟨placed.slot⟩ command.newClientOrderId
  have edited : AlikeSteps (one.onBook command.instrumentId edit) (two.onBook command.instrumentId edit) :=
    alike.onBook known (twins.replaceAt member _ _)
  exact ((edited.relist fun orders => (orders.erase (originalKey command)).insert (replacementKey command) ref).sink
    _).sink _

theorem replaceByNew_alike (alike : AlikeSteps one two) {command : ReplaceOrderCommand} {ref : OrderRef}
    {placed : Placed} (replaces : Replaces command one.engine ref placed) (resting : BookOrder) :
    AlikeSteps (replaceByNew command ref resting one) (replaceByNew command ref resting two) := by
  obtain ⟨known, side, member⟩ := replaces.located.front replaces.same
  have twins := alike.engine.books _ known
  have order : replacementOf command resting one.engine = replacementOf command resting two.engine := by
    unfold replacementOf
    rw [alike.engine.nextExchangeOrderId, alike.engine.nextPriority]
  rw [replaceByNew_eq, replaceByNew_eq, ← order]
  have withdrew : AlikeSteps (withdrawn command ref one) (withdrawn command ref two) := by
    unfold withdrawn
    rw [replaces.located.handle]
    exact (alike.onBook known (twins.removeAt member).1).forget _
  unfold replacing
  rw [← alike.engine.nextExchangeOrderId]
  exact matchThenRest_alike _ _ ((withdrew.numbered.sink _).sink _) known

theorem processReplace_alike (sound : one.engine.Sound) (alike : AlikeSteps one two)
    (command : ReplaceOrderCommand) : AlikeSteps (processReplace command one) (processReplace command two) := by
  unfold processReplace
  rw [← alike.engine.knows, ← alike.engine.orders]
  split_ifs with unknown malformed
  · exact alike.sink _
  · cases found : one.engine.orders.lookup ⟨command.accountId, command.originalClientOrderId⟩ with
    | none => exact alike.sink _
    | some ref =>
      obtain ⟨placed, located⟩ := sound.locate found
      simp only
      by_cases same : ref.instrumentId = command.instrumentId
      · rw [not_or, not_le] at malformed
        have replaces : Replaces command one.engine ref placed :=
          ⟨malformed.1, malformed.2, found, same, located⟩
        obtain ⟨known, side, member⟩ := located.front same
        have resting := (alike.engine.books _ known).orderAt_eq member
        rw [← located.handle] at resting
        rw [if_neg (not_not.mpr same), if_neg (not_not.mpr same), ← resting]
        split_ifs
        · exact replaceInPlace_alike alike replaces _
        · exact replaceByNew_alike alike replaces _
      · rw [if_pos same, if_pos same]
        exact alike.sink _
  · exact alike.sink _

theorem dispatch_alike (sound : one.engine.Sound) (alike : AlikeSteps one two) (command : ExchangeCommand) :
    AlikeSteps (dispatch command one) (dispatch command two) := by
  cases command with
  | newOrder command => exact processNewOrder_alike alike command
  | cancelOrder command => exact processCancel_alike sound alike command
  | replaceOrder command => exact processReplace_alike sound alike command

end Commands

section Runs
variable {one two : MatchingEngine}

theorem Alike.process (sound : one.Sound) (alike : Alike one two) (command : ExchangeCommand) :
    Alike (one.process command).engine (two.process command).engine ∧
      (one.process command).events = (two.process command).events :=
  have start : AlikeSteps { engine := one } { engine := two } := ⟨alike, rfl⟩
  have after := dispatch_alike sound start command
  ⟨after.engine, after.events⟩

/-- The same commands, the same events and the same books. -/
theorem Alike.run (sound : one.Sound) (alike : Alike one two) (commands : List ExchangeCommand) :
    Alike (one.run commands) (two.run commands) ∧ one.runEvents commands = two.runEvents commands := by
  induction commands generalizing one two with
  | nil => exact ⟨alike, rfl⟩
  | cons command rest ih =>
    obtain ⟨after, events⟩ := alike.process sound command
    have still : (one.process command).engine.Sound := dispatch_sound { engine := one } sound command
    obtain ⟨final, others⟩ := ih still after
    refine ⟨final, ?_⟩
    rw [runEvents, runEvents, events, others]

theorem insertById_fst (id : InstrumentId) (slot : Nat) (byId : List (InstrumentId × Nat)) :
    (insertById id slot byId).map Prod.fst =
      (byId.map Prod.fst).takeWhile (· < id) ++ id :: (byId.map Prod.fst).dropWhile (· < id) := by
  unfold insertById
  rw [List.map_append, List.map_cons, List.takeWhile_map, List.dropWhile_map]
  rfl

theorem registerInstrument_nextPriority (engine : MatchingEngine) (id : InstrumentId) :
    (engine.registerInstrument id).1.nextPriority = engine.nextPriority := by
  unfold MatchingEngine.registerInstrument
  split_ifs <;> rfl

/-- Registering the same instrument in both: refused by both, or two empty books. -/
theorem Alike.registerInstrument (alike : Alike one two) (id : InstrumentId) :
    Alike (one.registerInstrument id).1 (two.registerInstrument id).1 := by
  by_cases refused : id > kMaxInstrumentId ∨ one.knowsInstrument id = true
  · unfold MatchingEngine.registerInstrument
    rw [if_pos refused, if_pos (alike.knows id ▸ refused)]
    exact alike
  · have refusedToo : ¬ (id > kMaxInstrumentId ∨ two.knowsInstrument id = true) := alike.knows id ▸ refused
    obtain ⟨_, _, _, byId, orders, resting, nextId, nextEvent⟩ := registerInstrument_spec refused
    obtain ⟨_, _, _, byIdToo, ordersToo, restingToo, nextIdToo, nextEventToo⟩ := registerInstrument_spec refusedToo
    have left := alike.left.registerInstrument id
    have right := alike.right.registerInstrument id
    exact
      { left := left
        right := right
        instruments := by
          show (one.registerInstrument id).1.byId.map Prod.fst = (two.registerInstrument id).1.byId.map Prod.fst
          rw [byId, byIdToo, insertById_fst, insertById_fst]
          exact congrArg (fun ids => ids.takeWhile (· < id) ++ id :: ids.dropWhile (· < id)) alike.instruments
        books := fun other known => by
          obtain ⟨knows, made, kept⟩ := alike.left.bookFor_registerInstrument refused other
          obtain ⟨_, madeToo, keptToo⟩ := alike.right.bookFor_registerInstrument refusedToo other
          by_cases same : other = id
          · rw [same, made, madeToo]
            exact make_twins left.band right.band
          · have old := (knows.mp known).resolve_left same
            rw [kept old, keptToo (alike.knows other ▸ old)]
            exact alike.books other old
        orders := by rw [orders, ordersToo, alike.orders]
        restingOrders := by rw [resting, restingToo, alike.restingOrders]
        nextExchangeOrderId := by rw [nextId, nextIdToo, alike.nextExchangeOrderId]
        nextEventSequence := by rw [nextEvent, nextEventToo, alike.nextEventSequence]
        nextPriority := by
          rw [registerInstrument_nextPriority, registerInstrument_nextPriority, alike.nextPriority] }

theorem foldl_registerInstrument_alike (alike : Alike one two) (instruments : List InstrumentId) :
    Alike (instruments.foldl (fun engine id => (engine.registerInstrument id).1) one)
      (instruments.foldl (fun engine id => (engine.registerInstrument id).1) two) := by
  induction instruments generalizing one two with
  | nil => exact alike
  | cons id ids ih => exact ih (alike.registerInstrument id)

/-- An engine built for a universe and one that learns it entry by entry. -/
theorem make_alike (instruments : List InstrumentId) :
    Alike (make instruments) (instruments.foldl (fun engine id => (engine.registerInstrument id).1) (make [])) := by
  refine foldl_registerInstrument_alike ?_ instruments
  have empty : ∀ size band other, band ≤ 64 ^ 3 → other ≤ 64 ^ 3 →
      Alike { slotOfId := List.replicate size none, bandTicks := band }
        { slotOfId := List.replicate 0 none, bandTicks := other } := by
    intro size band other fits otherFits
    refine ⟨sized_registry size band fits, sized_registry 0 other otherFits, rfl, fun id known => ?_, rfl, rfl, rfl,
      rfl, rfl⟩
    simp [knowsInstrument] at known
  split_ifs
  · exact empty 0 _ _ (by decide) (by decide)
  · exact empty _ _ _ (bandFor_fits _ _) (by decide)

end Runs

end Mdh.Matching.MatchingEngine
