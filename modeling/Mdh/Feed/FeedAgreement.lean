import Mdh.Feed.FeedReplay
import Mdh.Matching.EngineRuns

/-! The subscriber against the exchange. Each way a resting order can change is announced by
one public event, and applying that event makes the same change to the subscriber's book. -/

namespace Mdh.Feed
open Mdh.Core Mdh.Lib Mdh.Matching Mdh.Matching.MatchingEngine

/-- What the feed says of a resting order. -/
def listed (entry : Resting) : ListedOrder where
  id := entry.order.exchangeOrderId
  side := entry.order.side
  price := entry.order.price
  quantity := entry.order.remainingQuantity

def listedOn (id : InstrumentId) (orders : List Resting) : List ListedOrder :=
  (orders.filter fun entry => entry.instrumentId = id).map listed

/-- Every book of the subscriber lists what rests on the exchange, and no message was refused. -/
structure Mirrors (state : BookManager × ReplayStats) (engine : MatchingEngine) : Prop where
  books : ∀ id, (state.1.bookFor id).Lists (listedOn id engine.resting)
  errors : state.2.bookErrors = 0

/-- One event of the exchange as the subscriber takes it. -/
def hear (state : BookManager × ReplayStats) (event : ExchangeEvent) : BookManager × ReplayStats :=
  match translate 0 0 event with
  | none => state
  | some message => applyEvent message state.1 state.2

def hearAll (events : List ExchangeEvent) (state : BookManager × ReplayStats) : BookManager × ReplayStats :=
  events.foldl hear state

section Hearing

/-- The number and the time of a message change nothing in a book. -/
theorem applyEvent_translate {sequenceNumber timestamp : Nat} {event : ExchangeEvent} {message : WireEvent}
    (sent : translate sequenceNumber timestamp event = some message) (state : BookManager × ReplayStats) :
    applyEvent message state.1 state.2 = hear state event := by
  cases event <;> simp only [translate, Option.some.injEq, reduceCtorEq] at sent <;> rw [← sent] <;> rfl

theorem hear_private (state : BookManager × ReplayStats) {event : ExchangeEvent} (hidden : IsPublic event = false) :
    hear state event = state := by
  cases event <;> first | rfl | cases hidden

/-- Applying what was published is hearing what happened. -/
theorem applyAll_publishAll (clock : Nat → Nat) (publisher : MarketDataPublisher) (events : List ExchangeEvent)
    (state : BookManager × ReplayStats) :
    applyAll (publisher.publishAll clock events).2 state.1 state.2 = hearAll events state := by
  induction events generalizing publisher state with
  | nil => rfl
  | cons event rest ih =>
    rw [hearAll, List.foldl_cons]
    cases shown : IsPublic event with
    | false =>
      rw [MarketDataPublisher.publishAll, publish_private clock publisher shown, hear_private state shown]
      exact ih publisher state
    | true =>
      obtain ⟨message, found, sent⟩ := publish_public clock publisher shown
      rw [MarketDataPublisher.publishAll, sent, ← applyEvent_translate found]
      exact ih { nextSequence := publisher.nextSequence + 1 } (applyEvent message state.1 state.2)

end Hearing

section Lists
variable {id : InstrumentId}

theorem listedOn_cons (id : InstrumentId) (entry : Resting) (orders : List Resting) :
    listedOn id (entry :: orders) =
      if entry.instrumentId = id then listed entry :: listedOn id orders else listedOn id orders := by
  unfold listedOn
  by_cases here : entry.instrumentId = id
  · rw [if_pos here, List.filter_cons_of_pos (by simpa using here), List.map_cons]
  · rw [if_neg here, List.filter_cons_of_neg (by simpa using here)]

theorem listedOn_perm {orders others : List Resting} (same : orders.Perm others) (id : InstrumentId) :
    (listedOn id orders).Perm (listedOn id others) :=
  (same.filter _).map _

theorem listedOn_cons_self (entry : Resting) (orders : List Resting) :
    listedOn entry.instrumentId (entry :: orders) = listed entry :: listedOn entry.instrumentId orders := by
  rw [listedOn_cons, if_pos rfl]

theorem listedOn_cons_other {entry : Resting} (elsewhere : id ≠ entry.instrumentId) (orders : List Resting) :
    listedOn id (entry :: orders) = listedOn id orders := by
  rw [listedOn_cons, if_neg elsewhere.symm]

end Lists

section Changes
variable {state : BookManager × ReplayStats} {before after : MatchingEngine} {entry : Resting}

/-- An operation on one book that did there what happened there. -/
theorem Mirrors.onBook (mirrors : Mirrors state before) {id : InstrumentId}
    (operation : OrderBook → OrderBook × Option BookError) {stats : ReplayStats} (clean : stats.bookErrors = 0)
    (done : (operation (state.1.bookFor id)).2 = none ∧
      (operation (state.1.bookFor id)).1.Lists (listedOn id after.resting))
    (elsewhere : ∀ other, other ≠ id → (listedOn other before.resting).Perm (listedOn other after.resting)) :
    Mirrors ((state.1.onBook id operation).1, stats.record (state.1.onBook id operation).2) after where
  books other := by
    show ((state.1.onBook id operation).1.bookFor other).Lists _
    rw [bookFor_onBook]
    by_cases same : other = id
    · rw [if_pos same, same]
      exact done.2
    · rw [if_neg same]
      exact (mirrors.books other).perm (elsewhere other same)
  errors := by
    show (stats.record (operation (state.1.bookFor id)).2).bookErrors = 0
    rw [done.1]
    exact clean

theorem Mirrors.removed (mirrors : Mirrors state before) (change : Removes entry before after) (eventSequence : Nat) :
    Mirrors (hear state (removedEvent entry.instrumentId entry.order eventSequence)) after := by
  have lists := (mirrors.books entry.instrumentId).perm (listedOn_perm change.resting _)
  rw [listedOn_cons_self] at lists
  refine mirrors.onBook (fun book => book.cancelOrder entry.order.exchangeOrderId)
    (show ({ state.2 with cancels := state.2.cancels + 1 } : ReplayStats).bookErrors = 0 from mirrors.errors)
    lists.cancelOrder ?_
  intro other elsewhere
  have same := listedOn_perm change.resting other
  rwa [listedOn_cons_other elsewhere] at same

/-- A reduction leaves an order its price and something of its quantity. -/
theorem Mirrors.reduced {edit : BookOrder → BookOrder} (mirrors : Mirrors state before)
    (change : Amends entry edit before after) (faithful : Faithful edit) (price : 0 < entry.order.price)
    (left : (edit entry.order).remainingQuantity ≠ 0) (eventSequence : Nat) :
    Mirrors (hear state (reducedEvent entry.instrumentId entry.order (edit entry.order).remainingQuantity
      eventSequence)) after := by
  obtain ⟨rest, was, is⟩ := change.resting
  have lists := (mirrors.books entry.instrumentId).perm (listedOn_perm was _)
  rw [listedOn_cons_self] at lists
  refine mirrors.onBook
    (fun book => book.modifyOrder entry.order.exchangeOrderId entry.order.price (edit entry.order).remainingQuantity)
    (show ({ state.2 with modifies := state.2.modifies + 1 } : ReplayStats).bookErrors = 0 from mirrors.errors) ?_ ?_
  · obtain ⟨fine, modified⟩ := lists.modifyOrder price left
    refine ⟨fine, modified.perm ?_⟩
    have now := listedOn_perm is entry.instrumentId
    rw [listedOn_cons, if_pos rfl] at now
    have same : listed { entry with order := edit entry.order } =
        { listed entry with price := entry.order.price, quantity := (edit entry.order).remainingQuantity } := by
      simp only [listed, faithful.exchangeOrderId, faithful.side, faithful.price]
    rw [same] at now
    exact now.symm
  · intro other elsewhere
    have one := listedOn_perm was other
    have two := listedOn_perm is other
    rw [listedOn_cons_other elsewhere] at one
    rw [listedOn_cons, if_neg elsewhere.symm] at two
    exact one.trans two.symm

theorem Mirrors.added {order : ExchangeRestingOrder} {middle : MatchingEngine} {ref : OrderRef}
    (mirrors : Mirrors state before) (change : Adds (rested order middle) ref before after) (price : 0 < order.price)
    (quantity : order.remainingQuantity ≠ 0) (unissued : before.Unissued order.exchangeOrderId)
    (eventSequence : Nat) : Mirrors (hear state (addedEvent order eventSequence)) after := by
  have fresh : (listed (rested order middle)).id ∉
      (listedOn order.instrumentId before.resting).map ListedOrder.id := by
    intro member
    obtain ⟨other, listedThere, sameId⟩ := List.mem_map.mp member
    obtain ⟨resting, there, rfl⟩ := List.mem_map.mp listedThere
    exact unissued.2 resting (List.mem_filter.mp there).1 sameId
  obtain ⟨fine, lists⟩ :=
    (mirrors.books order.instrumentId).addOrder (listed (rested order middle)) fresh price quantity
  refine mirrors.onBook
    (fun book => book.addOrder order.exchangeOrderId order.price order.remainingQuantity order.side)
    (show ({ state.2 with adds := state.2.adds + 1 } : ReplayStats).bookErrors = 0 from mirrors.errors)
    ⟨fine, lists.perm ?_⟩ ?_
  · have here := listedOn_perm change.resting order.instrumentId
    exact (here.trans (List.Perm.of_eq (listedOn_cons_self (rested order middle) before.resting))).symm
  · intro other elsewhere
    have there := listedOn_perm change.resting other
    exact (there.trans (List.Perm.of_eq (listedOn_cons_other elsewhere before.resting))).symm

/-- The resting orders as they were, whatever else moved. -/
theorem Mirrors.same (mirrors : Mirrors state before) (same : after.resting = before.resting) : Mirrors state after :=
  ⟨fun id => same ▸ mirrors.books id, mirrors.errors⟩

theorem Mirrors.trade (mirrors : Mirrors state before) (event : TradeExecuted) :
    Mirrors (hear state (.tradeExecuted event)) before :=
  ⟨mirrors.books, mirrors.errors⟩

end Changes

/-- From `before` to `after`, a subscriber that mirrored the one and hears the events mirrors the other. -/
def Relays (before after : Step) : Prop :=
  ∃ later, after.events = before.events ++ later ∧
    ∀ state, Mirrors state before.engine → Mirrors (hearAll later state) after.engine

section Steps
variable {first second third : Step}

theorem Relays.refl (step : Step) : Relays step step := ⟨[], (List.append_nil _).symm, fun _ mirrors => mirrors⟩

theorem Relays.trans (one : Relays first second) (two : Relays second third) : Relays first third := by
  obtain ⟨front, frontEvents, frontMirrors⟩ := one
  obtain ⟨back, backEvents, backMirrors⟩ := two
  refine ⟨front ++ back, by rw [backEvents, frontEvents, List.append_assoc], fun state mirrors => ?_⟩
  rw [hearAll, List.foldl_append]
  exact backMirrors _ (frontMirrors state mirrors)

/-- A private event, and whatever it did to the numbers. -/
theorem Relays.private {event : ExchangeEvent} (hidden : IsPublic event = false)
    (events : second.events = first.events ++ [event]) (same : second.engine.resting = first.engine.resting) :
    Relays first second := by
  refine ⟨[event], events, fun state mirrors => ?_⟩
  show Mirrors (hear state event) _
  rw [hear_private state hidden]
  exact mirrors.same same

end Steps

section Matching
variable (commandSequence : Nat) {incoming : ExchangeRestingOrder} {step : Step}

/-- A fill is a trade, which no book minds, and what it did to the front of the book. -/
theorem fillFront_relays (sound : step.engine.Sound)
    (known : step.engine.knowsInstrument incoming.instrumentId = true) {first : Placed} {rest : List Placed}
    (contents : (step.engine.bookFor incoming.instrumentId).queues incoming.side.contra = first :: rest) :
    Relays step (fillFront commandSequence incoming first.order step).2 := by
  refine ⟨_, (fillFront_events commandSequence incoming step first.order).1, fun state mirrors => ?_⟩
  have member : first ∈ (step.engine.bookFor incoming.instrumentId).queues incoming.side.contra := by simp [contents]
  have price := (sound.positive _ (sound.intact.mem_resting known member)).1
  rw [hearAll, List.foldl_cons, List.foldl_cons, List.foldl_nil]
  generalize heard : hear state _ = traded
  have mirrors : Mirrors traded step.engine := heard ▸ mirrors.trade _
  rcases le_or_gt first.order.remainingQuantity incoming.remainingQuantity with full | more
  · rw [min_eq_right full, Nat.sub_self, bookEvent, if_pos rfl]
    exact mirrors.removed (fillFront_removes commandSequence sound.intact known contents full) _
  · have left : first.order.remainingQuantity - incoming.remainingQuantity ≠ 0 := by omega
    rw [min_eq_left more.le, bookEvent, if_neg left]
    exact mirrors.reduced (fillFront_amends commandSequence sound.intact known contents more).1 (reduced_faithful _)
      price left _

theorem matchAndRest_relays (sound : step.engine.Sound)
    (known : step.engine.knowsInstrument incoming.instrumentId = true) :
    Relays step (matchAndRest commandSequence incoming step).2 :=
  (matchAndRest_rule commandSequence (fun _ after => Relays step after)
    (fun _ _ _ _ relays sound known contents _ _ =>
      relays.trans (fillFront_relays commandSequence sound known contents)) (Relays.refl step) sound known).1

variable (incoming) in
/-- An arrival is announced fill by fill, and then where its remainder comes to rest. -/
theorem matchThenRest_relays (sound : step.engine.Sound)
    (known : step.engine.knowsInstrument incoming.instrumentId = true) (price : 0 < incoming.price)
    (unissued : step.engine.Unissued incoming.exchangeOrderId) :
    Relays step (matchThenRest commandSequence incoming step) := by
  have matched := matchAndRest_relays commandSequence sound known
  by_cases stays : (matchAndRest commandSequence incoming step).1.timeInForce ≠ .gtc ∨
      (matchAndRest commandSequence incoming step).1.remainingQuantity = 0
  · rw [matchThenRest_stays commandSequence stays]
    exact matched
  · rw [not_or, not_not] at stays
    obtain ⟨gtc, left⟩ := stays
    have final := (matchAndRest_matches commandSequence sound known).final
    have sameTime : (matchAndRest commandSequence incoming step).1.timeInForce = incoming.timeInForce := by rw [final]
    have samePrice : (matchAndRest commandSequence incoming step).1.price = incoming.price := by rw [final]
    have sameId : (matchAndRest commandSequence incoming step).1.exchangeOrderId = incoming.exchangeOrderId := by
      rw [final]
    obtain ⟨change, events⟩ := matchThenRest_adds commandSequence sound known (sameTime ▸ gtc) left
    have unissued := (matchAndRest_unissued commandSequence sound known unissued).1
    refine matched.trans ⟨_, events, fun state mirrors => ?_⟩
    exact mirrors.added change (samePrice ▸ price) left (sameId ▸ unissued) _

end Matching

section Commands
variable (step : Step)

theorem processNewOrder_relays (sound : step.engine.Sound) (command : NewOrderCommand) :
    Relays step (processNewOrder command step) := by
  unfold processNewOrder
  cases valid : step.engine.newOrderError command with
  | some reason => exact Relays.private rfl rfl rfl
  | none =>
    obtain ⟨known, price, _⟩ := newOrderError_eq_none valid
    simp only [acceptNewOrder_eq]
    have accepted : Relays step (step.numbered.sink (acceptedEvent command step.engine.nextExchangeOrderId)) :=
      Relays.private rfl rfl rfl
    exact accepted.trans (matchThenRest_relays _ (newOrderOf command step.engine) (sound.numbered.sink _) known price
      sound.unissued)

theorem processCancel_relays (sound : step.engine.Sound) (command : CancelOrderCommand) :
    Relays step (processCancel command step) := by
  rcases processCancel_cases step sound command with ⟨reason, rejected⟩ | ⟨ref, placed, found, same, located⟩
  · rw [rejected]
    exact Relays.private rfl rfl rfl
  · obtain ⟨change, events⟩ := processCancel_removes step sound.intact found same located
    exact ⟨_, events, fun state mirrors => mirrors.removed change _⟩

theorem replaceInPlace_relays (sound : step.engine.Sound) {command : ReplaceOrderCommand} {ref : OrderRef}
    {placed : Placed} (replaces : Replaces command step.engine ref placed) :
    Relays step (replaceInPlace command ref placed.order step) := by
  obtain ⟨change, _, events⟩ := replaceInPlace_amends step sound.intact replaces.same replaces.located
  have price := (sound.positive _ (replaces.located.resting sound.intact)).1
  exact ⟨_, events, fun state mirrors =>
    mirrors.reduced change (editFor_faithful command) price replaces.quantity _⟩

theorem replaceByNew_relays (sound : step.engine.Sound) {command : ReplaceOrderCommand} {ref : OrderRef}
    {placed : Placed} (replaces : Replaces command step.engine ref placed) :
    Relays step (replaceByNew command ref placed.order step) := by
  obtain ⟨middle, known, unissued⟩ := replacing_sound step sound replaces
  have change := withdrawn_removes step sound.intact replaces.same replaces.located
  have withdrew : Relays step (replacing command ref placed.order step) := by
    refine ⟨[replacedEvent command step.engine.nextExchangeOrderId step.engine.nextEventSequence,
      removedEvent command.instrumentId placed.order (step.engine.nextEventSequence + 1)],
      by simp [replacing, withdrawn, Step.sink, Step.numbered, Step.onBook, Step.forget, setBook], fun state mirrors => ?_⟩
    exact (mirrors.removed change _).same rfl
  rw [replaceByNew_eq]
  exact withdrew.trans (matchThenRest_relays _ (replacementOf command placed.order step.engine) middle known
    replaces.price unissued)

theorem processReplace_relays (sound : step.engine.Sound) (command : ReplaceOrderCommand) :
    Relays step (processReplace command step) := by
  rcases processReplace_cases step sound command with ⟨reason, rejected⟩ | ⟨ref, placed, replaces⟩
  · rw [rejected]
    exact Relays.private rfl rfl rfl
  · rw [processReplace_eq step replaces]
    split_ifs
    · exact replaceInPlace_relays step sound replaces
    · exact replaceByNew_relays step sound replaces

theorem dispatch_relays (sound : step.engine.Sound) (command : ExchangeCommand) :
    Relays step (dispatch command step) := by
  cases command with
  | newOrder command => exact processNewOrder_relays step sound command
  | cancelOrder command => exact processCancel_relays step sound command
  | replaceOrder command => exact processReplace_relays step sound command

end Commands

section Runs
variable {engine : MatchingEngine}

theorem mirrors_process {state : BookManager × ReplayStats} (sound : engine.Sound) (mirrors : Mirrors state engine)
    (command : ExchangeCommand) :
    Mirrors (hearAll (process engine command).events state) (process engine command).engine := by
  obtain ⟨later, events, relays⟩ := dispatch_relays { engine } sound command
  have same : (process engine command).events = later := events
  rw [same]
  exact relays state mirrors

theorem mirrors_run {state : BookManager × ReplayStats} (sound : engine.Sound) (mirrors : Mirrors state engine)
    (commands : List ExchangeCommand) :
    Mirrors (hearAll (engine.runEvents commands) state) (engine.run commands) := by
  induction commands generalizing engine state with
  | nil => exact mirrors
  | cons command rest ih =>
    rw [runEvents, hearAll, List.foldl_append]
    exact ih (dispatch_sound { engine } sound command) (mirrors_process sound mirrors command)

theorem mirrors_make (instruments : List InstrumentId) : Mirrors ({}, {}) (make instruments) where
  books id := by
    rw [make_resting]
    exact OrderBook.empty_lists
  errors := rfl

/-- What rests on the exchange at one price of one side, as a subscriber would list it. -/
def restingAt (engine : MatchingEngine) (id : InstrumentId) (side : Side) (price : Int) : List RestingOrder :=
  (engine.resting.filter fun entry =>
    entry.instrumentId = id ∧ entry.order.side = side ∧ entry.order.price = price).map fun entry =>
      { id := entry.order.exchangeOrderId, quantity := entry.order.remainingQuantity }

theorem restingAt_eq (engine : MatchingEngine) (id : InstrumentId) (side : Side) (price : Int) :
    ordersAt (listedOn id engine.resting) side price = restingAt engine id side price := by
  unfold ordersAt listedOn restingAt
  rw [List.filter_map, List.map_map, List.filter_filter]
  congr 1
  refine List.filter_congr fun entry _ => ?_
  show (decide (entry.order.side = side ∧ entry.order.price = price) && decide (entry.instrumentId = id)) = _
  rw [← Bool.decide_and]
  exact decide_eq_decide.mpr and_comm

/-- The feed rebuilds the exchange's book after any sequence of commands: every level of the
subscriber holds what rests there and knows its sum, no message is refused, and the messages
are numbered from 1 without a gap, private events using up no number. -/
theorem feed_rebuilds_book (clock : Nat → Nat) (instruments : List InstrumentId) (commands : List ExchangeCommand) :
    let engine := make instruments
    let events := engine.runEvents commands
    let sent := MarketDataPublisher.publishAll clock {} events
    let (books, stats) := applyAll sent.2 {} {}
    (∀ id side price, Shows price (((books.bookFor id).levelsOf side).find? price)
      (restingAt (engine.run commands) id side price)) ∧
    stats.bookErrors = 0 ∧
    sent.2.map WireEvent.sequenceNumber = List.range' 1 (events.countP IsPublic) ∧
    (∀ result ∈ (SequenceValidator.checkAll {} (sent.2.map WireEvent.sequenceNumber)).2,
      result.outcome = .inOrder) := by
  intro engine events sent
  have mirrors := mirrors_run (make_sound instruments) (mirrors_make instruments) commands
  rw [← applyAll_publishAll clock {} _ ({}, {})] at mirrors
  have numbers := (publishAll_numbers clock {} events).1
  refine ⟨fun id side price => ?_, mirrors.errors, numbers, ?_⟩
  · rw [← restingAt_eq]
    exact (mirrors.books id).shows side price
  · rw [numbers]
    exact checkAll_consecutive _ _ _ fun last seen => by cases seen

end Runs

end Mdh.Feed
