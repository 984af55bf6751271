import Mathlib.Data.List.Dedup
import Mathlib.Data.List.Sort
import Mdh.Feed.BookCells
import Mdh.Feed.BookStorage
import Mdh.Feed.UdpReplay
import Mdh.Server.SseHub

/-! The browser's view of the books: a loop applies the market data to its own books and publishes
each book that was touched, and every open stream takes it from the hub. -/

namespace Mdh.Feed
open Mdh.Core

def WireEvent.instrumentId : WireEvent → InstrumentId
  | .addOrder message => message.instrumentId
  | .cancelOrder message => message.instrumentId
  | .modifyOrder message => message.instrumentId
  | .trade message => message.instrumentId
  | .clearBook message => message.instrumentId

namespace OrderBook

def levelView (entry : Int × PriceLevel) : PriceLevelView where
  price := entry.1
  aggregateQuantity := entry.2.aggregateQuantity
  orderCount := entry.2.orders.length

def topBids (book : OrderBook) (n : Nat) : List PriceLevelView := (book.bids.entries.reverse.take n).map levelView

def topAsks (book : OrderBook) (n : Nat) : List PriceLevelView := (book.asks.entries.take n).map levelView

end OrderBook

end Mdh.Feed

namespace Mdh.Server
open Mdh.Core Mdh.Lib Mdh.Feed

variable {V C : Type}

def bookTopic (id : InstrumentId) : String := "book:" ++ Nat.repr id

def orderTopic (account : Nat) : String := "order:" ++ Nat.repr account

/-- `bookEvent` is the text of a book event, from the levels of both sides. -/
structure UiOptions (V : Type) where
  bookDepth : Nat := 10
  bookEvent : InstrumentId → List PriceLevelView → List PriceLevelView → V

/-- `touched` is what is still to be published of the last batch. `heard` is the history. -/
structure UiGateway (V C : Type) where
  replay : Replay := {}
  touched : List InstrumentId := []
  streams : SseStreams String V C := {}
  heard : List FrameResult := []

inductive UiAction (V C : Type) where
  | receive (batch : List (List UInt8))
  | broadcastBook (order : List String)
  | broadcastOrder (account : Nat) (payload : V) (order : List String)
  | waitNext (client : C)
  deriving DecidableEq, Repr

/-- What a book is published as. -/
def UiOptions.bookPayload (options : UiOptions V) (books : BookManager) (id : InstrumentId) : V :=
  let book := books.bookFor id
  options.bookEvent id (book.topBids options.bookDepth) (book.topAsks options.bookDepth)

namespace UiGateway

/-- The loop keeps the options of a file replay, and does not look whether to stop. -/
def replayAll (frames : List FrameResult) (replay : Replay) : Replay :=
  frames.foldl (fun replay frame => (applyFrameResult {} { frame } replay).1) replay

def receive (gateway : UiGateway V C) (batch : List (List UInt8)) : UiGateway V C :=
  let frames := batch.flatMap UdpListener.framesOf
  { gateway with
    replay := replayAll frames gateway.replay
    touched := (((eventsIn frames).map WireEvent.instrumentId).insertionSort (· ≤ ·)).dedup
    heard := gateway.heard ++ frames }

def onStreams [DecidableEq C] (gateway : UiGateway V C) (action : StreamAction String V C) : Option (UiGateway V C) :=
  (gateway.streams.step action).map fun streams => { gateway with streams }

def step [DecidableEq C] (options : UiOptions V) (gateway : UiGateway V C) : UiAction V C → Option (UiGateway V C)
  | .receive batch => if gateway.touched = [] then some (gateway.receive batch) else none
  | .broadcastBook order =>
      match gateway.touched with
      | [] => none
      | id :: rest =>
          { gateway with touched := rest }.onStreams
            (.publish (bookTopic id) (options.bookPayload gateway.replay.outcome.books id) order)
  | .broadcastOrder account payload order => gateway.onStreams (.publish (orderTopic account) payload order)
  | .waitNext client => gateway.onStreams (.waitNext client)

end UiGateway

theorem bookTopic_injective {first second : InstrumentId} (same : bookTopic first = bookTopic second) : first = second := by
  have texts : Nat.repr first = Nat.repr second := (String.append_right_inj _).mp same
  have digits := congrArg String.toList texts
  rw [Nat.toList_repr, Nat.toList_repr] at digits
  calc first = Nat.ofDigitChars 10 (Nat.toDigits 10 first) 0 := Nat.ofDigitChars_ten_toDigits.symm
    _ = Nat.ofDigitChars 10 (Nat.toDigits 10 second) 0 := by rw [digits]
    _ = second := Nat.ofDigitChars_ten_toDigits

theorem orderTopic_ne_bookTopic (account : Nat) (id : InstrumentId) : orderTopic account ≠ bookTopic id := by
  intro same
  have letters := congrArg (fun topic => topic.toList.head?) same
  unfold orderTopic bookTopic at letters
  rw [String.toList_append, String.toList_append] at letters
  cases letters

/-- The events whose number was the next one when they came. -/
def inOrderEvents (validator : SequenceValidator) : List FrameResult → List WireEvent
  | [] => []
  | .error _ :: rest => inOrderEvents validator rest
  | .ok event :: rest =>
      let (validator, check) := validator.check64 event.sequenceNumber
      if check.outcome = .inOrder then event :: inOrderEvents validator rest else inOrderEvents validator rest

section Loop
variable {replay : Replay}

/-- The loop applies an event whose number is the next one; any other only moves the validator. -/
theorem applyFrameResult_event (event : WireEvent) :
    (applyFrameResult {} { frame := .ok event } replay).1.validator =
        (replay.validator.check64 event.sequenceNumber).1 ∧
      (applyFrameResult {} { frame := .ok event } replay).1.outcome.books =
        if (replay.validator.check64 event.sequenceNumber).2.outcome = .inOrder then
          (applyEvent event replay.outcome.books {}).1
        else replay.outcome.books := by
  unfold applyFrameResult
  dsimp only
  by_cases inOrder : (replay.validator.check64 event.sequenceNumber).2.outcome = .inOrder
  · rw [if_pos inOrder, if_pos inOrder]
    exact ⟨rfl, applyEvent_books event _ _ _⟩
  · rw [if_neg inOrder, if_neg inOrder, if_pos rfl]
    cases (replay.validator.check64 event.sequenceNumber).2.outcome <;> exact ⟨rfl, rfl⟩

/-- An event leaves the books of the other instruments alone. -/
theorem applyEvent_other {event : WireEvent} {id : InstrumentId} (other : id ≠ event.instrumentId) (books : BookManager)
    (stats : ReplayStats) : (applyEvent event books stats).1.bookFor id = books.bookFor id := by
  cases event with
  | addOrder | cancelOrder | modifyOrder | clearBook => exact (bookFor_onBook ..).trans (if_neg other)
  | trade => rfl

namespace UiGateway

theorem replayAll_books (frames : List FrameResult) (replay : Replay) :
    (replayAll frames replay).outcome.books = (applyAll (inOrderEvents replay.validator frames) replay.outcome.books {}).1 := by
  induction frames generalizing replay with
  | nil => rfl
  | cons frame frames ih =>
    have later := ih (applyFrameResult {} { frame } replay).1
    rw [replayAll, List.foldl_cons, ← replayAll, later]
    cases frame with
    | error error => rfl
    | ok event =>
      obtain ⟨validator, books⟩ := @applyFrameResult_event replay event
      rw [validator, books, inOrderEvents]
      dsimp only
      split_ifs
      · rw [applyAll_cons]
        exact applyAll_books ..
      · rfl

theorem replayAll_other {frames : List FrameResult} {id : InstrumentId}
    (untouched : id ∉ (eventsIn frames).map WireEvent.instrumentId) (replay : Replay) :
    (replayAll frames replay).outcome.books.bookFor id = replay.outcome.books.bookFor id := by
  induction frames generalizing replay with
  | nil => rfl
  | cons frame frames ih =>
    rw [replayAll, List.foldl_cons, ← replayAll]
    cases frame with
    | error error => exact ih untouched _
    | ok event =>
      have both : id ≠ event.instrumentId ∧ id ∉ (eventsIn frames).map WireEvent.instrumentId := by
        rw [← not_or, ← List.mem_cons]
        exact untouched
      rw [ih both.2, (applyFrameResult_event event).2]
      split_ifs
      · exact applyEvent_other both.1 ..
      · rfl

end UiGateway

end Loop

namespace UiGateway
variable [DecidableEq C] {options : UiOptions V} {gateway next : UiGateway V C}

/-- The instruments of all the events that have come in. -/
def heardOf (gateway : UiGateway V C) : List InstrumentId := (eventsIn gateway.heard).map WireEvent.instrumentId

/-- What the hub holds of every book that is not still to be published is the book as it stands. -/
structure Shown (options : UiOptions V) (gateway : UiGateway V C) : Prop where
  streams : gateway.streams.Consistent
  replayed : gateway.replay = replayAll gateway.heard {}
  heard : ∀ id ∈ gateway.touched, id ∈ gateway.heardOf
  published : ∀ id, id ∉ gateway.touched → (gateway.streams.hub.topics (bookTopic id)).map Entry.payload =
    if id ∈ gateway.heardOf then some (options.bookPayload gateway.replay.outcome.books id) else none

omit [DecidableEq C] in
theorem Shown.receive (shown : gateway.Shown options) (idle : gateway.touched = []) (batch : List (List UInt8)) :
    (gateway.receive batch).Shown options := by
  obtain ⟨streams, replayed, _, published⟩ := shown
  have all : (gateway.receive batch).heardOf =
      gateway.heardOf ++ (eventsIn (batch.flatMap UdpListener.framesOf)).map WireEvent.instrumentId := by
    unfold heardOf UiGateway.receive eventsIn
    rw [List.filterMap_append, List.map_append]
  have touched (id : InstrumentId) : id ∈ (gateway.receive batch).touched ↔
      id ∈ (eventsIn (batch.flatMap UdpListener.framesOf)).map WireEvent.instrumentId := by
    unfold UiGateway.receive
    rw [List.mem_dedup, List.mem_insertionSort]
  refine ⟨streams, ?_, fun id member => ?_, fun id untouched => ?_⟩
  · unfold UiGateway.receive
    dsimp only
    rw [replayed, replayAll, replayAll, replayAll, List.foldl_append]
  · rw [all]
    exact List.mem_append_right _ ((touched id).mp member)
  · rw [touched] at untouched
    have before := published id (idle ▸ List.not_mem_nil)
    have same : options.bookPayload (gateway.receive batch).replay.outcome.books id =
        options.bookPayload gateway.replay.outcome.books id := by
      unfold UiOptions.bookPayload UiGateway.receive
      rw [replayAll_other untouched]
    have known : id ∈ (gateway.receive batch).heardOf ↔ id ∈ gateway.heardOf := by
      rw [all, List.mem_append]
      exact or_iff_left untouched
    rw [same]
    simp only [known]
    exact before

/-- A step of the hub that keeps the book topics keeps what is shown. -/
theorem Shown.onStreams (shown : gateway.Shown options) {action : StreamAction String V C}
    (kept : ∀ streams, gateway.streams.step action = some streams → ∀ id, id ∉ gateway.touched →
      streams.hub.topics (bookTopic id) = gateway.streams.hub.topics (bookTopic id))
    (stepped : gateway.onStreams action = some next) : next.Shown options := by
  obtain ⟨streams, moved, rfl⟩ := Option.map_eq_some_iff.mp stepped
  refine ⟨shown.streams.step moved, shown.replayed, shown.heard, fun id untouched => ?_⟩
  rw [kept streams moved id untouched]
  exact shown.published id untouched

theorem step_topics {streams after : SseStreams String V C} {topic : String} {payload : V} {order : List String}
    (stepped : streams.step (.publish topic payload order) = some after) :
    after.hub.topics =
      Function.update streams.hub.topics topic (some { payload, revision := streams.hub.globalRevision + 1 }) := by
  obtain ⟨hub, published, rfl⟩ := Option.map_eq_some_iff.mp stepped
  obtain ⟨_, rfl⟩ := SseHub.publish_eq published
  rfl

theorem Shown.step (shown : gateway.Shown options) {action : UiAction V C} (stepped : gateway.step options action = some next) :
    next.Shown options := by
  cases action with
  | receive batch =>
    obtain ⟨idle, same⟩ := Option.ite_none_right_eq_some.mp stepped
    cases same
    exact shown.receive idle batch
  | broadcastBook order =>
    unfold UiGateway.step at stepped
    cases left : gateway.touched with
    | nil =>
      rw [left] at stepped
      cases stepped
    | cons id rest =>
      rw [left] at stepped
      obtain ⟨streams, moved, rfl⟩ := Option.map_eq_some_iff.mp stepped
      have topics := step_topics moved
      refine ⟨shown.streams.step moved, shown.replayed, fun other member => ?_, fun other untouched => ?_⟩
      · exact shown.heard other (left ▸ List.mem_cons_of_mem _ member)
      · rw [topics]
        by_cases same : other = id
        · have heard : other ∈ gateway.heardOf := shown.heard other (left ▸ same ▸ List.mem_cons_self)
          rw [same, Function.update_self]
          exact (if_pos (same ▸ heard)).symm
        · have apart : other ∉ gateway.touched := by
            rw [left, List.mem_cons, not_or]
            exact ⟨same, untouched⟩
          rw [Function.update_of_ne fun topic => same (bookTopic_injective topic)]
          exact shown.published other apart
  | broadcastOrder account payload order =>
    apply shown.onStreams _ stepped
    intro streams moved id _
    rw [step_topics moved, Function.update_of_ne fun topic => orderTopic_ne_bookTopic account id topic.symm]
  | waitNext client =>
    apply shown.onStreams _ stepped
    intro streams moved id _
    cases waited : gateway.streams.hub.waitNext (gateway.streams.connections client) with
    | none =>
      rw [SseStreams.step_waitNext_none waited] at moved
      cases moved
      rfl
    | some found =>
      rw [SseStreams.step_waitNext_some waited] at moved
      cases moved
      rfl

/-- The books a browser sees. Whatever comes in, whichever order topics are published in and however
the streams are served: when a stream has nothing left to deliver, the last it delivered of every
book that is not just being published is the gateway's book as it stands, and nothing of a book no
event has named. The books are what the events that came in their turn make of them: one that
reveals a gap is left out like the ones it misses. -/
theorem browser_sees_books {actions : List (UiAction V C)}
    (ran : Transitions.run (step options) {} actions = some gateway) (client : C)
    (caughtUp : gateway.streams.hub.waitNext (gateway.streams.connections client) = none) :
    let books := gateway.replay.outcome.books
    books = (applyAll (inOrderEvents {} gateway.heard) {} {}).1 ∧
      ∀ id, id ∉ gateway.touched →
        ((onTopic (bookTopic id) (gateway.streams.connections client).delivered).getLast?.map fun last => last.2.payload) =
          if id ∈ gateway.heardOf then some (options.bookPayload books id) else none := by
  have shown : gateway.Shown options := by
    refine Transitions.run_invariant (fun _ _ _ shown stepped => Shown.step shown stepped) ?_ ran
    exact ⟨SseStreams.start_consistent, rfl, nofun, fun _ _ => rfl⟩
  constructor
  · rw [shown.replayed]
    exact replayAll_books ..
  · intro id untouched
    have notBehind : gateway.streams.hub.revision (bookTopic id) ≤
        (gateway.streams.connections client).cursors (bookTopic id) := by
      by_contra behind
      exact SseHub.waitNext_isSome shown.streams.hub (Nat.lt_of_not_le behind) caughtUp
    have current := (shown.streams.follows client).current (bookTopic id) notBehind
    rw [← shown.published id untouched, ← current, Option.map_map]
    rfl

section OneBook

/-- Book events as the levels they show. -/
def plainOptions : UiOptions (List PriceLevelView × List PriceLevelView) where
  bookEvent _ bids asks := (bids, asks)

/-- A bid, and behind a gap a clear that is left out. -/
def bidAndGap : List (List UInt8) :=
  [packFrames 1 [.addOrder {
      sequenceNumber := 1, timestamp := 1, orderId := 5, instrumentId := 3, price := 100, quantity := 7, side := .buy }],
    packFrames 2 [.clearBook { sequenceNumber := 4, timestamp := 2, instrumentId := 3 }]]

def bidAndGapRun : List (UiAction (List PriceLevelView × List PriceLevelView) Unit) :=
  [.receive bidAndGap, .broadcastBook ["book:3"], .waitNext ()]

theorem bidAndGap_run : ∃ gateway, Transitions.run (step plainOptions) {} bidAndGapRun = some gateway ∧
    gateway.touched = [] ∧ gateway.streams.hub.waitNext (gateway.streams.connections ()) = none ∧
    gateway.heardOf = [3, 3] := by
  have ran : (Transitions.run (step plainOptions) {} bidAndGapRun).map (fun gateway =>
      (gateway.touched, (gateway.streams.hub.waitNext (gateway.streams.connections ())).isNone, gateway.heardOf)) =
      some ([], true, [3, 3]) := by decide +kernel
  obtain ⟨gateway, reached, same⟩ := Option.map_eq_some_iff.mp ran
  simp only [Prod.mk.injEq, Option.isNone_iff_eq_none] at same
  exact ⟨gateway, reached, same⟩

/-- The browser still shows the bid. -/
theorem browser_sees_books_gap : ∃ gateway : UiGateway (List PriceLevelView × List PriceLevelView) Unit,
    ((onTopic (bookTopic 3) (gateway.streams.connections ()).delivered).getLast?.map fun last => last.2.payload) =
      some (plainOptions.bookPayload gateway.replay.outcome.books 3) := by
  obtain ⟨gateway, ran, touched, caughtUp, heard⟩ := bidAndGap_run
  have shows := (browser_sees_books ran () caughtUp).2 3 (touched ▸ List.not_mem_nil)
  rw [if_pos (by rw [heard]; decide)] at shows
  exact ⟨gateway, shows⟩

end OneBook

end UiGateway

end Mdh.Server
