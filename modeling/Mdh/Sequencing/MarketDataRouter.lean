import Mdh.Lib.SpscRing
import Mdh.Sequencing.StopDrains

/-! The market-data router between the matching thread and the routing thread, one load or store
of its queue at a time. An event has its number before the queue is asked to take it. -/

namespace Mdh.Sequencing
open Mdh.Core Mdh.Lib Mdh.Lib.SpscRing Mdh.Feed

/-- A datagram's payload less its header, over the largest frame: a header and an added order. -/
def maxFramesPerDatagram : Nat := (1472 - 20) / (20 + 29)

structure MarketDataRouterOptions where
  queueCapacity : Nat := 8192
  maxBatch : Nat := maxFramesPerDatagram
  deriving DecidableEq, Repr

/-- Where the matching thread stands in `publish`. -/
inductive PublishPlace where
  | idle
  | pushing (place : PushPlace WireEvent)
  | dropping (event : WireEvent)
  | notifying
  deriving DecidableEq, Repr

/-- Where the routing thread stands in `routing_loop`, with its batch. -/
inductive RouterPlace where
  | notStarted
  | gathering (batch : List WireEvent)
  | popping (batch : List WireEvent) (place : PopPlace WireEvent)
  | handing (batch : List WireEvent)
  | testing
  | waiting
  | ended
  deriving DecidableEq, Repr

/-- The router; `published`, `accepted` and `refused` are the history: the events `publish` was
called with, and those the queue has taken or turned away. -/
structure MarketDataRouter where
  queue : SpscRing WireEvent
  maxBatch : Nat
  publisher : MarketDataPublisher := {}
  matching : PublishPlace := .idle
  routing : RouterPlace := .notStarted
  thread : RoutingThread := {}
  droppedCount : Nat := 0
  cvWaits : Nat := 0
  stopRequested : Bool := false
  published : List ExchangeEvent := []
  accepted : List WireEvent := []
  refused : List WireEvent := []

inductive RouterAction where
  | publish (event : ExchangeEvent)
  | matching
  | start
  | routing
  | requestStop
  deriving DecidableEq, Repr

namespace MarketDataRouter

/-- What stands in a slot of the queue before it is written first. -/
def blank : WireEvent := .clearBook ⟨0, 0, 0⟩

/-- Nothing for a capacity above the last power of two of a word: the rounding does not end. -/
def make (options : MarketDataRouterOptions) : Option MarketDataRouter :=
  (nextPowerOfTwo options.queueCapacity).map fun bits =>
    { queue := SpscRing.make bits blank, maxBatch := batchCap options.maxBatch }

section Step
variable (clock : Nat → Nat) (state : MarketDataRouter)

/-- The publisher is the matching thread's own, so the event has its number in the same step. -/
def publish (event : ExchangeEvent) : MarketDataRouter :=
  { state with
    publisher := (state.publisher.publish clock event).1
    matching := match (state.publisher.publish clock event).2 with
      | some message => .pushing (.loadHead message)
      | none => .idle
    published := state.published ++ [event] }

/-- `DroppingQueue::push`, then the wake-up. -/
def matchingStep : Option MarketDataRouter :=
  match state.matching with
  | .idle => none
  | .pushing place =>
      match (state.queue.pushStep place).2 with
      | .inl onward => some { state with queue := (state.queue.pushStep place).1, matching := .pushing onward }
      | .inr true => some { state with
          queue := (state.queue.pushStep place).1
          matching := .notifying
          accepted := state.accepted ++ [place.value] }
      | .inr false => some { state with queue := (state.queue.pushStep place).1, matching := .dropping place.value }
  | .dropping event => some { state with
      droppedCount := state.droppedCount + 1
      matching := .idle
      refused := state.refused ++ [event] }
  | .notifying => some { state with matching := .idle }

/-- A batch is handed on; an empty one sends the thread to the test of the flag. -/
def leave (batch : List WireEvent) : RouterPlace := if batch.isEmpty then .testing else .handing batch

/-- A wait ends by itself after the idle timeout. -/
def routingStep : Option MarketDataRouter :=
  match state.routing with
  | .notStarted | .ended => none
  | .gathering batch => some { state with
      routing := if batch.length < state.maxBatch then .popping batch .loadTail else leave batch }
  | .popping batch place =>
      match (state.queue.popStep place).2 with
      | .inl onward => some { state with queue := (state.queue.popStep place).1, routing := .popping batch onward }
      | .inr none => some { state with queue := (state.queue.popStep place).1, routing := leave batch }
      | .inr (some event) => some { state with
          queue := (state.queue.popStep place).1
          routing := .gathering (batch ++ [event]) }
  | .handing batch => some { state with thread := state.thread.deliver batch, routing := .gathering [] }
  | .testing =>
      if state.stopRequested then some { state with routing := .ended }
      else some { state with routing := .waiting, cvWaits := state.cvWaits + 1 }
  | .waiting => some { state with routing := .gathering [] }

/-- The matching thread publishes one event at a time. -/
def step : RouterAction → Option MarketDataRouter
  | .publish event => if state.matching = .idle then some (state.publish clock event) else none
  | .matching => state.matchingStep
  | .start => if state.routing = .notStarted then some { state with routing := .gathering [] } else none
  | .routing => state.routingStep
  | .requestStop => some { state with stopRequested := true }

end Step

/-- The wire events of all that was published, each with its number. -/
def wireEvents (clock : Nat → Nat) (state : MarketDataRouter) : List WireEvent :=
  (MarketDataPublisher.publishAll clock {} state.published).2

/-- The event whose push has not returned. -/
def inHand (state : MarketDataRouter) : List WireEvent :=
  match state.matching with
  | .idle | .notifying => []
  | .pushing place => [place.value]
  | .dropping event => [event]

/-- What downstream was handed, batch after batch. -/
def handed (state : MarketDataRouter) : List WireEvent := state.thread.sent.flatten

section Cases
variable {state next : MarketDataRouter}

/-- All that the matching thread can do inside `publish`. -/
theorem matchingStep_cases (stepped : state.matchingStep = some next) :
    (∃ place onward, state.matching = .pushing place ∧ (state.queue.pushStep place).2 = .inl onward ∧
      next = { state with queue := (state.queue.pushStep place).1, matching := .pushing onward }) ∨
    (∃ place, state.matching = .pushing place ∧ (state.queue.pushStep place).2 = .inr true ∧ next = { state with
      queue := (state.queue.pushStep place).1
      matching := .notifying
      accepted := state.accepted ++ [place.value] }) ∨
    (∃ place, state.matching = .pushing place ∧ (state.queue.pushStep place).2 = .inr false ∧
      next = { state with queue := (state.queue.pushStep place).1, matching := .dropping place.value }) ∨
    (∃ event, state.matching = .dropping event ∧ next = { state with
      droppedCount := state.droppedCount + 1
      matching := .idle
      refused := state.refused ++ [event] }) ∨
    (state.matching = .notifying ∧ next = { state with matching := .idle }) := by
  unfold matchingStep at stepped
  cases matching : state.matching with
  | idle =>
    rw [matching] at stepped
    cases stepped
  | pushing place =>
    simp only [matching] at stepped
    cases outcome : (state.queue.pushStep place).2 with
    | inl onward =>
      simp only [outcome, Option.some.injEq] at stepped
      exact Or.inl ⟨place, onward, rfl, outcome, stepped.symm⟩
    | inr pushed =>
      simp only [outcome] at stepped
      cases pushed with
      | true => exact Or.inr (Or.inl ⟨place, rfl, outcome, (Option.some.inj stepped).symm⟩)
      | false => exact Or.inr (Or.inr (Or.inl ⟨place, rfl, outcome, (Option.some.inj stepped).symm⟩))
  | dropping event =>
    rw [matching] at stepped
    exact Or.inr (Or.inr (Or.inr (Or.inl ⟨event, rfl, (Option.some.inj stepped).symm⟩)))
  | notifying =>
    rw [matching] at stepped
    exact Or.inr (Or.inr (Or.inr (Or.inr ⟨rfl, (Option.some.inj stepped).symm⟩)))

/-- All that the routing thread can do: gather on, leave the gathering at the cap or at an empty
pop, take an event, hand a batch on, end, or wait. -/
theorem routingStep_cases (stepped : state.routingStep = some next) :
    (∃ batch, state.routing = .gathering batch ∧ batch.length < state.maxBatch ∧
      next = { state with routing := .popping batch .loadTail }) ∨
    (∃ batch, state.routing = .gathering batch ∧ ¬ batch.length < state.maxBatch ∧
      next = { state with routing := leave batch }) ∨
    (∃ batch place onward, state.routing = .popping batch place ∧ (state.queue.popStep place).2 = .inl onward ∧
      next = { state with queue := (state.queue.popStep place).1, routing := .popping batch onward }) ∨
    (∃ batch place, state.routing = .popping batch place ∧ (state.queue.popStep place).2 = .inr none ∧
      next = { state with queue := (state.queue.popStep place).1, routing := leave batch }) ∨
    (∃ batch place event, state.routing = .popping batch place ∧ (state.queue.popStep place).2 = .inr (some event) ∧
      next = { state with queue := (state.queue.popStep place).1, routing := .gathering (batch ++ [event]) }) ∨
    (∃ batch, state.routing = .handing batch ∧
      next = { state with thread := state.thread.deliver batch, routing := .gathering [] }) ∨
    (state.routing = .testing ∧ state.stopRequested = true ∧ next = { state with routing := .ended }) ∨
    (state.routing = .testing ∧ state.stopRequested = false ∧
      next = { state with routing := .waiting, cvWaits := state.cvWaits + 1 }) ∨
    (state.routing = .waiting ∧ next = { state with routing := .gathering [] }) := by
  unfold routingStep at stepped
  cases routing : state.routing with
  | notStarted | ended =>
    rw [routing] at stepped
    cases stepped
  | gathering batch =>
    simp only [routing, Option.some.injEq] at stepped
    subst stepped
    by_cases room : batch.length < state.maxBatch
    · rw [if_pos room]
      exact Or.inl ⟨batch, rfl, room, rfl⟩
    · rw [if_neg room]
      exact Or.inr (Or.inl ⟨batch, rfl, room, rfl⟩)
  | popping batch place =>
    simp only [routing] at stepped
    cases outcome : (state.queue.popStep place).2 with
    | inl onward =>
      simp only [outcome, Option.some.injEq] at stepped
      exact Or.inr (Or.inr (Or.inl ⟨batch, place, onward, rfl, outcome, stepped.symm⟩))
    | inr popped =>
      simp only [outcome] at stepped
      cases popped with
      | none => exact Or.inr (Or.inr (Or.inr (Or.inl ⟨batch, place, rfl, outcome, (Option.some.inj stepped).symm⟩)))
      | some event =>
        exact Or.inr (Or.inr (Or.inr (Or.inr (Or.inl
          ⟨batch, place, event, rfl, outcome, (Option.some.inj stepped).symm⟩))))
  | handing batch =>
    rw [routing] at stepped
    exact Or.inr (Or.inr (Or.inr (Or.inr (Or.inr (Or.inl ⟨batch, rfl, (Option.some.inj stepped).symm⟩)))))
  | testing =>
    simp only [routing] at stepped
    cases flag : state.stopRequested with
    | true =>
      rw [flag, if_pos rfl] at stepped
      exact Or.inr (Or.inr (Or.inr (Or.inr (Or.inr (Or.inr (Or.inl ⟨rfl, rfl, (Option.some.inj stepped).symm⟩))))))
    | false =>
      rw [flag, if_neg Bool.false_ne_true] at stepped
      exact Or.inr (Or.inr (Or.inr (Or.inr (Or.inr (Or.inr (Or.inr (Or.inl
        ⟨rfl, rfl, (Option.some.inj stepped).symm⟩)))))))
  | waiting =>
    rw [routing] at stepped
    exact Or.inr (Or.inr (Or.inr (Or.inr (Or.inr (Or.inr (Or.inr (Or.inr ⟨rfl, (Option.some.inj stepped).symm⟩)))))))

end Cases

section Places

/-- What the two threads know where they stand. -/
structure PlacesSound (state : MarketDataRouter) : Prop where
  queue : state.queue.Sound
  push : ∀ place, state.matching = .pushing place → state.queue.PushSound place
  pop : ∀ batch place, state.routing = .popping batch place →
    state.queue.PopSound place ∧ batch.length < state.maxBatch
  positive : 0 < state.maxBatch

variable {state next : MarketDataRouter} {clock : Nat → Nat}

theorem make_placesSound {options : MarketDataRouterOptions} (built : make options = some state) :
    state.PlacesSound := by
  obtain ⟨bits, _, rfl⟩ := Option.map_eq_some_iff.mp built
  refine ⟨make_sound bits blank, nofun, nofun, ?_⟩
  show 0 < batchCap options.maxBatch
  unfold batchCap
  split_ifs <;> omega

theorem PlacesSound.matchingStep (places : PlacesSound state) (stepped : state.matchingStep = some next) :
    PlacesSound next := by
  obtain ⟨sound, push, pop, positive⟩ := places
  have pops {place : PushPlace WireEvent} (known : state.queue.PushSound place) (batch : List WireEvent)
      (taking : PopPlace WireEvent) (popping : state.routing = .popping batch taking) :
      (state.queue.pushStep place).1.PopSound taking ∧ batch.length < state.maxBatch :=
    ⟨pushStep_pop known (pop batch taking popping).1, (pop batch taking popping).2⟩
  obtain ⟨place, onward, pushing, outcome, rfl⟩ | ⟨place, pushing, _, rfl⟩ | ⟨place, pushing, _, rfl⟩ | ⟨_, _, rfl⟩ |
    ⟨_, rfl⟩ := matchingStep_cases stepped
  · have known := push place pushing
    refine ⟨pushStep_sound sound known, fun other same => ?_, pops known, positive⟩
    cases same
    exact (pushStep_goes known outcome).1
  · exact ⟨pushStep_sound sound (push place pushing), nofun, pops (push place pushing), positive⟩
  · exact ⟨pushStep_sound sound (push place pushing), nofun, pops (push place pushing), positive⟩
  · exact ⟨sound, nofun, pop, positive⟩
  · exact ⟨sound, nofun, pop, positive⟩

theorem leave_ne_popping (batch other : List WireEvent) (place : PopPlace WireEvent) :
    leave batch ≠ .popping other place := by
  unfold leave
  split_ifs <;> exact nofun

theorem PlacesSound.routingStep (places : PlacesSound state) (stepped : state.routingStep = some next) :
    PlacesSound next := by
  obtain ⟨sound, push, pop, positive⟩ := places
  have leaves (batch other : List WireEvent) (place : PopPlace WireEvent) {known : Prop}
      (same : leave batch = .popping other place) : known := absurd same (leave_ne_popping batch other place)
  have pushes {place : PopPlace WireEvent} (known : state.queue.PopSound place) (pushing : PushPlace WireEvent)
      (same : state.matching = .pushing pushing) : (state.queue.popStep place).1.PushSound pushing :=
    popStep_push known (push pushing same)
  obtain ⟨batch, _, room, rfl⟩ | ⟨batch, _, _, rfl⟩ | ⟨batch, place, onward, popping, outcome, rfl⟩ |
    ⟨batch, place, popping, _, rfl⟩ | ⟨batch, place, event, popping, _, rfl⟩ | ⟨_, _, rfl⟩ | ⟨_, _, rfl⟩ |
    ⟨_, _, rfl⟩ | ⟨_, rfl⟩ := routingStep_cases stepped
  · refine ⟨sound, push, fun other place popping => ?_, positive⟩
    cases popping
    exact ⟨trivial, room⟩
  · exact ⟨sound, push, fun other place => leaves batch other place, positive⟩
  · obtain ⟨known, room⟩ := pop batch place popping
    refine ⟨popStep_sound sound known, pushes known, fun other taking same => ?_, positive⟩
    cases same
    exact ⟨popStep_goes known outcome, room⟩
  · have known := (pop batch place popping).1
    exact ⟨popStep_sound sound known, pushes known, fun other taking => leaves batch other taking, positive⟩
  · have known := (pop batch place popping).1
    exact ⟨popStep_sound sound known, pushes known, nofun, positive⟩
  all_goals exact ⟨sound, push, nofun, positive⟩

theorem PlacesSound.step (places : PlacesSound state) {action : RouterAction}
    (stepped : state.step clock action = some next) : PlacesSound next := by
  cases action with
  | publish event =>
    simp only [MarketDataRouter.step, Option.ite_none_right_eq_some, Option.some.injEq] at stepped
    obtain ⟨_, rfl⟩ := stepped
    refine ⟨places.queue, fun place pushing => ?_, places.pop, places.positive⟩
    unfold publish at pushing
    dsimp only at pushing
    cases sent : (state.publisher.publish clock event).2 with
    | none =>
      rw [sent] at pushing
      cases pushing
    | some message =>
      rw [sent] at pushing
      cases pushing
      trivial
  | matching => exact places.matchingStep stepped
  | start =>
    simp only [MarketDataRouter.step, Option.ite_none_right_eq_some, Option.some.injEq] at stepped
    obtain ⟨_, rfl⟩ := stepped
    exact ⟨places.queue, places.push, nofun, places.positive⟩
  | routing => exact places.routingStep stepped
  | requestStop =>
    cases stepped
    exact ⟨places.queue, places.push, places.pop, places.positive⟩

end Places

end MarketDataRouter

end Mdh.Sequencing
