import Mathlib.Data.List.Sort
import Mdh.Sequencing.MarketDataRouter

/-! What the router delivers. Seen a push and a pop at a time it is the draining thread, so what it
hands on is a prefix of what its queue has taken; the rest of what was published was dropped. -/

namespace Mdh.Sequencing.MarketDataRouter
open Mdh.Core Mdh.Lib Mdh.Lib.SpscRing Mdh.Feed

/-- The router with each push and pop taken as one step. A push takes its step when it looks at
the tail or stores the head, a pop when it looks at the head or stores the tail. -/
def loopPlace : RouterPlace → LoopPlace WireEvent
  | .notStarted => .gathering []
  | .gathering batch | .popping batch _ => .gathering batch
  | .handing batch => .handing batch
  | .testing => .testing
  | .waiting => .yielding
  | .ended => .ended

def drainLoop (state : MarketDataRouter) : DrainLoop RoutingThread WireEvent where
  capacity := state.queue.capacity
  downstream := state.thread
  items := state.queue.items
  place := loopPlace state.routing
  stopRequested := state.stopRequested
  refused := state.refused.length + match state.matching with
    | .dropping _ => 1
    | .idle | .pushing _ | .notifying => 0
  accepted := state.accepted
  handed := state.handed

section Drains
variable {state next : MarketDataRouter} {clock : Nat → Nat}

theorem deliver_handed (thread : RoutingThread) (batch : List WireEvent) :
    (thread.deliver batch).sent.flatten = thread.sent.flatten ++ batch := by
  show (thread.sent ++ [batch]).flatten = _
  rw [List.flatten_append, List.flatten_singleton]

theorem PlacesSound.matching_drains (places : PlacesSound state) (stepped : state.matchingStep = some next) :
    ∃ actions, Transitions.run (DrainLoop.step state.maxBatch RoutingThread.deliver) state.drainLoop actions =
      some next.drainLoop := by
  obtain ⟨place, onward, pushing, outcome, rfl⟩ | ⟨place, pushing, outcome, rfl⟩ | ⟨place, pushing, outcome, rfl⟩ |
    ⟨event, dropping, rfl⟩ | ⟨notifying, rfl⟩ := matchingStep_cases stepped
  · have items := pushStep_items (places.push place pushing)
    rw [outcome] at items
    refine ⟨[], congrArg some ?_⟩
    simp only [drainLoop, items, pushStep_capacity, pushing, handed]
  · have items := pushStep_items (places.push place pushing)
    rw [outcome] at items
    have room : ¬ state.drainLoop.items.length ≥ state.drainLoop.capacity :=
      (pushStep_room (places.push place pushing) outcome).not_ge
    refine ⟨[.submit place.value], congrArg some ?_⟩
    unfold DrainLoop.submit
    rw [if_neg room]
    simp only [drainLoop, items, pushStep_capacity, pushing, handed]
  · have items := pushStep_items (places.push place pushing)
    rw [outcome] at items
    obtain ⟨_, _, _, whole⟩ := (pushStep_full places.queue (places.push place pushing)).mp outcome
    have full : state.drainLoop.items.length ≥ state.drainLoop.capacity := whole.ge
    refine ⟨[.submit place.value], congrArg some ?_⟩
    unfold DrainLoop.submit
    rw [if_pos full]
    simp only [drainLoop, items, pushStep_capacity, pushing, handed]
  · refine ⟨[], congrArg some ?_⟩
    simp only [drainLoop, dropping, List.length_append, List.length_singleton, handed]
  · refine ⟨[], congrArg some ?_⟩
    simp only [drainLoop, notifying, handed]

theorem PlacesSound.routing_drains (places : PlacesSound state) (stepped : state.routingStep = some next) :
    ∃ actions, Transitions.run (DrainLoop.step state.maxBatch RoutingThread.deliver) state.drainLoop actions =
      some next.drainLoop := by
  have loops {place : LoopPlace WireEvent} (stands : loopPlace state.routing = place)
      {after : DrainLoop RoutingThread WireEvent}
      (stepped : ({ state.drainLoop with place := place }).loopStep state.maxBatch RoutingThread.deliver = some after) :
      Transitions.run (DrainLoop.step state.maxBatch RoutingThread.deliver) state.drainLoop [.loop] = some after := by
    rw [← stands] at stepped
    have taken : DrainLoop.step state.maxBatch RoutingThread.deliver state.drainLoop .loop = some after := stepped
    rw [Transitions.run, taken]
    rfl
  obtain ⟨batch, gathering, room, rfl⟩ | ⟨batch, gathering, capped, rfl⟩ | ⟨batch, place, onward, popping, outcome, rfl⟩ |
    ⟨batch, place, popping, outcome, rfl⟩ | ⟨batch, place, event, popping, outcome, rfl⟩ | ⟨batch, handing, rfl⟩ |
    ⟨testing, flag, rfl⟩ | ⟨testing, flag, rfl⟩ | ⟨waiting, rfl⟩ := routingStep_cases stepped
  · refine ⟨[], congrArg some ?_⟩
    simp only [drainLoop, gathering, loopPlace, handed]
  · refine ⟨[.loop], loops (congrArg loopPlace gathering) ?_⟩
    have some : batch ≠ [] := by
      rintro rfl
      exact capped places.positive
    simp only [DrainLoop.loopStep, loopPlace, if_neg capped, leave, List.isEmpty_iff, if_neg some]
    rfl
  · have items := popStep_items (places.pop batch place popping).1
    rw [outcome] at items
    refine ⟨[], congrArg some ?_⟩
    simp only [drainLoop, items, popStep_capacity, popping, loopPlace, handed]
  · obtain ⟨known, room⟩ := places.pop batch place popping
    have items := popStep_items known
    rw [outcome] at items
    refine ⟨[.loop], loops (congrArg loopPlace popping) ?_⟩
    simp only [DrainLoop.loopStep, loopPlace, if_pos room, drainLoop, items.1, items.2, leave, handed]
    split_ifs <;> rfl
  · obtain ⟨known, room⟩ := places.pop batch place popping
    have items := popStep_items known
    rw [outcome] at items
    refine ⟨[.loop], loops (congrArg loopPlace popping) ?_⟩
    simp only [DrainLoop.loopStep, loopPlace, if_pos room, drainLoop, items, popStep_capacity, handed]
  · refine ⟨[.loop], loops (congrArg loopPlace handing) ?_⟩
    simp only [DrainLoop.loopStep, loopPlace, drainLoop, handed, deliver_handed]
  · refine ⟨[.loop], loops (congrArg loopPlace testing) ?_⟩
    simp only [DrainLoop.loopStep, drainLoop, flag, if_true, loopPlace, handed]
  · refine ⟨[.loop], loops (congrArg loopPlace testing) ?_⟩
    simp only [DrainLoop.loopStep, drainLoop, flag, Bool.false_eq_true, if_false, loopPlace, handed]
  · refine ⟨[.loop], loops (congrArg loopPlace waiting) ?_⟩
    simp only [DrainLoop.loopStep, loopPlace, drainLoop, handed]

/-- With each push and pop as one step, the router is a thread that drains its queue in batches. -/
theorem PlacesSound.drains (places : PlacesSound state) {action : RouterAction}
    (stepped : state.step clock action = some next) :
    ∃ actions, Transitions.run (DrainLoop.step state.maxBatch RoutingThread.deliver) state.drainLoop actions =
      some next.drainLoop := by
  cases action with
  | publish event =>
    simp only [MarketDataRouter.step, Option.ite_none_right_eq_some, Option.some.injEq] at stepped
    obtain ⟨idle, rfl⟩ := stepped
    refine ⟨[], congrArg some ?_⟩
    cases sent : (state.publisher.publish clock event).2 <;>
      simp only [drainLoop, publish, idle, sent, handed]
  | matching => exact places.matching_drains stepped
  | start =>
    simp only [MarketDataRouter.step, Option.ite_none_right_eq_some, Option.some.injEq] at stepped
    obtain ⟨absent, rfl⟩ := stepped
    refine ⟨[], congrArg some ?_⟩
    simp only [drainLoop, absent, loopPlace, handed]
  | routing => exact places.routing_drains stepped
  | requestStop =>
    cases stepped
    exact ⟨[.requestStop], rfl⟩

end Drains

section Accounts
variable {clock : Nat → Nat} {state next : MarketDataRouter}

/-- Every wire event whose push has returned was taken or turned away, and each one turned away
was counted. -/
structure Settled (clock : Nat → Nat) (state : MarketDataRouter) (settled : List WireEvent) : Prop where
  publisher : state.publisher = (MarketDataPublisher.publishAll clock {} state.published).1
  wire : state.wireEvents clock = settled ++ state.inHand
  accepted : state.accepted = settled.filter (· ∉ state.refused)
  refused : state.refused.Sublist settled
  dropped : state.droppedCount = state.refused.length

theorem wireEvents_ascend (clock : Nat → Nat) (state : MarketDataRouter) :
    (state.wireEvents clock).Pairwise fun first second => first.sequenceNumber < second.sequenceNumber :=
  publishAll_ascends clock {} state.published

/-- Every public event published has used up a number. -/
theorem wireEvents_numbers (clock : Nat → Nat) (state : MarketDataRouter) :
    (state.wireEvents clock).map WireEvent.sequenceNumber = List.range' 1 (state.published.countP IsPublic) :=
  (publishAll_numbers clock {} state.published).1

/-- The event in hand is none of those settled. -/
theorem Settled.fresh {settled : List WireEvent} (shares : state.Settled clock settled) {event : WireEvent}
    (hand : state.inHand = [event]) : event ∉ settled := by
  intro member
  have ascends := wireEvents_ascend clock state
  rw [shares.wire, hand, List.pairwise_append] at ascends
  exact absurd (ascends.2.2 event member event (List.mem_singleton_self event)) (lt_irrefl _)

theorem Settled.publish {settled : List WireEvent} (shares : state.Settled clock settled)
    (idle : state.matching = .idle) (event : ExchangeEvent) : (state.publish clock event).Settled clock settled := by
  obtain ⟨publisher, wire, accepted, refused, dropped⟩ := shares
  have sent := publishAll_concat clock {} state.published event
  rw [← publisher] at sent
  refine ⟨(congrArg Prod.fst sent).symm, ?_, accepted, refused, dropped⟩
  calc
    (state.publish clock event).wireEvents clock =
        state.wireEvents clock ++ (state.publisher.publish clock event).2.toList := congrArg Prod.snd sent
    _ = settled ++ (state.publisher.publish clock event).2.toList := by
      rw [wire, inHand, idle, List.append_nil]
    _ = settled ++ (state.publish clock event).inHand := by
      unfold MarketDataRouter.publish inHand
      cases (state.publisher.publish clock event).2 <;> rfl

theorem Settled.matchingStep {settled : List WireEvent} (shares : state.Settled clock settled)
    (places : PlacesSound state) (stepped : state.matchingStep = some next) : ∃ settled, next.Settled clock settled := by
  have fresh (event : WireEvent) (hand : state.inHand = [event]) : event ∉ settled := shares.fresh hand
  obtain ⟨publisher, wire, accepted, refused, dropped⟩ := shares
  obtain ⟨place, onward, pushing, outcome, rfl⟩ | ⟨place, pushing, outcome, rfl⟩ | ⟨place, pushing, outcome, rfl⟩ |
    ⟨event, dropping, rfl⟩ | ⟨notifying, rfl⟩ := matchingStep_cases stepped
  · refine ⟨settled, publisher, ?_, accepted, refused, dropped⟩
    show state.wireEvents clock = settled ++ [onward.value]
    rw [wire, inHand, pushing, (pushStep_goes (places.push place pushing) outcome).2]
  · have hand : state.inHand = [place.value] := by rw [inHand, pushing]
    have unseen := fresh place.value hand
    refine ⟨settled ++ [place.value], publisher, ?_, ?_, refused.trans (List.sublist_append_left ..), dropped⟩
    · show state.wireEvents clock = settled ++ [place.value] ++ []
      rw [wire, hand, List.append_nil]
    · show state.accepted ++ [place.value] = (settled ++ [place.value]).filter fun other => other ∉ state.refused
      have kept : place.value ∉ state.refused := fun member => unseen (refused.subset member)
      rw [List.filter_append, ← accepted, List.filter_singleton, decide_eq_true kept, cond_true]
  · refine ⟨settled, publisher, ?_, accepted, refused, dropped⟩
    show state.wireEvents clock = settled ++ [place.value]
    rw [wire, inHand, pushing]
  · have hand : state.inHand = [event] := by rw [inHand, dropping]
    have unseen := fresh event hand
    refine ⟨settled ++ [event], publisher, ?_, ?_, refused.append_right [event], ?_⟩
    · show state.wireEvents clock = settled ++ [event] ++ []
      rw [wire, hand, List.append_nil]
    · show state.accepted = (settled ++ [event]).filter fun other => other ∉ state.refused ++ [event]
      have out : event ∈ state.refused ++ [event] := List.mem_append_right _ (List.mem_singleton_self event)
      rw [List.filter_append, List.filter_singleton, decide_eq_false (not_not.mpr out), cond_false, List.append_nil, accepted]
      refine List.filter_congr fun other member => decide_eq_decide.mpr ?_
      have differs : other ≠ event := fun same => unseen (same ▸ member)
      rw [List.mem_append, List.mem_singleton, or_iff_left differs]
    · show state.droppedCount + 1 = (state.refused ++ [event]).length
      rw [dropped, List.length_append, List.length_singleton]
  · refine ⟨settled, publisher, ?_, accepted, refused, dropped⟩
    rw [inHand, notifying] at wire
    exact wire

/-- The routing thread changes nothing of what the matching thread keeps. -/
theorem Settled.routingStep {settled : List WireEvent} (shares : state.Settled clock settled)
    (stepped : state.routingStep = some next) : next.Settled clock settled := by
  obtain ⟨_, _, _, rfl⟩ | ⟨_, _, _, rfl⟩ | ⟨_, _, _, _, _, rfl⟩ | ⟨_, _, _, _, rfl⟩ | ⟨_, _, _, _, _, rfl⟩ |
    ⟨_, _, rfl⟩ | ⟨_, _, rfl⟩ | ⟨_, _, rfl⟩ | ⟨_, rfl⟩ := routingStep_cases stepped <;>
  exact ⟨shares.publisher, shares.wire, shares.accepted, shares.refused, shares.dropped⟩

theorem Settled.step {settled : List WireEvent} (shares : state.Settled clock settled) (places : PlacesSound state)
    {action : RouterAction} (stepped : state.step clock action = some next) : ∃ settled, next.Settled clock settled := by
  cases action with
  | publish event =>
    simp only [MarketDataRouter.step, Option.ite_none_right_eq_some, Option.some.injEq] at stepped
    obtain ⟨idle, rfl⟩ := stepped
    exact ⟨settled, shares.publish idle event⟩
  | matching => exact shares.matchingStep places stepped
  | start =>
    simp only [MarketDataRouter.step, Option.ite_none_right_eq_some, Option.some.injEq] at stepped
    obtain ⟨_, rfl⟩ := stepped
    exact ⟨settled, shares.publisher, shares.wire, shares.accepted, shares.refused, shares.dropped⟩
  | routing => exact ⟨settled, shares.routingStep stepped⟩
  | requestStop =>
    cases stepped
    exact ⟨settled, shares.publisher, shares.wire, shares.accepted, shares.refused, shares.dropped⟩

/-- No batch grows past the cap, and none goes downstream empty. -/
structure BatchesBounded (state : MarketDataRouter) : Prop where
  gathering : ∀ batch, state.routing = .gathering batch → batch.length ≤ state.maxBatch
  handing : ∀ batch, state.routing = .handing batch → batch ≠ [] ∧ batch.length ≤ state.maxBatch
  sent : ∀ batch ∈ state.thread.sent, batch ≠ [] ∧ batch.length ≤ state.maxBatch

theorem leave_bounded {batch other : List WireEvent} {most : Nat} (bounded : batch.length ≤ most)
    (handing : leave batch = .handing other) : other ≠ [] ∧ other.length ≤ most := by
  unfold leave at handing
  split_ifs at handing with empty
  cases handing
  exact ⟨fun none => empty (List.isEmpty_iff.mpr none), bounded⟩

theorem leave_ne_gathering (batch other : List WireEvent) : leave batch ≠ .gathering other := by
  unfold leave
  split_ifs <;> exact nofun

theorem BatchesBounded.routingStep (bounded : BatchesBounded state) (places : PlacesSound state)
    (stepped : state.routingStep = some next) : BatchesBounded next := by
  obtain ⟨gathered, handed, sent⟩ := bounded
  have none (batch other : List WireEvent) {known : Prop} (same : leave batch = .gathering other) : known :=
    absurd same (leave_ne_gathering batch other)
  obtain ⟨_, _, _, rfl⟩ | ⟨batch, gathering, _, rfl⟩ | ⟨_, _, _, _, _, rfl⟩ | ⟨batch, place, popping, _, rfl⟩ |
    ⟨batch, place, event, popping, _, rfl⟩ | ⟨batch, handing, rfl⟩ | ⟨_, _, rfl⟩ | ⟨_, _, rfl⟩ | ⟨_, rfl⟩ :=
    routingStep_cases stepped
  · exact ⟨nofun, nofun, sent⟩
  · exact ⟨fun other => none batch other, fun _ => leave_bounded (gathered batch gathering), sent⟩
  · exact ⟨nofun, nofun, sent⟩
  · exact ⟨fun other => none batch other, fun _ => leave_bounded (places.pop batch place popping).2.le, sent⟩
  · refine ⟨fun other same => ?_, nofun, sent⟩
    cases same
    have room := (places.pop batch place popping).2
    show (batch ++ [event]).length ≤ state.maxBatch
    rw [List.length_append, List.length_singleton]
    exact room
  · refine ⟨fun other same => ?_, nofun, fun other member => ?_⟩
    · cases same
      exact Nat.zero_le _
    · rcases List.mem_append.mp member with before | last
      · exact sent other before
      · exact List.mem_singleton.mp last ▸ handed batch handing
  · exact ⟨nofun, nofun, sent⟩
  · exact ⟨nofun, nofun, sent⟩
  · refine ⟨fun other same => ?_, nofun, sent⟩
    cases same
    exact Nat.zero_le _

theorem BatchesBounded.step (bounded : BatchesBounded state) (places : PlacesSound state) {action : RouterAction}
    (stepped : state.step clock action = some next) : BatchesBounded next := by
  cases action with
  | publish event =>
    simp only [MarketDataRouter.step, Option.ite_none_right_eq_some, Option.some.injEq] at stepped
    obtain ⟨_, rfl⟩ := stepped
    exact ⟨bounded.gathering, bounded.handing, bounded.sent⟩
  | matching =>
    obtain ⟨_, _, _, _, rfl⟩ | ⟨_, _, _, rfl⟩ | ⟨_, _, _, rfl⟩ | ⟨_, _, rfl⟩ | ⟨_, rfl⟩ := matchingStep_cases stepped <;>
    exact ⟨bounded.gathering, bounded.handing, bounded.sent⟩
  | start =>
    simp only [MarketDataRouter.step, Option.ite_none_right_eq_some, Option.some.injEq] at stepped
    obtain ⟨_, rfl⟩ := stepped
    refine ⟨fun other same => ?_, by rintro _ ⟨⟩, bounded.sent⟩
    cases same
    exact Nat.zero_le _
  | routing => exact bounded.routingStep places stepped
  | requestStop =>
    cases stepped
    exact ⟨bounded.gathering, bounded.handing, bounded.sent⟩

end Accounts

section Gaps
variable {clock : Nat → Nat} {state : MarketDataRouter}

/-- The number of the last event handed on before some point, 0 before the first. -/
def lastNumber (front : List WireEvent) : Nat := (front.getLast?.map WireEvent.sequenceNumber).getD 0

theorem le_lastNumber {front : List WireEvent} {event : WireEvent} (member : event ∈ front)
    (ascends : front.Pairwise fun first second => first.sequenceNumber < second.sequenceNumber) :
    event.sequenceNumber ≤ lastNumber front := by
  rcases List.eq_nil_or_concat front with rfl | ⟨earlier, last, rfl⟩
  · cases member
  · have same : lastNumber (earlier ++ [last]) = last.sequenceNumber := by
      rw [lastNumber, List.getLast?_append, List.getLast?_singleton]
      rfl
    rw [List.concat_eq_append] at *
    rw [same]
    rcases List.mem_append.mp member with before | here
    · exact ((List.pairwise_append.mp ascends).2.2 event before last (List.mem_singleton_self last)).le
    · exact (congrArg WireEvent.sequenceNumber (List.mem_singleton.mp here)).le

/-- What is missing downstream before an event is what was turned away there, number by number. -/
theorem Settled.gap {settled front rest : List WireEvent} {event : WireEvent} (shares : state.Settled clock settled)
    (taken : front ++ event :: rest <+: state.accepted) :
    (state.refused.filter fun lost => lastNumber front < lost.sequenceNumber ∧
        lost.sequenceNumber < event.sequenceNumber).map WireEvent.sequenceNumber =
      List.range' (lastNumber front + 1) (event.sequenceNumber - lastNumber front - 1) := by
  have ascends := wireEvents_ascend clock state
  obtain ⟨later, taken⟩ := taken
  have within : settled.Sublist (state.wireEvents clock) := shares.wire ▸ List.sublist_append_left ..
  have kept : state.accepted.Sublist settled := shares.accepted ▸ List.filter_sublist
  have eventSettled : event ∈ settled := kept.subset (taken ▸ by simp)
  have order : (front ++ event :: (rest ++ later)).Pairwise fun first second =>
      first.sequenceNumber < second.sequenceNumber := by
    rw [List.append_assoc, List.cons_append] at taken
    exact taken ▸ ascends.sublist (kept.trans within)
  obtain ⟨frontOrder, behind, _⟩ := List.pairwise_append.mp order
  have after := (List.pairwise_cons.mp behind).1
  refine List.Pairwise.eq_of_mem_iff (r := (· < ·)) ?_ List.pairwise_lt_range' fun number => ?_
  · exact List.pairwise_map.mpr ((ascends.sublist (shares.refused.trans within)).filter _)
  · simp only [List.mem_map, List.mem_filter, decide_eq_true_eq, List.mem_range'_1]
    constructor
    · rintro ⟨lost, ⟨_, above, below⟩, rfl⟩
      omega
    · rintro ⟨above, below⟩
      have counted : event.sequenceNumber ∈ (state.wireEvents clock).map WireEvent.sequenceNumber :=
        List.mem_map_of_mem (within.subset eventSettled)
      have published : number ∈ (state.wireEvents clock).map WireEvent.sequenceNumber := by
        rw [wireEvents_numbers, List.mem_range'_1] at counted ⊢
        omega
      obtain ⟨lost, sent, rfl⟩ := List.mem_map.mp published
      have lostSettled : lost ∈ settled := by
        rw [shares.wire] at sent ascends
        rcases List.mem_append.mp sent with before | hand
        · exact before
        · have past := (List.pairwise_append.mp ascends).2.2 event eventSettled lost hand
          omega
      refine ⟨lost, ⟨?_, by omega, by omega⟩, rfl⟩
      by_contra stays
      have accepted : lost ∈ front ++ event :: (rest ++ later) := by
        rw [← List.cons_append, ← List.append_assoc, taken, shares.accepted]
        exact List.mem_filter.mpr ⟨lostSettled, decide_eq_true stays⟩
      rcases List.mem_append.mp accepted with before | here
      · have least := le_lastNumber before frontOrder
        omega
      · rcases List.mem_cons.mp here with rfl | behind
        · omega
        · have past := after lost behind
          omega

end Gaps

section Runs
variable {clock : Nat → Nat} {start state next : MarketDataRouter} {options : MarketDataRouterOptions}
  {actions : List RouterAction}

/-- What holds at every moment. -/
structure Delivering (clock : Nat → Nat) (options : MarketDataRouterOptions) (state : MarketDataRouter) : Prop where
  places : PlacesSound state
  shares : ∃ settled, state.Settled clock settled
  bounded : BatchesBounded state
  drained : state.drainLoop.Accounted
  limit : state.maxBatch = batchCap options.maxBatch

theorem step_maxBatch {action : RouterAction} (stepped : state.step clock action = some next) :
    next.maxBatch = state.maxBatch := by
  cases action with
  | publish | start =>
    simp only [step, Option.ite_none_right_eq_some, Option.some.injEq] at stepped
    obtain ⟨_, rfl⟩ := stepped
    rfl
  | matching =>
    obtain ⟨_, _, _, _, rfl⟩ | ⟨_, _, _, rfl⟩ | ⟨_, _, _, rfl⟩ | ⟨_, _, rfl⟩ | ⟨_, rfl⟩ := matchingStep_cases stepped <;>
    rfl
  | routing =>
    obtain ⟨_, _, _, rfl⟩ | ⟨_, _, _, rfl⟩ | ⟨_, _, _, _, _, rfl⟩ | ⟨_, _, _, _, rfl⟩ | ⟨_, _, _, _, _, rfl⟩ |
      ⟨_, _, rfl⟩ | ⟨_, _, rfl⟩ | ⟨_, _, rfl⟩ | ⟨_, rfl⟩ := routingStep_cases stepped <;>
    rfl
  | requestStop =>
    cases stepped
    rfl

/-- Only `publish` publishes. -/
theorem step_published {action : RouterAction} (quiet : ∀ event, action ≠ .publish event)
    (stepped : state.step clock action = some next) : next.published = state.published := by
  cases action with
  | publish event => exact absurd rfl (quiet event)
  | matching =>
    obtain ⟨_, _, _, _, rfl⟩ | ⟨_, _, _, rfl⟩ | ⟨_, _, _, rfl⟩ | ⟨_, _, rfl⟩ | ⟨_, rfl⟩ := matchingStep_cases stepped <;>
    rfl
  | start =>
    simp only [step, Option.ite_none_right_eq_some, Option.some.injEq] at stepped
    obtain ⟨_, rfl⟩ := stepped
    rfl
  | routing =>
    obtain ⟨_, _, _, rfl⟩ | ⟨_, _, _, rfl⟩ | ⟨_, _, _, _, _, rfl⟩ | ⟨_, _, _, _, rfl⟩ | ⟨_, _, _, _, _, rfl⟩ |
      ⟨_, _, rfl⟩ | ⟨_, _, rfl⟩ | ⟨_, _, rfl⟩ | ⟨_, rfl⟩ := routingStep_cases stepped <;>
    rfl
  | requestStop =>
    cases stepped
    rfl

theorem make_delivering (built : make options = some start) : Delivering clock options start := by
  have places := make_placesSound built
  obtain ⟨bits, _, rfl⟩ := Option.map_eq_some_iff.mp built
  refine ⟨places, ⟨[], rfl, rfl, rfl, List.Sublist.refl [], rfl⟩, ⟨nofun, nofun, nofun⟩, ?_, rfl⟩
  exact (make_items bits blank).symm

theorem Delivering.step (delivering : Delivering clock options state) {action : RouterAction}
    (stepped : state.step clock action = some next) : Delivering clock options next := by
  obtain ⟨places, ⟨settled, shares⟩, bounded, drained, limit⟩ := delivering
  obtain ⟨drains, ran⟩ := places.drains stepped
  exact ⟨places.step stepped, shares.step places stepped, bounded.step places stepped,
    DrainLoop.run_accounted drained ran, (step_maxBatch stepped).trans limit⟩

theorem run_delivering (built : make options = some start)
    (ran : Transitions.run (MarketDataRouter.step clock) start actions = some state) : Delivering clock options state :=
  Transitions.run_invariant (fun _ _ _ delivering => delivering.step) (make_delivering built) ran

/-- What was handed on comes, in order, out of what was published. -/
theorem Delivering.handed_sublist (delivering : Delivering clock options state) :
    state.handed.Sublist (state.wireEvents clock) := by
  obtain ⟨_, ⟨settled, shares⟩, _, drained, _⟩ := delivering
  have taken : state.handed <+: state.accepted := by
    unfold DrainLoop.Accounted at drained
    rw [List.append_assoc] at drained
    exact ⟨_, drained.symm⟩
  have kept : state.accepted.Sublist settled := shares.accepted ▸ List.filter_sublist
  exact taken.sublist.trans (kept.trans (shares.wire ▸ List.sublist_append_left ..))

/-- At every moment of every run: what was handed downstream is a prefix of what the queue has
taken, in the order of its numbers. What was published was taken, except what was turned away,
each by a full queue and each counted, and the event whose push has not returned. A batch holds
one to `maxBatch` events, a limit of zero counting as one. The numbers missing before an event
handed on are those of the events turned away there. -/
theorem router_delivers (built : make options = some start)
    (ran : Transitions.run (MarketDataRouter.step clock) start actions = some state) :
    state.handed <+: state.accepted ∧
      (state.accepted.Pairwise fun first second => first.sequenceNumber < second.sequenceNumber) ∧
      (state.wireEvents clock).filter (· ∉ state.refused) = state.accepted ++ state.inHand ∧
      state.refused.Sublist (state.wireEvents clock) ∧
      state.droppedCount = state.refused.length ∧
      (∀ place, state.matching = .pushing place → ((state.queue.pushStep place).2 = .inr false ↔
        ∃ value head, place = .loadTail value head ∧ state.queue.items.length = state.queue.capacity)) ∧
      (∀ batch ∈ state.thread.sent, batch ≠ [] ∧ batch.length ≤ batchCap options.maxBatch) ∧
      (state.wireEvents clock).map WireEvent.sequenceNumber = List.range' 1 (state.published.countP IsPublic) ∧
      ∀ front event rest, state.handed = front ++ event :: rest →
        (state.refused.filter fun lost => lastNumber front < lost.sequenceNumber ∧
            lost.sequenceNumber < event.sequenceNumber).map WireEvent.sequenceNumber =
          List.range' (lastNumber front + 1) (event.sequenceNumber - lastNumber front - 1) := by
  obtain ⟨places, ⟨settled, shares⟩, bounded, drained, limit⟩ := run_delivering built ran
  have ascends := wireEvents_ascend clock state
  have before : state.handed <+: state.accepted := by
    unfold DrainLoop.Accounted at drained
    rw [List.append_assoc] at drained
    exact ⟨_, drained.symm⟩
  have within : settled.Sublist (state.wireEvents clock) := shares.wire ▸ List.sublist_append_left ..
  have kept : state.accepted.Sublist settled := shares.accepted ▸ List.filter_sublist
  have hand : state.inHand.filter (· ∉ state.refused) = state.inHand := by
    refine List.filter_eq_self.mpr fun event member => decide_eq_true fun lost => ?_
    rw [shares.wire] at ascends
    exact absurd ((List.pairwise_append.mp ascends).2.2 event (shares.refused.subset lost) event member) (lt_irrefl _)
  refine ⟨before, ascends.sublist (kept.trans within), ?_, shares.refused.trans within, shares.dropped,
    fun place pushing => pushStep_full places.queue (places.push place pushing), ?_,
    wireEvents_numbers clock state, fun front event rest split => shares.gap (split ▸ before)⟩
  · rw [shares.wire, List.filter_append, ← shares.accepted, hand]
  · rw [← limit]
    exact bounded.sent

def addedOrder (exchangeOrderId : Nat) : ExchangeEvent :=
  .bookOrderAdded { eventSequence := 0, exchangeOrderId, instrumentId := 1, side := .buy, price := 10, quantity := 5 }

/-- One event pushed, popped and handed on. -/
def oneRouted (exchangeOrderId : Nat) : List RouterAction :=
  .publish (addedOrder exchangeOrderId) :: List.replicate 5 .matching ++ List.replicate 7 .routing

/-- A run with its start, from what it comes to. -/
theorem run_of_seen {T : Type} (clock : Nat → Nat) (options : MarketDataRouterOptions) (actions : List RouterAction)
    (seen : MarketDataRouter → T) (value : T)
    (comes : ((make options).bind fun start => (Transitions.run (MarketDataRouter.step clock) start actions).map seen) =
      some value) :
    ∃ start state, make options = some start ∧
      Transitions.run (MarketDataRouter.step clock) start actions = some state ∧ seen state = value := by
  obtain ⟨start, built, rest⟩ := Option.bind_eq_some_iff.mp comes
  obtain ⟨state, ran, same⟩ := Option.map_eq_some_iff.mp rest
  exact ⟨start, state, built, ran, same⟩

/-- With a limit of zero a batch of one event is handed on. -/
theorem limit_zero_exceeded :
    ¬ ∀ (options : MarketDataRouterOptions) (start state : MarketDataRouter) (actions : List RouterAction),
      make options = some start → Transitions.run (MarketDataRouter.step fun _ => 0) start actions = some state →
      ∀ batch ∈ state.thread.sent, batch ≠ [] ∧ batch.length ≤ options.maxBatch := by
  intro bounded
  obtain ⟨start, state, built, ran, sent⟩ := run_of_seen (fun _ => 0) { queueCapacity := 4, maxBatch := 0 }
    (.start :: oneRouted 7) (fun state => state.thread.sent.map List.length) [1] (by decide +kernel)
  obtain ⟨batch, member, length⟩ := List.mem_map.mp (sent ▸ List.mem_singleton_self 1)
  have most := (bounded _ start state _ built ran batch member).2
  rw [length] at most
  exact absurd most (by decide)

/-- Three events, the second pushed before the first is taken. -/
def threePublished : List RouterAction :=
  .start :: .publish (addedOrder 1) :: List.replicate 5 .matching ++ .publish (addedOrder 2) ::
    List.replicate 3 .matching ++ List.replicate 7 .routing ++ oneRouted 3

/-- With one slot the second event finds the queue full, and the third shows the gap. -/
theorem router_delivers_gap :
    ∃ start state, make { queueCapacity := 1, maxBatch := 1 } = some start ∧
      Transitions.run (MarketDataRouter.step fun _ => 0) start threePublished = some state ∧
      state.handed.map WireEvent.sequenceNumber = [1, 3] ∧ state.refused.map WireEvent.sequenceNumber = [2] ∧
      state.handed <+: state.accepted ∧ state.droppedCount = state.refused.length := by
  obtain ⟨start, state, built, ran, seen⟩ := run_of_seen (fun _ => 0) { queueCapacity := 1, maxBatch := 1 }
    threePublished (fun state => (state.handed.map WireEvent.sequenceNumber, state.refused.map WireEvent.sequenceNumber))
    ([1, 3], [2]) (by decide +kernel)
  obtain ⟨before, _, _, _, counted, _⟩ := router_delivers built ran
  exact ⟨start, state, built, ran, congrArg Prod.fst seen, congrArg Prod.snd seen, before, counted⟩

end Runs

end Mdh.Sequencing.MarketDataRouter
