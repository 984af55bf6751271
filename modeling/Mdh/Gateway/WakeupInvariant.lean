import Mdh.Gateway.WriterWakeup

/-! What the two threads know of the queues between them. As long as they do not push onto the
dirty queue at once, each report is known to whoever has to write it. -/

namespace Mdh.Gateway
open Mdh.Core Mdh.Lib Mdh.Lib.SpscRing Mdh.Matching

/-- A report waits in one of the queues the writer takes from. -/
def WriterConnection.Queued (connection : WriterConnection) : Prop :=
  connection.replayBacklog ≠ [] ∨ connection.sessionOutbound ≠ [] ∨ connection.outbound.items ≠ []

namespace MarkPlace

/-- The thread is about to set the flag. -/
def Wakes (place : MarkPlace) (session : SessionId) : Prop := place = .claiming session

/-- The thread has set the flag and has yet to hand the connection over. -/
def Hands : MarkPlace → SessionId → Prop
  | .claiming _, _ => False
  | .pushing place, session => place.value = session
  | .overflowing marked, session => marked = session

/-- The thread is in `try_push`, past the load of the head. -/
def InPush : MarkPlace → Prop
  | .pushing place => place.Loaded
  | .claiming _ | .overflowing _ => False

def Known (ring : SpscRing SessionId) : MarkPlace → Prop
  | .pushing place => ring.PushSound place
  | .claiming _ | .overflowing _ => True

instance : DecidablePred InPush := fun place => by
  cases place <;> unfold InPush <;> infer_instance

theorem known_of_not_inPush {place : MarkPlace} (outside : ¬ place.InPush) (ring : SpscRing SessionId) :
    place.Known ring := by
  cases place with
  | claiming | overflowing => trivial
  | pushing place =>
    cases place with
    | loadHead => trivial
    | loadTail | writeSlot | storeHead => exact absurd trivial outside

end MarkPlace

namespace RoutingPlace

def Wakes : RoutingPlace → SessionId → Prop
  | .idle, _ => False
  | .routing _ wake, session | .delivering _ _ _ wake, session => session ∈ wake
  | .notifying place wake, session => place.Wakes session ∨ session ∈ wake

def Hands : RoutingPlace → SessionId → Prop
  | .notifying place _, session => place.Hands session
  | .idle, _ | .routing .., _ | .delivering .., _ => False

def InPush : RoutingPlace → Prop
  | .notifying place _ => place.InPush
  | .idle | .routing .. | .delivering .. => False

/-- The connections that may still be given a report or marked. -/
def Names : RoutingPlace → SessionId → Prop
  | .delivering target _ _ wake, session => session = target ∨ session ∈ wake
  | place, session => place.Wakes session

/-- The array of two is never too small. -/
def Room : RoutingPlace → Prop
  | .routing reports wake => reports.length + wake.length ≤ 2
  | .delivering _ _ reports wake => reports.length + wake.length < 2
  | .idle | .notifying .. => True

instance : DecidablePred InPush := fun place => by
  cases place <;> unfold InPush <;> infer_instance

end RoutingPlace

namespace WriterPlace

/-- The thread is about to set the flag or to ask for write events. -/
def Wakes : WriterPlace → SessionId → Prop
  | .notifying place, session => place.Wakes session
  | .enabling enabled _, session => enabled = session
  | _, _ => False

/-- The thread has to see the flag that is set, having set it, popped it or scanned up to it. -/
def Hands : WriterPlace → SessionId → Prop
  | .notifying place, session => place.Hands session
  | .clearing cleared, session => cleared = session
  | .enabling _ (some scan), session | .scanning scan, session => session ∈ scan
  | _, _ => False

def InPush : WriterPlace → Prop
  | .notifying place => place.InPush
  | _ => False

instance : DecidablePred InPush := fun place => by
  cases place <;> unfold InPush <;> infer_instance

end WriterPlace

namespace WriterWakeup

/-- Between calls no connection is forgotten: one with a report is registered for writing or
marked, and one that is marked is in the queue or the overflow flag is set. -/
def NoLostWakeup (state : WriterWakeup) : Prop :=
  state.routing = .idle → state.io = .idle → ∀ session, state.isOpen session →
    ((state.connections session).Queued → (state.connections session).writeInterest = false →
      (state.connections session).dirty = true) ∧
    ((state.connections session).dirty = true → session ∈ state.dirty.items ∨ state.dirtyOverflow = true)

/-- No thread loads the head of the dirty queue to push while the other is between its own load
and store of it. -/
def SoleProducer (state : WriterWakeup) : WakeupAction → Prop
  | .matching _ =>
      match state.routing with
      | .notifying (.pushing (.loadHead _)) _ => ¬ state.io.InPush
      | _ => True
  | .io _ =>
      match state.io with
      | .notifying (.pushing (.loadHead _)) => ¬ state.routing.InPush
      | _ => True
  | _ => True

instance (state : WriterWakeup) (action : WakeupAction) : Decidable (state.SoleProducer action) :=
  match action with
  | .matching _ => by
      unfold SoleProducer
      dsimp only
      split <;> infer_instance
  | .io _ => by
      unfold SoleProducer
      dsimp only
      split <;> infer_instance
  | .accept | .bind .. | .reject .. | .hangUp _ | .drain | .write _ | .route _ => isTrue trivial

/-- What the matching thread knows of the queues it pushes onto. -/
def RoutingKnown (state : WriterWakeup) : Prop :=
  match state.routing with
  | .delivering session place _ _ => (state.connections session).outbound.PushSound place
  | .notifying place _ => place.Known state.dirty
  | .idle | .routing .. => True

/-- What the I/O thread knows of the queues it pops from, and of the one it pushes onto. -/
def IoKnown (state : WriterWakeup) : Prop :=
  match state.io with
  | .notifying place => place.Known state.dirty
  | .draining place => state.dirty.PopSound place
  | .popping session _ place => (state.connections session).outbound.PopSound place
  | _ => True

structure QueuesKnown (state : WriterWakeup) : Prop where
  dirty : state.dirty.Sound
  outbound : ∀ session, (state.connections session).outbound.Sound
  routing : state.RoutingKnown
  io : state.IoKnown
  sole : ¬ (state.routing.InPush ∧ state.io.InPush)

/-- Something will lead to the connection's being written. -/
def Minded (state : WriterWakeup) (session : SessionId) : Prop :=
  (state.connections session).dirty = true ∨
    (state.connections session).writeInterest = true ∧ state.io ≠ .disabling session ∨
    state.routing.Wakes session ∨ state.io.Wakes session

/-- Something will lead to the flag's being seen. -/
def Listed (state : WriterWakeup) (session : SessionId) : Prop :=
  session ∈ state.dirty.items ∨ state.dirtyOverflow = true ∨ state.routing.Hands session ∨ state.io.Hands session

/-- While the writer looks for a live report it has taken all others. -/
def Emptied (state : WriterWakeup) : Prop :=
  ∀ session taken place, state.io = .popping session taken place →
    (state.connections session).replayBacklog = [] ∧ (state.connections session).sessionOutbound = []

/-- The connection has been accepted. -/
def Seen (state : WriterWakeup) (session : SessionId) : Prop := 1 ≤ session ∧ session < state.nextSessionId

/-- The invariant. -/
structure Wakeful (state : WriterWakeup) : Prop where
  minded : ∀ session, state.isOpen session → (state.connections session).Queued → state.Minded session
  listed : ∀ session, (state.connections session).dirty = true → state.Listed session
  opened : ∀ session, state.isOpen session → state.Seen session
  marked : ∀ session, (state.connections session).dirty = true → state.Seen session
  queued : ∀ session, (state.connections session).Queued → state.Seen session
  names : ∀ session, state.routing.Names session ∨ state.io = .notifying (.claiming session) → state.Seen session
  room : state.routing.Room
  emptied : state.Emptied
  numbered : 1 ≤ state.nextSessionId

theorem Wakeful.noLostWakeup {state : WriterWakeup} (wakeful : Wakeful state) : state.NoLostWakeup := by
  intro routing io session opened
  have minded := wakeful.minded session opened
  have listed := wakeful.listed session
  simp only [Minded, Listed, routing, io, RoutingPlace.Wakes, WriterPlace.Wakes, RoutingPlace.Hands,
    WriterPlace.Hands, or_false] at minded listed
  refine ⟨fun queued silent => ?_, listed⟩
  rcases minded queued with dirty | ⟨registered, _⟩
  · exact dirty
  · rw [silent] at registered
    cases registered

variable {state next : WriterWakeup}

@[simp] theorem setConnection_self (session : SessionId) (connection : WriterConnection) :
    (state.setConnection session connection).connections session = connection := Function.update_self ..

theorem setConnection_other {session other : SessionId} (different : other ≠ session) (connection : WriterConnection) :
    (state.setConnection session connection).connections other = state.connections other :=
  Function.update_of_ne different ..

/-- A field the new connection has as before is as before everywhere. -/
theorem setConnection_keeps {T : Type} (session : SessionId) {connection : WriterConnection}
    (field : WriterConnection → T) (same : field connection = field (state.connections session)) (other : SessionId) :
    field ((state.setConnection session connection).connections other) = field (state.connections other) := by
  by_cases own : other = session
  · rw [own, setConnection_self, same]
  · rw [setConnection_other own]

section Mark
variable {place : MarkPlace}

/-- What marking a connection changes: its flag, the queue and the overflow flag. -/
structure Marks (state : WriterWakeup) (place : MarkPlace) (next : WriterWakeup) (out : Option MarkPlace) : Prop where
  connection : ∀ session, ∃ flag, next.connections session = { state.connections session with dirty := flag } ∧
    ((state.connections session).dirty = true → flag = true) ∧
    (flag = true → (state.connections session).dirty = true ∨
      place = .claiming session ∧ ∃ onward, out = some onward ∧ onward.Hands session)
  items : ∀ session ∈ state.dirty.items, session ∈ next.dirty.items
  overflow : state.dirtyOverflow = true → next.dirtyOverflow = true
  wakes : ∀ session, place.Wakes session → (next.connections session).dirty = true
  hands : ∀ session, place.Hands session → (∃ onward, out = some onward ∧ onward.Hands session) ∨
    session ∈ next.dirty.items ∨ next.dirtyOverflow = true
  onward : ∀ onward session, out = some onward → ¬ onward.Wakes session
  sessions : next.nextSessionId = state.nextSessionId
  io : next.io = state.io
  routing : next.routing = state.routing

theorem markStep_marks (known : place.Known state.dirty) :
    Marks state place (state.markStep place).1 (state.markStep place).2 := by
  cases place with
  | claiming session =>
    simp only [markStep]
    split_ifs with dirty
    · refine ⟨fun other => ⟨_, rfl, id, Or.inl⟩, fun _ => id, id, fun other wakes => ?_, fun _ none => none.elim,
        fun _ _ none => ?_, rfl, rfl, rfl⟩
      · cases wakes
        exact dirty
      · cases none
    · refine ⟨fun other => ?_, fun _ => id, id, fun other wakes => ?_, fun _ none => none.elim,
        fun onward other goes wakes => ?_, rfl, rfl, rfl⟩
      · by_cases own : other = session
        · subst own
          refine ⟨true, setConnection_self .., fun _ => rfl, fun _ => Or.inr ⟨rfl, _, rfl, rfl⟩⟩
        · exact ⟨_, setConnection_other own _, id, Or.inl⟩
      · cases wakes
        rw [setConnection_self]
      · cases goes
        cases wakes
  | pushing place =>
    have items := pushStep_items known
    have goes : ∀ {next}, (state.dirty.pushStep place).2 = .inl next →
        (state.dirty.pushStep place).1.PushSound next ∧ next.value = place.value := pushStep_goes known
    simp only [markStep]
    cases outcome : (state.dirty.pushStep place).2 with
    | inl onward =>
      rw [outcome] at items
      refine ⟨fun other => ⟨_, rfl, id, Or.inl⟩, fun other member => ?_, id, fun _ none => (by cases none),
        fun other hands => ?_, fun onward other goes wakes => ?_, rfl, rfl, rfl⟩
      · exact items ▸ member
      · exact Or.inl ⟨_, rfl, (goes outcome).2.trans hands⟩
      · cases goes
        cases wakes
    | inr pushed =>
      rw [outcome] at items
      cases pushed with
      | true =>
        refine ⟨fun other => ⟨_, rfl, id, Or.inl⟩, fun other member => ?_, id, fun _ none => (by cases none),
          fun other hands => ?_, fun onward other goes => ?_, rfl, rfl, rfl⟩
        · exact items ▸ List.mem_append_left _ member
        · rw [← show place.value = other from hands]
          exact Or.inr (Or.inl (items ▸ List.mem_append_right _ List.mem_cons_self))
        · cases goes
      | false =>
        refine ⟨fun other => ⟨_, rfl, id, Or.inl⟩, fun other member => ?_, id, fun _ none => (by cases none),
          fun other hands => ?_, fun onward other goes wakes => ?_, rfl, rfl, rfl⟩
        · exact items ▸ member
        · exact Or.inl ⟨_, rfl, hands⟩
        · cases goes
          cases wakes
  | overflowing session =>
    refine ⟨fun other => ⟨_, rfl, id, Or.inl⟩, fun _ => id, fun _ => rfl, fun _ none => (by cases none),
      fun _ _ => Or.inr (Or.inr rfl), fun _ _ none => ?_, rfl, rfl, rfl⟩
    cases none

theorem markStep_outbound (session : SessionId) :
    ((state.markStep place).1.connections session).outbound = (state.connections session).outbound := by
  cases place with
  | claiming marked =>
    simp only [markStep]
    split_ifs
    · rfl
    · exact setConnection_keeps marked WriterConnection.outbound (by rfl) session
  | pushing | overflowing => rfl

/-- The queue after a step of a thread that is not kept off it. -/
theorem markStep_known (sound : state.dirty.Sound) (known : place.Known state.dirty) :
    (state.markStep place).1.dirty.Sound ∧
      (∀ onward, (state.markStep place).2 = some onward → onward.Known (state.markStep place).1.dirty) ∧
      ∀ pop, state.dirty.PopSound pop → (state.markStep place).1.dirty.PopSound pop := by
  cases place with
  | claiming session =>
    simp only [markStep]
    split_ifs
    · refine ⟨sound, fun _ none => ?_, fun _ => id⟩
      cases none
    · refine ⟨sound, fun _ goes => ?_, fun _ => id⟩
      cases goes
      trivial
  | pushing place =>
    refine ⟨pushStep_sound sound known, fun onward goes => ?_, fun _ => pushStep_pop known⟩
    simp only [markStep] at goes ⊢
    cases outcome : (state.dirty.pushStep place).2 with
    | inl next =>
      rw [outcome] at goes
      cases goes
      exact (pushStep_goes known outcome).1
    | inr pushed =>
      rw [outcome] at goes
      cases pushed <;> cases goes
      trivial
  | overflowing session =>
    refine ⟨sound, fun _ none => ?_, fun _ => id⟩
    cases none

/-- Marking changes the queue only past the load of the head, and comes there only from it. -/
theorem markStep_inPush {other : MarkPlace} (sole : ¬ (place.InPush ∧ other.InPush))
    (alone : ∀ session, place = .pushing (.loadHead session) → ¬ other.InPush) (known : other.Known state.dirty) :
    other.Known (state.markStep place).1.dirty ∧
      ∀ onward, (state.markStep place).2 = some onward → ¬ (onward.InPush ∧ other.InPush) := by
  by_cases busy : other.InPush
  · have outside : ¬ place.InPush := fun inside => sole ⟨inside, busy⟩
    cases place with
    | claiming session =>
      simp only [markStep]
      split_ifs
      · refine ⟨known, fun _ none => ?_⟩
        cases none
      · refine ⟨known, fun _ goes => ?_⟩
        cases goes
        exact fun both => both.1
    | pushing place =>
      cases place with
      | loadHead session => exact absurd busy (alone session rfl)
      | loadTail | writeSlot | storeHead => exact absurd trivial outside
    | overflowing session =>
      refine ⟨known, fun _ none => ?_⟩
      cases none
  · exact ⟨MarkPlace.known_of_not_inPush busy _, fun _ _ both => busy both.2⟩

end Mark

section Kept

theorem QueuesKnown.routingKept (known : QueuesKnown state) (dirty : next.dirty = state.dirty)
    (outbound : ∀ session, (next.connections session).outbound = (state.connections session).outbound)
    (routing : next.routing = state.routing) : next.RoutingKnown := by
  have before := known.routing
  unfold RoutingKnown at before ⊢
  rw [routing, dirty]
  cases place : state.routing with
  | delivering session push reports wake =>
    rw [place] at before
    dsimp only at before ⊢
    rwa [outbound session]
  | idle | routing | notifying =>
    rw [place] at before
    exact before

theorem QueuesKnown.ioKept (known : QueuesKnown state) (dirty : next.dirty = state.dirty)
    (outbound : ∀ session, (next.connections session).outbound = (state.connections session).outbound)
    (io : next.io = state.io) : next.IoKnown := by
  have before := known.io
  unfold IoKnown at before ⊢
  rw [io, dirty]
  cases place : state.io with
  | popping session taken pop =>
    rw [place] at before
    dsimp only at before ⊢
    rwa [outbound session]
  | idle | notifying | draining | clearing | enabling | takingOverflow | scanning | writing | taking | disabling =>
    rw [place] at before
    exact before

/-- A step of the I/O thread that leaves the queues alone. -/
theorem QueuesKnown.ioMoved (known : QueuesKnown state) (dirty : next.dirty = state.dirty)
    (outbound : ∀ session, (next.connections session).outbound = (state.connections session).outbound)
    (routing : next.routing = state.routing) (io : next.IoKnown) (outside : ¬ next.io.InPush) : QueuesKnown next where
  dirty := dirty ▸ known.dirty
  outbound session := outbound session ▸ known.outbound session
  routing := known.routingKept dirty outbound routing
  io := io
  sole both := outside both.2

/-- A step of the matching thread that leaves the queues alone. -/
theorem QueuesKnown.routingMoved (known : QueuesKnown state) (dirty : next.dirty = state.dirty)
    (outbound : ∀ session, (next.connections session).outbound = (state.connections session).outbound)
    (io : next.io = state.io) (routing : next.RoutingKnown) (outside : ¬ next.routing.InPush) : QueuesKnown next where
  dirty := dirty ▸ known.dirty
  outbound session := outbound session ▸ known.outbound session
  routing := routing
  io := known.ioKept dirty outbound io
  sole both := outside both.1

/-- What a step must not lose. -/
theorem Wakeful.kept (wakeful : Wakeful state) (sessions : next.nextSessionId = state.nextSessionId)
    (opened : ∀ session, next.isOpen session → state.isOpen session)
    (queued : ∀ session, (next.connections session).Queued →
      (state.connections session).Queued ∨ next.Minded session ∧ state.Seen session)
    (minded : ∀ session, next.isOpen session → (next.connections session).Queued → state.Minded session →
      next.Minded session)
    (dirty : ∀ session, (next.connections session).dirty = true → (state.connections session).dirty = true ∨
      next.Listed session ∧ state.Seen session)
    (listed : ∀ session, (next.connections session).dirty = true → state.Listed session → next.Listed session)
    (names : ∀ session, next.routing.Names session ∨ next.io = .notifying (.claiming session) → state.Seen session)
    (room : next.routing.Room) (emptied : next.Emptied) : Wakeful next := by
  have seen (session : SessionId) (before : state.Seen session) : next.Seen session := by
    unfold Seen at *
    rwa [sessions]
  refine ⟨fun session nowOpen waiting => ?_, fun session marked => ?_, fun session nowOpen => ?_,
    fun session marked => ?_, fun session waiting => ?_, fun session named => seen session (names session named), room, emptied, sessions ▸ wakeful.numbered⟩
  · rcases queued session waiting with before | ⟨now, _⟩
    · exact minded session nowOpen waiting (wakeful.minded session (opened session nowOpen) before)
    · exact now
  · rcases dirty session marked with before | ⟨now, _⟩
    · exact listed session marked (wakeful.listed session before)
    · exact now
  · exact seen session (wakeful.opened session (opened session nowOpen))
  · rcases dirty session marked with before | ⟨_, now⟩
    · exact seen session (wakeful.marked session before)
    · exact seen session now
  · rcases queued session waiting with before | ⟨_, now⟩
    · exact seen session (wakeful.queued session before)
    · exact seen session now

end Kept

section Routing

theorem notifyNext_wakes (wake : List SessionId) (session : SessionId) :
    (notifyNext wake).Wakes session ↔ session ∈ wake := by
  cases wake with
  | nil => exact ⟨False.elim, fun member => (List.not_mem_nil member).elim⟩
  | cons first rest =>
    show MarkPlace.Wakes (.claiming first) session ∨ session ∈ rest ↔ _
    rw [List.mem_cons, MarkPlace.Wakes, MarkPlace.claiming.injEq, eq_comm]

theorem notifyNext_names (wake : List SessionId) (session : SessionId) :
    (notifyNext wake).Names session ↔ session ∈ wake := by
  rw [← notifyNext_wakes]
  cases wake <;> exact Iff.rfl

theorem notifyNext_outside (wake : List SessionId) : ¬ (notifyNext wake).InPush := by
  cases wake <;> exact id

theorem notifyNext_room (wake : List SessionId) : (notifyNext wake).Room := by
  cases wake <;> trivial

/-- With at most one connection collected, the next is collected or is that one. -/
theorem mem_addWake {wake : List SessionId} (room : wake.length < 2) (target session : SessionId) :
    session ∈ addWake wake target ↔ session = target ∨ session ∈ wake := by
  unfold addWake
  match wake, room with
  | [], _ => simp
  | [other], _ =>
    by_cases same : other = target <;> simp [same, or_comm]

theorem length_addWake (wake : List SessionId) (target : SessionId) :
    (addWake wake target).length ≤ wake.length + 1 := by
  unfold addWake
  split_ifs
  · rw [List.length_append, List.length_singleton]
  · exact Nat.le_succ _

theorem length_toExecutionReports (event : ExchangeEvent) : (toExecutionReports event).length ≤ 2 := by
  cases event <;> simp [toExecutionReports]

/-- A step of the matching thread that changes no connection and no queue. -/
theorem Wakeful.routingMoved (wakeful : Wakeful state) (place : RoutingPlace)
    (wakes : ∀ session, state.routing.Wakes session → place.Wakes session)
    (hands : ∀ session, ¬ state.routing.Hands session)
    (names : ∀ session, place.Names session → state.Seen session) (room : place.Room) :
    Wakeful { state with routing := place } := by
  refine wakeful.kept rfl (fun _ => id) (fun _ => Or.inl) (fun session _ _ minded => ?_) (fun _ => Or.inl)
    (fun session _ listed => ?_) (fun session named => ?_) room wakeful.emptied
  · rcases minded with dirty | registered | routed | written
    · exact Or.inl dirty
    · exact Or.inr (Or.inl registered)
    · exact Or.inr (Or.inr (Or.inl (wakes session routed)))
    · exact Or.inr (Or.inr (Or.inr written))
  · rcases listed with item | overflow | handed | written
    · exact Or.inl item
    · exact Or.inr (Or.inl overflow)
    · exact absurd handed (hands session)
    · exact Or.inr (Or.inr (Or.inr written))
  · rcases named with routed | bound
    · exact names session routed
    · exact wakeful.names session (Or.inr bound)

/-- A step of `deliver`: the report's queue, and where the matching thread goes on. -/
def deliverTo (state : WriterWakeup) (session : SessionId) (ring : SpscRing Message) (place : RoutingPlace) :
    WriterWakeup :=
  { state.setConnection session { state.connections session with outbound := ring } with routing := place }

theorem deliverTo_self (state : WriterWakeup) (session : SessionId) (ring : SpscRing Message) (place : RoutingPlace) :
    (state.deliverTo session ring place).connections session =
      { state.connections session with outbound := ring } := setConnection_self ..

theorem Wakeful.deliverTo (wakeful : Wakeful state) {session : SessionId} {ring : SpscRing Message}
    {place : RoutingPlace} (before : ∀ other, state.routing.Wakes other → place.Wakes other)
    (hands : ∀ other, ¬ state.routing.Hands other) (names : ∀ other, place.Names other → state.Seen other)
    (fresh : ring.items ≠ [] → (state.connections session).outbound.items ≠ [] ∨
      place.Wakes session ∧ state.Seen session) (room : place.Room) :
    Wakeful (state.deliverTo session ring place) := by
  have keeps {T : Type} (field : WriterConnection → T)
      (same : field { state.connections session with outbound := ring } = field (state.connections session))
      (other : SessionId) : field ((state.deliverTo session ring place).connections other) =
        field (state.connections other) := setConnection_keeps session field same other
  have closed := keeps WriterConnection.closed rfl
  have interest := keeps WriterConnection.writeInterest rfl
  have dirty := keeps WriterConnection.dirty rfl
  have backlog := keeps WriterConnection.replayBacklog rfl
  have replies := keeps WriterConnection.sessionOutbound rfl
  refine wakeful.kept rfl (fun other opened => ?_) (fun other queued => ?_) (fun other _ _ minded => ?_)
    (fun other marked => ?_) (fun other _ listed => ?_) (fun other named => ?_) room fun other taken pop popping => ?_
  · unfold isOpen at opened ⊢
    rwa [closed other] at opened
  · unfold WriterConnection.Queued at queued ⊢
    rw [backlog other, replies other] at queued
    rcases queued with waits | waits | waits
    · exact Or.inl (Or.inl waits)
    · exact Or.inl (Or.inr (Or.inl waits))
    · by_cases own : other = session
      · subst own
        rw [deliverTo_self] at waits
        rcases fresh waits with waited | ⟨wakes, seen⟩
        · exact Or.inl (Or.inr (Or.inr waited))
        · exact Or.inr ⟨Or.inr (Or.inr (Or.inl wakes)), seen⟩
      · rw [show (state.deliverTo session ring place).connections other = state.connections other from
          setConnection_other own _] at waits
        exact Or.inl (Or.inr (Or.inr waits))
  · unfold Minded
    rw [dirty other, interest other]
    rcases minded with marked | registered | routed | written
    · exact Or.inl marked
    · exact Or.inr (Or.inl registered)
    · exact Or.inr (Or.inr (Or.inl (before other routed)))
    · exact Or.inr (Or.inr (Or.inr written))
  · rw [dirty other] at marked
    exact Or.inl marked
  · rcases listed with item | overflow | handed | written
    · exact Or.inl item
    · exact Or.inr (Or.inl overflow)
    · exact absurd handed (hands other)
    · exact Or.inr (Or.inr (Or.inr written))
  · rcases named with routed | bound
    · exact names other routed
    · exact wakeful.names other (Or.inr bound)
  · rw [backlog other, replies other]
    exact wakeful.emptied other taken pop popping

theorem QueuesKnown.deliverTo (known : QueuesKnown state) {session : SessionId} {ring : SpscRing Message}
    {place : RoutingPlace} (sound : ring.Sound)
    (pops : ∀ pop, (state.connections session).outbound.PopSound pop → ring.PopSound pop)
    (routing : (state.deliverTo session ring place).RoutingKnown) (outside : ¬ place.InPush) :
    QueuesKnown (state.deliverTo session ring place) := by
  have own := deliverTo_self state session ring place
  have others (other : SessionId) (different : other ≠ session) :
      (state.deliverTo session ring place).connections other = state.connections other := setConnection_other different _
  refine ⟨known.dirty, fun other => ?_, routing, ?_, fun both => outside both.1⟩
  · by_cases same : other = session
    · rw [same, own]
      exact sound
    · rw [others other same]
      exact known.outbound other
  · have before := known.io
    unfold IoKnown at before ⊢
    show match state.io with
      | .notifying place => place.Known state.dirty
      | .draining place => state.dirty.PopSound place
      | .popping popped _ pop => ((state.deliverTo session ring place).connections popped).outbound.PopSound pop
      | _ => True
    cases io : state.io with
    | popping popped taken pop =>
      rw [io] at before
      dsimp only at before ⊢
      by_cases same : popped = session
      · rw [same] at before
        rw [same, own]
        exact pops pop before
      · rw [others popped same]
        exact before
    | idle | notifying | draining | clearing | enabling | takingOverflow | scanning | writing | taking | disabling =>
      rw [io] at before
      exact before

/-- Delivering a report: once it is in the queue, its connection is one to wake. -/
theorem Wakeful.delivered (wakeful : Wakeful state) (known : QueuesKnown state) {session : SessionId}
    {place : PushPlace Message} {reports : List (OrderKey × Message)} {wake : List SessionId}
    (routing : state.routing = .delivering session place reports wake) {target : Option SessionId}
    (stepped : state.matchingStep target = some next) : QueuesKnown next ∧ Wakeful next := by
  have push := known.routing
  have room := wakeful.room
  have names := fun other => wakeful.names other
  have woken := fun other => wakeful.names other
  unfold RoutingKnown at push
  rw [routing] at push room names
  have hands (other : SessionId) : ¬ state.routing.Hands other := by
    rw [routing]
    exact id
  have sound := pushStep_sound (known.outbound session) push
  have pops : ∀ {pop}, (state.connections session).outbound.PopSound pop →
      ((state.connections session).outbound.pushStep place).1.PopSound pop := pushStep_pop push
  have items := pushStep_items push
  have seen : state.Seen session := names session (Or.inl (Or.inl rfl))
  have room : reports.length + wake.length < 2 := room
  simp only [matchingStep, routing] at stepped
  cases stepped
  cases outcome : ((state.connections session).outbound.pushStep place).2 with
  | inl onward =>
    rw [outcome] at items
    refine ⟨known.deliverTo sound (fun _ => pops) ?_ id, wakeful.deliverTo (fun other wakes => ?_) hands (fun other named => ?_)
      (fun fresh => Or.inl (items ▸ fresh)) room⟩
    · show ((state.deliverTo session _ _).connections session).outbound.PushSound onward
      rw [deliverTo_self]
      exact (pushStep_goes push outcome).1
    · rw [routing] at wakes
      exact wakes
    · exact names other (Or.inl named)
  | inr pushed =>
    rw [outcome] at items
    cases pushed with
    | true =>
      have added := mem_addWake (show wake.length < 2 by omega) session
      refine ⟨known.deliverTo sound (fun _ => pops) trivial id, wakeful.deliverTo (fun other wakes => ?_) hands
        (fun other named => ?_) (fun _ => Or.inr ⟨(added session).mpr (Or.inl rfl), seen⟩) ?_⟩
      · rw [routing] at wakes
        exact (added other).mpr (Or.inr wakes)
      · exact names other (Or.inl ((added other).mp named))
      · have longer := length_addWake wake session
        show reports.length + (addWake wake session).length ≤ 2
        omega
    | false =>
      refine ⟨known.deliverTo sound (fun _ => pops) trivial id, wakeful.deliverTo (fun other wakes => ?_) hands
        (fun other named => ?_) (fun fresh => Or.inl (items ▸ fresh)) room.le⟩
      · rw [routing] at wakes
        exact wakes
      · exact names other (Or.inl (Or.inr named))

/-- Marking by either thread, which goes on as the marking does. -/
theorem Wakeful.marks (wakeful : Wakeful state) {place : MarkPlace} {middle : WriterWakeup} {out : Option MarkPlace}
    (marks : Marks state place middle out) (routing : RoutingPlace) (io : WriterPlace)
    (wakes : ∀ session, state.routing.Wakes session ∨ state.io.Wakes session →
      place.Wakes session ∨ routing.Wakes session ∨ io.Wakes session)
    (hands : ∀ session, state.routing.Hands session ∨ state.io.Hands session →
      place.Hands session ∨ routing.Hands session ∨ io.Hands session)
    (onward : ∀ onward session, out = some onward → onward.Hands session →
      routing.Hands session ∨ io.Hands session)
    (named : ∀ session, place = .claiming session → state.Seen session)
    (names : ∀ session, routing.Names session ∨ io = .notifying (.claiming session) → state.Seen session)
    (disabling : ∀ session, io = .disabling session → state.io = .disabling session)
    (popping : ∀ session taken pop, io = .popping session taken pop → state.io = .popping session taken pop)
    (room : routing.Room) :
    Wakeful { middle with routing, io } := by
  have connection (session : SessionId) := marks.connection session
  refine wakeful.kept marks.sessions (fun session opened => ?_) (fun session queued => ?_)
    (fun session _ _ minded => ?_) (fun session dirty => ?_) (fun session _ listed => ?_) names room
    fun session taken pop pops => ?_
  · obtain ⟨flag, same, _, _⟩ := connection session
    unfold isOpen at opened ⊢
    rwa [same] at opened
  · obtain ⟨flag, same, _, _⟩ := connection session
    rw [same] at queued
    exact Or.inl queued
  · obtain ⟨flag, same, stays, _⟩ := connection session
    unfold Minded
    rcases minded with dirty | ⟨registered, goes⟩ | routed | written
    · rw [same]
      exact Or.inl (stays dirty)
    · rw [same]
      exact Or.inr (Or.inl ⟨registered, fun ends => goes (disabling session ends)⟩)
    · rcases wakes session (Or.inl routed) with claims | either
      · exact Or.inl (marks.wakes session claims)
      · exact Or.inr (Or.inr either)
    · rcases wakes session (Or.inr written) with claims | either
      · exact Or.inl (marks.wakes session claims)
      · exact Or.inr (Or.inr either)
  · obtain ⟨flag, same, _, new⟩ := connection session
    rw [same] at dirty
    rcases new dirty with before | ⟨claims, onward', goes, handed⟩
    · exact Or.inl before
    · exact Or.inr ⟨Or.inr (Or.inr (onward onward' session goes handed)), named session claims⟩
  · have either (handed : state.routing.Hands session ∨ state.io.Hands session) :
        WriterWakeup.Listed { middle with routing, io } session := by
      rcases hands session handed with own | elsewhere
      · rcases marks.hands session own with ⟨onward', goes, handed⟩ | item | overflow
        · exact Or.inr (Or.inr (onward onward' session goes handed))
        · exact Or.inl item
        · exact Or.inr (Or.inl overflow)
      · exact Or.inr (Or.inr elsewhere)
    rcases listed with item | overflow | handed | handed
    · exact Or.inl (marks.items session item)
    · exact Or.inr (Or.inl (marks.overflow overflow))
    · exact either (Or.inl handed)
    · exact either (Or.inr handed)
  · obtain ⟨flag, same, _, _⟩ := connection session
    show (middle.connections session).replayBacklog = [] ∧ (middle.connections session).sessionOutbound = []
    rw [same]
    exact wakeful.emptied session taken pop (popping session taken pop pops)

/-- Marking by the matching thread. -/
theorem Wakeful.routingMarks (wakeful : Wakeful state) (known : QueuesKnown state) {place : MarkPlace}
    {wake : List SessionId} (routing : state.routing = .notifying place wake) {target : Option SessionId}
    (stepped : state.matchingStep target = some next) (alone : state.SoleProducer (.matching target)) :
    QueuesKnown next ∧ Wakeful next := by
  have mark := known.routing
  unfold RoutingKnown at mark
  rw [routing] at mark
  have marks := markStep_marks mark
  have names := fun other => wakeful.names other
  have sole := known.sole
  rw [routing] at sole names
  have apart (session : SessionId) (loads : place = .pushing (.loadHead session)) : ¬ state.io.InPush := by
    subst loads
    simpa only [SoleProducer, routing] using alone
  obtain ⟨sound, goes, pops⟩ := markStep_known known.dirty mark
  simp only [matchingStep, routing] at stepped
  cases stepped
  constructor
  · refine ⟨sound, fun session => (markStep_outbound session).symm ▸ known.outbound session, ?_, ?_, ?_⟩
    · cases onward : (state.markStep place).2 with
      | none => cases wake <;> trivial
      | some next => exact goes next onward
    · have ioFine := known.io
      unfold IoKnown at ioFine ⊢
      dsimp only
      rw [marks.io]
      cases io : state.io with
      | notifying other =>
        rw [io] at ioFine sole
        rw [io] at apart
        exact (markStep_inPush sole apart ioFine).1
      | draining pop =>
        rw [io] at ioFine
        exact pops pop ioFine
      | popping session taken pop =>
        rw [io] at ioFine
        dsimp only at ioFine ⊢
        rwa [markStep_outbound]
      | idle | clearing | enabling | takingOverflow | scanning | writing | taking | disabling => trivial
    · rintro ⟨routed, written⟩
      dsimp only at routed written
      rw [marks.io] at written
      cases onward : (state.markStep place).2 with
      | none =>
        rw [onward] at routed
        exact notifyNext_outside wake routed
      | some next =>
        rw [onward] at routed
        cases io : state.io with
        | notifying other =>
          have ioFine := known.io
          unfold IoKnown at ioFine
          rw [io] at ioFine sole written
          rw [io] at apart
          exact (markStep_inPush sole apart ioFine).2 next onward ⟨routed, written⟩
        | idle | draining | clearing | enabling | takingOverflow | scanning | writing | taking | popping | disabling =>
          rw [io] at written
          exact written
  · have later (session : SessionId) : session ∈ wake → state.Seen session :=
      fun member => names session (Or.inl (Or.inr member))
    have here (session : SessionId) (claims : place = .claiming session) : state.Seen session :=
      names session (Or.inl (Or.inl claims))
    refine wakeful.marks marks _ _ (fun session wakes => ?_) (fun session hands => ?_)
      (fun onward session goes hands => ?_) here (fun session named => ?_) (fun session ends => ?_)
      (fun session taken pop pops => ?_) ?_
    · rcases wakes with routed | written
      · rw [routing] at routed
        rcases routed with claims | rest
        · exact Or.inl claims
        · refine Or.inr (Or.inl ?_)
          cases (state.markStep place).2 with
          | none => exact (notifyNext_wakes wake session).mpr rest
          | some onward => exact Or.inr rest
      · exact Or.inr (Or.inr (marks.io ▸ written))
    · rcases hands with routed | written
      · rw [routing] at routed
        exact Or.inl routed
      · exact Or.inr (Or.inr (marks.io ▸ written))
    · rw [goes]
      exact Or.inl hands
    · rcases named with routed | bound
      · cases onward : (state.markStep place).2 with
        | none =>
          rw [onward] at routed
          exact later session ((notifyNext_names wake session).mp routed)
        | some next =>
          rw [onward] at routed
          rcases routed with claims | rest
          · exact absurd claims (marks.onward next session onward)
          · exact later session rest
      · exact names session (Or.inr (marks.io ▸ bound))
    · exact marks.io ▸ ends
    · exact marks.io ▸ pops
    · cases (state.markStep place).2 with
      | none => exact notifyNext_room wake
      | some onward => trivial

end Routing

end WriterWakeup

end Mdh.Gateway
