import Mdh.Gateway.WakeupInvariant

/-! The steps of the I/O thread, and runs. No wake-up is lost in a run in which the two threads
never push onto the dirty queue at once; otherwise one can be. -/

namespace Mdh.Gateway
open Mdh.Core Mdh.Lib Mdh.Lib.SpscRing Mdh.Matching

namespace WriterWakeup
variable {state next : WriterWakeup}

section Io

/-- A step of the I/O thread that changes one connection at most. -/
theorem Wakeful.ioMoved (wakeful : Wakeful state) (session : SessionId) (connection : WriterConnection)
    (place : WriterPlace) (opened : connection.closed = false → (state.connections session).closed = false)
    (queued : connection.Queued → (state.connections session).Queued ∨ place.Wakes session ∧ state.Seen session)
    (minded : connection.closed = false → connection.Queued → state.Minded session →
      connection.dirty = true ∨ connection.writeInterest = true ∧ place ≠ .disabling session ∨
        state.routing.Wakes session ∨ place.Wakes session)
    (dirty : connection.dirty = true → (state.connections session).dirty = true)
    (wakes : ∀ other, other ≠ session → state.io.Wakes other → place.Wakes other)
    (disabling : ∀ other, other ≠ session → place ≠ .disabling other)
    (hands : ∀ other, (other = session → connection.dirty = true) → state.io.Hands other → place.Hands other)
    (names : ∀ other, place = .notifying (.claiming other) → state.Seen other)
    (emptied : ∀ other taken pop, place = .popping other taken pop → other = session ∧
      connection.replayBacklog = [] ∧ connection.sessionOutbound = []) :
    Wakeful { state.setConnection session connection with io := place } := by
  have own : (state.setConnection session connection).connections session = connection := setConnection_self ..
  have others (other : SessionId) (different : other ≠ session) :
      (state.setConnection session connection).connections other = state.connections other :=
    setConnection_other different _
  refine wakeful.kept rfl (fun other nowOpen => ?_) (fun other waits => ?_) (fun other nowOpen waits before => ?_)
    (fun other marked => ?_) (fun other marked listed => ?_) (fun other named => ?_) wakeful.room
    fun other taken pop pops => ?_
  · have nowClosed : (!((state.setConnection session connection).connections other).closed) = true := nowOpen
    show (!(state.connections other).closed) = true
    by_cases same : other = session
    · subst same
      rw [own] at nowClosed
      rw [Bool.not_eq_true'] at nowClosed ⊢
      exact opened nowClosed
    · rwa [others other same] at nowClosed
  · change ((state.setConnection session connection).connections other).Queued at waits
    by_cases same : other = session
    · subst same
      rw [own] at waits
      rcases queued waits with earlier | ⟨woken, seen⟩
      · exact Or.inl earlier
      · exact Or.inr ⟨Or.inr (Or.inr (Or.inr woken)), seen⟩
    · rw [others other same] at waits
      exact Or.inl waits
  · change ((state.setConnection session connection).connections other).Queued at waits
    have nowClosed : (!((state.setConnection session connection).connections other).closed) = true := nowOpen
    show ((state.setConnection session connection).connections other).dirty = true ∨
      ((state.setConnection session connection).connections other).writeInterest = true ∧ place ≠ .disabling other ∨
      state.routing.Wakes other ∨ place.Wakes other
    by_cases same : other = session
    · subst same
      rw [own] at waits nowClosed ⊢
      exact minded (Bool.not_eq_true' _ ▸ nowClosed) waits before
    · rw [others other same]
      rcases before with marked | ⟨registered, _⟩ | routed | written
      · exact Or.inl marked
      · exact Or.inr (Or.inl ⟨registered, disabling other same⟩)
      · exact Or.inr (Or.inr (Or.inl routed))
      · exact Or.inr (Or.inr (Or.inr (wakes other same written)))
  · change ((state.setConnection session connection).connections other).dirty = true at marked
    by_cases same : other = session
    · subst same
      rw [own] at marked
      exact Or.inl (dirty marked)
    · rw [others other same] at marked
      exact Or.inl marked
  · change ((state.setConnection session connection).connections other).dirty = true at marked
    rcases listed with item | overflow | routed | written
    · exact Or.inl item
    · exact Or.inr (Or.inl overflow)
    · exact Or.inr (Or.inr (Or.inl routed))
    · refine Or.inr (Or.inr (Or.inr (hands other (fun same => ?_) written)))
      subst same
      rwa [own] at marked
  · rcases named with routed | claims
    · exact wakeful.names other (Or.inl routed)
    · exact names other claims
  · obtain ⟨rfl, empty⟩ := emptied other taken pop pops
    show ((state.setConnection other connection).connections other).replayBacklog = [] ∧
      ((state.setConnection other connection).connections other).sessionOutbound = []
    rw [own]
    exact empty

theorem QueuesKnown.ioSet (known : QueuesKnown state) (session : SessionId) (connection : WriterConnection)
    (outbound : connection.outbound = (state.connections session).outbound) (place : WriterPlace)
    (io : WriterWakeup.IoKnown { state.setConnection session connection with io := place })
    (outside : ¬ place.InPush) : QueuesKnown { state.setConnection session connection with io := place } :=
  known.ioMoved rfl (setConnection_keeps session WriterConnection.outbound outbound) rfl io outside

theorem setConnection_eq_self (session : SessionId) :
    state.setConnection session (state.connections session) = state := by
  unfold setConnection
  rw [Function.update_eq_self]

/-- A step of the I/O thread that changes no connection. -/
theorem Wakeful.ioPlaced (wakeful : Wakeful state) (place : WriterPlace)
    (wakes : ∀ session, ¬ state.io.Wakes session) (hands : ∀ session, state.io.Hands session → place.Hands session)
    (disabling : ∀ session, place = .disabling session → ¬ (state.connections session).Queued)
    (names : ∀ session, place ≠ .notifying (.claiming session))
    (emptied : ∀ session taken pop, place = .popping session taken pop →
      (state.connections session).replayBacklog = [] ∧ (state.connections session).sessionOutbound = []) :
    Wakeful { state with io := place } := by
  refine wakeful.kept rfl (fun _ => id) (fun _ => Or.inl) (fun session _ queued minded => ?_) (fun _ => Or.inl)
    (fun session _ listed => ?_) (fun session named => ?_) wakeful.room emptied
  · rcases minded with dirty | ⟨registered, _⟩ | routed | written
    · exact Or.inl dirty
    · exact Or.inr (Or.inl ⟨registered, fun ends => disabling session ends queued⟩)
    · exact Or.inr (Or.inr (Or.inl routed))
    · exact absurd written (wakes session)
  · rcases listed with item | overflow | routed | written
    · exact Or.inl item
    · exact Or.inr (Or.inl overflow)
    · exact Or.inr (Or.inr (Or.inl routed))
    · exact Or.inr (Or.inr (Or.inr (hands session written)))
  · rcases named with routed | claims
    · exact wakeful.names session (Or.inl routed)
    · exact absurd claims (names session)

theorem QueuesKnown.ioPlaced (known : QueuesKnown state) (place : WriterPlace)
    (io : WriterWakeup.IoKnown { state with io := place }) (outside : ¬ place.InPush) :
    QueuesKnown { state with io := place } := known.ioMoved rfl (fun _ => rfl) rfl io outside

/-- Asking for write events leaves an open connection registered, or closes it. -/
theorem enableWrite_eq (state : WriterWakeup) (session : SessionId) (answer : IoAnswer) :
    ∃ closed interest, state.enableWrite session answer = state.setConnection session
        { state.connections session with closed, writeInterest := interest } ∧
      (closed = false → (state.connections session).closed = false ∧ interest = true) := by
  unfold enableWrite
  dsimp only
  split_ifs with done failed
  · refine ⟨_, _, setConnection_eq_self session |>.symm, fun opened => ⟨opened, ?_⟩⟩
    rcases done with closed | registered
    · rw [opened] at closed
      cases closed
    · exact registered
  · exact ⟨true, _, rfl, fun closed => by cases closed⟩
  · exact ⟨_, true, rfl, fun opened => ⟨opened, rfl⟩⟩

theorem disableWrite_eq (state : WriterWakeup) (session : SessionId) (answer : IoAnswer) :
    ∃ closed interest, state.disableWrite session answer = state.setConnection session
        { state.connections session with closed, writeInterest := interest } ∧
      (closed = false → (state.connections session).closed = false) := by
  unfold disableWrite
  dsimp only
  split_ifs
  · exact ⟨_, _, setConnection_eq_self session |>.symm, id⟩
  · exact ⟨true, _, rfl, fun closed => by cases closed⟩
  · exact ⟨_, false, rfl, id⟩

/-- A connection registered for writing needs nobody else, and one that is closed nothing. -/
theorem Wakeful.enabled (wakeful : Wakeful state) (session : SessionId) (answer : IoAnswer) (place : WriterPlace)
    (wakes : ∀ other, other ≠ session → ¬ state.io.Wakes other)
    (hands : ∀ other, state.io.Hands other → place.Hands other) (disabling : ∀ other, place ≠ .disabling other)
    (names : ∀ other, place ≠ .notifying (.claiming other)) (popping : ∀ other taken pop, place ≠ .popping other taken pop) :
    Wakeful { state.enableWrite session answer with io := place } := by
  obtain ⟨closed, interest, same, opened⟩ := enableWrite_eq state session answer
  rw [same]
  exact wakeful.ioMoved session _ place (fun nowOpen => (opened nowOpen).1) Or.inl
    (fun nowOpen _ _ => Or.inr (Or.inl ⟨(opened nowOpen).2, disabling session⟩)) id
    (fun other different woken => absurd woken (wakes other different)) (fun other _ => disabling other)
    (fun other _ => hands other) (fun other claims => absurd claims (names other))
    fun other taken pop pops => absurd pops (popping other taken pop)

theorem QueuesKnown.enabled (known : QueuesKnown state) (session : SessionId) (answer : IoAnswer) (place : WriterPlace)
    (io : WriterWakeup.IoKnown { state.enableWrite session answer with io := place }) (outside : ¬ place.InPush) :
    QueuesKnown { state.enableWrite session answer with io := place } := by
  obtain ⟨closed, interest, same, _⟩ := enableWrite_eq state session answer
  rw [same] at io ⊢
  exact known.ioSet session { state.connections session with closed, writeInterest := interest } rfl place io outside

/-- Nothing is asked of a closed connection. -/
theorem Wakeful.closed (wakeful : Wakeful state) (session : SessionId) (place : WriterPlace)
    (wakes : ∀ other, ¬ state.io.Wakes other) (hands : ∀ other, state.io.Hands other → place.Hands other)
    (disabling : ∀ other, place ≠ .disabling other) (names : ∀ other, place ≠ .notifying (.claiming other))
    (popping : ∀ other taken pop, place ≠ .popping other taken pop) :
    Wakeful { state.closeConnection session with io := place } :=
  wakeful.ioMoved session { state.connections session with closed := true } place (fun opened => by cases opened)
    Or.inl (fun opened => by cases opened) id (fun other _ woken => absurd woken (wakes other))
    (fun other _ => disabling other) (fun other _ => hands other) (fun other claims => absurd claims (names other))
    fun other taken pop pops => absurd pops (popping other taken pop)

/-- A connection given something to write is marked next. -/
theorem Wakeful.notified (wakeful : Wakeful state) (session : SessionId) (connection : WriterConnection)
    (idle : (∀ other, ¬ state.io.Wakes other) ∧ ∀ other, ¬ state.io.Hands other) (opened : state.isOpen session)
    (closed : connection.closed = false → (state.connections session).closed = false)
    (dirty : connection.dirty = (state.connections session).dirty)
    (interest : connection.writeInterest = (state.connections session).writeInterest) :
    Wakeful { state.setConnection session connection with io := .notifying (.claiming session) } := by
  have seen := wakeful.opened session opened
  refine wakeful.ioMoved session connection (.notifying (.claiming session)) closed (fun _ => Or.inr ⟨rfl, seen⟩)
    (fun _ _ minded => ?_) (fun marked => dirty ▸ marked) (fun other _ woken => absurd woken (idle.1 other))
    (by rintro _ _ ⟨⟩) (fun other _ handed => absurd handed (idle.2 other)) (fun other claims => ?_)
    (by rintro _ _ _ ⟨⟩)
  · rcases minded with marked | ⟨registered, _⟩ | routed | written
    · exact Or.inl (dirty.trans marked)
    · refine Or.inr (Or.inl ⟨interest.trans registered, ?_⟩)
      rintro ⟨⟩
    · exact Or.inr (Or.inr (Or.inl routed))
    · exact absurd written (idle.1 session)
  · cases claims
    exact seen

/-- Marking by the I/O thread. -/
theorem Wakeful.ioMarks (wakeful : Wakeful state) (known : QueuesKnown state) {place : MarkPlace}
    (io : state.io = .notifying place) {answer : IoAnswer} (stepped : state.ioStep answer = some next)
    (alone : state.SoleProducer (.io answer)) : QueuesKnown next ∧ Wakeful next := by
  have mark := known.io
  unfold IoKnown at mark
  rw [io] at mark
  have marks := markStep_marks mark
  have sole := fun both : place.InPush ∧ state.routing.InPush => known.sole ⟨both.2, io ▸ both.1⟩
  have apart (session : SessionId) (loads : place = .pushing (.loadHead session)) : ¬ state.routing.InPush := by
    subst loads
    simpa only [SoleProducer, io] using alone
  obtain ⟨sound, goes, _⟩ := markStep_known known.dirty mark
  simp only [ioStep, io] at stepped
  cases stepped
  constructor
  · refine ⟨sound, fun session => (markStep_outbound session).symm ▸ known.outbound session, ?_, ?_, ?_⟩
    · have routingFine := known.routing
      unfold RoutingKnown at routingFine ⊢
      dsimp only
      rw [marks.routing]
      cases routing : state.routing with
      | notifying other wake =>
        rw [routing] at routingFine sole apart
        exact (markStep_inPush sole apart routingFine).1
      | delivering session push reports wake =>
        rw [routing] at routingFine
        dsimp only at routingFine ⊢
        rwa [markStep_outbound]
      | idle | routing => trivial
    · cases onward : (state.markStep place).2 with
      | none => trivial
      | some next => exact goes next onward
    · rintro ⟨routed, written⟩
      dsimp only at routed written
      rw [marks.routing] at routed
      cases onward : (state.markStep place).2 with
      | none =>
        rw [onward] at written
        exact written
      | some next =>
        rw [onward] at written
        cases routing : state.routing with
        | notifying other wake =>
          have routingFine := known.routing
          unfold RoutingKnown at routingFine
          rw [routing] at routingFine sole routed apart
          exact (markStep_inPush sole apart routingFine).2 next onward ⟨written, routed⟩
        | idle | routing | delivering =>
          rw [routing] at routed
          exact routed
  · have here (session : SessionId) (claims : place = .claiming session) : state.Seen session :=
      wakeful.names session (Or.inr (claims ▸ io))
    refine wakeful.marks marks _ _ (fun session wakes => ?_) (fun session hands => ?_)
      (fun onward session goes hands => ?_) here (fun session named => ?_) (fun session ends => ?_)
      (fun session taken pop pops => ?_) ?_
    · rcases wakes with routed | written
      · exact Or.inr (Or.inl (marks.routing ▸ routed))
      · rw [io] at written
        exact Or.inl written
    · rcases hands with routed | written
      · exact Or.inr (Or.inl (marks.routing ▸ routed))
      · rw [io] at written
        exact Or.inl written
    · rw [goes]
      exact Or.inr hands
    · rcases named with routed | claims
      · exact wakeful.names session (Or.inl (marks.routing ▸ routed))
      · cases onward : (state.markStep place).2 with
        | none =>
          rw [onward] at claims
          cases claims
        | some next =>
          rw [onward] at claims
          cases claims
          exact absurd rfl (marks.onward _ session onward)
    · cases onward : (state.markStep place).2 <;> rw [onward] at ends <;> cases ends
    · cases onward : (state.markStep place).2 <;> rw [onward] at pops <;> cases pops
    · exact marks.routing ▸ wakeful.room

/-- Draining: a connection popped is one whose flag the I/O thread sees next. -/
theorem Wakeful.drained (wakeful : Wakeful state) (known : QueuesKnown state) {place : PopPlace SessionId}
    (io : state.io = .draining place) : QueuesKnown (state.drainStep place) ∧ Wakeful (state.drainStep place) := by
  have pop := known.io
  unfold IoKnown at pop
  rw [io] at pop
  have sound := popStep_sound known.dirty pop
  have goes : ∀ {onward}, (state.dirty.popStep place).2 = .inl onward → (state.dirty.popStep place).1.PopSound onward :=
    popStep_goes pop
  have items := popStep_items pop
  have keeps : (state.drainStep place).RoutingKnown := by
    have before := known.routing
    unfold RoutingKnown at before ⊢
    dsimp only [drainStep]
    cases routing : state.routing with
    | notifying mark wake =>
      rw [routing] at before
      cases mark with
      | claiming | overflowing => trivial
      | pushing push => exact popStep_push pop before
    | idle | routing | delivering =>
      rw [routing] at before
      exact before
  have silent (session : SessionId) : ¬ state.io.Wakes session := by
    rw [io]
    exact id
  have bare (session : SessionId) : ¬ state.io.Hands session := by
    rw [io]
    exact id
  have kept (place' : WriterPlace) (ring : SpscRing SessionId)
      (ends : ∀ session, place' ≠ .disabling session) (claims : ∀ session, place' ≠ .notifying (.claiming session))
      (pops : ∀ session taken pop, place' ≠ .popping session taken pop)
      (listed : ∀ session ∈ state.dirty.items, session ∈ ring.items ∨ place'.Hands session) :
      Wakeful { state with dirty := ring, io := place' } := by
    refine wakeful.kept rfl (fun _ => id) (fun _ => Or.inl) (fun session _ _ minded => ?_) (fun _ => Or.inl)
      (fun session _ before => ?_) (fun session named => ?_) wakeful.room fun session taken pop popping => ?_
    · rcases minded with dirty | ⟨registered, _⟩ | routed | written
      · exact Or.inl dirty
      · exact Or.inr (Or.inl ⟨registered, ends session⟩)
      · exact Or.inr (Or.inr (Or.inl routed))
      · exact absurd written (silent session)
    · rcases before with item | overflow | routed | written
      · rcases listed session item with there | handed
        · exact Or.inl there
        · exact Or.inr (Or.inr (Or.inr handed))
      · exact Or.inr (Or.inl overflow)
      · exact Or.inr (Or.inr (Or.inl routed))
      · exact absurd written (bare session)
    · rcases named with routed | claimed
      · exact wakeful.names session (Or.inl routed)
      · exact absurd claimed (claims session)
    · exact absurd popping (pops session taken pop)
  unfold drainStep at keeps ⊢
  dsimp only at keeps ⊢
  cases outcome : (state.dirty.popStep place).2 with
  | inl onward =>
    rw [outcome] at items keeps
    refine ⟨⟨sound, known.outbound, keeps, goes outcome, fun both => both.2⟩, ?_⟩
    exact kept (.draining onward) _ (by rintro _ ⟨⟩) (by rintro _ ⟨⟩) (by rintro _ _ _ ⟨⟩)
      fun session member => Or.inl (items ▸ member)
  | inr popped =>
    rw [outcome] at items keeps
    cases popped with
    | none =>
      obtain ⟨same, _⟩ := items
      refine ⟨⟨sound, known.outbound, keeps, trivial, fun both => both.2⟩, ?_⟩
      exact kept .takingOverflow _ (by rintro _ ⟨⟩) (by rintro _ ⟨⟩) (by rintro _ _ _ ⟨⟩)
        fun session member => Or.inl (same.symm ▸ member)
    | some first =>
      refine ⟨⟨sound, known.outbound, keeps, trivial, fun both => both.2⟩, ?_⟩
      refine kept (.clearing first) _ (by rintro _ ⟨⟩) (by rintro _ ⟨⟩) (by rintro _ _ _ ⟨⟩) fun session member => ?_
      rw [show state.dirty.items = _ from items] at member
      rcases List.mem_cons.mp member with rfl | rest
      · exact Or.inr rfl
      · exact Or.inl rest

/-- The overflow flag is taken over by the scan, which every marked connection is part of. -/
theorem Wakeful.takenOverflow (wakeful : Wakeful state) (io : state.io = .takingOverflow) :
    Wakeful { state with
      dirtyOverflow := false
      io := if state.dirtyOverflow then .scanning (List.range' 1 (state.nextSessionId - 1)) else .idle } := by
  have silent (session : SessionId) : ¬ state.io.Wakes session := by
    rw [io]
    exact id
  have bare (session : SessionId) : ¬ state.io.Hands session := by
    rw [io]
    exact id
  refine wakeful.kept rfl (fun _ => id) (fun _ => Or.inl) (fun session _ _ minded => ?_) (fun _ => Or.inl)
    (fun session marked before => ?_) (fun session named => ?_) wakeful.room fun session taken pop popping => ?_
  · rcases minded with dirty | ⟨registered, _⟩ | routed | written
    · exact Or.inl dirty
    · refine Or.inr (Or.inl ⟨registered, fun ends => ?_⟩)
      dsimp only at ends
      split_ifs at ends
    · exact Or.inr (Or.inr (Or.inl routed))
    · exact absurd written (silent session)
  · rcases before with item | overflow | routed | written
    · exact Or.inl item
    · refine Or.inr (Or.inr (Or.inr ?_))
      obtain ⟨first, last⟩ := wakeful.marked session marked
      dsimp only
      rw [if_pos overflow]
      show session ∈ List.range' 1 (state.nextSessionId - 1)
      rw [List.mem_range'_1]
      exact ⟨first, last.trans_le le_add_tsub⟩
    · exact Or.inr (Or.inr (Or.inl routed))
    · exact absurd written (bare session)
  · rcases named with routed | claimed
    · exact wakeful.names session (Or.inl routed)
    · dsimp only at claimed
      split_ifs at claimed
  · dsimp only at popping
    split_ifs at popping

/-- A step of the writer: it takes reports away, and all it needs to know of a connection it has
closed is that it is closed. -/
theorem Wakeful.written (wakeful : Wakeful state) {session : SessionId} (connection : WriterConnection)
    (place : WriterPlace) (wakes : ∀ other, ¬ state.io.Wakes other) (hands : ∀ other, ¬ state.io.Hands other)
    (opened : connection.closed = false → (state.connections session).closed = false)
    (queued : connection.Queued → (state.connections session).Queued)
    (interest : connection.closed = false → connection.writeInterest = (state.connections session).writeInterest)
    (dirty : connection.dirty = (state.connections session).dirty)
    (ends : ∀ other, place = .disabling other → other = session ∧ ¬ connection.Queued)
    (claims : ∀ other, place ≠ .notifying (.claiming other))
    (emptied : ∀ other taken pop, place = .popping other taken pop → other = session ∧
      connection.replayBacklog = [] ∧ connection.sessionOutbound = []) :
    Wakeful { state.setConnection session connection with io := place } := by
  refine wakeful.ioMoved session connection place opened (fun waits => Or.inl (queued waits))
    (fun nowOpen waits minded => ?_) (fun marked => dirty ▸ marked) (fun other _ woken => absurd woken (wakes other))
    (fun other different ends' => different (ends other ends').1) (fun other _ handed => absurd handed (hands other))
    (fun other claimed => absurd claimed (claims other)) emptied
  rcases minded with marked | ⟨registered, _⟩ | routed | written
  · exact Or.inl (dirty.trans marked)
  · exact Or.inr (Or.inl ⟨(interest nowOpen).trans registered, fun ends' => (ends session ends').2 waits⟩)
  · exact Or.inr (Or.inr (Or.inl routed))
  · exact absurd written (wakes session)

theorem setConnection_setConnection (session : SessionId) (first last : WriterConnection) :
    (state.setConnection session first).setConnection session last = state.setConnection session last := by
  unfold setConnection
  rw [Function.update_idem]

/-- What the writer takes from a connection leaves its producer what it knows. -/
theorem QueuesKnown.ioPopped (known : QueuesKnown state) {session : SessionId} (connection : WriterConnection)
    (sound : connection.outbound.Sound)
    (pushes : ∀ push, (state.connections session).outbound.PushSound push → connection.outbound.PushSound push)
    (place : WriterPlace) (io : WriterWakeup.IoKnown { state.setConnection session connection with io := place })
    (outside : ¬ place.InPush) : QueuesKnown { state.setConnection session connection with io := place } := by
  have own : (state.setConnection session connection).connections session = connection := setConnection_self ..
  refine ⟨known.dirty, fun other => ?_, ?_, io, fun both => outside both.2⟩
  · show ((state.setConnection session connection).connections other).outbound.Sound
    by_cases same : other = session
    · rw [same, own]
      exact sound
    · rw [setConnection_other same]
      exact known.outbound other
  · have before := known.routing
    unfold RoutingKnown at before ⊢
    dsimp only [setConnection] at before ⊢
    cases routing : state.routing with
    | delivering target push reports wake =>
      rw [routing] at before
      dsimp only at before ⊢
      by_cases same : target = session
      · rw [same] at before
        rw [same, Function.update_self]
        exact pushes push before
      · rw [Function.update_of_ne same]
        exact before
    | idle | routing | notifying =>
      rw [routing] at before
      exact before

section Take
variable {session : SessionId} {taken : List Message}

/-- A message taken leaves the connection with what is left of its queues. -/
theorem Wakeful.took (wakeful : Wakeful state) (connection : WriterConnection) (wakes : ∀ other, ¬ state.io.Wakes other)
    (hands : ∀ other, ¬ state.io.Hands other)
    (closed : connection.closed = (state.connections session).closed)
    (queued : connection.Queued → (state.connections session).Queued)
    (interest : connection.writeInterest = (state.connections session).writeInterest)
    (dirty : connection.dirty = (state.connections session).dirty) (message : Message) :
    Wakeful ((state.setConnection session connection).take session taken message) := by
  unfold take
  dsimp only
  split_ifs
  · exact wakeful.written connection _ wakes hands (closed ▸ id) queued (fun _ => interest) dirty
      (by rintro _ ⟨⟩) (by rintro _ ⟨⟩) (by rintro _ _ _ ⟨⟩)
  · rw [setConnection_self, setConnection_setConnection]
    exact wakeful.written { connection with writePending := taken ++ [message] } _ wakes hands (closed ▸ id) queued
      (fun _ => interest) dirty (by rintro _ ⟨⟩) (by rintro _ ⟨⟩) (by rintro _ _ _ ⟨⟩)

theorem QueuesKnown.took (known : QueuesKnown state) (connection : WriterConnection) (sound : connection.outbound.Sound)
    (pushes : ∀ push, (state.connections session).outbound.PushSound push → connection.outbound.PushSound push)
    (message : Message) : QueuesKnown ((state.setConnection session connection).take session taken message) := by
  unfold take
  dsimp only
  split_ifs
  · exact known.ioPopped connection sound pushes (.taking session (taken ++ [message])) trivial id
  · rw [setConnection_self, setConnection_setConnection]
    exact known.ioPopped { connection with writePending := taken ++ [message] } sound pushes (.writing session)
      trivial id

/-- A step of `outbound.try_pop`. When it finds nothing no report is left, for the other two
queues are empty already. -/
theorem Wakeful.popped (wakeful : Wakeful state) (known : QueuesKnown state) {place : PopPlace Message}
    (io : state.io = .popping session taken place) :
    QueuesKnown (state.popStep session taken place) ∧ Wakeful (state.popStep session taken place) := by
  have pop := known.io
  unfold IoKnown at pop
  rw [io] at pop
  obtain ⟨backlog, replies⟩ := wakeful.emptied session taken place io
  have wakes (other : SessionId) : ¬ state.io.Wakes other := by
    rw [io]
    exact id
  have hands (other : SessionId) : ¬ state.io.Hands other := by
    rw [io]
    exact id
  have sound := popStep_sound (known.outbound session) pop
  have pushes : ∀ {push}, (state.connections session).outbound.PushSound push →
      ((state.connections session).outbound.popStep place).1.PushSound push := popStep_push pop
  have items := popStep_items pop
  have queued (fewer : ((state.connections session).outbound.popStep place).1.items ≠ [] →
      (state.connections session).outbound.items ≠ []) :
      { state.connections session with outbound := ((state.connections session).outbound.popStep place).1 }.Queued →
        (state.connections session).Queued := by
    rintro (waits | waits | waits)
    · exact Or.inl waits
    · exact Or.inr (Or.inl waits)
    · exact Or.inr (Or.inr (fewer waits))
  let connection : WriterConnection := { state.connections session with
    outbound := ((state.connections session).outbound.popStep place).1 }
  unfold popStep
  dsimp only
  cases outcome : ((state.connections session).outbound.popStep place).2 with
  | inl onward =>
    rw [outcome] at items
    refine ⟨known.ioPopped connection sound (fun _ => pushes) _ ?_ id, ?_⟩
    · show ((state.setConnection session _).connections session).outbound.PopSound onward
      rw [setConnection_self]
      exact popStep_goes pop outcome
    · refine wakeful.written connection _ wakes hands id (queued fun waits => items ▸ waits) (fun _ => rfl) rfl (by rintro _ ⟨⟩)
        (by rintro _ ⟨⟩) ?_
      rintro other _ _ ⟨⟩
      exact ⟨rfl, backlog, replies⟩
  | inr popped =>
    rw [outcome] at items
    cases popped with
    | none =>
      obtain ⟨same, empty⟩ := items
      have fewer := queued fun waits => same ▸ waits
      unfold takeNone
      split_ifs
      · refine ⟨known.ioPopped connection sound (fun _ => pushes) (.disabling session) trivial id, ?_⟩
        refine wakeful.written connection _ wakes hands id fewer (fun _ => rfl) rfl ?_ (by rintro _ ⟨⟩) (by rintro _ _ _ ⟨⟩)
        rintro other ⟨⟩
        refine ⟨rfl, ?_⟩
        rintro (waits | waits | waits)
        · exact waits backlog
        · exact waits replies
        · exact waits ((congrArg items same).trans empty)
      · rw [setConnection_self, setConnection_setConnection]
        refine ⟨known.ioPopped { connection with writePending := taken } sound (fun _ => pushes) (.writing session) trivial id,
          ?_⟩
        exact wakeful.written { connection with writePending := taken } _ wakes hands id fewer
          (fun _ => rfl) rfl (by rintro _ ⟨⟩) (by rintro _ ⟨⟩) (by rintro _ _ _ ⟨⟩)
    | some message =>
      refine ⟨known.took connection sound (fun _ => pushes) message,
        wakeful.took connection wakes hands rfl (queued fun _ none => ?_) rfl rfl message⟩
      rw [show (state.connections session).outbound.items = _ from items] at none
      cases none

/-- The backlog and the gateway's own replies are only the I/O thread's. -/
theorem Wakeful.takenFirst (wakeful : Wakeful state) (known : QueuesKnown state)
    (io : state.io = .taking session taken) :
    QueuesKnown (state.takeStep session taken) ∧ Wakeful (state.takeStep session taken) := by
  have wakes (other : SessionId) : ¬ state.io.Wakes other := by
    rw [io]
    exact id
  have hands (other : SessionId) : ¬ state.io.Hands other := by
    rw [io]
    exact id
  unfold takeStep
  dsimp only
  split
  next _ _ message rest backlog =>
    let connection := { state.connections session with replayBacklog := rest }
    refine ⟨known.took connection (known.outbound session) (fun _ => id) message,
      wakeful.took connection wakes hands rfl (fun _ => Or.inl fun empty => ?_) rfl rfl message⟩
    rw [backlog] at empty
    cases empty
  next message rest backlog replies =>
    let connection := { state.connections session with sessionOutbound := rest }
    refine ⟨known.took connection (known.outbound session) (fun _ => id) message,
      wakeful.took connection wakes hands rfl (fun _ => Or.inr (Or.inl fun empty => ?_)) rfl rfl message⟩
    rw [replies] at empty
    cases empty
  next backlog replies =>
    refine ⟨known.ioPlaced _ trivial id, wakeful.ioPlaced _ wakes (fun other handed => absurd handed (hands other))
      (by rintro _ ⟨⟩) (by rintro _ ⟨⟩) ?_⟩
    rintro _ _ _ ⟨⟩
    exact ⟨backlog, replies⟩

end Take

/-- One round of `handle_write`. -/
theorem Wakeful.wrote (wakeful : Wakeful state) (known : QueuesKnown state) {session : SessionId}
    (io : state.io = .writing session) (answer : IoAnswer) :
    QueuesKnown (state.writeStep session answer) ∧ Wakeful (state.writeStep session answer) := by
  have wakes (other : SessionId) : ¬ state.io.Wakes other := by
    rw [io]
    exact id
  have hands (other : SessionId) : ¬ state.io.Hands other := by
    rw [io]
    exact id
  have rests (place : WriterPlace) (other : SessionId) (handed : state.io.Hands other) : place.Hands other :=
    absurd handed (hands other)
  unfold writeStep
  dsimp only
  split_ifs with closed done
  · exact ⟨known.ioPlaced .idle trivial id,
      wakeful.ioPlaced .idle wakes (rests .idle) (by rintro _ ⟨⟩) (by rintro _ ⟨⟩) (by rintro _ _ _ ⟨⟩)⟩
  · exact ⟨known.ioPlaced (.taking session []) trivial id, wakeful.ioPlaced (.taking session []) wakes
      (rests (.taking session [])) (by rintro _ ⟨⟩) (by rintro _ ⟨⟩) (by rintro _ _ _ ⟨⟩)⟩
  · cases answer with
    | ok =>
      have kept := wakeful.written { state.connections session with writePending := [] } state.io wakes hands id id
        (fun _ => rfl) rfl (by rw [io]; rintro _ ⟨⟩) (by rw [io]; rintro _ ⟨⟩) (by rw [io]; rintro _ _ _ ⟨⟩)
      have queues := known.ioSet session { state.connections session with writePending := [] } rfl state.io
        (by rw [io]; trivial) (by rw [io]; exact id)
      exact ⟨queues, kept⟩
    | partly | wouldBlock =>
      exact ⟨known.enabled session _ .idle trivial id, wakeful.enabled session _ .idle (fun other _ => wakes other)
        (rests .idle) (by rintro _ ⟨⟩) (by rintro _ ⟨⟩) (by rintro _ _ _ ⟨⟩)⟩
    | failed =>
      exact ⟨known.ioSet session { state.connections session with closed := true } rfl .idle trivial id, wakeful.closed session .idle wakes (rests .idle)
        (by rintro _ ⟨⟩) (by rintro _ ⟨⟩) (by rintro _ _ _ ⟨⟩)⟩

/-- Clearing a flag that has been seen: its connection is asked about next. -/
theorem Wakeful.cleared (wakeful : Wakeful state) (session : SessionId) (place : WriterPlace)
    (wakes : ∀ other, ¬ state.io.Wakes other) (next : (state.connections session).dirty = true → place.Wakes session)
    (hands : ∀ other, other ≠ session → state.io.Hands other → place.Hands other)
    (disabling : ∀ other, place ≠ .disabling other) (names : ∀ other, place ≠ .notifying (.claiming other))
    (popping : ∀ other taken pop, place ≠ .popping other taken pop) :
    Wakeful { state.setConnection session { state.connections session with dirty := false } with io := place } := by
  refine wakeful.ioMoved session { state.connections session with dirty := false } place id Or.inl
    (fun _ _ minded => ?_) (fun dirty => by cases dirty) (fun other _ woken => absurd woken (wakes other))
    (fun other _ => disabling other) (fun other own handed => hands other (fun same => ?_) handed)
    (fun other claims => absurd claims (names other)) fun other taken pop pops => absurd pops (popping other taken pop)
  · rcases minded with dirty | ⟨registered, _⟩ | routed | written
    · exact Or.inr (Or.inr (Or.inr (next dirty)))
    · exact Or.inr (Or.inl ⟨registered, disabling session⟩)
    · exact Or.inr (Or.inr (Or.inl routed))
    · exact absurd written (wakes session)
  · cases own same

/-- Every step of the I/O thread. -/
theorem Wakeful.ioStep (wakeful : Wakeful state) (known : QueuesKnown state) {answer : IoAnswer}
    (stepped : state.ioStep answer = some next) (alone : state.SoleProducer (.io answer)) :
    QueuesKnown next ∧ Wakeful next := by
  cases io : state.io with
  | idle =>
    simp only [WriterWakeup.ioStep, io] at stepped
    cases stepped
  | notifying place => exact wakeful.ioMarks known io stepped alone
  | draining place =>
    simp only [WriterWakeup.ioStep, io] at stepped
    cases stepped
    exact wakeful.drained known io
  | clearing session =>
    simp only [WriterWakeup.ioStep, io] at stepped
    cases stepped
    refine ⟨known.ioSet session { state.connections session with dirty := false } rfl _ trivial id,
      wakeful.cleared session _ (by rw [io]; exact fun _ => id) (fun _ => rfl) (fun other different handed => ?_)
        (by rintro _ ⟨⟩) (by rintro _ ⟨⟩) (by rintro _ _ _ ⟨⟩)⟩
    rw [io] at handed
    exact absurd handed.symm different
  | enabling session scan =>
    simp only [WriterWakeup.ioStep, io] at stepped
    cases stepped
    have others (other : SessionId) (different : other ≠ session) : ¬ state.io.Wakes other := by
      rw [io]
      exact fun same => different same.symm
    cases scan with
    | none =>
      exact ⟨known.enabled session answer (.draining .loadTail) trivial id,
        wakeful.enabled session answer (.draining .loadTail) others (by rw [io]; exact fun _ none => none.elim)
          (by rintro _ ⟨⟩) (by rintro _ ⟨⟩) (by rintro _ _ _ ⟨⟩)⟩
    | some scan =>
      exact ⟨known.enabled session answer (.scanning scan) trivial id,
        wakeful.enabled session answer (.scanning scan) others (by rw [io]; exact fun _ => id)
          (by rintro _ ⟨⟩) (by rintro _ ⟨⟩) (by rintro _ _ _ ⟨⟩)⟩
  | takingOverflow =>
    simp only [WriterWakeup.ioStep, io] at stepped
    cases stepped
    refine ⟨known.ioMoved rfl (fun _ => rfl) rfl ?_ ?_, wakeful.takenOverflow io⟩
    · cases taken : state.dirtyOverflow <;> trivial
    · cases taken : state.dirtyOverflow <;> exact id
  | scanning scan =>
    cases scan with
    | nil =>
      simp only [WriterWakeup.ioStep, io] at stepped
      cases stepped
      exact ⟨known.ioPlaced .idle trivial id, wakeful.ioPlaced .idle (by rw [io]; exact fun _ => id)
        (by rw [io]; exact fun _ none => absurd none List.not_mem_nil) (by rintro _ ⟨⟩) (by rintro _ ⟨⟩)
        (by rintro _ _ _ ⟨⟩)⟩
    | cons session scan =>
      simp only [WriterWakeup.ioStep, io] at stepped
      cases stepped
      have rest (other : SessionId) (different : other ≠ session) (handed : state.io.Hands other) : other ∈ scan := by
        rw [io] at handed
        exact (List.mem_cons.mp handed).resolve_left different
      split_ifs with dirty
      · exact ⟨known.ioSet session { state.connections session with dirty := false } rfl _ trivial id,
          wakeful.cleared session (.enabling session (some scan)) (by rw [io]; exact fun _ => id) (fun _ => rfl) rest
            (by rintro _ ⟨⟩) (by rintro _ ⟨⟩) (by rintro _ _ _ ⟨⟩)⟩
      · exact ⟨known.ioSet session { state.connections session with dirty := false } rfl _ trivial id,
          wakeful.cleared session (.scanning scan) (by rw [io]; exact fun _ => id) (fun set => absurd set dirty) rest
            (by rintro _ ⟨⟩) (by rintro _ ⟨⟩) (by rintro _ _ _ ⟨⟩)⟩
  | writing session =>
    simp only [WriterWakeup.ioStep, io] at stepped
    cases stepped
    exact wakeful.wrote known io answer
  | taking session taken =>
    simp only [WriterWakeup.ioStep, io] at stepped
    cases stepped
    exact wakeful.takenFirst known io
  | popping session taken place =>
    simp only [WriterWakeup.ioStep, io] at stepped
    cases stepped
    exact wakeful.popped known io
  | disabling session =>
    simp only [WriterWakeup.ioStep, io] at stepped
    cases stepped
    obtain ⟨closed, interest, same, opened⟩ := disableWrite_eq state session answer
    rw [same]
    refine ⟨known.ioSet session { state.connections session with closed, writeInterest := interest } rfl .idle trivial id,
      wakeful.ioMoved session _ .idle opened Or.inl (fun _ _ minded => ?_) id (fun other _ woken => ?_) (by rintro _ _ ⟨⟩)
        (fun other _ handed => ?_) (by rintro _ ⟨⟩) (by rintro _ _ _ ⟨⟩)⟩
    · rcases minded with dirty | ⟨_, goes⟩ | routed | written
      · exact Or.inl dirty
      · exact absurd io goes
      · exact Or.inr (Or.inr (Or.inl routed))
      · rw [io] at written
        exact written.elim
    · rw [io] at woken
      exact woken.elim
    · rw [io] at handed
      exact handed.elim

end Io

/-- Every step of the matching thread. -/
theorem Wakeful.matchingStep (wakeful : Wakeful state) (known : QueuesKnown state) {target : Option SessionId}
    (stepped : state.matchingStep target = some next) (alone : state.SoleProducer (.matching target)) :
    QueuesKnown next ∧ Wakeful next := by
  have names := fun other => wakeful.names other
  have room := wakeful.room
  cases routing : state.routing with
  | idle =>
    simp only [WriterWakeup.matchingStep, routing] at stepped
    cases stepped
  | routing reports wake =>
    rw [routing] at names room
    have bare (other : SessionId) : ¬ state.routing.Hands other := by
      rw [routing]
      exact id
    cases reports with
    | nil =>
      simp only [WriterWakeup.matchingStep, routing] at stepped
      cases stepped
      refine ⟨known.routingMoved rfl (fun _ => rfl) rfl ?_ (notifyNext_outside wake),
        wakeful.routingMoved (notifyNext wake) (fun other woken => ?_) bare
          (fun other named => names other (Or.inl ((notifyNext_names wake other).mp named))) (notifyNext_room wake)⟩
      · cases wake <;> trivial
      · rw [routing] at woken
        exact (notifyNext_wakes wake other).mpr woken
    | cons report reports =>
      obtain ⟨key, message⟩ := report
      have fewer : reports.length + 1 + wake.length ≤ 2 := room
      cases target with
      | none =>
        simp only [WriterWakeup.matchingStep, routing] at stepped
        cases stepped
        refine ⟨known.routingMoved rfl (fun _ => rfl) rfl trivial id,
          wakeful.routingMoved (.routing reports wake) (fun other woken => ?_) bare
            (fun other named => names other (Or.inl named)) ?_⟩
        · rw [routing] at woken
          exact woken
        · show reports.length + wake.length ≤ 2
          omega
      | some session =>
        simp only [WriterWakeup.matchingStep, routing] at stepped
        split_ifs at stepped with bound
        cases stepped
        refine ⟨known.routingMoved rfl (fun _ => rfl) rfl trivial id,
          wakeful.routingMoved (.delivering session (.loadHead message) reports wake) (fun other woken => ?_) bare
            (fun other named => ?_) ?_⟩
        · rw [routing] at woken
          exact woken
        · rcases named with rfl | woken
          · exact wakeful.opened other bound.1
          · exact names other (Or.inl woken)
        · show reports.length + wake.length < 2
          omega
  | delivering session place reports wake => exact wakeful.delivered known routing stepped
  | notifying place wake => exact wakeful.routingMarks known routing stepped alone

/-- A connection accepted has no report yet. -/
theorem Wakeful.accepted (wakeful : Wakeful state) (io : state.io = .idle) : Wakeful state.acceptReady := by
  have unseen : ¬ state.Seen state.nextSessionId := fun seen => lt_irrefl _ seen.2
  have own : state.acceptReady.connections state.nextSessionId =
      { state.connections state.nextSessionId with closed := false } := setConnection_self ..
  have others (other : SessionId) (different : other ≠ state.nextSessionId) :
      state.acceptReady.connections other = state.connections other := setConnection_other different _
  have more (other : SessionId) (seen : state.Seen other) : state.acceptReady.Seen other :=
    ⟨seen.1, seen.2.trans (Nat.lt_succ_self _)⟩
  have queued (other : SessionId) (waits : (state.acceptReady.connections other).Queued) :
      (state.connections other).Queued := by
    by_cases same : other = state.nextSessionId
    · rw [same, own] at waits
      rw [same]
      exact waits
    · rwa [others other same] at waits
  have marked (other : SessionId) (dirty : (state.acceptReady.connections other).dirty = true) :
      (state.connections other).dirty = true := by
    by_cases same : other = state.nextSessionId
    · rw [same, own] at dirty
      rw [same]
      exact dirty
    · rwa [others other same] at dirty
  refine ⟨fun other opened waits => ?_, fun other dirty => wakeful.listed other (marked other dirty), fun other opened => ?_,
    fun other dirty => more other (wakeful.marked other (marked other dirty)),
    fun other waits => more other (wakeful.queued other (queued other waits)),
    fun other named => more other (wakeful.names other named), wakeful.room, fun other taken pop popping => ?_,
    wakeful.numbered.trans (Nat.le_succ _)⟩
  · by_cases same : other = state.nextSessionId
    · rw [same] at waits
      exact absurd (wakeful.queued _ (queued _ waits)) unseen
    · have minded := wakeful.minded other (by rwa [isOpen, others other same] at opened) (queued other waits)
      unfold Minded at minded ⊢
      rwa [others other same]
  · by_cases same : other = state.nextSessionId
    · rw [same]
      exact ⟨wakeful.numbered, Nat.lt_succ_self _⟩
    · exact more other (wakeful.opened other (by rwa [isOpen, others other same] at opened))
  · rw [show state.acceptReady.io = state.io from rfl, io] at popping
    cases popping

/-- Every step that keeps the dirty queue to one producer. -/
theorem Wakeful.step (wakeful : Wakeful state) (known : QueuesKnown state) {action : WakeupAction}
    (stepped : state.step action = some next) (alone : state.SoleProducer action) :
    QueuesKnown next ∧ Wakeful next := by
  have idle (io : state.io = .idle) : (∀ other, ¬ state.io.Wakes other) ∧ ∀ other, ¬ state.io.Hands other := by
    rw [io]
    exact ⟨fun _ => id, fun _ => id⟩
  cases action with
  | accept =>
    simp only [WriterWakeup.step] at stepped
    split_ifs at stepped with io
    cases stepped
    exact ⟨known.ioMoved rfl (setConnection_keeps _ WriterConnection.outbound (by rfl)) rfl
      (known.ioKept rfl (setConnection_keeps _ WriterConnection.outbound (by rfl)) rfl)
      (by rw [show state.acceptReady.io = state.io from rfl, io]; exact id), wakeful.accepted io⟩
  | bind session accountId backlog =>
    simp only [WriterWakeup.step] at stepped
    split_ifs at stepped with ready
    cases stepped
    obtain ⟨io, opened, _⟩ := ready
    exact ⟨known.ioSet session { state.connections session with
        accountId := some accountId, replayBacklog := backlog } rfl (.notifying (.claiming session)) trivial id,
      wakeful.notified session { state.connections session with
        accountId := some accountId, replayBacklog := backlog } (idle io) opened id rfl rfl⟩
  | reject session command =>
    simp only [WriterWakeup.step] at stepped
    split_ifs at stepped with ready
    cases stepped
    obtain ⟨io, opened, _⟩ := ready
    unfold rejectAccountMismatch
    dsimp only
    split_ifs
    · exact ⟨known, wakeful⟩
    · exact ⟨known.ioSet session { state.connections session with
          sessionOutbound := (state.connections session).sessionOutbound ++ [accountMismatch command] } rfl
          (.notifying (.claiming session)) trivial id,
        wakeful.notified session { state.connections session with
          sessionOutbound := (state.connections session).sessionOutbound ++ [accountMismatch command] } (idle io)
          opened id rfl rfl⟩
  | hangUp session =>
    simp only [WriterWakeup.step] at stepped
    split_ifs at stepped with ready
    cases stepped
    obtain ⟨io, _⟩ := ready
    have queues := known.ioSet session { state.connections session with closed := true } rfl state.io
      (by rw [io]; trivial) (by rw [io]; exact id)
    have kept := wakeful.closed session state.io (idle io).1 (fun _ => id) (by rw [io]; rintro _ ⟨⟩)
      (by rw [io]; rintro _ ⟨⟩) (by rw [io]; rintro _ _ _ ⟨⟩)
    exact ⟨queues, kept⟩
  | drain =>
    simp only [WriterWakeup.step] at stepped
    split_ifs at stepped with io
    cases stepped
    exact ⟨known.ioPlaced (.draining .loadTail) trivial id, wakeful.ioPlaced (.draining .loadTail) (idle io).1
      (fun other handed => absurd handed ((idle io).2 other)) (by rintro _ ⟨⟩) (by rintro _ ⟨⟩) (by rintro _ _ _ ⟨⟩)⟩
  | write session =>
    simp only [WriterWakeup.step] at stepped
    split_ifs at stepped with ready
    cases stepped
    have quiet := idle ready.1
    exact ⟨known.ioPlaced (.writing session) trivial id, wakeful.ioPlaced (.writing session) quiet.1
      (fun other handed => absurd handed (quiet.2 other)) (by rintro _ ⟨⟩) (by rintro _ ⟨⟩) (by rintro _ _ _ ⟨⟩)⟩
  | io answer => exact wakeful.ioStep known stepped alone
  | route event =>
    simp only [WriterWakeup.step] at stepped
    split_ifs at stepped with routing
    cases stepped
    refine ⟨known.routingMoved rfl (fun _ => rfl) rfl trivial id,
      wakeful.routingMoved (.routing (toExecutionReports event) []) (fun other woken => ?_) (fun other => ?_)
        (fun other named => absurd named List.not_mem_nil) (length_toExecutionReports event)⟩
    · rw [routing] at woken
      exact woken.elim
    · rw [routing]
      exact id
  | matching target => exact wakeful.matchingStep known stepped alone

section Runs
variable {outboundBits : Fin 64} {writerBatch : Nat}

theorem start_known (outboundBits : Fin 64) (writerBatch : Nat) : QueuesKnown (start outboundBits writerBatch) where
  dirty := make_sound 16 0
  outbound _ := make_sound outboundBits blank
  routing := trivial
  io := trivial
  sole both := both.1

theorem start_wakeful (outboundBits : Fin 64) (writerBatch : Nat) : Wakeful (start outboundBits writerBatch) where
  minded _ opened := by cases opened
  listed _ dirty := by cases dirty
  opened _ opened := by cases opened
  marked _ dirty := by cases dirty
  queued session waits := by
    rcases waits with none | none | waits
    · exact absurd rfl none
    · exact absurd rfl none
    · exact absurd (make_items outboundBits blank) waits
  names session named := by
    rcases named with none | claims
    · exact none.elim
    · cases claims
  room := trivial
  emptied _ _ _ popping := by cases popping
  numbered := le_rfl

/-- In a run that keeps the dirty queue to one producer at a time no wake-up is lost. -/
theorem no_lost_wakeup {actions : List WakeupAction}
    (ran : Transitions.run step (start outboundBits writerBatch) actions = some state)
    (alone : Transitions.Throughout step SoleProducer (start outboundBits writerBatch) actions) :
    state.NoLostWakeup := by
  have kept := Transitions.run_rule
    (fun actions state => Transitions.Throughout step SoleProducer (start outboundBits writerBatch) actions →
      QueuesKnown state ∧ Wakeful state)
    (fun _ => ⟨start_known outboundBits writerBatch, start_wakeful outboundBits writerBatch⟩)
    (fun actions state action next reached before stepped every => ?_) ran
  · exact (kept alone).2.noLostWakeup
  · obtain ⟨earlier, here⟩ := (Transitions.throughout_concat reached).mp every
    obtain ⟨known, wakeful⟩ := before earlier
    exact wakeful.step known stepped here

end Runs

/-- Two connections, the first of them bound, notified, written and done. -/
def firstWritten : List WakeupAction :=
  [.accept, .accept, .bind 1 7 []] ++ List.replicate 5 (.io .ok) ++ [.drain] ++ List.replicate 9 (.io .ok) ++
    [.write 1] ++ List.replicate 5 (.io .ok)

/-- An event with a report for the first connection, up to the matching thread's write of the
slot of the dirty queue. -/
def firstReported : List WakeupAction :=
  [.route (.orderAccepted {
      eventSequence := 1, commandSequence := 1, accountId := 7, clientOrderId := 5, exchangeOrderId := 1
      instrumentId := 3, side := .buy, price := 10, quantity := 1, orderType := .limit, timeInForce := .gtc }),
    .matching (some 1)] ++ List.replicate 9 (.matching none)

/-- The second connection binds and is notified. -/
def secondBinds : List WakeupAction := [.bind 2 8 []] ++ List.replicate 5 (.io .ok)

/-- One thread after the other: both connections are in the queue. -/
theorem no_lost_wakeup_apart :
    ∃ state, Transitions.run step (start 10 4) (firstWritten ++ firstReported ++ [.matching none] ++ secondBinds) =
        some state ∧
      state.routing = .idle ∧ state.io = .idle ∧ state.isOpen 1 ∧ (state.connections 1).Queued ∧
      (state.connections 1).dirty = true ∧ (1 ∈ state.dirty.items ∨ state.dirtyOverflow = true) := by
  have comes : (Transitions.run step (start 10 4)
        (firstWritten ++ firstReported ++ [.matching none] ++ secondBinds)).map
      (fun state => (state.routing, state.io, state.isOpen 1, (state.connections 1).outbound.items.length,
        (state.connections 1).writeInterest)) = some (.idle, .idle, true, 1, false) := by
    decide +kernel
  have alone : Transitions.checkThroughout step SoleProducer (start 10 4)
      (firstWritten ++ firstReported ++ [.matching none] ++ secondBinds) = true := by
    decide +kernel
  obtain ⟨state, ran, seen⟩ := Option.map_eq_some_iff.mp comes
  obtain ⟨routing, seen⟩ := Prod.mk.inj seen
  obtain ⟨io, seen⟩ := Prod.mk.inj seen
  obtain ⟨opened, seen⟩ := Prod.mk.inj seen
  obtain ⟨one, silent⟩ := Prod.mk.inj seen
  have waits : (state.connections 1).outbound.items ≠ [] := by
    intro none
    rw [none] at one
    cases one
  have queued : (state.connections 1).Queued := Or.inr (Or.inr waits)
  obtain ⟨marked, listed⟩ := no_lost_wakeup ran (Transitions.throughout_of_check alone) routing io 1 opened
  have dirty := marked queued silent
  exact ⟨state, ran, routing, io, opened, queued, dirty, listed dirty⟩

/-- Both threads load the same head. The second connection is written over the first, which
stays marked, and so is never handed over again. -/
theorem overlapping_notify_loses_wakeup :
    ∃ state, Transitions.run step (start 10 4) (firstWritten ++ firstReported ++ secondBinds ++ [.matching none]) =
        some state ∧
      (state.connections 1).Queued ∧ state.dirty.items = [2] ∧ ¬ state.NoLostWakeup := by
  have comes : (Transitions.run step (start 10 4)
        (firstWritten ++ firstReported ++ secondBinds ++ [.matching none])).map
      (fun state => ((state.routing, state.io), (state.isOpen 1, (state.connections 1).outbound.items.length,
        (state.connections 1).dirty), state.dirty.items, state.dirtyOverflow)) =
      some ((.idle, .idle), (true, 1, true), [2], false) := by
    decide +kernel
  obtain ⟨state, ran, seen⟩ := Option.map_eq_some_iff.mp comes
  obtain ⟨places, seen⟩ := Prod.mk.inj seen
  obtain ⟨connection, seen⟩ := Prod.mk.inj seen
  obtain ⟨routing, io⟩ := Prod.mk.inj places
  obtain ⟨opened, connection⟩ := Prod.mk.inj connection
  obtain ⟨one, dirty⟩ := Prod.mk.inj connection
  obtain ⟨items, overflow⟩ := Prod.mk.inj seen
  refine ⟨state, ran, Or.inr (Or.inr fun none => ?_), items, fun kept => ?_⟩
  · rw [none] at one
    cases one
  · rcases (kept routing io 1 opened).2 dirty with member | set
    · rw [items] at member
      simp at member
    · rw [overflow] at set
      cases set

end WriterWakeup

end Mdh.Gateway
