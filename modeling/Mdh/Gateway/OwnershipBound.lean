import Mdh.Gateway.OrderOwnership
import Mdh.Risk.HoldBacking

/-! The ownership table and the live orders. An entry goes when its order ends under an event that
names it, so that as long as every order does, and no request that left an entry is dropped, what
the table names at rest is what the engine has at rest. -/

namespace Mdh.Gateway.OrderEntryGateway
open Mdh.Core Mdh.Lib Mdh.Matching Mdh.Matching.MatchingEngine Mdh.Risk Mdh.Sequencing

variable (round : Rounding) {gateway next : OrderEntryGateway}

/-- Every command has been processed and its events routed, and no request that has left an entry
waits to be submitted. -/
def Settled (gateway : OrderEntryGateway) : Prop :=
  gateway.queue = [] ∧ gateway.matching = .popping ∧ ∀ session command, gateway.io ≠ .submitting session command true

/-- Every key of the table is the key of a live order. -/
def NamesLiveOrders (gateway : OrderEntryGateway) : Prop :=
  ∀ key session, gateway.orderOwner key = some session → gateway.exchange.engine.Rests key

/-- A request in the queue is about the order. -/
def Queued (gateway : OrderEntryGateway) (key : OrderKey) : Prop := ∃ entry ∈ gateway.queue, claimedKey entry.2 = key

instance (key : OrderKey) : Decidable (gateway.Queued key) :=
  inferInstanceAs (Decidable (∃ entry ∈ gateway.queue, claimedKey entry.2 = key))

/-- The entry a request has left does not stay behind should a full queue drop the request. -/
def ClaimHolds (gateway : OrderEntryGateway) (command : ExchangeCommand) : Prop :=
  gateway.queue.length < gateway.options.matchingQueueCapacity.nextPowerOfTwo ∨
    gateway.orderOwner (claimedKey command) = none ∨ gateway.exchange.engine.Rests (claimedKey command) ∨
    gateway.Queued (claimedKey command)

instance (command : ExchangeCommand) : Decidable (gateway.ClaimHolds command) :=
  inferInstanceAs (Decidable (_ ∨ _ ∨ _ ∨ _))

/-- Nothing is discarded of an order the exchange takes up. -/
def TakesWhole (gateway : OrderEntryGateway) (command : ExchangeCommand) : Prop :=
  gateway.exchange.CarriesOut round (gateway.sequencer.sequence command).1 →
    gateway.exchange.engine.FillsWhole (gateway.sequencer.sequence command).1

instance (command : ExchangeCommand) : Decidable (gateway.TakesWhole round command) :=
  inferInstanceAs (Decidable (_ → _))

/-- The step leaves no entry behind: no request with a new entry is dropped, and no order is taken
up to be discarded in part. -/
def LeavesNoEntry (gateway : OrderEntryGateway) : GatewayAction → Prop
  | .io =>
      match gateway.io with
      | .submitting _ command true => gateway.ClaimHolds command
      | _ => True
  | .matching =>
      match gateway.matching, gateway.queue with
      | .popping, (_, command) :: _ => gateway.TakesWhole round command
      | _, _ => True
  | _ => True

instance (gateway : OrderEntryGateway) (action : GatewayAction) : Decidable (gateway.LeavesNoEntry round action) :=
  have io (place : IoPlace) : Decidable (match place with
      | .submitting _ command true => gateway.ClaimHolds command
      | _ => True) :=
    match place with
    | .submitting _ command true => inferInstanceAs (Decidable (gateway.ClaimHolds command))
    | .submitting _ _ false | .waiting | .framing _ | .binding .. | .rejecting .. | .claiming .. | .unbinding _ =>
        isTrue trivial
  have matching (place : MatchingPlace) (queue : List (SessionId × ExchangeCommand)) : Decidable (match place, queue with
      | .popping, (_, command) :: _ => gateway.TakesWhole round command
      | _, _ => True) :=
    match place, queue with
    | .popping, (_, command) :: _ => inferInstanceAs (Decidable (gateway.TakesWhole round command))
    | .popping, [] | .routing _, _ | .delivering .., _ | .pushing .., _ => isTrue trivial
  match action with
  | .io => io gateway.io
  | .matching => matching gateway.matching gateway.queue
  | .accept | .receive .. | .hangUp _ | .popOutbound _ => isTrue trivial

/-- The order is live, or a request about it is in the queue or about to be. -/
def Awaited (gateway : OrderEntryGateway) (key : OrderKey) : Prop :=
  gateway.exchange.engine.Rests key ∨ gateway.Queued key ∨
    ∃ session command, gateway.io = .submitting session command true ∧ claimedKey command = key

/-- No rejection still to be routed takes the entry. -/
def Spared (gateway : OrderEntryGateway) (key : OrderKey) (events : List ExchangeEvent) : Prop :=
  ∀ rejection, ExchangeEvent.orderRejected rejection ∈ events → key = ⟨rejection.accountId, rejection.clientOrderId⟩ →
    gateway.Held key

/-- The invariant: the orders of the table, followed through the events still to be routed, are
live or awaited, and so are those an event moves. -/
structure Bounded (gateway : OrderEntryGateway) : Prop where
  sound : gateway.exchange.engine.Sound
  holds : HoldsRest gateway.exchange
  quiet : ∀ event ∈ (unrouted gateway.matching).tail, announced event = none ∧ ¬ IsRejection event
  moves : ∀ key left, keyAfterAll key (unrouted gateway.matching) = some left → left ≠ key →
    gateway.exchange.engine.Rests left
  entries : ∀ key, gateway.orderOwner key ≠ none → gateway.Spared key (unrouted gateway.matching) →
    ∀ left, keyAfterAll key (unrouted gateway.matching) = some left → gateway.Awaited left

theorem Bounded.namesLiveOrders (bounded : Bounded gateway) (settled : gateway.Settled) : gateway.NamesLiveOrders := by
  obtain ⟨queue, place, idle⟩ := settled
  have entries := bounded.entries
  rw [place] at entries
  intro key session owned
  rcases entries key (by rw [owned]; nofun) nofun key rfl with rests | ⟨entry, member, _⟩ | ⟨_, _, submits, _⟩
  · exact rests
  · rw [queue] at member
    cases member
  · exact absurd submits (idle _ _)

section Routing

/-- An entry that is there once an event has been routed comes from one that was there before. -/
theorem ownershipAfter_came {event : ExchangeEvent} {key : OrderKey} (there : gateway.ownershipAfter event key ≠ none) :
    ∃ before, gateway.orderOwner before ≠ none ∧ keyAfter before event = some key ∧
      ∀ rejection, event = .orderRejected rejection → before = ⟨rejection.accountId, rejection.clientOrderId⟩ →
        gateway.Held before := by
  have erased {owner : OrderKey → Option SessionId} {other : OrderKey} (there : eraseOwner owner other key ≠ none) :
      key ≠ other ∧ owner key ≠ none := by
    unfold eraseOwner at there
    rw [Function.update_apply] at there
    split_ifs at there with same
    · exact absurd rfl there
    · exact ⟨same, there⟩
  cases event with
  | orderRejected event =>
    simp only [ownershipAfter] at there
    split_ifs at there with held
    · refine ⟨key, there, rfl, fun rejection same own => ?_⟩
      cases same
      rw [own]
      exact held
    · obtain ⟨different, there⟩ := erased there
      refine ⟨key, there, rfl, fun rejection same own => ?_⟩
      cases same
      exact absurd own different
  | orderCancelled event =>
    obtain ⟨different, there⟩ := erased there
    exact ⟨key, there, if_neg different, by rintro _ ⟨⟩⟩
  | orderReplaced event =>
    simp only [ownershipAfter] at there
    cases owned : gateway.orderOwner ⟨event.accountId, event.originalClientOrderId⟩ with
    | none =>
      rw [owned] at there
      refine ⟨key, there, if_neg fun same => there ?_, by rintro _ ⟨⟩⟩
      rw [same]
      exact owned
    | some owner =>
      rw [owned] at there
      obtain ⟨different, there⟩ := erased there
      rw [Function.update_apply] at there
      split_ifs at there with new
      · exact ⟨_, by rw [owned]; rintro ⟨⟩, (if_pos rfl).trans (congrArg some new.symm), by rintro _ ⟨⟩⟩
      · exact ⟨key, there, if_neg different, by rintro _ ⟨⟩⟩
  | tradeExecuted event =>
    have leg (owner : OrderKey → Option SessionId) (side : TradeCounterparty)
        (there : (if side.remainingQuantity = 0 then eraseOwner owner (partyKey side) else owner) key ≠ none) :
        ¬ (key = partyKey side ∧ side.remainingQuantity = 0) ∧ owner key ≠ none := by
      split_ifs at there with filled
      · exact ⟨fun both => (erased there).1 both.1, (erased there).2⟩
      · exact ⟨fun both => filled both.2, there⟩
    obtain ⟨seller, there⟩ := leg _ event.seller there
    obtain ⟨buyer, there⟩ := leg _ event.buyer there
    exact ⟨key, there, if_neg (not_or.mpr ⟨buyer, seller⟩), by rintro _ ⟨⟩⟩
  | orderAccepted | bookOrderAdded | bookOrderReduced | bookOrderRemoved => exact ⟨key, there, rfl, by rintro _ ⟨⟩⟩

/-- The end of an event's routing. -/
theorem Bounded.routed (bounded : Bounded gateway) {event : ExchangeEvent} {events : List ExchangeEvent}
    (place : unrouted gateway.matching = event :: events) (after : unrouted next.matching = events)
    (exchange : next.exchange = gateway.exchange) (queue : next.queue = gateway.queue) (io : next.io = gateway.io)
    (owner : ∀ key, next.orderOwner key ≠ none → ∃ before, gateway.orderOwner before ≠ none ∧
      keyAfter before event = some key ∧ ∀ rejection, event = .orderRejected rejection →
        before = ⟨rejection.accountId, rejection.clientOrderId⟩ → gateway.Held before) : Bounded next := by
  have quiet := bounded.quiet
  have entries := bounded.entries
  rw [place] at quiet entries
  refine ⟨exchange ▸ bounded.sound, exchange ▸ bounded.holds, ?_, ?_, ?_⟩
  · rw [after]
    exact fun other member => quiet other (List.mem_of_mem_tail member)
  · rw [after]
    intro key left survives moved
    exact absurd (keyAfterAll_stays (fun other member => (quiet other member).1) survives) moved
  · rw [after]
    intro key there _ left survives
    obtain ⟨before, owned, here, spared⟩ := owner key there
    have awaited := entries before owned (fun rejection member own => ?_) left (by
      rw [keyAfterAll, here]
      exact survives)
    · unfold Awaited Queued at awaited ⊢
      rw [exchange, queue, io]
      exact awaited
    · rcases List.mem_cons.mp member with same | later
      · exact spared rejection same.symm own
      · exact absurd trivial (quiet _ later).2

end Routing

/-- A step that processes no command and routes no event to its end. -/
theorem Bounded.kept (bounded : Bounded gateway) (exchange : next.exchange = gateway.exchange)
    (unchanged : unrouted next.matching = unrouted gateway.matching)
    (entries : ∀ key, next.orderOwner key ≠ none → gateway.orderOwner key ≠ none ∧
      ∀ left, gateway.Awaited left → keyAfterAll key (unrouted gateway.matching) = some left → next.Awaited left) :
    Bounded next := by
  refine ⟨exchange ▸ bounded.sound, exchange ▸ bounded.holds, unchanged ▸ bounded.quiet, ?_, ?_⟩
  · rw [unchanged, exchange]
    exact bounded.moves
  · rw [unchanged]
    intro key there spared left survives
    obtain ⟨owned, follows⟩ := entries key there
    refine follows left (bounded.entries key owned (fun rejection member own => ?_) left survives) survives
    have held := spared rejection member own
    unfold Held at held ⊢
    rwa [exchange] at held

/-- A step that leaves the queue alone as well, and the table its entries, and no claim is on its way. -/
theorem Bounded.moved (bounded : Bounded gateway) (exchange : next.exchange = gateway.exchange)
    (unchanged : unrouted next.matching = unrouted gateway.matching) (queue : next.queue = gateway.queue)
    (owner : ∀ key, next.orderOwner key ≠ none → gateway.orderOwner key ≠ none)
    (io : next.io = gateway.io ∨ ∀ session command, gateway.io ≠ .submitting session command true) : Bounded next := by
  refine bounded.kept exchange unchanged fun key there => ⟨owner key there, fun left awaited _ => ?_⟩
  unfold Awaited Queued at awaited ⊢
  rw [exchange, queue]
  rcases awaited with rests | queued | ⟨session, command, place, about⟩
  · exact Or.inl rests
  · exact Or.inr (Or.inl queued)
  · rcases io with same | elsewhere
    · exact Or.inr (Or.inr ⟨session, command, same.trans place, about⟩)
    · exact absurd place (elsewhere session command)

/-- The order a command is about has the key its request claims. -/
theorem subject_sequenced (sequencer : CommandSequencer) (command : ExchangeCommand) :
    subject (sequencer.sequence command).1 = claimedKey command := by
  cases command <;> rfl

/-- A command taken up whole keeps the table's orders live or awaited. -/
theorem Bounded.processNext (bounded : Bounded gateway) {session : SessionId} {command : ExchangeCommand}
    {queue : List (SessionId × ExchangeCommand)} (place : gateway.matching = .popping)
    (queued : gateway.queue = (session, command) :: queue) (whole : gateway.TakesWhole round command) :
    Bounded (gateway.processNext round session command queue) := by
  have entries := bounded.entries
  rw [place] at entries
  -- What is live or awaited stays so, apart from the order the command is about.
  have others (key : OrderKey) (other : key ≠ claimedKey command) (awaited : gateway.Awaited key) :
      gateway.exchange.engine.Rests key ∨ (gateway.processNext round session command queue).Awaited key := by
    rcases awaited with rests | ⟨entry, member, about⟩ | submits
    · exact Or.inl rests
    · rw [queued] at member
      rcases List.mem_cons.mp member with rfl | later
      · exact absurd about.symm other
      · exact Or.inr (Or.inr (Or.inl ⟨entry, later, about⟩))
    · exact Or.inr (Or.inr (Or.inr submits))
  have sound := RiskGatedEngine.process_sound round bounded.sound (gateway.sequencer.sequence command).1
  have holds := RiskGatedEngine.process_holdsRest round bounded.sound bounded.holds _ whole
  rcases RiskGatedEngine.process_endsTold round bounded.sound _ whole with turned | ⟨told, _⟩
  · obtain ⟨rejection, events, named⟩ := turned.events
    rw [subject_sequenced] at named
    have emitted : unrouted (gateway.processNext round session command queue).matching = [.orderRejected rejection] :=
      events
    refine ⟨sound, holds, ?_, ?_, ?_⟩
    · rw [emitted]
      nofun
    · rw [emitted]
      intro key left survives moved
      exact absurd (Option.some.inj survives).symm moved
    · rw [emitted]
      intro key there spared left survives
      obtain rfl : key = left := Option.some.inj survives
      by_cases own : key = claimedKey command
      · have held := spared rejection List.mem_cons_self (own.trans named.symm)
        exact Or.inl (holds.found held)
      · rcases others key own (entries key there nofun key rfl) with ⟨entry, member, same⟩ | awaited
        · exact Or.inl ⟨entry, turned.resting.symm ▸ member, same⟩
        · exact awaited
  · obtain ⟨event, later, events, accepts, _, replaced, quiet⟩ := told.first
    have emitted : unrouted (gateway.processNext round session command queue).matching = event :: later := events
    have rests := told.rests
    rw [subject_sequenced] at replaced rests
    rw [events] at rests
    -- Only the order the command is about moves to another key.
    have stays (key left : OrderKey) (other : key ≠ claimedKey command)
        (survives : keyAfterAll key (event :: later) = some left) : left = key := by
      obtain ⟨between, here, after⟩ := Option.bind_eq_some_iff.mp survives
      have same : between = key := by
        refine keyAfter_stays (fun moved first own => other ?_) here
        exact own.trans (replaced moved first).symm
      rw [same] at after
      exact keyAfterAll_stays (fun event member => (quiet event member).1) after
    refine ⟨sound, holds, ?_, ?_, ?_⟩
    · rw [emitted]
      exact quiet
    · rw [emitted]
      intro key left survives moved
      have own : key = claimedKey command := by_contra fun other => moved (stays key left other survives)
      exact rests key left (Or.inr own) survives
    · rw [emitted]
      intro key there _ left survives
      by_cases own : key = claimedKey command
      · exact Or.inl (rests key left (Or.inr own) survives)
      · rcases others key own (entries key there nofun key rfl) with live | awaited
        · exact Or.inl (rests key left (Or.inl live) survives)
        · rw [stays key left own survives]
          exact awaited

theorem Bounded.claim (bounded : Bounded gateway) {session : SessionId} {command : ExchangeCommand}
    (place : gateway.io = .claiming session command) : Bounded (gateway.claimOrderOwnership session command) := by
  have elsewhere (session : SessionId) (command : ExchangeCommand) : gateway.io ≠ .submitting session command true := by
    rw [place]
    nofun
  unfold claimOrderOwnership
  dsimp only
  cases claimed : gateway.orderOwner (claimedKey command) with
  | some _ => exact bounded.moved rfl rfl rfl (fun _ there => there) (Or.inr elsewhere)
  | none =>
    have others : Bounded { gateway with io := .submitting session command true } :=
      bounded.moved rfl rfl rfl (fun _ there => there) (Or.inr elsewhere)
    refine ⟨others.sound, others.holds, others.quiet, others.moves, fun key there spared left survives => ?_⟩
    dsimp only at there
    by_cases own : key = claimedKey command
    · by_cases same : left = key
      · exact Or.inr (Or.inr ⟨session, command, rfl, (same.trans own).symm⟩)
      · exact Or.inl (bounded.moves key left survives same)
    · exact others.entries key (by rwa [Function.update_of_ne own] at there) spared left survives

/-- A request that is handed on, or whose entry has no need of it. -/
theorem Bounded.submit (bounded : Bounded gateway) {session : SessionId} {command : ExchangeCommand} {claimed : Bool}
    (place : gateway.io = .submitting session command claimed)
    (holds : claimed = true → gateway.ClaimHolds command) : Bounded (gateway.submitCommand session command claimed) := by
  unfold submitCommand
  dsimp only
  split_ifs with full
  · refine bounded.kept rfl rfl fun key there => ⟨there, fun left awaited survives => ?_⟩
    rcases awaited with rests | queued | ⟨_, _, submits, about⟩
    · exact Or.inl rests
    · exact Or.inr (Or.inl queued)
    · -- The dropped request had left the entry: the order is live or another request is about it.
      rw [place] at submits
      cases submits
      rcases holds rfl with room | gone | rests | queued
      · exact absurd full room.not_ge
      · have moved : left ≠ key := by
          rintro rfl
          exact there (about ▸ gone)
        exact Or.inl (bounded.moves key left survives moved)
      · exact Or.inl (about ▸ rests)
      · exact Or.inr (Or.inl (about ▸ queued))
  · refine bounded.kept rfl rfl fun key there => ⟨there, fun left awaited survives => ?_⟩
    rcases awaited with rests | ⟨entry, member, about⟩ | ⟨_, _, submits, about⟩
    · exact Or.inl rests
    · exact Or.inr (Or.inl ⟨entry, List.mem_append_left _ member, about⟩)
    · rw [place] at submits
      cases submits
      exact Or.inr (Or.inl ⟨(session, command), List.mem_append_right _ (List.mem_singleton_self _), about⟩)

/-- What the conditions of the two threads say of a step. -/
theorem LeavesNoEntry.of_step {action : GatewayAction} (stepped : gateway.step round action = some next)
    (clear : gateway.LeavesNoEntry round action) :
    (∀ session command, gateway.io = .submitting session command true → next.io = gateway.io ∨ gateway.ClaimHolds command) ∧
      ∀ session command queue, gateway.matching = .popping → gateway.queue = (session, command) :: queue →
        next.dequeued = gateway.dequeued ∨ gateway.TakesWhole round command := by
  constructor
  · intro session command place
    cases action with
    | matching => exact Or.inl (matchingStep_leaves stepped).1
    | io =>
      simp only [LeavesNoEntry, place] at clear
      exact Or.inr clear
    | accept | receive | hangUp | popOutbound =>
      simp [OrderEntryGateway.step, place] at stepped
  · intro session command queue place queued
    by_cases matching : action = .matching
    · subst matching
      simp only [LeavesNoEntry, place, queued] at clear
      exact Or.inr clear
    · exact Or.inl (step_dequeued matching stepped)

/-- Every step that leaves no entry behind keeps the table's orders live or awaited. -/
theorem Bounded.step (bounded : Bounded gateway) {action : GatewayAction}
    (stepped : gateway.step round action = some next) (clear : gateway.LeavesNoEntry round action) : Bounded next := by
  obtain ⟨claims, takes⟩ := clear.of_step round stepped
  have still (key : OrderKey) (there : gateway.orderOwner key ≠ none) : gateway.orderOwner key ≠ none := there
  have apart {place : IoPlace} (at_ : gateway.io = place) (other : ∀ session command, place ≠ .submitting session command true) :
      next.io = gateway.io ∨ ∀ session command, gateway.io ≠ .submitting session command true :=
    Or.inr fun session command => at_ ▸ other session command
  cases step_move stepped with
  | accept waits => exact bounded.moved rfl rfl rfl still (apart waits nofun)
  | receive session chunk waits isOpen => exact bounded.moved rfl rfl rfl still (apart waits nofun)
  | hangUp session waits isOpen => exact bounded.moved rfl rfl rfl still (apart waits nofun)
  | popOutbound session waits isOpen =>
    unfold OrderEntryGateway.popOutbound
    dsimp only
    split
    case h_4 => exact bounded
    all_goals exact bounded.moved rfl rfl rfl still (Or.inl rfl)
  | frameDone session place => exact bounded.moved rfl rfl rfl still (apart place nofun)
  | frameSkipped session rest place => exact bounded.moved rfl rfl rfl still (Or.inl rfl)
  | request session command rest place => exact bounded.moved rfl rfl rfl still (apart place nofun)
  | bind session command place free => exact bounded.moved rfl rfl rfl still (apart place nofun)
  | reject session command place =>
    unfold rejectAccountMismatch
    dsimp only
    split_ifs <;> exact bounded.moved rfl rfl rfl still (Or.inr fun _ _ => by rw [place]; nofun)
  | claim session command place free => exact bounded.claim place
  | submit session command claimed place =>
    refine bounded.submit place fun new => ?_
    subst new
    refine (claims session command place).resolve_left ?_
    rw [place]
    unfold submitCommand
    dsimp only
    split_ifs <;> nofun
  | unbind session place free =>
    unfold unbindSession
    split
    · exact bounded.moved rfl rfl rfl still (Or.inr fun _ _ => by rw [place]; nofun)
    · refine bounded.moved rfl rfl rfl (fun key there gone => there ?_) (Or.inr fun _ _ => by rw [place]; nofun)
      dsimp only
      rw [gone]
      exact if_neg nofun
  | processNext session command queue place queued =>
    refine bounded.processNext round place queued ((takes session command queue place queued).resolve_left fun same => ?_)
    have longer : gateway.dequeued ++ [(session, command)] = gateway.dequeued := same
    simp at longer
  | routed place => exact bounded.moved rfl (by rw [place]; rfl) rfl still (Or.inl rfl)
  | silent event events place none =>
    refine bounded.routed (by rw [place]; rfl) rfl rfl rfl rfl fun key there => ⟨key, there, ?_, ?_⟩
    · cases event with
      | bookOrderAdded | bookOrderReduced | bookOrderRemoved => rfl
      | orderAccepted | orderRejected | orderCancelled | orderReplaced | tradeExecuted => cases none
    · rintro rejection rfl
      cases none
  | lock event events place => exact bounded.moved rfl (by rw [place]; rfl) rfl still (Or.inl rfl)
  | unlock event events place =>
    exact bounded.routed (by rw [place]; rfl) rfl rfl rfl rfl fun key there => ownershipAfter_came there
  | target key message reports event events session place resolved =>
    exact bounded.moved rfl (by rw [place]; rfl) rfl still (Or.inl rfl)
  | retain key message reports event events place resolved =>
    unfold OrderEntryGateway.retain
    dsimp only
    split_ifs <;> exact bounded.moved rfl (by rw [place]; rfl) rfl still (Or.inl rfl)
  | push session message reports event events place =>
    unfold OrderEntryGateway.deliver
    dsimp only
    split_ifs <;> exact bounded.moved rfl (by rw [place]; rfl) rfl still (Or.inl rfl)

section Runs
variable {options : OrderEntryGatewayOptions} {limits : RiskLimits} {instruments : List InstrumentId}
  {deposits : List Deposit}

theorem start_bounded : Bounded (start round options limits instruments deposits) where
  sound := make_sound instruments
  holds := start_holdsRest round limits instruments deposits
  quiet := nofun
  moves := fun _ _ survives moved => absurd (Option.some.inj survives).symm moved
  entries := fun _ there => absurd rfl there

/-- In a run none of whose steps leaves an entry behind, the table names live orders only, whenever
every command has been processed and its events routed. -/
theorem ownership_bounded {actions : List GatewayAction}
    (ran : Transitions.run (step round) (start round options limits instruments deposits) actions = some gateway)
    (clear : Transitions.Throughout (step round) (LeavesNoEntry round)
      (start round options limits instruments deposits) actions) (settled : gateway.Settled) : gateway.NamesLiveOrders := by
  have kept := Transitions.run_rule
    (fun actions state => Transitions.Throughout (step round) (LeavesNoEntry round)
      (start round options limits instruments deposits) actions → Bounded state)
    (fun _ => start_bounded round) (fun actions state action next reached before stepped every => ?_) ran
  · exact (kept clear).namesLiveOrders settled
  · obtain ⟨earlier, here⟩ := (Transitions.throughout_concat reached).mp every
    exact (before earlier).step round stepped here

end Runs

/-- A session sends a request, which is read, and the matching thread takes so many steps. -/
def sendsRequest (frame : List UInt8) (steps : Nat) : List GatewayAction :=
  [.accept, .receive 1 frame] ++ List.replicate 5 .io ++ List.replicate steps .matching

/-- An order that is good till cancelled and rests. -/
theorem ownership_bounded_resting :
    ∃ gateway, Transitions.run (step .machine) (start .machine {} {} [3] [.cash 7 1000])
        (sendsRequest (newOrderFrame 7 5 3 .buy 10 1) 7) = some gateway ∧
      gateway.orderOwner ⟨7, 5⟩ = some 1 ∧ gateway.NamesLiveOrders := by
  have comes : (Transitions.run (step .machine) (start .machine {} {} [3] [.cash 7 1000])
      (sendsRequest (newOrderFrame 7 5 3 .buy 10 1) 7)).map
      (fun gateway => (gateway.queue, gateway.matching, gateway.io, gateway.orderOwner ⟨7, 5⟩)) =
        some ([], .popping, .waiting, some 1) := by
    decide +kernel
  have clear : Transitions.checkThroughout (step .machine) (LeavesNoEntry .machine)
      (start .machine {} {} [3] [.cash 7 1000]) (sendsRequest (newOrderFrame 7 5 3 .buy 10 1) 7) = true := by
    decide +kernel
  obtain ⟨gateway, ran, seen⟩ := Option.map_eq_some_iff.mp comes
  obtain ⟨queue, seen⟩ := Prod.mk.inj seen
  obtain ⟨place, seen⟩ := Prod.mk.inj seen
  obtain ⟨idle, owner⟩ := Prod.mk.inj seen
  have settled : gateway.Settled := ⟨queue, place, fun session command => by rw [idle]; nofun⟩
  exact ⟨gateway, ran, owner, ownership_bounded .machine ran (Transitions.throughout_of_check clear) settled⟩

/-- A new limit order, immediate or cancel, as a client sends it. -/
def immediateOrderFrame (accountId : AccountId) (clientOrderId : ClientOrderId) (instrumentId : InstrumentId)
    (side : Side) (price : Int) (quantity : Nat) : List UInt8 :=
  ByteIo.putU8 1 ++ ByteIo.putU16 39 ++ ByteIo.putU64 accountId ++ ByteIo.putU64 clientOrderId ++
    ByteIo.putU32 instrumentId ++ ByteIo.putU8 side.code ++ ByteIo.putI64 price ++ ByteIo.putU64 quantity ++
    ByteIo.putU8 Core.OrderType.limit.code ++ ByteIo.putU8 TimeInForce.ioc.code

/-- An order that is immediate or cancel and finds nothing in the book is accepted and discarded.
No event tells its end, and its entry stays. -/
theorem discarded_order_keeps_entry :
    ∃ gateway, Transitions.run (step .machine) (start .machine {} {} [3] [.cash 7 1000])
        (sendsRequest (immediateOrderFrame 7 5 3 .buy 10 1) 6) = some gateway ∧
      gateway.Settled ∧ gateway.exchange.engine.resting = [] ∧ gateway.orderOwner ⟨7, 5⟩ = some 1 ∧
      ¬ gateway.NamesLiveOrders := by
  have comes : (Transitions.run (step .machine) (start .machine {} {} [3] [.cash 7 1000])
        (sendsRequest (immediateOrderFrame 7 5 3 .buy 10 1) 6)).map
      (fun gateway => (gateway.queue, gateway.matching, gateway.io, gateway.exchange.engine.resting.isEmpty,
        gateway.orderOwner ⟨7, 5⟩)) = some ([], .popping, .waiting, true, some 1) := by
    decide +kernel
  obtain ⟨gateway, ran, seen⟩ := Option.map_eq_some_iff.mp comes
  obtain ⟨queue, seen⟩ := Prod.mk.inj seen
  obtain ⟨place, seen⟩ := Prod.mk.inj seen
  obtain ⟨idle, seen⟩ := Prod.mk.inj seen
  obtain ⟨none, owner⟩ := Prod.mk.inj seen
  have empty : gateway.exchange.engine.resting = [] := List.isEmpty_iff.mp none
  refine ⟨gateway, ran, ⟨queue, place, fun session command => by rw [idle]; nofun⟩, empty, owner, fun names => ?_⟩
  obtain ⟨entry, member, _⟩ := names _ _ owner
  rw [empty] at member
  cases member

end Mdh.Gateway.OrderEntryGateway
