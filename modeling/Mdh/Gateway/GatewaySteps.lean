import Mdh.Gateway.OrderEntryGateway

/-! All that one step of the gateway can do. -/

namespace Mdh.Gateway.OrderEntryGateway
open Mdh.Core Mdh.Lib Mdh.Risk

section Updates
variable (gateway : OrderEntryGateway) (session other : SessionId) (connection : Connection)

@[simp] theorem setConnection_self : (gateway.setConnection session connection).connections session = connection :=
  Function.update_self ..

@[simp] theorem setConnection_other (different : other ≠ session) :
    (gateway.setConnection session connection).connections other = gateway.connections other :=
  Function.update_of_ne different ..

/-- A property of every connection holds after one of them has changed. -/
theorem setConnection_forall (holds : SessionId → Connection → Prop) (here : holds session connection)
    (others : ∀ other ≠ session, holds other (gateway.connections other)) (any : SessionId) :
    holds any ((gateway.setConnection session connection).connections any) := by
  by_cases same : any = session
  · rw [same, setConnection_self]
    exact here
  · rw [setConnection_other _ _ _ _ same]
    exact others any same

/-- What the changed connection keeps, every connection keeps. -/
theorem setConnection_keeps {β : Type} (field : Connection → β)
    (same : field connection = field (gateway.connections session)) (any : SessionId) :
    field ((gateway.setConnection session connection).connections any) = field (gateway.connections any) :=
  setConnection_forall gateway session connection (fun any changed => field changed = field (gateway.connections any))
    same (fun _ _ => rfl) any

end Updates

/-- The steps, by what they do. -/
inductive Move (round : Rounding) (gateway : OrderEntryGateway) : OrderEntryGateway → Prop where
  | accept (waits : gateway.io = .waiting) : Move round gateway gateway.acceptReady
  | receive (session : SessionId) (chunk : List UInt8) (waits : gateway.io = .waiting) (isOpen : gateway.isOpen session) :
      Move round gateway
        { gateway.setConnection session { gateway.connections session with
            readBuffer := (gateway.connections session).readBuffer ++ chunk } with
          io := .framing session }
  | hangUp (session : SessionId) (waits : gateway.io = .waiting) (isOpen : gateway.isOpen session) :
      Move round gateway (gateway.closeConnection session)
  | popOutbound (session : SessionId) (waits : gateway.io = .waiting) (isOpen : gateway.isOpen session) :
      Move round gateway (gateway.popOutbound session)
  | frameDone (session : SessionId) (place : gateway.io = .framing session) :
      Move round gateway { gateway with io := .waiting }
  | frameSkipped (session : SessionId) (rest : List UInt8) (place : gateway.io = .framing session) :
      Move round gateway
        (gateway.setConnection session { gateway.connections session with readBuffer := rest })
  | request (session : SessionId) (command : ExchangeCommand) (rest : List UInt8)
      (place : gateway.io = .framing session) : Move round gateway (gateway.request session command rest)
  | bind (session : SessionId) (command : ExchangeCommand) (place : gateway.io = .binding session command)
      (free : gateway.sessionsFree) : Move round gateway (gateway.bindSession session command)
  | reject (session : SessionId) (command : ExchangeCommand) (place : gateway.io = .rejecting session command) :
      Move round gateway (gateway.rejectAccountMismatch session command)
  | claim (session : SessionId) (command : ExchangeCommand) (place : gateway.io = .claiming session command)
      (free : gateway.sessionsFree) : Move round gateway (gateway.claimOrderOwnership session command)
  | submit (session : SessionId) (command : ExchangeCommand) (claimed : Bool)
      (place : gateway.io = .submitting session command claimed) :
      Move round gateway (gateway.submitCommand session command claimed)
  | unbind (session : SessionId) (place : gateway.io = .unbinding session) (free : gateway.sessionsFree) :
      Move round gateway (gateway.unbindSession session)
  | processNext (session : SessionId) (command : ExchangeCommand) (queue : List (SessionId × ExchangeCommand))
      (place : gateway.matching = .popping) (queued : gateway.queue = (session, command) :: queue) :
      Move round gateway (gateway.processNext round session command queue)
  | routed (place : gateway.matching = .routing []) : Move round gateway { gateway with matching := .popping }
  | silent (event : ExchangeEvent) (events : List ExchangeEvent) (place : gateway.matching = .routing (event :: events))
      (none : toExecutionReports event = []) : Move round gateway { gateway with matching := .routing events }
  | lock (event : ExchangeEvent) (events : List ExchangeEvent) (place : gateway.matching = .routing (event :: events)) :
      Move round gateway { gateway with matching := .delivering (toExecutionReports event) event events }
  | unlock (event : ExchangeEvent) (events : List ExchangeEvent) (place : gateway.matching = .delivering [] event events) :
      Move round gateway { gateway with orderOwner := gateway.ownershipAfter event, matching := .routing events }
  | target (key : OrderKey) (message : Message) (reports : List (OrderKey × Message)) (event : ExchangeEvent)
      (events : List ExchangeEvent) (session : SessionId)
      (place : gateway.matching = .delivering ((key, message) :: reports) event events)
      (resolved : gateway.resolve key = some session) :
      Move round gateway { gateway with
        history := gateway.history ++ [.generated message]
        matching := .pushing session message reports event events }
  | retain (key : OrderKey) (message : Message) (reports : List (OrderKey × Message)) (event : ExchangeEvent)
      (events : List ExchangeEvent) (place : gateway.matching = .delivering ((key, message) :: reports) event events)
      (resolved : gateway.resolve key = none) :
      Move round gateway
        { ({ gateway with history := gateway.history ++ [.generated message] } : OrderEntryGateway).retain
            key.accountId message with
          matching := .delivering reports event events }
  | push (session : SessionId) (message : Message) (reports : List (OrderKey × Message)) (event : ExchangeEvent)
      (events : List ExchangeEvent) (place : gateway.matching = .pushing session message reports event events) :
      Move round gateway { gateway.deliver session message with matching := .delivering reports event events }

section Cases
variable {round : Rounding} {gateway next : OrderEntryGateway}

theorem ioStep_move (stepped : gateway.ioStep = some next) : Move round gateway next := by
  unfold ioStep at stepped
  split at stepped
  next => cases stepped
  next session place =>
    cases stepped
    unfold readFrame
    dsimp only
    split
    · exact .frameDone session place
    · split
      · exact .frameSkipped session _ place
      · exact .request session _ _ place
  next session command place =>
    split_ifs at stepped with free
    cases stepped
    exact .bind session command place free
  next session command place =>
    cases stepped
    exact .reject session command place
  next session command place =>
    split_ifs at stepped with free
    cases stepped
    exact .claim session command place free
  next session command claimed place =>
    cases stepped
    exact .submit session command claimed place
  next session place =>
    split_ifs at stepped with free
    cases stepped
    exact .unbind session place free

theorem matchingStep_move (stepped : gateway.matchingStep round = some next) : Move round gateway next := by
  unfold matchingStep at stepped
  split at stepped
  next place =>
    split at stepped
    next => cases stepped
    next session command queue queued =>
      cases stepped
      exact .processNext session command queue place queued
  next place =>
    cases stepped
    exact .routed place
  next event events place =>
    split at stepped
    next none =>
      cases stepped
      exact .silent event events place none
    next =>
      cases stepped
      exact .lock event events place
  next event events place =>
    cases stepped
    exact .unlock event events place
  next key message reports event events place =>
    dsimp only at stepped
    split at stepped
    next session resolved =>
      cases stepped
      exact .target key message reports event events session place resolved
    next resolved =>
      cases stepped
      exact .retain key message reports event events place resolved
  next session message reports event events place =>
    cases stepped
    exact .push session message reports event events place

theorem step_move {action : GatewayAction} (stepped : gateway.step round action = some next) :
    Move round gateway next := by
  cases action with
  | accept =>
    rw [step] at stepped
    split_ifs at stepped with waits
    cases stepped
    exact .accept waits
  | receive session chunk =>
    simp only [step] at stepped
    split_ifs at stepped with ready
    cases stepped
    exact .receive session chunk ready.1 ready.2
  | hangUp session =>
    rw [step] at stepped
    split_ifs at stepped with ready
    cases stepped
    exact .hangUp session ready.1 ready.2
  | popOutbound session =>
    rw [step] at stepped
    split_ifs at stepped with ready
    cases stepped
    exact .popOutbound session ready.1 ready.2
  | io => exact ioStep_move stepped
  | matching => exact matchingStep_move stepped

/-- What the matching thread leaves alone. -/
theorem matchingStep_leaves (stepped : gateway.matchingStep round = some next) :
    next.io = gateway.io ∧ next.handled = gateway.handled := by
  unfold matchingStep at stepped
  split at stepped
  next =>
    split at stepped
    · cases stepped
    · cases stepped
      exact ⟨rfl, rfl⟩
  next =>
    cases stepped
    exact ⟨rfl, rfl⟩
  next => split at stepped <;> cases stepped <;> exact ⟨rfl, rfl⟩
  next =>
    cases stepped
    exact ⟨rfl, rfl⟩
  next =>
    dsimp only at stepped
    split at stepped
    · cases stepped
      exact ⟨rfl, rfl⟩
    · cases stepped
      unfold OrderEntryGateway.retain
      dsimp only
      split_ifs <;> exact ⟨rfl, rfl⟩
  next =>
    cases stepped
    unfold OrderEntryGateway.deliver
    dsimp only
    split_ifs <;> exact ⟨rfl, rfl⟩

/-- Only the matching thread takes up commands. -/
theorem step_dequeued {action : GatewayAction} (other : action ≠ .matching)
    (stepped : gateway.step round action = some next) : next.dequeued = gateway.dequeued := by
  cases action with
  | matching => exact absurd rfl other
  | accept =>
    rw [step] at stepped
    split_ifs at stepped
    cases stepped
    rfl
  | receive session chunk =>
    simp only [step] at stepped
    split_ifs at stepped
    cases stepped
    rfl
  | hangUp session =>
    rw [step] at stepped
    split_ifs at stepped
    cases stepped
    rfl
  | popOutbound session =>
    rw [step] at stepped
    split_ifs at stepped
    cases stepped
    unfold OrderEntryGateway.popOutbound
    dsimp only
    split <;> rfl
  | io =>
    simp only [step, ioStep] at stepped
    split at stepped
    next => cases stepped
    next session place =>
      cases stepped
      unfold readFrame
      dsimp only
      split
      · rfl
      · split <;> rfl
    next =>
      split_ifs at stepped
      cases stepped
      rfl
    next =>
      cases stepped
      unfold rejectAccountMismatch
      dsimp only
      split_ifs <;> rfl
    next =>
      split_ifs at stepped
      cases stepped
      unfold claimOrderOwnership
      dsimp only
      split <;> rfl
    next =>
      cases stepped
      unfold submitCommand
      dsimp only
      split_ifs <;> rfl
    next =>
      split_ifs at stepped
      cases stepped
      unfold unbindSession
      split <;> rfl

/-- The exchange changes only as a command is popped and processed. -/
theorem Move.processes (move : Move round gateway next) :
    (next.exchange = gateway.exchange ∧ next.sequencer = gateway.sequencer ∧ next.dequeued = gateway.dequeued) ∨
      ∃ session command queue, next = gateway.processNext round session command queue := by
  cases move with
  | processNext session command queue => exact Or.inr ⟨session, command, queue, rfl⟩
  | popOutbound session waits isOpen =>
    unfold OrderEntryGateway.popOutbound
    dsimp only
    split <;> exact Or.inl ⟨rfl, rfl, rfl⟩
  | reject session command place =>
    unfold rejectAccountMismatch
    dsimp only
    split_ifs <;> exact Or.inl ⟨rfl, rfl, rfl⟩
  | claim session command place free =>
    unfold claimOrderOwnership
    dsimp only
    split <;> exact Or.inl ⟨rfl, rfl, rfl⟩
  | submit session command claimed place =>
    unfold submitCommand
    dsimp only
    split_ifs <;> exact Or.inl ⟨rfl, rfl, rfl⟩
  | unbind session place free =>
    unfold unbindSession
    split <;> exact Or.inl ⟨rfl, rfl, rfl⟩
  | retain key message reports event events place resolved =>
    unfold OrderEntryGateway.retain
    dsimp only
    split_ifs <;> exact Or.inl ⟨rfl, rfl, rfl⟩
  | push session message reports event events place =>
    unfold OrderEntryGateway.deliver
    dsimp only
    split_ifs <;> exact Or.inl ⟨rfl, rfl, rfl⟩
  | accept | receive | hangUp | frameDone | frameSkipped | request | bind | routed | silent | lock | unlock | target =>
    exact Or.inl ⟨rfl, rfl, rfl⟩

/-- The options never change. -/
theorem Move.options (move : Move round gateway next) : next.options = gateway.options := by
  cases move with
  | popOutbound session waits isOpen =>
    unfold OrderEntryGateway.popOutbound
    dsimp only
    split <;> rfl
  | reject session command place =>
    unfold rejectAccountMismatch
    dsimp only
    split_ifs <;> rfl
  | claim session command place free =>
    unfold claimOrderOwnership
    dsimp only
    split <;> rfl
  | submit session command claimed place =>
    unfold submitCommand
    dsimp only
    split_ifs <;> rfl
  | unbind session place free =>
    unfold unbindSession
    split <;> rfl
  | retain key message reports event events place resolved =>
    unfold OrderEntryGateway.retain
    dsimp only
    split_ifs <;> rfl
  | push session message reports event events place =>
    unfold OrderEntryGateway.deliver
    dsimp only
    split_ifs <;> rfl
  | accept | receive | hangUp | frameDone | frameSkipped | request | bind | processNext | routed | silent | lock | unlock
  | target => rfl

/-- The rule for runs of the gateway: what every move keeps. -/
theorem run_rule (holds : OrderEntryGateway → Prop) {actions : List GatewayAction} {start : OrderEntryGateway}
    (kept : ∀ gateway next, holds gateway → Move round gateway next → holds next) (initially : holds start)
    (ran : Transitions.run (step round) start actions = some gateway) : holds gateway :=
  Transitions.run_rule (fun _ state => holds state) initially
    (fun _ state _ next _ before stepped => kept state next before (step_move stepped)) ran

end Cases

end Mdh.Gateway.OrderEntryGateway
