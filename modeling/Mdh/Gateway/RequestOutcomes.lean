import Mdh.Gateway.AccountIsolation

/-! What becomes of a request. Every one that is decoded is admitted, answered with a
rejection, or lost; it is lost when the pipeline's queue is full as it is submitted. -/

namespace Mdh.Gateway.OrderEntryGateway
open Mdh.Core Mdh.Lib Mdh.Risk

variable {round : Rounding} {gateway next : OrderEntryGateway}

/-- The request the I/O thread is at. -/
def inProgress : IoPlace → SessionId → List ExchangeCommand
  | .waiting, _ | .framing _, _ | .unbinding _, _ => []
  | .binding session command, other | .rejecting session command, other | .claiming session command, other
  | .submitting session command _, other => if session = other then [command] else []

/-- The requests of a session whose handling is over. -/
def handledFor (gateway : OrderEntryGateway) (session : SessionId) : List Handled :=
  gateway.handled.filter fun request => request.session = session

/-- Each request a session sent is handled once, in the order sent. Those admitted are what the
pipeline got, those rejected are what the session is told. -/
structure Accounted (gateway : OrderEntryGateway) : Prop where
  requests : ∀ session, (gateway.connections session).requests =
    (gateway.handledFor session).map Handled.command ++ inProgress gateway.io session
  admitted : gateway.dequeued ++ gateway.queue =
    (gateway.handled.filter Handled.admitted).map fun request => (request.session, request.command)
  replies : ∀ session, (gateway.connections session).takenReplies ++ (gateway.connections session).sessionOutbound =
    ((gateway.handledFor session).filter Handled.rejectionQueued).map fun request => accountMismatch request.command

/-- A step that handles no request. -/
theorem Accounted.kept (accounted : Accounted gateway)
    (requests : ∀ session, (next.connections session).requests = (gateway.connections session).requests)
    (replies : ∀ session, (next.connections session).takenReplies ++ (next.connections session).sessionOutbound =
      (gateway.connections session).takenReplies ++ (gateway.connections session).sessionOutbound)
    (handled : next.handled = gateway.handled) (io : inProgress next.io = inProgress gateway.io)
    (queue : next.dequeued ++ next.queue = gateway.dequeued ++ gateway.queue) : Accounted next := by
  have same : next.handledFor = gateway.handledFor := by
    unfold handledFor
    rw [handled]
  refine ⟨fun session => ?_, ?_, fun session => ?_⟩
  · rw [requests, same, io]
    exact accounted.requests session
  · rw [queue, handled]
    exact accounted.admitted
  · rw [replies, same]
    exact accounted.replies session

/-- The step that ends the handling of a request. -/
theorem Accounted.settles (accounted : Accounted gateway) {request : Handled}
    (place : ∀ session, inProgress gateway.io session = if request.session = session then [request.command] else [])
    (io : ∀ session, inProgress next.io session = [])
    (handled : next.handled = gateway.handled ++ [request])
    (requests : ∀ session, (next.connections session).requests = (gateway.connections session).requests)
    (queue : next.dequeued ++ next.queue = gateway.dequeued ++ gateway.queue ++
      if request.admitted then [(request.session, request.command)] else [])
    (replies : ∀ session, (next.connections session).takenReplies ++ (next.connections session).sessionOutbound =
      (gateway.connections session).takenReplies ++ (gateway.connections session).sessionOutbound ++
        if request.session = session ∧ request.rejectionQueued then [accountMismatch request.command] else []) :
    Accounted next := by
  have grown : ∀ session, next.handledFor session =
      gateway.handledFor session ++ if request.session = session then [request] else [] := by
    intro session
    unfold handledFor
    rw [handled, List.filter_append]
    congr 1
    by_cases same : request.session = session <;> simp [same]
  refine ⟨fun session => ?_, ?_, fun session => ?_⟩
  · rw [requests, accounted.requests, place, io, grown, List.append_nil, List.map_append]
    congr 1
    split_ifs <;> rfl
  · rw [queue, accounted.admitted, handled, List.filter_append, List.map_append]
    congr 1
    cases admitted : request.admitted <;> simp [admitted]
  · rw [replies, accounted.replies, grown, List.filter_append, List.map_append]
    congr 1
    by_cases same : request.session = session <;> cases queued : request.rejectionQueued <;> simp [same, queued]

theorem Accounted.popOutbound (accounted : Accounted gateway) (session : SessionId) :
    Accounted (gateway.popOutbound session) := by
  unfold OrderEntryGateway.popOutbound
  dsimp only
  split
  next message rest _ =>
    exact accounted.kept (setConnection_keeps gateway session _ Connection.requests rfl)
      (setConnection_keeps gateway session _ (fun connection => connection.takenReplies ++ connection.sessionOutbound) rfl)
      rfl rfl rfl
  next message rest _ replies =>
    refine accounted.kept (setConnection_keeps gateway session _ Connection.requests rfl)
      (setConnection_keeps gateway session _ (fun connection => connection.takenReplies ++ connection.sessionOutbound) ?_)
      rfl rfl rfl
    simp only [replies, List.append_assoc, List.singleton_append]
  next message rest _ _ _ =>
    exact accounted.kept (setConnection_keeps gateway session _ Connection.requests rfl)
      (setConnection_keeps gateway session _ (fun connection => connection.takenReplies ++ connection.sessionOutbound) rfl)
      rfl rfl rfl
  next => exact accounted

theorem Accounted.request (accounted : Accounted gateway) {session : SessionId} (place : gateway.io = .framing session)
    (command : ExchangeCommand) (rest : List UInt8) : Accounted (gateway.request session command rest) := by
  have reached : ∀ other, inProgress (gateway.request session command rest).io other =
      if session = other then [command] else [] := by
    intro other
    unfold OrderEntryGateway.request
    dsimp only
    cases (gateway.connections session).accountId with
    | none => rfl
    | some accountId =>
      dsimp only
      by_cases mismatch : accountId ≠ command.accountId
      · rw [if_pos mismatch]
        rfl
      · rw [if_neg mismatch]
        rfl
  refine ⟨fun other => ?_, accounted.admitted, fun other => ?_⟩
  · have before := accounted.requests other
    rw [place] at before
    have plain : (gateway.connections other).requests = (gateway.handledFor other).map Handled.command :=
      before.trans (List.append_nil _)
    rw [reached]
    show _ = (gateway.handledFor other).map Handled.command ++ _
    rw [← plain]
    by_cases same : session = other
    · subst same
      rw [if_pos rfl]
      exact congrArg Connection.requests (setConnection_self ..)
    · rw [if_neg same, List.append_nil]
      exact congrArg Connection.requests (setConnection_other _ _ _ _ (Ne.symm same))
  · exact (setConnection_keeps gateway session _
      (fun connection => connection.takenReplies ++ connection.sessionOutbound) (by rfl) other).trans
      (accounted.replies other)

theorem Accounted.reject (accounted : Accounted gateway) {session : SessionId} {command : ExchangeCommand}
    (place : gateway.io = .rejecting session command) : Accounted (gateway.rejectAccountMismatch session command) := by
  unfold rejectAccountMismatch
  dsimp only
  split_ifs with full
  · exact accounted.settles (fun other => by rw [place]; rfl) (fun _ => rfl) rfl (fun _ => rfl)
      (List.append_nil _).symm fun other => by simp
  · refine accounted.settles (fun other => by rw [place]; rfl) (fun _ => rfl) rfl
      (setConnection_keeps gateway session _ Connection.requests (by rfl)) (List.append_nil _).symm fun other => ?_
    by_cases same : session = other
    · subst same
      have here := setConnection_self gateway session { gateway.connections session with
        sessionOutbound := (gateway.connections session).sessionOutbound ++ [accountMismatch command] }
      rw [if_pos ⟨rfl, rfl⟩, List.append_assoc]
      exact congrArg (fun connection => connection.takenReplies ++ connection.sessionOutbound) here
    · rw [if_neg fun both => same both.1, List.append_nil]
      exact congrArg (fun connection => connection.takenReplies ++ connection.sessionOutbound)
        (setConnection_other _ _ _ _ (Ne.symm same))

theorem Accounted.submit (accounted : Accounted gateway) {session : SessionId} {command : ExchangeCommand}
    {claimed : Bool} (place : gateway.io = .submitting session command claimed) :
    Accounted (gateway.submitCommand session command claimed) := by
  unfold submitCommand
  dsimp only
  split_ifs with full
  · exact accounted.settles (fun other => by rw [place]; rfl) (fun _ => rfl) rfl (fun _ => rfl)
      (List.append_nil _).symm fun other => by simp
  · exact accounted.settles (fun other => by rw [place]; rfl) (fun _ => rfl) rfl (fun _ => rfl)
      (List.append_assoc ..).symm fun other => by simp

/-- Every step keeps the account of the requests. -/
theorem Accounted.step (accounted : Accounted gateway) (isolated : Isolated gateway) (move : Move round gateway next) :
    Accounted next := by
  cases move with
  | accept waits =>
    have fresh := isolated.unseen _ le_rfl
    exact accounted.kept
      (setConnection_keeps gateway _ _ Connection.requests (by rw [fresh]))
      (setConnection_keeps gateway _ _ (fun connection => connection.takenReplies ++ connection.sessionOutbound)
        (by rw [fresh])) rfl rfl rfl
  | receive session chunk waits isOpen | hangUp session waits isOpen =>
    exact accounted.kept (setConnection_keeps gateway session _ Connection.requests (by rfl))
      (setConnection_keeps gateway session _ (fun connection => connection.takenReplies ++ connection.sessionOutbound)
        (by rfl)) rfl (by rw [waits]; rfl) rfl
  | popOutbound session waits isOpen => exact accounted.popOutbound session
  | frameDone session place => exact accounted.kept (fun _ => rfl) (fun _ => rfl) rfl (by rw [place]; rfl) rfl
  | frameSkipped session rest place =>
    exact accounted.kept (setConnection_keeps gateway session _ Connection.requests (by rfl))
      (setConnection_keeps gateway session _ (fun connection => connection.takenReplies ++ connection.sessionOutbound)
        (by rfl)) rfl rfl rfl
  | request session command rest place => exact accounted.request place command rest
  | bind session command place free =>
    exact accounted.kept (setConnection_keeps gateway session _ Connection.requests (by rfl))
      (setConnection_keeps gateway session _ (fun connection => connection.takenReplies ++ connection.sessionOutbound)
        (by rfl)) rfl (by rw [place]; rfl) rfl
  | reject session command place => exact accounted.reject place
  | claim session command place free =>
    unfold claimOrderOwnership
    dsimp only
    split <;> exact accounted.kept (fun _ => rfl) (fun _ => rfl) rfl (by rw [place]; rfl) rfl
  | submit session command claimed place => exact accounted.submit place
  | unbind session place free =>
    unfold unbindSession
    split <;> exact accounted.kept (fun _ => rfl) (fun _ => rfl) rfl (by rw [place]; rfl) rfl
  | processNext session command queue place queued =>
    refine accounted.kept (fun _ => rfl) (fun _ => rfl) rfl rfl ?_
    rw [queued]
    exact List.append_assoc ..
  | retain key message reports event events place resolved =>
    unfold OrderEntryGateway.retain
    dsimp only
    split_ifs <;> exact accounted.kept (fun _ => rfl) (fun _ => rfl) rfl rfl rfl
  | push session message reports event events place =>
    unfold OrderEntryGateway.deliver
    dsimp only
    split_ifs
    · exact accounted.kept (fun _ => rfl) (fun _ => rfl) rfl rfl rfl
    · exact accounted.kept (setConnection_keeps gateway session _ Connection.requests (by rfl))
        (setConnection_keeps gateway session _ (fun connection => connection.takenReplies ++ connection.sessionOutbound)
          (by rfl)) rfl rfl rfl
  | routed | silent | lock | unlock | target => exact accounted.kept (fun _ => rfl) (fun _ => rfl) rfl rfl rfl

section Runs
variable {options : OrderEntryGatewayOptions} {limits : RiskLimits} {instruments : List InstrumentId}
  {deposits : List Deposit}

theorem start_accounted : Accounted (start round options limits instruments deposits) where
  requests _ := rfl
  admitted := rfl
  replies _ := rfl

theorem run_accounted {actions : List GatewayAction}
    (ran : Transitions.run (step round) (start round options limits instruments deposits) actions = some gateway) :
    Accounted gateway := by
  have both : Isolated gateway ∧ Accounted gateway :=
    run_rule (fun state => Isolated state ∧ Accounted state)
      (fun _ _ before move => ⟨before.1.step move, before.2.step before.1 move⟩)
      ⟨start_isolated options limits instruments deposits, start_accounted⟩ ran
  exact both.2

end Runs

end Mdh.Gateway.OrderEntryGateway
