import Mdh.Gateway.GatewaySteps
import Mdh.Risk.CommandOutcomes

/-! Accounts are kept apart: whatever sessions claim, and however reading, binding and hanging
up fall between the events being routed, a session trades for the account it bound to and is
sent that account's reports. -/

namespace Mdh.Gateway
open Mdh.Core Mdh.Lib Mdh.Risk Mdh.Sequencing

/-- The execution reports a session has got or will get. -/
def Connection.reports (connection : Connection) : List Message :=
  connection.replayBacklog ++ connection.outbound ++ connection.takenReports

/-- The gateway's own replies to a session. -/
def Connection.replies (connection : Connection) : List Message :=
  connection.sessionOutbound ++ connection.takenReplies

theorem toExecutionReports_account {event : ExchangeEvent} {report : OrderKey × Message}
    (member : report ∈ toExecutionReports event) : report.2.accountId = report.1.accountId := by
  cases event <;> simp only [toExecutionReports, List.mem_cons, List.not_mem_nil, or_false] at member
  case tradeExecuted => rcases member with rfl | rfl <;> rfl
  all_goals rw [member]; rfl

namespace OrderEntryGateway
variable {round : Rounding} {gateway next : OrderEntryGateway}

/-- The session is bound to the account. -/
def Bound (gateway : OrderEntryGateway) (session : SessionId) (accountId : AccountId) : Prop :=
  (gateway.connections session).accountId = some accountId

/-- The commands submitted, those of them in the queue and those popped, each with its session. -/
def carried (gateway : OrderEntryGateway) : List (SessionId × ExchangeCommand) :=
  gateway.submitted ++ gateway.queue ++ gateway.dequeued

/-- What the I/O thread's place says about the session it is at. -/
def IoFine (gateway : OrderEntryGateway) : IoPlace → Prop
  | .waiting => True
  | .framing session | .unbinding session => session < gateway.nextSessionId
  | .binding session _ => session < gateway.nextSessionId ∧ (gateway.connections session).accountId = none
  | .rejecting session command =>
      session < gateway.nextSessionId ∧ command ∈ (gateway.connections session).requests
  | .claiming session command | .submitting session command _ =>
      session < gateway.nextSessionId ∧ gateway.Bound session command.accountId

/-- What the matching thread's place says about the reports it is at. -/
def MatchingFine (gateway : OrderEntryGateway) : MatchingPlace → Prop
  | .popping | .routing _ => True
  | .delivering reports _ _ => ∀ report ∈ reports, report.2.accountId = report.1.accountId
  | .pushing target message reports _ _ =>
      gateway.Bound target message.accountId ∧ ∀ report ∈ reports, report.2.accountId = report.1.accountId

/-- The invariant. -/
structure Isolated (gateway : OrderEntryGateway) : Prop where
  unseen : ∀ session ≥ gateway.nextSessionId, gateway.connections session = {}
  owners : ∀ key session, gateway.orderOwner key = some session → gateway.Bound session key.accountId
  sessions : ∀ accountId, ∀ session ∈ gateway.accountSessions accountId, gateway.Bound session accountId
  pending : ∀ accountId, ∀ message ∈ gateway.pendingReports accountId, message.accountId = accountId
  reports : ∀ session, ∀ message ∈ (gateway.connections session).reports, gateway.Bound session message.accountId
  replies : ∀ session, ∀ message ∈ (gateway.connections session).replies,
    ∃ command ∈ (gateway.connections session).requests, message = accountMismatch command
  carried : ∀ entry ∈ gateway.carried, gateway.Bound entry.1 entry.2.accountId
  io : gateway.IoFine gateway.io
  matching : gateway.MatchingFine gateway.matching

/-- An open session has been accepted. -/
theorem Isolated.seen_of_open (isolated : Isolated gateway) {session : SessionId} (isOpen : gateway.isOpen session) :
    session < gateway.nextSessionId := by
  by_contra beyond
  unfold OrderEntryGateway.isOpen at isOpen
  rw [isolated.unseen session (not_lt.mp beyond)] at isOpen
  cases isOpen

theorem Isolated.seen_of_bound (isolated : Isolated gateway) {session : SessionId} {accountId : AccountId}
    (bound : gateway.Bound session accountId) : session < gateway.nextSessionId := by
  by_contra beyond
  rw [Bound, isolated.unseen session (not_lt.mp beyond)] at bound
  cases bound

/-- A step that leaves the connections and the maps alone. -/
theorem Isolated.moved (isolated : Isolated gateway) (connections : next.connections = gateway.connections)
    (known : next.nextSessionId = gateway.nextSessionId) (owners : next.orderOwner = gateway.orderOwner)
    (sessions : next.accountSessions = gateway.accountSessions) (pending : next.pendingReports = gateway.pendingReports)
    (carried : ∀ entry ∈ next.carried, gateway.Bound entry.1 entry.2.accountId)
    (io : gateway.IoFine next.io) (matching : gateway.MatchingFine next.matching) : Isolated next := by
  have bound : next.Bound = gateway.Bound := by
    unfold Bound
    rw [connections]
  have ioFine : next.IoFine = gateway.IoFine := by
    funext place
    cases place <;> simp only [IoFine, bound, connections, known]
  have matchingFine : next.MatchingFine = gateway.MatchingFine := by
    funext place
    cases place <;> simp only [MatchingFine, bound]
  exact
    { unseen := by rw [connections, known]; exact isolated.unseen
      owners := by rw [owners, bound]; exact isolated.owners
      sessions := by rw [sessions, bound]; exact isolated.sessions
      pending := by rw [pending]; exact isolated.pending
      reports := by rw [connections, bound]; exact isolated.reports
      replies := by rw [connections]; exact isolated.replies
      carried := by rw [bound]; exact carried
      io := by rw [ioFine]; exact io
      matching := by rw [matchingFine]; exact matching }

theorem accounts_setConnection {session : SessionId} {connection : Connection}
    (account : connection.accountId = (gateway.connections session).accountId) (other : SessionId) :
    ((gateway.setConnection session connection).connections other).accountId =
      (gateway.connections other).accountId :=
  setConnection_keeps gateway session connection Connection.accountId account other

theorem bound_setConnection {session : SessionId} {connection : Connection}
    (account : connection.accountId = (gateway.connections session).accountId) :
    (gateway.setConnection session connection).Bound = gateway.Bound := by
  funext other accountId
  unfold Bound
  rw [accounts_setConnection account]

/-- A change to one connection that is neither bound nor unbound by it. -/
theorem Isolated.withConnection (isolated : Isolated gateway) {session : SessionId} {connection : Connection}
    (seen : session < gateway.nextSessionId) (account : connection.accountId = (gateway.connections session).accountId)
    (requests : (gateway.connections session).requests ⊆ connection.requests)
    (reports : ∀ message ∈ connection.reports, connection.accountId = some message.accountId)
    (replies : ∀ message ∈ connection.replies, ∃ command ∈ connection.requests, message = accountMismatch command) :
    Isolated (gateway.setConnection session connection) := by
  have accounts := accounts_setConnection account
  have grown : ∀ other, (gateway.connections other).requests ⊆
      ((gateway.setConnection session connection).connections other).requests :=
    setConnection_forall gateway session connection
      (fun other changed => (gateway.connections other).requests ⊆ changed.requests) requests
      fun _ _ => List.Subset.refl _
  have bound := bound_setConnection account
  refine ⟨fun other beyond => ?_, ?_, ?_, isolated.pending, ?_, ?_, ?_, ?_, ?_⟩
  · have beyond : gateway.nextSessionId ≤ other := beyond
    rw [setConnection_other _ _ _ _ (seen.trans_le beyond).ne']
    exact isolated.unseen other beyond
  · rw [bound]
    exact isolated.owners
  · rw [bound]
    exact isolated.sessions
  · rw [bound]
    refine setConnection_forall gateway session connection
      (fun other changed => ∀ message ∈ changed.reports, gateway.Bound other message.accountId)
      (fun message member => ?_) fun other _ => isolated.reports other
    exact account.symm.trans (reports message member)
  · exact setConnection_forall gateway session connection
      (fun _ changed => ∀ message ∈ changed.replies, ∃ command ∈ changed.requests, message = accountMismatch command)
      replies fun other _ => isolated.replies other
  · rw [bound]
    exact isolated.carried
  · have fine := isolated.io
    show IoFine _ gateway.io
    cases place : gateway.io <;> rw [place] at fine <;> simp only [IoFine, bound, accounts] at fine ⊢
    case rejecting => exact ⟨fine.1, grown _ fine.2⟩
    all_goals exact fine
  · have fine := isolated.matching
    show MatchingFine _ gateway.matching
    cases place : gateway.matching <;> rw [place] at fine <;> simp only [MatchingFine, bound] at fine ⊢ <;> exact fine

/-- A change to one connection that leaves its messages where they were, or takes some away. -/
theorem Isolated.rearranged (isolated : Isolated gateway) {session : SessionId} {connection : Connection}
    (seen : session < gateway.nextSessionId) (account : connection.accountId = (gateway.connections session).accountId)
    (requests : (gateway.connections session).requests ⊆ connection.requests)
    (reports : connection.reports ⊆ (gateway.connections session).reports)
    (replies : connection.replies ⊆ (gateway.connections session).replies) :
    Isolated (gateway.setConnection session connection) := by
  refine isolated.withConnection seen account requests (fun message member => ?_) fun message member => ?_
  · exact account.trans (isolated.reports session message (reports member))
  · obtain ⟨command, asked, echo⟩ := isolated.replies session message (replies member)
    exact ⟨command, requests asked, echo⟩

theorem Isolated.accept (isolated : Isolated gateway) : Isolated gateway.acceptReady := by
  have unbound : (gateway.connections gateway.nextSessionId).accountId = none := by
    rw [isolated.unseen _ le_rfl]
  have bound : gateway.acceptReady.Bound = gateway.Bound := by
    funext other accountId
    refine setConnection_forall gateway gateway.nextSessionId { closed := false }
      (fun other changed => (changed.accountId = some accountId) = gateway.Bound other accountId) ?_ (fun _ _ => rfl) other
    rw [Bound, unbound]
  refine ⟨fun other beyond => ?_, ?_, ?_, isolated.pending, ?_, ?_, ?_, ?_, ?_⟩
  · have beyond : gateway.nextSessionId < other := beyond
    exact (setConnection_other _ _ _ _ beyond.ne').trans (isolated.unseen other beyond.le)
  · rw [bound]
    exact isolated.owners
  · rw [bound]
    exact isolated.sessions
  · rw [bound]
    exact setConnection_forall gateway gateway.nextSessionId { closed := false }
      (fun other changed => ∀ message ∈ changed.reports, gateway.Bound other message.accountId)
      (fun _ member => by cases member) fun other _ => isolated.reports other
  · exact setConnection_forall gateway gateway.nextSessionId { closed := false }
      (fun _ changed => ∀ message ∈ changed.replies, ∃ command ∈ changed.requests, message = accountMismatch command)
      (fun _ member => by cases member) fun other _ => isolated.replies other
  · rw [bound]
    exact isolated.carried
  · have fine := isolated.io
    have kept : ∀ session < gateway.nextSessionId,
        gateway.acceptReady.connections session = gateway.connections session :=
      fun session seen => setConnection_other _ _ _ _ seen.ne
    show IoFine _ gateway.io
    cases place : gateway.io <;> rw [place] at fine <;> simp only [IoFine, bound] at fine ⊢
    case binding | rejecting => rw [kept _ fine.1]; exact ⟨fine.1.trans (Nat.lt_succ_self _), fine.2⟩
    case claiming | submitting => exact ⟨fine.1.trans (Nat.lt_succ_self _), fine.2⟩
    case framing | unbinding => exact fine.trans (Nat.lt_succ_self _)
  · have fine := isolated.matching
    show MatchingFine _ gateway.matching
    cases place : gateway.matching <;> rw [place] at fine <;> simp only [MatchingFine, bound] at fine ⊢ <;> exact fine

theorem Isolated.popOutbound (isolated : Isolated gateway) {session : SessionId} (seen : session < gateway.nextSessionId) :
    Isolated (gateway.popOutbound session) := by
  unfold OrderEntryGateway.popOutbound
  dsimp only
  split
  next message rest backlog =>
    refine isolated.rearranged seen rfl (List.Subset.refl _) ?_ (List.Subset.refl _)
    intro other member
    simp only [Connection.reports, backlog, List.mem_append, List.mem_cons, List.not_mem_nil, or_false] at member ⊢
    tauto
  next message rest _ replies =>
    refine isolated.rearranged seen rfl (List.Subset.refl _) (List.Subset.refl _) ?_
    intro other member
    simp only [Connection.replies, replies, List.mem_append, List.mem_cons, List.not_mem_nil, or_false] at member ⊢
    tauto
  next message rest _ _ reports =>
    refine isolated.rearranged seen rfl (List.Subset.refl _) ?_ (List.Subset.refl _)
    intro other member
    simp only [Connection.reports, reports, List.mem_append, List.mem_cons, List.not_mem_nil, or_false] at member ⊢
    tauto
  next => exact isolated

theorem Isolated.request (isolated : Isolated gateway) {session : SessionId} (seen : session < gateway.nextSessionId)
    (command : ExchangeCommand) (rest : List UInt8) : Isolated (gateway.request session command rest) := by
  have read : Isolated (gateway.setConnection session { gateway.connections session with
      readBuffer := rest
      requests := (gateway.connections session).requests ++ [command] }) :=
    isolated.withConnection seen rfl (List.subset_append_left ..) (isolated.reports session) fun message member => by
      obtain ⟨asked, known, echo⟩ := isolated.replies session message member
      exact ⟨asked, List.mem_append_left _ known, echo⟩
  refine read.moved rfl rfl rfl rfl rfl read.carried ?_ read.matching
  unfold OrderEntryGateway.request
  dsimp only
  cases account : (gateway.connections session).accountId with
  | none => exact ⟨seen, by rw [setConnection_self]⟩
  | some accountId =>
    dsimp only
    split_ifs with other
    · refine ⟨seen, ?_⟩
      rw [setConnection_self]
      exact List.mem_append_right _ (List.mem_singleton_self command)
    · refine ⟨seen, ?_⟩
      rw [Bound, setConnection_self, ← not_not.mp other]

theorem Isolated.bind (isolated : Isolated gateway) {session : SessionId} {command : ExchangeCommand}
    (place : gateway.io = .binding session command) : Isolated (gateway.bindSession session command) := by
  have fine := isolated.io
  rw [place] at fine
  obtain ⟨seen, unbound⟩ := fine
  have widened : ∀ other accountId, gateway.Bound other accountId →
      (gateway.bindSession session command).Bound other accountId := by
    intro other accountId bound
    have different : other ≠ session := by
      rintro rfl
      rw [Bound, unbound] at bound
      cases bound
    exact (congrArg Connection.accountId (setConnection_other _ _ _ _ different)).trans bound
  have self : (gateway.bindSession session command).Bound session command.accountId :=
    congrArg Connection.accountId (setConnection_self ..)
  refine ⟨fun other beyond => ?_, fun key owner owned => widened _ _ (isolated.owners key owner owned),
    fun accountId other member => ?_, fun accountId message member => ?_, ?_, ?_,
    fun entry member => widened _ _ (isolated.carried entry member), ⟨seen, self⟩, ?_⟩
  · exact (setConnection_other _ _ _ _ (seen.trans_le beyond).ne').trans (isolated.unseen other beyond)
  · have member : other ∈ Function.update gateway.accountSessions command.accountId
        (gateway.accountSessions command.accountId ++ [session]) accountId := member
    rw [Function.update_apply] at member
    split_ifs at member with same
    · rcases List.mem_append.mp member with before | new
      · exact widened _ _ (same ▸ isolated.sessions _ other before)
      · rw [List.mem_singleton.mp new, same]
        exact self
    · exact widened _ _ (isolated.sessions accountId other member)
  · have member : message ∈ Function.update gateway.pendingReports command.accountId [] accountId := member
    rw [Function.update_apply] at member
    split_ifs at member
    · cases member
    · exact isolated.pending accountId message member
  · -- The backlog handed over is what was retained for the account.
    refine setConnection_forall gateway session _
      (fun other changed => ∀ message ∈ changed.reports,
        (gateway.bindSession session command).Bound other message.accountId) (fun message member => ?_)
      fun other _ message member => widened _ _ (isolated.reports other message member)
    have old : ∀ message ∈ (gateway.connections session).reports, False := fun message member => by
      have bound := isolated.reports session message member
      rw [Bound, unbound] at bound
      cases bound
    have handed : message ∈ gateway.pendingReports command.accountId := by
      simp only [Connection.reports, List.mem_append] at member old
      rcases member with (member | member) | member
      · split_ifs at member with empty
        · exact (old message (Or.inl (Or.inl member))).elim
        · exact member
      · exact (old message (Or.inl (Or.inr member))).elim
      · exact (old message (Or.inr member)).elim
    rw [isolated.pending _ message handed]
    exact self
  · exact setConnection_forall gateway session _
      (fun _ changed => ∀ message ∈ changed.replies, ∃ command ∈ changed.requests, message = accountMismatch command)
      (isolated.replies session) fun other _ => isolated.replies other
  · have fine := isolated.matching
    show MatchingFine _ gateway.matching
    cases at_ : gateway.matching <;> rw [at_] at fine <;> simp only [MatchingFine] at fine ⊢
    case pushing => exact ⟨widened _ _ fine.1, fine.2⟩
    all_goals exact fine

theorem Isolated.reject (isolated : Isolated gateway) {session : SessionId} {command : ExchangeCommand}
    (place : gateway.io = .rejecting session command) : Isolated (gateway.rejectAccountMismatch session command) := by
  have fine := isolated.io
  rw [place] at fine
  obtain ⟨seen, asked⟩ := fine
  unfold rejectAccountMismatch
  dsimp only
  split_ifs
  · exact isolated.moved rfl rfl rfl rfl rfl isolated.carried seen isolated.matching
  · have replied : Isolated (gateway.setConnection session { gateway.connections session with
        sessionOutbound := (gateway.connections session).sessionOutbound ++ [accountMismatch command] }) := by
      refine isolated.withConnection seen rfl (List.Subset.refl _) (isolated.reports session) fun message member => ?_
      simp only [Connection.replies, List.mem_append, List.mem_singleton] at member
      rcases member with (before | rfl) | taken
      · exact isolated.replies session message (List.mem_append_left _ before)
      · exact ⟨command, asked, rfl⟩
      · exact isolated.replies session message (List.mem_append_right _ taken)
    exact replied.moved rfl rfl rfl rfl rfl replied.carried seen replied.matching

theorem Isolated.withOwners (isolated : Isolated gateway) {orderOwner : OrderKey → Option SessionId}
    (owners : ∀ key session, orderOwner key = some session → gateway.Bound session key.accountId) :
    Isolated { gateway with orderOwner := orderOwner } :=
  ⟨isolated.unseen, owners, isolated.sessions, isolated.pending, isolated.reports, isolated.replies, isolated.carried,
    isolated.io, isolated.matching⟩

theorem claimedKey_account (command : ExchangeCommand) : (claimedKey command).accountId = command.accountId := by
  cases command <;> rfl

theorem Isolated.claim (isolated : Isolated gateway) {session : SessionId} {command : ExchangeCommand}
    (place : gateway.io = .claiming session command) : Isolated (gateway.claimOrderOwnership session command) := by
  have fine := isolated.io
  rw [place] at fine
  obtain ⟨seen, bound⟩ := fine
  unfold claimOrderOwnership
  dsimp only
  split
  · exact isolated.moved rfl rfl rfl rfl rfl isolated.carried ⟨seen, bound⟩ isolated.matching
  · have claimed : Isolated { gateway with
        orderOwner := Function.update gateway.orderOwner (claimedKey command) (some session) } := by
      refine isolated.withOwners fun key owner owned => ?_
      rw [Function.update_apply] at owned
      split_ifs at owned with same
      · cases owned
        rw [same, claimedKey_account]
        exact bound
      · exact isolated.owners key owner owned
    exact claimed.moved rfl rfl rfl rfl rfl claimed.carried ⟨seen, bound⟩ claimed.matching

theorem Isolated.submit (isolated : Isolated gateway) {session : SessionId} {command : ExchangeCommand} {claimed : Bool}
    (place : gateway.io = .submitting session command claimed) :
    Isolated (gateway.submitCommand session command claimed) := by
  have fine := isolated.io
  rw [place] at fine
  obtain ⟨seen, bound⟩ := fine
  unfold submitCommand
  dsimp only
  split_ifs
  all_goals
    refine isolated.moved rfl rfl rfl rfl rfl (fun entry member => ?_) seen isolated.matching
    have among : entry ∈ gateway.carried ∨ entry = (session, command) := by
      simp only [OrderEntryGateway.carried, List.mem_append, List.mem_singleton] at member ⊢
      tauto
    rcases among with before | rfl
    · exact isolated.carried entry before
    · exact bound

theorem Isolated.unbind (isolated : Isolated gateway) (session : SessionId) :
    Isolated (gateway.unbindSession session) := by
  unfold unbindSession
  split
  · exact isolated.moved rfl rfl rfl rfl rfl isolated.carried trivial isolated.matching
  next accountId _ =>
    refine ⟨isolated.unseen, fun key owner owned => ?_, fun other bound member => ?_, isolated.pending, isolated.reports,
      isolated.replies, isolated.carried, trivial, isolated.matching⟩
    · dsimp only at owned
      split_ifs at owned
      exact isolated.owners key owner owned
    · dsimp only at member
      rw [Function.update_apply] at member
      split_ifs at member with same
      · rw [same]
        exact isolated.sessions accountId bound (List.mem_of_mem_filter member)
      · exact isolated.sessions other bound member

theorem eraseOwner_from {owner : OrderKey → Option SessionId} {erased key : OrderKey} {session : SessionId}
    (owned : eraseOwner owner erased key = some session) : owner key = some session := by
  unfold eraseOwner at owned
  rw [Function.update_apply] at owned
  split_ifs at owned
  exact owned

/-- Routing an event moves an entry only to another order of its account. -/
theorem ownershipAfter_from {event : ExchangeEvent} {key : OrderKey} {session : SessionId}
    (owned : gateway.ownershipAfter event key = some session) :
    ∃ source, gateway.orderOwner source = some session ∧ source.accountId = key.accountId := by
  cases event with
  | orderRejected event =>
    simp only [ownershipAfter] at owned
    split_ifs at owned
    · exact ⟨key, owned, rfl⟩
    · exact ⟨key, eraseOwner_from owned, rfl⟩
  | orderCancelled event => exact ⟨key, eraseOwner_from owned, rfl⟩
  | orderReplaced event =>
    cases found : gateway.orderOwner ⟨event.accountId, event.originalClientOrderId⟩ with
    | none =>
      simp only [ownershipAfter, found] at owned
      exact ⟨key, owned, rfl⟩
    | some owner =>
      simp only [ownershipAfter, found] at owned
      have moved := eraseOwner_from owned
      rw [Function.update_apply] at moved
      split_ifs at moved with same
      · cases moved
        exact ⟨_, found, by rw [same]⟩
      · exact ⟨key, moved, rfl⟩
  | tradeExecuted event =>
    simp only [ownershipAfter, List.foldl_cons, List.foldl_nil] at owned
    refine ⟨key, ?_, rfl⟩
    split_ifs at owned
    · exact eraseOwner_from (eraseOwner_from owned)
    · exact eraseOwner_from owned
    · exact eraseOwner_from owned
    · exact owned
  | orderAccepted event | bookOrderAdded event | bookOrderReduced event | bookOrderRemoved event =>
    exact ⟨key, owned, rfl⟩

/-- A report goes to a session of the account it is for. -/
theorem Isolated.resolve_bound (isolated : Isolated gateway) {key : OrderKey} {session : SessionId}
    (resolved : gateway.resolve key = some session) : gateway.Bound session key.accountId := by
  unfold resolve at resolved
  split at resolved
  next owner found =>
    cases resolved
    exact isolated.owners key session (Option.filter_eq_some_iff.mp found).1
  next => exact isolated.sessions _ session (List.mem_of_find?_eq_some resolved)

theorem Isolated.retain (isolated : Isolated gateway) {accountId : AccountId} {message : Message}
    (account : message.accountId = accountId) : Isolated (gateway.retain accountId message) := by
  unfold OrderEntryGateway.retain
  dsimp only
  split_ifs with off full
  · exact isolated
  all_goals
    refine ⟨isolated.unseen, isolated.owners, isolated.sessions, fun other retained member => ?_, isolated.reports,
      isolated.replies, isolated.carried, isolated.io, isolated.matching⟩
    dsimp only at member
    rw [Function.update_apply] at member
    split_ifs at member with same
    · rcases List.mem_append.mp member with before | new
      · rw [same]
        first
          | exact isolated.pending accountId retained (List.mem_of_mem_tail before)
          | exact isolated.pending accountId retained before
      · rw [List.mem_singleton.mp new, same]
        exact account
    · exact isolated.pending other retained member

theorem Isolated.deliver (isolated : Isolated gateway) {target : SessionId} {message : Message}
    (bound : gateway.Bound target message.accountId) : Isolated (gateway.deliver target message) := by
  unfold OrderEntryGateway.deliver
  dsimp only
  split_ifs
  · exact isolated
  · refine isolated.withConnection (isolated.seen_of_bound bound) rfl (List.Subset.refl _) (fun other member => ?_)
      (isolated.replies target)
    have cases_ : other ∈ (gateway.connections target).reports ∨ other = message := by
      simp only [Connection.reports, List.mem_append, List.mem_singleton] at member ⊢
      tauto
    rcases cases_ with before | rfl
    · exact isolated.reports target other before
    · exact bound

/-- Every step keeps accounts apart. -/
theorem Isolated.step (isolated : Isolated gateway) (move : Move round gateway next) : Isolated next := by
  have ioFine := isolated.io
  have matchingFine := isolated.matching
  cases move with
  | accept waits => exact isolated.accept
  | receive session chunk waits isOpen =>
    have seen := isolated.seen_of_open isOpen
    have read : Isolated (gateway.setConnection session { gateway.connections session with
        readBuffer := (gateway.connections session).readBuffer ++ chunk }) :=
      isolated.rearranged seen rfl (List.Subset.refl _) (List.Subset.refl _) (List.Subset.refl _)
    exact read.moved rfl rfl rfl rfl rfl read.carried seen read.matching
  | hangUp session waits isOpen =>
    have seen := isolated.seen_of_open isOpen
    have closed : Isolated (gateway.setConnection session { gateway.connections session with closed := true }) :=
      isolated.rearranged seen rfl (List.Subset.refl _) (List.Subset.refl _) (List.Subset.refl _)
    exact closed.moved rfl rfl rfl rfl rfl closed.carried seen closed.matching
  | popOutbound session waits isOpen => exact isolated.popOutbound (isolated.seen_of_open isOpen)
  | frameDone session place => exact isolated.moved rfl rfl rfl rfl rfl isolated.carried trivial isolated.matching
  | frameSkipped session rest place =>
    rw [place] at ioFine
    exact isolated.rearranged ioFine rfl (List.Subset.refl _) (List.Subset.refl _) (List.Subset.refl _)
  | request session command rest place =>
    rw [place] at ioFine
    exact isolated.request ioFine command rest
  | bind session command place free => exact isolated.bind place
  | reject session command place => exact isolated.reject place
  | claim session command place free => exact isolated.claim place
  | submit session command claimed place => exact isolated.submit place
  | unbind session place free => exact isolated.unbind session
  | processNext session command queue place queued =>
    refine isolated.moved rfl rfl rfl rfl rfl (fun entry member => isolated.carried entry ?_) isolated.io trivial
    simp only [OrderEntryGateway.carried, processNext, queued, List.mem_append, List.mem_cons] at member ⊢
    tauto
  | routed place => exact isolated.moved rfl rfl rfl rfl rfl isolated.carried isolated.io trivial
  | silent event events place none => exact isolated.moved rfl rfl rfl rfl rfl isolated.carried isolated.io trivial
  | lock event events place =>
    exact isolated.moved rfl rfl rfl rfl rfl isolated.carried isolated.io fun _ => toExecutionReports_account
  | unlock event events place =>
    have owned : Isolated { gateway with orderOwner := gateway.ownershipAfter event } :=
      isolated.withOwners fun key session owns => by
        obtain ⟨source, found, account⟩ := ownershipAfter_from owns
        exact account ▸ isolated.owners source session found
    exact owned.moved rfl rfl rfl rfl rfl owned.carried owned.io trivial
  | target key message reports event events session place resolved =>
    rw [place] at matchingFine
    have account : message.accountId = key.accountId := matchingFine (key, message) List.mem_cons_self
    exact isolated.moved rfl rfl rfl rfl rfl isolated.carried isolated.io
      ⟨by rw [account]; exact isolated.resolve_bound resolved, fun report member => matchingFine report (List.mem_cons_of_mem _ member)⟩
  | retain key message reports event events place resolved =>
    rw [place] at matchingFine
    have logged : Isolated { gateway with history := gateway.history ++ [.generated message] } :=
      isolated.moved rfl rfl rfl rfl rfl isolated.carried isolated.io isolated.matching
    have retained := logged.retain (matchingFine (key, message) List.mem_cons_self)
    exact retained.moved rfl rfl rfl rfl rfl retained.carried retained.io
      fun report member => matchingFine report (List.mem_cons_of_mem _ member)
  | push session message reports event events place =>
    rw [place] at matchingFine
    have delivered := isolated.deliver matchingFine.1
    exact delivered.moved rfl rfl rfl rfl rfl delivered.carried delivered.io matchingFine.2

theorem start_isolated (options : OrderEntryGatewayOptions) (limits : RiskLimits) (instruments : List InstrumentId)
    (deposits : List Deposit) : Isolated (start round options limits instruments deposits) where
  unseen _ _ := rfl
  owners _ _ owned := by cases owned
  sessions _ _ member := by cases member
  pending _ _ member := by cases member
  reports _ _ member := by cases member
  replies _ _ member := by cases member
  carried _ member := by cases member
  io := trivial
  matching := trivial

/-- The engine is run on what was popped, numbered as it came. -/
structure Processes (round : Rounding) (first : RiskGatedEngine) (gateway : OrderEntryGateway) : Prop where
  counted : gateway.sequencer.nextSequence = gateway.dequeued.length + 1
  exchange : gateway.exchange = first.run round (numbered (gateway.dequeued.map Prod.snd))

theorem Processes.step {first : RiskGatedEngine} (processes : Processes round first gateway)
    (move : Move round gateway next) : Processes round first next := by
  rcases move.processes with ⟨exchange, sequencer, dequeued⟩ | ⟨session, command, queue, rfl⟩
  · refine ⟨?_, ?_⟩
    · rw [sequencer, dequeued, processes.counted]
    · rw [exchange, dequeued, processes.exchange]
  · obtain ⟨counted, exchange⟩ := processes
    have length : (gateway.dequeued ++ [(session, command)]).length = gateway.dequeued.length + 1 := List.length_append
    refine ⟨?_, ?_⟩
    · show gateway.sequencer.nextSequence + 1 = (gateway.dequeued ++ [(session, command)]).length + 1
      rw [length, counted]
    · show (gateway.exchange.process round (command.sequencedAs gateway.sequencer.nextSequence)).gated =
        first.run round (numbered ((gateway.dequeued ++ [(session, command)]).map Prod.snd))
      rw [List.map_append, List.map_singleton, numbered_append, RiskGatedEngine.run_concat, List.length_map, ← exchange,
        counted]

section Runs
variable {options : OrderEntryGatewayOptions} {limits : RiskLimits} {instruments : List InstrumentId}
  {deposits : List Deposit}

theorem run_isolated {actions : List GatewayAction} {start : OrderEntryGateway} (isolated : Isolated start)
    (ran : Transitions.run (step round) start actions = some gateway) : Isolated gateway :=
  run_rule Isolated (fun _ _ before move => before.step move) isolated ran

end Runs

/-- A cancel request as a client sends it. -/
def cancelFrame (accountId : AccountId) (clientOrderId : ClientOrderId) (instrumentId : InstrumentId) : List UInt8 :=
  ByteIo.putU8 2 ++ ByteIo.putU16 20 ++ ByteIo.putU64 accountId ++ ByteIo.putU64 clientOrderId ++
    ByteIo.putU32 instrumentId

end OrderEntryGateway

end Mdh.Gateway
