import Mathlib.Data.List.DropRight
import Mdh.Gateway.AccountIsolation

/-! Reports in order. What a session takes out comes in the order generated, what was retained
while its account had no live session before anything newer. -/

namespace Mdh.Gateway
open Mdh.Core Mdh.Lib Mdh.Risk

section Histories
variable (accountId : AccountId)

/-- The reports generated for an account. -/
def generatedFor (history : List Occurrence) : List Message :=
  history.filterMap fun
    | .generated message => if message.accountId = accountId then some message else none
    | .bound .. | .closed _ => none

/-- An account's live sessions, and the reports generated for it since it last had one. -/
structure AccountWatch where
  live : List SessionId := []
  sinceLive : List Message := []
  deriving DecidableEq, Repr

def AccountWatch.observe (watch : AccountWatch) : Occurrence → AccountWatch
  | .generated message =>
      if message.accountId = accountId ∧ watch.live = [] then
        { watch with sinceLive := watch.sinceLive ++ [message] }
      else watch
  | .bound session bound =>
      if bound = accountId then { live := watch.live ++ [session], sinceLive := [] } else watch
  | .closed session => { watch with live := watch.live.filter fun other => other ≠ session }

def watched (history : List Occurrence) : AccountWatch := history.foldl (AccountWatch.observe accountId) {}

def liveSessions (history : List Occurrence) : List SessionId := (watched accountId history).live

def sinceLive (history : List Occurrence) : List Message := (watched accountId history).sinceLive

theorem watched_concat (history : List Occurrence) (occurrence : Occurrence) :
    watched accountId (history ++ [occurrence]) = (watched accountId history).observe accountId occurrence :=
  List.foldl_concat ..

theorem generatedFor_append (front back : List Occurrence) :
    generatedFor accountId (front ++ back) = generatedFor accountId front ++ generatedFor accountId back :=
  List.filterMap_append

theorem generatedFor_generated (message : Message) :
    generatedFor accountId [.generated message] = if message.accountId = accountId then [message] else [] := by
  unfold generatedFor
  by_cases same : message.accountId = accountId <;> simp [same]

theorem liveSessions_generated (history : List Occurrence) (message : Message) :
    liveSessions accountId (history ++ [.generated message]) = liveSessions accountId history := by
  rw [liveSessions, watched_concat, AccountWatch.observe]
  split_ifs <;> rfl

theorem sinceLive_generated (history : List Occurrence) (message : Message) :
    sinceLive accountId (history ++ [.generated message]) = sinceLive accountId history ++
      if message.accountId = accountId ∧ liveSessions accountId history = [] then [message] else [] := by
  rw [sinceLive, watched_concat, AccountWatch.observe]
  by_cases waits : message.accountId = accountId ∧ liveSessions accountId history = []
  · rw [if_pos waits]
    exact congrArg AccountWatch.sinceLive (if_pos waits)
  · rw [if_neg waits, List.append_nil]
    exact congrArg AccountWatch.sinceLive (if_neg waits)

/-- While there is a live session nothing is waiting. -/
theorem sinceLive_of_live (history : List Occurrence) (live : liveSessions accountId history ≠ []) :
    sinceLive accountId history = [] := by
  induction history using List.reverseRecOn with
  | nil => rfl
  | append_singleton front occurrence ih =>
    unfold liveSessions at live ih
    unfold sinceLive at ih ⊢
    rw [watched_concat] at live ⊢
    cases occurrence with
    | generated message =>
      simp only [AccountWatch.observe] at live ⊢
      split_ifs at live ⊢ with waits
      · exact absurd waits.2 live
      · exact ih live
    | bound session bound =>
      simp only [AccountWatch.observe] at live ⊢
      split_ifs at live ⊢
      · rfl
      · exact ih live
    | closed session =>
      simp only [AccountWatch.observe] at live ⊢
      refine ih fun none => live ?_
      rw [none, List.filter_nil]

/-- What has been waiting since some moment was waiting then or was generated since. -/
theorem foldl_observe_sublist (watch : AccountWatch) (history : List Occurrence) :
    List.Sublist (history.foldl (AccountWatch.observe accountId) watch).sinceLive
      (watch.sinceLive ++ generatedFor accountId history) := by
  induction history generalizing watch with
  | nil => exact List.sublist_append_left ..
  | cons occurrence rest ih =>
    have split : generatedFor accountId (occurrence :: rest) =
        generatedFor accountId [occurrence] ++ generatedFor accountId rest := generatedFor_append accountId [occurrence] rest
    rw [List.foldl_cons, split, ← List.append_assoc]
    refine (ih _).trans (List.Sublist.append_right ?_ _)
    cases occurrence with
    | generated message =>
      rw [generatedFor_generated]
      simp only [AccountWatch.observe]
      by_cases own : message.accountId = accountId
      · by_cases waits : watch.live = []
        · rw [if_pos ⟨own, waits⟩, if_pos own]
        · rw [if_neg fun both => waits both.2]
          exact List.sublist_append_left ..
      · rw [if_neg fun both => own both.1]
        exact List.sublist_append_left ..
    | bound session bound =>
      simp only [AccountWatch.observe]
      split_ifs
      · exact List.nil_sublist _
      · exact List.sublist_append_left ..
    | closed session => exact List.sublist_append_left ..

theorem sinceLive_sublist (history : List Occurrence) :
    List.Sublist (sinceLive accountId history) (generatedFor accountId history) :=
  foldl_observe_sublist accountId {} history

/-- What was retained before a session bound is not retained again. -/
theorem sinceLive_after_bound (session : SessionId) (before after : List Occurrence) :
    List.Sublist (sinceLive accountId (before ++ .bound session accountId :: after)) (generatedFor accountId after) := by
  unfold sinceLive watched
  rw [List.foldl_append, List.foldl_cons]
  refine (foldl_observe_sublist accountId _ after).trans ?_
  rw [AccountWatch.observe, if_pos rfl]
  exact List.Sublist.refl _

end Histories

/-- Where a longer history comes apart. -/
theorem concat_split {history before after : List Occurrence} {last occurrence : Occurrence}
    (split : history ++ [last] = before ++ occurrence :: after) :
    (after = [] ∧ before = history ∧ occurrence = last) ∨
      ∃ rest, after = rest ++ [last] ∧ history = before ++ occurrence :: rest := by
  rcases List.eq_nil_or_concat after with rfl | ⟨rest, final, rfl⟩
  · obtain ⟨same, one⟩ := List.append_inj' split rfl
    exact Or.inl ⟨rfl, same.symm, (List.cons.inj one).1.symm⟩
  · rw [List.concat_eq_append, ← List.cons_append, ← List.append_assoc] at split
    obtain ⟨same, one⟩ := List.append_inj' split rfl
    exact Or.inr ⟨rest, by rw [List.concat_eq_append, (List.cons.inj one).1], same⟩

/-- A full buffer makes room for one more by giving up its oldest. -/
theorem retained_concat {capacity : Nat} (positive : 0 < capacity) (reports : List Message) (message : Message) :
    (if (reports.rtake capacity).length ≥ capacity then (reports.rtake capacity).tail else reports.rtake capacity) ++
      [message] = (reports ++ [message]).rtake capacity := by
  obtain ⟨size, rfl⟩ := Nat.exists_eq_succ_of_ne_zero positive.ne'
  rw [Nat.succ_eq_add_one, List.rtake_concat_succ]
  congr 1
  unfold List.rtake
  rw [List.length_drop]
  split_ifs with full
  · rw [List.tail_drop]
    congr 1
    omega
  · congr 1
    omega

/-- What the order of a session's reports depends on. -/
def Connection.record (connection : Connection) :
    Option AccountId × Bool × List Message × List Message × List Message :=
  (connection.accountId, connection.closed, connection.handedOver, connection.delivered,
    connection.takenReports ++ connection.replayBacklog ++ connection.outbound)

namespace OrderEntryGateway
variable {round : Rounding} {gateway next : OrderEntryGateway}

/-- The report on its way to a session. -/
def inFlight : MatchingPlace → SessionId → List Message
  | .popping, _ | .routing _, _ | .delivering .., _ => []
  | .pushing target message _ _ _, session => if target = session then [message] else []

/-- The session the I/O thread is at is open until it has hung up. -/
def IoOpen (gateway : OrderEntryGateway) : IoPlace → Prop
  | .waiting => True
  | .framing session | .binding session _ | .rejecting session _ | .claiming session _
  | .submitting session _ _ => gateway.isOpen session
  | .unbinding session => ¬ gateway.isOpen session

/-- The invariant. The history splits where a session bound: it was handed what was retained
then, and delivered nothing but what was generated since. -/
structure Ordered (gateway : OrderEntryGateway) : Prop where
  queues : ∀ session, (gateway.connections session).takenReports ++ (gateway.connections session).replayBacklog ++
    (gateway.connections session).outbound =
      (gateway.connections session).handedOver ++ (gateway.connections session).delivered
  bindings : ∀ session accountId, .bound session accountId ∈ gateway.history ↔ gateway.Bound session accountId
  live : ∀ accountId, (gateway.accountSessions accountId).filter gateway.isOpen = liveSessions accountId gateway.history
  members : ∀ session accountId, gateway.Bound session accountId → gateway.isOpen session →
    session ∈ gateway.accountSessions accountId
  retained : ∀ accountId, gateway.pendingReports accountId =
    (sinceLive accountId gateway.history).rtake gateway.options.pendingReportCapacity
  handed : ∀ session accountId before after, gateway.history = before ++ .bound session accountId :: after →
    (gateway.connections session).handedOver =
        (sinceLive accountId before).rtake gateway.options.pendingReportCapacity ∧
      List.Sublist ((gateway.connections session).delivered ++ inFlight gateway.matching session)
        (generatedFor accountId after)
  io : gateway.IoOpen gateway.io

section Same
variable (same : ∀ session, (next.connections session).record = (gateway.connections session).record)
include same

theorem same_bound : next.Bound = gateway.Bound := by
  funext session accountId
  exact congrArg (fun record => record.1 = some accountId) (same session)

theorem same_isOpen : next.isOpen = gateway.isOpen := by
  funext session
  exact congrArg (fun record => !record.2.1) (same session)

theorem same_handedOver (session : SessionId) :
    (next.connections session).handedOver = (gateway.connections session).handedOver :=
  congrArg (fun record => record.2.2.1) (same session)

theorem same_delivered (session : SessionId) :
    (next.connections session).delivered = (gateway.connections session).delivered :=
  congrArg (fun record => record.2.2.2.1) (same session)

theorem same_queues (session : SessionId) :
    (next.connections session).takenReports ++ (next.connections session).replayBacklog ++
        (next.connections session).outbound =
      (gateway.connections session).takenReports ++ (gateway.connections session).replayBacklog ++
        (gateway.connections session).outbound :=
  congrArg (fun record => record.2.2.2.2) (same session)

theorem same_ioOpen : next.IoOpen = gateway.IoOpen := by
  funext place
  cases place <;> simp only [IoOpen, same_isOpen same]

/-- A step that generates, delivers and retains nothing, in which no session comes or goes. -/
theorem Ordered.kept (ordered : Ordered gateway) (options : next.options = gateway.options)
    (history : next.history = gateway.history) (pending : next.pendingReports = gateway.pendingReports)
    (matching : inFlight next.matching = inFlight gateway.matching)
    (sessions : ∀ accountId, (next.accountSessions accountId).filter gateway.isOpen =
      (gateway.accountSessions accountId).filter gateway.isOpen)
    (io : gateway.IoOpen next.io) : Ordered next := by
  have bound := same_bound same
  have isOpen := same_isOpen same
  refine ⟨fun session => ?_, ?_, fun accountId => ?_, fun session accountId => ?_, ?_,
    fun session accountId before after split => ?_, ?_⟩
  · rw [same_queues same, same_handedOver same, same_delivered same]
    exact ordered.queues session
  · rw [history, bound]
    exact ordered.bindings
  · rw [isOpen, sessions, history]
    exact ordered.live accountId
  · rw [bound, isOpen]
    intro member opened
    have there := List.mem_filter.mpr ⟨ordered.members session accountId member opened, opened⟩
    rw [← sessions] at there
    exact (List.mem_filter.mp there).1
  · rw [pending, history, options]
    exact ordered.retained
  · rw [same_handedOver same, same_delivered same, matching, options]
    exact ordered.handed session accountId before after (history ▸ split)
  · rw [same_ioOpen same]
    exact io

end Same

/-- A step that does not touch the connections or the sessions of an account. -/
theorem Ordered.moved (ordered : Ordered gateway) (connections : next.connections = gateway.connections)
    (options : next.options = gateway.options) (history : next.history = gateway.history)
    (pending : next.pendingReports = gateway.pendingReports) (sessions : next.accountSessions = gateway.accountSessions)
    (matching : inFlight next.matching = inFlight gateway.matching) (io : gateway.IoOpen next.io) : Ordered next :=
  ordered.kept (fun _ => by rw [connections]) options history pending matching (fun _ => by rw [sessions]) io

/-- A session that has not bound has no reports. -/
theorem Ordered.none_unbound (ordered : Ordered gateway) (isolated : Isolated gateway) {session : SessionId}
    (unbound : (gateway.connections session).accountId = none) :
    (gateway.connections session).takenReports = [] ∧ (gateway.connections session).replayBacklog = [] ∧
      (gateway.connections session).outbound = [] ∧ (gateway.connections session).handedOver = [] ∧
      (gateway.connections session).delivered = [] := by
  have none : (gateway.connections session).reports = [] := by
    refine List.eq_nil_iff_forall_not_mem.mpr fun message member => ?_
    have bound := isolated.reports session message member
    rw [Bound, unbound] at bound
    cases bound
  obtain ⟨queued, taken⟩ := List.append_eq_nil_iff.mp none
  obtain ⟨backlog, outbound⟩ := List.append_eq_nil_iff.mp queued
  have queues := ordered.queues session
  rw [taken, backlog, outbound] at queues
  obtain ⟨handed, delivered⟩ := List.append_eq_nil_iff.mp queues.symm
  exact ⟨taken, backlog, outbound, handed, delivered⟩

theorem Ordered.popOutbound (ordered : Ordered gateway) (session : SessionId) :
    Ordered (gateway.popOutbound session) := by
  have done (connection : Connection) (same : connection.record = (gateway.connections session).record) :
      Ordered (gateway.setConnection session connection) :=
    ordered.kept (setConnection_keeps gateway session connection Connection.record same) rfl rfl rfl rfl (fun _ => rfl)
      ordered.io
  unfold OrderEntryGateway.popOutbound
  dsimp only
  split
  next message rest backlog =>
    refine done _ ?_
    simp only [Connection.record, backlog, List.append_assoc, List.cons_append, List.nil_append]
  next => exact done _ rfl
  next message rest backlog _ outbound =>
    refine done _ ?_
    simp only [Connection.record, backlog, outbound, List.append_assoc, List.cons_append, List.nil_append]
  next => exact ordered

/-- A connection that has just been accepted is open and has no account. -/
theorem Ordered.accept (ordered : Ordered gateway) (isolated : Isolated gateway) (waits : gateway.io = .waiting) :
    Ordered gateway.acceptReady := by
  have fresh := isolated.unseen _ le_rfl
  have others : ∀ session ≠ gateway.nextSessionId,
      gateway.acceptReady.connections session = gateway.connections session :=
    fun session different => setConnection_other _ _ _ _ different
  have bound : gateway.acceptReady.Bound = gateway.Bound := by
    funext session accountId
    refine congrArg (· = some accountId) (setConnection_keeps gateway _ _ Connection.accountId ?_ session)
    rw [fresh]
  have handedOver := setConnection_keeps gateway gateway.nextSessionId { closed := false } Connection.handedOver
    (by rw [fresh])
  have delivered := setConnection_keeps gateway gateway.nextSessionId { closed := false } Connection.delivered
    (by rw [fresh])
  have sameOpen : ∀ accountId session, gateway.Bound session accountId →
      gateway.acceptReady.isOpen session = gateway.isOpen session := by
    intro accountId session member
    exact congrArg (fun connection => !connection.closed) (others session (isolated.seen_of_bound member).ne)
  refine ⟨?_, ?_, fun accountId => ?_, fun session accountId member opened => ?_, ordered.retained,
    fun session accountId before after split => ?_, ?_⟩
  · exact setConnection_forall gateway gateway.nextSessionId { closed := false }
      (fun _ connection => connection.takenReports ++ connection.replayBacklog ++ connection.outbound =
        connection.handedOver ++ connection.delivered) rfl fun session _ => ordered.queues session
  · rw [bound]
    exact ordered.bindings
  · rw [← show _ = liveSessions accountId gateway.acceptReady.history from ordered.live accountId]
    exact List.filter_congr fun session member => sameOpen accountId session (isolated.sessions accountId session member)
  · rw [bound] at member
    rw [sameOpen accountId session member] at opened
    exact ordered.members session accountId member opened
  · obtain ⟨handed, sublist⟩ := ordered.handed session accountId before after split
    exact ⟨(handedOver session).trans handed, (delivered session).symm ▸ sublist⟩
  · show IoOpen _ gateway.io
    rw [waits]
    trivial

theorem isOpen_close (session other : SessionId) :
    (gateway.closeConnection session).isOpen other = (gateway.isOpen other && decide (other ≠ session)) := by
  by_cases same : other = session
  · subst same
    have closed : ((gateway.closeConnection other).connections other).closed = true :=
      congrArg Connection.closed (setConnection_self ..)
    simp only [isOpen, closed, Bool.not_true, ne_eq, not_true, decide_false, Bool.and_false]
  · have kept : ((gateway.closeConnection session).connections other).closed = (gateway.connections other).closed :=
      congrArg Connection.closed (setConnection_other _ _ _ _ same)
    simp only [isOpen, kept, ne_eq, same, not_false_iff, decide_true, Bool.and_true]

theorem Ordered.hangUp (ordered : Ordered gateway) (session : SessionId) :
    Ordered (gateway.closeConnection session) := by
  have bound : (gateway.closeConnection session).Bound = gateway.Bound := by
    funext other accountId
    exact congrArg (· = some accountId) (setConnection_keeps gateway session _ Connection.accountId (by rfl) other)
  refine ⟨?_, fun other accountId => ?_, fun accountId => ?_, fun other accountId member opened => ?_, fun accountId => ?_,
    fun other accountId before after split => ?_, ?_⟩
  · exact setConnection_forall gateway session _ (fun _ connection =>
      connection.takenReports ++ connection.replayBacklog ++ connection.outbound =
        connection.handedOver ++ connection.delivered) (ordered.queues session) fun other _ => ordered.queues other
  · have grown : Occurrence.bound other accountId ∈ gateway.history ++ [.closed session] ↔
        Occurrence.bound other accountId ∈ gateway.history := by simp
    rw [bound]
    exact grown.trans (ordered.bindings other accountId)
  · have closing : liveSessions accountId (gateway.history ++ [.closed session]) =
        (liveSessions accountId gateway.history).filter fun other => other ≠ session := by
      rw [liveSessions, watched_concat]
      rfl
    refine Eq.trans ?_ closing.symm
    rw [← ordered.live, List.filter_filter]
    refine List.filter_congr fun other _ => ?_
    rw [isOpen_close, Bool.and_comm]
  · rw [bound] at member
    rw [isOpen_close] at opened
    exact ordered.members other accountId member (Bool.and_eq_true_iff.mp opened).1
  · refine (ordered.retained accountId).trans ?_
    show _ = (sinceLive accountId (gateway.history ++ [.closed session])).rtake _
    rw [sinceLive, sinceLive, watched_concat]
    rfl
  · rcases concat_split split with ⟨_, _, different⟩ | ⟨rest, rfl, front⟩
    · cases different
    · obtain ⟨handed, sublist⟩ := ordered.handed other accountId before rest front
      have handedOver := setConnection_keeps gateway session { gateway.connections session with closed := true }
        Connection.handedOver (by rfl) other
      have delivered := setConnection_keeps gateway session { gateway.connections session with closed := true }
        Connection.delivered (by rfl) other
      rw [generatedFor_append]
      exact ⟨handedOver.trans handed,
        (delivered.symm ▸ sublist).trans (List.sublist_append_left ..)⟩
  · show ¬ (gateway.closeConnection session).isOpen session
    simp [isOpen_close]

theorem inFlight_of_free (free : gateway.sessionsFree) (session : SessionId) : inFlight gateway.matching session = [] := by
  unfold sessionsFree at free
  split at free
  next place => rw [place]; rfl
  next place => rw [place]; rfl
  all_goals cases free

section Bind
variable (session : SessionId) (command : ExchangeCommand)

theorem bindSession_other {other : SessionId} (different : other ≠ session) :
    (gateway.bindSession session command).connections other = gateway.connections other :=
  setConnection_other _ _ _ _ different

theorem bindSession_bound : (gateway.bindSession session command).Bound session command.accountId :=
  congrArg Connection.accountId (setConnection_self ..)

theorem bindSession_isOpen : (gateway.bindSession session command).isOpen = gateway.isOpen := by
  funext other
  exact congrArg (! ·) (setConnection_keeps gateway session _ Connection.closed (by rfl) other)

theorem bindSession_watched (accountId : AccountId) :
    watched accountId (gateway.bindSession session command).history =
      if command.accountId = accountId then { live := liveSessions accountId gateway.history ++ [session] }
      else watched accountId gateway.history :=
  watched_concat accountId gateway.history (.bound session command.accountId)

theorem bindSession_sessions (accountId : AccountId) :
    (gateway.bindSession session command).accountSessions accountId =
      if accountId = command.accountId then gateway.accountSessions command.accountId ++ [session]
      else gateway.accountSessions accountId :=
  Function.update_apply ..

variable {session command} (ordered : Ordered gateway) (unbound : (gateway.connections session).accountId = none)
include ordered unbound

/-- A session that has not bound is not in the history. -/
theorem Ordered.no_binding (accountId : AccountId) : Occurrence.bound session accountId ∉ gateway.history := by
  intro earlier
  have bound := (ordered.bindings session accountId).mp earlier
  rw [Bound, unbound] at bound
  cases bound

theorem Ordered.bind_bindings (other : SessionId) (accountId : AccountId) :
    Occurrence.bound other accountId ∈ (gateway.bindSession session command).history ↔
      (gateway.bindSession session command).Bound other accountId := by
  have grown : Occurrence.bound other accountId ∈ (gateway.bindSession session command).history ↔
      Occurrence.bound other accountId ∈ gateway.history ∨ (other = session ∧ accountId = command.accountId) := by
    show _ ∈ gateway.history ++ [.bound session command.accountId] ↔ _
    simp
  rw [grown]
  by_cases same : other = session
  · subst same
    rw [Bound, show _ = some _ from bindSession_bound other command, Option.some.injEq]
    simp only [ordered.no_binding unbound accountId, true_and, false_or]
    exact eq_comm
  · simp only [same, false_and, or_false]
    rw [ordered.bindings, Bound, Bound, bindSession_other session command same]

theorem Ordered.bind_members {other : SessionId} {accountId : AccountId}
    (member : (gateway.bindSession session command).Bound other accountId) (opened : gateway.isOpen other) :
    other ∈ (gateway.bindSession session command).accountSessions accountId := by
  rw [bindSession_sessions]
  by_cases same : other = session
  · subst same
    have own : accountId = command.accountId := Option.some.inj (member.symm.trans (bindSession_bound other command))
    rw [if_pos own]
    exact List.mem_append_right _ (List.mem_singleton_self other)
  · rw [Bound, bindSession_other session command same] at member
    have there := ordered.members other accountId member opened
    split_ifs with own
    · exact List.mem_append_left _ (own ▸ there)
    · exact there

/-- A session that binds is handed what was retained. -/
theorem Ordered.bind_handed (isolated : Isolated gateway) (free : gateway.sessionsFree) {other : SessionId}
    {accountId : AccountId} {before after : List Occurrence}
    (split : (gateway.bindSession session command).history = before ++ .bound other accountId :: after) :
    ((gateway.bindSession session command).connections other).handedOver =
        (sinceLive accountId before).rtake gateway.options.pendingReportCapacity ∧
      List.Sublist (((gateway.bindSession session command).connections other).delivered ++
        inFlight gateway.matching other) (generatedFor accountId after) := by
  rcases concat_split split with ⟨rfl, rfl, new⟩ | ⟨rest, rfl, front⟩
  · cases new
    have handed : ((gateway.bindSession session command).connections session).handedOver =
        gateway.pendingReports command.accountId := congrArg Connection.handedOver (setConnection_self ..)
    have delivered : ((gateway.bindSession session command).connections session).delivered = [] :=
      (congrArg Connection.delivered (setConnection_self ..)).trans (ordered.none_unbound isolated unbound).2.2.2.2
    rw [delivered, inFlight_of_free free]
    exact ⟨handed.trans (ordered.retained _), List.Sublist.refl _⟩
  · have earlier : Occurrence.bound other accountId ∈ gateway.history := by
      rw [front]
      exact List.mem_append_right _ List.mem_cons_self
    have different : other ≠ session := by
      rintro rfl
      exact ordered.no_binding unbound accountId earlier
    obtain ⟨handed, sublist⟩ := ordered.handed other accountId before rest front
    rw [bindSession_other session command different, generatedFor_append]
    exact ⟨handed, sublist.trans (List.sublist_append_left ..)⟩

end Bind

/-- What was retained is handed over as the session comes to live. -/
theorem Ordered.bind (ordered : Ordered gateway) (isolated : Isolated gateway) {session : SessionId}
    {command : ExchangeCommand} (place : gateway.io = .binding session command) (free : gateway.sessionsFree) :
    Ordered (gateway.bindSession session command) := by
  have ioFine := isolated.io
  have ioOpen := ordered.io
  rw [place] at ioFine ioOpen
  have unbound := ioFine.2
  obtain ⟨taken, backlog, outbound, _, delivered⟩ := ordered.none_unbound isolated unbound
  refine ⟨?_, ordered.bind_bindings unbound, fun accountId => ?_, fun other accountId member opened => ?_,
    fun accountId => ?_, fun _ _ _ _ split => ordered.bind_handed unbound isolated free split, ?_⟩
  · refine setConnection_forall gateway session _ (fun _ connection =>
      connection.takenReports ++ connection.replayBacklog ++ connection.outbound =
        connection.handedOver ++ connection.delivered) ?_ fun other _ => ordered.queues other
    dsimp only
    rw [taken, backlog, outbound, delivered]
    split_ifs with empty
    · rw [empty]
      rfl
    · rw [List.nil_append]
  · rw [liveSessions, bindSession_watched, bindSession_isOpen, bindSession_sessions]
    by_cases own : accountId = command.accountId
    · subst own
      rw [if_pos rfl, if_pos rfl, List.filter_append, ordered.live]
      congr 1
      exact List.filter_cons_of_pos ioOpen
    · rw [if_neg own, if_neg (Ne.symm own), ordered.live]
      rfl
  · rw [bindSession_isOpen] at opened
    exact ordered.bind_members unbound member opened
  · rw [sinceLive, bindSession_watched]
    show Function.update gateway.pendingReports command.accountId [] accountId = List.rtake _ _
    rw [Function.update_apply]
    by_cases own : accountId = command.accountId
    · rw [if_pos own, if_pos own.symm]
      exact (List.rtake_nil _).symm
    · rw [if_neg own, if_neg (Ne.symm own)]
      exact ordered.retained accountId
  · show (gateway.bindSession session command).isOpen session
    rw [bindSession_isOpen]
    exact ioOpen

theorem Ordered.unbind (ordered : Ordered gateway) {session : SessionId} (place : gateway.io = .unbinding session) :
    Ordered (gateway.unbindSession session) := by
  have gone : ¬ gateway.isOpen session := by
    have ioOpen := ordered.io
    rwa [place] at ioOpen
  unfold unbindSession
  split
  · exact ordered.moved rfl rfl rfl rfl rfl rfl trivial
  next accountId _ =>
    refine ordered.kept (fun _ => by rfl) rfl rfl rfl rfl (fun other => ?_) trivial
    dsimp only
    rw [Function.update_apply]
    split_ifs with same
    · rw [same, List.filter_filter]
      refine List.filter_congr fun bound _ => ?_
      by_cases self : bound = session
      · rw [self]
        simp [gone]
      · simp [self]
    · rfl

section Generate
variable {message : Message} (ordered : Ordered gateway)
include ordered

theorem Ordered.generated_bindings (session : SessionId) (accountId : AccountId) :
    .bound session accountId ∈ gateway.history ++ [.generated message] ↔ gateway.Bound session accountId := by
  rw [← ordered.bindings]
  simp

theorem Ordered.generated_live (accountId : AccountId) :
    (gateway.accountSessions accountId).filter gateway.isOpen =
      liveSessions accountId (gateway.history ++ [.generated message]) := by
  rw [liveSessions_generated]
  exact ordered.live accountId

theorem Ordered.generated_handed {session : SessionId} {accountId : AccountId} {before after : List Occurrence}
    (split : gateway.history ++ [.generated message] = before ++ .bound session accountId :: after) :
    (gateway.connections session).handedOver =
        (sinceLive accountId before).rtake gateway.options.pendingReportCapacity ∧
      List.Sublist ((gateway.connections session).delivered ++ inFlight gateway.matching session ++
        if message.accountId = accountId then [message] else []) (generatedFor accountId after) := by
  rcases concat_split split with ⟨_, _, different⟩ | ⟨rest, rfl, front⟩
  · cases different
  · obtain ⟨handed, sublist⟩ := ordered.handed session accountId before rest front
    rw [generatedFor_append, generatedFor_generated]
    exact ⟨handed, sublist.append_right _⟩

end Generate

/-- A report for which there is no session joins those retained. -/
theorem Ordered.retain (ordered : Ordered gateway) {key : OrderKey} {message : Message}
    {reports : List (OrderKey × Message)} {event : ExchangeEvent} {events : List ExchangeEvent}
    (account : message.accountId = key.accountId)
    (place : gateway.matching = .delivering ((key, message) :: reports) event events)
    (resolved : gateway.resolve key = none) :
    Ordered { ({ gateway with history := gateway.history ++ [.generated message] } : OrderEntryGateway).retain
      key.accountId message with matching := .delivering reports event events } := by
  have none : liveSessions key.accountId gateway.history = [] := by
    rw [← ordered.live]
    unfold resolve at resolved
    split at resolved
    · cases resolved
    · exact List.filter_eq_nil_iff.mpr (List.find?_eq_none.mp resolved)
  have pending : ∀ accountId, ((({ gateway with history := gateway.history ++ [.generated message] } :
      OrderEntryGateway).retain key.accountId message).pendingReports accountId =
        (sinceLive accountId (gateway.history ++ [.generated message])).rtake gateway.options.pendingReportCapacity) := by
    intro accountId
    rw [sinceLive_generated, account]
    unfold OrderEntryGateway.retain
    dsimp only
    by_cases off : gateway.options.pendingReportCapacity = 0
    · rw [if_pos off]
      dsimp only
      rw [ordered.retained, off, List.rtake_zero, List.rtake_zero]
    · rw [if_neg off]
      dsimp only
      rw [Function.update_apply]
      by_cases own : accountId = key.accountId
      · have waits : key.accountId = key.accountId ∧ liveSessions key.accountId gateway.history = [] := ⟨rfl, none⟩
        rw [if_pos own, own, if_pos waits, ordered.retained]
        exact retained_concat (Nat.pos_of_ne_zero off) _ message
      · rw [if_neg own, if_neg fun both => own both.1.symm, List.append_nil]
        exact ordered.retained accountId
  have handed : ∀ session accountId before after,
      gateway.history ++ [.generated message] = before ++ .bound session accountId :: after →
        (gateway.connections session).handedOver =
            (sinceLive accountId before).rtake gateway.options.pendingReportCapacity ∧
          List.Sublist ((gateway.connections session).delivered ++ []) (generatedFor accountId after) := by
    intro session accountId before after split
    obtain ⟨handed, sublist⟩ := ordered.generated_handed split
    rw [place] at sublist
    exact ⟨handed, (List.sublist_append_left ..).trans sublist⟩
  unfold OrderEntryGateway.retain at pending ⊢
  dsimp only at pending ⊢
  split_ifs at pending ⊢ <;>
    exact ⟨ordered.queues, ordered.generated_bindings, ordered.generated_live, ordered.members, pending, handed, ordered.io⟩

/-- A report that goes to a session is the newest of its account. -/
theorem Ordered.target (ordered : Ordered gateway) (isolated : Isolated gateway) {key : OrderKey} {message : Message}
    {reports : List (OrderKey × Message)} {event : ExchangeEvent} {events : List ExchangeEvent} {session : SessionId}
    (account : message.accountId = key.accountId)
    (place : gateway.matching = .delivering ((key, message) :: reports) event events)
    (resolved : gateway.resolve key = some session) :
    Ordered { gateway with
      history := gateway.history ++ [.generated message]
      matching := .pushing session message reports event events } := by
  have bound := isolated.resolve_bound resolved
  have opened : gateway.isOpen session := by
    unfold resolve at resolved
    split at resolved
    next owner found =>
      cases resolved
      exact (Option.filter_eq_some_iff.mp found).2
    next => exact List.find?_some resolved
  have live : liveSessions key.accountId gateway.history ≠ [] := by
    rw [← ordered.live]
    exact List.ne_nil_of_mem (List.mem_filter.mpr ⟨ordered.members session key.accountId bound opened, opened⟩)
  refine ⟨ordered.queues, ordered.generated_bindings, ordered.generated_live, ordered.members, fun accountId => ?_,
    fun other accountId before after (split : gateway.history ++ [.generated message] = _) => ?_, ordered.io⟩
  · show _ = (sinceLive accountId (gateway.history ++ [.generated message])).rtake _
    rw [sinceLive_generated, account, if_neg (by rintro ⟨rfl, none⟩; exact live none), List.append_nil]
    exact ordered.retained accountId
  · obtain ⟨handed, sublist⟩ := ordered.generated_handed split
    refine ⟨handed, ?_⟩
    rw [place] at sublist
    have nothing : inFlight (.delivering ((key, message) :: reports) event events) other = [] := rfl
    rw [nothing, List.append_nil] at sublist
    show List.Sublist (_ ++ if session = other then [message] else []) _
    by_cases same : session = other
    · subst same
      have member : Occurrence.bound session accountId ∈ gateway.history ++ [.generated message] := by
        rw [split]
        exact List.mem_append_right _ List.mem_cons_self
      have own : gateway.Bound session accountId := (ordered.generated_bindings session accountId).mp member
      have same : message.accountId = accountId := account.trans (Option.some.inj (bound.symm.trans own))
      rw [if_pos rfl]
      rwa [if_pos same] at sublist
    · rw [if_neg same, List.append_nil]
      exact (List.sublist_append_left ..).trans sublist

/-- A change to one connection that takes what was in flight to it, or loses it. -/
theorem Ordered.arrived (ordered : Ordered gateway) {target : SessionId} {connection : Connection} {place : MatchingPlace}
    (account : connection.accountId = (gateway.connections target).accountId)
    (closed : connection.closed = (gateway.connections target).closed)
    (handedOver : connection.handedOver = (gateway.connections target).handedOver)
    (queues : connection.takenReports ++ connection.replayBacklog ++ connection.outbound =
      connection.handedOver ++ connection.delivered)
    (delivered : ∀ session, List.Sublist
      (((gateway.setConnection target connection).connections session).delivered ++ inFlight place session)
      ((gateway.connections session).delivered ++ inFlight gateway.matching session)) :
    Ordered { gateway.setConnection target connection with matching := place } := by
  have bound := bound_setConnection account
  have isOpen : (gateway.setConnection target connection).isOpen = gateway.isOpen := by
    funext session
    exact congrArg (! ·) (setConnection_keeps gateway target connection Connection.closed closed session)
  refine ⟨setConnection_forall gateway target connection (fun _ connection =>
      connection.takenReports ++ connection.replayBacklog ++ connection.outbound =
        connection.handedOver ++ connection.delivered) queues fun session _ => ordered.queues session,
    fun session accountId => ?_, fun accountId => ?_, fun session accountId member opened => ?_, ordered.retained,
    fun session accountId before after split => ?_, ?_⟩
  · exact (ordered.bindings session accountId).trans (by rw [← bound]; rfl)
  · exact (congrArg (fun opened => List.filter opened _) isOpen).trans (ordered.live accountId)
  · exact ordered.members session accountId (bound ▸ member) (isOpen ▸ opened)
  · obtain ⟨handed, sublist⟩ := ordered.handed session accountId before after split
    exact ⟨(setConnection_keeps gateway target connection Connection.handedOver handedOver session).trans handed,
      (delivered session).trans sublist⟩
  · have ioOpen : (gateway.setConnection target connection).IoOpen = gateway.IoOpen := by
      funext place
      cases place <;> simp only [IoOpen, isOpen]
    show (gateway.setConnection target connection).IoOpen gateway.io
    rw [ioOpen]
    exact ordered.io

/-- The report on its way has arrived, or found the queue full. -/
theorem Ordered.push (ordered : Ordered gateway) {target : SessionId} {message : Message}
    {reports : List (OrderKey × Message)} {event : ExchangeEvent} {events : List ExchangeEvent}
    (place : gateway.matching = .pushing target message reports event events) :
    Ordered { gateway.deliver target message with matching := .delivering reports event events } := by
  unfold OrderEntryGateway.deliver
  dsimp only
  split_ifs
  · refine ⟨ordered.queues, ordered.bindings, ordered.live, ordered.members, ordered.retained,
      fun session accountId before after split => ?_, ordered.io⟩
    obtain ⟨handed, sublist⟩ := ordered.handed session accountId before after split
    refine ⟨handed, ?_⟩
    show List.Sublist (_ ++ []) _
    rw [List.append_nil]
    exact (List.sublist_append_left ..).trans sublist
  · refine ordered.arrived rfl rfl rfl ?_ fun session => ?_
    · dsimp only
      rw [← List.append_assoc, ordered.queues, List.append_assoc]
    · rw [place]
      show List.Sublist (_ ++ []) (_ ++ if target = session then [message] else [])
      rw [List.append_nil]
      by_cases same : target = session
      · subst same
        rw [setConnection_self, if_pos rfl]
      · rw [setConnection_other _ _ _ _ (Ne.symm same)]
        exact List.sublist_append_left ..

/-- Every step keeps the reports in order. -/
theorem Ordered.step (ordered : Ordered gateway) (isolated : Isolated gateway) (move : Move round gateway next) :
    Ordered next := by
  have ioOpen := ordered.io
  have matchingFine := isolated.matching
  cases move with
  | accept waits => exact ordered.accept isolated waits
  | receive session chunk waits isOpen =>
    exact ordered.kept (setConnection_keeps gateway session _ Connection.record (by rfl)) rfl rfl rfl rfl (fun _ => rfl)
      isOpen
  | hangUp session waits isOpen => exact ordered.hangUp session
  | popOutbound session waits isOpen => exact ordered.popOutbound session
  | frameDone session place => exact ordered.moved rfl rfl rfl rfl rfl rfl trivial
  | frameSkipped session rest place =>
    exact ordered.kept (setConnection_keeps gateway session _ Connection.record (by rfl)) rfl rfl rfl rfl (fun _ => rfl)
      ioOpen
  | request session command rest place =>
    rw [place] at ioOpen
    refine ordered.kept (setConnection_keeps gateway session _ Connection.record (by rfl)) rfl rfl rfl rfl (fun _ => rfl) ?_
    unfold OrderEntryGateway.request
    dsimp only
    split
    · exact ioOpen
    · split_ifs <;> exact ioOpen
  | bind session command place free => exact ordered.bind isolated place free
  | reject session command place =>
    rw [place] at ioOpen
    unfold rejectAccountMismatch
    dsimp only
    split_ifs
    · exact ordered.moved rfl rfl rfl rfl rfl rfl ioOpen
    · exact ordered.kept (setConnection_keeps gateway session _ Connection.record (by rfl)) rfl rfl rfl rfl (fun _ => rfl)
        ioOpen
  | claim session command place free =>
    rw [place] at ioOpen
    unfold claimOrderOwnership
    dsimp only
    split <;> exact ordered.moved rfl rfl rfl rfl rfl rfl ioOpen
  | submit session command claimed place =>
    rw [place] at ioOpen
    unfold submitCommand
    dsimp only
    split_ifs <;> exact ordered.moved rfl rfl rfl rfl rfl rfl ioOpen
  | unbind session place free => exact ordered.unbind place
  | processNext session command queue place queued =>
    exact ordered.moved rfl rfl rfl rfl rfl (by rw [place]; rfl) ioOpen
  | routed place => exact ordered.moved rfl rfl rfl rfl rfl (by rw [place]; rfl) ioOpen
  | silent event events place none => exact ordered.moved rfl rfl rfl rfl rfl (by rw [place]; rfl) ioOpen
  | lock event events place => exact ordered.moved rfl rfl rfl rfl rfl (by rw [place]; rfl) ioOpen
  | unlock event events place => exact ordered.moved rfl rfl rfl rfl rfl (by rw [place]; rfl) ioOpen
  | target key message reports event events session place resolved =>
    rw [place] at matchingFine
    exact ordered.target isolated (matchingFine (key, message) List.mem_cons_self) place resolved
  | retain key message reports event events place resolved =>
    rw [place] at matchingFine
    exact ordered.retain (matchingFine (key, message) List.mem_cons_self) place resolved
  | push session message reports event events place => exact ordered.push place

theorem start_ordered (options : OrderEntryGatewayOptions) (limits : RiskLimits) (instruments : List InstrumentId)
    (deposits : List Deposit) : Ordered (start round options limits instruments deposits) where
  queues _ := rfl
  bindings _ _ := ⟨fun member => (List.not_mem_nil member).elim, fun bound => by cases bound⟩
  live _ := rfl
  members _ _ bound := by cases bound
  retained _ := (List.rtake_nil _).symm
  handed _ _ before _ split := by simp [start] at split
  io := trivial

section Runs
variable {options : OrderEntryGatewayOptions} {limits : RiskLimits} {instruments : List InstrumentId}
  {deposits : List Deposit}

theorem run_ordered {actions : List GatewayAction}
    (ran : Transitions.run (step round) (start round options limits instruments deposits) actions = some gateway) :
    Isolated gateway ∧ Ordered gateway :=
  run_rule (fun state => Isolated state ∧ Ordered state)
    (fun _ _ before move => ⟨before.1.step move, before.2.step before.1 move⟩)
    ⟨start_isolated options limits instruments deposits, start_ordered options limits instruments deposits⟩ ran

/-- The live sessions of the history are those bound and open. -/
theorem Ordered.live_iff (ordered : Ordered gateway) (isolated : Isolated gateway) (accountId : AccountId)
    (session : SessionId) :
    session ∈ liveSessions accountId gateway.history ↔ gateway.Bound session accountId ∧ gateway.isOpen session := by
  rw [← ordered.live, List.mem_filter]
  constructor
  · rintro ⟨member, opened⟩
    exact ⟨isolated.sessions accountId session member, opened⟩
  · rintro ⟨bound, opened⟩
    exact ⟨ordered.members session accountId bound opened, opened⟩

/-- What a session was handed and delivered is in the order generated. -/
theorem Ordered.sublist (ordered : Ordered gateway) {session : SessionId} {accountId : AccountId}
    {before after : List Occurrence} (split : gateway.history = before ++ .bound session accountId :: after) :
    List.Sublist ((gateway.connections session).handedOver ++ (gateway.connections session).delivered)
      (generatedFor accountId gateway.history) := by
  obtain ⟨handed, delivered⟩ := ordered.handed session accountId before after split
  have front : List.Sublist (gateway.connections session).handedOver (generatedFor accountId before) := by
    rw [handed]
    exact (List.drop_sublist ..).trans (sinceLive_sublist accountId before)
  have back : List.Sublist (gateway.connections session).delivered (generatedFor accountId (.bound session accountId :: after)) :=
    (List.sublist_append_left ..).trans delivered
  rw [split, generatedFor_append]
  exact front.append back

/-- Reports across reconnects. A session takes out reports of its account in the order generated;
those retained are the newest generated since the account last had a live session, and there are
none while it has one; a session that binds is handed all of them, to take out before what is
generated later, and they are retained no more. -/
theorem reports_in_order {actions : List GatewayAction}
    (ran : Transitions.run (step round) (start round options limits instruments deposits) actions = some gateway) :
    (∀ session, (gateway.connections session).takenReports = [] ∨ ∃ accountId, gateway.Bound session accountId ∧
      List.Sublist (gateway.connections session).takenReports (generatedFor accountId gateway.history)) ∧
    (∀ accountId, gateway.pendingReports accountId =
        (sinceLive accountId gateway.history).rtake options.pendingReportCapacity ∧
      (gateway.pendingReports accountId ≠ [] → liveSessions accountId gateway.history = []) ∧
      ∀ session, session ∈ liveSessions accountId gateway.history ↔
        gateway.Bound session accountId ∧ gateway.isOpen session) ∧
    ∀ session accountId, (gateway.Bound session accountId ↔
        ∃ before after, gateway.history = before ++ .bound session accountId :: after) ∧
      ∀ before after, gateway.history = before ++ .bound session accountId :: after →
        (gateway.connections session).handedOver = (sinceLive accountId before).rtake options.pendingReportCapacity ∧
        (gateway.connections session).takenReports ++ (gateway.connections session).replayBacklog ++
            (gateway.connections session).outbound =
          (gateway.connections session).handedOver ++ (gateway.connections session).delivered ∧
        List.Sublist (gateway.connections session).delivered (generatedFor accountId after) ∧
        List.Sublist (sinceLive accountId gateway.history) (generatedFor accountId after) := by
  obtain ⟨isolated, ordered⟩ := run_ordered ran
  have capacity : gateway.options = options :=
    run_rule (fun state => state.options = options) (fun _ _ before move => move.options.trans before) rfl ran
  have bound : ∀ session accountId, gateway.Bound session accountId ↔
      ∃ before after, gateway.history = before ++ .bound session accountId :: after :=
    fun session accountId => (ordered.bindings session accountId).symm.trans List.mem_iff_append
  refine ⟨fun session => ?_, fun accountId => ⟨?_, fun some => ?_, ordered.live_iff isolated accountId⟩,
    fun session accountId => ⟨bound session accountId, fun before after split => ⟨?_, ordered.queues session, ?_, ?_⟩⟩⟩
  · cases account : (gateway.connections session).accountId with
    | none => exact Or.inl (ordered.none_unbound isolated account).1
    | some accountId =>
      obtain ⟨before, after, split⟩ := (bound session accountId).mp account
      refine Or.inr ⟨accountId, account, List.Sublist.trans ?_ (ordered.sublist split)⟩
      rw [← ordered.queues session, List.append_assoc]
      exact List.sublist_append_left ..
  · rw [← capacity]
    exact ordered.retained accountId
  · by_contra live
    rw [ordered.retained, sinceLive_of_live accountId gateway.history live, List.rtake_nil] at some
    exact some rfl
  · rw [← capacity]
    exact (ordered.handed session accountId before after split).1
  · exact (List.sublist_append_left ..).trans (ordered.handed session accountId before after split).2
  · rw [split]
    exact sinceLive_after_bound accountId session before after

end Runs

/-- What a cancel of an order that is not there is answered with. -/
def unknownOrder (accountId : AccountId) (clientOrderId : ClientOrderId) (instrumentId : InstrumentId) : Message :=
  .rejected { accountId, clientOrderId, instrumentId, reason := .unknownOrderId }

/-- The first session hangs up before its request is answered; the second is handed the answer. -/
theorem reports_in_order_reconnect :
    ∃ gateway : OrderEntryGateway, (gateway.connections 2).takenReports = [unknownOrder 7 4 3] ∧
      (gateway.connections 1).takenReports = [] ∧
      (∀ accountId, gateway.pendingReports accountId = (sinceLive accountId gateway.history).rtake 1024) ∧
      List.Sublist (gateway.connections 2).takenReports (generatedFor 7 gateway.history) := by
  have comes : (Transitions.run (step .machine) (start .machine {} {} [3] [])
        ([.accept, .receive 1 (cancelFrame 7 4 3)] ++ List.replicate 5 .io ++ [.hangUp 1, .io] ++
          List.replicate 5 .matching ++ [.accept, .receive 2 (cancelFrame 7 5 3)] ++ List.replicate 5 .io ++
          [.popOutbound 2])).map (fun gateway =>
      ((gateway.connections 2).takenReports, (gateway.connections 1).takenReports, (gateway.connections 2).accountId)) =
      some ([unknownOrder 7 4 3], [], some 7) := by
    decide +kernel
  obtain ⟨gateway, ran, seen⟩ := Option.map_eq_some_iff.mp comes
  obtain ⟨second, seen⟩ := Prod.mk.inj seen
  obtain ⟨first, account⟩ := Prod.mk.inj seen
  obtain ⟨taken, retained, _⟩ := reports_in_order ran
  refine ⟨gateway, second, first, fun accountId => (retained accountId).1, ?_⟩
  rcases taken 2 with none | ⟨accountId, bound, sublist⟩
  · rw [second] at none
    cases none
  · cases bound.symm.trans account
    exact sublist

end OrderEntryGateway

end Mdh.Gateway
