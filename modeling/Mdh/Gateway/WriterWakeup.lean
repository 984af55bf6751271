import Mdh.Gateway.OrderEntryGateway
import Mdh.Lib.SpscRing

/-! How a report queued by one thread comes to be written by the other. A step is an atomic load
or store, the write of a ring slot, or a section under a mutex; what only the I/O thread touches
goes with the step that uses it. -/

namespace Mdh.Gateway
open Mdh.Core Mdh.Lib Mdh.Lib.SpscRing Mdh.Matching

/-- The part of a connection its writer works on. One that is not there yet counts as closed. -/
structure WriterConnection where
  outbound : SpscRing Message
  sessionOutbound : List Message := []
  replayBacklog : List Message := []
  writePending : List Message := []
  accountId : Option AccountId := none
  closed : Bool := true
  writeInterest : Bool := false
  dirty : Bool := false

/-- Where a thread stands in `mark_dirty`. -/
inductive MarkPlace where
  | claiming (session : SessionId)
  | pushing (place : PushPlace SessionId)
  | overflowing (session : SessionId)
  deriving DecidableEq, Repr

/-- Where the matching thread stands in `route_event`, with the sessions it has to wake. -/
inductive RoutingPlace where
  | idle
  | routing (reports : List (OrderKey × Message)) (wake : List SessionId)
  | delivering (session : SessionId) (place : PushPlace Message) (reports : List (OrderKey × Message))
      (wake : List SessionId)
  | notifying (place : MarkPlace) (wake : List SessionId)
  deriving DecidableEq, Repr

/-- Where the I/O thread stands: at the end of `bind_session` or `reject_account_mismatch`, in
`drain_dirty` with the connections still to scan if it scans, or in `handle_write`. -/
inductive WriterPlace where
  | idle
  | notifying (place : MarkPlace)
  | draining (place : PopPlace SessionId)
  | clearing (session : SessionId)
  | enabling (session : SessionId) (scan : Option (List SessionId))
  | takingOverflow
  | scanning (scan : List SessionId)
  | writing (session : SessionId)
  | taking (session : SessionId) (taken : List Message)
  | popping (session : SessionId) (taken : List Message) (place : PopPlace Message)
  | disabling (session : SessionId)
  deriving DecidableEq, Repr

/-- The connections and the two queues of `Connection*` hand-offs. An outbound queue has
`2 ^ outboundBits` slots, the next power of two of the capacity asked for. -/
structure WriterWakeup where
  outboundBits : Fin 64
  writerBatch : Nat
  connections : SessionId → WriterConnection
  nextSessionId : SessionId := 1
  dirty : SpscRing SessionId
  dirtyOverflow : Bool := false
  routing : RoutingPlace := .idle
  io : WriterPlace := .idle

/-- What the socket or the poller answers. -/
inductive IoAnswer where
  | ok
  | partly
  | wouldBlock
  | failed
  deriving DecidableEq, Repr

/-- What the I/O thread is called for, or its next step; an event to route, or the matching
thread's next step with the connection its report goes to. -/
inductive WakeupAction where
  | accept
  | bind (session : SessionId) (accountId : AccountId) (backlog : List Message)
  | reject (session : SessionId) (command : ExchangeCommand)
  | hangUp (session : SessionId)
  | drain
  | write (session : SessionId)
  | io (answer : IoAnswer)
  | route (event : ExchangeEvent)
  | matching (target : Option SessionId)
  deriving DecidableEq, Repr

namespace WriterWakeup

/-- What stands in an outbound slot before it is written first. -/
def blank : Message := .cancelOrder ⟨0, 0, 0⟩

def start (outboundBits : Fin 64) (writerBatch : Nat) : WriterWakeup where
  outboundBits
  writerBatch
  connections _ := { outbound := make outboundBits blank }
  dirty := make 16 0

variable (state : WriterWakeup)

def isOpen (session : SessionId) : Bool := !(state.connections session).closed

def setConnection (session : SessionId) (connection : WriterConnection) : WriterWakeup :=
  { state with connections := Function.update state.connections session connection }

section Notify

/-- One step of `mark_dirty`: the place it comes to, or that it returns. -/
def markStep : MarkPlace → WriterWakeup × Option MarkPlace
  | .claiming session =>
      if (state.connections session).dirty then (state, none)
      else (state.setConnection session { state.connections session with dirty := true },
        some (.pushing (.loadHead session)))
  | .pushing place =>
      let (ring, outcome) := state.dirty.pushStep place
      ({ state with dirty := ring }, match outcome with
        | .inl next => some (.pushing next)
        | .inr true => none
        | .inr false => some (.overflowing place.value))
  | .overflowing _ => ({ state with dirtyOverflow := true }, none)

/-- The connections `route_event` has collected, woken one after the other. -/
def notifyNext : List SessionId → RoutingPlace
  | [] => .idle
  | session :: wake => .notifying (.claiming session) wake

end Notify

section Matching

/-- At most two connections, each once. -/
def addWake (wake : List SessionId) (target : SessionId) : List SessionId :=
  if wake = [] ∨ wake.length = 1 ∧ wake.head? ≠ some target then wake ++ [target] else wake

/-- One step of the matching thread. A report goes to an open connection of its account, or to
none. -/
def matchingStep (target : Option SessionId) : Option WriterWakeup :=
  match state.routing with
  | .idle => none
  | .routing [] wake => some { state with routing := notifyNext wake }
  | .routing ((key, message) :: reports) wake =>
      match target with
      | none => some { state with routing := .routing reports wake }
      | some session =>
          if state.isOpen session ∧ (state.connections session).accountId = some key.accountId then
            some { state with routing := .delivering session (.loadHead message) reports wake }
          else none
  | .delivering session place reports wake =>
      let connection := state.connections session
      let (ring, outcome) := connection.outbound.pushStep place
      some { state.setConnection session { connection with outbound := ring } with
        routing := match outcome with
          | .inl next => .delivering session next reports wake
          | .inr true => .routing reports (addWake wake session)
          | .inr false => .routing reports wake }
  | .notifying place wake =>
      let (state, next) := state.markStep place
      some { state with
        routing := match next with
          | some next => .notifying next wake
          | none => notifyNext wake }

end Matching

section Io

def closeConnection (session : SessionId) : WriterWakeup :=
  state.setConnection session { state.connections session with closed := true }

def enableWrite (session : SessionId) (answer : IoAnswer) : WriterWakeup :=
  let connection := state.connections session
  if connection.closed ∨ connection.writeInterest then state
  else if answer = .failed then state.closeConnection session
  else state.setConnection session { connection with writeInterest := true }

def disableWrite (session : SessionId) (answer : IoAnswer) : WriterWakeup :=
  let connection := state.connections session
  if !connection.writeInterest then state
  else if answer = .failed then state.closeConnection session
  else state.setConnection session { connection with writeInterest := false }

/-- A message has been popped: it goes into the batch, which is written when it is full. -/
def take (session : SessionId) (taken : List Message) (message : Message) : WriterWakeup :=
  let taken := taken ++ [message]
  if taken.length < max 1 state.writerBatch then { state with io := .taking session taken }
  else { state.setConnection session { state.connections session with writePending := taken } with
    io := .writing session }

/-- No message is left: what has been taken is written, and without any the connection is done. -/
def takeNone (session : SessionId) (taken : List Message) : WriterWakeup :=
  if taken = [] then { state with io := .disabling session }
  else { state.setConnection session { state.connections session with writePending := taken } with
    io := .writing session }

/-- One step of `drain_dirty`. -/
def drainStep (place : PopPlace SessionId) : WriterWakeup :=
  let (ring, outcome) := state.dirty.popStep place
  { state with
    dirty := ring
    io := match outcome with
      | .inl next => .draining next
      | .inr none => .takingOverflow
      | .inr (some session) => .clearing session }

/-- One round of the loop of `handle_write`. -/
def writeStep (session : SessionId) (answer : IoAnswer) : WriterWakeup :=
  let connection := state.connections session
  if connection.closed then { state with io := .idle }
  else if connection.writePending = [] then { state with io := .taking session [] }
  else match answer with
    | .ok => state.setConnection session { connection with writePending := [] }
    | .partly | .wouldBlock => { state.enableWrite session answer with io := .idle }
    | .failed => { state.closeConnection session with io := .idle }

/-- The backlog first, then the gateway's own replies. -/
def takeStep (session : SessionId) (taken : List Message) : WriterWakeup :=
  let connection := state.connections session
  match connection.replayBacklog, connection.sessionOutbound with
  | message :: rest, _ => (state.setConnection session { connection with replayBacklog := rest }).take session taken message
  | [], message :: rest =>
      (state.setConnection session { connection with sessionOutbound := rest }).take session taken message
  | [], [] => { state with io := .popping session taken .loadTail }

/-- The live reports last. -/
def popStep (session : SessionId) (taken : List Message) (place : PopPlace Message) : WriterWakeup :=
  let connection := state.connections session
  let (ring, outcome) := connection.outbound.popStep place
  let state := state.setConnection session { connection with outbound := ring }
  match outcome with
  | .inl next => { state with io := .popping session taken next }
  | .inr none => state.takeNone session taken
  | .inr (some message) => state.take session taken message

/-- One step of the I/O thread. -/
def ioStep (answer : IoAnswer) : Option WriterWakeup :=
  match state.io with
  | .idle => none
  | .notifying place =>
      let (state, next) := state.markStep place
      some { state with
        io := match next with
          | some next => .notifying next
          | none => .idle }
  | .draining place => some (state.drainStep place)
  | .clearing session =>
      some { state.setConnection session { state.connections session with dirty := false } with
        io := .enabling session none }
  | .enabling session scan =>
      some { state.enableWrite session answer with
        io := match scan with
          | none => .draining .loadTail
          | some scan => .scanning scan }
  | .takingOverflow =>
      some { state with
        dirtyOverflow := false
        io := if state.dirtyOverflow then .scanning (List.range' 1 (state.nextSessionId - 1)) else .idle }
  | .scanning [] => some { state with io := .idle }
  | .scanning (session :: scan) =>
      some { state.setConnection session { state.connections session with dirty := false } with
        io := if (state.connections session).dirty then .enabling session (some scan) else .scanning scan }
  | .writing session => some (state.writeStep session answer)
  | .taking session taken => some (state.takeStep session taken)
  | .popping session taken place => some (state.popStep session taken place)
  | .disabling session => some { state.disableWrite session answer with io := .idle }

def acceptReady : WriterWakeup :=
  { state.setConnection state.nextSessionId { state.connections state.nextSessionId with closed := false } with
    nextSessionId := state.nextSessionId + 1 }

/-- The backlog is taken over under the sessions mutex; then the writer is notified. -/
def bindSession (session : SessionId) (accountId : AccountId) (backlog : List Message) : WriterWakeup :=
  { state.setConnection session { state.connections session with
      accountId := some accountId
      replayBacklog := backlog } with
    io := .notifying (.claiming session) }

/-- A full queue drops the rejection. -/
def rejectAccountMismatch (session : SessionId) (command : ExchangeCommand) : WriterWakeup :=
  let connection := state.connections session
  if connection.sessionOutbound.length ≥ 2 ^ state.outboundBits.val then state
  else { state.setConnection session { connection with
      sessionOutbound := connection.sessionOutbound ++ [accountMismatch command] } with
    io := .notifying (.claiming session) }

end Io

/-- What happens next, unless the thread that would do it cannot. -/
def step : WakeupAction → Option WriterWakeup
  | .accept => if state.io = .idle then some state.acceptReady else none
  | .bind session accountId backlog =>
      if state.io = .idle ∧ state.isOpen session ∧ (state.connections session).accountId = none then
        some (state.bindSession session accountId backlog)
      else none
  | .reject session command =>
      if state.io = .idle ∧ state.isOpen session ∧ (state.connections session).accountId ≠ none then
        some (state.rejectAccountMismatch session command)
      else none
  | .hangUp session => if state.io = .idle ∧ state.isOpen session then some (state.closeConnection session) else none
  | .drain => if state.io = .idle then some { state with io := .draining .loadTail } else none
  | .write session => if state.io = .idle ∧ state.isOpen session then some { state with io := .writing session } else none
  | .io answer => state.ioStep answer
  | .route event =>
      if state.routing = .idle then some { state with routing := .routing (toExecutionReports event) [] } else none
  | .matching target => state.matchingStep target

end WriterWakeup

end Mdh.Gateway
