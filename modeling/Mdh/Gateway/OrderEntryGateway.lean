import Mathlib.Logic.Function.Basic
import Mdh.Gateway.OrderEntry
import Mdh.Lib.Transitions
import Mdh.Risk.RiskGatedEngine
import Mdh.Sequencing.MatchingPipeline

/-! The order entry gateway: one thread reads and writes every connection, another matches and
routes the events to the sessions. A step is a section under the sessions mutex, an operation
of a queue, or a read or write of a connection's closed flag. -/

namespace Mdh.Core

def ExchangeCommand.accountId : ExchangeCommand → AccountId
  | .newOrder command => command.accountId
  | .cancelOrder command => command.accountId
  | .replaceOrder command => command.accountId

end Mdh.Core

namespace Mdh.Gateway
open Mdh.Core Mdh.Lib Mdh.Matching Mdh.Risk Mdh.Sequencing

/-- Same shape as the engine's own live-order key. -/
abbrev OrderKey := LiveKey

abbrev SessionId := Nat

structure OrderEntryGatewayOptions where
  matchingQueueCapacity : Nat := 1024
  outboundQueueCapacity : Nat := 1024
  pendingReportCapacity : Nat := 1024
  deriving DecidableEq, Repr

/-- One connection, with the history of what its client asked for and was handed. A connection
that is not there yet counts as closed. -/
structure Connection where
  readBuffer : List UInt8 := []
  outbound : List Message := []
  sessionOutbound : List Message := []
  replayBacklog : List Message := []
  accountId : Option AccountId := none
  closed : Bool := true
  requests : List ExchangeCommand := []
  handedOver : List Message := []
  delivered : List Message := []
  takenReports : List Message := []
  takenReplies : List Message := []
  deriving DecidableEq, Repr

/-- A request whose handling is over: whether the pipeline took it, whether a rejection of it
was queued, and whether it left a new entry in the ownership table. -/
structure Handled where
  session : SessionId
  command : ExchangeCommand
  admitted : Bool := false
  rejectionQueued : Bool := false
  reportQueueFull : Bool := false
  claimed : Bool := false
  deriving DecidableEq, Repr

/-- What a client or an account could see happen, in order. -/
inductive Occurrence where
  | generated (message : Message)
  | bound (session : SessionId) (accountId : AccountId)
  | closed (session : SessionId)
  deriving DecidableEq, Repr

/-- Where the I/O thread stands. -/
inductive IoPlace where
  | waiting
  | framing (session : SessionId)
  | binding (session : SessionId) (command : ExchangeCommand)
  | rejecting (session : SessionId) (command : ExchangeCommand)
  | claiming (session : SessionId) (command : ExchangeCommand)
  | submitting (session : SessionId) (command : ExchangeCommand) (claimed : Bool)
  | unbinding (session : SessionId)
  deriving DecidableEq, Repr

/-- Where the matching thread stands. It holds the sessions mutex while it delivers. -/
inductive MatchingPlace where
  | popping
  | routing (events : List ExchangeEvent)
  | delivering (reports : List (OrderKey × Message)) (event : ExchangeEvent) (events : List ExchangeEvent)
  | pushing (target : SessionId) (message : Message) (reports : List (OrderKey × Message)) (event : ExchangeEvent)
      (events : List ExchangeEvent)
  deriving DecidableEq, Repr

/-- The whole gateway. From `submitted` on it is history: what was submitted and popped, how each
request was answered, and for an exchange order id the session whose new order it goes back to. -/
structure OrderEntryGateway where
  options : OrderEntryGatewayOptions
  exchange : RiskGatedEngine
  connections : SessionId → Connection := fun _ => {}
  nextSessionId : SessionId := 1
  accountSessions : AccountId → List SessionId := fun _ => []
  orderOwner : OrderKey → Option SessionId := fun _ => none
  pendingReports : AccountId → List Message := fun _ => []
  queue : List (SessionId × ExchangeCommand) := []
  sequencer : CommandSequencer := {}
  io : IoPlace := .waiting
  matching : MatchingPlace := .popping
  submitted : List (SessionId × ExchangeCommand) := []
  dequeued : List (SessionId × ExchangeCommand) := []
  handled : List Handled := []
  history : List Occurrence := []
  origins : Nat → Option SessionId := fun _ => none

/-- A step of the I/O thread on its own, or of the matching thread, or what the I/O thread is
woken for. -/
inductive GatewayAction where
  | accept
  | receive (session : SessionId) (chunk : List UInt8)
  | hangUp (session : SessionId)
  | popOutbound (session : SessionId)
  | io
  | matching
  deriving DecidableEq, Repr

/-- The private reports of an event, each under the order it goes by. -/
def toExecutionReports : ExchangeEvent → List (OrderKey × Message)
  | .orderAccepted event => [(⟨event.accountId, event.clientOrderId⟩, .accepted {
      accountId := event.accountId
      clientOrderId := event.clientOrderId
      exchangeOrderId := event.exchangeOrderId
      instrumentId := event.instrumentId
      side := event.side
      price := event.price
      quantity := event.quantity
      orderType := event.orderType
      timeInForce := event.timeInForce })]
  | .orderRejected event => [(⟨event.accountId, event.clientOrderId⟩, .rejected {
      accountId := event.accountId
      clientOrderId := event.clientOrderId
      instrumentId := event.instrumentId
      reason := event.reason })]
  | .orderCancelled event => [(⟨event.accountId, event.clientOrderId⟩, .cancelled {
      accountId := event.accountId
      clientOrderId := event.clientOrderId
      exchangeOrderId := event.exchangeOrderId
      instrumentId := event.instrumentId })]
  | .orderReplaced event => [(⟨event.accountId, event.originalClientOrderId⟩, .replaced {
      accountId := event.accountId
      originalClientOrderId := event.originalClientOrderId
      newClientOrderId := event.newClientOrderId
      exchangeOrderId := event.exchangeOrderId
      instrumentId := event.instrumentId
      newPrice := event.newPrice
      newQuantity := event.newQuantity })]
  | .tradeExecuted event =>
      let report (side : TradeCounterparty) : OrderKey × Message :=
        (⟨side.accountId, side.clientOrderId⟩, .tradeReport {
          accountId := side.accountId
          clientOrderId := side.clientOrderId
          exchangeOrderId := side.exchangeOrderId
          instrumentId := event.instrumentId
          price := event.price
          quantity := event.quantity
          remainingQuantity := side.remainingQuantity })
      [report event.buyer, report event.seller]
  | .bookOrderAdded _ | .bookOrderReduced _ | .bookOrderRemoved _ => []

/-- The gateway's own rejection, under the account and the id the client asked for. -/
def accountMismatch : ExchangeCommand → Message
  | .newOrder command => .rejected {
      accountId := command.accountId
      clientOrderId := command.clientOrderId
      instrumentId := command.instrumentId
      reason := .accountMismatch }
  | .cancelOrder command => .rejected {
      accountId := command.accountId
      clientOrderId := command.clientOrderId
      instrumentId := command.instrumentId
      reason := .accountMismatch }
  | .replaceOrder command => .rejected {
      accountId := command.accountId
      clientOrderId := command.originalClientOrderId
      instrumentId := command.instrumentId
      reason := .accountMismatch }

/-- The order a request claims: for a replacement only the original. -/
def claimedKey : ExchangeCommand → OrderKey
  | .newOrder command => ⟨command.accountId, command.clientOrderId⟩
  | .cancelOrder command => ⟨command.accountId, command.clientOrderId⟩
  | .replaceOrder command => ⟨command.accountId, command.originalClientOrderId⟩

namespace OrderEntryGateway
variable (round : Rounding)

def start (options : OrderEntryGatewayOptions) (limits : RiskLimits) (instruments : List InstrumentId)
    (deposits : List Deposit) : OrderEntryGateway :=
  { options, exchange := RiskGatedEngine.start round limits instruments deposits }

section Io
variable (gateway : OrderEntryGateway)

/-- The matching thread is not in the section it holds the sessions mutex for. -/
def sessionsFree : Bool :=
  match gateway.matching with
  | .popping | .routing _ => true
  | .delivering .. | .pushing .. => false

def setConnection (session : SessionId) (connection : Connection) : OrderEntryGateway :=
  { gateway with connections := Function.update gateway.connections session connection }

def acceptReady : OrderEntryGateway :=
  { gateway.setConnection gateway.nextSessionId { closed := false } with nextSessionId := gateway.nextSessionId + 1 }

/-- A request has been read: the first one binds the session, and a later one for another
account is turned away. -/
def request (session : SessionId) (command : ExchangeCommand) (rest : List UInt8) : OrderEntryGateway :=
  let connection := gateway.connections session
  { gateway.setConnection session { connection with
      readBuffer := rest
      requests := connection.requests ++ [command] } with
    io := match connection.accountId with
      | none => .binding session command
      | some accountId => if accountId ≠ command.accountId then .rejecting session command else .claiming session command }

/-- The frame loop of `handle_read`, one frame of it. A frame that does not decode or is no
request is skipped. -/
def readFrame (session : SessionId) : OrderEntryGateway :=
  let connection := gateway.connections session
  match nextFrame connection.readBuffer with
  | none => { gateway with io := .waiting }
  | some (frame, rest) =>
      match (decodeMessage frame).toOption.bind toCommand with
      | none => gateway.setConnection session { connection with readBuffer := rest }
      | some command => gateway.request session command rest

/-- The retained reports are taken over under the same lock that makes the session visible. -/
def bindSession (session : SessionId) (command : ExchangeCommand) : OrderEntryGateway :=
  let accountId := command.accountId
  let connection := gateway.connections session
  let pending := gateway.pendingReports accountId
  { gateway.setConnection session { connection with
      accountId := some accountId
      replayBacklog := if pending = [] then connection.replayBacklog else pending
      handedOver := pending } with
    accountSessions := Function.update gateway.accountSessions accountId
      (gateway.accountSessions accountId ++ [session])
    pendingReports := Function.update gateway.pendingReports accountId []
    history := gateway.history ++ [.bound session accountId]
    io := .claiming session command }

/-- A full queue drops the rejection: the client is not reading. -/
def rejectAccountMismatch (session : SessionId) (command : ExchangeCommand) : OrderEntryGateway :=
  let connection := gateway.connections session
  let gateway := { gateway with io := .framing session }
  if connection.sessionOutbound.length ≥ gateway.options.outboundQueueCapacity.nextPowerOfTwo then
    { gateway with handled := gateway.handled ++ [{ session, command, reportQueueFull := true }] }
  else
    { gateway.setConnection session { connection with
        sessionOutbound := connection.sessionOutbound ++ [accountMismatch command] } with
      handled := gateway.handled ++ [{ session, command, rejectionQueued := true }] }

/-- `try_emplace`: the first session to name an order owns its entry. -/
def claimOrderOwnership (session : SessionId) (command : ExchangeCommand) : OrderEntryGateway :=
  let key := claimedKey command
  match gateway.orderOwner key with
  | some _ => { gateway with io := .submitting session command false }
  | none => { gateway with
      orderOwner := Function.update gateway.orderOwner key (some session)
      io := .submitting session command true }

/-- The result of `submit` is not looked at. -/
def submitCommand (session : SessionId) (command : ExchangeCommand) (claimed : Bool) : OrderEntryGateway :=
  let gateway := { gateway with
    io := .framing session
    submitted := gateway.submitted ++ [(session, command)] }
  if gateway.queue.length ≥ gateway.options.matchingQueueCapacity.nextPowerOfTwo then
    { gateway with handled := gateway.handled ++ [{ session, command, claimed := claimed }] }
  else
    { gateway with
      queue := gateway.queue ++ [(session, command)]
      handled := gateway.handled ++ [{ session, command, admitted := true, claimed }] }

/-- A session that never bound is in none of the maps. -/
def unbindSession (session : SessionId) : OrderEntryGateway :=
  match (gateway.connections session).accountId with
  | none => { gateway with io := .waiting }
  | some accountId => { gateway with
      accountSessions := Function.update gateway.accountSessions accountId
        ((gateway.accountSessions accountId).filter fun bound => bound ≠ session)
      orderOwner := fun key => if gateway.orderOwner key = some session then none else gateway.orderOwner key
      io := .waiting }

/-- One step of the I/O thread; a section under the mutex waits for the matching thread. -/
def ioStep : Option OrderEntryGateway :=
  match gateway.io with
  | .waiting => none
  | .framing session => some (gateway.readFrame session)
  | .binding session command => if gateway.sessionsFree then some (gateway.bindSession session command) else none
  | .rejecting session command => some (gateway.rejectAccountMismatch session command)
  | .claiming session command =>
      if gateway.sessionsFree then some (gateway.claimOrderOwnership session command) else none
  | .submitting session command claimed => some (gateway.submitCommand session command claimed)
  | .unbinding session => if gateway.sessionsFree then some (gateway.unbindSession session) else none

/-- The backlog first, then the gateway's own replies, then the live reports. -/
def popOutbound (session : SessionId) : OrderEntryGateway :=
  let connection := gateway.connections session
  match connection.replayBacklog, connection.sessionOutbound, connection.outbound with
  | message :: rest, _, _ => gateway.setConnection session { connection with
      replayBacklog := rest
      takenReports := connection.takenReports ++ [message] }
  | [], message :: rest, _ => gateway.setConnection session { connection with
      sessionOutbound := rest
      takenReplies := connection.takenReplies ++ [message] }
  | [], [], message :: rest => gateway.setConnection session { connection with
      outbound := rest
      takenReports := connection.takenReports ++ [message] }
  | [], [], [] => gateway

def closeConnection (session : SessionId) : OrderEntryGateway :=
  { gateway.setConnection session { gateway.connections session with closed := true } with
    history := gateway.history ++ [.closed session]
    io := .unbinding session }

end Io

section Matching
variable (gateway : OrderEntryGateway)

/-- The session an order goes back to that a replacement replaces. -/
def originReplaced (replace : ReplaceOrderCommand) : Option SessionId :=
  let engine := gateway.exchange.engine
  match engine.orders.lookup ⟨replace.accountId, replace.originalClientOrderId⟩ with
  | none => none
  | some ref => gateway.origins ((engine.bookFor replace.instrumentId).orderAt ref.handle).exchangeOrderId

/-- Where the exchange order id of an event goes back to: a new order to its sender, a
replacement to where the order goes back that it replaces. -/
def recordOrigin (session : SessionId) (command : ExchangeCommand) (origins : Nat → Option SessionId) :
    ExchangeEvent → Nat → Option SessionId
  | .orderAccepted event => Function.update origins event.exchangeOrderId (some session)
  | .orderReplaced event =>
      match command with
      | .replaceOrder replace => Function.update origins event.exchangeOrderId (gateway.originReplaced replace)
      | _ => origins
  | _ => origins

/-- The matching thread pops a command, sequences it and processes it. The events it emits are
routed one after the other. Of what the command changes routing looks only at the holds, and
only for a rejection, which is the only event of its command. -/
def processNext (session : SessionId) (command : ExchangeCommand) (queue : List (SessionId × ExchangeCommand)) :
    OrderEntryGateway :=
  let (sequenced, sequencer) := gateway.sequencer.sequence command
  let after := gateway.exchange.process round sequenced
  { gateway with
    queue
    dequeued := gateway.dequeued ++ [(session, command)]
    sequencer
    exchange := after.gated
    origins := after.events.foldl (gateway.recordOrigin session command) gateway.origins
    matching := .routing after.events }

/-- A session that a report may go to. -/
def isOpen (session : SessionId) : Bool := !(gateway.connections session).closed

/-- The owning session if it is still connected; failing that, any other live session of the
account. The closed flags are read one by one, but a session that is closed stays closed, so
it is as if all were read with the last. -/
def resolve (key : OrderKey) : Option SessionId :=
  match (gateway.orderOwner key).filter gateway.isOpen with
  | some owner => some owner
  | none => (gateway.accountSessions key.accountId).find? gateway.isOpen

/-- The oldest retained report makes room for the newest. -/
def retain (accountId : AccountId) (message : Message) : OrderEntryGateway :=
  let capacity := gateway.options.pendingReportCapacity
  if capacity = 0 then gateway
  else
    let pending := gateway.pendingReports accountId
    let pending := if pending.length ≥ capacity then pending.tail else pending
    { gateway with pendingReports := Function.update gateway.pendingReports accountId (pending ++ [message]) }

/-- A full queue drops the report. -/
def deliver (target : SessionId) (message : Message) : OrderEntryGateway :=
  let connection := gateway.connections target
  if connection.outbound.length ≥ gateway.options.outboundQueueCapacity.nextPowerOfTwo then gateway
  else gateway.setConnection target { connection with
    outbound := connection.outbound ++ [message]
    delivered := connection.delivered ++ [message] }

def eraseOwner (owner : OrderKey → Option SessionId) (key : OrderKey) : OrderKey → Option SessionId :=
  Function.update owner key none

/-- What a routed event does to the ownership table. -/
def ownershipAfter (event : ExchangeEvent) : OrderKey → Option SessionId :=
  match event with
  | .orderRejected event =>
      if (gateway.exchange.ledger.findHold event.accountId event.clientOrderId).isSome then gateway.orderOwner
      else eraseOwner gateway.orderOwner ⟨event.accountId, event.clientOrderId⟩
  | .orderCancelled event => eraseOwner gateway.orderOwner ⟨event.accountId, event.clientOrderId⟩
  | .orderReplaced event =>
      let original : OrderKey := ⟨event.accountId, event.originalClientOrderId⟩
      match gateway.orderOwner original with
      | none => gateway.orderOwner
      | some owner =>
          eraseOwner (Function.update gateway.orderOwner ⟨event.accountId, event.newClientOrderId⟩ (some owner)) original
  | .tradeExecuted event =>
      [event.buyer, event.seller].foldl (fun owner side =>
        if side.remainingQuantity = 0 then eraseOwner owner ⟨side.accountId, side.clientOrderId⟩ else owner)
        gateway.orderOwner
  | .orderAccepted _ | .bookOrderAdded _ | .bookOrderReduced _ | .bookOrderRemoved _ => gateway.orderOwner

/-- One step of the matching thread. -/
def matchingStep : Option OrderEntryGateway :=
  match gateway.matching with
  | .popping =>
      match gateway.queue with
      | [] => none
      | (session, command) :: queue => some (gateway.processNext round session command queue)
  | .routing [] => some { gateway with matching := .popping }
  | .routing (event :: events) =>
      match toExecutionReports event with
      | [] => some { gateway with matching := .routing events }
      | reports => some { gateway with matching := .delivering reports event events }
  | .delivering [] event events =>
      some { gateway with orderOwner := gateway.ownershipAfter event, matching := .routing events }
  | .delivering ((key, message) :: reports) event events =>
      let gateway : OrderEntryGateway := { gateway with history := gateway.history ++ [.generated message] }
      match gateway.resolve key with
      | some target => some { gateway with matching := .pushing target message reports event events }
      | none => some { gateway.retain key.accountId message with matching := .delivering reports event events }
  | .pushing target message reports event events =>
      some { gateway.deliver target message with matching := .delivering reports event events }

end Matching

/-- The I/O thread turns to a connection only while it is not closed. -/
def step (gateway : OrderEntryGateway) : GatewayAction → Option OrderEntryGateway
  | .accept => if gateway.io = .waiting then some gateway.acceptReady else none
  | .receive session chunk =>
      if gateway.io = .waiting ∧ gateway.isOpen session then
        let connection := gateway.connections session
        some { gateway.setConnection session { connection with readBuffer := connection.readBuffer ++ chunk } with
          io := .framing session }
      else none
  | .hangUp session => if gateway.io = .waiting ∧ gateway.isOpen session then some (gateway.closeConnection session) else none
  | .popOutbound session => if gateway.io = .waiting ∧ gateway.isOpen session then some (gateway.popOutbound session) else none
  | .io => gateway.ioStep
  | .matching => gateway.matchingStep round

end OrderEntryGateway

end Mdh.Gateway
