import Mdh.Gateway.OrderEntryGateway
import Mdh.Trader.TraderRiskEngine

/-! Traders at the exchange. Each of some accounts has one order management system with a position
tracker, and a channel each way, lossless and first in, first out; other accounts send what they
like. A step is a call, the exchange taking a request, or a trader handling a report. -/

namespace Mdh.Trader
open Mdh.Core Mdh.Lib Mdh.Matching Mdh.Risk Mdh.Gateway Mdh.Sequencing

structure Client where
  oms : OrderManagementSystem
  positions : PositionTracker := {}
  requests : List Message := []
  reports : List Message := []

structure TradingFloor where
  exchange : RiskGatedEngine
  sequencer : CommandSequencer := {}
  clients : AccountId → Client

inductive FloorAction where
  | submitNewOrder (accountId : AccountId) (instrumentId : InstrumentId) (side : Side) (price : Int) (quantity : Nat)
    (orderType : Core.OrderType) (timeInForce : TimeInForce)
  | cancelOrder (accountId : AccountId) (clientOrderId : ClientOrderId)
  | replaceOrder (accountId : AccountId) (clientOrderId : ClientOrderId) (newPrice : Int) (newQuantity : Nat)
  | takeRequest (accountId : AccountId)
  | outside (command : ExchangeCommand)
  | handleReport (accountId : AccountId)
  deriving DecidableEq, Repr

/-- The reports of some events that go to an account, in their order. -/
def reportsFor (accountId : AccountId) (events : List ExchangeEvent) : List Message :=
  events.flatMap fun event =>
    ((toExecutionReports event).filter fun report => report.1.accountId = accountId).map Prod.snd

/-- The trader sees a report: its orders change, and a fill goes to its positions. -/
def Client.handle (round : Rounding) (client : Client) (message : Message) : Client :=
  let (oms, fill) := client.oms.handleMessage message
  { client with
    oms
    positions := match fill with
      | none => client.positions
      | some fill => client.positions.apply round fill }

def Client.send (client : Client) (oms : OrderManagementSystem) (request : Option Message) : Client :=
  { client with oms, requests := client.requests ++ request.toList }

def depositAccount : Deposit → AccountId
  | .cash accountId _ => accountId
  | .position accountId _ _ => accountId

def deposited (round : Rounding) (positions : PositionTracker) : Deposit → PositionTracker
  | .cash accountId amount => positions.depositCash round accountId amount
  | .position accountId instrumentId amount => positions.depositPosition round accountId instrumentId amount

/-- A trader before its first order, seeded with what its account has at the exchange. -/
def Client.start (round : Rounding) (deposits : List Deposit) (accountId : AccountId) : Client where
  oms := { accountId }
  positions := (deposits.filter fun deposit => depositAccount deposit = accountId).foldl (deposited round) {}

namespace TradingFloor
variable (round : Rounding) (managed : AccountId → Bool)

def start (limits : RiskLimits) (instruments : List InstrumentId) (deposits : List Deposit) : TradingFloor where
  exchange := RiskGatedEngine.start round limits instruments deposits
  clients := Client.start round deposits

variable (floor : TradingFloor)

def setClient (accountId : AccountId) (client : Client) : TradingFloor :=
  { floor with clients := Function.update floor.clients accountId client }

/-- The exchange processes a command, and every account is sent its reports. -/
def process (command : ExchangeCommand) : TradingFloor :=
  let (sequenced, sequencer) := floor.sequencer.sequence command
  let after := floor.exchange.process round sequenced
  { exchange := after.gated
    sequencer
    clients := fun accountId =>
      let client := floor.clients accountId
      { client with reports := client.reports ++ reportsFor accountId after.events } }

/-- Sends always succeed, for no request is lost. -/
def step : FloorAction → Option TradingFloor
  | .submitNewOrder accountId instrumentId side price quantity orderType timeInForce =>
      if managed accountId then
        let client := floor.clients accountId
        let (oms, _, request) := client.oms.submitNewOrder instrumentId side price quantity orderType timeInForce true
        some (floor.setClient accountId (client.send oms request))
      else none
  | .cancelOrder accountId clientOrderId =>
      if managed accountId then
        let client := floor.clients accountId
        let (oms, request) := client.oms.cancelOrder clientOrderId true
        some (floor.setClient accountId (client.send oms request))
      else none
  | .replaceOrder accountId clientOrderId newPrice newQuantity =>
      if managed accountId then
        let client := floor.clients accountId
        let (oms, request) := client.oms.replaceOrder clientOrderId newPrice newQuantity true
        some (floor.setClient accountId (client.send oms (request.map Prod.snd)))
      else none
  | .takeRequest accountId =>
      let client := floor.clients accountId
      match client.requests with
      | [] => none
      | request :: requests =>
          (toCommand request).map fun command =>
            (floor.setClient accountId { client with requests }).process round command
  | .outside command => if managed command.accountId then none else some (floor.process round command)
  | .handleReport accountId =>
      let client := floor.clients accountId
      match client.reports with
      | [] => none
      | report :: reports => some (floor.setClient accountId ({ client with reports }.handle round report))

end TradingFloor

end Mdh.Trader
