import Mdh.Accounts.Ledger
import Mdh.Matching.MatchingEngine

/-! The pre-trade checks, against what the ledger has available, and the checks, the ledger and
the matching engine behind the engine's own `process`: check, match, and settle, one command at
a time. -/

namespace Mdh.Risk
open Mdh.Core Mdh.Matching Mdh.Accounts

structure RiskLimits where
  maxOrderQuantity : Nat := 1000000

namespace RiskEngine
variable (round : Rounding) (limits : RiskLimits)

def checkNewOrder (command : NewOrderCommand) (ledger : Ledger) : RejectReason :=
  if command.quantity > limits.maxOrderQuantity then .orderTooLarge
  else
    match command.side with
    | .buy =>
        if ledger.availableCash round command.accountId < Ledger.notional round command.quantity command.price then
          .insufficientFunds
        else .none
    | .sell =>
        if ledger.availablePosition round command.accountId command.instrumentId < command.quantity then
          .insufficientPosition
        else .none

/-- Credits the hold of the original order. With no hold to credit the decision is left
to the matching engine. -/
def checkReplaceOrder (command : ReplaceOrderCommand) (ledger : Ledger) : RejectReason :=
  if command.newQuantity > limits.maxOrderQuantity then .orderTooLarge
  else
    match ledger.findHold command.accountId command.originalClientOrderId with
    | none => .none
    | some hold =>
        if hold.instrumentId ≠ command.instrumentId then .none
        else
          match hold.side with
          | .buy =>
              let oldRequired := Ledger.notional round hold.remaining hold.limitPrice
              let newRequired := Ledger.notional round command.newQuantity command.newPrice
              let extraRequired := max 0 (round.signed (newRequired - oldRequired))
              if ledger.availableCash round command.accountId < extraRequired then .insufficientFunds else .none
          | .sell =>
              let extraRequired := command.newQuantity - hold.remaining
              if ledger.availablePosition round command.accountId command.instrumentId < extraRequired then
                .insufficientPosition
              else .none

end RiskEngine

structure RiskGatedEngine where
  engine : MatchingEngine
  ledger : Ledger
  limits : RiskLimits := {}

/-- A gated engine after a command, with the events the command emitted. -/
structure GatedStep where
  gated : RiskGatedEngine
  events : List ExchangeEvent

namespace RiskGatedEngine
variable (round : Rounding)

/-- A rejection at the gate: the engine only numbers the event, and the ledger never sees it. -/
def turnAway (gated : RiskGatedEngine) (step : MatchingEngine.Step) : GatedStep where
  gated := { gated with engine := step.engine }
  events := step.events

/-- The engine processes the command, and every event goes to the ledger. -/
def forward (gated : RiskGatedEngine) (command : ExchangeCommand) : GatedStep :=
  let step := gated.engine.process command
  { gated := { gated with engine := step.engine, ledger := step.events.foldl (Ledger.apply round) gated.ledger }
    events := step.events }

def process (gated : RiskGatedEngine) (command : ExchangeCommand) : GatedStep :=
  let engine := gated.engine
  match command with
  | .newOrder newOrder =>
      if ¬ engine.knowsInstrument newOrder.instrumentId then
        gated.turnAway (MatchingEngine.rejectNewOrder newOrder .invalidInstrument { engine })
      else
        let reason := RiskEngine.checkNewOrder round gated.limits newOrder gated.ledger
        if reason ≠ .none then gated.turnAway (MatchingEngine.rejectNewOrder newOrder reason { engine })
        else gated.forward round command
  | .replaceOrder replace =>
      if ¬ engine.knowsInstrument replace.instrumentId then
        gated.turnAway (MatchingEngine.rejectReplaceOrder replace .invalidInstrument { engine })
      else
        let reason := RiskEngine.checkReplaceOrder round gated.limits replace gated.ledger
        if reason ≠ .none then gated.turnAway (MatchingEngine.rejectReplaceOrder replace reason { engine })
        else gated.forward round command
  | .cancelOrder _ => gated.forward round command

/-- The state after a sequence of commands. -/
def run (gated : RiskGatedEngine) (commands : List ExchangeCommand) : RiskGatedEngine :=
  commands.foldl (fun gated command => (gated.process round command).gated) gated

/-- The risk check lets the command through. -/
def Passes (gated : RiskGatedEngine) : ExchangeCommand → Prop
  | .newOrder command => RiskEngine.checkNewOrder round gated.limits command gated.ledger = .none
  | .replaceOrder command => RiskEngine.checkReplaceOrder round gated.limits command gated.ledger = .none
  | .cancelOrder _ => True

/-- A command is turned away with a rejection, or passes the check and goes to the engine. -/
theorem process_cases (gated : RiskGatedEngine) (command : ExchangeCommand) :
    (∃ rejection : Nat → OrderRejected, (∀ eventSequence, (rejection eventSequence).eventSequence = eventSequence) ∧
      gated.process round command = gated.turnAway (({ engine := gated.engine } : MatchingEngine.Step).sink
        fun eventSequence => .orderRejected (rejection eventSequence))) ∨
      gated.Passes round command ∧ gated.process round command = gated.forward round command := by
  cases command with
  | cancelOrder command => exact Or.inr ⟨trivial, rfl⟩
  | newOrder command =>
    simp only [process]
    split_ifs with known refused
    · exact Or.inl ⟨_, fun _ => rfl, rfl⟩
    · exact Or.inr ⟨not_not.mp refused, rfl⟩
    · exact Or.inl ⟨_, fun _ => rfl, rfl⟩
  | replaceOrder command =>
    simp only [process]
    split_ifs with known refused
    · exact Or.inl ⟨_, fun _ => rfl, rfl⟩
    · exact Or.inr ⟨not_not.mp refused, rfl⟩
    · exact Or.inl ⟨_, fun _ => rfl, rfl⟩

end RiskGatedEngine

/-- Seeding: the only way a balance starts out other than zero. -/
inductive Deposit where
  | cash (accountId : AccountId) (amount : Int)
  | position (accountId : AccountId) (instrumentId : InstrumentId) (amount : Nat)
  deriving DecidableEq, Repr

def Deposit.into (round : Rounding) (ledger : Ledger) : Deposit → Ledger
  | .cash accountId amount => ledger.depositCash round accountId amount
  | .position accountId instrumentId amount => ledger.depositPosition round accountId instrumentId amount

/-- A ledger with deposits and nothing else. -/
def seeded (round : Rounding) (deposits : List Deposit) : Ledger := deposits.foldl (Deposit.into round) {}

/-- A gated engine before its first command. -/
def RiskGatedEngine.start (round : Rounding) (limits : RiskLimits) (instruments : List InstrumentId)
    (deposits : List Deposit) : RiskGatedEngine where
  engine := MatchingEngine.make instruments
  ledger := seeded round deposits
  limits := limits

end Mdh.Risk
