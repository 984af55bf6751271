import Mdh.Accounts.Reservations
import Mdh.Risk.RiskGatedEngine
import Mdh.Trader.TraderRiskEngine

/-! The pre-trade checks with the arithmetic of the machine. A check compares a product that
may have wrapped; when what it lets through is paid for all the same is a matter of what
the order requires and what the account has free. -/

namespace Mdh.Risk
open Mdh.Core Mdh.Lib Mdh.Lib.KeyedStore Mdh.Accounts Mdh.Trader

/-- Every balance is a value of its type and none is negative. -/
structure NonNegative (ledger : Ledger) : Prop where
  cashTotal : ∀ accountId, 0 ≤ ledger.cashTotal accountId ∧ ledger.cashTotal accountId < 2 ^ 63
  cashReserved : ∀ accountId, 0 ≤ ledger.cashReserved accountId ∧ ledger.cashReserved accountId < 2 ^ 63
  positionTotal : ∀ accountId instrumentId,
    0 ≤ ledger.positionTotal accountId instrumentId ∧ ledger.positionTotal accountId instrumentId < 2 ^ 64
  positionReserved : ∀ accountId instrumentId,
    0 ≤ ledger.positionReserved accountId instrumentId ∧ ledger.positionReserved accountId instrumentId < 2 ^ 64

section Available
variable {ledger : Ledger} (nonNegative : NonNegative ledger)
include nonNegative

theorem NonNegative.freeCash_range (accountId : AccountId) :
    -2 ^ 63 < freeCash ledger accountId ∧ freeCash ledger accountId < 2 ^ 63 := by
  have total := nonNegative.cashTotal accountId
  have reserved := nonNegative.cashReserved accountId
  unfold freeCash
  omega

/-- Two balances of one sign do not overflow when one is taken from the other. -/
theorem NonNegative.availableCash (accountId : AccountId) :
    ledger.availableCash .machine accountId = freeCash ledger accountId := by
  have range := nonNegative.freeCash_range accountId
  rw [availableCash_eq ledger accountId .machine rfl, Rounding.machine_signed_of_fits range.1.le range.2]

/-- Units wrap when more are reserved than there are. -/
theorem NonNegative.availablePosition (accountId : AccountId) (instrumentId : InstrumentId) :
    ledger.availablePosition .machine accountId instrumentId =
      if 0 ≤ freeUnits ledger accountId instrumentId then freeUnits ledger accountId instrumentId
      else freeUnits ledger accountId instrumentId + 2 ^ 64 := by
  have total := nonNegative.positionTotal accountId instrumentId
  have reserved := nonNegative.positionReserved accountId instrumentId
  rw [availablePosition_eq ledger accountId instrumentId .machine rfl]
  change freeUnits ledger accountId instrumentId % 2 ^ 64 = _
  unfold freeUnits
  split_ifs <;> omega

end Available

section Arithmetic

/-- What a check against a wrapped requirement is worth. -/
theorem wrapped_le_iff {free : Int} (range : free < 2 ^ 63) (low : -2 ^ 63 < free) (required : Int) :
    (Rounding.machine.signed required ≤ free → required ≤ free) ↔
      required < 2 ^ 63 ∨ free < Rounding.machine.signed required := by
  constructor
  · intro exact
    by_contra neither
    rw [not_or, not_lt, not_lt] at neither
    have paid := exact neither.2
    omega
  · rintro (fits | short) passes
    · by_contra more
      rw [Rounding.machine_signed_of_fits (by omega) fits] at passes
      exact more passes
    · exact absurd passes (not_le.mpr short)

theorem wrapped_increase_le_iff {free : Int} (range : free < 2 ^ 63) (low : -2 ^ 63 < free) (increase : Int) :
    (max 0 (Rounding.machine.signed increase) ≤ free → increase ≤ free) ↔
      increase < 2 ^ 63 ∨ free < max 0 (Rounding.machine.signed increase) := by
  constructor
  · intro exact
    by_contra neither
    rw [not_or, not_lt, not_lt] at neither
    have paid := exact neither.2
    omega
  · rintro (fits | short) passes
    · by_contra more
      have wrapped := (le_max_right 0 _).trans passes
      rw [Rounding.machine_signed_of_fits (by omega) fits] at wrapped
      exact more wrapped
    · exact absurd passes (not_le.mpr short)

theorem notional_machine (quantity : Nat) (price : Int) :
    Ledger.notional .machine quantity price = Rounding.machine.signed (quantity * price) :=
  Rounding.machine_signed_mul quantity price

end Arithmetic

section NewOrder
variable (limits : RiskLimits) (ledger : Ledger) (command : NewOrderCommand)

/-- A new order that passes is paid for, in unbounded integers. -/
def NewOrderExact : Prop :=
  RiskEngine.checkNewOrder .machine limits command ledger = .none →
    match command.side with
    | .buy => (command.quantity : Int) * command.price ≤ freeCash ledger command.accountId
    | .sell => (command.quantity : Int) ≤ freeUnits ledger command.accountId command.instrumentId

/-- What it requires fits its type; or its wrapped value is more than the account has. -/
def NewOrderFits : Prop :=
  match command.side with
  | .buy =>
      let required := (command.quantity : Int) * command.price
      required < 2 ^ 63 ∨ freeCash ledger command.accountId < required.bmod (2 ^ 64)
  | .sell =>
      let free := freeUnits ledger command.accountId command.instrumentId
      0 ≤ free ∨ free + 2 ^ 64 < command.quantity

variable {limits ledger command}

theorem checkNewOrder_exact_iff (nonNegative : NonNegative ledger)
    (allowed : command.quantity ≤ limits.maxOrderQuantity) :
    NewOrderExact limits ledger command ↔ NewOrderFits ledger command := by
  have range := nonNegative.freeCash_range command.accountId
  unfold NewOrderExact NewOrderFits RiskEngine.checkNewOrder
  rw [if_neg (not_lt.mpr allowed), notional_machine, nonNegative.availableCash, nonNegative.availablePosition]
  cases command.side with
  | buy =>
    refine Iff.trans (imp_congr_left ?_) (wrapped_le_iff range.2 range.1 _)
    simp
  | sell =>
    have total := nonNegative.positionTotal command.accountId command.instrumentId
    have reserved := nonNegative.positionReserved command.accountId command.instrumentId
    simp only [freeUnits]
    split_ifs <;> simp <;> omega

end NewOrder

section Replace
variable (limits : RiskLimits) (ledger : Ledger) (command : ReplaceOrderCommand) (hold : HoldView)

/-- A replacement that passes is paid for with what is free and what its original has set
aside, in unbounded integers. -/
def ReplaceExact : Prop :=
  RiskEngine.checkReplaceOrder .machine limits command ledger = .none →
    match hold.side with
    | .buy => (command.newQuantity : Int) * command.newPrice ≤
        freeCash ledger command.accountId + hold.remaining * hold.limitPrice
    | .sell => (command.newQuantity : Int) ≤
        freeUnits ledger command.accountId command.instrumentId + hold.remaining

/-- What it requires on top of its hold fits its type; or the wrapped value is more than the
account has. -/
def ReplaceFits : Prop :=
  match hold.side with
  | .buy =>
      let increase := (command.newQuantity : Int) * command.newPrice - hold.remaining * hold.limitPrice
      increase < 2 ^ 63 ∨ freeCash ledger command.accountId < max 0 (increase.bmod (2 ^ 64))
  | .sell =>
      let free := freeUnits ledger command.accountId command.instrumentId
      let increase := (command.newQuantity : Int) - hold.remaining
      0 ≤ free ∨ increase ≤ free ∨ free + 2 ^ 64 < max 0 increase

variable {limits ledger command hold}

theorem checkReplaceOrder_exact_iff (nonNegative : NonNegative ledger)
    (allowed : command.newQuantity ≤ limits.maxOrderQuantity)
    (held : ledger.findHold command.accountId command.originalClientOrderId = some hold)
    (instrument : hold.instrumentId = command.instrumentId) :
    ReplaceExact limits ledger command hold ↔ ReplaceFits ledger command hold := by
  have range := nonNegative.freeCash_range command.accountId
  unfold ReplaceExact ReplaceFits RiskEngine.checkReplaceOrder
  simp only [held, instrument, ne_eq, not_true_eq_false, if_false]
  rw [if_neg (not_lt.mpr allowed), notional_machine, notional_machine, Rounding.machine_signed_sub,
    nonNegative.availableCash, nonNegative.availablePosition]
  cases hold.side with
  | buy =>
    have moved : (command.newQuantity : Int) * command.newPrice ≤
        freeCash ledger command.accountId + hold.remaining * hold.limitPrice ↔
        (command.newQuantity : Int) * command.newPrice - hold.remaining * hold.limitPrice ≤
          freeCash ledger command.accountId := by omega
    simp only [moved]
    refine Iff.trans (imp_congr_left ?_) (wrapped_increase_le_iff range.2 range.1 _)
    simp
  | sell =>
    have total := nonNegative.positionTotal command.accountId command.instrumentId
    have reserved := nonNegative.positionReserved command.accountId command.instrumentId
    simp only [freeUnits]
    split_ifs <;> simp <;> omega

end Replace

section Trader
variable (limits : TraderRiskLimits) (positions : PositionTracker) (accountId : AccountId)
  (instrumentId : InstrumentId) (side : Side) (price : Int) (quantity : Nat)

/-- An order the trader lets through is paid for with the tracked cash or units. -/
def TraderExact : Prop :=
  TraderRiskEngine.check .machine limits accountId instrumentId side price quantity positions = .none →
    match side with
    | .buy => (quantity : Int) * price ≤ positions.cash accountId
    | .sell => (quantity : Int) ≤ positions.position accountId instrumentId

/-- Units held are compared as they are. -/
def TraderFits : Prop :=
  match side with
  | .buy =>
      let required := (quantity : Int) * price
      required < 2 ^ 63 ∨ positions.cash accountId < required.bmod (2 ^ 64)
  | .sell => True

variable {limits positions accountId instrumentId side price quantity}

theorem traderCheck_exact_iff (tracked : 0 ≤ positions.cash accountId ∧ positions.cash accountId < 2 ^ 63)
    (allowed : quantity ≤ limits.maxOrderQuantity) :
    TraderExact limits positions accountId instrumentId side price quantity ↔
      TraderFits positions accountId side price quantity := by
  unfold TraderExact TraderFits TraderRiskEngine.check
  rw [if_neg (not_lt.mpr allowed), Rounding.machine_signed_mul]
  cases side with
  | buy =>
    refine Iff.trans (imp_congr_left ?_) (wrapped_le_iff tracked.2 (by omega) _)
    simp
  | sell => simp

end Trader

/-- The exchange's two checks and the trader's let through only what is paid for exactly when
what is required does not wrap to something the account has. -/
theorem checks_exact_iff_requirements_fit (limits : RiskLimits) (ledger : Ledger) (nonNegative : NonNegative ledger)
    (traderLimits : TraderRiskLimits) (positions : PositionTracker)
    (tracked : ∀ accountId, 0 ≤ positions.cash accountId ∧ positions.cash accountId < 2 ^ 63) :
    (∀ command : NewOrderCommand, command.quantity ≤ limits.maxOrderQuantity →
      (NewOrderExact limits ledger command ↔ NewOrderFits ledger command)) ∧
    (∀ (command : ReplaceOrderCommand) (hold : HoldView), command.newQuantity ≤ limits.maxOrderQuantity →
      ledger.findHold command.accountId command.originalClientOrderId = some hold →
      hold.instrumentId = command.instrumentId →
      (ReplaceExact limits ledger command hold ↔ ReplaceFits ledger command hold)) ∧
    (∀ accountId instrumentId side price quantity, quantity ≤ traderLimits.maxOrderQuantity →
      (TraderExact traderLimits positions accountId instrumentId side price quantity ↔
        TraderFits positions accountId side price quantity)) :=
  ⟨fun _ allowed => checkNewOrder_exact_iff nonNegative allowed,
    fun _ _ allowed held instrument => checkReplaceOrder_exact_iff nonNegative allowed held instrument,
    fun accountId _ _ _ _ allowed => traderCheck_exact_iff (tracked accountId) allowed⟩

section Wraps

/-- A buy of two at the highest price there is. -/
def buyTwo : NewOrderCommand where
  commandSequence := 1
  accountId := 7
  clientOrderId := 1
  instrumentId := 3
  side := .buy
  price := 2 ^ 63 - 1
  quantity := 2
  orderType := .limit
  timeInForce := .gtc

theorem NonNegative.empty : NonNegative {} := by
  have cash : (0 : Int) ≤ 0 ∧ (0 : Int) < 2 ^ 63 := by decide
  have units : (0 : Int) ≤ 0 ∧ (0 : Int) < 2 ^ 64 := by decide
  exact ⟨fun _ => cash, fun _ => cash, fun _ _ => units, fun _ _ => units⟩

/-- An account with nothing may make it: the product wraps to less than nothing. -/
theorem buys_two_without_cash :
    ¬ ∀ (limits : RiskLimits) (ledger : Ledger) (command : NewOrderCommand), NonNegative ledger →
      0 < command.price → command.price < 2 ^ 63 → command.quantity ≤ limits.maxOrderQuantity →
      NewOrderExact limits ledger command := by
  intro always
  have paid : (2 : Int) * (2 ^ 63 - 1) ≤ 0 :=
    always {} {} buyTwo NonNegative.empty (by decide) (by decide) (by decide) (by decide)
  exact absurd paid (by decide)

/-- An account with one open buy of five at a hundred. -/
def buying : Ledger := (({} : Ledger).depositCash .machine 7 1000).openHold .machine 7 1 3 .buy 100 5

theorem buying_balances (accountId : AccountId) : buying.balances accountId =
    if accountId = 7 then { cashTotal := 1000, cashReserved := 500 } else {} := by
  have account := valueAt_modifyAt (({} : Ledger).depositCash .machine 7 1000).accounts 7 accountId
    (Ledger.addReserved .machine .buy 3 100 5 1)
  have deposit := valueAt_modifyAt ({} : Ledger).accounts 7 accountId (Ledger.addCash .machine 1000)
  refine account.trans ?_
  split_ifs with same
  · rfl
  · exact deposit.trans (if_neg same)

theorem buying_nonNegative : NonNegative buying := by
  have units : (0 : Int) ≤ 0 ∧ (0 : Int) < 2 ^ 64 := by decide
  refine ⟨fun accountId => ?_, fun accountId => ?_, fun accountId _ => ?_, fun accountId _ => ?_⟩
  · rw [Ledger.cashTotal, buying_balances]
    split_ifs <;> decide
  · rw [Ledger.cashReserved, buying_balances]
    split_ifs <;> decide
  · rw [Ledger.positionTotal, buying_balances]
    split_ifs <;> exact units
  · rw [Ledger.positionReserved, buying_balances]
    split_ifs <;> exact units

/-- The buy may be replaced by one at a price that wraps. -/
theorem checks_exact_iff_buying :
    let command : ReplaceOrderCommand := {
      commandSequence := 2
      accountId := 7
      originalClientOrderId := 1
      newClientOrderId := 2
      instrumentId := 3
      newPrice := 2 ^ 63 - 1
      newQuantity := 2 }
    (NewOrderExact {} buying buyTwo ↔ NewOrderFits buying buyTwo) ∧
      (ReplaceExact {} buying command ⟨3, .buy, 100, 5⟩ ↔ ReplaceFits buying command ⟨3, .buy, 100, 5⟩) ∧
      (TraderExact {} {} 7 3 .buy 5 2 ↔ TraderFits {} 7 .buy 5 2) := by
  obtain ⟨newOrder, replace, trader⟩ := checks_exact_iff_requirements_fit {} buying buying_nonNegative {} {}
    fun _ => (show (0 : Int) ≤ 0 ∧ (0 : Int) < 2 ^ 63 by decide)
  exact ⟨newOrder buyTwo (by decide), replace _ _ (by decide) (by decide +kernel) rfl,
    trader 7 3 .buy 5 2 (by decide)⟩

end Wraps

end Mdh.Risk
