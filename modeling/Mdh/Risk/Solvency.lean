import Mathlib.Algebra.Order.BigOperators.Group.List
import Mathlib.Tactic.Linarith
import Mdh.Risk.HoldAgreement

/-! No account ever has more reserved than it owns, and trading moves cash and units
without making or losing any. One check before matching has to cover every trade the
command leads to, at whatever prices they turn out to be. -/

namespace Mdh.Risk
open Mdh.Core Mdh.Lib Mdh.Lib.KeyedStore Mdh.Matching Mdh.Matching.MatchingEngine Mdh.Accounts

/-- What every account has locked it owns, in cash and in units. -/
structure Solvent (ledger : Ledger) : Prop where
  cash : ∀ accountId, 0 ≤ ledger.cashReserved accountId ∧ ledger.cashReserved accountId ≤ ledger.cashTotal accountId
  units : ∀ accountId instrumentId, 0 ≤ ledger.positionReserved accountId instrumentId ∧
    ledger.positionReserved accountId instrumentId ≤ ledger.positionTotal accountId instrumentId

/-- The two ledgers hold as much cash and as many units, whoever has them. -/
structure Conserves (before after : Ledger) : Prop where
  cash : after.cashInAll = before.cashInAll
  units : ∀ instrumentId, after.unitsInAll instrumentId = before.unitsInAll instrumentId

theorem Conserves.refl (ledger : Ledger) : Conserves ledger ledger := ⟨rfl, fun _ => rfl⟩

theorem Conserves.trans {first second third : Ledger} (one : Conserves first second) (two : Conserves second third) :
    Conserves first third :=
  ⟨two.cash.trans one.cash, fun instrumentId => (two.units instrumentId).trans (one.units instrumentId)⟩

/-- No account has more reserved than it owns. -/
structure Funded (ledger : Ledger) : Prop where
  cash : ∀ accountId, 0 ≤ freeCash ledger accountId
  units : ∀ accountId instrumentId, 0 ≤ freeUnits ledger accountId instrumentId

/-- What an order that has no hold may still cost its account in cash. -/
def pendingCash (order : ExchangeRestingOrder) (accountId : AccountId) : Int :=
  if order.timeInForce = .gtc then 0 else (reservationFor order).cashBehind accountId

def pendingUnits (order : ExchangeRestingOrder) (accountId : AccountId) (instrumentId : InstrumentId) : Int :=
  if order.timeInForce = .gtc then 0 else (reservationFor order).unitsBehind accountId instrumentId

/-- Every account can pay for what is left of the order, held for or not. -/
structure Covered (order : ExchangeRestingOrder) (ledger : Ledger) : Prop where
  cash : ∀ accountId, pendingCash order accountId ≤ freeCash ledger accountId
  units : ∀ accountId instrumentId, pendingUnits order accountId instrumentId ≤ freeUnits ledger accountId instrumentId

section Trading
variable {order : ExchangeRestingOrder} {price : Int} {quantity : Nat}

/-- A resting order's trade at its own price costs it no more than its hold. -/
theorem contraShift_covered (side : Side) (quantity : Nat) (positive : 0 < price) :
    (contraShift side price quantity).cashReserved ≤ (contraShift side price quantity).cash ∧
      (contraShift side price quantity).unitsReserved ≤ (contraShift side price quantity).units := by
  have paid : 0 ≤ (quantity : Int) * price := by positivity
  cases side <;> simp [contraShift, reserveShift, settleShift, paid]

/-- The incoming order pays no more for a trade than its limit, which its hold or the check
has set aside. -/
theorem aggressorShift_cash (positive : 0 < price) (crosses : order.side.Crosses order.price price)
    (enough : quantity ≤ order.remainingQuantity) :
    pendingCash (incomingAfter order quantity) order.accountId ≤ pendingCash order order.accountId +
      ((aggressorShift order price quantity).cash - (aggressorShift order price quantity).cashReserved) := by
  have paid : 0 ≤ (quantity : Int) * price := by positivity
  have left : ((order.remainingQuantity - quantity : Nat) : Int) = order.remainingQuantity - quantity :=
    Nat.cast_sub enough
  unfold pendingCash aggressorShift Reservation.cashBehind reservationFor incomingAfter
  cases side : order.side with
  | buy =>
    rw [side] at crosses
    have within : (quantity : Int) * price ≤ quantity * order.price :=
      mul_le_mul_of_nonneg_left crosses (Nat.cast_nonneg _)
    by_cases gtc : order.timeInForce = .gtc
    · simpa [gtc, reserveShift, settleShift] using within
    · simp only [gtc, if_false, if_true, and_self, settleShift, left, sub_mul]
      linarith
  | sell => by_cases gtc : order.timeInForce = .gtc <;> simp [gtc, reserveShift, settleShift, paid]

/-- It delivers no more units than are left of it. -/
theorem aggressorShift_units (price : Int) (enough : quantity ≤ order.remainingQuantity) :
    pendingUnits (incomingAfter order quantity) order.accountId order.instrumentId ≤
      pendingUnits order order.accountId order.instrumentId +
        ((aggressorShift order price quantity).units - (aggressorShift order price quantity).unitsReserved) := by
  have left : ((order.remainingQuantity - quantity : Nat) : Int) = order.remainingQuantity - quantity :=
    Nat.cast_sub enough
  unfold pendingUnits aggressorShift Reservation.unitsBehind reservationFor incomingAfter
  by_cases gtc : order.timeInForce = .gtc
  · cases side : order.side <;> simp [gtc, reserveShift, settleShift]
  · cases side : order.side <;> simp [gtc, settleShift, left]

theorem pendingCash_other {accountId : AccountId} (other : accountId ≠ order.accountId) :
    pendingCash order accountId = 0 := by
  have none : (reservationFor order).cashBehind accountId = 0 := if_neg fun both => other both.1.symm
  rw [pendingCash, none, ite_self]

theorem pendingUnits_other {accountId : AccountId} {instrumentId : InstrumentId}
    (other : ¬ (accountId = order.accountId ∧ instrumentId = order.instrumentId)) :
    pendingUnits order accountId instrumentId = 0 := by
  have none : (reservationFor order).unitsBehind accountId instrumentId = 0 :=
    if_neg fun all => other ⟨all.1.symm, all.2.2.symm⟩
  rw [pendingUnits, none, ite_self]

theorem settle_balanced (side : Side) (price quantity : Int) :
    (settleShift side price quantity).cash + (settleShift side.contra price quantity).cash = 0 ∧
      (settleShift side price quantity).units + (settleShift side.contra price quantity).units = 0 := by
  cases side <;> simp [settleShift, Side.contra]

/-- What the one side of a trade pays and delivers, the other side gets. -/
theorem shifts_balanced (order : ExchangeRestingOrder) (price : Int) (quantity : Nat) :
    (aggressorShift order price quantity).cash + (contraShift order.side.contra price quantity).cash = 0 ∧
      (aggressorShift order price quantity).units + (contraShift order.side.contra price quantity).units = 0 := by
  have balanced := settle_balanced order.side price quantity
  have reserves : ∀ (side : Side) (limit : Int), (reserveShift side limit quantity (-1)).cash = 0 ∧
      (reserveShift side limit quantity (-1)).units = 0 := fun side limit => by
    cases side <;> exact ⟨rfl, rfl⟩
  unfold aggressorShift contraShift
  split_ifs <;> simp only [Shift.add_cash, Shift.add_units, reserves, zero_add] <;> exact balanced

/-- A trade keeps every account covered and loses nothing. -/
theorem Covered.trade {contra : BookOrder} {middle after : Ledger} (covered : Covered order middle)
    (positive : 0 < contra.price) (crosses : order.side.Crosses order.price contra.price)
    (enough : quantity ≤ order.remainingQuantity)
    (trades : Trades order.instrumentId order.accountId (aggressorShift order contra.price quantity)
      contra.accountId (contraShift order.side.contra contra.price quantity) middle after) :
    Covered (incomingAfter order quantity) after ∧ Conserves middle after := by
  obtain ⟨contraCash, contraUnits⟩ := contraShift_covered order.side.contra quantity positive
  obtain ⟨cashBalanced, unitsBalanced⟩ := shifts_balanced order contra.price quantity
  have ownCash := aggressorShift_cash positive crosses enough
  have ownUnits := aggressorShift_units contra.price enough
  refine ⟨⟨fun accountId => ?_, fun accountId instrumentId => ?_⟩, ?_, fun instrumentId => ?_⟩
  · have before := covered.cash accountId
    unfold freeCash at *
    rw [trades.cashTotal, trades.cashReserved]
    by_cases mine : accountId = order.accountId
    · subst mine
      rw [if_pos rfl, if_pos rfl]
      split_ifs <;> linarith
    · rw [pendingCash_other mine] at before
      rw [pendingCash_other (by exact mine), if_neg mine, if_neg mine]
      split_ifs <;> linarith
  · have before := covered.units accountId instrumentId
    unfold freeUnits at *
    rw [trades.positionTotal, trades.positionReserved]
    by_cases mine : accountId = order.accountId ∧ instrumentId = order.instrumentId
    · rw [if_pos mine, if_pos mine]
      obtain ⟨rfl, rfl⟩ := mine
      split_ifs <;> linarith
    · rw [pendingUnits_other mine] at before
      rw [pendingUnits_other (by exact mine), if_neg mine, if_neg mine]
      split_ifs <;> linarith
  · rw [trades.cashInAll, cashBalanced, add_zero]
  · rw [trades.unitsInAll, unitsBalanced, ite_self, add_zero]

/-- However many trades an arrival leads to. -/
theorem Trading.covered {incoming left : ExchangeRestingOrder} {before after : Ledger}
    (trading : Trading incoming before left after) (covered : Covered incoming before) :
    Covered left after ∧ Conserves before after ∧ left.price = incoming.price := by
  induction trading with
  | none => exact ⟨covered, Conserves.refl before, rfl⟩
  | next _ contra positive crosses quantity enough trades ih =>
    obtain ⟨covered, conserves, price⟩ := ih
    obtain ⟨next, trade⟩ := covered.trade positive crosses enough trades
    exact ⟨next, conserves.trans trade, price⟩

end Trading

section Checks
variable {ledger : Ledger} {limits : RiskLimits}

theorem Covered.funded {order : ExchangeRestingOrder} (covered : Covered order ledger) (positive : 0 < order.price) :
    Funded ledger := by
  refine ⟨fun accountId => le_trans ?_ (covered.cash accountId), fun accountId instrumentId =>
    le_trans ?_ (covered.units accountId instrumentId)⟩
  · unfold pendingCash Reservation.cashBehind
    split_ifs
    · exact le_rfl
    · exact mul_nonneg (Nat.cast_nonneg _) positive.le
    · exact le_rfl
  · unfold pendingUnits Reservation.unitsBehind
    split_ifs
    · exact le_rfl
    · exact Nat.cast_nonneg _
    · exact le_rfl

/-- What the check of a new order establishes. -/
theorem checkNewOrder_covers {command : NewOrderCommand}
    (passed : RiskEngine.checkNewOrder .exact limits command ledger = .none) :
    match command.side with
    | .buy => (command.quantity : Int) * command.price ≤ freeCash ledger command.accountId
    | .sell => (command.quantity : Int) ≤ freeUnits ledger command.accountId command.instrumentId := by
  unfold RiskEngine.checkNewOrder at passed
  cases side : command.side <;> simp only [side] at passed <;> split_ifs at passed with large short
  · rw [availableCash_eq _ _ .exact rfl, Rounding.exact_signed] at short
    exact not_lt.mp short
  · rw [availablePosition_eq _ _ _ .exact rfl, Rounding.exact_unsigned] at short
    exact not_lt.mp short

/-- What the check of a replacement establishes when the original has a hold. -/
theorem checkReplaceOrder_covers {command : ReplaceOrderCommand} {hold : Hold}
    (found : ledger.holds.lookup ⟨command.accountId, command.originalClientOrderId⟩ = some hold)
    (instrument : hold.instrumentId = command.instrumentId)
    (passed : RiskEngine.checkReplaceOrder .exact limits command ledger = .none) :
    match hold.side with
    | .buy => (command.newQuantity : Int) * command.newPrice ≤
        freeCash ledger command.accountId + hold.remaining * hold.limitPrice
    | .sell => (command.newQuantity : Int) ≤
        freeUnits ledger command.accountId command.instrumentId + hold.remaining := by
  have view : ledger.findHold command.accountId command.originalClientOrderId =
      some ⟨hold.instrumentId, hold.side, hold.limitPrice, hold.remaining⟩ := by
    unfold Ledger.findHold
    rw [found]
    rfl
  unfold RiskEngine.checkReplaceOrder at passed
  simp only [view, instrument, ne_eq, not_true_eq_false, if_false] at passed
  cases side : hold.side <;> simp only [side] at passed <;> split_ifs at passed with large short
  · rw [availableCash_eq _ _ .exact rfl, Rounding.exact_signed] at short
    have enough := (le_max_right 0 _).trans (not_lt.mp short)
    simp only [Rounding.exact, Ledger.notional] at enough
    linarith
  · rw [availablePosition_eq _ _ _ .exact rfl, Rounding.exact_unsigned] at short
    have enough := not_lt.mp short
    simp only
    omega

end Checks

section Commands
variable {gated : RiskGatedEngine}

/-- Setting cash or units aside moves none. -/
theorem reserveShift_moves (side : Side) (limitPrice quantity sign : Int) :
    (reserveShift side limitPrice quantity sign).cash = 0 ∧ (reserveShift side limitPrice quantity sign).units = 0 := by
  cases side <;> exact ⟨rfl, rfl⟩

theorem Shifts.conserves {accountId : AccountId} {instrumentId : InstrumentId} {shift : Shift} {before after : Ledger}
    (shifts : Shifts accountId instrumentId shift before after) (cash : shift.cash = 0) (units : shift.units = 0) :
    Conserves before after :=
  ⟨by rw [shifts.cashInAll, cash, add_zero], fun _ => by rw [shifts.unitsInAll, units, ite_self, add_zero]⟩

/-- A shift that sets aside no more than its account has free. -/
theorem Shifts.covers (order : ExchangeRestingOrder) {shift : Shift} {before after : Ledger}
    (shifts : Shifts order.accountId order.instrumentId shift before after) (funded : Funded before)
    (noCash : shift.cash = 0) (noUnits : shift.units = 0)
    (cash : pendingCash order order.accountId + shift.cashReserved ≤ freeCash before order.accountId)
    (units : pendingUnits order order.accountId order.instrumentId + shift.unitsReserved ≤
      freeUnits before order.accountId order.instrumentId) : Covered order after := by
  refine ⟨fun accountId => ?_, fun accountId instrumentId => ?_⟩
  · have before := funded.cash accountId
    unfold freeCash at *
    rw [shifts.cashTotal, shifts.cashReserved, noCash]
    by_cases mine : accountId = order.accountId
    · subst mine
      rw [if_pos rfl, if_pos rfl]
      linarith
    · rw [pendingCash_other mine, if_neg mine, if_neg mine]
      linarith
  · have before := funded.units accountId instrumentId
    unfold freeUnits at *
    rw [shifts.positionTotal, shifts.positionReserved, noUnits]
    by_cases mine : accountId = order.accountId ∧ instrumentId = order.instrumentId
    · rw [if_pos mine, if_pos mine]
      obtain ⟨rfl, rfl⟩ := mine
      linarith
    · rw [pendingUnits_other mine, if_neg mine, if_neg mine]
      linarith

/-- A shift that gives an account at least what it sets aside. -/
theorem Funded.shifts {accountId : AccountId} {instrumentId : InstrumentId} {shift : Shift} {before after : Ledger}
    (funded : Funded before) (shifts : Shifts accountId instrumentId shift before after)
    (cash : shift.cashReserved ≤ shift.cash) (units : shift.unitsReserved ≤ shift.units) : Funded after := by
  refine ⟨fun other => ?_, fun other instrument => ?_⟩
  · have had := funded.cash other
    unfold freeCash at *
    rw [shifts.cashTotal, shifts.cashReserved]
    split_ifs <;> linarith
  · have had := funded.units other instrument
    unfold freeUnits at *
    rw [shifts.positionTotal, shifts.positionReserved]
    split_ifs <;> linarith

theorem release_covered (reservation : Reservation) (positive : 0 < reservation.limitPrice) :
    (reservation.shift (-1)).cashReserved ≤ (reservation.shift (-1)).cash ∧
      (reservation.shift (-1)).unitsReserved ≤ (reservation.shift (-1)).units := by
  have locked : 0 ≤ (reservation.remaining : Int) * reservation.limitPrice := by positivity
  unfold Reservation.shift
  cases reservation.side <;> simp [reserveShift, locked]

/-- The check of a new order covers it, whether or not it is given a hold. -/
theorem accepted_covered {command : NewOrderCommand} {opened : Ledger} (funded : Funded gated.ledger)
    (passed : gated.Passes .exact (.newOrder command))
    (opens : Shifts command.accountId command.instrumentId
      (if command.timeInForce = .gtc then reserveShift command.side command.price command.quantity 1 else {})
      gated.ledger opened) :
    Covered (newOrderOf command gated.engine) opened ∧ Conserves gated.ledger opened := by
  have covers := checkNewOrder_covers passed
  have still : (if command.timeInForce = .gtc then reserveShift command.side command.price command.quantity 1
      else ({} : Shift)).cash = 0 ∧ (if command.timeInForce = .gtc then
        reserveShift command.side command.price command.quantity 1 else ({} : Shift)).units = 0 := by
    split_ifs
    · exact reserveShift_moves _ _ _ _
    · exact ⟨rfl, rfl⟩
  have cash := funded.cash command.accountId
  have units := funded.units command.accountId command.instrumentId
  refine ⟨Shifts.covers (newOrderOf command gated.engine) opens funded still.1 still.2 ?_ ?_,
    Shifts.conserves opens still.1 still.2⟩
  · cases side : command.side <;> simp only [side] at covers <;> by_cases gtc : command.timeInForce = .gtc <;>
      simp [pendingCash, Reservation.cashBehind, reservationFor, newOrderOf, reserveShift, side, gtc, covers, cash]
  · cases side : command.side <;> simp only [side] at covers <;> by_cases gtc : command.timeInForce = .gtc <;>
      simp [pendingUnits, Reservation.unitsBehind, reservationFor, newOrderOf, reserveShift, side, gtc, covers, units]

/-- A replacement may use what its original has set aside. -/
theorem replaced_covered {command : ReplaceOrderCommand} {ref : OrderRef} {placed : Placed} {opened : Ledger}
    (inStep : InStep gated.engine gated.ledger) (funded : Funded gated.ledger)
    (passed : gated.Passes .exact (.replaceOrder command)) (replaces : Replaces command gated.engine ref placed)
    (exchanges : Shifts command.accountId command.instrumentId
      ((reservationOf (Resting.of command.instrumentId placed)).shift (-1) +
        (reservationAsked command placed.order.side).shift 1) gated.ledger opened) :
    Covered (replacementOf command placed.order gated.engine) opened ∧ Conserves gated.ledger opened := by
  have here := replaces.located.resting inStep.sound.intact
  have key := replaces.located.key
  rw [replaces.same] at here key
  injection key with account client
  have held : reservationOf (Resting.of command.instrumentId placed) ∈ gated.ledger.reservations :=
    inStep.holds.mem_iff.mpr (List.mem_map_of_mem here)
  have found := (mem_reservations _ _).mp held
  have original : (reservationOf (Resting.of command.instrumentId placed)).key =
      ⟨command.accountId, command.originalClientOrderId⟩ := congrArg₂ HoldKey.mk account client
  rw [original] at found
  have covers : match placed.order.side with
      | .buy => (command.newQuantity : Int) * command.newPrice ≤
          freeCash gated.ledger command.accountId + placed.order.remainingQuantity * placed.order.price
      | .sell => (command.newQuantity : Int) ≤
          freeUnits gated.ledger command.accountId command.instrumentId + placed.order.remainingQuantity :=
    checkReplaceOrder_covers found rfl passed
  have gtc : placed.order.timeInForce = .gtc := inStep.sound.gtc _ here
  have none : ∀ accountId, pendingCash (replacementOf command placed.order gated.engine) accountId = 0 :=
    fun accountId => if_pos gtc
  have noUnits : ∀ accountId instrumentId,
      pendingUnits (replacementOf command placed.order gated.engine) accountId instrumentId = 0 :=
    fun accountId instrumentId => if_pos gtc
  have cash := funded.cash command.accountId
  have units := funded.units command.accountId command.instrumentId
  have still : ((reservationOf (Resting.of command.instrumentId placed)).shift (-1) +
      (reservationAsked command placed.order.side).shift 1).cash = 0 ∧
      ((reservationOf (Resting.of command.instrumentId placed)).shift (-1) +
        (reservationAsked command placed.order.side).shift 1).units = 0 := by
    simp only [Shift.add_cash, Shift.add_units, Reservation.shift, reserveShift_moves, add_zero, and_self]
  refine ⟨Shifts.covers (replacementOf command placed.order gated.engine) exchanges funded still.1 still.2
    ?_ ?_, Shifts.conserves exchanges still.1 still.2⟩
  · rw [none, zero_add]
    change (reserveShift placed.order.side placed.order.price placed.order.remainingQuantity (-1)).cashReserved +
      (reserveShift placed.order.side command.newPrice command.newQuantity 1).cashReserved ≤
        freeCash gated.ledger command.accountId
    cases side : placed.order.side <;> simp only [side] at covers <;> simp only [reserveShift] <;> linarith
  · rw [noUnits, zero_add]
    change (reserveShift placed.order.side placed.order.price placed.order.remainingQuantity (-1)).unitsReserved +
      (reserveShift placed.order.side command.newPrice command.newQuantity 1).unitsReserved ≤
        freeUnits gated.ledger command.accountId command.instrumentId
    cases side : placed.order.side <;> simp only [side] at covers <;> simp only [reserveShift] <;> linarith

/-- Every way a command settles leaves every account funded, and loses nothing. -/
theorem Settles.funded {command : ExchangeCommand} {after : Ledger} (inStep : InStep gated.engine gated.ledger)
    (funded : Funded gated.ledger) (passed : gated.Passes .exact command)
    (settles : Settles gated.engine gated.ledger command after) : Funded after ∧ Conserves gated.ledger after := by
  cases settles with
  | rejected => exact ⟨funded, Conserves.refl _⟩
  | accepted command valid opens trading =>
    obtain ⟨_, price, _⟩ := newOrderError_eq_none valid
    obtain ⟨covered, conserves⟩ := accepted_covered funded passed opens
    obtain ⟨covered, trades, same⟩ := trading.covered covered
    exact ⟨covered.funded (same ▸ price), conserves.trans trades⟩
  | replaced command replaces exchanges trading =>
    obtain ⟨covered, conserves⟩ := replaced_covered inStep funded passed replaces exchanges
    obtain ⟨covered, trades, same⟩ := trading.covered covered
    exact ⟨covered.funded (same ▸ replaces.price), conserves.trans trades⟩
  | @cancelled command entry _ rested closes =>
    obtain ⟨cash, units⟩ := reserveShift_moves _ _ _ _
    obtain ⟨freesCash, freesUnits⟩ := release_covered (reservationOf entry)
      (inStep.sound.positive entry rested).1
    exact ⟨funded.shifts closes freesCash freesUnits, Shifts.conserves closes cash units⟩

/-- One command leaves every account funded, and loses nothing. -/
theorem process_funded (inStep : InStep gated.engine gated.ledger) (funded : Funded gated.ledger)
    (command : ExchangeCommand) (fresh : FreshId gated.engine command) :
    let after := (gated.process .exact command).gated
    Funded after.ledger ∧ Conserves gated.ledger after.ledger := by
  rcases gated.process_cases .exact command with ⟨rejection, _, turned⟩ | ⟨passed, forwarded⟩
  · rw [turned]
    exact ⟨funded, Conserves.refl _⟩
  · rw [forwarded]
    exact (dispatch_forwarded inStep command fresh).settles.funded inStep funded passed

/-- What is reserved is never negative, for no resting order locks a negative amount. -/
theorem InStep.solvent {engine : MatchingEngine} {ledger : Ledger} (inStep : InStep engine ledger)
    (funded : Funded ledger) : Solvent ledger := by
  have agree := inStep.holdsAgree
  refine ⟨fun accountId => ⟨?_, sub_nonneg.mp (funded.cash accountId)⟩, fun accountId instrumentId =>
    ⟨?_, sub_nonneg.mp (funded.units accountId instrumentId)⟩⟩
  · rw [agree.cashReserved]
    refine List.sum_nonneg fun amount member => ?_
    obtain ⟨entry, there, rfl⟩ := List.mem_map.mp member
    have price := (inStep.sound.positive entry (List.mem_of_mem_filter there)).1
    positivity
  · rw [agree.positionReserved]
    refine List.sum_nonneg fun amount member => ?_
    obtain ⟨entry, _, rfl⟩ := List.mem_map.mp member
    exact Nat.cast_nonneg _

end Commands

section Seeding

def Deposit.NonNegative : Deposit → Prop
  | .cash _ amount => 0 ≤ amount
  | .position _ _ _ => True

instance (deposit : Deposit) : Decidable deposit.NonNegative := by
  cases deposit <;> unfold Deposit.NonNegative <;> infer_instance

theorem Funded.deposit {ledger : Ledger} (funded : Funded ledger) (deposit : Deposit)
    (nonNegative : deposit.NonNegative) : Funded (deposit.into .exact ledger) := by
  cases deposit with
  | cash accountId amount => exact funded.shifts ((addCash_edits 0 amount).shifts ledger accountId) nonNegative le_rfl
  | position accountId instrumentId amount =>
    exact funded.shifts ((addPosition_edits instrumentId amount).shifts ledger accountId) le_rfl (Nat.cast_nonneg amount)

theorem seeded_funded (deposits : List Deposit) (nonNegative : ∀ deposit ∈ deposits, deposit.NonNegative) :
    Funded (seeded .exact deposits) := by
  refine List.foldlRecOn (motive := Funded) deposits _ ⟨fun _ => le_rfl, fun _ _ => le_rfl⟩ ?_
  exact fun ledger funded deposit member => funded.deposit deposit (nonNegative deposit member)

end Seeding

/-- From non-negative deposits every account stays solvent, and cash and units are conserved. -/
theorem solvent_and_conserving (limits : RiskLimits) (instruments : List InstrumentId) (deposits : List Deposit)
    (nonNegative : ∀ deposit ∈ deposits, deposit.NonNegative) (commands : List ExchangeCommand)
    (fresh : (RiskGatedEngine.start .exact limits instruments deposits).FreshIds commands) :
    let start := RiskGatedEngine.start .exact limits instruments deposits
    Solvent (start.run .exact commands).ledger ∧ Conserves start.ledger (start.run .exact commands).ledger := by
  intro start
  obtain ⟨⟨funded, conserves⟩, inStep⟩ := RiskGatedEngine.run_rule
    (fun gated => Funded gated.ledger ∧ Conserves start.ledger gated.ledger)
    (fun gated command ⟨funded, conserves⟩ inStep fresh => by
      obtain ⟨funded, moves⟩ := process_funded inStep funded command fresh
      exact ⟨funded, conserves.trans moves⟩)
    ⟨seeded_funded deposits nonNegative, Conserves.refl _⟩ (start_inStep limits instruments deposits) commands fresh
  exact ⟨inStep.solvent funded, conserves⟩

theorem solvent_and_conserving_traded :
    let start := RiskGatedEngine.start .exact {} [3] [.cash 7 1000, .position 8 3 10]
    Solvent (start.run .exact traded).ledger ∧ Conserves start.ledger (start.run .exact traded).ledger :=
  solvent_and_conserving {} [3] [.cash 7 1000, .position 8 3 10] (by decide) traded traded_fresh

end Mdh.Risk
