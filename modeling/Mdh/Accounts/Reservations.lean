import Mathlib.Tactic.Ring
import Mdh.Accounts.Ledger

/-! What each entry point of the ledger does, with exact arithmetic: by how much one
account's balances shift, and which reservations are open afterwards. -/

namespace Mdh.Accounts
open Mdh.Core Mdh.Lib Mdh.Lib.KeyedStore

namespace Ledger

def cashTotal (ledger : Ledger) (accountId : AccountId) : Int := (ledger.balances accountId).cashTotal

def cashReserved (ledger : Ledger) (accountId : AccountId) : Int := (ledger.balances accountId).cashReserved

def positionTotal (ledger : Ledger) (accountId : AccountId) (instrumentId : InstrumentId) : Int :=
  valueAt (ledger.balances accountId).positionTotal instrumentId

def positionReserved (ledger : Ledger) (accountId : AccountId) (instrumentId : InstrumentId) : Int :=
  valueAt (ledger.balances accountId).positionReserved instrumentId

/-- The cash of all accounts together. -/
def cashInAll (ledger : Ledger) : Int := total AccountBalances.cashTotal ledger.accounts

/-- The units of an instrument in all accounts together. -/
def unitsInAll (ledger : Ledger) (instrumentId : InstrumentId) : Int :=
  total (fun balances : AccountBalances => valueAt balances.positionTotal instrumentId) ledger.accounts

end Ledger

/-- Cash that is not locked behind a resting order, in unbounded integers. -/
def freeCash (ledger : Ledger) (accountId : AccountId) : Int :=
  ledger.cashTotal accountId - ledger.cashReserved accountId

def freeUnits (ledger : Ledger) (accountId : AccountId) (instrumentId : InstrumentId) : Int :=
  ledger.positionTotal accountId instrumentId - ledger.positionReserved accountId instrumentId

section Available
variable (ledger : Ledger) (accountId : AccountId) (instrumentId : InstrumentId)

theorem availableCash_eq (round : Rounding) (zero : round.signed 0 = 0) :
    ledger.availableCash round accountId = round.signed (freeCash ledger accountId) := by
  unfold Ledger.availableCash freeCash Ledger.cashTotal Ledger.cashReserved Ledger.balances valueAt
  cases ledger.accounts.lookup accountId with
  | none => exact zero.symm
  | some balances => rfl

theorem availablePosition_eq (round : Rounding) (zero : round.unsigned 0 = 0) :
    ledger.availablePosition round accountId instrumentId = round.unsigned (freeUnits ledger accountId instrumentId) := by
  unfold Ledger.availablePosition freeUnits Ledger.positionTotal Ledger.positionReserved Ledger.balances
  have seen : valueAt ledger.accounts accountId = (ledger.accounts.lookup accountId).getD default := rfl
  rw [seen]
  cases ledger.accounts.lookup accountId with
  | none => exact zero.symm
  | some balances => rfl

end Available

/-- By how much the balances of one account move. -/
@[ext] structure Shift where
  cash : Int := 0
  cashReserved : Int := 0
  units : Int := 0
  unitsReserved : Int := 0

instance : Add Shift where
  add first second :=
    { cash := first.cash + second.cash
      cashReserved := first.cashReserved + second.cashReserved
      units := first.units + second.units
      unitsReserved := first.unitsReserved + second.unitsReserved }

@[simp] theorem Shift.add_cash (first second : Shift) : (first + second).cash = first.cash + second.cash := rfl
@[simp] theorem Shift.add_cashReserved (first second : Shift) :
    (first + second).cashReserved = first.cashReserved + second.cashReserved := rfl
@[simp] theorem Shift.add_units (first second : Shift) : (first + second).units = first.units + second.units := rfl
@[simp] theorem Shift.add_unitsReserved (first second : Shift) :
    (first + second).unitsReserved = first.unitsReserved + second.unitsReserved := rfl

/-- An edit of an account's balances that moves them by `shift`, the units being those of
one instrument. -/
structure Edits (instrumentId : InstrumentId) (shift : Shift) (change : AccountBalances → AccountBalances) : Prop where
  cashTotal : ∀ balances, (change balances).cashTotal = balances.cashTotal + shift.cash
  cashReserved : ∀ balances, (change balances).cashReserved = balances.cashReserved + shift.cashReserved
  positionTotal : ∀ balances instrument, valueAt (change balances).positionTotal instrument =
    valueAt balances.positionTotal instrument + if instrument = instrumentId then shift.units else 0
  positionReserved : ∀ balances instrument, valueAt (change balances).positionReserved instrument =
    valueAt balances.positionReserved instrument + if instrument = instrumentId then shift.unitsReserved else 0

/-- One account's balances move by `shift`, no other account's do, and the sums over all
accounts move with them. -/
structure Shifts (accountId : AccountId) (instrumentId : InstrumentId) (shift : Shift) (before after : Ledger) :
    Prop where
  cashTotal : ∀ other, after.cashTotal other = before.cashTotal other + if other = accountId then shift.cash else 0
  cashReserved : ∀ other, after.cashReserved other =
    before.cashReserved other + if other = accountId then shift.cashReserved else 0
  positionTotal : ∀ other instrument, after.positionTotal other instrument =
    before.positionTotal other instrument + if other = accountId ∧ instrument = instrumentId then shift.units else 0
  positionReserved : ∀ other instrument, after.positionReserved other instrument =
    before.positionReserved other instrument +
      if other = accountId ∧ instrument = instrumentId then shift.unitsReserved else 0
  cashInAll : after.cashInAll = before.cashInAll + shift.cash
  unitsInAll : ∀ instrument, after.unitsInAll instrument =
    before.unitsInAll instrument + if instrument = instrumentId then shift.units else 0

section Shifts
variable {accountId : AccountId} {instrumentId : InstrumentId} {first second : Shift} {before middle after : Ledger}

theorem Edits.shifts {change : AccountBalances → AccountBalances} (edits : Edits instrumentId first change)
    (ledger : Ledger) (accountId : AccountId) :
    Shifts accountId instrumentId first ledger (ledger.accountRef accountId change) := by
  have balances : ∀ other, (ledger.accountRef accountId change).balances other =
      if other = accountId then change (ledger.balances accountId) else ledger.balances other :=
    fun other => valueAt_modifyAt ledger.accounts accountId other change
  refine ⟨fun other => ?_, fun other => ?_, fun other instrument => ?_, fun other instrument => ?_, ?_,
    fun instrument => ?_⟩
  · unfold Ledger.cashTotal
    rw [balances]
    split_ifs with same
    · rw [edits.cashTotal, same]
    · rw [add_zero]
  · unfold Ledger.cashReserved
    rw [balances]
    split_ifs with same
    · rw [edits.cashReserved, same]
    · rw [add_zero]
  · unfold Ledger.positionTotal
    rw [balances]
    by_cases same : other = accountId
    · rw [if_pos same, edits.positionTotal, same]
      simp
    · simp [same]
  · unfold Ledger.positionReserved
    rw [balances]
    by_cases same : other = accountId
    · rw [if_pos same, edits.positionReserved, same]
      simp
    · simp [same]
  · exact total_modifyAt_add rfl ledger.accounts accountId edits.cashTotal
  · exact total_modifyAt_add rfl ledger.accounts accountId fun balances => edits.positionTotal balances instrument

theorem Shifts.trans (one : Shifts accountId instrumentId first before middle)
    (two : Shifts accountId instrumentId second middle after) :
    Shifts accountId instrumentId (first + second) before after := by
  refine ⟨fun other => ?_, fun other => ?_, fun other instrument => ?_, fun other instrument => ?_, ?_,
    fun instrument => ?_⟩
  · rw [two.cashTotal, one.cashTotal]
    split_ifs <;> simp [add_assoc]
  · rw [two.cashReserved, one.cashReserved]
    split_ifs <;> simp [add_assoc]
  · rw [two.positionTotal, one.positionTotal]
    split_ifs <;> simp [add_assoc]
  · rw [two.positionReserved, one.positionReserved]
    split_ifs <;> simp [add_assoc]
  · rw [two.cashInAll, one.cashInAll]
    simp [add_assoc]
  · rw [two.unitsInAll, one.unitsInAll]
    split_ifs <;> simp [add_assoc]

/-- Holds and counters are no account's balances. -/
theorem Shifts.of_accounts (same : after.accounts = before.accounts) : Shifts accountId instrumentId {} before after := by
  have balances : ∀ other, after.balances other = before.balances other := fun other => by
    unfold Ledger.balances
    rw [same]
  refine ⟨fun other => ?_, fun other => ?_, fun other instrument => ?_, fun other instrument => ?_, ?_,
    fun instrument => ?_⟩
  · simp [Ledger.cashTotal, balances]
  · simp [Ledger.cashReserved, balances]
  · simp [Ledger.positionTotal, balances]
  · simp [Ledger.positionReserved, balances]
  · simp [Ledger.cashInAll, same]
  · simp [Ledger.unitsInAll, same]

theorem Shift.add_none (shift : Shift) : shift + {} = shift := by
  ext <;> simp

theorem Shifts.of_same_accounts (shifts : Shifts accountId instrumentId first before middle)
    (same : after.accounts = middle.accounts) : Shifts accountId instrumentId first before after :=
  first.add_none ▸ shifts.trans (Shifts.of_accounts same)

theorem Edits.id : Edits instrumentId {} id := by
  refine ⟨?_, ?_, ?_, ?_⟩ <;> simp

theorem Edits.comp {one two : AccountBalances → AccountBalances} (inner : Edits instrumentId first one)
    (outer : Edits instrumentId second two) : Edits instrumentId (first + second) (two ∘ one) := by
  refine ⟨fun balances => ?_, fun balances => ?_, fun balances instrument => ?_, fun balances instrument => ?_⟩
  · simp [outer.cashTotal, inner.cashTotal, add_assoc]
  · simp [outer.cashReserved, inner.cashReserved, add_assoc]
  · rw [Function.comp_apply, outer.positionTotal, inner.positionTotal]
    split_ifs <;> simp [add_assoc]
  · rw [Function.comp_apply, outer.positionReserved, inner.positionReserved]
    split_ifs <;> simp [add_assoc]

theorem addCash_edits (instrumentId : InstrumentId) (amount : Int) :
    Edits instrumentId { cash := amount } (Ledger.addCash .exact amount) := by
  refine ⟨?_, ?_, ?_, ?_⟩ <;> simp [Ledger.addCash]

theorem addPosition_edits (instrumentId : InstrumentId) (amount : Int) :
    Edits instrumentId { units := amount } (Ledger.addPosition .exact instrumentId amount) := by
  refine ⟨?_, ?_, fun balances instrument => ?_, ?_⟩
  · simp [Ledger.addPosition]
  · simp [Ledger.addPosition]
  · unfold Ledger.addPosition
    rw [valueAt_modifyAt]
    split_ifs with same
    · rw [same]
      rfl
    · rw [add_zero]
  · simp [Ledger.addPosition]

/-- What an order of this side locks. -/
def reserveShift (side : Side) (limitPrice : Int) (quantity sign : Int) : Shift :=
  match side with
  | .buy => { cashReserved := sign * (quantity * limitPrice) }
  | .sell => { unitsReserved := sign * quantity }

theorem addReserved_edits (instrumentId : InstrumentId) (side : Side) (limitPrice : Int) (quantity : Nat) (sign : Int) :
    Edits instrumentId (reserveShift side limitPrice quantity sign)
      (Ledger.addReserved .exact side instrumentId limitPrice quantity sign) := by
  cases side with
  | buy => refine ⟨?_, ?_, ?_, ?_⟩ <;> simp [Ledger.addReserved, Ledger.addCashReserved, Ledger.notional, reserveShift]
  | sell =>
    refine ⟨?_, ?_, ?_, fun balances instrument => ?_⟩
    · simp [Ledger.addReserved, Ledger.addPositionReserved, reserveShift]
    · simp [Ledger.addReserved, Ledger.addPositionReserved, reserveShift]
    · simp [Ledger.addReserved, Ledger.addPositionReserved, reserveShift]
    · unfold Ledger.addReserved Ledger.addPositionReserved
      rw [valueAt_modifyAt]
      split_ifs with same
      · rw [same]
        rfl
      · rw [add_zero]

end Shifts

/-- An open reservation, with the order it is for. -/
structure Reservation where
  accountId : AccountId
  clientOrderId : ClientOrderId
  instrumentId : InstrumentId
  side : Side
  limitPrice : Int
  remaining : Nat
  deriving DecidableEq, Repr

namespace Reservation

def key (reservation : Reservation) : HoldKey := ⟨reservation.accountId, reservation.clientOrderId⟩

def hold (reservation : Reservation) : Hold :=
  { instrumentId := reservation.instrumentId
    side := reservation.side
    limitPrice := reservation.limitPrice
    remaining := reservation.remaining }

def of (key : HoldKey) (hold : Hold) : Reservation where
  accountId := key.accountId
  clientOrderId := key.clientOrderId
  instrumentId := hold.instrumentId
  side := hold.side
  limitPrice := hold.limitPrice
  remaining := hold.remaining

/-- The cash it locks in an account. -/
def cashBehind (accountId : AccountId) (reservation : Reservation) : Int :=
  if reservation.accountId = accountId ∧ reservation.side = .buy then reservation.remaining * reservation.limitPrice
  else 0

/-- The units of an instrument it locks in an account. -/
def unitsBehind (accountId : AccountId) (instrumentId : InstrumentId) (reservation : Reservation) : Int :=
  if reservation.accountId = accountId ∧ reservation.side = .sell ∧ reservation.instrumentId = instrumentId then
    reservation.remaining
  else 0

/-- A reservation is open for as long as something of its order remains. -/
def stillOpen (reservation : Reservation) : List Reservation :=
  if reservation.remaining = 0 then [] else [reservation]

end Reservation

/-- Every reservation that is open. -/
def Ledger.reservations (ledger : Ledger) : List Reservation :=
  ledger.holds.entries.map fun entry => Reservation.of entry.1 entry.2

theorem mem_reservations (ledger : Ledger) (reservation : Reservation) :
    reservation ∈ ledger.reservations ↔ ledger.holds.lookup reservation.key = some reservation.hold := by
  unfold Ledger.reservations
  rw [List.mem_map]
  constructor
  · rintro ⟨entry, member, rfl⟩
    exact (mem_entries_iff entry).mp member
  · intro found
    exact ⟨⟨reservation.key, reservation.hold⟩, (mem_entries_iff _).mpr found, rfl⟩

section Holds
variable {ledger : Ledger} {key : HoldKey} {hold : Hold}

theorem reservations_erase (found : ledger.holds.lookup key = some hold) :
    ledger.reservations.Perm (Reservation.of key hold :: (ledger.eraseHold key).reservations) :=
  (entries_perm_erase found).map fun entry : (_ : HoldKey) × Hold => Reservation.of entry.1 entry.2

theorem openHold_spec {accountId : AccountId} {clientOrderId : ClientOrderId} (instrumentId : InstrumentId) (side : Side)
    (limitPrice : Int) {quantity : Nat} (some : quantity ≠ 0)
    (free : ledger.holds.lookup ⟨accountId, clientOrderId⟩ = none) :
    let after := ledger.openHold .exact accountId clientOrderId instrumentId side limitPrice quantity
    Shifts accountId instrumentId (reserveShift side limitPrice quantity 1) ledger after ∧
      after.reservations.Perm (⟨accountId, clientOrderId, instrumentId, side, limitPrice, quantity⟩ ::
        ledger.reservations) := by
  unfold Ledger.openHold
  rw [if_neg some]
  constructor
  · exact ((addReserved_edits instrumentId side limitPrice quantity 1).shifts ledger accountId).of_same_accounts rfl
  · have rest := entries_erase_of_none free
    unfold Ledger.reservations
    rw [← rest]
    exact List.Perm.refl _

theorem reserveShift_zero (side : Side) (limitPrice sign : Int) : reserveShift side limitPrice 0 sign = {} := by
  cases side <;> simp [reserveShift]

/-- A hold released and erased gives back all it locks. -/
theorem release_spec (found : ledger.holds.lookup key = some hold) :
    let after := (ledger.releaseHoldFully .exact key.accountId hold).eraseHold key
    Shifts key.accountId hold.instrumentId (reserveShift hold.side hold.limitPrice hold.remaining (-1)) ledger after ∧
      ledger.reservations.Perm (Reservation.of key hold :: after.reservations) ∧ after.holds.lookup key = none := by
  unfold Ledger.releaseHoldFully
  split_ifs with nothing
  · rw [nothing, Nat.cast_zero, reserveShift_zero]
    exact ⟨Shifts.of_accounts rfl, reservations_erase found, AList.lookup_erase key ledger.holds⟩
  · have released := (addReserved_edits hold.instrumentId hold.side hold.limitPrice hold.remaining (-1)).shifts ledger key.accountId
    exact ⟨released.of_same_accounts rfl,
      reservations_erase found, AList.lookup_erase key ledger.holds⟩

/-- A leg with a hold gives back what the filled slice locked, and the hold shrinks. -/
theorem shrinkHold_spec {leg : TradeCounterparty} (side : Side) (instrumentId : InstrumentId) (tradeQuantity : Nat)
    (found : ledger.holds.lookup ⟨leg.accountId, leg.clientOrderId⟩ = some hold) :
    let after := ledger.shrinkHold .exact leg side instrumentId tradeQuantity
    Shifts leg.accountId instrumentId (reserveShift side hold.limitPrice tradeQuantity (-1)) ledger after ∧
      ∃ rest, ledger.reservations.Perm (Reservation.of ⟨leg.accountId, leg.clientOrderId⟩ hold :: rest) ∧
        after.reservations.Perm
          ((Reservation.of ⟨leg.accountId, leg.clientOrderId⟩
            { hold with remaining := leg.remainingQuantity }).stillOpen ++ rest) := by
  have released := (addReserved_edits instrumentId side hold.limitPrice tradeQuantity (-1)).shifts
    ledger leg.accountId
  have erased := reservations_erase found
  simp only [Ledger.shrinkHold, found]
  split_ifs with done
  · refine ⟨released.of_same_accounts rfl, _, erased, ?_⟩
    rw [Reservation.stillOpen, if_pos (by exact done)]
    exact List.Perm.refl _
  · refine ⟨released.of_same_accounts rfl, _, erased, ?_⟩
    rw [Reservation.stillOpen, if_neg (by exact done)]
    exact List.Perm.refl _

/-- What a leg of a trade moves: cash one way and units the other. -/
def settleShift (side : Side) (tradePrice quantity : Int) : Shift :=
  match side with
  | .buy => { cash := -(quantity * tradePrice), units := quantity }
  | .sell => { cash := quantity * tradePrice, units := -quantity }

theorem settle_shifts (ledger : Ledger) (accountId : AccountId) (instrumentId : InstrumentId) (side : Side)
    (tradePrice : Int) (quantity : Nat) (sign : Int) (signed : sign = match side with | .buy => 1 | .sell => -1) :
    Shifts accountId instrumentId (settleShift side tradePrice quantity) ledger
      (ledger.accountRef accountId fun balances =>
        Ledger.addPosition .exact instrumentId (sign * quantity)
          (Ledger.addCash .exact (-(sign * Ledger.notional .exact quantity tradePrice)) balances)) := by
  have moved := ((addCash_edits instrumentId (-(sign * Ledger.notional .exact quantity tradePrice))).comp
    (addPosition_edits instrumentId (sign * quantity))).shifts ledger accountId
  have same : ({ cash := -(sign * Ledger.notional .exact quantity tradePrice) } + { units := sign * quantity } : Shift) =
      settleShift side tradePrice quantity := by
    subst signed
    cases side <;> ext <;> simp [settleShift, Ledger.notional]
  exact same ▸ moved

section Legs
variable (leg : TradeCounterparty) (side : Side) (instrumentId : InstrumentId) (tradePrice : Int) (quantity : Nat)

/-- A leg of an order with no hold settles directly. -/
theorem settleLeg_free (free : ledger.holds.lookup ⟨leg.accountId, leg.clientOrderId⟩ = none) :
    let after := ledger.settleLeg .exact leg side instrumentId tradePrice quantity
    Shifts leg.accountId instrumentId (settleShift side tradePrice quantity) ledger after ∧
      after.holds = ledger.holds := by
  have seen : (ledger.accountRef leg.accountId id).holds.lookup ⟨leg.accountId, leg.clientOrderId⟩ = none := free
  have skipped : (ledger.accountRef leg.accountId id).shrinkHold .exact leg side instrumentId quantity =
      ledger.accountRef leg.accountId id := by
    simp only [Ledger.shrinkHold, seen]
  simp only [Ledger.settleLeg, skipped]
  refine ⟨?_, rfl⟩
  have none : ({} : Shift) + settleShift side tradePrice quantity = settleShift side tradePrice quantity := by
    ext <;> simp
  exact none ▸ (Edits.id.shifts ledger leg.accountId).trans (settle_shifts _ _ _ side tradePrice quantity _ rfl)

/-- A leg of an order with a hold settles and gives back what the filled slice locked. -/
theorem settleLeg_held (found : ledger.holds.lookup ⟨leg.accountId, leg.clientOrderId⟩ = some hold) :
    let after := ledger.settleLeg .exact leg side instrumentId tradePrice quantity
    Shifts leg.accountId instrumentId
        (reserveShift side hold.limitPrice quantity (-1) + settleShift side tradePrice quantity) ledger after ∧
      ∃ rest, ledger.reservations.Perm (Reservation.of ⟨leg.accountId, leg.clientOrderId⟩ hold :: rest) ∧
        after.reservations.Perm
          ((Reservation.of ⟨leg.accountId, leg.clientOrderId⟩
            { hold with remaining := leg.remainingQuantity }).stillOpen ++ rest) := by
  have seen : (ledger.accountRef leg.accountId id).holds.lookup ⟨leg.accountId, leg.clientOrderId⟩ = some hold := found
  obtain ⟨released, rest, was, is⟩ := shrinkHold_spec side instrumentId quantity seen
  have none : ({} : Shift) + reserveShift side hold.limitPrice quantity (-1) =
      reserveShift side hold.limitPrice quantity (-1) := by
    ext <;> simp
  have shrunk := none ▸ (Edits.id.shifts ledger leg.accountId).trans released
  exact ⟨shrunk.trans (settle_shifts _ _ _ side tradePrice quantity _ rfl), rest, was, is⟩

end Legs

end Holds

/-- What is reserved is what the open reservations lock. -/
structure Backed (ledger : Ledger) : Prop where
  cash : ∀ accountId, ledger.cashReserved accountId = (ledger.reservations.map (Reservation.cashBehind accountId)).sum
  units : ∀ accountId instrumentId, ledger.positionReserved accountId instrumentId =
    (ledger.reservations.map (Reservation.unitsBehind accountId instrumentId)).sum

/-- The shift that opening a reservation makes, and, negated, closing it. -/
def Reservation.shift (reservation : Reservation) (sign : Int) : Shift :=
  reserveShift reservation.side reservation.limitPrice reservation.remaining sign

section Backed
variable {before after : Ledger}

/-- Exchanging some open reservations for others keeps the books backed when the balances
shift by the difference of what they lock. -/
theorem Backed.exchange {accountId : AccountId} {instrumentId : InstrumentId} {shift : Shift}
    (olds news : List Reservation) {rest : List Reservation} (backed : Backed before) (shifts : Shifts accountId instrumentId shift before after)
    (was : before.reservations.Perm (olds ++ rest)) (is : after.reservations.Perm (news ++ rest))
    (cash : ∀ other, (news.map (Reservation.cashBehind other)).sum =
      (olds.map (Reservation.cashBehind other)).sum + if other = accountId then shift.cashReserved else 0)
    (units : ∀ other instrument, (news.map (Reservation.unitsBehind other instrument)).sum =
      (olds.map (Reservation.unitsBehind other instrument)).sum +
        if other = accountId ∧ instrument = instrumentId then shift.unitsReserved else 0) : Backed after := by
  constructor
  · intro other
    rw [shifts.cashReserved, backed.cash, (was.map _).sum_eq, (is.map _).sum_eq, List.map_append, List.map_append,
      List.sum_append, List.sum_append, cash]
    ring
  · intro other instrument
    rw [shifts.positionReserved, backed.units, (was.map _).sum_eq, (is.map _).sum_eq, List.map_append, List.map_append,
      List.sum_append, List.sum_append, units]
    ring

theorem cashBehind_shift (reservation : Reservation) (accountId : AccountId) (sign : Int) :
    sign * reservation.cashBehind accountId =
      if accountId = reservation.accountId then (reservation.shift sign).cashReserved else 0 := by
  unfold Reservation.cashBehind Reservation.shift reserveShift
  by_cases same : accountId = reservation.accountId
  · cases side : reservation.side <;> simp [same]
  · simp [same, Ne.symm same]

theorem unitsBehind_shift (reservation : Reservation) (accountId : AccountId) (instrumentId : InstrumentId)
    (sign : Int) : sign * reservation.unitsBehind accountId instrumentId =
      if accountId = reservation.accountId ∧ instrumentId = reservation.instrumentId then
        (reservation.shift sign).unitsReserved
      else 0 := by
  unfold Reservation.unitsBehind Reservation.shift reserveShift
  by_cases same : accountId = reservation.accountId
  · by_cases instrument : instrumentId = reservation.instrumentId
    · cases side : reservation.side <;> simp [same, instrument]
    · simp [same, instrument, Ne.symm instrument]
  · simp [same, Ne.symm same]

theorem Backed.opens (reservation : Reservation) (backed : Backed before)
    (shifts : Shifts reservation.accountId reservation.instrumentId (reservation.shift 1) before after)
    (is : after.reservations.Perm (reservation :: before.reservations)) : Backed after := by
  refine Backed.exchange [] [reservation] backed shifts (List.Perm.refl _) is (fun other => ?_)
    fun other instrument => ?_
  · rw [← cashBehind_shift]
    simp
  · rw [← unitsBehind_shift]
    simp

theorem Backed.closes (reservation : Reservation) (backed : Backed before)
    (shifts : Shifts reservation.accountId reservation.instrumentId (reservation.shift (-1)) before after)
    (was : before.reservations.Perm (reservation :: after.reservations)) : Backed after := by
  refine Backed.exchange [reservation] [] backed shifts was (List.Perm.refl _) (fun other => ?_)
    fun other instrument => ?_
  · rw [← cashBehind_shift]
    simp
  · rw [← unitsBehind_shift]
    simp

theorem stillOpen_cash (reservation : Reservation) (accountId : AccountId) :
    (reservation.stillOpen.map (Reservation.cashBehind accountId)).sum = reservation.cashBehind accountId := by
  unfold Reservation.stillOpen
  split_ifs with done
  · simp [Reservation.cashBehind, done]
  · simp

theorem stillOpen_units (reservation : Reservation) (accountId : AccountId) (instrumentId : InstrumentId) :
    (reservation.stillOpen.map (Reservation.unitsBehind accountId instrumentId)).sum =
      reservation.unitsBehind accountId instrumentId := by
  unfold Reservation.stillOpen
  split_ifs with done
  · simp [Reservation.unitsBehind, done]
  · simp

/-- A trade that takes `quantity` of a reservation, and leaves the rest of it open. -/
theorem Backed.shrinks {reservation : Reservation} {left quantity : Nat} {rest : List Reservation} {tradePrice : Int}
    (backed : Backed before) (parts : reservation.remaining = left + quantity)
    (shifts : Shifts reservation.accountId reservation.instrumentId
      (reserveShift reservation.side reservation.limitPrice quantity (-1) +
        settleShift reservation.side tradePrice quantity) before after)
    (was : before.reservations.Perm (reservation :: rest))
    (is : after.reservations.Perm ({ reservation with remaining := left : Reservation }.stillOpen ++ rest)) :
    Backed after := by
  refine Backed.exchange [reservation] _ backed shifts was is (fun other => ?_) fun other instrument => ?_
  · rw [stillOpen_cash, List.map_cons, List.map_nil, List.sum_singleton]
    unfold Reservation.cashBehind
    by_cases same : other = reservation.accountId
    · cases side : reservation.side <;> simp [same, reserveShift, settleShift, parts]
      ring
    · simp [same, Ne.symm same]
  · rw [stillOpen_units, List.map_cons, List.map_nil, List.sum_singleton]
    unfold Reservation.unitsBehind
    by_cases same : other = reservation.accountId
    · by_cases here : instrument = reservation.instrumentId
      · cases side : reservation.side <;> simp [same, here, reserveShift, settleShift, parts]
      · simp [same, here, Ne.symm here]
    · simp [same, Ne.symm same]

theorem Backed.same {accountId : AccountId} {instrumentId : InstrumentId} {shift : Shift} (backed : Backed before)
    (shifts : Shifts accountId instrumentId shift before after) (cash : shift.cashReserved = 0)
    (units : shift.unitsReserved = 0) (holds : after.holds = before.holds) : Backed after := by
  have same : after.reservations = before.reservations := by
    unfold Ledger.reservations
    rw [holds]
  refine Backed.exchange [] [] backed shifts (List.Perm.refl _) (List.Perm.of_eq same) (fun other => ?_)
    fun other instrument => ?_
  · simp [cash]
  · simp [units]

end Backed

end Mdh.Accounts
