import Mdh.Accounts.Reservations

/-! What a trade does to the ledger when its legs say of their orders what the ledger
holds for them. -/

namespace Mdh.Accounts
open Mdh.Core Mdh.Lib Mdh.Lib.KeyedStore

def legKey (leg : TradeCounterparty) : HoldKey := ⟨leg.accountId, leg.clientOrderId⟩

/-- What becomes of the reservation a leg's order has, if it has one: of `quantity` less it
stays open for as long as something remains. -/
inductive LegTurns (leg : TradeCounterparty) (side : Side) (instrumentId : InstrumentId) (tradePrice : Int)
    (quantity : Nat) : List Reservation → List Reservation → Shift → Prop where
  | held (reservation : Reservation) (key : reservation.key = legKey leg) (sameSide : reservation.side = side)
      (instrument : reservation.instrumentId = instrumentId)
      (parts : reservation.remaining = leg.remainingQuantity + quantity) :
      LegTurns leg side instrumentId tradePrice quantity [reservation]
        { reservation with remaining := leg.remainingQuantity : Reservation }.stillOpen
        (reserveShift side reservation.limitPrice quantity (-1) + settleShift side tradePrice quantity)
  | free : LegTurns leg side instrumentId tradePrice quantity [] [] (settleShift side tradePrice quantity)

section Legs
variable {leg : TradeCounterparty} {side : Side} {instrumentId : InstrumentId} {tradePrice : Int} {quantity : Nat}
  {olds news rest : List Reservation} {shift : Shift}

theorem stillOpen_key {reservation other : Reservation} (member : other ∈ reservation.stillOpen) :
    other.key = reservation.key := by
  unfold Reservation.stillOpen at member
  split_ifs at member
  · simp at member
  · rw [List.mem_singleton.mp member]

/-- A reservation keeps its key. -/
theorem LegTurns.keys (turns : LegTurns leg side instrumentId tradePrice quantity olds news shift) :
    ∀ reservation ∈ news, ∃ old ∈ olds, old.key = reservation.key := by
  cases turns with
  | held reservation => exact fun other member => ⟨reservation, List.mem_singleton_self _, (stillOpen_key member).symm⟩
  | free => simp

theorem lookup_none_of_absent {ledger : Ledger} {key : HoldKey}
    (absent : ∀ reservation ∈ ledger.reservations, reservation.key ≠ key) : ledger.holds.lookup key = none := by
  cases found : ledger.holds.lookup key with
  | none => rfl
  | some hold => exact absurd rfl (absent (Reservation.of key hold) ((mem_reservations _ _).mpr found))

theorem settleLeg_turns {ledger : Ledger} (turns : LegTurns leg side instrumentId tradePrice quantity olds news shift)
    (backed : Backed ledger) (was : ledger.reservations.Perm (olds ++ rest))
    (absent : olds = [] → ∀ reservation ∈ rest, reservation.key ≠ legKey leg) :
    let after := ledger.settleLeg .exact leg side instrumentId tradePrice quantity
    Shifts leg.accountId instrumentId shift ledger after ∧ after.reservations.Perm (news ++ rest) ∧ Backed after := by
  cases turns with
  | held reservation key sameSide instrument parts =>
    have member : reservation ∈ ledger.reservations := was.mem_iff.mpr (by simp)
    have found := (mem_reservations ledger reservation).mp member
    rw [key] at found
    have same : Reservation.of (legKey leg) reservation.hold = reservation := by
      rw [← key]
      rfl
    obtain ⟨shifts, others, before, after⟩ := settleLeg_held leg side instrumentId tradePrice quantity found
    rw [show (⟨leg.accountId, leg.clientOrderId⟩ : HoldKey) = legKey leg from rfl, same] at before
    have rests : rest.Perm others := List.Perm.cons_inv (was.symm.trans before)
    have left : Reservation.of (legKey leg) { reservation.hold with remaining := leg.remainingQuantity } =
        { reservation with remaining := leg.remainingQuantity } := by
      rw [← key]
      rfl
    rw [show (⟨leg.accountId, leg.clientOrderId⟩ : HoldKey) = legKey leg from rfl, left] at after
    refine ⟨shifts, after.trans (rests.symm.append_left _), ?_⟩
    have account : leg.accountId = reservation.accountId := (congrArg HoldKey.accountId key).symm
    subst sameSide instrument
    rw [account] at shifts
    exact backed.shrinks parts shifts before after
  | free =>
    have none : ledger.holds.lookup (legKey leg) = none :=
      lookup_none_of_absent fun reservation member => absent rfl reservation (was.mem_iff.mp member)
    obtain ⟨shifts, holds⟩ := settleLeg_free leg side instrumentId tradePrice quantity none
    have same : (ledger.settleLeg .exact leg side instrumentId tradePrice quantity).reservations = ledger.reservations := by
      unfold Ledger.reservations
      rw [holds]
    refine ⟨shifts, same ▸ was, backed.same shifts ?_ ?_ holds⟩ <;> cases side <;> rfl

end Legs

/-- Two accounts' balances shift, perhaps the same account's twice. -/
structure Trades (instrumentId : InstrumentId) (first : AccountId) (one : Shift) (second : AccountId) (two : Shift)
    (before after : Ledger) : Prop where
  cashTotal : ∀ other, after.cashTotal other = before.cashTotal other +
    ((if other = first then one.cash else 0) + if other = second then two.cash else 0)
  cashReserved : ∀ other, after.cashReserved other = before.cashReserved other +
    ((if other = first then one.cashReserved else 0) + if other = second then two.cashReserved else 0)
  positionTotal : ∀ other instrument, after.positionTotal other instrument = before.positionTotal other instrument +
    ((if other = first ∧ instrument = instrumentId then one.units else 0) +
      if other = second ∧ instrument = instrumentId then two.units else 0)
  positionReserved : ∀ other instrument, after.positionReserved other instrument =
    before.positionReserved other instrument +
      ((if other = first ∧ instrument = instrumentId then one.unitsReserved else 0) +
        if other = second ∧ instrument = instrumentId then two.unitsReserved else 0)
  cashInAll : after.cashInAll = before.cashInAll + (one.cash + two.cash)
  unitsInAll : ∀ instrument, after.unitsInAll instrument = before.unitsInAll instrument +
    if instrument = instrumentId then one.units + two.units else 0

section Both
variable {instrumentId : InstrumentId} {first second : AccountId} {one two : Shift} {before middle after : Ledger}

theorem Shifts.both (here : Shifts first instrumentId one before middle) (there : Shifts second instrumentId two middle after) :
    Trades instrumentId first one second two before after := by
  refine ⟨fun other => ?_, fun other => ?_, fun other instrument => ?_, fun other instrument => ?_, ?_,
    fun instrument => ?_⟩
  · rw [there.cashTotal, here.cashTotal, add_assoc]
  · rw [there.cashReserved, here.cashReserved, add_assoc]
  · rw [there.positionTotal, here.positionTotal, add_assoc]
  · rw [there.positionReserved, here.positionReserved, add_assoc]
  · rw [there.cashInAll, here.cashInAll, add_assoc]
  · rw [there.unitsInAll, here.unitsInAll]
    split_ifs <;> ring

theorem Trades.symm (trades : Trades instrumentId first one second two before after) :
    Trades instrumentId second two first one before after := by
  refine ⟨fun other => ?_, fun other => ?_, fun other instrument => ?_, fun other instrument => ?_, ?_,
    fun instrument => ?_⟩
  · rw [trades.cashTotal, add_comm (ite _ _ _)]
  · rw [trades.cashReserved, add_comm (ite _ _ _)]
  · rw [trades.positionTotal, add_comm (ite _ _ _)]
  · rw [trades.positionReserved, add_comm (ite _ _ _)]
  · rw [trades.cashInAll, add_comm one.cash]
  · rw [trades.unitsInAll, add_comm one.units]

end Both

section Trade
variable (event : TradeExecuted) {bought boughtLeft sold soldLeft rest : List Reservation} {buyerShift sellerShift : Shift}

/-- Both legs of a trade, the buyer's first. -/
theorem onTradeExecuted_turns {ledger : Ledger} (backed : Backed ledger)
    (buyer : LegTurns event.buyer .buy event.instrumentId event.price event.quantity bought boughtLeft buyerShift)
    (seller : LegTurns event.seller .sell event.instrumentId event.price event.quantity sold soldLeft sellerShift)
    (was : ledger.reservations.Perm (bought ++ (sold ++ rest)))
    (buyerAbsent : bought = [] → ∀ reservation ∈ sold ++ rest, reservation.key ≠ legKey event.buyer)
    (sellerAbsent : sold = [] → ∀ reservation ∈ bought ++ rest, reservation.key ≠ legKey event.seller) :
    let after := ledger.onTradeExecuted .exact event
    Trades event.instrumentId event.buyer.accountId buyerShift event.seller.accountId sellerShift ledger after ∧
    after.reservations.Perm (boughtLeft ++ (soldLeft ++ rest)) ∧ Backed after := by
  obtain ⟨one, middle, backed'⟩ := settleLeg_turns buyer backed was buyerAbsent
  have swapped : (boughtLeft ++ (sold ++ rest)).Perm (sold ++ (boughtLeft ++ rest)) := by
    rw [← List.append_assoc, ← List.append_assoc]
    exact List.perm_append_comm.append_right _
  obtain ⟨two, after, backed''⟩ := settleLeg_turns seller backed' (middle.trans swapped) fun empty reservation member => by
    rcases List.mem_append.mp member with left | other
    · obtain ⟨old, there, key⟩ := buyer.keys reservation left
      exact key ▸ sellerAbsent empty old (List.mem_append_left _ there)
    · exact sellerAbsent empty reservation (List.mem_append_right _ other)
  refine ⟨one.both two, after.trans ?_, backed''⟩
  rw [← List.append_assoc, ← List.append_assoc]
  exact List.perm_append_comm.append_right _

end Trade

section Orders
variable {ledger : Ledger} {reservation : Reservation} {rest : List Reservation}

/-- A reservation that is open is the hold its key finds. -/
theorem lookup_of_perm (was : ledger.reservations.Perm (reservation :: rest)) :
    ledger.holds.lookup reservation.key = some reservation.hold :=
  (mem_reservations ledger reservation).mp (was.mem_iff.mpr List.mem_cons_self)

theorem openHold_opens (reservation : Reservation) (backed : Backed ledger) (some : reservation.remaining ≠ 0)
    (absent : ∀ other ∈ ledger.reservations, other.key ≠ reservation.key) :
    let after := ledger.openHold .exact reservation.accountId reservation.clientOrderId reservation.instrumentId
      reservation.side reservation.limitPrice reservation.remaining
    Shifts reservation.accountId reservation.instrumentId (reservation.shift 1) ledger after ∧
      after.reservations.Perm (reservation :: ledger.reservations) ∧ Backed after := by
  obtain ⟨shifts, is⟩ := openHold_spec reservation.instrumentId reservation.side reservation.limitPrice some
    (lookup_none_of_absent absent)
  exact ⟨shifts, is, backed.opens reservation shifts is⟩

theorem release_closes (backed : Backed ledger) (was : ledger.reservations.Perm (reservation :: rest)) :
    let after := (ledger.releaseHoldFully .exact reservation.accountId reservation.hold).eraseHold reservation.key
    Shifts reservation.accountId reservation.instrumentId (reservation.shift (-1)) ledger after ∧
      after.reservations.Perm rest ∧ Backed after := by
  obtain ⟨shifts, before, _⟩ := release_spec (lookup_of_perm was)
  have closed : ledger.reservations.Perm (reservation ::
      ((ledger.releaseHoldFully .exact reservation.accountId reservation.hold).eraseHold
        reservation.key).reservations) := before
  exact ⟨shifts, List.Perm.cons_inv (closed.symm.trans was), backed.closes reservation shifts closed⟩

/-- A cancelled order's reservation closes. -/
theorem onOrderCancelled_closes (event : OrderCancelled) (backed : Backed ledger)
    (was : ledger.reservations.Perm (reservation :: rest))
    (key : reservation.key = ⟨event.accountId, event.clientOrderId⟩) :
    let after := ledger.onOrderCancelled .exact event
    Shifts reservation.accountId reservation.instrumentId (reservation.shift (-1)) ledger after ∧
      after.reservations.Perm rest ∧ Backed after := by
  have found := lookup_of_perm was
  have closes := release_closes backed was
  have account : event.accountId = reservation.accountId := (congrArg HoldKey.accountId key).symm
  rw [key] at found closes
  simp only [Ledger.onOrderCancelled, found, account]
  rw [account] at closes
  exact closes

/-- A replaced order's reservation closes, and one for its replacement opens. -/
theorem onOrderReplaced_exchanges (event : OrderReplaced) (backed : Backed ledger)
    (was : ledger.reservations.Perm (reservation :: rest))
    (key : reservation.key = ⟨event.accountId, event.originalClientOrderId⟩)
    (instrument : reservation.instrumentId = event.instrumentId) (positive : event.newQuantity ≠ 0)
    (absent : ∀ other ∈ rest, other.key ≠ ⟨event.accountId, event.newClientOrderId⟩) :
    let replacement : Reservation := {
      accountId := event.accountId
      clientOrderId := event.newClientOrderId
      instrumentId := event.instrumentId
      side := reservation.side
      limitPrice := event.newPrice
      remaining := event.newQuantity }
    let after := ledger.onOrderReplaced .exact event
    Shifts event.accountId event.instrumentId (reservation.shift (-1) + replacement.shift 1) ledger after ∧
      after.reservations.Perm (replacement :: rest) ∧ Backed after := by
  intro replacement
  obtain ⟨accountId, clientOrderId, instrumentId, side, limitPrice, remaining⟩ := reservation
  injection key with account client
  subst account client instrument
  have found : ledger.holds.lookup ⟨event.accountId, event.originalClientOrderId⟩ =
      some ⟨event.instrumentId, side, limitPrice, remaining⟩ := lookup_of_perm was
  obtain ⟨released, closed, backed'⟩ := release_closes backed was
  obtain ⟨opened, is, backed''⟩ := openHold_opens replacement backed' positive fun other member =>
    absent other (closed.mem_iff.mp member)
  simp only [Ledger.onOrderReplaced, found]
  exact ⟨released.trans opened, is.trans (closed.cons replacement), backed''⟩

end Orders

end Mdh.Accounts
