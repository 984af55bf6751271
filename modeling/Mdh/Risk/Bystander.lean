import Mathlib.Data.Int.ModEq
import Mdh.Accounts.Settlement
import Mdh.Risk.Admission
import Mdh.Risk.CommandOutcomes

/-! What others' commands do to an account that sends none. Its balances move only by trades of the
orders it has at rest, at their own prices, and nothing but these trades makes the orders any less. -/

namespace Mdh.Risk
open Mdh.Core Mdh.Lib Mdh.Lib.KeyedStore Mdh.Accounts Mdh.Matching Mdh.Matching.MatchingEngine

/-- What an account has: cash, or units of an instrument. -/
inductive Asset where
  | cash
  | units (instrumentId : InstrumentId)
  deriving DecidableEq, Repr

def owns (balances : AccountBalances) : Asset → Int
  | .cash => balances.cashTotal
  | .units instrumentId => valueAt balances.positionTotal instrumentId

/-- How much of it the ledger says an account has, reserved or not. -/
def held (ledger : Ledger) (account : AccountId) (asset : Asset) : Int := owns (ledger.balances account) asset

/-- What a leg of a trade moves of it. -/
def moved (instrumentId : InstrumentId) (side : Side) (price quantity : Int) : Asset → Int
  | .cash => (settleShift side price quantity).cash
  | .units other => if other = instrumentId then (settleShift side price quantity).units else 0

theorem moved_add (instrumentId : InstrumentId) (side : Side) (price first second : Int) (asset : Asset) :
    moved instrumentId side price (first + second) asset =
      moved instrumentId side price first asset + moved instrumentId side price second asset := by
  have shift : settleShift side price (first + second) = settleShift side price first + settleShift side price second := by
    cases side with
    | buy | sell => ext <;> simp [settleShift] <;> ring
  unfold moved
  rw [shift]
  cases asset with
  | cash => rfl
  | units other => exact ite_add_zero

/-- What an event moves for one account. -/
def movedBy (account : AccountId) (asset : Asset) : ExchangeEvent → Int
  | .tradeExecuted event =>
      (if event.buyer.accountId = account then moved event.instrumentId .buy event.price event.quantity asset else 0) +
        if event.seller.accountId = account then moved event.instrumentId .sell event.price event.quantity asset else 0
  | .orderAccepted _ | .orderRejected _ | .orderCancelled _ | .orderReplaced _ | .bookOrderAdded _ | .bookOrderReduced _
  | .bookOrderRemoved _ => 0

/-- Results are rounded by multiples of the modulus only. Modulus zero is exact arithmetic. -/
structure KeepsResidues (round : Rounding) (modulus : Int) : Prop where
  signed : ∀ value, round.signed value ≡ value [ZMOD modulus]
  unsigned : ∀ value, round.unsigned value ≡ value [ZMOD modulus]

theorem machine_keepsResidues : KeepsResidues .machine (2 ^ 64) :=
  ⟨fun _ => Int.bmod_emod, fun _ => Int.mod_modEq _ _⟩

section Totals
variable (round : Rounding) {modulus : Int} {before middle after : Ledger}

/-- Reserving and releasing leave what every account has in all. -/
def SameTotals (before after : Ledger) : Prop := ∀ account asset, held after account asset = held before account asset

theorem SameTotals.trans (first : SameTotals before middle) (second : SameTotals middle after) : SameTotals before after :=
  fun account asset => (second account asset).trans (first account asset)

theorem SameTotals.of_accounts (same : after.accounts = before.accounts) : SameTotals before after := by
  intro account asset
  unfold held Ledger.balances
  rw [same]

theorem accountRef_held (ledger : Ledger) (accountId account : AccountId) (change : AccountBalances → AccountBalances)
    (asset : Asset) :
    held (ledger.accountRef accountId change) account asset =
      if account = accountId then owns (change (ledger.balances accountId)) asset else held ledger account asset := by
  have balances : (ledger.accountRef accountId change).balances account =
      if account = accountId then change (ledger.balances accountId) else ledger.balances account :=
    valueAt_modifyAt ledger.accounts accountId account change
  unfold held
  rw [balances]
  split_ifs
  · rfl
  · rfl

theorem accountRef_sameTotals (ledger : Ledger) (accountId : AccountId) {change : AccountBalances → AccountBalances}
    (same : ∀ balances asset, owns (change balances) asset = owns balances asset) :
    SameTotals ledger (ledger.accountRef accountId change) := by
  intro account asset
  rw [accountRef_held]
  split_ifs with own
  · rw [same, own]
    rfl
  · rfl

theorem addReserved_sameTotals (ledger : Ledger) (accountId : AccountId) (side : Side) (instrumentId : InstrumentId)
    (limitPrice : Int) (quantity : Nat) (sign : Int) :
    SameTotals ledger (ledger.accountRef accountId
      (Ledger.addReserved round side instrumentId limitPrice quantity sign)) := by
  apply accountRef_sameTotals
  intro balances asset
  cases side <;> cases asset <;> rfl

theorem openHold_sameTotals (ledger : Ledger) (accountId : AccountId) (clientOrderId : ClientOrderId)
    (instrumentId : InstrumentId) (side : Side) (limitPrice : Int) (quantity : Nat) :
    SameTotals ledger (ledger.openHold round accountId clientOrderId instrumentId side limitPrice quantity) := by
  unfold Ledger.openHold
  split_ifs
  · exact .of_accounts rfl
  · exact (addReserved_sameTotals round ledger accountId side instrumentId limitPrice quantity 1).trans (.of_accounts rfl)

theorem release_sameTotals (ledger : Ledger) (accountId : AccountId) (hold : Hold) (key : HoldKey) :
    SameTotals ledger ((ledger.releaseHoldFully round accountId hold).eraseHold key) := by
  unfold Ledger.releaseHoldFully
  split_ifs
  · exact .of_accounts rfl
  · exact (addReserved_sameTotals round ledger accountId hold.side hold.instrumentId hold.limitPrice hold.remaining
      (-1)).trans (.of_accounts rfl)

theorem shrinkHold_sameTotals (ledger : Ledger) (leg : TradeCounterparty) (side : Side) (instrumentId : InstrumentId)
    (quantity : Nat) : SameTotals ledger (ledger.shrinkHold round leg side instrumentId quantity) := by
  unfold Ledger.shrinkHold
  dsimp only
  split
  · exact .of_accounts rfl
  · rename_i hold found
    have released := addReserved_sameTotals round ledger leg.accountId side instrumentId hold.limitPrice
      quantity (-1)
    split_ifs
    · exact released.trans (.of_accounts rfl)
    · exact released.trans (.of_accounts rfl)

variable {round} in
/-- One leg of a trade moves cash and units of its own account. -/
theorem settleLeg_held (keeps : KeepsResidues round modulus) (ledger : Ledger) (leg : TradeCounterparty) (side : Side)
    (instrumentId : InstrumentId) (price : Int) (quantity : Nat) (account : AccountId) (asset : Asset) :
    held (ledger.settleLeg round leg side instrumentId price quantity) account asset ≡
      held ledger account asset + (if leg.accountId = account then moved instrumentId side price quantity asset else 0)
      [ZMOD modulus] := by
  have known : SameTotals ledger (ledger.accountRef leg.accountId id) :=
    accountRef_sameTotals ledger leg.accountId fun _ _ => rfl
  have same := known.trans (shrinkHold_sameTotals round _ leg side instrumentId quantity)
  unfold Ledger.settleLeg
  dsimp only
  generalize (ledger.accountRef leg.accountId id).shrinkHold round leg side instrumentId quantity = middle at same ⊢
  rw [← same account asset, accountRef_held]
  by_cases own : leg.accountId = account
  · rw [if_pos own.symm, if_pos own, ← own]
    cases asset with
    | cash =>
      have notional : Ledger.notional round quantity price ≡ quantity * price [ZMOD modulus] :=
        (keeps.signed _).trans ((keeps.signed _).mul_right price)
      have rounded (sign : Int) :
          round.signed ((middle.balances leg.accountId).cashTotal + -(sign * Ledger.notional round quantity price)) ≡
            (middle.balances leg.accountId).cashTotal + -(sign * (quantity * price)) [ZMOD modulus] :=
        (keeps.signed _).trans ((notional.mul_left sign).neg.add_left _)
      cases side with
      | buy =>
        have paid := rounded 1
        rw [one_mul (quantity * price : Int)] at paid
        exact paid
      | sell =>
        have got := rounded (-1)
        rw [neg_one_mul (quantity * price : Int), neg_neg] at got
        exact got
    | units other =>
      show valueAt (modifyAt (middle.balances leg.accountId).positionTotal instrumentId _) other ≡
        valueAt (middle.balances leg.accountId).positionTotal other + _ [ZMOD modulus]
      rw [valueAt_modifyAt]
      unfold moved
      dsimp only
      split_ifs with same
      · rw [same]
        refine (keeps.unsigned _).trans ?_
        cases side <;> simp [settleShift]
      · rw [add_zero]
  · rw [if_neg (Ne.symm own), if_neg own, add_zero]

variable {round} in
/-- Every event moves what its trade moves, if it is one. -/
theorem apply_held (keeps : KeepsResidues round modulus) (ledger : Ledger) (event : ExchangeEvent) (account : AccountId)
    (asset : Asset) :
    held (ledger.apply round event) account asset ≡ held ledger account asset + movedBy account asset event [ZMOD modulus] := by
  have still {after : Ledger} (same : SameTotals ledger after) :
      held after account asset ≡ held ledger account asset + 0 [ZMOD modulus] := by
    rw [same, add_zero]
  cases event with
  | tradeExecuted event =>
    have bought := settleLeg_held keeps ledger event.buyer .buy event.instrumentId event.price event.quantity account asset
    have sold := settleLeg_held keeps (ledger.settleLeg round event.buyer .buy event.instrumentId event.price event.quantity)
      event.seller .sell event.instrumentId event.price event.quantity account asset
    unfold movedBy
    rw [← add_assoc]
    exact sold.trans (bought.add_right _)
  | orderAccepted event =>
    apply still
    show SameTotals ledger (ledger.onOrderAccepted round event)
    unfold Ledger.onOrderAccepted
    split_ifs
    · exact .of_accounts rfl
    · exact openHold_sameTotals round ledger _ _ _ _ _ _
  | orderReplaced event =>
    apply still
    show SameTotals ledger (ledger.onOrderReplaced round event)
    unfold Ledger.onOrderReplaced
    dsimp only
    split
    · exact .of_accounts rfl
    · exact (release_sameTotals round ledger _ _ _).trans (openHold_sameTotals round _ _ _ _ _ _ _)
  | orderCancelled event =>
    apply still
    show SameTotals ledger (ledger.onOrderCancelled round event)
    unfold Ledger.onOrderCancelled
    dsimp only
    split
    · exact .of_accounts rfl
    · exact release_sameTotals round ledger _ _ _
  | orderRejected | bookOrderAdded | bookOrderReduced | bookOrderRemoved => exact still (.of_accounts rfl)

variable {round} in
theorem applyAll_held (keeps : KeepsResidues round modulus) (ledger : Ledger) (events : List ExchangeEvent)
    (account : AccountId) (asset : Asset) :
    held (events.foldl (Ledger.apply round) ledger) account asset ≡
      held ledger account asset + (events.map (movedBy account asset)).sum [ZMOD modulus] := by
  induction events generalizing ledger with
  | nil =>
    rw [List.map_nil, List.sum_nil, add_zero]
    rfl
  | cons event rest ih =>
    rw [List.map_cons, List.sum_cons, ← add_assoc]
    exact (ih (ledger.apply round event)).trans ((apply_held keeps ledger event account asset).add_right _)

end Totals

/-- What a resting order still has to move for the account, if it is the account's. -/
def toMove (account : AccountId) (asset : Asset) (entry : Resting) : Int :=
  if entry.order.accountId = account then
    moved entry.instrumentId entry.order.side entry.order.price entry.order.remainingQuantity asset
  else 0

/-- An order as it was, with no more of it left than there was. -/
def LeftOf (old entry : Resting) : Prop :=
  entry = { old with order := { old.order with remainingQuantity := entry.order.remainingQuantity } } ∧
    entry.order.remainingQuantity ≤ old.order.remainingQuantity

theorem LeftOf.refl (entry : Resting) : LeftOf entry entry := ⟨rfl, le_rfl⟩

theorem LeftOf.trans {first second third : Resting} (one : LeftOf first second) (two : LeftOf second third) :
    LeftOf first third := by
  refine ⟨?_, two.2.trans one.2⟩
  calc third
    _ = { second with order := { second.order with remainingQuantity := third.order.remainingQuantity } } := two.1
    _ = { first with order := { first.order with remainingQuantity := third.order.remainingQuantity } } := by rw [one.1]

/-- The leg is that of an order of the list, on its side and at its price. -/
def LegOf (entries : List Resting) (trade : TradeExecuted) (party : TradeCounterparty) (side : Side) : Prop :=
  ∃ entry ∈ entries, entry.order.accountId = party.accountId ∧ entry.order.exchangeOrderId = party.exchangeOrderId ∧
    entry.instrumentId = trade.instrumentId ∧ entry.order.side = side ∧ entry.order.price = trade.price

/-- What rests for the account becomes less by its trades, each at the order's own price, and by nothing else. -/
structure Bystands (account : AccountId) (before : List Resting) (events : List ExchangeEvent) (after : List Resting) :
    Prop where
  balance : ∀ asset, (events.map (movedBy account asset)).sum + (after.map (toMove account asset)).sum =
    (before.map (toMove account asset)).sum
  orders : ∀ entry ∈ after, entry.order.accountId = account → ∃ old ∈ before, LeftOf old entry
  buys : ∀ trade, .tradeExecuted trade ∈ events → trade.buyer.accountId = account → LegOf before trade trade.buyer .buy
  sells : ∀ trade, .tradeExecuted trade ∈ events → trade.seller.accountId = account →
    LegOf before trade trade.seller .sell

section Bystands
variable {account : AccountId} {before middle after : List Resting} {front back : List ExchangeEvent}

theorem LegOf.earlier {trade : TradeExecuted} {party : TradeCounterparty} {side : Side} (own : party.accountId = account)
    (leg : LegOf middle trade party side)
    (orders : ∀ entry ∈ middle, entry.order.accountId = account → ∃ old ∈ before, LeftOf old entry) :
    LegOf before trade party side := by
  obtain ⟨entry, member, holder, rest⟩ := leg
  obtain ⟨old, there, left, _⟩ := orders entry member (holder.trans own)
  rw [left] at holder rest
  exact ⟨old, there, holder, rest⟩

theorem Bystands.refl (account : AccountId) (entries : List Resting) : Bystands account entries [] entries :=
  ⟨fun _ => zero_add _, fun entry member _ => ⟨entry, member, LeftOf.refl entry⟩, fun _ member => absurd member List.not_mem_nil,
    fun _ member => absurd member List.not_mem_nil⟩

theorem Bystands.trans (first : Bystands account before front middle) (second : Bystands account middle back after) :
    Bystands account before (front ++ back) after := by
  refine ⟨fun asset => ?_, fun entry member own => ?_, fun trade member own => ?_, fun trade member own => ?_⟩
  · rw [List.map_append, List.sum_append, add_assoc, second.balance, first.balance]
  · obtain ⟨between, there, left⟩ := second.orders entry member own
    have same : between.order.accountId = account := by
      rw [left.1] at own
      exact own
    obtain ⟨old, origin, earlier⟩ := first.orders between there same
    exact ⟨old, origin, earlier.trans left⟩
  · rcases List.mem_append.mp member with here | later
    · exact first.buys trade here own
    · exact (second.buys trade later own).earlier own first.orders
  · rcases List.mem_append.mp member with here | later
    · exact first.sells trade here own
    · exact (second.sells trade later own).earlier own first.orders

/-- What is no trade and leaves what rests of the account as it is. -/
theorem Bystands.of_others (gone come : List Resting) {entries : List Resting}
    (was : before.Perm (gone ++ entries)) (is : after.Perm (come ++ entries))
    (others : ∀ entry ∈ gone ++ come, entry.order.accountId ≠ account)
    (quiet : ∀ event ∈ front, ∀ trade, event ≠ .tradeExecuted trade) : Bystands account before front after := by
  have none (list : List Resting) (foreign : ∀ entry ∈ list, entry.order.accountId ≠ account) (asset : Asset) :
      (list.map (toMove account asset)).sum = 0 := by
    apply List.sum_eq_zero
    intro value member
    obtain ⟨entry, there, rfl⟩ := List.mem_map.mp member
    exact if_neg (foreign entry there)
  have silent (asset : Asset) : (front.map (movedBy account asset)).sum = 0 := by
    apply List.sum_eq_zero
    intro value member
    obtain ⟨event, there, rfl⟩ := List.mem_map.mp member
    cases event with
    | tradeExecuted trade => exact absurd rfl (quiet _ there trade)
    | orderAccepted | orderRejected | orderCancelled | orderReplaced | bookOrderAdded | bookOrderReduced
    | bookOrderRemoved => rfl
  refine ⟨fun asset => ?_, fun entry member own => ?_, fun trade member _ => absurd rfl (quiet _ member trade),
    fun trade member _ => absurd rfl (quiet _ member trade)⟩
  · rw [silent, zero_add, (was.map _).sum_eq, (is.map _).sum_eq, List.map_append, List.map_append, List.sum_append,
      List.sum_append, none gone fun entry member => others entry (List.mem_append_left _ member),
      none come fun entry member => others entry (List.mem_append_right _ member)]
  · rcases List.mem_append.mp (is.mem_iff.mp member) with new | old
    · exact absurd own (others entry (List.mem_append_right _ new))
    · exact ⟨entry, was.mem_iff.mpr (List.mem_append_right _ old), LeftOf.refl entry⟩

theorem Bystands.quiet (entries : List Resting) (quiet : ∀ event ∈ front, ∀ trade, event ≠ .tradeExecuted trade) :
    Bystands account entries front entries :=
  Bystands.of_others [] [] (.refl _) (.refl _) (fun _ member => absurd member List.not_mem_nil) quiet

end Bystands

section Arrival
variable (commandSequence : Nat) {account : AccountId} {incoming : ExchangeRestingOrder} {step : Step}

theorem movedBy_tradeEvent (foreign : incoming.accountId ≠ account) (contra : BookOrder) (quantity left eventSequence : Nat)
    (asset : Asset) :
    movedBy account asset (tradeEvent commandSequence incoming contra quantity left eventSequence) =
      if contra.accountId = account then moved incoming.instrumentId incoming.side.contra contra.price quantity asset
      else 0 := by
  unfold movedBy tradeEvent
  cases side : incoming.side with
  | buy => simp [aggressorParty, restingParty, foreign, Side.contra]
  | sell => simp [aggressorParty, restingParty, foreign, Side.contra]

/-- The account's leg of a trade of someone else's order is that of the resting order. -/
theorem tradeEvent_leg (foreign : incoming.accountId ≠ account) {contra : BookOrder} {quantity left eventSequence : Nat}
    {trade : TradeExecuted}
    (same : .tradeExecuted trade = tradeEvent commandSequence incoming contra quantity left eventSequence) :
    trade.instrumentId = incoming.instrumentId ∧ trade.price = contra.price ∧
      (trade.buyer.accountId = account → trade.buyer = restingParty contra left ∧ Side.buy = incoming.side.contra) ∧
      (trade.seller.accountId = account → trade.seller = restingParty contra left ∧ Side.sell = incoming.side.contra) := by
  obtain rfl := ExchangeEvent.tradeExecuted.inj same
  refine ⟨rfl, rfl, ?_⟩
  dsimp only
  cases incoming.side with
  | buy => exact ⟨fun own => absurd own foreign, fun _ => ⟨rfl, rfl⟩⟩
  | sell => exact ⟨fun _ => ⟨rfl, rfl⟩, fun own => absurd own foreign⟩

theorem toMove_parts (account : AccountId) (asset : Asset) (entry : Resting) {quantity left : Nat}
    (parts : entry.order.remainingQuantity = quantity + left) :
    toMove account asset entry =
      (if entry.order.accountId = account then
        moved entry.instrumentId entry.order.side entry.order.price quantity asset else 0) +
      toMove account asset { entry with order := { entry.order with remainingQuantity := left } } := by
  unfold toMove
  split_ifs
  · rw [parts, Nat.cast_add, moved_add]
  · rfl

/-- What is taken off an order of a list is what the list has less to move. -/
theorem taken_balance (account : AccountId) (asset : Asset) {entry : Resting} {before others after : List Resting}
    {quantity : Nat} (was : before.Perm (entry :: others))
    (taken : quantity = entry.order.remainingQuantity ∧ after = others ∨
      ∃ left, entry.order.remainingQuantity = quantity + left ∧
        after.Perm ({ entry with order := { entry.order with remainingQuantity := left } } :: others)) :
    (if entry.order.accountId = account then
        moved entry.instrumentId entry.order.side entry.order.price quantity asset else 0) +
      (after.map (toMove account asset)).sum = (before.map (toMove account asset)).sum := by
  rw [(was.map _).sum_eq, List.map_cons, List.sum_cons]
  rcases taken with ⟨whole, rfl⟩ | ⟨left, parts, is⟩
  · rw [whole]
    rfl
  · rw [(is.map _).sum_eq, List.map_cons, List.sum_cons, toMove_parts account asset entry parts, add_assoc]

/-- A fill takes the front order's traded part, and the order if that is all of it. -/
theorem fillFront_takes (sound : step.engine.Sound) (known : step.engine.knowsInstrument incoming.instrumentId = true)
    {first : Placed} {rest : List Placed}
    (contents : (step.engine.bookFor incoming.instrumentId).queues incoming.side.contra = first :: rest) :
    let quantity := min incoming.remainingQuantity first.order.remainingQuantity
    let entry := Resting.of incoming.instrumentId first
    let after := (fillFront commandSequence incoming first.order step).2.engine.resting
    ∃ others, step.engine.resting.Perm (entry :: others) ∧
      (quantity = first.order.remainingQuantity ∧ after = others ∨
        ∃ left, first.order.remainingQuantity = quantity + left ∧
          after.Perm ({ entry with order := { entry.order with remainingQuantity := left } } :: others)) := by
  rcases le_or_gt first.order.remainingQuantity incoming.remainingQuantity with full | more
  · exact ⟨_, (fillFront_removes commandSequence sound.intact known contents full).resting, Or.inl ⟨min_eq_right full, rfl⟩⟩
  · obtain ⟨change, _⟩ := fillFront_amends commandSequence sound.intact known contents more
    obtain ⟨others, was, is⟩ := change.resting
    refine ⟨others, was, Or.inr ⟨first.order.remainingQuantity - incoming.remainingQuantity, ?_, is⟩⟩
    rw [min_eq_left more.le]
    exact (Nat.add_sub_cancel' more.le).symm

/-- A fill of someone else's order takes what it trades from the order that rests, and moves as much. -/
theorem fillFront_bystands (sound : step.engine.Sound) (known : step.engine.knowsInstrument incoming.instrumentId = true)
    {first : Placed} {rest : List Placed}
    (contents : (step.engine.bookFor incoming.instrumentId).queues incoming.side.contra = first :: rest)
    (foreign : incoming.accountId ≠ account) :
    let out := fillFront commandSequence incoming first.order step
    ∃ later, out.2.events = step.events ++ later ∧
      Bystands account step.engine.resting later out.2.engine.resting := by
  intro out
  obtain ⟨others, was, taken⟩ := fillFront_takes commandSequence sound known contents
  obtain ⟨free, holds⟩ := sound.intact.books _ known
  have side : first.order.side = incoming.side.contra :=
    holds.ownSide _ first (by rw [contents]; exact List.mem_cons_self)
  have quiet (asset : Asset) (left eventSequence : Nat) :
      movedBy account asset (bookEvent incoming.instrumentId first.order left eventSequence) = 0 := by
    unfold bookEvent
    split_ifs <;> rfl
  have notTrade (left eventSequence : Nat) (trade : TradeExecuted) :
      ExchangeEvent.tradeExecuted trade ≠ bookEvent incoming.instrumentId first.order left eventSequence := by
    unfold bookEvent
    split_ifs <;> exact nofun
  have unowned : (incomingAfter incoming (min incoming.remainingQuantity first.order.remainingQuantity)).accountId ≠
    account := foreign
  have leg {trade : TradeExecuted} {party : TradeCounterparty} {on : Side} {left : Nat}
      (instrument : trade.instrumentId = incoming.instrumentId) (price : trade.price = first.order.price)
      (resting : party = restingParty first.order left) (across : on = incoming.side.contra) :
      LegOf step.engine.resting trade party on := by
    subst resting
    exact ⟨Resting.of incoming.instrumentId first, was.mem_iff.mpr List.mem_cons_self, rfl, rfl, instrument.symm,
      side.trans across.symm, price.symm⟩
  refine ⟨_, (fillFront_events commandSequence incoming step first.order).1, fun asset => ?_, fun entry member own => ?_,
    fun trade member own => ?_, fun trade member own => ?_⟩
  · rw [List.map_cons, List.map_cons, List.map_nil, List.sum_cons, List.sum_cons, List.sum_nil, quiet,
      movedBy_tradeEvent commandSequence unowned, add_zero, add_zero, show (incomingAfter incoming _).side.contra = first.order.side from side.symm]
    exact taken_balance account asset was taken
  · rcases taken with ⟨_, rests⟩ | ⟨left, parts, is⟩
    · exact ⟨entry, was.mem_iff.mpr (List.mem_cons_of_mem _ (rests ▸ member)), LeftOf.refl entry⟩
    · rcases List.mem_cons.mp (is.mem_iff.mp member) with rfl | other
      · exact ⟨_, was.mem_iff.mpr List.mem_cons_self, rfl, (Nat.le_add_left _ _).trans parts.ge⟩
      · exact ⟨entry, was.mem_iff.mpr (List.mem_cons_of_mem _ other), LeftOf.refl entry⟩
  · rcases List.mem_cons.mp member with same | member
    · obtain ⟨instrument, price, bought, _⟩ := tradeEvent_leg commandSequence unowned same
      obtain ⟨resting, across⟩ := bought own
      exact leg instrument price resting across
    · exact absurd (List.mem_singleton.mp member) (notTrade _ _ trade)
  · rcases List.mem_cons.mp member with same | member
    · obtain ⟨instrument, price, _, sold⟩ := tradeEvent_leg commandSequence unowned same
      obtain ⟨resting, across⟩ := sold own
      exact leg instrument price resting across
    · exact absurd (List.mem_singleton.mp member) (notTrade _ _ trade)

/-- What is left of someone else's order comes to rest beside the account's. -/
theorem restRemainder_bystands (sound : step.engine.Sound)
    (known : step.engine.knowsInstrument incoming.instrumentId = true) (foreign : incoming.accountId ≠ account) :
    ∃ later, (restRemainderIfApplicable incoming step).events = step.events ++ later ∧
      Bystands account step.engine.resting later (restRemainderIfApplicable incoming step).engine.resting := by
  by_cases stays : incoming.timeInForce ≠ .gtc ∨ incoming.remainingQuantity = 0
  · rw [restRemainder_stays stays]
    exact ⟨[], (List.append_nil _).symm, Bystands.refl account _⟩
  · rw [not_or, not_not] at stays
    obtain ⟨change, events⟩ := restRemainder_adds sound.intact known stays.1 stays.2
    refine ⟨_, events, Bystands.of_others [] [_] (.refl _) change.resting ?_ ?_⟩
    · intro entry member
      rw [List.nil_append] at member
      rw [List.mem_singleton.mp member]
      exact foreign
    · intro event member trade
      rw [List.mem_singleton.mp member]
      exact nofun

variable (incoming) in
/-- Someone else's order matches, and rests with what is left. -/
theorem matchThenRest_bystands (sound : step.engine.Sound)
    (known : step.engine.knowsInstrument incoming.instrumentId = true) (foreign : incoming.accountId ≠ account) :
    ∃ later, (matchThenRest commandSequence incoming step).events = step.events ++ later ∧
      Bystands account step.engine.resting later (matchThenRest commandSequence incoming step).engine.resting := by
  obtain ⟨⟨still, earlier, events, bystands⟩, sound'⟩ := matchAndRest_rule commandSequence
    (fun order middle => order.accountId ≠ account ∧ ∃ later, middle.events = step.events ++ later ∧
      Bystands account step.engine.resting later middle.engine.resting)
    (fun order middle first rest ⟨foreign, earlier, before, bystands⟩ sound known contents _ _ => by
      obtain ⟨later, events, next⟩ := fillFront_bystands commandSequence sound known contents foreign
      refine ⟨?_, earlier ++ later, ?_, bystands.trans next⟩
      · rw [fillFront_incoming]
        exact foreign
      · rw [events, before, List.append_assoc])
    ⟨foreign, [], (List.append_nil _).symm, Bystands.refl account _⟩ sound known
  have done := matchAndRest_matches commandSequence sound known
  have known' : (matchAndRest commandSequence incoming step).2.engine.knowsInstrument
      (matchAndRest commandSequence incoming step).1.instrumentId = true := by
    rw [done.final, done.only.knows]
    exact known
  obtain ⟨later, rests, next⟩ := restRemainder_bystands sound' known' still
  refine ⟨earlier ++ later, ?_, bystands.trans next⟩
  rw [matchThenRest, rests, events, List.append_assoc]

end Arrival

section Commands
variable {engine : MatchingEngine} {account : AccountId}

theorem takes_bystands (sound : engine.Sound) {command : ExchangeCommand} {after : Step}
    (taken : Takes engine command after) (foreign : (subject command).accountId ≠ account) :
    Bystands account engine.resting after.events after.engine.resting := by
  cases taken with
  | @accepts command valid =>
    obtain ⟨known, _⟩ := newOrderError_eq_none valid
    have start : ({ engine } : Step).numbered.engine.Sound := Sound.numbered sound
    obtain ⟨later, events, bystands⟩ := matchThenRest_bystands command.commandSequence (newOrderOf command engine)
      (start.sink (acceptedEvent command engine.nextExchangeOrderId)) known foreign
    rw [acceptNewOrder_eq, events]
    exact Bystands.trans (Bystands.quiet _ (List.forall_mem_singleton.mpr nofun)) bystands
  | @cancels command ref placed cancels =>
    obtain ⟨change, events⟩ :=
      processCancel_removes { engine } sound.intact cancels.found cancels.same cancels.located
    have key := cancels.located.key
    rw [cancels.same] at key
    have unowned : placed.order.accountId ≠ account := (congrArg LiveKey.accountId key).trans_ne foreign
    rw [events]
    exact Bystands.of_others [_] [] change.resting (.refl _) (List.forall_mem_singleton.mpr unowned)
      (List.forall_mem_cons.mpr ⟨nofun, List.forall_mem_singleton.mpr nofun⟩)
  | @replacesInPlace command ref placed replaces preserves =>
    obtain ⟨change, _, events⟩ := replaceInPlace_amends { engine } sound.intact replaces.same replaces.located
    obtain ⟨others, was, is⟩ := change.resting
    have key := replaces.located.key
    rw [replaces.same] at key
    have unowned : placed.order.accountId ≠ account := (congrArg LiveKey.accountId key).trans_ne foreign
    rw [events]
    exact Bystands.of_others [_] [_] was is
      (List.forall_mem_cons.mpr ⟨unowned, List.forall_mem_singleton.mpr unowned⟩)
      (List.forall_mem_cons.mpr ⟨nofun, List.forall_mem_singleton.mpr nofun⟩)
  | @replacesByNew command ref placed replaces =>
    have change := withdrawn_removes { engine } sound.intact replaces.same replaces.located
    obtain ⟨middle, known, _⟩ := replacing_sound { engine } sound replaces
    obtain ⟨later, events, bystands⟩ := matchThenRest_bystands command.commandSequence
      (replacementOf command placed.order engine) middle known foreign
    have key := replaces.located.key
    rw [replaces.same] at key
    have unowned : placed.order.accountId ≠ account := (congrArg LiveKey.accountId key).trans_ne foreign
    rw [replaceByNew_eq, events]
    exact Bystands.trans (Bystands.of_others [_] [] change.resting (.refl _) (List.forall_mem_singleton.mpr unowned)
      (List.forall_mem_cons.mpr ⟨nofun, List.forall_mem_singleton.mpr nofun⟩)) bystands

end Commands

section Runs
variable {round : Rounding} {modulus : Int} {gated : RiskGatedEngine} {account : AccountId}

/-- Someone else's command, turned away or carried out. -/
theorem process_bystands (round : Rounding) (sound : gated.engine.Sound) {command : ExchangeCommand}
    (foreign : (subject command).accountId ≠ account) :
    Bystands account gated.engine.resting (gated.process round command).events
      (gated.process round command).gated.engine.resting := by
  rcases RiskGatedEngine.process_admits round sound command with ⟨_, turned⟩ | ⟨_, forwarded, taken⟩
  · obtain ⟨rejection, events, _⟩ := turned.events
    rw [events, turned.resting]
    exact Bystands.quiet _ (List.forall_mem_singleton.mpr nofun)
  · rw [forwarded]
    exact takes_bystands sound taken foreign

/-- Any number of them. -/
theorem run_bystands (round : Rounding) (sound : gated.engine.Sound) (commands : List ExchangeCommand)
    (foreign : ∀ command ∈ commands, (subject command).accountId ≠ account) :
    Bystands account gated.engine.resting (gated.runEvents round commands) (gated.run round commands).engine.resting := by
  induction commands generalizing gated with
  | nil => exact Bystands.refl account _
  | cons command rest ih =>
    have first := process_bystands round sound (foreign command List.mem_cons_self)
    exact first.trans (ih (RiskGatedEngine.process_sound round sound command)
      fun other member => foreign other (List.mem_cons_of_mem _ member))

/-- The ledger of a run is told by its events. -/
theorem run_ledger (round : Rounding) (gated : RiskGatedEngine) (commands : List ExchangeCommand) :
    (gated.run round commands).ledger = (gated.runEvents round commands).foldl (Ledger.apply round) gated.ledger := by
  induction commands generalizing gated with
  | nil => rfl
  | cons command rest ih =>
    calc (gated.run round (command :: rest)).ledger
      _ = ((gated.process round command).gated.runEvents round rest).foldl (Ledger.apply round)
          (gated.process round command).gated.ledger := ih _
      _ = (gated.runEvents round (command :: rest)).foldl (Ledger.apply round) gated.ledger := by
          rw [RiskGatedEngine.process_ledger, RiskGatedEngine.runEvents, List.foldl_append]

/-- What an account has once all it has at rest has traded. -/
def onceFilled (account : AccountId) (asset : Asset) (gated : RiskGatedEngine) : Int :=
  held gated.ledger account asset + (gated.engine.resting.map (toMove account asset)).sum

end Runs

/-- An account that sends nothing is moved only by its own orders at their own prices: whatever the
others send, it has the same once all it has at rest has traded, what rests of it is what rested
before or less of it, and each trade it takes part in is one of these orders'. -/
theorem bystander_moved_by_own_orders {round : Rounding} {modulus : Int} (keeps : KeepsResidues round modulus)
    (limits : RiskLimits) (instruments : List InstrumentId) (deposits : List Deposit) (account : AccountId)
    (earlier later : List ExchangeCommand) (foreign : ∀ command ∈ later, (subject command).accountId ≠ account) :
    let before := (RiskGatedEngine.start round limits instruments deposits).run round earlier
    let after := before.run round later
    (∀ asset, onceFilled account asset after ≡ onceFilled account asset before [ZMOD modulus]) ∧
      (∀ entry ∈ after.engine.resting, entry.order.accountId = account →
        ∃ old ∈ before.engine.resting, LeftOf old entry) ∧
      ∀ trade, .tradeExecuted trade ∈ before.runEvents round later →
        (trade.buyer.accountId = account → LegOf before.engine.resting trade trade.buyer .buy) ∧
        (trade.seller.accountId = account → LegOf before.engine.resting trade trade.seller .sell) := by
  intro before after
  have sound : before.engine.Sound := RiskGatedEngine.run_sound round (MatchingEngine.make_sound instruments) earlier
  have bystands := run_bystands round sound later foreign
  refine ⟨fun asset => ?_, bystands.orders, fun trade member =>
    ⟨bystands.buys trade member, bystands.sells trade member⟩⟩
  unfold onceFilled
  rw [← bystands.balance asset, ← add_assoc]
  apply Int.ModEq.add_right
  show held (before.run round later).ledger account asset ≡ _ [ZMOD modulus]
  rw [run_ledger]
  exact applyAll_held keeps before.ledger _ account asset

/-- Someone who takes from the bid of account 7, and then rests an offer. -/
def sellers : List ExchangeCommand := [
  .newOrder { limitOrder 2 .sell 99 2 .ioc with accountId := 8 },
  .newOrder { limitOrder 3 .sell 102 4 .gtc with accountId := 8 }]

theorem bystander_moved_by_own_orders_sold :
    let before := (RiskGatedEngine.start .machine {} [3] [.cash 7 1000, .position 8 3 10]).run .machine
      [.newOrder (limitOrder 1 .buy 100 5 .gtc)]
    let after := before.run .machine sellers
    (∀ asset, onceFilled 7 asset after ≡ onceFilled 7 asset before [ZMOD 2 ^ 64]) ∧
      held before.ledger 7 .cash = 1000 ∧ held after.ledger 7 .cash = 800 ∧ held after.ledger 7 (.units 3) = 2 := by
  refine ⟨(bystander_moved_by_own_orders machine_keepsResidues {} [3] [.cash 7 1000, .position 8 3 10] 7
    [.newOrder (limitOrder 1 .buy 100 5 .gtc)] sellers ?_).1, ?_, ?_, ?_⟩
  · decide
  · decide +kernel
  · decide +kernel
  · decide +kernel

end Mdh.Risk
