import Mathlib.Algebra.Order.Group.Unbundled.Abs
import Mathlib.Tactic.Ring
import Mdh.Trader.PnlTracker

/-! What the tracker's three numbers add up to. Whatever slice of the open notional a close takes
is what it adds to the realized profit, so that no rounding is lost between the two. -/

namespace Mdh.Trader
open Mdh.Core Mdh.Core.Arithmetic Mdh.Lib Mdh.Lib.KeyedStore

namespace InstrumentPnl
variable {pnl : InstrumentPnl} {delta price : Int}

section Closing

/-- The fill is against the position. -/
def Opposes (pnl : InstrumentPnl) (delta : Int) : Prop :=
  0 < pnl.position ∧ delta ≤ 0 ∨ pnl.position < 0 ∧ 0 < delta

instance : Decidable (pnl.Opposes delta) := inferInstanceAs (Decidable (_ ∨ _))

/-- The test the tracker makes. -/
theorem opens_iff : (pnl.position = 0 ∨ (0 < pnl.position ↔ 0 < delta)) ↔ ¬ pnl.Opposes delta := by
  unfold Opposes
  omega

/-- What a close takes from the open notional: a share of it, rounded towards zero. -/
def slice (pnl : InstrumentPnl) (closed : Int) : Int := (pnl.openNotional * closed).tdiv |pnl.position|

theorem slice_all (held : pnl.position ≠ 0) : pnl.slice |pnl.position| = pnl.openNotional :=
  Int.mul_tdiv_cancel _ (abs_ne_zero.mpr held)

theorem magnitude_exact (value : Int) : magnitude .exact value = |value| := by
  unfold magnitude
  split_ifs with negative
  · exact (abs_of_neg negative).symm
  · exact (abs_of_nonneg (not_lt.mp negative)).symm

theorem signOf_mul_abs (opposes : pnl.Opposes delta) : signOf pnl.position * |delta| = -delta := by
  unfold signOf
  rcases opposes with ⟨long, sold⟩ | ⟨short, bought⟩
  · rw [if_neg (by omega), abs_of_nonpos sold, one_mul]
  · rw [if_pos short, abs_of_pos bought, neg_one_mul]

theorem signOf_mul_abs_self (held : pnl.position ≠ 0) : signOf pnl.position * |pnl.position| = pnl.position := by
  unfold signOf
  split_ifs with short
  · rw [abs_of_neg short, neg_mul_neg, one_mul]
  · rw [abs_of_pos (by omega), one_mul]

theorem sold_past_flat (long : 0 < pnl.position) (sold : delta ≤ 0) :
    -(|delta| - |pnl.position|) = pnl.position + delta := by
  rw [abs_of_nonpos sold, abs_of_pos long]
  ring

theorem bought_past_flat (short : pnl.position < 0) (bought : 0 < delta) :
    |delta| - |pnl.position| = pnl.position + delta := by
  rw [abs_of_pos bought, abs_of_neg short]
  ring

theorem openAt_exact : pnl.openAt .exact delta price =
    ({ pnl with position := pnl.position + delta, openNotional := pnl.openNotional + delta * price } : InstrumentPnl) := rfl

/-- A fill no larger than the position closes all of itself. -/
theorem closeAt_exact_of_le (opposes : pnl.Opposes delta) (within : |delta| ≤ |pnl.position|) :
    pnl.closeAt .exact delta price =
      ({ pnl with
        position := pnl.position + delta
        openNotional := if pnl.position + delta = 0 then 0 else pnl.openNotional - pnl.slice |delta|
        realized := pnl.realized + (-delta * price - pnl.slice |delta|) } : InstrumentPnl) := by
  have moved : pnl.position - -delta = pnl.position + delta := sub_neg_eq_add _ _
  unfold closeAt flipAt
  simp only [magnitude_exact, exact_signed, exact_quotient, id_bind, id_pure, min_eq_right within, sub_self, lt_irrefl,
    if_false, signOf_mul_abs opposes, moved]
  split_ifs <;> rfl

/-- A larger one closes the whole position, against the whole of what is open, and opens the rest. -/
theorem closeAt_exact_of_lt (opposes : pnl.Opposes delta) (past : |pnl.position| < |delta|) :
    pnl.closeAt .exact delta price =
      ({ pnl with
        position := pnl.position + delta
        openNotional := (pnl.position + delta) * price
        realized := pnl.realized + (pnl.position * price - pnl.openNotional) } : InstrumentPnl) := by
  have held : pnl.position ≠ 0 := by
    unfold Opposes at opposes
    omega
  have whole : (pnl.openNotional * |pnl.position|).tdiv |pnl.position| = pnl.openNotional := slice_all held
  have apart : pnl.position + delta ≠ 0 := by
    intro flat
    rw [eq_neg_of_add_eq_zero_left flat, abs_neg] at past
    exact lt_irrefl _ past
  unfold closeAt flipAt openAt
  simp only [magnitude_exact, exact_signed, exact_quotient, id_bind, id_pure, min_eq_left past.le, sub_pos.mpr past,
    if_true, signOf_mul_abs_self held, whole, sub_self, zero_add]
  rcases opposes with ⟨long, sold⟩ | ⟨short, bought⟩
  · rw [if_neg (not_lt.mpr sold), sold_past_flat long sold, if_neg apart]
  · rw [if_pos bought, bought_past_flat short bought, if_neg apart]

end Closing

section Steps
variable (pnl : InstrumentPnl) (fill : Fill)

/-- What a fill moves the position by. -/
def signedQuantity (fill : Fill) : Int :=
  match fill.side with
  | .buy => fill.quantity
  | .sell => -fill.quantity

theorem deltaOf_exact : deltaOf .exact fill = signedQuantity fill := by
  unfold deltaOf signedQuantity
  cases fill.side <;> rfl

/-- The turnover counters move whatever the fill does. -/
def counted : InstrumentPnl :=
  { pnl with filledQuantity := pnl.filledQuantity + fill.quantity, fillCount := pnl.fillCount + 1 }

theorem applyFill_exact : pnl.applyFill .exact fill =
    if (pnl.counted fill).Opposes (signedQuantity fill) then
      (pnl.counted fill).closeAt .exact (signedQuantity fill) fill.price
    else (pnl.counted fill).openAt .exact (signedQuantity fill) fill.price := by
  have opens : (pnl.position = 0 ∨ (0 < pnl.position ↔ 0 < signedQuantity fill)) ↔
      ¬ (pnl.counted fill).Opposes (signedQuantity fill) := opens_iff
  unfold applyFill
  simp only [deltaOf_exact, exact_unsigned, id_bind, opens, ite_not]
  rfl

end Steps

section Balance
variable {units cash : Int} {fill : Fill}

/-- What an entry says of the units bought and sold and of the cash for them. -/
structure Balanced (pnl : InstrumentPnl) (units cash : Int) : Prop where
  position : pnl.position = units
  basis : pnl.realized - pnl.openNotional = cash
  flat : pnl.position = 0 → pnl.openNotional = 0

theorem Balanced.openAt (balanced : pnl.Balanced units cash) (opens : ¬ pnl.Opposes delta) :
    Balanced (pnl.openAt .exact delta price) (units + delta) (cash - delta * price) where
  position := by
    rw [openAt_exact, balanced.position]
  basis := by
    rw [openAt_exact, ← balanced.basis]
    ring
  flat := by
    rw [openAt_exact]
    intro flat
    change pnl.position + delta = 0 at flat
    have neither : pnl.position = 0 ∧ delta = 0 := by
      unfold Opposes at opens
      omega
    show pnl.openNotional + delta * price = 0
    rw [balanced.flat neither.1, neither.2, zero_mul, add_zero]

theorem Balanced.closeAt (balanced : pnl.Balanced units cash) (opposes : pnl.Opposes delta) :
    Balanced (pnl.closeAt .exact delta price) (units + delta) (cash - delta * price) := by
  have held : pnl.position ≠ 0 := by
    unfold Opposes at opposes
    omega
  rcases le_or_gt |delta| |pnl.position| with within | past
  · rw [closeAt_exact_of_le opposes within]
    refine ⟨by rw [balanced.position], ?_, fun flat => if_pos flat⟩
    rw [← balanced.basis]
    dsimp only
    split_ifs with flat
    · -- closing outright takes the whole of what is open, so that nothing is left to be dropped
      have all : |delta| = |pnl.position| := by rw [eq_neg_of_add_eq_zero_left flat, abs_neg]
      rw [all, slice_all held]
      ring
    · ring
  · rw [closeAt_exact_of_lt opposes past]
    refine ⟨by rw [balanced.position], ?_, fun flat => ?_⟩
    · rw [← balanced.basis]
      ring
    · show (pnl.position + delta) * price = 0
      rw [show pnl.position + delta = 0 from flat, zero_mul]

theorem Balanced.applyFill (balanced : pnl.Balanced units cash) :
    Balanced (pnl.applyFill .exact fill) (units + signedQuantity fill) (cash - signedQuantity fill * fill.price) := by
  have counts : Balanced (pnl.counted fill) units cash := ⟨balanced.position, balanced.basis, balanced.flat⟩
  rw [applyFill_exact]
  split_ifs with opposes
  · exact counts.closeAt opposes
  · exact counts.openAt opposes

theorem Balanced.snapshotAt (balanced : pnl.Balanced units cash) (mark : Int) :
    let snapshot : PnlSnapshot := pnl.snapshotAt .exact (some mark)
    snapshot.position = units ∧ snapshot.total = snapshot.realized + snapshot.unrealized ∧
      snapshot.total = cash + units * mark := by
  have value : pnl.realized + (pnl.position * mark - pnl.openNotional) = cash + units * mark := by
    rw [← balanced.basis, balanced.position]
    ring
  unfold InstrumentPnl.snapshotAt
  split_ifs
  · exact ⟨balanced.position, rfl, value⟩
  · exact ⟨balanced.position, rfl, value⟩

end Balance
end InstrumentPnl

namespace PnlTracker
open InstrumentPnl

/-- The entry a fill is for. -/
def IsFor (fill : Fill) (accountId : AccountId) (instrumentId : InstrumentId) : Prop :=
  fill.accountId = accountId ∧ fill.instrumentId = instrumentId

instance (fill : Fill) (accountId : AccountId) (instrumentId : InstrumentId) :
    Decidable (IsFor fill accountId instrumentId) := inferInstanceAs (Decidable (_ ∧ _))

/-- What a measure adds up to over the fills of one instrument in one account on one side. -/
def traded (fills : List Fill) (accountId : AccountId) (instrumentId : InstrumentId) (side : Side)
    (measure : Fill → Int) : Int :=
  ((fills.filter fun fill => IsFor fill accountId instrumentId ∧ fill.side = side).map measure).sum

section Runs
variable (tracker : PnlTracker) (fills : List Fill) (fill : Fill) (accountId : AccountId) (instrumentId : InstrumentId)

def unitsTraded (side : Side) : Int := traded fills accountId instrumentId side fun fill => fill.quantity

def cashTraded (side : Side) : Int := traded fills accountId instrumentId side fun fill => fill.quantity * fill.price

theorem applyAll_concat {m : Type → Type} [Monad m] [LawfulMonad m] (arithmetic : Arithmetic m) :
    applyAll arithmetic tracker (fills ++ [fill]) =
      applyAll arithmetic tracker fills >>= fun reached => apply arithmetic reached fill := by
  unfold applyAll
  simp only [List.foldlM_append, List.foldlM_cons, List.foldlM_nil, bind_pure]

theorem pnlOf_apply : (apply .exact tracker fill : PnlTracker).pnlOf accountId instrumentId =
    if IsFor fill accountId instrumentId then (tracker.pnlOf accountId instrumentId).applyFill .exact fill
    else tracker.pnlOf accountId instrumentId := by
  unfold apply pnlOf
  simp only [id_bind, id_pure, valueAt_modifyAt]
  split_ifs with account same same
  · rw [valueAt_modifyAt, if_pos same.2.symm, same.1, same.2]
  · rw [valueAt_modifyAt, if_neg fun instrument => same ⟨account.symm, instrument.symm⟩, account]
  · exact absurd same.1.symm account
  · rfl

variable {accountId instrumentId}

theorem traded_concat (side : Side) (measure : Fill → Int) :
    traded (fills ++ [fill]) accountId instrumentId side measure =
      traded fills accountId instrumentId side measure +
        if IsFor fill accountId instrumentId ∧ fill.side = side then measure fill else 0 := by
  unfold traded
  rw [List.filter_append, List.map_append, List.sum_append]
  split_ifs with counts
  · rw [List.filter_cons_of_pos (by simpa using counts), List.filter_nil, List.map_singleton, List.sum_singleton]
  · rw [List.filter_cons_of_neg (by simpa using counts), List.filter_nil, List.map_nil, List.sum_nil]

theorem traded_concat_of_not (side : Side) (measure : Fill → Int) (other : ¬ IsFor fill accountId instrumentId) :
    traded (fills ++ [fill]) accountId instrumentId side measure = traded fills accountId instrumentId side measure := by
  rw [traded_concat, if_neg fun both => other both.1, add_zero]

theorem netUnits_concat (here : IsFor fill accountId instrumentId) :
    unitsTraded (fills ++ [fill]) accountId instrumentId .buy - unitsTraded (fills ++ [fill]) accountId instrumentId .sell =
      unitsTraded fills accountId instrumentId .buy - unitsTraded fills accountId instrumentId .sell +
        signedQuantity fill := by
  unfold unitsTraded signedQuantity
  rw [traded_concat, traded_concat]
  simp only [here, true_and]
  cases fill.side with
  | buy => simp only [if_true, reduceCtorEq, if_false]; ring
  | sell => simp only [if_true, reduceCtorEq, if_false]; ring

theorem netCash_concat (here : IsFor fill accountId instrumentId) :
    cashTraded (fills ++ [fill]) accountId instrumentId .sell - cashTraded (fills ++ [fill]) accountId instrumentId .buy =
      cashTraded fills accountId instrumentId .sell - cashTraded fills accountId instrumentId .buy -
        signedQuantity fill * fill.price := by
  unfold cashTraded signedQuantity
  rw [traded_concat, traded_concat]
  simp only [here, true_and]
  cases fill.side with
  | buy => simp only [if_true, reduceCtorEq, if_false]; ring
  | sell => simp only [if_true, reduceCtorEq, if_false]; ring

/-- Every entry is balanced, whatever the fills. -/
theorem applyAll_balanced : ((applyAll .exact {} fills : PnlTracker).pnlOf accountId instrumentId).Balanced
    (unitsTraded fills accountId instrumentId .buy - unitsTraded fills accountId instrumentId .sell)
    (cashTraded fills accountId instrumentId .sell - cashTraded fills accountId instrumentId .buy) := by
  induction fills using List.reverseRecOn with
  | nil => exact ⟨rfl, rfl, fun _ => rfl⟩
  | append_singleton fills fill balanced =>
    rw [applyAll_concat, id_bind, pnlOf_apply]
    split_ifs with here
    · rw [netUnits_concat fills fill here, netCash_concat fills fill here]
      exact balanced.applyFill
    · unfold unitsTraded cashTraded at balanced ⊢
      simp only [traded_concat_of_not fills fill _ _ here]
      exact balanced

theorem snapshotAt_default (mark : Option Int) :
    (default : InstrumentPnl).snapshotAt .exact mark = (pure {} : Id PnlSnapshot) := by
  cases mark with
  | none => rfl
  | some price =>
    have nothing : (0 : Int) * price - 0 = 0 := by rw [zero_mul, sub_zero]
    have written : (default : InstrumentPnl).snapshotAt .exact (some price) =
        (pure { unrealized := 0 * price - 0, total := 0 + (0 * price - 0) } : Id PnlSnapshot) := rfl
    rw [written, nothing, add_zero]

/-- A pair never filled shows what an entry of zeros shows. -/
theorem snapshot_eq (mark : Option Int) : tracker.snapshot .exact accountId instrumentId mark =
    (tracker.pnlOf accountId instrumentId).snapshotAt .exact mark := by
  unfold snapshot pnlOf valueAt
  cases tracker.accounts.lookup accountId with
  | none => exact (snapshotAt_default mark).symm
  | some instruments =>
    dsimp only [Option.getD_some]
    cases instruments.lookup instrumentId with
    | none => exact (snapshotAt_default mark).symm
    | some pnl => rfl

end Runs

/-- For every sequence of fills and every mark, the realized and unrealized profit of an instrument
are together what was received for its sells less what was paid for its buys, plus the position at
the mark; the position is what was bought less what was sold; and nothing is open when it is flat. -/
theorem snapshot_total (fills : List Fill) (accountId : AccountId) (instrumentId : InstrumentId) (mark : Int) :
    let tracker : PnlTracker := applyAll .exact {} fills
    let snapshot : PnlSnapshot := tracker.snapshot .exact accountId instrumentId (some mark)
    snapshot.total = snapshot.realized + snapshot.unrealized ∧
      snapshot.total = cashTraded fills accountId instrumentId .sell - cashTraded fills accountId instrumentId .buy +
        snapshot.position * mark ∧
      snapshot.position = unitsTraded fills accountId instrumentId .buy - unitsTraded fills accountId instrumentId .sell ∧
      ((tracker.pnlOf accountId instrumentId).position = 0 → (tracker.pnlOf accountId instrumentId).openNotional = 0) := by
  intro tracker snapshot
  have balanced : (tracker.pnlOf accountId instrumentId).Balanced _ _ := applyAll_balanced fills
  obtain ⟨position, parts, total⟩ := balanced.snapshotAt mark
  have same : snapshot = (tracker.pnlOf accountId instrumentId).snapshotAt .exact (some mark) := snapshot_eq tracker _
  rw [same]
  refine ⟨parts, ?_, position, balanced.flat⟩
  rw [position]
  exact total

end PnlTracker

end Mdh.Trader
