import Mathlib.Data.List.Infix
import Mdh.Trader.PnlIdentity

/-! The tracker's arithmetic in 64 bits. The three numbers it stores may fit while a product on the
way to them does not: a close multiplies the whole open notional by the units it closes. -/

namespace Mdh.Trader
open Mdh.Core Mdh.Core.Arithmetic Mdh.Core.Rounding Mdh.Lib Mdh.Lib.KeyedStore

namespace InstrumentPnl

section Yields
variable {arithmetic : Arithmetic Id} (keeps : Keeps arithmetic) (pnl : InstrumentPnl) (delta price : Int)
include keeps

theorem magnitude_yields (value : Int) : Yields (magnitude checked value) (magnitude arithmetic value) :=
  .ite (keeps.signed_yields _) (.pure _)

theorem openAt_yields : Yields (pnl.openAt checked delta price) (pnl.openAt arithmetic delta price) :=
  .bind (keeps.signed_yields _) fun _ => .bind (keeps.signed_yields _) fun _ => .bind (keeps.signed_yields _) fun _ => .pure _

theorem flipAt_yields (flipped : Int) :
    Yields (pnl.flipAt checked flipped delta price) (pnl.flipAt arithmetic flipped delta price) := by
  unfold flipAt
  apply Yields.ite
  · apply Yields.ite
    · exact openAt_yields keeps pnl flipped price
    · exact .bind (keeps.signed_yields _) fun flippedSigned => openAt_yields keeps pnl flippedSigned price
  · exact .pure pnl

theorem closeAt_yields : Yields (pnl.closeAt checked delta price) (pnl.closeAt arithmetic delta price) := by
  unfold closeAt
  apply Yields.bind (magnitude_yields keeps _)
  intro opened
  apply Yields.bind (magnitude_yields keeps _)
  intro size
  apply Yields.bind (keeps.signed_yields _)
  intro scaled
  apply Yields.bind (keeps.quotient_yields _ _)
  intro closedNotional
  apply Yields.bind (keeps.signed_yields _)
  intro units
  apply Yields.bind (keeps.signed_yields _)
  intro proceeds
  apply Yields.bind (keeps.signed_yields _)
  intro gain
  apply Yields.bind (keeps.signed_yields _)
  intro realized
  apply Yields.bind (keeps.signed_yields _)
  intro openNotional
  apply Yields.bind (keeps.signed_yields _)
  intro position
  apply Yields.bind (keeps.signed_yields _)
  intro flipped
  apply Yields.bind (flipAt_yields keeps _ _ _ _)
  intro held
  exact .pure _

theorem deltaOf_yields (fill : Fill) : Yields (deltaOf checked fill) (deltaOf arithmetic fill) := by
  unfold deltaOf
  apply Yields.bind (keeps.signed_yields _)
  intro quantity
  cases fill.side with
  | buy => exact .pure _
  | sell => exact keeps.signed_yields _

theorem applyFill_yields (fill : Fill) : Yields (pnl.applyFill checked fill) (pnl.applyFill arithmetic fill) := by
  unfold applyFill
  apply Yields.bind (deltaOf_yields keeps fill)
  intro delta
  apply Yields.bind (keeps.unsigned_yields _)
  intro filledQuantity
  apply Yields.bind (keeps.unsigned_yields _)
  intro fillCount
  apply Yields.ite
  · exact openAt_yields keeps _ _ _
  · exact closeAt_yields keeps _ _ _

end Yields

section Defined

theorem bind_pure_isSome {α β : Type} {attempt : Option α} {value : α → β} (through : attempt.isSome) :
    (attempt >>= fun result => pure (value result)).isSome := by
  obtain ⟨result, reached⟩ := Option.isSome_iff_exists.mp through
  rw [reached]
  rfl

variable {α : Type} {rest : Int → Option α} (pnl : InstrumentPnl) (delta price : Int)

theorem magnitude_isSome (value : Int) :
    (magnitude checked value >>= rest).isSome ↔ (value < 0 → InRange (-value)) ∧ (rest |value|).isSome := by
  unfold magnitude
  split_ifs with negative
  · rw [checked_signed_isSome, abs_of_neg negative]
    exact and_congr_left' (true_imp_iff.symm.trans (imp_congr_left (iff_of_true trivial negative)))
  · rw [abs_of_nonneg (not_lt.mp negative)]
    exact (and_iff_right fun low => absurd low negative).symm

theorem openAt_isSome : (pnl.openAt checked delta price).isSome ↔
    InRange (pnl.position + delta) ∧ InRange (delta * price) ∧ InRange (pnl.openNotional + delta * price) := by
  unfold openAt
  simp only [checked_signed_isSome]
  exact and_congr_right fun _ => and_congr_right fun _ => and_iff_left rfl

end Defined

section Fits
variable {pnl : InstrumentPnl} {delta price : Int}

/-- The three numbers a fill moves are values of their type. -/
structure Fits (pnl : InstrumentPnl) : Prop where
  position : InRange pnl.position
  openNotional : InRange pnl.openNotional
  realized : InRange pnl.realized

instance (pnl : InstrumentPnl) : Decidable pnl.Fits :=
  decidable_of_iff (InRange pnl.position ∧ InRange pnl.openNotional ∧ InRange pnl.realized)
    ⟨fun all => ⟨all.1, all.2.1, all.2.2⟩, fun fits => ⟨fits.position, fits.openNotional, fits.realized⟩⟩

/-- The units a fill closes. -/
def closing (pnl : InstrumentPnl) (delta : Int) : Int := min |pnl.position| |delta|

/-- The products on the way through a close, and their difference. -/
structure CloseFits (pnl : InstrumentPnl) (delta price : Int) : Prop where
  position : -2 ^ 63 < pnl.position
  scaled : InRange (pnl.openNotional * pnl.closing delta)
  proceeds : InRange (signOf pnl.position * pnl.closing delta * price)
  gain : InRange (signOf pnl.position * pnl.closing delta * price - pnl.slice (pnl.closing delta))

/-- A slice lies between nothing and the whole. -/
theorem slice_between {closed : Int} (low : 0 ≤ closed) (high : closed ≤ |pnl.position|) (held : pnl.position ≠ 0) :
    0 ≤ pnl.slice closed ∧ pnl.slice closed ≤ pnl.openNotional ∨
      pnl.openNotional ≤ pnl.slice closed ∧ pnl.slice closed ≤ 0 := by
  have units : 0 < |pnl.position| := abs_pos.mpr held
  have share {notional : Int} (paid : 0 ≤ notional) :
      0 ≤ (notional * closed).tdiv |pnl.position| ∧ (notional * closed).tdiv |pnl.position| ≤ notional := by
    have scaled : 0 ≤ notional * closed := mul_nonneg paid low
    rw [Int.tdiv_eq_ediv_of_nonneg scaled]
    exact ⟨Int.ediv_nonneg scaled units.le, Int.ediv_le_of_le_mul units (mul_le_mul_of_nonneg_left high paid)⟩
  unfold slice
  rcases le_total 0 pnl.openNotional with paid | received
  · exact .inl (share paid)
  · have negated := share (neg_nonneg.mpr received)
    rw [neg_mul, Int.neg_tdiv] at negated
    omega

theorem flipAt_isSome (opposes : pnl.Opposes delta) (past : |pnl.position| < |delta|) (small : |delta| < 2 ^ 63)
    (kept : InstrumentPnl) : (kept.flipAt checked (|delta| - |pnl.position|) delta price).isSome ↔
      InRange (kept.position + (pnl.position + delta)) ∧ InRange ((pnl.position + delta) * price) ∧
        InRange (kept.openNotional + (pnl.position + delta) * price) := by
  unfold flipAt
  rw [if_pos (sub_pos.mpr past)]
  rcases opposes with ⟨long, sold⟩ | ⟨short, bought⟩
  · have fits : InRange (-(|delta| - |pnl.position|)) := by
      have units := abs_nonneg pnl.position
      unfold InRange
      omega
    rw [if_neg (not_lt.mpr sold), checked_signed_isSome, and_iff_right fits, sold_past_flat long sold, openAt_isSome]
  · rw [if_pos bought, bought_past_flat short bought, openAt_isSome]

/-- The units closed lie between none and the whole position. -/
theorem closed_between (opposes : pnl.Opposes delta) :
    0 ≤ signOf pnl.position * pnl.closing delta ∧ signOf pnl.position * pnl.closing delta ≤ pnl.position ∨
      pnl.position ≤ signOf pnl.position * pnl.closing delta ∧ signOf pnl.position * pnl.closing delta ≤ 0 := by
  unfold closing signOf
  rcases opposes with ⟨long, sold⟩ | ⟨short, bought⟩
  · rw [if_neg (by omega), one_mul, abs_of_pos long, abs_of_nonpos sold]
    omega
  · rw [if_pos short, neg_one_mul, abs_of_neg short, abs_of_pos bought]
    omega

theorem closeAt_exact_realized (opposes : pnl.Opposes delta) :
    (pnl.closeAt .exact delta price : InstrumentPnl).realized =
      pnl.realized + (signOf pnl.position * pnl.closing delta * price - pnl.slice (pnl.closing delta)) := by
  have held : pnl.position ≠ 0 := by
    unfold Opposes at opposes
    omega
  unfold closing
  rcases le_or_gt |delta| |pnl.position| with within | past
  · rw [closeAt_exact_of_le opposes within, min_eq_right within, signOf_mul_abs opposes]
  · rw [closeAt_exact_of_lt opposes past, min_eq_left past.le, signOf_mul_abs_self held, slice_all held]

/-- A close of a position that fits, whose outcome fits, goes through when its products do. -/
theorem closeAt_isSome_iff (fits : pnl.Fits) (opposes : pnl.Opposes delta) (small : |delta| < 2 ^ 63)
    (after : Fits (pnl.closeAt .exact delta price)) :
    (pnl.closeAt checked delta price).isSome ↔ pnl.CloseFits delta price := by
  have held : pnl.position ≠ 0 := by
    unfold Opposes at opposes
    omega
  have position := fits.position
  have openNotional := fits.openNotional
  have realized := after.realized
  rw [closeAt_exact_realized opposes] at realized
  unfold closeAt
  simp only [magnitude_isSome, checked_signed_isSome, checked_quotient_isSome]
  constructor
  · rintro ⟨short, -, scaled, -, -, proceeds, gain, -⟩
    refine ⟨?_, scaled, proceeds, gain⟩
    unfold InRange at position short
    omega
  · rintro ⟨low, scaled, proceeds, gain⟩
    have closed := closed_between opposes
    have share := slice_between (le_min (abs_nonneg pnl.position) (abs_nonneg delta)) (min_le_left _ _) held
    have units := abs_nonneg pnl.position
    have sliceFits : InRange (pnl.slice (pnl.closing delta)) := by
      unfold InRange at openNotional ⊢
      unfold closing
      omega
    have restFits : InRange (pnl.openNotional - pnl.slice (pnl.closing delta)) := by
      unfold InRange at openNotional ⊢
      unfold closing
      omega
    have closedFits : InRange (signOf pnl.position * pnl.closing delta) := by
      unfold InRange at position ⊢
      omega
    have leftFits : InRange (pnl.position - signOf pnl.position * pnl.closing delta) := by
      unfold InRange at position ⊢
      omega
    refine ⟨fun short => ?_, fun sold => ?_, scaled, ⟨abs_ne_zero.mpr held, sliceFits⟩, closedFits, proceeds, gain,
      realized, restFits, leftFits, ?_, ?_⟩
    · unfold InRange at position ⊢
      omega
    · rw [abs_of_neg sold] at small
      unfold InRange
      omega
    · unfold InRange
      omega
    · rcases le_or_gt |delta| |pnl.position| with within | past
      · rw [min_eq_right within, sub_self]
        rfl
      · have flat : pnl.position - pnl.position + (pnl.position + delta) = pnl.position + delta := by ring
        have whole : (pnl.openNotional * |pnl.position|).tdiv |pnl.position| = pnl.openNotional := slice_all held
        have entered : pnl.openNotional - pnl.openNotional + (pnl.position + delta) * price =
          (pnl.position + delta) * price := by ring
        have moved := after.position
        have opened := after.openNotional
        rw [closeAt_exact_of_lt opposes past] at moved opened
        rw [min_eq_left past.le, signOf_mul_abs_self held, whole]
        refine bind_pure_isSome ((flipAt_isSome opposes past small _).mpr ?_)
        rw [flat, entered]
        exact ⟨moved, opened, opened⟩

/-- Every product of a fill fits, and so do the turnover counters. -/
structure FillFits (pnl : InstrumentPnl) (fill : Fill) : Prop where
  filledQuantity : pnl.filledQuantity + fill.quantity < 2 ^ 64
  fillCount : pnl.fillCount + 1 < 2 ^ 64
  opens : ¬ pnl.Opposes (signedQuantity fill) → InRange (signedQuantity fill * fill.price)
  closes : pnl.Opposes (signedQuantity fill) → pnl.CloseFits (signedQuantity fill) fill.price

/-- Turnover only grows. -/
structure Counted (pnl : InstrumentPnl) : Prop where
  filledQuantity : 0 ≤ pnl.filledQuantity
  fillCount : 0 ≤ pnl.fillCount

variable {fill : Fill}

theorem deltaOf_checked (small : fill.quantity < 2 ^ 63) : deltaOf checked fill = some (signedQuantity fill) := by
  have fits : InRange fill.quantity := by
    unfold InRange
    omega
  have negated : InRange (-fill.quantity) := by
    unfold InRange
    omega
  unfold deltaOf signedQuantity
  rw [checked_signed_of_fits fits, some_bind, checked_signed_of_fits negated]
  cases fill.side <;> rfl

theorem abs_signedQuantity : |signedQuantity fill| = fill.quantity := by
  unfold signedQuantity
  cases fill.side with
  | buy => exact abs_of_nonneg (Int.natCast_nonneg _)
  | sell => exact (abs_neg _).trans (abs_of_nonneg (Int.natCast_nonneg _))

/-- A fill of an entry that fits, whose outcome fits, goes through when its products do. -/
theorem applyFill_isSome_iff (fits : pnl.Fits) (counts : pnl.Counted) (small : fill.quantity < 2 ^ 63)
    (after : Fits (pnl.applyFill .exact fill)) : (pnl.applyFill checked fill).isSome ↔ pnl.FillFits fill := by
  have quantity := counts.filledQuantity
  have count := counts.fillCount
  have size : |signedQuantity fill| < 2 ^ 63 := by
    rw [abs_signedQuantity]
    omega
  rw [applyFill_exact] at after
  unfold applyFill
  rw [deltaOf_checked small, some_bind, checked_unsigned_isSome, checked_unsigned_isSome]
  change _ ∧ _ ∧ (if pnl.position = 0 ∨ (0 < pnl.position ↔ 0 < signedQuantity fill) then
    (pnl.counted fill).openAt checked (signedQuantity fill) fill.price
    else (pnl.counted fill).closeAt checked (signedQuantity fill) fill.price).isSome ↔ _
  rw [and_iff_right (by omega : 0 ≤ pnl.filledQuantity + fill.quantity), and_iff_right (by omega : 0 ≤ pnl.fillCount + 1)]
  by_cases opposes : pnl.Opposes (signedQuantity fill)
  · have countedFits : (pnl.counted fill).Fits := ⟨fits.position, fits.openNotional, fits.realized⟩
    rw [if_pos (show (pnl.counted fill).Opposes _ from opposes)] at after
    rw [if_neg fun opened => opens_iff.mp opened opposes, closeAt_isSome_iff countedFits opposes size after]
    constructor
    · rintro ⟨quantityFits, countFits, closes⟩
      exact ⟨quantityFits, countFits, fun opened => absurd opposes opened,
        fun _ => ⟨closes.position, closes.scaled, closes.proceeds, closes.gain⟩⟩
    · rintro ⟨quantityFits, countFits, -, closes⟩
      have held := closes opposes
      exact ⟨quantityFits, countFits, held.position, held.scaled, held.proceeds, held.gain⟩
  · rw [if_neg (show ¬ (pnl.counted fill).Opposes _ from opposes), openAt_exact] at after
    rw [if_pos (opens_iff.mpr opposes), openAt_isSome]
    constructor
    · rintro ⟨quantityFits, countFits, -, notional, -⟩
      exact ⟨quantityFits, countFits, fun _ => notional, fun closes => absurd closes opposes⟩
    · rintro ⟨quantityFits, countFits, opened, -⟩
      exact ⟨quantityFits, countFits, after.position, opened opposes, after.openNotional⟩

theorem closeAt_turnover (price : Int) (opposes : pnl.Opposes delta) :
    (pnl.closeAt .exact delta price : InstrumentPnl).filledQuantity = pnl.filledQuantity ∧
      (pnl.closeAt .exact delta price : InstrumentPnl).fillCount = pnl.fillCount := by
  rcases le_or_gt |delta| |pnl.position| with within | past
  · rw [closeAt_exact_of_le opposes within]
    exact ⟨rfl, rfl⟩
  · rw [closeAt_exact_of_lt opposes past]
    exact ⟨rfl, rfl⟩

theorem Counted.applyFill (counts : pnl.Counted) : Counted (pnl.applyFill .exact fill) := by
  have quantity := counts.filledQuantity
  have count := counts.fillCount
  have grown : (pnl.counted fill).Counted := ⟨add_nonneg quantity (Int.natCast_nonneg _), add_nonneg count Int.one_nonneg⟩
  rw [applyFill_exact]
  split_ifs with opposes
  · obtain ⟨sameQuantity, sameCount⟩ := closeAt_turnover fill.price opposes
    exact ⟨sameQuantity ▸ grown.filledQuantity, sameCount ▸ grown.fillCount⟩
  · exact ⟨grown.filledQuantity, grown.fillCount⟩

end Fits

end InstrumentPnl

namespace PnlTracker
open InstrumentPnl

section Yields
variable {arithmetic : Arithmetic Id} (keeps : Keeps arithmetic) (tracker : PnlTracker)
include keeps

theorem apply_yields (fill : Fill) : Yields (apply checked tracker fill) (apply arithmetic tracker fill) :=
  .bind (applyFill_yields keeps _ fill) fun _ => .pure _

theorem applyAll_yields (fills : List Fill) : Yields (applyAll checked tracker fills) (applyAll arithmetic tracker fills) := by
  induction fills using List.reverseRecOn with
  | nil => exact .pure tracker
  | append_singleton fills fill yields =>
    rw [applyAll_concat, applyAll_concat]
    exact .bind yields fun reached => apply_yields keeps reached fill

end Yields

section Runs
variable {fills : List Fill}

/-- Every operation on the way is in its range, and what is stored is the exact result. -/
def StoresExactly (fills : List Fill) : Prop :=
  applyAll checked {} fills = some (applyAll .exact {} fills : PnlTracker) ∧
    (applyAll machine {} fills : PnlTracker) = (applyAll .exact {} fills : PnlTracker)

theorem storesExactly_iff : StoresExactly fills ↔ (applyAll checked {} fills).isSome := by
  constructor
  · intro stores
    rw [stores.1]
    rfl
  · intro through
    obtain ⟨reached, same⟩ := Option.isSome_iff_exists.mp through
    have exactly := applyAll_yields exact_keeps {} fills reached same
    rw [StoresExactly, exactly]
    exact ⟨same, applyAll_yields machine_keeps {} fills reached same⟩

/-- What the tracker holds for a pair once it has taken these fills, in exact arithmetic. -/
def exactPnl (fills : List Fill) (accountId : AccountId) (instrumentId : InstrumentId) : InstrumentPnl :=
  (applyAll .exact {} fills : PnlTracker).pnlOf accountId instrumentId

theorem exactPnl_concat (fill : Fill) (accountId : AccountId) (instrumentId : InstrumentId) :
    exactPnl (fills ++ [fill]) accountId instrumentId =
      if IsFor fill accountId instrumentId then (exactPnl fills accountId instrumentId).applyFill .exact fill
      else exactPnl fills accountId instrumentId := by
  unfold exactPnl
  rw [applyAll_concat, id_bind, pnlOf_apply]

theorem exactPnl_counted (accountId : AccountId) (instrumentId : InstrumentId) :
    (exactPnl fills accountId instrumentId).Counted := by
  induction fills using List.reverseRecOn with
  | nil => exact ⟨le_rfl, le_rfl⟩
  | append_singleton fills fill counts =>
    rw [exactPnl_concat]
    split_ifs
    · exact counts.applyFill
    · exact counts

/-- A pair without a fill is as it started. -/
theorem exactPnl_of_not {accountId : AccountId} {instrumentId : InstrumentId}
    (other : ∀ fill ∈ fills, ¬ IsFor fill accountId instrumentId) : exactPnl fills accountId instrumentId = {} := by
  induction fills using List.reverseRecOn with
  | nil => rfl
  | append_singleton fills fill blank =>
    rw [exactPnl_concat, if_neg (other fill (List.mem_append_right _ (List.mem_singleton_self _)))]
    exact blank fun earlier member => other earlier (List.mem_append_left _ member)

/-- Whether everything fits shows in the pairs that have fills. -/
theorem fits_of_inits
    (fits : ∀ earlier ∈ fills.inits, ∀ fill ∈ earlier, (exactPnl earlier fill.accountId fill.instrumentId).Fits) :
    ∀ earlier, earlier <+: fills → ∀ accountId instrumentId, (exactPnl earlier accountId instrumentId).Fits := by
  intro earlier within accountId instrumentId
  by_cases filled : ∃ fill ∈ earlier, IsFor fill accountId instrumentId
  · obtain ⟨fill, member, rfl, rfl⟩ := filled
    exact fits earlier ((List.mem_inits _ _).mpr within) fill member
  · rw [exactPnl_of_not fun fill member same => filled ⟨fill, member, same⟩]
    exact ⟨by decide, by decide, by decide⟩

/-- One more fill is stored exactly if those before it are and its own products fit. -/
theorem storesExactly_concat (fill : Fill) (small : fill.quantity < 2 ^ 63)
    (before : (exactPnl fills fill.accountId fill.instrumentId).Fits)
    (after : (exactPnl (fills ++ [fill]) fill.accountId fill.instrumentId).Fits) :
    StoresExactly (fills ++ [fill]) ↔
      StoresExactly fills ∧ (exactPnl fills fill.accountId fill.instrumentId).FillFits fill := by
  rw [exactPnl_concat, if_pos ⟨rfl, rfl⟩] at after
  have goes := applyFill_isSome_iff before (exactPnl_counted _ _) small after
  rw [storesExactly_iff, storesExactly_iff, applyAll_concat, ← goes]
  constructor
  · intro through
    obtain ⟨stored, reached⟩ := Option.isSome_iff_exists.mp through
    obtain ⟨middle, first, second⟩ := Option.bind_eq_some_iff.mp reached
    obtain ⟨pnl, entry, _⟩ := Option.bind_eq_some_iff.mp second
    have exactly : (applyAll .exact {} fills : PnlTracker) = middle := applyAll_yields exact_keeps {} fills middle first
    rw [first, exactPnl, exactly, entry]
    exact ⟨rfl, rfl⟩
  · rintro ⟨through, fits⟩
    obtain ⟨middle, first⟩ := Option.isSome_iff_exists.mp through
    have exactly : (applyAll .exact {} fills : PnlTracker) = middle := applyAll_yields exact_keeps {} fills middle first
    rw [exactPnl, exactly] at fits
    rw [first, some_bind]
    exact bind_pure_isSome fits

/-- For every sequence of fills whose exact results all fit: the tracker stores them, with nothing out of
range on the way, if and only if every fill's products and counters fit. -/
theorem applyAll_storesExactly_iff (fills : List Fill) (small : ∀ fill ∈ fills, fill.quantity < 2 ^ 63)
    (fits : ∀ earlier, earlier <+: fills → ∀ accountId instrumentId, (exactPnl earlier accountId instrumentId).Fits) :
    StoresExactly fills ↔
      ∀ earlier fill, earlier ++ [fill] <+: fills →
        (exactPnl earlier fill.accountId fill.instrumentId).FillFits fill := by
  induction fills using List.reverseRecOn with
  | nil =>
    refine iff_of_true (storesExactly_iff.mpr rfl) ?_
    intro earlier fill within
    exact absurd (List.prefix_nil.mp within) (List.append_ne_nil_of_right_ne_nil _ (List.cons_ne_nil _ _))
  | append_singleton fills fill stores =>
    have earlierSmall : ∀ earlier ∈ fills, earlier.quantity < 2 ^ 63 :=
      fun earlier member => small earlier (List.mem_append_left _ member)
    have earlierFits : ∀ earlier, earlier <+: fills → ∀ accountId instrumentId,
        (exactPnl earlier accountId instrumentId).Fits :=
      fun earlier within => fits earlier (within.trans (List.prefix_append _ _))
    rw [storesExactly_concat fill (small fill (List.mem_append_right _ (List.mem_singleton_self _)))
      (earlierFits fills List.prefix_rfl _ _) (fits _ List.prefix_rfl _ _), stores earlierSmall earlierFits]
    constructor
    · rintro ⟨all, last⟩ earlier next within
      rcases List.prefix_concat_iff.mp within with same | shorter
      · obtain ⟨rfl, rfl⟩ := List.append_singleton_inj.mp same
        exact last
      · exact all earlier next shorter
    · intro all
      exact ⟨fun earlier next within => all earlier next (within.trans (List.prefix_append _ _)),
        all fills fill List.prefix_rfl⟩

/-- Three units bought, two sold dearer, and four sold past flat. -/
theorem applyAll_storesExactly_iff_flipped :
    let buys : Fill := ⟨1, 1, 1, .buy, 100, 3⟩
    let sells : Fill := ⟨1, 2, 1, .sell, 110, 2⟩
    let flips : Fill := ⟨1, 3, 1, .sell, 90, 4⟩
    ∀ earlier fill, earlier ++ [fill] <+: [buys, sells, flips] →
      (exactPnl earlier fill.accountId fill.instrumentId).FillFits fill := by
  intro buys sells flips
  refine (applyAll_storesExactly_iff [buys, sells, flips] (by decide) ?_).mp (storesExactly_iff.mpr (by decide +kernel))
  exact fits_of_inits (by decide +kernel)

/-- Four hundred thousand units bought at a fine tick and three quarters of them sold again: every result
is small, and the open notional times the units closed is past the range. -/
theorem close_overflows :
    ¬ ∀ fills : List Fill, (∀ fill ∈ fills, fill.quantity < 2 ^ 63) →
      (∀ earlier, earlier <+: fills → ∀ accountId instrumentId, (exactPnl earlier accountId instrumentId).Fits) →
        StoresExactly fills := by
  intro stores
  have reached := stores [⟨1, 1, 1, .buy, 100000000, 400000⟩, ⟨1, 2, 1, .sell, 100000000, 300000⟩] (by decide)
    (fits_of_inits (by decide +kernel))
  exact absurd (storesExactly_iff.mp reached) (by decide +kernel)

end Runs
end PnlTracker

end Mdh.Trader
