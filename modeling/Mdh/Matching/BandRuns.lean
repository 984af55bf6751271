import Mdh.Lib.OrderedWalk
import Mdh.Matching.BandArithmetic
import Mdh.Matching.BookRefinement

/-! The bands of a book over a whole run. A band moves only when an order arrives on a
side with nothing on it, so the prices of the arrivals decide whether every later lookup
and search stays inside the signed type. -/

namespace Mdh.Matching
open Mdh.Core Mdh.Lib

namespace SideIndex

/-- Two indexes with the same band. -/
structure SameBand (before after : SideIndex) : Prop where
  base : after.base = before.base
  anchored : after.anchored = before.anchored
  bandTicks : after.bandTicks = before.bandTicks

section Band
variable {index after : SideIndex}

theorem SameBand.refl (index : SideIndex) : SameBand index index := ⟨rfl, rfl, rfl⟩

theorem SameBand.trans {third : SideIndex} (one : SameBand index after) (two : SameBand after third) :
    SameBand index third :=
  ⟨two.base.trans one.base, two.anchored.trans one.anchored, two.bandTicks.trans one.bandTicks⟩

theorem BandInRange.same (band : index.BandInRange) (same : SameBand index after) : after.BandInRange := by
  constructor
  · rw [same.anchored, same.base]
    exact band.low
  · rw [same.anchored, same.base, same.bandTicks]
    exact band.high

theorem Reaches.same {price : Int} (reaches : index.Reaches price) (same : SameBand index after) :
    after.Reaches price := by
  refine ⟨reaches.positive, reaches.bounded, ?_⟩
  rw [same.anchored, same.base]
  exact reaches.near

theorem write_sameBand (index : SideIndex) (ref : LevelRef) (level : LevelSlot) :
    SameBand index (index.write ref level) := by
  cases ref <;> exact ⟨rfl, rfl, rfl⟩

theorem eraseLevel_sameBand (index : SideIndex) (price : Int) : SameBand index (index.eraseLevel price) := by
  unfold eraseLevel
  split_ifs
  · obtain ⟨_, base, ticks, anchored, _⟩ := clearOccupied_fields index (index.tickOf price)
    exact ⟨base, anchored, ticks⟩
  · exact ⟨rfl, rfl, rfl⟩

theorem createLevel_sameBand (index : SideIndex) (price : Int) : SameBand index (index.createLevel price).1 := by
  unfold createLevel
  split_ifs
  · dsimp only
    split_ifs <;> exact ⟨rfl, rfl, rfl⟩
  · split <;> exact ⟨rfl, rfl, rfl⟩

/-- The next order to arrive finds the band free to move. -/
def Moves (index : SideIndex) : Prop := index.bandTicks ≠ 0 ∧ (index.anchored = false ∨ index.empty = true)

instance (index : SideIndex) : Decidable index.Moves := by
  unfold Moves
  infer_instance

/-- What an arrival at `price` needs: a band it moves must end inside the signed type, and one
that stays must start within reach of it. -/
def Fits (index : SideIndex) (price : Int) : Prop :=
  if index.Moves then price - (index.bandTicks / 2 : Nat) + index.bandTicks ≤ 2 ^ 63 - 1
  else index.anchored = true → price - index.base ≤ 2 ^ 63 - 1

instance (index : SideIndex) (price : Int) : Decidable (index.Fits price) := by
  unfold Fits
  infer_instance

theorem anchor_band (index : SideIndex) (price : Int) :
    (index.anchor price).base = price - (index.bandTicks / 2 : Nat) ∧ (index.anchor price).anchored = true ∧
      (index.anchor price).bandTicks = index.bandTicks := by
  unfold anchor
  split <;> exact ⟨rfl, rfl, rfl⟩

theorem levelFor_moved (moves : index.Moves) (price : Int) :
    SameBand (index.anchor price) (index.levelFor price).1 := by
  unfold Moves at moves
  unfold levelFor
  rw [if_pos moves]
  exact createLevel_sameBand _ price

theorem levelFor_still (still : ¬ index.Moves) (price : Int) : SameBand index (index.levelFor price).1 := by
  unfold Moves at still
  unfold levelFor
  rw [if_neg still]
  exact createLevel_sameBand index price

theorem Moves.vacant (wf : index.WellFormed) (moves : index.Moves) (price : Int) : ¬ index.Rests price := by
  have empty : index.empty = true := by
    rcases moves.2 with notAnchored | empty
    · simp only [SideIndex.empty, Bool.and_eq_true, beq_iff_eq, SortedMap.isEmpty_iff]
      exact ⟨wf.unanchored notAnchored, wf.unanchoredVacant moves.1 notAnchored⟩
    · exact empty
  simp [Rests, wf.empty_iff.mp empty price]

end Band

section Arrival
variable {index : SideIndex} {price : Int}

/-- The operations of an arrival that fits are in range. -/
theorem BandInRange.levelFor (wf : index.WellFormed) (band : index.BandInRange) (positive : 0 < price)
    (bounded : price ≤ 2 ^ 63 - 1) (fits : index.Fits price) :
    ∀ value ∈ index.levelForSigned price, Rounding.InRange value := by
  intro value member
  have narrow := wf.exact.fits
  unfold Fits at fits
  unfold levelForSigned at member
  by_cases moves : index.Moves
  · rw [if_pos moves] at fits
    unfold Moves at moves
    rw [if_pos moves, List.mem_append] at member
    rcases member with based | looked
    · rw [List.mem_singleton.mp based]
      unfold Rounding.InRange
      omega
    · obtain ⟨rfl, _⟩ := mem_lookupSigned looked
      rw [(anchor_band index price).1]
      unfold Rounding.InRange
      omega
  · rw [if_neg moves] at fits
    unfold Moves at moves
    rw [if_neg moves] at member
    exact band.lookup ⟨positive, bounded, fits⟩ value member

/-- The band an arrival that fits leaves behind. -/
theorem BandInRange.afterLevelFor (wf : index.WellFormed) (band : index.BandInRange) (positive : 0 < price)
    (fits : index.Fits price) : (index.levelFor price).1.BandInRange := by
  have narrow := wf.exact.fits
  unfold Fits at fits
  by_cases moves : index.Moves
  · rw [if_pos moves] at fits
    obtain ⟨base, anchored, ticks⟩ := anchor_band index price
    refine BandInRange.same ⟨fun _ => ?_, fun _ => ?_⟩ (levelFor_moved moves price)
    · rw [base]
      omega
    · rw [base, ticks]
      omega
  · exact band.same (levelFor_still moves price)

/-- Whatever rests once the order has arrived is within reach of the band. -/
theorem Reaches.afterLevelFor (wf : index.WellFormed) (reaches : ∀ other, index.Rests other → index.Reaches other)
    (positive : 0 < price) (bounded : price ≤ 2 ^ 63 - 1) (fits : index.Fits price) {other : Int}
    (rests : other = price ∨ index.Rests other) : (index.levelFor price).1.Reaches other := by
  have narrow := wf.exact.fits
  unfold Fits at fits
  by_cases moves : index.Moves
  · have same := rests.resolve_right (moves.vacant wf other)
    subst same
    obtain ⟨base, _, _⟩ := anchor_band index other
    refine Reaches.same ⟨positive, bounded, fun _ => ?_⟩ (levelFor_moved moves other)
    rw [base]
    omega
  · rw [if_neg moves] at fits
    refine Reaches.same ?_ (levelFor_still moves price)
    rcases rests with rfl | rests
    · exact ⟨positive, bounded, fits⟩
    · exact reaches other rests

/-- An arrival that does not fit leaves the range at once, or with the first search after it. -/
theorem fits_of_inRange (inRange : ∀ value ∈ index.levelForSigned price, Rounding.InRange value)
    {after : SideIndex} (wf : after.WellFormed) (same : SameBand (index.levelFor price).1 after)
    (rests : after.Rests price) (reads : after.ReadsInRange) : index.Fits price := by
  unfold Fits
  by_cases moves : index.Moves
  · rw [if_pos moves]
    obtain ⟨base, anchored, ticks⟩ := anchor_band index price
    have band := (levelFor_moved moves price).trans same
    have inside : after.inBand price = true := by
      have wide := moves.1
      rw [inBand_iff, band.anchored, band.base, band.bandTicks, anchored, base, ticks]
      exact ⟨rfl, by omega, by omega⟩
    have occupied := (level?_isSome_inBand inside).mp rests
    have nonzero : after.summary ≠ 0#64 := fun zero => wf.exact.none_occupied zero _ occupied
    have last := reads.nextPrice price rests _
      (end_mem_nextPriceSigned ((after.inBand_iff price).mp inside).1 nonzero price)
    rw [band.base, band.bandTicks, base, ticks] at last
    exact last.2
  · rw [if_neg moves]
    intro anchored
    unfold levelForSigned Moves at *
    rw [if_neg moves] at inRange
    exact (inRange _ (lookupSigned_of_anchored anchored price)).2

end Arrival

end SideIndex

namespace MatchingBook

section Frames

theorem unlink_sideOf (book : MatchingBook) (level : LevelSlot) (slot : Nat) (side : Side) :
    (book.unlink level slot).1.sideOf side = book.sideOf side := by
  unfold unlink
  cases (book.entry slot).prev <;> cases (book.entry slot).next <;> simp

theorem linkBack_sideOf (book : MatchingBook) (level : LevelSlot) (slot : Nat) (side : Side) :
    (book.linkBack level slot).1.sideOf side = book.sideOf side := by
  unfold linkBack
  cases level.tail <;> simp

theorem acquireSlot_sideOf (book : MatchingBook) (order : BookOrder) (side : Side) :
    (book.acquireSlot order).1.sideOf side = book.sideOf side := by
  unfold acquireSlot
  cases book.freeHead <;> cases side <;> rfl

theorem releaseSlot_sideOf (book : MatchingBook) (slot : Nat) (side : Side) :
    (book.releaseSlot slot).sideOf side = book.sideOf side := by
  cases side <;> rfl

/-- Only an arrival moves a band, and only its own side's. -/
theorem add_ownSide (book : MatchingBook) (order : BookOrder) :
    SideIndex.SameBand ((book.sideOf order.side).levelFor order.price).1 ((book.add order).1.sideOf order.side) := by
  let made := ((book.acquireSlot order).1.sideOf order.side).levelFor order.price
  have same : SideIndex.SameBand made.1 ((book.add order).1.sideOf order.side) := by
    change SideIndex.SameBand made.1 ((setSide _ order.side (made.1.write made.2 _)).sideOf order.side)
    rw [sideOf_setSide, if_pos rfl]
    exact SideIndex.write_sameBand ..
  have before := acquireSlot_sideOf book order order.side
  simpa only [made, before] using same

theorem add_otherSide (book : MatchingBook) (order : BookOrder) {side : Side} (other : side ≠ order.side) :
    (book.add order).1.sideOf side = book.sideOf side := by
  unfold add
  refine (sideOf_setSide _ order.side side _).trans ?_
  rw [if_neg other, linkBack_sideOf, acquireSlot_sideOf]

theorem setSide_sameBand {book : MatchingBook} {own : Side} {index : SideIndex}
    (same : SideIndex.SameBand (book.sideOf own) index) (side : Side) :
    SideIndex.SameBand (book.sideOf side) ((book.setSide own index).sideOf side) := by
  rw [sideOf_setSide]
  split_ifs with here
  · rw [here]
    exact same
  · exact SideIndex.SameBand.refl _

theorem closeLevel_sameBand (index : SideIndex) (ref : LevelRef) (price : Int) (level : LevelSlot) :
    SideIndex.SameBand index (closeLevel index ref price level) := by
  have written := index.write_sameBand ref level
  unfold closeLevel
  split_ifs
  · exact written.trans (SideIndex.eraseLevel_sameBand _ price)
  · exact written

theorem detachFrom_sameBand (book : MatchingBook) (own : Side) (ref : LevelRef) (price : Int) (slot : Nat)
    (side : Side) : SideIndex.SameBand (book.sideOf side) ((book.detachFrom own ref price slot).sideOf side) := by
  have unlinked := unlink_sideOf book ((book.sideOf own).read ref) slot
  unfold detachFrom
  change SideIndex.SameBand _ ((releaseSlot _ slot).sideOf side)
  rw [releaseSlot_sideOf, ← unlinked side]
  refine setSide_sameBand ?_ side
  rw [unlinked]
  exact closeLevel_sameBand ..

theorem removeAt_sameBand (book : MatchingBook) (handle : Handle) (side : Side) :
    SideIndex.SameBand (book.sideOf side) ((book.removeAt handle).1.sideOf side) := by
  unfold removeAt
  simp only
  split
  · exact SideIndex.SameBand.refl _
  · exact detachFrom_sameBand ..

theorem removeFront_sameBand (book : MatchingBook) (front side : Side) :
    SideIndex.SameBand (book.sideOf side) ((book.removeFront front).sideOf side) := by
  rw [removeFront_eq]
  exact detachFrom_sameBand ..

end Frames

/-- The level prices the loops of `crossable_quantity` and `all_of` visit, as the machine finds them. -/
def machineLevelPrices (book : MatchingBook) (bookSide : Side) (fuel : Nat) : List Int :=
  let index := book.sideOf bookSide
  OrderedWalk.walk index.machineNextPrice fuel (if index.empty then none else some index.machineBestPrice)

/-- Nothing leaves the signed type at the prices that rest, and the walks advance. -/
structure BandSafe (book : MatchingBook) : Prop where
  reads : ∀ side, (book.sideOf side).ReadsInRange
  nearest : ∀ side price, (book.sideOf side).Rests price →
    SideIndex.IsBest? side {other | (book.sideOf side).Rests other ∧ side.Before price other}
      ((book.sideOf side).machineNextPrice price)
  walks : ∀ side, book.machineLevelPrices side book.liveOrderCount = book.levelPrices side
  visits : ∀ side fuel, book.liveOrderCount ≤ fuel →
    (book.machineLevelPrices side fuel).Pairwise side.Before ∧
      ∀ price, price ∈ book.machineLevelPrices side fuel ↔ (book.sideOf side).Rests price

section Walks
variable {book : MatchingBook}

theorem pricesFrom_eq_walk (index : SideIndex) (fuel : Nat) (start : Option Int) :
    pricesFrom index fuel start = OrderedWalk.walk index.nextPrice fuel start := by
  induction fuel generalizing start with
  | zero => rfl
  | succ fuel ih =>
    cases start with
    | none => rfl
    | some price => rw [pricesFrom, OrderedWalk.walk, ih]

theorem nearest_of_isBest {side : Side} {members : Set Int} {price : Int} {next : Option Int}
    (best : SideIndex.IsBest? side {other | other ∈ members ∧ side.Before price other} next) :
    OrderedWalk.Nearest side.Before members price next := by
  cases next with
  | none => exact fun other member before => best other ⟨member, before⟩
  | some following => exact ⟨best.member, fun other member before => best.first other ⟨member, before⟩⟩

/-- The prices at which a side's orders rest. -/
def restingPrices (book : MatchingBook) (side : Side) : Finset Int := ((book.queues side).map Placed.price).toFinset

theorem mem_restingPrices (wf : book.WellFormed) (side : Side) (price : Int) :
    price ∈ book.restingPrices side ↔ (book.sideOf side).Rests price := by
  obtain ⟨free, holds⟩ := wf
  rw [holds.rests_iff, restingPrices, List.mem_toFinset, List.mem_map]

theorem card_restingPrices (wf : book.WellFormed) (side : Side) :
    (book.restingPrices side).card ≤ book.liveOrderCount := by
  obtain ⟨free, holds⟩ := wf
  refine (List.toFinset_card_le _).trans ?_
  rw [List.length_map]
  exact holds.length_le side

theorem nextPrice_isBest (wf : book.WellFormed) (side : Side) (price : Int) :
    SideIndex.IsBest? side {other | (book.sideOf side).Rests other ∧ side.Before price other}
      ((book.sideOf side).nextPrice price) := by
  obtain ⟨free, holds⟩ := wf
  have next := SideIndex.nextPrice_isBest (holds.index side) price
  rwa [holds.side side] at next

theorem bestPriceOf_isBest (wf : book.WellFormed) (side : Side) :
    ∀ first ∈ book.bestPriceOf side, SideIndex.IsBest side {price | (book.sideOf side).Rests price} first := by
  obtain ⟨free, holds⟩ := wf
  intro first best
  unfold bestPriceOf at best
  cases empty : (book.sideOf side).empty with
  | true => simp [empty] at best
  | false =>
    have isBest := SideIndex.bestPrice_isBest (holds.index side) empty
    simp only [empty, Bool.false_eq_true, if_false, Option.mem_some_iff] at best
    rw [holds.side side, best] at isBest
    exact isBest

/-- The exact walk of a side visits every price that rests, best first. -/
theorem walk_visits (wf : book.WellFormed) (side : Side) {fuel : Nat} (enough : book.liveOrderCount ≤ fuel) :
    (OrderedWalk.walk (book.sideOf side).nextPrice fuel (book.bestPriceOf side)).Pairwise side.Before ∧
      ∀ price, price ∈ OrderedWalk.walk (book.sideOf side).nextPrice fuel (book.bestPriceOf side) ↔
        (book.sideOf side).Rests price := by
  have rests := mem_restingPrices wf side
  cases start : book.bestPriceOf side with
  | none =>
    rw [OrderedWalk.walk_none]
    refine ⟨List.Pairwise.nil, fun price => iff_of_false (List.not_mem_nil) ?_⟩
    obtain ⟨free, holds⟩ := wf
    rw [holds.bestPriceOf_eq, Option.map_eq_none_iff, List.head?_eq_none_iff] at start
    rw [holds.rests_iff, start]
    simp
  | some first =>
    have best := bestPriceOf_isBest wf side first start
    have nearest : ∀ here ∈ book.restingPrices side, OrderedWalk.Nearest side.Before
        (book.restingPrices side : Set Int) here ((book.sideOf side).nextPrice here) := by
      intro here _
      refine nearest_of_isBest ?_
      simpa only [Finset.mem_coe, rests] using nextPrice_isBest wf side here
    obtain ⟨ordered, visits⟩ := OrderedWalk.walk_all side.Before nearest ((rests first).mpr best.member)
      (fun other member => best.first other ((rests other).mp member)) ((card_restingPrices wf side).trans enough)
    exact ⟨ordered, fun price => (visits price).trans (rests price)⟩

/-- Where the reads are in range, the machine's walk is the exact one. -/
theorem machineLevelPrices_eq (wf : book.WellFormed) {side : Side} (reads : (book.sideOf side).ReadsInRange)
    (fuel : Nat) : book.machineLevelPrices side fuel =
      OrderedWalk.walk (book.sideOf side).nextPrice fuel (book.bestPriceOf side) := by
  obtain ⟨free, holds⟩ := wf.holds
  have steps : ∀ price ∈ {price | (book.sideOf side).Rests price},
      (book.sideOf side).machineNextPrice price = (book.sideOf side).nextPrice price := fun price rests =>
    SideIndex.machineNextPrice_eq (holds.index side).exact.fits (reads.nextPrice price rests)
  have closed : ∀ price ∈ {price | (book.sideOf side).Rests price},
      ∀ following ∈ (book.sideOf side).nextPrice price, following ∈ {price | (book.sideOf side).Rests price} := by
    intro price _ following next
    have best := nextPrice_isBest wf side price
    rw [next] at best
    exact best.member.1
  unfold machineLevelPrices
  simp only [SideIndex.machineBestPrice_eq reads.bestPrice]
  exact OrderedWalk.walk_congr steps closed fuel fun first best => (bestPriceOf_isBest wf side first best).member

theorem bandSafe_of_reads (wf : book.WellFormed) (reads : ∀ side, (book.sideOf side).ReadsInRange) :
    book.BandSafe := by
  refine ⟨reads, fun side price rests => ?_, fun side => ?_, fun side fuel enough => ?_⟩
  · obtain ⟨free, holds⟩ := wf.holds
    rw [SideIndex.machineNextPrice_eq (holds.index side).exact.fits ((reads side).nextPrice price rests)]
    exact nextPrice_isBest wf side price
  · rw [machineLevelPrices_eq wf (reads side), levelPrices, pricesFrom_eq_walk]
    rfl
  · rw [machineLevelPrices_eq wf (reads side)]
    exact walk_visits wf side enough

end Walks

/-- Both bands lie inside the signed type, within reach of whatever rests on their side. -/
structure Banded (book : MatchingBook) : Prop where
  band : ∀ side, (book.sideOf side).BandInRange
  reach : ∀ side price, (book.sideOf side).Rests price → (book.sideOf side).Reaches price

section Banded
variable {book after : MatchingBook}

theorem make_banded (bandTicks : Nat) : (make bandTicks).Banded where
  band side := by
    constructor <;> cases side <;> simp [make, sideOf, SideIndex.make]
  reach side price rests := by
    have none : ((make bandTicks).sideOf side).level? price = none := by
      cases side <;> exact SideIndex.make_level? _ bandTicks price
    simp [SideIndex.Rests, none] at rests

theorem Banded.reads (wf : book.WellFormed) (banded : book.Banded) (side : Side) :
    (book.sideOf side).ReadsInRange := by
  obtain ⟨free, holds⟩ := wf
  exact (banded.band side).reads (holds.index side) (banded.reach side)

/-- A step that moves no band and adds no price. -/
theorem Banded.keeps (banded : book.Banded) (same : ∀ side, SideIndex.SameBand (book.sideOf side) (after.sideOf side))
    (fewer : ∀ side price, (after.sideOf side).Rests price → (book.sideOf side).Rests price) : after.Banded where
  band side := (banded.band side).same (same side)
  reach side price rests := (banded.reach side price (fewer side price rests)).same (same side)

theorem rests_add (wf : book.WellFormed) (order : BookOrder) (side : Side) (price : Int) :
    ((book.add order).1.sideOf side).Rests price ↔
      (side = order.side ∧ price = order.price) ∨ (book.sideOf side).Rests price := by
  obtain ⟨afterWf, queues, _⟩ := add_spec wf order
  obtain ⟨free, holds⟩ := wf
  obtain ⟨_, added⟩ := afterWf
  rw [added.rests_iff, holds.rests_iff, queues]
  simp only [mem_enqueue]
  constructor
  · rintro ⟨placed, ⟨here, rfl⟩ | member, rfl⟩
    · exact Or.inl ⟨here, rfl⟩
    · exact Or.inr ⟨placed, member, rfl⟩
  · rintro (⟨here, rfl⟩ | ⟨placed, member, rfl⟩)
    · exact ⟨_, Or.inl ⟨here, rfl⟩, rfl⟩
    · exact ⟨placed, Or.inr member, rfl⟩

theorem rests_of_remove (wf : book.WellFormed) (afterWf : after.WellFormed) {slot : Nat}
    (queues : after.queues = book.queues.remove slot) (side : Side) (price : Int)
    (rests : (after.sideOf side).Rests price) : (book.sideOf side).Rests price := by
  obtain ⟨free, holds⟩ := wf
  obtain ⟨_, left⟩ := afterWf
  rw [left.rests_iff, queues] at rests
  obtain ⟨placed, member, same⟩ := rests
  exact (holds.rests_iff side price).mpr ⟨placed, List.mem_of_mem_filter member, same⟩

theorem Banded.add (wf : book.WellFormed) (banded : book.Banded) {order : BookOrder} (positive : 0 < order.price)
    (bounded : order.price ≤ 2 ^ 63 - 1) (fits : (book.sideOf order.side).Fits order.price) :
    (book.add order).1.Banded := by
  obtain ⟨free, holds⟩ := wf.holds
  have own := add_ownSide book order
  constructor
  · intro side
    by_cases here : side = order.side
    · rw [here]
      exact ((banded.band order.side).afterLevelFor (holds.index order.side) positive fits).same own
    · rw [add_otherSide book order here]
      exact banded.band side
  · intro side price rests
    rw [rests_add wf] at rests
    by_cases here : side = order.side
    · rw [here] at rests ⊢
      refine SideIndex.Reaches.same ?_ own
      exact SideIndex.Reaches.afterLevelFor (holds.index order.side) (banded.reach order.side) positive bounded fits
        (rests.imp_left And.right)
    · rw [add_otherSide book order here]
      exact banded.reach side price (rests.resolve_left fun both => here both.1)

/-- An order edited in place touches neither index. -/
theorem Banded.edited (banded : book.Banded) (same : ∀ side, after.sideOf side = book.sideOf side) : after.Banded := by
  refine banded.keeps (fun side => ?_) fun side price rests => ?_
  · rw [same]
    exact SideIndex.SameBand.refl _
  · rwa [same] at rests

end Banded

end MatchingBook

/-- The prices the engine admits. -/
def BookOp.Admitted : BookOp → Prop
  | .add order => 0 < order.price ∧ order.price ≤ 2 ^ 63 - 1
  | _ => True

namespace Session

/-- The signed operations an operation makes on its side's index. Erasing a level repeats the
lookup, and an order edited through its handle needs none. -/
def signedIn (session : Session) : BookOp → List Int
  | .add order => (session.book.sideOf order.side).levelForSigned order.price
  | .removeAt arrival =>
      let removed := session.book.orderAt (session.handleOf arrival)
      (session.book.sideOf removed.side).lookupSigned removed.price
  | .reduceAt _ _ => []
  | .setClientOrderIdAt _ _ => []
  | .reduceFront side _ =>
      let index := session.book.sideOf side
      index.bestPriceSigned ++ index.lookupSigned index.bestPrice
  | .removeFront side =>
      let index := session.book.sideOf side
      index.bestPriceSigned ++ index.lookupSigned index.bestPrice

/-- What an operation needs of the state before it. -/
def Fits (session : Session) : BookOp → Prop
  | .add order => (session.book.sideOf order.side).Fits order.price
  | _ => True

instance (session : Session) (op : BookOp) : Decidable (session.Fits op) := by
  cases op <;> unfold Fits <;> infer_instance

def FitsThroughout (session : Session) : List BookOp → Prop
  | [] => True
  | op :: rest => session.Fits op ∧ (session.apply op).FitsThroughout rest

/-- Every operation of the run stays in range, and so does every walk in every state. -/
def SafeThroughout (session : Session) : List BookOp → Prop
  | [] => session.book.BandSafe
  | op :: rest =>
      session.book.BandSafe ∧ (∀ value ∈ session.signedIn op, Rounding.InRange value) ∧
        (session.apply op).SafeThroughout rest

end Session

section Runs
variable {session : Session} {reference : LevelBook}

/-- The front operations read the best price, and a lookup is made of it. -/
theorem Agrees.front_inRange (agrees : Agrees session reference) (reads : ∀ side, (session.book.sideOf side).ReadsInRange)
    {side : Side} (some : (reference.front side).isSome) :
    let index := session.book.sideOf side
    ∀ value ∈ index.bestPriceSigned ++ index.lookupSigned index.bestPrice, Rounding.InRange value := by
  intro index value member
  obtain ⟨first, front⟩ := Option.isSome_iff_exists.mp some
  obtain ⟨rest, contents, _⟩ := agrees.front front
  obtain ⟨free, holds⟩ := agrees.wellFormed
  rcases List.mem_append.mp member with best | looked
  · exact (reads side).bestPrice value best
  · have rests := SideIndex.bestPrice_isBest (holds.index side) (holds.occupied_of_cons contents)
    exact (reads side).lookup _ rests.member value looked

/-- One step of the run: its own operations, and the bands it leaves. -/
theorem Agrees.banded_apply (agrees : Agrees session reference) {op : BookOp} (allowed : reference.Allows op)
    (admitted : op.Admitted) (banded : session.book.Banded) (fits : session.Fits op) :
    (∀ value ∈ session.signedIn op, Rounding.InRange value) ∧ (session.apply op).book.Banded := by
  have wf := agrees.wellFormed
  have reads := banded.reads wf
  cases op with
  | add order =>
    obtain ⟨free, holds⟩ := wf.holds
    exact ⟨(banded.band order.side).levelFor (holds.index order.side) admitted.1 admitted.2 fits,
      banded.add wf admitted.1 admitted.2 fits⟩
  | removeAt arrival =>
    obtain ⟨order, found⟩ := Option.isSome_iff_exists.mp allowed
    obtain ⟨afterWf, queues, _⟩ := MatchingBook.removeAt_spec wf (agrees.live found)
    refine ⟨fun value member => ?_,
      banded.keeps (MatchingBook.removeAt_sameBand _ _) (MatchingBook.rests_of_remove wf afterWf queues)⟩
    obtain ⟨free, holds⟩ := wf
    have rests := (holds.rests_iff order.side order.price).mpr ⟨_, agrees.live found, rfl⟩
    have removed : session.book.orderAt (session.handleOf arrival) = order := agrees.orderAt found
    simp only [Session.signedIn, removed] at member
    exact (reads order.side).lookup order.price rests value member
  | reduceAt arrival quantity =>
    exact ⟨fun _ member => absurd member List.not_mem_nil, banded.edited fun side => by cases side <;> rfl⟩
  | setClientOrderIdAt arrival clientOrderId =>
    exact ⟨fun _ member => absurd member List.not_mem_nil, banded.edited fun side => by cases side <;> rfl⟩
  | reduceFront side quantity =>
    exact ⟨agrees.front_inRange reads allowed, banded.edited fun other => by cases other <;> rfl⟩
  | removeFront side =>
    obtain ⟨first, front⟩ := Option.isSome_iff_exists.mp allowed
    obtain ⟨rest, contents, _⟩ := agrees.front front
    obtain ⟨afterWf, queues⟩ := MatchingBook.removeFront_spec wf contents
    exact ⟨agrees.front_inRange reads allowed, banded.keeps (MatchingBook.removeFront_sameBand _ side)
      (MatchingBook.rests_of_remove wf afterWf queues)⟩

/-- A step whose own operations and next state are in range fitted. -/
theorem Agrees.fits_of_inRange (agrees : Agrees session reference) {op : BookOp}
    (inRange : ∀ value ∈ session.signedIn op, Rounding.InRange value)
    (after : ∀ side, ((session.apply op).book.sideOf side).ReadsInRange) : session.Fits op := by
  cases op with
  | add order =>
    obtain ⟨⟨free, added⟩, _⟩ := MatchingBook.add_spec agrees.wellFormed order
    have rests := (MatchingBook.rests_add agrees.wellFormed order order.side order.price).mpr (Or.inl ⟨rfl, rfl⟩)
    exact SideIndex.fits_of_inRange inRange (added.index order.side) (MatchingBook.add_ownSide session.book order)
      rests (after order.side)
  | _ => trivial

theorem Session.SafeThroughout.here {ops : List BookOp} (safe : session.SafeThroughout ops) : session.book.BandSafe := by
  cases ops with
  | nil => exact safe
  | cons op rest => exact safe.1

/-- A run from a banded book is safe exactly when every arrival of it fits. -/
theorem Agrees.safeThroughout_iff (agrees : Agrees session reference) (banded : session.book.Banded)
    {ops : List BookOp} (allowed : reference.AllowsAll ops) (admitted : ∀ op ∈ ops, op.Admitted) :
    session.SafeThroughout ops ↔ session.FitsThroughout ops := by
  induction ops generalizing session reference with
  | nil => exact iff_of_true (MatchingBook.bandSafe_of_reads agrees.wellFormed (banded.reads agrees.wellFormed)) trivial
  | cons op rest ih =>
    have here := MatchingBook.bandSafe_of_reads agrees.wellFormed (banded.reads agrees.wellFormed)
    have later : ∀ op ∈ rest, op.Admitted := fun op member => admitted op (List.mem_cons_of_mem _ member)
    have ownAdmitted := admitted op (List.mem_cons_self ..)
    constructor
    · rintro ⟨_, inRange, safe⟩
      have fits := agrees.fits_of_inRange inRange safe.here.reads
      obtain ⟨_, bandedAfter⟩ := agrees.banded_apply allowed.1 ownAdmitted banded fits
      exact ⟨fits, (ih (agrees.apply allowed.1) bandedAfter allowed.2 later).mp safe⟩
    · rintro ⟨fits, fitsAfter⟩
      obtain ⟨inRange, bandedAfter⟩ := agrees.banded_apply allowed.1 ownAdmitted banded fits
      exact ⟨here, inRange, (ih (agrees.apply allowed.1) bandedAfter allowed.2 later).mpr fitsAfter⟩

end Runs

/-- Whatever the band, the signed arithmetic of a run stays in range and its walks advance exactly
when every arrival fits: past the price that anchors a band its upper half has to fit in the
type, and from a band that starts below zero every later price has to be within reach. -/
theorem band_arithmetic_safe_iff_fits (instrumentCount byteBudget : Nat) (ops : List BookOp)
    (allowed : LevelBook.AllowsAll {} ops) (admitted : ∀ op ∈ ops, op.Admitted) :
    (Session.start (MatchingBook.bandFor instrumentCount byteBudget)).SafeThroughout ops ↔
      (Session.start (MatchingBook.bandFor instrumentCount byteBudget)).FitsThroughout ops :=
  (start_agrees (bandFor_fits instrumentCount byteBudget)).safeThroughout_iff (MatchingBook.make_banded _)
    allowed admitted

theorem band_arithmetic_safe_near_middle :
    let bid : BookOrder := { (default : BookOrder) with price := 100, remainingQuantity := 5 }
    let far : BookOrder := { (default : BookOrder) with price := 90000, remainingQuantity := 2 }
    (Session.start (MatchingBook.bandFor 1 (8 * 2 ^ 20))).SafeThroughout [.add bid, .add far, .removeAt 0] := by
  intro bid far
  refine (band_arithmetic_safe_iff_fits 1 (8 * 2 ^ 20) [.add bid, .add far, .removeAt 0] ⟨trivial, trivial, rfl, trivial⟩
    fun op member => ?_).mpr ⟨?_, ?_, trivial, trivial⟩
  · simp only [List.mem_cons, List.not_mem_nil, or_false] at member
    rcases member with rfl | rfl | rfl
    · exact ⟨by decide, by decide⟩
    · exact ⟨by decide, by decide⟩
    · trivial
  · decide +kernel
  · decide +kernel

/-- A bid at the largest price the engine admits puts the end of its band past the type, and the
walk from it never leaves that price. -/
theorem band_overflows_past_anchor :
    let bid : BookOrder := { (default : BookOrder) with price := 2 ^ 63 - 1, remainingQuantity := 1 }
    let session := Session.start (MatchingBook.bandFor 1 (8 * 2 ^ 20))
    LevelBook.AllowsAll {} [.add bid] ∧ (∀ op ∈ [BookOp.add bid], op.Admitted) ∧
      ((session.run [.add bid]).book.sideOf .buy).machineNextPrice (2 ^ 63 - 1) = some (2 ^ 63 - 1) ∧
      ¬ session.SafeThroughout [.add bid] := by
  intro bid session
  refine ⟨⟨trivial, trivial⟩, fun op member => ?_, by decide +kernel, fun safe => ?_⟩
  · rw [List.mem_singleton.mp member]
    exact ⟨by decide, by decide⟩
  · have rests : ((session.apply (.add bid)).book.sideOf .buy).Rests (2 ^ 63 - 1) := by
      unfold SideIndex.Rests
      decide +kernel
    have last := (safe.2.2.reads .buy).nextPrice _ rests (2 ^ 63 + 4095) (by decide +kernel)
    exact absurd last (by decide)

end Mdh.Matching
