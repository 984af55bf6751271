import Mdh.Matching.PriceLevels

/-! The best price and the next price of a side. Each is a merge of two ordered
indexes, and each returns the true extreme whatever the two of them hold. -/

namespace Mdh.Matching.SideIndex
open Mdh.Core Mdh.Lib Mdh.Lib.WordBits

/-- A member of `prices` that no other member comes before. -/
structure IsBest (side : Side) (prices : Set Int) (price : Int) : Prop where
  member : price ∈ prices
  first : ∀ other ∈ prices, ¬ side.Before other price

/-- The merge step both searches make. -/
theorem IsBest.merge {side : Side} {left right : Set Int} {first second : Int}
    (one : IsBest side left first) (two : IsBest side right second) :
    IsBest side (left ∪ right) (if side.Before first second then first else second) := by
  constructor
  · split_ifs
    · exact Or.inl one.member
    · exact Or.inr two.member
  · rintro other (member | member)
    · have h := one.first other member
      split_ifs with before
      · exact h
      · cases side <;> simp only [Side.Before] at * <;> omega
    · have h := two.first other member
      split_ifs with before
      · exact fun earlier => h (earlier.trans before)
      · exact h

theorem IsBest.union_of_left {side : Side} {left right : Set Int} {price : Int}
    (best : IsBest side left price) (none : ∀ other, other ∉ right) : IsBest side (left ∪ right) price :=
  ⟨Or.inl best.member, fun other member => best.first other (member.resolve_right (none other))⟩

theorem IsBest.union_of_right {side : Side} {left right : Set Int} {price : Int}
    (best : IsBest side right price) (none : ∀ other, other ∉ left) : IsBest side (left ∪ right) price :=
  ⟨Or.inr best.member, fun other member => best.first other (member.resolve_left (none other))⟩

/-- Prices with a resting level, through either index. -/
def Rests (index : SideIndex) (price : Int) : Prop := (index.level? price).isSome = true

def ladderedPrices (index : SideIndex) : Set Int := {price | ∃ tick, index.Occupied tick ∧ price = index.priceOf tick}

def spilledPrices (index : SideIndex) : Set Int := {price | (index.overflow.find? price).isSome = true}

section Search
variable {index : SideIndex}

theorem WellFormed.rests_iff (wf : index.WellFormed) (price : Int) :
    index.Rests price ↔ price ∈ index.ladderedPrices ∪ index.spilledPrices := by
  unfold Rests
  rw [wf.level?_isSome_iff]
  constructor
  · rintro (⟨inside, occupied⟩ | spilled)
    · exact Or.inl ⟨_, occupied, (priceOf_tickOf inside).symm⟩
    · exact Or.inr spilled
  · rintro (⟨tick, occupied, rfl⟩ | spilled)
    · refine Or.inl ⟨inBand_priceOf (wf.anchored_of_occupied occupied) (wf.exact.inside tick occupied), ?_⟩
      rw [tickOf_priceOf]
      exact occupied
    · exact Or.inr spilled

theorem isBest_buy_of_isGreatest (index : SideIndex) {ticks : Set Nat} {tick : Nat} (greatest : IsGreatest ticks tick) :
    IsBest .buy {price | ∃ other ∈ ticks, price = index.priceOf other} (index.priceOf tick) := by
  refine ⟨⟨tick, greatest.1, rfl⟩, ?_⟩
  rintro _ ⟨other, member, rfl⟩
  have le := greatest.2 member
  simp only [Side.Before, priceOf]
  omega

theorem isBest_sell_of_isLeast (index : SideIndex) {ticks : Set Nat} {tick : Nat} (least : IsLeast ticks tick) :
    IsBest .sell {price | ∃ other ∈ ticks, price = index.priceOf other} (index.priceOf tick) := by
  refine ⟨⟨tick, least.1, rfl⟩, ?_⟩
  rintro _ ⟨other, member, rfl⟩
  have le := least.2 member
  simp only [Side.Before, priceOf]
  omega

/-- The tick the ladder offers as its best. -/
def bestTick (index : SideIndex) : Nat :=
  match index.side with
  | .buy => index.highestOccupied
  | .sell => index.lowestOccupied

theorem bestTick_of_zero (zero : index.summary = 0#64) : index.bestTick = index.bandTicks := by
  unfold bestTick highestOccupied lowestOccupied
  cases index.side <;> simp [zero]

theorem bestTick_spec (wf : index.WellFormed) (nonzero : index.summary ≠ 0#64) :
    index.bestTick < index.bandTicks ∧
      IsBest index.side index.ladderedPrices (index.priceOf index.bestTick) := by
  unfold bestTick
  cases side : index.side with
  | buy =>
    have greatest := highestOccupied_isGreatest wf.exact nonzero
    exact ⟨wf.exact.inside _ greatest.1, isBest_buy_of_isGreatest index greatest⟩
  | sell =>
    have least := lowestOccupied_isLeast wf.exact nonzero
    exact ⟨wf.exact.inside _ least.1, isBest_sell_of_isLeast index least⟩

theorem spilledBest_spec (spills : index.overflow.isEmpty = false) :
    IsBest index.side index.spilledPrices index.spilledBest := by
  unfold spilledBest
  cases index.side with
  | buy =>
    cases last : index.overflow.lastKey? with
    | none => simp [(index.overflow.lastKey?_eq_none_iff).mp last] at spills
    | some key =>
      have greatest := SortedMap.lastKey?_isGreatest last
      exact ⟨greatest.1, fun other member => not_lt.mpr (greatest.2 member)⟩
  | sell =>
    cases first : index.overflow.firstKey? with
    | none => simp [(index.overflow.firstKey?_eq_none_iff).mp first] at spills
    | some key =>
      have least := SortedMap.firstKey?_isLeast first
      exact ⟨least.1, fun other member => not_lt.mpr (least.2 member)⟩

theorem no_spilled_of_isEmpty (empty : index.overflow.isEmpty = true) (price : Int) :
    price ∉ index.spilledPrices := by
  simp [spilledPrices, (index.overflow.isEmpty_iff).mp empty price]

theorem no_laddered_of_zero (wf : index.WellFormed) (zero : index.summary = 0#64) (price : Int) :
    price ∉ index.ladderedPrices := by
  rintro ⟨tick, occupied, _⟩
  exact wf.exact.none_occupied zero tick occupied

theorem bestPrice_eq (index : SideIndex) :
    index.bestPrice =
      if index.bestTick = index.bandTicks then index.spilledBest
      else if index.overflow.isEmpty then index.priceOf index.bestTick
      else if index.side.Before (index.priceOf index.bestTick) index.spilledBest
        then index.priceOf index.bestTick else index.spilledBest := by
  unfold bestPrice bestTick
  cases index.side <;> rfl

/-- The best price of a side with orders on it rests, and nothing comes before it. -/
theorem bestPrice_isBest (wf : index.WellFormed) (nonempty : index.empty = false) :
    IsBest index.side {price | index.Rests price} index.bestPrice := by
  have same : {price | index.Rests price} = index.ladderedPrices ∪ index.spilledPrices :=
    Set.ext wf.rests_iff
  rw [same, bestPrice_eq]
  by_cases zero : index.summary = 0#64
  · have spills : index.overflow.isEmpty = false := by simpa [empty, zero] using nonempty
    rw [if_pos (bestTick_of_zero zero)]
    exact (spilledBest_spec spills).union_of_right (no_laddered_of_zero wf zero)
  · obtain ⟨inside, laddered⟩ := bestTick_spec wf zero
    rw [if_neg inside.ne]
    cases spills : index.overflow.isEmpty with
    | true => exact laddered.union_of_left (no_spilled_of_isEmpty spills)
    | false => exact laddered.merge (spilledBest_spec spills)

/-- What the ladder offers past `price`. -/
def nextTick (index : SideIndex) (price : Int) : Nat :=
  match index.side with
  | .buy =>
      if price > index.base + index.bandTicks - 1 then index.highestOccupied
      else if price ≤ index.base then index.bandTicks
      else index.highestOccupiedBelow (index.tickOf price)
  | .sell =>
      if price < index.base then index.lowestOccupied
      else if price ≥ index.base + index.bandTicks - 1 then index.bandTicks
      else index.lowestOccupiedAbove (index.tickOf price)

def ladderedNext (index : SideIndex) (price : Int) : Option Int :=
  if index.anchored ∧ index.summary ≠ 0#64 then
    if index.nextTick price ≠ index.bandTicks then some (index.priceOf (index.nextTick price)) else none
  else none

def spilledNext (index : SideIndex) (price : Int) : Option Int :=
  if index.overflow.isEmpty then none
  else match index.side with
    | .buy => index.overflow.lastKeyBelow? price
    | .sell => index.overflow.firstKeyAbove? price

def mergeNext (side : Side) : Option Int → Option Int → Option Int
  | none, spilled => spilled
  | some laddered, none => some laddered
  | some laddered, some spilled => some (if side.Before laddered spilled then laddered else spilled)

theorem nextPrice_eq (index : SideIndex) (price : Int) :
    index.nextPrice price = mergeNext index.side (index.ladderedNext price) (index.spilledNext price) := by
  unfold nextPrice ladderedNext spilledNext nextTick mergeNext
  cases index.side <;> rfl

/-- The members of `prices` strictly worse than `price`. -/
def past (side : Side) (price : Int) (prices : Set Int) : Set Int := {other ∈ prices | side.Before price other}

/-- An optional price is the best of a set, or the set is empty. -/
def IsBest? (side : Side) (prices : Set Int) : Option Int → Prop
  | none => ∀ other, other ∉ prices
  | some price => IsBest side prices price

theorem IsBest?.mergeNext {side : Side} {left right : Set Int} {laddered spilled : Option Int}
    (one : IsBest? side left laddered) (two : IsBest? side right spilled) :
    IsBest? side (left ∪ right) (mergeNext side laddered spilled) := by
  cases laddered with
  | none =>
    cases spilled with
    | none => exact fun other member => member.elim (one other) (two other)
    | some price => exact IsBest.union_of_right two one
  | some first =>
    cases spilled with
    | none => exact IsBest.union_of_left one two
    | some second => exact IsBest.merge one two

theorem nextTick_buy (wf : index.WellFormed) (nonzero : index.summary ≠ 0#64) (side : index.side = .buy)
    (price : Int) :
    IsGreatest {tick | index.Occupied tick ∧ index.priceOf tick < price} (index.nextTick price) ∨
      index.nextTick price = index.bandTicks ∧ ∀ tick, index.Occupied tick → ¬ index.priceOf tick < price := by
  unfold nextTick priceOf
  simp only [side]
  have greatest := highestOccupied_isGreatest wf.exact nonzero
  have inside := wf.exact.inside
  split_ifs with past before
  · refine Or.inl ⟨⟨greatest.1, ?_⟩, fun tick member => greatest.2 member.1⟩
    have below := inside _ greatest.1
    omega
  · exact Or.inr ⟨rfl, fun tick _ => by omega⟩
  · have tickValue : ((index.tickOf price : Nat) : Int) = price - index.base := by unfold tickOf; omega
    have within : ∀ tick : Nat, index.base + (tick : Int) < price ↔ tick < index.tickOf price :=
      fun tick => by omega
    simp only [within]
    exact @highestOccupiedBelow_spec index (index.tickOf price) wf.exact (by omega)

theorem nextTick_sell (wf : index.WellFormed) (nonzero : index.summary ≠ 0#64) (side : index.side = .sell)
    (price : Int) :
    IsLeast {tick | index.Occupied tick ∧ price < index.priceOf tick} (index.nextTick price) ∨
      index.nextTick price = index.bandTicks ∧ ∀ tick, index.Occupied tick → ¬ price < index.priceOf tick := by
  unfold nextTick priceOf
  simp only [side]
  have least := lowestOccupied_isLeast wf.exact nonzero
  have inside := wf.exact.inside
  split_ifs with past before
  · exact Or.inl ⟨⟨least.1, by omega⟩, fun tick member => least.2 member.1⟩
  · refine Or.inr ⟨rfl, fun tick occupied => ?_⟩
    have below := inside tick occupied
    omega
  · have tickValue : ((index.tickOf price : Nat) : Int) = price - index.base := by unfold tickOf; omega
    have within : ∀ tick : Nat, price < index.base + (tick : Int) ↔ index.tickOf price < tick :=
      fun tick => by omega
    simp only [within]
    exact @lowestOccupiedAbove_spec index (index.tickOf price) wf.exact

theorem ladderedNext_spec (wf : index.WellFormed) (price : Int) :
    IsBest? index.side (past index.side price index.ladderedPrices) (index.ladderedNext price) := by
  unfold ladderedNext
  by_cases zero : index.summary = 0#64
  · simp only [zero, ne_eq, not_true_eq_false, and_false, if_false]
    exact fun other member => no_laddered_of_zero wf zero other member.1
  · obtain ⟨tick, occupied⟩ := wf.exact.occupied_of_summary.mp zero
    have anchored := wf.anchored_of_occupied occupied
    simp only [anchored, ne_eq, zero, not_false_eq_true, and_self, if_true]
    cases side : index.side with
    | buy =>
      rcases nextTick_buy wf zero side price with greatest | ⟨none, vacant⟩
      · have inside := wf.exact.inside _ greatest.1.1
        rw [if_pos inside.ne]
        have best := isBest_buy_of_isGreatest index greatest
        refine ⟨⟨⟨_, greatest.1.1, rfl⟩, greatest.1.2⟩, ?_⟩
        rintro _ ⟨⟨other, there, rfl⟩, below⟩
        exact best.first _ ⟨other, ⟨there, below⟩, rfl⟩
      · rw [if_neg (not_not.mpr none)]
        rintro _ ⟨⟨other, there, rfl⟩, below⟩
        exact vacant other there below
    | sell =>
      rcases nextTick_sell wf zero side price with least | ⟨none, vacant⟩
      · have inside := wf.exact.inside _ least.1.1
        rw [if_pos inside.ne]
        have best := isBest_sell_of_isLeast index least
        refine ⟨⟨⟨_, least.1.1, rfl⟩, least.1.2⟩, ?_⟩
        rintro _ ⟨⟨other, there, rfl⟩, above⟩
        exact best.first _ ⟨other, ⟨there, above⟩, rfl⟩
      · rw [if_neg (not_not.mpr none)]
        rintro _ ⟨⟨other, there, rfl⟩, above⟩
        exact vacant other there above

theorem spilledNext_spec (index : SideIndex) (price : Int) :
    IsBest? index.side (past index.side price index.spilledPrices) (index.spilledNext price) := by
  unfold spilledNext
  split_ifs with vacant
  · exact fun other member => no_spilled_of_isEmpty vacant other member.1
  · cases index.side with
    | buy =>
      cases last : index.overflow.lastKeyBelow? price with
      | none => exact fun other member => SortedMap.lastKeyBelow?_eq_none last other member.1 member.2
      | some key =>
        have greatest := SortedMap.lastKeyBelow?_isGreatest last
        exact ⟨greatest.1, fun other member => not_lt.mpr (greatest.2 member)⟩
    | sell =>
      cases first : index.overflow.firstKeyAbove? price with
      | none => exact fun other member => SortedMap.firstKeyAbove?_eq_none first other member.1 member.2
      | some key =>
        have least := SortedMap.firstKeyAbove?_isLeast first
        exact ⟨least.1, fun other member => not_lt.mpr (least.2 member)⟩

/-- From any price the walk steps to the nearest resting price strictly worse, or
stops because there is none. -/
theorem nextPrice_isBest (wf : index.WellFormed) (price : Int) :
    IsBest? index.side {other | index.Rests other ∧ index.side.Before price other} (index.nextPrice price) := by
  have same : {other | index.Rests other ∧ index.side.Before price other} =
      past index.side price index.ladderedPrices ∪ past index.side price index.spilledPrices := by
    ext other
    simp only [past, Set.mem_ofPred_eq, Set.mem_union, wf.rests_iff]
    tauto
  rw [same, nextPrice_eq]
  exact (ladderedNext_spec wf price).mergeNext (spilledNext_spec index price)

end Search

end Mdh.Matching.SideIndex
