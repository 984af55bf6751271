import Mdh.Core.Rounding
import Mdh.Matching.PriceSearch

/-! The signed arithmetic of a price index: the values its signed operations produce in unbounded
integers. Where a function gives a price, it is given once more as the machine computes it; with all
of its values in range the machine computes the same. -/

namespace Mdh.Matching.SideIndex
open Mdh.Core Mdh.Lib Mdh.Lib.WordBits

/-- `price - band_ticks / 2`, where the band starts once it is anchored at `price`. -/
def baseSigned (index : SideIndex) (price : Int) : List Int := [price - (index.bandTicks / 2 : Nat)]

/-- Nothing is subtracted on a side that is not anchored. -/
def inBandSigned (index : SideIndex) (price : Int) : List Int := if index.anchored then [price - index.base] else []

/-- `static_cast<std::uint32_t>(price - base_)`. -/
def machineTickOf (index : SideIndex) (price : Int) : Nat :=
  (Rounding.machine.signed (price - index.base) % 2 ^ 32).toNat

def tickOfSigned (index : SideIndex) (price : Int) : List Int := [price - index.base]

def machinePriceOf (index : SideIndex) (tick : Nat) : Int := Rounding.machine.signed (index.base + tick)

def priceOfSigned (index : SideIndex) (tick : Nat) : List Int := [index.base + tick]

/-- What the ladder offers past `price`, and `band_ticks` if it offers nothing. -/
def machineNextTick (index : SideIndex) (price : Int) : Nat :=
  let first := index.base
  let last := Rounding.machine.signed (Rounding.machine.signed (index.base + index.bandTicks) - 1)
  match index.side with
  | .buy =>
      if price > last then index.highestOccupied
      else if price ≤ first then index.bandTicks
      else index.highestOccupiedBelow (index.machineTickOf price)
  | .sell =>
      if price < first then index.lowestOccupied
      else if price ≥ last then index.bandTicks
      else index.lowestOccupiedAbove (index.machineTickOf price)

def machineNextPrice (index : SideIndex) (price : Int) : Option Int :=
  let laddered :=
    if index.anchored ∧ index.summary ≠ 0#64 then
      let tick := index.machineNextTick price
      if tick ≠ index.bandTicks then some (index.machinePriceOf tick) else none
    else none
  mergeNext index.side laddered (index.spilledNext price)

/-- The search of the ladder starts from the tick of `price`, and not from an end of the band. -/
def SearchesFrom (index : SideIndex) (price : Int) : Prop :=
  match index.side with
  | .buy => index.base < price ∧ price ≤ index.base + index.bandTicks - 1
  | .sell => index.base ≤ price ∧ price < index.base + index.bandTicks - 1

instance (index : SideIndex) (price : Int) : Decidable (index.SearchesFrom price) := by
  unfold SearchesFrom
  cases index.side <;> infer_instance

def nextPriceSigned (index : SideIndex) (price : Int) : List Int :=
  if index.anchored ∧ index.summary ≠ 0#64 then
    [index.base + index.bandTicks, index.base + index.bandTicks - 1] ++
      (if index.SearchesFrom price then index.tickOfSigned price else []) ++
      if index.nextTick price ≠ index.bandTicks then index.priceOfSigned (index.nextTick price) else []
  else []

/-- A lookup of a price: `in_band`, and in the band its tick. -/
def lookupSigned (index : SideIndex) (price : Int) : List Int :=
  index.inBandSigned price ++ if index.inBand price then index.tickOfSigned price else []

def machineBestPrice (index : SideIndex) : Int :=
  let laddered := index.machinePriceOf index.bestTick
  if index.bestTick = index.bandTicks then index.spilledBest
  else if index.overflow.isEmpty then laddered
  else if index.side.Before laddered index.spilledBest then laddered else index.spilledBest

def bestPriceSigned (index : SideIndex) : List Int :=
  if index.bestTick = index.bandTicks then [] else index.priceOfSigned index.bestTick

/-- `level_for`: the band may move before the lookup. -/
def levelForSigned (index : SideIndex) (price : Int) : List Int :=
  if index.bandTicks ≠ 0 ∧ (index.anchored = false ∨ index.empty = true) then
    index.baseSigned price ++ (index.anchor price).lookupSigned price
  else index.lookupSigned price

section Agreement
variable {index : SideIndex} {price : Int}

theorem machineTickOf_eq (fits : index.bandTicks ≤ 64 ^ 3) (low : index.base ≤ price)
    (high : price < index.base + index.bandTicks) : index.machineTickOf price = index.tickOf price := by
  unfold machineTickOf tickOf
  rw [Rounding.machine_signed_of_fits (by omega) (by omega)]
  omega

theorem machineNextPrice_eq (fits : index.bandTicks ≤ 64 ^ 3)
    (inRange : ∀ value ∈ index.nextPriceSigned price, Rounding.InRange value) :
    index.machineNextPrice price = index.nextPrice price := by
  rw [nextPrice_eq]
  unfold machineNextPrice ladderedNext
  by_cases active : index.anchored ∧ index.summary ≠ 0#64
  · unfold nextPriceSigned at inRange
    rw [if_pos active] at inRange
    have upper := inRange (index.base + index.bandTicks) (by simp)
    have last := inRange (index.base + index.bandTicks - 1) (by simp)
    have tick : index.machineNextTick price = index.nextTick price := by
      unfold machineNextTick nextTick
      rw [upper.machine_signed, last.machine_signed]
      cases index.side <;> dsimp only <;> split_ifs <;> try rfl
      all_goals rw [machineTickOf_eq fits (by omega) (by omega)]
    rw [if_pos active, if_pos active, tick]
    by_cases found : index.nextTick price ≠ index.bandTicks
    · have offered := inRange (index.base + index.nextTick price) (by simp [priceOfSigned, found])
      rw [if_pos found, if_pos found, machinePriceOf, offered.machine_signed, priceOf]
    · rw [if_neg found, if_neg found]
  · rw [if_neg active, if_neg active]

theorem machineBestPrice_eq (inRange : ∀ value ∈ index.bestPriceSigned, Rounding.InRange value) :
    index.machineBestPrice = index.bestPrice := by
  rw [bestPrice_eq]
  unfold machineBestPrice
  by_cases none : index.bestTick = index.bandTicks
  · rw [if_pos none, if_pos none]
  · have offered := inRange (index.base + index.bestTick) (by simp [bestPriceSigned, priceOfSigned, none])
    have same : index.machinePriceOf index.bestTick = index.priceOf index.bestTick := offered.machine_signed
    rw [same]

end Agreement

section Bounds
variable {index : SideIndex}

/-- Every operation a lookup, a search or the best price makes at the prices that rest. -/
structure ReadsInRange (index : SideIndex) : Prop where
  lookup : ∀ price, index.Rests price → ∀ value ∈ index.lookupSigned price, Rounding.InRange value
  nextPrice : ∀ price, index.Rests price → ∀ value ∈ index.nextPriceSigned price, Rounding.InRange value
  bestPrice : ∀ value ∈ index.bestPriceSigned, Rounding.InRange value

/-- The band lies inside the signed type. -/
structure BandInRange (index : SideIndex) : Prop where
  low : index.anchored = true → -64 ^ 3 ≤ index.base
  high : index.anchored = true → index.base + index.bandTicks ≤ 2 ^ 63 - 1

/-- A price whose distance from the base the signed type holds. -/
structure Reaches (index : SideIndex) (price : Int) : Prop where
  positive : 0 < price
  bounded : price ≤ 2 ^ 63 - 1
  near : index.anchored = true → price - index.base ≤ 2 ^ 63 - 1

theorem mem_lookupSigned {price value : Int} (member : value ∈ index.lookupSigned price) :
    value = price - index.base ∧ index.anchored = true := by
  unfold lookupSigned inBandSigned tickOfSigned at member
  rw [List.mem_append] at member
  rcases member with member | member
  · split_ifs at member with anchored
    · exact ⟨List.mem_singleton.mp member, anchored⟩
    · cases member
  · split_ifs at member with inside
    · exact ⟨List.mem_singleton.mp member, ((index.inBand_iff price).mp inside).1⟩
    · cases member

theorem lookupSigned_of_anchored (anchored : index.anchored = true) (price : Int) :
    price - index.base ∈ index.lookupSigned price := by
  simp [lookupSigned, inBandSigned, anchored]

theorem BandInRange.lookup (band : index.BandInRange) {price : Int} (reaches : index.Reaches price) :
    ∀ value ∈ index.lookupSigned price, Rounding.InRange value := by
  intro value member
  obtain ⟨rfl, anchored⟩ := mem_lookupSigned member
  have high := band.high anchored
  have near := reaches.near anchored
  have positive := reaches.positive
  unfold Rounding.InRange
  omega

theorem BandInRange.priceOf (band : index.BandInRange) (anchored : index.anchored = true) {tick : Nat}
    (inside : tick < index.bandTicks) : Rounding.InRange (index.base + tick) := by
  have low := band.low anchored
  have high := band.high anchored
  unfold Rounding.InRange
  omega

theorem BandInRange.bestPrice (wf : index.WellFormed) (band : index.BandInRange) :
    ∀ value ∈ index.bestPriceSigned, Rounding.InRange value := by
  intro value member
  unfold bestPriceSigned priceOfSigned at member
  split_ifs at member with none
  · cases member
  · have nonzero : index.summary ≠ 0#64 := fun zero => none (bestTick_of_zero zero)
    obtain ⟨inside, best⟩ := bestTick_spec wf nonzero
    obtain ⟨tick, occupied, _⟩ := best.member
    rw [List.mem_singleton.mp member]
    exact band.priceOf (wf.anchored_of_occupied occupied) inside

/-- A tick the search offers is an occupied one, so it lies in the band. -/
theorem nextTick_lt (wf : index.WellFormed) (nonzero : index.summary ≠ 0#64) {price : Int}
    (offered : index.nextTick price ≠ index.bandTicks) : index.nextTick price < index.bandTicks := by
  cases side : index.side with
  | buy =>
    rcases nextTick_buy wf nonzero side price with greatest | ⟨none, _⟩
    · exact wf.exact.inside _ greatest.1.1
    · exact absurd none offered
  | sell =>
    rcases nextTick_sell wf nonzero side price with least | ⟨none, _⟩
    · exact wf.exact.inside _ least.1.1
    · exact absurd none offered

theorem mem_nextPriceSigned {price value : Int} (member : value ∈ index.nextPriceSigned price) :
    (index.anchored = true ∧ index.summary ≠ 0#64) ∧
      (value = index.base + index.bandTicks ∨ value = index.base + index.bandTicks - 1 ∨
        (index.SearchesFrom price ∧ value = price - index.base) ∨
        (index.nextTick price ≠ index.bandTicks ∧ value = index.base + index.nextTick price)) := by
  unfold nextPriceSigned at member
  by_cases active : index.anchored = true ∧ index.summary ≠ 0#64
  · refine ⟨active, ?_⟩
    rw [if_pos active, List.mem_append, List.mem_append] at member
    rcases member with (ends | searched) | offered
    · simp only [List.mem_cons, List.not_mem_nil, or_false] at ends
      omega
    · split_ifs at searched with inside
      · exact Or.inr (Or.inr (Or.inl ⟨inside, List.mem_singleton.mp searched⟩))
      · cases searched
    · split_ifs at offered with found
      · exact Or.inr (Or.inr (Or.inr ⟨found, List.mem_singleton.mp offered⟩))
      · cases offered
  · rw [if_neg active] at member
    cases member

theorem end_mem_nextPriceSigned (anchored : index.anchored = true) (nonzero : index.summary ≠ 0#64) (price : Int) :
    index.base + index.bandTicks ∈ index.nextPriceSigned price := by
  simp [nextPriceSigned, anchored, nonzero]

/-- A search that starts in the band has its own tick there. -/
theorem SearchesFrom.inside {price : Int} (searches : index.SearchesFrom price) :
    index.base ≤ price ∧ price < index.base + index.bandTicks := by
  unfold SearchesFrom at searches
  cases side : index.side <;> simp only [side] at searches <;> omega

theorem BandInRange.nextPrice (wf : index.WellFormed) (band : index.BandInRange) (price : Int) :
    ∀ value ∈ index.nextPriceSigned price, Rounding.InRange value := by
  intro value member
  obtain ⟨⟨anchored, nonzero⟩, cases⟩ := mem_nextPriceSigned member
  have low := band.low anchored
  have high := band.high anchored
  have fits := wf.exact.fits
  rcases cases with rfl | rfl | ⟨searches, rfl⟩ | ⟨offered, rfl⟩
  · unfold Rounding.InRange
    omega
  · unfold Rounding.InRange
    omega
  · have inside := searches.inside
    unfold Rounding.InRange
    omega
  · exact band.priceOf anchored (nextTick_lt wf nonzero offered)

theorem BandInRange.reads (wf : index.WellFormed) (band : index.BandInRange)
    (reaches : ∀ price, index.Rests price → index.Reaches price) : index.ReadsInRange where
  lookup price rests := band.lookup (reaches price rests)
  nextPrice price _ := band.nextPrice wf price
  bestPrice := band.bestPrice wf

end Bounds

end Mdh.Matching.SideIndex
