import Mathlib.Data.Finset.Basic
import Mdh.Matching.PriceLevels

/-! The occupancy bitmap over a whole run. After any sets and clears inside the band its
summaries are exact, and each search returns the extreme tick of those still marked. -/

namespace Mdh.Matching.SideIndex
open Mdh.Core Mdh.Lib Mdh.Lib.WordBits

/-- The two calls that write the bitmap. -/
inductive OccupancyCall where
  | setOccupied (tick : Nat)
  | clearOccupied (tick : Nat)
  deriving DecidableEq, Repr

namespace OccupancyCall

def tick : OccupancyCall → Nat
  | .setOccupied tick | .clearOccupied tick => tick

/-- What a call does to the set of occupied ticks. -/
def mark (ticks : Finset Nat) : OccupancyCall → Finset Nat
  | .setOccupied tick => insert tick ticks
  | .clearOccupied tick => ticks.erase tick

end OccupancyCall

def call (index : SideIndex) : OccupancyCall → SideIndex
  | .setOccupied tick => index.setOccupied tick
  | .clearOccupied tick => index.clearOccupied tick

def callAll (index : SideIndex) (calls : List OccupancyCall) : SideIndex := calls.foldl call index

/-- The bitmap is exact, allocated for its band, and marks these ticks. -/
structure Marks (index : SideIndex) (bandTicks : Nat) (ticks : Finset Nat) : Prop where
  exact : index.BitmapExact
  sized : index.BitmapSized
  bandTicks : index.bandTicks = bandTicks
  occupied : ∀ tick, index.Occupied tick ↔ tick ∈ ticks

section Runs
variable {index : SideIndex} {bandTicks : Nat} {ticks : Finset Nat}

@[simp] theorem clearOccupied_bandTicks (index : SideIndex) (tick : Nat) :
    (index.clearOccupied tick).bandTicks = index.bandTicks := by
  unfold clearOccupied
  simp only
  split_ifs <;> rfl

@[simp] theorem anchor_bandTicks (index : SideIndex) (price : Int) :
    (index.anchor price).bandTicks = index.bandTicks := by
  unfold anchor
  split <;> rfl

theorem anchor_ladder (index : SideIndex) (price : Int) : (index.anchor price).ladder.isSome := by
  unfold anchor
  split
  next cells allocated => simp [allocated]
  next => rfl

/-- A bitmap starts all clear when its side is first anchored. -/
theorem anchored_marks (side : Side) (price : Int) (fits : bandTicks ≤ 64 ^ 3) :
    ((make side bandTicks).anchor price).Marks bandTicks ∅ := by
  have wf := @anchor_wellFormed (make side bandTicks) price (make_wellFormed side fits) rfl
  have zero : ((make side bandTicks).anchor price).summary = 0#64 := rfl
  refine ⟨wf.exact, wf.sized (anchor_ladder _ _), anchor_bandTicks _ _, fun tick => ?_⟩
  simpa using wf.exact.none_occupied zero tick

theorem Marks.call (marks : index.Marks bandTicks ticks) {call : OccupancyCall} (inBand : call.tick < bandTicks) :
    (index.call call).Marks bandTicks (call.mark ticks) := by
  rw [← marks.bandTicks] at inBand
  cases call with
  | setOccupied tick =>
    refine ⟨setOccupied_exact marks.exact marks.sized inBand, setOccupied_sized marks.sized, marks.bandTicks,
      fun other => ?_⟩
    calc
      (index.setOccupied tick).Occupied other ↔ index.Occupied other ∨ other = tick :=
        occupied_setOccupied marks.sized inBand other
      _ ↔ other ∈ ticks ∨ other = tick := or_congr_left (marks.occupied other)
      _ ↔ other ∈ insert tick ticks := by rw [Finset.mem_insert, or_comm]
  | clearOccupied tick =>
    refine ⟨clearOccupied_exact marks.exact marks.sized inBand, clearOccupied_sized marks.sized,
      (clearOccupied_bandTicks index tick).trans marks.bandTicks, fun other => ?_⟩
    calc
      (index.clearOccupied tick).Occupied other ↔ index.Occupied other ∧ other ≠ tick :=
        occupied_clearOccupied marks.sized inBand other
      _ ↔ other ∈ ticks ∧ other ≠ tick := and_congr_left' (marks.occupied other)
      _ ↔ other ∈ ticks.erase tick := by rw [Finset.mem_erase, and_comm]

theorem Marks.callAll (marks : index.Marks bandTicks ticks) {calls : List OccupancyCall}
    (inBand : ∀ call ∈ calls, call.tick < bandTicks) :
    (index.callAll calls).Marks bandTicks (calls.foldl OccupancyCall.mark ticks) := by
  induction calls generalizing index ticks with
  | nil => exact marks
  | cons call rest ih =>
    apply ih (marks.call (inBand call List.mem_cons_self))
    intro later member
    exact inBand later (List.mem_cons_of_mem _ member)

end Runs

/-- What a search is to return: the extreme one of these ticks, or the band width when
there is none. -/
def Returns (extreme : Set Nat → Nat → Prop) (bandTicks : Nat) (ticks : Set Nat) (tick : Nat) : Prop :=
  extreme ticks tick ∨ ticks = ∅ ∧ tick = bandTicks

/-- What a reader of the bitmap relies on while these ticks are occupied. -/
structure Searches (index : SideIndex) (bandTicks : Nat) (ticks : Finset Nat) : Prop where
  inside : ∀ tick ∈ ticks, tick < bandTicks
  middle : ∀ word, rowBit index.midSummary word = true ↔ index.occupancy.getD word 0#64 ≠ 0#64
  summary : ∀ mid, index.summary.getLsbD mid = true ↔ index.midSummary.getD mid 0#64 ≠ 0#64
  occupied : ∀ tick, index.isOccupied tick = true ↔ tick ∈ ticks
  highest : Returns IsGreatest bandTicks {tick | tick ∈ ticks} index.highestOccupied
  lowest : Returns IsLeast bandTicks {tick | tick ∈ ticks} index.lowestOccupied
  below : ∀ tick < bandTicks,
    Returns IsGreatest bandTicks {other | other ∈ ticks ∧ other < tick} (index.highestOccupiedBelow tick)
  above : ∀ tick < bandTicks,
    Returns IsLeast bandTicks {other | other ∈ ticks ∧ tick < other} (index.lowestOccupiedAbove tick)

section Search
variable {index : SideIndex} {bandTicks : Nat} {ticks : Finset Nat}

theorem Marks.none_of_zero (marks : index.Marks bandTicks ticks) (zero : index.summary = 0#64) :
    {tick | tick ∈ ticks} = ∅ := by
  ext tick
  simpa [marks.occupied] using marks.exact.none_occupied zero tick

theorem Marks.occupied_eq (marks : index.Marks bandTicks ticks) :
    {tick | index.Occupied tick} = {tick | tick ∈ ticks} := by
  ext tick
  exact marks.occupied tick

theorem Marks.highest (marks : index.Marks bandTicks ticks) :
    Returns IsGreatest bandTicks {tick | tick ∈ ticks} index.highestOccupied := by
  by_cases zero : index.summary = 0#64
  · exact Or.inr ⟨marks.none_of_zero zero, by rw [highestOccupied, if_pos zero, marks.bandTicks]⟩
  · left
    rw [← marks.occupied_eq]
    exact highestOccupied_isGreatest marks.exact zero

theorem Marks.lowest (marks : index.Marks bandTicks ticks) :
    Returns IsLeast bandTicks {tick | tick ∈ ticks} index.lowestOccupied := by
  by_cases zero : index.summary = 0#64
  · exact Or.inr ⟨marks.none_of_zero zero, by rw [lowestOccupied, if_pos zero, marks.bandTicks]⟩
  · left
    rw [← marks.occupied_eq]
    exact lowestOccupied_isLeast marks.exact zero

theorem Marks.below (marks : index.Marks bandTicks ticks) {tick : Nat} (inBand : tick < bandTicks) :
    Returns IsGreatest bandTicks {other | other ∈ ticks ∧ other < tick} (index.highestOccupiedBelow tick) := by
  rw [← marks.bandTicks] at inBand
  have found := highestOccupiedBelow_spec marks.exact inBand
  simp only [marks.occupied, marks.bandTicks] at found
  rcases found with greatest | ⟨none, vacant⟩
  · exact Or.inl greatest
  · right
    refine ⟨?_, none⟩
    ext other
    simpa using vacant other

theorem Marks.above (marks : index.Marks bandTicks ticks) (tick : Nat) :
    Returns IsLeast bandTicks {other | other ∈ ticks ∧ tick < other} (index.lowestOccupiedAbove tick) := by
  have found := @lowestOccupiedAbove_spec index tick marks.exact
  simp only [marks.occupied, marks.bandTicks] at found
  rcases found with least | ⟨none, vacant⟩
  · exact Or.inl least
  · right
    refine ⟨?_, none⟩
    ext other
    simpa using vacant other

theorem Marks.searches (marks : index.Marks bandTicks ticks) : index.Searches bandTicks ticks where
  inside tick member := by
    rw [← marks.bandTicks]
    exact marks.exact.inside tick ((marks.occupied tick).mpr member)
  middle := marks.exact.midIndexed
  summary := marks.exact.summaryIndexed
  occupied tick := (index.isOccupied_iff tick).trans (marks.occupied tick)
  highest := marks.highest
  lowest := marks.lowest
  below _ inBand := marks.below inBand
  above tick _ := marks.above tick

end Search

/-- Whatever is set and cleared inside a band, the summaries stay exact and the four searches
return the extreme ticks of those set and not cleared since. -/
theorem occupancy_search (side : Side) (price : Int) {bandTicks : Nat} (fits : bandTicks ≤ 64 ^ 3)
    (calls : List OccupancyCall) (inBand : ∀ call ∈ calls, call.tick < bandTicks) :
    (((make side bandTicks).anchor price).callAll calls).Searches bandTicks
      (calls.foldl OccupancyCall.mark ∅) :=
  ((anchored_marks side price fits).callAll inBand).searches

/-- The widest band, with ticks at both ends of a word and of a group of words. -/
theorem occupancy_search_widest :
    let calls := [.setOccupied 0, .setOccupied 63, .setOccupied 4096, .setOccupied 262143, .clearOccupied 63]
    (((make .buy (64 ^ 3)).anchor 0).callAll calls).Searches (64 ^ 3) (calls.foldl OccupancyCall.mark ∅) :=
  occupancy_search .buy 0 le_rfl _ (by simp [OccupancyCall.tick])

example : (((make .sell 300).anchor 0).callAll [.setOccupied 64, .setOccupied 299, .setOccupied 63,
    .clearOccupied 64]).lowestOccupiedAbove 63 = 299 := by decide +kernel

end Mdh.Matching.SideIndex
