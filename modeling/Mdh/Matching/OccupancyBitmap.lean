import Mdh.Matching.SideIndex

/-! The occupancy bitmap of a price ladder: the summaries stay exact under every
set and clear, and the four searches return the extreme occupied tick. -/

namespace Mdh.Matching.SideIndex
open Mdh.Core Mdh.Lib Mdh.Lib.WordBits

theorem shiftRight_six (tick : Nat) : tick >>> 6 = tick / 64 := Nat.shiftRight_eq_div_pow tick 6

theorem and_sixtyThree (tick : Nat) : tick &&& 63 = tick % 64 := Nat.and_two_pow_sub_one_eq_mod tick 6

theorem shiftLeft_six_or (word bit : Nat) (bound : bit < 64) : word <<< 6 ||| bit = 64 * word + bit := by
  rw [← Nat.shiftLeft_add_eq_or_of_lt (i := 6) bound, Nat.shiftLeft_eq]
  omega

/-- A level rests at this tick of the ladder. -/
def Occupied (index : SideIndex) (tick : Nat) : Prop := rowBit index.occupancy tick = true

/-- The three levels agree: a summary bit is set exactly when the word below it
is not zero, and no tick past the band is occupied. -/
structure BitmapExact (index : SideIndex) : Prop where
  fits : index.bandTicks ≤ 64 ^ 3
  midIndexed : Indexes (rowBit index.midSummary) index.occupancy
  summaryIndexed : Indexes index.summary.getLsbD index.midSummary
  inside : ∀ tick, index.Occupied tick → tick < index.bandTicks

/-- The bitmap has been allocated for the whole band. -/
structure BitmapSized (index : SideIndex) : Prop where
  occupancy : index.occupancy.length = wordsFor index.bandTicks
  midSummary : index.midSummary.length = wordsFor (wordsFor index.bandTicks)

theorem isOccupied_iff (index : SideIndex) (tick : Nat) :
    index.isOccupied tick = true ↔ index.Occupied tick := by
  have bound : tick % 64 < 64 := Nat.mod_lt _ (by decide)
  unfold isOccupied Occupied rowBit
  rw [shiftRight_six, and_sixtyThree, bne_iff_ne, ne_zero_iff]
  simp only [BitVec.getLsbD_and, getLsbD_oneBit _ _ bound, Bool.and_eq_true, decide_eq_true_eq]
  exact ⟨fun ⟨i, set, same⟩ => same ▸ set, fun set => ⟨_, set, rfl⟩⟩

section Sized
variable {index : SideIndex} {tick : Nat}

theorem BitmapSized.word_lt (sized : index.BitmapSized) (inBand : tick < index.bandTicks) :
    tick / 64 < index.occupancy.length := by
  rw [sized.occupancy, wordsFor]
  omega

theorem BitmapSized.mid_lt (sized : index.BitmapSized) (inBand : tick < index.bandTicks) :
    tick / 64 / 64 < index.midSummary.length := by
  rw [sized.midSummary, wordsFor, wordsFor]
  omega

theorem BitmapExact.mid_lt (exact : index.BitmapExact) (inBand : tick < index.bandTicks) :
    tick / 64 / 64 < 64 := by
  have fits := exact.fits
  omega

theorem occupied_setOccupied (sized : index.BitmapSized) (inBand : tick < index.bandTicks) (other : Nat) :
    (index.setOccupied tick).Occupied other ↔ index.Occupied other ∨ other = tick := by
  unfold Occupied setOccupied
  simp only [shiftRight_six, and_sixtyThree]
  rw [rowBit_set_or _ _ _ (sized.word_lt inBand)]
  simp

theorem setOccupied_sized (sized : index.BitmapSized) : (index.setOccupied tick).BitmapSized :=
  ⟨by simpa [setOccupied] using sized.occupancy, by simpa [setOccupied] using sized.midSummary⟩

/-- Marking a tick marks its word and that word's summary. -/
theorem setOccupied_exact (exact : index.BitmapExact) (sized : index.BitmapSized)
    (inBand : tick < index.bandTicks) : (index.setOccupied tick).BitmapExact where
  fits := exact.fits
  midIndexed := by
    simp only [setOccupied, shiftRight_six, and_sixtyThree]
    apply exact.midIndexed.set_nonzero (sized.word_lt inBand)
      (or_oneBit_ne_zero _ _ (Nat.mod_lt _ (by decide)))
    intro word
    rw [rowBit_set_or _ _ _ (sized.mid_lt inBand)]
  summaryIndexed := by
    simp only [setOccupied, shiftRight_six, and_sixtyThree]
    apply exact.summaryIndexed.set_nonzero (sized.mid_lt inBand)
      (or_oneBit_ne_zero _ _ (Nat.mod_lt _ (by decide)))
    intro mid
    rw [getLsbD_or_oneBit _ _ _ (exact.mid_lt inBand)]
  inside := by
    intro other occupied
    rcases (occupied_setOccupied sized inBand other).mp occupied with before | rfl
    · exact exact.inside other before
    · exact inBand

theorem clearOccupied_occupancy (index : SideIndex) (tick : Nat) :
    (index.clearOccupied tick).occupancy = index.occupancy.set (tick / 64)
      (index.occupancy.getD (tick / 64) 0#64 &&& ~~~oneBit (tick % 64)) := by
  simp only [clearOccupied, shiftRight_six, and_sixtyThree]
  split_ifs <;> rfl

theorem occupied_clearOccupied (sized : index.BitmapSized) (inBand : tick < index.bandTicks) (other : Nat) :
    (index.clearOccupied tick).Occupied other ↔ index.Occupied other ∧ other ≠ tick := by
  unfold Occupied
  rw [clearOccupied_occupancy, rowBit_set_and_not _ _ _ (sized.word_lt inBand)]
  simp

theorem clearOccupied_sized (sized : index.BitmapSized) : (index.clearOccupied tick).BitmapSized := by
  refine ⟨?_, ?_⟩
  · rw [clearOccupied_occupancy, List.length_set]
    simp only [clearOccupied]
    split_ifs <;> exact sized.occupancy
  · simp only [clearOccupied]
    split_ifs <;> simpa using sized.midSummary

/-- A clear touches the summaries only when it empties a word, and then exactly
as far up as words keep emptying. -/
theorem clearOccupied_exact (exact : index.BitmapExact) (sized : index.BitmapSized)
    (inBand : tick < index.bandTicks) : (index.clearOccupied tick).BitmapExact := by
  have inside : ∀ other, (index.clearOccupied tick).Occupied other →
      other < (index.clearOccupied tick).bandTicks := by
    intro other occupied
    have below := exact.inside other ((occupied_clearOccupied sized inBand other).mp occupied).1
    simp only [clearOccupied]
    split_ifs <;> exact below
  refine ⟨?_, ?_, ?_, inside⟩
  · simp only [clearOccupied]
    split_ifs <;> exact exact.fits
  · simp only [clearOccupied, shiftRight_six, and_sixtyThree]
    split
    next remains =>
      exact exact.midIndexed.set_same (sized.word_lt inBand) (ne_zero_of_and remains) remains
    next emptied =>
      have unmarked : Indexes (rowBit (index.midSummary.set (tick / 64 / 64)
          (index.midSummary.getD (tick / 64 / 64) 0#64 &&& ~~~oneBit (tick / 64 % 64))))
          (index.occupancy.set (tick / 64)
            (index.occupancy.getD (tick / 64) 0#64 &&& ~~~oneBit (tick % 64))) := by
        rw [not_not.mp emptied]
        apply exact.midIndexed.set_zero (sized.word_lt inBand)
        intro word
        rw [rowBit_set_and_not _ _ _ (sized.mid_lt inBand)]
      split_ifs <;> exact unmarked
  · simp only [clearOccupied, shiftRight_six, and_sixtyThree]
    split
    next remains => exact exact.summaryIndexed
    next emptied =>
      split
      next midEmptied =>
        simp only [midEmptied]
        apply exact.summaryIndexed.set_zero (sized.mid_lt inBand)
        intro mid
        rw [getLsbD_and_not_oneBit _ _ _ (exact.mid_lt inBand)]
      next midRemains =>
        exact exact.summaryIndexed.set_same (sized.mid_lt inBand) (ne_zero_of_and midRemains) midRemains

end Sized

section Search
variable {index : SideIndex} {tick : Nat}

theorem BitmapExact.occupied_of_summary (exact : index.BitmapExact) :
    index.summary ≠ 0#64 ↔ ∃ tick, index.Occupied tick := by
  constructor
  · intro nonzero
    have mid := (exact.summaryIndexed _).mp (isGreatest_highestBit nonzero).1
    have word := (exact.midIndexed _).mp (rowBit_highest mid)
    exact ⟨_, rowBit_highest word⟩
  · rintro ⟨tick, occupied⟩
    exact (ne_zero_iff _).mpr ⟨_, exact.summaryIndexed.of_rowBit (exact.midIndexed.of_rowBit occupied)⟩

theorem BitmapExact.none_occupied (exact : index.BitmapExact) (zero : index.summary = 0#64) (tick : Nat) :
    ¬ index.Occupied tick :=
  fun occupied => exact.occupied_of_summary.mpr ⟨tick, occupied⟩ zero

theorem highestOccupied_isGreatest (exact : index.BitmapExact) (nonzero : index.summary ≠ 0#64) :
    IsGreatest {tick | index.Occupied tick} index.highestOccupied := by
  have words := isGreatest_row exact.summaryIndexed (isGreatest_highestBit nonzero)
  have ticks := isGreatest_row exact.midIndexed words
  simpa only [Occupied, highestOccupied, if_neg nonzero, shiftLeft_six_or _ _ (highestBit_lt _)] using ticks

theorem lowestOccupied_isLeast (exact : index.BitmapExact) (nonzero : index.summary ≠ 0#64) :
    IsLeast {tick | index.Occupied tick} index.lowestOccupied := by
  have words := isLeast_row exact.summaryIndexed (isLeast_lowestBit nonzero)
  have ticks := isLeast_row exact.midIndexed words
  have midNonzero := (exact.summaryIndexed _).mp (isLeast_lowestBit nonzero).1
  have wordNonzero := (exact.midIndexed _).mp words.1
  simpa only [Occupied, lowestOccupied, if_neg nonzero, shiftLeft_six_or _ _ (lowestBit_lt midNonzero),
    shiftLeft_six_or _ _ (lowestBit_lt wordNonzero)] using ticks

/-- Strictly below `tick` the search returns the highest occupied tick, or the
band width when there is none. -/
theorem highestOccupiedBelow_spec (exact : index.BitmapExact) (inBand : tick < index.bandTicks) :
    IsGreatest {other | index.Occupied other ∧ other < tick} (index.highestOccupiedBelow tick) ∨
      index.highestOccupiedBelow tick = index.bandTicks ∧
        ∀ other, index.Occupied other → ¬ other < tick := by
  have midBound := exact.mid_lt inBand
  unfold highestOccupiedBelow
  simp only [shiftRight_six, and_sixtyThree]
  split
  next trivial =>
    refine Or.inr ⟨rfl, fun other occupied => ?_⟩
    rcases trivial with zero | zero
    · exact absurd occupied (exact.none_occupied zero other)
    · omega
  next =>
    split
    next rest =>
      rw [shiftLeft_six_or _ _ (highestBit_lt _)]
      exact Or.inl (isGreatest_below_in_word rest)
    next noRest =>
      have noRest := not_not.mp noRest
      split
      next rest =>
        rw [shiftLeft_six_or _ _ (highestBit_lt _), shiftLeft_six_or _ _ (highestBit_lt _)]
        exact Or.inl (isGreatest_below_by_index exact.midIndexed noRest (isGreatest_below_in_word rest))
      next noMidRest =>
        have noMidRest := not_not.mp noMidRest
        split
        next noSummaryRest =>
          refine Or.inr ⟨rfl, none_below_by_index exact.midIndexed noRest ?_⟩
          exact none_below_by_index exact.summaryIndexed noMidRest
            (none_below_of_and_maskBelow midBound noSummaryRest)
        next rest =>
          rw [shiftLeft_six_or _ _ (highestBit_lt _), shiftLeft_six_or _ _ (highestBit_lt _)]
          refine Or.inl (isGreatest_below_by_index exact.midIndexed noRest ?_)
          exact isGreatest_below_by_index exact.summaryIndexed noMidRest
            (isGreatest_and_maskBelow midBound rest)

/-- Strictly above `tick` the search returns the lowest occupied tick, or the band
width when there is none. -/
theorem lowestOccupiedAbove_spec (exact : index.BitmapExact) :
    IsLeast {other | index.Occupied other ∧ tick < other} (index.lowestOccupiedAbove tick) ∨
      index.lowestOccupiedAbove tick = index.bandTicks ∧
        ∀ other, index.Occupied other → ¬ tick < other := by
  unfold lowestOccupiedAbove
  simp only [shiftRight_six, and_sixtyThree]
  split
  next trivial =>
    refine Or.inr ⟨rfl, fun other occupied => ?_⟩
    rcases trivial with zero | last
    · exact absurd occupied (exact.none_occupied zero other)
    · have inside := exact.inside other occupied
      omega
  next =>
    split
    next rest =>
      rw [shiftLeft_six_or _ _ (lowestBit_lt rest)]
      exact Or.inl (isLeast_above_in_word rest)
    next noRest =>
      have noRest := not_not.mp noRest
      split
      next rest =>
        have word := isLeast_above_in_word rest
        have wordNonzero := (exact.midIndexed _).mp word.1.1
        rw [shiftLeft_six_or _ (lowestBit (_ &&& _)) (lowestBit_lt rest),
          shiftLeft_six_or _ _ (lowestBit_lt wordNonzero)]
        exact Or.inl (isLeast_above_by_index exact.midIndexed noRest word)
      next noMidRest =>
        have noMidRest := not_not.mp noMidRest
        split
        next noSummaryRest =>
          refine Or.inr ⟨rfl, none_above_by_index exact.midIndexed noRest ?_⟩
          exact none_above_by_index exact.summaryIndexed noMidRest
            (none_above_of_and_maskAbove noSummaryRest)
        next rest =>
          have mid := isLeast_and_maskAbove rest
          have midNonzero := (exact.summaryIndexed _).mp mid.1.1
          have word := isLeast_above_by_index exact.summaryIndexed noMidRest mid
          have wordNonzero := (exact.midIndexed _).mp word.1.1
          rw [shiftLeft_six_or _ (lowestBit (index.midSummary.getD _ _)) (lowestBit_lt midNonzero),
            shiftLeft_six_or _ _ (lowestBit_lt wordNonzero)]
          exact Or.inl (isLeast_above_by_index exact.midIndexed noRest word)

end Search

end Mdh.Matching.SideIndex
