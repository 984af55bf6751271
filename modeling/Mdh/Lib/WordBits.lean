import Mathlib.Data.Nat.Bitwise
import Mathlib.Order.Bounds.Basic

/-! Bit search inside one 64-bit word, inside a row of words read as one long
bit array, and from an index row down into the row it indexes. -/

namespace Mdh.Lib.WordBits

abbrev Word := BitVec 64

/-- Index of the highest set bit in a non-zero word. -/
def highestBit (word : Word) : Nat := 63 - word.clz.toNat

/-- Index of the lowest set bit in a non-zero word. -/
def lowestBit (word : Word) : Nat := word.ctz.toNat

/-- Every bit strictly below `bit`. -/
def maskBelow (bit : Nat) : Word :=
  if bit = 0 then 0#64 else BitVec.allOnes 64 >>> (64 - bit)

/-- Every bit strictly above `bit`. -/
def maskAbove (bit : Nat) : Word :=
  if 63 ≤ bit then 0#64 else BitVec.allOnes 64 <<< (bit + 1)

def oneBit (bit : Nat) : Word := 1#64 <<< bit

theorem ne_zero_iff (word : Word) : word ≠ 0#64 ↔ ∃ i, word.getLsbD i = true := by
  constructor
  · intro nonzero
    by_contra none
    apply nonzero
    apply BitVec.eq_of_getLsbD_eq
    intro i _
    simpa using fun set => none ⟨i, set⟩
  · rintro ⟨i, set⟩ rfl
    simp at set

theorem lt_of_getLsbD {word : Word} {i : Nat} (set : word.getLsbD i = true) : i < 64 :=
  BitVec.lt_of_getLsbD set

theorem highestBit_lt (word : Word) : highestBit word < 64 := by
  unfold highestBit
  omega

theorem lowestBit_lt {word : Word} (nonzero : word ≠ 0#64) : lowestBit word < 64 :=
  lt_of_getLsbD (BitVec.getLsbD_true_ctz_of_ne_zero nonzero)

theorem isGreatest_highestBit {word : Word} (nonzero : word ≠ 0#64) :
    IsGreatest {i | word.getLsbD i = true} (highestBit word) := by
  constructor
  · simpa [highestBit] using BitVec.getLsbD_true_clz_of_ne_zero (by decide) nonzero
  · intro i set
    by_contra above
    have small : word.toNat < 2 ^ i := by
      apply lt_of_lt_of_le (BitVec.toNat_lt_two_pow_sub_clz (x := word))
      apply Nat.pow_le_pow_right (by decide)
      unfold highestBit at above
      omega
    have clear : word.getLsbD i = false := Nat.testBit_lt_two_pow small
    simp [clear] at set

theorem isLeast_lowestBit {word : Word} (nonzero : word ≠ 0#64) :
    IsLeast {i | word.getLsbD i = true} (lowestBit word) := by
  constructor
  · exact BitVec.getLsbD_true_ctz_of_ne_zero nonzero
  · intro i set
    by_contra below
    have clear : word.getLsbD i = false :=
      BitVec.getLsbD_false_of_lt_ctz (by unfold lowestBit at below; omega)
    simp [clear] at set

theorem getLsbD_maskBelow (bit i : Nat) (bound : bit < 64) :
    (maskBelow bit).getLsbD i = decide (i < bit) := by
  unfold maskBelow
  split
  next zero => simp [zero]
  next positive =>
    simp only [BitVec.getLsbD_ushiftRight, BitVec.getLsbD_allOnes, decide_eq_decide]
    omega

theorem getLsbD_maskAbove (bit i : Nat) :
    (maskAbove bit).getLsbD i = decide (bit < i ∧ i < 64) := by
  unfold maskAbove
  split
  next high =>
    simp only [BitVec.getLsbD_zero, Bool.false_eq, decide_eq_false_iff_not]
    omega
  next low =>
    simp only [BitVec.getLsbD_shiftLeft, BitVec.getLsbD_allOnes]
    grind

theorem getLsbD_oneBit (bit i : Nat) (bound : bit < 64) :
    (oneBit bit).getLsbD i = decide (i = bit) := by
  simp only [oneBit, BitVec.getLsbD_shiftLeft, BitVec.getLsbD_one]
  grind

theorem getLsbD_or_oneBit (word : Word) (bit i : Nat) (bound : bit < 64) :
    (word ||| oneBit bit).getLsbD i = (word.getLsbD i || decide (i = bit)) := by
  rw [BitVec.getLsbD_or, getLsbD_oneBit bit i bound]

theorem getLsbD_and_not_oneBit (word : Word) (bit i : Nat) (bound : bit < 64) :
    (word &&& ~~~oneBit bit).getLsbD i = (word.getLsbD i && decide (i ≠ bit)) := by
  rw [BitVec.getLsbD_and, BitVec.getLsbD_not, getLsbD_oneBit bit i bound]
  by_cases set : word.getLsbD i = true
  · simp [lt_of_getLsbD set]
  · simp [set]

theorem or_oneBit_ne_zero (word : Word) (bit : Nat) (bound : bit < 64) : word ||| oneBit bit ≠ 0#64 :=
  (ne_zero_iff _).mpr ⟨bit, by rw [getLsbD_or_oneBit word bit bit bound]; simp⟩

theorem ne_zero_of_and {word mask : Word} (nonzero : word &&& mask ≠ 0#64) : word ≠ 0#64 := by
  rintro rfl
  simp at nonzero

/-- Searching a masked word finds the extreme bit strictly below the mask's edge. -/
theorem isGreatest_and_maskBelow {word : Word} {bit : Nat} (bound : bit < 64)
    (nonzero : word &&& maskBelow bit ≠ 0#64) :
    IsGreatest {i | word.getLsbD i = true ∧ i < bit} (highestBit (word &&& maskBelow bit)) := by
  have found := isGreatest_highestBit nonzero
  simpa only [BitVec.getLsbD_and, getLsbD_maskBelow _ _ bound, Bool.and_eq_true,
    decide_eq_true_eq] using found

theorem isLeast_and_maskAbove {word : Word} {bit : Nat} (nonzero : word &&& maskAbove bit ≠ 0#64) :
    IsLeast {i | word.getLsbD i = true ∧ bit < i} (lowestBit (word &&& maskAbove bit)) := by
  have found := isLeast_lowestBit nonzero
  have same : {i | (word &&& maskAbove bit).getLsbD i = true} =
      {i | word.getLsbD i = true ∧ bit < i} := by
    ext i
    simp only [Set.mem_ofPred_eq, BitVec.getLsbD_and, getLsbD_maskAbove, Bool.and_eq_true,
      decide_eq_true_eq]
    exact ⟨fun h => ⟨h.1, h.2.1⟩, fun h => ⟨h.1, h.2, lt_of_getLsbD h.1⟩⟩
  rwa [same] at found

theorem none_below_of_and_maskBelow {word : Word} {bit : Nat} (bound : bit < 64)
    (zero : word &&& maskBelow bit = 0#64) : ∀ i, word.getLsbD i = true → ¬ i < bit := by
  intro i set below
  have bitSet : (word &&& maskBelow bit).getLsbD i = true := by
    simp [BitVec.getLsbD_and, getLsbD_maskBelow _ _ bound, set, below]
  simp [zero] at bitSet

theorem none_above_of_and_maskAbove {word : Word} {bit : Nat}
    (zero : word &&& maskAbove bit = 0#64) : ∀ i, word.getLsbD i = true → ¬ bit < i := by
  intro i set above
  have bitSet : (word &&& maskAbove bit).getLsbD i = true := by
    simp [getLsbD_maskAbove, set, above, lt_of_getLsbD set]
  simp [zero] at bitSet

/-! Rows of words. -/

/-- Bit `i` of a row, 64 bits a word. Words past the end count as zero. -/
def rowBit (words : List Word) (i : Nat) : Bool := (words.getD (i / 64) 0#64).getLsbD (i % 64)

theorem getD_set (words : List Word) (w v : Nat) (word : Word) (bound : w < words.length) :
    (words.set w word).getD v 0#64 = if v = w then word else words.getD v 0#64 := by
  simp only [List.getD_eq_getElem?_getD, List.getElem?_set]
  grind

theorem rowBit_set_or (words : List Word) (i j : Nat) (bound : i / 64 < words.length) :
    rowBit (words.set (i / 64) (words.getD (i / 64) 0#64 ||| oneBit (i % 64))) j =
      (rowBit words j || decide (j = i)) := by
  unfold rowBit
  rw [getD_set _ _ _ _ bound]
  by_cases same : j / 64 = i / 64
  · rw [if_pos same, getLsbD_or_oneBit _ _ _ (Nat.mod_lt _ (by decide)), same]
    congr 2
    exact propext ⟨fun h => by omega, fun h => by omega⟩
  · have different : j ≠ i := fun h => same (by rw [h])
    simp [if_neg same, different]

theorem rowBit_set_and_not (words : List Word) (i j : Nat) (bound : i / 64 < words.length) :
    rowBit (words.set (i / 64) (words.getD (i / 64) 0#64 &&& ~~~oneBit (i % 64))) j =
      (rowBit words j && decide (j ≠ i)) := by
  unfold rowBit
  rw [getD_set _ _ _ _ bound]
  by_cases same : j / 64 = i / 64
  · rw [if_pos same, getLsbD_and_not_oneBit _ _ _ (Nat.mod_lt _ (by decide)), same]
    congr 2
    exact propext ⟨fun h => by omega, fun h => by omega⟩
  · have different : j ≠ i := fun h => same (by rw [h])
    simp [if_neg same, different]

/-- `upper` marks exactly the words of the row that are not zero. -/
def Indexes (upper : Nat → Bool) (words : List Word) : Prop :=
  ∀ w, upper w = true ↔ words.getD w 0#64 ≠ 0#64

theorem Indexes.of_rowBit {upper : Nat → Bool} {words : List Word} (indexed : Indexes upper words)
    {i : Nat} (set : rowBit words i = true) : upper (i / 64) = true :=
  (indexed _).mpr ((ne_zero_iff _).mpr ⟨i % 64, set⟩)

theorem rowBit_at (words : List Word) (w bit : Nat) (bound : bit < 64) :
    rowBit words (64 * w + bit) = (words.getD w 0#64).getLsbD bit := by
  have quotient : (64 * w + bit) / 64 = w := by omega
  have remainder : (64 * w + bit) % 64 = bit := by omega
  rw [rowBit, quotient, remainder]

theorem rowBit_highest {words : List Word} {w : Nat} (nonzero : words.getD w 0#64 ≠ 0#64) :
    rowBit words (64 * w + highestBit (words.getD w 0#64)) = true := by
  rw [rowBit_at _ _ _ (highestBit_lt _)]
  exact (isGreatest_highestBit nonzero).1

theorem rowBit_lowest {words : List Word} {w : Nat} (nonzero : words.getD w 0#64 ≠ 0#64) :
    rowBit words (64 * w + lowestBit (words.getD w 0#64)) = true := by
  rw [rowBit_at _ _ _ (lowestBit_lt nonzero)]
  exact (isLeast_lowestBit nonzero).1

theorem le_highest_of_word {words : List Word} {i w : Nat} (set : rowBit words i = true)
    (word : i / 64 = w) : i ≤ 64 * w + highestBit (words.getD w 0#64) := by
  subst word
  have le := (isGreatest_highestBit ((ne_zero_iff _).mpr ⟨_, set⟩)).2 set
  omega

theorem lowest_le_of_word {words : List Word} {i w : Nat} (set : rowBit words i = true)
    (word : i / 64 = w) : 64 * w + lowestBit (words.getD w 0#64) ≤ i := by
  subst word
  have le := (isLeast_lowestBit ((ne_zero_iff _).mpr ⟨_, set⟩)).2 set
  omega

/-- The highest bit of a row is in the highest word its index marks. -/
theorem isGreatest_row {upper : Nat → Bool} {words : List Word} (indexed : Indexes upper words)
    {w : Nat} (top : IsGreatest {w | upper w = true} w) :
    IsGreatest {i | rowBit words i = true} (64 * w + highestBit (words.getD w 0#64)) := by
  refine ⟨rowBit_highest ((indexed w).mp top.1), fun i set => ?_⟩
  have le : i / 64 ≤ w := top.2 (indexed.of_rowBit set)
  rcases le.lt_or_eq with lower | same
  · omega
  · exact le_highest_of_word set same

theorem isLeast_row {upper : Nat → Bool} {words : List Word} (indexed : Indexes upper words)
    {w : Nat} (bottom : IsLeast {w | upper w = true} w) :
    IsLeast {i | rowBit words i = true} (64 * w + lowestBit (words.getD w 0#64)) := by
  have nonzero := (indexed w).mp bottom.1
  refine ⟨rowBit_lowest nonzero, fun i set => ?_⟩
  have le : w ≤ i / 64 := bottom.2 (indexed.of_rowBit set)
  rcases le.lt_or_eq with higher | same
  · have bound := lowestBit_lt nonzero
    omega
  · exact lowest_le_of_word set same.symm

/-- First stage of a search below `t`: what is left of `t`'s own word. -/
theorem isGreatest_below_in_word {words : List Word} {t : Nat}
    (rest : words.getD (t / 64) 0#64 &&& maskBelow (t % 64) ≠ 0#64) :
    IsGreatest {i | rowBit words i = true ∧ i < t}
      (64 * (t / 64) + highestBit (words.getD (t / 64) 0#64 &&& maskBelow (t % 64))) := by
  have found := isGreatest_and_maskBelow (Nat.mod_lt t (by decide)) rest
  obtain ⟨bit, within⟩ := found.1
  constructor
  · refine ⟨?_, by omega⟩
    rw [rowBit_at _ _ _ (highestBit_lt _)]
    exact bit
  · intro i ⟨set, below⟩
    have le : i / 64 ≤ t / 64 := Nat.div_le_div_right below.le
    rcases le.lt_or_eq with lower | same
    · omega
    · have inWord := found.2 (show i % 64 ∈ _ from ⟨by rw [← same]; exact set, by omega⟩)
      omega

theorem isLeast_above_in_word {words : List Word} {t : Nat}
    (rest : words.getD (t / 64) 0#64 &&& maskAbove (t % 64) ≠ 0#64) :
    IsLeast {i | rowBit words i = true ∧ t < i}
      (64 * (t / 64) + lowestBit (words.getD (t / 64) 0#64 &&& maskAbove (t % 64))) := by
  have found := isLeast_and_maskAbove rest
  obtain ⟨bit, within⟩ := found.1
  constructor
  · refine ⟨?_, by omega⟩
    rw [rowBit_at _ _ _ (lt_of_getLsbD bit)]
    exact bit
  · intro i ⟨set, above⟩
    have le : t / 64 ≤ i / 64 := Nat.div_le_div_right above.le
    rcases le.lt_or_eq with higher | same
    · have bound := lt_of_getLsbD bit
      omega
    · have inWord := found.2 (show i % 64 ∈ _ from ⟨by rw [same]; exact set, by omega⟩)
      omega

/-- Second stage: `t`'s own word has nothing left, so the answer is the highest
bit of the nearest marked word below it. -/
theorem isGreatest_below_by_index {upper : Nat → Bool} {words : List Word}
    (indexed : Indexes upper words) {t w : Nat}
    (rest : words.getD (t / 64) 0#64 &&& maskBelow (t % 64) = 0#64)
    (nearest : IsGreatest {w | upper w = true ∧ w < t / 64} w) :
    IsGreatest {i | rowBit words i = true ∧ i < t} (64 * w + highestBit (words.getD w 0#64)) := by
  have bound := highestBit_lt (words.getD w 0#64)
  have lower : w < t / 64 := nearest.1.2
  refine ⟨⟨rowBit_highest ((indexed w).mp nearest.1.1), by omega⟩, fun i ⟨set, below⟩ => ?_⟩
  have le : i / 64 ≤ t / 64 := Nat.div_le_div_right below.le
  rcases le.lt_or_eq with other | same
  · have near : i / 64 ≤ w := nearest.2 ⟨indexed.of_rowBit set, other⟩
    rcases near.lt_or_eq with further | inWord
    · omega
    · exact le_highest_of_word set inWord
  · have clear := none_below_of_and_maskBelow (Nat.mod_lt t (by decide)) rest (i % 64)
      (by rw [← same]; exact set)
    omega

theorem isLeast_above_by_index {upper : Nat → Bool} {words : List Word}
    (indexed : Indexes upper words) {t w : Nat}
    (rest : words.getD (t / 64) 0#64 &&& maskAbove (t % 64) = 0#64)
    (nearest : IsLeast {w | upper w = true ∧ t / 64 < w} w) :
    IsLeast {i | rowBit words i = true ∧ t < i} (64 * w + lowestBit (words.getD w 0#64)) := by
  have nonzero := (indexed w).mp nearest.1.1
  have bound := lowestBit_lt nonzero
  have higher : t / 64 < w := nearest.1.2
  refine ⟨⟨rowBit_lowest nonzero, by omega⟩, fun i ⟨set, above⟩ => ?_⟩
  have le : t / 64 ≤ i / 64 := Nat.div_le_div_right above.le
  rcases le.lt_or_eq with other | same
  · have near : w ≤ i / 64 := nearest.2 ⟨indexed.of_rowBit set, other⟩
    rcases near.lt_or_eq with further | inWord
    · omega
    · exact lowest_le_of_word set inWord.symm
  · have clear := none_above_of_and_maskAbove rest (i % 64) (by rw [same]; exact set)
    omega

/-- Both stages empty: no bit of the row lies below `t`. -/
theorem none_below_by_index {upper : Nat → Bool} {words : List Word}
    (indexed : Indexes upper words) {t : Nat}
    (rest : words.getD (t / 64) 0#64 &&& maskBelow (t % 64) = 0#64)
    (none : ∀ w, upper w = true → ¬ w < t / 64) : ∀ i, rowBit words i = true → ¬ i < t := by
  intro i set below
  have le : i / 64 ≤ t / 64 := Nat.div_le_div_right below.le
  rcases le.lt_or_eq with other | same
  · exact none _ (indexed.of_rowBit set) other
  · have clear := none_below_of_and_maskBelow (Nat.mod_lt t (by decide)) rest (i % 64)
      (by rw [← same]; exact set)
    omega

theorem none_above_by_index {upper : Nat → Bool} {words : List Word}
    (indexed : Indexes upper words) {t : Nat}
    (rest : words.getD (t / 64) 0#64 &&& maskAbove (t % 64) = 0#64)
    (none : ∀ w, upper w = true → ¬ t / 64 < w) : ∀ i, rowBit words i = true → ¬ t < i := by
  intro i set above
  have le : t / 64 ≤ i / 64 := Nat.div_le_div_right above.le
  rcases le.lt_or_eq with other | same
  · exact none _ (indexed.of_rowBit set) other
  · have clear := none_above_of_and_maskAbove rest (i % 64) (by rw [same]; exact set)
    omega

/-- Storing a non-zero word marks it. -/
theorem Indexes.set_nonzero {upper : Nat → Bool} {words : List Word} (indexed : Indexes upper words)
    {upper' : Nat → Bool} {w : Nat} {word : Word} (bound : w < words.length) (nonzero : word ≠ 0#64)
    (marked : ∀ v, upper' v = (upper v || decide (v = w))) : Indexes upper' (words.set w word) := by
  intro v
  rw [marked v, getD_set _ _ _ _ bound]
  by_cases same : v = w
  · simp [same, nonzero]
  · simp [same, indexed v]

theorem Indexes.set_zero {upper : Nat → Bool} {words : List Word} (indexed : Indexes upper words)
    {upper' : Nat → Bool} {w : Nat} (bound : w < words.length)
    (unmarked : ∀ v, upper' v = (upper v && decide (v ≠ w))) : Indexes upper' (words.set w 0#64) := by
  intro v
  rw [unmarked v, getD_set _ _ _ _ bound]
  by_cases same : v = w
  · simp [same]
  · simp [same, indexed v]

/-- Replacing a non-zero word by a non-zero word changes no mark. -/
theorem Indexes.set_same {upper : Nat → Bool} {words : List Word} (indexed : Indexes upper words)
    {w : Nat} {word : Word} (bound : w < words.length) (before : words.getD w 0#64 ≠ 0#64)
    (after : word ≠ 0#64) : Indexes upper (words.set w word) := by
  intro v
  rw [getD_set _ _ _ _ bound, indexed v]
  by_cases same : v = w
  · simpa [same, after] using before
  · simp [same]

end Mdh.Lib.WordBits
