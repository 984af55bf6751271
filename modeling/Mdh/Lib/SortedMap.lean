import Mathlib.Order.Bounds.Basic
import Mathlib.Order.Defs.LinearOrder

/-! An ordered map as its in-order list of entries: lookup, insertion, removal,
and the neighbour searches an ordered container offers. -/

namespace Mdh.Lib

section Entries
variable {κ ν : Type} [LinearOrder κ]

/-- Insert or assign, keeping the entries ascending. -/
def insertEntry (key : κ) (value : ν) : List (κ × ν) → List (κ × ν)
  | [] => [(key, value)]
  | entry :: rest =>
      if key < entry.1 then (key, value) :: entry :: rest
      else if key = entry.1 then (key, value) :: rest
      else entry :: insertEntry key value rest

abbrev Ascending (entries : List (κ × ν)) : Prop :=
  entries.Pairwise (fun first second => first.1 < second.1)

theorem mem_insertEntry {entries : List (κ × ν)} (ascending : Ascending entries) (key : κ) (value : ν)
    (entry : κ × ν) :
    entry ∈ insertEntry key value entries ↔
      entry = (key, value) ∨ entry.1 ≠ key ∧ entry ∈ entries := by
  induction entries with
  | nil => simp [insertEntry]
  | cons head rest ih =>
    obtain ⟨above, tail⟩ := List.pairwise_cons.mp ascending
    unfold insertEntry
    split
    next before =>
      have fresh : ∀ other ∈ head :: rest, other.1 ≠ key := by
        intro other member
        rcases List.mem_cons.mp member with rfl | later
        · exact before.ne'
        · exact (before.trans (above other later)).ne'
      simp only [List.mem_cons] at fresh ⊢
      grind
    next notBefore =>
      split
      next same =>
        have fresh : ∀ other ∈ rest, other.1 ≠ key :=
          fun other member => by rw [same]; exact (above other member).ne'
        simp only [List.mem_cons]
        grind
      next different =>
        simp only [List.mem_cons, ih tail]
        grind

theorem insertEntry_ascending {entries : List (κ × ν)} (ascending : Ascending entries)
    (key : κ) (value : ν) : Ascending (insertEntry key value entries) := by
  induction entries with
  | nil => simp [insertEntry, Ascending]
  | cons head rest ih =>
    obtain ⟨above, tail⟩ := List.pairwise_cons.mp ascending
    unfold insertEntry
    split
    next before =>
      refine List.pairwise_cons.mpr ⟨?_, ascending⟩
      intro other member
      rcases List.mem_cons.mp member with rfl | later
      · exact before
      · exact before.trans (above other later)
    next notBefore =>
      split
      next same => exact List.pairwise_cons.mpr ⟨by simpa [same] using above, tail⟩
      next different =>
        refine List.pairwise_cons.mpr ⟨?_, ih tail⟩
        intro other member
        rcases (mem_insertEntry tail key value other).mp member with rfl | ⟨_, later⟩
        · exact lt_of_le_of_ne (not_lt.mp notBefore) (Ne.symm different)
        · exact above other later

theorem value_unique {entries : List (κ × ν)} (ascending : Ascending entries) {first second : κ × ν}
    (member : first ∈ entries) (other : second ∈ entries) (same : first.1 = second.1) :
    first = second := by
  induction entries with
  | nil => simp at member
  | cons head rest ih =>
    obtain ⟨above, tail⟩ := List.pairwise_cons.mp ascending
    rcases List.mem_cons.mp member with rfl | later <;> rcases List.mem_cons.mp other with rfl | latter
    · rfl
    · exact absurd same (above _ latter).ne
    · exact absurd same (above _ later).ne'
    · exact ih tail later latter

end Entries

/-- A map whose entries are ascending in their keys. -/
structure SortedMap (κ ν : Type) [LinearOrder κ] where
  entries : List (κ × ν)
  ascending : Ascending entries

namespace SortedMap
variable {κ ν : Type} [LinearOrder κ]

def empty : SortedMap κ ν := ⟨[], List.Pairwise.nil⟩

def isEmpty (map : SortedMap κ ν) : Bool := map.entries.isEmpty

def find? (map : SortedMap κ ν) (key : κ) : Option ν :=
  (map.entries.find? (fun entry => entry.1 = key)).map Prod.snd

def insert (map : SortedMap κ ν) (key : κ) (value : ν) : SortedMap κ ν :=
  ⟨insertEntry key value map.entries, insertEntry_ascending map.ascending key value⟩

def erase (map : SortedMap κ ν) (key : κ) : SortedMap κ ν :=
  ⟨map.entries.filter (fun entry => entry.1 ≠ key), map.ascending.filter _⟩

/-- The smallest key. -/
def firstKey? (map : SortedMap κ ν) : Option κ := map.entries.head?.map Prod.fst

/-- The largest key. -/
def lastKey? (map : SortedMap κ ν) : Option κ := map.entries.getLast?.map Prod.fst

/-- The entry just before the lower bound of `key`. -/
def lastKeyBelow? (map : SortedMap κ ν) (key : κ) : Option κ :=
  (map.entries.takeWhile (fun entry => entry.1 < key)).getLast?.map Prod.fst

/-- The upper bound of `key`. -/
def firstKeyAbove? (map : SortedMap κ ν) (key : κ) : Option κ :=
  (map.entries.dropWhile (fun entry => entry.1 ≤ key)).head?.map Prod.fst

theorem find?_eq_some_iff (map : SortedMap κ ν) (key : κ) (value : ν) :
    map.find? key = some value ↔ (key, value) ∈ map.entries := by
  constructor
  · intro found
    obtain ⟨entry, located, rfl⟩ := Option.map_eq_some_iff.mp found
    have same : entry.1 = key := by simpa using List.find?_some located
    rw [← same]
    exact List.mem_of_find?_eq_some located
  · intro member
    cases located : map.entries.find? (fun entry => decide (entry.1 = key)) with
    | none => simpa using List.find?_eq_none.mp located _ member
    | some entry =>
      have same : entry.1 = key := by simpa using List.find?_some located
      have equal := value_unique map.ascending (List.mem_of_find?_eq_some located) member same
      rw [find?, located, equal]
      rfl

theorem find?_isSome_iff (map : SortedMap κ ν) (key : κ) :
    (map.find? key).isSome ↔ ∃ entry ∈ map.entries, entry.1 = key := by
  simp [find?]

@[simp] theorem find?_empty (key : κ) : (empty : SortedMap κ ν).find? key = none := rfl

theorem isEmpty_iff (map : SortedMap κ ν) : map.isEmpty = true ↔ ∀ key, map.find? key = none := by
  simp only [isEmpty, List.isEmpty_iff]
  constructor
  · intro nil key
    simp [find?, nil]
  · intro absent
    by_contra nonempty
    obtain ⟨entry, member⟩ := List.exists_mem_of_ne_nil _ nonempty
    have found := (map.find?_eq_some_iff entry.1 entry.2).mpr member
    simp [absent entry.1] at found

theorem find?_insert (map : SortedMap κ ν) (key other : κ) (value : ν) :
    (map.insert key value).find? other = if other = key then some value else map.find? other := by
  apply Option.ext
  intro found
  rw [find?_eq_some_iff]
  simp only [insert, mem_insertEntry map.ascending, Prod.mk.injEq, ne_eq]
  by_cases same : other = key
  · simp only [same, if_pos, true_and, not_true_eq_false, false_and, or_false, Option.some.injEq,
      eq_comm]
  · simp only [same, if_false, false_and, not_false_eq_true, true_and, false_or, find?_eq_some_iff]

theorem find?_erase (map : SortedMap κ ν) (key other : κ) :
    (map.erase key).find? other = if other = key then none else map.find? other := by
  apply Option.ext
  intro found
  rw [find?_eq_some_iff]
  simp only [erase, List.mem_filter, decide_eq_true_eq, ne_eq]
  by_cases same : other = key
  · simp [same]
  · simp only [same, if_false, not_false_eq_true, and_true, find?_eq_some_iff]

/-- A map is what it has under each key. -/
theorem ext_find? {first second : SortedMap κ ν} (same : ∀ key, first.find? key = second.find? key) : first = second := by
  obtain ⟨entries, ascending⟩ := first
  obtain ⟨others, otherAscending⟩ := second
  have members : ∀ entry, entry ∈ entries ↔ entry ∈ others := by
    intro entry
    rw [← find?_eq_some_iff ⟨entries, ascending⟩ entry.1 entry.2, same entry.1, find?_eq_some_iff]
  have distinct {entries : List (κ × ν)} (ascending : Ascending entries) : entries.Nodup :=
    ascending.imp fun below same => absurd (congrArg Prod.fst same) below.ne
  have permuted := (List.perm_ext_iff_of_nodup (distinct ascending) (distinct otherAscending)).mpr members
  congr 1
  exact permuted.eq_of_pairwise (fun _ _ _ _ below above => absurd (below.trans above) (lt_irrefl _)) ascending
    otherAscending

theorem firstKey?_isLeast {map : SortedMap κ ν} {key : κ} (first : map.firstKey? = some key) :
    IsLeast {key | (map.find? key).isSome} key := by
  obtain ⟨entry, head, rfl⟩ := Option.map_eq_some_iff.mp first
  obtain ⟨rest, shape⟩ := List.head?_eq_some_iff.mp head
  have ascending := map.ascending
  rw [shape] at ascending
  constructor
  · exact (map.find?_isSome_iff _).mpr ⟨entry, by rw [shape]; exact List.mem_cons_self, rfl⟩
  · intro other present
    obtain ⟨candidate, member, rfl⟩ := (map.find?_isSome_iff _).mp present
    rw [shape] at member
    rcases List.mem_cons.mp member with rfl | later
    · exact le_rfl
    · exact ((List.pairwise_cons.mp ascending).1 _ later).le

theorem lastKey?_isGreatest {map : SortedMap κ ν} {key : κ} (last : map.lastKey? = some key) :
    IsGreatest {key | (map.find? key).isSome} key := by
  obtain ⟨entry, final, rfl⟩ := Option.map_eq_some_iff.mp last
  obtain ⟨front, shape⟩ := List.getLast?_eq_some_iff.mp final
  have ascending := map.ascending
  rw [shape] at ascending
  constructor
  · exact (map.find?_isSome_iff _).mpr ⟨entry, by rw [shape]; simp, rfl⟩
  · intro other present
    obtain ⟨candidate, member, rfl⟩ := (map.find?_isSome_iff _).mp present
    rw [shape] at member
    rcases List.mem_append.mp member with earlier | same
    · exact ((List.pairwise_append.mp ascending).2.2 _ earlier _ (List.mem_singleton_self _)).le
    · rw [List.mem_singleton.mp same]

theorem firstKey?_eq_none_iff (map : SortedMap κ ν) : map.firstKey? = none ↔ map.isEmpty = true := by
  simp [firstKey?, isEmpty]

theorem lastKey?_eq_none_iff (map : SortedMap κ ν) : map.lastKey? = none ↔ map.isEmpty = true := by
  simp [lastKey?, isEmpty]

/-- The entries below a key, as a map of their own. -/
def below (map : SortedMap κ ν) (key : κ) : SortedMap κ ν :=
  ⟨map.entries.takeWhile (fun entry => entry.1 < key),
    map.ascending.sublist (List.takeWhile_sublist _)⟩

def above (map : SortedMap κ ν) (key : κ) : SortedMap κ ν :=
  ⟨map.entries.dropWhile (fun entry => entry.1 ≤ key),
    map.ascending.sublist (List.dropWhile_sublist _)⟩

private theorem mem_takeWhile_iff {entries : List (κ × ν)} (ascending : Ascending entries) (key : κ)
    (entry : κ × ν) :
    entry ∈ entries.takeWhile (fun entry => entry.1 < key) ↔ entry ∈ entries ∧ entry.1 < key := by
  induction entries with
  | nil => simp
  | cons head rest ih =>
    obtain ⟨above, tail⟩ := List.pairwise_cons.mp ascending
    by_cases before : head.1 < key
    · simp only [List.takeWhile_cons, before, decide_true, if_true, List.mem_cons, ih tail]
      grind
    · have none : ∀ other ∈ rest, ¬ other.1 < key := fun other member smaller =>
        before ((above other member).trans smaller)
      simp only [List.takeWhile_cons, before, decide_false, Bool.false_eq_true, if_false, List.mem_cons,
        List.not_mem_nil]
      grind

private theorem mem_dropWhile_iff {entries : List (κ × ν)} (ascending : Ascending entries) (key : κ)
    (entry : κ × ν) :
    entry ∈ entries.dropWhile (fun entry => entry.1 ≤ key) ↔ entry ∈ entries ∧ key < entry.1 := by
  induction entries with
  | nil => simp
  | cons head rest ih =>
    obtain ⟨above, tail⟩ := List.pairwise_cons.mp ascending
    by_cases upTo : head.1 ≤ key
    · simp only [List.dropWhile_cons, upTo, decide_true, if_true, List.mem_cons, ih tail]
      grind
    · have all : ∀ other ∈ rest, key < other.1 := fun other member =>
        (not_le.mp upTo).trans (above other member)
      simp only [List.dropWhile_cons, upTo, decide_false, Bool.false_eq_true, if_false, List.mem_cons]
      grind

theorem find?_below (map : SortedMap κ ν) (key other : κ) :
    ((map.below key).find? other).isSome ↔ (map.find? other).isSome ∧ other < key := by
  simp only [find?_isSome_iff, below, mem_takeWhile_iff map.ascending]
  grind

theorem find?_above (map : SortedMap κ ν) (key other : κ) :
    ((map.above key).find? other).isSome ↔ (map.find? other).isSome ∧ key < other := by
  simp only [find?_isSome_iff, above, mem_dropWhile_iff map.ascending]
  grind

theorem lastKeyBelow?_isGreatest {map : SortedMap κ ν} {key found : κ}
    (last : map.lastKeyBelow? key = some found) :
    IsGreatest {other | (map.find? other).isSome ∧ other < key} found := by
  have greatest : IsGreatest {other | ((map.below key).find? other).isSome} found := lastKey?_isGreatest last
  simpa only [find?_below] using greatest

theorem firstKeyAbove?_isLeast {map : SortedMap κ ν} {key found : κ}
    (first : map.firstKeyAbove? key = some found) :
    IsLeast {other | (map.find? other).isSome ∧ key < other} found := by
  have least : IsLeast {other | ((map.above key).find? other).isSome} found := firstKey?_isLeast first
  simpa only [find?_above] using least

theorem lastKeyBelow?_eq_none {map : SortedMap κ ν} {key : κ} (none : map.lastKeyBelow? key = none) :
    ∀ other, (map.find? other).isSome → ¬ other < key := by
  intro other present smaller
  have vacant := ((map.below key).isEmpty_iff).mp (((map.below key).lastKey?_eq_none_iff).mp none) other
  have found := (map.find?_below key other).mpr ⟨present, smaller⟩
  simp [vacant] at found

theorem firstKeyAbove?_eq_none {map : SortedMap κ ν} {key : κ} (none : map.firstKeyAbove? key = none) :
    ∀ other, (map.find? other).isSome → ¬ key < other := by
  intro other present larger
  have vacant := ((map.above key).isEmpty_iff).mp (((map.above key).firstKey?_eq_none_iff).mp none) other
  have found := (map.find?_above key other).mpr ⟨present, larger⟩
  simp [vacant] at found

end SortedMap

end Mdh.Lib
