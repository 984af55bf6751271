import Mathlib.Algebra.BigOperators.Group.List.Basic
import Mathlib.Algebra.Group.Basic
import Mathlib.Data.List.AList
import Mathlib.Tactic.Abel

/-! A store of values by key, in which a key that is absent stands for a default value:
reading, editing in place, and adding up over every key. -/

namespace Mdh.Lib.KeyedStore

/-- Values by key, at most one for each. -/
abbrev Store (κ α : Type*) := AList fun _ : κ => α

variable {κ α : Type*} [DecidableEq κ]

section Entries
variable {store : Store κ α} {key : κ} {value : α}

theorem entries_perm_erase (found : store.lookup key = some value) :
    store.entries.Perm (⟨key, value⟩ :: (store.erase key).entries) := by
  have present : key ∈ store.entries.keys := AList.lookup_isSome.mp (by rw [found]; rfl)
  obtain ⟨held, front, back, _, split, erased⟩ := List.exists_of_kerase present
  have here : ⟨key, held⟩ ∈ store.entries := by
    rw [split]
    exact List.mem_append_right _ List.mem_cons_self
  have same : value = held := Option.some.inj (found.symm.trans (AList.mem_lookup_iff.mpr here))
  have rest : (store.erase key).entries = front ++ back := erased
  rw [split, rest, same]
  exact List.perm_middle

theorem entries_erase_of_none (absent : store.lookup key = none) : (store.erase key).entries = store.entries := by
  refine List.kerase_of_notMem_keys fun present => ?_
  have found := AList.lookup_isSome.mpr present
  rw [absent] at found
  cases found

theorem mem_entries_iff (entry : Sigma fun _ : κ => α) :
    entry ∈ store.entries ↔ store.lookup entry.1 = some entry.2 :=
  AList.mem_lookup_iff.symm

end Entries

section Values
variable [Inhabited α]

/-- What a key stands for. -/
def valueAt (store : Store κ α) (key : κ) : α := (store.lookup key).getD default

/-- Edits the value of a key, which the store holds from then on. -/
def modifyAt (store : Store κ α) (key : κ) (change : α → α) : Store κ α :=
  store.insert key (change (valueAt store key))

theorem valueAt_modifyAt (store : Store κ α) (key other : κ) (change : α → α) :
    valueAt (modifyAt store key change) other =
      if other = key then change (valueAt store key) else valueAt store other := by
  unfold modifyAt
  split_ifs with same
  · rw [same, valueAt, AList.lookup_insert]
    rfl
  · rw [valueAt, AList.lookup_insert_ne same]
    rfl

end Values

section Totals
variable {M : Type*} [AddCommGroup M] (measure : α → M)

/-- The sum of a measure over everything the store holds. -/
def total (store : Store κ α) : M := (store.entries.map fun entry => measure entry.2).sum

theorem total_insert (store : Store κ α) (key : κ) (value : α) :
    total measure (store.insert key value) = measure value + total measure (store.erase key) := rfl

variable [Inhabited α] {measure}

/-- A key that is absent counts for nothing when the default does. -/
theorem total_eq_erase (zero : measure default = 0) (store : Store κ α) (key : κ) :
    total measure store = measure (valueAt store key) + total measure (store.erase key) := by
  unfold valueAt
  cases found : store.lookup key with
  | none =>
    rw [Option.getD_none, zero, zero_add]
    unfold total
    rw [entries_erase_of_none found]
  | some value => exact ((entries_perm_erase found).map fun entry => measure entry.2).sum_eq

theorem total_modifyAt (zero : measure default = 0) (store : Store κ α) (key : κ) (change : α → α) :
    total measure (modifyAt store key change) =
      total measure store + (measure (change (valueAt store key)) - measure (valueAt store key)) := by
  rw [modifyAt, total_insert, total_eq_erase zero store key]
  abel

/-- An edit that changes a key's measure by a known amount changes the total by as much. -/
theorem total_modifyAt_add (zero : measure default = 0) (store : Store κ α) (key : κ) {change : α → α} {amount : M}
    (changes : ∀ value, measure (change value) = measure value + amount) :
    total measure (modifyAt store key change) = total measure store + amount := by
  rw [total_modifyAt zero, changes]
  abel

end Totals

end Mdh.Lib.KeyedStore
