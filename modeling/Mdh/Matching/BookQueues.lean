import Mdh.Lib.PriorityList
import Mdh.Matching.MatchingBook
import Mdh.Matching.PriceSearch

/-! What a book is for: two lists of resting orders, best price first and then in
order of arrival. `Holds` ties a slab, its links and the two price indexes to such
lists, and every query is then a query on a list. -/

namespace Mdh.Matching
open Mdh.Core Mdh.Lib

/-- A resting order and the slab slot it occupies. -/
structure Placed where
  slot : Nat
  order : BookOrder
  deriving DecidableEq, Repr

/-- The rank of a resting order on its side. -/
def Placed.price (placed : Placed) : Int := placed.order.price

/-- Both sides of a book, in priority order. -/
abbrev Queues := Side → List Placed

namespace Queues

def level (queues : Queues) (side : Side) (price : Int) : List Placed :=
  (queues side).filter fun placed => placed.price = price

def slots (queues : Queues) (side : Side) : List Nat := (queues side).map Placed.slot

def levelSlots (queues : Queues) (side : Side) (price : Int) : List Nat :=
  (queues.level side price).map Placed.slot

def enqueue (queues : Queues) (slot : Nat) (order : BookOrder) : Queues := fun side =>
  if side = order.side then PriorityList.enqueue side.Before Placed.price ⟨slot, order⟩ (queues side)
  else queues side

def remove (queues : Queues) (slot : Nat) : Queues := fun side =>
  (queues side).filter fun placed => placed.slot ≠ slot

def amend (queues : Queues) (slot : Nat) (change : BookOrder → BookOrder) : Queues := fun side =>
  (queues side).map fun placed =>
    if placed.slot = slot then { placed with order := change placed.order } else placed

end Queues

namespace MatchingBook

def links (book : MatchingBook) : Links where
  next slot := (book.entry slot).next
  prev slot := (book.entry slot).prev

/-- What a level slot says about the queue it stands for. -/
def levelOf : List Nat → Option LevelSlot
  | [] => none
  | slot :: rest => some { head := some slot, tail := (slot :: rest).getLast? }

structure Holds (book : MatchingBook) (queues : Queues) (free : List Nat) : Prop where
  side : ∀ side, (book.sideOf side).side = side
  index : ∀ side, (book.sideOf side).WellFormed
  stored : ∀ side, ∀ placed ∈ queues side, (book.entry placed.slot).order = placed.order
  ownSide : ∀ side, ∀ placed ∈ queues side, placed.order.side = side
  ordered : ∀ side : Side, PriorityList.Ordered side.Before Placed.price (queues side)
  levels : ∀ side price, (book.sideOf side).level? price = levelOf (queues.levelSlots side price)
  chains : ∀ side price, book.links.Chain none (queues.levelSlots side price)
  slots : (free ++ (queues.slots .buy ++ queues.slots .sell)).Perm (List.range book.slab.length)
  stack : book.links.Stack free
  freeHead : book.freeHead = free.head?
  liveCount : book.liveCount = (queues .buy).length + (queues .sell).length
  slabCapacity : book.slabCapacity = book.slab.length

/-- A book's queues, as its own walk finds them. -/
def queues (book : MatchingBook) : Queues := fun side =>
  if (book.sideOf side).empty then []
  else (book.levelPrices side).flatMap fun price =>
    (book.slotsAt side price).map fun slot => { slot, order := (book.entry slot).order }

/-- The invariant of a book: its walk finds everything it holds. -/
def WellFormed (book : MatchingBook) : Prop := ∃ free, book.Holds book.queues free

theorem allOf_eq (book : MatchingBook) (side : Side) :
    book.allOf side = (book.queues side).map Placed.order := by
  unfold allOf queues
  split_ifs
  · rfl
  · simp only [List.map_flatMap, List.map_map, Function.comp_def]

section Slots
variable {book : MatchingBook} {queues : Queues} {free : List Nat}

theorem Holds.nodup (holds : book.Holds queues free) :
    (free ++ (queues.slots .buy ++ queues.slots .sell)).Nodup :=
  holds.slots.nodup_iff.mpr List.nodup_range

theorem Holds.slots_nodup (holds : book.Holds queues free) (side : Side) : (queues.slots side).Nodup := by
  obtain ⟨buys, sells, _⟩ := List.nodup_append.mp (List.nodup_append.mp holds.nodup).2.1
  cases side
  · exact buys
  · exact sells

theorem Holds.mem_slots (holds : book.Holds queues free) (slot : Nat) :
    slot < book.slab.length ↔ slot ∈ free ∨ ∃ side, slot ∈ queues.slots side := by
  rw [← List.mem_range, ← holds.slots.mem_iff, List.mem_append, List.mem_append]
  refine or_congr_right ⟨?_, ?_⟩
  · rintro (member | member)
    · exact ⟨_, member⟩
    · exact ⟨_, member⟩
  · rintro ⟨side, member⟩
    cases side
    · exact Or.inl member
    · exact Or.inr member

theorem Holds.slot_lt (holds : book.Holds queues free) {side : Side} {placed : Placed}
    (member : placed ∈ queues side) : placed.slot < book.slab.length :=
  (holds.mem_slots _).mpr (Or.inr ⟨side, List.mem_map_of_mem member⟩)

theorem Holds.free_lt (holds : book.Holds queues free) {slot : Nat} (member : slot ∈ free) :
    slot < book.slab.length :=
  (holds.mem_slots _).mpr (Or.inl member)

theorem Holds.not_free (holds : book.Holds queues free) {side : Side} {placed : Placed}
    (member : placed ∈ queues side) : placed.slot ∉ free := by
  intro isFree
  have both : placed.slot ∈ queues.slots .buy ++ queues.slots .sell := by
    have there : placed.slot ∈ queues.slots side := List.mem_map_of_mem member
    cases side
    · exact List.mem_append_left _ there
    · exact List.mem_append_right _ there
  exact (List.nodup_append.mp holds.nodup).2.2 _ isFree _ both rfl

/-- One slot holds one order, on one side of the book. -/
theorem Holds.placed_unique (holds : book.Holds queues free) {side other : Side} {first second : Placed}
    (one : first ∈ queues side) (two : second ∈ queues other) (same : first.slot = second.slot) :
    side = other ∧ first = second := by
  have orders : first.order = second.order := by
    rw [← holds.stored side first one, ← holds.stored other second two, same]
  refine ⟨?_, ?_⟩
  · rw [← holds.ownSide side first one, ← holds.ownSide other second two, orders]
  · cases first
    cases second
    simp_all

theorem Holds.mem_levelSlots (queues : Queues) (side : Side) (price : Int) (slot : Nat) :
    slot ∈ queues.levelSlots side price ↔ ∃ placed ∈ queues side, placed.price = price ∧ placed.slot = slot := by
  simp [Queues.levelSlots, Queues.level, and_assoc]

theorem Holds.levelSlots_disjoint (holds : book.Holds queues free) {side other : Side} {price level : Int}
    {slot : Nat} (one : slot ∈ queues.levelSlots side price) (two : slot ∈ queues.levelSlots other level) :
    side = other ∧ price = level := by
  obtain ⟨first, member, rfl, rfl⟩ := (mem_levelSlots ..).mp one
  obtain ⟨second, member', rfl, same⟩ := (mem_levelSlots ..).mp two
  obtain ⟨sides, rfl⟩ := holds.placed_unique member member' same.symm
  exact ⟨sides, rfl⟩

theorem Holds.levelSlots_nodup (holds : book.Holds queues free) (side : Side) (price : Int) :
    (queues.levelSlots side price).Nodup :=
  List.Sublist.nodup (List.Sublist.map _ List.filter_sublist) (holds.slots_nodup side)

theorem Holds.length_le (holds : book.Holds queues free) (side : Side) :
    (queues side).length ≤ book.liveCount := by
  rw [holds.liveCount]
  cases side <;> omega

end Slots

theorem levelOf_getD (slots : List Nat) :
    (levelOf slots).getD {} = { head := slots.head?, tail := slots.getLast? } := by
  cases slots <;> rfl

theorem levelOf_eq_none (slots : List Nat) : levelOf slots = none ↔ slots = [] := by
  cases slots <;> simp [levelOf]

theorem levelOf_of_ne_nil {slots : List Nat} (nonempty : slots ≠ []) :
    levelOf slots = some { head := slots.head?, tail := slots.getLast? } := by
  cases slots with
  | nil => exact absurd rfl nonempty
  | cons slot rest => rfl

section Queries
variable {book : MatchingBook} {queues : Queues} {free : List Nat}

theorem Holds.levelSlots_eq_nil (queues : Queues) (side : Side) (price : Int) :
    queues.levelSlots side price = [] ↔ ∀ placed ∈ queues side, placed.price ≠ price := by
  simp [Queues.levelSlots, Queues.level]

theorem Holds.rests_iff (holds : book.Holds queues free) (side : Side) (price : Int) :
    (book.sideOf side).Rests price ↔ ∃ placed ∈ queues side, placed.price = price := by
  unfold SideIndex.Rests
  rw [holds.levels side price, Option.isSome_iff_ne_none, ne_eq, levelOf_eq_none, levelSlots_eq_nil]
  push Not
  rfl

theorem Holds.empty_iff (holds : book.Holds queues free) (side : Side) :
    (book.sideOf side).empty = true ↔ queues side = [] := by
  rw [(holds.index side).empty_iff]
  constructor
  · intro vacant
    by_contra nonempty
    obtain ⟨placed, member⟩ := List.exists_mem_of_ne_nil _ nonempty
    have rests := (holds.rests_iff side placed.price).mpr ⟨placed, member, rfl⟩
    simp [SideIndex.Rests, vacant] at rests
  · intro vacant price
    rw [holds.levels side price, levelOf_eq_none, levelSlots_eq_nil]
    simp [vacant]

theorem Holds.occupied_of_cons (holds : book.Holds queues free) {side : Side} {first : Placed} {rest : List Placed}
    (contents : queues side = first :: rest) : (book.sideOf side).empty = false := by
  rw [Bool.eq_false_iff, ne_eq, holds.empty_iff, contents]
  simp

theorem Holds.best_of_cons (holds : book.Holds queues free) {side : Side} {first : Placed} {rest : List Placed}
    (nonempty : queues side = first :: rest) : (book.sideOf side).bestPrice = first.price := by
  have best := SideIndex.bestPrice_isBest (holds.index side) (holds.occupied_of_cons nonempty)
  rw [holds.side side] at best
  obtain ⟨placed, member, price⟩ := (holds.rests_iff side _).mp best.member
  have firstRests := (holds.rests_iff side first.price).mpr ⟨first, by simp [nonempty], rfl⟩
  have notBefore := best.first _ firstRests
  have ordered := holds.ordered side
  rw [nonempty] at member ordered
  rcases List.mem_cons.mp member with rfl | member
  · exact price.symm
  · have notAfter := ordered.head_first placed member
    rw [price] at notAfter
    rcases side.before_trichotomy (book.sideOf side).bestPrice first.price with before | same | after
    · exact absurd before notAfter
    · exact same
    · exact absurd after notBefore

theorem Holds.bestPriceOf_eq (holds : book.Holds queues free) (side : Side) :
    book.bestPriceOf side = (queues side).head?.map Placed.price := by
  unfold bestPriceOf
  cases contents : queues side with
  | nil => simp [(holds.empty_iff side).mpr contents]
  | cons first rest =>
    simp [holds.occupied_of_cons contents, holds.best_of_cons contents]

theorem Holds.level_lookup (holds : book.Holds queues free) {side : Side} {placed : Placed}
    (member : placed ∈ queues side) :
    ∃ ref, (book.sideOf side).findLevel placed.price = some ref ∧
      (book.sideOf side).levelAt placed.price = ref ∧
      (book.sideOf side).read ref = { head := (queues.levelSlots side placed.price).head?,
                                      tail := (queues.levelSlots side placed.price).getLast? } := by
  have here : placed.slot ∈ queues.levelSlots side placed.price :=
    (mem_levelSlots ..).mpr ⟨placed, member, rfl, rfl⟩
  have level := holds.levels side placed.price
  rw [levelOf_of_ne_nil (List.ne_nil_of_mem here), SideIndex.level?] at level
  obtain ⟨ref, found, contents⟩ := Option.map_eq_some_iff.mp level
  exact ⟨ref, found, SideIndex.levelAt_eq found, contents⟩

theorem Holds.level_head (holds : book.Holds queues free) {side : Side} {placed : Placed}
    (member : placed ∈ queues side) :
    ((book.sideOf side).read ((book.sideOf side).levelAt placed.price)).head =
      (queues.levelSlots side placed.price).head? := by
  obtain ⟨ref, _, levelAt, contents⟩ := holds.level_lookup member
  rw [levelAt, contents]

theorem Holds.frontSlot_of_cons (holds : book.Holds queues free) {side : Side} {first : Placed}
    {rest : List Placed} (nonempty : queues side = first :: rest) : book.frontSlot side = first.slot := by
  simp only [frontSlot]
  rw [holds.best_of_cons nonempty, holds.level_head (by simp [nonempty])]
  simp [Queues.levelSlots, Queues.level, nonempty]

theorem Holds.frontOfBest_eq (holds : book.Holds queues free) (side : Side) :
    book.frontOfBest side = (queues side).head?.map Placed.order := by
  unfold frontOfBest
  cases contents : queues side with
  | nil => simp [(holds.empty_iff side).mpr contents]
  | cons first rest =>
    simp [holds.occupied_of_cons contents, holds.frontSlot_of_cons contents, holds.stored side first (by simp [contents])]

/-- A loop along the forward links visits the slots in order. -/
theorem slotsFrom_of_stack {book : MatchingBook} {slots : List Nat} (stack : book.links.Stack slots) {fuel : Nat}
    (enough : slots.length ≤ fuel) : book.slotsFrom fuel slots.head? = slots := by
  induction slots generalizing fuel with
  | nil => cases fuel <;> rfl
  | cons slot rest ih =>
    cases fuel with
    | zero => simp at enough
    | succ fuel =>
      have next : (book.entry slot).next = rest.head? := stack.1
      simp only [List.head?_cons, slotsFrom, next]
      rw [ih stack.2 (by simpa using enough)]

theorem Holds.slotsAt_eq (holds : book.Holds queues free) {side : Side} {placed : Placed}
    (member : placed ∈ queues side) : book.slotsAt side placed.price = queues.levelSlots side placed.price := by
  simp only [slotsAt]
  rw [holds.level_head member]
  refine slotsFrom_of_stack (holds.chains side placed.price).stack ?_
  unfold Queues.levelSlots Queues.level
  rw [List.length_map]
  exact (List.length_filter_le _ _).trans (holds.length_le side)

theorem Holds.map_stored (holds : book.Holds queues free) {side : Side} {some : List Placed}
    (inside : ∀ placed ∈ some, placed ∈ queues side) :
    (some.map Placed.slot).map (fun slot => ({ slot, order := (book.entry slot).order } : Placed)) = some := by
  rw [List.map_map]
  conv_rhs => rw [← List.map_id some]
  refine List.map_congr_left fun placed member => ?_
  simp [holds.stored side placed (inside placed member)]

theorem Holds.level_visited (holds : book.Holds queues free) {side : Side} {placed : Placed}
    (member : placed ∈ queues side) :
    (book.slotsAt side placed.price).map (fun slot => ({ slot, order := (book.entry slot).order } : Placed)) =
      queues.level side placed.price := by
  rw [holds.slotsAt_eq member]
  exact holds.map_stored fun other inLevel => List.mem_of_mem_filter inLevel

/-- Stepping from an occupied price leaves exactly the strictly worse orders to visit. -/
theorem Holds.next_of_mem (holds : book.Holds queues free) (side : Side) (price : Int) :
    match (book.sideOf side).nextPrice price with
    | none => (queues side).filter (fun placed => side.Before price placed.price) = []
    | some next => (∃ placed ∈ queues side, placed.price = next) ∧ side.Before price next ∧
        (queues side).filter (fun placed => side.Before price placed.price) =
          (queues side).filter (fun placed => ¬ side.Before placed.price next) := by
  have best := SideIndex.nextPrice_isBest (holds.index side) price
  rw [holds.side side] at best
  cases step : (book.sideOf side).nextPrice price with
  | none =>
    rw [step] at best
    simp only [List.filter_eq_nil_iff, decide_eq_true_eq]
    exact fun placed member worse =>
      best placed.price ⟨(holds.rests_iff side _).mpr ⟨placed, member, rfl⟩, worse⟩
  | some next =>
    rw [step] at best
    refine ⟨(holds.rests_iff side next).mp best.member.1, best.member.2, ?_⟩
    exact PriorityList.filter_worse_eq best.member.2 fun placed member worse =>
      best.first placed.price ⟨(holds.rests_iff side _).mpr ⟨placed, member, rfl⟩, worse⟩

/-- The orders from `price` on, in priority order. -/
def tailFrom (queues : Queues) (side : Side) (price : Int) : List Placed :=
  (queues side).filter fun placed => ¬ side.Before placed.price price

theorem Holds.tailFrom_split (holds : book.Holds queues free) (side : Side) (price : Int) :
    tailFrom queues side price =
      queues.level side price ++ (queues side).filter fun placed => side.Before price placed.price :=
  (holds.ordered side).filter_split price

theorem Holds.level_ne_nil {queues : Queues} {side : Side} {placed : Placed} (member : placed ∈ queues side) :
    queues.level side placed.price ≠ [] :=
  List.ne_nil_of_mem (List.mem_filter.mpr ⟨member, by simp⟩)

/-- The walk reaches every order, level by level, and runs out after the last. -/
theorem Holds.walk (holds : book.Holds queues free) (side : Side) {fuel : Nat} {placed : Placed}
    (member : placed ∈ queues side) (enough : (tailFrom queues side placed.price).length ≤ fuel) :
    ((pricesFrom (book.sideOf side) fuel (some placed.price)).flatMap fun price =>
      (book.slotsAt side price).map fun slot => ({ slot, order := (book.entry slot).order } : Placed)) =
      tailFrom queues side placed.price := by
  induction fuel generalizing placed with
  | zero =>
    have here := level_ne_nil member
    rw [holds.tailFrom_split, List.length_append] at enough
    simp [List.length_eq_zero_iff, here] at enough
  | succ fuel ih =>
    rw [pricesFrom, List.flatMap_cons, holds.level_visited member, holds.tailFrom_split]
    congr 1
    have shorter := enough
    rw [holds.tailFrom_split, List.length_append] at shorter
    have here := List.length_pos_iff.mpr (level_ne_nil member)
    have step := holds.next_of_mem side placed.price
    cases next : (book.sideOf side).nextPrice placed.price with
    | none =>
      rw [next] at step
      rw [step]
      cases fuel <;> rfl
    | some price =>
      rw [next] at step
      obtain ⟨⟨other, there, rfl⟩, _, rest⟩ := step
      rw [rest] at shorter ⊢
      exact ih there (by unfold tailFrom; omega)

theorem Holds.tailFrom_first (holds : book.Holds queues free) {side : Side} {first : Placed} {rest : List Placed}
    (contents : queues side = first :: rest) : tailFrom queues side first.price = queues side := by
  refine List.filter_eq_self.mpr fun placed member => ?_
  have ordered := holds.ordered side
  rw [contents] at member ordered
  rcases List.mem_cons.mp member with rfl | member
  · simpa using Side.Before.irrefl side _
  · simpa using ordered.head_first placed member

theorem Holds.queues_eq (holds : book.Holds queues free) : book.queues = queues := by
  funext side
  unfold MatchingBook.queues levelPrices
  cases contents : queues side with
  | nil => simp [(holds.empty_iff side).mpr contents]
  | cons first rest =>
    have member : first ∈ queues side := by simp [contents]
    have reached := holds.walk side member ((List.length_filter_le _ _).trans (holds.length_le side))
    rw [holds.tailFrom_first contents, contents] at reached
    rw [if_neg (by simp [holds.occupied_of_cons contents]), holds.bestPriceOf_eq, contents]
    exact reached

theorem WellFormed.holds (wf : book.WellFormed) : ∃ free, book.Holds book.queues free := wf

theorem Holds.wellFormed (holds : book.Holds queues free) : book.WellFormed :=
  ⟨free, holds.queues_eq ▸ holds⟩

/-- The contra orders at prices a limit reaches. -/
def crossing (side : Side) (price : Int) (entries : List Placed) : List Placed :=
  entries.filter fun placed => ¬ side.Before price placed.price

theorem coverFrom_append (quantity : Nat) (front back : List BookOrder) (total : Nat) :
    coverFrom quantity (front ++ back) total =
      match coverFrom quantity front total with
      | (total, true) => (total, true)
      | (total, false) => coverFrom quantity back total := by
  induction front generalizing total with
  | nil => rfl
  | cons order rest ih =>
    simp only [List.cons_append, coverFrom]
    split_ifs
    · rfl
    · exact ih _

/-- The early exit never changes the verdict. -/
theorem coverFrom_lt_iff (quantity : Nat) (orders : List BookOrder) (total : Nat) :
    (coverFrom quantity orders total).1 < quantity ↔
      total + (orders.map BookOrder.remainingQuantity).sum < quantity := by
  induction orders generalizing total with
  | nil => simp [coverFrom]
  | cons order rest ih =>
    simp only [coverFrom, List.map_cons, List.sum_cons]
    split_ifs with covered
    · omega
    · rw [ih]
      omega

theorem Holds.coverLevels_eq (holds : book.Holds queues free) (side : Side) (price : Int) (quantity : Nat)
    {fuel : Nat} {placed : Placed} (member : placed ∈ queues side)
    (enough : (tailFrom queues side placed.price).length ≤ fuel) (total : Nat) :
    book.coverLevels side price quantity (pricesFrom (book.sideOf side) fuel (some placed.price)) total =
      (coverFrom quantity ((crossing side price (tailFrom queues side placed.price)).map Placed.order) total).1 := by
  induction fuel generalizing placed total with
  | zero =>
    have here := level_ne_nil member
    rw [holds.tailFrom_split, List.length_append] at enough
    simp [List.length_eq_zero_iff, here] at enough
  | succ fuel ih =>
    rw [pricesFrom, coverLevels]
    split_ifs with worse
    · have none : crossing side price (tailFrom queues side placed.price) = [] := by
        unfold crossing tailFrom
        simp only [List.filter_filter, List.filter_eq_nil_iff, Bool.and_eq_true, decide_eq_true_eq, not_and,
          not_not]
        intro other _ notBetter
        by_contra earlier
        rcases side.before_trichotomy other.price placed.price with before | same | after
        · exact earlier before
        · exact notBetter (same ▸ worse)
        · exact notBetter (worse.trans after)
      rw [none]
      rfl
    · have levelCrosses : crossing side price (queues.level side placed.price) = queues.level side placed.price := by
        unfold crossing
        refine List.filter_eq_self.mpr fun other inLevel => ?_
        have same : other.price = placed.price := by simpa using (List.mem_filter.mp inLevel).2
        simpa [same] using worse
      have orders : ((book.slotsAt side placed.price).map fun slot => (book.entry slot).order) =
          (queues.level side placed.price).map Placed.order := by
        rw [← holds.level_visited member, List.map_map]
        rfl
      have split : crossing side price (tailFrom queues side placed.price) =
          queues.level side placed.price ++
            crossing side price ((queues side).filter fun other => side.Before placed.price other.price) := by
        rw [holds.tailFrom_split]
        unfold crossing at levelCrosses ⊢
        rw [List.filter_append, levelCrosses]
      rw [orders, split, List.map_append, coverFrom_append]
      have shorter := enough
      rw [holds.tailFrom_split, List.length_append] at shorter
      have here := List.length_pos_iff.mpr (level_ne_nil member)
      rcases coverFrom quantity ((queues.level side placed.price).map Placed.order) total with ⟨covered, stop⟩
      cases stop with
      | true => rfl
      | false =>
        have step := holds.next_of_mem side placed.price
        cases next : (book.sideOf side).nextPrice placed.price with
        | none =>
          rw [next] at step
          rw [step]
          cases fuel <;> rfl
        | some nextPrice =>
          rw [next] at step
          obtain ⟨⟨other, there, rfl⟩, _, rest⟩ := step
          rw [rest] at shorter ⊢
          exact ih there (by unfold tailFrom; omega) covered

theorem Holds.crossableQuantity_eq (holds : book.Holds queues free) (side : Side) (price : Int) (quantity : Nat) :
    book.crossableQuantity side price quantity =
      (coverFrom quantity ((crossing side price (queues side)).map Placed.order) 0).1 := by
  unfold crossableQuantity levelPrices
  cases contents : queues side with
  | nil => simp [(holds.empty_iff side).mpr contents, crossing, coverFrom]
  | cons first rest =>
    have member : first ∈ queues side := by simp [contents]
    have reached := holds.coverLevels_eq side price quantity member
      ((List.length_filter_le _ _).trans (holds.length_le side)) 0
    rw [holds.tailFrom_first contents, contents] at reached
    rw [if_neg (by simp [holds.occupied_of_cons contents]), holds.bestPriceOf_eq, contents]
    exact reached

end Queries

end MatchingBook

end Mdh.Matching
