import Mdh.Feed.Snapshot
import Mdh.Lib.CellReplay

/-! A subscriber's books order by order: each event is an effect on the cell of each order, and
what a book lists is what its cells hold. -/

namespace Mdh.Feed
open Mdh.Core Mdh.Lib Mdh.Lib.KeyedStore

/-- Side, and price with quantity, of an order that rests. -/
abbrev OrderCell := Option (Side × (Int × Nat))

/-- What an event does to one order of one instrument. -/
def effectOn (id : InstrumentId) (orderId : Nat) : WireEvent → CellEffect Side (Int × Nat)
  | .addOrder message =>
      if message.instrumentId = id ∧ message.orderId = orderId ∧ 0 < message.price ∧ message.quantity ≠ 0 then
        .fill message.side (message.price, message.quantity)
      else .skip
  | .cancelOrder message => if message.instrumentId = id ∧ message.orderId = orderId then .clear else .skip
  | .modifyOrder message =>
      if message.instrumentId = id ∧ message.orderId = orderId ∧ 0 < message.newPrice ∧ message.newQuantity ≠ 0 then
        .change (message.newPrice, message.newQuantity)
      else .skip
  | .trade _ => .skip
  | .clearBook message => if message.instrumentId = id then .clear else .skip

namespace OrderBook

/-- The book lists exactly what the cells hold. -/
def Holds (book : OrderBook) (cells : Nat → OrderCell) : Prop :=
  ∃ orders, book.Lists orders ∧ ∀ order : ListedOrder,
    order ∈ orders ↔ cells order.id = some (order.side, (order.price, order.quantity))

section Cells
variable {book : OrderBook} {cells : Nat → OrderCell}

theorem empty_holds : ({} : OrderBook).Holds fun _ => none :=
  ⟨[], empty_lists, fun _ => iff_of_false List.not_mem_nil nofun⟩

theorem Holds.mem_index (holds : book.Holds cells) (id : Nat) : id ∈ book.orderIndex ↔ cells id ≠ none := by
  obtain ⟨orders, lists, same⟩ := holds
  rw [lists.mem_index, List.mem_map]
  constructor
  · rintro ⟨order, among, rfl⟩
    rw [(same order).mp among]
    nofun
  · intro full
    obtain ⟨⟨side, price, quantity⟩, held⟩ := Option.ne_none_iff_exists'.mp full
    exact ⟨⟨id, side, price, quantity⟩, (same ⟨id, side, price, quantity⟩).mpr held, rfl⟩

/-- A full cell stands for the first of the orders, and the other cells for the rest. -/
theorem Holds.split (holds : book.Holds cells) (order : ListedOrder)
    (held : cells order.id = some (order.side, (order.price, order.quantity))) :
    ∃ rest, book.Lists (order :: rest) ∧ ∀ other : ListedOrder,
      other ∈ rest ↔ other.id ≠ order.id ∧ cells other.id = some (other.side, (other.price, other.quantity)) := by
  obtain ⟨orders, lists, same⟩ := holds
  have split := List.perm_cons_erase ((same order).mpr held)
  have lists := lists.perm split
  obtain ⟨fresh, _⟩ := List.nodup_cons.mp lists.distinct
  refine ⟨orders.erase order, lists, fun other => ?_⟩
  rw [← same, split.mem_iff, List.mem_cons]
  constructor
  · intro among
    exact ⟨fun sameId => fresh (sameId ▸ List.mem_map_of_mem among), Or.inr among⟩
  · rintro ⟨different, rfl | among⟩
    · exact absurd rfl different
    · exact among

theorem Holds.addOrder (holds : book.Holds cells) (id : Nat) (price : Int) (quantity : Nat) (side : Side) :
    (book.addOrder id price quantity side).1.Holds
      (fun other => if other = id ∧ 0 < price ∧ quantity ≠ 0 then
        (CellEffect.fill side (price, quantity)).apply (cells other) else cells other) ∧
    ((book.addOrder id price quantity side).2 = none ↔ 0 < price ∧ quantity ≠ 0 ∧ cells id = none) := by
  have known := holds.mem_index id
  unfold OrderBook.addOrder
  split_ifs with badPrice badQuantity present
  · simpa only [not_lt.mpr badPrice, false_and, and_false, if_false, reduceCtorEq, iff_false, not_false_eq_true, and_true]
      using holds
  · simpa only [badQuantity, ne_eq, not_true_eq_false, false_and, and_false, if_false, reduceCtorEq, iff_false,
      not_false_eq_true, and_true] using holds
  · have full := known.mp present
    refine ⟨?_, iff_of_false nofun fun both => full both.2.2⟩
    obtain ⟨orders, lists, same⟩ := holds
    refine ⟨orders, lists, fun order => (same order).trans ?_⟩
    dsimp only
    split_ifs with here
    · obtain ⟨held, filled⟩ := Option.ne_none_iff_exists'.mp full
      rw [here.1, filled]
      rfl
    · rfl
  · have vacant : cells id = none := not_not.mp fun full => present (known.mpr full)
    refine ⟨?_, iff_of_true rfl ⟨not_le.mp badPrice, badQuantity, vacant⟩⟩
    obtain ⟨orders, lists, same⟩ := holds
    have fresh : id ∉ orders.map ListedOrder.id := fun among => present ((lists.mem_index id).mpr among)
    refine ⟨_, lists.insertAt ⟨id, side, price, quantity⟩ fresh, fun order => ?_⟩
    rw [List.mem_cons, same]
    dsimp only
    by_cases here : order.id = id
    · rw [if_pos ⟨here, not_le.mp badPrice, badQuantity⟩, here, vacant]
      obtain ⟨orderId, orderSide, orderPrice, orderQuantity⟩ := order
      cases here
      simp only [CellEffect.apply, ListedOrder.mk.injEq, true_and, Option.some.injEq, Prod.mk.injEq, reduceCtorEq, or_false]
      exact ⟨fun both => ⟨both.1.symm, both.2.1.symm, both.2.2.symm⟩, fun both => ⟨both.1.symm, both.2.1.symm, both.2.2.symm⟩⟩
    · rw [if_neg fun both => here both.1]
      exact or_iff_right fun same => here (congrArg ListedOrder.id same)

theorem Holds.cancelOrder (holds : book.Holds cells) (id : Nat) :
    (book.cancelOrder id).1.Holds fun other => if other = id then CellEffect.clear.apply (cells other) else cells other := by
  cases held : cells id with
  | none =>
    have absent : book.orderIndex.lookup id = none := by
      rw [AList.lookup_eq_none, holds.mem_index, held]
      exact fun full => full rfl
    have same : (fun other => if other = id then CellEffect.clear.apply (cells other) else cells other) = cells := by
      funext other
      split_ifs with here
      · rw [here, held]
        rfl
      · rfl
    unfold OrderBook.cancelOrder
    rw [absent, same]
    exact holds
  | some cell =>
    obtain ⟨side, price, quantity⟩ := cell
    obtain ⟨rest, lists, same⟩ := holds.split ⟨id, side, price, quantity⟩ held
    refine ⟨rest, lists.cancelOrder.2, fun other => (same other).trans ?_⟩
    dsimp only
    split_ifs with here
    · exact iff_of_false (fun both => both.1 here) nofun
    · exact and_iff_right here

theorem Holds.modifyOrder (holds : book.Holds cells) (id : Nat) (newPrice : Int) (newQuantity : Nat) :
    (book.modifyOrder id newPrice newQuantity).1.Holds
      (fun other => if other = id ∧ 0 < newPrice ∧ newQuantity ≠ 0 then
        (CellEffect.change (newPrice, newQuantity)).apply (cells other) else cells other) ∧
    ((book.modifyOrder id newPrice newQuantity).2 = none → 0 < newPrice ∧ newQuantity ≠ 0 ∧ cells id ≠ none) := by
  by_cases badPrice : newPrice ≤ 0
  · unfold OrderBook.modifyOrder
    rw [if_pos badPrice]
    simpa only [not_lt.mpr badPrice, false_and, and_false, if_false, reduceCtorEq, false_imp_iff, and_true] using holds
  by_cases badQuantity : newQuantity = 0
  · unfold OrderBook.modifyOrder
    rw [if_neg badPrice, if_pos badQuantity]
    simpa only [badQuantity, ne_eq, not_true_eq_false, and_false, if_false, reduceCtorEq, false_imp_iff, and_true]
      using holds
  have valid : 0 < newPrice ∧ newQuantity ≠ 0 := ⟨not_le.mp badPrice, badQuantity⟩
  simp only [valid, ne_eq, not_false_eq_true, and_true]
  cases held : cells id with
  | none =>
    have absent : book.orderIndex.lookup id = none := by
      rw [AList.lookup_eq_none, holds.mem_index, held]
      exact fun full => full rfl
    unfold OrderBook.modifyOrder
    rw [if_neg badPrice, if_neg badQuantity, absent]
    refine ⟨?_, nofun⟩
    have same : (fun other => if other = id then (CellEffect.change (newPrice, newQuantity)).apply (cells other)
        else cells other) = cells := by
      funext other
      split_ifs with here
      · rw [here, held]
        rfl
      · rfl
    rw [same]
    exact holds
  | some cell =>
    obtain ⟨side, price, quantity⟩ := cell
    refine ⟨?_, fun _ => ⟨trivial, trivial, nofun⟩⟩
    obtain ⟨rest, lists, same⟩ := holds.split ⟨id, side, price, quantity⟩ held
    refine ⟨_, (lists.modifyOrder valid.1 valid.2).2, fun other => ?_⟩
    rw [List.mem_cons, same]
    dsimp only
    by_cases here : other.id = id
    · rw [if_pos here, here, held]
      obtain ⟨otherId, otherSide, otherPrice, otherQuantity⟩ := other
      cases here
      simp only [CellEffect.apply, ListedOrder.mk.injEq, true_and, Option.some.injEq, Prod.mk.injEq, ne_eq,
        not_true_eq_false, false_and, or_false]
      exact ⟨fun both => ⟨both.1.symm, both.2.1.symm, both.2.2.symm⟩, fun both => ⟨both.1.symm, both.2.1.symm, both.2.2.symm⟩⟩
    · rw [if_neg here]
      exact ⟨fun either => either.elim (fun same => absurd (congrArg ListedOrder.id same) here) And.right,
        fun held => Or.inr ⟨here, held⟩⟩

theorem allOn_perm (book : OrderBook) (side : Side) : (book.allOn side).Perm (viewLevels (book.levelsOf side).entries) := by
  cases side with
  | buy => exact (List.reverse_perm _).flatMap_right _
  | sell => exact List.Perm.refl _

/-- What a side of the book shows is what the cells hold of that side. -/
theorem Holds.mem_allOn (holds : book.Holds cells) (side : Side) (view : OrderView) :
    view ∈ book.allOn side ↔ cells view.orderId = some (side, (view.price, view.quantity)) := by
  obtain ⟨orders, lists, same⟩ := holds
  have levels : ∀ view : OrderView, view ∈ book.allOn side ↔
      ∃ level, (book.levelsOf side).find? view.price = some level ∧ ⟨view.orderId, view.quantity⟩ ∈ level.orders := by
    intro view
    rw [(book.allOn_perm side).mem_iff, viewLevels, List.mem_flatMap]
    constructor
    · rintro ⟨⟨price, level⟩, inside, among⟩
      obtain ⟨order, queued, rfl⟩ := List.mem_map.mp among
      exact ⟨level, (SortedMap.find?_eq_some_iff _ _ _).mpr inside, queued⟩
    · rintro ⟨level, found, queued⟩
      exact ⟨(view.price, level), (SortedMap.find?_eq_some_iff _ _ _).mp found, List.mem_map.mpr ⟨_, queued, rfl⟩⟩
  have listed := same ⟨view.orderId, side, view.price, view.quantity⟩
  rw [levels, ← listed]
  have shows := lists.shows side view.price
  have expected : (⟨view.orderId, view.quantity⟩ : RestingOrder) ∈ ordersAt orders side view.price ↔
      ⟨view.orderId, side, view.price, view.quantity⟩ ∈ orders := by
    unfold ordersAt
    rw [List.mem_map]
    constructor
    · rintro ⟨⟨id, orderSide, price, quantity⟩, among, rest⟩
      obtain ⟨inside, here⟩ := List.mem_filter.mp among
      obtain ⟨rfl, rfl⟩ := of_decide_eq_true here
      cases rest
      exact inside
    · intro inside
      exact ⟨_, List.mem_filter.mpr ⟨inside, decide_eq_true ⟨rfl, rfl⟩⟩, rfl⟩
  rw [← expected]
  cases found : (book.levelsOf side).find? view.price with
  | none =>
    rw [found] at shows
    rw [show ordersAt orders side view.price = [] from shows]
    exact iff_of_false (by rintro ⟨level, none, _⟩; cases none) List.not_mem_nil
  | some level =>
    rw [found] at shows
    obtain ⟨_, _, queue, _⟩ := shows
    rw [← queue.mem_iff]
    constructor
    · rintro ⟨other, here, queued⟩
      cases here
      exact queued
    · exact fun queued => ⟨level, rfl, queued⟩

/-- No id is on a side twice. -/
theorem Holds.allOn_nodup (holds : book.Holds cells) (side : Side) : ((book.allOn side).map OrderView.orderId).Nodup := by
  have members := holds.mem_allOn side
  obtain ⟨orders, lists, same⟩ := holds
  rw [((book.allOn_perm side).map _).nodup_iff]
  simp only [(book.allOn_perm side).mem_iff] at members
  unfold viewLevels at members ⊢
  rw [List.map_flatMap, List.nodup_flatMap]
  constructor
  · rintro ⟨price, level⟩ inside
    have shows := lists.shows side price
    rw [(SortedMap.find?_eq_some_iff _ _ _).mpr inside] at shows
    rw [List.map_map]
    exact (shows.2.2.1.map RestingOrder.id).nodup_iff.mpr (ordersAt_ids_nodup lists.distinct side price)
  · refine (book.levelsOf side).ascending.imp_of_mem fun {first second} inside among below => ?_
    show List.Disjoint _ _
    rw [List.disjoint_left]
    intro id there here
    obtain ⟨view, shown, rfl⟩ := List.mem_map.mp there
    obtain ⟨other, alsoShown, sameId⟩ := List.mem_map.mp here
    have one := (members view).mp (List.mem_flatMap.mpr ⟨first, inside, shown⟩)
    have two := (members other).mp (List.mem_flatMap.mpr ⟨second, among, alsoShown⟩)
    obtain ⟨_, _, rfl⟩ := List.mem_map.mp shown
    obtain ⟨_, _, rfl⟩ := List.mem_map.mp alsoShown
    rw [sameId, one] at two
    obtain ⟨_, values⟩ := Prod.mk.inj (Option.some.inj two)
    exact below.ne (Prod.mk.inj values).1

end Cells

end OrderBook

/-- Every book lists exactly what the cells of its instrument hold. -/
def BookManager.Holds (books : BookManager) (cells : InstrumentId → Nat → OrderCell) : Prop :=
  ∀ id, (books.bookFor id).Holds (cells id)

section Events
variable {books : BookManager} {cells : InstrumentId → Nat → OrderCell} {stats : ReplayStats}

theorem start_holds : ({} : BookManager).Holds fun _ _ => none := fun _ => OrderBook.empty_holds

/-- The counts play no part in what happens to the books. -/
theorem applyEvent_books (event : WireEvent) (books : BookManager) (stats other : ReplayStats) :
    (applyEvent event books stats).1 = (applyEvent event books other).1 := by
  cases event <;> rfl

theorem record_bookErrors (stats : ReplayStats) (error : Option BookError) :
    stats.bookErrors ≤ (stats.record error).bookErrors ∧
      ((stats.record error).bookErrors = stats.bookErrors → error = none) := by
  unfold ReplayStats.record
  cases error with
  | none => exact ⟨le_rfl, fun _ => rfl⟩
  | some error => exact ⟨Nat.le_succ _, fun same => absurd same (Nat.succ_ne_self _)⟩

theorem onBook_holds (holds : books.Holds cells) (id : InstrumentId)
    {operation : OrderBook → OrderBook × Option BookError} {after : InstrumentId → Nat → OrderCell}
    (here : (operation (books.bookFor id)).1.Holds (after id)) (others : ∀ other ≠ id, after other = cells other) :
    (books.onBook id operation).1.Holds after := by
  intro other
  rw [bookFor_onBook]
  split_ifs with same
  · rw [same]
    exact here
  · rw [others other same]
    exact holds other

/-- One event does to every cell what it is the effect of, and without a book error each effect
found its cell as it expects it. -/
theorem BookManager.Holds.apply (holds : books.Holds cells) (event : WireEvent) (stats : ReplayStats) :
    (applyEvent event books stats).1.Holds (fun id orderId => (effectOn id orderId event).apply (cells id orderId)) ∧
      stats.bookErrors ≤ (applyEvent event books stats).2.bookErrors ∧
      ((applyEvent event books stats).2.bookErrors = stats.bookErrors →
        ∀ id orderId, (effectOn id orderId event).Fits (cells id orderId)) := by
  cases event with
  | addOrder message =>
    obtain ⟨added, fresh⟩ := (holds message.instrumentId).addOrder message.orderId message.price message.quantity
      message.side
    refine ⟨onBook_holds holds message.instrumentId ?_ ?_, (record_bookErrors { stats with adds := stats.adds + 1 } _).1, fun same id orderId => ?_⟩
    · convert added using 2 with orderId
      simp only [effectOn, true_and, eq_comm (a := message.orderId)]
      split_ifs <;> rfl
    · intro other different
      funext orderId
      rw [effectOn, if_neg fun both => different both.1.symm]
      rfl
    · obtain ⟨_, _, vacant⟩ := fresh.mp ((record_bookErrors { stats with adds := stats.adds + 1 } _).2 same)
      rw [effectOn]
      split_ifs with here
      · obtain ⟨rfl, rfl, _⟩ := here
        exact vacant
      · trivial
  | cancelOrder message =>
    have cancelled := (holds message.instrumentId).cancelOrder message.orderId
    refine ⟨onBook_holds holds message.instrumentId ?_ ?_, (record_bookErrors { stats with cancels := stats.cancels + 1 } _).1, fun _ id orderId => ?_⟩
    · convert cancelled using 2 with orderId
      simp only [effectOn, true_and, eq_comm (a := message.orderId)]
      split_ifs <;> rfl
    · intro other different
      funext orderId
      rw [effectOn, if_neg fun both => different both.1.symm]
      rfl
    · rw [effectOn]
      split_ifs <;> trivial
  | modifyOrder message =>
    obtain ⟨modified, known⟩ := (holds message.instrumentId).modifyOrder message.orderId message.newPrice
      message.newQuantity
    refine ⟨onBook_holds holds message.instrumentId ?_ ?_, (record_bookErrors { stats with modifies := stats.modifies + 1 } _).1, fun same id orderId => ?_⟩
    · convert modified using 2 with orderId
      simp only [effectOn, true_and, eq_comm (a := message.orderId)]
      split_ifs <;> rfl
    · intro other different
      funext orderId
      rw [effectOn, if_neg fun both => different both.1.symm]
      rfl
    · obtain ⟨_, _, full⟩ := known ((record_bookErrors { stats with modifies := stats.modifies + 1 } _).2 same)
      rw [effectOn]
      split_ifs with here
      · obtain ⟨rfl, rfl, _⟩ := here
        exact full
      · trivial
  | trade message => exact ⟨holds, le_rfl, fun _ _ _ => trivial⟩
  | clearBook message =>
    refine ⟨onBook_holds holds message.instrumentId ?_ ?_, le_rfl, fun _ id orderId => ?_⟩
    · have cleared : (fun orderId => (effectOn message.instrumentId orderId (.clearBook message)).apply
          (cells message.instrumentId orderId)) = fun _ => none := by
        funext orderId
        rw [effectOn, if_pos rfl]
        rfl
      rw [cleared]
      exact OrderBook.empty_holds
    · intro other different
      funext orderId
      rw [effectOn, if_neg fun same => different same.symm]
      rfl
    · rw [effectOn]
      split_ifs <;> trivial

/-- The effects of a stretch of events on one order. -/
def effectsOn (id : InstrumentId) (orderId : Nat) (events : List WireEvent) : List (CellEffect Side (Int × Nat)) :=
  events.map (effectOn id orderId)

theorem applyAll_cons (event : WireEvent) (rest : List WireEvent) (books : BookManager) (stats : ReplayStats) :
    applyAll (event :: rest) books stats =
      applyAll rest (applyEvent event books stats).1 (applyEvent event books stats).2 := rfl

theorem applyAll_books (events : List WireEvent) (books : BookManager) (stats other : ReplayStats) :
    (applyAll events books stats).1 = (applyAll events books other).1 := by
  induction events generalizing books stats other with
  | nil => rfl
  | cons event rest ih =>
    rw [applyAll_cons, applyAll_cons, applyEvent_books event books stats other]
    exact ih _ _ _

theorem BookManager.Holds.applyAll (holds : books.Holds cells) (events : List WireEvent) (stats : ReplayStats) :
    (applyAll events books stats).1.Holds
      (fun id orderId => CellEffect.applyAll (effectsOn id orderId events) (cells id orderId)) := by
  induction events generalizing books cells stats with
  | nil => exact holds
  | cons event rest ih => exact ih (holds.apply event stats).1 _

theorem BookManager.Holds.bookErrors_le (holds : books.Holds cells) (events : List WireEvent) (stats : ReplayStats) :
    stats.bookErrors ≤ (Feed.applyAll events books stats).2.bookErrors := by
  induction events generalizing books cells stats with
  | nil => exact le_rfl
  | cons event rest ih =>
    obtain ⟨after, counted, _⟩ := holds.apply event stats
    exact counted.trans (ih after _)

/-- Without a book error over a stretch, every effect of it found its cell as it expects it. -/
theorem BookManager.Holds.fitAll (holds : books.Holds cells) (events : List WireEvent) (stats : ReplayStats)
    (clean : (Feed.applyAll events books stats).2.bookErrors = stats.bookErrors) (id : InstrumentId) (orderId : Nat) :
    CellEffect.FitAll (effectsOn id orderId events) (cells id orderId) := by
  induction events generalizing books cells stats with
  | nil => trivial
  | cons event rest ih =>
    obtain ⟨after, counted, fits⟩ := holds.apply event stats
    have later := after.bookErrors_le rest (applyEvent event books stats).2
    rw [applyAll_cons] at clean
    have here : (applyEvent event books stats).2.bookErrors = stats.bookErrors := by omega
    exact ⟨fits here id orderId, ih after _ (clean.trans here.symm)⟩

end Events

end Mdh.Feed
