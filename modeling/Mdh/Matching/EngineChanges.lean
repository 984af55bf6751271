import Mdh.Matching.Registry

/-! The three things that can happen to a resting order: it is removed, edited in
place, or added. Each is described by what it does to the books, to the set of
resting orders and to the directory, and every path of the engine is one of them. -/

namespace Mdh.Matching.MatchingEngine
open Mdh.Core Mdh.Lib

/-- The registry is consistent and every book keeps its own invariant. -/
structure Intact (engine : MatchingEngine) : Prop where
  registry : engine.Registry
  books : ∀ id, engine.knowsInstrument id = true → (engine.bookFor id).WellFormed

/-- `after` is `before` with one book replaced, whatever happened to the directory
and the counters. -/
structure Rebooks (id : InstrumentId) (book : MatchingBook) (before after : MatchingEngine) : Prop where
  books : after.books = (before.setBook id book).books
  slotOfId : after.slotOfId = before.slotOfId
  byId : after.byId = before.byId
  bandTicks : after.bandTicks = before.bandTicks

section Rebooks
variable {id : InstrumentId} {book : MatchingBook} {before after : MatchingEngine}

theorem Rebooks.knows (change : Rebooks id book before after) (other : InstrumentId) :
    after.knowsInstrument other = before.knowsInstrument other := by
  unfold knowsInstrument
  rw [change.slotOfId]

theorem Rebooks.bookFor_eq (change : Rebooks id book before after) (other : InstrumentId) :
    after.bookFor other = (before.setBook id book).bookFor other := by
  unfold bookFor slotFor
  rw [change.books, change.slotOfId]
  rfl

theorem Rebooks.bookFor (change : Rebooks id book before after) (registry : before.Registry)
    (known : before.knowsInstrument id = true) {other : InstrumentId} (otherKnown : before.knowsInstrument other = true) :
    after.bookFor other = if other = id then book else before.bookFor other := by
  rw [change.bookFor_eq, registry.bookFor_setBook known otherKnown]

theorem Rebooks.registry (change : Rebooks id book before after) (registry : before.Registry) : after.Registry := by
  have set := registry.setBook id book
  refine ⟨?_, ?_, ?_, ?_, ?_, ?_⟩
  · rw [change.books, change.slotOfId]
    exact set.inside
  · rw [change.slotOfId]
    exact set.distinct
  · rw [change.books, change.slotOfId]
    exact set.covered
  · rw [change.byId, change.slotOfId]
    exact set.listed
  · unfold instruments
    rw [change.byId]
    exact set.ascending
  · rw [change.bandTicks]
    exact registry.band

theorem Rebooks.intact (change : Rebooks id book before after) (intact : before.Intact)
    (known : before.knowsInstrument id = true) (wf : book.WellFormed) : after.Intact := by
  refine ⟨change.registry intact.registry, fun other otherKnown => ?_⟩
  rw [change.knows] at otherKnown
  rw [change.bookFor intact.registry known otherKnown]
  split_ifs
  · exact wf
  · exact intact.books other otherKnown

theorem Rebooks.resting (change : Rebooks id book before after) (registry : before.Registry)
    (known : before.knowsInstrument id = true) :
    after.resting.Perm ((bothSides book.queues).map (Resting.of id) ++ before.restingElsewhere id) := by
  have same : after.resting = (before.setBook id book).resting := by
    unfold MatchingEngine.resting
    have lists : after.instruments = (before.setBook id book).instruments := by
      unfold instruments
      rw [change.byId]
      rfl
    rw [lists]
    refine List.flatMap_congr fun other _ => ?_
    unfold restingOn
    rw [change.bookFor_eq]
  rw [same]
  exact registry.resting_setBook known book

end Rebooks

/-- A resting order leaves its book, and its key leaves the directory. -/
structure Removes (entry : Resting) (before after : MatchingEngine) : Prop where
  intact : after.Intact
  knows : ∀ id, after.knowsInstrument id = before.knowsInstrument id
  queues : ∀ id, before.knowsInstrument id = true → (after.bookFor id).queues =
    if id = entry.instrumentId then (before.bookFor id).queues.remove entry.slot else (before.bookFor id).queues
  resting : before.resting.Perm (entry :: after.resting)
  orders : after.orders = before.orders.erase entry.key
  restingOrders : after.restingOrders = before.restingOrders - 1
  nextExchangeOrderId : after.nextExchangeOrderId = before.nextExchangeOrderId

/-- A resting order is edited where it stands. -/
structure Amends (entry : Resting) (change : BookOrder → BookOrder) (before after : MatchingEngine) : Prop where
  intact : after.Intact
  knows : ∀ id, after.knowsInstrument id = before.knowsInstrument id
  queues : ∀ id, before.knowsInstrument id = true → (after.bookFor id).queues =
    if id = entry.instrumentId then (before.bookFor id).queues.amend entry.slot change else (before.bookFor id).queues
  resting : ∃ rest, before.resting.Perm (entry :: rest) ∧
    after.resting.Perm ({ entry with order := change entry.order } :: rest)
  restingOrders : after.restingOrders = before.restingOrders
  nextExchangeOrderId : after.nextExchangeOrderId = before.nextExchangeOrderId

/-- An order comes to rest under a handle no other order has. -/
structure Adds (entry : Resting) (ref : OrderRef) (before after : MatchingEngine) : Prop where
  intact : after.Intact
  knows : ∀ id, after.knowsInstrument id = before.knowsInstrument id
  known : before.knowsInstrument entry.instrumentId = true
  queues : ∀ id, before.knowsInstrument id = true → (after.bookFor id).queues =
    if id = entry.instrumentId then (before.bookFor id).queues.enqueue entry.slot entry.order
    else (before.bookFor id).queues
  resting : after.resting.Perm (entry :: before.resting)
  handle : ref.handle.slot = entry.slot
  instrumentId : ref.instrumentId = entry.instrumentId
  orders : after.orders = before.orders.insert entry.key ref
  restingOrders : after.restingOrders = before.restingOrders + 1
  nextExchangeOrderId : after.nextExchangeOrderId = before.nextExchangeOrderId

section Changes
variable {before after : MatchingEngine} {id : InstrumentId} {book : MatchingBook}

theorem Intact.slots_nodup (intact : before.Intact) (known : before.knowsInstrument id = true) :
    ((bothSides (before.bookFor id).queues).map Placed.slot).Nodup :=
  wellFormed_slots_nodup (intact.books id known)

theorem Intact.mem_resting (intact : before.Intact) (known : before.knowsInstrument id = true) {side : Side}
    {placed : Placed} (member : placed ∈ (before.bookFor id).queues side) : Resting.of id placed ∈ before.resting :=
  (intact.registry.mem_resting _).mpr ⟨known, side, member⟩

theorem Rebooks.queues (change : Rebooks id book before after) (intact : before.Intact)
    (known : before.knowsInstrument id = true) (update : Queues → Queues)
    (updated : book.queues = update (before.bookFor id).queues) (other : InstrumentId)
    (otherKnown : before.knowsInstrument other = true) :
    (after.bookFor other).queues =
      if other = id then update (before.bookFor other).queues else (before.bookFor other).queues := by
  rw [change.bookFor intact.registry known otherKnown]
  split_ifs with same
  · rw [updated, same]
  · rfl

theorem Rebooks.removes (change : Rebooks id book before after) (intact : before.Intact)
    (known : before.knowsInstrument id = true) {side : Side} {placed : Placed}
    (member : placed ∈ (before.bookFor id).queues side) (wf : book.WellFormed)
    (queues : book.queues = (before.bookFor id).queues.remove placed.slot)
    (orders : after.orders = before.orders.erase (Resting.of id placed).key)
    (restingOrders : after.restingOrders = before.restingOrders - 1)
    (nextExchangeOrderId : after.nextExchangeOrderId = before.nextExchangeOrderId) :
    Removes (Resting.of id placed) before after where
  intact := change.intact intact known wf
  knows := change.knows
  queues := change.queues intact known (fun queues => queues.remove placed.slot) queues
  resting := by
    have here := perm_remove (intact.slots_nodup known) ((mem_bothSides ..).mpr ⟨side, member⟩)
    have left := change.resting intact.registry known
    rw [queues] at left
    refine (intact.registry.resting_perm known).trans ?_
    exact ((here.map (Resting.of id)).append_right _).trans (left.symm.cons (Resting.of id placed))
  orders := orders
  restingOrders := restingOrders
  nextExchangeOrderId := nextExchangeOrderId

theorem Rebooks.amends (change : Rebooks id book before after) (intact : before.Intact)
    (known : before.knowsInstrument id = true) {side : Side} {placed : Placed}
    (member : placed ∈ (before.bookFor id).queues side) {edit : BookOrder → BookOrder} (wf : book.WellFormed)
    (queues : book.queues = (before.bookFor id).queues.amend placed.slot edit)
    (restingOrders : after.restingOrders = before.restingOrders)
    (nextExchangeOrderId : after.nextExchangeOrderId = before.nextExchangeOrderId) :
    Amends (Resting.of id placed) edit before after where
  intact := change.intact intact known wf
  knows := change.knows
  queues := change.queues intact known (fun queues => queues.amend placed.slot edit) queues
  resting := by
    have nodup := intact.slots_nodup known
    have inBook := (mem_bothSides _ placed).mpr ⟨side, member⟩
    have left := change.resting intact.registry known
    rw [queues] at left
    refine ⟨(bothSides ((before.bookFor id).queues.remove placed.slot)).map (Resting.of id) ++
      before.restingElsewhere id, ?_, ?_⟩
    · exact (intact.registry.resting_perm known).trans
        (((perm_remove nodup inBook).map (Resting.of id)).append_right _)
    · exact left.trans (((perm_amend nodup inBook edit).map (Resting.of id)).append_right _)
  restingOrders := restingOrders
  nextExchangeOrderId := nextExchangeOrderId

theorem Rebooks.adds (change : Rebooks id book before after) (intact : before.Intact)
    (known : before.knowsInstrument id = true) {slot : Nat} {order : BookOrder} {ref : OrderRef} (wf : book.WellFormed)
    (queues : book.queues = (before.bookFor id).queues.enqueue slot order)
    (handle : ref.handle.slot = slot) (instrumentId : ref.instrumentId = id)
    (orders : after.orders = before.orders.insert ⟨order.accountId, order.clientOrderId⟩ ref)
    (restingOrders : after.restingOrders = before.restingOrders + 1)
    (nextExchangeOrderId : after.nextExchangeOrderId = before.nextExchangeOrderId) :
    Adds { instrumentId := id, slot, order } ref before after where
  intact := change.intact intact known wf
  knows := change.knows
  known := known
  queues := change.queues intact known (fun queues => queues.enqueue slot order) queues
  resting := by
    have left := change.resting intact.registry known
    rw [queues] at left
    refine left.trans ((((bothSides_enqueue _ slot order).map (Resting.of id)).append_right _).trans ?_)
    exact (intact.registry.resting_perm known).symm.cons { instrumentId := id, slot, order }
  handle := handle
  instrumentId := instrumentId
  orders := orders
  restingOrders := restingOrders
  nextExchangeOrderId := nextExchangeOrderId

end Changes

end Mdh.Matching.MatchingEngine
