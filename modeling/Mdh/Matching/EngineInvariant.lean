import Mdh.Matching.EngineChanges

/-! What holds of an engine in every reachable state, and that each way a resting
order can change keeps it. Nothing here depends on how client ids are chosen. -/

namespace Mdh.Matching.MatchingEngine
open Mdh.Core Mdh.Lib

/-- The invariant of the engine. A directory entry locates an order that answers to
its key; an order need not have an entry. -/
structure Sound (engine : MatchingEngine) : Prop where
  intact : engine.Intact
  located : ∀ key ref, engine.orders.lookup key = some ref →
    ∃ entry ∈ engine.resting, entry.key = key ∧ entry.instrumentId = ref.instrumentId ∧ entry.slot = ref.handle.slot
  gtc : ∀ entry ∈ engine.resting, entry.order.timeInForce = .gtc
  positive : ∀ entry ∈ engine.resting, 0 < entry.order.price ∧ 0 < entry.order.remainingQuantity
  issued : ∀ entry ∈ engine.resting, entry.order.exchangeOrderId < engine.nextExchangeOrderId
  distinct : (engine.resting.map fun entry => entry.order.exchangeOrderId).Nodup
  counted : engine.restingOrders = engine.resting.length
  uncrossed : ∀ bid ∈ engine.resting, ∀ ask ∈ engine.resting, bid.instrumentId = ask.instrumentId →
    bid.order.side = .buy → ask.order.side = .sell → bid.order.price < ask.order.price

section Preservation
variable {before after : MatchingEngine} {entry : Resting}

theorem Sound.removes (sound : before.Sound) (change : Removes entry before after) : after.Sound := by
  have kept : ∀ other ∈ after.resting, other ∈ before.resting := fun other member =>
    change.resting.mem_iff.mpr (List.mem_cons_of_mem _ member)
  have ids := (change.resting.map fun entry => entry.order.exchangeOrderId).nodup_iff.mp sound.distinct
  refine ⟨change.intact, fun key ref found => ?_, fun other member => sound.gtc other (kept other member),
    fun other member => sound.positive other (kept other member), fun other member => ?_,
    (List.nodup_cons.mp ids).2, ?_, fun bid one ask two => sound.uncrossed bid (kept bid one) ask (kept ask two)⟩
  · rw [change.orders] at found
    by_cases same : key = entry.key
    · rw [same, AList.lookup_erase] at found
      cases found
    · rw [AList.lookup_erase_ne same] at found
      obtain ⟨other, member, sameKey, rest⟩ := sound.located key ref found
      refine ⟨other, ?_, sameKey, rest⟩
      rcases List.mem_cons.mp (change.resting.mem_iff.mp member) with rfl | member
      · exact absurd sameKey.symm same
      · exact member
  · rw [change.nextExchangeOrderId]
    exact sound.issued other (kept other member)
  · rw [change.restingOrders, sound.counted, change.resting.length_eq]
    rfl

/-- An edit that keeps an order's identity, side and price, and leaves something of it. -/
structure Faithful (change : BookOrder → BookOrder) : Prop where
  price : ∀ order, (change order).price = order.price
  side : ∀ order, (change order).side = order.side
  timeInForce : ∀ order, (change order).timeInForce = order.timeInForce
  exchangeOrderId : ∀ order, (change order).exchangeOrderId = order.exchangeOrderId
  accountId : ∀ order, (change order).accountId = order.accountId

theorem Sound.amends {edit : BookOrder → BookOrder} (sound : before.Sound) (change : Amends entry edit before after)
    (faithful : Faithful edit) (left : 0 < (edit entry.order).remainingQuantity)
    (located : ∀ key ref, after.orders.lookup key = some ref → ∃ other ∈ after.resting,
      other.key = key ∧ other.instrumentId = ref.instrumentId ∧ other.slot = ref.handle.slot) : after.Sound := by
  obtain ⟨rest, was, is⟩ := change.resting
  -- Every order that rests now matches one that rested before in all but quantity and client id.
  have origin : ∀ other ∈ after.resting, ∃ old ∈ before.resting, other.instrumentId = old.instrumentId ∧
      other.order.price = old.order.price ∧ other.order.side = old.order.side ∧
      other.order.timeInForce = old.order.timeInForce ∧ other.order.exchangeOrderId = old.order.exchangeOrderId ∧
      0 < other.order.remainingQuantity := by
    intro other member
    rcases List.mem_cons.mp (is.mem_iff.mp member) with rfl | member
    · exact ⟨entry, was.mem_iff.mpr List.mem_cons_self, rfl, faithful.price _, faithful.side _,
        faithful.timeInForce _, faithful.exchangeOrderId _, left⟩
    · have old := was.mem_iff.mpr (List.mem_cons_of_mem _ member)
      exact ⟨other, old, rfl, rfl, rfl, rfl, rfl, (sound.positive other old).2⟩
  refine ⟨change.intact, located, fun other member => ?_, fun other member => ?_, fun other member => ?_, ?_, ?_,
    fun bid one ask two same buy sell => ?_⟩
  · obtain ⟨old, there, _, _, _, timeInForce, _⟩ := origin other member
    exact timeInForce.trans (sound.gtc old there)
  · obtain ⟨old, there, _, price, _, _, _, positive⟩ := origin other member
    exact ⟨price ▸ (sound.positive old there).1, positive⟩
  · obtain ⟨old, there, _, _, _, _, id, _⟩ := origin other member
    rw [change.nextExchangeOrderId, id]
    exact sound.issued old there
  · have ids := (was.map fun entry => entry.order.exchangeOrderId).nodup_iff.mp sound.distinct
    refine (is.map fun entry => entry.order.exchangeOrderId).nodup_iff.mpr ?_
    simpa [faithful.exchangeOrderId] using ids
  · rw [change.restingOrders, sound.counted, was.length_eq, is.length_eq]
    rfl
  · obtain ⟨oldBid, thereBid, bidId, bidPrice, bidSide, _⟩ := origin bid one
    obtain ⟨oldAsk, thereAsk, askId, askPrice, askSide, _⟩ := origin ask two
    rw [bidPrice, askPrice]
    exact sound.uncrossed oldBid thereBid oldAsk thereAsk (bidId ▸ askId ▸ same) (bidSide ▸ buy) (askSide ▸ sell)

/-- With the directory as it was, an edit that keeps the client id keeps every entry located. -/
theorem Sound.located_amends {edit : BookOrder → BookOrder} (sound : before.Sound)
    (change : Amends entry edit before after) (faithful : Faithful edit)
    (sameId : ∀ order, (edit order).clientOrderId = order.clientOrderId) (orders : after.orders = before.orders) :
    ∀ key ref, after.orders.lookup key = some ref → ∃ other ∈ after.resting,
      other.key = key ∧ other.instrumentId = ref.instrumentId ∧ other.slot = ref.handle.slot := by
  obtain ⟨rest, was, is⟩ := change.resting
  intro key ref found
  rw [orders] at found
  obtain ⟨old, there, sameKey, located⟩ := sound.located key ref found
  rcases List.mem_cons.mp (was.mem_iff.mp there) with rfl | there
  · refine ⟨_, is.mem_iff.mpr List.mem_cons_self, ?_, located⟩
    rw [← sameKey]
    simp only [Resting.key, sameId, faithful.accountId]
  · exact ⟨old, is.mem_iff.mpr (List.mem_cons_of_mem _ there), sameKey, located⟩

/-- An edit that re-keys an order, with its entry moved to the new key. -/
theorem Sound.located_rekey {edit : BookOrder → BookOrder} {ref : OrderRef} (sound : before.Sound)
    (change : Amends entry edit before after) (instrument : entry.instrumentId = ref.instrumentId)
    (slot : entry.slot = ref.handle.slot)
    (orders : after.orders = (before.orders.erase entry.key).insert
      { entry with order := edit entry.order : Resting }.key ref) :
    ∀ key ref, after.orders.lookup key = some ref → ∃ other ∈ after.resting,
      other.key = key ∧ other.instrumentId = ref.instrumentId ∧ other.slot = ref.handle.slot := by
  obtain ⟨rest, was, is⟩ := change.resting
  intro key found lookup
  rw [orders] at lookup
  by_cases same : key = { entry with order := edit entry.order : Resting }.key
  · rw [same, AList.lookup_insert] at lookup
    obtain rfl := Option.some.inj lookup
    exact ⟨_, is.mem_iff.mpr List.mem_cons_self, same.symm, instrument, slot⟩
  · rw [AList.lookup_insert_ne same] at lookup
    by_cases old : key = entry.key
    · rw [old, AList.lookup_erase] at lookup
      cases lookup
    · rw [AList.lookup_erase_ne old] at lookup
      obtain ⟨other, there, sameKey, located⟩ := sound.located key found lookup
      rcases List.mem_cons.mp (was.mem_iff.mp there) with rfl | there
      · exact absurd sameKey.symm old
      · exact ⟨other, is.mem_iff.mpr (List.mem_cons_of_mem _ there), sameKey, located⟩

/-- No resting order has this exchange order id. -/
def Unissued (engine : MatchingEngine) (exchangeOrderId : Nat) : Prop :=
  exchangeOrderId < engine.nextExchangeOrderId ∧
    ∀ entry ∈ engine.resting, entry.order.exchangeOrderId ≠ exchangeOrderId

theorem Unissued.removes {exchangeOrderId : Nat} (unissued : before.Unissued exchangeOrderId)
    (change : Removes entry before after) : after.Unissued exchangeOrderId :=
  ⟨change.nextExchangeOrderId ▸ unissued.1,
    fun other member => unissued.2 other (change.resting.mem_iff.mpr (List.mem_cons_of_mem _ member))⟩

theorem Unissued.amends {exchangeOrderId : Nat} {edit : BookOrder → BookOrder}
    (unissued : before.Unissued exchangeOrderId) (change : Amends entry edit before after) (faithful : Faithful edit) :
    after.Unissued exchangeOrderId := by
  obtain ⟨rest, was, is⟩ := change.resting
  refine ⟨change.nextExchangeOrderId ▸ unissued.1, fun other member => ?_⟩
  rcases List.mem_cons.mp (is.mem_iff.mp member) with rfl | member
  · rw [faithful.exchangeOrderId]
    exact unissued.2 entry (was.mem_iff.mpr List.mem_cons_self)
  · exact unissued.2 other (was.mem_iff.mpr (List.mem_cons_of_mem _ member))

theorem Sound.adds {ref : OrderRef} (sound : before.Sound) (change : Adds entry ref before after)
    (gtc : entry.order.timeInForce = .gtc) (positive : 0 < entry.order.price ∧ 0 < entry.order.remainingQuantity)
    (unissued : before.Unissued entry.order.exchangeOrderId)
    (clear : ∀ other ∈ before.resting, other.instrumentId = entry.instrumentId →
      other.order.side = entry.order.side.contra → ¬ entry.order.side.Crosses entry.order.price other.order.price) :
    after.Sound := by
  have cases : ∀ other ∈ after.resting, other = entry ∨ other ∈ before.resting := fun other member =>
    List.mem_cons.mp (change.resting.mem_iff.mp member)
  have kept : ∀ other ∈ before.resting, other ∈ after.resting := fun other member =>
    change.resting.mem_iff.mpr (List.mem_cons_of_mem _ member)
  refine ⟨change.intact, fun key found lookup => ?_, fun other member => ?_, fun other member => ?_,
    fun other member => ?_, ?_, ?_, fun bid one ask two same buy sell => ?_⟩
  · rw [change.orders] at lookup
    by_cases same : key = entry.key
    · rw [same, AList.lookup_insert] at lookup
      obtain rfl := Option.some.inj lookup
      exact ⟨entry, change.resting.mem_iff.mpr List.mem_cons_self, same.symm, change.instrumentId.symm,
        change.handle.symm⟩
    · rw [AList.lookup_insert_ne same] at lookup
      obtain ⟨other, there, located⟩ := sound.located key found lookup
      exact ⟨other, kept other there, located⟩
  · rcases cases other member with rfl | member
    · exact gtc
    · exact sound.gtc other member
  · rcases cases other member with rfl | member
    · exact positive
    · exact sound.positive other member
  · rw [change.nextExchangeOrderId]
    rcases cases other member with rfl | member
    · exact unissued.1
    · exact sound.issued other member
  · refine (change.resting.map fun entry => entry.order.exchangeOrderId).nodup_iff.mpr ?_
    refine List.nodup_cons.mpr ⟨fun member => ?_, sound.distinct⟩
    obtain ⟨other, there, same⟩ := List.mem_map.mp member
    exact unissued.2 other there same
  · rw [change.restingOrders, sound.counted, change.resting.length_eq]
    rfl
  · rcases cases bid one with rfl | oldBid
    · rcases cases ask two with rfl | oldAsk
      · rw [buy] at sell
        cases sell
      · have ahead := clear ask oldAsk same.symm (by rw [sell, buy]; rfl)
        rw [buy] at ahead
        exact not_le.mp ahead
    · rcases cases ask two with rfl | oldAsk
      · have ahead := clear bid oldBid same (by rw [sell, buy]; rfl)
        rw [sell] at ahead
        exact not_le.mp ahead
      · exact sound.uncrossed bid oldBid ask oldAsk same buy sell

/-- Taking numbers and emitting events touches neither a book nor the directory. -/
theorem Sound.renumbered (sound : before.Sound) (exchangeOrderId eventSequence priority : Nat)
    (later : before.nextExchangeOrderId ≤ exchangeOrderId) :
    ({ before with nextExchangeOrderId := exchangeOrderId, nextEventSequence := eventSequence,
                   nextPriority := priority } : MatchingEngine).Sound where
  intact := ⟨⟨sound.intact.registry.inside, sound.intact.registry.distinct, sound.intact.registry.covered,
    sound.intact.registry.listed, sound.intact.registry.ascending, sound.intact.registry.band⟩, sound.intact.books⟩
  located := sound.located
  gtc := sound.gtc
  positive := sound.positive
  issued entry member := (sound.issued entry member).trans_le later
  distinct := sound.distinct
  counted := sound.counted
  uncrossed := sound.uncrossed

end Preservation

end Mdh.Matching.MatchingEngine
