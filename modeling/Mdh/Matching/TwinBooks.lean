import Mdh.Matching.BookUpdates

/-! Two books with the same orders in the same slots, whatever their bands. Every operation
answers the same on both and leaves them so, slots included. -/

namespace Mdh.Matching.MatchingBook
open Mdh.Core Mdh.Lib

/-- The same queues and the same free cells. -/
def Twins (one two : MatchingBook) : Prop :=
  ∃ queues free, one.Holds queues free ∧ two.Holds queues free

section Twins
variable {one two : MatchingBook}

theorem make_twins {first second : Nat} (firstFits : first ≤ 64 ^ 3) (secondFits : second ≤ 64 ^ 3) :
    Twins (make first) (make second) :=
  ⟨_, _, make_holds firstFits, make_holds secondFits⟩

theorem Twins.queues_eq (twins : Twins one two) : one.queues = two.queues := by
  obtain ⟨queues, free, left, right⟩ := twins
  rw [left.queues_eq, right.queues_eq]

theorem Twins.allOf_eq (twins : Twins one two) (side : Side) : one.allOf side = two.allOf side := by
  rw [MatchingBook.allOf_eq, MatchingBook.allOf_eq, twins.queues_eq]

theorem Twins.frontOfBest_eq (twins : Twins one two) (side : Side) : one.frontOfBest side = two.frontOfBest side := by
  obtain ⟨queues, free, left, right⟩ := twins
  rw [left.frontOfBest_eq, right.frontOfBest_eq]

theorem Twins.crossableQuantity_eq (twins : Twins one two) (side : Side) (price : Int) (quantity : Nat) :
    one.crossableQuantity side price quantity = two.crossableQuantity side price quantity := by
  obtain ⟨queues, free, left, right⟩ := twins
  rw [left.crossableQuantity_eq, right.crossableQuantity_eq]

theorem Twins.liveOrderCount_eq (twins : Twins one two) : one.liveOrderCount = two.liveOrderCount := by
  obtain ⟨queues, free, left, right⟩ := twins
  exact left.liveCount.trans right.liveCount.symm

theorem Twins.slab_length (twins : Twins one two) : one.slab.length = two.slab.length := by
  obtain ⟨queues, free, left, right⟩ := twins
  have lengths := left.slots.length_eq.symm.trans right.slots.length_eq
  rwa [List.length_range, List.length_range] at lengths

/-- The slot an order gets depends on what is free and on how many there are, not on the band. -/
theorem Twins.add (twins : Twins one two) (order : BookOrder) :
    Twins (one.add order).1 (two.add order).1 ∧ (one.add order).2 = (two.add order).2 := by
  have lengths := twins.slab_length
  obtain ⟨queues, free, left, right⟩ := twins
  obtain ⟨leftHolds, leftSlot⟩ := left.add_tail order
  obtain ⟨rightHolds, rightSlot⟩ := right.add_tail order
  have same : (one.add order).2.slot = (two.add order).2.slot := by rw [leftSlot, rightSlot, lengths]
  rw [same] at leftHolds
  exact ⟨⟨_, _, leftHolds, rightHolds⟩, congrArg Handle.mk same⟩

variable {side : Side} {placed : Placed}

theorem Twins.orderAt_eq (twins : Twins one two) (member : placed ∈ one.queues side) :
    one.orderAt ⟨placed.slot⟩ = two.orderAt ⟨placed.slot⟩ := by
  obtain ⟨queues, free, left, right⟩ := twins
  rw [left.queues_eq] at member
  exact (left.stored side placed member).trans (right.stored side placed member).symm

theorem Twins.removeAt (twins : Twins one two) (member : placed ∈ one.queues side) :
    Twins (one.removeAt ⟨placed.slot⟩).1 (two.removeAt ⟨placed.slot⟩).1 ∧
      (one.removeAt ⟨placed.slot⟩).2 = (two.removeAt ⟨placed.slot⟩).2 := by
  obtain ⟨queues, free, left, right⟩ := twins
  rw [left.queues_eq] at member
  obtain ⟨leftHolds, leftOrder⟩ := left.removeAt member
  obtain ⟨rightHolds, rightOrder⟩ := right.removeAt member
  exact ⟨⟨_, _, leftHolds, rightHolds⟩, leftOrder.trans rightOrder.symm⟩

theorem Twins.removeFront (twins : Twins one two) {first : Placed} {rest : List Placed}
    (contents : one.queues side = first :: rest) : Twins (one.removeFront side) (two.removeFront side) := by
  obtain ⟨queues, free, left, right⟩ := twins
  rw [left.queues_eq] at contents
  exact ⟨_, _, left.removeFront contents, right.removeFront contents⟩

theorem Twins.modifyOrder (twins : Twins one two) (member : placed ∈ one.queues side)
    (change : BookOrder → BookOrder) (samePrice : ∀ order, (change order).price = order.price)
    (sameSide : ∀ order, (change order).side = order.side) :
    Twins (one.modifyOrder placed.slot change) (two.modifyOrder placed.slot change) := by
  obtain ⟨queues, free, left, right⟩ := twins
  rw [left.queues_eq] at member
  exact ⟨_, _, left.modifyOrder member change samePrice sameSide, right.modifyOrder member change samePrice sameSide⟩

theorem Twins.reduceFront (twins : Twins one two) {first : Placed} {rest : List Placed}
    (contents : one.queues side = first :: rest) (quantity : Nat) :
    Twins (one.reduceFront side quantity) (two.reduceFront side quantity) := by
  have member : first ∈ one.queues side := by simp [contents]
  have reduced := twins.modifyOrder member (fun order => { order with remainingQuantity := quantity }) (fun _ => rfl)
    fun _ => rfl
  obtain ⟨queues, free, left, right⟩ := twins
  rw [left.queues_eq] at contents
  unfold MatchingBook.reduceFront
  rw [left.frontSlot_of_cons contents, right.frontSlot_of_cons contents]
  exact reduced

/-- A reduction and a change of client id, one after the other. -/
theorem Twins.replaceAt (twins : Twins one two) (member : placed ∈ one.queues side) (quantity : Nat)
    (clientOrderId : ClientOrderId) :
    Twins ((one.reduceAt ⟨placed.slot⟩ quantity).setClientOrderIdAt ⟨placed.slot⟩ clientOrderId)
      ((two.reduceAt ⟨placed.slot⟩ quantity).setClientOrderIdAt ⟨placed.slot⟩ clientOrderId) := by
  have wf : one.WellFormed := by
    obtain ⟨queues, free, left, _⟩ := twins
    exact left.wellFormed
  have reduced := twins.modifyOrder member (fun order => { order with remainingQuantity := quantity }) (fun _ => rfl)
    fun _ => rfl
  have still : (⟨placed.slot, { placed.order with remainingQuantity := quantity }⟩ : Placed) ∈
      (one.reduceAt ⟨placed.slot⟩ quantity).queues side := by
    rw [(reduceAt_spec wf member quantity).2]
    exact List.mem_map.mpr ⟨placed, member, if_pos rfl⟩
  exact reduced.modifyOrder still (fun order => { order with clientOrderId := clientOrderId }) (fun _ => rfl)
    fun _ => rfl

end Twins

end Mdh.Matching.MatchingBook
