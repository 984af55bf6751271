import Mdh.Matching.EngineInvariant

/-! What each function of the engine does, as changes to its resting orders and the
events it emits, and the rule for the match loop. -/

namespace Mdh.Matching.MatchingEngine
open Mdh.Core Mdh.Lib

theorem Sound.sink {step : Step} (sound : step.engine.Sound) (event : Nat → ExchangeEvent) :
    (step.sink event).engine.Sound :=
  sound.renumbered _ _ _ le_rfl

section Fill
variable (commandSequence : Nat) {incoming : ExchangeRestingOrder} {step : Step} {first : Placed} {rest : List Placed}

/-- The incoming order after trading `quantity`. -/
def incomingAfter (incoming : ExchangeRestingOrder) (quantity : Nat) : ExchangeRestingOrder :=
  { incoming with remainingQuantity := incoming.remainingQuantity - quantity }

/-- The front is filled completely. -/
theorem fillFront_full (full : first.order.remainingQuantity ≤ incoming.remainingQuantity) :
    fillFront commandSequence incoming first.order step =
      (incomingAfter incoming first.order.remainingQuantity,
        (((step.sink (tradeEvent commandSequence (incomingAfter incoming first.order.remainingQuantity)
            first.order first.order.remainingQuantity 0)).onBook incoming.instrumentId
              fun book => book.removeFront incoming.side.contra).forget
                ⟨first.order.accountId, first.order.clientOrderId⟩).sink
                  (removedEvent incoming.instrumentId first.order)) := by
  simp only [fillFront, min_eq_right full, Nat.sub_self, if_true]
  rfl

/-- The incoming order is filled completely and the front keeps its place. -/
theorem fillFront_partly (more : incoming.remainingQuantity < first.order.remainingQuantity) :
    fillFront commandSequence incoming first.order step =
      (incomingAfter incoming incoming.remainingQuantity,
        ((step.sink (tradeEvent commandSequence (incomingAfter incoming incoming.remainingQuantity)
            first.order incoming.remainingQuantity (first.order.remainingQuantity - incoming.remainingQuantity))).onBook
              incoming.instrumentId fun book => book.reduceFront incoming.side.contra
                (first.order.remainingQuantity - incoming.remainingQuantity)).sink
                  (reducedEvent incoming.instrumentId first.order
                    (first.order.remainingQuantity - incoming.remainingQuantity))) := by
  have left : first.order.remainingQuantity - incoming.remainingQuantity ≠ 0 := by omega
  simp only [fillFront, min_eq_left more.le, if_neg left]
  rfl

/-- The book's own account of a fill. -/
def bookEvent (instrumentId : InstrumentId) (contra : BookOrder) (left eventSequence : Nat) : ExchangeEvent :=
  if left = 0 then removedEvent instrumentId contra eventSequence
  else reducedEvent instrumentId contra left eventSequence

/-- A fill emits the trade and then what it did to the book. -/
theorem fillFront_events (incoming : ExchangeRestingOrder) (step : Step) (contra : BookOrder) :
    let quantity := min incoming.remainingQuantity contra.remainingQuantity
    (fillFront commandSequence incoming contra step).2.events = step.events ++
      [tradeEvent commandSequence (incomingAfter incoming quantity) contra quantity
          (contra.remainingQuantity - quantity) step.engine.nextEventSequence,
        bookEvent incoming.instrumentId contra (contra.remainingQuantity - quantity)
          (step.engine.nextEventSequence + 1)] ∧
    (fillFront commandSequence incoming contra step).2.engine.nextEventSequence =
      step.engine.nextEventSequence + 2 := by
  simp only [fillFront, bookEvent]
  split_ifs <;> simp [Step.sink, Step.onBook, Step.forget, setBook, incomingAfter]

variable (intact : step.engine.Intact) (known : step.engine.knowsInstrument incoming.instrumentId = true)
  (contents : (step.engine.bookFor incoming.instrumentId).queues incoming.side.contra = first :: rest)
include intact known contents

theorem fillFront_removes (full : first.order.remainingQuantity ≤ incoming.remainingQuantity) :
    Removes (Resting.of incoming.instrumentId first) step.engine
      (fillFront commandSequence incoming first.order step).2.engine := by
  obtain ⟨wf, queues⟩ := MatchingBook.removeFront_spec (intact.books _ known) contents
  have member : first ∈ (step.engine.bookFor incoming.instrumentId).queues incoming.side.contra := by simp [contents]
  have change : Rebooks incoming.instrumentId
      ((step.engine.bookFor incoming.instrumentId).removeFront incoming.side.contra) step.engine
      (fillFront commandSequence incoming first.order step).2.engine := by
    rw [fillFront_full _ full]
    exact ⟨rfl, rfl, rfl, rfl⟩
  refine change.removes intact known member wf queues ?_ ?_ ?_ <;> rw [fillFront_full _ full] <;> rfl

theorem fillFront_amends (more : incoming.remainingQuantity < first.order.remainingQuantity) :
    Amends (Resting.of incoming.instrumentId first)
      (fun order => { order with
        remainingQuantity := first.order.remainingQuantity - incoming.remainingQuantity }) step.engine
      (fillFront commandSequence incoming first.order step).2.engine ∧
    (fillFront commandSequence incoming first.order step).2.engine.orders = step.engine.orders := by
  obtain ⟨wf, queues⟩ := MatchingBook.reduceFront_spec (intact.books _ known) contents
    (first.order.remainingQuantity - incoming.remainingQuantity)
  have member : first ∈ (step.engine.bookFor incoming.instrumentId).queues incoming.side.contra := by simp [contents]
  have change : Rebooks incoming.instrumentId
      ((step.engine.bookFor incoming.instrumentId).reduceFront incoming.side.contra
        (first.order.remainingQuantity - incoming.remainingQuantity)) step.engine
      (fillFront commandSequence incoming first.order step).2.engine := by
    rw [fillFront_partly _ more]
    exact ⟨rfl, rfl, rfl, rfl⟩
  refine ⟨change.amends intact known member wf queues ?_ ?_, ?_⟩ <;> rw [fillFront_partly _ more] <;> rfl

end Fill

theorem reduced_faithful (quantity : Nat) :
    Faithful fun order => { order with remainingQuantity := quantity } :=
  ⟨fun _ => rfl, fun _ => rfl, fun _ => rfl, fun _ => rfl, fun _ => rfl⟩

section Loop
variable {commandSequence : Nat} {incoming : ExchangeRestingOrder} {step : Step}

theorem Sound.fillFront (commandSequence : Nat) (sound : step.engine.Sound)
    (known : step.engine.knowsInstrument incoming.instrumentId = true) {first : Placed} {rest : List Placed}
    (contents : (step.engine.bookFor incoming.instrumentId).queues incoming.side.contra = first :: rest) :
    (fillFront commandSequence incoming first.order step).2.engine.Sound := by
  rcases le_or_gt first.order.remainingQuantity incoming.remainingQuantity with full | more
  · exact sound.removes (fillFront_removes commandSequence sound.intact known contents full)
  · obtain ⟨change, orders⟩ := fillFront_amends commandSequence sound.intact known contents more
    have faithful := reduced_faithful (first.order.remainingQuantity - incoming.remainingQuantity)
    exact sound.amends change faithful (Nat.sub_pos_of_lt more)
      (sound.located_amends change faithful (fun _ => rfl) orders)

theorem fillFront_incoming (commandSequence : Nat) (incoming : ExchangeRestingOrder) (step : Step)
    (contra : BookOrder) :
    (fillFront commandSequence incoming contra step).1 =
      { incoming with remainingQuantity :=
          incoming.remainingQuantity - min incoming.remainingQuantity contra.remainingQuantity } := by
  simp only [fillFront]
  split_ifs <;> rfl

theorem fillFront_knows (contra : BookOrder) (id : InstrumentId) :
    (fillFront commandSequence incoming contra step).2.engine.knowsInstrument id = step.engine.knowsInstrument id := by
  simp only [fillFront]
  split_ifs <;> rfl

theorem Intact.front (intact : step.engine.Intact) {id : InstrumentId} (known : step.engine.knowsInstrument id = true)
    (side : Side) : (step.engine.bookFor id).frontOfBest side =
      ((step.engine.bookFor id).queues side).head?.map Placed.order := by
  obtain ⟨free, holds⟩ := intact.books id known
  exact holds.frontOfBest_eq side

/-- The rule for the match loop: what every fill preserves, the loop preserves. -/
theorem matchLoop_rule {commandSequence : Nat} (motive : ExchangeRestingOrder → Step → Prop)
    (preserved : ∀ incoming step first rest, motive incoming step → step.engine.Sound →
      step.engine.knowsInstrument incoming.instrumentId = true →
      (step.engine.bookFor incoming.instrumentId).queues incoming.side.contra = first :: rest →
      0 < incoming.remainingQuantity → incoming.side.Crosses incoming.price first.order.price →
      motive (fillFront commandSequence incoming first.order step).1
        (fillFront commandSequence incoming first.order step).2)
    (fuel : Nat) {incoming : ExchangeRestingOrder} {step : Step} (start : motive incoming step)
    (sound : step.engine.Sound) (known : step.engine.knowsInstrument incoming.instrumentId = true) :
    motive (matchLoop commandSequence fuel incoming step).1 (matchLoop commandSequence fuel incoming step).2 ∧
      (matchLoop commandSequence fuel incoming step).2.engine.Sound := by
  induction fuel generalizing incoming step with
  | zero => exact ⟨start, sound⟩
  | succ fuel ih =>
    unfold matchLoop
    split_ifs with done
    · exact ⟨start, sound⟩
    · rw [sound.intact.front known]
      cases contents : (step.engine.bookFor incoming.instrumentId).queues incoming.side.contra with
      | nil => exact ⟨start, sound⟩
      | cons first rest =>
        simp only [List.head?_cons, Option.map_some]
        split_ifs with crosses
        · have next := preserved incoming step first rest start sound known contents (Nat.pos_of_ne_zero done) crosses
          refine ih next (sound.fillFront commandSequence known contents) ?_
          rw [fillFront_knows, fillFront_incoming]
          exact known
        · exact ⟨start, sound⟩

end Loop

end Mdh.Matching.MatchingEngine
