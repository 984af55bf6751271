import Mdh.Matching.EnginePaths

/-! An order arrives, trades and perhaps comes to rest: the step that accepting a new
order and losing priority by a replacement have in common. -/

namespace Mdh.Matching.MatchingEngine
open Mdh.Core Mdh.Lib

/-- The two lists an instrument's book shows. -/
def booksOf (engine : MatchingEngine) (id : InstrumentId) : Reference.Books where
  bids := (engine.bookFor id).allBids
  asks := (engine.bookFor id).allAsks

theorem booksOf_side (engine : MatchingEngine) (id : InstrumentId) (side : Side) :
    (engine.booksOf id).side side = (engine.queue id side).map Placed.order := by
  cases side <;> exact MatchingBook.allOf_eq _ _

theorem Books.ext_side {first second : Reference.Books} (same : ∀ side, first.side side = second.side side) :
    first = second := by
  cases first
  cases second
  have bids := same .buy
  have asks := same .sell
  simp_all [Reference.Books.side]

theorem side_setSide (books : Reference.Books) (side other : Side) (orders : List BookOrder) :
    (books.setSide side orders).side other = if other = side then orders else books.side other := by
  cases side <;> cases other <;> rfl

theorem booksOf_congr {before after : MatchingEngine} {id : InstrumentId}
    (same : ∀ side, after.queue id side = before.queue id side) : after.booksOf id = before.booksOf id := by
  refine Books.ext_side fun side => ?_
  rw [booksOf_side, booksOf_side, same]

theorem Intact.queue_ordered {engine : MatchingEngine} (intact : engine.Intact) {id : InstrumentId}
    (known : engine.knowsInstrument id = true) (side : Side) :
    PriorityList.Ordered side.Before BookOrder.price ((engine.booksOf id).side side) := by
  obtain ⟨free, holds⟩ := intact.books id known
  rw [booksOf_side]
  exact List.pairwise_map.mpr (holds.ordered side)

section MatchAndRest
variable (commandSequence : Nat) {incoming : ExchangeRestingOrder} {step : Step}

/-- The loop never runs out of fuel: a book has no more orders on a side than it counts. -/
theorem matchAndRest_matches (sound : step.engine.Sound)
    (known : step.engine.knowsInstrument incoming.instrumentId = true) :
    Matches incoming
      (Reference.fill (toBookOrder incoming)
        ((step.engine.booksOf incoming.instrumentId).side incoming.side.contra))
      step (matchAndRest commandSequence incoming step) := by
  obtain ⟨free, holds⟩ := sound.intact.books _ known
  rw [booksOf_side]
  exact matchLoop_fill commandSequence sound known (Nat.lt_succ_of_le (holds.length_le _))

/-- What every fill preserves, matching preserves. -/
theorem matchAndRest_rule (motive : ExchangeRestingOrder → Step → Prop)
    (preserved : ∀ incoming step first rest, motive incoming step → step.engine.Sound →
      step.engine.knowsInstrument incoming.instrumentId = true →
      (step.engine.bookFor incoming.instrumentId).queues incoming.side.contra = first :: rest →
      0 < incoming.remainingQuantity → incoming.side.Crosses incoming.price first.order.price →
      motive (fillFront commandSequence incoming first.order step).1
        (fillFront commandSequence incoming first.order step).2)
    (start : motive incoming step) (sound : step.engine.Sound)
    (known : step.engine.knowsInstrument incoming.instrumentId = true) :
    motive (matchAndRest commandSequence incoming step).1 (matchAndRest commandSequence incoming step).2 ∧
      (matchAndRest commandSequence incoming step).2.engine.Sound :=
  matchLoop_rule motive preserved _ start sound known

theorem matchAndRest_sound (sound : step.engine.Sound)
    (known : step.engine.knowsInstrument incoming.instrumentId = true) :
    (matchAndRest commandSequence incoming step).2.engine.Sound :=
  (matchAndRest_rule commandSequence (fun _ _ => True) (fun _ _ _ _ _ _ _ _ _ _ => trivial) trivial sound known).2

theorem fillFront_unissued (sound : step.engine.Sound)
    (known : step.engine.knowsInstrument incoming.instrumentId = true) {first : Placed} {rest : List Placed}
    (contents : (step.engine.bookFor incoming.instrumentId).queues incoming.side.contra = first :: rest)
    {exchangeOrderId : Nat} (unissued : step.engine.Unissued exchangeOrderId) :
    (fillFront commandSequence incoming first.order step).2.engine.Unissued exchangeOrderId := by
  rcases le_or_gt first.order.remainingQuantity incoming.remainingQuantity with full | more
  · exact unissued.removes (fillFront_removes commandSequence sound.intact known contents full)
  · obtain ⟨change, _⟩ := fillFront_amends commandSequence sound.intact known contents more
    exact unissued.amends change (reduced_faithful _)

theorem matchAndRest_unissued (sound : step.engine.Sound)
    (known : step.engine.knowsInstrument incoming.instrumentId = true) {exchangeOrderId : Nat}
    (unissued : step.engine.Unissued exchangeOrderId) :
    (matchAndRest commandSequence incoming step).2.engine.Unissued exchangeOrderId ∧
      (matchAndRest commandSequence incoming step).2.engine.Sound :=
  matchAndRest_rule commandSequence (fun _ step => step.engine.Unissued exchangeOrderId)
    (fun _ _ _ _ unissued sound known contents _ _ => fillFront_unissued commandSequence sound known contents unissued)
    unissued sound known

/-- A remainder has nothing left to trade with. -/
theorem matchAndRest_clear (sound : step.engine.Sound)
    (known : step.engine.knowsInstrument incoming.instrumentId = true)
    (left : (matchAndRest commandSequence incoming step).1.remainingQuantity ≠ 0) :
    ∀ order ∈ ((matchAndRest commandSequence incoming step).2.engine.booksOf incoming.instrumentId).side
        incoming.side.contra, ¬ incoming.side.Crosses incoming.price order.price := by
  have done := matchAndRest_matches commandSequence sound known
  rw [done.final] at left
  have leaves := Reference.fill_leaves (toBookOrder incoming) (sound.intact.queue_ordered known _) left
  intro order member
  rw [booksOf_side, done.book] at member
  have member := leaves ▸ member
  exact of_decide_eq_true (List.mem_filter.mp member).2

/-- The books that matching leaves: one side of one of them is shorter. -/
theorem matchAndRest_books (sound : step.engine.Sound)
    (known : step.engine.knowsInstrument incoming.instrumentId = true) {id : InstrumentId}
    (idKnown : step.engine.knowsInstrument id = true) (side : Side) :
    ((matchAndRest commandSequence incoming step).2.engine.booksOf id).side side =
      if id = incoming.instrumentId ∧ side = incoming.side.contra then
        (Reference.fill (toBookOrder incoming)
          ((step.engine.booksOf incoming.instrumentId).side incoming.side.contra)).book
      else (step.engine.booksOf id).side side := by
  have done := matchAndRest_matches commandSequence sound known
  rw [booksOf_side]
  split_ifs with here
  · obtain ⟨rfl, rfl⟩ := here
    exact done.book
  · rw [not_and_or] at here
    rw [done.only.queues id idKnown side here, booksOf_side]

end MatchAndRest

section Resting
variable {engine : MatchingEngine}

theorem Intact.mem_booksOf (intact : engine.Intact) {entry : Resting} (member : entry ∈ engine.resting) :
    engine.knowsInstrument entry.instrumentId = true ∧
      entry.order ∈ (engine.booksOf entry.instrumentId).side entry.order.side := by
  obtain ⟨known, side, there⟩ := (intact.registry.mem_resting entry).mp member
  obtain ⟨free, holds⟩ := intact.books _ known
  have own := holds.ownSide side _ there
  refine ⟨known, ?_⟩
  rw [booksOf_side, own]
  exact List.mem_map_of_mem there

/-- An order rests on an instrument exactly when it is in the list of its side. -/
theorem Intact.rests_iff (intact : engine.Intact) (id : InstrumentId) (order : BookOrder) :
    (∃ entry ∈ engine.resting, entry.instrumentId = id ∧ entry.order = order) ↔
      engine.knowsInstrument id = true ∧ order ∈ (engine.booksOf id).side order.side := by
  constructor
  · rintro ⟨entry, member, rfl, rfl⟩
    exact intact.mem_booksOf member
  · rintro ⟨known, member⟩
    rw [booksOf_side] at member
    obtain ⟨placed, there, rfl⟩ := List.mem_map.mp member
    exact ⟨Resting.of id placed, intact.mem_resting known there, rfl, rfl⟩

end Resting

section Arrive
variable (commandSequence : Nat) {incoming : ExchangeRestingOrder} {step : Step}

/-- A remainder that rests is an order added to the books matching left. -/
theorem matchThenRest_adds (sound : step.engine.Sound)
    (known : step.engine.knowsInstrument incoming.instrumentId = true)
    (gtc : incoming.timeInForce = .gtc)
    (left : (matchAndRest commandSequence incoming step).1.remainingQuantity ≠ 0) :
    let out := matchAndRest commandSequence incoming step
    Adds (rested out.1 out.2.engine) (restedRef out.1 out.2.engine) out.2.engine
        (matchThenRest commandSequence incoming step).engine ∧
      (matchThenRest commandSequence incoming step).events =
        out.2.events ++ [addedEvent out.1 out.2.engine.nextEventSequence] := by
  have done := matchAndRest_matches commandSequence sound known
  have sound' := matchAndRest_sound commandSequence sound known
  refine restRemainder_adds sound'.intact ?_ ?_ left
  · rw [done.final]
    rw [done.only.knows]
    exact known
  · rw [done.final]
    exact gtc

theorem matchThenRest_stays (stays : (matchAndRest commandSequence incoming step).1.timeInForce ≠ .gtc ∨
    (matchAndRest commandSequence incoming step).1.remainingQuantity = 0) :
    matchThenRest commandSequence incoming step = (matchAndRest commandSequence incoming step).2 :=
  restRemainder_stays stays

variable (incoming) in
theorem matchThenRest_discards (sound : step.engine.Sound)
    (known : step.engine.knowsInstrument incoming.instrumentId = true) (immediate : incoming.timeInForce ≠ .gtc) :
    matchThenRest commandSequence incoming step = (matchAndRest commandSequence incoming step).2 := by
  have done := matchAndRest_matches commandSequence sound known
  exact matchThenRest_stays commandSequence (Or.inl (by rw [done.final]; exact immediate))

variable (incoming) in
/-- An order that is not good till cancelled leaves nothing behind. -/
theorem matchThenRest_unissued (sound : step.engine.Sound)
    (known : step.engine.knowsInstrument incoming.instrumentId = true) (immediate : incoming.timeInForce ≠ .gtc)
    {exchangeOrderId : Nat} (unissued : step.engine.Unissued exchangeOrderId) :
    (matchThenRest commandSequence incoming step).engine.Unissued exchangeOrderId := by
  rw [matchThenRest_discards commandSequence incoming sound known immediate]
  exact (matchAndRest_unissued commandSequence sound known unissued).1

theorem matchThenRest_sound (sound : step.engine.Sound)
    (known : step.engine.knowsInstrument incoming.instrumentId = true) (price : 0 < incoming.price)
    (unissued : step.engine.Unissued incoming.exchangeOrderId) :
    (matchThenRest commandSequence incoming step).engine.Sound := by
  have done := matchAndRest_matches commandSequence sound known
  obtain ⟨unissued', sound'⟩ := matchAndRest_unissued commandSequence sound known unissued
  by_cases stays : (matchAndRest commandSequence incoming step).1.timeInForce ≠ .gtc ∨
      (matchAndRest commandSequence incoming step).1.remainingQuantity = 0
  · rw [matchThenRest_stays commandSequence stays]
    exact sound'
  · rw [not_or, not_not] at stays
    obtain ⟨gtc, left⟩ := stays
    have clear := matchAndRest_clear commandSequence sound known left
    have same := done.final
    have sameTime : (matchAndRest commandSequence incoming step).1.timeInForce = incoming.timeInForce := by rw [same]
    obtain ⟨change, _⟩ := matchThenRest_adds commandSequence sound known (sameTime ▸ gtc) left
    refine sound'.adds change gtc ⟨?_, Nat.pos_of_ne_zero left⟩ ?_ ?_
    · change 0 < (matchAndRest commandSequence incoming step).1.price
      rw [same]
      exact price
    · change Unissued _ (matchAndRest commandSequence incoming step).1.exchangeOrderId
      rw [same]
      exact unissued'
    · intro other member here opposite
      have there := (sound'.intact.mem_booksOf member).2
      change other.instrumentId = (matchAndRest commandSequence incoming step).1.instrumentId at here
      change other.order.side = (matchAndRest commandSequence incoming step).1.side.contra at opposite
      change ¬ (matchAndRest commandSequence incoming step).1.side.Crosses
        (matchAndRest commandSequence incoming step).1.price other.order.price
      rw [same] at here opposite ⊢
      rw [here, opposite] at there
      exact clear _ there

/-- The books of an instrument after an order joins its queue. -/
theorem Adds.booksOf {before after : MatchingEngine} {entry : Resting} {ref : OrderRef}
    (change : Adds entry ref before after) (id : InstrumentId) (known : before.knowsInstrument id = true) :
    after.booksOf id =
      if id = entry.instrumentId then (before.booksOf id).rest entry.order else before.booksOf id := by
  have queues := change.queues id known
  split_ifs with same
  · rw [if_pos same] at queues
    refine Books.ext_side fun side => ?_
    rw [booksOf_side, Reference.Books.rest, side_setSide, booksOf_side, booksOf_side]
    unfold queue
    rw [queues, Queues.enqueue]
    split_ifs with own
    · rw [own]
      exact PriorityList.enqueue_map entry.order.side.Before Placed.price Placed.order BookOrder.price (fun _ => rfl)
        ⟨entry.slot, entry.order⟩ _
    · rfl
  · rw [if_neg same] at queues
    refine booksOf_congr fun side => ?_
    unfold queue
    rw [queues]

variable (incoming) in
/-- Arriving is what the reference does with an incoming order. -/
theorem matchThenRest_accept (sound : step.engine.Sound)
    (known : step.engine.knowsInstrument incoming.instrumentId = true) :
    let after := matchThenRest commandSequence incoming step
    let expected := (step.engine.booksOf incoming.instrumentId).accept (toBookOrder incoming)
    fillsOf after.events = fillsOf step.events ++ expected.1 ∧
      after.engine.booksOf incoming.instrumentId = expected.2 ∧
      ∀ other, other ≠ incoming.instrumentId → step.engine.knowsInstrument other = true →
        after.engine.booksOf other = step.engine.booksOf other := by
  have done := matchAndRest_matches commandSequence sound known
  have final := Reference.fill_incoming (toBookOrder incoming)
    ((step.engine.booksOf incoming.instrumentId).side incoming.side.contra)
  have matched : (matchAndRest commandSequence incoming step).2.engine.booksOf incoming.instrumentId =
      (step.engine.booksOf incoming.instrumentId).setSide incoming.side.contra
        (Reference.fill (toBookOrder incoming)
          ((step.engine.booksOf incoming.instrumentId).side incoming.side.contra)).book := by
    refine Books.ext_side fun side => ?_
    rw [side_setSide, matchAndRest_books commandSequence sound known known]
    simp only [true_and]
  have elsewhere : ∀ other, other ≠ incoming.instrumentId → step.engine.knowsInstrument other = true →
      (matchAndRest commandSequence incoming step).2.engine.booksOf other = step.engine.booksOf other :=
    fun other different otherKnown => Books.ext_side fun side => by
      rw [matchAndRest_books commandSequence sound known otherKnown, if_neg fun both => different both.1]
  by_cases stays : (matchAndRest commandSequence incoming step).1.timeInForce ≠ .gtc ∨
      (matchAndRest commandSequence incoming step).1.remainingQuantity = 0
  · rw [matchThenRest_stays commandSequence stays]
    rw [done.final] at stays
    refine ⟨done.fills, ?_, elsewhere⟩
    rw [matched, Reference.Books.accept]
    have discarded : ¬ (incoming.timeInForce = .gtc ∧ (Reference.fill (toBookOrder incoming)
        ((step.engine.booksOf incoming.instrumentId).side incoming.side.contra)).incoming.remainingQuantity ≠ 0) := by
      rwa [not_and_or, not_not]
    exact (if_neg discarded).symm
  · rw [not_or, not_not] at stays
    obtain ⟨gtc, left⟩ := stays
    have sameTime : (matchAndRest commandSequence incoming step).1.timeInForce = incoming.timeInForce := by
      rw [done.final]
    obtain ⟨change, events⟩ := matchThenRest_adds commandSequence sound known (sameTime ▸ gtc) left
    have books := fun other otherKnown => change.booksOf other ((done.only.knows other).trans otherKnown)
    have here : (rested (matchAndRest commandSequence incoming step).1
        (matchAndRest commandSequence incoming step).2.engine).instrumentId = incoming.instrumentId := by
      change (matchAndRest commandSequence incoming step).1.instrumentId = _
      rw [done.final]
    have order : (rested (matchAndRest commandSequence incoming step).1
        (matchAndRest commandSequence incoming step).2.engine).order =
          (Reference.fill (toBookOrder incoming)
            ((step.engine.booksOf incoming.instrumentId).side incoming.side.contra)).incoming := by
      rw [final]
      change toBookOrder (matchAndRest commandSequence incoming step).1 = _
      rw [done.final]
      rfl
    rw [done.final] at left
    refine ⟨?_, ?_, fun other different otherKnown => ?_⟩
    · rw [events, fillsOf_append, done.fills]
      exact (List.append_nil _)
    · rw [books _ known, if_pos here.symm, matched, order, Reference.Books.accept]
      exact (if_pos ⟨sameTime.symm.trans gtc, left⟩).symm
    · rw [books other otherKnown, here, if_neg different]
      exact elsewhere other different otherKnown

end Arrive

end Mdh.Matching.MatchingEngine
