import Mdh.Matching.EngineSteps
import Mdh.Matching.ReferenceMatcher

/-! The match loop against the reference matcher: the same fills in the same order, and
the same list left behind. -/

namespace Mdh.Matching.MatchingEngine
open Mdh.Core Mdh.Lib

/-- What a trade event says, read from the aggressor's side. -/
def tradeFill (event : TradeExecuted) : Reference.Fill where
  aggressorSide := event.aggressorSide
  aggressor := if event.aggressorSide = .buy then event.buyer else event.seller
  counterparty := if event.aggressorSide = .buy then event.seller else event.buyer
  price := event.price
  quantity := event.quantity

/-- The trades among a command's events. -/
def fillsOf (events : List ExchangeEvent) : List Reference.Fill :=
  events.filterMap fun
    | .tradeExecuted event => some (tradeFill event)
    | _ => none

theorem fillsOf_append (front back : List ExchangeEvent) : fillsOf (front ++ back) = fillsOf front ++ fillsOf back :=
  List.filterMap_append

theorem fillsOf_trade (commandSequence : Nat) (incoming : ExchangeRestingOrder) (contra : BookOrder)
    (quantity eventSequence : Nat) :
    fillsOf [tradeEvent commandSequence (incomingAfter incoming quantity) contra quantity
        (contra.remainingQuantity - quantity) eventSequence] =
      [Reference.fillOf (toBookOrder incoming) contra quantity] := by
  cases side : incoming.side <;>
    simp [fillsOf, tradeEvent, tradeFill, Reference.fillOf, Reference.party, Reference.traded, aggressorParty,
      restingParty, toBookOrder, incomingAfter, side]

section Front
variable {book : MatchingBook} {side : Side} {first : Placed} {rest : List Placed}

theorem slot_ne_of_front (wf : book.WellFormed) (contents : book.queues side = first :: rest) :
    (∀ placed ∈ rest, placed.slot ≠ first.slot) ∧
      ∀ other, other ≠ side → ∀ placed ∈ book.queues other, placed.slot ≠ first.slot := by
  obtain ⟨free, holds⟩ := wf
  have member : first ∈ book.queues side := by simp [contents]
  constructor
  · intro placed later same
    have nodup := holds.slots_nodup side
    rw [Queues.slots, contents, List.map_cons, List.nodup_cons] at nodup
    exact nodup.1 (same ▸ List.mem_map_of_mem later)
  · intro other different placed there same
    exact different (holds.placed_unique there member same).1

theorem remove_front (wf : book.WellFormed) (contents : book.queues side = first :: rest) (other : Side) :
    book.queues.remove first.slot other = if other = side then rest else book.queues other := by
  obtain ⟨inRest, elsewhere⟩ := slot_ne_of_front wf contents
  unfold Queues.remove
  split_ifs with same
  · subst same
    rw [contents, List.filter_cons, if_neg (by simp)]
    exact List.filter_eq_self.mpr fun placed later => by simpa using inRest placed later
  · exact List.filter_eq_self.mpr fun placed there => by simpa using elsewhere other same placed there

theorem amend_front (wf : book.WellFormed) (contents : book.queues side = first :: rest)
    (change : BookOrder → BookOrder) (other : Side) :
    book.queues.amend first.slot change other =
      if other = side then ⟨first.slot, change first.order⟩ :: rest else book.queues other := by
  obtain ⟨inRest, elsewhere⟩ := slot_ne_of_front wf contents
  have kept : ∀ entries : List Placed, (∀ placed ∈ entries, placed.slot ≠ first.slot) →
      (entries.map fun placed => if placed.slot = first.slot then
        ({ placed with order := change placed.order } : Placed) else placed) = entries := by
    intro entries different
    conv_rhs => rw [← List.map_id entries]
    exact List.map_congr_left fun placed there => if_neg (different placed there)
  unfold Queues.amend
  split_ifs with same
  · subst same
    rw [contents, List.map_cons, if_pos rfl, kept rest inRest]
  · exact kept _ (elsewhere other same)

end Front

section Loop
variable (commandSequence : Nat) {incoming : ExchangeRestingOrder} {step : Step}

/-- The books an engine shows for an instrument. -/
def queue (engine : MatchingEngine) (id : InstrumentId) (side : Side) : List Placed :=
  (engine.bookFor id).queues side

/-- Everything but one side of one book is as it was. -/
structure OnlySide (id : InstrumentId) (side : Side) (before after : MatchingEngine) : Prop where
  knows : ∀ other, after.knowsInstrument other = before.knowsInstrument other
  queues : ∀ other, before.knowsInstrument other = true → ∀ otherSide, other ≠ id ∨ otherSide ≠ side →
    after.queue other otherSide = before.queue other otherSide

theorem OnlySide.refl (id : InstrumentId) (side : Side) (engine : MatchingEngine) : OnlySide id side engine engine :=
  ⟨fun _ => rfl, fun _ _ _ _ => rfl⟩

theorem OnlySide.trans {id : InstrumentId} {side : Side} {first second third : MatchingEngine}
    (one : OnlySide id side first second) (two : OnlySide id side second third) : OnlySide id side first third :=
  ⟨fun other => (two.knows other).trans (one.knows other), fun other known otherSide different =>
    (two.queues other (one.knows other ▸ known) otherSide different).trans (one.queues other known otherSide different)⟩

/-- One fill against the head of the other side. -/
theorem fillFront_spec (sound : step.engine.Sound) (known : step.engine.knowsInstrument incoming.instrumentId = true)
    {first : Placed} {rest : List Placed}
    (contents : step.engine.queue incoming.instrumentId incoming.side.contra = first :: rest) :
    let out := fillFront commandSequence incoming first.order step
    let quantity := min incoming.remainingQuantity first.order.remainingQuantity
    OnlySide incoming.instrumentId incoming.side.contra step.engine out.2.engine ∧
    out.2.engine.queue incoming.instrumentId incoming.side.contra =
      (if quantity = first.order.remainingQuantity then rest
       else ⟨first.slot, Reference.traded first.order quantity⟩ :: rest) ∧
    fillsOf out.2.events = fillsOf step.events ++ [Reference.fillOf (toBookOrder incoming) first.order quantity] := by
  have wf := sound.intact.books _ known
  have trade := fun quantity => fillsOf_trade commandSequence incoming first.order quantity
    step.engine.nextEventSequence
  rcases le_or_gt first.order.remainingQuantity incoming.remainingQuantity with full | more
  · have change := fillFront_removes commandSequence sound.intact known contents full
    have queues : ∀ other, step.engine.knowsInstrument other = true → ∀ side,
        (fillFront commandSequence incoming first.order step).2.engine.queue other side =
          if other = incoming.instrumentId ∧ side = incoming.side.contra then rest
          else step.engine.queue other side := by
      intro other otherKnown side
      unfold queue
      rw [change.queues other otherKnown]
      by_cases here : other = incoming.instrumentId
      · rw [if_pos (by exact here), here]
        exact (remove_front wf contents side).trans (by simp)
      · rw [if_neg (by exact here), if_neg fun both => here both.1]
    refine ⟨⟨change.knows, fun other otherKnown side different => ?_⟩, ?_, ?_⟩
    · rw [queues other otherKnown, if_neg fun both => different.elim (· both.1) (· both.2)]
    · rw [queues _ known, if_pos ⟨rfl, rfl⟩, if_pos (min_eq_right full)]
    · have events := trade first.order.remainingQuantity
      rw [Nat.sub_self] at events
      rw [fillFront_full _ full, min_eq_right full]
      simp only [Step.sink, Step.onBook, Step.forget, fillsOf_append, events]
      simp [fillsOf, removedEvent]
  · obtain ⟨change, _⟩ := fillFront_amends commandSequence sound.intact known contents more
    have queues : ∀ other, step.engine.knowsInstrument other = true → ∀ side,
        (fillFront commandSequence incoming first.order step).2.engine.queue other side =
          if other = incoming.instrumentId ∧ side = incoming.side.contra then
            ⟨first.slot, Reference.traded first.order incoming.remainingQuantity⟩ :: rest
          else step.engine.queue other side := by
      intro other otherKnown side
      unfold queue
      rw [change.queues other otherKnown]
      by_cases here : other = incoming.instrumentId
      · rw [if_pos (by exact here), here]
        exact (amend_front wf contents _ side).trans (by simp [Reference.traded])
      · rw [if_neg (by exact here), if_neg fun both => here both.1]
    refine ⟨⟨change.knows, fun other otherKnown side different => ?_⟩, ?_, ?_⟩
    · rw [queues other otherKnown, if_neg fun both => different.elim (· both.1) (· both.2)]
    · rw [queues _ known, if_pos ⟨rfl, rfl⟩, min_eq_left more.le, if_neg more.ne]
    · have events := trade incoming.remainingQuantity
      rw [fillFront_partly _ more, min_eq_left more.le]
      simp only [Step.sink, Step.onBook, fillsOf_append, events]
      simp [fillsOf, reducedEvent]

/-- The loop stops here: nothing is left to trade, or the front does not cross. -/
theorem matchLoop_stop (intact : step.engine.Intact)
    (known : step.engine.knowsInstrument incoming.instrumentId = true) (fuel : Nat)
    (stop : incoming.remainingQuantity = 0 ∨
      ∀ first ∈ (step.engine.queue incoming.instrumentId incoming.side.contra).head?,
        ¬ incoming.side.Crosses incoming.price first.order.price) :
    matchLoop commandSequence fuel incoming step = (incoming, step) := by
  cases fuel with
  | zero => rfl
  | succ fuel =>
    rw [matchLoop]
    split_ifs with done
    · rfl
    · rw [intact.front known, show (step.engine.bookFor incoming.instrumentId).queues incoming.side.contra =
        step.engine.queue incoming.instrumentId incoming.side.contra from rfl]
      cases contents : step.engine.queue incoming.instrumentId incoming.side.contra with
      | nil => rfl
      | cons first rest =>
        have apart := stop.resolve_left done first (by simp [contents])
        simp only [List.head?_cons, Option.map_some, if_neg apart]

theorem matchLoop_trade (intact : step.engine.Intact)
    (known : step.engine.knowsInstrument incoming.instrumentId = true) (fuel : Nat) {first : Placed}
    {rest : List Placed} (contents : step.engine.queue incoming.instrumentId incoming.side.contra = first :: rest)
    (some : incoming.remainingQuantity ≠ 0) (crosses : incoming.side.Crosses incoming.price first.order.price) :
    matchLoop commandSequence (fuel + 1) incoming step =
      matchLoop commandSequence fuel (fillFront commandSequence incoming first.order step).1
        (fillFront commandSequence incoming first.order step).2 := by
  have front := intact.front known incoming.side.contra
  change _ = (step.engine.queue incoming.instrumentId incoming.side.contra).head?.map Placed.order at front
  rw [matchLoop, if_neg some, front, contents]
  simp only [List.head?_cons, Option.map_some, if_pos crosses]

/-- Matching `incoming` from `before` to `after` did what the reference did. -/
structure Matches (incoming : ExchangeRestingOrder) (result : Reference.Filled) (before : Step)
    (out : ExchangeRestingOrder × Step) : Prop where
  final : out.1 = { incoming with remainingQuantity := result.incoming.remainingQuantity }
  only : OnlySide incoming.instrumentId incoming.side.contra before.engine out.2.engine
  book : (out.2.engine.queue incoming.instrumentId incoming.side.contra).map Placed.order = result.book
  fills : fillsOf out.2.events = fillsOf before.events ++ result.fills

/-- The loop makes the reference's fills and leaves the reference's list. The induction is
on the fuel, and every fill that does not end the loop shortens the other side. -/
theorem matchLoop_fill (sound : step.engine.Sound)
    (known : step.engine.knowsInstrument incoming.instrumentId = true) {fuel : Nat}
    (enough : (step.engine.queue incoming.instrumentId incoming.side.contra).length < fuel) :
    Matches incoming
      (Reference.fill (toBookOrder incoming)
        ((step.engine.queue incoming.instrumentId incoming.side.contra).map Placed.order))
      step (matchLoop commandSequence fuel incoming step) := by
  induction fuel generalizing incoming step with
  | zero => simp at enough
  | succ fuel ih =>
    cases contents : step.engine.queue incoming.instrumentId incoming.side.contra with
    | nil =>
      rw [matchLoop_stop commandSequence sound.intact known _ (Or.inr (by simp [contents]))]
      exact ⟨rfl, OnlySide.refl _ _ _, by rw [contents]; rfl, (List.append_nil _).symm⟩
    | cons first rest =>
      by_cases stop : incoming.remainingQuantity = 0 ∨ ¬ incoming.side.Crosses incoming.price first.order.price
      · rw [matchLoop_stop commandSequence sound.intact known _ (stop.imp_right (by simp [contents]))]
        rw [List.map_cons, Reference.fill_stop (toBookOrder incoming) stop]
        exact ⟨rfl, OnlySide.refl _ _ _, by rw [contents]; rfl, (List.append_nil _).symm⟩
      · rw [not_or, not_not] at stop
        obtain ⟨some, crosses⟩ := stop
        obtain ⟨only, left, fills⟩ := fillFront_spec commandSequence sound known contents
        have traded := fillFront_incoming commandSequence incoming step first.order
        have sound' := sound.fillFront commandSequence known contents
        rw [matchLoop_trade commandSequence sound.intact known fuel contents some crosses, List.map_cons]
        generalize fillFront commandSequence incoming first.order step = out at *
        obtain ⟨incoming', step'⟩ := out
        simp only at traded only left fills sound' ⊢
        have known' : step'.engine.knowsInstrument incoming'.instrumentId = true := by rw [only.knows, traded, known]
        rcases le_or_gt first.order.remainingQuantity incoming.remainingQuantity with full | more
        · rw [min_eq_right full] at traded left fills
          rw [if_pos rfl] at left
          rw [contents, List.length_cons] at enough
          obtain rfl := traded
          have tail := ih sound' known' (by simp only [left]; omega)
          simp only [left] at tail
          rw [Reference.fill_full (toBookOrder incoming) some crosses full]
          exact ⟨tail.final, only.trans tail.only, tail.book, by rw [tail.fills, fills, List.append_assoc]; rfl⟩
        · rw [min_eq_left more.le] at traded left fills
          rw [if_neg more.ne] at left
          have done : incoming'.remainingQuantity = 0 := by rw [traded]; exact Nat.sub_self _
          rw [matchLoop_stop commandSequence sound'.intact known' fuel (Or.inl done)]
          rw [Reference.fill_partly (toBookOrder incoming) some crosses more]
          exact ⟨traded, only, by rw [left]; rfl, fills⟩

end Loop

end Mdh.Matching.MatchingEngine
