import Mdh.Accounts.Settlement
import Mdh.Matching.DirectoryAgreement
import Mdh.Risk.RiskGatedEngine

/-! Ledger and engine in the middle of a command. The two only meet in the event stream:
what a fill does to the resting orders, its events do to the open holds. -/

namespace Mdh.Risk
open Mdh.Core Mdh.Lib Mdh.Matching Mdh.Matching.MatchingEngine Mdh.Accounts

/-- The reservation a resting order should have. -/
def reservationOf (entry : Resting) : Reservation where
  accountId := entry.order.accountId
  clientOrderId := entry.order.clientOrderId
  instrumentId := entry.instrumentId
  side := entry.order.side
  limitPrice := entry.order.price
  remaining := entry.order.remainingQuantity

/-- The reservation of an order on its way to the book. -/
def reservationFor (incoming : ExchangeRestingOrder) : Reservation where
  accountId := incoming.accountId
  clientOrderId := incoming.clientOrderId
  instrumentId := incoming.instrumentId
  side := incoming.side
  limitPrice := incoming.price
  remaining := incoming.remainingQuantity

/-- An incoming order has a hold while it is GTC and something of it is left. -/
def awaiting (incoming : ExchangeRestingOrder) : List Reservation :=
  if incoming.timeInForce = .gtc then (reservationFor incoming).stillOpen else []

/-- The ledger a command's events have led to so far. -/
def settled (ledger : Ledger) (step : Step) : Ledger := step.events.foldl (Ledger.apply .exact) ledger

/-- In the middle of a command the holds are those of the resting orders and, if it is
one to be reserved for, of the incoming order. -/
structure InFlight (incoming : ExchangeRestingOrder) (engine : MatchingEngine) (ledger : Ledger) : Prop where
  fresh : ∀ entry ∈ engine.resting, (reservationOf entry).key ≠ (reservationFor incoming).key
  holds : ledger.reservations.Perm (awaiting incoming ++ engine.resting.map reservationOf)
  backed : Backed ledger

theorem settled_sink (ledger : Ledger) (step : Step) (event : Nat → ExchangeEvent) :
    settled ledger (step.sink event) =
      Ledger.apply .exact (settled ledger step) (event step.engine.nextEventSequence) := by
  unfold settled
  rw [Step.sink, List.foldl_append]
  rfl

theorem perm_swap {α : Type*} (first second rest : List α) :
    (first ++ (second ++ rest)).Perm (second ++ (first ++ rest)) := by
  rw [← List.append_assoc, ← List.append_assoc]
  exact List.perm_append_comm.append_right rest

section Fill
variable (commandSequence : Nat) {incoming : ExchangeRestingOrder} {step : Step} {first : Placed} {rest : List Placed}

/-- A fill takes the traded quantity off the resting order, and the order off the book when
that was all of it. -/
theorem fillFront_resting (sound : step.engine.Sound)
    (known : step.engine.knowsInstrument incoming.instrumentId = true)
    (contents : (step.engine.bookFor incoming.instrumentId).queues incoming.side.contra = first :: rest) :
    let left := first.order.remainingQuantity - min incoming.remainingQuantity first.order.remainingQuantity
    let entry := Resting.of incoming.instrumentId first
    ∃ others, step.engine.resting.Perm (entry :: others) ∧
      ((fillFront commandSequence incoming first.order step).2.engine.resting.map reservationOf).Perm
        ({ reservationOf entry with remaining := left : Reservation }.stillOpen ++ others.map reservationOf) := by
  rcases le_or_gt first.order.remainingQuantity incoming.remainingQuantity with full | more
  · have change := fillFront_removes commandSequence sound.intact known contents full
    refine ⟨_, change.resting, ?_⟩
    rw [min_eq_right full, Nat.sub_self, Reservation.stillOpen, if_pos rfl]
    exact List.Perm.refl _
  · obtain ⟨change, _⟩ := fillFront_amends commandSequence sound.intact known contents more
    obtain ⟨others, was, is⟩ := change.resting
    refine ⟨others, was, ?_⟩
    rw [min_eq_left more.le, Reservation.stillOpen, if_neg (Nat.sub_pos_of_lt more).ne']
    exact is.map reservationOf

/-- What the trade leaves of the incoming order's own hold. -/
theorem aggressor_turns (quantity : Nat) (price : Int) (some : incoming.remainingQuantity ≠ 0)
    (enough : quantity ≤ incoming.remainingQuantity) :
    LegTurns (aggressorParty (incomingAfter incoming quantity)) incoming.side incoming.instrumentId price quantity
      (awaiting incoming) (awaiting (incomingAfter incoming quantity))
      (if incoming.timeInForce = .gtc then
        reserveShift incoming.side incoming.price quantity (-1) + settleShift incoming.side price quantity
      else settleShift incoming.side price quantity) := by
  unfold awaiting
  by_cases gtc : incoming.timeInForce = .gtc
  · have still : (incomingAfter incoming quantity).timeInForce = .gtc := gtc
    have held : (reservationFor incoming).stillOpen = [reservationFor incoming] := by
      rw [Reservation.stillOpen, if_neg (by exact some)]
    rw [if_pos gtc, if_pos still, if_pos gtc, held]
    refine LegTurns.held (reservationFor incoming) rfl rfl rfl ?_
    exact (Nat.sub_add_cancel enough).symm
  · have still : (incomingAfter incoming quantity).timeInForce ≠ .gtc := gtc
    rw [if_neg gtc, if_neg still, if_neg gtc]
    exact LegTurns.free

/-- What the trade leaves of the resting order's hold. -/
theorem contra_turns (sound : step.engine.Sound)
    (known : step.engine.knowsInstrument incoming.instrumentId = true)
    (contents : (step.engine.bookFor incoming.instrumentId).queues incoming.side.contra = first :: rest)
    (quantity : Nat) (enough : quantity ≤ first.order.remainingQuantity) :
    LegTurns (restingParty first.order (first.order.remainingQuantity - quantity)) incoming.side.contra
      incoming.instrumentId first.order.price quantity [reservationOf (Resting.of incoming.instrumentId first)]
      { reservationOf (Resting.of incoming.instrumentId first) with
        remaining := first.order.remainingQuantity - quantity : Reservation }.stillOpen
      (reserveShift incoming.side.contra first.order.price quantity (-1) +
        settleShift incoming.side.contra first.order.price quantity) := by
  obtain ⟨free, holds⟩ := sound.intact.books _ known
  have own := holds.ownSide _ first (by rw [contents]; exact List.mem_cons_self)
  exact LegTurns.held (reservationOf (Resting.of incoming.instrumentId first)) rfl own rfl
    (Nat.sub_add_cancel enough).symm

/-- How the incoming order's account moves with a fill. -/
def aggressorShift (incoming : ExchangeRestingOrder) (price : Int) (quantity : Nat) : Shift :=
  if incoming.timeInForce = .gtc then
    reserveShift incoming.side incoming.price quantity (-1) + settleShift incoming.side price quantity
  else settleShift incoming.side price quantity

/-- How the resting order's account moves with a fill at its own price. -/
def contraShift (side : Side) (price : Int) (quantity : Nat) : Shift :=
  reserveShift side price quantity (-1) + settleShift side price quantity

/-- One fill: the ledger settles both legs, and stays in step. -/
theorem fillFront_settles (ledger : Ledger) (sound : step.engine.Sound)
    (known : step.engine.knowsInstrument incoming.instrumentId = true)
    (contents : (step.engine.bookFor incoming.instrumentId).queues incoming.side.contra = first :: rest)
    (some : incoming.remainingQuantity ≠ 0) (flight : InFlight incoming step.engine (settled ledger step)) :
    let quantity := min incoming.remainingQuantity first.order.remainingQuantity
    let out := fillFront commandSequence incoming first.order step
    InFlight out.1 out.2.engine (settled ledger out.2) ∧
      Trades incoming.instrumentId incoming.accountId (aggressorShift incoming first.order.price quantity)
        first.order.accountId (contraShift incoming.side.contra first.order.price quantity)
        (settled ledger step) (settled ledger out.2) := by
  intro quantity out
  obtain ⟨others, was, is⟩ := fillFront_resting commandSequence sound known contents
  obtain ⟨events, _⟩ := fillFront_events commandSequence incoming step first.order
  have final : out.1 = incomingAfter incoming quantity := fillFront_incoming commandSequence incoming step first.order
  have aggressor := aggressor_turns quantity first.order.price some (min_le_left _ first.order.remainingQuantity)
  have contra := contra_turns sound known contents quantity (min_le_right incoming.remainingQuantity _)
  -- The book's own event says nothing to the ledger.
  have settles : settled ledger out.2 = Ledger.apply .exact (settled ledger step)
      (tradeEvent commandSequence (incomingAfter incoming quantity) first.order quantity
        (first.order.remainingQuantity - quantity) step.engine.nextEventSequence) := by
    unfold settled
    rw [events, List.foldl_append, List.foldl_cons, List.foldl_cons, List.foldl_nil]
    unfold bookEvent
    split_ifs <;> rfl
  have holds : (settled ledger step).reservations.Perm
      (awaiting incoming ++ ([reservationOf (Resting.of incoming.instrumentId first)] ++ others.map reservationOf)) :=
    flight.holds.trans ((was.map reservationOf).append_left _)
  have fresh : ∀ reservation ∈ reservationOf (Resting.of incoming.instrumentId first) :: others.map reservationOf,
      reservation.key ≠ (reservationFor incoming).key := by
    intro reservation member
    rw [← List.map_cons] at member
    obtain ⟨entry, there, rfl⟩ := List.mem_map.mp member
    exact flight.fresh entry (was.mem_iff.mpr there)
  have result : Trades incoming.instrumentId incoming.accountId (aggressorShift incoming first.order.price quantity)
      first.order.accountId (contraShift incoming.side.contra first.order.price quantity)
        (settled ledger step) (settled ledger out.2) ∧
      (settled ledger out.2).reservations.Perm (awaiting (incomingAfter incoming quantity) ++
        ({ reservationOf (Resting.of incoming.instrumentId first) with
            remaining := first.order.remainingQuantity - quantity : Reservation }.stillOpen ++
          others.map reservationOf)) ∧ Backed (settled ledger out.2) := by
    rw [settles]
    cases side : incoming.side with
    | buy =>
      let trade : TradeExecuted := {
        eventSequence := step.engine.nextEventSequence
        commandSequence
        instrumentId := incoming.instrumentId
        price := first.order.price
        quantity
        aggressorSide := .buy
        buyer := aggressorParty (incomingAfter incoming quantity)
        seller := restingParty first.order (first.order.remainingQuantity - quantity) }
      have event : tradeEvent commandSequence (incomingAfter incoming quantity) first.order quantity
          (first.order.remainingQuantity - quantity) step.engine.nextEventSequence = .tradeExecuted trade := by
        simp [tradeEvent, incomingAfter, side, trade]
      rw [side] at aggressor contra
      rw [event]
      unfold aggressorShift
      rw [side]
      exact onTradeExecuted_turns trade flight.backed aggressor contra holds
        (fun _ reservation member => fresh reservation member) (by simp)
    | sell =>
      let trade : TradeExecuted := {
        eventSequence := step.engine.nextEventSequence
        commandSequence
        instrumentId := incoming.instrumentId
        price := first.order.price
        quantity
        aggressorSide := .sell
        buyer := restingParty first.order (first.order.remainingQuantity - quantity)
        seller := aggressorParty (incomingAfter incoming quantity) }
      have event : tradeEvent commandSequence (incomingAfter incoming quantity) first.order quantity
          (first.order.remainingQuantity - quantity) step.engine.nextEventSequence = .tradeExecuted trade := by
        simp [tradeEvent, incomingAfter, side, trade]
      rw [side] at aggressor contra
      rw [event]
      unfold aggressorShift
      rw [side]
      obtain ⟨trades, left, backed⟩ := onTradeExecuted_turns trade flight.backed contra aggressor
        (holds.trans (perm_swap _ _ _)) (by simp) fun _ reservation member => fresh reservation member
      exact ⟨trades.symm, left.trans (perm_swap _ _ _), backed⟩
  obtain ⟨trades, left, backed⟩ := result
  refine ⟨⟨fun entry member => ?_, ?_, backed⟩, trades⟩
  · rw [final]
    have inside := (is.mem_iff).mp (List.mem_map_of_mem member)
    rcases List.mem_append.mp inside with here | other
    · exact (stillOpen_key here).trans_ne (fresh (reservationOf (Resting.of incoming.instrumentId first)) List.mem_cons_self)
    · exact fresh _ (List.mem_cons_of_mem _ other)
  · rw [final]
    exact left.trans (is.symm.append_left _)

end Fill

section Arrive
variable (commandSequence : Nat) {incoming : ExchangeRestingOrder} {step : Step}

/-- Once nothing of the incoming order can trade, its hold is that of what rests of it. -/
theorem restRemainder_settles (ledger : Ledger) (sound : step.engine.Sound)
    (known : step.engine.knowsInstrument incoming.instrumentId = true)
    (flight : InFlight incoming step.engine (settled ledger step)) :
    let after := restRemainderIfApplicable incoming step
    settled ledger after = settled ledger step ∧
      (settled ledger step).reservations.Perm (after.engine.resting.map reservationOf) := by
  by_cases stays : incoming.timeInForce ≠ .gtc ∨ incoming.remainingQuantity = 0
  · rw [restRemainder_stays stays]
    have none : awaiting incoming = [] := by
      unfold awaiting
      rcases stays with immediate | filled
      · exact if_neg immediate
      · have closed : (reservationFor incoming).stillOpen = [] := if_pos filled
        rw [closed, ite_self]
    have holds := flight.holds
    rw [none] at holds
    exact ⟨rfl, holds⟩
  · rw [not_or, not_not] at stays
    obtain ⟨gtc, left⟩ := stays
    obtain ⟨change, events⟩ := restRemainder_adds sound.intact known gtc left
    have rests : awaiting incoming = [reservationOf (rested incoming step.engine)] := by
      unfold awaiting
      rw [if_pos gtc, Reservation.stillOpen, if_neg (by exact left)]
      rfl
    have holds := flight.holds
    rw [rests] at holds
    refine ⟨?_, holds.trans (change.resting.map reservationOf).symm⟩
    unfold settled
    rw [events, List.foldl_append]
    rfl

/-- An arriving order's trades, one after the other: each at a price the order crosses. -/
inductive Trading (incoming : ExchangeRestingOrder) (before : Ledger) : ExchangeRestingOrder → Ledger → Prop where
  | none : Trading incoming before incoming before
  | next {order : ExchangeRestingOrder} {middle after : Ledger} (earlier : Trading incoming before order middle)
      (contra : BookOrder) (price : 0 < contra.price) (crosses : order.side.Crosses order.price contra.price)
      (quantity : Nat) (enough : quantity ≤ order.remainingQuantity)
      (trades : Trades order.instrumentId order.accountId (aggressorShift order contra.price quantity)
        contra.accountId (contraShift order.side.contra contra.price quantity) middle after) :
      Trading incoming before (incomingAfter order quantity) after

variable (incoming) in
/-- An arrival: the ledger settles the trades, and when they are over the holds are those of the
resting orders again. -/
theorem matchThenRest_settles (ledger : Ledger) (sound : step.engine.Sound)
    (known : step.engine.knowsInstrument incoming.instrumentId = true)
    (flight : InFlight incoming step.engine (settled ledger step)) :
    let after := matchThenRest commandSequence incoming step
    (settled ledger after).reservations.Perm (after.engine.resting.map reservationOf) ∧
      Backed (settled ledger after) ∧ ∃ left, Trading incoming (settled ledger step) left (settled ledger after) := by
  intro after
  obtain ⟨⟨flight', trading⟩, sound'⟩ := matchAndRest_rule commandSequence
    (fun order middle => InFlight order middle.engine (settled ledger middle) ∧
      Trading incoming (settled ledger step) order (settled ledger middle))
    (fun order middle first rest ⟨flight, earlier⟩ sound known contents some crosses => by
      obtain ⟨next, trades⟩ := fillFront_settles commandSequence ledger sound known contents some.ne' flight
      have member : Resting.of order.instrumentId first ∈ middle.engine.resting :=
        sound.intact.mem_resting known (by rw [contents]; exact List.mem_cons_self)
      refine ⟨next, ?_⟩
      rw [fillFront_incoming]
      exact earlier.next first.order (sound.positive _ member).1 crosses _ (min_le_left _ _) trades)
    ⟨flight, Trading.none⟩ sound known
  have known' : (matchAndRest commandSequence incoming step).2.engine.knowsInstrument
      (matchAndRest commandSequence incoming step).1.instrumentId = true := by
    have done := matchAndRest_matches commandSequence sound known
    rw [done.final, done.only.knows]
    exact known
  obtain ⟨same, rests⟩ := restRemainder_settles ledger sound' known' flight'
  have settles : settled ledger after = settled ledger (matchAndRest commandSequence incoming step).2 := same
  rw [settles]
  exact ⟨rests, flight'.backed, _, trading⟩

end Arrive

end Mdh.Risk
