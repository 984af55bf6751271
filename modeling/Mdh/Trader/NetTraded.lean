import Mdh.Trader.StrategyDesk

/-! What an account buys less what it sells. An account of which nothing rests trades only by the
orders it sends, and by an immediate one no more than its quantity and only on its side. -/

namespace Mdh.Trader
open Mdh.Core Mdh.Lib Mdh.Matching Mdh.Matching.MatchingEngine Mdh.Risk Mdh.Risk.RiskGatedEngine Mdh.Gateway

/-- What a trade moves for one of its parties, if that is the account. -/
def legUnits (account : AccountId) (party : TradeCounterparty) (quantity : Nat) : Int :=
  if party.accountId = account then quantity else 0

def unitsMoved (account : AccountId) : ExchangeEvent → Int
  | .tradeExecuted event => legUnits account event.buyer event.quantity - legUnits account event.seller event.quantity
  | .orderAccepted _ | .orderRejected _ | .orderCancelled _ | .orderReplaced _ | .bookOrderAdded _ | .bookOrderReduced _
  | .bookOrderRemoved _ => 0

/-- What the account has bought less what it has sold. -/
def netTraded (account : AccountId) (events : List ExchangeEvent) : Int := (events.map (unitsMoved account)).sum

theorem netTraded_append (account : AccountId) (front back : List ExchangeEvent) :
    netTraded account (front ++ back) = netTraded account front + netTraded account back := by
  unfold netTraded
  rw [List.map_append, List.sum_append]

theorem netTraded_cons (account : AccountId) (event : ExchangeEvent) (rest : List ExchangeEvent) :
    netTraded account (event :: rest) = unitsMoved account event + netTraded account rest := by
  unfold netTraded
  rw [List.map_cons, List.sum_cons]

/-- Nothing of the account rests. -/
def Absent (account : AccountId) (engine : MatchingEngine) : Prop := ∀ entry ∈ engine.resting, entry.key.accountId ≠ account

/-- The units moved are on the side, and no more than the quantity. -/
def WithinSide (quantity : Nat) (units : Int) : Side → Prop
  | .buy => 0 ≤ units ∧ units ≤ quantity
  | .sell => -(quantity : Int) ≤ units ∧ units ≤ 0

section WithinSide
variable {first second : Nat} {units more : Int} {side : Side}

theorem withinSide_zero (quantity : Nat) (side : Side) : WithinSide quantity 0 side := by
  cases side with
  | buy => exact ⟨le_rfl, Int.natCast_nonneg quantity⟩
  | sell => exact ⟨neg_nonpos.mpr (Int.natCast_nonneg quantity), le_rfl⟩

theorem WithinSide.add (here : WithinSide first units side) (there : WithinSide second more side) :
    WithinSide (first + second) (units + more) side := by
  cases side with
  | buy | sell =>
    unfold WithinSide at here there ⊢
    dsimp only at here there ⊢
    omega

theorem WithinSide.mono (here : WithinSide first units side) (larger : first ≤ second) : WithinSide second units side := by
  cases side with
  | buy | sell =>
    unfold WithinSide at here ⊢
    dsimp only at here ⊢
    omega

end WithinSide

section Immediate
variable (commandSequence : Nat) {account : AccountId} {incoming : ExchangeRestingOrder} {step : Step}

theorem absent_shown {engine : MatchingEngine} (absent : Absent account engine) (views : OrderViews) :
    Shown account views engine := fun entry member own => absurd own (absent entry member)

/-- One fill of an order of the account, against another account's. -/
theorem fillFront_net (sound : step.engine.Sound) (known : step.engine.knowsInstrument incoming.instrumentId = true)
    {first : Placed} {rest : List Placed}
    (contents : (step.engine.bookFor incoming.instrumentId).queues incoming.side.contra = first :: rest)
    (own : incoming.accountId = account) (absent : Absent account step.engine) :
    let out := fillFront commandSequence incoming first.order step
    ∃ later, out.2.events = step.events ++ later ∧ Absent account out.2.engine ∧
      WithinSide (incoming.remainingQuantity - out.1.remainingQuantity) (netTraded account later) incoming.side := by
  intro out
  have front : Resting.of incoming.instrumentId first ∈ step.engine.resting :=
    sound.intact.mem_resting known (by rw [contents]; exact List.mem_cons_self)
  have other : first.order.accountId ≠ account := absent _ front
  have final := fillFront_incoming commandSequence incoming step first.order
  refine ⟨_, (fillFront_events commandSequence incoming step first.order).1, fun entry member => ?_, ?_⟩
  · intro same
    obtain ⟨old, there, key, _⟩ := fillFront_entries commandSequence sound known contents
      (absent_shown absent fun _ => none) member same
    exact absent old there (key ▸ same)
  · have quiet (left eventSequence : Nat) : unitsMoved account (bookEvent incoming.instrumentId first.order left eventSequence) =
        0 := by
      unfold bookEvent
      split_ifs <;> rfl
    have filled : incoming.remainingQuantity - out.1.remainingQuantity =
        min incoming.remainingQuantity first.order.remainingQuantity := by
      show incoming.remainingQuantity - (fillFront commandSequence incoming first.order step).1.remainingQuantity = _
      rw [final]
      dsimp only
      omega
    rw [netTraded_cons, netTraded_cons, quiet, filled]
    unfold unitsMoved tradeEvent legUnits
    cases side : incoming.side with
    | buy => simp [WithinSide, incomingAfter, aggressorParty, restingParty, side, own, other, netTraded]
    | sell => simp [WithinSide, incomingAfter, aggressorParty, restingParty, side, own, other, netTraded]

variable (incoming) in
/-- What an immediate order of the account trades, and it leaves nothing behind. -/
theorem matchThenRest_net (sound : step.engine.Sound) (known : step.engine.knowsInstrument incoming.instrumentId = true)
    (immediate : incoming.timeInForce ≠ .gtc) (own : incoming.accountId = account) (absent : Absent account step.engine) :
    ∃ later, (matchThenRest commandSequence incoming step).events = step.events ++ later ∧
      Absent account (matchThenRest commandSequence incoming step).engine ∧
      WithinSide incoming.remainingQuantity (netTraded account later) incoming.side := by
  obtain ⟨⟨later, events, absent', _, _, _, within⟩, _⟩ := matchAndRest_rule commandSequence
    (fun order middle => ∃ later, middle.events = step.events ++ later ∧ Absent account middle.engine ∧
      order.accountId = account ∧ order.side = incoming.side ∧ order.remainingQuantity ≤ incoming.remainingQuantity ∧
      WithinSide (incoming.remainingQuantity - order.remainingQuantity) (netTraded account later) incoming.side)
    (fun order middle first rest ⟨earlier, before, absent, own, side, less, within⟩ sound known contents _ _ => by
      obtain ⟨later, events, absent', next⟩ := fillFront_net commandSequence sound known contents own absent
      have final := fillFront_incoming commandSequence order middle first.order
      refine ⟨earlier ++ later, ?_, absent', ?_, ?_, ?_, ?_⟩
      · rw [events, before, List.append_assoc]
      · rw [final]
        exact own
      · rw [final]
        exact side
      · rw [final]
        exact (Nat.sub_le _ _).trans less
      · rw [netTraded_append]
        rw [side] at next
        refine (within.add next).mono ?_
        rw [final]
        dsimp only
        omega)
    ⟨[], (List.append_nil _).symm, absent, own, rfl, le_rfl, withinSide_zero _ _⟩ sound known
  rw [matchThenRest_discards commandSequence incoming sound known immediate]
  exact ⟨later, events, absent', within.mono (Nat.sub_le _ _)⟩

end Immediate

section Commands
variable (round : Rounding) {gated : RiskGatedEngine} {account : AccountId}

/-- An immediate order of the account at the exchange. -/
theorem process_net (sound : gated.engine.Sound) (absent : Absent account gated.engine) {command : NewOrderCommand}
    (own : command.accountId = account) (immediate : command.timeInForce ≠ .gtc) :
    Absent account (gated.process round (.newOrder command)).gated.engine ∧
      WithinSide command.quantity (netTraded account (gated.process round (.newOrder command)).events) command.side := by
  rcases process_admits round sound (.newOrder command) with ⟨_, turned⟩ | ⟨_, forwarded, taken⟩
  · obtain ⟨rejection, events, _⟩ := turned.events
    refine ⟨fun entry member => absent entry (turned.resting ▸ member), ?_⟩
    rw [events]
    exact withinSide_zero _ _
  · rw [forwarded]
    unfold forward
    dsimp only
    generalize gated.engine.process (.newOrder command) = after at taken
    cases taken with
    | accepts valid =>
      obtain ⟨known, _⟩ := newOrderError_eq_none valid
      have start : ({ engine := gated.engine } : Step).numbered.engine.Sound := Sound.numbered sound
      obtain ⟨later, events, absent', within⟩ := matchThenRest_net command.commandSequence (newOrderOf command gated.engine)
        (start.sink (acceptedEvent command gated.engine.nextExchangeOrderId)) known immediate own absent
      rw [acceptNewOrder_eq]
      refine ⟨absent', ?_⟩
      rw [events, netTraded_append]
      have quiet : netTraded account
          (({ engine := gated.engine } : Step).numbered.sink (acceptedEvent command gated.engine.nextExchangeOrderId)).events = 0 := rfl
      rw [quiet, zero_add]
      exact within

/-- The account's orders are out of view. -/
def Unseen (account : AccountId) (views : OrderViews) : Prop := ∀ key, key.accountId = account → views key = none

theorem netTraded_ofBook {views : OrderViews} {events : List ExchangeEvent} (unseen : Unseen account views)
    (recounts : Recounts account views events) (ofBook : ∀ event ∈ events, OfBook event) : netTraded account events = 0 := by
  induction events generalizing views with
  | nil => rfl
  | cons event rest ih =>
    have here := ofBook event List.mem_cons_self
    have later := ih (fun key own => ofBook_unseen here (unseen key own)) recounts.2
      fun other member => ofBook other (List.mem_cons_of_mem _ member)
    rw [netTraded_cons, later, add_zero]
    cases event with
    | orderAccepted | orderCancelled | orderReplaced | orderRejected => cases here
    | bookOrderAdded | bookOrderReduced | bookOrderRemoved => rfl
    | tradeExecuted event =>
      have buyer : event.buyer.accountId ≠ account := fun own => by
        obtain ⟨view, seen, _⟩ := recounts.1.1 own
        rw [unseen _ own] at seen
        cases seen
      have seller : event.seller.accountId ≠ account := fun own => by
        obtain ⟨view, seen, _⟩ := recounts.1.2 own
        rw [fillView_apply, unseen _ own] at seen
        unfold leftOf at seen
        split_ifs at seen
        all_goals cases seen
      unfold unitsMoved legUnits
      dsimp only
      rw [if_neg buyer, if_neg seller, sub_zero]

theorem Outcome.unmoved {command : ExchangeCommand} {event : ExchangeEvent} (outcome : Outcome command event)
    (account : AccountId) : unitsMoved account event = 0 := by
  rcases outcome with answers | ⟨rejection, rfl, _⟩
  · cases command with
    | newOrder | cancelOrder | replaceOrder =>
      obtain ⟨_, _, rfl⟩ := answers
      rfl
  · rfl

/-- Another account's command trades nothing of an account of which nothing rests. -/
theorem process_net_foreign (sound : gated.engine.Sound) (absent : Absent account gated.engine) {command : ExchangeCommand}
    (foreign : (subject command).accountId ≠ account) :
    Absent account (gated.process round command).gated.engine ∧
      netTraded account (gated.process round command).events = 0 := by
  have creates (key : LiveKey) (own : key.accountId = account) : created command ≠ some key := fun asks =>
    foreign ((created_account asks).symm.trans own)
  obtain ⟨tells, shown⟩ := process_tells round sound (absent_shown absent fun _ => none) command
    fun key asks own => absurd asks (creates key own)
  have unseen : Unseen account ((gated.process round command).events.foldl viewsAfter fun _ => none) := fun key own => by
    by_contra seen
    exact (tells.seen seen).elim (creates key own) fun before => before rfl
  obtain ⟨event, later, events, outcome, ofBook⟩ := tells.first
  have recounts := tells.recounts
  rw [events] at recounts
  have still : Unseen account (viewsAfter (fun _ => none) event) := fun key own => by
    by_contra seen
    exact (outcome.seen seen).elim (creates key own) fun before => before rfl
  refine ⟨fun entry member own => ?_, ?_⟩
  · have viewed := shown entry member own
    rw [unseen _ own] at viewed
    cases viewed
  · rw [events, netTraded_cons, outcome.unmoved, netTraded_ofBook still recounts.2 ofBook, add_zero]

end Commands

end Mdh.Trader
