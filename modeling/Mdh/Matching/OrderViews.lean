import Mdh.Matching.OrderEndings

/-! The orders of one account as the events show them to their owner. Whatever other accounts do,
and however they use their ids, the owner of ids that are never used twice can follow each of its
orders by the events that name it. -/

namespace Mdh.Matching.MatchingEngine
open Mdh.Core Mdh.Lib

/-- A live order as its owner sees it. -/
structure OrderView where
  instrumentId : InstrumentId
  side : Side
  price : Int
  exchangeOrderId : Nat
  remainingQuantity : Nat
  deriving DecidableEq, Repr

/-- The order that is live under a key. -/
abbrev OrderViews := LiveKey → Option OrderView

def Resting.view (entry : Resting) : OrderView where
  instrumentId := entry.instrumentId
  side := entry.order.side
  price := entry.order.price
  exchangeOrderId := entry.order.exchangeOrderId
  remainingQuantity := entry.order.remainingQuantity

def incomingView (incoming : ExchangeRestingOrder) : OrderView where
  instrumentId := incoming.instrumentId
  side := incoming.side
  price := incoming.price
  exchangeOrderId := incoming.exchangeOrderId
  remainingQuantity := incoming.remainingQuantity

/-- An order with so much of it left. -/
def leftOf (left : Nat) (view : Option OrderView) : Option OrderView :=
  if left = 0 then none else view.map fun view => { view with remainingQuantity := left }

def fillView (views : OrderViews) (party : TradeCounterparty) : OrderViews :=
  Function.update views (partyKey party) (leftOf party.remainingQuantity (views (partyKey party)))

/-- What an event makes of the views. A replacement is on the side of the order it replaces. -/
def viewsAfter (views : OrderViews) : ExchangeEvent → OrderViews
  | .orderAccepted event => Function.update views ⟨event.accountId, event.clientOrderId⟩ (some {
      instrumentId := event.instrumentId
      side := event.side
      price := event.price
      exchangeOrderId := event.exchangeOrderId
      remainingQuantity := event.quantity })
  | .orderCancelled event => Function.update views ⟨event.accountId, event.clientOrderId⟩ none
  | .orderReplaced event =>
      let original : LiveKey := ⟨event.accountId, event.originalClientOrderId⟩
      Function.update (Function.update views original none) ⟨event.accountId, event.newClientOrderId⟩
        ((views original).map fun view => { view with
          price := event.newPrice
          exchangeOrderId := event.exchangeOrderId
          remainingQuantity := event.newQuantity })
  | .tradeExecuted event => fillView (fillView views event.buyer) event.seller
  | .orderRejected _ | .bookOrderAdded _ | .bookOrderReduced _ | .bookOrderRemoved _ => views

/-- The leg of a trade is in view, on its side. -/
def OnSide (account : AccountId) (views : OrderViews) (party : TradeCounterparty) (side : Side) : Prop :=
  party.accountId = account → ∃ view, views (partyKey party) = some view ∧ view.side = side

/-- The orders of the account that an event fills or replaces are in view. -/
def Told (account : AccountId) (views : OrderViews) : ExchangeEvent → Prop
  | .tradeExecuted event =>
      OnSide account views event.buyer .buy ∧ OnSide account (fillView views event.buyer) event.seller .sell
  | .orderReplaced event => event.accountId = account → views ⟨event.accountId, event.originalClientOrderId⟩ ≠ none
  | .orderAccepted _ | .orderCancelled _ | .orderRejected _ | .bookOrderAdded _ | .bookOrderReduced _
  | .bookOrderRemoved _ => True

def Recounts (account : AccountId) (views : OrderViews) : List ExchangeEvent → Prop
  | [] => True
  | event :: rest => Told account views event ∧ Recounts account (viewsAfter views event) rest

theorem recounts_append (account : AccountId) (views : OrderViews) (front back : List ExchangeEvent) :
    Recounts account views (front ++ back) ↔
      Recounts account views front ∧ Recounts account (front.foldl viewsAfter views) back := by
  induction front generalizing views with
  | nil => exact (iff_of_eq (true_and _)).symm
  | cons event rest ih => rw [List.cons_append, Recounts, Recounts, ih, and_assoc, List.foldl_cons]

/-- The resting orders of the account are in view. -/
def Shown (account : AccountId) (views : OrderViews) (engine : MatchingEngine) : Prop :=
  ∀ entry ∈ engine.resting, entry.key.accountId = account → views entry.key = some entry.view

/-- The orders in view rest. -/
def Live (account : AccountId) (views : OrderViews) (engine : MatchingEngine) : Prop :=
  ∀ key, key.accountId = account → views key ≠ none → engine.Rests key

section Views
variable {account : AccountId} {views : OrderViews} {engine : MatchingEngine}

/-- Orders in view differ in key, for they differ in exchange order id. -/
theorem Shown.unlisted (shown : Shown account views engine) (sound : engine.Sound) {entry : Resting}
    {others : List Resting} (split : engine.resting.Perm (entry :: others)) {other : Resting} (member : other ∈ others)
    (own : other.key.accountId = account) : other.key ≠ entry.key := by
  intro same
  have here := shown entry (split.mem_iff.mpr List.mem_cons_self) (same ▸ own)
  have there := shown other (split.mem_iff.mpr (List.mem_cons_of_mem _ member)) own
  rw [same, here] at there
  have ids : entry.order.exchangeOrderId = other.order.exchangeOrderId :=
    congrArg OrderView.exchangeOrderId (Option.some.inj there)
  obtain ⟨unlisted, _⟩ := List.nodup_cons.mp
    ((split.map fun entry : Resting => entry.order.exchangeOrderId).nodup_iff.mp sound.distinct)
  exact unlisted (List.mem_map.mpr ⟨other, member, ids.symm⟩)

theorem fillView_apply (views : OrderViews) (party : TradeCounterparty) (key : LiveKey) :
    fillView views party key =
      if key = partyKey party then leftOf party.remainingQuantity (views key) else views key := by
  unfold fillView
  rw [Function.update_apply]
  split_ifs with same
  · rw [same]
  · rfl

theorem bookEvent_views (id : InstrumentId) (contra : BookOrder) (left eventSequence : Nat) :
    Told account views (bookEvent id contra left eventSequence) ∧
      viewsAfter views (bookEvent id contra left eventSequence) = views := by
  unfold bookEvent
  split_ifs <;> exact ⟨trivial, rfl⟩

end Views

section Fill
variable (commandSequence : Nat) {account : AccountId} {views : OrderViews} {incoming : ExchangeRestingOrder} {step : Step}

/-- In the middle of an arrival: the resting orders of the account are in view, and so is the
incoming one while something of it is left, under a key no other has. -/
structure Viewing (account : AccountId) (views : OrderViews) (incoming : ExchangeRestingOrder) (engine : MatchingEngine) :
    Prop where
  shown : Shown account views engine
  apart : incoming.accountId = account → ∀ entry ∈ engine.resting, entry.key ≠ incomingKey incoming
  own : incoming.accountId = account → incoming.remainingQuantity ≠ 0 →
    views (incomingKey incoming) = some (incomingView incoming)

/-- The orders in view rest, or are the incoming one, of which something is left. -/
def Accounted (account : AccountId) (views : OrderViews) (incoming : ExchangeRestingOrder) (engine : MatchingEngine) : Prop :=
  ∀ key, key.accountId = account → views key ≠ none →
    engine.Rests key ∨ key = incomingKey incoming ∧ incoming.remainingQuantity ≠ 0

/-- A trade fills the incoming order and the resting one. -/
theorem viewsAfter_tradeEvent (views : OrderViews) (incoming : ExchangeRestingOrder) (contra : BookOrder)
    (quantity left eventSequence : Nat) {key : LiveKey}
    (apart : key = incomingKey incoming → key ≠ ⟨contra.accountId, contra.clientOrderId⟩) :
    viewsAfter views (tradeEvent commandSequence incoming contra quantity left eventSequence) key =
      if key = incomingKey incoming then leftOf incoming.remainingQuantity (views key)
      else if key = ⟨contra.accountId, contra.clientOrderId⟩ then leftOf left (views key) else views key := by
  have both : viewsAfter views (tradeEvent commandSequence incoming contra quantity left eventSequence) =
      if incoming.side = .buy then fillView (fillView views (aggressorParty incoming)) (restingParty contra left)
      else fillView (fillView views (restingParty contra left)) (aggressorParty incoming) := by
    unfold tradeEvent viewsAfter
    dsimp only
    split_ifs <;> rfl
  have aggressor : partyKey (aggressorParty incoming) = incomingKey incoming := rfl
  have resting : partyKey (restingParty contra left) = ⟨contra.accountId, contra.clientOrderId⟩ := rfl
  rw [both]
  by_cases own : key = incomingKey incoming
  · have other := apart own
    rw [if_pos own]
    split_ifs
    · rw [fillView_apply, fillView_apply, resting, aggressor, if_neg other, if_pos own]
      rfl
    · rw [fillView_apply, fillView_apply, resting, aggressor, if_pos own, if_neg other]
      rfl
  · rw [if_neg own]
    by_cases buys : incoming.side = .buy
    · rw [if_pos buys, fillView_apply, fillView_apply, resting, aggressor, if_neg own]
      rfl
    · rw [if_neg buys, fillView_apply, fillView_apply, resting, aggressor, if_neg own]
      rfl

/-- Both parties of a trade are in view, the incoming order on its side and the other across. -/
theorem told_tradeEvent (incoming : ExchangeRestingOrder) (contra : BookOrder) (quantity left eventSequence : Nat)
    (apart : incoming.accountId = account → incomingKey incoming ≠ ⟨contra.accountId, contra.clientOrderId⟩)
    (aggressor : incoming.accountId = account → ∃ view, views (incomingKey incoming) = some view ∧ view.side = incoming.side)
    (resting : contra.accountId = account → ∃ view, views ⟨contra.accountId, contra.clientOrderId⟩ = some view ∧
      view.side = incoming.side.contra) :
    Told account views (tradeEvent commandSequence incoming contra quantity left eventSequence) := by
  -- The first leg's fill does not touch the other's order.
  have second {first second : TradeCounterparty} {side : Side} (different : second.accountId = account →
      partyKey second ≠ partyKey first) (there : OnSide account views second side) :
      OnSide account (fillView views first) second side := by
    intro own
    rw [fillView_apply, if_neg (different own)]
    exact there own
  have across (own : contra.accountId = account) :
      (⟨contra.accountId, contra.clientOrderId⟩ : LiveKey) ≠ incomingKey incoming := fun same =>
    apart ((congrArg LiveKey.accountId same).symm.trans own) same.symm
  unfold Told tradeEvent
  cases side : incoming.side with
  | buy =>
    rw [side] at aggressor resting
    exact ⟨aggressor, second across resting⟩
  | sell =>
    rw [side] at aggressor resting
    exact ⟨resting, second apart aggressor⟩

/-- What rests for the account after a fill: the others as they were, and the order that was filled
with what is left of it. -/
theorem fillFront_entries (sound : step.engine.Sound)
    (known : step.engine.knowsInstrument incoming.instrumentId = true) {first : Placed} {rest : List Placed}
    (contents : (step.engine.bookFor incoming.instrumentId).queues incoming.side.contra = first :: rest)
    (shown : Shown account views step.engine) {entry : Resting}
    (member : entry ∈ (fillFront commandSequence incoming first.order step).2.engine.resting)
    (own : entry.key.accountId = account) :
    let left := first.order.remainingQuantity - min incoming.remainingQuantity first.order.remainingQuantity
    ∃ old ∈ step.engine.resting, entry.key = old.key ∧
      (old.key ≠ (Resting.of incoming.instrumentId first).key ∧ entry.view = old.view ∨
        old = Resting.of incoming.instrumentId first ∧ left ≠ 0 ∧
          entry.view = { old.view with remainingQuantity := left }) := by
  intro left
  rcases le_or_gt first.order.remainingQuantity incoming.remainingQuantity with full | more
  · have change := fillFront_removes commandSequence sound.intact known contents full
    have other := shown.unlisted sound change.resting member own
    exact ⟨entry, change.resting.mem_iff.mpr (List.mem_cons_of_mem _ member), rfl, Or.inl ⟨other, rfl⟩⟩
  · obtain ⟨change, _⟩ := fillFront_amends commandSequence sound.intact known contents more
    obtain ⟨others, was, is⟩ := change.resting
    rcases List.mem_cons.mp (is.mem_iff.mp member) with rfl | member
    · have some : left = first.order.remainingQuantity - incoming.remainingQuantity := by omega
      refine ⟨_, was.mem_iff.mpr List.mem_cons_self, rfl, Or.inr ⟨rfl, by omega, ?_⟩⟩
      rw [some]
      rfl
    · have other := shown.unlisted sound was member own
      exact ⟨entry, was.mem_iff.mpr (List.mem_cons_of_mem _ member), rfl, Or.inl ⟨other, rfl⟩⟩

/-- An order that rests still rests after a fill that leaves something of it. -/
theorem fillFront_keepsResting (sound : step.engine.Sound)
    (known : step.engine.knowsInstrument incoming.instrumentId = true) {first : Placed} {rest : List Placed}
    (contents : (step.engine.bookFor incoming.instrumentId).queues incoming.side.contra = first :: rest) {key : LiveKey}
    (left : key = (Resting.of incoming.instrumentId first).key →
      first.order.remainingQuantity - min incoming.remainingQuantity first.order.remainingQuantity ≠ 0)
    (rests : step.engine.Rests key) : (fillFront commandSequence incoming first.order step).2.engine.Rests key := by
  rcases le_or_gt first.order.remainingQuantity incoming.remainingQuantity with full | more
  · refine (fillFront_removes commandSequence sound.intact known contents full).rests (fun same => ?_) rests
    exact left same (by omega)
  · exact (fillFront_amends commandSequence sound.intact known contents more).1.rests id rests

/-- One fill keeps the views. -/
theorem fillFront_viewing (sound : step.engine.Sound)
    (known : step.engine.knowsInstrument incoming.instrumentId = true) {first : Placed} {rest : List Placed}
    (contents : (step.engine.bookFor incoming.instrumentId).queues incoming.side.contra = first :: rest)
    (open_ : incoming.remainingQuantity ≠ 0) (viewing : Viewing account views incoming step.engine) :
    let out := fillFront commandSequence incoming first.order step
    ∃ later, out.2.events = step.events ++ later ∧ Recounts account views later ∧
      Viewing account (later.foldl viewsAfter views) out.1 out.2.engine ∧
      (Accounted account views incoming step.engine → Accounted account (later.foldl viewsAfter views) out.1 out.2.engine) := by
  intro out
  let left := first.order.remainingQuantity - min incoming.remainingQuantity first.order.remainingQuantity
  let trade := tradeEvent commandSequence out.1 first.order
    (min incoming.remainingQuantity first.order.remainingQuantity) left step.engine.nextEventSequence
  let book := bookEvent incoming.instrumentId first.order left (step.engine.nextEventSequence + 1)
  have front : Resting.of incoming.instrumentId first ∈ step.engine.resting :=
    sound.intact.mem_resting known (by rw [contents]; exact List.mem_cons_self)
  have side : first.order.side = incoming.side.contra :=
    wellFormed_ownSide (sound.intact.books _ known) (by rw [contents]; exact List.mem_cons_self)
  have apart (own : incoming.accountId = account) : incomingKey incoming ≠ (Resting.of incoming.instrumentId first).key :=
    (viewing.apart own _ front).symm
  have final : out.1 = incomingAfter incoming (min incoming.remainingQuantity first.order.remainingQuantity) :=
    fillFront_incoming commandSequence incoming step first.order
  have sameKey : incomingKey out.1 = incomingKey incoming := by
    rw [final]
    rfl
  have events : out.2.events = step.events ++ [trade, book] := by
    show _ = step.events ++ [tradeEvent commandSequence out.1 _ _ _ _, _]
    rw [final]
    exact (fillFront_events commandSequence incoming step first.order).1
  obtain ⟨bookTold, quiet⟩ : Told account (viewsAfter views trade) book ∧
    viewsAfter (viewsAfter views trade) book = viewsAfter views trade := bookEvent_views ..
  have after (key : LiveKey) (own : key.accountId = account) : viewsAfter views trade key =
      if key = incomingKey incoming then leftOf out.1.remainingQuantity (views key)
      else if key = (Resting.of incoming.instrumentId first).key then leftOf left (views key) else views key := by
    have different : key = incomingKey out.1 → key ≠ ⟨first.order.accountId, first.order.clientOrderId⟩ := by
      intro same
      rw [same, sameKey] at own ⊢
      exact apart own
    refine (viewsAfter_tradeEvent commandSequence views out.1 first.order _ left _ different).trans ?_
    rw [sameKey]
    rfl
  refine ⟨[trade, book], events, ⟨?_, bookTold, trivial⟩, ?_, fun accounted key own there => ?_⟩
  · refine told_tradeEvent commandSequence out.1 first.order _ left _ (fun own => ?_) (fun own => ?_) fun own => ?_
    · rw [sameKey]
      exact apart (by rwa [final] at own)
    · rw [sameKey]
      have owned : incoming.accountId = account := by rwa [final] at own
      exact ⟨_, viewing.own owned open_, by rw [final]; rfl⟩
    · refine ⟨_, viewing.shown _ front own, ?_⟩
      rw [final]
      exact side
  · rw [List.foldl_cons, List.foldl_cons, List.foldl_nil, quiet]
    refine ⟨fun entry member own => ?_, fun own entry member => ?_, fun own some => ?_⟩
    · obtain ⟨old, there, key, cases⟩ := fillFront_entries commandSequence sound known contents viewing.shown member own
      have notIncoming : entry.key ≠ incomingKey incoming := by
        intro same
        rw [same] at own key
        exact viewing.apart own old there key.symm
      have shown := viewing.shown old there (key ▸ own)
      rw [← key] at shown
      rw [after _ own, if_neg notIncoming, shown]
      rcases cases with ⟨other, same⟩ | ⟨rfl, some, view⟩
      · rw [if_neg (by rwa [key]), same]
      · rw [if_pos key, leftOf, if_neg some, view]
        rfl
    · rw [sameKey]
      intro same
      have owned : incoming.accountId = account := by rwa [final] at own
      obtain ⟨old, there, key, _⟩ :=
        fillFront_entries commandSequence sound known contents viewing.shown member (by rw [same]; exact owned)
      exact viewing.apart owned old there (key.symm.trans same)
    · have owned : incoming.accountId = account := by rwa [final] at own
      rw [sameKey, after _ owned, if_pos rfl, viewing.own owned open_, leftOf, if_neg some, final]
      rfl
  · rw [List.foldl_cons, List.foldl_cons, List.foldl_nil, quiet, after key own] at there
    rw [sameKey]
    by_cases incomes : key = incomingKey incoming
    · refine Or.inr ⟨incomes, fun filled => there ?_⟩
      rw [if_pos incomes, leftOf, if_pos filled]
    · rw [if_neg incomes] at there
      have some : key = (Resting.of incoming.instrumentId first).key → left ≠ 0 := by
        intro same filled
        rw [if_pos same, leftOf, if_pos filled] at there
        exact there rfl
      have viewed : views key ≠ none := by
        intro none
        rw [none] at there
        unfold leftOf at there
        split_ifs at there <;> exact there rfl
      rcases accounted key own viewed with rests | ⟨same, _⟩
      · exact Or.inl (fillFront_keepsResting commandSequence sound known contents some rests)
      · exact absurd same incomes

end Fill

section Arrive
variable (commandSequence : Nat) {account : AccountId} {views : OrderViews} {incoming : ExchangeRestingOrder} {step : Step}

/-- An arrival: the trades name orders in view, and what rests is in view after it. What is in view
rests, unless something of an order of the account is discarded. -/
theorem matchThenRest_viewed (sound : step.engine.Sound)
    (known : step.engine.knowsInstrument incoming.instrumentId = true)
    (viewing : Viewing account views incoming step.engine) :
    let after := matchThenRest commandSequence incoming step
    ∃ later, after.events = step.events ++ later ∧ Recounts account views later ∧
      Shown account (later.foldl viewsAfter views) after.engine ∧
      ((incoming.accountId = account → incoming.timeInForce = .gtc ∨ incoming.remainingQuantity ≤
          step.engine.liquidity incoming.instrumentId incoming.side incoming.price) →
        Accounted account views incoming step.engine → Live account (later.foldl viewsAfter views) after.engine) := by
  obtain ⟨⟨fills, filled, recounts, viewing', accounted⟩, sound'⟩ := matchAndRest_rule commandSequence
    (fun order middle => ∃ later, middle.events = step.events ++ later ∧ Recounts account views later ∧
      Viewing account (later.foldl viewsAfter views) order middle.engine ∧
      (Accounted account views incoming step.engine → Accounted account (later.foldl viewsAfter views) order middle.engine))
    (fun order middle first rest ⟨earlier, before, recounts, viewing, accounted⟩ sound known contents some _ => by
      obtain ⟨later, events, next, viewing', accounted'⟩ :=
        fillFront_viewing commandSequence sound known contents some.ne' viewing
      refine ⟨earlier ++ later, ?_, (recounts_append account views earlier later).mpr ⟨recounts, next⟩, ?_, ?_⟩
      · rw [events, before, List.append_assoc]
      · rw [List.foldl_append]
        exact viewing'
      · rw [List.foldl_append]
        exact fun initially => accounted' (accounted initially))
    ⟨[], (List.append_nil _).symm, trivial, viewing, id⟩ sound known
  have done := matchAndRest_matches commandSequence sound known
  have known' : (matchAndRest commandSequence incoming step).2.engine.knowsInstrument
      (matchAndRest commandSequence incoming step).1.instrumentId = true := by
    rw [done.final, done.only.knows]
    exact known
  have sameKey : incomingKey (matchAndRest commandSequence incoming step).1 = incomingKey incoming := by
    rw [done.final]
    rfl
  intro after
  by_cases stays : (matchAndRest commandSequence incoming step).1.timeInForce ≠ .gtc ∨
      (matchAndRest commandSequence incoming step).1.remainingQuantity = 0
  · have same : after = (matchAndRest commandSequence incoming step).2 := restRemainder_stays stays
    rw [same]
    refine ⟨fills, filled, recounts, viewing'.shown, fun whole initially key own there => ?_⟩
    rcases accounted initially key own there with rests | ⟨incomes, left⟩
    · exact rests
    · rw [sameKey] at incomes
      have enough := whole (by rw [incomes] at own; exact own)
      exact absurd (matchAndRest_whole commandSequence sound known enough stays) left
  · have both := not_or.mp stays
    obtain ⟨change, events⟩ := restRemainder_adds sound'.intact known' (not_not.mp both.1) both.2
    obtain ⟨told, quiet⟩ : Told account (fills.foldl viewsAfter views)
        (addedEvent (matchAndRest commandSequence incoming step).1
          (matchAndRest commandSequence incoming step).2.engine.nextEventSequence) ∧
      viewsAfter (fills.foldl viewsAfter views) (addedEvent (matchAndRest commandSequence incoming step).1
          (matchAndRest commandSequence incoming step).2.engine.nextEventSequence) =
        fills.foldl viewsAfter views := ⟨trivial, rfl⟩
    refine ⟨fills ++ [_], ?_, (recounts_append account views fills _).mpr ⟨recounts, told, trivial⟩, ?_, ?_⟩
    · rw [← List.append_assoc, ← filled]
      exact events
    · rw [List.foldl_append, List.foldl_cons, List.foldl_nil, quiet]
      intro entry member own
      rcases List.mem_cons.mp (change.resting.mem_iff.mp member) with rfl | member
      · exact viewing'.own own both.2
      · exact viewing'.shown entry member own
    · rw [List.foldl_append, List.foldl_cons, List.foldl_nil, quiet]
      intro _ initially key own there
      refine change.rests ?_
      rcases accounted initially key own there with rests | ⟨incomes, _⟩
      · exact Or.inr rests
      · exact Or.inl incomes

end Arrive

/-- The order a command asks for. -/
def created : ExchangeCommand → Option LiveKey
  | .newOrder command => some ⟨command.accountId, command.clientOrderId⟩
  | .replaceOrder command => some (replacementKey command)
  | .cancelOrder _ => none

/-- The account asks for no order under the id of one that rests. -/
def FreshFor (account : AccountId) (engine : MatchingEngine) (command : ExchangeCommand) : Prop :=
  ∀ key, created command = some key → key.accountId = account → ¬ engine.Rests key

/-- The event tells that the command was carried out. -/
def Answers : ExchangeCommand → ExchangeEvent → Prop
  | .newOrder command, event => ∃ exchangeOrderId eventSequence, event = acceptedEvent command exchangeOrderId eventSequence
  | .cancelOrder command, event => ∃ order eventSequence, event = cancelledEvent command order eventSequence
  | .replaceOrder command, event => ∃ exchangeOrderId eventSequence, event = replacedEvent command exchangeOrderId eventSequence

/-- A trade, or what a command does to the book. -/
def OfBook : ExchangeEvent → Prop
  | .tradeExecuted _ | .bookOrderAdded _ | .bookOrderReduced _ | .bookOrderRemoved _ => True
  | .orderAccepted _ | .orderRejected _ | .orderCancelled _ | .orderReplaced _ => False

/-- A command carried out, as its events show it to the account: the first answers it, they name
orders in view, and what rests after it is in view. What is in view rests, unless something of an
order of the account is discarded. -/
structure Viewed (account : AccountId) (views : OrderViews) (engine : MatchingEngine) (command : ExchangeCommand)
    (after : Step) : Prop where
  answered : ∃ event later, after.events = event :: later ∧ Answers command event ∧ ∀ event ∈ later, OfBook event
  recounts : Recounts account views after.events
  shown : Shown account (after.events.foldl viewsAfter views) after.engine
  live : ((subject command).accountId = account → engine.FillsWhole command) → Live account views engine →
    Live account (after.events.foldl viewsAfter views) after.engine

section Commands
variable {account : AccountId} {views : OrderViews} {engine : MatchingEngine}

theorem matchThenRest_ofBook (commandSequence : Nat) (incoming : ExchangeRestingOrder) (step : Step)
    {later : List ExchangeEvent} (events : (matchThenRest commandSequence incoming step).events = step.events ++ later) :
    ∀ event ∈ later, OfBook event := by
  obtain ⟨_, others, emits⟩ := matchThenRest_emits commandSequence incoming step
  have same : later = others := List.append_cancel_left (events.symm.trans emits.events)
  intro event member
  have kind := emits.kinds event (same ▸ member)
  cases event with
  | tradeExecuted | bookOrderAdded | bookOrderReduced | bookOrderRemoved => trivial
  | orderAccepted | orderRejected | orderCancelled | orderReplaced => cases kind

theorem acceptNewOrder_viewed (sound : engine.Sound) (shown : Shown account views engine) {command : NewOrderCommand}
    (valid : engine.newOrderError command = none) (fresh : FreshFor account engine (.newOrder command)) :
    Viewed account views engine (.newOrder command) (acceptNewOrder command { engine }) := by
  obtain ⟨known, _, quantity, _⟩ := newOrderError_eq_none valid
  have start : ({ engine } : Step).numbered.engine.Sound := Sound.numbered sound
  have ready := start.sink (acceptedEvent command engine.nextExchangeOrderId)
  have free (entry : Resting) (member : entry ∈ engine.resting) (own : entry.key.accountId = account) :
      entry.key ≠ ⟨command.accountId, command.clientOrderId⟩ := fun same =>
    fresh _ rfl (same ▸ own) ⟨entry, member, same⟩
  have viewing : Viewing account (viewsAfter views (acceptedEvent command engine.nextExchangeOrderId engine.nextEventSequence))
      (newOrderOf command engine)
      (({ engine } : Step).numbered.sink (acceptedEvent command engine.nextExchangeOrderId)).engine := by
    refine ⟨fun entry member own => ?_, fun own entry member same => ?_, fun _ _ => Function.update_self ..⟩
    · exact (Function.update_of_ne (free entry member own) ..).trans (shown entry member own)
    · exact free entry member (by rw [same]; exact own) same
  have listed : (({ engine } : Step).numbered.sink (acceptedEvent command engine.nextExchangeOrderId)).engine.knowsInstrument
      (newOrderOf command engine).instrumentId = true := known
  obtain ⟨later, events, recounts, shown', live⟩ := matchThenRest_viewed command.commandSequence ready listed viewing
  rw [acceptNewOrder_eq]
  have all : (matchThenRest command.commandSequence (newOrderOf command engine)
      (({ engine } : Step).numbered.sink (acceptedEvent command engine.nextExchangeOrderId))).events =
        acceptedEvent command engine.nextExchangeOrderId engine.nextEventSequence :: later := events
  refine ⟨⟨_, later, all, ⟨_, _, rfl⟩, matchThenRest_ofBook _ _ _ events⟩, ?_, ?_, fun whole initially => ?_⟩
  · rw [all]
    exact ⟨trivial, recounts⟩
  · rw [all]
    exact shown'
  · rw [all]
    refine live (fun own => ?_) fun key own there => ?_
    · rcases whole own with gtc | whole
      · exact Or.inl gtc
      · exact Or.inr (not_lt.mp (mt (crossableQuantity_lt_iff sound.intact known ..).mpr whole.not_gt))
    · by_cases same : key = ⟨command.accountId, command.clientOrderId⟩
      · exact Or.inr ⟨same, quantity⟩
      · refine Or.inl (initially key own fun none => there ?_)
        exact (Function.update_of_ne same ..).trans none

theorem processCancel_viewed (sound : engine.Sound) (shown : Shown account views engine) {command : CancelOrderCommand}
    {ref : OrderRef} {placed : Placed} (cancels : Cancels command engine ref placed) :
    Viewed account views engine (.cancelOrder command) (processCancel command { engine }) := by
  obtain ⟨change, events⟩ :=
    processCancel_removes { engine } sound.intact cancels.found cancels.same cancels.located
  have key := cancels.located.key
  rw [cancels.same] at key
  refine ⟨⟨_, _, events, ⟨_, _, rfl⟩, fun event member => ?_⟩, ?_, ?_, fun _ initially => ?_⟩
  · obtain rfl := List.mem_singleton.mp member
    trivial
  · rw [events]
    exact ⟨trivial, trivial, trivial⟩
  · rw [events]
    intro entry member own
    have other := shown.unlisted sound change.resting member own
    rw [key] at other
    exact (Function.update_of_ne other ..).trans
      (shown entry (change.resting.mem_iff.mpr (List.mem_cons_of_mem _ member)) own)
  · rw [events]
    intro asked own there
    have there : Function.update views ⟨command.accountId, command.clientOrderId⟩ none asked ≠ none := there
    rw [Function.update_apply] at there
    split_ifs at there with same
    · exact absurd rfl there
    · exact change.rests (fun gone => same (gone.trans key)) (initially asked own there)

/-- The views once an order has been replaced: the others as they were, and the replacement. -/
theorem viewsAfter_replaced (sound : engine.Sound) (shown : Shown account views engine) {command : ReplaceOrderCommand}
    (fresh : FreshFor account engine (.replaceOrder command)) {entry : Resting} (key : entry.key = originalKey command)
    {others : List Resting} (was : engine.resting.Perm (entry :: others)) (exchangeOrderId eventSequence : Nat) :
    let views' := viewsAfter views (replacedEvent command exchangeOrderId eventSequence)
    (command.accountId = account → views' (replacementKey command) = some { entry.view with
      price := command.newPrice, exchangeOrderId, remainingQuantity := command.newQuantity }) ∧
    (∀ other ∈ others, other.key.accountId = account →
      other.key ≠ replacementKey command ∧ views' other.key = some other.view) ∧
    ∀ asked, asked.accountId = account → views' asked ≠ none →
      asked = replacementKey command ∨ asked ≠ originalKey command ∧ views asked ≠ none := by
  have there : entry ∈ engine.resting := was.mem_iff.mpr List.mem_cons_self
  intro views'
  have after (asked : LiveKey) : views' asked = if asked = replacementKey command then
      (views (originalKey command)).map fun view => { view with
        price := command.newPrice, exchangeOrderId, remainingQuantity := command.newQuantity }
      else if asked = originalKey command then none else views asked := by
    show Function.update (Function.update views (originalKey command) none) (replacementKey command) _ asked = _
    rw [Function.update_apply, Function.update_apply]
    rfl
  refine ⟨fun own => ?_, fun other member own => ?_, fun asked own some => ?_⟩
  · rw [after, if_pos rfl, ← key, shown entry there (by rw [key]; exact own)]
    rfl
  · have rested : other ∈ engine.resting := was.mem_iff.mpr (List.mem_cons_of_mem _ member)
    have apart := shown.unlisted sound was member own
    have different : other.key ≠ replacementKey command := fun same =>
      fresh _ rfl (same ▸ own) ⟨other, rested, same⟩
    rw [key] at apart
    exact ⟨different, by rw [after, if_neg different, if_neg apart]; exact shown other rested own⟩
  · rw [after] at some
    split_ifs at some with new original
    · exact Or.inl new
    · exact absurd rfl some
    · exact Or.inr ⟨original, some⟩

theorem told_replaced (shown : Shown account views engine) {command : ReplaceOrderCommand} {entry : Resting}
    (rested : entry ∈ engine.resting) (key : entry.key = originalKey command) (exchangeOrderId eventSequence : Nat) :
    Told account views (replacedEvent command exchangeOrderId eventSequence) := by
  intro own
  have there := shown entry rested (by rw [key]; exact own)
  rw [key] at there
  show views (originalKey command) ≠ none
  rw [there]
  nofun

theorem replaceInPlace_viewed (sound : engine.Sound) (shown : Shown account views engine) {command : ReplaceOrderCommand}
    {ref : OrderRef} {placed : Placed} (replaces : Replaces command engine ref placed)
    (preserves : preservesPriority command placed.order = true) (fresh : FreshFor account engine (.replaceOrder command)) :
    Viewed account views engine (.replaceOrder command) (replaceInPlace command ref placed.order { engine }) := by
  obtain ⟨change, _, events⟩ := replaceInPlace_amends { engine } sound.intact replaces.same replaces.located
  obtain ⟨others, was, is⟩ := change.resting
  have key := replaces.located.key
  rw [replaces.same] at key
  have rested : Resting.of command.instrumentId placed ∈ engine.resting := was.mem_iff.mpr List.mem_cons_self
  have moved : ({ Resting.of command.instrumentId placed with order := editFor command placed.order } : Resting).key =
      replacementKey command := congrArg (LiveKey.mk · command.newClientOrderId) (congrArg LiveKey.accountId key)
  obtain ⟨new, rest, from_⟩ := viewsAfter_replaced sound shown fresh key was placed.order.exchangeOrderId
    engine.nextEventSequence
  refine ⟨⟨_, _, events, ⟨_, _, rfl⟩, fun event member => ?_⟩, ?_, ?_, fun _ initially => ?_⟩
  · obtain rfl := List.mem_singleton.mp member
    trivial
  · rw [events]
    exact ⟨told_replaced shown rested key _ _, trivial, trivial⟩
  · rw [events]
    intro entry member own
    rcases List.mem_cons.mp (is.mem_iff.mp member) with rfl | member
    · have owned : command.accountId = account := (congrArg LiveKey.accountId moved).symm.trans own
      refine (congrArg (viewsAfter views (replacedEvent command placed.order.exchangeOrderId
        engine.nextEventSequence)) moved).trans ((new owned).trans ?_)
      have price : command.newPrice = placed.order.price := by
        simp only [preservesPriority, decide_eq_true_eq] at preserves
        exact preserves.1
      rw [price]
      rfl
    · exact (rest entry member own).2
  · rw [events]
    intro asked own there
    rcases from_ asked own there with new | ⟨other, viewed⟩
    · exact ⟨_, is.mem_iff.mpr List.mem_cons_self, moved.trans new.symm⟩
    · exact change.rests (fun same => absurd (same.symm.trans key) other) (initially asked own viewed)

theorem replaceByNew_viewed (sound : engine.Sound) (shown : Shown account views engine) {command : ReplaceOrderCommand}
    {ref : OrderRef} {placed : Placed} (replaces : Replaces command engine ref placed)
    (fresh : FreshFor account engine (.replaceOrder command)) :
    Viewed account views engine (.replaceOrder command) (replaceByNew command ref placed.order { engine }) := by
  have change := withdrawn_removes { engine } sound.intact replaces.same replaces.located
  obtain ⟨middle, known, _⟩ := replacing_sound { engine } sound replaces
  have rested := replaces.located.resting sound.intact
  have gtc : placed.order.timeInForce = .gtc := sound.gtc _ rested
  rw [replaces.same] at rested
  have key := replaces.located.key
  rw [replaces.same] at key
  obtain ⟨new, rest, from_⟩ := viewsAfter_replaced sound shown fresh key change.resting engine.nextExchangeOrderId
    engine.nextEventSequence
  have viewing : Viewing account (viewsAfter views (replacedEvent command engine.nextExchangeOrderId
      engine.nextEventSequence)) (replacementOf command placed.order engine)
      (replacing command ref placed.order { engine }).engine := by
    refine ⟨fun entry member own => (rest entry member own).2, fun own entry member same => ?_, fun own _ => new own⟩
    exact (rest entry member (by rw [same]; exact own)).1 same
  have listed : (replacing command ref placed.order { engine }).engine.knowsInstrument
      (replacementOf command placed.order engine).instrumentId = true := known
  obtain ⟨later, events, recounts, shown', live⟩ := matchThenRest_viewed command.commandSequence middle listed viewing
  have all : (matchThenRest command.commandSequence (replacementOf command placed.order engine)
      (replacing command ref placed.order { engine })).events =
        replacedEvent command engine.nextExchangeOrderId engine.nextEventSequence ::
          removedEvent command.instrumentId placed.order (engine.nextEventSequence + 1) :: later := events
  rw [replaceByNew_eq]
  refine ⟨⟨_, _, all, ⟨_, _, rfl⟩, fun event member => ?_⟩, ?_, ?_, fun _ initially => ?_⟩
  · rcases List.mem_cons.mp member with rfl | member
    · trivial
    · exact matchThenRest_ofBook _ _ _ events event member
  · rw [all]
    exact ⟨told_replaced shown rested key _ _, trivial, recounts⟩
  · rw [all]
    exact shown'
  · rw [all]
    refine live (fun _ => Or.inl gtc) fun asked own there => ?_
    rcases from_ asked own there with new | ⟨other, viewed⟩
    · exact Or.inr ⟨new, replaces.quantity⟩
    · exact Or.inl (change.rests (fun same => other (same.trans key)) (initially asked own viewed))

/-- A command that is carried out shows the account what becomes of its orders. -/
theorem Takes.viewed (sound : engine.Sound) (shown : Shown account views engine) {command : ExchangeCommand} {after : Step}
    (taken : Takes engine command after) (fresh : FreshFor account engine command) :
    Viewed account views engine command after := by
  cases taken with
  | accepts valid => exact acceptNewOrder_viewed sound shown valid fresh
  | cancels cancels => exact processCancel_viewed sound shown cancels
  | replacesInPlace replaces preserves => exact replaceInPlace_viewed sound shown replaces preserves fresh
  | replacesByNew replaces => exact replaceByNew_viewed sound shown replaces fresh

end Commands

end Mdh.Matching.MatchingEngine
