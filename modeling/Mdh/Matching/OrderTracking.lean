import Mdh.Matching.DirectoryAgreement

/-! Orders by the events alone. Every event of a command names an order by the key it is live
under then, and what the events leave under each key covers what rests. -/

namespace Mdh.Matching.MatchingEngine
open Mdh.Core Mdh.Lib

/-- The exchange order id of the order that is live under each key. -/
abbrev OrderIds := LiveKey → Option Nat

def partyKey (party : TradeCounterparty) : LiveKey := ⟨party.accountId, party.clientOrderId⟩

/-- An order that is filled completely is live no more. -/
def dropFilled (ids : OrderIds) (party : TradeCounterparty) : OrderIds :=
  if party.remainingQuantity = 0 then Function.update ids (partyKey party) none else ids

/-- What is live after an event. An order counts as live from its acceptance on, with it. -/
def idsAfter (ids : OrderIds) : ExchangeEvent → OrderIds
  | .orderCancelled event => Function.update ids ⟨event.accountId, event.clientOrderId⟩ none
  | .orderReplaced event =>
      Function.update (Function.update ids ⟨event.accountId, event.originalClientOrderId⟩ none)
        ⟨event.accountId, event.newClientOrderId⟩ (some event.exchangeOrderId)
  | .tradeExecuted event => dropFilled (dropFilled ids event.buyer) event.seller
  | .orderAccepted _ | .orderRejected _ | .bookOrderAdded _ | .bookOrderReduced _ | .bookOrderRemoved _ => ids

section Follows
variable (link : Nat → Nat → Prop) (held : LiveKey → Prop) (gone : Nat → Prop)

/-- The event names orders by the keys they are live under: `link` relates a replaced order to
its replacement, which keeps its id only if it is `gone`, and a rejection leaves what is live under
its key only if that is `held`. -/
def Named (ids : OrderIds) : ExchangeEvent → Prop
  | .orderAccepted event => ids ⟨event.accountId, event.clientOrderId⟩ = some event.exchangeOrderId
  | .orderRejected event =>
      ids ⟨event.accountId, event.clientOrderId⟩ ≠ none → held ⟨event.accountId, event.clientOrderId⟩
  | .orderCancelled event => ids ⟨event.accountId, event.clientOrderId⟩ = some event.exchangeOrderId
  | .orderReplaced event => ∃ old, ids ⟨event.accountId, event.originalClientOrderId⟩ = some old ∧
      link old event.exchangeOrderId ∧ (event.newClientOrderId = event.originalClientOrderId → gone old)
  | .tradeExecuted event => ids (partyKey event.buyer) = some event.buyer.exchangeOrderId ∧
      ids (partyKey event.seller) = some event.seller.exchangeOrderId
  | .bookOrderAdded _ | .bookOrderReduced _ | .bookOrderRemoved _ => True

def Follows (ids : OrderIds) : List ExchangeEvent → Prop
  | [] => True
  | event :: rest => Named link held gone ids event ∧ Follows (idsAfter ids event) rest

theorem follows_append (ids : OrderIds) (front back : List ExchangeEvent) :
    Follows link held gone ids (front ++ back) ↔
      Follows link held gone ids front ∧ Follows link held gone (front.foldl idsAfter ids) back := by
  induction front generalizing ids with
  | nil => exact (and_iff_right trivial).symm
  | cons event rest ih =>
    rw [List.cons_append, Follows, Follows, ih, and_assoc]
    rfl

variable {link held gone} in
theorem Follows.weaken {ids : OrderIds} {events : List ExchangeEvent} {left : Nat → Prop}
    (follows : Follows link held gone ids events) (implies : ∀ id, gone id → left id) :
    Follows link held left ids events := by
  induction events generalizing ids with
  | nil => trivial
  | cons event rest ih =>
    obtain ⟨named, later⟩ := follows
    refine ⟨?_, ih later⟩
    cases event with
    | orderReplaced event =>
      obtain ⟨old, live, linked, same⟩ := named
      exact ⟨old, live, linked, fun kept => implies old (same kept)⟩
    | orderAccepted | orderRejected | orderCancelled | tradeExecuted | bookOrderAdded | bookOrderReduced
    | bookOrderRemoved => exact named

end Follows

/-- What rests is live under its own keys. -/
def Tracks (ids : OrderIds) (engine : MatchingEngine) : Prop :=
  ∀ entry ∈ engine.resting, ids entry.key = some entry.order.exchangeOrderId

/-- What is live between commands. -/
def idsOf (engine : MatchingEngine) : OrderIds := fun key =>
  (engine.resting.find? fun entry => entry.key = key).map fun entry => entry.order.exchangeOrderId

theorem idsOf_some {engine : MatchingEngine} {key : LiveKey} {id : Nat} (live : engine.idsOf key = some id) :
    ∃ entry ∈ engine.resting, entry.key = key ∧ entry.order.exchangeOrderId = id := by
  obtain ⟨entry, found, same⟩ := Option.map_eq_some_iff.mp live
  have passes := List.find?_some found
  exact ⟨entry, List.mem_of_find?_eq_some found, of_decide_eq_true passes, same⟩

theorem Matched.tracks {engine : MatchingEngine} (matched : engine.Matched) (sound : engine.Sound) :
    Tracks engine.idsOf engine := by
  intro entry member
  have isSome : (engine.resting.find? fun other => other.key = entry.key).isSome :=
    List.find?_isSome.mpr ⟨entry, member, decide_eq_true rfl⟩
  obtain ⟨other, found⟩ := Option.isSome_iff_exists.mp isSome
  have passes := List.find?_some found
  have same : other = entry := List.inj_on_of_nodup_map (matched.distinct sound) (List.mem_of_find?_eq_some found)
    member (of_decide_eq_true passes)
  rw [idsOf, found, same]
  rfl

def incomingKey (incoming : ExchangeRestingOrder) : LiveKey := ⟨incoming.accountId, incoming.clientOrderId⟩

/-- In the middle of an arrival: what rests is live, and so is the incoming order while something
of it is left; no key is taken twice. -/
structure Tracking (ids : OrderIds) (incoming : ExchangeRestingOrder) (engine : MatchingEngine) : Prop where
  rests : Tracks ids engine
  apart : ∀ entry ∈ engine.resting, entry.key ≠ incomingKey incoming
  distinct : (engine.resting.map Resting.key).Nodup
  own : incoming.remainingQuantity ≠ 0 → ids (incomingKey incoming) = some incoming.exchangeOrderId

theorem dropFilled_apply (ids : OrderIds) (party : TradeCounterparty) (key : LiveKey) :
    dropFilled ids party key = if key = partyKey party ∧ party.remainingQuantity = 0 then none else ids key := by
  unfold dropFilled
  by_cases filled : party.remainingQuantity = 0
  · rw [if_pos filled, Function.update_apply]
    simp only [filled, and_true]
  · rw [if_neg filled, if_neg fun both => filled both.2]

section Fill
variable (link : Nat → Nat → Prop) (held : LiveKey → Prop) (gone : Nat → Prop) (commandSequence : Nat)

/-- A trade keeps a key unless it belongs to an order of it that is filled completely. -/
theorem idsAfter_tradeEvent (ids : OrderIds) (incoming : ExchangeRestingOrder) (contra : BookOrder)
    (quantity left eventSequence : Nat) {key : LiveKey}
    (aggressor : key = incomingKey incoming → incoming.remainingQuantity ≠ 0)
    (resting : key = ⟨contra.accountId, contra.clientOrderId⟩ → left ≠ 0) :
    idsAfter ids (tradeEvent commandSequence incoming contra quantity left eventSequence) key = ids key := by
  have keeps (ids : OrderIds) (party : TradeCounterparty) (kept : key = partyKey party → party.remainingQuantity ≠ 0) :
      dropFilled ids party key = ids key := by
    rw [dropFilled_apply, if_neg fun both => kept both.1 both.2]
  unfold tradeEvent idsAfter
  dsimp only
  split_ifs
  · rw [keeps _ (restingParty contra left) resting, keeps _ (aggressorParty incoming) aggressor]
  · rw [keeps _ (aggressorParty incoming) aggressor, keeps _ (restingParty contra left) resting]

variable {incoming : ExchangeRestingOrder} {step : Step} {ids : OrderIds}

theorem named_tradeEvent {contra : BookOrder} (quantity left eventSequence : Nat)
    (aggressor : ids (incomingKey incoming) = some incoming.exchangeOrderId)
    (resting : ids ⟨contra.accountId, contra.clientOrderId⟩ = some contra.exchangeOrderId) :
    Named link held gone ids (tradeEvent commandSequence incoming contra quantity left eventSequence) := by
  unfold tradeEvent Named
  dsimp only
  split_ifs
  · exact ⟨aggressor, resting⟩
  · exact ⟨resting, aggressor⟩

variable (ids) in
theorem bookEvent_quiet (id : InstrumentId) (contra : BookOrder) (left eventSequence : Nat) :
    Named link held gone ids (bookEvent id contra left eventSequence) ∧
      idsAfter ids (bookEvent id contra left eventSequence) = ids := by
  unfold bookEvent
  split_ifs <;> exact ⟨trivial, rfl⟩

/-- What rests after a fill rested before, under the same key; the order that was filled only if
something of it is left. -/
theorem fillFront_rests (sound : step.engine.Sound)
    (known : step.engine.knowsInstrument incoming.instrumentId = true) {first : Placed} {rest : List Placed}
    (contents : (step.engine.bookFor incoming.instrumentId).queues incoming.side.contra = first :: rest)
    (distinct : (step.engine.resting.map Resting.key).Nodup) :
    let after := (fillFront commandSequence incoming first.order step).2.engine
    (after.resting.map Resting.key).Nodup ∧ ∀ other ∈ after.resting, ∃ old ∈ step.engine.resting,
      other.key = old.key ∧ other.order.exchangeOrderId = old.order.exchangeOrderId ∧
      (other.key = ⟨first.order.accountId, first.order.clientOrderId⟩ →
        first.order.remainingQuantity - min incoming.remainingQuantity first.order.remainingQuantity ≠ 0) := by
  rcases le_or_gt first.order.remainingQuantity incoming.remainingQuantity with full | more
  · have change := fillFront_removes commandSequence sound.intact known contents full
    have keys := (change.resting.map Resting.key).nodup_iff.mp distinct
    obtain ⟨unlisted, nodup⟩ := List.nodup_cons.mp keys
    refine ⟨nodup, fun other member => ⟨other, ?_, rfl, rfl, fun same => ?_⟩⟩
    · exact change.resting.mem_iff.mpr (List.mem_cons_of_mem _ member)
    · exact absurd (List.mem_map.mpr ⟨other, member, same⟩) unlisted
  · obtain ⟨change, _⟩ := fillFront_amends commandSequence sound.intact known contents more
    obtain ⟨others, was, is⟩ := change.resting
    have left : first.order.remainingQuantity - min incoming.remainingQuantity first.order.remainingQuantity ≠ 0 := by
      omega
    refine ⟨(is.map Resting.key).nodup_iff.mpr ((was.map Resting.key).nodup_iff.mp distinct), fun other member => ?_⟩
    rcases List.mem_cons.mp (is.mem_iff.mp member) with rfl | member
    · exact ⟨_, was.mem_iff.mpr List.mem_cons_self, rfl, rfl, fun _ => left⟩
    · exact ⟨other, was.mem_iff.mpr (List.mem_cons_of_mem _ member), rfl, rfl, fun _ => left⟩

theorem fillFront_tracks (sound : step.engine.Sound)
    (known : step.engine.knowsInstrument incoming.instrumentId = true) {first : Placed} {rest : List Placed}
    (contents : (step.engine.bookFor incoming.instrumentId).queues incoming.side.contra = first :: rest)
    (some : incoming.remainingQuantity ≠ 0) (tracking : Tracking ids incoming step.engine) :
    let out := fillFront commandSequence incoming first.order step
    ∃ later, out.2.events = step.events ++ later ∧ Follows link held gone ids later ∧
      Tracking (later.foldl idsAfter ids) out.1 out.2.engine := by
  intro out
  obtain ⟨events, _⟩ := fillFront_events commandSequence incoming step first.order
  obtain ⟨distinct, rests⟩ := fillFront_rests commandSequence sound known contents tracking.distinct
  have final : out.1 = incomingAfter incoming (min incoming.remainingQuantity first.order.remainingQuantity) :=
    fillFront_incoming commandSequence incoming step first.order
  have front : Resting.of incoming.instrumentId first ∈ step.engine.resting :=
    sound.intact.mem_resting known (by rw [contents]; exact List.mem_cons_self)
  have book (ids : OrderIds) := bookEvent_quiet link held gone ids incoming.instrumentId first.order
    (first.order.remainingQuantity - min incoming.remainingQuantity first.order.remainingQuantity)
    (step.engine.nextEventSequence + 1)
  have apart : ∀ other ∈ out.2.engine.resting, other.key ≠ incomingKey incoming := by
    intro other member
    obtain ⟨old, there, key, _⟩ := rests other member
    exact key.trans_ne (tracking.apart old there)
  refine ⟨_, events, ⟨?_, (book _).1, trivial⟩, ?_⟩
  · exact named_tradeEvent link held gone commandSequence _ _ _ (tracking.own some) (tracking.rests _ front)
  · rw [List.foldl_cons, List.foldl_cons, List.foldl_nil, (book _).2, final]
    refine ⟨fun other member => ?_, fun other member => ?_, distinct, fun left => ?_⟩
    · obtain ⟨old, there, key, id, filled⟩ := rests other member
      have live := tracking.rests old there
      rw [← key, ← id] at live
      refine Eq.trans ?_ live
      exact idsAfter_tradeEvent commandSequence ids _ first.order _ _ _
        (fun same => absurd same (apart other member)) filled
    · exact apart other member
    · refine Eq.trans ?_ (tracking.own some)
      exact idsAfter_tradeEvent commandSequence ids _ first.order _ _ _ (fun _ => left)
        fun same => absurd same.symm (tracking.apart _ front)

end Fill

section Arrive
variable (link : Nat → Nat → Prop) (held : LiveKey → Prop) (gone : Nat → Prop) (commandSequence : Nat) {incoming : ExchangeRestingOrder}
  {step : Step} {ids : OrderIds}

/-- What is left of an order comes to rest under the key it is live under. -/
theorem restRemainder_tracks (sound : step.engine.Sound)
    (known : step.engine.knowsInstrument incoming.instrumentId = true) (tracking : Tracking ids incoming step.engine) :
    ∃ later, (restRemainderIfApplicable incoming step).events = step.events ++ later ∧ Follows link held gone ids later ∧
      Tracks (later.foldl idsAfter ids) (restRemainderIfApplicable incoming step).engine := by
  by_cases stays : incoming.timeInForce ≠ .gtc ∨ incoming.remainingQuantity = 0
  · rw [restRemainder_stays stays]
    exact ⟨[], (List.append_nil _).symm, trivial, tracking.rests⟩
  · have both := not_or.mp stays
    obtain ⟨change, events⟩ := restRemainder_adds sound.intact known (not_not.mp both.1) both.2
    refine ⟨_, events, ⟨trivial, trivial⟩, fun entry member => ?_⟩
    rcases List.mem_cons.mp (change.resting.mem_iff.mp member) with rfl | member
    · exact tracking.own both.2
    · exact tracking.rests entry member

/-- An arrival: each trade names two orders that are live. -/
theorem matchThenRest_tracks (sound : step.engine.Sound)
    (known : step.engine.knowsInstrument incoming.instrumentId = true) (tracking : Tracking ids incoming step.engine) :
    ∃ later, (matchThenRest commandSequence incoming step).events = step.events ++ later ∧
      Follows link held gone ids later ∧
      Tracks (later.foldl idsAfter ids) (matchThenRest commandSequence incoming step).engine := by
  obtain ⟨⟨fills, filled, follows, tracking'⟩, sound'⟩ := matchAndRest_rule commandSequence
    (fun order middle => ∃ later, middle.events = step.events ++ later ∧ Follows link held gone ids later ∧
      Tracking (later.foldl idsAfter ids) order middle.engine)
    (fun order middle first rest ⟨earlier, before, follows, tracking⟩ sound known contents some _ => by
      obtain ⟨later, events, next, tracking'⟩ :=
        fillFront_tracks link held gone commandSequence sound known contents some.ne' tracking
      refine ⟨earlier ++ later, ?_, (follows_append link held gone ids earlier later).mpr ⟨follows, next⟩, ?_⟩
      · rw [events, before, List.append_assoc]
      · rw [List.foldl_append]
        exact tracking')
    ⟨[], (List.append_nil _).symm, trivial, tracking⟩ sound known
  have done := matchAndRest_matches commandSequence sound known
  have known' : (matchAndRest commandSequence incoming step).2.engine.knowsInstrument
      (matchAndRest commandSequence incoming step).1.instrumentId = true := by
    rw [done.final, done.only.knows]
    exact known
  obtain ⟨rests, rested, next, tracks⟩ := restRemainder_tracks link held gone sound' known' tracking'
  refine ⟨fills ++ rests, ?_, (follows_append link held gone ids fills rests).mpr ⟨follows, next⟩, ?_⟩
  · rw [← List.append_assoc, ← filled]
    exact rested
  · rw [List.foldl_append]
    exact tracks

/-- After the event that brings it, an arrival announces no order. -/
theorem matchThenRest_quiet (later : List ExchangeEvent)
    (events : (matchThenRest commandSequence incoming step).events = step.events ++ later) :
    ∀ event ∈ later, announced event = none := by
  obtain ⟨_, others, emits⟩ := matchThenRest_emits commandSequence incoming step
  have same : later = others := List.append_cancel_left (events.symm.trans emits.events)
  intro event member
  exact (emits.kinds event (same ▸ member)).silent

end Arrive

/-- The new id of a replacement is not the id of another live order of the account. -/
def FreeId (engine : MatchingEngine) : ExchangeCommand → Prop
  | .replaceOrder command => command.newClientOrderId ≠ command.originalClientOrderId →
      engine.orders.lookup (replacementKey command) = none
  | .newOrder _ | .cancelOrder _ => True

instance (engine : MatchingEngine) : DecidablePred engine.FreeId := fun command =>
  match command with
  | .replaceOrder command => inferInstanceAs (Decidable (command.newClientOrderId ≠ command.originalClientOrderId →
      engine.orders.lookup (replacementKey command) = none))
  | .newOrder _ | .cancelOrder _ => inferInstanceAs (Decidable True)

theorem FreeId.own {engine : MatchingEngine} (sound : engine.Sound) (matched : engine.Matched)
    {command : ReplaceOrderCommand} (free : engine.FreeId (.replaceOrder command)) {entry : Resting}
    (member : entry ∈ engine.resting) (same : entry.key = replacementKey command) : entry.key = originalKey command := by
  by_cases own : command.newClientOrderId = command.originalClientOrderId
  · rw [same, replacementKey, originalKey, own]
  · have listed := (matched.mem_orders sound _).mpr ⟨entry, member, same⟩
    rw [← AList.lookup_isSome, free own] at listed
    cases listed

/-- A command carried out, as its events tell it: first what becomes of the order it is about,
then trades and what they do to the book. -/
inductive Traced (link : Nat → Nat → Prop) (held : LiveKey → Prop) (gone : Nat → Prop) (engine : MatchingEngine) :
    ExchangeCommand → Step → Prop where
  | accepted (command : NewOrderCommand) (eventSequence : Nat) (later : List ExchangeEvent) {after : Step}
      (free : ∀ entry ∈ engine.resting, entry.key ≠ ⟨command.accountId, command.clientOrderId⟩)
      (events : after.events = acceptedEvent command engine.nextExchangeOrderId eventSequence :: later)
      (quiet : ∀ event ∈ later, announced event = none)
      (follows : Follows link held gone (Function.update engine.idsOf ⟨command.accountId, command.clientOrderId⟩
        (some engine.nextExchangeOrderId)) later)
      (tracks : Tracks (later.foldl idsAfter (Function.update engine.idsOf ⟨command.accountId, command.clientOrderId⟩
        (some engine.nextExchangeOrderId))) after.engine) : Traced link held gone engine (.newOrder command) after
  | cancelled (command : CancelOrderCommand) (entry : Resting) (eventSequence : Nat) {after : Step}
      (rested : entry ∈ engine.resting) (key : entry.key = ⟨command.accountId, command.clientOrderId⟩)
      (events : after.events = [cancelledEvent command entry.order eventSequence,
        removedEvent command.instrumentId entry.order (eventSequence + 1)])
      (tracks : Tracks (idsAfter engine.idsOf (cancelledEvent command entry.order eventSequence)) after.engine) :
      Traced link held gone engine (.cancelOrder command) after
  | replaced (command : ReplaceOrderCommand) (entry : Resting) (exchangeOrderId eventSequence : Nat)
      (later : List ExchangeEvent) {after : Step} (rested : entry ∈ engine.resting)
      (key : entry.key = originalKey command) (instrument : entry.instrumentId = command.instrumentId)
      (issued : exchangeOrderId = entry.order.exchangeOrderId ∨ exchangeOrderId = engine.nextExchangeOrderId)
      (free : ∀ other ∈ engine.resting, other.key = replacementKey command → other.key = originalKey command)
      (events : after.events = replacedEvent command exchangeOrderId eventSequence :: later)
      (quiet : ∀ event ∈ later, announced event = none)
      (follows : Follows link held gone (idsAfter engine.idsOf (replacedEvent command exchangeOrderId eventSequence)) later)
      (tracks : Tracks (later.foldl idsAfter
        (idsAfter engine.idsOf (replacedEvent command exchangeOrderId eventSequence))) after.engine) :
      Traced link held gone engine (.replaceOrder command) after

section Commands
variable (link : Nat → Nat → Prop) (held : LiveKey → Prop) (gone : Nat → Prop) {engine : MatchingEngine}

/-- Another order's entry is not touched by an update of a key it does not have. -/
theorem Matched.tracks_update (matched : engine.Matched) (sound : engine.Sound) {key : LiveKey} {id : Option Nat}
    {entry : Resting} (member : entry ∈ engine.resting) (different : entry.key ≠ key) :
    Function.update engine.idsOf key id entry.key = some entry.order.exchangeOrderId := by
  rw [Function.update_of_ne different]
  exact matched.tracks sound entry member

theorem acceptNewOrder_traced (sound : engine.Sound) (matched : engine.Matched) {command : NewOrderCommand}
    (valid : engine.newOrderError command = none) :
    Traced link held gone engine (.newOrder command) (acceptNewOrder command { engine }) := by
  obtain ⟨known, _, _, unlisted⟩ := newOrderError_eq_none valid
  have free : ∀ entry ∈ engine.resting, entry.key ≠ ⟨command.accountId, command.clientOrderId⟩ :=
    fun entry member same => unlisted ((matched.mem_orders sound _).mpr ⟨entry, member, same⟩)
  have start : ({ engine } : Step).numbered.engine.Sound := Sound.numbered sound
  have tracking : Tracking (Function.update engine.idsOf ⟨command.accountId, command.clientOrderId⟩
      (some engine.nextExchangeOrderId)) (newOrderOf command engine)
      (({ engine } : Step).numbered.sink (acceptedEvent command engine.nextExchangeOrderId)).engine :=
    ⟨fun entry member => matched.tracks_update sound member (free entry member), free, matched.distinct sound,
      fun _ => Function.update_self ..⟩
  have listed : ({ engine } : Step).numbered.engine.knowsInstrument (newOrderOf command engine).instrumentId = true :=
    known
  rw [acceptNewOrder_eq]
  obtain ⟨later, events, follows, tracks⟩ := matchThenRest_tracks link held gone command.commandSequence
    (start.sink (acceptedEvent command engine.nextExchangeOrderId)) listed tracking
  exact .accepted command engine.nextEventSequence later free events
    (matchThenRest_quiet command.commandSequence later events) follows tracks

theorem processCancel_traced (sound : engine.Sound) (matched : engine.Matched) {command : CancelOrderCommand}
    {ref : OrderRef} {placed : Placed} (cancels : Cancels command engine ref placed) :
    Traced link held gone engine (.cancelOrder command) (processCancel command { engine }) := by
  obtain ⟨change, events⟩ :=
    processCancel_removes { engine } sound.intact cancels.found cancels.same cancels.located
  have key := cancels.located.key
  rw [cancels.same] at key
  obtain ⟨unlisted, _⟩ := List.nodup_cons.mp ((change.resting.map Resting.key).nodup_iff.mp (matched.distinct sound))
  refine .cancelled command (Resting.of command.instrumentId placed) engine.nextEventSequence
    (change.resting.mem_iff.mpr List.mem_cons_self) key events fun entry member => ?_
  refine matched.tracks_update sound (change.resting.mem_iff.mpr (List.mem_cons_of_mem _ member)) fun same => ?_
  exact unlisted (List.mem_map.mpr ⟨entry, member, same.trans key.symm⟩)

/-- What is live once an order has been replaced: the others, and its replacement. -/
theorem replaced_tracks (sound : engine.Sound) (matched : engine.Matched) {command : ReplaceOrderCommand}
    (free : ∀ other ∈ engine.resting, other.key = replacementKey command → other.key = originalKey command) {entry : Resting}
    (key : entry.key = originalKey command) {others : List Resting} (was : engine.resting.Perm (entry :: others))
    (exchangeOrderId eventSequence : Nat) :
    let ids := idsAfter engine.idsOf (replacedEvent command exchangeOrderId eventSequence)
    ids (replacementKey command) = some exchangeOrderId ∧
      ∀ other ∈ others, ids other.key = some other.order.exchangeOrderId ∧ other.key ≠ replacementKey command := by
  obtain ⟨unlisted, _⟩ := List.nodup_cons.mp ((was.map Resting.key).nodup_iff.mp (matched.distinct sound))
  refine ⟨Function.update_self .., fun other member => ?_⟩
  have rested := was.mem_iff.mpr (List.mem_cons_of_mem _ member)
  have apart : other.key ≠ originalKey command := fun same =>
    unlisted (List.mem_map.mpr ⟨other, member, same.trans key.symm⟩)
  have different : other.key ≠ replacementKey command := fun same => apart (free other rested same)
  exact ⟨(Function.update_of_ne different ..).trans (matched.tracks_update sound rested apart), different⟩

theorem replaceInPlace_traced (sound : engine.Sound) (matched : engine.Matched) {command : ReplaceOrderCommand}
    {ref : OrderRef} {placed : Placed} (replaces : Replaces command engine ref placed)
    (free : ∀ other ∈ engine.resting, other.key = replacementKey command → other.key = originalKey command) :
    Traced link held gone engine (.replaceOrder command) (replaceInPlace command ref placed.order { engine }) := by
  obtain ⟨change, _, events⟩ := replaceInPlace_amends { engine } sound.intact replaces.same replaces.located
  obtain ⟨others, was, is⟩ := change.resting
  have key := replaces.located.key
  rw [replaces.same] at key
  obtain ⟨new, rest⟩ := replaced_tracks sound matched free key was placed.order.exchangeOrderId engine.nextEventSequence
  have newKey : ({ Resting.of command.instrumentId placed with
      order := editFor command placed.order } : Resting).key = replacementKey command := by
    have account := congrArg LiveKey.accountId key
    exact congrArg (LiveKey.mk · command.newClientOrderId) account
  refine .replaced command (Resting.of command.instrumentId placed) placed.order.exchangeOrderId engine.nextEventSequence
    [reducedEvent command.instrumentId placed.order command.newQuantity (engine.nextEventSequence + 1)]
    (was.mem_iff.mpr List.mem_cons_self) key rfl (Or.inl rfl) free events ?_ ⟨trivial, trivial⟩ fun entry member => ?_
  · intro event member
    rw [List.mem_singleton.mp member]
    rfl
  · rcases List.mem_cons.mp (is.mem_iff.mp member) with rfl | member
    · exact (congrArg (idsAfter engine.idsOf (replacedEvent command placed.order.exchangeOrderId
        engine.nextEventSequence)) newKey).trans new
    · exact (rest entry member).1

theorem replaceByNew_traced (sound : engine.Sound) (matched : engine.Matched) {command : ReplaceOrderCommand}
    {ref : OrderRef} {placed : Placed} (replaces : Replaces command engine ref placed)
    (free : ∀ other ∈ engine.resting, other.key = replacementKey command → other.key = originalKey command) :
    Traced link held gone engine (.replaceOrder command) (replaceByNew command ref placed.order { engine }) := by
  have change := withdrawn_removes { engine } sound.intact replaces.same replaces.located
  obtain ⟨middle, known, _⟩ := replacing_sound { engine } sound replaces
  have key := replaces.located.key
  rw [replaces.same] at key
  obtain ⟨new, rest⟩ := replaced_tracks sound matched free key change.resting engine.nextExchangeOrderId
    engine.nextEventSequence
  obtain ⟨_, distinct⟩ := List.nodup_cons.mp ((change.resting.map Resting.key).nodup_iff.mp (matched.distinct sound))
  have tracking : Tracking (idsAfter engine.idsOf
      (replacedEvent command engine.nextExchangeOrderId engine.nextEventSequence))
      (replacementOf command placed.order engine) (replacing command ref placed.order { engine }).engine :=
    ⟨fun entry member => (rest entry member).1, fun entry member => (rest entry member).2, distinct, fun _ => new⟩
  have listed : (replacing command ref placed.order { engine }).engine.knowsInstrument
      (replacementOf command placed.order engine).instrumentId = true := known
  rw [replaceByNew_eq]
  obtain ⟨later, events, follows, tracks⟩ :=
    matchThenRest_tracks link held gone command.commandSequence middle listed tracking
  have quiet := matchThenRest_quiet command.commandSequence later events
  refine .replaced command (Resting.of command.instrumentId placed) engine.nextExchangeOrderId engine.nextEventSequence
    (removedEvent command.instrumentId placed.order (engine.nextEventSequence + 1) :: later)
    (change.resting.mem_iff.mpr List.mem_cons_self) key rfl (Or.inr rfl) free events (fun event member => ?_)
    ⟨trivial, follows⟩ tracks
  rcases List.mem_cons.mp member with rfl | member
  · rfl
  · exact quiet event member

/-- Every command is turned down, or its events tell what becomes of each order. -/
theorem process_traced (sound : engine.Sound) (matched : engine.Matched) (command : ExchangeCommand)
    (free : engine.FreeId command) :
    (∃ rejection, TurnsDown { engine } (process engine command) rejection) ∨
      Traced link held gone engine command (process engine command) := by
  cases command with
  | newOrder command =>
    show (∃ rejection, TurnsDown { engine } (processNewOrder command { engine }) rejection) ∨
      Traced link held gone engine _ (processNewOrder command { engine })
    unfold processNewOrder
    cases valid : engine.newOrderError command with
    | some reason => exact Or.inl ⟨_, rfl, rfl, rfl⟩
    | none => exact Or.inr (acceptNewOrder_traced link held gone sound matched valid)
  | cancelOrder command =>
    show (∃ rejection, TurnsDown { engine } (processCancel command { engine }) rejection) ∨
      Traced link held gone engine _ (processCancel command { engine })
    rcases processCancel_cases { engine } sound command with ⟨reason, rejected⟩ | ⟨ref, placed, cancels⟩
    · rw [rejected]
      exact Or.inl ⟨_, rfl, rfl, rfl⟩
    · exact Or.inr (processCancel_traced link held gone sound matched cancels)
  | replaceOrder command =>
    show (∃ rejection, TurnsDown { engine } (processReplace command { engine }) rejection) ∨
      Traced link held gone engine _ (processReplace command { engine })
    rcases processReplace_cases { engine } sound command with ⟨reason, rejected⟩ | ⟨ref, placed, replaces⟩
    · rw [rejected]
      exact Or.inl ⟨_, rfl, rfl, rfl⟩
    · have untaken : ∀ other ∈ engine.resting, other.key = replacementKey command → other.key = originalKey command :=
        fun other member same => free.own sound matched member same
      rw [processReplace_eq { engine } replaces]
      split_ifs
      · exact Or.inr (replaceInPlace_traced link held gone sound matched replaces untaken)
      · exact Or.inr (replaceByNew_traced link held gone sound matched replaces untaken)

end Commands

end Mdh.Matching.MatchingEngine
