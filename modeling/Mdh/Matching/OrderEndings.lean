import Mdh.Matching.OrderTracking

/-! The ends of orders by the events alone. An order that leaves the books, or its key, does so
under an event that names it; only what is discarded of an order that may not rest ends untold. -/

namespace Mdh.Matching.MatchingEngine
open Mdh.Core Mdh.Lib

/-- The key an order goes by after an event, as the event tells; nothing once it has ended. -/
def keyAfter (key : LiveKey) : ExchangeEvent → Option LiveKey
  | .orderCancelled event => if key = ⟨event.accountId, event.clientOrderId⟩ then none else some key
  | .orderReplaced event =>
      if key = ⟨event.accountId, event.originalClientOrderId⟩ then some ⟨event.accountId, event.newClientOrderId⟩
      else some key
  | .tradeExecuted event =>
      if key = partyKey event.buyer ∧ event.buyer.remainingQuantity = 0 ∨
          key = partyKey event.seller ∧ event.seller.remainingQuantity = 0 then none
      else some key
  | .orderAccepted _ | .orderRejected _ | .bookOrderAdded _ | .bookOrderReduced _ | .bookOrderRemoved _ => some key

def keyAfterAll (key : LiveKey) : List ExchangeEvent → Option LiveKey
  | [] => some key
  | event :: rest => (keyAfter key event).bind fun left => keyAfterAll left rest

theorem keyAfterAll_append (key : LiveKey) (front back : List ExchangeEvent) :
    keyAfterAll key (front ++ back) = (keyAfterAll key front).bind fun left => keyAfterAll left back := by
  induction front generalizing key with
  | nil => rfl
  | cons event rest ih =>
    rw [List.cons_append, keyAfterAll, keyAfterAll, Option.bind_assoc]
    exact congrArg (Option.bind _) (funext ih)

/-- Only a replacement moves an order to another key, and only the order it replaces. -/
theorem keyAfter_stays {key left : LiveKey} {event : ExchangeEvent}
    (apart : ∀ replaced, event = .orderReplaced replaced → key ≠ ⟨replaced.accountId, replaced.originalClientOrderId⟩)
    (survives : keyAfter key event = some left) : left = key := by
  cases event with
  | orderReplaced event =>
    simp only [keyAfter, apart event rfl, if_false] at survives
    exact (Option.some.inj survives).symm
  | orderCancelled | tradeExecuted =>
    simp only [keyAfter] at survives
    split_ifs at survives
    exact (Option.some.inj survives).symm
  | orderAccepted | orderRejected | bookOrderAdded | bookOrderReduced | bookOrderRemoved =>
    exact (Option.some.inj survives).symm

theorem keyAfterAll_stays {key left : LiveKey} {events : List ExchangeEvent}
    (quiet : ∀ event ∈ events, announced event = none) (survives : keyAfterAll key events = some left) : left = key := by
  induction events generalizing key with
  | nil => exact (Option.some.inj survives).symm
  | cons event rest ih =>
    obtain ⟨next, here, later⟩ := Option.bind_eq_some_iff.mp survives
    have stays : next = key := by
      refine keyAfter_stays (fun replaced same => ?_) here
      have none := quiet event List.mem_cons_self
      rw [same] at none
      cases none
    rw [stays] at later
    exact ih (fun other member => quiet other (List.mem_cons_of_mem _ member)) later

/-- Some order rests under the key. -/
def Rests (engine : MatchingEngine) (key : LiveKey) : Prop := ∃ entry ∈ engine.resting, entry.key = key

instance (engine : MatchingEngine) (key : LiveKey) : Decidable (engine.Rests key) :=
  inferInstanceAs (Decidable (∃ entry ∈ engine.resting, entry.key = key))

section Changes
variable {before after : MatchingEngine} {entry : Resting} {key : LiveKey}

theorem Removes.rests (change : Removes entry before after) (other : key ≠ entry.key) (rests : before.Rests key) :
    after.Rests key := by
  obtain ⟨found, member, same⟩ := rests
  rcases List.mem_cons.mp (change.resting.mem_iff.mp member) with rfl | stays
  · exact absurd same.symm other
  · exact ⟨found, stays, same⟩

theorem Amends.rests {edit : BookOrder → BookOrder} (change : Amends entry edit before after)
    (moved : entry.key = key → ({ entry with order := edit entry.order } : Resting).key = key) (rests : before.Rests key) :
    after.Rests key := by
  obtain ⟨found, member, same⟩ := rests
  obtain ⟨others, was, is⟩ := change.resting
  rcases List.mem_cons.mp (was.mem_iff.mp member) with rfl | stays
  · exact ⟨_, is.mem_iff.mpr List.mem_cons_self, moved same⟩
  · exact ⟨found, is.mem_iff.mpr (List.mem_cons_of_mem _ stays), same⟩

theorem Adds.rests {ref : OrderRef} (change : Adds entry ref before after) (rests : key = entry.key ∨ before.Rests key) :
    after.Rests key := by
  rcases rests with rfl | ⟨found, member, same⟩
  · exact ⟨entry, change.resting.mem_iff.mpr List.mem_cons_self, rfl⟩
  · exact ⟨found, change.resting.mem_iff.mpr (List.mem_cons_of_mem _ member), same⟩

end Changes

section Fill
variable (commandSequence : Nat) {incoming : ExchangeRestingOrder} {step : Step}

/-- The orders that were under the keys `among` are under theirs, or are the incoming one, which has
not ended while something of it is left. -/
def Following (among : LiveKey → Prop) (incoming : ExchangeRestingOrder) (step : Step) : Prop :=
  ∀ key left, among key → keyAfterAll key step.events = some left →
    step.engine.Rests left ∨ left = incomingKey incoming ∧ incoming.remainingQuantity ≠ 0

/-- An order survives a trade unless the trade fills it completely. -/
theorem keyAfter_tradeEvent {contra : BookOrder} {quantity left eventSequence : Nat} {key next : LiveKey}
    (survives : keyAfter key (tradeEvent commandSequence incoming contra quantity left eventSequence) = some next) :
    next = key ∧ (key = incomingKey incoming → incoming.remainingQuantity ≠ 0) ∧
      (key = ⟨contra.accountId, contra.clientOrderId⟩ → left ≠ 0) := by
  simp only [keyAfter, tradeEvent] at survives
  split_ifs at survives with buys ends
  · obtain ⟨aggressor, resting⟩ := not_or.mp ends
    exact ⟨(Option.some.inj survives).symm, fun same filled => aggressor ⟨same, filled⟩,
      fun same filled => resting ⟨same, filled⟩⟩
  · rename_i ends
    obtain ⟨resting, aggressor⟩ := not_or.mp ends
    exact ⟨(Option.some.inj survives).symm, fun same filled => aggressor ⟨same, filled⟩,
      fun same filled => resting ⟨same, filled⟩⟩

theorem keyAfter_bookEvent (key : LiveKey) (id : InstrumentId) (contra : BookOrder) (left eventSequence : Nat) :
    keyAfter key (bookEvent id contra left eventSequence) = some key := by
  unfold bookEvent
  split_ifs <;> rfl

theorem fillFront_following {among : LiveKey → Prop} (sound : step.engine.Sound)
    (known : step.engine.knowsInstrument incoming.instrumentId = true) {first : Placed} {rest : List Placed}
    (contents : (step.engine.bookFor incoming.instrumentId).queues incoming.side.contra = first :: rest)
    (following : Following among incoming step) :
    Following among (fillFront commandSequence incoming first.order step).1
      (fillFront commandSequence incoming first.order step).2 := by
  intro key left chosen survives
  rw [(fillFront_events commandSequence incoming step first.order).1, keyAfterAll_append] at survives
  obtain ⟨next, earlier, survives⟩ := Option.bind_eq_some_iff.mp survives
  obtain ⟨traded, trade, survives⟩ := Option.bind_eq_some_iff.mp survives
  rw [keyAfterAll, keyAfter_bookEvent] at survives
  obtain rfl : traded = left := Option.some.inj survives
  obtain ⟨rfl, aggressor, resting⟩ := keyAfter_tradeEvent commandSequence trade
  rw [fillFront_incoming]
  rcases following key traded chosen earlier with rests | ⟨own, _⟩
  · left
    rcases le_or_gt first.order.remainingQuantity incoming.remainingQuantity with full | more
    · refine (fillFront_removes commandSequence sound.intact known contents full).rests (fun same => ?_) rests
      exact resting same (by omega)
    · exact (fillFront_amends commandSequence sound.intact known contents more).1.rests id rests
  · exact Or.inr ⟨own, aggressor own⟩

/-- Nothing is discarded of an order that may rest or finds all it asks for. -/
theorem matchAndRest_whole (sound : step.engine.Sound)
    (known : step.engine.knowsInstrument incoming.instrumentId = true)
    (whole : incoming.timeInForce = .gtc ∨ incoming.remainingQuantity ≤
      step.engine.liquidity incoming.instrumentId incoming.side incoming.price)
    (stays : (matchAndRest commandSequence incoming step).1.timeInForce ≠ .gtc ∨
      (matchAndRest commandSequence incoming step).1.remainingQuantity = 0) :
    (matchAndRest commandSequence incoming step).1.remainingQuantity = 0 := by
  refine stays.elim (fun immediate => ?_) id
  have done := matchAndRest_matches commandSequence sound known
  rw [done.final] at immediate ⊢
  exact (Reference.fill_complete_iff (toBookOrder incoming)
    (sound.intact.queue_ordered known incoming.side.contra)).mpr (whole.resolve_left immediate)

/-- Unless something of an incoming order is discarded, the surviving orders rest after it. -/
theorem Following.rests_after {among : LiveKey → Prop} (following : Following among incoming step)
    (sound : step.engine.Sound) (known : step.engine.knowsInstrument incoming.instrumentId = true)
    (whole : incoming.timeInForce = .gtc ∨ incoming.remainingQuantity ≤
      step.engine.liquidity incoming.instrumentId incoming.side incoming.price)
    {key left : LiveKey} (chosen : among key)
    (survives : keyAfterAll key (matchThenRest commandSequence incoming step).events = some left) :
    (matchThenRest commandSequence incoming step).engine.Rests left := by
  obtain ⟨matched, sound'⟩ := matchAndRest_rule commandSequence (Following among)
    (fun order middle first rest following sound known contents _ _ =>
      fillFront_following commandSequence sound known contents following) following sound known
  have done := matchAndRest_matches commandSequence sound known
  have known' : (matchAndRest commandSequence incoming step).2.engine.knowsInstrument
      (matchAndRest commandSequence incoming step).1.instrumentId = true := by
    rw [done.final, done.only.knows]
    exact known
  unfold matchThenRest at survives ⊢
  by_cases stays : (matchAndRest commandSequence incoming step).1.timeInForce ≠ .gtc ∨
      (matchAndRest commandSequence incoming step).1.remainingQuantity = 0
  · rw [restRemainder_stays stays] at survives ⊢
    rcases matched key left chosen survives with rests | ⟨_, open_⟩
    · exact rests
    · exact absurd (matchAndRest_whole commandSequence sound known whole stays) open_
  · have both := not_or.mp stays
    obtain ⟨change, events⟩ := restRemainder_adds sound'.intact known' (not_not.mp both.1) both.2
    rw [events, keyAfterAll_append] at survives
    obtain ⟨next, earlier, survives⟩ := Option.bind_eq_some_iff.mp survives
    obtain rfl : next = left := Option.some.inj survives
    refine change.rests ?_
    rcases matched key next chosen earlier with rests | ⟨own, _⟩
    · exact Or.inr rests
    · exact Or.inl own

end Fill

section Commands
variable {engine : MatchingEngine}

/-- Nothing of the command's order is discarded: what does not rest finds all it asks for. -/
def FillsWhole (engine : MatchingEngine) : ExchangeCommand → Prop
  | .newOrder command => command.timeInForce = .gtc ∨
      command.quantity ≤ engine.crossableQuantity command.instrumentId command.side command.price command.quantity
  | .cancelOrder _ | .replaceOrder _ => True

instance (engine : MatchingEngine) : DecidablePred engine.FillsWhole := fun command =>
  match command with
  | .newOrder _ => inferInstanceAs (Decidable (_ ∨ _))
  | .cancelOrder _ | .replaceOrder _ => inferInstanceAs (Decidable True)

/-- The order a command is about: a replacement is about its original. -/
def subject : ExchangeCommand → LiveKey
  | .newOrder command => ⟨command.accountId, command.clientOrderId⟩
  | .cancelOrder command => ⟨command.accountId, command.clientOrderId⟩
  | .replaceOrder command => originalKey command

/-- A command as its events tell the ends of orders: what was resting or is its subject rests if it
survives them, and only the first of them brings an order or gives it a new key. -/
structure EndsTold (engine : MatchingEngine) (command : ExchangeCommand) (after : Step) : Prop where
  rests : ∀ key left, engine.Rests key ∨ key = subject command → keyAfterAll key after.events = some left →
    after.engine.Rests left
  first : ∃ event later, after.events = event :: later ∧ ¬ IsRejection event ∧
    (∀ accepted, event = .orderAccepted accepted → subject command = ⟨accepted.accountId, accepted.clientOrderId⟩) ∧
    (∀ replaced, event = .orderReplaced replaced →
      subject command = ⟨replaced.accountId, replaced.originalClientOrderId⟩) ∧
    ∀ event ∈ later, announced event = none ∧ ¬ IsRejection event

/-- The command was turned down, and its rejection names its subject. -/
structure Declined (engine : MatchingEngine) (command : ExchangeCommand) (after : Step) : Prop where
  events : ∃ rejection : OrderRejected, after.events = [.orderRejected rejection] ∧
    (⟨rejection.accountId, rejection.clientOrderId⟩ : LiveKey) = subject command
  resting : after.engine.resting = engine.resting

theorem matchThenRest_first (commandSequence : Nat) (incoming : ExchangeRestingOrder) (step : Step) {event : ExchangeEvent}
    {earlier : List ExchangeEvent} (before : step.events = event :: earlier)
    (quiet : ∀ event ∈ earlier, announced event = none ∧ ¬ IsRejection event) :
    ∃ later, (matchThenRest commandSequence incoming step).events = event :: later ∧
      ∀ event ∈ later, announced event = none ∧ ¬ IsRejection event := by
  obtain ⟨_, later, emits⟩ := matchThenRest_emits commandSequence incoming step
  refine ⟨earlier ++ later, by rw [emits.events, before, List.cons_append], fun event member => ?_⟩
  rcases List.mem_append.mp member with old | new
  · exact quiet event old
  · exact ⟨(emits.kinds event new).silent, FromMatching.accepts event (emits.kinds event new)⟩

theorem acceptNewOrder_endsTold (sound : engine.Sound) {command : NewOrderCommand}
    (valid : engine.newOrderError command = none) (whole : engine.FillsWhole (.newOrder command)) :
    EndsTold engine (.newOrder command) (acceptNewOrder command { engine }) := by
  obtain ⟨known, _, quantity, _⟩ := newOrderError_eq_none valid
  have start : ({ engine } : Step).numbered.engine.Sound := Sound.numbered sound
  have ready := start.sink (acceptedEvent command engine.nextExchangeOrderId)
  have enough : command.timeInForce = .gtc ∨
      command.quantity ≤ engine.liquidity command.instrumentId command.side command.price := by
    rcases whole with gtc | whole
    · exact Or.inl gtc
    · exact Or.inr (not_lt.mp (mt (crossableQuantity_lt_iff sound.intact known ..).mpr whole.not_gt))
  rw [acceptNewOrder_eq]
  refine ⟨fun key left lives survives => ?_, ?_⟩
  · have following : Following (fun key => engine.Rests key ∨ key = subject (.newOrder command))
        (newOrderOf command engine)
        (({ engine } : Step).numbered.sink (acceptedEvent command engine.nextExchangeOrderId)) := by
      intro key left lives survives
      obtain rfl : key = left := Option.some.inj survives
      rcases lives with rests | own
      · exact Or.inl rests
      · exact Or.inr ⟨own, quantity⟩
    exact following.rests_after command.commandSequence ready known enough lives survives
  · obtain ⟨later, events, quiet⟩ := matchThenRest_first command.commandSequence (newOrderOf command engine)
      (({ engine } : Step).numbered.sink (acceptedEvent command engine.nextExchangeOrderId)) rfl nofun
    refine ⟨_, later, events, not_false, fun accepted same => ?_, nofun, quiet⟩
    cases same
    rfl

theorem processCancel_endsTold (sound : engine.Sound) {command : CancelOrderCommand} {ref : OrderRef} {placed : Placed}
    (cancels : Cancels command engine ref placed) :
    EndsTold engine (.cancelOrder command) (processCancel command { engine }) := by
  obtain ⟨change, events⟩ :=
    processCancel_removes { engine } sound.intact cancels.found cancels.same cancels.located
  have key := cancels.located.key
  rw [cancels.same] at key
  refine ⟨fun asked left lives survives => ?_, _, _, events, not_false, nofun, nofun, fun event member => ?_⟩
  · rw [events] at survives
    obtain ⟨next, here, later⟩ := Option.bind_eq_some_iff.mp survives
    obtain rfl : next = left := Option.some.inj later
    simp only [keyAfter, cancelledEvent] at here
    split_ifs at here with same
    obtain rfl := Option.some.inj here
    rcases lives with rests | own
    · exact change.rests (fun other => same (other.trans key)) rests
    · exact absurd own same
  · obtain rfl := List.mem_singleton.mp member
    exact ⟨rfl, not_false⟩

theorem replaceInPlace_endsTold (sound : engine.Sound) {command : ReplaceOrderCommand} {ref : OrderRef} {placed : Placed}
    (replaces : Replaces command engine ref placed) :
    EndsTold engine (.replaceOrder command) (replaceInPlace command ref placed.order { engine }) := by
  obtain ⟨change, _, events⟩ := replaceInPlace_amends { engine } sound.intact replaces.same replaces.located
  have key := replaces.located.key
  rw [replaces.same] at key
  have moved : ({ Resting.of command.instrumentId placed with order := editFor command placed.order } : Resting).key =
      replacementKey command := congrArg (LiveKey.mk · command.newClientOrderId) (congrArg LiveKey.accountId key)
  have there : engine.Rests (originalKey command) :=
    ⟨_, replaces.same ▸ replaces.located.resting sound.intact, key⟩
  refine ⟨fun asked left lives survives => ?_, _, _, events, not_false, nofun, fun replaced same => ?_, fun event member => ?_⟩
  · rw [events] at survives
    obtain ⟨next, here, later⟩ := Option.bind_eq_some_iff.mp survives
    obtain rfl : next = left := Option.some.inj later
    have rests : engine.Rests asked := lives.elim id fun own => own ▸ there
    simp only [keyAfter, replacedEvent] at here
    split_ifs at here with same
    · obtain rfl := Option.some.inj here
      obtain ⟨others, _, is⟩ := change.resting
      exact ⟨_, is.mem_iff.mpr List.mem_cons_self, moved⟩
    · obtain rfl := Option.some.inj here
      exact change.rests (fun own => absurd (own.symm.trans key) same) rests
  · cases same
    rfl
  · obtain rfl := List.mem_singleton.mp member
    exact ⟨rfl, not_false⟩

theorem replaceByNew_endsTold (sound : engine.Sound) {command : ReplaceOrderCommand} {ref : OrderRef} {placed : Placed}
    (replaces : Replaces command engine ref placed) :
    EndsTold engine (.replaceOrder command) (replaceByNew command ref placed.order { engine }) := by
  have change := withdrawn_removes { engine } sound.intact replaces.same replaces.located
  obtain ⟨middle, known, _⟩ := replacing_sound { engine } sound replaces
  have there := replaces.located.resting sound.intact
  have gtc : placed.order.timeInForce = .gtc := sound.gtc _ there
  have key := replaces.located.key
  rw [replaces.same] at key
  rw [replaceByNew_eq]
  refine ⟨fun asked left lives survives => ?_, ?_⟩
  · have following : Following (fun key => engine.Rests key ∨ key = subject (.replaceOrder command))
        (replacementOf command placed.order engine) (replacing command ref placed.order { engine }) := by
      intro asked left lives survives
      obtain ⟨next, here, later⟩ := Option.bind_eq_some_iff.mp survives
      obtain rfl : next = left := Option.some.inj later
      simp only [keyAfter, replacedEvent] at here
      split_ifs at here with same
      · exact Or.inr ⟨(Option.some.inj here).symm, replaces.quantity⟩
      · obtain rfl := Option.some.inj here
        rcases lives with rests | own
        · exact Or.inl (change.rests (fun other => same (other.trans key)) rests)
        · exact absurd own same
    exact following.rests_after command.commandSequence middle known (Or.inl gtc) lives survives
  · obtain ⟨later, events, quiet⟩ := matchThenRest_first command.commandSequence (replacementOf command placed.order engine)
      (replacing command ref placed.order { engine }) rfl fun event member => by
        obtain rfl := List.mem_singleton.mp member
        exact ⟨rfl, not_false⟩
    refine ⟨_, later, events, not_false, by rintro _ ⟨⟩, fun replaced same => ?_, quiet⟩
    cases same
    rfl

/-- The ways a command is carried out. -/
inductive Takes (engine : MatchingEngine) : ExchangeCommand → Step → Prop where
  | accepts {command : NewOrderCommand} (valid : engine.newOrderError command = none) :
      Takes engine (.newOrder command) (acceptNewOrder command { engine })
  | cancels {command : CancelOrderCommand} {ref : OrderRef} {placed : Placed} (cancels : Cancels command engine ref placed) :
      Takes engine (.cancelOrder command) (processCancel command { engine })
  | replacesInPlace {command : ReplaceOrderCommand} {ref : OrderRef} {placed : Placed}
      (replaces : Replaces command engine ref placed) (preserves : preservesPriority command placed.order = true) :
      Takes engine (.replaceOrder command) (replaceInPlace command ref placed.order { engine })
  | replacesByNew {command : ReplaceOrderCommand} {ref : OrderRef} {placed : Placed}
      (replaces : Replaces command engine ref placed) :
      Takes engine (.replaceOrder command) (replaceByNew command ref placed.order { engine })

theorem process_paths (sound : engine.Sound) (command : ExchangeCommand) :
    Declined engine command (engine.process command) ∨ Takes engine command (engine.process command) := by
  cases command with
  | newOrder command =>
    show Declined engine _ (processNewOrder command { engine }) ∨ Takes engine _ (processNewOrder command { engine })
    unfold processNewOrder
    cases valid : engine.newOrderError command with
    | some reason => exact Or.inl ⟨⟨_, rfl, rfl⟩, rfl⟩
    | none => exact Or.inr (.accepts valid)
  | cancelOrder command =>
    rcases processCancel_cases { engine } sound command with ⟨reason, rejected⟩ | ⟨ref, placed, cancels⟩
    · have out : engine.process (.cancelOrder command) = _ := rejected
      rw [out]
      exact Or.inl ⟨⟨_, rfl, rfl⟩, rfl⟩
    · exact Or.inr (.cancels cancels)
  | replaceOrder command =>
    rcases processReplace_cases { engine } sound command with ⟨reason, rejected⟩ | ⟨ref, placed, replaces⟩
    · have out : engine.process (.replaceOrder command) = _ := rejected
      rw [out]
      exact Or.inl ⟨⟨_, rfl, rfl⟩, rfl⟩
    · have out : engine.process (.replaceOrder command) = _ := processReplace_eq { engine } replaces
      rw [out]
      split_ifs with preserves
      · exact Or.inr (.replacesInPlace replaces preserves)
      · exact Or.inr (.replacesByNew replaces)

/-- Every command is turned down under its subject's key, or tells the ends of orders. -/
theorem process_endsTold (sound : engine.Sound) (command : ExchangeCommand)
    (whole : (∀ event ∈ (engine.process command).events, ¬ IsRejection event) → engine.FillsWhole command) :
    Declined engine command (engine.process command) ∨ EndsTold engine command (engine.process command) := by
  rcases process_paths sound command with declined | taken
  · exact Or.inl declined
  · right
    generalize engine.process command = after at taken whole
    cases taken with
    | @accepts command valid =>
      refine acceptNewOrder_endsTold sound valid (whole ?_)
      obtain ⟨later, events, quiet⟩ := matchThenRest_first command.commandSequence (newOrderOf command engine)
        (({ engine } : Step).numbered.sink (acceptedEvent command engine.nextExchangeOrderId)) rfl nofun
      intro event member
      rw [acceptNewOrder_eq, events] at member
      rcases List.mem_cons.mp member with rfl | after
      · exact not_false
      · exact (quiet event after).2
    | cancels cancels => exact processCancel_endsTold sound cancels
    | replacesInPlace replaces _ => exact replaceInPlace_endsTold sound replaces
    | replacesByNew replaces => exact replaceByNew_endsTold sound replaces

end Commands

end Mdh.Matching.MatchingEngine
