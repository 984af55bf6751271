import Mdh.Risk.InFlight

/-! Ledger and engine agree on what is reserved after every command, as long as no
replacement takes the id of another live order. -/

namespace Mdh.Risk
open Mdh.Core Mdh.Lib Mdh.Matching Mdh.Matching.MatchingEngine Mdh.Accounts

/-- Every resting order has its hold, no hold is left over, and what an account has reserved
is what its resting orders may cost it. -/
structure HoldsAgree (engine : MatchingEngine) (ledger : Ledger) : Prop where
  holds : ledger.reservations.Perm (engine.resting.map reservationOf)
  cashReserved : ∀ accountId, ledger.cashReserved accountId =
    ((engine.resting.filter fun entry => entry.order.accountId = accountId ∧ entry.order.side = .buy).map
      fun entry => (entry.order.remainingQuantity : Int) * entry.order.price).sum
  positionReserved : ∀ accountId instrumentId, ledger.positionReserved accountId instrumentId =
    ((engine.resting.filter fun entry => entry.order.accountId = accountId ∧ entry.order.side = .sell ∧
      entry.instrumentId = instrumentId).map fun entry => (entry.order.remainingQuantity : Int)).sum

/-- The new id of a replacement is not the id of another live order of the same account. -/
def FreshId (engine : MatchingEngine) : ExchangeCommand → Prop
  | .replaceOrder command =>
      ∀ entry ∈ engine.resting, entry.key = replacementKey command → entry.key = originalKey command
  | _ => True

instance (engine : MatchingEngine) (command : ExchangeCommand) : Decidable (FreshId engine command) :=
  match command with
  | .newOrder _ | .cancelOrder _ => isTrue trivial
  | .replaceOrder command =>
      inferInstanceAs (Decidable
        (∀ entry ∈ engine.resting, entry.key = replacementKey command → entry.key = originalKey command))

/-- The invariant between commands. -/
structure InStep (engine : MatchingEngine) (ledger : Ledger) : Prop where
  sound : engine.Sound
  matched : engine.Matched
  holds : ledger.reservations.Perm (engine.resting.map reservationOf)
  backed : Backed ledger

theorem sum_map_ite {α : Type*} (test : α → Prop) [DecidablePred test] (value : α → Int) (entries : List α) :
    (entries.map fun entry => if test entry then value entry else 0).sum = ((entries.filter test).map value).sum := by
  induction entries with
  | nil => rfl
  | cons entry rest ih =>
    rw [List.map_cons, List.sum_cons, ih]
    by_cases passes : test entry <;> simp [passes]

theorem InStep.holdsAgree {engine : MatchingEngine} {ledger : Ledger} (inStep : InStep engine ledger) :
    HoldsAgree engine ledger := by
  refine ⟨inStep.holds, fun accountId => ?_, fun accountId instrumentId => ?_⟩
  · rw [inStep.backed.cash, (inStep.holds.map _).sum_eq, List.map_map, ← sum_map_ite]
    rfl
  · rw [inStep.backed.units, (inStep.holds.map _).sum_eq, List.map_map, ← sum_map_ite]
    rfl

section Openings
variable {engine : MatchingEngine} {ledger : Ledger}

/-- The ledger when a new order has been accepted: a GTC order has its hold, any other has none. -/
theorem InStep.accepted (inStep : InStep engine ledger) {command : NewOrderCommand}
    (valid : engine.newOrderError command = none) :
    let start := ({ engine } : Step).numbered.sink (acceptedEvent command engine.nextExchangeOrderId)
    InFlight (newOrderOf command engine) start.engine (settled ledger start) ∧
      Shifts command.accountId command.instrumentId
        (if command.timeInForce = .gtc then reserveShift command.side command.price command.quantity 1 else {})
        ledger (settled ledger start) := by
  intro start
  obtain ⟨_, _, positive, unlisted⟩ := newOrderError_eq_none valid
  have fresh : ∀ entry ∈ engine.resting, (reservationOf entry).key ≠ (reservationFor (newOrderOf command engine)).key := by
    intro entry member same
    refine unlisted ((inStep.matched.mem_orders inStep.sound _).mpr ⟨entry, member, ?_⟩)
    injection same with account client
    exact congrArg₂ LiveKey.mk account client
  have settles : settled ledger start =
      Ledger.apply .exact ledger (acceptedEvent command engine.nextExchangeOrderId engine.nextEventSequence) :=
    settled_sink ledger ({ engine } : Step).numbered _
  rw [settles]
  by_cases gtc : command.timeInForce = .gtc
  · have waits : awaiting (newOrderOf command engine) = [reservationFor (newOrderOf command engine)] := by
      unfold awaiting
      rw [if_pos (by exact gtc), Reservation.stillOpen, if_neg (by exact positive)]
    obtain ⟨shifts, holds, backed⟩ := openHold_opens (reservationFor (newOrderOf command engine)) inStep.backed positive
      fun other member => by
        obtain ⟨entry, there, rfl⟩ := List.mem_map.mp (inStep.holds.mem_iff.mp member)
        exact fresh entry there
    have opens : Ledger.apply .exact ledger (acceptedEvent command engine.nextExchangeOrderId engine.nextEventSequence) =
        ledger.openHold .exact command.accountId command.clientOrderId command.instrumentId command.side command.price
          command.quantity := if_neg (not_not.mpr gtc)
    rw [opens, if_pos gtc]
    refine ⟨⟨fresh, ?_, backed⟩, shifts⟩
    rw [waits]
    exact holds.trans (inStep.holds.cons _)
  · have ignores : Ledger.apply .exact ledger
        (acceptedEvent command engine.nextExchangeOrderId engine.nextEventSequence) = ledger := if_pos gtc
    have none : awaiting (newOrderOf command engine) = [] := if_neg gtc
    rw [ignores, if_neg gtc]
    refine ⟨⟨fresh, ?_, inStep.backed⟩, Shifts.of_accounts rfl⟩
    rw [none]
    exact inStep.holds

/-- The reservation of an order a replacement asks for. -/
def reservationAsked (command : ReplaceOrderCommand) (side : Side) : Reservation where
  accountId := command.accountId
  clientOrderId := command.newClientOrderId
  instrumentId := command.instrumentId
  side := side
  limitPrice := command.newPrice
  remaining := command.newQuantity

/-- The ledger when an order has been replaced: its hold is exchanged for one of the new size. -/
theorem InStep.replaced (inStep : InStep engine ledger) {command : ReplaceOrderCommand} {ref : OrderRef}
    {placed : Placed} (replaces : Replaces command engine ref placed) (fresh : FreshId engine (.replaceOrder command))
    {others : List Resting} (was : engine.resting.Perm (Resting.of command.instrumentId placed :: others))
    (exchangeOrderId eventSequence : Nat) :
    let after := Ledger.apply .exact ledger (replacedEvent command exchangeOrderId eventSequence)
    let old := reservationOf (Resting.of command.instrumentId placed)
    let new := reservationAsked command placed.order.side
    (∀ entry ∈ others, (reservationOf entry).key ≠ new.key) ∧
      Shifts command.accountId command.instrumentId (old.shift (-1) + new.shift 1) ledger after ∧
      after.reservations.Perm (new :: others.map reservationOf) ∧ Backed after := by
  intro after old new
  have key := replaces.located.key
  rw [replaces.same] at key
  have distinct := (was.map Resting.key).nodup_iff.mp (inStep.matched.distinct inStep.sound)
  rw [List.map_cons, List.nodup_cons] at distinct
  have apart : ∀ entry ∈ others, (reservationOf entry).key ≠ new.key := by
    intro entry member same
    injection same with account client
    have takes : entry.key = replacementKey command := congrArg₂ LiveKey.mk account client
    have original := fresh entry (was.mem_iff.mpr (List.mem_cons_of_mem _ member)) takes
    exact distinct.1 (List.mem_map.mpr ⟨entry, member, original.trans key.symm⟩)
  have held : ledger.reservations.Perm (old :: others.map reservationOf) := inStep.holds.trans (was.map reservationOf)
  injection key with account client
  let event : OrderReplaced := {
    eventSequence
    commandSequence := command.commandSequence
    accountId := command.accountId
    originalClientOrderId := command.originalClientOrderId
    newClientOrderId := command.newClientOrderId
    exchangeOrderId
    instrumentId := command.instrumentId
    newPrice := command.newPrice
    newQuantity := command.newQuantity }
  have exchanges := onOrderReplaced_exchanges event inStep.backed held (congrArg₂ HoldKey.mk account client)
    rfl replaces.quantity fun other member => by
      obtain ⟨entry, there, rfl⟩ := List.mem_map.mp member
      exact apart entry there
  exact ⟨apart, exchanges⟩

/-- The ledger when an order has been cancelled: its hold is released. -/
theorem InStep.cancelled (inStep : InStep engine ledger) {command : CancelOrderCommand} {ref : OrderRef}
    {placed : Placed} (cancels : Cancels command engine ref placed) {others : List Resting}
    (was : engine.resting.Perm (Resting.of command.instrumentId placed :: others)) (eventSequence : Nat) :
    let after := Ledger.apply .exact ledger (cancelledEvent command placed.order eventSequence)
    let old := reservationOf (Resting.of command.instrumentId placed)
    Shifts old.accountId old.instrumentId (old.shift (-1)) ledger after ∧
      after.reservations.Perm (others.map reservationOf) ∧ Backed after := by
  have key := cancels.located.key
  rw [cancels.same] at key
  injection key with account client
  have held : ledger.reservations.Perm (reservationOf (Resting.of command.instrumentId placed) ::
      others.map reservationOf) := inStep.holds.trans (was.map reservationOf)
  exact onOrderCancelled_closes _ inStep.backed held (congrArg₂ HoldKey.mk account client)

end Openings

/-- What a command can do to the ledger. -/
inductive Settles (engine : MatchingEngine) (ledger : Ledger) : ExchangeCommand → Ledger → Prop where
  | rejected (command : ExchangeCommand) : Settles engine ledger command ledger
  | accepted (command : NewOrderCommand) {opened after : Ledger} {left : ExchangeRestingOrder}
      (valid : engine.newOrderError command = none)
      (opens : Shifts command.accountId command.instrumentId
        (if command.timeInForce = .gtc then reserveShift command.side command.price command.quantity 1 else {})
        ledger opened)
      (trading : Trading (newOrderOf command engine) opened left after) :
      Settles engine ledger (.newOrder command) after
  | replaced (command : ReplaceOrderCommand) {ref : OrderRef} {placed : Placed} {opened after : Ledger}
      {left : ExchangeRestingOrder} (replaces : Replaces command engine ref placed)
      (exchanges : Shifts command.accountId command.instrumentId
        ((reservationOf (Resting.of command.instrumentId placed)).shift (-1) +
          (reservationAsked command placed.order.side).shift 1) ledger opened)
      (trading : Trading (replacementOf command placed.order engine) opened left after) :
      Settles engine ledger (.replaceOrder command) after
  | cancelled (command : CancelOrderCommand) {entry : Resting} {after : Ledger} (rested : entry ∈ engine.resting)
      (closes : Shifts entry.order.accountId entry.instrumentId ((reservationOf entry).shift (-1)) ledger after) :
      Settles engine ledger (.cancelOrder command) after

section Commands
variable {engine : MatchingEngine} {ledger : Ledger}

/-- What a command that is forwarded leaves behind. -/
structure Forwarded (engine : MatchingEngine) (ledger : Ledger) (command : ExchangeCommand) (after : Step) : Prop where
  holds : (settled ledger after).reservations.Perm (after.engine.resting.map reservationOf)
  backed : Backed (settled ledger after)
  settles : Settles engine ledger command (settled ledger after)

theorem InStep.rejects (inStep : InStep engine ledger) (command : ExchangeCommand) (rejection : Nat → OrderRejected) :
    Forwarded engine ledger command (({ engine } : Step).sink fun eventSequence =>
      .orderRejected (rejection eventSequence)) :=
  ⟨inStep.holds, inStep.backed, Settles.rejected command⟩

theorem processNewOrder_forwarded (inStep : InStep engine ledger) (command : NewOrderCommand) :
    Forwarded engine ledger (.newOrder command) (processNewOrder command { engine }) := by
  unfold processNewOrder
  cases valid : engine.newOrderError command with
  | some reason => exact inStep.rejects _ _
  | none =>
    obtain ⟨known, _⟩ := newOrderError_eq_none valid
    obtain ⟨flight, opens⟩ := inStep.accepted valid
    have start : ({ engine } : Step).numbered.engine.Sound := Sound.numbered inStep.sound
    obtain ⟨holds, backed, _, trading⟩ := matchThenRest_settles command.commandSequence (newOrderOf command engine)
      ledger (start.sink (acceptedEvent command engine.nextExchangeOrderId)) known flight
    exact ⟨holds, backed, Settles.accepted command valid opens trading⟩

theorem processCancel_forwarded (inStep : InStep engine ledger) (command : CancelOrderCommand) :
    Forwarded engine ledger (.cancelOrder command) (processCancel command { engine }) := by
  rcases processCancel_cases { engine } inStep.sound command with ⟨reason, rejected⟩ | ⟨ref, placed, cancels⟩
  · rw [rejected]
    exact inStep.rejects _ _
  · obtain ⟨change, events⟩ :=
      processCancel_removes { engine } inStep.sound.intact cancels.found cancels.same cancels.located
    obtain ⟨closes, holds, backed⟩ := inStep.cancelled cancels change.resting engine.nextEventSequence
    have settles : settled ledger (processCancel command { engine }) =
        Ledger.apply .exact ledger (cancelledEvent command placed.order engine.nextEventSequence) := by
      unfold settled
      rw [events]
      rfl
    refine ⟨?_, ?_, ?_⟩ <;> rw [settles]
    · exact holds
    · exact backed
    · exact Settles.cancelled command (change.resting.mem_iff.mpr List.mem_cons_self) closes

theorem replaceInPlace_forwarded (inStep : InStep engine ledger) {command : ReplaceOrderCommand} {ref : OrderRef}
    {placed : Placed} (replaces : Replaces command engine ref placed) (fresh : FreshId engine (.replaceOrder command))
    (keeps : preservesPriority command placed.order = true) :
    Forwarded engine ledger (.replaceOrder command) (replaceInPlace command ref placed.order { engine }) := by
  obtain ⟨change, _, events⟩ :=
    replaceInPlace_amends { engine } inStep.sound.intact replaces.same replaces.located
  obtain ⟨others, was, is⟩ := change.resting
  obtain ⟨_, exchanges, holds, backed⟩ := inStep.replaced replaces fresh was placed.order.exchangeOrderId
    engine.nextEventSequence
  have settles : settled ledger (replaceInPlace command ref placed.order { engine }) =
      Ledger.apply .exact ledger (replacedEvent command placed.order.exchangeOrderId engine.nextEventSequence) := by
    unfold settled
    rw [events]
    rfl
  have edited : reservationOf { Resting.of command.instrumentId placed with order := editFor command placed.order } =
      reservationAsked command placed.order.side := by
    have account := congrArg LiveKey.accountId replaces.located.key
    have price : command.newPrice = placed.order.price := by
      simp only [preservesPriority, decide_eq_true_eq] at keeps
      exact keeps.1
    unfold reservationAsked
    rw [price]
    exact congrArg (Reservation.mk · _ _ _ _ _) account
  refine ⟨?_, ?_, ?_⟩ <;> rw [settles]
  · rw [← edited] at holds
    exact holds.trans (is.map reservationOf).symm
  · exact backed
  · exact Settles.replaced command replaces exchanges Trading.none

theorem replaceByNew_forwarded (inStep : InStep engine ledger) {command : ReplaceOrderCommand} {ref : OrderRef}
    {placed : Placed} (replaces : Replaces command engine ref placed) (fresh : FreshId engine (.replaceOrder command)) :
    Forwarded engine ledger (.replaceOrder command) (replaceByNew command ref placed.order { engine }) := by
  have change := withdrawn_removes { engine } inStep.sound.intact replaces.same replaces.located
  obtain ⟨middle, known, _⟩ := replacing_sound { engine } inStep.sound replaces
  obtain ⟨apart, exchanges, holds, backed⟩ := inStep.replaced replaces fresh change.resting
    engine.nextExchangeOrderId engine.nextEventSequence
  have settles : settled ledger (replacing command ref placed.order { engine }) =
      Ledger.apply .exact ledger (replacedEvent command engine.nextExchangeOrderId engine.nextEventSequence) := rfl
  have gtc : placed.order.timeInForce = .gtc :=
    inStep.sound.gtc _ (change.resting.mem_iff.mpr List.mem_cons_self)
  have waits : awaiting (replacementOf command placed.order engine) = [reservationAsked command placed.order.side] := by
    unfold awaiting
    rw [if_pos (by exact gtc), Reservation.stillOpen, if_neg (by exact replaces.quantity)]
    rfl
  have flight : InFlight (replacementOf command placed.order engine)
      (replacing command ref placed.order { engine }).engine
      (settled ledger (replacing command ref placed.order { engine })) := by
    rw [settles]
    refine ⟨apart, ?_, backed⟩
    rw [waits]
    exact holds
  rw [replaceByNew_eq]
  obtain ⟨holds', backed', _, trading⟩ := matchThenRest_settles command.commandSequence
    (replacementOf command placed.order engine) ledger middle known flight
  rw [settles] at trading
  exact ⟨holds', backed', Settles.replaced command replaces exchanges trading⟩

theorem dispatch_forwarded (inStep : InStep engine ledger) (command : ExchangeCommand) (fresh : FreshId engine command) :
    Forwarded engine ledger command (MatchingEngine.process engine command) := by
  cases command with
  | newOrder command => exact processNewOrder_forwarded inStep command
  | cancelOrder command => exact processCancel_forwarded inStep command
  | replaceOrder command =>
    rcases processReplace_cases { engine } inStep.sound command with ⟨reason, rejected⟩ | ⟨ref, placed, replaces⟩
    · change Forwarded engine ledger _ (processReplace command { engine })
      rw [rejected]
      exact inStep.rejects _ _
    · change Forwarded engine ledger _ (processReplace command { engine })
      rw [processReplace_eq { engine } replaces]
      split_ifs with keeps
      · exact replaceInPlace_forwarded inStep replaces fresh keeps
      · exact replaceByNew_forwarded inStep replaces fresh

/-- A fresh id takes no live id. -/
theorem FreshId.takesNone (sound : engine.Sound) (matched : engine.Matched) {command : ExchangeCommand}
    (fresh : FreshId engine command) : engine.takesLiveId command = false := by
  cases command with
  | newOrder command => rfl
  | cancelOrder command => rfl
  | replaceOrder command =>
    rw [← Bool.not_eq_true]
    intro takes
    obtain ⟨ref, placed, replaces⟩ := takesLiveId_replaces sound takes
    obtain ⟨different, entry, member, key, _⟩ := (takesLiveId_iff sound matched replaces).mp takes
    have same := key.symm.trans (fresh entry member key)
    exact different (congrArg LiveKey.clientOrderId same)

end Commands

namespace RiskGatedEngine

/-- One command keeps ledger and engine in step. -/
theorem process_inStep {gated : RiskGatedEngine} (inStep : InStep gated.engine gated.ledger) (command : ExchangeCommand)
    (fresh : FreshId gated.engine command) :
    let after := (gated.process .exact command).gated
    InStep after.engine after.ledger := by
  rcases gated.process_cases .exact command with ⟨rejection, _, turned⟩ | ⟨_, forwarded⟩
  · rw [turned]
    exact ⟨inStep.sound.renumbered _ _ _ le_rfl, inStep.matched, inStep.holds, inStep.backed⟩
  · rw [forwarded]
    have after := dispatch_forwarded inStep command fresh
    have matched := (process_matched_iff inStep.sound inStep.matched command).mpr
      (fresh.takesNone inStep.sound inStep.matched)
    exact ⟨dispatch_sound { engine := gated.engine } inStep.sound command, matched, after.holds, after.backed⟩

/-- Every replacement of a run has a fresh id when its turn comes. -/
def FreshIds (gated : RiskGatedEngine) : List ExchangeCommand → Prop
  | [] => True
  | command :: rest => FreshId gated.engine command ∧ FreshIds (gated.process .exact command).gated rest

/-- The rule for a run: what a command with a fresh id preserves, the run preserves. -/
theorem run_rule (motive : RiskGatedEngine → Prop)
    (preserved : ∀ gated command, motive gated → InStep gated.engine gated.ledger → FreshId gated.engine command →
      motive (gated.process .exact command).gated)
    {gated : RiskGatedEngine} (start : motive gated) (inStep : InStep gated.engine gated.ledger)
    (commands : List ExchangeCommand) (fresh : gated.FreshIds commands) :
    motive (gated.run .exact commands) ∧ InStep (gated.run .exact commands).engine (gated.run .exact commands).ledger := by
  induction commands generalizing gated with
  | nil => exact ⟨start, inStep⟩
  | cons command rest ih =>
    obtain ⟨here, later⟩ := fresh
    exact ih (preserved gated command start inStep here) (process_inStep inStep command here) later

end RiskGatedEngine

section Seeding

/-- Depositing moves balances and nothing else. -/
theorem Deposit.into_backed {ledger : Ledger} (backed : Backed ledger) (deposit : Deposit) :
    Backed (deposit.into .exact ledger) := by
  cases deposit with
  | cash accountId amount => exact backed.same ((addCash_edits 0 amount).shifts ledger accountId) rfl rfl rfl
  | position accountId instrumentId amount =>
    exact backed.same ((addPosition_edits instrumentId amount).shifts ledger accountId) rfl rfl rfl

theorem seeded_backed (deposits : List Deposit) :
    (seeded .exact deposits).reservations = [] ∧ Backed (seeded .exact deposits) := by
  refine List.foldlRecOn (motive := fun ledger : Ledger => ledger.reservations = [] ∧ Backed ledger) deposits _
    ⟨rfl, ⟨fun _ => rfl, fun _ _ => rfl⟩⟩ fun ledger holds deposit _ => ⟨?_, Deposit.into_backed holds.2 deposit⟩
  cases deposit <;> exact holds.1

theorem start_inStep (limits : RiskLimits) (instruments : List InstrumentId) (deposits : List Deposit) :
    let gated := RiskGatedEngine.start .exact limits instruments deposits
    InStep gated.engine gated.ledger := by
  obtain ⟨empty, backed⟩ := seeded_backed deposits
  have sound := make_sound instruments
  have none : (RiskGatedEngine.start .exact limits instruments deposits).ledger.reservations.Perm
      ((MatchingEngine.make instruments).resting.map reservationOf) := by
    rw [make_resting]
    exact List.Perm.of_eq empty
  exact ⟨sound, sound.directoryAgrees_iff.mp (make_agrees instruments), none, backed⟩

end Seeding

/-- After every command the open holds are those of the resting orders, and what each account
has reserved is what its resting orders lock. -/
theorem holds_agree_with_resting_orders (limits : RiskLimits) (instruments : List InstrumentId)
    (deposits : List Deposit) (commands : List ExchangeCommand)
    (fresh : (RiskGatedEngine.start .exact limits instruments deposits).FreshIds commands) :
    let gated := (RiskGatedEngine.start .exact limits instruments deposits).run .exact commands
    HoldsAgree gated.engine gated.ledger :=
  (RiskGatedEngine.run_rule (fun _ => True) (fun _ _ _ _ _ => trivial) trivial
    (start_inStep limits instruments deposits) commands fresh).2.holdsAgree

/-- Two accounts, a partial fill and a replacement that moves the rest to a new price. -/
def traded : List ExchangeCommand := [
  .newOrder (limitOrder 1 .buy 100 5 .gtc),
  .newOrder { limitOrder 2 .sell 99 2 .ioc with accountId := 8 },
  .replaceOrder {
    commandSequence := 3
    accountId := 7
    originalClientOrderId := 1
    newClientOrderId := 4
    instrumentId := 3
    newPrice := 101
    newQuantity := 3 }]

theorem traded_fresh : (RiskGatedEngine.start .exact {} [3] [.cash 7 1000, .position 8 3 10]).FreshIds traded :=
  ⟨trivial, trivial, by decide +kernel, trivial⟩

theorem holds_agree_traded :
    let gated := (RiskGatedEngine.start .exact {} [3] [.cash 7 1000, .position 8 3 10]).run .exact traded
    HoldsAgree gated.engine gated.ledger :=
  holds_agree_with_resting_orders {} [3] [.cash 7 1000, .position 8 3 10] traded traded_fresh

example :
    let gated := (RiskGatedEngine.start .exact {} [3] [.cash 7 1000, .position 8 3 10]).run .exact traded
    gated.ledger.findHold 7 4 = some ⟨3, .buy, 101, 3⟩ ∧ gated.ledger.cashReserved 7 = 303 := by decide +kernel

end Mdh.Risk
