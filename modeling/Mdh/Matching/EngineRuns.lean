import Mdh.Matching.Arrival
import Mdh.Matching.BookRefinement

/-! Whole runs of the engine: every command keeps the invariant, so every reachable
state has it, and no book is ever left crossed. -/

namespace Mdh.Matching.MatchingEngine
open Mdh.Core Mdh.Lib

section Commands
variable (step : Step)

/-- What a cancel that gets through the checks finds. -/
structure Cancels (command : CancelOrderCommand) (engine : MatchingEngine) (ref : OrderRef) (placed : Placed) :
    Prop where
  found : engine.orders.lookup ⟨command.accountId, command.clientOrderId⟩ = some ref
  same : ref.instrumentId = command.instrumentId
  located : engine.Locates ⟨command.accountId, command.clientOrderId⟩ ref placed

theorem processCancel_cases (sound : step.engine.Sound) (command : CancelOrderCommand) :
    (∃ reason, processCancel command step = rejectCancelOrder command reason step) ∨
      ∃ ref placed, Cancels command step.engine ref placed := by
  unfold processCancel
  split_ifs with known
  · cases found : step.engine.orders.lookup ⟨command.accountId, command.clientOrderId⟩ with
    | none => exact Or.inl ⟨_, rfl⟩
    | some ref =>
      by_cases same : ref.instrumentId = command.instrumentId
      · obtain ⟨placed, located⟩ := sound.locate found
        exact Or.inr ⟨ref, placed, found, same, located⟩
      · exact Or.inl ⟨_, if_pos same⟩
  · exact Or.inl ⟨_, rfl⟩

/-- What a replacement that gets through the checks finds. -/
structure Replaces (command : ReplaceOrderCommand) (engine : MatchingEngine) (ref : OrderRef) (placed : Placed) :
    Prop where
  price : 0 < command.newPrice
  quantity : command.newQuantity ≠ 0
  found : engine.orders.lookup (originalKey command) = some ref
  same : ref.instrumentId = command.instrumentId
  located : engine.Locates (originalKey command) ref placed

theorem Replaces.known {command : ReplaceOrderCommand} {engine : MatchingEngine} {ref : OrderRef} {placed : Placed}
    (replaces : Replaces command engine ref placed) : engine.knowsInstrument command.instrumentId = true :=
  replaces.same ▸ replaces.located.known

theorem processReplace_eq {command : ReplaceOrderCommand} {ref : OrderRef} {placed : Placed}
    (replaces : Replaces command step.engine ref placed) :
    processReplace command step =
      if preservesPriority command placed.order then replaceInPlace command ref placed.order step
      else replaceByNew command ref placed.order step := by
  have found : step.engine.orders.lookup ⟨command.accountId, command.originalClientOrderId⟩ = some ref :=
    replaces.found
  have known := replaces.known
  have valid : ¬ (command.newPrice ≤ 0 ∨ command.newQuantity = 0) := by
    rw [not_or, not_le]
    exact ⟨replaces.price, replaces.quantity⟩
  unfold processReplace
  rw [if_neg (by simp [known]), if_neg valid, found]
  simp only [replaces.same, ne_eq, not_true_eq_false, if_false]
  rw [← replaces.same, replaces.located.order]

theorem processReplace_cases (sound : step.engine.Sound) (command : ReplaceOrderCommand) :
    (∃ reason, processReplace command step = rejectReplaceOrder command reason step) ∨
      ∃ ref placed, Replaces command step.engine ref placed := by
  unfold processReplace
  split_ifs with known malformed
  · exact Or.inl ⟨_, rfl⟩
  · cases found : step.engine.orders.lookup ⟨command.accountId, command.originalClientOrderId⟩ with
    | none => exact Or.inl ⟨_, rfl⟩
    | some ref =>
      by_cases same : ref.instrumentId = command.instrumentId
      · rw [not_or, not_le] at malformed
        obtain ⟨placed, located⟩ := sound.locate found
        exact Or.inr ⟨ref, placed, malformed.1, malformed.2, found, same, located⟩
      · exact Or.inl ⟨_, if_pos same⟩
  · exact Or.inl ⟨_, rfl⟩

theorem newOrderError_eq_none {engine : MatchingEngine} {command : NewOrderCommand}
    (valid : engine.newOrderError command = none) :
    engine.knowsInstrument command.instrumentId = true ∧ 0 < command.price ∧ command.quantity ≠ 0 ∧
      (⟨command.accountId, command.clientOrderId⟩ : LiveKey) ∉ engine.orders := by
  unfold newOrderError at valid
  split_ifs at valid with known price quantity duplicate
  exact ⟨known, not_le.mp price, quantity, duplicate⟩

theorem processNewOrder_sound (sound : step.engine.Sound) (command : NewOrderCommand) :
    (processNewOrder command step).engine.Sound := by
  unfold processNewOrder
  cases valid : step.engine.newOrderError command with
  | some reason => exact sound.sink _
  | none =>
    obtain ⟨known, price, _⟩ := newOrderError_eq_none valid
    simp only [acceptNewOrder_eq]
    exact matchThenRest_sound _ (sound.numbered.sink _) known price sound.unissued

theorem processCancel_sound (sound : step.engine.Sound) (command : CancelOrderCommand) :
    (processCancel command step).engine.Sound := by
  rcases processCancel_cases step sound command with ⟨reason, rejected⟩ | ⟨ref, placed, found, same, located⟩
  · rw [rejected]
    exact sound.sink _
  · exact sound.removes (processCancel_removes step sound.intact found same located).1

theorem replaceInPlace_sound (sound : step.engine.Sound) {command : ReplaceOrderCommand} {ref : OrderRef}
    {placed : Placed} (replaces : Replaces command step.engine ref placed) :
    (replaceInPlace command ref placed.order step).engine.Sound := by
  obtain ⟨change, orders, _⟩ := replaceInPlace_amends step sound.intact replaces.same replaces.located
  refine sound.amends change (editFor_faithful command) (Nat.pos_of_ne_zero replaces.quantity) ?_
  have key := replaces.located.key
  rw [replaces.same] at key
  have newKey : ({ Resting.of command.instrumentId placed with
      order := editFor command placed.order } : Resting).key = replacementKey command := by
    have account := congrArg LiveKey.accountId key
    exact congrArg (LiveKey.mk · command.newClientOrderId) account
  exact sound.located_rekey change replaces.same.symm replaces.located.slot (by rw [orders, key]; exact newKey ▸ rfl)

theorem replacing_sound (sound : step.engine.Sound) {command : ReplaceOrderCommand} {ref : OrderRef}
    {placed : Placed} (replaces : Replaces command step.engine ref placed) :
    let middle := replacing command ref placed.order step
    middle.engine.Sound ∧ middle.engine.knowsInstrument command.instrumentId = true ∧
      middle.engine.Unissued step.engine.nextExchangeOrderId := by
  have change := withdrawn_removes step sound.intact replaces.same replaces.located
  have left := sound.removes change
  refine ⟨((left.numbered).sink _).sink _, ?_, ?_⟩
  · exact (change.knows _).trans replaces.known
  · have unissued := left.unissued
    rw [change.nextExchangeOrderId] at unissued
    exact unissued

theorem replaceByNew_sound (sound : step.engine.Sound) {command : ReplaceOrderCommand} {ref : OrderRef}
    {placed : Placed} (replaces : Replaces command step.engine ref placed) :
    (replaceByNew command ref placed.order step).engine.Sound := by
  obtain ⟨middle, known, unissued⟩ := replacing_sound step sound replaces
  rw [replaceByNew_eq]
  exact matchThenRest_sound _ middle known replaces.price unissued

theorem processReplace_sound (sound : step.engine.Sound) (command : ReplaceOrderCommand) :
    (processReplace command step).engine.Sound := by
  rcases processReplace_cases step sound command with ⟨reason, rejected⟩ | ⟨ref, placed, replaces⟩
  · rw [rejected]
    exact sound.sink _
  · rw [processReplace_eq step replaces]
    split_ifs
    · exact replaceInPlace_sound step sound replaces
    · exact replaceByNew_sound step sound replaces

theorem dispatch_sound (sound : step.engine.Sound) (command : ExchangeCommand) :
    (dispatch command step).engine.Sound := by
  cases command with
  | newOrder command => exact processNewOrder_sound step sound command
  | cancelOrder command => exact processCancel_sound step sound command
  | replaceOrder command => exact processReplace_sound step sound command

end Commands

section Registration
variable {engine : MatchingEngine}

/-- A new instrument has an empty book and changes no other. -/
theorem registerInstrument_resting (intact : engine.Intact) (id : InstrumentId) :
    (engine.registerInstrument id).1.Intact ∧
      (engine.registerInstrument id).1.resting.Perm engine.resting := by
  by_cases fresh : id > kMaxInstrumentId ∨ engine.knowsInstrument id = true
  · unfold registerInstrument
    rw [if_pos fresh]
    exact ⟨intact, List.Perm.refl _⟩
  · have registry := intact.registry.registerInstrument id
    obtain ⟨_, _, _, byId, _⟩ := registerInstrument_spec fresh
    have books := fun other => intact.registry.bookFor_registerInstrument fresh other
    obtain ⟨wf, empty⟩ := MatchingBook.make_spec registry.band
    refine ⟨⟨registry, fun other known => ?_⟩, ?_⟩
    · rcases ((books other).1).mp known with rfl | old
      · rw [(books other).2.1]
        exact wf
      · rw [(books other).2.2 old]
        exact intact.books other old
    · have listed : (engine.registerInstrument id).1.instruments.Perm (id :: engine.instruments) := by
        unfold instruments
        rw [byId]
        exact (insertById_perm ..).map Prod.fst
      unfold resting
      refine (listed.flatMap_right _).trans ?_
      have here : (engine.registerInstrument id).1.restingOn id = [] := by
        unfold restingOn
        rw [(books id).2.1, empty]
        rfl
      rw [List.flatMap_cons, here, List.nil_append]
      refine List.Perm.of_eq (List.flatMap_congr fun other member => ?_)
      unfold restingOn
      rw [(books other).2.2 ((intact.registry.mem_instruments other).mp member)]

theorem Sound.registerInstrument (sound : engine.Sound) (id : InstrumentId) :
    (engine.registerInstrument id).1.Sound := by
  obtain ⟨intact, same⟩ := registerInstrument_resting sound.intact id
  by_cases fresh : id > kMaxInstrumentId ∨ engine.knowsInstrument id = true
  · unfold MatchingEngine.registerInstrument
    rw [if_pos fresh]
    exact sound
  · obtain ⟨_, _, _, _, orders, restingOrders, nextId, _⟩ := registerInstrument_spec fresh
    have back := fun entry => (same.mem_iff (a := entry)).mp
    refine ⟨intact, fun key ref found => ?_, fun entry member => sound.gtc entry (back entry member),
      fun entry member => sound.positive entry (back entry member), fun entry member => ?_,
      (same.map _).nodup_iff.mpr sound.distinct, ?_,
      fun bid one ask two => sound.uncrossed bid (back bid one) ask (back ask two)⟩
    · rw [orders] at found
      obtain ⟨entry, member, located⟩ := sound.located key ref found
      exact ⟨entry, same.mem_iff.mpr member, located⟩
    · rw [nextId]
      exact sound.issued entry (back entry member)
    · rw [restingOrders, sound.counted, same.length_eq]

/-- An engine with nothing registered. -/
theorem Registry.sound_of_empty (registry : engine.Registry) (none : engine.byId = []) (orders : engine.orders = ∅)
    (restingOrders : engine.restingOrders = 0) : engine.Sound := by
  have unlisted : ∀ id, engine.knowsInstrument id = true → False := fun id known => by
    have member := (registry.mem_instruments id).mpr known
    simp [instruments, none] at member
  have vacant : engine.resting = [] := by simp [resting, instruments, none]
  refine ⟨⟨registry, fun id known => (unlisted id known).elim⟩, fun key ref found => ?_, ?_, ?_, ?_, ?_, ?_, ?_⟩
  · rw [orders] at found
    cases found
  all_goals simp [vacant, restingOrders]

/-- The rule for `make`: what holds of every engine with nothing registered and is kept by
registering an instrument. -/
theorem make_rule (motive : MatchingEngine → Prop)
    (start : ∀ size band, band ≤ 64 ^ 3 →
      motive ({ slotOfId := List.replicate size none, bandTicks := band } : MatchingEngine))
    (registers : ∀ engine id, motive engine → motive (engine.registerInstrument id).1)
    (instruments : List InstrumentId) : motive (make instruments) := by
  have registered : ∀ (ids : List InstrumentId) (engine : MatchingEngine), motive engine →
      motive (ids.foldl (fun engine id => (engine.registerInstrument id).1) engine) := by
    intro ids
    induction ids with
    | nil => exact fun _ holds => holds
    | cons id ids ih => exact fun engine holds => ih _ (registers engine id holds)
  refine registered instruments _ ?_
  split_ifs
  · exact start 0 MatchingBook.kMaxBandTicks (by decide)
  · exact start _ _ (bandFor_fits _ _)

theorem make_sound (instruments : List InstrumentId) : (make instruments).Sound :=
  make_rule Sound (fun size band fits => (sized_registry size band fits).sound_of_empty rfl rfl rfl)
    (fun _ id sound => sound.registerInstrument id) instruments

/-- An engine no command has reached yet. -/
structure Fresh (engine : MatchingEngine) : Prop where
  orders : engine.orders = ∅
  restingOrders : engine.restingOrders = 0
  nextExchangeOrderId : engine.nextExchangeOrderId = 1
  nextEventSequence : engine.nextEventSequence = 1

theorem make_fresh (instruments : List InstrumentId) : (make instruments).Fresh := by
  refine make_rule Fresh (fun _ _ _ => ⟨rfl, rfl, rfl, rfl⟩) (fun engine id fresh => ?_) instruments
  by_cases refused : id > kMaxInstrumentId ∨ engine.knowsInstrument id = true
  · unfold registerInstrument
    rw [if_pos refused]
    exact fresh
  · obtain ⟨_, _, _, _, orders, restingOrders, exchangeOrderId, eventSequence⟩ := registerInstrument_spec refused
    exact ⟨orders.trans fresh.orders, restingOrders.trans fresh.restingOrders,
      exchangeOrderId.trans fresh.nextExchangeOrderId, eventSequence.trans fresh.nextEventSequence⟩

theorem make_resting (instruments : List InstrumentId) : (make instruments).resting = [] := by
  have counted := (make_sound instruments).counted
  rw [(make_fresh instruments).restingOrders] at counted
  exact List.length_eq_zero_iff.mp counted.symm

end Registration

/-- The state after a sequence of commands. -/
def run (engine : MatchingEngine) (commands : List ExchangeCommand) : MatchingEngine :=
  commands.foldl (fun engine command => (process engine command).engine) engine

/-- Everything a sequence of commands emits. -/
def runEvents (engine : MatchingEngine) : List ExchangeCommand → List ExchangeEvent
  | [] => []
  | command :: rest => (process engine command).events ++ runEvents (process engine command).engine rest

/-- Every state an engine can be in between commands. -/
inductive Reachable : MatchingEngine → Prop where
  | make (instruments : List InstrumentId) : Reachable (make instruments)
  | process {engine : MatchingEngine} (command : ExchangeCommand) :
      Reachable engine → Reachable (process engine command).engine
  | registerInstrument {engine : MatchingEngine} (id : InstrumentId) :
      Reachable engine → Reachable (engine.registerInstrument id).1

theorem Reachable.sound {engine : MatchingEngine} (reachable : engine.Reachable) : engine.Sound := by
  induction reachable with
  | make instruments => exact make_sound instruments
  | process command _ sound => exact dispatch_sound { engine := _ } sound command
  | registerInstrument id _ sound => exact sound.registerInstrument id

theorem Reachable.run {engine : MatchingEngine} (reachable : engine.Reachable) (commands : List ExchangeCommand) :
    (engine.run commands).Reachable := by
  induction commands generalizing engine with
  | nil => exact reachable
  | cons command rest ih => exact ih (reachable.process command)

end Mdh.Matching.MatchingEngine
