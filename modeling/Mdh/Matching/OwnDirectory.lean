import Mdh.Matching.OrderViews

/-! The order directory, as far as one account is concerned. An account that takes no id of an order
it has at rest finds all its orders in the directory, whatever ids the others take. -/

namespace Mdh.Matching.MatchingEngine
open Mdh.Core Mdh.Lib

/-- The resting orders of the account are in the directory, under keys of their own. -/
structure Indexed (account : AccountId) (engine : MatchingEngine) : Prop where
  listed : ∀ entry ∈ engine.resting, entry.key.accountId = account → entry.key ∈ engine.orders
  distinct : ((engine.resting.map Resting.key).filter fun key => key.accountId = account).Nodup

section Changes
variable {account : AccountId} {before after engine : MatchingEngine} {entry : Resting}

/-- What rests besides an order of the account has another key. -/
theorem Indexed.apart (indexed : Indexed account engine) {others : List Resting}
    (split : engine.resting.Perm (entry :: others)) {other : Resting} (member : other ∈ others)
    (own : other.key.accountId = account) : other.key ≠ entry.key := by
  intro same
  have keys := ((split.map Resting.key).filter fun key => key.accountId = account).nodup_iff.mp indexed.distinct
  rw [List.map_cons, List.filter_cons, if_pos (decide_eq_true (same ▸ own))] at keys
  obtain ⟨unlisted, _⟩ := List.nodup_cons.mp keys
  apply unlisted
  rw [← same]
  exact List.mem_filter.mpr ⟨List.mem_map_of_mem member, decide_eq_true own⟩

/-- An order that leaves takes only its own entry with it. -/
theorem Removes.indexed (change : Removes entry before after) (indexed : Indexed account before) : Indexed account after := by
  constructor
  · intro other member own
    rw [change.orders, AList.mem_erase]
    exact ⟨indexed.apart change.resting member own,
      indexed.listed other (change.resting.mem_iff.mpr (List.mem_cons_of_mem _ member)) own⟩
  · have keys := ((change.resting.map Resting.key).filter fun key => key.accountId = account).nodup_iff.mp indexed.distinct
    exact keys.sublist ((List.sublist_cons_self _ _).filter _)

theorem Removes.rests_of_after (change : Removes entry before after) {key : LiveKey} (rests : after.Rests key) :
    before.Rests key := by
  obtain ⟨other, member, same⟩ := rests
  exact ⟨other, change.resting.mem_iff.mpr (List.mem_cons_of_mem _ member), same⟩

/-- An order that is edited under its key keeps its entry. -/
theorem Amends.indexed {edit : BookOrder → BookOrder} (change : Amends entry edit before after)
    (sameKey : ({ entry with order := edit entry.order } : Resting).key = entry.key) (orders : after.orders = before.orders)
    (indexed : Indexed account before) : Indexed account after := by
  obtain ⟨rest, was, is⟩ := change.resting
  have keys : (after.resting.map Resting.key).Perm (before.resting.map Resting.key) := by
    calc after.resting.map Resting.key
      _ |>.Perm (({ entry with order := edit entry.order } : Resting).key :: rest.map Resting.key) := is.map _
      _ |>.Perm (entry.key :: rest.map Resting.key) := by rw [sameKey]
      _ |>.Perm (before.resting.map Resting.key) := (was.map Resting.key).symm
  constructor
  · intro other member own
    obtain ⟨old, among, same⟩ := List.mem_map.mp (keys.mem_iff.mp (List.mem_map_of_mem member))
    rw [orders, ← same]
    exact indexed.listed old among (same ▸ own)
  · exact (keys.filter _).nodup_iff.mpr indexed.distinct

/-- An order that comes to rest gets an entry, which is nobody else's. -/
theorem Adds.indexed {ref : OrderRef} (change : Adds entry ref before after)
    (fresh : entry.key.accountId = account → ¬ before.Rests entry.key) (indexed : Indexed account before) :
    Indexed account after := by
  constructor
  · intro other member own
    rw [change.orders, AList.mem_insert]
    rcases List.mem_cons.mp (change.resting.mem_iff.mp member) with rfl | there
    · exact Or.inl rfl
    · exact Or.inr (indexed.listed other there own)
  · refine ((change.resting.map Resting.key).filter fun key => key.accountId = account).nodup_iff.mpr ?_
    rw [List.map_cons, List.filter_cons]
    split_ifs with own
    · refine List.nodup_cons.mpr ⟨fun among => ?_, indexed.distinct⟩
      obtain ⟨other, member, same⟩ := List.mem_map.mp (List.mem_filter.mp among).1
      exact fresh (of_decide_eq_true own) ⟨other, member, same⟩
    · exact indexed.distinct

end Changes

section Arrivals
variable (commandSequence : Nat) {account : AccountId} {incoming : ExchangeRestingOrder} {step : Step}

/-- A fill keeps the account's entries, and brings nothing to rest. -/
theorem fillFront_indexed (sound : step.engine.Sound)
    (known : step.engine.knowsInstrument incoming.instrumentId = true) {first : Placed} {rest : List Placed}
    (contents : (step.engine.bookFor incoming.instrumentId).queues incoming.side.contra = first :: rest)
    (indexed : Indexed account step.engine) :
    Indexed account (fillFront commandSequence incoming first.order step).2.engine ∧
      ∀ key, (fillFront commandSequence incoming first.order step).2.engine.Rests key → step.engine.Rests key := by
  rcases le_or_gt first.order.remainingQuantity incoming.remainingQuantity with full | more
  · have change := fillFront_removes commandSequence sound.intact known contents full
    exact ⟨change.indexed indexed, fun key => change.rests_of_after⟩
  · obtain ⟨change, orders⟩ := fillFront_amends commandSequence sound.intact known contents more
    refine ⟨change.indexed rfl orders indexed, ?_⟩
    rintro key ⟨entry, member, same⟩
    obtain ⟨others, was, is⟩ := change.resting
    rcases List.mem_cons.mp (is.mem_iff.mp member) with rfl | there
    · exact ⟨_, was.mem_iff.mpr List.mem_cons_self, same⟩
    · exact ⟨entry, was.mem_iff.mpr (List.mem_cons_of_mem _ there), same⟩

/-- An order that arrives under a key nothing rests under keeps the account's entries. -/
theorem matchThenRest_indexed (sound : step.engine.Sound)
    (known : step.engine.knowsInstrument incoming.instrumentId = true) (indexed : Indexed account step.engine)
    (fresh : incoming.accountId = account → ¬ step.engine.Rests (incomingKey incoming)) :
    Indexed account (matchThenRest commandSequence incoming step).engine := by
  obtain ⟨⟨matched, fewer⟩, sound'⟩ := matchAndRest_rule commandSequence
    (fun _ middle => Indexed account middle.engine ∧ ∀ key, middle.engine.Rests key → step.engine.Rests key)
    (fun _ middle _ _ holds sound known contents _ _ => by
      obtain ⟨indexed, fewer⟩ := fillFront_indexed commandSequence sound known contents holds.1
      exact ⟨indexed, fun key rests => holds.2 key (fewer key rests)⟩)
    ⟨indexed, fun _ => id⟩ sound known
  have done := matchAndRest_matches commandSequence sound known
  by_cases stays : (matchAndRest commandSequence incoming step).1.timeInForce ≠ .gtc ∨
      (matchAndRest commandSequence incoming step).1.remainingQuantity = 0
  · rw [matchThenRest_stays commandSequence stays]
    exact matched
  · obtain ⟨gtc, left⟩ := not_or.mp stays
    have entered : incoming.timeInForce = .gtc := by
      have same := not_not.mp gtc
      rw [done.final] at same
      exact same
    obtain ⟨change, _⟩ := matchThenRest_adds commandSequence sound known entered left
    have key : (rested (matchAndRest commandSequence incoming step).1
        (matchAndRest commandSequence incoming step).2.engine).key = incomingKey incoming := by
      show LiveKey.mk (matchAndRest commandSequence incoming step).1.accountId
        (matchAndRest commandSequence incoming step).1.clientOrderId = _
      rw [done.final]
      rfl
    apply change.indexed _ matched
    rw [key]
    exact fun own rests => fresh own (fewer _ rests)

end Arrivals

section Commands
variable {account : AccountId} {engine : MatchingEngine}

/-- A replacement by the account takes no id of another order that it has at rest. -/
def LeavesLiveIds (account : AccountId) (engine : MatchingEngine) : ExchangeCommand → Prop
  | .newOrder _ => True
  | .cancelOrder _ => True
  | .replaceOrder command => command.accountId = account → command.newClientOrderId ≠ command.originalClientOrderId →
      ¬ engine.Rests (replacementKey command)

theorem processNewOrder_indexed (sound : engine.Sound) (indexed : Indexed account engine) (command : NewOrderCommand) :
    Indexed account (processNewOrder command { engine }).engine := by
  unfold processNewOrder
  cases valid : engine.newOrderError command with
  | some reason => exact ⟨indexed.listed, indexed.distinct⟩
  | none =>
    obtain ⟨known, _, _, fresh⟩ := newOrderError_eq_none valid
    have start : ({ engine } : Step).numbered.engine.Sound := Sound.numbered sound
    simp only [acceptNewOrder_eq]
    have ready := start.sink (acceptedEvent command engine.nextExchangeOrderId)
    have entered : Indexed account (({ engine } : Step).numbered.sink (acceptedEvent command engine.nextExchangeOrderId)).engine :=
      ⟨indexed.listed, indexed.distinct⟩
    refine @matchThenRest_indexed command.commandSequence account (newOrderOf command engine) _ ready known entered ?_
    rintro own ⟨entry, member, same⟩
    have key : entry.key = ⟨command.accountId, command.clientOrderId⟩ := same
    have listed := indexed.listed entry member (key ▸ own)
    rw [key] at listed
    exact fresh listed

theorem replaceInPlace_indexed (sound : engine.Sound) (indexed : Indexed account engine) {command : ReplaceOrderCommand}
    (leaves : LeavesLiveIds account engine (.replaceOrder command)) {ref : OrderRef} {placed : Placed}
    (replaces : Replaces command engine ref placed) :
    Indexed account (replaceInPlace command ref placed.order { engine }).engine := by
  obtain ⟨change, orders, _⟩ := replaceInPlace_amends { engine } sound.intact replaces.same replaces.located
  obtain ⟨rest, was, is⟩ := change.resting
  have key := replaces.located.key
  rw [replaces.same] at key
  let edited : Resting := { Resting.of command.instrumentId placed with order := editFor command placed.order }
  have newKey : edited.key = replacementKey command :=
    congrArg (LiveKey.mk · command.newClientOrderId) (congrArg LiveKey.accountId key)
  -- Of the others none is under the new key.
  have free {other : Resting} (member : other ∈ rest) (own : other.key.accountId = account) :
      other.key ≠ replacementKey command := by
    intro taken
    have rests : engine.Rests (replacementKey command) := ⟨other, was.mem_iff.mpr (List.mem_cons_of_mem _ member), taken⟩
    refine leaves ((congrArg LiveKey.accountId taken).symm.trans own) (fun same => ?_) rests
    apply indexed.apart was member own
    rw [taken, key]
    exact congrArg (LiveKey.mk command.accountId) same
  constructor
  · intro other member own
    rw [orders, AList.mem_insert, AList.mem_erase]
    rcases List.mem_cons.mp (is.mem_iff.mp member) with rfl | there
    · exact Or.inl newKey
    · refine Or.inr ⟨?_, indexed.listed other (was.mem_iff.mpr (List.mem_cons_of_mem _ there)) own⟩
      rw [← key]
      exact indexed.apart was there own
  · refine ((is.map Resting.key).filter fun key => key.accountId = account).nodup_iff.mpr ?_
    have others := ((was.map Resting.key).filter fun key => key.accountId = account).nodup_iff.mp indexed.distinct
    have kept : ((rest.map Resting.key).filter fun key => key.accountId = account).Nodup :=
      others.sublist ((List.sublist_cons_self _ _).filter _)
    show ((edited.key :: rest.map Resting.key).filter fun key => key.accountId = account).Nodup
    rw [newKey, List.filter_cons]
    split_ifs with own
    · refine List.nodup_cons.mpr ⟨fun among => ?_, kept⟩
      obtain ⟨here, ours⟩ := List.mem_filter.mp among
      obtain ⟨other, member, same⟩ := List.mem_map.mp here
      exact free member (same ▸ of_decide_eq_true ours) same
    · exact kept

theorem replaceByNew_indexed (sound : engine.Sound) (indexed : Indexed account engine) {command : ReplaceOrderCommand}
    (leaves : LeavesLiveIds account engine (.replaceOrder command)) {ref : OrderRef} {placed : Placed}
    (replaces : Replaces command engine ref placed) :
    Indexed account (replaceByNew command ref placed.order { engine }).engine := by
  have change := withdrawn_removes { engine } sound.intact replaces.same replaces.located
  obtain ⟨middle, known, _⟩ := replacing_sound { engine } sound replaces
  have key := replaces.located.key
  rw [replaces.same] at key
  obtain ⟨listed, distinct⟩ := change.indexed indexed
  rw [replaceByNew_eq]
  refine @matchThenRest_indexed command.commandSequence account (replacementOf command placed.order engine) _ middle known
    ⟨listed, distinct⟩ ?_
  rintro own ⟨entry, member, taken⟩
  have ours : command.accountId = account := own
  have named : entry.key = replacementKey command := taken
  refine leaves ours (fun same => ?_) ⟨entry, change.resting.mem_iff.mpr (List.mem_cons_of_mem _ member), named⟩
  apply indexed.apart change.resting member (named ▸ ours)
  rw [named, key]
  exact congrArg (LiveKey.mk command.accountId) same

/-- A command keeps the account's entries, unless by it the account takes the id of an order it has at rest. -/
theorem process_indexed (sound : engine.Sound) (indexed : Indexed account engine) {command : ExchangeCommand}
    (leaves : LeavesLiveIds account engine command) : Indexed account (engine.process command).engine := by
  cases command with
  | newOrder command => exact processNewOrder_indexed sound indexed command
  | cancelOrder command =>
    show Indexed account (processCancel command { engine }).engine
    rcases processCancel_cases { engine } sound command with ⟨reason, rejected⟩ | ⟨ref, placed, found, same, located⟩
    · rw [rejected]
      exact ⟨indexed.listed, indexed.distinct⟩
    · exact (processCancel_removes { engine } sound.intact found same located).1.indexed indexed
  | replaceOrder command =>
    show Indexed account (processReplace command { engine }).engine
    rcases processReplace_cases { engine } sound command with ⟨reason, rejected⟩ | ⟨ref, placed, replaces⟩
    · rw [rejected]
      exact ⟨indexed.listed, indexed.distinct⟩
    · rw [processReplace_eq { engine } replaces]
      split_ifs
      · exact replaceInPlace_indexed sound indexed leaves replaces
      · exact replaceByNew_indexed sound indexed leaves replaces

/-- An entry of the account's locates the very order that rests under its key. -/
theorem Indexed.locates (indexed : Indexed account engine) (sound : engine.Sound) {entry : Resting}
    (rests : entry ∈ engine.resting) (own : entry.key.accountId = account) :
    ∃ ref placed, engine.orders.lookup entry.key = some ref ∧ engine.Locates entry.key ref placed ∧
      ref.instrumentId = entry.instrumentId ∧ Resting.of ref.instrumentId placed = entry := by
  obtain ⟨ref, found⟩ := Option.isSome_iff_exists.mp (AList.lookup_isSome.mpr (indexed.listed entry rests own))
  obtain ⟨placed, located⟩ := sound.locate found
  have same : Resting.of ref.instrumentId placed = entry := by
    by_contra different
    have split := List.perm_cons_erase (located.resting sound.intact)
    have other : entry ∈ engine.resting.erase (Resting.of ref.instrumentId placed) :=
      (List.mem_erase_of_ne (Ne.symm different)).mpr rests
    exact indexed.apart split other own located.key.symm
  exact ⟨ref, placed, found, located, congrArg Resting.instrumentId same, same⟩

end Commands

section Runs
variable {account : AccountId}

/-- By no command of the run the account takes an id of an order that it has at rest then. -/
def LeavesLiveIdsThroughout (account : AccountId) (engine : MatchingEngine) : List ExchangeCommand → Prop
  | [] => True
  | command :: rest => LeavesLiveIds account engine command ∧
      LeavesLiveIdsThroughout account (process engine command).engine rest

theorem make_indexed (instruments : List InstrumentId) : Indexed account (make instruments) := by
  constructor
  · rw [make_resting]
    exact nofun
  · rw [make_resting]
    exact List.nodup_nil

theorem run_indexed {engine : MatchingEngine} (sound : engine.Sound) (indexed : Indexed account engine)
    {commands : List ExchangeCommand} (leaves : LeavesLiveIdsThroughout account engine commands) :
    (engine.run commands).Sound ∧ Indexed account (engine.run commands) := by
  induction commands generalizing engine with
  | nil => exact ⟨sound, indexed⟩
  | cons command rest ih => exact ih (dispatch_sound { engine } sound command) (process_indexed sound indexed leaves.1) leaves.2

/-- An account that takes no id of an order it has at rest can cancel every order it has at rest, also
where others have lost the entries of theirs. -/
theorem own_orders_cancel (instruments : List InstrumentId) {commands : List ExchangeCommand}
    (leaves : LeavesLiveIdsThroughout account (make instruments) commands) {entry : Resting}
    (rests : entry ∈ ((make instruments).run commands).resting) (own : entry.key.accountId = account)
    (commandSequence : Nat) :
    let engine := (make instruments).run commands
    let cancel : CancelOrderCommand := {
      commandSequence
      accountId := account
      clientOrderId := entry.key.clientOrderId
      instrumentId := entry.instrumentId }
    let after := engine.process (.cancelOrder cancel)
    engine.resting.Perm (entry :: after.engine.resting) ∧ after.events =
      [cancelledEvent cancel entry.order engine.nextEventSequence,
        removedEvent entry.instrumentId entry.order (engine.nextEventSequence + 1)] := by
  intro engine cancel after
  obtain ⟨sound, indexed⟩ := run_indexed (make_sound instruments) (make_indexed instruments) leaves
  obtain ⟨ref, placed, found, located, instrument, same⟩ := indexed.locates sound rests own
  have key : entry.key = ⟨cancel.accountId, cancel.clientOrderId⟩ := congrArg (LiveKey.mk · entry.key.clientOrderId) own
  rw [key] at found located
  obtain ⟨change, events⟩ := processCancel_removes { engine } sound.intact found instrument located
  have removed : Resting.of cancel.instrumentId placed = entry := by
    rw [← same, instrument]
  have order : placed.order = entry.order := congrArg Resting.order removed
  rw [removed] at change
  rw [order] at events
  exact ⟨change.resting, events⟩

/-- Two orders of one account share an entry, and another account still cancels its own. -/
theorem own_orders_cancel_beside_others :
    let replacement : ReplaceOrderCommand := {
      commandSequence := 3
      accountId := 7
      originalClientOrderId := 1
      newClientOrderId := 2
      instrumentId := 3
      newPrice := 100
      newQuantity := 5 }
    let commands : List ExchangeCommand := [.newOrder (limitOrder 1 .buy 100 5 .gtc), .newOrder (limitOrder 2 .buy 99 4 .gtc),
      .replaceOrder replacement, .newOrder { limitOrder 5 .buy 98 6 .gtc with accountId := 8 }]
    let engine := (make [3]).run commands
    ¬ engine.DirectoryAgrees ∧ ∃ entry ∈ engine.resting, entry.key = ⟨8, 5⟩ ∧
      engine.resting.Perm (entry :: (engine.process (.cancelOrder {
        commandSequence := 4
        accountId := 8
        clientOrderId := entry.key.clientOrderId
        instrumentId := entry.instrumentId })).engine.resting) := by
  intro replacement commands engine
  constructor
  · intro agrees
    exact absurd agrees.sized (by decide +kernel)
  · obtain ⟨entry, member, key⟩ : engine.Rests ⟨8, 5⟩ := by decide +kernel
    have leaves : LeavesLiveIdsThroughout 8 (make [3]) commands :=
      ⟨trivial, trivial, fun own => absurd own (by decide), trivial, trivial⟩
    exact ⟨entry, member, key, (own_orders_cancel [3] leaves member (congrArg LiveKey.accountId key) 4).1⟩

end Runs

end Mdh.Matching.MatchingEngine
