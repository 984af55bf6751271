import Mdh.Matching.ExecutionContract

/-! The order directory against the books. A run keeps them in agreement exactly as long
as no replacement takes a client order id that another order still rests under. -/

namespace Mdh.Matching.MatchingEngine
open Mdh.Core Mdh.Lib

/-- Every resting order has a directory entry of its own that locates it, and nothing
else does: the state the comment in `compose` relies on. -/
structure DirectoryAgrees (engine : MatchingEngine) : Prop where
  listed : ∀ entry ∈ engine.resting, ∃ ref, engine.orders.lookup entry.key = some ref ∧
    ref.instrumentId = entry.instrumentId ∧ (engine.bookFor ref.instrumentId).orderAt ref.handle = entry.order
  distinct : (engine.resting.map Resting.key).Nodup
  counted : engine.restingOrderCount = engine.resting.length
  sized : engine.restingOrderCount = engine.orders.keys.length
  composed : engine.snapshot.isSome

/-- The directory is as large as the set of resting orders. With every entry locating an
order that answers to its key, that leaves no order without an entry. -/
def Matched (engine : MatchingEngine) : Prop := engine.orders.keys.length = engine.resting.length

section Matched
variable {engine : MatchingEngine}

theorem Sound.keys_subset (sound : engine.Sound) : engine.orders.keys ⊆ engine.resting.map Resting.key := by
  intro key member
  obtain ⟨ref, found⟩ := Option.isSome_iff_exists.mp (AList.lookup_isSome.mpr (AList.mem_keys.mpr member))
  obtain ⟨entry, there, same, _⟩ := sound.located key ref found
  exact List.mem_map.mpr ⟨entry, there, same⟩

theorem Matched.keys_perm (matched : engine.Matched) (sound : engine.Sound) :
    engine.orders.keys.Perm (engine.resting.map Resting.key) := by
  have inside := List.subperm_of_subset engine.orders.keys_nodup sound.keys_subset
  exact inside.perm_of_length_le (by rw [List.length_map]; exact matched.ge)

theorem Matched.mem_orders (matched : engine.Matched) (sound : engine.Sound) (key : LiveKey) :
    key ∈ engine.orders ↔ ∃ entry ∈ engine.resting, entry.key = key := by
  rw [AList.mem_keys, (matched.keys_perm sound).mem_iff, List.mem_map]

theorem Matched.distinct (matched : engine.Matched) (sound : engine.Sound) :
    (engine.resting.map Resting.key).Nodup :=
  (matched.keys_perm sound).nodup_iff.mp engine.orders.keys_nodup

theorem bind_isSome {α β : Type} {first : Option α} {next : α → Option β} (some : first.isSome)
    (each : ∀ value, (next value).isSome) : (first >>= next).isSome := by
  obtain ⟨value, rfl⟩ := Option.isSome_iff_exists.mp some
  exact each value

theorem mapM_isSome {α β : Type*} {change : α → Option β} {entries : List α}
    (each : ∀ entry ∈ entries, (change entry).isSome) : (entries.mapM change).isSome := by
  induction entries with
  | nil => rfl
  | cons entry rest ih =>
    obtain ⟨first, here⟩ := Option.isSome_iff_exists.mp (each entry List.mem_cons_self)
    obtain ⟨others, there⟩ := Option.isSome_iff_exists.mp (ih fun other member => each other (List.mem_cons_of_mem _ member))
    rw [List.mapM_cons, here, there]
    rfl

theorem Matched.snapshot (matched : engine.Matched) (sound : engine.Sound) : engine.snapshot.isSome := by
  have composes : ∀ id, engine.knowsInstrument id = true → ∀ side,
      (((engine.bookFor id).allOf side).mapM (engine.compose id)).isSome := by
    intro id known side
    rw [MatchingBook.allOf_eq]
    refine mapM_isSome fun order member => ?_
    obtain ⟨placed, there, rfl⟩ := List.mem_map.mp member
    have listed := (matched.mem_orders sound (Resting.of id placed).key).mpr ⟨_, sound.intact.mem_resting known there, rfl⟩
    unfold compose
    rw [Option.isSome_map]
    exact AList.lookup_isSome.mpr listed
  refine bind_isSome (mapM_isSome ?_) fun _ => rfl
  rintro ⟨id, slot⟩ member
  have found := (sound.intact.registry.listed id slot).mp member
  have known : engine.knowsInstrument id = true := by
    unfold knowsInstrument
    rw [found]
    rfl
  have book : engine.books.getD slot (MatchingBook.make 0) = engine.bookFor id := by
    unfold bookFor slotFor
    rw [found]
    rfl
  obtain ⟨bids, allBids⟩ := Option.isSome_iff_exists.mp (composes id known .buy)
  obtain ⟨asks, allAsks⟩ := Option.isSome_iff_exists.mp (composes id known .sell)
  simp only [book]
  unfold MatchingBook.allBids MatchingBook.allAsks
  rw [allBids, allAsks]
  rfl

theorem Sound.directoryAgrees_iff (sound : engine.Sound) : engine.DirectoryAgrees ↔ engine.Matched := by
  constructor
  · intro agrees
    exact agrees.sized.symm.trans agrees.counted
  · intro matched
    refine ⟨fun entry member => ?_, matched.distinct sound, sound.counted, sound.counted.trans matched.symm,
      matched.snapshot sound⟩
    have listed := (matched.mem_orders sound entry.key).mpr ⟨entry, member, rfl⟩
    obtain ⟨ref, found⟩ := Option.isSome_iff_exists.mp (AList.lookup_isSome.mpr listed)
    obtain ⟨other, there, sameKey, instrument, slot⟩ := sound.located _ _ found
    have same : other = entry := List.inj_on_of_nodup_map (matched.distinct sound) there member sameKey
    subst same
    obtain ⟨known, side, inQueue⟩ := (sound.intact.registry.mem_resting other).mp there
    obtain ⟨free, holds⟩ := sound.intact.books _ known
    refine ⟨ref, found, instrument.symm, ?_⟩
    have stored := holds.stored side _ inQueue
    rw [← instrument]
    unfold MatchingBook.orderAt
    rw [← slot]
    exact stored

end Matched

section Changes
variable {before after : MatchingEngine} {entry : Resting}

theorem Removes.matched (change : Removes entry before after) (sound : before.Sound) (matched : before.Matched) :
    after.Matched := by
  have present : entry.key ∈ before.orders :=
    (matched.mem_orders sound _).mpr ⟨entry, change.resting.mem_iff.mpr List.mem_cons_self, rfl⟩
  unfold Matched at *
  rw [change.orders, AList.keys_erase, List.length_erase_of_mem (AList.mem_keys.mp present), matched,
    change.resting.length_eq]
  rfl

theorem length_insert (orders : Directory) (key : LiveKey) (ref : OrderRef) :
    (orders.insert key ref).keys.length = if key ∈ orders then orders.keys.length else orders.keys.length + 1 := by
  rw [AList.keys_insert, List.length_cons]
  split_ifs with present
  · have some := List.length_pos_of_mem (AList.mem_keys.mp present)
    rw [List.length_erase_of_mem (AList.mem_keys.mp present)]
    omega
  · rw [List.erase_of_not_mem (mt AList.mem_keys.mpr present)]

/-- Resting an order keeps the two in step exactly when its key is not taken. -/
theorem Adds.matched_iff {ref : OrderRef} (change : Adds entry ref before after) (matched : before.Matched) :
    after.Matched ↔ entry.key ∉ before.orders := by
  unfold Matched at *
  rw [change.orders, length_insert, change.resting.length_eq, List.length_cons]
  split_ifs with present <;> simp [present] <;> omega

end Changes

section Loop
variable (commandSequence : Nat) {incoming : ExchangeRestingOrder} {step : Step}

theorem fillFront_matched (sound : step.engine.Sound)
    (known : step.engine.knowsInstrument incoming.instrumentId = true) {first : Placed} {rest : List Placed}
    (contents : (step.engine.bookFor incoming.instrumentId).queues incoming.side.contra = first :: rest)
    (matched : step.engine.Matched) : (fillFront commandSequence incoming first.order step).2.engine.Matched := by
  rcases le_or_gt first.order.remainingQuantity incoming.remainingQuantity with full | more
  · exact (fillFront_removes commandSequence sound.intact known contents full).matched sound matched
  · obtain ⟨change, orders⟩ := fillFront_amends commandSequence sound.intact known contents more
    obtain ⟨_, was, is⟩ := change.resting
    unfold Matched at *
    rw [orders, matched, was.length_eq, is.length_eq]
    rfl

theorem matchAndRest_matched (incoming : ExchangeRestingOrder) (sound : step.engine.Sound)
    (known : step.engine.knowsInstrument incoming.instrumentId = true) (matched : step.engine.Matched) :
    (matchAndRest commandSequence incoming step).2.engine.Matched ∧
      (matchAndRest commandSequence incoming step).2.engine.Sound :=
  matchAndRest_rule commandSequence (fun _ step => step.engine.Matched)
    (fun _ _ _ _ matched sound known contents _ _ => fillFront_matched commandSequence sound known contents matched)
    matched sound known

/-- With something left of the incoming order, what rests afterwards is what rested before
and did not cross it. -/
theorem matchAndRest_survivors (sound : step.engine.Sound)
    (known : step.engine.knowsInstrument incoming.instrumentId = true)
    (left : (matchAndRest commandSequence incoming step).1.remainingQuantity ≠ 0) (id : InstrumentId)
    (order : BookOrder) :
    (∃ entry ∈ (matchAndRest commandSequence incoming step).2.engine.resting,
        entry.instrumentId = id ∧ entry.order = order) ↔
      (∃ entry ∈ step.engine.resting, entry.instrumentId = id ∧ entry.order = order) ∧
        ¬ (id = incoming.instrumentId ∧ order.side = incoming.side.contra ∧
          incoming.side.Crosses incoming.price order.price) := by
  have done := matchAndRest_matches commandSequence sound known
  have sound' := matchAndRest_sound commandSequence sound known
  rw [done.final] at left
  have leaves := Reference.fill_leaves (toBookOrder incoming) (sound.intact.queue_ordered known _) left
  rw [sound'.intact.rests_iff, sound.intact.rests_iff, done.only.knows, and_assoc]
  refine and_congr_right fun idKnown => ?_
  rw [matchAndRest_books commandSequence sound known idKnown]
  split_ifs with here
  · obtain ⟨rfl, sides⟩ := here
    have same : order ∈ (Reference.fill (toBookOrder incoming)
        ((step.engine.booksOf incoming.instrumentId).side incoming.side.contra)).book ↔
          order ∈ (step.engine.booksOf incoming.instrumentId).side incoming.side.contra ∧
            ¬ incoming.side.Crosses incoming.price order.price := by
      refine (Iff.of_eq (congrArg (order ∈ ·) leaves)).trans ?_
      rw [List.mem_filter, decide_eq_true_iff]
      rfl
    rw [same, sides]
    simp
  · exact (and_iff_left fun all => here ⟨all.1, all.2.1⟩).symm

theorem mem_orders_of_survives {engine : MatchingEngine} (matched : engine.Matched) (sound : engine.Sound)
    (key : LiveKey) : key ∈ engine.orders ↔ ∃ id order, (∃ entry ∈ engine.resting,
      entry.instrumentId = id ∧ entry.order = order) ∧ LiveKey.mk order.accountId order.clientOrderId = key := by
  rw [matched.mem_orders sound]
  constructor
  · rintro ⟨entry, member, rfl⟩
    exact ⟨_, _, ⟨entry, member, rfl, rfl⟩, rfl⟩
  · rintro ⟨_, _, ⟨entry, member, rfl, rfl⟩, same⟩
    exact ⟨entry, member, same⟩

/-- Whether another order still rests under `key` once `incoming` has matched. -/
def StillTaken (engine : MatchingEngine) (incoming : ExchangeRestingOrder) (key : LiveKey) : Prop :=
  ∃ entry ∈ engine.resting, entry.key = key ∧
    ¬ (entry.instrumentId = incoming.instrumentId ∧ entry.order.side = incoming.side.contra ∧
      incoming.side.Crosses incoming.price entry.order.price)

/-- Matching and resting keeps the directory in step exactly when the key is not taken by
the time the remainder comes to rest. -/
theorem matchThenRest_matched_iff (incoming : ExchangeRestingOrder) (sound : step.engine.Sound)
    (known : step.engine.knowsInstrument incoming.instrumentId = true) (matched : step.engine.Matched)
    (gtc : incoming.timeInForce = .gtc) :
    (matchThenRest commandSequence incoming step).engine.Matched ↔
      ¬ (step.engine.liquidity incoming.instrumentId incoming.side incoming.price < incoming.remainingQuantity ∧
        step.engine.StillTaken incoming ⟨incoming.accountId, incoming.clientOrderId⟩) := by
  have done := matchAndRest_matches commandSequence sound known
  obtain ⟨matched', sound'⟩ := matchAndRest_matched commandSequence incoming sound known matched
  have complete : (matchAndRest commandSequence incoming step).1.remainingQuantity = 0 ↔
      incoming.remainingQuantity ≤ step.engine.liquidity incoming.instrumentId incoming.side incoming.price := by
    rw [done.final]
    exact Reference.fill_complete_iff (toBookOrder incoming) (sound.intact.queue_ordered known _)
  by_cases left : (matchAndRest commandSequence incoming step).1.remainingQuantity = 0
  · rw [matchThenRest_stays commandSequence (Or.inr left)]
    exact iff_of_true matched' fun both => not_lt.mpr (complete.mp left) both.1
  · obtain ⟨change, _⟩ := matchThenRest_adds commandSequence sound known gtc left
    have key : (rested (matchAndRest commandSequence incoming step).1
        (matchAndRest commandSequence incoming step).2.engine).key = ⟨incoming.accountId, incoming.clientOrderId⟩ := by
      change LiveKey.mk (matchAndRest commandSequence incoming step).1.accountId
        (matchAndRest commandSequence incoming step).1.clientOrderId = _
      rw [done.final]
    rw [change.matched_iff matched', key, mem_orders_of_survives matched' sound']
    refine not_congr ?_
    have short : step.engine.liquidity incoming.instrumentId incoming.side incoming.price <
        incoming.remainingQuantity := not_le.mp (mt complete.mpr left)
    simp only [matchAndRest_survivors commandSequence sound known left, short, true_and]
    constructor
    · rintro ⟨_, _, ⟨⟨entry, member, rfl, rfl⟩, survives⟩, same⟩
      exact ⟨entry, member, same, survives⟩
    · rintro ⟨entry, member, same, survives⟩
      exact ⟨_, _, ⟨⟨entry, member, rfl, rfl⟩, survives⟩, same⟩

end Loop

section Commands
variable {engine : MatchingEngine}

/-- The command is a valid replacement under a new client order id, another order of the
account rests under that id, and it rests there still when the replacement takes it. -/
def takesLiveId (engine : MatchingEngine) : ExchangeCommand → Bool
  | .replaceOrder command =>
      match engine.orders.lookup (originalKey command), engine.orders.lookup (replacementKey command) with
      | some ref, some taken =>
          let old := (engine.bookFor ref.instrumentId).orderAt ref.handle
          let other := (engine.bookFor taken.instrumentId).orderAt taken.handle
          decide (ref.instrumentId = command.instrumentId ∧ 0 < command.newPrice ∧ command.newQuantity ≠ 0 ∧
            command.newClientOrderId ≠ command.originalClientOrderId) &&
          (preservesPriority command old ||
            decide (engine.crossableQuantity command.instrumentId old.side command.newPrice command.newQuantity <
                command.newQuantity ∧
              ¬ (taken.instrumentId = command.instrumentId ∧ other.side = old.side.contra ∧
                old.side.Crosses command.newPrice other.price)))
      | _, _ => false
  | _ => false

theorem processNewOrder_matched (sound : engine.Sound) (matched : engine.Matched) (command : NewOrderCommand) :
    (processNewOrder command { engine }).engine.Matched := by
  unfold processNewOrder
  cases valid : engine.newOrderError command with
  | some reason => exact matched
  | none =>
    obtain ⟨known, _, _, fresh⟩ := newOrderError_eq_none valid
    have start : ({ engine } : Step).numbered.engine.Sound := Sound.numbered sound
    have ready := start.sink (acceptedEvent command engine.nextExchangeOrderId)
    simp only [acceptNewOrder_eq]
    by_cases gtc : command.timeInForce = .gtc
    · refine (matchThenRest_matched_iff command.commandSequence (newOrderOf command engine) ready known matched gtc).mpr ?_
      rintro ⟨_, entry, member, key, _⟩
      exact fresh ((matched.mem_orders sound _).mpr ⟨entry, member, key⟩)
    · rw [matchThenRest_discards command.commandSequence (newOrderOf command engine) ready known gtc]
      exact (matchAndRest_matched command.commandSequence (newOrderOf command engine) ready known matched).1

theorem processCancel_matched (sound : engine.Sound) (matched : engine.Matched) (command : CancelOrderCommand) :
    (processCancel command { engine }).engine.Matched := by
  rcases processCancel_cases { engine } sound command with ⟨reason, rejected⟩ | ⟨ref, placed, found, same, located⟩
  · rw [rejected]
    exact matched
  · exact (processCancel_removes { engine } sound.intact found same located).1.matched sound matched

/-- What the two directory entries a replacement looks up say of it. -/
theorem takesLiveId_iff (sound : engine.Sound) (matched : engine.Matched) {command : ReplaceOrderCommand}
    {ref : OrderRef} {placed : Placed} (replaces : Replaces command engine ref placed) :
    engine.takesLiveId (.replaceOrder command) = true ↔
      command.newClientOrderId ≠ command.originalClientOrderId ∧
      ∃ entry ∈ engine.resting, entry.key = replacementKey command ∧
        (preservesPriority command placed.order = true ∨
          engine.liquidity command.instrumentId placed.order.side command.newPrice < command.newQuantity ∧
            ¬ (entry.instrumentId = command.instrumentId ∧ entry.order.side = placed.order.side.contra ∧
              placed.order.side.Crosses command.newPrice entry.order.price)) := by
  have enough := crossableQuantity_lt_iff sound.intact replaces.known placed.order.side command.newPrice
    command.newQuantity
  simp only [takesLiveId, replaces.found]
  cases found : engine.orders.lookup (replacementKey command) with
  | none =>
    simp only [Bool.false_eq_true, false_iff]
    rintro ⟨_, entry, member, key, _⟩
    have listed := (matched.mem_orders sound _).mpr ⟨entry, member, key⟩
    rw [← AList.lookup_isSome, found] at listed
    cases listed
  | some taken =>
    obtain ⟨other, located⟩ := sound.locate found
    have entryOf : ∀ entry ∈ engine.resting, entry.key = replacementKey command →
        entry = Resting.of taken.instrumentId other := fun entry member key =>
      List.inj_on_of_nodup_map (matched.distinct sound) member (located.resting sound.intact) (key.trans located.key.symm)
    have original := replaces.located.order
    rw [replaces.same] at original
    simp only [located.order, Bool.and_eq_true, Bool.or_eq_true, decide_eq_true_eq, replaces.same, original,
      replaces.price, replaces.quantity, true_and, enough, ne_eq, not_false_eq_true]
    refine and_congr_right fun _ => ⟨fun holds => ?_, ?_⟩
    · exact ⟨_, located.resting sound.intact, located.key, holds⟩
    · rintro ⟨entry, member, key, holds⟩
      rw [entryOf entry member key] at holds
      exact holds

theorem takesLiveId_replaces (sound : engine.Sound) {command : ReplaceOrderCommand}
    (takes : engine.takesLiveId (.replaceOrder command) = true) : ∃ ref placed, Replaces command engine ref placed := by
  simp only [takesLiveId] at takes
  cases found : engine.orders.lookup (originalKey command) with
  | none => simp [found] at takes
  | some ref =>
    cases other : engine.orders.lookup (replacementKey command) with
    | none => simp [found, other] at takes
    | some taken =>
      simp only [found, other, Bool.and_eq_true, decide_eq_true_eq] at takes
      obtain ⟨⟨same, price, quantity, _⟩, _⟩ := takes
      obtain ⟨placed, located⟩ := sound.locate found
      exact ⟨ref, placed, price, quantity, found, same, located⟩

theorem replaceInPlace_matched_iff (sound : engine.Sound) (matched : engine.Matched) {command : ReplaceOrderCommand}
    {ref : OrderRef} {placed : Placed} (replaces : Replaces command engine ref placed) :
    (replaceInPlace command ref placed.order { engine }).engine.Matched ↔
      ¬ (command.newClientOrderId ≠ command.originalClientOrderId ∧ replacementKey command ∈ engine.orders) := by
  obtain ⟨change, orders, _⟩ := replaceInPlace_amends { engine } sound.intact replaces.same replaces.located
  obtain ⟨_, was, is⟩ := change.resting
  have present : originalKey command ∈ engine.orders := AList.lookup_isSome.mp (by rw [replaces.found]; rfl)
  have some := List.length_pos_of_mem (AList.mem_keys.mp present)
  have resting : (replaceInPlace command ref placed.order { engine }).engine.resting.length = engine.resting.length := by
    rw [was.length_eq, is.length_eq]
    rfl
  have taken : replacementKey command ∈ engine.orders.erase (originalKey command) ↔
      command.newClientOrderId ≠ command.originalClientOrderId ∧ replacementKey command ∈ engine.orders := by
    rw [AList.mem_erase]
    simp [replacementKey, originalKey]
  unfold Matched at *
  rw [orders, resting, length_insert, AList.keys_erase, List.length_erase_of_mem (AList.mem_keys.mp present), ← taken]
  split_ifs with already
  · exact iff_of_false (by omega) (not_not.mpr already)
  · exact iff_of_true (by omega) already

/-- The order's own side has no part in what the replacement can trade with. -/
theorem withdrawn_liquidity (sound : engine.Sound) {command : ReplaceOrderCommand} {ref : OrderRef} {placed : Placed}
    (replaces : Replaces command engine ref placed) (price : Int) :
    (withdrawn command ref { engine }).engine.liquidity command.instrumentId placed.order.side price =
      engine.liquidity command.instrumentId placed.order.side price := by
  have change := withdrawn_removes { engine } sound.intact replaces.same replaces.located
  obtain ⟨side, member⟩ := replaces.located.member
  rw [replaces.same] at member
  obtain ⟨free, holds⟩ := sound.intact.books _ replaces.known
  have queues := change.queues _ replaces.known
  have own := holds.ownSide side placed member
  unfold liquidity
  rw [booksOf_side, booksOf_side]
  unfold queue
  rw [queues, if_pos (by rfl)]
  have kept : (engine.bookFor command.instrumentId).queues.remove placed.slot placed.order.side.contra =
      (engine.bookFor command.instrumentId).queues placed.order.side.contra :=
    List.filter_eq_self.mpr fun other there => by
      have apart : other.slot ≠ placed.slot := fun slot =>
        placed.order.side.contra_ne ((holds.placed_unique there member slot).1.trans own.symm)
      simpa using apart
  exact congrArg _ (congrArg _ kept)

theorem replaceByNew_matched_iff (sound : engine.Sound) (matched : engine.Matched) {command : ReplaceOrderCommand}
    {ref : OrderRef} {placed : Placed} (replaces : Replaces command engine ref placed) :
    (replaceByNew command ref placed.order { engine }).engine.Matched ↔
      ¬ (engine.liquidity command.instrumentId placed.order.side command.newPrice < command.newQuantity ∧
        command.newClientOrderId ≠ command.originalClientOrderId ∧
        engine.StillTaken (replacementOf command placed.order engine) (replacementKey command)) := by
  have change := withdrawn_removes { engine } sound.intact replaces.same replaces.located
  obtain ⟨middle, known, _⟩ := replacing_sound { engine } sound replaces
  have here := replaces.located.resting sound.intact
  rw [replaces.same] at here
  have key := replaces.located.key
  rw [replaces.same] at key
  have matched' : (replacing command ref placed.order { engine }).engine.Matched := change.matched sound matched
  have liquidity : (replacing command ref placed.order { engine }).engine.liquidity command.instrumentId
      placed.order.side command.newPrice = _ := withdrawn_liquidity sound replaces command.newPrice
  rw [replaceByNew_eq, matchThenRest_matched_iff command.commandSequence (replacementOf command placed.order engine)
    middle known matched' (sound.gtc _ here)]
  refine not_congr (and_congr (Iff.of_eq (congrArg (· < command.newQuantity) liquidity)) ?_)
  -- What rests without the original: all but it, and no other order has its key.
  have others : ∀ entry, entry ∈ (replacing command ref placed.order { engine }).engine.resting ↔
      entry ∈ engine.resting ∧ entry.key ≠ originalKey command := by
    intro entry
    have perm : engine.resting.Perm (Resting.of command.instrumentId placed ::
        (replacing command ref placed.order { engine }).engine.resting) := change.resting
    have nodup := (perm.map Resting.key).nodup_iff.mp (matched.distinct sound)
    rw [List.map_cons, List.nodup_cons] at nodup
    constructor
    · intro member
      exact ⟨perm.mem_iff.mpr (List.mem_cons_of_mem _ member), fun same =>
        nodup.1 (List.mem_map.mpr ⟨entry, member, same.trans key.symm⟩)⟩
    · rintro ⟨member, different⟩
      rcases List.mem_cons.mp (perm.mem_iff.mp member) with rfl | member
      · exact absurd key different
      · exact member
  constructor
  · rintro ⟨entry, member, same, survives⟩
    obtain ⟨member, different⟩ := (others entry).mp member
    refine ⟨fun equal => different ?_, entry, member, same, survives⟩
    exact same.trans (congrArg (LiveKey.mk command.accountId) equal)
  · rintro ⟨different, entry, member, same, survives⟩
    refine ⟨entry, (others entry).mpr ⟨member, fun original => different ?_⟩, same, survives⟩
    exact congrArg LiveKey.clientOrderId (same.symm.trans original)

theorem processReplace_matched_iff (sound : engine.Sound) (matched : engine.Matched) (command : ReplaceOrderCommand) :
    (processReplace command { engine }).engine.Matched ↔ engine.takesLiveId (.replaceOrder command) = false := by
  rw [← Bool.not_eq_true]
  by_cases found : ∃ ref placed, Replaces command engine ref placed
  · obtain ⟨ref, placed, replaces⟩ := found
    rw [processReplace_eq { engine } replaces, takesLiveId_iff sound matched replaces]
    split_ifs with keeps
    · rw [replaceInPlace_matched_iff sound matched replaces, matched.mem_orders sound]
      simp [keeps]
    · rw [replaceByNew_matched_iff sound matched replaces]
      simp only [keeps, Bool.false_eq_true, false_or, StillTaken, replacementOf]
      refine not_congr ⟨?_, ?_⟩
      · rintro ⟨short, different, entry, member, same, survives⟩
        exact ⟨different, entry, member, same, short, survives⟩
      · rintro ⟨different, entry, member, same, short, survives⟩
        exact ⟨short, different, entry, member, same, survives⟩
  · rcases processReplace_cases { engine } sound command with ⟨reason, rejected⟩ | valid
    · rw [rejected]
      exact iff_of_true matched fun takes => found (takesLiveId_replaces sound takes)
    · exact absurd valid found

/-- One command keeps the agreement exactly when it takes no live id. -/
theorem process_matched_iff (sound : engine.Sound) (matched : engine.Matched) (command : ExchangeCommand) :
    (process engine command).engine.Matched ↔ engine.takesLiveId command = false := by
  cases command with
  | newOrder command => exact iff_of_true (processNewOrder_matched sound matched command) rfl
  | cancelOrder command => exact iff_of_true (processCancel_matched sound matched command) rfl
  | replaceOrder command => exact processReplace_matched_iff sound matched command

end Commands

section Runs

/-- No command of the run takes a live id at the moment it is processed. -/
def TakesNoLiveId (engine : MatchingEngine) : List ExchangeCommand → Prop
  | [] => True
  | command :: rest => engine.takesLiveId command = false ∧ TakesNoLiveId (process engine command).engine rest

/-- The directory and the books agree in the state after every command. -/
def AgreesThroughout (engine : MatchingEngine) (commands : List ExchangeCommand) : Prop :=
  ∀ count, (engine.run (commands.take count)).DirectoryAgrees

theorem agreesThroughout_cons (engine : MatchingEngine) (command : ExchangeCommand) (rest : List ExchangeCommand) :
    engine.AgreesThroughout (command :: rest) ↔
      engine.DirectoryAgrees ∧ (process engine command).engine.AgreesThroughout rest := by
  constructor
  · intro agrees
    exact ⟨agrees 0, fun count => agrees (count + 1)⟩
  · rintro ⟨here, later⟩ count
    cases count with
    | zero => exact here
    | succ count => exact later count

theorem agreesThroughout_iff {engine : MatchingEngine} (sound : engine.Sound) (agrees : engine.DirectoryAgrees)
    (commands : List ExchangeCommand) : engine.AgreesThroughout commands ↔ engine.TakesNoLiveId commands := by
  induction commands generalizing engine with
  | nil => exact iff_of_true (fun count => by rw [List.take_nil]; exact agrees) trivial
  | cons command rest ih =>
    have sound' : (process engine command).engine.Sound := dispatch_sound { engine } sound command
    have step := process_matched_iff sound (sound.directoryAgrees_iff.mp agrees) command
    rw [← sound'.directoryAgrees_iff] at step
    rw [agreesThroughout_cons, TakesNoLiveId, ← step, and_iff_right agrees]
    constructor
    · intro later
      exact ⟨later 0, (ih sound' (later 0)).mp later⟩
    · rintro ⟨next, later⟩
      exact (ih sound' next).mpr later

theorem make_agrees (instruments : List InstrumentId) : (make instruments).DirectoryAgrees := by
  refine (make_sound instruments).directoryAgrees_iff.mpr ?_
  unfold Matched
  rw [(make_fresh instruments).orders, make_resting]
  rfl

/-- The directory and the books agree after every command of a run exactly when no command
of it takes a live id. -/
theorem directory_agrees_iff_takes_no_live_id (instruments : List InstrumentId) (commands : List ExchangeCommand) :
    (make instruments).AgreesThroughout commands ↔ (make instruments).TakesNoLiveId commands :=
  agreesThroughout_iff (make_sound instruments) (make_agrees instruments) commands

/-- An account's second order loses its entry to the first one's new name. -/
theorem directory_disagrees_after_taking_live_id :
    ¬ ∀ instruments commands, (make instruments).AgreesThroughout commands := by
  intro always
  have agrees := always [3] [.newOrder (limitOrder 1 .buy 100 5 .gtc), .newOrder (limitOrder 2 .buy 99 4 .gtc),
    .replaceOrder {
      commandSequence := 3
      accountId := 7
      originalClientOrderId := 1
      newClientOrderId := 2
      instrumentId := 3
      newPrice := 100
      newQuantity := 5 }] 3
  exact absurd agrees.sized (by decide +kernel)

end Runs

end Mdh.Matching.MatchingEngine
