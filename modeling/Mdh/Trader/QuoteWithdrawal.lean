import Mdh.Matching.OwnDirectory
import Mdh.Trader.LadderMarketMaker
import Mdh.Trader.SingleQuote
import Mdh.Trader.StandingOrders

/-! How the market maker leaves: once its thread is joined, its quotes are withdrawn one by one, while the
exchange and the reports go on. All it had at rest leaves the books, if no quote waits for an answer
when it is withdrawn. -/

namespace Mdh.Trader
open Mdh.Core Mdh.Lib Mdh.Matching Mdh.Matching.MatchingEngine Mdh.Risk Mdh.Risk.RiskGatedEngine Mdh.Gateway
open Mdh.Sequencing

/-- Cancels the order of the quote, if it has one, and forgets it. Says whether a request went out. -/
def RestingQuote.withdraw (quote : RestingQuote) (client : Client) (sent : Bool) : Client × RestingQuote × Bool :=
  match quote.orderId with
  | none => (client, quote, false)
  | some id =>
      let (client, requested) := TraderRiskGatedOms.cancelOrder client id sent
      (client, { quote with orderId := none }, requested)

namespace LadderMarketMaker

/-- Withdraws the quotes of a side, from a level on; gives how many requests went out. -/
def withdrawLevels (sent : Nat → Bool) : Nat → List RestingQuote → Client → Client × List RestingQuote × Nat
  | _, [], client => (client, [], 0)
  | level, quote :: rest, client =>
      let (client, quote, requested) := quote.withdraw client (sent level)
      let (client, rest, count) := withdrawLevels sent (level + 1) rest client
      (client, quote :: rest, requested.toNat + count)

def withdrawAll (ladder : LadderMarketMaker) (client : Client) (sent : Side → Nat → Bool) : Client × LadderMarketMaker × Nat :=
  let (client, bids, bidCount) := withdrawLevels (sent .buy) 0 ladder.bids client
  let (client, asks, askCount) := withdrawLevels (sent .sell) 0 ladder.asks client
  (client, { ladder with bids, asks }, bidCount + askCount)

end LadderMarketMaker

/-- The market maker, and the quotes that are still to be withdrawn once its thread is joined. -/
structure MarketSimulator where
  planned : Planned LadderMarketMaker
  left : Option (List RestingQuote) := none

inductive SimulatorInput where
  | quote (input : QuoterInput QuoteCycle)
  | join
  | withdraw (sent : Bool)
  deriving DecidableEq, Repr

/-- The thread is joined between two cycles, and there is no cycle after it. -/
def marketSimulator (round : Rounding) (limits : TraderRiskLimits) : Strategy MarketSimulator SimulatorInput where
  act
    | .quote input, client, memory =>
        match memory.left with
        | none =>
            let (client, planned) := (LadderMarketMaker.quoter round limits).stepwise.act input client memory.planned
            (client, { memory with planned })
        | some _ => (client, memory)
    | .join, client, memory =>
        if memory.left = none ∧ memory.planned.plan.first = [] ∧ memory.planned.plan.second = [] then
          (client, { memory with left := some (memory.planned.memory.bids ++ memory.planned.memory.asks) })
        else (client, memory)
    | .withdraw sent, client, memory =>
        match memory.left with
        | some (quote :: left) => ((quote.withdraw client sent).1, { memory with left := some left })
        | some [] => (client, memory)
        | none => (client, memory)
  observe _ memory := memory

section AtOnce
variable {round : Rounding} {limits : TraderRiskLimits} {planned : Planned LadderMarketMaker}

/-- The inputs that withdraw so many quotes of a side, from a level on. -/
def withdraws (sent : Nat → Bool) (level count : Nat) : List SimulatorInput :=
  (List.range' level count).map fun level => .withdraw (sent level)

theorem foldl_withdraws (sent : Nat → Bool) (level : Nat) (quotes later : List RestingQuote) (client : Client) :
    (withdraws sent level quotes.length).foldl (fun before input => (marketSimulator round limits).act input before.1 before.2)
        (client, { planned, left := some (quotes ++ later) }) =
      ((LadderMarketMaker.withdrawLevels sent level quotes client).1, { planned, left := some later }) := by
  induction quotes generalizing level client with
  | nil => rfl
  | cons quote rest ih => exact ih (level + 1) (quote.withdraw client (sent level)).1

/-- Taken one by one, with nothing in between, the quotes are withdrawn as all at once. -/
theorem withdraws_withdrawAll (ladder : LadderMarketMaker) (sent : Side → Nat → Bool) (client : Client) :
    ((withdraws (sent .buy) 0 ladder.bids.length ++ withdraws (sent .sell) 0 ladder.asks.length).foldl
        (fun before input => (marketSimulator round limits).act input before.1 before.2)
        (client, { planned, left := some (ladder.bids ++ ladder.asks) })) =
      ((ladder.withdrawAll client sent).1, { planned, left := some [] }) := by
  rw [List.foldl_append, foldl_withdraws]
  have asks := @foldl_withdraws round limits planned (sent .sell) 0 ladder.asks []
  rw [List.append_nil] at asks
  exact asks _

end AtOnce

/-- The order of the quote is neither done with nor free to be worked. -/
def Waits (client : Client) (orderId : Option ClientOrderId) : Prop :=
  ∃ worked ∈ workingOrder client orderId, worked.2.state = .pendingNew ∨ worked.2.pendingAction ≠ .none

instance (client : Client) (orderId : Option ClientOrderId) : Decidable (Waits client orderId) :=
  inferInstanceAs (Decidable (∃ _ ∈ _, _ ∨ _))

/-- The order is on its way out: no request asks for it, and if it rests, a cancel is on its way. -/
structure Leaving (account : AccountId) (client : Client) (engine : MatchingEngine) (id : ClientOrderId) : Prop where
  unasked : ∀ command ∈ client.commands, created command ≠ some ⟨account, id⟩
  cancelled : engine.Rests ⟨account, id⟩ → ∃ cancel : CancelOrderCommand, .cancelOrder cancel ∈ client.commands ∧
    cancel.clientOrderId = id ∧ ∀ recorded, client.records id = some recorded → cancel.instrumentId = recorded.instrumentId

section Leaving
variable {round : Rounding} {account : AccountId} {client after : Client} {gated : RiskGatedEngine} {engine : MatchingEngine}
  {command : ExchangeCommand} {id : ClientOrderId}

theorem told_records (client : Client) (events : List ExchangeEvent) {recorded : ClientOrder}
    (found : (client.told account events).records id = some recorded) :
    ∃ before, client.records id = some before ∧ recorded.instrumentId = before.instrumentId := by
  have records : (client.told account events).records = recordsAfter (reportsFor account events) client.records :=
    recordsAfter_append ..
  rw [records] at found
  obtain ⟨before, there, rfl⟩ := Option.map_eq_some_iff.mp found
  exact ⟨before, there, (effects_keeps (reportsFor account events) id before).1⟩

/-- The owner's cancel of an order that rests is carried out. -/
theorem cancel_admitted (sound : gated.engine.Sound) (indexed : Indexed account gated.engine)
    (shown : Shown account (recordViews client.records) gated.engine) {cancel : CancelOrderCommand}
    (own : cancel.accountId = account) (rests : gated.engine.Rests ⟨account, cancel.clientOrderId⟩)
    (instrument : ∀ recorded, client.records cancel.clientOrderId = some recorded →
      cancel.instrumentId = recorded.instrumentId) : gated.Admits round (.cancelOrder cancel) := by
  obtain ⟨entry, member, key⟩ := rests
  have ours : entry.key.accountId = account := congrArg LiveKey.accountId key
  obtain ⟨ref, _, found, _, located, _⟩ := indexed.locates sound member ours
  have view := shown entry member ours
  rw [key] at view found
  obtain ⟨recorded, there, viewed⟩ := Option.bind_eq_some_iff.mp view
  have asked : recorded.instrumentId = entry.instrumentId := by
    unfold ClientOrder.view at viewed
    split_ifs at viewed
    obtain ⟨exchangeOrderId, _, same⟩ := Option.map_eq_some_iff.mp viewed
    exact congrArg OrderView.instrumentId same
  refine Option.map_eq_some_iff.mpr ⟨ref, own.symm ▸ found, ?_⟩
  calc ref.instrumentId
    _ = entry.instrumentId := located
    _ = recorded.instrumentId := asked.symm
    _ = cancel.instrumentId := (instrument recorded there).symm

/-- The exchange takes the account's next request. -/
theorem Leaving.takes (leaving : Leaving account client gated.engine id) (indexed : Indexed account gated.engine)
    {sequencer : CommandSequencer} {request : Message} {requests : List Message}
    (queued : client.requests = request :: requests) (stands : toCommand request = some command)
    (own : (subject command).accountId = account)
    (relates : Relates round account { client with requests } gated (sequencer.sequence command).1) :
    Leaving account (({ client with requests } : Client).told account (gated.process round (sequencer.sequence command).1).events)
      (gated.process round (sequencer.sequence command).1).gated.engine id := by
  have all := commands_takes queued stands
  have shown : Shown account (recordViews client.records) gated.engine := relates.synced.shown
  obtain ⟨_, sameCreated, _⟩ := sequence_alike sequencer command
  have unasked : created (sequencer.sequence command).1 ≠ some ⟨account, id⟩ := by
    rw [sameCreated]
    exact leaving.unasked command (by rw [all]; exact List.mem_cons_self)
  refine ⟨fun other member => leaving.unasked other (by rw [all]; exact List.mem_cons_of_mem _ member), fun rests => ?_⟩
  have before := (process_rests round relates.sound shown relates.fresh rfl rests).resolve_left unasked
  obtain ⟨cancel, sent, named, instrument⟩ := leaving.cancelled before
  rw [all] at sent
  rcases List.mem_cons.mp sent with here | later
  · subst here
    subst named
    have admits : gated.Admits round (sequencer.sequence (.cancelOrder cancel)).1 :=
      @cancel_admitted round account client gated relates.sound indexed shown
        { cancel with commandSequence := sequencer.nextSequence } own before instrument
    have alters : altered (sequencer.sequence (.cancelOrder cancel)).1 = some ⟨account, cancel.clientOrderId⟩ :=
      congrArg (fun account => some (LiveKey.mk account cancel.clientOrderId)) own
    exact absurd rests (process_alters round relates.sound shown relates.fresh rfl admits alters unasked)
  · refine ⟨cancel, later, named, fun recorded found => ?_⟩
    obtain ⟨old, there, same⟩ := told_records { client with requests } _ found
    exact (instrument old there).trans same.symm

/-- The exchange takes another's command. -/
theorem Leaving.observes (leaving : Leaving account client gated.engine id)
    (relates : Relates round account client gated command) (foreign : (subject command).accountId ≠ account) :
    Leaving account (client.told account (gated.process round command).events) (gated.process round command).gated.engine id := by
  refine ⟨leaving.unasked, fun rests => ?_⟩
  have before := relates.rests_foreign round foreign (decide_eq_true rests)
  obtain ⟨cancel, sent, named, instrument⟩ := leaving.cancelled (of_decide_eq_true before)
  refine ⟨cancel, sent, named, fun recorded found => ?_⟩
  obtain ⟨old, there, same⟩ := told_records client _ found
  exact (instrument old there).trans same.symm

/-- Another cancel goes out. -/
theorem Leaving.sends (leaving : Leaving account client engine id) {commands : List ExchangeCommand}
    (leaves : Leaves client after client.records commands) (plain : ∀ command ∈ commands, created command = none) :
    Leaving account after engine id := by
  refine ⟨fun command member => ?_, fun rests => ?_⟩
  · rw [leaves.commands] at member
    rcases List.mem_append.mp member with before | new
    · exact leaving.unasked command before
    · rw [plain command new]
      exact nofun
  · obtain ⟨cancel, sent, named, instrument⟩ := leaving.cancelled rests
    refine ⟨cancel, ?_, named, ?_⟩
    · rw [leaves.commands]
      exact List.mem_append_left _ sent
    · rw [leaves.records]
      exact instrument

end Leaving

section Entries
variable {round : Rounding} {limits : TraderRiskLimits} {account : AccountId} {client after : Client} {engine : MatchingEngine}
  {gated : RiskGatedEngine} {command : ExchangeCommand}

/-- The gate keeps the account's entries, as long as the account asks for nothing under the id of an order at rest. -/
theorem process_gated_indexed (round : Rounding) (sound : gated.engine.Sound) (indexed : Indexed account gated.engine)
    (fresh : FreshFor account gated.engine command) : Indexed account (gated.process round command).gated.engine := by
  rcases gated.process_cases round command with ⟨rejection, _, turned⟩ | ⟨_, forwarded⟩
  · rw [turned]
    exact ⟨indexed.listed, indexed.distinct⟩
  · rw [forwarded]
    apply process_indexed sound indexed
    cases command with
    | newOrder command => trivial
    | cancelOrder command => trivial
    | replaceOrder command => exact fun own _ => fresh _ rfl own

theorem rests_inView {records : Records} (shown : Shown account (recordViews records) engine) {id : ClientOrderId}
    (rests : engine.Rests ⟨account, id⟩) : InView records id := by
  obtain ⟨entry, member, key⟩ := rests
  have view := shown entry member (congrArg LiveKey.accountId key)
  rw [key] at view
  intro unseen
  have none : recordViews records ⟨account, id⟩ = none := unseen
  rw [view] at none
  cases none

/-- What a requote enters on record is the order that the quote has then. -/
theorem Requoted.entered {close : ClientOrder → Int → Bool} {instrumentId : InstrumentId} {side : Side} {size : Nat} {sent : Bool}
    {desiredPrice : Option Int} {orderId new : Option ClientOrderId}
    (requoted : Requoted close instrumentId side size client orderId sent desiredPrice after new)
    (synced : Synced account client engine) {id : ClientOrderId} (entered : after.records id ≠ none) :
    client.records id ≠ none ∨ new = some id := by
  have updated {order : ClientOrder} (here : Function.update client.records client.oms.nextClientOrderId (some order) id ≠ none) :
      client.records id ≠ none ∨ some client.oms.nextClientOrderId = some id := by
    by_cases same : id = client.oms.nextClientOrderId
    · exact Or.inr (congrArg some same.symm)
    · rw [Function.update_of_ne same] at here
      exact Or.inl here
  cases requoted with
  | waits | near | rests => exact Or.inl entered
  | submits finished price =>
    cases sent with
    | true =>
      rw [(synced.submits instrumentId side price size .limit .gtc).records] at entered
      exact updated entered
    | false =>
      rw [(synced.fails instrumentId side price size .limit .gtc).records] at entered
      exact updated entered
  | cancels id order known found =>
    cases sent with
    | true =>
      rw [(synced.cancels found).records] at entered
      exact Or.inl entered
    | false =>
      rw [call_cancelOrder_unsent] at entered
      exact Or.inl entered
  | replaces id order known found price goes =>
    subst goes
    rw [(synced.replaces found price size).records] at entered
    exact updated entered
  | skips id order known found price fails =>
    subst fails
    rw [call_replaceOrder_unsent (synced.unused _ le_rfl) found] at entered
    exact Or.inl entered

theorem SingleQuote.calls {orderId : Option ClientOrderId} {asked : List ClientOrderId}
    (single : SingleQuote account client.records client.commands orderId asked) (synced : Synced account client engine)
    (calls : List Call) :
    SingleQuote account (calls.foldl Client.call client).records (calls.foldl Client.call client).commands orderId asked := by
  induction calls generalizing client with
  | nil => exact single
  | cons call rest ih => exact ih (single.call synced call) (synced.call call)

end Entries

section Withdrawal
variable {account : AccountId} {client : Client} {engine : MatchingEngine} {orderId : Option ClientOrderId}
  {asked : List ClientOrderId}

theorem not_waits {id : ClientOrderId} {order : ClientOrder} (settled : ¬ Waits client orderId)
    (working : workingOrder client orderId = some (id, order)) : client.oms.workable id = some order := by
  obtain ⟨_, found, unfinished⟩ := workingOrder_eq_some working
  exact workable_of_working found unfinished fun held => settled ⟨(id, order), working, held⟩

theorem RestingQuote.withdraw_calls (quote : RestingQuote) (client : Client) (sent : Bool) :
    ∃ calls : List Call, (quote.withdraw client sent).1 = calls.foldl Client.call client := by
  unfold RestingQuote.withdraw
  cases quote.orderId with
  | none => exact ⟨[], rfl⟩
  | some id => exact ⟨[.cancelOrder id sent], rfl⟩

theorem Finished.unworkable (finished : Finished client orderId) {id : ClientOrderId} (known : orderId = some id) :
    client.oms.workable id = none := by
  refine Option.filter_eq_none_iff.mpr fun order there working => ?_
  have done := finished id known order there
  have live := (of_decide_eq_true working).1
  cases state : order.state with
  | pendingNew | live | partiallyFilled =>
    rw [state] at done
    cases done
  | filled | rejected | cancelled | replaced =>
    rw [state] at live
    cases live

/-- A quote that does not wait is done with its order when it is withdrawn, or cancels it. -/
theorem RestingQuote.withdraw_cases (quote : RestingQuote) (settled : ¬ Waits client quote.orderId) :
    Finished client quote.orderId ∧ (quote.withdraw client true).1 = client ∨
      ∃ id order, quote.orderId = some id ∧ client.oms.workable id = some order ∧
        (quote.withdraw client true).1 = client.call (.cancelOrder id true) := by
  unfold RestingQuote.withdraw
  cases working : workingOrder client quote.orderId with
  | none =>
    have finished := finished_of_workingOrder working
    refine Or.inl ⟨finished, ?_⟩
    cases known : quote.orderId with
    | none => rfl
    | some id =>
      have idle := finished.unworkable known
      exact call_cancelOrder_of_none idle true
  | some worked =>
    obtain ⟨id, order⟩ := worked
    obtain ⟨known, _⟩ := workingOrder_eq_some working
    refine Or.inr ⟨id, order, known, not_waits settled working, ?_⟩
    rw [known]
    rfl

/-- Once the quote is done with its order, none of its orders comes to rest. -/
theorem SingleQuote.leaves_idle (single : SingleQuote account client.records client.commands orderId asked)
    (synced : Synced account client engine) (finishes : Finishes client) (finished : Finished client orderId)
    {id : ClientOrderId} (member : id ∈ asked) : Leaving account client engine id := by
  obtain ⟨unseen, unasked⟩ := single.idle synced finishes finished
  exact ⟨fun command sent => unasked command sent id member, fun rests => absurd (rests_inView synced.shown rests) (unseen id member)⟩

/-- Once the order of the quote is cancelled, all its orders are on their way out. -/
theorem SingleQuote.leaves_cancelled (single : SingleQuote account client.records client.commands orderId asked)
    (synced : Synced account client engine) {id : ClientOrderId} {order : ClientOrder} (known : orderId = some id)
    (found : client.oms.workable id = some order) {other : ClientOrderId} (member : other ∈ asked) :
    Leaving account (client.call (.cancelOrder id true)) engine other := by
  have leaves := synced.cancels found
  obtain ⟨recorded, there, answered, instrument, _⟩ := workable_recorded found
  have settled : ¬ Pending client.records id := fun ⟨order, same, pending⟩ => by
    obtain rfl := Option.some.inj (there.symm.trans same)
    exact answered pending
  constructor
  · intro command sent creates
    rw [leaves.commands] at sent
    rcases List.mem_append.mp sent with before | new
    · obtain rfl : id = other := Option.some.inj (known.symm.trans (single.led command before other member creates).1)
      exact settled ((synced.asked command before).creates creates).2
    · obtain rfl := List.mem_singleton.mp new
      cases creates
  · intro rests
    rcases single.tended other member (rests_inView synced.shown rests) with same | ⟨new, same, pending⟩
    · obtain rfl : id = other := Option.some.inj (known.symm.trans same)
      let cancel : CancelOrderCommand := {
        commandSequence := 0
        accountId := client.oms.accountId
        clientOrderId := id
        instrumentId := order.instrumentId }
      refine ⟨cancel, ?_, rfl, fun entry entered => ?_⟩
      · rw [leaves.commands]
        exact List.mem_append_right _ List.mem_cons_self
      · rw [leaves.records] at entered
        obtain rfl := Option.some.inj (there.symm.trans entered)
        exact instrument.symm
    · obtain rfl : id = new := Option.some.inj (known.symm.trans same)
      exact absurd pending settled

end Withdrawal

/-- The quotes that are minded are single each, and all the account has on record was asked for by one of
them, or is gone. -/
structure Minded (account : AccountId) (client : Client) (gone : ClientOrderId → Prop) (tracked : List Quoting) : Prop where
  single : ∀ quoting ∈ tracked, SingleQuote account client.records client.commands quoting.quote.orderId quoting.asked
  covered : ∀ id, client.records id ≠ none → gone id ∨ ∃ quoting ∈ tracked, id ∈ quoting.asked

section Minded
variable {round : Rounding} {account : AccountId} {client after : Client} {gated : RiskGatedEngine} {engine : MatchingEngine}
  {command : ExchangeCommand} {gone : ClientOrderId → Prop} {tracked front back : List Quoting} {quoting : Quoting}

/-- The exchange processes a command of anyone's. -/
theorem Minded.tells (minded : Minded account client gone tracked) (relates : Relates round account client gated command)
    (led : ∀ quoting ∈ tracked, Led account client.records quoting.quote.orderId quoting.asked command) :
    Minded account (client.told account (gated.process round command).events) gone tracked := by
  refine ⟨fun quoting member => (minded.single quoting member).tells relates (led quoting member), fun id entered => ?_⟩
  apply minded.covered id
  obtain ⟨recorded, found⟩ := Option.ne_none_iff_exists'.mp entered
  obtain ⟨before, there, _⟩ := told_records client _ found
  rw [there]
  exact Option.some_ne_none before

/-- One of the quotes is driven. -/
theorem Minded.requotes {close : ClientOrder → Int → Bool} {instrumentId : InstrumentId} {side : Side} {size : Nat} {sent : Bool}
    {desiredPrice : Option Int} {new : Option ClientOrderId} (minded : Minded account client gone (front ++ quoting :: back))
    (synced : Synced account client engine) (finishes : Finishes client)
    (requoted : Requoted close instrumentId side size client quoting.quote.orderId sent desiredPrice after new) :
    Minded account after gone
      (front ++ { quote := { quoting.quote with orderId := new }, asked := new.toList ++ quoting.asked } :: back) := by
  constructor
  · intro other member
    have kept (before : other ∈ front ++ quoting :: back) :
        SingleQuote account after.records after.commands other.quote.orderId other.asked := by
      obtain ⟨calls, rfl⟩ := requoted.calls
      exact (minded.single other before).calls synced calls
    rcases List.mem_append.mp member with early | late
    · exact kept (List.mem_append_left _ early)
    · rcases List.mem_cons.mp late with rfl | late
      · exact (minded.single quoting (List.mem_append_right _ List.mem_cons_self)).requoted synced finishes requoted
      · exact kept (List.mem_append_right _ (List.mem_cons_of_mem _ late))
  · intro id entered
    rcases requoted.entered synced entered with before | rfl
    · rcases minded.covered id before with away | ⟨other, member, among⟩
      · exact Or.inl away
      · right
        rcases List.mem_append.mp member with early | late
        · exact ⟨other, List.mem_append_left _ early, among⟩
        · rcases List.mem_cons.mp late with rfl | late
          · exact ⟨_, List.mem_append_right _ List.mem_cons_self, List.mem_append_right _ among⟩
          · exact ⟨other, List.mem_append_right _ (List.mem_cons_of_mem _ late), among⟩
    · exact Or.inr ⟨_, List.mem_append_right _ List.mem_cons_self, List.mem_append_left _ List.mem_cons_self⟩

/-- A quote that does not wait is withdrawn, and all its orders are then on their way out. -/
theorem Minded.withdraws (minded : Minded account client gone (quoting :: tracked)) (synced : Synced account client engine)
    (finishes : Finishes client) (settled : ¬ Waits client quoting.quote.orderId)
    (leaving : ∀ id, gone id → Leaving account client engine id) :
    Minded account (quoting.quote.withdraw client true).1 (fun id => gone id ∨ id ∈ quoting.asked) tracked ∧
      ∀ id, gone id ∨ id ∈ quoting.asked → Leaving account (quoting.quote.withdraw client true).1 engine id := by
  have single := minded.single quoting List.mem_cons_self
  have covers (id : ClientOrderId) (entered : client.records id ≠ none) :
      (gone id ∨ id ∈ quoting.asked) ∨ ∃ other ∈ tracked, id ∈ other.asked := by
    rcases minded.covered id entered with away | ⟨other, member, among⟩
    · exact Or.inl (Or.inl away)
    · rcases List.mem_cons.mp member with rfl | later
      · exact Or.inl (Or.inr among)
      · exact Or.inr ⟨other, later, among⟩
  rcases quoting.quote.withdraw_cases settled with ⟨finished, stays⟩ | ⟨id, order, known, found, cancels⟩
  · rw [stays]
    refine ⟨⟨fun other member => minded.single other (List.mem_cons_of_mem _ member), covers⟩, fun id away => ?_⟩
    rcases away with before | here
    · exact leaving id before
    · exact single.leaves_idle synced finishes finished here
  · have leaves := synced.cancels found
    rw [cancels]
    refine ⟨⟨fun other member => ?_, ?_⟩, fun other away => ?_⟩
    · exact (minded.single other (List.mem_cons_of_mem _ member)).call synced (.cancelOrder id true)
    · rw [leaves.records]
      exact covers
    · rcases away with before | here
      · refine (leaving other before).sends leaves fun command sent => ?_
        obtain rfl := List.mem_singleton.mp sent
        rfl
      · exact single.leaves_cancelled synced known found here

end Minded

/-- The quotes that are still to be withdrawn; before the thread is joined, those are all. -/
def MarketSimulator.standing (memory : MarketSimulator) : List RestingQuote :=
  memory.left.getD (memory.planned.memory.bids ++ memory.planned.memory.asks)

section Simulator
variable {round : Rounding} {limits : TraderRiskLimits} {managed : AccountId → Bool} {account : AccountId} {client : Client}

/-- Where a quote is driven, it is one of all, and the others stay as they are. -/
theorem driveQuote_splits (ladder : LadderMarketMaker) (side : Side) (target : Target) (sent : Bool) (client : Client) :
    let (after, next) := ladder.driveQuote round limits side target sent client
    (after = client ∧ next = ladder) ∨ ∃ front quote back, ladder.bids ++ ladder.asks = front ++ quote :: back ∧
      next.bids ++ next.asks = front ++ (quote.update round limits client target.desiredPrice sent).2.1 :: back ∧
        after = (quote.update round limits client target.desiredPrice sent).1 := by
  unfold LadderMarketMaker.driveQuote
  cases there : (ladder.quotes side)[target.level]? with
  | none => exact Or.inl ⟨rfl, rfl⟩
  | some quote =>
    obtain ⟨inside, rfl⟩ := List.getElem?_eq_some_iff.mp there
    let updated := (ladder.quotes side)[target.level].update round limits client target.desiredPrice sent
    obtain ⟨nearer, farther, split, _, replaced⟩ :=
      @List.exists_of_set RestingQuote target.level updated.2.1 (ladder.quotes side) inside
    right
    cases side with
    | buy =>
      refine ⟨nearer, _, farther ++ ladder.asks, ?_, ?_, rfl⟩
      · exact (congrArg (· ++ ladder.asks) split).trans (List.append_assoc ..)
      · exact (congrArg (· ++ ladder.asks) replaced).trans (List.append_assoc ..)
    | sell =>
      refine ⟨ladder.bids ++ nearer, _, farther, ?_, ?_, rfl⟩
      · exact (congrArg (ladder.bids ++ ·) split).trans (List.append_assoc ..).symm
      · exact (congrArg (ladder.bids ++ ·) replaced).trans (List.append_assoc ..).symm

theorem marketSimulator_calls : (marketSimulator round limits).Calls := by
  intro input client memory
  cases input with
  | quote input =>
    unfold marketSimulator
    dsimp only
    cases memory.left with
    | none => exact LadderMarketMaker.quoter_calls.stepwise input client memory.planned
    | some left => exact ⟨[], rfl⟩
  | join =>
    refine ⟨[], ?_⟩
    unfold marketSimulator
    dsimp only
    split_ifs <;> rfl
  | withdraw sent =>
    unfold marketSimulator
    dsimp only
    cases memory.left with
    | none => exact ⟨[], rfl⟩
    | some left =>
      cases left with
      | nil => exact ⟨[], rfl⟩
      | cons quote left => exact quote.withdraw_calls client sent

/-- A quote that is withdrawn does not wait for an answer, and its cancel goes out. While a quote waits for its
replacement, its cancel is refused, and the replacement comes to rest with nobody to mind it. -/
def WithdrawsSettled (account : AccountId) (desk : Desk MarketSimulator) : DeskAction SimulatorInput → Prop
  | .act (.withdraw sent) =>
      ∀ quote ∈ desk.memory.left.bind List.head?, sent = true ∧ ¬ Waits (desk.floor.clients account) quote.orderId
  | .act (.quote _) => True
  | .act .join => True
  | .floor _ => True

instance (account : AccountId) (desk : Desk MarketSimulator) (action : DeskAction SimulatorInput) :
    Decidable (WithdrawsSettled account desk action) :=
  match action with
  | .act (.withdraw sent) =>
      inferInstanceAs (Decidable (∀ quote ∈ desk.memory.left.bind List.head?,
        sent = true ∧ ¬ Waits (desk.floor.clients account) quote.orderId))
  | .act (.quote _) => isTrue trivial
  | .act .join => isTrue trivial
  | .floor _ => isTrue trivial

/-- The market maker minds every quote that stands, and all else that it has asked for is on its way out. -/
structure Minds (account : AccountId) (client : Client) (engine : MatchingEngine) (memory : MarketSimulator)
    (gone : ClientOrderId → Prop) (tracked : List Quoting) : Prop where
  stands : tracked.map Quoting.quote = memory.standing
  stays : memory.left = none → ∀ id, ¬ gone id
  minded : Minded account client gone tracked
  leaving : ∀ id, gone id → Leaving account client engine id

structure LeavesTidy (managed : AccountId → Bool) (account : AccountId) (desk : Desk MarketSimulator) : Prop where
  followed : Followed managed desk.floor
  finishes : Finishes (desk.floor.clients account)
  indexed : Indexed account desk.floor.exchange.engine
  minds : ∃ gone tracked, Minds account (desk.floor.clients account) desk.floor.exchange.engine desk.memory gone tracked

section Inputs
variable {engine : MatchingEngine} {memory next : MarketSimulator} {gone : ClientOrderId → Prop} {tracked : List Quoting}

/-- The quotes that stand are as before. -/
theorem Minds.keeps (minds : Minds account client engine memory gone tracked) (same : next.standing = memory.standing)
    (left : next.left = none → memory.left = none) : Minds account client engine next gone tracked :=
  ⟨minds.stands.trans same.symm, fun quoting => minds.stays (left quoting), minds.minded, minds.leaving⟩

/-- The thread drives a quote. -/
theorem Minds.drives (minds : Minds account client engine memory gone tracked) (synced : Synced account client engine)
    (finishes : Finishes client) (quoting : memory.left = none) (side : Side) (target : Target) (sent : Bool) (rest : QuotePlan) :
    let (after, ladder) := memory.planned.memory.driveQuote round limits side target sent client
    ∃ gone tracked, Minds account after engine { memory with planned := { memory := ladder, plan := rest } } gone tracked := by
  have stands := minds.stands
  unfold MarketSimulator.standing at stands
  rw [quoting, Option.getD_none] at stands
  have standing (planned : Planned LadderMarketMaker) :
      ({ memory with planned } : MarketSimulator).standing = planned.memory.bids ++ planned.memory.asks := by
    unfold MarketSimulator.standing
    rw [quoting, Option.getD_none]
  have splits := @driveQuote_splits round limits memory.planned.memory side target sent client
  generalize memory.planned.memory.driveQuote round limits side target sent client = driven at splits ⊢
  obtain ⟨after, ladder⟩ := driven
  rcases splits with ⟨client, same⟩ | ⟨front, quote, back, before, placed, client⟩
  · refine ⟨gone, tracked, ?_⟩
    rw [client, same]
    exact minds.keeps ((standing _).trans (standing _).symm) id
  · rw [before] at stands
    obtain ⟨early, late, rfl, rfl, there⟩ := List.map_eq_append_iff.mp stands
    obtain ⟨driven, later, rfl, rfl, rfl⟩ := List.map_eq_cons_iff.mp there
    rw [client]
    refine ⟨gone, _, ?_, minds.stays, minds.minded.requotes synced finishes (requote_requoted target.desiredPrice sent), ?_⟩
    · rw [standing, placed, List.map_append]
      rfl
    · exact fun id away => absurd away (minds.stays quoting id)

/-- What the market maker does on an input. -/
theorem Minds.acts (minds : Minds account client engine memory gone tracked) (synced : Synced account client engine)
    (finishes : Finishes client) (input : SimulatorInput) (settled : ∀ sent, input = .withdraw sent →
      ∀ quote ∈ memory.left.bind List.head?, sent = true ∧ ¬ Waits client quote.orderId) :
    let (after, next) := (marketSimulator round limits).act input client memory
    ∃ gone tracked, Minds account after engine next gone tracked := by
  obtain ⟨planned, left⟩ := memory
  cases input with
  | quote input =>
    cases left with
    | some left => exact ⟨gone, tracked, minds⟩
    | none =>
      cases input with
      | plan cycle =>
        refine ⟨gone, tracked, ?_⟩
        unfold marketSimulator Quoter.stepwise
        dsimp only
        split_ifs
        · exact minds.keeps rfl id
        · exact minds
      | drive sent =>
        have driven : (marketSimulator round limits).act (.quote (.drive sent)) client ⟨planned, none⟩ =
            (((LadderMarketMaker.quoter round limits).driveNext sent client planned).1,
              ⟨((LadderMarketMaker.quoter round limits).driveNext sent client planned).2, none⟩) := rfl
        rw [driven]
        rcases (LadderMarketMaker.quoter round limits).driveNext_cases sent client planned with
          stays | ⟨side, target, rest, _, drives⟩
        · rw [stays]
          exact ⟨gone, tracked, minds⟩
        · rw [drives]
          exact minds.drives synced finishes rfl side target sent rest
  | join =>
    refine ⟨gone, tracked, ?_⟩
    unfold marketSimulator
    dsimp only
    split_ifs with joins
    · obtain ⟨rfl, _⟩ := joins
      exact minds.keeps rfl nofun
    · exact minds
  | withdraw sent =>
    cases left with
    | none => exact ⟨gone, tracked, minds⟩
    | some left =>
      cases left with
      | nil => exact ⟨gone, tracked, minds⟩
      | cons quote left =>
        obtain ⟨goes, answered⟩ := settled sent rfl quote rfl
        subst goes
        obtain ⟨quoting, later, rfl, rfl, there⟩ := List.map_eq_cons_iff.mp minds.stands
        obtain ⟨minded, leaving⟩ := minds.minded.withdraws synced finishes answered minds.leaving
        exact ⟨_, later, there, nofun, minded, leaving⟩

/-- A report is handled. -/
theorem Minds.handle (minds : Minds account client engine memory gone tracked) (round : Rounding) {report : Message}
    {reports : List Message} (queued : client.reports = report :: reports) :
    Minds account (({ client with reports } : Client).handle round report) engine memory gone tracked := by
  have records := handle_records round queued
  refine ⟨minds.stands, minds.stays, ⟨?_, ?_⟩, fun id away => ⟨(minds.leaving id away).unasked, ?_⟩⟩
  · rw [records]
    exact minds.minded.single
  · rw [records]
    exact minds.minded.covered
  · rw [records]
    exact (minds.leaving id away).cancelled

end Inputs

section Runs
variable {desk after : Desk MarketSimulator} {action : DeskAction SimulatorInput}

theorem LeavesTidy.step (alone : managed account = true) (tidy : LeavesTidy managed account desk)
    (stepped : desk.step round managed account (marketSimulator round limits) action = some after)
    (settled : WithdrawsSettled account desk action) : LeavesTidy managed account after := by
  obtain ⟨followed, finishes, indexed, gone, tracked, minds⟩ := tidy
  have synced := followed.synced account alone
  have following := Desk.step_followed marketSimulator_calls alone followed stepped
  have finishing := step_finishes marketSimulator_calls alone followed finishes stepped
  cases Desk.sees alone followed stepped with
  | acts input client exchange memory =>
    refine ⟨following, finishing, exchange ▸ indexed, ?_⟩
    rw [client, exchange, memory]
    apply minds.acts synced finishes input
    rintro sent rfl
    exact settled
  | stays action client exchange memory =>
    refine ⟨following, finishing, exchange ▸ indexed, gone, tracked, ?_⟩
    rw [client, exchange, memory]
    exact minds
  | handles report reports queued client exchange memory =>
    have memory : after.memory = desk.memory := memory.trans (by unfold Strategy.shown; cases Prod.snd _ <;> rfl)
    refine ⟨following, finishing, exchange ▸ indexed, gone, tracked, ?_⟩
    rw [client, exchange, memory]
    exact minds.handle round queued
  | takes request requests command queued stands client exchange memory =>
    have relates : Relates round account _ _ _ := followed.relates_own alone queued stands
    obtain ⟨sameSubject, sameCreated, _⟩ := sequence_alike desk.floor.sequencer command
    have all := commands_takes queued stands
    have own : (subject command).accountId = account := (synced.asked command (by rw [all]; exact List.mem_cons_self)).own
    have single {quoting : Quoting} (member : quoting ∈ tracked) := minds.minded.single quoting member
    rw [all] at single
    have minded : Minded account { desk.floor.clients account with requests } gone tracked :=
      ⟨fun quoting member => (single member).rest, minds.minded.covered⟩
    refine ⟨following, finishing, ?_, gone, tracked, ?_⟩
    · rw [exchange]
      exact process_gated_indexed round followed.sound indexed relates.fresh
    · rw [client, exchange, memory]
      refine ⟨minds.stands, minds.stays, minded.tells relates fun quoting member id among creates => ?_, fun id away => ?_⟩
      · rw [sameSubject]
        exact (single member).led command List.mem_cons_self id among (sameCreated.symm.trans creates)
      · exact (minds.leaving id away).takes indexed queued stands own relates
  | observes action command foreign client exchange memory =>
    have relates : Relates round account _ _ _ := followed.relates_foreign alone foreign
    refine ⟨following, finishing, ?_, gone, tracked, ?_⟩
    · rw [exchange]
      exact process_gated_indexed round followed.sound indexed relates.fresh
    · rw [client, exchange, memory]
      refine ⟨minds.stands, minds.stays, minds.minded.tells relates fun quoting member id among creates => ?_, fun id away => ?_⟩
      · exact absurd (created_account creates).symm foreign
      · exact (minds.leaving id away).observes relates foreign

variable {config : LadderMarketMakerConfig} {reference : Int} {exchangeLimits : RiskLimits} {instruments : List InstrumentId}
  {deposits : List Deposit}

/-- The market maker as it starts. -/
def startSimulator (config : LadderMarketMakerConfig) (reference : Int) : MarketSimulator where
  planned := { memory := .make config reference }

theorem start_tidy : LeavesTidy managed account
    (Desk.start round exchangeLimits instruments deposits (startSimulator config reference)) := by
  let ladder := LadderMarketMaker.make config reference
  have idle {quote : RestingQuote} (member : quote ∈ ladder.bids ++ ladder.asks) : quote.orderId = none := by
    rcases List.mem_append.mp member with bid | ask
    · exact LadderMarketMaker.orderIds_make config reference .buy _ (List.mem_map_of_mem bid)
    · exact LadderMarketMaker.orderIds_make config reference .sell _ (List.mem_map_of_mem ask)
  refine ⟨start_followed round, steadyOn_nil _, make_indexed instruments, fun _ => False,
    (ladder.bids ++ ladder.asks).map (Quoting.mk · []), ?_, fun _ _ => not_false, ⟨?_, ?_⟩, fun _ => False.elim⟩
  · rw [List.map_map]
    exact List.map_id _
  · intro quoting member
    obtain ⟨quote, among, rfl⟩ := List.mem_map.mp member
    rw [idle among]
    exact ⟨nofun, nofun, nofun, nofun, nofun⟩
  · exact fun _ entered => absurd rfl entered

/-- Once all quotes are withdrawn, and the exchange has taken what was asked, nothing of the account rests. -/
theorem withdrawn_leaves_nothing (alone : managed account = true) {actions : List (DeskAction SimulatorInput)}
    {desk : Desk MarketSimulator} (ran : Transitions.run (Desk.step round managed account (marketSimulator round limits))
      (Desk.start round exchangeLimits instruments deposits (startSimulator config reference)) actions = some desk)
    (settled : Transitions.Throughout (Desk.step round managed account (marketSimulator round limits))
      (WithdrawsSettled account)
      (Desk.start round exchangeLimits instruments deposits (startSimulator config reference)) actions)
    (withdrawn : desk.memory.left = some []) (taken : (desk.floor.clients account).requests = []) :
    ∀ entry ∈ desk.floor.exchange.engine.resting, entry.key.accountId ≠ account := by
  have tidy : LeavesTidy managed account desk := by
    refine Transitions.run_rule (fun actions desk => Transitions.Throughout _ (WithdrawsSettled account) _ actions →
      LeavesTidy managed account desk) (fun _ => start_tidy) (fun actions before action next reached kept stepped every => ?_)
      ran settled
    obtain ⟨earlier, allowed⟩ := (Transitions.throughout_concat reached).mp every
    exact (kept earlier).step alone stepped allowed
  obtain ⟨followed, _, _, gone, tracked, minds⟩ := tidy
  have empty : tracked = [] := by
    have stands := minds.stands
    unfold MarketSimulator.standing at stands
    rw [withdrawn, Option.getD_some] at stands
    exact List.map_eq_nil_iff.mp stands
  intro entry member own
  have rests : desk.floor.exchange.engine.Rests ⟨account, entry.key.clientOrderId⟩ :=
    ⟨entry, member, congrArg (LiveKey.mk · entry.key.clientOrderId) own⟩
  have entered : (desk.floor.clients account).records entry.key.clientOrderId ≠ none := by
    intro absent
    have seen := rests_inView (followed.synced account alone).shown rests
    unfold InView at seen
    rw [absent] at seen
    exact seen rfl
  rcases minds.minded.covered _ entered with away | ⟨quoting, minded, _⟩
  · obtain ⟨cancel, sent, _⟩ := (minds.leaving _ away).cancelled rests
    unfold Client.commands at sent
    rw [taken] at sent
    cases sent
  · rw [empty] at minded
    cases minded

/-- One level a side, on instrument 3. -/
def quotedNarrowly : MarketSimulator := startSimulator {
  instrumentId := 3
  levelsPerSide := 1
  halfSpread := 1
  levelSpacing := 1
  quoteSize := 5
  requoteThreshold := 1 } 100

/-- One level a side is quoted, and both are withdrawn once they have moved; another account has sold into the bid. -/
def quotedAndWithdrawn : List (DeskAction SimulatorInput) :=
  [.act (.quote (.plan ⟨99, 0⟩)), .act (.quote (.drive true)), .act (.quote (.drive true)), .floor (.takeRequest 7),
    .floor (.takeRequest 7), .floor (.handleReport 7), .floor (.handleReport 7),
    .floor (.outside (.newOrder { limitOrder 1 .sell 98 2 .ioc with accountId := 8 })),
    .floor (.handleReport 7), .act (.quote (.plan ⟨102, 2⟩)), .act (.quote (.drive true)), .act (.quote (.drive true)),
    .floor (.takeRequest 7), .floor (.takeRequest 7), .floor (.handleReport 7), .floor (.handleReport 7), .act .join,
    .act (.withdraw true), .floor (.takeRequest 7), .act (.withdraw true), .floor (.takeRequest 7)]

def simulated (actions : List (DeskAction SimulatorInput)) : Option (Desk MarketSimulator) :=
  Transitions.run (Desk.step .machine (· == 7) 7 (marketSimulator .machine {}))
    (Desk.start .machine {} [3] [.cash 7 2000, .position 7 3 10, .position 8 3 10] quotedNarrowly) actions

/-- Both quotes rest at their new prices when the first is withdrawn. -/
theorem withdrawn_leaves_nothing_moved : ∃ desk, simulated quotedAndWithdrawn = some desk ∧
    ∀ entry ∈ desk.floor.exchange.engine.resting, entry.key.accountId ≠ 7 := by
  have comes : (simulated quotedAndWithdrawn).map
      (fun desk => (desk.memory.left, (desk.floor.clients 7).requests)) = some (some [], []) := by
    decide +kernel
  obtain ⟨desk, ran, ends⟩ := Option.map_eq_some_iff.mp comes
  obtain ⟨withdrawn, taken⟩ := Prod.mk.inj ends
  have settled : Transitions.checkThroughout (Desk.step .machine (· == 7) 7 (marketSimulator .machine {}))
      (WithdrawsSettled 7)
      (Desk.start .machine {} [3] [.cash 7 2000, .position 7 3 10, .position 8 3 10] quotedNarrowly)
      quotedAndWithdrawn = true := by
    decide +kernel
  exact ⟨desk, ran, withdrawn_leaves_nothing rfl ran (Transitions.throughout_of_check settled) withdrawn taken⟩

end Runs

end Simulator

end Mdh.Trader
