import Mdh.Matching.OrderEndings
import Mdh.Risk.HoldCoverage

/-! No hold without a live order: a hold goes, or moves to another key, under the events that end
its order or move it, and only an accepted order or the replacement of a held one gets one. -/

namespace Mdh.Risk
open Mdh.Core Mdh.Lib Mdh.Matching Mdh.Matching.MatchingEngine Mdh.Accounts

/-- Every hold is for one of these orders. -/
def HoldsWithin (among : LiveKey → Prop) (ledger : Ledger) : Prop :=
  ∀ key ∈ ledger.holds, among ⟨key.accountId, key.clientOrderId⟩

section Events
variable (round : Rounding) {among : LiveKey → Prop} {ledger : Ledger}

theorem HoldsWithin.imp {other : LiveKey → Prop} (within : HoldsWithin among ledger)
    (implied : ∀ key, among key → other key) : HoldsWithin other ledger :=
  fun key held => implied _ (within key held)

theorem HoldsWithin.openHold (within : HoldsWithin among ledger) {accountId : AccountId} {clientOrderId : ClientOrderId}
    (opened : among ⟨accountId, clientOrderId⟩) (instrumentId : InstrumentId) (side : Side) (limitPrice : Int)
    (quantity : Nat) :
    HoldsWithin among (ledger.openHold round accountId clientOrderId instrumentId side limitPrice quantity) := by
  unfold Ledger.openHold
  split_ifs
  · exact within
  · intro key held
    rcases (AList.mem_insert _).mp held with rfl | before
    · exact opened
    · exact within key before

/-- Releasing and erasing a hold leaves the others. -/
theorem HoldsWithin.release (within : HoldsWithin among ledger) (accountId : AccountId) (hold : Hold) (key : HoldKey) :
    HoldsWithin (fun other => other ≠ ⟨key.accountId, key.clientOrderId⟩ ∧ among other)
      ((ledger.releaseHoldFully round accountId hold).eraseHold key) := by
  intro other held
  obtain ⟨different, before⟩ := AList.mem_erase.mp held
  rw [releaseHoldFully_holds] at before
  refine ⟨fun same => different ?_, within other before⟩
  cases key
  cases other
  cases same
  rfl

/-- A leg that is filled completely gives up its hold, and no leg gets one. -/
theorem HoldsWithin.settleLeg (within : HoldsWithin among ledger) (leg : TradeCounterparty) (side : Side)
    (instrumentId : InstrumentId) (tradePrice : Int) (tradeQuantity : Nat) :
    HoldsWithin (fun key => ¬ (key = partyKey leg ∧ leg.remainingQuantity = 0) ∧ among key)
      (ledger.settleLeg round leg side instrumentId tradePrice tradeQuantity) := by
  have same : (ledger.settleLeg round leg side instrumentId tradePrice tradeQuantity).holds =
    ((ledger.accountRef leg.accountId id).shrinkHold round leg side instrumentId tradeQuantity).holds := rfl
  unfold HoldsWithin
  rw [same]
  unfold Ledger.shrinkHold
  dsimp only
  cases found : (ledger.accountRef leg.accountId id).holds.lookup ⟨leg.accountId, leg.clientOrderId⟩ with
  | none =>
    intro key held
    refine ⟨fun ⟨own, _⟩ => ?_, within key held⟩
    obtain ⟨account, id⟩ := key
    cases own
    exact absurd held (AList.lookup_eq_none.mp found)
  | some hold =>
    dsimp only
    split_ifs with done
    · intro key held
      obtain ⟨different, before⟩ := AList.mem_erase.mp held
      refine ⟨fun ⟨own, _⟩ => different ?_, within key before⟩
      obtain ⟨account, id⟩ := key
      cases own
      rfl
    · intro key held
      refine ⟨fun ⟨_, filled⟩ => done filled, ?_⟩
      rcases (AList.mem_insert _).mp held with rfl | before
      · exact within _ (AList.lookup_isSome.mp (by rw [show ledger.holds.lookup _ = _ from found]; rfl))
      · exact within key before

/-- The key of an order before an event that leaves it this key. -/
def cameFrom (among : LiveKey → Prop) (event : ExchangeEvent) (key : LiveKey) : Prop :=
  ∃ before, among before ∧ keyAfter before event = some key

/-- The holds follow the orders through an event. -/
theorem HoldsWithin.apply (within : HoldsWithin among ledger) {event : ExchangeEvent}
    (brought : ∀ accepted, event = .orderAccepted accepted → among ⟨accepted.accountId, accepted.clientOrderId⟩) :
    HoldsWithin (cameFrom among event) (Ledger.apply round ledger event) := by
  cases event with
  | orderAccepted event =>
    show HoldsWithin _ (ledger.onOrderAccepted round event)
    have same : HoldsWithin among (ledger.onOrderAccepted round event) := by
      unfold Ledger.onOrderAccepted
      split_ifs
      · exact within
      · exact within.openHold round (brought event rfl) _ _ _ _
    exact same.imp fun key chosen => ⟨key, chosen, rfl⟩
  | orderCancelled event =>
    show HoldsWithin _ (ledger.onOrderCancelled round event)
    unfold Ledger.onOrderCancelled
    dsimp only
    cases found : ledger.holds.lookup ⟨event.accountId, event.clientOrderId⟩ with
    | none =>
      intro key held
      refine ⟨_, within key held, if_neg fun own => ?_⟩
      obtain ⟨account, id⟩ := key
      cases own
      exact absurd held (AList.lookup_eq_none.mp found)
    | some hold => exact (within.release round event.accountId hold _).imp fun key ⟨other, chosen⟩ => ⟨key, chosen, if_neg other⟩
  | orderReplaced event =>
    show HoldsWithin _ (ledger.onOrderReplaced round event)
    unfold Ledger.onOrderReplaced
    dsimp only
    cases found : ledger.holds.lookup ⟨event.accountId, event.originalClientOrderId⟩ with
    | none =>
      intro key held
      refine ⟨_, within key held, if_neg fun own => ?_⟩
      obtain ⟨account, id⟩ := key
      cases own
      exact absurd held (AList.lookup_eq_none.mp found)
    | some hold =>
      have others : HoldsWithin (cameFrom among (.orderReplaced event)) _ :=
        (within.release round event.accountId hold ⟨event.accountId, event.originalClientOrderId⟩).imp
          fun key ⟨other, chosen⟩ => ⟨key, chosen, if_neg other⟩
      have there : among ⟨event.accountId, event.originalClientOrderId⟩ :=
        within ⟨event.accountId, event.originalClientOrderId⟩ (AList.lookup_isSome.mp (by rw [found]; rfl))
      exact others.openHold round ⟨_, there, if_pos rfl⟩ _ _ _ _
  | tradeExecuted event =>
    have both := (within.settleLeg round event.buyer .buy event.instrumentId event.price event.quantity).settleLeg round
      event.seller .sell event.instrumentId event.price event.quantity
    exact both.imp fun key ⟨seller, buyer, chosen⟩ => ⟨key, chosen, if_neg (not_or.mpr ⟨buyer, seller⟩)⟩
  | orderRejected | bookOrderAdded | bookOrderReduced | bookOrderRemoved =>
    exact within.imp fun key chosen => ⟨key, chosen, rfl⟩

theorem HoldsWithin.applyAll (within : HoldsWithin among ledger) {events : List ExchangeEvent}
    (quiet : ∀ event ∈ events, announced event = none) :
    HoldsWithin (fun key => ∃ before, among before ∧ keyAfterAll before events = some key)
      (events.foldl (Ledger.apply round) ledger) := by
  induction events generalizing ledger among with
  | nil => exact within.imp fun key chosen => ⟨key, chosen, rfl⟩
  | cons event rest ih =>
    have next : HoldsWithin (cameFrom among event) (Ledger.apply round ledger event) :=
      within.apply round fun accepted same => by
        have none := quiet event List.mem_cons_self
        rw [same] at none
        cases none
    refine (ih next fun other member => quiet other (List.mem_cons_of_mem _ member)).imp ?_
    rintro key ⟨between, ⟨before, chosen, here⟩, later⟩
    exact ⟨before, chosen, by rw [keyAfterAll, here]; exact later⟩

end Events

/-- Every hold is for an order that rests. -/
def HoldsRest (gated : RiskGatedEngine) : Prop := HoldsWithin gated.engine.Rests gated.ledger

theorem HoldsRest.found {gated : RiskGatedEngine} (rest : HoldsRest gated) {accountId : AccountId}
    {clientOrderId : ClientOrderId} (held : (gated.ledger.findHold accountId clientOrderId).isSome) :
    gated.engine.Rests ⟨accountId, clientOrderId⟩ := by
  unfold Ledger.findHold at held
  rw [Option.isSome_map] at held
  exact rest ⟨accountId, clientOrderId⟩ (AList.lookup_isSome.mp held)

theorem start_holdsRest (round : Rounding) (limits : RiskLimits) (instruments : List InstrumentId)
    (deposits : List Deposit) : HoldsRest (RiskGatedEngine.start round limits instruments deposits) := by
  intro key held
  rw [show (RiskGatedEngine.start round limits instruments deposits).ledger.holds = ∅ from
    seeded_holds round deposits] at held
  exact absurd held (AList.notMem_empty key)

namespace RiskGatedEngine
variable (round : Rounding) {gated : RiskGatedEngine}

/-- A command turned down at the gate or by the engine: its rejection names its subject. -/
structure TurnsAway (gated : RiskGatedEngine) (command : ExchangeCommand) (after : GatedStep) : Prop where
  events : ∃ rejection : OrderRejected, after.events = [.orderRejected rejection] ∧
    (⟨rejection.accountId, rejection.clientOrderId⟩ : LiveKey) = subject command
  resting : after.gated.engine.resting = gated.engine.resting
  ledger : after.gated.ledger = gated.ledger

theorem process_cases_subject (command : ExchangeCommand) :
    gated.TurnsAway command (gated.process round command) ∨
      gated.process round command = gated.forward round command := by
  cases command with
  | cancelOrder command => exact Or.inr rfl
  | newOrder command =>
    simp only [process]
    split_ifs
    · exact Or.inl ⟨⟨_, rfl, rfl⟩, rfl, rfl⟩
    · exact Or.inr rfl
    · exact Or.inl ⟨⟨_, rfl, rfl⟩, rfl, rfl⟩
  | replaceOrder command =>
    simp only [process]
    split_ifs
    · exact Or.inl ⟨⟨_, rfl, rfl⟩, rfl, rfl⟩
    · exact Or.inr rfl
    · exact Or.inl ⟨⟨_, rfl, rfl⟩, rfl, rfl⟩

/-- A command that the engine turns down leaves the ledger alone. -/
theorem forward_declined {command : ExchangeCommand} (declined : Declined gated.engine command (gated.engine.process command)) :
    gated.TurnsAway command (gated.forward round command) := by
  obtain ⟨rejection, events, named⟩ := declined.events
  refine ⟨⟨rejection, events, named⟩, declined.resting, ?_⟩
  show (gated.engine.process command).events.foldl (Ledger.apply round) gated.ledger = gated.ledger
  rw [events]
  rfl

/-- Every command is turned away under its subject's key, or tells the ends of orders. -/
theorem process_endsTold (sound : gated.engine.Sound) (command : ExchangeCommand)
    (whole : gated.CarriesOut round command → gated.engine.FillsWhole command) :
    gated.TurnsAway command (gated.process round command) ∨
      EndsTold gated.engine command
          { engine := (gated.process round command).gated.engine, events := (gated.process round command).events } ∧
        (gated.process round command).gated.ledger =
          (gated.process round command).events.foldl (Ledger.apply round) gated.ledger := by
  rcases process_cases_subject round command with turned | forwarded
  · exact Or.inl turned
  · rw [forwarded]
    have fills : (∀ event ∈ (gated.engine.process command).events, ¬ IsRejection event) → gated.engine.FillsWhole command := by
      intro carried
      refine whole ?_
      unfold CarriesOut
      rw [forwarded]
      exact carried
    rcases MatchingEngine.process_endsTold sound command fills with declined | told
    · exact Or.inl (forward_declined round declined)
    · exact Or.inr ⟨told, rfl⟩

theorem process_sound (sound : gated.engine.Sound) (command : ExchangeCommand) :
    (gated.process round command).gated.engine.Sound := by
  rcases gated.process_cases round command with ⟨rejection, _, turned⟩ | ⟨_, forwarded⟩
  · rw [turned]
    exact sound.renumbered _ _ _ le_rfl
  · rw [forwarded]
    exact dispatch_sound { engine := gated.engine } sound command

theorem run_sound (sound : gated.engine.Sound) (commands : List ExchangeCommand) :
    (gated.run round commands).engine.Sound :=
  List.foldlRecOn (motive := fun gated : RiskGatedEngine => gated.engine.Sound) commands _ sound
    fun _ sound command _ => process_sound round sound command

/-- The holds of the live orders are those of live orders after every command. -/
theorem process_holdsRest (sound : gated.engine.Sound) (rest : HoldsRest gated) (command : ExchangeCommand)
    (whole : gated.CarriesOut round command → gated.engine.FillsWhole command) :
    HoldsRest (gated.process round command).gated := by
  rcases process_endsTold round sound command whole with turned | ⟨told, ledger⟩
  · unfold HoldsRest
    rw [turned.ledger]
    refine rest.imp fun key ⟨entry, member, same⟩ => ⟨entry, ?_, same⟩
    rw [turned.resting]
    exact member
  · obtain ⟨event, later, events, _, accepted, _, quiet⟩ := told.first
    have before : HoldsWithin (fun key => gated.engine.Rests key ∨ key = subject command) gated.ledger :=
      rest.imp fun key => Or.inl
    have first := before.apply round fun order same => Or.inr (accepted order same).symm
    have all := first.applyAll round fun event member => (quiet event member).1
    have same : (gated.process round command).events = event :: later := events
    unfold HoldsRest
    rw [ledger, same]
    refine all.imp ?_
    rintro key ⟨between, ⟨origin, lives, here⟩, after⟩
    refine told.rests origin key lives ?_
    rw [events, keyAfterAll, here]
    exact after

end RiskGatedEngine

end Mdh.Risk
