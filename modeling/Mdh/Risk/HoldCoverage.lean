import Mdh.Matching.OrderTracking
import Mdh.Risk.HoldAgreement

/-! Every live order has a hold, however balances are rounded: rounding never touches a hold,
so that the holds are those of a ledger that is in step with the engine. -/

namespace Mdh.Risk
open Mdh.Core Mdh.Lib Mdh.Matching Mdh.Matching.MatchingEngine Mdh.Accounts

section Rounding
variable (round other : Rounding) {ledger twin : Ledger}

theorem releaseHoldFully_holds (ledger : Ledger) (accountId : AccountId) (hold : Hold) :
    (ledger.releaseHoldFully round accountId hold).holds = ledger.holds := by
  unfold Ledger.releaseHoldFully
  split_ifs <;> rfl

theorem openHold_holds (same : ledger.holds = twin.holds) (accountId : AccountId) (clientOrderId : ClientOrderId)
    (instrumentId : InstrumentId) (side : Side) (limitPrice : Int) (quantity : Nat) :
    (ledger.openHold round accountId clientOrderId instrumentId side limitPrice quantity).holds =
      (twin.openHold other accountId clientOrderId instrumentId side limitPrice quantity).holds := by
  unfold Ledger.openHold
  split_ifs
  · exact same
  · exact congrArg (fun holds => AList.insert _ _ holds) same

theorem settleLeg_holds (same : ledger.holds = twin.holds) (leg : TradeCounterparty) (side : Side)
    (instrumentId : InstrumentId) (tradePrice : Int) (tradeQuantity : Nat) :
    (ledger.settleLeg round leg side instrumentId tradePrice tradeQuantity).holds =
      (twin.settleLeg other leg side instrumentId tradePrice tradeQuantity).holds := by
  show ((ledger.accountRef leg.accountId id).shrinkHold round leg side instrumentId tradeQuantity).holds =
    ((twin.accountRef leg.accountId id).shrinkHold other leg side instrumentId tradeQuantity).holds
  have kept : (ledger.accountRef leg.accountId id).holds = (twin.accountRef leg.accountId id).holds := same
  unfold Ledger.shrinkHold
  dsimp only
  rw [kept]
  cases (twin.accountRef leg.accountId id).holds.lookup ⟨leg.accountId, leg.clientOrderId⟩ with
  | none => exact kept
  | some hold =>
    dsimp only
    split_ifs
    · exact congrArg (fun holds => AList.erase _ holds) kept
    · exact congrArg (fun holds => AList.insert _ _ holds) kept

/-- What an event does to the holds depends on the holds alone. -/
theorem apply_holds (same : ledger.holds = twin.holds) (event : ExchangeEvent) :
    (Ledger.apply round ledger event).holds = (Ledger.apply other twin event).holds := by
  cases event with
  | orderAccepted event =>
    show (ledger.onOrderAccepted round event).holds = (twin.onOrderAccepted other event).holds
    unfold Ledger.onOrderAccepted
    split_ifs
    · exact same
    · exact openHold_holds round other same ..
  | orderCancelled event =>
    show (ledger.onOrderCancelled round event).holds = (twin.onOrderCancelled other event).holds
    unfold Ledger.onOrderCancelled
    dsimp only
    rw [same]
    cases twin.holds.lookup ⟨event.accountId, event.clientOrderId⟩ with
    | none => exact same
    | some hold =>
      show AList.erase _ _ = AList.erase _ _
      rw [releaseHoldFully_holds, releaseHoldFully_holds, same]
  | orderReplaced event =>
    show (ledger.onOrderReplaced round event).holds = (twin.onOrderReplaced other event).holds
    unfold Ledger.onOrderReplaced
    dsimp only
    rw [same]
    cases twin.holds.lookup ⟨event.accountId, event.originalClientOrderId⟩ with
    | none => exact same
    | some hold =>
      refine openHold_holds round other ?_ ..
      show AList.erase _ _ = AList.erase _ _
      rw [releaseHoldFully_holds, releaseHoldFully_holds, same]
  | tradeExecuted event => exact settleLeg_holds round other (settleLeg_holds round other same ..) ..
  | orderRejected | bookOrderAdded | bookOrderReduced | bookOrderRemoved => exact same

theorem applyAll_holds (same : ledger.holds = twin.holds) (events : List ExchangeEvent) :
    (events.foldl (Ledger.apply round) ledger).holds = (events.foldl (Ledger.apply other) twin).holds := by
  induction events generalizing ledger twin with
  | nil => exact same
  | cons event rest ih => exact ih (apply_holds round other same event)

end Rounding

/-- The holds are those of a ledger that is in step with the engine. -/
def LiveCovered (gated : RiskGatedEngine) : Prop :=
  ∃ twin : Ledger, gated.ledger.holds = twin.holds ∧ InStep gated.engine twin

section LiveCovered
variable {gated : RiskGatedEngine}

theorem LiveCovered.sound (covered : LiveCovered gated) : gated.engine.Sound := by
  obtain ⟨twin, _, inStep⟩ := covered
  exact inStep.sound

theorem LiveCovered.matched (covered : LiveCovered gated) : gated.engine.Matched := by
  obtain ⟨twin, _, inStep⟩ := covered
  exact inStep.matched

/-- A live order has a hold under its key. -/
theorem LiveCovered.findHold (covered : LiveCovered gated) {entry : Resting} (rested : entry ∈ gated.engine.resting) :
    (gated.ledger.findHold entry.key.accountId entry.key.clientOrderId).isSome := by
  obtain ⟨twin, same, inStep⟩ := covered
  have reserved : reservationOf entry ∈ twin.reservations :=
    inStep.holds.mem_iff.mpr (List.mem_map_of_mem rested)
  have found := (mem_reservations twin (reservationOf entry)).mp reserved
  unfold Ledger.findHold
  rw [same, Option.isSome_map]
  exact Option.isSome_iff_exists.mpr ⟨_, found⟩

/-- Deposits open no hold. -/
theorem seeded_holds (round : Rounding) (deposits : List Deposit) : (seeded round deposits).holds = ∅ := by
  refine List.foldlRecOn (motive := fun ledger : Ledger => ledger.holds = ∅) deposits _ rfl
    fun ledger empty deposit _ => ?_
  cases deposit <;> exact empty

theorem start_covered (round : Rounding) (limits : RiskLimits) (instruments : List InstrumentId)
    (deposits : List Deposit) : LiveCovered (RiskGatedEngine.start round limits instruments deposits) :=
  ⟨seeded .exact deposits, (seeded_holds round deposits).trans (seeded_holds .exact deposits).symm,
    start_inStep limits instruments deposits⟩

theorem FreeId.fresh {engine : MatchingEngine} (sound : engine.Sound) (matched : engine.Matched)
    {command : ExchangeCommand} (free : engine.FreeId command) : FreshId engine command := by
  cases command with
  | newOrder command => trivial
  | cancelOrder command => trivial
  | replaceOrder command => exact fun entry member same => free.own sound matched member same

end LiveCovered

namespace RiskGatedEngine
variable (round : Rounding) {gated : RiskGatedEngine}

/-- No event of the command is a rejection. -/
def CarriesOut (gated : RiskGatedEngine) (command : ExchangeCommand) : Prop :=
  ∀ event ∈ (gated.process round command).events, ¬ IsRejection event

instance (command : ExchangeCommand) : Decidable (gated.CarriesOut round command) :=
  inferInstanceAs (Decidable (∀ event ∈ _, _))

/-- The command was turned down, at the gate or by the engine: one rejection, and no order and no
hold is touched. -/
structure Refuses (gated : RiskGatedEngine) (after : GatedStep) (rejection : OrderRejected) : Prop where
  events : after.events = [.orderRejected rejection]
  resting : after.gated.engine.resting = gated.engine.resting
  numbers : after.gated.engine.nextExchangeOrderId = gated.engine.nextExchangeOrderId
  covered : LiveCovered after.gated

/-- Every command is refused or, with a free id, carried out as its events tell, and the live orders
keep their holds. -/
theorem process_traced (link : Nat → Nat → Prop) (held : LiveKey → Prop) (gone : Nat → Prop) (covered : LiveCovered gated)
    (command : ExchangeCommand) (free : gated.CarriesOut round command → gated.engine.FreeId command) :
    (∃ rejection, gated.Refuses (gated.process round command) rejection) ∨
      gated.CarriesOut round command ∧ LiveCovered (gated.process round command).gated ∧
        Traced link held gone gated.engine command
          { engine := (gated.process round command).gated.engine, events := (gated.process round command).events } := by
  obtain ⟨twin, same, inStep⟩ := covered
  rcases gated.process_cases round command with ⟨rejection, _, turned⟩ | ⟨_, forwarded⟩
  · rw [turned]
    refine Or.inl ⟨_, rfl, rfl, rfl, twin, same, ?_⟩
    exact ⟨inStep.sound.renumbered _ _ _ le_rfl, inStep.matched, inStep.holds, inStep.backed⟩
  · rcases dispatch_outcome { engine := gated.engine } command with ⟨rejection, down⟩ | ⟨later, emits⟩
    · have events : (gated.engine.process command).events = [.orderRejected rejection] := down.events
      have engine : (gated.engine.process command).engine =
          { gated.engine with nextEventSequence := gated.engine.nextEventSequence + 1 } := down.engine
      rw [forwarded]
      unfold forward
      dsimp only
      rw [events, engine]
      refine Or.inl ⟨rejection, rfl, rfl, rfl, twin, same, ?_⟩
      exact ⟨inStep.sound.renumbered _ _ _ le_rfl, inStep.matched, inStep.holds, inStep.backed⟩
    · have carried : gated.CarriesOut round command := by
        unfold CarriesOut
        rw [forwarded]
        intro event member
        have events : (gated.engine.process command).events = later := emits.events
        exact emits.kinds event (events ▸ member)
      have fresh := FreeId.fresh inStep.sound inStep.matched (free carried)
      have after := dispatch_forwarded inStep command fresh
      have matched := (process_matched_iff inStep.sound inStep.matched command).mpr
        (fresh.takesNone inStep.sound inStep.matched)
      have sound := dispatch_sound { engine := gated.engine } inStep.sound command
      refine Or.inr ⟨carried, ?_, ?_⟩
      · rw [forwarded]
        exact ⟨_, applyAll_holds round .exact same _, sound, matched, after.holds, after.backed⟩
      · rcases MatchingEngine.process_traced link held gone inStep.sound inStep.matched command (free carried) with
          ⟨rejection, down⟩ | traced
        · have events : (gated.engine.process command).events = [.orderRejected rejection] := down.events
          have rejected : ExchangeEvent.orderRejected rejection ∈ (gated.process round command).events := by
            rw [forwarded]
            show _ ∈ (gated.engine.process command).events
            rw [events]
            exact List.mem_singleton_self _
          exact absurd trivial (carried _ rejected)
        · rw [forwarded]
          exact traced

end RiskGatedEngine

end Mdh.Risk
