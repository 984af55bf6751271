import Mdh.Matching.OrderViews
import Mdh.Risk.HoldBacking

/-! What gets through the exchange's checks, at the gate and in the engine, read off the state before
the command: a command is carried out if it is admitted, and turned away under its subject's key if
it is not. -/

namespace Mdh.Risk
open Mdh.Core Mdh.Accounts Mdh.Matching Mdh.Matching.MatchingEngine

namespace RiskGatedEngine
variable (round : Rounding) (gated : RiskGatedEngine)

/-- The order is live, on that instrument. -/
def Lists (key : LiveKey) (instrumentId : InstrumentId) : Prop :=
  (gated.engine.orders.lookup key).map OrderRef.instrumentId = some instrumentId

/-- The command passes every check. -/
def Admits : ExchangeCommand → Prop
  | .newOrder command => gated.Passes round (.newOrder command) ∧ gated.engine.newOrderError command = none
  | .cancelOrder command => gated.Lists ⟨command.accountId, command.clientOrderId⟩ command.instrumentId
  | .replaceOrder command => gated.Passes round (.replaceOrder command) ∧ 0 < command.newPrice ∧ command.newQuantity ≠ 0 ∧
      gated.Lists (originalKey command) command.instrumentId

instance : DecidablePred (gated.Admits round) := fun command =>
  match command with
  | .newOrder _ => inferInstanceAs (Decidable (_ = _ ∧ _ = _))
  | .cancelOrder _ => inferInstanceAs (Decidable (_ = _))
  | .replaceOrder _ => inferInstanceAs (Decidable (_ = _ ∧ _ ∧ _ ∧ _ = _))

variable {gated}

theorem Lists.found {key : LiveKey} {instrumentId : InstrumentId} (lists : gated.Lists key instrumentId) :
    ∃ ref, gated.engine.orders.lookup key = some ref ∧ ref.instrumentId = instrumentId :=
  Option.map_eq_some_iff.mp lists

theorem Lists.known (sound : gated.engine.Sound) {key : LiveKey} {instrumentId : InstrumentId}
    (lists : gated.Lists key instrumentId) : gated.engine.knowsInstrument instrumentId = true := by
  obtain ⟨ref, found, rfl⟩ := lists.found
  obtain ⟨placed, located⟩ := sound.locate found
  exact located.known

/-- A new order is turned away, or admitted and carried out. -/
theorem process_newOrder_admits (sound : gated.engine.Sound) (command : NewOrderCommand) :
    ¬ gated.Admits round (.newOrder command) ∧
        gated.TurnsAway (.newOrder command) (gated.process round (.newOrder command)) ∨
      gated.Admits round (.newOrder command) ∧
        gated.process round (.newOrder command) = gated.forward round (.newOrder command) ∧
        Takes gated.engine (.newOrder command) (gated.engine.process (.newOrder command)) := by
  unfold Admits Passes
  simp only [process]
  split_ifs with known refused
  · exact Or.inl ⟨fun admitted => refused admitted.1, ⟨_, rfl, rfl⟩, rfl, rfl⟩
  · rcases process_paths sound (.newOrder command) with declined | taken
    · refine Or.inl ⟨fun admitted => ?_, forward_declined round declined⟩
      obtain ⟨rejection, events, _⟩ := declined.events
      have out : gated.engine.process (.newOrder command) = acceptNewOrder command { engine := gated.engine } := by
        show processNewOrder command { engine := gated.engine } = _
        unfold processNewOrder
        rw [admitted.2]
      obtain ⟨later, told, _⟩ := matchThenRest_first command.commandSequence (newOrderOf command gated.engine)
        (({ engine := gated.engine } : Step).numbered.sink (acceptedEvent command gated.engine.nextExchangeOrderId)) rfl (by rintro _ ⟨⟩)
      rw [out, acceptNewOrder_eq, told] at events
      cases (List.cons.inj events).1
    · refine Or.inr ⟨⟨not_not.mp refused, ?_⟩, rfl, taken⟩
      generalize gated.engine.process (.newOrder command) = after at taken
      cases taken with
      | accepts valid => exact valid
  · exact Or.inl ⟨fun admitted => known (newOrderError_eq_none admitted.2).1, ⟨_, rfl, rfl⟩, rfl, rfl⟩

/-- A cancel is turned down, or admitted and carried out. -/
theorem process_cancel_admits (sound : gated.engine.Sound) (command : CancelOrderCommand) :
    ¬ gated.Admits round (.cancelOrder command) ∧
        gated.TurnsAway (.cancelOrder command) (gated.process round (.cancelOrder command)) ∨
      gated.Admits round (.cancelOrder command) ∧
        gated.process round (.cancelOrder command) = gated.forward round (.cancelOrder command) ∧
        Takes gated.engine (.cancelOrder command) (gated.engine.process (.cancelOrder command)) := by
  by_cases lists : gated.Lists ⟨command.accountId, command.clientOrderId⟩ command.instrumentId
  · obtain ⟨ref, found, same⟩ := lists.found
    obtain ⟨placed, located⟩ := sound.locate found
    exact Or.inr ⟨lists, rfl, .cancels ⟨found, same, located⟩⟩
  · rcases process_paths sound (.cancelOrder command) with declined | taken
    · exact Or.inl ⟨lists, forward_declined round declined⟩
    · generalize gated.engine.process (.cancelOrder command) = after at taken
      cases taken with
      | cancels cancels => exact absurd (Option.map_eq_some_iff.mpr ⟨_, cancels.found, cancels.same⟩) lists

/-- A replacement is turned away, or admitted and carried out. -/
theorem process_replaceOrder_admits (sound : gated.engine.Sound) (command : ReplaceOrderCommand) :
    ¬ gated.Admits round (.replaceOrder command) ∧
        gated.TurnsAway (.replaceOrder command) (gated.process round (.replaceOrder command)) ∨
      gated.Admits round (.replaceOrder command) ∧
        gated.process round (.replaceOrder command) = gated.forward round (.replaceOrder command) ∧
        Takes gated.engine (.replaceOrder command) (gated.engine.process (.replaceOrder command)) := by
  unfold Admits Passes
  simp only [process]
  split_ifs with known refused
  · exact Or.inl ⟨fun admitted => refused admitted.1, ⟨_, rfl, rfl⟩, rfl, rfl⟩
  · by_cases valid : 0 < command.newPrice ∧ command.newQuantity ≠ 0 ∧ gated.Lists (originalKey command) command.instrumentId
    · obtain ⟨price, quantity, lists⟩ := valid
      obtain ⟨ref, found, same⟩ := lists.found
      obtain ⟨placed, located⟩ := sound.locate found
      have replaces : Replaces command gated.engine ref placed := ⟨price, quantity, found, same, located⟩
      have out : gated.engine.process (.replaceOrder command) = _ := processReplace_eq { engine := gated.engine } replaces
      refine Or.inr ⟨⟨not_not.mp refused, price, quantity, lists⟩, rfl, ?_⟩
      rw [out]
      split_ifs with preserves
      · exact .replacesInPlace replaces preserves
      · exact .replacesByNew replaces
    · rcases process_paths sound (.replaceOrder command) with declined | taken
      · exact Or.inl ⟨fun admitted => valid admitted.2, forward_declined round declined⟩
      · have lists {ref : OrderRef} {placed : Placed} (replaces : Replaces command gated.engine ref placed) :
            gated.Lists (originalKey command) command.instrumentId :=
          Option.map_eq_some_iff.mpr ⟨ref, replaces.found, replaces.same⟩
        generalize gated.engine.process (.replaceOrder command) = after at taken
        cases taken with
        | replacesInPlace replaces _ => exact absurd ⟨replaces.price, replaces.quantity, lists replaces⟩ valid
        | replacesByNew replaces => exact absurd ⟨replaces.price, replaces.quantity, lists replaces⟩ valid
  · exact Or.inl ⟨fun admitted => known (admitted.2.2.2.known sound), ⟨_, rfl, rfl⟩, rfl, rfl⟩

/-- Every command is turned away, or admitted and carried out. -/
theorem process_admits (sound : gated.engine.Sound) (command : ExchangeCommand) :
    ¬ gated.Admits round command ∧ gated.TurnsAway command (gated.process round command) ∨
      gated.Admits round command ∧ gated.process round command = gated.forward round command ∧
        Takes gated.engine command (gated.engine.process command) := by
  cases command with
  | newOrder command => exact process_newOrder_admits round sound command
  | cancelOrder command => exact process_cancel_admits round sound command
  | replaceOrder command => exact process_replaceOrder_admits round sound command

/-- Every event of a command goes to the ledger, a rejection to no effect. -/
theorem process_ledger (command : ExchangeCommand) :
    (gated.process round command).gated.ledger =
      (gated.process round command).events.foldl (Ledger.apply round) gated.ledger := by
  rcases gated.process_cases round command with ⟨rejection, _, turned⟩ | ⟨_, forwarded⟩
  · rw [turned]
    rfl
  · rw [forwarded]
    rfl

end RiskGatedEngine

end Mdh.Risk
