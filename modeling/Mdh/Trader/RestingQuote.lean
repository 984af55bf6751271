import Mdh.Trader.StrategyDesk

/-! One resting quote on one side of one instrument, kept at a desired price: it submits, holds,
replaces, cancels or submits again, and remembers the id of the order it takes for its own. -/

namespace Mdh.Trader
open Mdh.Core Mdh.Gateway

def absDiff (a b : Int) : Int := if a > b then a - b else b - a

/-- The order that a quote has, unless it is done with that. -/
def workingOrder (client : Client) (orderId : Option ClientOrderId) : Option (ClientOrderId × ClientOrder) :=
  orderId.bind fun id =>
    ((TraderRiskGatedOms.order client id).filter fun order => ¬ order.state.isTerminal).map (id, ·)

/-- Drives a quote toward a price, or withdraws it, with at most one request. Gives the id of the
order it then has, and whether it asked for anything. An order that is close enough is left alone. -/
def requote (round : Rounding) (limits : TraderRiskLimits) (close : ClientOrder → Int → Bool) (instrumentId : InstrumentId)
    (side : Side) (size : Nat) (client : Client) (orderId : Option ClientOrderId) (desiredPrice : Option Int)
    (sent : Bool) : Client × Option ClientOrderId × Bool :=
  match workingOrder client orderId with
  | some (id, order) =>
      if order.state = .pendingNew ∨ order.pendingAction ≠ .none then (client, some id, false)
      else
        match desiredPrice with
        | none =>
            let (client, requested) := TraderRiskGatedOms.cancelOrder client id sent
            (client, some id, requested)
        | some price =>
            if close order price then (client, some id, false)
            else
              -- A replacement that did not go out leaves the quote with its order.
              match TraderRiskGatedOms.replaceOrder client id price size sent with
              | (client, some newId) => (client, some newId, true)
              | (client, none) => (client, some id, false)
  | none =>
      match desiredPrice with
      | none => (client, none, false)
      | some price =>
          let (client, newId) :=
            TraderRiskGatedOms.submitNewOrder round limits client instrumentId side price size .limit .gtc sent
          (client, newId, newId.isSome)

structure RestingQuote where
  instrumentId : InstrumentId
  side : Side
  size : Nat
  requoteThreshold : Int
  orderId : Option ClientOrderId := none
  deriving DecidableEq, Repr

namespace RestingQuote

/-- An order of the right size that is priced near enough keeps its place in the queue. -/
def close (quote : RestingQuote) (order : ClientOrder) (desiredPrice : Int) : Bool :=
  absDiff order.price desiredPrice < quote.requoteThreshold ∧ order.remainingQuantity = quote.size

def update (round : Rounding) (limits : TraderRiskLimits) (quote : RestingQuote) (client : Client)
    (desiredPrice : Option Int) (sent : Bool) : Client × RestingQuote × Bool :=
  let (client, orderId, requested) := requote round limits quote.close quote.instrumentId quote.side quote.size client
    quote.orderId desiredPrice sent
  (client, { quote with orderId }, requested)

end RestingQuote

section Outcomes
variable {round : Rounding} {limits : TraderRiskLimits} {close : ClientOrder → Int → Bool} {instrumentId : InstrumentId}
  {side : Side} {size : Nat} {client : Client} {orderId : Option ClientOrderId}

/-- The quote has no order, or is done with the one it had. -/
def Finished (client : Client) (orderId : Option ClientOrderId) : Prop :=
  ∀ id ∈ orderId, ∀ order, client.oms.orders id = some order → order.state.isTerminal = true

theorem finished_of_workingOrder (idle : workingOrder client orderId = none) : Finished client orderId := by
  intro id known order found
  unfold workingOrder at idle
  rw [Option.mem_def.mp known, Option.bind_some, Option.map_eq_none_iff, Option.filter_eq_none_iff] at idle
  have dropped := idle order found
  rw [decide_eq_true_eq, not_not] at dropped
  exact dropped

theorem workingOrder_eq_some {id : ClientOrderId} {order : ClientOrder}
    (working : workingOrder client orderId = some (id, order)) :
    orderId = some id ∧ client.oms.orders id = some order ∧ order.state.isTerminal = false := by
  unfold workingOrder at working
  obtain ⟨known, same, entered⟩ := Option.bind_eq_some_iff.mp working
  obtain ⟨found, kept, paired⟩ := Option.map_eq_some_iff.mp entered
  obtain ⟨rfl, rfl⟩ := Prod.mk.inj paired
  obtain ⟨there, unfinished⟩ := Option.filter_eq_some_iff.mp kept
  rw [decide_eq_true_eq, Bool.not_eq_true] at unfinished
  exact ⟨same, there, unfinished⟩

theorem workingOrder_of_found {id : ClientOrderId} {order : ClientOrder} (known : orderId = some id)
    (found : client.oms.orders id = some order) (live : order.state.isTerminal = false) :
    workingOrder client orderId = some (id, order) := by
  have kept : (TraderRiskGatedOms.order client id).filter (fun order => ¬ order.state.isTerminal) = some order :=
    Option.filter_eq_some_iff.mpr ⟨found, decide_eq_true (by rw [live]; exact Bool.false_ne_true)⟩
  unfold workingOrder
  rw [known, Option.bind_some, kept]
  rfl

/-- An order that is neither pending nor done with may be worked, if nothing is pending for it. -/
theorem workable_of_working {id : ClientOrderId} {order : ClientOrder} (found : client.oms.orders id = some order)
    (unfinished : order.state.isTerminal = false) (settled : ¬ (order.state = .pendingNew ∨ order.pendingAction ≠ .none)) :
    client.oms.workable id = some order := by
  obtain ⟨entered, quiet⟩ := not_or.mp settled
  refine Option.filter_eq_some_iff.mpr ⟨found, decide_eq_true ⟨?_, not_not.mp quiet⟩⟩
  cases state : order.state with
  | pendingNew => exact absurd state entered
  | live | partiallyFilled => rfl
  | filled | rejected | cancelled | replaced => rw [state] at unfinished; cases unfinished

/-- What a requote makes of the trader and of the quote's order. -/
inductive Requoted (close : ClientOrder → Int → Bool) (instrumentId : InstrumentId) (side : Side) (size : Nat)
    (client : Client) (orderId : Option ClientOrderId) (sent : Bool) :
    Option Int → Client → Option ClientOrderId → Prop where
  | waits (id : ClientOrderId) (order : ClientOrder) (known : orderId = some id) (found : client.oms.orders id = some order)
      (held : order.state = .pendingNew ∨ order.pendingAction ≠ .none) (desiredPrice : Option Int) :
      Requoted close instrumentId side size client orderId sent desiredPrice client orderId
  | near (id : ClientOrderId) (order : ClientOrder) (known : orderId = some id) (found : client.oms.orders id = some order)
      (price : Int) (near : close order price = true) :
      Requoted close instrumentId side size client orderId sent (some price) client orderId
  | rests (finished : Finished client orderId) (desiredPrice : Option Int) :
      Requoted close instrumentId side size client orderId sent desiredPrice client none
  | submits (finished : Finished client orderId) (price : Int) :
      Requoted close instrumentId side size client orderId sent (some price)
        (client.call (.submitNewOrder instrumentId side price size .limit .gtc sent)) (some client.oms.nextClientOrderId)
  | cancels (id : ClientOrderId) (order : ClientOrder) (known : orderId = some id)
      (found : client.oms.workable id = some order) :
      Requoted close instrumentId side size client orderId sent none (client.call (.cancelOrder id sent)) orderId
  | replaces (id : ClientOrderId) (order : ClientOrder) (known : orderId = some id)
      (found : client.oms.workable id = some order) (price : Int) (goes : sent = true) :
      Requoted close instrumentId side size client orderId sent (some price)
        (client.call (.replaceOrder id price size sent)) (some client.oms.nextClientOrderId)
  | skips (id : ClientOrderId) (order : ClientOrder) (known : orderId = some id)
      (found : client.oms.workable id = some order) (price : Int) (fails : sent = false) :
      Requoted close instrumentId side size client orderId sent (some price)
        (client.call (.replaceOrder id price size sent)) orderId

theorem replaceOrder_gives {id : ClientOrderId} {order : ClientOrder} (found : client.oms.workable id = some order)
    (price : Int) (size : Nat) (sent : Bool) :
    (TraderRiskGatedOms.replaceOrder client id price size sent).2 =
      if sent then some client.oms.nextClientOrderId else none := by
  obtain ⟨_, sameNext⟩ := update_account client.oms id fun order => { order with pendingAction := .replace }
  unfold TraderRiskGatedOms.replaceOrder OrderManagementSystem.replaceOrder
  dsimp only
  rw [found]
  cases sent with
  | true => rfl
  | false => rfl

theorem requote_requoted (desiredPrice : Option Int) (sent : Bool) :
    Requoted close instrumentId side size client orderId sent desiredPrice
      (requote round limits close instrumentId side size client orderId desiredPrice sent).1
      (requote round limits close instrumentId side size client orderId desiredPrice sent).2.1 := by
  unfold requote
  cases working : workingOrder client orderId with
  | none =>
    have finished := finished_of_workingOrder working
    cases desiredPrice with
    | none => exact .rests finished _
    | some price =>
      dsimp only
      unfold TraderRiskGatedOms.submitNewOrder
      split_ifs with allowed
      · have entered : (client.oms.submitNewOrder instrumentId side price size .limit .gtc sent).2.1 =
            client.oms.nextClientOrderId := by
          cases sent <;> rfl
        dsimp only
        rw [entered]
        exact .submits finished price
      · exact .rests finished _
  | some worked =>
    obtain ⟨id, order⟩ := worked
    obtain ⟨rfl, found, unfinished⟩ := workingOrder_eq_some working
    dsimp only
    split_ifs with unsettled
    · exact .waits id order rfl found unsettled _
    · have free := workable_of_working found unfinished unsettled
      cases desiredPrice with
      | none => exact .cancels id order rfl free
      | some price =>
        dsimp only
        split_ifs with near
        · exact .near id order rfl found price near
        · have given := replaceOrder_gives free price size sent
          cases sent with
          | true =>
            have result : TraderRiskGatedOms.replaceOrder client id price size true =
                (client.call (.replaceOrder id price size true), some client.oms.nextClientOrderId) := Prod.ext rfl given
            rw [result]
            exact .replaces id order rfl free price rfl
          | false =>
            have result : TraderRiskGatedOms.replaceOrder client id price size false =
                (client.call (.replaceOrder id price size false), none) := Prod.ext rfl given
            rw [result]
            exact .skips id order rfl free price rfl

theorem RestingQuote.update_requoted (round : Rounding) (limits : TraderRiskLimits) (quote : RestingQuote) (client : Client)
    (desiredPrice : Option Int) (sent : Bool) :
    Requoted quote.close quote.instrumentId quote.side quote.size client quote.orderId sent desiredPrice
      (quote.update round limits client desiredPrice sent).1 (quote.update round limits client desiredPrice sent).2.1.orderId :=
  requote_requoted desiredPrice sent

theorem Requoted.calls {sent : Bool} {desiredPrice : Option Int} {after : Client} {new : Option ClientOrderId}
    (requoted : Requoted close instrumentId side size client orderId sent desiredPrice after new) :
    ∃ calls : List Call, after = calls.foldl Client.call client := by
  cases requoted with
  | waits | near | rests => exact ⟨[], rfl⟩
  | submits finished price => exact ⟨[.submitNewOrder instrumentId side price size .limit .gtc sent], rfl⟩
  | cancels id => exact ⟨[.cancelOrder id sent], rfl⟩
  | replaces id order known found price => exact ⟨[.replaceOrder id price size sent], rfl⟩
  | skips id order known found price => exact ⟨[.replaceOrder id price size sent], rfl⟩

end Outcomes

end Mdh.Trader
