import Mdh.Trader.RestingQuote
import Mdh.Trader.StandingOrders

/-! Quotes of one side that are driven in turn. What then stands on the side is what the quotes have,
each at the price it was driven to unless its request had to wait. -/

namespace Mdh.Trader
open Mdh.Core Mdh.Lib Mdh.Matching Mdh.Matching.MatchingEngine Mdh.Gateway

section Enters
variable {oms : OrderManagementSystem} {order : ClientOrder} {id other : ClientOrderId} {action : PendingAction}

theorem register_orders_of_lt (entered : id < oms.nextClientOrderId) : (oms.register order).orders id = oms.orders id :=
  Function.update_of_ne entered.ne ..

theorem register_orders_next : (oms.register order).orders oms.nextClientOrderId = some order := Function.update_self ..

theorem pend_next : (pend oms other action).nextClientOrderId = oms.nextClientOrderId := (update_account oms other _).2

theorem pend_orders_of_ne (different : id ≠ other) : (pend oms other action).orders id = oms.orders id := by
  unfold pend
  rw [update_orders]
  simp only [different, if_false, Option.map_id_fun', id_eq]

theorem pend_terms (id : ClientOrderId) : ((pend oms other action).orders id).map (fun order => (order.side, order.price)) =
    (oms.orders id).map fun order => (order.side, order.price) := by
  unfold pend
  rw [update_orders, Option.map_map]
  congr 1
  funext order
  dsimp only [Function.comp_apply]
  split_ifs <;> rfl

end Enters

section One
variable {account : AccountId} {client after : Client} {engine : MatchingEngine} {close : ClientOrder → Int → Bool}
  {instrumentId : InstrumentId} {side : Side} {size : Nat} {orderId new : Option ClientOrderId} {desiredPrice : Option Int}
  {sent : Bool} {id : ClientOrderId} {asked : List ExchangeCommand}

theorem upcoming_sends (commands : after.commands = client.commands ++ asked) :
    upcoming account after engine = asked.foldl standsAfter (upcoming account client engine) := by
  unfold upcoming
  rw [commands, List.foldl_append]

/-- The trader asks for something more, and enters at most what it asks for. -/
theorem Poised.sends (poised : Poised account client engine) (synced : Synced account client engine)
    (reports : after.reports = client.reports) (commands : after.commands = client.commands ++ asked)
    (kept : ∀ id < client.oms.nextClientOrderId, after.terms id = client.terms id)
    (priced : ∀ request, .replaceOrder request ∈ asked →
      ∀ order, after.oms.orders request.newClientOrderId = some order → order.price = request.newPrice)
    (quiet : ∀ id, asked.foldl standsAfter (upcoming account client engine) id = true →
      ∀ order, after.oms.orders id = some order → order.pendingAction = .none)
    (safe : Safe after.terms (upcoming account client engine) asked) : Poised account after engine := by
  have created_lt {command : ExchangeCommand} (member : command ∈ client.commands) {key : LiveKey}
      (asks : created command = some key) : key.clientOrderId < client.oms.nextClientOrderId := by
    obtain ⟨_, order, found, _⟩ := (synced.asked command member).creates asks
    exact synced.entered found
  refine ⟨⟨fun event member => ?_, fun request member => ?_⟩, fun id upcomes => ?_, ?_⟩
  · rw [reports] at member
    exact terms_price (kept _ (synced.known _ member _ (Or.inr rfl))) (poised.priced.reports event member)
  · rw [commands] at member
    rcases List.mem_append.mp member with before | last
    · exact terms_price (kept _ (created_lt before rfl)) (poised.priced.requests request before)
    · exact priced request last
  · rw [upcoming_sends commands] at upcomes
    exact quiet id upcomes
  · rw [commands]
    refine (safe_append _ _).mpr ⟨poised.safe.congr (fun id rests => ?_) fun command member key asks =>
      kept _ (created_lt member asks), safe⟩
    obtain ⟨entry, member, same⟩ := of_decide_eq_true rests
    have shown := synced.shown entry member (by rw [same])
    rw [same] at shown
    obtain ⟨recorded, found, _⟩ := Option.bind_eq_some_iff.mp shown
    exact kept id (synced.entered found)

/-- An order that stands once a quote has been driven is the one that was asked for, or stood as it was;
and it is then the one that the quote has, if the quote had it. -/
inductive Stood (account : AccountId) (engine : MatchingEngine) (close : ClientOrder → Int → Bool) (side : Side)
    (client after : Client) (orderId new : Option ClientOrderId) (desiredPrice : Option Int) (sent : Bool)
    (id : ClientOrderId) : Prop where
  | enters (price : Int) (now : new = some id) (wanted : desiredPrice = some price)
      (terms : after.terms id = some (side, price))
  | stays (order : ClientOrder) (stood : upcoming account client engine id = true) (found : client.oms.orders id = some order)
      (same : after.oms.orders id = some order)
      (held : orderId = some id → new = some id ∧
        (order.state = .pendingNew ∨ sent = false ∨ ∃ price, desiredPrice = some price ∧ close order price = true))

/-- What the quote has is an order of its side. -/
def SidedAs (side : Side) (client : Client) (orderId : Option ClientOrderId) : Prop :=
  ∀ id, orderId = some id → ∃ price, client.terms id = some (side, price)

/-- No contra order that stands is met at the price. -/
def ClearAt (account : AccountId) (client : Client) (engine : MatchingEngine) (side : Side) (price : Int) : Prop :=
  ∀ id, upcoming account client engine id = true → ∀ other, client.terms id = some (side.contra, other) →
    ¬ side.Crosses price other

/-- The orders that were entered keep their terms, and what then stands is known. -/
structure Drives (account : AccountId) (engine : MatchingEngine) (close : ClientOrder → Int → Bool) (side : Side)
    (client after : Client) (orderId new : Option ClientOrderId) (desiredPrice : Option Int) (sent : Bool) : Prop where
  poised : Poised account after engine
  kept : ∀ id < client.oms.nextClientOrderId, after.terms id = client.terms id
  sided : SidedAs side after new
  stood : ∀ id, upcoming account after engine id = true →
    Stood account engine close side client after orderId new desiredPrice sent id

section Cases
variable {command : ExchangeCommand} {price : Int} {entered : ClientOrder}

theorem upcoming_lt (synced : Synced account client engine) (finishes : Finishes client)
    (upcomes : upcoming account client engine id = true) : id < client.oms.nextClientOrderId := by
  obtain ⟨order, found, _⟩ := upcoming_entered synced finishes upcomes
  by_contra past
  rw [synced.unused id (not_lt.mp past)] at found
  cases found

theorem SidedAs.of_found (sided : SidedAs side client orderId) (known : orderId = some id)
    (found : client.oms.orders id = some entered) : entered.side = side := by
  obtain ⟨price, terms⟩ := sided id known
  obtain ⟨order, there, same⟩ := Option.map_eq_some_iff.mp terms
  obtain rfl := Option.some.inj (found.symm.trans there)
  exact (Prod.mk.inj same).1

theorem Finished.unheld (finished : Finished client orderId) {order : ClientOrder} (found : client.oms.orders id = some order)
    (live : order.state.isTerminal = false) : orderId ≠ some id := fun known => by
  rw [finished id known order found] at live
  cases live

/-- The quote asks for nothing. -/
theorem drives_same (synced : Synced account client engine) (finishes : Finishes client)
    (poised : Poised account client engine) (sided : SidedAs side client new)
    (held : ∀ id order, orderId = some id → client.oms.orders id = some order → order.state.isTerminal = false →
      order.pendingAction = .none → new = some id ∧
        (order.state = .pendingNew ∨ sent = false ∨ ∃ price, desiredPrice = some price ∧ close order price = true)) :
    Drives account engine close side client client orderId new desiredPrice sent := by
  refine ⟨poised, fun _ _ => rfl, sided, fun id upcomes => ?_⟩
  obtain ⟨order, found, live⟩ := upcoming_entered synced finishes upcomes
  exact .stays order upcomes found found fun known => held id order known found live (poised.quiet id upcomes order found)

/-- The quote asks for an order that it then has; the one it had does not stand, or no longer. -/
theorem drives_enters (synced : Synced account client engine) (finishes : Finishes client)
    (poised : Poised account client engine) (clear : ClearAt account client engine side price)
    (reports : after.reports = client.reports) (commands : after.commands = client.commands ++ [command])
    (creates : ∀ key, created command = some key → key.clientOrderId = client.oms.nextClientOrderId)
    (priced : ∀ request, command = .replaceOrder request → request.newPrice = price)
    (kept : ∀ id < client.oms.nextClientOrderId, after.terms id = client.terms id)
    (found : after.oms.orders client.oms.nextClientOrderId = some entered) (sameSide : entered.side = side)
    (samePrice : entered.price = price) (quiet : entered.pendingAction = .none)
    (stands : ∀ id, standsAfter (upcoming account client engine) command id = true → id = client.oms.nextClientOrderId ∨
      upcoming account client engine id = true ∧ after.oms.orders id = client.oms.orders id ∧ orderId ≠ some id) :
    Drives account engine close side client after orderId (some client.oms.nextClientOrderId) (some price) sent := by
  have terms : after.terms client.oms.nextClientOrderId = some (side, price) := by
    unfold Client.terms
    rw [found, ← sameSide, ← samePrice]
    rfl
  refine ⟨poised.sends synced reports commands kept (fun request member order there => ?_) (fun id last order there => ?_) ?_,
    kept, fun id now => ⟨price, Option.some.inj now ▸ terms⟩, fun id upcomes => ?_⟩
  · obtain rfl := List.mem_singleton.mp member
    have new : request.newClientOrderId = client.oms.nextClientOrderId := creates _ rfl
    rw [new, found] at there
    obtain rfl := Option.some.inj there
    exact samePrice.trans (priced request rfl).symm
  · rcases stands id last with rfl | ⟨before, same, _⟩
    · rw [found] at there
      obtain rfl := Option.some.inj there
      exact quiet
    · exact poised.quiet id before order (same.symm.trans there)
  · refine ⟨fun key asks other before ownSide ownPrice otherPrice new contra => ?_, trivial⟩
    rw [creates key asks, terms] at new
    obtain ⟨rfl, rfl⟩ := Prod.mk.inj (Option.some.inj new)
    rw [kept other (upcoming_lt synced finishes before)] at contra
    exact clear other before otherPrice contra
  · rw [upcoming_sends commands] at upcomes
    rcases stands id upcomes with rfl | ⟨before, same, other⟩
    · exact .enters price rfl rfl terms
    · obtain ⟨order, there, _⟩ := upcoming_entered synced finishes before
      exact .stays order before there (same.trans there) fun known => absurd known other

/-- The quote enters an order that does not go out. -/
theorem drives_fails (synced : Synced account client engine) (finishes : Finishes client)
    (poised : Poised account client engine) (finished : Finished client orderId) :
    Drives account engine close side client (client.call (.submitNewOrder instrumentId side price size .limit .gtc false))
      orderId (some client.oms.nextClientOrderId) (some price) false := by
  have result : client.call (.submitNewOrder instrumentId side price size .limit .gtc false) = { client with
      oms := client.oms.register (newClientOrder client.oms instrumentId side price size .limit .gtc).unsent } := by
    unfold Client.call
    dsimp only
    rw [submitNewOrder_unsent, send_none]
  rw [result]
  have kept (id : ClientOrderId) (lt : id < client.oms.nextClientOrderId) :
      (client.oms.register (newClientOrder client.oms instrumentId side price size .limit .gtc).unsent).orders id =
        client.oms.orders id := register_orders_of_lt lt
  refine ⟨poised.sends synced rfl (List.append_nil _).symm (fun id lt => congrArg (Option.map _) (kept id lt)) nofun
    (fun id before order found => ?_) trivial, fun id lt => congrArg (Option.map _) (kept id lt),
    fun id now => ⟨price, Option.some.inj now ▸ congrArg (Option.map _) register_orders_next⟩, fun id before => ?_⟩
  · exact poised.quiet id before order ((kept id (upcoming_lt synced finishes before)).symm.trans found)
  · obtain ⟨order, found, live⟩ := upcoming_entered synced finishes before
    exact .stays order before found ((kept id (upcoming_lt synced finishes before)).trans found)
      fun known => absurd known (finished.unheld found live)

/-- The quote asks for the cancel of its order, which then stands no longer. -/
theorem drives_cancels (synced : Synced account client engine) (finishes : Finishes client)
    (poised : Poised account client engine) (sided : SidedAs side client orderId) (known : orderId = some id)
    (found : client.oms.workable id = some entered) :
    Drives account engine close side client (client.call (.cancelOrder id true)) orderId orderId none true := by
  have kept (other : ClientOrderId) : (client.call (.cancelOrder id true)).terms other = client.terms other := by
    rw [call_cancelOrder_sent found]
    exact pend_terms other
  have others {other : ClientOrderId} (different : other ≠ id) :
      (client.call (.cancelOrder id true)).oms.orders other = client.oms.orders other := by
    rw [call_cancelOrder_sent found]
    exact pend_orders_of_ne different
  have commands := (synced.cancels found).commands
  have stands {other : ClientOrderId} (after : [cancelAsked client id entered].foldl standsAfter
      (upcoming account client engine) other = true) : other ≠ id ∧ upcoming account client engine other = true :=
    of_decide_eq_true after
  refine ⟨poised.sends synced ?_ commands (fun other _ => kept other) (fun request member => ?_)
    (fun other after order there => ?_) ⟨nofun, trivial⟩, fun other _ => kept other,
    fun other now => (sided other now).imp fun _ terms => (kept other).trans terms, fun other upcomes => ?_⟩
  · rw [call_cancelOrder_sent found]
    rfl
  · cases List.mem_singleton.mp member
  · obtain ⟨different, before⟩ := stands after
    exact poised.quiet other before order ((others different).symm.trans there)
  · rw [upcoming_sends commands] at upcomes
    obtain ⟨different, before⟩ := stands upcomes
    obtain ⟨order, there, _⟩ := upcoming_entered synced finishes before
    exact .stays order before there ((others different).trans there) fun same =>
      absurd (Option.some.inj (same.symm.trans known)) different

/-- The quote asks for the replacement of its order, which then stands no longer. -/
theorem drives_replaces (synced : Synced account client engine) (finishes : Finishes client)
    (poised : Poised account client engine) (sided : SidedAs side client orderId)
    (clear : ClearAt account client engine side price) (known : orderId = some id)
    (found : client.oms.workable id = some entered) :
    Drives account engine close side client (client.call (.replaceOrder id price size true)) orderId
      (some client.oms.nextClientOrderId) (some price) true := by
  have lt_pend {other : ClientOrderId} (lt : other < client.oms.nextClientOrderId) :
      other < (pend client.oms id .replace).nextClientOrderId := lt.trans_eq pend_next.symm
  have kept (other : ClientOrderId) (lt : other < client.oms.nextClientOrderId) :
      (client.call (.replaceOrder id price size true)).terms other = client.terms other := by
    rw [call_replaceOrder_sent found]
    exact (congrArg (Option.map _) (register_orders_of_lt (lt_pend lt))).trans (pend_terms other)
  have others {other : ClientOrderId} (lt : other < client.oms.nextClientOrderId) (different : other ≠ id) :
      (client.call (.replaceOrder id price size true)).oms.orders other = client.oms.orders other := by
    rw [call_replaceOrder_sent found]
    exact (register_orders_of_lt (lt_pend lt)).trans (pend_orders_of_ne different)
  have sameSide : entered.side = side := sided.of_found known (Option.filter_eq_some_iff.mp found).1
  have there : (client.call (.replaceOrder id price size true)).oms.orders client.oms.nextClientOrderId = some
      (newClientOrder client.oms entered.instrumentId entered.side price size entered.orderType entered.timeInForce) := by
    rw [call_replaceOrder_sent found]
    exact (congrArg _ pend_next.symm).trans register_orders_next
  refine drives_enters synced finishes poised clear ?_ (synced.replaces found price size).commands (fun key asks => ?_)
    (fun request same => ?_) kept there sameSide rfl rfl fun other stands => ?_
  · rw [call_replaceOrder_sent found]
    rfl
  · exact (congrArg LiveKey.clientOrderId (Option.some.inj asks)).symm
  · obtain rfl := ExchangeCommand.replaceOrder.inj same
    rfl
  · unfold standsAfter replacementAsked at stands
    dsimp only at stands
    split_ifs at stands with new
    · exact Or.inl new
    · obtain ⟨different, before⟩ := of_decide_eq_true stands
      exact Or.inr ⟨before, others (upcoming_lt synced finishes before) different, fun same =>
        different (Option.some.inj (same.symm.trans known))⟩

end Cases

/-- What an update makes of the orders that stand. -/
theorem Requoted.drives
    (requoted : Requoted close instrumentId side size client orderId sent desiredPrice after new)
    (synced : Synced account client engine) (finishes : Finishes client) (poised : Poised account client engine)
    (sided : SidedAs side client orderId)
    (clear : ∀ price, desiredPrice = some price → ClearAt account client engine side price) :
    Drives account engine close side client after orderId new desiredPrice sent := by
  cases requoted with
  | waits id order known found held =>
    refine drives_same synced finishes poised sided fun other there same entered _ quiet => ⟨same, Or.inl ?_⟩
    obtain rfl := Option.some.inj (known.symm.trans same)
    obtain rfl := Option.some.inj (found.symm.trans entered)
    exact held.resolve_right (absurd quiet)
  | near id order known found price near =>
    refine drives_same synced finishes poised sided fun other there same entered _ _ => ⟨same, Or.inr (Or.inr ⟨price, rfl, ?_⟩)⟩
    obtain rfl := Option.some.inj (known.symm.trans same)
    obtain rfl := Option.some.inj (found.symm.trans entered)
    exact near
  | rests finished =>
    exact drives_same synced finishes poised nofun fun other order same entered live _ =>
      absurd same (finished.unheld entered live)
  | submits finished price =>
    cases sent with
    | true =>
      refine drives_enters synced finishes poised (clear price rfl) rfl
        (synced.submits instrumentId side price size .limit .gtc).commands (fun key asks => ?_) nofun (fun id lt => ?_)
        register_orders_next rfl rfl rfl fun id stands => ?_
      · exact (congrArg LiveKey.clientOrderId (Option.some.inj asks)).symm
      · exact congrArg (Option.map _) (register_orders_of_lt lt)
      · refine (of_decide_eq_true stands).imp_right fun before => ?_
        obtain ⟨order, found, live⟩ := upcoming_entered synced finishes before
        exact ⟨before, register_orders_of_lt (upcoming_lt synced finishes before), finished.unheld found live⟩
    | false => exact drives_fails synced finishes poised finished
  | cancels id order known found =>
    cases sent with
    | true => exact drives_cancels synced finishes poised sided known found
    | false =>
      rw [call_cancelOrder_unsent]
      exact drives_same synced finishes poised sided fun other _ same _ _ _ => ⟨same, Or.inr (Or.inl rfl)⟩
  | replaces id order known found price goes =>
    subst goes
    exact drives_replaces synced finishes poised sided (clear price rfl) known found
  | skips id order known found price fails =>
    subst fails
    rw [call_replaceOrder_unsent (synced.unused _ le_rfl) found]
    have same : Drives account engine close side client client orderId orderId (some price) false :=
      drives_same synced finishes poised sided fun other _ same _ _ _ => ⟨same, Or.inr (Or.inl rfl)⟩
    refine ⟨⟨⟨poised.priced.reports, poised.priced.requests⟩, poised.quiet, poised.safe⟩, same.kept, same.sided, fun id upcomes => ?_⟩
    cases same.stood id upcomes with
    | enters price now wanted terms => exact .enters price now wanted terms
    | stays order before found after held => exact .stays order before found after held

end One

section Tended
variable {account : AccountId} {client after : Client} {engine engineAfter : MatchingEngine}
  {quotes : Side → List (Option ClientOrderId)} {fine fineAfter : Side → Nat → Int → Prop} {id : ClientOrderId}

/-- An order that was entered keeps its terms while others are. -/
theorem kept_of_lt (synced : Synced account client engine)
    (kept : ∀ id < client.oms.nextClientOrderId, after.terms id = client.terms id) (id : ClientOrderId) (terms : Side × Int)
    (entered : client.terms id = some terms) : after.terms id = some terms := by
  refine (kept id ?_).trans entered
  by_contra past
  unfold Client.terms at entered
  rw [synced.unused id (not_lt.mp past)] at entered
  cases entered

/-- The order that a quote has is at a price that will do, if it stands and the request of the quote would
have to wait. -/
def Held (account : AccountId) (client : Client) (engine : MatchingEngine) (fine : Int → Prop)
    (orderId : Option ClientOrderId) (sent : Bool) : Prop :=
  ∀ id ∈ orderId, upcoming account client engine id = true →
    ∀ order ∈ client.oms.orders id, order.state = .pendingNew ∨ sent = false → fine order.price

instance (account : AccountId) (client : Client) (engine : MatchingEngine) (fine : Int → Prop) [DecidablePred fine]
    (orderId : Option ClientOrderId) (sent : Bool) : Decidable (Held account client engine fine orderId sent) :=
  inferInstanceAs (Decidable (∀ _ ∈ _, _ → ∀ _ ∈ _, _ → _))

/-- Each order that stands is that of a quote of its side, at a price that will do for the quote. -/
structure Tended (account : AccountId) (client : Client) (engine : MatchingEngine) (quotes : Side → List (Option ClientOrderId))
    (fine : Side → Nat → Int → Prop) : Prop where
  poised : Poised account client engine
  sided : ∀ side, ∀ orderId ∈ quotes side, SidedAs side client orderId
  owned : ∀ id, upcoming account client engine id = true → ∃ side level price,
    client.terms id = some (side, price) ∧ (quotes side)[level]? = some (some id) ∧ fine side level price

theorem terms_of_found {order : ClientOrder} (found : client.oms.orders id = some order) :
    client.terms id = some (order.side, order.price) := congrArg (Option.map _) found

theorem Tended.mono (tended : Tended account client engine quotes fine)
    (keeps : ∀ id side level price, upcoming account client engine id = true → client.terms id = some (side, price) →
      (quotes side)[level]? = some (some id) → fine side level price → fineAfter side level price) :
    Tended account client engine quotes fineAfter where
  poised := tended.poised
  sided := tended.sided
  owned id stood := by
    obtain ⟨side, level, price, terms, quoted, good⟩ := tended.owned id stood
    exact ⟨side, level, price, terms, quoted, keeps id side level price stood terms quoted good⟩

/-- While the quotes are left alone, no more of their orders come to stand. -/
theorem Tended.fewer (tended : Tended account client engine quotes fine) (poised : Poised account after engineAfter)
    (terms : after.terms = client.terms)
    (fewer : ∀ id, upcoming account after engineAfter id = true → upcoming account client engine id = true) :
    Tended account after engineAfter quotes fine where
  poised := poised
  sided side orderId member id known := by
    rw [terms]
    exact tended.sided side orderId member id known
  owned id stood := by
    rw [terms]
    exact tended.owned id (fewer id stood)

section Driven
variable {close : ClientOrder → Int → Bool} {instrumentId : InstrumentId} {side : Side} {size level : Nat}
  {orderId new : Option ClientOrderId} {desiredPrice : Option Int} {sent : Bool}

/-- What a quote may be driven to, if no quote of the other side has an order in the way. -/
theorem Tended.clearAt (tended : Tended account client engine quotes fine) {price : Int}
    (clear : ∀ level other, fine side.contra level other → ¬ side.Crosses price other) :
    ClearAt account client engine side price := by
  intro id stood other terms
  obtain ⟨_, level, _, same, _, good⟩ := tended.owned id stood
  obtain ⟨rfl, rfl⟩ := Prod.mk.inj (Option.some.inj (same.symm.trans terms))
  exact clear level _ good

/-- One quote is driven to a price that will do and meets nothing that will do for the other side. Near that
price, or where its request has to wait, its order is at a price that will do. -/
theorem Tended.drive (tended : Tended account client engine quotes fine) (synced : Synced account client engine)
    (finishes : Finishes client)
    (requoted : Requoted close instrumentId side size client orderId sent desiredPrice after new)
    (there : (quotes side)[level]? = some orderId)
    (clear : ∀ price, desiredPrice = some price → ∀ level other, fine side.contra level other → ¬ side.Crosses price other)
    (others : ∀ other row price, (other, row) ≠ (side, level) → fine other row price → fineAfter other row price)
    (wants : ∀ price, desiredPrice = some price → fineAfter side level price)
    (near : ∀ price, desiredPrice = some price → ∀ order, close order price = true → fineAfter side level order.price)
    (held : Held account client engine (fineAfter side level) orderId sent) :
    Tended account after engine (Function.update quotes side ((quotes side).set level new)) fineAfter := by
  have sided := tended.sided side orderId (List.mem_of_getElem? there)
  have drives := requoted.drives synced finishes tended.poised sided fun price desired => tended.clearAt (clear price desired)
  have kept (id : ClientOrderId) (terms : Side × Int) (entered : client.terms id = some terms) : after.terms id = some terms :=
    kept_of_lt synced drives.kept id terms entered
  have within : level < (quotes side).length := (List.getElem?_eq_some_iff.mp there).1
  have here : (Function.update quotes side ((quotes side).set level new) side)[level]? = some new := by
    rw [Function.update_self]
    exact List.getElem?_set_self within
  have elsewhere {other : Side} {row : Nat} (different : (other, row) ≠ (side, level)) :
      (Function.update quotes side ((quotes side).set level new) other)[row]? = (quotes other)[row]? := by
    by_cases same : other = side
    · subst same
      rw [Function.update_self]
      exact List.getElem?_set_ne fun same => different (congrArg _ same.symm)
    · rw [Function.update_of_ne same]
  refine ⟨drives.poised, fun other entry member id known => ?_, fun id stood => ?_⟩
  · by_cases same : other = side
    · subst same
      rw [Function.update_self] at member
      rcases List.mem_or_eq_of_mem_set member with before | rfl
      · exact (tended.sided other entry before id known).imp fun _ => kept id _
      · exact drives.sided id known
    · rw [Function.update_of_ne same] at member
      exact (tended.sided other entry member id known).imp fun _ => kept id _
  · cases drives.stood id stood with
    | enters price now desired terms => exact ⟨side, level, price, terms, now ▸ here, wants price desired⟩
    | stays order before found same waits =>
      obtain ⟨other, row, price, terms, quoted, good⟩ := tended.owned id before
      by_cases own : (other, row) = (side, level)
      · obtain ⟨rfl, rfl⟩ := Prod.mk.inj own
        obtain ⟨now, why⟩ := waits (Option.some.inj (there.symm.trans quoted))
        obtain ⟨_, rfl⟩ := Prod.mk.inj (Option.some.inj ((terms_of_found found).symm.trans terms))
        refine ⟨other, row, order.price, kept id _ terms, now ▸ here, ?_⟩
        have known : orderId = some id := Option.some.inj (there.symm.trans quoted)
        rcases why with pending | unsent | ⟨price, desired, close⟩
        · exact held id known before order found (Or.inl pending)
        · exact held id known before order found (Or.inr unsent)
        · exact near price desired order close
      · exact ⟨other, row, price, kept id _ terms, (elsewhere own).trans quoted, others other row price own good⟩

end Driven

end Tended

end Mdh.Trader
