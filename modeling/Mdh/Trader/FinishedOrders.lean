import Mdh.Trader.StrategyDesk

/-! An order that its owner counts as finished stays finished. Reports come in the order of their
events, and no event of an order comes after its last one, so that nothing on its way brings a
finished order back. -/

namespace Mdh.Trader
open Mdh.Core Mdh.Lib Mdh.Matching Mdh.Matching.MatchingEngine Mdh.Risk Mdh.Gateway

section States
variable {message : Message} {id : ClientOrderId} {state : ClientOrderState}

/-- What a report makes of the state of an order. -/
def stateAfter (message : Message) (id : ClientOrderId) (state : ClientOrderState) : ClientOrderState :=
  match message with
  | .accepted event => if id = event.clientOrderId then .live else state
  | .rejected event =>
      if id = event.clientOrderId then if state = .pendingNew then .rejected else state else state
  | .cancelled event => if id = event.clientOrderId then .cancelled else state
  | .replaced event =>
      if id = event.newClientOrderId then .live else if id = event.originalClientOrderId then .replaced else state
  | .tradeReport event =>
      if id = event.clientOrderId then if event.remainingQuantity = 0 then .filled else .partiallyFilled else state
  | .newOrder _ | .cancelOrder _ | .replaceOrder _ => state

theorem effect_state (message : Message) (id : ClientOrderId) (order : ClientOrder) :
    (effect message id order).state = stateAfter message id order.state := by
  cases message with
  | replaced event =>
    unfold effect stateAfter
    dsimp only
    split_ifs <;> rfl
  | accepted | rejected | cancelled | tradeReport =>
    unfold effect stateAfter
    dsimp only
    split_ifs <;> first | rfl | exact if_pos ‹_› | exact if_neg ‹_›
  | newOrder | cancelOrder | replaceOrder => rfl

theorem stateAfter_unmentioned (silent : ¬ Mentions message id) : stateAfter message id state = state := by
  cases message with
  | replaced event =>
    obtain ⟨original, new⟩ := not_or.mp silent
    simp only [stateAfter, original, new, if_false]
  | accepted | rejected | cancelled | tradeReport => exact if_neg silent
  | newOrder | cancelOrder | replaceOrder => rfl

/-- No report takes the order out of a final state. -/
def Steady : List Message → ClientOrderId → ClientOrderState → Prop
  | [], _, _ => True
  | message :: rest, id, state =>
      (state.isTerminal = true → (stateAfter message id state).isTerminal = true) ∧
        Steady rest id (stateAfter message id state)

theorem effects_state (messages : List Message) (id : ClientOrderId) (order : ClientOrder) :
    (effects messages id order).state = messages.foldl (fun state message => stateAfter message id state) order.state := by
  induction messages generalizing order with
  | nil => rfl
  | cons message rest ih =>
    show (effects rest id (effect message id order)).state = _
    rw [ih, effect_state]
    rfl

theorem steady_append (front back : List Message) : Steady (front ++ back) id state ↔
    Steady front id state ∧ Steady back id (front.foldl (fun state message => stateAfter message id state) state) := by
  induction front generalizing state with
  | nil => exact (and_iff_right trivial).symm
  | cons message rest ih => rw [List.cons_append, Steady, Steady, ih, and_assoc, List.foldl_cons]

theorem steady_unmentioned {messages : List Message} (silent : ∀ message ∈ messages, ¬ Mentions message id) :
    Steady messages id state := by
  induction messages with
  | nil => trivial
  | cons message rest ih =>
    have same : stateAfter message id state = state := stateAfter_unmentioned (silent message List.mem_cons_self)
    rw [Steady, same]
    exact ⟨fun done => done, ih fun other member => silent other (List.mem_cons_of_mem _ member)⟩

theorem Steady.stays {messages : List Message} {order : ClientOrder} (steady : Steady messages id order.state)
    (done : order.state.isTerminal = true) : (effects messages id order).state.isTerminal = true := by
  induction messages generalizing order with
  | nil => exact done
  | cons message rest ih =>
    obtain ⟨here, later⟩ := steady
    rw [← effect_state] at here later
    exact ih later (here done)

end States

section Events
variable {account : AccountId} {records : Records} {views : OrderViews} {command : ExchangeCommand} {events : List ExchangeEvent}

theorem terminal_view {order : ClientOrder} (done : order.state.isTerminal = true) : order.view = none := by
  unfold ClientOrder.view
  cases state : order.state <;> rw [state] at done <;> first | rfl | cases done

/-- Each report of the list finds an order that it does not bring back. -/
def SteadyOn (records : Records) (messages : List Message) : Prop :=
  ∀ id order, records id = some order → Steady messages id order.state

theorem SteadyOn.append {front back : List Message} (here : SteadyOn records front)
    (later : SteadyOn (recordsAfter front records) back) : SteadyOn records (front ++ back) := by
  intro id order found
  refine (steady_append front back).mpr ⟨here id order found, ?_⟩
  have after := later id (effects front id order).idle (congrArg (Option.map _) found)
  rw [← effects_state]
  exact after

theorem steadyOn_nil (records : Records) : SteadyOn records [] := fun _ _ _ => trivial

/-- A report that makes no order live, or names only orders that are not finished. -/
theorem steadyOn_single {message : Message}
    (lively : ∀ id order, records id = some order → order.state.isTerminal = true →
      (stateAfter message id order.state).isTerminal = true) : SteadyOn records [message] :=
  fun id order found => ⟨lively id order found, trivial⟩

/-- A fill names an order in view, which is not finished. -/
theorem steadyOn_fill (agrees : Agrees account records views) {party : TradeCounterparty} {side : Side}
    (inView : OnSide account views party side) (event : TradeExecuted) :
    SteadyOn records (if party.accountId = account then [legReport party event] else []) := by
  split_ifs with own
  · refine steadyOn_single fun id order found done => ?_
    by_cases named : id = party.clientOrderId
    · obtain ⟨view, seen, _⟩ := inView own
      rw [← agrees (partyKey party) own] at seen
      have there : records (partyKey party).clientOrderId = some order := (congrArg records named).symm.trans found
      rw [there, Option.bind_some, terminal_view done] at seen
      cases seen
    · have unnamed : ¬ Mentions (legReport party event) id := named
      rw [stateAfter_unmentioned unnamed]
      exact done
  · exact steadyOn_nil records

theorem steadyOn_ofBook {event : ExchangeEvent} (agrees : Agrees account records views) (told : Told account views event)
    (ofBook : OfBook event) : SteadyOn records (reportsFor account [event]) := by
  cases event with
  | tradeExecuted event =>
    rw [reportsFor_trade]
    exact (steadyOn_fill agrees told.1 event).append (steadyOn_fill (agrees.fill told.1 event) told.2 event)
  | orderAccepted | orderRejected | orderCancelled | orderReplaced => cases ofBook
  | bookOrderAdded | bookOrderReduced | bookOrderRemoved => exact steadyOn_nil records

theorem steadyOn_allOfBook (agrees : Agrees account records views) (recounts : Recounts account views events)
    (ofBook : ∀ event ∈ events, OfBook event) : SteadyOn records (reportsFor account events) := by
  induction events generalizing records views with
  | nil => exact steadyOn_nil records
  | cons event rest ih =>
    have here := ofBook event List.mem_cons_self
    rw [reportsFor_cons]
    exact (steadyOn_ofBook agrees recounts.1 here).append (ih (agrees.after recounts.1 (ofBook_fits here)) recounts.2
      fun other member => ofBook other (List.mem_cons_of_mem _ member))

/-- What a command is answered makes live only the order it asks for, which is pending. -/
theorem Outcome.steadyOn (asked : (subject command).accountId = account → Asked account records command)
    {event : ExchangeEvent} (outcome : Outcome command event) : SteadyOn records (reportsFor account [event]) := by
  have created_pending {key : LiveKey} (asks : created command = some key) (own : key.accountId = account)
      {order : ClientOrder} (found : records key.clientOrderId = some order) : order.state = .pendingNew := by
    obtain ⟨_, same, there, pending⟩ := (asked ((created_account asks).symm.trans own)).creates asks
    rw [found] at there
    obtain rfl := Option.some.inj there
    exact pending
  rcases outcome with answers | ⟨rejection, rfl, _⟩
  · cases command with
    | newOrder command =>
      obtain ⟨_, _, rfl⟩ := answers
      rw [reportsFor_single account rfl]
      split_ifs with own
      · refine steadyOn_single fun id order found done => ?_
        by_cases named : id = command.clientOrderId
        · subst named
          rw [created_pending rfl own found] at done
          cases done
        · exact (congrArg ClientOrderState.isTerminal (if_neg named)).trans done
      · exact steadyOn_nil records
    | cancelOrder command =>
      obtain ⟨_, _, rfl⟩ := answers
      rw [reportsFor_single account rfl]
      split_ifs with own
      · refine steadyOn_single fun id order found done => ?_
        unfold stateAfter
        dsimp only
        split_ifs
        · rfl
        · exact done
      · exact steadyOn_nil records
    | replaceOrder command =>
      obtain ⟨_, _, rfl⟩ := answers
      rw [reportsFor_single account rfl]
      split_ifs with own
      · refine steadyOn_single fun id order found done => ?_
        by_cases named : id = command.newClientOrderId
        · subst named
          rw [created_pending rfl own found] at done
          cases done
        · refine (congrArg ClientOrderState.isTerminal (if_neg named)).trans ?_
          split_ifs
          · rfl
          · exact done
      · exact steadyOn_nil records
  · rw [reportsFor_single account rfl]
    split_ifs with own
    · refine steadyOn_single fun id order found done => ?_
      unfold stateAfter
      dsimp only
      split_ifs with named pending
      · rfl
      · exact done
      · exact done
    · exact steadyOn_nil records

theorem Tells.steadyOn (agrees : Agrees account records views) (tells : Tells account views command events)
    (asked : (subject command).accountId = account → Asked account records command) :
    SteadyOn records (reportsFor account events) := by
  obtain ⟨event, later, rfl, outcome, ofBook⟩ := tells.first
  rw [reportsFor_cons]
  exact (outcome.steadyOn asked).append
    (steadyOn_allOfBook (agrees.after tells.recounts.1 (Asked.fits asked outcome)) tells.recounts.2 ofBook)

end Events

section Clients
variable {account : AccountId} {client : Client} {engine : MatchingEngine}

/-- No report on its way brings an order back. -/
def Finishes (client : Client) : Prop := SteadyOn client.oms.orders client.reports

theorem Finishes.told (finishes : Finishes client) {command : ExchangeCommand} {events : List ExchangeEvent}
    (tells : Tells account (recordViews client.records) command events)
    (asked : (subject command).accountId = account → Asked account client.records command) :
    Finishes (client.told account events) :=
  SteadyOn.append finishes (tells.steadyOn (fun _ _ => rfl) asked)

theorem Finishes.handle (round : Rounding) (finishes : Finishes client) {report : Message} {reports : List Message}
    (queued : client.reports = report :: reports) : Finishes (({ client with reports } : Client).handle round report) := by
  intro id order found
  rw [handle_orders] at found
  obtain ⟨before, there, rfl⟩ := Option.map_eq_some_iff.mp found
  have steady := finishes id before there
  rw [queued] at steady
  rw [effect_state]
  exact steady.2

theorem Finishes.registers (finishes : Finishes client) (synced : Synced account client engine) (order : ClientOrder) :
    Finishes { client with oms := client.oms.register order } := by
  intro id other found
  by_cases new : id = client.oms.nextClientOrderId
  · exact steady_unmentioned fun message member mentioned => lt_irrefl _ (new ▸ synced.known message member id mentioned)
  · exact finishes id other ((Function.update_of_ne new ..).symm.trans found)

theorem Finishes.pends (finishes : Finishes client) (clientOrderId : ClientOrderId) (action : PendingAction) :
    Finishes { client with oms := pend client.oms clientOrderId action } := by
  intro id order found
  have there : (pend client.oms clientOrderId action).orders id = some order := found
  unfold pend at there
  rw [update_orders] at there
  obtain ⟨before, was, rfl⟩ := Option.map_eq_some_iff.mp there
  have state : (if id = clientOrderId then { before with pendingAction := action } else before).state = before.state := by
    split_ifs <;> rfl
  rw [state]
  exact finishes id before was

theorem Finishes.call (finishes : Finishes client) (synced : Synced account client engine) (call : Call) :
    Finishes (client.call call) := by
  have outcome := call_outcome (synced.unused _ le_rfl) call
  generalize client.call call = after at outcome
  cases outcome with
  | stays | skips => exact finishes
  | sent | unsent => exact finishes.registers synced _
  | cancels clientOrderId => exact finishes.pends clientOrderId .cancel
  | replaces clientOrderId =>
    exact (finishes.pends clientOrderId .replace).registers (synced.pends clientOrderId .replace).2 _

theorem Finishes.calls (finishes : Finishes client) (synced : Synced account client engine) (calls : List Call) :
    Finishes (calls.foldl Client.call client) := by
  induction calls generalizing client with
  | nil => exact finishes
  | cons call rest ih => exact ih (finishes.call synced call) (synced.call call)

/-- A finished order is on record as finished, and so neither pending nor in view. -/
theorem Finishes.unseen (finishes : Finishes client) {id : ClientOrderId} {order : ClientOrder}
    (found : client.oms.orders id = some order) (done : order.state.isTerminal = true) :
    ∃ recorded, client.records id = some recorded ∧ recorded.state.isTerminal = true :=
  ⟨(effects client.reports id order).idle, congrArg (Option.map _) found, (finishes id order found).stays done⟩

end Clients

section Desks
variable {σ ι : Type} {round : Rounding} {managed : AccountId → Bool} {account : AccountId} {strategy : Strategy σ ι}
  {desk after : Desk σ} {action : DeskAction ι}

theorem step_finishes (calls : strategy.Calls) (alone : managed account = true) (followed : Followed managed desk.floor)
    (finishes : Finishes (desk.floor.clients account))
    (stepped : desk.step round managed account strategy action = some after) : Finishes (after.floor.clients account) := by
  have synced := followed.synced account alone
  cases Desk.sees alone followed stepped with
  | acts input client =>
    obtain ⟨made, result⟩ := calls input (desk.floor.clients account) desk.memory
    rw [client, result]
    exact finishes.calls synced made
  | stays action client =>
    rw [client]
    exact finishes
  | handles report reports queued client =>
    rw [client]
    exact finishes.handle round queued
  | takes request requests command queued stands client =>
    have relates : Relates round account _ _ _ := followed.relates_own alone queued stands
    rw [client]
    have taken : Finishes { desk.floor.clients account with requests } := finishes
    exact taken.told relates.tells.1 relates.asked
  | observes action command foreign client =>
    have relates : Relates round account _ _ _ := followed.relates_foreign alone foreign
    rw [client]
    exact finishes.told relates.tells.1 relates.asked

end Desks

end Mdh.Trader
