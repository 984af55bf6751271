import Mdh.Trader.OrdersFollowed
import Mdh.Trader.TradingFloor

/-! A strategy at the exchange, alone on its account. It is run on an input at any moment, between
which the exchange takes requests, the account handles reports and everyone else does as they like;
whatever it does with its account it does by calls, of the order management system behind the
trader's own risk check. Only new orders are checked. -/

namespace Mdh.Trader
open Mdh.Core Mdh.Lib Mdh.Matching Mdh.Matching.MatchingEngine Mdh.Risk Mdh.Risk.RiskGatedEngine Mdh.Gateway
open Mdh.Sequencing

/-- A call of an order management system, and whether what it sends goes out. -/
inductive Call where
  | submitNewOrder (instrumentId : InstrumentId) (side : Side) (price : Int) (quantity : Nat) (orderType : Core.OrderType)
    (timeInForce : TimeInForce) (sent : Bool)
  | cancelOrder (clientOrderId : ClientOrderId) (sent : Bool)
  | replaceOrder (clientOrderId : ClientOrderId) (newPrice : Int) (newQuantity : Nat) (sent : Bool)
  deriving DecidableEq, Repr

/-- The trader once the call has returned. -/
def Client.call (client : Client) : Call → Client
  | .submitNewOrder instrumentId side price quantity orderType timeInForce sent =>
      let (oms, _, request) := client.oms.submitNewOrder instrumentId side price quantity orderType timeInForce sent
      client.send oms request
  | .cancelOrder clientOrderId sent =>
      let (oms, request) := client.oms.cancelOrder clientOrderId sent
      client.send oms request
  | .replaceOrder clientOrderId newPrice newQuantity sent =>
      let (oms, replaced) := client.oms.replaceOrder clientOrderId newPrice newQuantity sent
      client.send oms (replaced.map Prod.snd)

namespace TraderRiskGatedOms
variable (round : Rounding) (limits : TraderRiskLimits) (client : Client)

/-- Gives the id of the order, unless the check turns it down; then nothing is entered or sent. -/
def submitNewOrder (instrumentId : InstrumentId) (side : Side) (price : Int) (quantity : Nat) (orderType : Core.OrderType)
    (timeInForce : TimeInForce) (sent : Bool) : Client × Option ClientOrderId :=
  if TraderRiskEngine.check round limits client.oms.accountId instrumentId side price quantity client.positions = .none then
    (client.call (.submitNewOrder instrumentId side price quantity orderType timeInForce sent),
      some (client.oms.submitNewOrder instrumentId side price quantity orderType timeInForce sent).2.1)
  else (client, none)

/-- Says whether a request went out. -/
def cancelOrder (clientOrderId : ClientOrderId) (sent : Bool) : Client × Bool :=
  (client.call (.cancelOrder clientOrderId sent), (client.oms.cancelOrder clientOrderId sent).2.isSome)

/-- Gives the id of the replacement, if a request went out. -/
def replaceOrder (clientOrderId : ClientOrderId) (newPrice : Int) (newQuantity : Nat) (sent : Bool) :
    Client × Option ClientOrderId :=
  (client.call (.replaceOrder clientOrderId newPrice newQuantity sent),
    (client.oms.replaceOrder clientOrderId newPrice newQuantity sent).2.map Prod.fst)

def order (clientOrderId : ClientOrderId) : Option ClientOrder := client.oms.orders clientOrderId

end TraderRiskGatedOms

section Unsent
variable (oms : OrderManagementSystem)

/-- The order as it is entered. -/
def newClientOrder (instrumentId : InstrumentId) (side : Side) (price : Int) (quantity : Nat) (orderType : Core.OrderType)
    (timeInForce : TimeInForce) : ClientOrder where
  accountId := oms.accountId
  clientOrderId := oms.nextClientOrderId
  instrumentId
  side
  price
  quantity
  remainingQuantity := quantity
  orderType
  timeInForce

/-- The order that a failed send leaves. -/
def ClientOrder.unsent (order : ClientOrder) : ClientOrder :=
  { order with state := .rejected, pendingAction := .none, lastRejectReason := .internalError }

theorem submitNewOrder_unsent (instrumentId : InstrumentId) (side : Side) (price : Int) (quantity : Nat)
    (orderType : Core.OrderType) (timeInForce : TimeInForce) :
    oms.submitNewOrder instrumentId side price quantity orderType timeInForce false =
      (oms.register (newClientOrder oms instrumentId side price quantity orderType timeInForce).unsent,
        oms.nextClientOrderId, none) := by
  unfold OrderManagementSystem.submitNewOrder OrderManagementSystem.markSendFailed OrderManagementSystem.update
    OrderManagementSystem.register
  simp only [Function.update_self, Function.update_idem]
  rfl

/-- What is pending for an order that had nothing pending is taken back. -/
theorem pend_clear {clientOrderId : ClientOrderId} {order : ClientOrder}
    (found : oms.workable clientOrderId = some order) (action : PendingAction) (other : ClientOrderId) :
    (oms.orders other).map (fun order => if other = clientOrderId then
      { (if other = clientOrderId then { order with pendingAction := action } else order) with pendingAction := .none }
      else if other = clientOrderId then { order with pendingAction := action } else order) = oms.orders other := by
  obtain ⟨there, working⟩ := Option.filter_eq_some_iff.mp found
  obtain ⟨_, quiet⟩ := of_decide_eq_true working
  by_cases same : other = clientOrderId
  · rw [same, there]
    simp only [Option.map_some, if_true, ← quiet]
  · simp only [same, if_false, Option.map_id_fun', id]

theorem oms_ext {first second : OrderManagementSystem} (account : first.accountId = second.accountId)
    (next : first.nextClientOrderId = second.nextClientOrderId) (orders : ∀ id, first.orders id = second.orders id) :
    first = second := by
  cases first
  cases second
  obtain rfl := account
  obtain rfl := next
  obtain rfl := funext orders
  rfl

theorem cancelOrder_unsent (clientOrderId : ClientOrderId) : oms.cancelOrder clientOrderId false = (oms, none) := by
  unfold OrderManagementSystem.cancelOrder
  cases found : oms.workable clientOrderId with
  | none => rfl
  | some order =>
    obtain ⟨firstAccount, firstNext⟩ := update_account oms clientOrderId fun order => { order with pendingAction := .cancel }
    obtain ⟨sameAccount, sameNext⟩ := update_account (oms.update clientOrderId fun order =>
      { order with pendingAction := .cancel }) clientOrderId fun order => { order with pendingAction := .none }
    refine congrArg (·, none) (oms_ext (sameAccount.trans firstAccount) (sameNext.trans firstNext) fun id => ?_)
    unfold OrderManagementSystem.clearPendingAction
    rw [update_orders, update_orders, Option.map_map]
    exact pend_clear oms found .cancel id

/-- A replacement that is not sent uses up an id. -/
theorem replaceOrder_unsent (unused : oms.orders oms.nextClientOrderId = none) (clientOrderId : ClientOrderId)
    (newPrice : Int) (newQuantity : Nat) :
    oms.replaceOrder clientOrderId newPrice newQuantity false =
      (if (oms.workable clientOrderId).isSome then { oms with nextClientOrderId := oms.nextClientOrderId + 1 } else oms,
        none) := by
  unfold OrderManagementSystem.replaceOrder
  cases found : oms.workable clientOrderId with
  | none => rfl
  | some order =>
    obtain ⟨firstAccount, firstNext⟩ := update_account oms clientOrderId fun order => { order with pendingAction := .replace }
    let registered := ((oms.update clientOrderId fun order => { order with pendingAction := .replace }).register
      (newClientOrder oms order.instrumentId order.side newPrice newQuantity order.orderType order.timeInForce))
    let erased : OrderManagementSystem :=
      { registered with orders := Function.update registered.orders oms.nextClientOrderId none }
    obtain ⟨sameAccount, sameNext⟩ := update_account erased clientOrderId fun order => { order with pendingAction := .none }
    refine congrArg (·, none) (oms_ext (sameAccount.trans firstAccount) ?_ fun id => ?_)
    · exact sameNext.trans (congrArg (· + 1) firstNext)
    · show (erased.update clientOrderId _).orders id = oms.orders id
      have entered : erased.orders id =
          if id = oms.nextClientOrderId then none
          else (oms.update clientOrderId fun order => { order with pendingAction := .replace }).orders id := by
        show Function.update (Function.update _ _ _) _ _ id = _
        rw [firstNext, Function.update_idem, Function.update_apply]
      rw [update_orders, entered]
      by_cases new : id = oms.nextClientOrderId
      · rw [if_pos new, new, unused, Option.map_none]
      · rw [if_neg new, update_orders, Option.map_map]
        exact pend_clear oms found .replace id

end Unsent

section Calls
variable {account : AccountId} {client : Client} {engine : MatchingEngine}

theorem send_none (client : Client) (oms : OrderManagementSystem) : client.send oms none = { client with oms } := by
  unfold Client.send
  rw [Option.toList_none, List.append_nil]

/-- Where a cancel or replace that was sent is pending. -/
def pend (oms : OrderManagementSystem) (clientOrderId : ClientOrderId) (action : PendingAction) : OrderManagementSystem :=
  oms.update clientOrderId fun order => { order with pendingAction := action }

/-- What a call makes of the trader. -/
inductive CallOutcome (client : Client) : Call → Client → Prop where
  | stays (call : Call) : CallOutcome client call client
  | sent (instrumentId : InstrumentId) (side : Side) (price : Int) (quantity : Nat) (orderType : Core.OrderType)
      (timeInForce : TimeInForce) :
      CallOutcome client (.submitNewOrder instrumentId side price quantity orderType timeInForce true)
        (client.send
          (client.oms.register (newClientOrder client.oms instrumentId side price quantity orderType timeInForce))
          (some (.newOrder ⟨client.oms.accountId, client.oms.nextClientOrderId, instrumentId, side, price, quantity, orderType,
            timeInForce⟩)))
  | unsent (instrumentId : InstrumentId) (side : Side) (price : Int) (quantity : Nat) (orderType : Core.OrderType)
      (timeInForce : TimeInForce) :
      CallOutcome client (.submitNewOrder instrumentId side price quantity orderType timeInForce false) { client with
        oms := client.oms.register (newClientOrder client.oms instrumentId side price quantity orderType timeInForce).unsent }
  | cancels (clientOrderId : ClientOrderId) (order : ClientOrder) (found : client.oms.workable clientOrderId = some order) :
      CallOutcome client (.cancelOrder clientOrderId true)
        (client.send (pend client.oms clientOrderId .cancel)
          (some (.cancelOrder ⟨client.oms.accountId, clientOrderId, order.instrumentId⟩)))
  | replaces (clientOrderId : ClientOrderId) (newPrice : Int) (newQuantity : Nat) (original : ClientOrder)
      (found : client.oms.workable clientOrderId = some original) :
      CallOutcome client (.replaceOrder clientOrderId newPrice newQuantity true)
        (client.send
          ((pend client.oms clientOrderId .replace).register (newClientOrder client.oms original.instrumentId original.side
            newPrice newQuantity original.orderType original.timeInForce))
          (some (.replaceOrder ⟨client.oms.accountId, clientOrderId, client.oms.nextClientOrderId, original.instrumentId,
            newPrice, newQuantity⟩)))
  | skips (clientOrderId : ClientOrderId) (newPrice : Int) (newQuantity : Nat) :
      CallOutcome client (.replaceOrder clientOrderId newPrice newQuantity false)
        { client with oms := { client.oms with nextClientOrderId := client.oms.nextClientOrderId + 1 } }

theorem call_cancelOrder_of_none {clientOrderId : ClientOrderId} (found : client.oms.workable clientOrderId = none)
    (sent : Bool) : client.call (.cancelOrder clientOrderId sent) = client := by
  unfold Client.call OrderManagementSystem.cancelOrder
  dsimp only
  rw [found]
  exact send_none client client.oms

theorem call_cancelOrder_unsent (clientOrderId : ClientOrderId) :
    client.call (.cancelOrder clientOrderId false) = client := by
  unfold Client.call
  dsimp only
  rw [cancelOrder_unsent]
  exact send_none client client.oms

theorem call_cancelOrder_sent {clientOrderId : ClientOrderId} {order : ClientOrder}
    (found : client.oms.workable clientOrderId = some order) :
    client.call (.cancelOrder clientOrderId true) = client.send (pend client.oms clientOrderId .cancel)
      (some (.cancelOrder ⟨client.oms.accountId, clientOrderId, order.instrumentId⟩)) := by
  obtain ⟨sameAccount, _⟩ := update_account client.oms clientOrderId fun order => { order with pendingAction := .cancel }
  unfold Client.call OrderManagementSystem.cancelOrder
  dsimp only
  rw [found]
  dsimp only
  rw [if_pos rfl, sameAccount]
  rfl

theorem call_replaceOrder_of_none {clientOrderId : ClientOrderId} (found : client.oms.workable clientOrderId = none)
    (newPrice : Int) (newQuantity : Nat) (sent : Bool) :
    client.call (.replaceOrder clientOrderId newPrice newQuantity sent) = client := by
  unfold Client.call OrderManagementSystem.replaceOrder
  dsimp only
  rw [found]
  exact send_none client client.oms

theorem call_replaceOrder_sent {clientOrderId : ClientOrderId} {original : ClientOrder}
    (found : client.oms.workable clientOrderId = some original) (newPrice : Int) (newQuantity : Nat) :
    client.call (.replaceOrder clientOrderId newPrice newQuantity true) =
      client.send ((pend client.oms clientOrderId .replace).register (newClientOrder client.oms original.instrumentId
          original.side newPrice newQuantity original.orderType original.timeInForce))
        (some (.replaceOrder ⟨client.oms.accountId, clientOrderId, client.oms.nextClientOrderId, original.instrumentId,
          newPrice, newQuantity⟩)) := by
  obtain ⟨sameAccount, _⟩ := update_account client.oms clientOrderId fun order => { order with pendingAction := .replace }
  unfold Client.call OrderManagementSystem.replaceOrder
  dsimp only
  rw [found]
  dsimp only
  rw [if_pos rfl]
  exact congrArg (fun account => client.send ((pend client.oms clientOrderId .replace).register (newClientOrder client.oms
    original.instrumentId original.side newPrice newQuantity original.orderType original.timeInForce)) (some (.replaceOrder
      ⟨account, clientOrderId, client.oms.nextClientOrderId, original.instrumentId, newPrice, newQuantity⟩))) sameAccount

theorem call_replaceOrder_unsent (unused : client.oms.orders client.oms.nextClientOrderId = none)
    {clientOrderId : ClientOrderId} {original : ClientOrder} (found : client.oms.workable clientOrderId = some original)
    (newPrice : Int) (newQuantity : Nat) : client.call (.replaceOrder clientOrderId newPrice newQuantity false) =
      { client with oms := { client.oms with nextClientOrderId := client.oms.nextClientOrderId + 1 } } := by
  unfold Client.call
  dsimp only
  rw [replaceOrder_unsent _ unused, found]
  exact send_none client _

theorem call_outcome (unused : client.oms.orders client.oms.nextClientOrderId = none) (call : Call) :
    CallOutcome client call (client.call call) := by
  cases call with
  | submitNewOrder instrumentId side price quantity orderType timeInForce sent =>
    cases sent with
    | true => exact .sent ..
    | false =>
      have result : client.call (.submitNewOrder instrumentId side price quantity orderType timeInForce false) =
          client.send (client.oms.register
            (newClientOrder client.oms instrumentId side price quantity orderType timeInForce).unsent) none := by
        unfold Client.call
        dsimp only
        rw [submitNewOrder_unsent]
      rw [result, send_none]
      exact .unsent ..
  | cancelOrder clientOrderId sent =>
    cases found : client.oms.workable clientOrderId with
    | none =>
      rw [call_cancelOrder_of_none found]
      exact .stays _
    | some order =>
      cases sent with
      | true =>
        rw [call_cancelOrder_sent found]
        exact .cancels _ _ found
      | false =>
        rw [call_cancelOrder_unsent]
        exact .stays _
  | replaceOrder clientOrderId newPrice newQuantity sent =>
    cases found : client.oms.workable clientOrderId with
    | none =>
      rw [call_replaceOrder_of_none found]
      exact .stays _
    | some original =>
      cases sent with
      | true =>
        rw [call_replaceOrder_sent found]
        exact .replaces _ _ _ _ found
      | false =>
        rw [call_replaceOrder_unsent unused found]
        exact .skips ..

/-- Using up an id leaves the orders as they are. -/
theorem Synced.skips (synced : Synced account client engine) :
    Synced account { client with oms := { client.oms with nextClientOrderId := client.oms.nextClientOrderId + 1 } } engine where
  own := synced.own
  unused id past := synced.unused id (Nat.le_of_succ_le past)
  known message member id mentioned := Nat.lt_succ_of_lt (synced.known message member id mentioned)
  asked := synced.asked
  distinct := synced.distinct
  shown := synced.shown

/-- Whatever the trader calls for, and whether it goes out or not, it still follows its orders. -/
theorem Synced.call (synced : Synced account client engine) (call : Call) : Synced account (client.call call) engine := by
  have outcome := call_outcome (synced.unused _ le_rfl) call
  generalize result : client.call call = after at outcome
  cases outcome with
  | stays => exact synced
  | sent => exact synced.submitNewOrder _ _ _ _ _ _
  | unsent => exact synced.registers rfl
  | cancels clientOrderId =>
    rw [← result]
    exact synced.cancelOrder clientOrderId
  | replaces clientOrderId newPrice newQuantity =>
    rw [← result]
    exact synced.replaceOrder clientOrderId newPrice newQuantity
  | skips => exact synced.skips

theorem Synced.calls (synced : Synced account client engine) (calls : List Call) :
    Synced account (calls.foldl Client.call client) engine := by
  induction calls generalizing client with
  | nil => exact synced
  | cons call rest ih => exact ih (synced.call call)

section Asks
variable (client)

/-- What is asked for with a new order, a cancel or a replacement. -/
def newOrderAsked (instrumentId : InstrumentId) (side : Side) (price : Int) (quantity : Nat) (orderType : Core.OrderType)
    (timeInForce : TimeInForce) : ExchangeCommand := .newOrder {
  commandSequence := 0
  accountId := client.oms.accountId
  clientOrderId := client.oms.nextClientOrderId
  instrumentId
  side
  price
  quantity
  orderType
  timeInForce }

def cancelAsked (clientOrderId : ClientOrderId) (order : ClientOrder) : ExchangeCommand := .cancelOrder {
  commandSequence := 0
  accountId := client.oms.accountId
  clientOrderId
  instrumentId := order.instrumentId }

def replacementAsked (clientOrderId : ClientOrderId) (original : ClientOrder) (newPrice : Int) (newQuantity : Nat) :
    ExchangeCommand := .replaceOrder {
  commandSequence := 0
  accountId := client.oms.accountId
  originalClientOrderId := clientOrderId
  newClientOrderId := client.oms.nextClientOrderId
  instrumentId := original.instrumentId
  newPrice
  newQuantity }

end Asks

/-- What a call leaves on record, and asks for. -/
structure Leaves (client after : Client) (records : Records) (commands : List ExchangeCommand) : Prop where
  records : after.records = records
  commands : after.commands = client.commands ++ commands

theorem Synced.submits (synced : Synced account client engine) (instrumentId : InstrumentId) (side : Side) (price : Int)
    (quantity : Nat) (orderType : Core.OrderType) (timeInForce : TimeInForce) :
    Leaves client (client.call (.submitNewOrder instrumentId side price quantity orderType timeInForce true))
      (Function.update client.records client.oms.nextClientOrderId
        (some (newClientOrder client.oms instrumentId side price quantity orderType timeInForce)))
      [newOrderAsked client instrumentId side price quantity orderType timeInForce] :=
  ⟨synced.records_register (newClientOrder client.oms instrumentId side price quantity orderType timeInForce),
    commands_send client _ rfl⟩

theorem Synced.fails (synced : Synced account client engine) (instrumentId : InstrumentId) (side : Side) (price : Int)
    (quantity : Nat) (orderType : Core.OrderType) (timeInForce : TimeInForce) :
    Leaves client (client.call (.submitNewOrder instrumentId side price quantity orderType timeInForce false))
      (Function.update client.records client.oms.nextClientOrderId
        (some (newClientOrder client.oms instrumentId side price quantity orderType timeInForce).unsent)) [] := by
  have result := submitNewOrder_unsent client.oms instrumentId side price quantity orderType timeInForce
  unfold Client.call
  dsimp only
  rw [result, send_none]
  exact ⟨synced.records_register (newClientOrder client.oms instrumentId side price quantity orderType timeInForce).unsent,
    (List.append_nil _).symm⟩

theorem Synced.cancels (synced : Synced account client engine) {clientOrderId : ClientOrderId} {order : ClientOrder}
    (found : client.oms.workable clientOrderId = some order) :
    Leaves client (client.call (.cancelOrder clientOrderId true)) client.records [cancelAsked client clientOrderId order] := by
  rw [call_cancelOrder_sent found]
  exact ⟨(synced.pends clientOrderId .cancel).1, commands_send client _ rfl⟩

theorem Synced.replaces (synced : Synced account client engine) {clientOrderId : ClientOrderId} {original : ClientOrder}
    (found : client.oms.workable clientOrderId = some original) (newPrice : Int) (newQuantity : Nat) :
    Leaves client (client.call (.replaceOrder clientOrderId newPrice newQuantity true))
      (Function.update client.records client.oms.nextClientOrderId (some (newClientOrder client.oms original.instrumentId
        original.side newPrice newQuantity original.orderType original.timeInForce)))
      [replacementAsked client clientOrderId original newPrice newQuantity] := by
  obtain ⟨records, pends⟩ := synced.pends clientOrderId .replace
  obtain ⟨_, sameNext⟩ := update_account client.oms clientOrderId fun order => { order with pendingAction := .replace }
  rw [call_replaceOrder_sent found]
  refine ⟨(pends.records_register (newClientOrder client.oms original.instrumentId original.side newPrice newQuantity
    original.orderType original.timeInForce)).trans ?_, commands_send client _ rfl⟩
  rw [records, sameNext]
  rfl

/-- A call without a request leaves on record what it enters, if anything. -/
theorem leaves_stays (client : Client) : Leaves client client client.records [] := ⟨rfl, (List.append_nil _).symm⟩

end Calls

/-- What a strategy does with its account on an input, and what it makes of the fills it is shown. -/
structure Strategy (σ ι : Type) where
  act : ι → Client → σ → Client × σ
  observe : Fill → σ → σ

/-- Its memory after a report that may be a fill. -/
def Strategy.shown {σ ι : Type} (strategy : Strategy σ ι) (fill : Option Fill) (memory : σ) : σ :=
  fill.elim memory fun fill => strategy.observe fill memory

/-- All it does with its account is call. -/
def Strategy.Calls {σ ι : Type} (strategy : Strategy σ ι) : Prop :=
  ∀ input client memory, ∃ calls : List Call, (strategy.act input client memory).1 = calls.foldl Client.call client

structure Desk (σ : Type) where
  floor : TradingFloor
  memory : σ

inductive DeskAction (ι : Type) where
  | act (input : ι)
  | floor (action : FloorAction)
  deriving DecidableEq, Repr

/-- The action is a call of the account. -/
def FloorAction.calls (account : AccountId) : FloorAction → Bool
  | .submitNewOrder other .. | .cancelOrder other _ | .replaceOrder other .. => other = account
  | .takeRequest _ | .outside _ | .handleReport _ => false

/-- The fill that the account sees in the action. -/
def fillSeen (account : AccountId) (floor : TradingFloor) : FloorAction → Option Fill
  | .handleReport other =>
      if other = account then
        (floor.clients account).reports.head?.bind fun report => ((floor.clients account).oms.handleMessage report).2
      else none
  | .submitNewOrder .. | .cancelOrder .. | .replaceOrder .. | .takeRequest _ | .outside _ => none

section Relates
variable {round : Rounding} {managed : AccountId → Bool} {floor : TradingFloor} {account : AccountId}

/-- A command at the exchange, with a trader that follows its orders and has sent it, or has not. -/
structure Relates (round : Rounding) (account : AccountId) (client : Client) (gated : RiskGatedEngine)
    (command : ExchangeCommand) : Prop where
  sound : gated.engine.Sound
  synced : Synced account client gated.engine
  asked : (subject command).accountId = account → Asked account client.records command
  apart : ∀ other ∈ client.commands, ∀ key, created other = some key → created command ≠ some key

theorem Relates.fresh {client : Client} {gated : RiskGatedEngine} {command : ExchangeCommand}
    (relates : Relates round account client gated command) : FreshFor account gated.engine command :=
  Asked.fresh relates.asked relates.synced.shown

theorem Relates.tells {client : Client} {gated : RiskGatedEngine} {command : ExchangeCommand}
    (relates : Relates round account client gated command) :
    Tells account (recordViews client.records) command (gated.process round command).events ∧
      Shown account ((gated.process round command).events.foldl viewsAfter (recordViews client.records))
        (gated.process round command).gated.engine :=
  process_tells round relates.sound relates.synced.shown command relates.fresh

theorem Followed.relates_own (followed : Followed managed floor) (alone : managed account = true) {request : Message}
    {requests : List Message} (queued : (floor.clients account).requests = request :: requests) {command : ExchangeCommand}
    (stands : toCommand request = some command) :
    Relates round account { floor.clients account with requests } floor.exchange (floor.sequencer.sequence command).1 := by
  obtain ⟨rest, asked, fresh⟩ := (followed.synced account alone).takes queued stands
  obtain ⟨_, sameCreated, sameAsked⟩ := sequence_alike floor.sequencer command
  refine ⟨followed.sound, rest, fun _ => (sameAsked _ _).mpr asked, fun other member key asks creates => ?_⟩
  rw [sameCreated] at creates
  exact fresh key creates (List.mem_filterMap.mpr ⟨other, member, asks⟩)

theorem Followed.relates_foreign (followed : Followed managed floor) (alone : managed account = true)
    {command : ExchangeCommand} (foreign : (subject command).accountId ≠ account) :
    Relates round account (floor.clients account) floor.exchange command := by
  refine ⟨followed.sound, followed.synced account alone, fun own => absurd own foreign, fun other member key asks creates => ?_⟩
  obtain ⟨own, _⟩ := ((followed.synced account alone).asked other member).creates asks
  exact foreign ((created_account creates).symm.trans own)

end Relates

namespace Desk
variable {σ ι : Type} (round : Rounding) (managed : AccountId → Bool) (account : AccountId) (strategy : Strategy σ ι)

/-- The strategy's account is called by nobody else. -/
def step (desk : Desk σ) : DeskAction ι → Option (Desk σ)
  | .act input =>
      let (client, memory) := strategy.act input (desk.floor.clients account) desk.memory
      some { floor := desk.floor.setClient account client, memory }
  | .floor action =>
      if action.calls account then none
      else (desk.floor.step round managed action).map fun floor => {
        floor
        memory := strategy.shown (fillSeen account desk.floor action) desk.memory }

def start (limits : RiskLimits) (instruments : List InstrumentId) (deposits : List Deposit) (memory : σ) : Desk σ where
  floor := TradingFloor.start round limits instruments deposits
  memory

section Runs
variable {round managed account strategy} {desk after : Desk σ} {action : DeskAction ι}

theorem fillSeen_of_ne {floor : TradingFloor} {action : FloorAction} (other : action ≠ .handleReport account) :
    fillSeen account floor action = none := by
  cases action with
  | handleReport named => exact if_neg fun same => other (congrArg _ same)
  | submitNewOrder | cancelOrder | replaceOrder | takeRequest | outside => rfl

theorem step_followed (calls : strategy.Calls) (alone : managed account = true) (followed : Followed managed desk.floor)
    (stepped : desk.step round managed account strategy action = some after) : Followed managed after.floor := by
  cases action with
  | act input =>
    obtain rfl := Option.some.inj stepped
    obtain ⟨made, result⟩ := calls input (desk.floor.clients account) desk.memory
    refine followed.setClient (fun _ => ?_) fun outside => by rw [alone] at outside; cases outside
    rw [result]
    exact (followed.synced account alone).calls made
  | floor action =>
    simp only [step] at stepped
    split_ifs at stepped
    obtain ⟨floor, moved, rfl⟩ := Option.map_eq_some_iff.mp stepped
    exact followed.step round moved

/-- What a step is to the strategy and its account. -/
inductive Sees (round : Rounding) (account : AccountId) (strategy : Strategy σ ι) (desk after : Desk σ) : DeskAction ι → Prop where
  | acts (input : ι)
      (client : after.floor.clients account = (strategy.act input (desk.floor.clients account) desk.memory).1)
      (exchange : after.floor.exchange = desk.floor.exchange)
      (memory : after.memory = (strategy.act input (desk.floor.clients account) desk.memory).2) :
      Sees round account strategy desk after (.act input)
  | stays (action : FloorAction) (client : after.floor.clients account = desk.floor.clients account)
      (exchange : after.floor.exchange = desk.floor.exchange) (memory : after.memory = desk.memory) :
      Sees round account strategy desk after (.floor action)
  | handles (report : Message) (reports : List Message) (queued : (desk.floor.clients account).reports = report :: reports)
      (client : after.floor.clients account = ({ desk.floor.clients account with reports } : Client).handle round report)
      (exchange : after.floor.exchange = desk.floor.exchange)
      (memory : after.memory = strategy.shown ((desk.floor.clients account).oms.handleMessage report).2 desk.memory) :
      Sees round account strategy desk after (.floor (.handleReport account))
  | takes (request : Message) (requests : List Message) (command : ExchangeCommand)
      (queued : (desk.floor.clients account).requests = request :: requests) (stands : toCommand request = some command)
      (client : after.floor.clients account = ({ desk.floor.clients account with requests } : Client).told account
        (desk.floor.exchange.process round (desk.floor.sequencer.sequence command).1).events)
      (exchange : after.floor.exchange = (desk.floor.exchange.process round (desk.floor.sequencer.sequence command).1).gated)
      (memory : after.memory = desk.memory) :
      Sees round account strategy desk after (.floor (.takeRequest account))
  | observes (action : FloorAction) (command : ExchangeCommand) (foreign : (subject command).accountId ≠ account)
      (client : after.floor.clients account =
        (desk.floor.clients account).told account (desk.floor.exchange.process round command).events)
      (exchange : after.floor.exchange = (desk.floor.exchange.process round command).gated)
      (memory : after.memory = desk.memory) :
      Sees round account strategy desk after (.floor action)

theorem sees (alone : managed account = true) (followed : Followed managed desk.floor)
    (stepped : desk.step round managed account strategy action = some after) :
    Sees round account strategy desk after action := by
  cases action with
  | act input =>
    obtain rfl := Option.some.inj stepped
    exact .acts input (Function.update_self ..) rfl rfl
  | floor action =>
    simp only [step] at stepped
    split_ifs at stepped with called
    obtain ⟨floor, moved, rfl⟩ := Option.map_eq_some_iff.mp stepped
    by_cases own : action = .handleReport account
    · subst own
      simp only [TradingFloor.step] at moved
      split at moved
      · cases moved
      · rename_i report reports queued
        obtain rfl := Option.some.inj moved
        have fill : fillSeen account desk.floor (.handleReport account) =
            ((desk.floor.clients account).oms.handleMessage report).2 := by
          refine (if_pos rfl).trans ?_
          rw [queued]
          rfl
        exact .handles report reports queued (Function.update_self ..) rfl (congrArg (strategy.shown · desk.memory) fill)
    · have same : strategy.shown (fillSeen account desk.floor action) desk.memory = desk.memory := by
        rw [fillSeen_of_ne own]
        rfl
      cases followed.sees round moved alone with
      | stays action client exchange => exact .stays action client exchange same
      | submits | cancels | replaces => exact absurd (decide_eq_true rfl) called
      | handles => exact absurd rfl own
      | takes request requests command queued stands client exchange =>
        exact .takes request requests command queued stands client exchange same
      | observes action command foreign client exchange => exact .observes action command foreign client exchange same

end Runs

end Desk

end Mdh.Trader
