import Mdh.Gateway.ByteChannel
import Mdh.Trader.TradingFloor

/-! The trading floor with its channels byte by byte. Seen through what has been sent and not acted
on, every run of it is a run of the floor whose channels carry whole messages. -/

namespace Mdh.Trader
open Mdh.Core Mdh.Lib Mdh.Matching Mdh.Risk Mdh.Gateway Mdh.Sequencing

structure WireClient where
  oms : OrderManagementSystem
  positions : PositionTracker := {}
  up : ByteChannel := {}
  down : ByteChannel := {}

structure WireFloor where
  exchange : RiskGatedEngine
  sequencer : CommandSequencer := {}
  clients : AccountId → WireClient

inductive WireAction where
  | floor (action : FloorAction)
  | up (accountId : AccountId) (action : ChannelAction)
  | down (accountId : AccountId) (action : ChannelAction)
  deriving DecidableEq, Repr

/-- A channel as the floor of whole messages has it. -/
def WireClient.view (client : WireClient) : Client where
  oms := client.oms
  positions := client.positions
  requests := client.up.pending
  reports := client.down.pending

def WireClient.send (client : WireClient) (oms : OrderManagementSystem) (request : Option Message) : WireClient :=
  { client with oms, up := client.up.enqueueAll request.toList }

def WireClient.handle (round : Rounding) (client : WireClient) (message : Message) : WireClient :=
  let (oms, fill) := client.oms.handleMessage message
  { client with
    oms
    positions := match fill with
      | none => client.positions
      | some fill => client.positions.apply round fill }

def WireClient.start (round : Rounding) (deposits : List Deposit) (accountId : AccountId) : WireClient where
  oms := { accountId }
  positions := (deposits.filter fun deposit => depositAccount deposit = accountId).foldl (deposited round) {}

namespace WireFloor
variable (round : Rounding) (managed : AccountId → Bool)

def start (limits : RiskLimits) (instruments : List InstrumentId) (deposits : List Deposit) : WireFloor where
  exchange := RiskGatedEngine.start round limits instruments deposits
  clients := WireClient.start round deposits

/-- The floor of whole messages that this one stands for. -/
def view (floor : WireFloor) : TradingFloor where
  exchange := floor.exchange
  sequencer := floor.sequencer
  clients := fun accountId => (floor.clients accountId).view

variable (floor : WireFloor)

def setClient (accountId : AccountId) (client : WireClient) : WireFloor :=
  { floor with clients := Function.update floor.clients accountId client }

/-- The exchange processes a command, and every account's reports go to its writer. -/
def process (command : ExchangeCommand) : WireFloor :=
  let (sequenced, sequencer) := floor.sequencer.sequence command
  let after := floor.exchange.process round sequenced
  { exchange := after.gated
    sequencer
    clients := fun accountId =>
      let client := floor.clients accountId
      { client with down := client.down.enqueueAll (reportsFor accountId after.events) } }

def step (writerBatch : Nat) (floor : WireFloor) : WireAction → Option WireFloor
  | .floor (.submitNewOrder accountId instrumentId side price quantity orderType timeInForce) =>
      if managed accountId then
        let client := floor.clients accountId
        let (oms, _, request) := client.oms.submitNewOrder instrumentId side price quantity orderType timeInForce true
        some (floor.setClient accountId (client.send oms request))
      else none
  | .floor (.cancelOrder accountId clientOrderId) =>
      if managed accountId then
        let client := floor.clients accountId
        let (oms, request) := client.oms.cancelOrder clientOrderId true
        some (floor.setClient accountId (client.send oms request))
      else none
  | .floor (.replaceOrder accountId clientOrderId newPrice newQuantity) =>
      if managed accountId then
        let client := floor.clients accountId
        let (oms, request) := client.oms.replaceOrder clientOrderId newPrice newQuantity true
        some (floor.setClient accountId (client.send oms (request.map Prod.snd)))
      else none
  | .floor (.takeRequest accountId) =>
      let client := floor.clients accountId
      client.up.takeNext.bind fun (request, up) =>
        (toCommand request).map fun command =>
          (floor.setClient accountId { client with up }).process round command
  | .floor (.outside command) => if managed command.accountId then none else some (floor.process round command)
  | .floor (.handleReport accountId) =>
      let client := floor.clients accountId
      client.down.takeNext.map fun (report, down) =>
        floor.setClient accountId ({ client with down }.handle round report)
  | .up accountId action =>
      let client := floor.clients accountId
      (client.up.step .gateway writerBatch action).map fun up => floor.setClient accountId { client with up }
  | .down accountId action =>
      let client := floor.clients accountId
      (client.down.step .client writerBatch action).map fun down => floor.setClient accountId { client with down }

/-- What is left of a run when the moves of bytes are left out. -/
def floorAction : WireAction → Option FloorAction
  | .floor action => some action
  | .up .. | .down .. => none

end WireFloor

/-- Every message sent fits the fields of the wire. -/
structure WireFloor.Fits (floor : WireFloor) : Prop where
  up : ∀ accountId, ∀ message ∈ (floor.clients accountId).up.sent, Representable message
  down : ∀ accountId, ∀ message ∈ (floor.clients accountId).down.sent, Representable message

structure WireFloor.Carries (floor : WireFloor) : Prop where
  up : ∀ accountId, (floor.clients accountId).up.Carries
  down : ∀ accountId, (floor.clients accountId).down.Carries

namespace WireFloor

section Views
variable {floor : WireFloor} {client : WireClient}

/-- Messages handed to a writer are pending behind those that were. -/
theorem pending_enqueueAll {channel : ByteChannel} (taken : channel.taken ≤ channel.sent.length)
    (messages : List Message) : (channel.enqueueAll messages).pending = channel.pending ++ messages := by
  rw [ByteChannel.enqueueAll_eq]
  exact List.drop_append_of_le_length taken

theorem view_setClient (floor : WireFloor) (accountId : AccountId) (client : WireClient) :
    (floor.setClient accountId client).view = floor.view.setClient accountId client.view := by
  unfold view setClient TradingFloor.setClient
  congr 1
  funext other
  exact Function.apply_update (fun _ client => WireClient.view client) floor.clients accountId client other

theorem view_send (taken : client.up.taken ≤ client.up.sent.length) (oms : OrderManagementSystem)
    (request : Option Message) : (client.send oms request).view = client.view.send oms request := by
  unfold WireClient.send WireClient.view Client.send
  rw [pending_enqueueAll taken]

theorem view_process (round : Rounding) (taken : ∀ accountId, (floor.clients accountId).down.taken ≤
      (floor.clients accountId).down.sent.length) (command : ExchangeCommand) :
    (floor.process round command).view = floor.view.process round command := by
  unfold view process TradingFloor.process
  congr 1
  funext accountId
  unfold WireClient.view
  congr 1
  exact pending_enqueueAll (taken accountId) _

end Views

section Steps
variable {round : Rounding} {managed : AccountId → Bool} {writerBatch : Nat} {floor next : WireFloor} {client : WireClient}

/-- What was sent is sent. -/
def Grows (floor next : WireFloor) : Prop :=
  ∀ accountId, (floor.clients accountId).up.sent <+: (next.clients accountId).up.sent ∧
    (floor.clients accountId).down.sent <+: (next.clients accountId).down.sent

theorem Grows.fits (grows : Grows floor next) (fits : next.Fits) : floor.Fits where
  up accountId message member := fits.up accountId message ((grows accountId).1.subset member)
  down accountId message member := fits.down accountId message ((grows accountId).2.subset member)

theorem Grows.trans {last : WireFloor} (one : Grows floor next) (two : Grows next last) : Grows floor last :=
  fun accountId => ⟨(one accountId).1.trans (two accountId).1, (one accountId).2.trans (two accountId).2⟩

theorem grows_setClient (accountId : AccountId) (up : (floor.clients accountId).up.sent <+: client.up.sent)
    (down : (floor.clients accountId).down.sent <+: client.down.sent) : Grows floor (floor.setClient accountId client) := by
  intro other
  by_cases same : other = accountId
  · subst same
    show _ <+: (Function.update floor.clients other client other).up.sent ∧
      _ <+: (Function.update floor.clients other client other).down.sent
    rw [Function.update_self]
    exact ⟨up, down⟩
  · show _ <+: (Function.update floor.clients accountId client other).up.sent ∧
      _ <+: (Function.update floor.clients accountId client other).down.sent
    rw [Function.update_of_ne same]
    exact ⟨List.prefix_rfl, List.prefix_rfl⟩

theorem Carries.setClient (carries : floor.Carries) (accountId : AccountId) (up : client.up.Carries)
    (down : client.down.Carries) : (floor.setClient accountId client).Carries := by
  have each (other : AccountId) : (Function.update floor.clients accountId client other).up.Carries ∧
      (Function.update floor.clients accountId client other).down.Carries := by
    by_cases same : other = accountId
    · subst same
      rw [Function.update_self]
      exact ⟨up, down⟩
    · rw [Function.update_of_ne same]
      exact ⟨carries.up other, carries.down other⟩
  exact ⟨fun other => (each other).1, fun other => (each other).2⟩

theorem Carries.process (carries : floor.Carries) (round : Rounding) (command : ExchangeCommand) :
    (floor.process round command).Carries where
  up := carries.up
  down accountId := (carries.down accountId).enqueueAll _

theorem grows_process (round : Rounding) (floor : WireFloor) (command : ExchangeCommand) :
    Grows floor (floor.process round command) := by
  intro accountId
  refine ⟨List.prefix_rfl, ?_⟩
  show _ <+: ((floor.clients accountId).down.enqueueAll _).sent
  rw [ByteChannel.enqueueAll_eq]
  exact List.prefix_append ..

/-- What has been acted on was sent. -/
theorem taken_le {channel : ByteChannel} (carries : channel.Carries)
    (fits : ∀ message ∈ channel.sent, Representable message) : channel.taken ≤ channel.sent.length :=
  carries.taken.trans (carries.decoded fits).length_le

theorem Carries.send (carries : floor.Carries) (accountId : AccountId) (oms : OrderManagementSystem)
    (request : Option Message) :
    let next := floor.setClient accountId ((floor.clients accountId).send oms request)
    next.Carries ∧ Grows floor next ∧
      (floor.Fits → next.view = floor.view.setClient accountId ((floor.clients accountId).view.send oms request)) := by
  refine ⟨carries.setClient accountId ((carries.up accountId).enqueueAll _) (carries.down accountId),
    grows_setClient accountId ?_ List.prefix_rfl, fun fits => ?_⟩
  · unfold WireClient.send
    rw [ByteChannel.enqueueAll_eq]
    exact List.prefix_append ..
  · rw [view_setClient, view_send (taken_le (carries.up accountId) (fits.up accountId))]

/-- What a step of the wire is, seen from the floor of whole messages: a step of it, or none. -/
def Simulates (round : Rounding) (managed : AccountId → Bool) (floor : WireFloor) (action : WireAction)
    (next : WireFloor) : Prop :=
  match floorAction action with
  | some action => floor.view.step round managed action = some next.view
  | none => next.view = floor.view

/-- Bytes move on a channel up; the floor of whole messages stands still. -/
theorem Carries.moveUp (carries : floor.Carries) {accountId : AccountId} {action : ChannelAction} {up : ByteChannel}
    (moved : (floor.clients accountId).up.step .gateway writerBatch action = some up) :
    let next := floor.setClient accountId { floor.clients accountId with up }
    next.Carries ∧ Grows floor next ∧ next.view = floor.view := by
  obtain ⟨sent, taken⟩ := ByteChannel.step_pending moved
  refine ⟨carries.setClient accountId ((carries.up accountId).step moved) (carries.down accountId),
    grows_setClient accountId (sent ▸ List.prefix_rfl) List.prefix_rfl, ?_⟩
  rw [view_setClient]
  have same : ({ floor.clients accountId with up } : WireClient).view = (floor.clients accountId).view := by
    unfold WireClient.view ByteChannel.pending
    rw [sent, taken]
  rw [same]
  unfold TradingFloor.setClient
  congr 1
  exact Function.update_eq_self accountId _

theorem Carries.moveDown (carries : floor.Carries) {accountId : AccountId} {action : ChannelAction} {down : ByteChannel}
    (moved : (floor.clients accountId).down.step .client writerBatch action = some down) :
    let next := floor.setClient accountId { floor.clients accountId with down }
    next.Carries ∧ Grows floor next ∧ next.view = floor.view := by
  obtain ⟨sent, taken⟩ := ByteChannel.step_pending moved
  refine ⟨carries.setClient accountId (carries.up accountId) ((carries.down accountId).step moved),
    grows_setClient accountId List.prefix_rfl (sent ▸ List.prefix_rfl), ?_⟩
  rw [view_setClient]
  have same : ({ floor.clients accountId with down } : WireClient).view = (floor.clients accountId).view := by
    unfold WireClient.view ByteChannel.pending
    rw [sent, taken]
  rw [same]
  unfold TradingFloor.setClient
  congr 1
  exact Function.update_eq_self accountId _

/-- The gateway acts on the next request of an account. -/
theorem Carries.takeRequest (carries : floor.Carries) {accountId : AccountId} {request : Message} {up : ByteChannel}
    {command : ExchangeCommand} (taken : (floor.clients accountId).up.takeNext = some (request, up))
    (translated : toCommand request = some command) :
    let next := (floor.setClient accountId { floor.clients accountId with up }).process round command
    next.Carries ∧ Grows floor next ∧
      (next.Fits → floor.view.step round managed (.takeRequest accountId) = some next.view) := by
  have moved := ByteChannel.takeNext_eq taken
  have middle : (floor.setClient accountId { floor.clients accountId with up }).Carries :=
    carries.setClient accountId ((carries.up accountId).takeNext taken) (carries.down accountId)
  have first : Grows floor (floor.setClient accountId { floor.clients accountId with up }) :=
    grows_setClient accountId (moved ▸ List.prefix_rfl) List.prefix_rfl
  have grows := first.trans (grows_process round _ command)
  refine ⟨middle.process round command, grows, fun fits => ?_⟩
  have fitting := (grows_process round _ command).fits fits
  have waiting := (carries.up accountId).pending_takeNext ((grows.fits fits).up accountId) taken
  have requests : (floor.view.clients accountId).requests = request :: up.pending := waiting
  simp only [TradingFloor.step, requests, translated, Option.map_some]
  rw [view_process round fun other => taken_le (middle.down other) (fitting.down other), view_setClient]
  rfl

/-- A trader handles its next report. -/
theorem Carries.handleReport (carries : floor.Carries) {accountId : AccountId} {report : Message} {down : ByteChannel}
    (taken : (floor.clients accountId).down.takeNext = some (report, down)) :
    let next := floor.setClient accountId ({ floor.clients accountId with down }.handle round report)
    next.Carries ∧ Grows floor next ∧
      (next.Fits → floor.view.step round managed (.handleReport accountId) = some next.view) := by
  have moved := ByteChannel.takeNext_eq taken
  have grows : Grows floor (floor.setClient accountId ({ floor.clients accountId with down }.handle round report)) :=
    grows_setClient accountId List.prefix_rfl (moved ▸ List.prefix_rfl)
  refine ⟨carries.setClient accountId (carries.up accountId) ((carries.down accountId).takeNext taken), grows,
    fun fits => ?_⟩
  have waiting := (carries.down accountId).pending_takeNext ((grows.fits fits).down accountId) taken
  have reports : (floor.view.clients accountId).reports = report :: down.pending := waiting
  simp only [TradingFloor.step, reports]
  rw [view_setClient]
  rfl

theorem Carries.step (carries : floor.Carries) {action : WireAction}
    (stepped : floor.step round managed writerBatch action = some next) :
    next.Carries ∧ Grows floor next ∧ (next.Fits → Simulates round managed floor action next) := by
  cases action with
  | up accountId action =>
    obtain ⟨up, moved, rfl⟩ := Option.map_eq_some_iff.mp stepped
    obtain ⟨after, grows, same⟩ := carries.moveUp moved
    exact ⟨after, grows, fun _ => same⟩
  | down accountId action =>
    obtain ⟨down, moved, rfl⟩ := Option.map_eq_some_iff.mp stepped
    obtain ⟨after, grows, same⟩ := carries.moveDown moved
    exact ⟨after, grows, fun _ => same⟩
  | floor action =>
    cases action with
    | submitNewOrder accountId instrumentId side price quantity orderType timeInForce =>
      simp only [WireFloor.step, Option.ite_none_right_eq_some, Option.some.injEq] at stepped
      obtain ⟨mine, rfl⟩ := stepped
      obtain ⟨after, grows, same⟩ := carries.send accountId _ _
      exact ⟨after, grows, fun fits => (if_pos mine).trans (congrArg some (same (grows.fits fits)).symm)⟩
    | cancelOrder accountId clientOrderId =>
      simp only [WireFloor.step, Option.ite_none_right_eq_some, Option.some.injEq] at stepped
      obtain ⟨mine, rfl⟩ := stepped
      obtain ⟨after, grows, same⟩ := carries.send accountId _ _
      exact ⟨after, grows, fun fits => (if_pos mine).trans (congrArg some (same (grows.fits fits)).symm)⟩
    | replaceOrder accountId clientOrderId newPrice newQuantity =>
      simp only [WireFloor.step, Option.ite_none_right_eq_some, Option.some.injEq] at stepped
      obtain ⟨mine, rfl⟩ := stepped
      obtain ⟨after, grows, same⟩ := carries.send accountId _ _
      exact ⟨after, grows, fun fits => (if_pos mine).trans (congrArg some (same (grows.fits fits)).symm)⟩
    | takeRequest accountId =>
      obtain ⟨⟨request, up⟩, taken, rest⟩ := Option.bind_eq_some_iff.mp stepped
      obtain ⟨command, translated, rfl⟩ := Option.map_eq_some_iff.mp rest
      exact carries.takeRequest taken translated
    | outside command =>
      simp only [WireFloor.step, Option.ite_none_left_eq_some, Option.some.injEq] at stepped
      obtain ⟨other, rfl⟩ := stepped
      have grows := grows_process round floor command
      refine ⟨carries.process round command, grows, fun fits => ?_⟩
      have same := view_process round (fun accountId =>
        taken_le (carries.down accountId) ((grows.fits fits).down accountId)) command
      exact (if_neg other).trans (congrArg some same.symm)
    | handleReport accountId =>
      obtain ⟨⟨report, down⟩, taken, rfl⟩ := Option.map_eq_some_iff.mp stepped
      exact carries.handleReport taken

end Steps

section Runs
variable {round : Rounding} {managed : AccountId → Bool} {writerBatch : Nat} {limits : RiskLimits}
  {instruments : List InstrumentId} {deposits : List Deposit} {floor : WireFloor} {actions : List WireAction}

theorem start_carries (round : Rounding) (limits : RiskLimits) (instruments : List InstrumentId)
    (deposits : List Deposit) : (start round limits instruments deposits).Carries := by
  have fresh : ByteChannel.Carries {} := ⟨⟨[], rfl, rfl⟩, Nat.zero_le _⟩
  exact ⟨fun _ => fresh, fun _ => fresh⟩

/-- A run on the wire, with the moves of bytes left out. -/
theorem run_simulates (ran : Transitions.run (WireFloor.step round managed writerBatch)
    (start round limits instruments deposits) actions = some floor) :
    floor.Carries ∧ (floor.Fits → Transitions.run (TradingFloor.step round managed)
      (TradingFloor.start round limits instruments deposits) (actions.filterMap floorAction) = some floor.view) := by
  refine Transitions.run_rule (fun actions floor => floor.Carries ∧ (floor.Fits →
    Transitions.run (TradingFloor.step round managed) (TradingFloor.start round limits instruments deposits)
      (actions.filterMap floorAction) = some floor.view))
    ⟨start_carries round limits instruments deposits, fun _ => rfl⟩ ?_ ran
  intro actions before action after _ earlier stepped
  obtain ⟨carried, grows, simulates⟩ := earlier.1.step stepped
  refine ⟨carried, fun fits => ?_⟩
  have through := earlier.2 (grows.fits fits)
  have last := simulates fits
  unfold Simulates at last
  cases erased : floorAction action with
  | none =>
    rw [erased] at last
    rw [List.filterMap_append, List.filterMap_cons_none erased, List.filterMap_nil, List.append_nil, last]
    exact through
  | some action =>
    rw [erased] at last
    rw [List.filterMap_append, List.filterMap_cons_some erased, List.filterMap_nil, Transitions.run_concat, through]
    exact last

/-- Moves of one channel up are moves of the floor. -/
theorem run_up {accountId : AccountId} {moves : List ChannelAction} {up : ByteChannel}
    (ran : Transitions.run (ByteChannel.step .gateway writerBatch) (floor.clients accountId).up moves = some up) :
    Transitions.run (WireFloor.step round managed writerBatch) floor (moves.map (.up accountId)) =
      some (floor.setClient accountId { floor.clients accountId with up }) := by
  refine Transitions.run_rule (fun moves up =>
    Transitions.run (WireFloor.step round managed writerBatch) floor (moves.map (.up accountId)) =
      some (floor.setClient accountId { floor.clients accountId with up })) ?_ ?_ ran
  · show some floor = some { floor with clients := Function.update floor.clients accountId (floor.clients accountId) }
    rw [Function.update_eq_self]
  · intro moves up move after _ earlier stepped
    have here : ((floor.setClient accountId { floor.clients accountId with up }).clients accountId) =
        { floor.clients accountId with up } := Function.update_self ..
    rw [List.map_append, List.map_singleton, Transitions.run_concat, earlier]
    simp only [Option.bind_some, WireFloor.step, here, stepped, Option.map_some]
    unfold setClient
    rw [Function.update_idem]

theorem run_down {accountId : AccountId} {moves : List ChannelAction} {down : ByteChannel}
    (ran : Transitions.run (ByteChannel.step .client writerBatch) (floor.clients accountId).down moves = some down) :
    Transitions.run (WireFloor.step round managed writerBatch) floor (moves.map (.down accountId)) =
      some (floor.setClient accountId { floor.clients accountId with down }) := by
  refine Transitions.run_rule (fun moves down =>
    Transitions.run (WireFloor.step round managed writerBatch) floor (moves.map (.down accountId)) =
      some (floor.setClient accountId { floor.clients accountId with down })) ?_ ?_ ran
  · show some floor = some { floor with clients := Function.update floor.clients accountId (floor.clients accountId) }
    rw [Function.update_eq_self]
  · intro moves down move after _ earlier stepped
    have here : ((floor.setClient accountId { floor.clients accountId with down }).clients accountId) =
        { floor.clients accountId with down } := Function.update_self ..
    rw [List.map_append, List.map_singleton, Transitions.run_concat, earlier]
    simp only [Option.bind_some, WireFloor.step, here, stepped, Option.map_some]
    unfold setClient
    rw [Function.update_idem]

/-- Batching, partial writes and reads that end anywhere change nothing: left out of a run on the wire,
they leave a run of the floor whose channels carry whole messages, with the same exchange, the same
orders and the same positions. And from wherever a run stands, moving bytes alone brings each channel to
where every message sent has been decoded and no byte is kept back. -/
theorem wire_refines_floor (ran : Transitions.run (WireFloor.step round managed writerBatch)
      (start round limits instruments deposits) actions = some floor) (fits : floor.Fits) :
    Transitions.run (TradingFloor.step round managed) (TradingFloor.start round limits instruments deposits)
        (actions.filterMap floorAction) = some floor.view ∧
      ∀ accountId,
        (∃ (moves : List ChannelAction) (last : WireFloor),
          Transitions.run (WireFloor.step round managed writerBatch) floor (moves.map (.up accountId)) = some last ∧
            (last.clients accountId).up.reader = { decoded := (floor.clients accountId).up.sent }) ∧
        ∃ (moves : List ChannelAction) (last : WireFloor),
          Transitions.run (WireFloor.step round managed writerBatch) floor (moves.map (.down accountId)) = some last ∧
            (last.clients accountId).down.reader = { decoded := (floor.clients accountId).down.sent } := by
  obtain ⟨carries, simulates⟩ := run_simulates ran
  refine ⟨simulates fits, fun accountId => ⟨?_, ?_⟩⟩
  · obtain ⟨moves, up, moved, decoded⟩ := (carries.up accountId).drains .gateway writerBatch (fits.up accountId)
    refine ⟨moves, _, run_up moved, ?_⟩
    show (Function.update floor.clients accountId _ accountId).up.reader = _
    rw [Function.update_self]
    exact decoded
  · obtain ⟨moves, down, moved, decoded⟩ := (carries.down accountId).drains .client writerBatch (fits.down accountId)
    refine ⟨moves, _, run_down moved, ?_⟩
    show (Function.update floor.clients accountId _ accountId).down.reader = _
    rw [Function.update_self]
    exact decoded

/-- An order whose bytes go out in two writes and come in in two reads. -/
def splitOrder : List WireAction := [
  .floor (.submitNewOrder 7 3 .buy 100 5 .limit .gtc), .up 7 (.encode 1), .up 7 (.write 10), .up 7 (.read 4),
  .up 7 (.write 32), .up 7 (.read 38)]

theorem splitOrder_fits {floor : WireFloor}
    (ran : Transitions.run (WireFloor.step .exact (fun accountId => accountId = 7) 4)
      (start .exact {} [3] [.cash 7 1000]) splitOrder = some floor) : floor.Fits := by
  cases ran
  constructor <;> intro accountId <;> by_cases same : accountId = 7
  · subst same
    decide +kernel
  · simp [setClient, same, start, WireClient.start]
  · subst same
    decide +kernel
  · simp [setClient, same, start, WireClient.start]

/-- Left without its moves of bytes the run is the one call. -/
theorem wire_refines_floor_split :
    ∃ floor : WireFloor, Transitions.run (WireFloor.step .exact (fun accountId => accountId = 7) 4)
        (start .exact {} [3] [.cash 7 1000]) splitOrder = some floor ∧
      Transitions.run (TradingFloor.step .exact fun accountId => accountId = 7)
        (TradingFloor.start .exact {} [3] [.cash 7 1000]) [.submitNewOrder 7 3 .buy 100 5 .limit .gtc] =
          some floor.view := by
  have ran : Transitions.run (WireFloor.step .exact (fun accountId => accountId = 7) 4)
      (start .exact {} [3] [.cash 7 1000]) splitOrder = some _ := rfl
  exact ⟨_, ran, (wire_refines_floor ran (splitOrder_fits ran)).1⟩

end Runs

end WireFloor

end Mdh.Trader
