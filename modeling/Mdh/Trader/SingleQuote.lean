import Mdh.Trader.FinishedOrders
import Mdh.Trader.RestingQuote

/-! A resting quote never doubles. The quote may ask for an order while an earlier one still rests only
by replacing that one, and the exchange lets the replacement in as it takes the other out. -/

namespace Mdh.Trader
open Mdh.Core Mdh.Lib Mdh.Matching Mdh.Matching.MatchingEngine Mdh.Risk Mdh.Risk.RiskGatedEngine Mdh.Gateway

section Events
variable {account : AccountId} {records : Records} {views : OrderViews} {command : ExchangeCommand} {events : List ExchangeEvent}

/-- A replacement is heard of only once the order it replaces is out of view. -/
theorem Tells.supersedes (tells : Tells account views command events) {id : ClientOrderId}
    (asks : created command = some ⟨account, id⟩) (unseen : views ⟨account, id⟩ = none)
    (replaces : subject command ≠ ⟨account, id⟩) :
    events.foldl viewsAfter views (subject command) = none ∨
      events.foldl viewsAfter views ⟨account, id⟩ = none ∧ ∀ message ∈ reportsFor account events, ¬ Mentions message id := by
  obtain ⟨event, later, rfl, outcome, ofBook⟩ := tells.first
  rcases outcome with answers | ⟨rejection, rfl, named⟩
  · cases command with
    | newOrder command => exact absurd (Option.some.inj asks) replaces
    | cancelOrder command => cases asks
    | replaceOrder command =>
      obtain ⟨_, _, rfl⟩ := answers
      refine Or.inl (ofBook_allUnseen ofBook ?_)
      have different : originalKey command ≠ replacementKey command := fun same =>
        replaces (same.trans (Option.some.inj asks))
      exact (Function.update_of_ne different ..).trans (Function.update_self ..)
  · have still : viewsAfter views (.orderRejected rejection) ⟨account, id⟩ = none := unseen
    refine Or.inr ⟨ofBook_allUnseen ofBook still, fun message member mentioned => ?_⟩
    rw [reportsFor_cons] at member
    rcases List.mem_append.mp member with first | after
    · rw [reportsFor_single account rfl] at first
      split_ifs at first with own
      · obtain rfl := List.mem_singleton.mp first
        exact replaces (named.symm.trans (congrArg₂ LiveKey.mk own mentioned.symm))
      · cases first
    · exact mentions_ofBook tells.recounts.2 ofBook after mentioned unseen

end Events

/-- The order is among the records as live. -/
def InView (records : Records) (id : ClientOrderId) : Prop := (records id).bind ClientOrder.view ≠ none

/-- The order is entered and nothing has been heard of it. -/
def Pending (records : Records) (id : ClientOrderId) : Prop :=
  ∃ order, records id = some order ∧ order.state = .pendingNew

section Records
variable {account : AccountId} {records : Records} {command : ExchangeCommand} {events : List ExchangeEvent} {id : ClientOrderId}

theorem Pending.unseen (pending : Pending records id) : ¬ InView records id := by
  obtain ⟨order, found, state⟩ := pending
  intro seen
  refine seen ?_
  rw [found, Option.bind_some, pendingNew_view state]

theorem inView_told (tells : Tells account (recordViews records) command events)
    (asked : (subject command).accountId = account → Asked account records command) :
    InView (recordsAfter (reportsFor account events) records) id ↔
      events.foldl viewsAfter (recordViews records) ⟨account, id⟩ ≠ none := by
  have agrees : Agrees account records (recordViews records) := fun _ _ => rfl
  exact not_congr (iff_of_eq (congrArg (· = none) (agrees.follows tells asked ⟨account, id⟩ rfl)))

/-- An order stays pending until the command that asks for it is processed. -/
theorem Pending.told (pending : Pending records id) (tells : Tells account (recordViews records) command events)
    (asked : (subject command).accountId = account → Asked account records command)
    (silent : created command = some ⟨account, id⟩ → ∀ message ∈ reportsFor account events, ¬ Mentions message id) :
    Pending (recordsAfter (reportsFor account events) records) id := by
  obtain ⟨order, found, state⟩ := pending
  refine ⟨(effects (reportsFor account events) id order).idle, congrArg (Option.map _) found, ?_⟩
  rw [effects_unmentioned]
  · exact state
  · intro message member mentioned
    rcases tells.answered asked member mentioned with creates | ⟨other, there, answered⟩
    · exact silent creates message member mentioned
    · obtain rfl := Option.some.inj (found.symm.trans there)
      exact answered state

theorem inView_register {order : ClientOrder} (fresh : records id = none) (unseen : order.view = none)
    (other : ClientOrderId) : InView (Function.update records id (some order)) other ↔ InView records other := by
  have views := recordViews_register fresh unseen
  exact not_congr (iff_of_eq (congrArg (· = none) (congrFun views ⟨0, other⟩)))

theorem Pending.register {order : ClientOrder} (pending : Pending records id) {next : ClientOrderId}
    (fresh : records next = none) : Pending (Function.update records next (some order)) id := by
  obtain ⟨there, found, state⟩ := pending
  refine ⟨there, (Function.update_of_ne ?_ ..).trans found, state⟩
  rintro rfl
  rw [fresh] at found
  cases found

end Records

/-- If the command asks for an order of the quote, that is the order the quote has, and no other of
them may be in view than the one it replaces. -/
def Led (account : AccountId) (records : Records) (orderId : Option ClientOrderId) (asked : List ClientOrderId)
    (command : ExchangeCommand) : Prop :=
  ∀ id ∈ asked, created command = some ⟨account, id⟩ →
    orderId = some id ∧ ∀ other ∈ asked, InView records other → subject command = ⟨account, other⟩

/-- Of the orders a quote has asked for, one at most is in view: the one the quote has, or the one that
it has asked to replace. -/
structure SingleQuote (account : AccountId) (records : Records) (commands : List ExchangeCommand)
    (orderId : Option ClientOrderId) (asked : List ClientOrderId) : Prop where
  entered : ∀ id ∈ asked, records id ≠ none
  current : ∀ id ∈ orderId, id ∈ asked
  tended : ∀ id ∈ asked, InView records id → orderId = some id ∨ ∃ new, orderId = some new ∧ Pending records new
  single : ∀ first ∈ asked, ∀ second ∈ asked, InView records first → InView records second → first = second
  led : ∀ command ∈ commands, Led account records orderId asked command

section Steps
variable {account : AccountId} {records : Records} {commands : List ExchangeCommand} {command : ExchangeCommand}
  {events : List ExchangeEvent} {orderId : Option ClientOrderId} {asked : List ClientOrderId}

/-- The exchange processes a command. -/
theorem SingleQuote.told (single : SingleQuote account records commands orderId asked)
    (tells : Tells account (recordViews records) command events)
    (entered : (subject command).accountId = account → Asked account records command)
    (led : Led account records orderId asked command)
    (apart : ∀ other ∈ commands, ∀ key, created other = some key → created command ≠ some key) :
    SingleQuote account (recordsAfter (reportsFor account events) records) commands orderId asked := by
  have seen {id : ClientOrderId} (shown : InView (recordsAfter (reportsFor account events) records) id) :
      created command = some ⟨account, id⟩ ∨ InView records id := tells.seen ((inView_told tells entered).mp shown)
  have pends {id : ClientOrderId} (creates : created command = some ⟨account, id⟩) : Pending records id :=
    ((entered ((created_account creates).symm)).creates creates).2
  -- An order asked for in place of another is in view, or heard of, only once the other is not.
  have supersedes {new old : ClientOrderId} (creates : created command = some ⟨account, new⟩)
      (replaces : subject command = ⟨account, old⟩) (different : old ≠ new)
      (shown : InView (recordsAfter (reportsFor account events) records) old) :
      ¬ InView (recordsAfter (reportsFor account events) records) new ∧
        ∀ message ∈ reportsFor account events, ¬ Mentions message new := by
    rcases tells.supersedes creates (not_not.mp (pends creates).unseen)
      (replaces ▸ fun same => different (congrArg LiveKey.clientOrderId same)) with gone | ⟨unseen, silent⟩
    · rw [replaces] at gone
      exact absurd gone ((inView_told tells entered).mp shown)
    · exact ⟨fun new => (inView_told tells entered).mp new unseen, silent⟩
  refine ⟨fun id member => ?_, single.current, fun id member shown => ?_, fun first memberFirst second memberSecond shownFirst
    shownSecond => ?_, fun other sent id member creates => ?_⟩
  · exact fun none => single.entered id member (Option.map_eq_none_iff.mp none)
  · rcases seen shown with creates | before
    · exact Or.inl (led id member creates).1
    · rcases single.tended id member before with same | ⟨new, same, pending⟩
      · exact Or.inl same
      · refine Or.inr ⟨new, same, pending.told tells entered fun creates => ?_⟩
        have replaces := (led new (single.current new same) creates).2 id member before
        exact (supersedes creates replaces (by rintro rfl; exact pending.unseen before) shown).2
  · rcases seen shownFirst with createsFirst | beforeFirst
    · rcases seen shownSecond with createsSecond | beforeSecond
      · exact congrArg LiveKey.clientOrderId (Option.some.inj (createsFirst.symm.trans createsSecond))
      · have replaces := (led first memberFirst createsFirst).2 second memberSecond beforeSecond
        by_contra different
        exact (supersedes createsFirst replaces (Ne.symm different) shownSecond).1 shownFirst
    · rcases seen shownSecond with createsSecond | beforeSecond
      · have replaces := (led second memberSecond createsSecond).2 first memberFirst beforeFirst
        by_contra different
        exact (supersedes createsSecond replaces different shownFirst).1 shownSecond
      · exact single.single first memberFirst second memberSecond beforeFirst beforeSecond
  · obtain ⟨same, only⟩ := single.led other sent id member creates
    refine ⟨same, fun old memberOld shown => ?_⟩
    rcases seen shown with createsOld | before
    · obtain rfl : id = old := Option.some.inj (same.symm.trans (led old memberOld createsOld).1)
      exact absurd createsOld (apart other sent _ creates)
    · exact only old memberOld before

/-- A command that asks for no order of the quote. -/
theorem led_of_fresh (single : SingleQuote account records commands orderId asked) {next : ClientOrderId}
    (fresh : records next = none) (creates : ∀ key, created command = some key → key.clientOrderId = next)
    (after : Records) : Led account after orderId asked command := by
  intro id member asks
  obtain rfl : id = next := creates _ asks
  exact absurd fresh (single.entered id member)

theorem SingleQuote.sends (single : SingleQuote account records commands orderId asked)
    (led : Led account records orderId asked command) :
    SingleQuote account records (commands ++ [command]) orderId asked where
  entered := single.entered
  current := single.current
  tended := single.tended
  single := single.single
  led other member := by
    rcases List.mem_append.mp member with before | new
    · exact single.led other before
    · obtain rfl := List.mem_singleton.mp new
      exact led

theorem SingleQuote.rest (single : SingleQuote account records (command :: commands) orderId asked) :
    SingleQuote account records commands orderId asked :=
  { single with led := fun other member => single.led other (List.mem_cons_of_mem _ member) }

/-- An order that is not the quote's is entered. -/
theorem SingleQuote.registers (single : SingleQuote account records commands orderId asked) {next : ClientOrderId}
    (fresh : records next = none) {order : ClientOrder} (unseen : order.view = none) :
    SingleQuote account (Function.update records next (some order)) commands orderId asked where
  entered id member := by
    rw [Function.update_of_ne (by rintro rfl; exact single.entered id member fresh)]
    exact single.entered id member
  current := single.current
  tended id member shown := by
    rcases single.tended id member ((inView_register fresh unseen id).mp shown) with same | ⟨new, same, pending⟩
    · exact Or.inl same
    · exact Or.inr ⟨new, same, pending.register fresh⟩
  single first memberFirst second memberSecond shownFirst shownSecond :=
    single.single first memberFirst second memberSecond ((inView_register fresh unseen first).mp shownFirst)
      ((inView_register fresh unseen second).mp shownSecond)
  led command sent id member creates := by
    obtain ⟨same, only⟩ := single.led command sent id member creates
    exact ⟨same, fun other memberOther shown => only other memberOther ((inView_register fresh unseen other).mp shown)⟩

/-- The quote has an order under a new id, and none other of its orders is asked for: it is all there is
of the quote, or what is in view is to be replaced by it. -/
theorem SingleQuote.advances (single : SingleQuote account records commands orderId asked) {next : ClientOrderId}
    (fresh : records next = none) {order : ClientOrder} (unseen : order.view = none)
    (unasked : ∀ command ∈ commands, ∀ id, created command = some ⟨account, id⟩ → id ∉ asked ∧ id ≠ next)
    (pending : order.state = .pendingNew ∨ ∀ id ∈ asked, ¬ InView records id) :
    SingleQuote account (Function.update records next (some order)) commands (some next) (next :: asked) := by
  have registered := single.registers fresh unseen
  have hidden : ¬ InView (Function.update records next (some order)) next := fun shown =>
    (inView_register fresh unseen next).mp shown (by rw [fresh]; rfl)
  have among {id : ClientOrderId} (member : id ∈ next :: asked)
      (shown : InView (Function.update records next (some order)) id) : id ∈ asked := by
    rcases List.mem_cons.mp member with rfl | before
    · exact absurd shown hidden
    · exact before
  refine ⟨fun id member => ?_, fun id same => ?_, fun id member shown => ?_, fun first memberFirst second memberSecond
    shownFirst shownSecond => ?_, fun command sent id member creates => ?_⟩
  · rcases List.mem_cons.mp member with rfl | before
    · rw [Function.update_self]
      exact Option.some_ne_none _
    · exact registered.entered id before
  · obtain rfl := Option.some.inj same
    exact List.mem_cons_self
  · rcases pending with open_ | empty
    · exact Or.inr ⟨next, rfl, order, Function.update_self .., open_⟩
    · exact absurd ((inView_register fresh unseen id).mp shown) (empty id (among member shown))
  · exact registered.single first (among memberFirst shownFirst) second (among memberSecond shownSecond) shownFirst shownSecond
  · obtain ⟨other, new⟩ := unasked command sent id creates
    rcases List.mem_cons.mp member with same | before
    · exact absurd same new
    · exact absurd before other

theorem SingleQuote.congr (single : SingleQuote account records commands orderId asked) {others : List ClientOrderId}
    (same : ∀ id, id ∈ others ↔ id ∈ asked) : SingleQuote account records commands orderId others where
  entered id member := single.entered id ((same id).mp member)
  current id known := (same id).mpr (single.current id known)
  tended id member := single.tended id ((same id).mp member)
  single first memberFirst second memberSecond := single.single first ((same first).mp memberFirst) second ((same second).mp memberSecond)
  led command sent id member creates := by
    obtain ⟨current, only⟩ := single.led command sent id ((same id).mp member) creates
    exact ⟨current, fun other memberOther => only other ((same other).mp memberOther)⟩

end Steps

section Clients
variable {account : AccountId} {client after : Client} {engine : MatchingEngine} {orderId : Option ClientOrderId}
  {asked : List ClientOrderId} {records : Records} {commands : List ExchangeCommand}

theorem SingleQuote.leaves (leaves : Leaves client after records commands)
    (single : SingleQuote account records (client.commands ++ commands) orderId asked) :
    SingleQuote account after.records after.commands orderId asked := by
  rw [leaves.records, leaves.commands]
  exact single

theorem SingleQuote.unsent (single : SingleQuote account records client.commands orderId asked) :
    SingleQuote account records (client.commands ++ []) orderId asked := by
  rw [List.append_nil]
  exact single

/-- Whatever else the trader calls for, with this quote's orders or others. -/
theorem SingleQuote.call (single : SingleQuote account client.records client.commands orderId asked)
    (synced : Synced account client engine) (call : Call) :
    SingleQuote account (client.call call).records (client.call call).commands orderId asked := by
  have outcome := call_outcome (synced.unused _ le_rfl) call
  generalize result : client.call call = after at outcome
  have fresh := synced.records_next
  cases outcome with
  | stays | skips => exact single
  | sent instrumentId side price quantity orderType timeInForce =>
    rw [← result]
    exact .leaves (synced.submits instrumentId side price quantity orderType timeInForce)
      ((single.registers fresh (pendingNew_view rfl)).sends (led_of_fresh single fresh (by rintro _ ⟨⟩; rfl) _))
  | unsent instrumentId side price quantity orderType timeInForce =>
    rw [← result]
    exact .leaves (synced.fails instrumentId side price quantity orderType timeInForce)
      (single.registers fresh rfl).unsent
  | cancels clientOrderId order found =>
    rw [← result]
    exact .leaves (synced.cancels found) (single.sends (by rintro id member ⟨⟩))
  | replaces clientOrderId newPrice newQuantity original found =>
    rw [← result]
    exact .leaves (synced.replaces found newPrice newQuantity)
      ((single.registers fresh (pendingNew_view rfl)).sends (led_of_fresh single fresh (by rintro _ ⟨⟩; rfl) _))

/-- The exchange processes a command of anyone's. -/
theorem SingleQuote.tells {round : Rounding} {gated : RiskGatedEngine} {command : ExchangeCommand}
    (relates : Relates round account client gated command)
    (single : SingleQuote account client.records client.commands orderId asked)
    (led : Led account client.records orderId asked command) :
    SingleQuote account (client.told account (gated.process round command).events).records
      (client.told account (gated.process round command).events).commands orderId asked := by
  have records : (client.told account (gated.process round command).events).records =
      recordsAfter (reportsFor account (gated.process round command).events) client.records := recordsAfter_append ..
  rw [records]
  exact single.told relates.tells.1 relates.asked led relates.apart

/-- An order that the quote is done with is on record as done with. -/
theorem Finished.recorded (finished : Finished client orderId)
    (single : SingleQuote account client.records client.commands orderId asked) (finishes : Finishes client)
    {id : ClientOrderId} (known : orderId = some id) :
    ∃ recorded, client.records id = some recorded ∧ recorded.state.isTerminal = true := by
  obtain ⟨order, found⟩ := Option.ne_none_iff_exists'.mp (single.entered id (single.current id known))
  obtain ⟨before, there, _⟩ := Option.map_eq_some_iff.mp found
  exact finishes.unseen there (finished id known before there)

/-- Once the quote is done with its order, none of its orders is in view, or asked for. -/
theorem SingleQuote.idle (single : SingleQuote account client.records client.commands orderId asked)
    (synced : Synced account client engine) (finishes : Finishes client) (finished : Finished client orderId) :
    (∀ id ∈ asked, ¬ InView client.records id) ∧
      ∀ command ∈ client.commands, ∀ id ∈ asked, created command ≠ some ⟨account, id⟩ := by
  have settled {id : ClientOrderId} (known : orderId = some id) : ¬ InView client.records id ∧ ¬ Pending client.records id := by
    obtain ⟨recorded, found, done⟩ := finished.recorded single finishes known
    refine ⟨fun seen => seen ?_, fun ⟨order, there, pending⟩ => ?_⟩
    · rw [found, Option.bind_some, terminal_view done]
    · obtain rfl := Option.some.inj (found.symm.trans there)
      rw [pending] at done
      cases done
  refine ⟨fun id member seen => ?_, fun command sent id member creates => ?_⟩
  · rcases single.tended id member seen with known | ⟨new, known, pending⟩
    · exact (settled known).1 seen
    · exact (settled known).2 pending
  · exact (settled (single.led command sent id member creates).1).2 ((synced.asked command sent).creates creates).2

/-- No order is asked for under an id that is still to be given. -/
theorem Synced.unasked (synced : Synced account client engine) {command : ExchangeCommand} (sent : command ∈ client.commands)
    {id : ClientOrderId} (creates : created command = some ⟨account, id⟩) : id ≠ client.oms.nextClientOrderId := by
  rintro rfl
  obtain ⟨_, order, found, _⟩ := (synced.asked command sent).creates creates
  rw [synced.records_next] at found
  cases found

/-- The quote after an update, and what it has then asked for. -/
theorem SingleQuote.requoted {close : ClientOrder → Int → Bool} {instrumentId : InstrumentId} {side : Side} {size : Nat}
    {sent : Bool} {desiredPrice : Option Int} {new : Option ClientOrderId}
    (single : SingleQuote account client.records client.commands orderId asked) (synced : Synced account client engine)
    (finishes : Finishes client)
    (requoted : Requoted close instrumentId side size client orderId sent desiredPrice after new) :
    SingleQuote account after.records after.commands new (new.toList ++ asked) := by
  have fresh := synced.records_next
  have kept : ∀ id, id ∈ orderId.toList ++ asked ↔ id ∈ asked := fun id => by
    rw [List.mem_append, Option.mem_toList]
    exact or_iff_right_of_imp (single.current id)
  cases requoted with
  | waits | near => exact single.congr kept
  | rests finished =>
    obtain ⟨unseen, unasked⟩ := single.idle synced finishes finished
    exact ⟨single.entered, nofun, fun id member seen => absurd seen (unseen id member), single.single,
      fun command sent id member creates => absurd creates (unasked command sent id member)⟩
  | submits finished price =>
    obtain ⟨unseen, unasked⟩ := single.idle synced finishes finished
    have advances (order : ClientOrder) (hidden : order.view = none) :=
      single.advances fresh hidden (fun command sent id creates =>
        ⟨fun member => unasked command sent id member creates, synced.unasked sent creates⟩) (Or.inr unseen)
    cases sent with
    | true =>
      refine .leaves (synced.submits instrumentId side price size .limit .gtc)
        ((advances _ (pendingNew_view rfl)).sends fun id _ creates => ?_)
      obtain rfl : client.oms.nextClientOrderId = id := congrArg LiveKey.clientOrderId (Option.some.inj creates)
      refine ⟨rfl, fun other member shown => ?_⟩
      have shown := (inView_register fresh (pendingNew_view rfl) other).mp shown
      rcases List.mem_cons.mp member with rfl | before
      · exact absurd shown (by unfold InView; rw [fresh]; exact not_not.mpr rfl)
      · exact absurd shown (unseen other before)
    | false => exact .leaves (synced.fails instrumentId side price size .limit .gtc) (advances _ rfl).unsent
  | cancels id order known found => exact (single.call synced (.cancelOrder id sent)).congr kept
  | skips id order known found price => exact (single.call synced (.replaceOrder id price size sent)).congr kept
  | replaces id order known found price goes =>
    subst goes
    obtain ⟨recorded, there, answered, _⟩ := workable_recorded found
    have settled : ¬ Pending client.records id := fun ⟨order, same, pending⟩ => by
      obtain rfl := Option.some.inj (there.symm.trans same)
      exact answered pending
    have advanced := single.advances fresh (pendingNew_view rfl) (fun command sent other creates =>
      ⟨fun member => by
        obtain rfl : id = other := Option.some.inj (known.symm.trans (single.led command sent other member creates).1)
        exact settled ((synced.asked command sent).creates creates).2, synced.unasked sent creates⟩)
      (Or.inl (rfl : (newClientOrder client.oms order.instrumentId order.side price size order.orderType
        order.timeInForce).state = .pendingNew))
    refine .leaves (synced.replaces found price size) (advanced.sends fun new _ creates => ?_)
    obtain rfl : client.oms.nextClientOrderId = new := congrArg LiveKey.clientOrderId (Option.some.inj creates)
    refine ⟨rfl, fun other member shown => ?_⟩
    have shown := (inView_register fresh (pendingNew_view rfl) other).mp shown
    rcases List.mem_cons.mp member with rfl | before
    · exact absurd shown (by unfold InView; rw [fresh]; exact not_not.mpr rfl)
    · -- What is in view is the order that is replaced, for that one is settled.
      rcases single.tended other before shown with same | ⟨pending, same, open_⟩
      · obtain rfl : id = other := Option.some.inj (known.symm.trans same)
        exact congrArg (LiveKey.mk · id) synced.own
      · obtain rfl : id = pending := Option.some.inj (known.symm.trans same)
        exact absurd open_ settled

/-- The ids of the orders asked for by the requests that have gone out since `before`. -/
def askedSince (before after : Client) : List ClientOrderId :=
  (after.commands.drop before.commands.length).filterMap fun command => (created command).map LiveKey.clientOrderId

theorem askedSince_leaves (leaves : Leaves client after records commands) :
    askedSince client after = commands.filterMap fun command => (created command).map LiveKey.clientOrderId := by
  unfold askedSince
  rw [leaves.commands, List.drop_left]

/-- An update asks for no other order than the one the quote then has. -/
theorem Requoted.askedSince_subset {close : ClientOrder → Int → Bool} {instrumentId : InstrumentId} {side : Side} {size : Nat}
    {sent : Bool} {desiredPrice : Option Int} {new : Option ClientOrderId} (synced : Synced account client engine)
    (requoted : Requoted close instrumentId side size client orderId sent desiredPrice after new) :
    askedSince client after ⊆ new.toList := by
  cases requoted with
  | waits | near | rests =>
    rw [askedSince_leaves (leaves_stays client)]
    exact List.nil_subset _
  | submits finished price =>
    cases sent with
    | true =>
      rw [askedSince_leaves (synced.submits instrumentId side price size .limit .gtc)]
      exact List.Subset.refl _
    | false =>
      rw [askedSince_leaves (synced.fails instrumentId side price size .limit .gtc)]
      exact List.nil_subset _
  | cancels id order known found =>
    cases sent with
    | true =>
      rw [askedSince_leaves (synced.cancels found)]
      exact List.nil_subset _
    | false =>
      rw [call_cancelOrder_unsent, askedSince_leaves (leaves_stays client)]
      exact List.nil_subset _
  | replaces id order known found price goes =>
    subst goes
    rw [askedSince_leaves (synced.replaces found price size)]
    exact List.Subset.refl _
  | skips id order known found price fails =>
    subst fails
    have leaves : Leaves client { client with oms := { client.oms with nextClientOrderId := client.oms.nextClientOrderId + 1 } }
        client.records [] := ⟨rfl, (List.append_nil _).symm⟩
    rw [call_replaceOrder_unsent (synced.unused _ le_rfl) found, askedSince_leaves leaves]
    exact List.nil_subset _

end Clients

/-- A quote, and the ids of all the orders its requests have asked for. -/
structure Quoting where
  quote : RestingQuote
  asked : List ClientOrderId := []
  deriving DecidableEq, Repr

/-- An update of the quote, or another call of the same order management system. -/
inductive QuoteInput where
  | update (desiredPrice : Option Int) (sent : Bool)
  | other (call : Call)
  deriving DecidableEq, Repr

def quoting (round : Rounding) (limits : TraderRiskLimits) : Strategy Quoting QuoteInput where
  act
    | .update desiredPrice sent, client, memory =>
        let (after, quote, _) := memory.quote.update round limits client desiredPrice sent
        (after, { quote, asked := askedSince client after ++ memory.asked })
    | .other call, client, memory => (client.call call, memory)
  observe _ memory := memory

section Runs
variable {round : Rounding} {managed : AccountId → Bool} {account : AccountId} {limits : TraderRiskLimits}

theorem quoting_calls : (quoting round limits).Calls := by
  intro input client memory
  cases input with
  | update desiredPrice sent => exact (memory.quote.update_requoted round limits client desiredPrice sent).calls
  | other call => exact ⟨[call], rfl⟩

/-- The floor is followed, no report brings an order back, and the quote is single, also counting the
orders it has entered and could not send. -/
structure Quotes (managed : AccountId → Bool) (account : AccountId) (desk : Desk Quoting) : Prop where
  followed : Followed managed desk.floor
  finishes : Finishes (desk.floor.clients account)
  single : ∃ ids, desk.memory.asked ⊆ ids ∧ SingleQuote account (desk.floor.clients account).records
    (desk.floor.clients account).commands desk.memory.quote.orderId ids

theorem Quotes.step (alone : managed account = true) {desk after : Desk Quoting} {action : DeskAction QuoteInput}
    (quotes : Quotes managed account desk)
    (stepped : desk.step round managed account (quoting round limits) action = some after) : Quotes managed account after := by
  have followed := quotes.followed
  have synced := followed.synced account alone
  obtain ⟨ids, covered, single⟩ := quotes.single
  refine ⟨Desk.step_followed quoting_calls alone followed stepped,
    step_finishes quoting_calls alone followed quotes.finishes stepped, ?_⟩
  cases Desk.sees alone followed stepped with
  | acts input client exchange memory =>
    rw [client, memory]
    cases input with
    | update desiredPrice sent =>
      have requoted := desk.memory.quote.update_requoted round limits (desk.floor.clients account) desiredPrice sent
      refine ⟨_, ?_, single.requoted synced quotes.finishes requoted⟩
      exact List.append_subset.mpr ⟨List.Subset.trans (requoted.askedSince_subset synced) (List.subset_append_left ..),
        List.Subset.trans covered (List.subset_append_right ..)⟩
    | other call => exact ⟨ids, covered, single.call synced call⟩
  | stays action client exchange memory =>
    rw [client, memory]
    exact ⟨ids, covered, single⟩
  | handles report reports queued client exchange memory =>
    have memory : after.memory = desk.memory := memory.trans (by unfold Strategy.shown; cases Prod.snd _ <;> rfl)
    rw [client, memory, handle_records round queued]
    exact ⟨ids, covered, single⟩
  | takes request requests command queued stands client exchange memory =>
    have relates : Relates round account _ _ _ := followed.relates_own alone queued stands
    obtain ⟨sameSubject, sameCreated, _⟩ := sequence_alike desk.floor.sequencer command
    have all := commands_takes queued stands
    rw [all] at single
    rw [client, memory]
    refine ⟨ids, covered, single.rest.tells relates fun id member creates => ?_⟩
    rw [sameSubject]
    exact single.led command List.mem_cons_self id member (sameCreated.symm.trans creates)
  | observes action command foreign client exchange memory =>
    have relates : Relates round account _ _ _ := followed.relates_foreign alone foreign
    rw [client, memory]
    exact ⟨ids, covered, single.tells relates fun id _ creates => absurd (created_account creates).symm foreign⟩

variable {exchangeLimits : RiskLimits} {instruments : List InstrumentId} {deposits : List Deposit} {instrumentId : InstrumentId}
  {side : Side} {size : Nat} {requoteThreshold : Int}

theorem start_quotes : Quotes managed account (Desk.start round exchangeLimits instruments deposits
    { quote := { instrumentId, side, size, requoteThreshold } : Quoting }) where
  followed := start_followed round
  finishes _ _ found := by cases found
  single := ⟨[], List.Subset.refl _, nofun, nofun, nofun, nofun, nofun⟩

/-- The resting orders of the account that the quote has asked for. -/
def restingOf (account : AccountId) (desk : Desk Quoting) : List Resting :=
  desk.floor.exchange.engine.resting.filter fun entry =>
    entry.key.accountId = account ∧ entry.key.clientOrderId ∈ desk.memory.asked

theorem Quotes.restingOf_length (alone : managed account = true) {desk : Desk Quoting} (quotes : Quotes managed account desk) :
    (restingOf account desk).length ≤ 1 := by
  obtain ⟨followed, _, ids, covered, single⟩ := quotes
  have shown := (followed.synced account alone).shown
  cases listed : restingOf account desk with
  | nil => exact Nat.zero_le 1
  | cons first others =>
    cases others with
    | nil => exact le_rfl
    | cons second rest =>
      exfalso
      have split := List.filter_append_perm (fun entry : Resting =>
        decide (entry.key.accountId = account ∧ entry.key.clientOrderId ∈ desk.memory.asked)) desk.floor.exchange.engine.resting
      have known {entry : Resting} (member : entry ∈ restingOf account desk) : entry.key.accountId = account ∧
          entry.key.clientOrderId ∈ desk.memory.asked ∧
            InView (desk.floor.clients account).records entry.key.clientOrderId := by
        obtain ⟨rests, ours⟩ := List.mem_filter.mp member
        obtain ⟨own, asked⟩ := of_decide_eq_true ours
        refine ⟨own, asked, fun unseen => ?_⟩
        have there := shown entry rests own
        unfold recordViews at there
        rw [unseen] at there
        cases there
      obtain ⟨ownFirst, askedFirst, seenFirst⟩ := known (listed ▸ List.mem_cons_self)
      obtain ⟨ownSecond, askedSecond, seenSecond⟩ := known (listed ▸ List.mem_cons_of_mem _ List.mem_cons_self)
      rw [show desk.floor.exchange.engine.resting.filter _ = first :: second :: rest from listed] at split
      refine shown.unlisted followed.sound split.symm (List.mem_append_left _ List.mem_cons_self) ownSecond ?_
      have same := single.single _ (covered askedSecond) _ (covered askedFirst) seenSecond seenFirst
      exact congrArg₂ LiveKey.mk (ownSecond.trans ownFirst.symm) same

/-- Whatever prices the quote is driven to, and whatever else happens, one of its orders at most rests. -/
theorem restingQuote_single {actions : List (DeskAction QuoteInput)} {desk : Desk Quoting} (alone : managed account = true)
    (ran : Transitions.run (Desk.step round managed account (quoting round limits))
      (Desk.start round exchangeLimits instruments deposits { quote := { instrumentId, side, size, requoteThreshold } })
      actions = some desk) : (restingOf account desk).length ≤ 1 := by
  have quotes : Quotes managed account desk :=
    Transitions.run_invariant (fun _ _ _ quotes stepped => quotes.step alone stepped) start_quotes ran
  exact quotes.restingOf_length alone

/-- A quote that has been replaced once, the answer to which is on its way. -/
theorem restingQuote_single_replaced :
    ∃ desk, Transitions.run (Desk.step .machine (fun _ => true) 7 (quoting .machine {}))
        (Desk.start .machine {} [3] [.cash 7 1000] { quote := {
          instrumentId := 3
          side := .buy
          size := 5
          requoteThreshold := 1 } })
        [.act (.update (some 10) true), .floor (.takeRequest 7), .floor (.handleReport 7), .act (.update (some 12) true),
          .floor (.takeRequest 7)] = some desk ∧ restingOf 7 desk ≠ [] ∧ (restingOf 7 desk).length ≤ 1 := by
  have comes : (Transitions.run (Desk.step .machine (fun _ => true) 7 (quoting .machine {}))
        (Desk.start .machine {} [3] [.cash 7 1000] { quote := {
          instrumentId := 3
          side := .buy
          size := 5
          requoteThreshold := 1 } })
        [.act (.update (some 10) true), .floor (.takeRequest 7), .floor (.handleReport 7), .act (.update (some 12) true),
          .floor (.takeRequest 7)]).map (fun desk => (restingOf 7 desk).map fun entry => entry.key.clientOrderId) =
        some [2] := by
    decide +kernel
  obtain ⟨desk, ran, ids⟩ := Option.map_eq_some_iff.mp comes
  refine ⟨desk, ran, fun empty => ?_, restingQuote_single rfl ran⟩
  rw [empty] at ids
  cases ids

end Runs

end Mdh.Trader
