import Mathlib.Data.List.Flatten
import Mathlib.Data.List.Infix
import Mathlib.Data.List.TakeDrop
import Mdh.Feed.FeedAgreement
import Mdh.Feed.Packet
import Mdh.Feed.SubscriberRun
import Mdh.Server.TradingServer

/-! The exchange process and its subscribers. A batch goes out as one datagram to every port; the
network delivers a port's datagrams in order and loses what it likes, and nobody sends again. -/

namespace Mdh.Sequencing.MarketDataRouter
variable {clock : Nat → Nat} {state next : MarketDataRouter}

/-- What was handed on stays handed on. -/
theorem sent_grows {action : RouterAction} (stepped : state.step clock action = some next) :
    state.thread.sent <+: next.thread.sent := by
  cases action with
  | publish | start =>
    simp only [step, Option.ite_none_right_eq_some, Option.some.injEq] at stepped
    obtain ⟨_, rfl⟩ := stepped
    exact List.prefix_rfl
  | matching =>
    obtain ⟨_, _, _, _, rfl⟩ | ⟨_, _, _, rfl⟩ | ⟨_, _, _, rfl⟩ | ⟨_, _, rfl⟩ | ⟨_, rfl⟩ := matchingStep_cases stepped <;>
    exact List.prefix_rfl
  | routing =>
    obtain ⟨_, _, _, rfl⟩ | ⟨_, _, _, rfl⟩ | ⟨_, _, _, _, _, rfl⟩ | ⟨_, _, _, _, rfl⟩ | ⟨_, _, _, _, _, rfl⟩ |
      ⟨_, _, rfl⟩ | ⟨_, _, rfl⟩ | ⟨_, _, rfl⟩ | ⟨_, rfl⟩ := routingStep_cases stepped
    case inr.inr.inr.inr.inr.inl => exact List.prefix_append ..
    all_goals exact List.prefix_rfl
  | requestStop =>
    cases stepped
    exact List.prefix_rfl

end Mdh.Sequencing.MarketDataRouter

namespace Mdh.Server
open Mdh.Core Mdh.Lib Mdh.Feed Mdh.Sequencing Mdh.Matching Mdh.Matching.MatchingEngine Mdh.Risk

/-- What a receive buffer of this size holds of a datagram, unpacked. -/
def received (maxDatagramSize : Nat) (datagram : List UInt8) : Option (List Arrival) :=
  match unpackFrames (datagram.take maxDatagramSize) with
  | .error _ => none
  | .ok packet => some (packet.frames.map fun frame => { frame })

/-- The way to one port: how many datagrams the network is done with, and who listens at its end.
`heard` is the history: the events of the datagrams that arrived. -/
structure Link where
  taken : Nat := 0
  subscriber : FeedSubscriber := {}
  heard : List WireEvent := []

namespace Link

/-- The next datagram arrives; the batches are numbered from 1. -/
def arrive (maxDatagramSize : Nat) (sent : List (List WireEvent)) (link : Link) : Option Link :=
  sent[link.taken]?.map fun batch =>
    { taken := link.taken + 1
      subscriber := link.subscriber.receive FeedSubscriber.replayOptions
        (received maxDatagramSize (packFrames (link.taken + 1) batch))
      heard := link.heard ++ batch }

/-- The next datagram is lost. -/
def lose (sent : List (List WireEvent)) (link : Link) : Option Link :=
  sent[link.taken]?.map fun _ => { link with taken := link.taken + 1 }

/-- What a link keeps: whatever arrived was taken in whole, and in order out of what was sent. -/
structure Follows (sent : List (List WireEvent)) (link : Link) : Prop where
  delivered : ∃ batches : List (List WireEvent), batches.Sublist (sent.take link.taken) ∧ link.heard = batches.flatten
  followed : Followed link.heard link.subscriber.replay
  packetErrors : link.subscriber.packetErrors = 0

end Link

/-- A batch that a datagram can carry whole. -/
structure Carried (maxDatagramSize : Nat) (batch : List WireEvent) : Prop where
  nonempty : batch ≠ []
  few : batch.length ≤ 65535
  fits : ∀ event ∈ batch, event.Representable
  room : PACKET_HEADER_SIZE + batch.length * 49 ≤ maxDatagramSize

section Carrying
variable {maxDatagramSize packetSequence : Nat} {batch : List WireEvent}

/-- A datagram of such a batch fits the buffer. -/
theorem Carried.length_le (carried : Carried maxDatagramSize batch) :
    (packFrames packetSequence batch).length ≤ maxDatagramSize := by
  have payload := payload_le batch
  have room := carried.room
  unfold packFrames
  rw [List.length_append, putPacketHeader_length]
  omega

/-- Every event of it comes out as it went in. -/
theorem Carried.unpacked (carried : Carried maxDatagramSize batch) (sequenceFits : packetSequence < 2 ^ 64) :
    ∃ header, unpackFrames (packFrames packetSequence batch) = .ok { header, frames := batch.map Except.ok } := by
  obtain ⟨header, _, framed⟩ := packFrames_framed sequenceFits (List.length_pos_iff.mpr carried.nonempty) carried.few
    carried.fits
  have decoded : (batch.map encodeEvent).map decodeEvent = batch.map Except.ok := by
    rw [List.map_map]
    apply List.map_congr_left
    intro event member
    have one := decodeEvent_encode (carried.fits event member) []
    rwa [List.append_nil] at one
  exact ⟨header, decoded ▸ unpackFrames_framed framed⟩

/-- Nothing of a datagram is cut off. -/
theorem Carried.received (carried : Carried maxDatagramSize batch) (sequenceFits : packetSequence < 2 ^ 64) :
    received maxDatagramSize (packFrames packetSequence batch) = some (arrivalsOf batch) := by
  obtain ⟨header, unpacked⟩ := carried.unpacked sequenceFits
  unfold Server.received
  rw [List.take_of_length_le carried.length_le, unpacked]
  dsimp only
  rw [List.map_map]
  rfl

/-- There are no more batches than events, if none is empty. -/
theorem length_le_flatten {batches : List (List WireEvent)} (nonempty : ∀ batch ∈ batches, batch ≠ []) :
    batches.length ≤ batches.flatten.length := by
  rw [List.length_flatten, ← List.length_map List.length]
  apply List.length_le_sum_of_one_le
  intro length member
  obtain ⟨batch, among, rfl⟩ := List.mem_map.mp member
  exact List.length_pos_iff.mpr (nonempty batch among)

namespace Link
variable {sent later : List (List WireEvent)} {link next : Link}

theorem Follows.arrive (follows : Follows sent link) (carried : ∀ batch ∈ sent, Carried maxDatagramSize batch)
    (few : sent.length < 2 ^ 64) (arrived : link.arrive maxDatagramSize sent = some next) : Follows sent next := by
  obtain ⟨⟨batches, within, heard⟩, followed, packetErrors⟩ := follows
  obtain ⟨batch, found, rfl⟩ := Option.map_eq_some_iff.mp arrived
  obtain ⟨inside, same⟩ := List.getElem?_eq_some_iff.mp found
  have member : batch ∈ sent := same ▸ List.getElem_mem inside
  have whole : received maxDatagramSize (packFrames (link.taken + 1) batch) = some (arrivalsOf batch) :=
    (carried batch member).received (by omega)
  refine ⟨⟨batches ++ [batch], ?_, ?_⟩, ?_, ?_⟩
  · rw [List.take_add_one, found]
    exact within.append (List.Sublist.refl _)
  · rw [List.flatten_append, List.flatten_singleton, ← heard]
  · rw [whole]
    exact followed.takeAll batch
  · rw [whole]
    exact packetErrors

theorem Follows.lose (follows : Follows sent link) (lost : link.lose sent = some next) : Follows sent next := by
  obtain ⟨⟨batches, within, heard⟩, followed, packetErrors⟩ := follows
  obtain ⟨batch, _, rfl⟩ := Option.map_eq_some_iff.mp lost
  refine ⟨⟨batches, within.trans ?_, heard⟩, followed, packetErrors⟩
  exact (List.take_prefix_take_left (Nat.le_succ _)).sublist

theorem Follows.grow (follows : Follows sent link) (grows : sent <+: later) : Follows later link := by
  obtain ⟨⟨batches, within, heard⟩, followed, packetErrors⟩ := follows
  exact ⟨⟨batches, within.trans (List.IsPrefix.take grows link.taken).sublist, heard⟩, followed, packetErrors⟩

end Link

end Carrying

/-- The exchange process with the subscriber of every port it publishes to. -/
structure LiveFeed (P Q : Type) where
  server : TradingServer P
  links : Q → Link := fun _ => {}

inductive FeedAction (P Q : Type) where
  | server (action : ServerAction P)
  | arrive (port : Q)
  | lose (port : Q)
  deriving DecidableEq, Repr

/-- How the process is started, and how much of a datagram a subscriber can take. -/
structure FeedOptions where
  server : ServerOptions
  maxDatagramSize : Nat := 2048

/-- Every batch of at most the router's limit fits one datagram and the receiver's buffer. -/
structure FeedOptions.Roomy (options : FeedOptions) : Prop where
  few : batchCap options.server.router.maxBatch ≤ 65535
  room : PACKET_HEADER_SIZE + batchCap options.server.router.maxBatch * 49 ≤ options.maxDatagramSize

namespace LiveFeed
variable {P Q : Type} [DecidableEq P] [DecidableEq Q] (round : Rounding) (clock : Nat → Nat)

def make (options : FeedOptions) : Option (LiveFeed P Q) :=
  (TradingServer.make round options.server).map fun server => { server }

def onLink (feed : LiveFeed P Q) (port : Q) (link : Option Link) : Option (LiveFeed P Q) :=
  link.map fun link => { feed with links := Function.update feed.links port link }

def step (maxDatagramSize : Nat) (feed : LiveFeed P Q) : FeedAction P Q → Option (LiveFeed P Q)
  | .server action => (feed.server.step round clock action).map fun server => { feed with server }
  | .arrive port => feed.onLink port ((feed.links port).arrive maxDatagramSize feed.server.router.thread.sent)
  | .lose port => feed.onLink port ((feed.links port).lose feed.server.router.thread.sent)

/-- The wire's fields hold everything published, and the number after the last one is still above it. -/
structure InRange (server : TradingServer P) : Prop where
  fits : ∀ event ∈ server.router.wireEvents clock, event.Representable
  below : server.router.published.countP IsPublic < 2 ^ 64 - 1

section Steps
variable {round clock} {options : FeedOptions} {feed next : LiveFeed P Q}

/-- What was published and what was handed on only grows. -/
theorem server_grows {server after : TradingServer P} {action : ServerAction P}
    (stepped : server.step round clock action = some after) :
    server.router.published <+: after.router.published ∧ server.router.thread.sent <+: after.router.thread.sent := by
  have routed {action : RouterAction} {router : MarketDataRouter} (taken : server.router.step clock action = some router)
      (quiet : ∀ event, action ≠ .publish event) :
      server.router.published <+: router.published ∧ server.router.thread.sent <+: router.thread.sent :=
    ⟨MarketDataRouter.step_published quiet taken ▸ List.prefix_rfl, MarketDataRouter.sent_grows taken⟩
  cases action with
  | submit | push | stopPipeline =>
    obtain ⟨pipeline, _, rfl⟩ := TradingServer.withPipeline_eq stepped
    exact ⟨List.prefix_rfl, List.prefix_rfl⟩
  | startRouting | routing | stopRouter =>
    obtain ⟨router, taken, rfl⟩ := TradingServer.withRouter_eq stepped
    exact routed taken fun _ => nofun
  | matching =>
    rw [TradingServer.step, TradingServer.matchingStep] at stepped
    split_ifs at stepped with idle
    · cases left : server.unpublished with
      | cons event rest =>
        rw [left] at stepped
        cases stepped
        exact ⟨List.prefix_append .., List.prefix_rfl⟩
      | nil =>
        rw [left] at stepped
        obtain ⟨pipeline, _, rfl⟩ := Option.map_eq_some_iff.mp stepped
        split <;> exact ⟨List.prefix_rfl, List.prefix_rfl⟩
    · obtain ⟨router, pushed, rfl⟩ := Option.map_eq_some_iff.mp stepped
      have taken : server.router.step clock .matching = some router := pushed
      exact routed taken fun _ => nofun

omit [DecidableEq P] in
theorem InRange.before {server after : TradingServer P} (inRange : InRange clock after)
    (grows : server.router.published <+: after.router.published) : InRange clock server where
  fits event member := inRange.fits event ((publishAll_leads clock {} grows).subset member)
  below := (grows.sublist.countP_le).trans_lt inRange.below

/-- While the numbers last, every batch of the router can be carried. -/
theorem carried_batches {server : TradingServer P} (sequential : server.Sequential round clock options.server)
    (roomy : options.Roomy) (inRange : InRange clock server) :
    (∀ batch ∈ server.router.thread.sent, Carried options.maxDatagramSize batch) ∧
      server.router.thread.sent.length < 2 ^ 64 := by
  have handed := sequential.delivering.handed_sublist
  have bounded := sequential.delivering.bounded.sent
  have cap := sequential.delivering.limit
  constructor
  · intro batch member
    obtain ⟨nonempty, most⟩ := bounded batch member
    rw [cap] at most
    refine ⟨nonempty, most.trans roomy.few, fun event among => ?_, ?_⟩
    · exact inRange.fits event (handed.subset (List.mem_flatten.mpr ⟨batch, member, among⟩))
    · have room := roomy.room
      omega
  · have batches : server.router.thread.sent.length ≤ server.router.handed.length :=
      length_le_flatten fun batch member => (bounded batch member).1
    have numbers := congrArg List.length (MarketDataRouter.wireEvents_numbers clock server.router)
    rw [List.length_map, List.length_range'] at numbers
    have total := handed.length_le
    have below := inRange.below
    omega

/-- What holds of the whole system at every moment. -/
structure Consistent (round : Rounding) (clock : Nat → Nat) (options : FeedOptions) (feed : LiveFeed P Q) : Prop where
  sequential : feed.server.Sequential round clock options.server
  links : ∀ port, (feed.links port).Follows feed.server.router.thread.sent

theorem Consistent.onLink (consistent : Consistent round clock options feed) {port : Q} {link : Option Link}
    (follows : ∀ after, link = some after → after.Follows feed.server.router.thread.sent)
    (stepped : feed.onLink port link = some next) : Consistent round clock options next := by
  obtain ⟨after, taken, rfl⟩ := Option.map_eq_some_iff.mp stepped
  refine ⟨consistent.sequential, fun other => ?_⟩
  by_cases same : other = port
  · subst same
    show (Function.update feed.links other after other).Follows _
    rw [Function.update_self]
    exact follows after taken
  · show (Function.update feed.links port after other).Follows _
    rw [Function.update_of_ne same]
    exact consistent.links other

theorem Consistent.step (consistent : Consistent round clock options feed) (roomy : options.Roomy)
    (inRange : InRange clock feed.server) {action : FeedAction P Q}
    (stepped : feed.step round clock options.maxDatagramSize action = some next) :
    Consistent round clock options next := by
  cases action with
  | server action =>
    obtain ⟨server, moved, rfl⟩ := Option.map_eq_some_iff.mp stepped
    exact ⟨consistent.sequential.step moved, fun port => (consistent.links port).grow (server_grows moved).2⟩
  | arrive port =>
    obtain ⟨carried, few⟩ := carried_batches consistent.sequential roomy inRange
    exact consistent.onLink (fun _ arrived => (consistent.links port).arrive carried few arrived) stepped
  | lose port => exact consistent.onLink (fun _ lost => (consistent.links port).lose lost) stepped

theorem step_published {action : FeedAction P Q} {maxDatagramSize : Nat}
    (stepped : feed.step round clock maxDatagramSize action = some next) :
    feed.server.router.published <+: next.server.router.published := by
  cases action with
  | server action =>
    obtain ⟨server, moved, rfl⟩ := Option.map_eq_some_iff.mp stepped
    exact (server_grows moved).1
  | arrive | lose =>
    obtain ⟨_, _, rfl⟩ := Option.map_eq_some_iff.mp stepped
    exact List.prefix_rfl

theorem run_consistent {start : LiveFeed P Q} {actions : List (FeedAction P Q)} (built : make round options = some start)
    (roomy : options.Roomy)
    (ran : Transitions.run (LiveFeed.step round clock options.maxDatagramSize) start actions = some feed)
    (inRange : InRange clock feed.server) : Consistent round clock options feed := by
  obtain ⟨server, serverBuilt, rfl⟩ := Option.map_eq_some_iff.mp built
  refine Transitions.run_rule
    (fun _ feed => InRange clock feed.server → Consistent round clock options feed) (fun _ => ?_) ?_ ran inRange
  · refine ⟨TradingServer.make_sequential serverBuilt, fun _ => ⟨⟨[], List.nil_sublist _, rfl⟩, followed_nothing, rfl⟩⟩
  · intro _ before action after _ earlier stepped inRange
    have still := inRange.before (step_published stepped)
    exact (earlier still).step roomy still stepped

end Steps

section Mirroring
variable {round : Rounding} {gated : RiskGatedEngine} {state : BookManager × ReplayStats}

/-- A command turned away at the gate is a private event; any other goes to the engine. -/
theorem mirrors_gated (sound : gated.engine.Sound) (mirrors : Mirrors state gated.engine) (command : ExchangeCommand) :
    Mirrors (hearAll (gated.process round command).events state) (gated.process round command).gated.engine := by
  rcases gated.process_cases round command with ⟨rejection, _, turned⟩ | ⟨_, forwarded⟩
  · rw [turned]
    exact mirrors.same rfl
  · rw [forwarded]
    exact mirrors_process sound mirrors command

theorem mirrors_gatedRun (sound : gated.engine.Sound) (mirrors : Mirrors state gated.engine)
    (commands : List ExchangeCommand) :
    Mirrors (hearAll (gated.runEvents round commands) state) (gated.run round commands).engine := by
  induction commands generalizing gated state with
  | nil => exact mirrors
  | cons command rest ih =>
    rw [RiskGatedEngine.runEvents, hearAll, List.foldl_append]
    exact ih (RiskGatedEngine.process_sound round sound command) (mirrors_gated sound mirrors command)

theorem runEvents_take (round : Rounding) (gated : RiskGatedEngine) (commands : List ExchangeCommand) (count : Nat) :
    gated.runEvents round (commands.take count) <+: gated.runEvents round commands := by
  induction commands generalizing gated count with
  | nil => rw [List.take_nil]
  | cons command rest ih =>
    cases count with
    | zero => exact List.nil_prefix
    | succ count => exact (List.prefix_append_right_inj _).mpr (ih _ count)

end Mirroring

section Results
variable {round : Rounding} {clock : Nat → Nat} {options : FeedOptions} {start feed : LiveFeed P Q}
  {actions : List (FeedAction P Q)}

omit [DecidableEq Q] in
theorem Consistent.heard_sublist (consistent : Consistent round clock options feed) (port : Q) :
    (feed.links port).heard.Sublist (feed.server.router.wireEvents clock) := by
  obtain ⟨batches, within, heard⟩ := (consistent.links port).delivered
  have sent : batches.Sublist feed.server.router.thread.sent := within.trans (List.take_sublist ..)
  rw [heard]
  exact (List.Sublist.flatten sent).trans consistent.sequential.delivering.handed_sublist

omit [DecidableEq Q] in
/-- A subscriber that has the first event and shows no sequence failure has missed none up to the
last it has. -/
theorem Consistent.heard_prefix (consistent : Consistent round clock options feed)
    (inRange : InRange clock feed.server) (port : Q)
    (first : ∀ event ∈ (feed.links port).heard.head?, event.sequenceNumber = 1)
    (clean : (feed.links port).subscriber.replay.outcome.stats.sequenceFailures = 0) :
    (feed.links port).heard <+: feed.server.router.wireEvents clock ∧
      (feed.links port).heard.map WireEvent.sequenceNumber = List.range' 1 (feed.links port).heard.length := by
  have within := consistent.heard_sublist port
  have numbers := MarketDataRouter.wireEvents_numbers clock feed.server.router
  have total : (feed.server.router.wireEvents clock).length = feed.server.router.published.countP IsPublic := by
    have length := congrArg List.length numbers
    rwa [List.length_map, List.length_range'] at length
  have below : ∀ event ∈ (feed.links port).heard, event.sequenceNumber < 2 ^ 64 - 1 := by
    intro event member
    have counted : event.sequenceNumber ∈ List.range' 1 (feed.server.router.published.countP IsPublic) :=
      numbers ▸ List.mem_map_of_mem (within.subset member)
    have few := inRange.below
    rw [List.mem_range'_1] at counted
    omega
  have consecutive : (feed.links port).heard.map WireEvent.sequenceNumber =
      List.range' 1 (feed.links port).heard.length := by
    cases split : (feed.links port).heard with
    | nil => rfl
    | cons event rest =>
      have one : event.sequenceNumber = 1 := first event (by rw [split]; rfl)
      have from_first := (consistent.links port).followed.consecutive clean below split
      rwa [one, split] at from_first
  exact ⟨prefix_of_numbers within (total.symm ▸ numbers) consecutive, consecutive⟩

/-- Whatever the router turned away and the network lost: a subscriber has applied, in order and once
each, events the exchange published, and nothing else; and if it has the first event and has counted
no sequence failure, it has every event up to the last it has. -/
theorem losses_show (built : make round options = some start) (roomy : options.Roomy)
    (ran : Transitions.run (LiveFeed.step round clock options.maxDatagramSize) start actions = some feed)
    (inRange : InRange clock feed.server) (port : Q) :
    let link := feed.links port
    let outcome := link.subscriber.replay.outcome
    link.heard.Sublist (feed.server.router.wireEvents clock) ∧
      applyAll link.heard {} {} = (outcome.books, outcome.stats.toReplayStats) ∧
      outcome.stats.messagesProcessed = link.heard.length ∧
      outcome.stats.decodeFailures = 0 ∧ link.subscriber.packetErrors = 0 ∧
      ((∀ event ∈ link.heard.head?, event.sequenceNumber = 1) → outcome.stats.sequenceFailures = 0 →
        link.heard <+: feed.server.router.wireEvents clock) := by
  have consistent := run_consistent built roomy ran inRange
  obtain ⟨_, followed, packetErrors⟩ := consistent.links port
  refine ⟨consistent.heard_sublist port, followed.applied, followed.messagesProcessed, followed.decodeFailures,
    packetErrors, fun first clean => ?_⟩
  exact (consistent.heard_prefix inRange port first clean).1

/-- The books of such a subscriber are the exchange's. Whenever its last number is that of the last
event of the first `count` commands, each of its levels holds what rested on the exchange after them,
and none of its messages was refused. -/
theorem clean_books_agree (built : make round options = some start) (roomy : options.Roomy)
    (ran : Transitions.run (LiveFeed.step round clock options.maxDatagramSize) start actions = some feed)
    (inRange : InRange clock feed.server) (port : Q)
    (first : ∀ event ∈ (feed.links port).heard.head?, event.sequenceNumber = 1)
    (clean : (feed.links port).subscriber.replay.outcome.stats.sequenceFailures = 0) (count : Nat)
    (last : (feed.links port).subscriber.replay.outcome.lastSequenceNumber.getD 0 =
      ((TradingServer.seededEngine round options.server).runEvents round
        (feed.server.pipeline.processed.take count)).countP IsPublic) :
    let outcome := (feed.links port).subscriber.replay.outcome
    let engine := ((TradingServer.seededEngine round options.server).run round
      (feed.server.pipeline.processed.take count)).engine
    (∀ id side price, Shows price (((outcome.books.bookFor id).levelsOf side).find? price)
      (restingAt engine id side price)) ∧ outcome.stats.bookErrors = 0 := by
  have consistent := run_consistent built roomy ran inRange
  have followed := (consistent.links port).followed
  obtain ⟨ahead, numbers⟩ := consistent.heard_prefix inRange port first clean
  obtain ⟨sequenced, gated, events, delivering⟩ := consistent.sequential
  generalize seeded : TradingServer.seededEngine round options.server = engine at *
  have sound : engine.engine.Sound := seeded ▸ make_sound options.server.instruments
  have blank : Mirrors ({}, {}) engine.engine := seeded ▸ mirrors_make options.server.instruments
  -- Both are first parts of what the whole run publishes, and they are of one length.
  have one : (feed.links port).heard <+: (MarketDataPublisher.publishAll clock {}
      (engine.runEvents round feed.server.pipeline.processed)).2 :=
    ahead.trans (publishAll_leads clock {} ⟨feed.server.unpublished, events⟩)
  have other := publishAll_leads clock {} (runEvents_take round engine feed.server.pipeline.processed count)
  have length : (feed.links port).heard.length = (MarketDataPublisher.publishAll clock {}
      (engine.runEvents round (feed.server.pipeline.processed.take count))).2.length := by
    have sent := congrArg List.length (publishAll_numbers clock {}
      (engine.runEvents round (feed.server.pipeline.processed.take count))).1
    rw [List.length_map, List.length_range', ← last, followed.lastSequenceNumber, ← List.getLast?_map, numbers,
      List.getLast?_range'] at sent
    rw [sent]
    split_ifs with none
    · rw [none]
      rfl
    · show _ = 1 + _ - 1
      omega
  have same := (List.prefix_of_prefix_length_le one other length.le).eq_of_length length
  have mirrors := @mirrors_gatedRun round _ _ sound blank (feed.server.pipeline.processed.take count)
  rw [← applyAll_publishAll clock {} _ ({}, {}), ← same, followed.applied] at mirrors
  constructor
  · intro id side price
    rw [← restingAt_eq]
    exact (mirrors.books id).shows side price
  · exact mirrors.errors

end Results

section TwoPorts

def twoFed : FeedOptions where
  server := { TradingServer.twoSeeded with router := { queueCapacity := 4, maxBatch := 1 } }

/-- Three datagrams: port 0 gets them all, port 1 all but the second. -/
def twoArrivals : List (FeedAction (Fin 2) Bool) :=
  TradingServer.twoSubmitted.map .server ++ List.replicate 3 (.arrive false) ++ [.arrive true, .lose true, .arrive true]

theorem twoArrivals_run :
    ∃ start feed : LiveFeed (Fin 2) Bool, make .exact twoFed = some start ∧
      Transitions.run (LiveFeed.step .exact (fun _ => 0) 2048) start twoArrivals = some feed ∧
      InRange (fun _ => 0) feed.server ∧
      (∀ port, ∀ event ∈ (feed.links port).heard.head?, event.sequenceNumber = 1) ∧
      (feed.links false).subscriber.replay.outcome.stats.sequenceFailures = 0 ∧
      (feed.links false).subscriber.replay.outcome.lastSequenceNumber = some 3 ∧
      (feed.links true).subscriber.replay.outcome.stats.sequenceFailures = 1 ∧
      feed.server.pipeline.processed = numbered [.newOrder (limitOrder 1 .buy 100 5 .gtc),
        .newOrder { limitOrder 2 .sell 99 2 .ioc with accountId := 8 }] := by
  have comes : ((make .exact twoFed).bind fun start : LiveFeed (Fin 2) Bool =>
      (Transitions.run (LiveFeed.step .exact (fun _ => 0) 2048) start twoArrivals).map fun feed =>
        ((∀ event ∈ feed.server.router.wireEvents fun _ => 0, event.Representable) ∧
          feed.server.router.published.countP IsPublic < 2 ^ 64 - 1 ∧
          (∀ port, ∀ event ∈ (feed.links port).heard.head?, event.sequenceNumber = 1) ∧
          (feed.links false).subscriber.replay.outcome.stats.sequenceFailures = 0 ∧
          (feed.links false).subscriber.replay.outcome.lastSequenceNumber = some 3 ∧
          (feed.links true).subscriber.replay.outcome.stats.sequenceFailures = 1 ∧
          feed.server.pipeline.processed = numbered [.newOrder (limitOrder 1 .buy 100 5 .gtc),
            .newOrder { limitOrder 2 .sell 99 2 .ioc with accountId := 8 }] : Bool)) = some true := by
    decide +kernel
  obtain ⟨start, built, rest⟩ := Option.bind_eq_some_iff.mp comes
  obtain ⟨feed, ran, same⟩ := Option.map_eq_some_iff.mp rest
  obtain ⟨fits, below, seen⟩ := of_decide_eq_true same
  exact ⟨start, feed, built, ran, ⟨fits, below⟩, seen⟩

theorem twoFed_roomy : twoFed.Roomy := ⟨by decide, by decide⟩

/-- A datagram lost between two others is shown. -/
theorem losses_show_two :
    ∃ feed : LiveFeed (Fin 2) Bool, (feed.links true).subscriber.replay.outcome.stats.sequenceFailures = 1 ∧
      (feed.links true).heard.Sublist (feed.server.router.wireEvents fun _ => 0) := by
  obtain ⟨start, feed, built, ran, inRange, _, _, _, failed, _⟩ := twoArrivals_run
  exact ⟨feed, failed, (losses_show built twoFed_roomy ran inRange true).1⟩

/-- The books at port 0 after both commands. -/
theorem clean_books_agree_two :
    ∃ feed : LiveFeed (Fin 2) Bool, feed.server.pipeline.processed.length = 2 ∧
      (feed.links false).subscriber.replay.outcome.stats.bookErrors = 0 := by
  obtain ⟨start, feed, built, ran, inRange, first, clean, last, _, processed⟩ := twoArrivals_run
  have counted : (feed.links false).subscriber.replay.outcome.lastSequenceNumber.getD 0 =
      ((TradingServer.seededEngine .exact twoFed.server).runEvents .exact
        (feed.server.pipeline.processed.take 2)).countP IsPublic := by
    rw [last, processed]
    decide +kernel
  exact ⟨feed, congrArg List.length processed,
    (clean_books_agree built twoFed_roomy ran inRange false (first false) clean 2 counted).2⟩

end TwoPorts

end LiveFeed

end Mdh.Server
