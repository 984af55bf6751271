import Mathlib.Data.List.Perm.Basic
import Mathlib.Logic.Function.Basic
import Mdh.Lib.Transitions

/-! Latest-value publish and subscribe: a topic keeps only its last payload, under a revision number
that counts every publish. A connection remembers the revision it has delivered of each topic. -/

namespace Mdh.Server
open Mdh.Lib

variable {T V C : Type} [DecidableEq T]

structure Entry (V : Type) where
  payload : V
  revision : Nat := 0
  deriving DecidableEq, Repr

/-- `order` is how the map iterates. `published` is the history. -/
structure SseHub (T V : Type) where
  globalRevision : Nat := 0
  topics : T → Option (Entry V) := fun _ => none
  order : List T := []
  published : List (T × Entry V) := []

/-- What one connection remembers. `delivered` is the history. -/
structure Connection (T V : Type) where
  cursors : T → Nat := fun _ => 0
  delivered : List (T × Entry V) := []

/-- What a history holds of one topic. -/
def onTopic (topic : T) (history : List (T × Entry V)) : List (T × Entry V) := history.filter (·.1 = topic)

namespace SseHub

def revision (hub : SseHub T V) (topic : T) : Nat := ((hub.topics topic).map Entry.revision).getD 0

/-- A topic the map has not seen may change the order in which it iterates; another leaves it alone. -/
def publish (hub : SseHub T V) (topic : T) (payload : V) (order : List T) : Option (SseHub T V) :=
  let entry : Entry V := { payload, revision := hub.globalRevision + 1 }
  if (if (hub.topics topic).isNone then order.Perm (topic :: hub.order) else order = hub.order) then
    some {
      globalRevision := hub.globalRevision + 1
      topics := Function.update hub.topics topic (some entry)
      order
      published := hub.published ++ [(topic, entry)] }
  else none

/-- Whether a topic has a newer revision than was delivered. -/
def hasNewer (hub : SseHub T V) (cursors : T → Nat) (topic : T) : Bool := cursors topic < hub.revision topic

/-- The first such topic in iteration order. -/
def readyTopic (hub : SseHub T V) (cursors : T → Nat) : Option T := hub.order.find? (hub.hasNewer cursors)

/-- Delivers one topic, and moves the cursor of this one only. -/
def waitNext (hub : SseHub T V) (connection : Connection T V) : Option (V × Connection T V) := do
  let topic ← hub.readyTopic connection.cursors
  let entry ← hub.topics topic
  return (entry.payload, {
    cursors := Function.update connection.cursors topic entry.revision
    delivered := connection.delivered ++ [(topic, entry)] })

end SseHub

/-- The hub with its connections. One that opens later has made no call until then. -/
structure SseStreams (T V C : Type) where
  hub : SseHub T V := {}
  connections : C → Connection T V := fun _ => {}

inductive StreamAction (T V C : Type) where
  | publish (topic : T) (payload : V) (order : List T)
  | waitNext (client : C)
  deriving DecidableEq, Repr

/-- A call that finds nothing until it times out changes nothing. -/
def SseStreams.step [DecidableEq C] (streams : SseStreams T V C) : StreamAction T V C → Option (SseStreams T V C)
  | .publish topic payload order => (streams.hub.publish topic payload order).map fun hub => { streams with hub }
  | .waitNext client =>
      some (match streams.hub.waitNext (streams.connections client) with
        | none => streams
        | some (_, connection) => { streams with connections := Function.update streams.connections client connection })

namespace SseHub
variable {hub next : SseHub T V} {connection after : Connection T V}

/-- The map holds the last publish of every topic, and the revision is its place in the history. -/
structure Sound (hub : SseHub T V) : Prop where
  counted : hub.globalRevision = hub.published.length
  latest : ∀ topic, hub.topics topic = (onTopic topic hub.published).getLast?.map Prod.snd
  placed : ∀ topic entry, hub.topics topic = some entry →
    0 < entry.revision ∧ hub.published[entry.revision - 1]? = some (topic, entry)
  nodup : hub.order.Nodup
  order : ∀ topic, topic ∈ hub.order ↔ (hub.topics topic).isSome

/-- A connection has delivered of every topic, in order and once each, publishes up to its cursor,
and the last of them if it is not behind. -/
structure Follows (hub : SseHub T V) (connection : Connection T V) : Prop where
  within : ∀ topic, connection.cursors topic ≤ hub.published.length
  delivered : ∀ topic, (onTopic topic connection.delivered).Sublist
    (onTopic topic (hub.published.take (connection.cursors topic)))
  current : ∀ topic, hub.revision topic ≤ connection.cursors topic →
    (onTopic topic connection.delivered).getLast?.map Prod.snd = hub.topics topic

theorem onTopic_append (topic : T) (front back : List (T × Entry V)) :
    onTopic topic (front ++ back) = onTopic topic front ++ onTopic topic back := List.filter_append ..

theorem onTopic_here (topic : T) (entry : Entry V) : onTopic topic [(topic, entry)] = [(topic, entry)] :=
  List.filter_cons_of_pos (decide_eq_true rfl)

theorem onTopic_other {topic other : T} (different : other ≠ topic) (entry : Entry V) :
    onTopic topic [(other, entry)] = [] := List.filter_cons_of_neg (by simpa using different)

omit [DecidableEq T] in
theorem revision_eq {topic : T} {entry : Entry V} (found : hub.topics topic = some entry) :
    hub.revision topic = entry.revision := by
  rw [revision, found]
  rfl

section Publishing
variable {topic : T} {payload : V} {order : List T}

theorem publish_eq (published : hub.publish topic payload order = some next) :
    (if (hub.topics topic).isNone then order.Perm (topic :: hub.order) else order = hub.order) ∧
      next = {
        globalRevision := hub.globalRevision + 1
        topics := Function.update hub.topics topic (some { payload, revision := hub.globalRevision + 1 })
        order
        published := hub.published ++ [(topic, { payload, revision := hub.globalRevision + 1 })] } := by
  obtain ⟨allowed, same⟩ := Option.ite_none_right_eq_some.mp published
  exact ⟨allowed, (Option.some.inj same).symm⟩

theorem Sound.publish (sound : hub.Sound) (published : hub.publish topic payload order = some next) : next.Sound := by
  obtain ⟨allowed, rfl⟩ := publish_eq published
  obtain ⟨counted, latest, placed, nodup, known⟩ := sound
  constructor
  · rw [List.length_append, counted]
    rfl
  · intro other
    dsimp only
    rw [onTopic_append]
    by_cases same : other = topic
    · rw [same, Function.update_self, onTopic_here, List.getLast?_append, List.getLast?_singleton]
      rfl
    · rw [Function.update_of_ne same, onTopic_other (Ne.symm same), List.append_nil, latest]
  · intro other entry found
    dsimp only at found ⊢
    by_cases same : other = topic
    · subst same
      rw [Function.update_self, Option.some.injEq] at found
      subst found
      refine ⟨Nat.succ_pos _, ?_⟩
      rw [Nat.add_sub_cancel, counted, List.getElem?_append_right (Nat.le_refl _), Nat.sub_self]
      rfl
    · rw [Function.update_of_ne same] at found
      obtain ⟨positive, there⟩ := placed other entry found
      obtain ⟨inside, _⟩ := List.getElem?_eq_some_iff.mp there
      exact ⟨positive, by rw [List.getElem?_append_left inside, there]⟩
  · dsimp only
    split_ifs at allowed with fresh
    · rw [allowed.nodup_iff, List.nodup_cons, known, Option.isNone_iff_eq_none.mp fresh]
      exact ⟨nofun, nodup⟩
    · rw [allowed]
      exact nodup
  · intro other
    dsimp only
    have either : other ∈ order ↔ other = topic ∨ other ∈ hub.order := by
      split_ifs at allowed with fresh
      · rw [allowed.mem_iff, List.mem_cons]
      · rw [allowed]
        constructor
        · exact Or.inr
        · rintro (rfl | there)
          · exact (known other).mpr (Option.isSome_iff_ne_none.mpr fun none => fresh (Option.isNone_iff_eq_none.mpr none))
          · exact there
    rw [either, known]
    by_cases same : other = topic
    · rw [same, Function.update_self]
      exact iff_of_true (Or.inl rfl) rfl
    · rw [Function.update_of_ne same]
      exact or_iff_right same

/-- What is published now is newer than anything a connection has delivered. -/
theorem Follows.publish (follows : hub.Follows connection) (sound : hub.Sound)
    (published : hub.publish topic payload order = some next) : next.Follows connection := by
  obtain ⟨_, rfl⟩ := publish_eq published
  obtain ⟨within, delivered, current⟩ := follows
  constructor
  · intro other
    have before := within other
    dsimp only
    rw [List.length_append]
    omega
  · intro other
    dsimp only
    rw [List.take_append_of_le_length (within other)]
    exact delivered other
  · intro other caughtUp
    dsimp only
    by_cases same : other = topic
    · subst same
      have before := within other
      rw [revision_eq (Function.update_self ..), sound.counted] at caughtUp
      dsimp only at caughtUp
      omega
    · rw [Function.update_of_ne same]
      apply current
      rw [revision] at caughtUp ⊢
      dsimp only at caughtUp
      rwa [Function.update_of_ne same] at caughtUp

end Publishing

section Waiting

omit [DecidableEq T] in
theorem hasNewer_iff {cursors : T → Nat} {topic : T} :
    hub.hasNewer cursors topic = true ↔ cursors topic < hub.revision topic := decide_eq_true_iff

omit [DecidableEq T] in
theorem behind_known {cursors : T → Nat} {topic : T} (behind : cursors topic < hub.revision topic) :
    ∃ entry, hub.topics topic = some entry ∧ cursors topic < entry.revision := by
  cases found : hub.topics topic with
  | none =>
    rw [revision, found] at behind
    exact absurd behind (Nat.not_lt_zero _)
  | some entry => exact ⟨entry, rfl, revision_eq found ▸ behind⟩

/-- A call delivers the first topic in the order that the connection is behind in. -/
theorem waitNext_some {payload : V} (delivers : hub.waitNext connection = some (payload, after)) :
    ∃ topic entry, hub.readyTopic connection.cursors = some topic ∧ hub.topics topic = some entry ∧
      connection.cursors topic < entry.revision ∧ payload = entry.payload ∧
      after = {
        cursors := Function.update connection.cursors topic entry.revision
        delivered := connection.delivered ++ [(topic, entry)] } := by
  obtain ⟨topic, ready, found⟩ := Option.bind_eq_some_iff.mp delivers
  obtain ⟨entry, there, same⟩ := Option.bind_eq_some_iff.mp found
  cases same
  have behind := hasNewer_iff.mp (List.find?_some ready)
  rw [revision_eq there] at behind
  exact ⟨topic, entry, ready, there, behind, rfl, rfl⟩

theorem waitNext_ready {topic : T} {entry : Entry V} (ready : hub.readyTopic connection.cursors = some topic)
    (found : hub.topics topic = some entry) : hub.waitNext connection = some (entry.payload, {
      cursors := Function.update connection.cursors topic entry.revision
      delivered := connection.delivered ++ [(topic, entry)] }) := by
  rw [waitNext, ready, Option.bind_eq_bind, Option.bind_some, found]
  rfl

/-- As long as a topic is behind, a call delivers something. -/
theorem waitNext_isSome (sound : hub.Sound) {topic : T} (behind : connection.cursors topic < hub.revision topic) :
    hub.waitNext connection ≠ none := by
  obtain ⟨entry, found, _⟩ := behind_known behind
  have among : topic ∈ hub.order := (sound.order topic).mpr (by rw [found]; rfl)
  have some : (hub.readyTopic connection.cursors).isSome :=
    List.find?_isSome.mpr ⟨topic, among, hasNewer_iff.mpr behind⟩
  obtain ⟨first, ready⟩ := Option.isSome_iff_exists.mp some
  obtain ⟨other, there, _⟩ := behind_known (hasNewer_iff.mp (List.find?_some ready))
  rw [waitNext_ready ready there]
  exact nofun

theorem Follows.waitNext (follows : hub.Follows connection) (sound : hub.Sound) {payload : V}
    (delivers : hub.waitNext connection = some (payload, after)) : hub.Follows after := by
  obtain ⟨topic, entry, _, found, behind, _, rfl⟩ := waitNext_some delivers
  obtain ⟨within, delivered, current⟩ := follows
  obtain ⟨positive, there⟩ := sound.placed topic entry found
  obtain ⟨inside, _⟩ := List.getElem?_eq_some_iff.mp there
  constructor
  · intro other
    dsimp only
    by_cases same : other = topic
    · rw [same, Function.update_self]
      omega
    · rw [Function.update_of_ne same]
      exact within other
  · intro other
    dsimp only
    rw [onTopic_append]
    by_cases same : other = topic
    · subst same
      rw [Function.update_self, onTopic_here]
      have upTo : hub.published.take entry.revision = hub.published.take (entry.revision - 1) ++ [(other, entry)] := by
        have one : entry.revision = entry.revision - 1 + 1 := by omega
        rw [one, List.take_add_one, Nat.add_sub_cancel, there]
        rfl
      have earlier : connection.cursors other ≤ entry.revision - 1 := by omega
      have grows : (onTopic other (hub.published.take (connection.cursors other))).Sublist
          (onTopic other (hub.published.take (entry.revision - 1))) :=
        (List.take_prefix_take_left earlier).sublist.filter _
      rw [upTo, onTopic_append, onTopic_here]
      exact ((delivered other).trans grows).append (List.Sublist.refl _)
    · rw [Function.update_of_ne same, onTopic_other (Ne.symm same), List.append_nil]
      exact delivered other
  · intro other caughtUp
    dsimp only at caughtUp ⊢
    rw [onTopic_append]
    by_cases same : other = topic
    · rw [same, onTopic_here, List.getLast?_append, List.getLast?_singleton, found]
      rfl
    · rw [Function.update_of_ne same] at caughtUp
      rw [onTopic_other (Ne.symm same), List.append_nil]
      exact current other caughtUp

/-- How many topics a connection is behind in. -/
def pendingCount (hub : SseHub T V) (connection : Connection T V) : Nat := hub.order.countP (hub.hasNewer connection.cursors)

/-- Each call leaves one fewer. -/
theorem pendingCount_waitNext (sound : hub.Sound) {payload : V}
    (delivers : hub.waitNext connection = some (payload, after)) :
    hub.pendingCount after + 1 = hub.pendingCount connection := by
  obtain ⟨topic, entry, ready, found, behind, _, rfl⟩ := waitNext_some delivers
  have split := List.perm_cons_erase (List.mem_of_find?_eq_some ready)
  have now : ¬ hub.hasNewer (Function.update connection.cursors topic entry.revision) topic = true := by
    rw [hasNewer_iff, Function.update_self, revision_eq found]
    exact Nat.lt_irrefl _
  have others : (hub.order.erase topic).countP (hub.hasNewer (Function.update connection.cursors topic entry.revision)) =
      (hub.order.erase topic).countP (hub.hasNewer connection.cursors) := by
    apply List.countP_congr
    intro other member
    rw [hasNewer_iff, hasNewer_iff, Function.update_of_ne ((sound.nodup.mem_erase_iff).mp member).1]
  unfold pendingCount
  dsimp only
  rw [split.countP_eq, split.countP_eq, List.countP_cons_of_neg now, others,
    List.countP_cons_of_pos (hasNewer_iff.mpr (revision_eq found ▸ behind))]

/-- There is nothing to wait for just when the connection is behind in no topic. -/
theorem waitNext_eq_none_iff (sound : hub.Sound) : hub.waitNext connection = none ↔ hub.pendingCount connection = 0 := by
  constructor
  · intro nothing
    apply List.countP_eq_zero.mpr
    intro topic _ newer
    exact waitNext_isSome sound (hasNewer_iff.mp newer) nothing
  · intro caughtUp
    cases waited : hub.waitNext connection with
    | none => rfl
    | some found =>
      have fewer := pendingCount_waitNext sound waited
      omega

end Waiting

end SseHub

namespace SseStreams
variable [DecidableEq C] {streams next : SseStreams T V C} {client : C}

/-- What holds of the hub and of all its connections at every moment. -/
structure Consistent (streams : SseStreams T V C) : Prop where
  hub : streams.hub.Sound
  follows : ∀ client, streams.hub.Follows (streams.connections client)

omit [DecidableEq C] in
theorem start_consistent : ({} : SseStreams T V C).Consistent where
  hub := ⟨rfl, fun _ => rfl, nofun, List.nodup_nil, fun _ => iff_of_false (List.not_mem_nil) nofun⟩
  follows _ := ⟨fun _ => Nat.le_refl _, fun _ => List.Sublist.refl _, fun _ _ => rfl⟩

theorem step_waitNext_none (nothing : streams.hub.waitNext (streams.connections client) = none) :
    streams.step (.waitNext client) = some streams := by
  rw [step, nothing]

theorem step_waitNext_some {payload : V} {connection : Connection T V}
    (delivers : streams.hub.waitNext (streams.connections client) = some (payload, connection)) :
    streams.step (.waitNext client) =
      some { streams with connections := Function.update streams.connections client connection } := by
  rw [step, delivers]

theorem Consistent.step (consistent : streams.Consistent) {action : StreamAction T V C}
    (stepped : streams.step action = some next) : next.Consistent := by
  obtain ⟨sound, follows⟩ := consistent
  cases action with
  | publish topic payload order =>
    obtain ⟨hub, published, rfl⟩ := Option.map_eq_some_iff.mp stepped
    exact ⟨sound.publish published, fun client => (follows client).publish sound published⟩
  | waitNext client =>
    cases waited : streams.hub.waitNext (streams.connections client) with
    | none =>
      rw [step_waitNext_none waited] at stepped
      cases stepped
      exact ⟨sound, follows⟩
    | some found =>
      obtain ⟨payload, connection⟩ := found
      rw [step_waitNext_some waited] at stepped
      cases stepped
      refine ⟨sound, fun other => ?_⟩
      dsimp only
      by_cases same : other = client
      · subst same
        rw [Function.update_self]
        exact (follows other).waitNext sound waited
      · rw [Function.update_of_ne same]
        exact follows other

theorem run_consistent {actions : List (StreamAction T V C)} (ran : Transitions.run step {} actions = some streams) :
    streams.Consistent :=
  Transitions.run_invariant (fun _ _ _ consistent stepped => Consistent.step consistent stepped) start_consistent ran

/-- As many calls as there are topics to deliver leave none, and fewer leave some, when nothing is
published in between. -/
theorem Consistent.drains (consistent : streams.Consistent) (client : C) {count : Nat}
    (few : count ≤ streams.hub.pendingCount (streams.connections client)) :
    ∃ after, Transitions.run SseStreams.step streams (List.replicate count (.waitNext client)) = some after ∧
      after.hub = streams.hub ∧ (after.hub.waitNext (after.connections client) = none ↔
        count = streams.hub.pendingCount (streams.connections client)) := by
  induction count generalizing streams with
  | zero => exact ⟨streams, rfl, rfl, (SseHub.waitNext_eq_none_iff consistent.hub).trans eq_comm⟩
  | succ count ih =>
    cases waited : streams.hub.waitNext (streams.connections client) with
    | none =>
      have caughtUp := (SseHub.waitNext_eq_none_iff consistent.hub).mp waited
      omega
    | some found =>
      obtain ⟨payload, connection⟩ := found
      have fewer := SseHub.pendingCount_waitNext consistent.hub waited
      have stepped := step_waitNext_some waited
      have here : Function.update streams.connections client connection client = connection := Function.update_self ..
      obtain ⟨after, ran, hub, nothing⟩ := ih (consistent.step stepped) (by dsimp only; rw [here]; omega)
      refine ⟨after, ?_, hub, nothing.trans ?_⟩
      · rw [List.replicate_succ, Transitions.run, stepped]
        exact ran
      · dsimp only
        rw [here]
        omega

section Starving
variable {hot cold : T} {rest : List T}

/-- The first topic changes again, and the call gets it instead of the one that waits. -/
theorem Consistent.round (consistent : streams.Consistent) (order : streams.hub.order = hot :: rest)
    (different : cold ≠ hot) (waiting : (streams.connections client).cursors cold < streams.hub.revision cold) (payload : V) :
    ∃ next entry, Transitions.run SseStreams.step streams
        [StreamAction.publish hot payload (hot :: rest), .waitNext client] = some next ∧
      next.hub.order = hot :: rest ∧
      (next.connections client).delivered = (streams.connections client).delivered ++ [(hot, entry)] ∧
      (next.connections client).cursors cold < next.hub.revision cold := by
  have known : (streams.hub.topics hot).isSome := (consistent.hub.order hot).mp (order ▸ List.mem_cons_self)
  have published : streams.hub.publish hot payload (hot :: rest) = some {
      globalRevision := streams.hub.globalRevision + 1
      topics := Function.update streams.hub.topics hot (some { payload, revision := streams.hub.globalRevision + 1 })
      order := hot :: rest
      published := streams.hub.published ++ [(hot, { payload, revision := streams.hub.globalRevision + 1 })] } := by
    rw [SseHub.publish, if_pos]
    rw [if_neg]
    · exact order.symm
    · rw [Option.isNone_iff_eq_none]
      exact Option.isSome_iff_ne_none.mp known
  set hub : SseHub T V := {
      globalRevision := streams.hub.globalRevision + 1
      topics := Function.update streams.hub.topics hot (some { payload, revision := streams.hub.globalRevision + 1 })
      order := hot :: rest
      published := streams.hub.published ++ [(hot, { payload, revision := streams.hub.globalRevision + 1 })] }
  have stepped : streams.step (.publish hot payload (hot :: rest)) = some { streams with hub } := by
    rw [SseStreams.step, published]
    rfl
  have found : hub.topics hot = some { payload, revision := streams.hub.globalRevision + 1 } := Function.update_self ..
  have newer : hub.hasNewer (streams.connections client).cursors hot = true := by
    have within := (consistent.follows client).within hot
    have counted := consistent.hub.counted
    rw [SseHub.hasNewer_iff, SseHub.revision_eq found]
    dsimp only
    omega
  have ready : hub.readyTopic (streams.connections client).cursors = some hot := List.find?_cons_of_pos newer
  have waited := SseHub.waitNext_ready ready found
  set connection : Connection T V := {
      cursors := Function.update (streams.connections client).cursors hot (streams.hub.globalRevision + 1)
      delivered := (streams.connections client).delivered ++
        [(hot, { payload, revision := streams.hub.globalRevision + 1 })] }
  have served : ({ streams with hub } : SseStreams T V C).step (.waitNext client) =
      some { hub, connections := Function.update streams.connections client connection } := step_waitNext_some waited
  refine ⟨{ hub, connections := Function.update streams.connections client connection },
    { payload, revision := streams.hub.globalRevision + 1 }, ?_, rfl, ?_, ?_⟩
  · rw [Transitions.run, stepped, Option.bind_some, Transitions.run, served]
    rfl
  · dsimp only
    rw [Function.update_self]
  · have cursor : connection.cursors cold = (streams.connections client).cursors cold := Function.update_of_ne different ..
    have topic : hub.topics cold = streams.hub.topics cold := Function.update_of_ne different ..
    have revision : hub.revision cold = streams.hub.revision cold := by rw [SseHub.revision, topic, SseHub.revision]
    dsimp only
    rw [Function.update_self, cursor, revision]
    exact waiting

theorem Consistent.starved (consistent : streams.Consistent) (order : streams.hub.order = hot :: rest)
    (different : cold ≠ hot) (waiting : (streams.connections client).cursors cold < streams.hub.revision cold)
    (payload : V) (count : Nat) :
    ∃ after more, Transitions.run SseStreams.step streams
        (List.replicate count [StreamAction.publish hot payload (hot :: rest), .waitNext client]).flatten = some after ∧
      (after.connections client).delivered = (streams.connections client).delivered ++ more ∧ more.length = count ∧
      (∀ delivery ∈ more, delivery.1 = hot) ∧
      (after.connections client).cursors cold < after.hub.revision cold := by
  induction count generalizing streams with
  | zero => exact ⟨streams, [], rfl, (List.append_nil _).symm, rfl, nofun, waiting⟩
  | succ count ih =>
    obtain ⟨next, entry, ran, still, delivered, waits⟩ := consistent.round order different waiting payload
    have kept := Transitions.run_invariant (fun _ _ _ before stepped => Consistent.step before stepped) consistent ran
    obtain ⟨after, more, onward, total, length, each, last⟩ := ih kept still waits
    refine ⟨after, (hot, entry) :: more, ?_, ?_, ?_, ?_, last⟩
    · rw [List.replicate_succ, List.flatten_cons, Transitions.run_append, ran]
      exact onward
    · rw [total, delivered, List.append_assoc]
      rfl
    · rw [List.length_cons, length]
    · intro delivery member
      rcases List.mem_cons.mp member with rfl | later
      · rfl
      · exact each delivery later

end Starving

/-- Whatever is published meanwhile and whoever else is served: a connection has delivered of each
topic some of what was published on it, in that order and once each; when a call of it finds nothing,
the last it delivered of every topic is the last published; and if nothing more is published it gets
there in as many calls as it is topics behind, and in no fewer. -/
theorem streams_current {actions : List (StreamAction T V C)} (ran : Transitions.run step {} actions = some streams)
    (client : C) :
    let connection := streams.connections client
    (∀ topic, (onTopic topic connection.delivered).Sublist (onTopic topic streams.hub.published)) ∧
    (streams.hub.waitNext connection = none → ∀ topic,
      (onTopic topic connection.delivered).getLast?.map Prod.snd =
        (onTopic topic streams.hub.published).getLast?.map Prod.snd) ∧
    ∀ count ≤ streams.hub.pendingCount connection, ∃ after,
      Transitions.run step streams (List.replicate count (.waitNext client)) = some after ∧ after.hub = streams.hub ∧
        (after.hub.waitNext (after.connections client) = none ↔ count = streams.hub.pendingCount connection) := by
  have consistent := run_consistent ran
  have follows := consistent.follows client
  refine ⟨fun topic => ?_, fun nothing topic => ?_, fun count few => consistent.drains client few⟩
  · exact (follows.delivered topic).trans ((List.take_sublist ..).filter _)
  · rw [← consistent.hub.latest]
    apply follows.current
    by_contra behind
    exact SseHub.waitNext_isSome consistent.hub (Nat.lt_of_not_le behind) nothing

/-- But while the first topic in the order of the map goes on changing, a connection gets nothing of
any other: it can make any number of calls with another topic waiting all the time. -/
theorem first_topic_starves_others {actions : List (StreamAction T V C)}
    (ran : Transitions.run step {} actions = some streams) (client : C) {hot cold : T} {rest : List T}
    (order : streams.hub.order = hot :: rest) (different : cold ≠ hot)
    (waiting : (streams.connections client).cursors cold < streams.hub.revision cold) (payload : V) (count : Nat) :
    ∃ after more, Transitions.run step streams
        (List.replicate count [StreamAction.publish hot payload (hot :: rest), .waitNext client]).flatten = some after ∧
      (after.connections client).delivered = (streams.connections client).delivered ++ more ∧ more.length = count ∧
      (∀ delivery ∈ more, delivery.1 = hot) ∧
      (after.connections client).cursors cold < after.hub.revision cold :=
  (run_consistent ran).starved order different waiting payload count

section TwoTopics

/-- Two topics, a publish on the second of them again, and a call. -/
def twoTopics : List (StreamAction String Nat Unit) :=
  [.publish "order:7" 1 ["order:7"], .publish "book:1" 2 ["book:1", "order:7"], .publish "order:7" 3 ["book:1", "order:7"],
    .waitNext ()]

def seen (streams : SseStreams String Nat Unit) : List (String × Entry Nat) × List String × Nat :=
  ((streams.connections ()).delivered, streams.hub.order,
    streams.hub.revision "order:7" - (streams.connections ()).cursors "order:7")

theorem twoTopics_run : ∃ streams, Transitions.run SseStreams.step {} twoTopics = some streams ∧
    seen streams = ([("book:1", { payload := 2, revision := 2 })], ["book:1", "order:7"], 3) := by
  have ran : (Transitions.run SseStreams.step {} twoTopics).map seen =
      some ([("book:1", { payload := 2, revision := 2 })], ["book:1", "order:7"], 3) := by decide +kernel
  exact Option.map_eq_some_iff.mp ran

/-- The order's last state is still to come, and comes. -/
theorem streams_current_two : ∃ streams after : SseStreams String Nat Unit,
    (streams.connections ()).delivered = [("book:1", { payload := 2, revision := 2 })] ∧
      after.hub.waitNext (after.connections ()) = none := by
  obtain ⟨streams, ran, same⟩ := twoTopics_run
  obtain ⟨_, _, drains⟩ := streams_current ran ()
  obtain ⟨after, _, _, nothing⟩ := drains _ (Nat.le_refl _)
  exact ⟨streams, after, congrArg Prod.fst same, nothing.mpr rfl⟩

/-- The order waits for a thousand calls while the book changes. -/
theorem first_topic_starves_others_thousand : ∃ (after : SseStreams String Nat Unit) (more : List (String × Entry Nat)),
    (after.connections ()).delivered = ("book:1", { payload := 2, revision := 2 }) :: more ∧ more.length = 1000 ∧
      ∀ delivery ∈ more, delivery.1 = "book:1" := by
  obtain ⟨streams, ran, same⟩ := twoTopics_run
  obtain ⟨first, order, gap⟩ : _ ∧ _ ∧ _ := by simpa only [seen, Prod.mk.injEq] using same
  obtain ⟨after, more, _, delivered, length, each, _⟩ :=
    first_topic_starves_others ran () order (by decide : "order:7" ≠ "book:1") (by omega) 4 1000
  exact ⟨after, more, by rw [delivered, first]; rfl, length, each⟩

end TwoTopics

end SseStreams

end Mdh.Server
