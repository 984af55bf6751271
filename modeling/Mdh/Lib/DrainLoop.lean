import Mathlib.Algebra.Order.Group.Nat
import Mdh.Lib.Transitions

/-! A thread that empties a bounded queue in batches and tests a stop flag only when it has
found the queue empty. The pop that finds it empty and the test are two steps, so what is
queued between them is what the flag can lose. -/

namespace Mdh.Lib

/-- Where the thread stands: gathering a batch, handing it on, about to test the flag after an
empty pop, yielding, or done. -/
inductive LoopPlace (T : Type) where
  | gathering (batch : List T)
  | handing (batch : List T)
  | testing
  | yielding
  | ended
  deriving DecidableEq, Repr

/-- The queue, the thread and what it feeds; `accepted` and `handed` are the history. -/
structure DrainLoop (S T : Type) where
  capacity : Nat
  downstream : S
  items : List T := []
  place : LoopPlace T := .gathering []
  stopRequested : Bool := false
  refused : Nat := 0
  accepted : List T := []
  handed : List T := []
  deriving Repr

inductive DrainAction (T : Type) where
  | submit (item : T)
  | loop
  | requestStop
  deriving DecidableEq, Repr

namespace DrainLoop
variable {S T : Type}

/-- A full queue turns the item away. -/
def submit (item : T) (state : DrainLoop S T) : DrainLoop S T :=
  if state.items.length ≥ state.capacity then { state with refused := state.refused + 1 }
  else { state with items := state.items ++ [item], accepted := state.accepted ++ [item] }

/-- One step of the thread. A batch ends at the cap or at the first empty pop. -/
def loopStep (maxBatch : Nat) (deliver : S → List T → S) (state : DrainLoop S T) : Option (DrainLoop S T) :=
  match state.place with
  | .gathering batch =>
      if batch.length < maxBatch then
        match state.items with
        | [] => some { state with place := if batch.isEmpty then .testing else .handing batch }
        | item :: rest => some { state with items := rest, place := .gathering (batch ++ [item]) }
      else some { state with place := .handing batch }
  | .handing batch => some { state with
      downstream := deliver state.downstream batch
      handed := state.handed ++ batch
      place := .gathering [] }
  | .testing => some { state with place := if state.stopRequested then .ended else .yielding }
  | .yielding => some { state with place := .gathering [] }
  | .ended => none

def step (maxBatch : Nat) (deliver : S → List T → S) (state : DrainLoop S T) : DrainAction T → Option (DrainLoop S T)
  | .submit item => some (state.submit item)
  | .loop => state.loopStep maxBatch deliver
  | .requestStop => some { state with stopRequested := true }

/-- The batch in the thread's hands. -/
def inHand (state : DrainLoop S T) : List T :=
  match state.place with
  | .gathering batch | .handing batch => batch
  | .testing | .yielding | .ended => []

/-- Something was queued after the thread found the queue empty and before it tests the flag. -/
def CaughtAtTest (state : DrainLoop S T) : Prop := state.place = .testing ∧ state.items ≠ []

/-- A run with one stop request, up to the end of the thread. -/
structure StoppedRun (maxBatch : Nat) (deliver : S → List T → S) (start atStop final : DrainLoop S T) : Prop where
  before : ∃ actions, DrainAction.requestStop ∉ actions ∧
    Transitions.run (step maxBatch deliver) start actions = some atStop
  after : ∃ actions, Transitions.run (step maxBatch deliver) { atStop with stopRequested := true } actions = some final
  ended : final.place = .ended

section Runs
variable {maxBatch : Nat} {deliver : S → List T → S} {start state next atStop final : DrainLoop S T}

/-- Everything accepted has been handed on, is in hand, or is queued, in this order. -/
def Accounted (state : DrainLoop S T) : Prop := state.accepted = state.handed ++ state.inHand ++ state.items

theorem Accounted.submit (accounted : Accounted state) (item : T) : Accounted (state.submit item) := by
  unfold DrainLoop.submit
  split_ifs
  · exact accounted
  · exact (congrArg (· ++ [item]) accounted).trans (List.append_assoc ..)

/-- All that the thread can do. -/
theorem loopStep_cases (stepped : state.loopStep maxBatch deliver = some next) :
    (state.place = .gathering [] ∧ state.items = [] ∧ next = { state with place := .testing }) ∨
    (∃ batch, state.place = .gathering batch ∧ next = { state with place := .handing batch }) ∨
    (∃ batch item rest, state.place = .gathering batch ∧ state.items = item :: rest ∧
      next = { state with items := rest, place := .gathering (batch ++ [item]) }) ∨
    (∃ batch, state.place = .handing batch ∧ next = { state with
      downstream := deliver state.downstream batch
      handed := state.handed ++ batch
      place := .gathering [] }) ∨
    (state.place = .testing ∧ next = { state with place := if state.stopRequested then .ended else .yielding }) ∨
    (state.place = .yielding ∧ next = { state with place := .gathering [] }) := by
  unfold loopStep at stepped
  split at stepped
  next batch place =>
    split at stepped
    · split at stepped
      next empty =>
        cases batch with
        | nil => exact Or.inl ⟨place, empty, (Option.some.inj stepped).symm⟩
        | cons first others => exact Or.inr (Or.inl ⟨_, place, (Option.some.inj stepped).symm⟩)
      next item rest queued =>
        exact Or.inr (Or.inr (Or.inl ⟨batch, item, rest, place, queued, (Option.some.inj stepped).symm⟩))
    · exact Or.inr (Or.inl ⟨batch, place, (Option.some.inj stepped).symm⟩)
  next batch place =>
    exact Or.inr (Or.inr (Or.inr (Or.inl ⟨batch, place, (Option.some.inj stepped).symm⟩)))
  next place => exact Or.inr (Or.inr (Or.inr (Or.inr (Or.inl ⟨place, (Option.some.inj stepped).symm⟩))))
  next place => exact Or.inr (Or.inr (Or.inr (Or.inr (Or.inr ⟨place, (Option.some.inj stepped).symm⟩))))
  next => cases stepped

theorem Accounted.loopStep (accounted : Accounted state) (stepped : state.loopStep maxBatch deliver = some next) :
    Accounted next := by
  unfold Accounted inHand at accounted ⊢
  obtain ⟨place, empty, rfl⟩ | ⟨batch, place, rfl⟩ | ⟨batch, item, rest, place, queued, rfl⟩ | ⟨batch, place, rfl⟩ |
    ⟨place, rfl⟩ | ⟨place, rfl⟩ := loopStep_cases stepped <;> rw [place] at accounted
  · exact accounted
  · exact accounted
  · rw [queued] at accounted
    simpa only [List.append_assoc, List.singleton_append] using accounted
  · rw [accounted, List.append_nil]
  · rw [accounted]
    cases state.stopRequested <;> rfl
  · exact accounted

theorem Accounted.step (accounted : Accounted state) {action : DrainAction T}
    (stepped : step maxBatch deliver state action = some next) : Accounted next := by
  cases action with
  | submit item =>
    cases stepped
    exact accounted.submit item
  | loop => exact accounted.loopStep stepped
  | requestStop =>
    cases stepped
    exact accounted

theorem run_accounted {actions : List (DrainAction T)} (accounted : Accounted start)
    (ran : Transitions.run (step maxBatch deliver) start actions = some state) : Accounted state :=
  Transitions.run_invariant (fun _ _ _ before stepped => before.step stepped) accounted ran

/-- The thread has not ended, and the flag is down. -/
def Running (state : DrainLoop S T) : Prop := state.stopRequested = false ∧ state.place ≠ .ended

theorem Running.step (running : Running state) {action : DrainAction T} (quiet : action ≠ .requestStop)
    (stepped : step maxBatch deliver state action = some next) : Running next := by
  obtain ⟨flag, notEnded⟩ := running
  cases action with
  | submit item =>
    cases stepped
    unfold DrainLoop.submit
    split_ifs <;> exact ⟨flag, notEnded⟩
  | loop =>
    obtain ⟨_, _, rfl⟩ | ⟨_, _, rfl⟩ | ⟨_, _, _, _, _, rfl⟩ | ⟨_, _, rfl⟩ | ⟨_, rfl⟩ | ⟨_, rfl⟩ := loopStep_cases stepped
    case inr.inr.inr.inr.inl => exact ⟨flag, by simp [flag]⟩
    all_goals exact ⟨flag, nofun⟩
  | requestStop => exact absurd rfl quiet

theorem run_running {actions : List (DrainAction T)} (running : Running start) (quiet : .requestStop ∉ actions)
    (ran : Transitions.run (DrainLoop.step maxBatch deliver) start actions = some state) : Running state := by
  refine Transitions.run_rule (fun taken state => .requestStop ∉ taken → Running state) (fun _ => running)
    (fun taken before action after _ kept stepped silent => ?_) ran quiet
  rw [List.mem_append, not_or, List.mem_singleton] at silent
  exact (kept silent.1).step (Ne.symm silent.2) stepped

/-- With the flag up, the thread has handed on all the `first` items by the time it finds the
queue empty. -/
structure Draining (first : List T) (state : DrainLoop S T) : Prop where
  accounted : Accounted state
  flag : state.stopRequested = true
  known : first <+: state.accepted
  emptied : state.place = .testing ∨ state.place = .ended → first <+: state.handed

theorem Draining.step {first : List T} (draining : Draining first state) {action : DrainAction T}
    (stepped : DrainLoop.step maxBatch deliver state action = some next) : Draining first next := by
  have accounted := draining.accounted.step stepped
  obtain ⟨before, flag, known, emptied⟩ := draining
  cases action with
  | submit item =>
    cases stepped
    unfold DrainLoop.submit at accounted ⊢
    split_ifs at accounted ⊢ with full
    · exact ⟨accounted, flag, known, emptied⟩
    · exact ⟨accounted, flag, known.trans (List.prefix_append ..), emptied⟩
  | loop =>
    obtain ⟨place, empty, rfl⟩ | ⟨_, _, rfl⟩ | ⟨_, _, _, _, _, rfl⟩ | ⟨_, _, rfl⟩ | ⟨place, rfl⟩ | ⟨_, rfl⟩ :=
      loopStep_cases stepped
    case inl =>
      refine ⟨accounted, flag, known, fun _ => ?_⟩
      unfold Accounted inHand at before
      rw [place, empty, List.append_nil, List.append_nil] at before
      exact before ▸ known
    case inr.inr.inr.inr.inl => exact ⟨accounted, flag, known, fun _ => emptied (Or.inl place)⟩
    all_goals exact ⟨accounted, flag, known, fun either => by simp at either⟩
  | requestStop =>
    cases stepped
    exact ⟨accounted, rfl, known, emptied⟩

/-- With the flag up at the test, nothing more is handed on. -/
structure Cut (handed : List T) (state : DrainLoop S T) : Prop where
  flag : state.stopRequested = true
  place : state.place = .testing ∨ state.place = .ended
  handed : state.handed = handed

theorem Cut.step {handed : List T} (cut : Cut handed state) {action : DrainAction T}
    (stepped : DrainLoop.step maxBatch deliver state action = some next) : Cut handed next := by
  obtain ⟨flag, either, same⟩ := cut
  cases action with
  | submit item =>
    cases stepped
    unfold DrainLoop.submit
    split_ifs <;> exact ⟨flag, either, same⟩
  | loop =>
    obtain ⟨place, _, rfl⟩ | ⟨_, place, rfl⟩ | ⟨_, _, _, place, _, rfl⟩ | ⟨_, place, rfl⟩ | ⟨place, rfl⟩ | ⟨place, rfl⟩ :=
      loopStep_cases stepped
    case inr.inr.inr.inr.inl => exact ⟨flag, Or.inr (if_pos flag), same⟩
    all_goals rw [place] at either; simp at either
  | requestStop =>
    cases stepped
    exact ⟨rfl, either, same⟩

/-- The thread ends with everything handed on that was accepted before the stop request, in
order, unless the request came between an empty pop and the test with something queued. -/
theorem StoppedRun.drained_iff (run : StoppedRun maxBatch deliver start atStop final) (accounted : Accounted start)
    (running : Running start) : atStop.accepted <+: final.handed ↔ ¬ atStop.CaughtAtTest := by
  obtain ⟨⟨front, quiet, before⟩, ⟨back, after⟩, ended⟩ := run
  have stopAccounted : Accounted atStop := run_accounted accounted before
  constructor
  · rintro handed ⟨place, queued⟩
    have cut : Cut atStop.handed { atStop with stopRequested := true } := ⟨rfl, Or.inl place, rfl⟩
    have stays : Cut atStop.handed final := Transitions.run_invariant (fun _ _ _ kept => kept.step) cut after
    unfold Accounted inHand at stopAccounted
    rw [place] at stopAccounted
    have longer := handed.length_le
    rw [stays.handed, stopAccounted, List.append_nil, List.length_append] at longer
    exact queued (List.eq_nil_of_length_eq_zero (by omega))
  · intro clear
    have stillRunning : Running atStop := run_running running quiet before
    have draining : Draining atStop.accepted { atStop with stopRequested := true } := by
      refine ⟨stopAccounted, rfl, List.prefix_rfl, fun either => ?_⟩
      have place : atStop.place = .testing := either.resolve_right stillRunning.2
      have empty : atStop.items = [] := by
        by_contra queued
        exact clear ⟨place, queued⟩
      unfold Accounted inHand at stopAccounted
      rw [place, empty, List.append_nil, List.append_nil] at stopAccounted
      exact stopAccounted ▸ List.prefix_rfl
    have drained : Draining atStop.accepted final := Transitions.run_invariant (fun _ _ _ kept => kept.step) draining after
    exact drained.emptied (Or.inr ended)

/-- Nothing is handed on twice or out of order. -/
theorem StoppedRun.handed_prefix (run : StoppedRun maxBatch deliver start atStop final) (accounted : Accounted start) :
    final.handed <+: final.accepted := by
  obtain ⟨⟨_, _, before⟩, ⟨_, after⟩, _⟩ := run
  have stopAccounted : Accounted { atStop with stopRequested := true } := (run_accounted accounted before :)
  have finalAccounted : Accounted final := run_accounted stopAccounted after
  rw [finalAccounted, List.append_assoc]
  exact List.prefix_append ..

theorem accepted_grows {action : DrainAction T} (stepped : DrainLoop.step maxBatch deliver state action = some next) :
    state.accepted <+: next.accepted := by
  cases action with
  | submit item =>
    cases stepped
    unfold DrainLoop.submit
    split_ifs
    · exact List.prefix_rfl
    · exact List.prefix_append ..
  | loop =>
    obtain ⟨_, _, rfl⟩ | ⟨_, _, rfl⟩ | ⟨_, _, _, _, _, rfl⟩ | ⟨_, _, rfl⟩ | ⟨_, rfl⟩ | ⟨_, rfl⟩ :=
      loopStep_cases stepped <;> exact List.prefix_rfl
  | requestStop =>
    cases stepped
    exact List.prefix_rfl

theorem StoppedRun.accepted_prefix (run : StoppedRun maxBatch deliver start atStop final) :
    atStop.accepted <+: final.accepted := by
  obtain ⟨actions, after⟩ := run.after
  exact Transitions.run_rule (fun _ state => atStop.accepted <+: state.accepted) List.prefix_rfl
    (fun _ _ _ _ _ kept stepped => kept.trans (accepted_grows stepped)) after

/-- What the downstream has is what was handed on. -/
theorem delivered_step {means : S → List T → Prop}
    (kept : ∀ downstream handed batch, means downstream handed → means (deliver downstream batch) (handed ++ batch))
    {action : DrainAction T} (before : means state.downstream state.handed)
    (stepped : DrainLoop.step maxBatch deliver state action = some next) : means next.downstream next.handed := by
  cases action with
  | submit item =>
    cases stepped
    unfold DrainLoop.submit
    split_ifs <;> exact before
  | loop =>
    obtain ⟨_, _, rfl⟩ | ⟨_, _, rfl⟩ | ⟨_, _, _, _, _, rfl⟩ | ⟨batch, _, rfl⟩ | ⟨_, rfl⟩ | ⟨_, rfl⟩ :=
      loopStep_cases stepped
    case inr.inr.inr.inl => exact kept _ _ batch before
    all_goals exact before
  | requestStop =>
    cases stepped
    exact before

theorem StoppedRun.delivered {means : S → List T → Prop}
    (kept : ∀ downstream handed batch, means downstream handed → means (deliver downstream batch) (handed ++ batch))
    (run : StoppedRun maxBatch deliver start atStop final) (initially : means start.downstream start.handed) :
    means final.downstream final.handed := by
  obtain ⟨⟨_, _, before⟩, ⟨_, after⟩, _⟩ := run
  have atStopMeans : means atStop.downstream atStop.handed :=
    Transitions.run_rule (fun _ state => means state.downstream state.handed) initially
      (fun _ _ _ _ _ held stepped => delivered_step kept held stepped) before
  exact Transitions.run_rule (fun _ state => means state.downstream state.handed) atStopMeans
    (fun _ _ _ _ _ held stepped => delivered_step kept held stepped) after

end Runs

end DrainLoop

end Mdh.Lib
