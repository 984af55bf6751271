import Mathlib.Data.List.Induction

/-! Runs of a machine whose steps are chosen by an action: an action that is not enabled has
no successor. What every step keeps, every run keeps. -/

namespace Mdh.Lib.Transitions

variable {σ α : Type*} (step : σ → α → Option σ)

/-- The state a sequence of actions leads to, if each is enabled in its turn. -/
def run (state : σ) : List α → Option σ
  | [] => some state
  | action :: rest => (step state action).bind fun next => run next rest

theorem run_append (state : σ) (front back : List α) :
    run step state (front ++ back) = (run step state front).bind fun middle => run step middle back := by
  induction front generalizing state with
  | nil => rfl
  | cons action rest ih =>
    rw [List.cons_append, run, run]
    cases step state action with
    | none => rfl
    | some next => exact ih next

theorem run_concat (state : σ) (actions : List α) (action : α) :
    run step state (actions ++ [action]) = (run step state actions).bind fun last => step last action := by
  rw [run_append]
  congr 1
  funext last
  rw [run]
  cases step last action with
  | none => rfl
  | some next => rfl

variable {step} {start state : σ} {actions : List α}

/-- The rule for runs: what holds of the start, and after one more step whenever it holds
before, holds of every run. -/
theorem run_rule (motive : List α → σ → Prop) (nil : motive [] start)
    (snoc : ∀ actions state action next, run step start actions = some state → motive actions state →
      step state action = some next → motive (actions ++ [action]) next)
    (ran : run step start actions = some state) : motive actions state := by
  induction actions using List.reverseRecOn generalizing state with
  | nil =>
    cases ran
    exact nil
  | append_singleton rest action ih =>
    rw [run_concat] at ran
    obtain ⟨middle, before, last⟩ := Option.bind_eq_some_iff.mp ran
    exact snoc rest middle action state before (ih before) last

/-- What every step keeps, every run keeps. -/
theorem run_invariant {holds : σ → Prop}
    (kept : ∀ state action next, holds state → step state action = some next → holds next)
    (initially : holds start) (ran : run step start actions = some state) : holds state :=
  run_rule (fun _ state => holds state) initially
    (fun _ state action next _ before stepped => kept state action next before stepped) ran

/-- Some run goes from one state to the other. -/
def Leads (step : σ → α → Option σ) (start state : σ) : Prop := ∃ actions, run step start actions = some state

theorem Leads.refl (state : σ) : Leads step state state := ⟨[], rfl⟩

theorem leads_step {action : α} (stepped : step start action = some state) : Leads step start state := by
  refine ⟨[action], ?_⟩
  rw [run, stepped]
  rfl

theorem Leads.trans {middle : σ} (front : Leads step start middle) (back : Leads step middle state) :
    Leads step start state := by
  obtain ⟨earlier, reached⟩ := front
  obtain ⟨later, finished⟩ := back
  refine ⟨earlier ++ later, ?_⟩
  rw [run_append, reached]
  exact finished

/-- Every step of a run is taken in a state that allows it this. -/
def Throughout (step : σ → α → Option σ) (allows : σ → α → Prop) (start : σ) (actions : List α) : Prop :=
  ∀ front action back state, actions = front ++ action :: back → run step start front = some state → allows state action

variable {allows : σ → α → Prop}

theorem throughout_nil : Throughout step allows start [] := by
  intro front action back state split
  simp at split

theorem throughout_concat {action : α} (ran : run step start actions = some state) :
    Throughout step allows start (actions ++ [action]) ↔ Throughout step allows start actions ∧ allows state action := by
  constructor
  · intro every
    refine ⟨fun front earlier back middle split reached => ?_, every actions action [] state rfl ran⟩
    exact every front earlier (back ++ [action]) middle (by rw [split, List.append_assoc, List.cons_append]) reached
  · rintro ⟨every, last⟩ front earlier back middle split reached
    rcases List.eq_nil_or_concat back with rfl | ⟨rest, final, rfl⟩
    · obtain ⟨same, one⟩ := List.append_inj' split rfl
      rw [← same, ran] at reached
      cases reached
      cases one
      exact last
    · have earlierSplit : actions ++ [action] = (front ++ earlier :: rest) ++ [final] := by
        rw [split, List.append_assoc, List.cons_append, List.concat_eq_append]
      obtain ⟨same, _⟩ := List.append_inj' earlierSplit rfl
      exact every front earlier rest middle same reached

/-- `Throughout`, action by action. -/
def checkThroughout (step : σ → α → Option σ) (allows : σ → α → Prop) [∀ state action, Decidable (allows state action)]
    (state : σ) : List α → Bool
  | [] => true
  | action :: rest => decide (allows state action) &&
      match step state action with
      | none => true
      | some next => checkThroughout step allows next rest

theorem throughout_of_check [∀ state action, Decidable (allows state action)]
    (checked : checkThroughout step allows start actions = true) : Throughout step allows start actions := by
  induction actions generalizing start with
  | nil => exact throughout_nil
  | cons first rest ih =>
    rw [checkThroughout, Bool.and_eq_true, decide_eq_true_eq] at checked
    obtain ⟨here, later⟩ := checked
    intro front action back state split reached
    cases front with
    | nil =>
      obtain ⟨rfl, rfl⟩ := List.cons.inj split
      cases reached
      exact here
    | cons head front =>
      obtain ⟨rfl, same⟩ := List.cons.inj split
      obtain ⟨next, stepped, reached⟩ := Option.bind_eq_some_iff.mp reached
      rw [stepped] at later
      exact ih later front action back state same reached

end Mdh.Lib.Transitions
