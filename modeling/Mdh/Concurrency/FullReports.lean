import Mathlib.Algebra.Order.Group.Nat
import Mdh.Concurrency.MpscQueue

/-! When a push is turned away. The call compares a head index it has held for a while with a
tail index it has just loaded; the unsigned difference is the occupancy only as long as the
tail has not passed the index held. -/

namespace Mdh.Concurrency
open Mdh.Lib

/-- The machine word of an index. -/
def wordWrap : Nat := 2 ^ 64

section Refusals
variable {P T : Type} [DecidableEq P]

/-- A call of `try_push` that returns false: `during` are the steps of everyone from the call
to the step that returns. -/
structure Refusal (capacity : Nat) (producer : P) (value : T) (during : List (Action P T))
    (called last : Machine P T) : Prop where
  reached : ∃ before, Transitions.run (Machine.step wordWrap) (Machine.make capacity)
    (before ++ [.call producer value]) = some called
  ran : Transitions.run (Machine.step wordWrap) called during = some last
  unanswered : last.outcomes producer = called.outcomes producer
  refused : ∃ spurious returned, last.step wordWrap (.push producer spurious) = some returned ∧
    returned.outcomes producer = last.outcomes producer ++ [(value, false)]

/-- At some moment of the call the queue holds as many items as it has slots. -/
def FullMoment (called : Machine P T) (during : List (Action P T)) : Prop :=
  ∃ early late state, during = early ++ late ∧
    Transitions.run (Machine.step wordWrap) called early = some state ∧
      state.queue.capacity ≤ state.queue.occupancy

/-- The tail has not passed the head index that the producer's call holds. -/
def HoldsFreshHead (machine : Machine P T) (producer : P) : Prop :=
  ∀ value head, machine.producers producer = .loadedHead value head → machine.queue.tail ≤ head

/-- An index that a call holds is one the head has had. -/
def HeldBehind (machine : Machine P T) : Prop :=
  ∀ producer value head, machine.producers producer = .loadedHead value head → head ≤ machine.queue.head

variable {machine next : Machine P T}

/-- A producer steps to a place whose index, if it holds one, is the head. -/
theorem HeldBehind.moved (behind : HeldBehind machine) {producer : P} {place : Producer T}
    (producers : next.producers = Function.update machine.producers producer place)
    (grows : machine.queue.head ≤ next.queue.head)
    (held : ∀ value head, place = .loadedHead value head → head = machine.queue.head) : HeldBehind next := by
  intro other value head there
  rw [producers, Function.update_apply] at there
  split_ifs at there with same
  · rw [held value head there]
    exact grows
  · exact (behind other value head there).trans grows

theorem HeldBehind.step {wrap : Nat} (behind : HeldBehind machine) {action : Action P T}
    (stepped : machine.step wrap action = some next) : HeldBehind next := by
  cases action with
  | call producer value =>
    rw [Machine.step] at stepped
    split at stepped <;> cases stepped
    exact behind.moved rfl le_rfl nofun
  | push producer spurious =>
    simp only [Machine.step, Machine.pushStep] at stepped
    cases place : machine.producers producer <;> rw [place] at stepped <;> simp only [reduceCtorEq] at stepped
    case called =>
      cases stepped
      exact behind.moved rfl le_rfl fun _ _ same => (Producer.loadedHead.inj same).2.symm
    case sawRoom =>
      split_ifs at stepped <;> cases stepped
      · exact behind.moved rfl (Nat.le_succ _) nofun
      · exact behind.moved rfl le_rfl fun _ _ same => (Producer.loadedHead.inj same).2.symm
    case loadedHead | peaking => split_ifs at stepped <;> cases stepped <;> exact behind.moved rfl le_rfl nofun
    all_goals cases stepped; exact behind.moved rfl le_rfl nofun
  | callPop | collect =>
    rw [Machine.step] at stepped
    split at stepped <;> cases stepped
    exact behind
  | pop =>
    simp only [Machine.step, Machine.popStep] at stepped
    cases place : machine.consumer <;> rw [place] at stepped <;> simp only [reduceCtorEq] at stepped
    case loadedTail => split_ifs at stepped <;> cases stepped <;> exact behind
    all_goals cases stepped; exact behind

theorem run_heldBehind {wrap : Nat} {actions : List (Action P T)} (behind : HeldBehind machine)
    (ran : Transitions.run (Machine.step wrap) machine actions = some next) : HeldBehind next :=
  Transitions.run_rule (fun _ state => HeldBehind state) behind (fun _ _ _ _ _ before stepped => before.step stepped) ran

/-- The unsigned difference is never more than the true one. -/
theorem machineDifference_le {wrap head tail : Nat} (ordered : tail ≤ head) :
    machineDifference wrap head tail ≤ head - tail := by
  unfold machineDifference
  rw [← Int.ofNat_sub ordered, ← Int.natCast_emod, Int.toNat_natCast]
  exact Nat.mod_le _ _

/-- A push that returns false does so at a load of the tail, on the word difference. -/
theorem refused_at_load {wrap : Nat} {producer : P} {spurious : Bool} {value : T}
    (stepped : machine.step wrap (.push producer spurious) = some next)
    (refused : next.outcomes producer = machine.outcomes producer ++ [(value, false)]) :
    ∃ held head, machine.producers producer = .loadedHead held head ∧
      machine.queue.capacity ≤ machineDifference wrap head machine.queue.tail := by
  simp only [Machine.step, Machine.pushStep] at stepped
  cases place : machine.producers producer <;> rw [place] at stepped <;> simp only [reduceCtorEq] at stepped
  case loadedHead held head =>
    split_ifs at stepped with full <;> cases stepped
    · exact ⟨held, head, rfl, full⟩
    · simp [Machine.moveTo] at refused
  case sawRoom => split_ifs at stepped <;> cases stepped <;> simp [Machine.moveTo] at refused
  case peaking => split_ifs at stepped <;> cases stepped <;> simp [Machine.moveTo, Machine.finish] at refused
  all_goals cases stepped; simp [Machine.moveTo] at refused

/-- A push that is turned away with a head index the tail has not passed was turned away by a
full queue, in any run with any number of producers. -/
theorem refusal_full_of_fresh_head {capacity : Nat} {producer : P} {value : T} {during : List (Action P T)}
    {called last : Machine P T} (refusal : Refusal capacity producer value during called last)
    (fresh : HoldsFreshHead last producer) : FullMoment called during := by
  obtain ⟨⟨before, reached⟩, ran, _, spurious, returned, stepped, refused⟩ := refusal
  obtain ⟨held, head, place, full⟩ := refused_at_load stepped refused
  have start : HeldBehind (Machine.make capacity : Machine P T) := nofun
  have behind := run_heldBehind (run_heldBehind start reached) ran producer held head place
  have ordered := fresh held head place
  refine ⟨during, [], last, (List.append_nil _).symm, ran, ?_⟩
  calc last.queue.capacity
      ≤ machineDifference wordWrap head last.queue.tail := full
    _ ≤ head - last.queue.tail := machineDifference_le ordered
    _ ≤ last.queue.occupancy := Nat.sub_le_sub_right behind _

end Refusals

section OvertakenHead

/-- Producer 0 has loaded the head when producer 1 pushes and the consumer pops. -/
def overtaking : List (Action (Fin 2) Nat) :=
  .push 0 false :: .call 1 5 :: List.replicate 8 (.push 1 false) ++ .callPop :: List.replicate 5 .pop

def overtakenCall : Machine (Fin 2) Nat := (Machine.make 2).moveTo 0 (.called 7)

/-- A queue of two places that never holds more than one item turns a push away. -/
theorem refusal_without_full_moment :
    ¬ ∀ (capacity : Nat) (producer : Fin 2) (value : Nat) (during : List (Action (Fin 2) Nat))
      (called last : Machine (Fin 2) Nat),
      Refusal capacity producer value during called last → FullMoment called during := by
  intro honest
  have ends : ((Transitions.run (Machine.step wordWrap) overtakenCall overtaking).bind fun last =>
      (last.step wordWrap (.push 0 false)).map fun returned => (last.outcomes 0, returned.outcomes 0)) =
      some ([], [(7, false)]) := by
    decide +kernel
  obtain ⟨last, ran, returns⟩ := Option.bind_eq_some_iff.mp ends
  obtain ⟨returned, stepped, outcomes⟩ := Option.map_eq_some_iff.mp returns
  obtain ⟨unanswered, refused⟩ := Prod.mk.inj outcomes
  obtain ⟨early, late, state, split, reached, full⟩ := honest 2 0 7 overtaking overtakenCall last
    { reached := ⟨[], rfl⟩
      ran := ran
      unanswered := unanswered
      refused := ⟨false, returned, stepped, by rw [refused, unanswered]; rfl⟩ }
  have room : ∀ count < 17, ((Transitions.run (Machine.step wordWrap) overtakenCall (overtaking.take count)).all
      fun state => state.queue.occupancy < state.queue.capacity) = true := by
    decide +kernel
  have short : early.length < 17 := by
    have total : 16 = early.length + late.length := by
      rw [← List.length_append, ← split]
      rfl
    omega
  have within := room early.length short
  rw [split, List.take_left, reached] at within
  exact absurd full (not_le.mpr (of_decide_eq_true within))

/-- A queue of one place turns a second push away while it holds the first. -/
theorem refusal_full_of_fresh_head_second_push :
    ∃ called last : Machine (Fin 2) Nat,
      Refusal 1 0 7 [.push 0 false] called last ∧ FullMoment called [.push 0 false] := by
  have ends : ((Transitions.run (Machine.step wordWrap) (Machine.make 1 : Machine (Fin 2) Nat)
        ((.call 1 5 :: List.replicate 8 (.push 1 false)) ++ [.call 0 7])).bind fun called =>
      (Transitions.run (Machine.step wordWrap) called [.push 0 false]).bind fun last =>
        (last.step wordWrap (.push 0 false)).map fun returned =>
          (called.outcomes 0 ++ last.outcomes 0, returned.outcomes 0, last.queue.tail)) =
      some ([], [(7, false)], 0) := by
    decide +kernel
  obtain ⟨called, reached, rest⟩ := Option.bind_eq_some_iff.mp ends
  obtain ⟨last, ran, returns⟩ := Option.bind_eq_some_iff.mp rest
  obtain ⟨returned, stepped, seen⟩ := Option.map_eq_some_iff.mp returns
  simp only [Prod.mk.injEq] at seen
  obtain ⟨unanswered, refused, tail⟩ := seen
  obtain ⟨calledOutcomes, lastOutcomes⟩ := List.append_eq_nil_iff.mp unanswered
  have refusal : Refusal 1 0 7 [.push 0 false] called last :=
    { reached := ⟨_, reached⟩
      ran := ran
      unanswered := lastOutcomes.trans calledOutcomes.symm
      refused := ⟨false, returned, stepped, by rw [refused, lastOutcomes]; rfl⟩ }
  exact ⟨called, last, refusal, refusal_full_of_fresh_head refusal fun _ _ _ => by rw [tail]; exact Nat.zero_le _⟩

end OvertakenHead

end Mdh.Concurrency
