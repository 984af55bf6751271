import Mathlib.Data.List.Basic
import Mathlib.Data.Option.Basic
import Mdh.Core.Messages
import Mdh.Concurrency.LinearLog

/-! The matching pipeline: producers push commands, and the matching thread pops one, numbers
it and processes it. The number says where the command stands in the queue's log. -/

namespace Mdh.Core

def ExchangeCommand.commandSequence : ExchangeCommand → Nat
  | .newOrder command => command.commandSequence
  | .cancelOrder command => command.commandSequence
  | .replaceOrder command => command.commandSequence

/-- The command with its sequence number overwritten. -/
def ExchangeCommand.sequencedAs (assigned : Nat) : ExchangeCommand → ExchangeCommand
  | .newOrder command => .newOrder { command with commandSequence := assigned }
  | .cancelOrder command => .cancelOrder { command with commandSequence := assigned }
  | .replaceOrder command => .replaceOrder { command with commandSequence := assigned }

@[simp] theorem ExchangeCommand.commandSequence_sequencedAs (assigned : Nat) (command : ExchangeCommand) :
    (command.sequencedAs assigned).commandSequence = assigned := by
  cases command <;> rfl

end Mdh.Core

namespace Mdh.Sequencing
open Mdh.Core Mdh.Lib Mdh.Concurrency

structure CommandSequencer where
  nextSequence : Nat := 1
  deriving DecidableEq, Repr

/-- Overwrites the command's sequence number with the next value of the counter. -/
def CommandSequencer.sequence (sequencer : CommandSequencer) (command : ExchangeCommand) :
    ExchangeCommand × CommandSequencer :=
  (command.sequencedAs sequencer.nextSequence, { nextSequence := sequencer.nextSequence + 1 })

/-- The pipeline; `processed` is what the processor was called with, in order. -/
structure MatchingPipeline (P : Type) where
  queue : Machine P ExchangeCommand
  sequencer : CommandSequencer := {}
  processed : List ExchangeCommand := []
  commandsProcessed : Nat := 0
  stopRequested : Bool := false
  stopped : Bool := false

/-- A step of a producer inside `submit`, of the matching thread, or of the thread that stops. -/
inductive PipelineAction (P : Type) where
  | submit (producer : P) (command : ExchangeCommand)
  | push (producer : P) (spurious : Bool)
  | loop
  | requestStop
  deriving DecidableEq, Repr

namespace MatchingPipeline
variable {P : Type} [DecidableEq P]

def make (capacity : Nat) : MatchingPipeline P := { queue := Machine.make capacity }

/-- A step of the queue. -/
def queueStep (wrap : Nat) (pipeline : MatchingPipeline P) (action : Action P ExchangeCommand) :
    Option (MatchingPipeline P) :=
  (pipeline.queue.step wrap action).map fun queue => { pipeline with queue := queue }

/-- The matching thread has popped a command: it sequences it and processes it. -/
def handle (pipeline : MatchingPipeline P) (command : ExchangeCommand) : MatchingPipeline P :=
  { pipeline with
    queue := { pipeline.queue with consumer := .idle }
    sequencer := (pipeline.sequencer.sequence command).2
    processed := pipeline.processed ++ [(pipeline.sequencer.sequence command).1]
    commandsProcessed := pipeline.commandsProcessed + 1 }

/-- The matching thread's loop, one step of it. -/
def loopStep (wrap : Nat) (pipeline : MatchingPipeline P) : Option (MatchingPipeline P) :=
  if pipeline.stopped then none
  else
    match pipeline.queue.consumer with
    | .idle => pipeline.queueStep wrap .callPop
    | .returned none =>
        if pipeline.stopRequested then some { pipeline with stopped := true }
        else pipeline.queueStep wrap .collect
    | .returned (some command) => some (pipeline.handle command)
    | .called | .loadedTail _ | .sawTicket _ | .taken .. | .cleared .. => pipeline.queueStep wrap .pop

def step (wrap : Nat) (pipeline : MatchingPipeline P) : PipelineAction P → Option (MatchingPipeline P)
  | .submit producer command => pipeline.queueStep wrap (.call producer command)
  | .push producer spurious => pipeline.queueStep wrap (.push producer spurious)
  | .loop => pipeline.loopStep wrap
  | .requestStop => some { pipeline with stopRequested := true }

end MatchingPipeline

/-- Commands numbered 1, 2, 3, ... -/
def numbered (commands : List ExchangeCommand) : List ExchangeCommand :=
  commands.mapIdx fun index command => command.sequencedAs (index + 1)

theorem numbered_append (commands : List ExchangeCommand) (command : ExchangeCommand) :
    numbered (commands ++ [command]) = numbered commands ++ [command.sequencedAs (commands.length + 1)] := by
  unfold numbered
  rw [List.mapIdx_append]
  simp

@[simp] theorem numbered_length (commands : List ExchangeCommand) : (numbered commands).length = commands.length :=
  List.length_mapIdx

theorem numbered_sequences (commands : List ExchangeCommand) :
    (numbered commands).map ExchangeCommand.commandSequence = List.range' 1 commands.length := by
  induction commands using List.reverseRecOn with
  | nil => rfl
  | append_singleton commands command ih =>
    rw [numbered_append, List.map_append, ih, List.length_append, List.length_singleton, List.range'_1_concat]
    simp only [List.map_cons, List.map_nil, ExchangeCommand.commandSequence_sequencedAs, Nat.add_comm]

section Held
variable {P T : Type} [DecidableEq P] {machine next : Machine P T} {front : List (Option T)}

/-- What the consumer has popped and not handed over. -/
def held : Consumer T → List (Option T)
  | .idle | .called | .loadedTail _ | .sawTicket _ => []
  | .taken _ value | .cleared _ value => [value]
  | .returned value => value.toList.map some

theorem pushStep_consumer {wrap : Nat} {producer : P} {spurious : Bool}
    (stepped : machine.pushStep wrap producer spurious = some next) :
    next.consumer = machine.consumer ∧ next.popped = machine.popped := by
  simp only [Machine.pushStep] at stepped
  cases place : machine.producers producer <;> rw [place] at stepped <;> simp only [reduceCtorEq] at stepped
  case loadedHead | sawRoom | peaking => split_ifs at stepped <;> cases stepped <;> exact ⟨rfl, rfl⟩
  all_goals cases stepped; exact ⟨rfl, rfl⟩

/-- What is popped is an item. -/
theorem popped_present (logged : Logged machine) {value : Option T} (last : machine.popped = front ++ [value]) :
    ∃ item, value = some item := by
  obtain ⟨count, _, popped⟩ := logged.isLinearLog.popped
  have member : value ∈ machine.popped := by
    rw [last]
    exact List.mem_append_right _ (List.mem_singleton_self value)
  rw [popped] at member
  obtain ⟨entry, _, same⟩ := List.mem_map.mp member
  exact ⟨entry.2, same.symm⟩

/-- A step of the queue other than handing an item over keeps what the consumer holds. -/
theorem held_step (logged : Logged machine) (log : machine.popped = front ++ held machine.consumer)
    {action : Action P T} (stepped : machine.step 0 action = some next)
    (keeps : action = .collect → machine.consumer = .returned none) :
    next.popped = front ++ held next.consumer := by
  cases action with
  | call producer value =>
    rw [Machine.step] at stepped
    split at stepped <;> cases stepped
    exact log
  | push producer spurious =>
    obtain ⟨same, popped⟩ := pushStep_consumer stepped
    rw [same, popped, log]
  | callPop =>
    rw [Machine.step] at stepped
    split at stepped
    next place =>
      cases stepped
      rw [place] at log
      exact log
    next => cases stepped
  | pop =>
    simp only [Machine.step, Machine.popStep] at stepped
    cases place : machine.consumer <;> rw [place] at stepped log <;> simp only [reduceCtorEq] at stepped
    case called => cases stepped; exact log
    case loadedTail => split_ifs at stepped <;> cases stepped <;> exact log
    case sawTicket =>
      cases stepped
      rw [held, List.append_nil] at log
      exact congrArg (· ++ _) log
    case taken => cases stepped; exact log
    case cleared tail value =>
      cases stepped
      obtain ⟨item, rfl⟩ := popped_present logged log
      exact log
  | collect =>
    rw [Machine.step, keeps rfl] at stepped
    rw [keeps rfl] at log
    cases stepped
    exact log

end Held

namespace MatchingPipeline
variable {P : Type} [DecidableEq P] {pipeline next : MatchingPipeline P}

theorem queueStep_processed {action : Action P ExchangeCommand} (stepped : pipeline.queueStep 0 action = some next) :
    next.processed = pipeline.processed := by
  obtain ⟨_, _, rfl⟩ := Option.map_eq_some_iff.mp stepped
  rfl

/-- The matching thread's loop processes the command it has popped, and else nothing. -/
theorem loopStep_processed (stepped : pipeline.loopStep 0 = some next) :
    (∃ command, pipeline.queue.consumer = .returned (some command) ∧ next = pipeline.handle command) ∨
      (∀ command, pipeline.queue.consumer ≠ .returned (some command)) ∧ next.processed = pipeline.processed := by
  unfold loopStep at stepped
  split at stepped
  · cases stepped
  · split at stepped
    next place => exact Or.inr ⟨by rw [place]; exact nofun, queueStep_processed stepped⟩
    next place =>
      apply Or.inr
      refine ⟨by rw [place]; exact nofun, ?_⟩
      split at stepped
      · cases stepped
        rfl
      · exact queueStep_processed stepped
    next command place => exact Or.inl ⟨command, place, (Option.some.inj stepped).symm⟩
    all_goals
      rename_i place
      exact Or.inr ⟨by rw [place]; exact nofun, queueStep_processed stepped⟩

/-- The invariant of the pipeline: `commands` are those that have been processed. -/
structure Sequenced (pipeline : MatchingPipeline P) (commands : List ExchangeCommand) : Prop where
  logged : Logged pipeline.queue
  popped : pipeline.queue.popped = commands.map some ++ held pipeline.queue.consumer
  processed : pipeline.processed = numbered commands
  nextSequence : pipeline.sequencer.nextSequence = commands.length + 1
  counted : pipeline.commandsProcessed = commands.length

variable {commands : List ExchangeCommand}

theorem Sequenced.queueStep (sequenced : Sequenced pipeline commands) {action : Action P ExchangeCommand}
    (stepped : pipeline.queueStep 0 action = some next)
    (keeps : action = .collect → pipeline.queue.consumer = .returned none) : Sequenced next commands := by
  obtain ⟨queue, queueStepped, rfl⟩ := Option.map_eq_some_iff.mp stepped
  exact
    { logged := sequenced.logged.step queueStepped
      popped := held_step sequenced.logged sequenced.popped queueStepped keeps
      processed := sequenced.processed
      nextSequence := sequenced.nextSequence
      counted := sequenced.counted }

theorem Sequenced.handle (sequenced : Sequenced pipeline commands) {command : ExchangeCommand}
    (place : pipeline.queue.consumer = .returned (some command)) :
    Sequenced (pipeline.handle command) (commands ++ [command]) where
  logged := by
    have collected : pipeline.queue.step 0 .collect = some { pipeline.queue with consumer := .idle } := by
      rw [Machine.step, place]
    exact sequenced.logged.step collected
  popped := by
    have popped := sequenced.popped
    rw [place] at popped
    rw [List.map_append]
    exact popped.trans (List.append_nil _).symm
  processed := by
    rw [numbered_append, ← sequenced.processed, ← sequenced.nextSequence]
    rfl
  nextSequence := by
    rw [List.length_append]
    exact congrArg (· + 1) sequenced.nextSequence
  counted := by
    rw [List.length_append]
    exact congrArg (· + 1) sequenced.counted

theorem Sequenced.step (sequenced : Sequenced pipeline commands) {action : PipelineAction P}
    (stepped : pipeline.step 0 action = some next) : ∃ commands, Sequenced next commands := by
  cases action with
  | submit producer command => exact ⟨commands, sequenced.queueStep stepped nofun⟩
  | push producer spurious => exact ⟨commands, sequenced.queueStep stepped nofun⟩
  | loop =>
    rw [MatchingPipeline.step, loopStep] at stepped
    split at stepped
    · cases stepped
    · split at stepped
      next place => exact ⟨commands, sequenced.queueStep stepped nofun⟩
      next place =>
        split at stepped
        · cases stepped
          exact ⟨commands, sequenced.logged, sequenced.popped, sequenced.processed, sequenced.nextSequence,
            sequenced.counted⟩
        · exact ⟨commands, sequenced.queueStep stepped fun _ => place⟩
      next command place =>
        cases stepped
        exact ⟨_, sequenced.handle place⟩
      all_goals exact ⟨commands, sequenced.queueStep stepped nofun⟩
  | requestStop =>
    cases stepped
    exact ⟨commands, sequenced.logged, sequenced.popped, sequenced.processed, sequenced.nextSequence, sequenced.counted⟩

/-- Processing follows the log: one number after another, each for the next reservation. -/
theorem Sequenced.in_log_order (sequenced : Sequenced pipeline commands) :
    commands = (pipeline.queue.reservations.take commands.length).map Prod.snd := by
  obtain ⟨count, _, popped⟩ := sequenced.logged.isLinearLog.popped
  have short : commands.length ≤ count := by
    have total := congrArg List.length (popped.symm.trans sequenced.popped)
    rw [List.length_map, List.length_take, List.length_append, List.length_map] at total
    omega
  apply List.map_injective_iff.mpr (Option.some_injective ExchangeCommand)
  calc commands.map some
      = pipeline.queue.popped.take commands.length := by
        rw [sequenced.popped, List.take_left' (List.length_map ..)]
    _ = ((pipeline.queue.reservations.take count).map fun entry => some entry.2).take commands.length := by
        rw [popped]
    _ = ((pipeline.queue.reservations.take commands.length).map Prod.snd).map some := by
        rw [← List.map_take, List.take_take, Nat.min_eq_left short, List.map_map]
        rfl

theorem make_sequenced (capacity : Nat) : Sequenced (make capacity : MatchingPipeline P) [] :=
  ⟨make_logged capacity, rfl, rfl, rfl, rfl⟩

theorem run_sequenced {capacity : Nat} {actions : List (PipelineAction P)}
    (ran : Transitions.run (step 0) (make capacity) actions = some pipeline) :
    ∃ commands, Sequenced pipeline commands :=
  Transitions.run_rule (fun _ state => ∃ commands, Sequenced state commands) ⟨[], make_sequenced capacity⟩
    (fun _ _ _ _ _ before stepped => before.elim fun _ sequenced => sequenced.step stepped) ran

/-- The queue with the sequencer is a linear log: commands are processed in the order of
their reservations, numbered 1, 2, 3, ..., whatever the interleaving. -/
theorem linear_log {capacity : Nat} {actions : List (PipelineAction P)}
    (ran : Transitions.run (step 0) (make capacity) actions = some pipeline) :
    IsLinearLog pipeline.queue ∧
      pipeline.processed = numbered ((pipeline.queue.reservations.take pipeline.processed.length).map Prod.snd) ∧
      pipeline.processed.map ExchangeCommand.commandSequence = List.range' 1 pipeline.processed.length ∧
      pipeline.sequencer.nextSequence = pipeline.processed.length + 1 := by
  obtain ⟨commands, sequenced⟩ := run_sequenced ran
  have count : pipeline.processed.length = commands.length := by
    rw [sequenced.processed, numbered_length]
  refine ⟨sequenced.logged.isLinearLog, ?_, ?_, ?_⟩
  · rw [count, ← sequenced.in_log_order]
    exact sequenced.processed
  · rw [count, sequenced.processed]
    exact numbered_sequences commands
  · rw [count]
    exact sequenced.nextSequence

/-- Producer 0 reserves; producer 1 is turned away, then waits for the pop of the first
command and reserves the same slot a lap later. -/
def lapRun : List (PipelineAction (Fin 2)) :=
  let first : Fin 2 := ⟨0, Nat.two_pos⟩
  let second : Fin 2 := ⟨1, Nat.one_lt_two⟩
  let cancel (id : Nat) : ExchangeCommand :=
    .cancelOrder { commandSequence := 0, accountId := 1, clientOrderId := id, instrumentId := 1 }
  let pushes (producer : Fin 2) (steps : Nat) := List.replicate steps (PipelineAction.push producer false)
  let loops (steps : Nat) := List.replicate steps PipelineAction.loop
  [.submit first (cancel 1)] ++ pushes first 3 ++ [.submit second (cancel 2)] ++ pushes second 2 ++ pushes first 4 ++
    loops 6 ++ [.submit second (cancel 3)] ++ pushes second 1 ++ loops 1 ++ pushes second 5 ++ loops 7

/-- Two producers and a queue of one place: one push waits for a pop, another is turned away. -/
theorem linear_log_two_producers :
    ∃ pipeline : MatchingPipeline (Fin 2),
      Transitions.run (step 0) (make 1) lapRun = some pipeline ∧ pipeline.processed.length = 2 ∧
        IsLinearLog pipeline.queue := by
  have ran : ((Transitions.run (step 0) (make 1) lapRun).map fun pipeline => pipeline.processed.length) = some 2 := by
    decide +kernel
  obtain ⟨pipeline, reached, processed⟩ := Option.map_eq_some_iff.mp ran
  exact ⟨pipeline, reached, processed, (linear_log reached).1⟩

end MatchingPipeline

end Mdh.Sequencing
