import Mdh.Matching.EngineEvents
import Mdh.Risk.RiskGatedEngine

/-! A command is rejected and nothing changes, or it is carried out and nothing of it is
rejected. Gate and engine share one event counter, and their events leave no gap in it. -/

namespace Mdh.Risk
open Mdh.Core Mdh.Matching Mdh.Matching.MatchingEngine Mdh.Accounts

namespace RiskGatedEngine
variable (round : Rounding)

/-- The command is turned down with one event, and nothing but the event counter moves; or
no event of it is a rejection. -/
def Atomic (gated : RiskGatedEngine) (command : ExchangeCommand) : Prop :=
  let out := gated.process round command
  (∃ rejection, out.events = [.orderRejected rejection] ∧
    rejection.eventSequence = gated.engine.nextEventSequence ∧
    out.gated = { gated with engine := { gated.engine with
      nextEventSequence := gated.engine.nextEventSequence + 1 } }) ∨
  ∀ event ∈ out.events, ¬ IsRejection event

/-- The events of a run, in the order they are emitted. -/
def runEvents (gated : RiskGatedEngine) : List ExchangeCommand → List ExchangeEvent
  | [] => []
  | command :: rest =>
      let out := gated.process round command
      out.events ++ out.gated.runEvents rest

/-- The exchange order ids a run gives to new orders. -/
def runIds (gated : RiskGatedEngine) : List ExchangeCommand → List Nat
  | [] => []
  | command :: rest =>
      let out := gated.process round command
      gated.engine.issuedBy command out.events ++ out.gated.runIds rest

theorem run_concat (gated : RiskGatedEngine) (commands : List ExchangeCommand) (command : ExchangeCommand) :
    gated.run round (commands ++ [command]) = ((gated.run round commands).process round command).gated := by
  unfold run
  rw [List.foldl_append, List.foldl_cons, List.foldl_nil]

theorem runEvents_concat (gated : RiskGatedEngine) (commands : List ExchangeCommand) (command : ExchangeCommand) :
    gated.runEvents round (commands ++ [command]) =
      gated.runEvents round commands ++ ((gated.run round commands).process round command).events := by
  induction commands generalizing gated with
  | nil => exact List.append_nil _
  | cons first rest ih =>
    calc gated.runEvents round (first :: rest ++ [command])
        = (gated.process round first).events ++ (gated.process round first).gated.runEvents round (rest ++ [command]) :=
          rfl
      _ = gated.runEvents round (first :: rest) ++ ((gated.run round (first :: rest)).process round command).events := by
          rw [ih, ← List.append_assoc]
          rfl

theorem process_atomic (gated : RiskGatedEngine) (command : ExchangeCommand) : gated.Atomic round command := by
  unfold Atomic
  rcases gated.process_cases round command with ⟨rejection, numbered, turned⟩ | ⟨_, forwarded⟩
  · rw [turned]
    exact Or.inl ⟨_, rfl, numbered _, rfl⟩
  · rw [forwarded]
    rcases dispatch_outcome { engine := gated.engine } command with ⟨rejection, events, number, engine⟩ | ⟨later, emits⟩
    · have only : (MatchingEngine.process gated.engine command).events = [.orderRejected rejection] := events
      have after : (MatchingEngine.process gated.engine command).engine = _ := engine
      refine Or.inl ⟨rejection, events, number, ?_⟩
      simp only [forward, only, after, List.foldl_cons, List.foldl_nil]
      rfl
    · have events : (gated.forward round command).events = later := emits.events
      exact Or.inr (events ▸ emits.kinds)

/-- Consecutive numbers from the counter on, and the counter just past them. -/
theorem process_numbers (gated : RiskGatedEngine) (command : ExchangeCommand) :
    let out := gated.process round command
    out.events.map ExchangeEvent.eventSequence =
        List.range' gated.engine.nextEventSequence out.events.length ∧
      out.gated.engine.nextEventSequence = gated.engine.nextEventSequence + out.events.length := by
  rcases gated.process_cases round command with ⟨rejection, numbered, turned⟩ | ⟨_, forwarded⟩
  · rw [turned]
    refine ⟨?_, rfl⟩
    exact congrArg (fun number => [number]) (numbered gated.engine.nextEventSequence)
  · rw [forwarded]
    rcases dispatch_outcome { engine := gated.engine } command with ⟨rejection, events, number, engine⟩ | ⟨later, emits⟩
    · have only : (gated.forward round command).events = [.orderRejected rejection] := events
      have after : (gated.forward round command).gated.engine.nextEventSequence = _ :=
        congrArg MatchingEngine.nextEventSequence engine
      intro out
      rw [only, after]
      exact ⟨congrArg (fun number => [number]) number, rfl⟩
    · have events : (gated.forward round command).events = later := emits.events
      intro out
      rw [events]
      exact ⟨emits.numbers, emits.next⟩

theorem process_ids (gated : RiskGatedEngine) (command : ExchangeCommand) :
    let out := gated.process round command
    Issues gated.engine out.gated.engine (gated.engine.issuedBy command out.events) := by
  rcases gated.process_cases round command with ⟨rejection, numbered, turned⟩ | ⟨_, forwarded⟩
  · rw [turned]
    have none : gated.engine.issuedBy command [.orderRejected (rejection gated.engine.nextEventSequence)] = [] :=
      ite_self _
    change Issues _ _ (gated.engine.issuedBy command [.orderRejected (rejection gated.engine.nextEventSequence)])
    rw [none]
    exact ⟨rfl, rfl⟩
  · rw [forwarded]
    exact process_issues gated.engine command

theorem runEvents_numbers (gated : RiskGatedEngine) (commands : List ExchangeCommand) :
    (gated.runEvents round commands).map ExchangeEvent.eventSequence =
      List.range' gated.engine.nextEventSequence (gated.runEvents round commands).length := by
  induction commands generalizing gated with
  | nil => rfl
  | cons command rest ih =>
    obtain ⟨numbers, next⟩ := gated.process_numbers round command
    rw [runEvents, List.map_append, numbers, ih, next, List.length_append, List.range'_append_1]

theorem runIds_issues (gated : RiskGatedEngine) (commands : List ExchangeCommand) :
    Issues gated.engine (gated.run round commands).engine (gated.runIds round commands) := by
  induction commands generalizing gated with
  | nil => exact ⟨rfl, rfl⟩
  | cons command rest ih => exact (gated.process_ids round command).trans (ih _)

/-- From any state on, rejections are atomic, events are numbered without a gap or a repeat,
and no exchange order id is issued twice. -/
theorem rejection_atomic_and_events_gapless (gated : RiskGatedEngine) (commands : List ExchangeCommand) :
    (∀ command, (gated.run round commands).Atomic round command) ∧
    (gated.runEvents round commands).map ExchangeEvent.eventSequence =
      List.range' gated.engine.nextEventSequence (gated.runEvents round commands).length ∧
    (gated.runIds round commands).Nodup := by
  refine ⟨(gated.run round commands).process_atomic round, gated.runEvents_numbers round commands, ?_⟩
  rw [(gated.runIds_issues round commands).1]
  exact List.nodup_range'

end RiskGatedEngine

end Mdh.Risk
