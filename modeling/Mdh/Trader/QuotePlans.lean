import Mdh.Trader.RestingQuote

/-! A strategy with quotes on both sides. On an input it plans where each of them is driven, one side
after the other, and then it drives them one by one; between any two the exchange takes requests and the
account handles reports. -/

namespace Mdh.Trader
open Mdh.Core Mdh.Gateway

/-- A quote of a side, and the price it is driven to; without one it is withdrawn. -/
structure Target where
  level : Nat
  desiredPrice : Option Int
  deriving DecidableEq, Repr

/-- What is left to be driven: quotes of one side, and then quotes of the other. -/
structure QuotePlan where
  lead : Side := .buy
  first : List Target := []
  second : List Target := []
  deriving DecidableEq, Repr

namespace QuotePlan

/-- The quote that is next to be driven, and what is left of the plan then. -/
inductive Next : QuotePlan → Side → Target → QuotePlan → Prop where
  | first (lead : Side) (target : Target) (first second : List Target) :
      Next { lead, first := target :: first, second } lead target { lead, first, second }
  | second (lead : Side) (target : Target) (second : List Target) :
      Next { lead, first := [], second := target :: second } lead.contra target { lead, first := [], second }

/-- What is left to be driven of a side. -/
def left (plan : QuotePlan) (side : Side) : List Target := if side = plan.lead then plan.first else plan.second

/-- The quote is of the side that is driven first, and is still to be driven. -/
def Ahead (plan : QuotePlan) (side : Side) (level : Nat) : Prop :=
  side = plan.lead ∧ ∃ target ∈ plan.first, target.level = level

section Next
variable {plan rest : QuotePlan} {side other : Side} {target : Target} {row : Nat}

/-- Nothing of the other side is still to be driven out of the way of the next quote. -/
theorem Next.not_ahead (next : plan.Next side target rest) : ¬ plan.Ahead side.contra row := by
  rintro ⟨same, later, member, _⟩
  cases next with
  | first lead => exact side.contra_ne same
  | second => cases member

theorem Next.ahead (next : plan.Next side target rest) (ahead : plan.Ahead other row)
    (different : (other, row) ≠ (side, target.level)) : rest.Ahead other row := by
  obtain ⟨rfl, later, member, rfl⟩ := ahead
  cases next with
  | first lead target first second =>
    rcases List.mem_cons.mp member with rfl | member
    · exact absurd rfl different
    · exact ⟨rfl, later, member, rfl⟩
  | second => cases member

theorem Next.mem (next : plan.Next side target rest) : target ∈ plan.left side := by
  unfold left
  cases next with
  | first =>
    rw [if_pos rfl]
    exact List.mem_cons_self
  | second lead =>
    rw [if_neg lead.contra_ne]
    exact List.mem_cons_self

theorem Next.left_subset (next : plan.Next side target rest) (other : Side) : rest.left other ⊆ plan.left other := by
  intro later member
  unfold left at member ⊢
  cases next with
  | first lead target first second =>
    dsimp only at member ⊢
    split_ifs at member ⊢
    · exact List.mem_cons_of_mem _ member
    · exact member
  | second lead target second =>
    dsimp only at member ⊢
    split_ifs at member ⊢
    · exact member
    · exact List.mem_cons_of_mem _ member

end Next

end QuotePlan

/-- The planning of a strategy, and its driving of one quote; whether a request would go out is the sender's
to say. -/
structure Quoter (σ ι : Type) where
  plan : ι → Client → σ → σ × QuotePlan
  drive : Side → Target → Bool → Client → σ → Client × σ

structure Planned (σ : Type) where
  memory : σ
  plan : QuotePlan := {}

inductive QuoterInput (ι : Type) where
  | plan (input : ι)
  | drive (sent : Bool)
  deriving DecidableEq, Repr

namespace Quoter
variable {σ ι : Type} (quoter : Quoter σ ι)

def driveNext (sent : Bool) (client : Client) (planned : Planned σ) : Client × Planned σ :=
  match planned.plan.first, planned.plan.second with
  | target :: first, _ =>
      let (client, memory) := quoter.drive planned.plan.lead target sent client planned.memory
      (client, { memory, plan := { planned.plan with first } })
  | [], target :: second =>
      let (client, memory) := quoter.drive planned.plan.lead.contra target sent client planned.memory
      (client, { memory, plan := { planned.plan with second } })
  | [], [] => (client, planned)

/-- The strategy has one thread: while quotes are still to be driven, no input is looked at. -/
def stepwise : Strategy (Planned σ) (QuoterInput ι) where
  act
    | .plan input, client, planned =>
        if planned.plan.first = [] ∧ planned.plan.second = [] then
          let (memory, plan) := quoter.plan input client planned.memory
          (client, { memory, plan })
        else (client, planned)
    | .drive sent, client, planned => quoter.driveNext sent client planned
  observe _ planned := planned

/-- Drives quotes of a side with nothing in between. -/
def driveAll (side : Side) (sent : Nat → Bool) : List Target → Client → σ → Client × σ
  | [], client, memory => (client, memory)
  | target :: rest, client, memory =>
      let (client, memory) := quoter.drive side target (sent target.level) client memory
      driveAll side sent rest client memory

/-- Carries out a plan with nothing in between. -/
def atOnce (sent : Side → Nat → Bool) (plan : QuotePlan) (client : Client) (memory : σ) : Client × σ :=
  let (client, memory) := quoter.driveAll plan.lead (sent plan.lead) plan.first client memory
  quoter.driveAll plan.lead.contra (sent plan.lead.contra) plan.second client memory

/-- What is driven next is that of the plan, unless nothing is left. -/
theorem driveNext_cases (sent : Bool) (client : Client) (planned : Planned σ) :
    quoter.driveNext sent client planned = (client, planned) ∨
      ∃ side target rest, planned.plan.Next side target rest ∧ quoter.driveNext sent client planned =
        ((quoter.drive side target sent client planned.memory).1,
          { memory := (quoter.drive side target sent client planned.memory).2, plan := rest }) := by
  obtain ⟨memory, lead, first, second⟩ := planned
  cases first with
  | cons target first => exact Or.inr ⟨lead, target, _, .first lead target first second, rfl⟩
  | nil =>
    cases second with
    | cons target second => exact Or.inr ⟨lead.contra, target, _, .second lead target second, rfl⟩
    | nil => exact Or.inl rfl

section Steps
variable {quoter}

/-- The inputs that carry out a plan. -/
def drives (ι : Type) (sent : Side → Nat → Bool) (plan : QuotePlan) : List (QuoterInput ι) :=
  plan.first.map (fun target => .drive (sent plan.lead target.level)) ++
    plan.second.map fun target => .drive (sent plan.lead.contra target.level)

/-- Taken one by one, with nothing in between, the quotes come to what they do when all are driven at once. -/
theorem stepwise_atOnce (sent : Side → Nat → Bool) (plan : QuotePlan) (client : Client) (memory : σ) :
    (drives ι sent plan).foldl (fun before input => quoter.stepwise.act input before.1 before.2) (client, { memory, plan }) =
      ((quoter.atOnce sent plan client memory).1,
        { memory := (quoter.atOnce sent plan client memory).2, plan := { lead := plan.lead } }) := by
  obtain ⟨lead, first, second⟩ := plan
  induction first generalizing client memory with
  | cons target rest ih => exact ih (quoter.drive lead target (sent lead target.level) client memory).1 _
  | nil =>
    induction second generalizing client memory with
    | nil => rfl
    | cons target rest ih => exact ih (quoter.drive lead.contra target (sent lead.contra target.level) client memory).1 _

/-- All a strategy does when it drives a quote is call. -/
def Calls (quoter : Quoter σ ι) : Prop :=
  ∀ side target sent client memory, ∃ calls : List Call, (quoter.drive side target sent client memory).1 = calls.foldl Client.call client

theorem Calls.stepwise (calls : quoter.Calls) : quoter.stepwise.Calls := by
  intro input client planned
  cases input with
  | plan input =>
    refine ⟨[], ?_⟩
    unfold Quoter.stepwise
    dsimp only
    split_ifs <;> rfl
  | drive sent =>
    show ∃ made : List Call, (quoter.driveNext sent client planned).1 = _
    unfold driveNext
    split
    · exact calls ..
    · exact calls ..
    · exact ⟨[], rfl⟩

/-- What a strategy does when it drives a quote: nothing, where it has none, or it requotes. An order is left
alone only within a threshold of the price. -/
inductive Drove (quotes : σ → Side → List (Option ClientOrderId)) (threshold : Int) (side : Side) (target : Target) (sent : Bool)
    (client : Client) (memory : σ) : Client → σ → Prop where
  | absent (none : (quotes memory side)[target.level]? = none) :
      Drove quotes threshold side target sent client memory client memory
  | requotes {close : ClientOrder → Int → Bool} {instrumentId : InstrumentId} {size : Nat} {orderId new : Option ClientOrderId}
      {after : Client} {next : σ} (there : (quotes memory side)[target.level]? = some orderId)
      (near : ∀ order price, close order price = true → absDiff order.price price < threshold)
      (requoted : Requoted close instrumentId side size client orderId sent target.desiredPrice after new)
      (now : quotes next = Function.update (quotes memory) side ((quotes memory side).set target.level new)) :
      Drove quotes threshold side target sent client memory after next

end Steps

end Quoter

end Mdh.Trader
