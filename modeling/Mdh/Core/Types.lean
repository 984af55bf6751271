import Mathlib.Algebra.BigOperators.Group.List.Basic
import Mathlib.Algebra.Order.Ring.Int
import Mathlib.Data.List.Sort
import Mathlib.Order.Defs.LinearOrder
import Mathlib.Order.Defs.Unbundled
import Mathlib.Tactic.Ring

/-! The exchange's own vocabulary. Identifiers that are only compared for
equality have a name of their own. Exchange order ids and sequence numbers are
plain counters, a price is an integer number of ticks and a quantity a natural
number, so arithmetic on them is exact unless a definition rounds it. -/

namespace Mdh.Core

abbrev InstrumentId := Nat
abbrev AccountId := Nat
abbrev ClientOrderId := Nat

inductive Side where
  | buy
  | sell
  deriving DecidableEq, Repr, Inhabited

inductive OrderType where
  | limit
  deriving DecidableEq, Repr, Inhabited

inductive TimeInForce where
  | gtc
  | ioc
  | fok
  deriving DecidableEq, Repr, Inhabited

inductive RejectReason where
  | none
  | invalidPrice
  | invalidQuantity
  | duplicateOrderId
  | unknownOrderId
  | invalidInstrument
  | insufficientLiquidity
  | invalidReplacement
  | internalError
  | insufficientFunds
  | insufficientPosition
  | orderTooLarge
  | accountMismatch
  deriving DecidableEq, Repr, Inhabited

/-- The side an incoming order of this side trades against. -/
def Side.contra : Side → Side
  | .buy => .sell
  | .sell => .buy

@[simp] theorem Side.contra_contra (side : Side) : side.contra.contra = side := by
  cases side <;> rfl

theorem Side.contra_ne (side : Side) : side.contra ≠ side := by
  cases side <;> decide

theorem Side.eq_contra_of_ne {side other : Side} (different : other ≠ side) : other = side.contra := by
  cases side <;> cases other <;> simp_all [Side.contra]

/-- `first` has strictly better priority than `second` on this side of a book. -/
def Side.Before : Side → Int → Int → Prop
  | .buy, first, second => second < first
  | .sell, first, second => first < second

instance (side : Side) : DecidableRel side.Before := fun first second =>
  match side with
  | .buy => inferInstanceAs (Decidable (second < first))
  | .sell => inferInstanceAs (Decidable (first < second))

/-- An order on `side` with limit `price` trades with a contra order at `resting`. -/
def Side.Crosses : Side → Int → Int → Prop
  | .buy, price, resting => price ≥ resting
  | .sell, price, resting => price ≤ resting

instance (side : Side) (price resting : Int) : Decidable (side.Crosses price resting) :=
  match side with
  | .buy => inferInstanceAs (Decidable (price ≥ resting))
  | .sell => inferInstanceAs (Decidable (price ≤ resting))

theorem Side.Before.trans {side : Side} {first second third : Int}
    (one : side.Before first second) (two : side.Before second third) : side.Before first third := by
  cases side <;> simp only [Before] at * <;> omega

theorem Side.Before.irrefl (side : Side) (price : Int) : ¬ side.Before price price := by
  cases side <;> simp [Before]

theorem Side.Before.asymm {side : Side} {first second : Int} (before : side.Before first second) :
    ¬ side.Before second first :=
  fun after => Side.Before.irrefl side first (before.trans after)

theorem Side.before_trichotomy (side : Side) (first second : Int) :
    side.Before first second ∨ first = second ∨ side.Before second first := by
  cases side <;> simp only [Before] <;> omega

instance (side : Side) : IsStrictTotalOrder Int side.Before where
  trichotomous first second one two :=
    ((side.before_trichotomy first second).resolve_left one).resolve_right two
  irrefl := Side.Before.irrefl side
  trans _ _ _ := Side.Before.trans

/-- Crossing is monotone: a better contra price crosses whenever a worse one does. -/
theorem Side.Crosses.of_not_before {side : Side} {price resting better : Int}
    (crosses : side.Crosses price resting) (notWorse : ¬ side.contra.Before resting better) :
    side.Crosses price better := by
  cases side <;> simp only [Crosses, Before, contra] at * <;> omega

/-- A price crosses exactly when it is not strictly behind the contra price. -/
theorem Side.crosses_iff (side : Side) (price resting : Int) :
    side.Crosses price resting ↔ ¬ side.contra.Before price resting := by
  cases side <;> simp only [Crosses, Before, contra] <;> omega

end Mdh.Core
