import Mdh.Core.Types

/-! The numbers the enumerations go by on the wire. A byte that is no enumerator's number
is refused before it is cast. -/

namespace Mdh.Core

def Side.code : Side → Nat
  | .buy => 0
  | .sell => 1

def Side.ofCode : Nat → Option Side
  | 0 => some .buy
  | 1 => some .sell
  | _ => none

def OrderType.code : OrderType → Nat
  | .limit => 0

def OrderType.ofCode : Nat → Option OrderType
  | 0 => some .limit
  | _ => none

def TimeInForce.code : TimeInForce → Nat
  | .gtc => 0
  | .ioc => 1
  | .fok => 2

def TimeInForce.ofCode : Nat → Option TimeInForce
  | 0 => some .gtc
  | 1 => some .ioc
  | 2 => some .fok
  | _ => none

@[simp] theorem Side.ofCode_code (side : Side) : ofCode side.code = some side := by cases side <;> rfl

@[simp] theorem OrderType.ofCode_code (orderType : OrderType) : ofCode orderType.code = some orderType := by
  cases orderType
  rfl

@[simp] theorem TimeInForce.ofCode_code (timeInForce : TimeInForce) : ofCode timeInForce.code = some timeInForce := by
  cases timeInForce <;> rfl

section Inverses
variable {raw : Nat}

/-- A byte that is cast has the number of the enumerator it is cast to. -/
theorem Side.code_ofCode {side : Side} (known : ofCode raw = some side) : raw = side.code := by
  unfold ofCode at known
  split at known <;> cases known <;> rfl

theorem OrderType.code_ofCode {orderType : OrderType} (known : ofCode raw = some orderType) : raw = orderType.code := by
  unfold ofCode at known
  split at known <;> cases known
  rfl

theorem TimeInForce.code_ofCode {timeInForce : TimeInForce} (known : ofCode raw = some timeInForce) :
    raw = timeInForce.code := by
  unfold ofCode at known
  split at known <;> cases known <;> rfl

end Inverses

theorem Side.code_lt (side : Side) : side.code < 2 ^ 8 := by cases side <;> decide

theorem OrderType.code_lt (orderType : OrderType) : orderType.code < 2 ^ 8 := by
  cases orderType
  decide

theorem TimeInForce.code_lt (timeInForce : TimeInForce) : timeInForce.code < 2 ^ 8 := by cases timeInForce <;> decide

end Mdh.Core
