import Mathlib.Logic.Function.Basic
import Mdh.Lib.Transitions

/-! The bounded multi-producer queue, one atomic step at a time. The two indices count
reservations and pops; the program sees them modulo `wrap`, and `wrap = 0` is the case where
they never wrap. -/

namespace Mdh.Concurrency
open Mdh.Lib

structure Slot (T : Type) where
  published : Nat := 0
  storage : Option T := none
  deriving DecidableEq, Repr

structure MpscQueue (T : Type) where
  capacity : Nat
  head : Nat := 0
  tail : Nat := 0
  highWaterMark : Nat := 0
  slots : Nat → Slot T := fun _ => {}

namespace MpscQueue
variable {T : Type}

/-- A queue of at least the capacity asked for. -/
def make (capacity : Nat) : MpscQueue T := { capacity := capacity.nextPowerOfTwo }

/-- `slots_[index & mask_]`: the capacity is a power of two. -/
def slotAt (queue : MpscQueue T) (index : Nat) : Slot T := queue.slots (index % queue.capacity)

def setSlot (queue : MpscQueue T) (index : Nat) (slot : Slot T) : MpscQueue T :=
  { queue with slots := Function.update queue.slots (index % queue.capacity) slot }

/-- Reserved and not yet freed. -/
def occupancy (queue : MpscQueue T) : Nat := queue.head - queue.tail

end MpscQueue

/-- What the unsigned type makes of a count. -/
def machineIndex (wrap count : Nat) : Nat := count % wrap

/-- The unsigned difference of two indices. -/
def machineDifference (wrap head tail : Nat) : Nat := (((head : Int) - tail) % wrap).toNat

theorem machineIndex_unbounded (count : Nat) : machineIndex 0 count = count := Nat.mod_zero count

theorem machineDifference_unbounded (head tail : Nat) : machineDifference 0 head tail = head - tail := by
  unfold machineDifference
  rw [Int.natCast_zero, Int.emod_zero]
  omega

/-- Where a producer stands in `try_push`, named by what it has done. -/
inductive Producer (T : Type) where
  | idle
  | called (value : T)
  | loadedHead (value : T) (head : Nat)
  | sawRoom (value : T) (head : Nat)
  | reserved (value : T) (head : Nat)
  | constructed (value : T) (head : Nat)
  | published (value : T) (head : Nat)
  | measured (value : T) (occupancy : Nat)
  | peaking (value : T) (occupancy peak : Nat)
  deriving DecidableEq, Repr

/-- Where the consumer stands in `try_pop`. -/
inductive Consumer (T : Type) where
  | idle
  | called
  | loadedTail (tail : Nat)
  | sawTicket (tail : Nat)
  | taken (tail : Nat) (value : Option T)
  | cleared (tail : Nat) (value : Option T)
  | returned (value : Option T)
  deriving DecidableEq, Repr

/-- The queue with everyone in it, and the history of who reserved and got what. -/
structure Machine (P T : Type) where
  queue : MpscQueue T
  producers : P → Producer T := fun _ => .idle
  consumer : Consumer T := .idle
  reservations : List (P × T) := []
  popped : List (Option T) := []
  outcomes : P → List (T × Bool) := fun _ => []

/-- One step of one thread. A weak compare-exchange may fail for no reason. -/
inductive Action (P T : Type) where
  | call (producer : P) (value : T)
  | push (producer : P) (spurious : Bool)
  | callPop
  | pop
  | collect
  deriving DecidableEq, Repr

namespace Machine
variable {P T : Type} [DecidableEq P]

def make (capacity : Nat) : Machine P T := { queue := MpscQueue.make capacity }

def moveTo (machine : Machine P T) (producer : P) (place : Producer T) : Machine P T :=
  { machine with producers := Function.update machine.producers producer place }

/-- The call returns to the producer. -/
def finish (machine : Machine P T) (producer : P) (value : T) (pushed : Bool) : Machine P T :=
  { machine.moveTo producer .idle with
    outcomes := Function.update machine.outcomes producer (machine.outcomes producer ++ [(value, pushed)]) }

/-- The next step of `try_push`. -/
def pushStep (wrap : Nat) (machine : Machine P T) (producer : P) (spurious : Bool) : Option (Machine P T) :=
  let queue := machine.queue
  match machine.producers producer with
  | .idle => none
  | .called value => some (machine.moveTo producer (.loadedHead value queue.head))
  | .loadedHead value head =>
      if machineDifference wrap head queue.tail ≥ queue.capacity then some (machine.finish producer value false)
      else some (machine.moveTo producer (.sawRoom value head))
  | .sawRoom value head =>
      if machineIndex wrap head = machineIndex wrap queue.head ∧ !spurious then
        some { machine.moveTo producer (.reserved value queue.head) with
          queue := { queue with head := queue.head + 1 }
          reservations := machine.reservations ++ [(producer, value)] }
      else some (machine.moveTo producer (.loadedHead value queue.head))
  | .reserved value head =>
      some { machine.moveTo producer (.constructed value head) with
        queue := queue.setSlot head { queue.slotAt head with storage := some value } }
  | .constructed value head =>
      some { machine.moveTo producer (.published value head) with
        queue := queue.setSlot head { queue.slotAt head with published := machineIndex wrap (head + 1) } }
  | .published value head =>
      some (machine.moveTo producer (.measured value (machineDifference wrap (head + 1) queue.tail)))
  | .measured value occupancy => some (machine.moveTo producer (.peaking value occupancy queue.highWaterMark))
  | .peaking value occupancy peak =>
      if occupancy > peak then
        if peak = queue.highWaterMark ∧ !spurious then
          some { machine.finish producer value true with queue := { queue with highWaterMark := occupancy } }
        else some (machine.moveTo producer (.peaking value occupancy queue.highWaterMark))
      else some (machine.finish producer value true)

/-- The next step of `try_pop`. -/
def popStep (wrap : Nat) (machine : Machine P T) : Option (Machine P T) :=
  let queue := machine.queue
  match machine.consumer with
  | .idle | .returned _ => none
  | .called => some { machine with consumer := .loadedTail queue.tail }
  | .loadedTail tail =>
      if (queue.slotAt tail).published ≠ machineIndex wrap (tail + 1) then
        some { machine with consumer := .returned none }
      else some { machine with consumer := .sawTicket tail }
  | .sawTicket tail =>
      some { machine with
        queue := queue.setSlot tail { queue.slotAt tail with storage := none }
        consumer := .taken tail (queue.slotAt tail).storage
        popped := machine.popped ++ [(queue.slotAt tail).storage] }
  | .taken tail value =>
      some { machine with
        queue := queue.setSlot tail { queue.slotAt tail with published := 0 }
        consumer := .cleared tail value }
  | .cleared tail value =>
      some { machine with
        queue := { queue with tail := tail + 1 }
        consumer := .returned value }

def step (wrap : Nat) (machine : Machine P T) : Action P T → Option (Machine P T)
  | .call producer value =>
      match machine.producers producer with
      | .idle => some (machine.moveTo producer (.called value))
      | _ => none
  | .push producer spurious => machine.pushStep wrap producer spurious
  | .callPop =>
      match machine.consumer with
      | .idle => some { machine with consumer := .called }
      | _ => none
  | .pop => machine.popStep wrap
  | .collect =>
      match machine.consumer with
      | .returned _ => some { machine with consumer := .idle }
      | _ => none

end Machine

end Mdh.Concurrency
