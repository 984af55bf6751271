import Mathlib.Algebra.Order.Group.Nat
import Mdh.Concurrency.MpscQueue

/-! The queue as a log. Reservations take consecutive tickets, and a ticket goes through its
stages in order whoever is stopped where, so pops follow the log. -/

namespace Mdh.Concurrency
open Mdh.Lib

/-- How far a ticket has got. -/
inductive Stage where
  | fresh
  | reserved
  | constructed
  | published
  | taken
  | cleared
  | freed
  deriving DecidableEq, Repr

/-- What the slot of a ticket holds at each stage. -/
def Stage.slot {T : Type} (ticket : Nat) (item : Option T) : Stage → Slot T
  | .fresh | .reserved | .cleared | .freed => { published := 0, storage := none }
  | .constructed => { published := 0, storage := item }
  | .published => { published := ticket + 1, storage := item }
  | .taken => { published := ticket + 1, storage := none }

section Invariant
variable {P T : Type}

/-- The item of a ticket, once it is reserved. -/
def itemOf (reservations : List (P × T)) (ticket : Nat) : Option T := reservations[ticket]?.map Prod.snd

/-- Slots hold what the stages of the tickets in the window say. -/
structure Window (queue : MpscQueue T) (reservations : List (P × T)) (stage : Nat → Stage) : Prop where
  positive : 0 < queue.capacity
  counted : reservations.length = queue.head
  behind : queue.tail ≤ queue.head
  room : queue.head ≤ queue.tail + queue.capacity
  slots : ∀ ticket, queue.tail ≤ ticket → ticket < queue.tail + queue.capacity →
    queue.slotAt ticket = (stage ticket).slot ticket (itemOf reservations ticket)
  fresh : ∀ ticket, stage ticket = .fresh ↔ queue.head ≤ ticket
  freed : ∀ ticket, stage ticket = .freed ↔ ticket < queue.tail
  waiting : ∀ ticket, stage ticket = .taken ∨ stage ticket = .cleared → ticket = queue.tail

/-- What a producer's place says about the ticket it works on. -/
def ProducerAt (queue : MpscQueue T) (reservations : List (P × T)) (stage : Nat → Stage) (producer : P) :
    Producer T → Prop
  | .sawRoom _ head => head < queue.tail + queue.capacity
  | .reserved value head => stage head = .reserved ∧ reservations[head]? = some (producer, value)
  | .constructed value head => stage head = .constructed ∧ reservations[head]? = some (producer, value)
  | .idle | .called _ | .loadedHead .. | .published .. | .measured .. | .peaking .. => True

/-- What the consumer's place says about the ticket at the tail. -/
def ConsumerAt (queue : MpscQueue T) (stage : Nat → Stage) : Consumer T → Prop
  | .idle | .called | .returned _ => stage queue.tail ≠ .taken ∧ stage queue.tail ≠ .cleared
  | .loadedTail tail => tail = queue.tail ∧ stage queue.tail ≠ .taken ∧ stage queue.tail ≠ .cleared
  | .sawTicket tail => tail = queue.tail ∧ stage queue.tail = .published
  | .taken tail _ => tail = queue.tail ∧ stage queue.tail = .taken
  | .cleared tail _ => tail = queue.tail ∧ stage queue.tail = .cleared

/-- How many items the consumer has out of slots the tail is still at. -/
def inHand : Consumer T → Nat
  | .taken .. | .cleared .. => 1
  | .idle | .called | .loadedTail _ | .sawTicket _ | .returned _ => 0

/-- The invariant of the queue. -/
structure Consistent (machine : Machine P T) (stage : Nat → Stage) : Prop where
  window : Window machine.queue machine.reservations stage
  producers : ∀ producer, ProducerAt machine.queue machine.reservations stage producer (machine.producers producer)
  consumer : ConsumerAt machine.queue stage machine.consumer
  popped : machine.popped =
    (machine.reservations.take (machine.queue.tail + inHand machine.consumer)).map fun entry => some entry.2

end Invariant

section Windows
variable {P T : Type} {queue : MpscQueue T} {reservations : List (P × T)} {stage : Nat → Stage}

/-- Two tickets of one window have slots of their own. -/
theorem window_distinct {tail capacity first second : Nat} (firstLow : tail ≤ first)
    (firstHigh : first < tail + capacity) (secondLow : tail ≤ second) (secondHigh : second < tail + capacity)
    (same : first % capacity = second % capacity) : first = second := by
  have close : ∀ low high : Nat, low ≤ high → high < low + capacity → high % capacity = low % capacity →
      high = low := by
    intro low high ordered near congruent
    have gap : (high - low) % capacity = 0 := Nat.sub_mod_eq_zero_of_mod_eq congruent
    rw [Nat.mod_eq_of_lt (by omega)] at gap
    omega
  rcases le_total first second with ordered | ordered
  · exact (close first second ordered (by omega) same.symm).symm
  · exact close second first ordered (by omega) same

theorem slotAt_setSlot (queue : MpscQueue T) (index other : Nat) (slot : Slot T) :
    (queue.setSlot index slot).slotAt other =
      if other % queue.capacity = index % queue.capacity then slot else queue.slotAt other := by
  show Function.update queue.slots (index % queue.capacity) slot (other % queue.capacity) = _
  rw [Function.update_apply]
  rfl

/-- A ticket in the queue goes on to another stage, and its slot with it. -/
theorem Window.progress (window : Window queue reservations stage) {ticket : Nat} (low : queue.tail ≤ ticket)
    (high : ticket < queue.head) {next : Stage} (notFresh : next ≠ .fresh) (notFreed : next ≠ .freed)
    (front : next = .taken ∨ next = .cleared → ticket = queue.tail) {slot : Slot T}
    (written : slot = next.slot ticket (itemOf reservations ticket)) :
    Window (queue.setSlot ticket slot) reservations (Function.update stage ticket next) where
  positive := window.positive
  counted := window.counted
  behind := window.behind
  room := window.room
  slots other otherLow otherHigh := by
    rw [slotAt_setSlot, Function.update_apply]
    by_cases same : other = ticket
    · rw [if_pos (by rw [same]), if_pos same, same]
      exact written
    · have inside : ticket < queue.tail + queue.capacity := high.trans_le window.room
      have otherLow : queue.tail ≤ other := otherLow
      have otherHigh : other < queue.tail + queue.capacity := otherHigh
      rw [if_neg fun congruent => same (window_distinct otherLow otherHigh low inside congruent), if_neg same]
      exact window.slots other otherLow otherHigh
  fresh other := by
    rw [Function.update_apply]
    split_ifs with same
    · exact iff_of_false notFresh (by rw [same]; exact not_le.mpr high)
    · exact window.fresh other
  freed other := by
    rw [Function.update_apply]
    split_ifs with same
    · exact iff_of_false notFreed (by rw [same]; exact not_lt.mpr low)
    · exact window.freed other
  waiting other := by
    rw [Function.update_apply]
    split_ifs with same
    · rw [same]
      exact front
    · exact window.waiting other

/-- A reservation: the next ticket, whose slot is empty. -/
theorem Window.reserve (window : Window queue reservations stage) (entry : P × T)
    (free : queue.head < queue.tail + queue.capacity) :
    Window { queue with head := queue.head + 1 } (reservations ++ [entry])
      (Function.update stage queue.head .reserved) where
  positive := window.positive
  counted := by rw [List.length_append, window.counted]; rfl
  behind := window.behind.trans (Nat.le_succ _)
  room := free
  slots other low high := by
    have was := window.slots other low high
    show queue.slotAt other = _
    rw [was, Function.update_apply]
    split_ifs with same
    · rw [(window.fresh other).mpr (by rw [same])]
      rfl
    · by_cases before : other < queue.head
      · unfold itemOf
        rw [List.getElem?_append_left (by rw [window.counted]; exact before)]
      · rw [(window.fresh other).mpr (not_lt.mp before)]
        rfl
  fresh other := by
    rw [Function.update_apply]
    show _ ↔ queue.head + 1 ≤ other
    split_ifs with same
    · exact iff_of_false (by decide) (by omega)
    · rw [window.fresh]
      omega
  freed other := by
    rw [Function.update_apply]
    split_ifs with same
    · exact iff_of_false (by decide) (by rw [same]; exact not_lt.mpr window.behind)
    · exact window.freed other
  waiting other := by
    rw [Function.update_apply]
    split_ifs with same
    · exact fun absurdity => by simp at absurdity
    · exact window.waiting other

/-- The ticket at the tail is freed, and its slot serves a ticket one lap later. -/
theorem Window.free (window : Window queue reservations stage) (cleared : stage queue.tail = .cleared) :
    Window { queue with tail := queue.tail + 1 } reservations (Function.update stage queue.tail .freed) := by
  have reserved : queue.tail < queue.head := by
    by_contra ahead
    rw [(window.fresh queue.tail).mpr (not_lt.mp ahead)] at cleared
    cases cleared
  have emptied := window.slots queue.tail le_rfl (Nat.lt_add_of_pos_right window.positive)
  rw [cleared] at emptied
  refine ⟨window.positive, window.counted, reserved, ?_, fun other low high => ?_, fun other => ?_, fun other => ?_,
    fun other => ?_⟩
  · show queue.head ≤ queue.tail + 1 + queue.capacity
    exact window.room.trans (by omega)
  · show queue.slotAt other = _
    have low : queue.tail + 1 ≤ other := low
    have high : other < queue.tail + 1 + queue.capacity := high
    rw [Function.update_apply, if_neg (by omega)]
    by_cases lap : other = queue.tail + queue.capacity
    · have fresh := (window.fresh other).mpr (lap ▸ window.room)
      have slot : queue.slotAt other = queue.slotAt queue.tail := by
        unfold MpscQueue.slotAt
        rw [lap, Nat.add_mod_right]
      rw [slot, emptied, fresh]
      rfl
    · exact window.slots other (by omega) (by omega)
  · rw [Function.update_apply]
    split_ifs with same
    · exact iff_of_false (by decide) (by rw [same]; exact not_le.mpr reserved)
    · exact window.fresh other
  · rw [Function.update_apply]
    show _ ↔ other < queue.tail + 1
    split_ifs with same
    · exact iff_of_true rfl (by omega)
    · rw [window.freed]
      omega
  · rw [Function.update_apply]
    split_ifs with same
    · exact fun absurdity => by simp at absurdity
    · exact fun waiting => absurd (window.waiting other waiting) same

/-- The ticket in the hands of a producer is in the window. -/
theorem Window.held (window : Window queue reservations stage) {ticket : Nat}
    (held : stage ticket = .reserved ∨ stage ticket = .constructed) :
    queue.tail ≤ ticket ∧ ticket < queue.head := by
  constructor
  · by_contra below
    rw [(window.freed ticket).mpr (not_le.mp below)] at held
    simp at held
  · by_contra above
    rw [(window.fresh ticket).mpr (not_lt.mp above)] at held
    simp at held

end Windows

section Places
variable {P T : Type} {queue queue' : MpscQueue T} {reservations reservations' : List (P × T)}
  {stage stage' : Nat → Stage}

/-- A producer's place is as good after a step that leaves its own ticket alone. -/
theorem ProducerAt.frame {producer : P} {place : Producer T} (here : ProducerAt queue reservations stage producer place)
    (limit : queue.tail + queue.capacity ≤ queue'.tail + queue'.capacity)
    (kept : ∀ (ticket : Nat) (entry : P × T), reservations[ticket]? = some entry → reservations'[ticket]? = some entry)
    (same : ∀ (ticket : Nat) (value : T), reservations[ticket]? = some (producer, value) →
      stage ticket = .reserved ∨ stage ticket = .constructed → stage' ticket = stage ticket) :
    ProducerAt queue' reservations' stage' producer place := by
  cases place with
  | idle | called | loadedHead | published | measured | peaking => trivial
  | sawRoom value head => exact lt_of_lt_of_le here limit
  | reserved value head => exact ⟨(same head value here.2 (Or.inl here.1)).trans here.1, kept head _ here.2⟩
  | constructed value head => exact ⟨(same head value here.2 (Or.inr here.1)).trans here.1, kept head _ here.2⟩

theorem ConsumerAt.frame {consumer : Consumer T} (here : ConsumerAt queue stage consumer)
    (tail : queue'.tail = queue.tail)
    (quiet : stage queue.tail ≠ .taken ∧ stage queue.tail ≠ .cleared →
      stage' queue.tail ≠ .taken ∧ stage' queue.tail ≠ .cleared)
    (same : stage queue.tail ∈ [Stage.published, .taken, .cleared] → stage' queue.tail = stage queue.tail) :
    ConsumerAt queue' stage' consumer := by
  cases consumer <;> simp only [ConsumerAt, tail] at here ⊢
  case idle | called | returned => exact quiet here
  case loadedTail => exact ⟨here.1, quiet here.2⟩
  case sawTicket | taken | cleared => exact ⟨here.1, (same (by simp [here.2])).trans here.2⟩

end Places

section Steps
variable {P T : Type} {machine next : Machine P T} {stage : Nat → Stage} {producer : P}

/-- What has been popped was reserved. -/
theorem Consistent.popped_reserved (consistent : Consistent machine stage) :
    machine.queue.tail + inHand machine.consumer ≤ machine.reservations.length := by
  rw [consistent.window.counted]
  have behind := consistent.window.behind
  have here := consistent.consumer
  by_cases empty : machine.queue.head ≤ machine.queue.tail
  · have fresh := (consistent.window.fresh machine.queue.tail).mpr empty
    cases place : machine.consumer <;> rw [place] at here <;> simp only [ConsumerAt, fresh] at here
    all_goals first | exact behind | simp at here
  · have one : inHand machine.consumer ≤ 1 := by
      cases machine.consumer <;> simp [inHand]
    omega

/-- The high-water mark is no part of the log. -/
theorem Consistent.mark (consistent : Consistent machine stage) (peak : Nat) :
    Consistent { machine with queue := { machine.queue with highWaterMark := peak } } stage := by
  obtain ⟨⟨positive, counted, behind, room, slots, fresh, freed, waiting⟩, producers, consumer, popped⟩ := consistent
  refine ⟨⟨positive, counted, behind, room, slots, fresh, freed, waiting⟩, fun other => ?_, ?_, popped⟩
  · exact ProducerAt.frame (producers other) le_rfl (fun _ _ found => found) fun _ _ _ _ => rfl
  · exact ConsumerAt.frame consumer rfl id fun _ => rfl

/-- The consumer works on the ticket at the tail. -/
theorem Consistent.consume (consistent : Consistent machine stage) {place : Consumer T} {now : Stage} {slot : Slot T}
    {log : List (Option T)} (seen : stage machine.queue.tail = .published ∨ stage machine.queue.tail = .taken)
    (stays : now = .taken ∨ now = .cleared)
    (written : slot = now.slot machine.queue.tail (itemOf machine.reservations machine.queue.tail))
    (fine : ConsumerAt (machine.queue.setSlot machine.queue.tail slot) (Function.update stage machine.queue.tail now) place)
    (logged : log = (machine.reservations.take (machine.queue.tail + inHand place)).map fun entry => some entry.2) :
    Consistent
      { machine with
        queue := machine.queue.setSlot machine.queue.tail slot
        consumer := place
        popped := log }
      (Function.update stage machine.queue.tail now) where
  window := by
    have reserved : machine.queue.tail < machine.queue.head := by
      by_contra ahead
      rw [(consistent.window.fresh machine.queue.tail).mpr (not_lt.mp ahead)] at seen
      simp at seen
    refine consistent.window.progress le_rfl reserved ?_ ?_ (fun _ => rfl) written <;>
      rcases stays with rfl | rfl <;> decide
  producers other := by
    refine ProducerAt.frame (consistent.producers other) le_rfl (fun _ _ found => found) fun ticket value _ held => ?_
    rw [Function.update_of_ne]
    intro same
    rw [same] at held
    rcases seen with seen | seen <;> rw [seen] at held <;> simp at held
  consumer := fine
  popped := logged

/-- The tail moves on. -/
theorem Consistent.free (consistent : Consistent machine stage) {value : Option T}
    (here : machine.consumer = .cleared machine.queue.tail value) :
    Consistent
      { machine with
        queue := { machine.queue with tail := machine.queue.tail + 1 }
        consumer := .returned value }
      (Function.update stage machine.queue.tail .freed) := by
  have cleared : stage machine.queue.tail = .cleared := by
    have placed := consistent.consumer
    rw [here] at placed
    exact placed.2
  refine ⟨consistent.window.free cleared, fun other => ?_, ?_, ?_⟩
  · refine ProducerAt.frame (consistent.producers other) ?_ (fun _ _ found => found) fun ticket value _ held => ?_
    · show machine.queue.tail + machine.queue.capacity ≤ machine.queue.tail + 1 + machine.queue.capacity
      omega
    · rw [Function.update_of_ne]
      intro same
      rw [same, cleared] at held
      simp at held
  · show Function.update stage machine.queue.tail .freed (machine.queue.tail + 1) ≠ .taken ∧
      Function.update stage machine.queue.tail .freed (machine.queue.tail + 1) ≠ .cleared
    rw [Function.update_of_ne (by omega)]
    have ahead : ∀ waiting : Stage, waiting = .taken ∨ waiting = .cleared →
        stage (machine.queue.tail + 1) ≠ waiting := by
      intro waiting either same
      have front := consistent.window.waiting (machine.queue.tail + 1) (same ▸ either)
      omega
    exact ⟨ahead _ (Or.inl rfl), ahead _ (Or.inr rfl)⟩
  · have log := consistent.popped
    rw [here] at log
    exact log

/-- A ticket at the tail that shows its number has been published. -/
theorem Consistent.ticket_seen (consistent : Consistent machine stage)
    (quiet : stage machine.queue.tail ≠ .taken ∧ stage machine.queue.tail ≠ .cleared)
    (ticket : (machine.queue.slotAt machine.queue.tail).published = machine.queue.tail + 1) :
    stage machine.queue.tail = .published := by
  rw [consistent.window.slots _ le_rfl (Nat.lt_add_of_pos_right consistent.window.positive)] at ticket
  cases reached : stage machine.queue.tail <;> rw [reached] at ticket quiet <;> simp [Stage.slot] at ticket quiet ⊢

/-- `try_pop` keeps the invariant, whichever step it is at. -/
theorem Consistent.popStep (consistent : Consistent machine stage) (stepped : machine.popStep 0 = some next) :
    ∃ stage, Consistent next stage := by
  have here := consistent.consumer
  have log := consistent.popped
  have atTail := consistent.window.slots _ le_rfl (Nat.lt_add_of_pos_right consistent.window.positive)
  simp only [Machine.popStep] at stepped
  cases place : machine.consumer with
  | idle =>
    rw [place] at stepped
    cases stepped
  | returned value =>
    rw [place] at stepped
    cases stepped
  | called =>
    rw [place] at here log stepped
    cases stepped
    exact ⟨stage, consistent.window, consistent.producers, ⟨rfl, here⟩, log⟩
  | loadedTail tail =>
    rw [place] at here log stepped
    obtain ⟨rfl, quiet⟩ := here
    simp only [machineIndex_unbounded, ne_eq] at stepped
    split_ifs at stepped with ticket
    · cases stepped
      exact ⟨stage, consistent.window, consistent.producers, ⟨rfl, consistent.ticket_seen quiet ticket⟩, log⟩
    · cases stepped
      exact ⟨stage, consistent.window, consistent.producers, quiet, log⟩
  | sawTicket tail =>
    rw [place] at here log stepped
    obtain ⟨rfl, published⟩ := here
    rw [published] at atTail
    cases stepped
    refine ⟨_, consistent.consume (Or.inl published) (Or.inl rfl) (by rw [atTail]; rfl)
      ⟨rfl, Function.update_self ..⟩ ?_⟩
    have reserved : machine.queue.tail < machine.reservations.length := by
      rw [consistent.window.counted]
      by_contra ahead
      rw [(consistent.window.fresh _).mpr (not_lt.mp ahead)] at published
      cases published
    rw [log, atTail]
    simp only [inHand, Nat.add_zero, List.take_add_one, List.map_append, List.append_cancel_left_eq, Stage.slot, itemOf]
    rw [List.getElem?_eq_getElem reserved]
    rfl
  | taken tail value =>
    rw [place] at here log stepped
    obtain ⟨rfl, taken⟩ := here
    rw [taken] at atTail
    cases stepped
    exact ⟨_, consistent.consume (Or.inr taken) (Or.inr rfl) (by rw [atTail]; rfl)
      ⟨rfl, Function.update_self ..⟩ log⟩
  | cleared tail value =>
    rw [place] at here stepped
    obtain ⟨rfl, _⟩ := here
    cases stepped
    exact ⟨_, consistent.free place⟩

variable [DecidableEq P]

/-- A step that only moves one producer. -/
theorem Consistent.moveTo (consistent : Consistent machine stage) {place : Producer T}
    (fine : ProducerAt machine.queue machine.reservations stage producer place) :
    Consistent (machine.moveTo producer place) stage where
  window := consistent.window
  producers other := by
    show ProducerAt _ _ _ other (Function.update machine.producers producer place other)
    rw [Function.update_apply]
    split_ifs with same
    · rw [same]
      exact fine
    · exact consistent.producers other
  consumer := consistent.consumer
  popped := consistent.popped

theorem Consistent.finish (consistent : Consistent machine stage) (value : T) (pushed : Bool) :
    Consistent (machine.finish producer value pushed) stage :=
  have moved : Consistent (machine.moveTo producer .idle) stage := consistent.moveTo trivial
  ⟨moved.window, moved.producers, moved.consumer, moved.popped⟩

/-- A producer works on its ticket: it writes the slot and the ticket goes on. -/
theorem Consistent.work (consistent : Consistent machine stage) {ticket : Nat} {value : T} {place : Producer T}
    {now : Stage} {slot : Slot T} (held : stage ticket = .reserved ∨ stage ticket = .constructed)
    (owned : machine.reservations[ticket]? = some (producer, value))
    (stays : now = .constructed ∨ now = .published)
    (written : slot = now.slot ticket (itemOf machine.reservations ticket))
    (fine : ProducerAt (machine.queue.setSlot ticket slot) machine.reservations (Function.update stage ticket now)
      producer place) :
    Consistent { machine.moveTo producer place with queue := machine.queue.setSlot ticket slot }
      (Function.update stage ticket now) where
  window := by
    obtain ⟨low, high⟩ := consistent.window.held held
    refine consistent.window.progress low high ?_ ?_ ?_ written <;> rcases stays with rfl | rfl <;> simp
  producers other := by
    show ProducerAt _ _ _ other (Function.update machine.producers producer place other)
    rw [Function.update_apply]
    split_ifs with same
    · rw [same]
      exact fine
    · refine ProducerAt.frame (consistent.producers other) le_rfl (fun _ _ found => found) fun theirs item found _ => ?_
      rw [Function.update_of_ne]
      rintro rfl
      rw [owned, Option.some.injEq, Prod.mk.injEq] at found
      exact same found.1.symm
  consumer := by
    refine ConsumerAt.frame consistent.consumer rfl (fun quiet => ?_) fun seen => ?_
    · rw [Function.update_apply]
      split_ifs
      · rcases stays with rfl | rfl <;> simp
      · exact quiet
    · rw [Function.update_of_ne]
      rintro rfl
      rcases held with held | held <;> rw [held] at seen <;> simp at seen
  popped := consistent.popped

/-- A successful compare-exchange: the producer takes the next ticket. -/
theorem Consistent.reserve (consistent : Consistent machine stage) (value : T)
    (free : machine.queue.head < machine.queue.tail + machine.queue.capacity) :
    Consistent
      { machine.moveTo producer (.reserved value machine.queue.head) with
        queue := { machine.queue with head := machine.queue.head + 1 }
        reservations := machine.reservations ++ [(producer, value)] }
      (Function.update stage machine.queue.head .reserved) where
  window := consistent.window.reserve (producer, value) free
  producers other := by
    show ProducerAt _ _ _ other (Function.update machine.producers producer (.reserved value machine.queue.head) other)
    rw [Function.update_apply]
    split_ifs with same
    · refine ⟨Function.update_self .., ?_⟩
      rw [← consistent.window.counted, List.getElem?_concat_length, same]
    · refine ProducerAt.frame (consistent.producers other) le_rfl (fun ticket entry found => ?_)
        fun ticket item found _ => ?_
      · rw [List.getElem?_append_left (List.getElem?_eq_some_iff.mp found).1]
        exact found
      · have known : ticket < machine.queue.head :=
          consistent.window.counted ▸ (List.getElem?_eq_some_iff.mp found).1
        rw [Function.update_of_ne (by omega)]
  consumer := by
    refine ConsumerAt.frame consistent.consumer rfl (fun quiet => ?_) fun seen => ?_
    · rw [Function.update_apply]
      split_ifs
      · exact ⟨by decide, by decide⟩
      · exact quiet
    · rw [Function.update_of_ne]
      intro empty
      rw [(consistent.window.fresh machine.queue.tail).mpr (by omega)] at seen
      simp at seen
  popped := by
    calc machine.popped
        = (machine.reservations.take (machine.queue.tail + inHand machine.consumer)).map fun entry => some entry.2 :=
          consistent.popped
      _ = ((machine.reservations ++ [(producer, value)]).take (machine.queue.tail + inHand machine.consumer)).map
            fun entry => some entry.2 := by rw [List.take_append_of_le_length consistent.popped_reserved]

/-- `try_push` keeps the invariant, whichever step it is at. -/
theorem Consistent.pushStep (consistent : Consistent machine stage) {spurious : Bool}
    (stepped : machine.pushStep 0 producer spurious = some next) : ∃ stage, Consistent next stage := by
  have here := consistent.producers producer
  simp only [Machine.pushStep] at stepped
  cases place : machine.producers producer with
  | idle =>
    rw [place] at stepped
    cases stepped
  | called value =>
    rw [place] at stepped
    cases stepped
    exact ⟨stage, consistent.moveTo trivial⟩
  | loadedHead value head =>
    rw [place] at stepped
    simp only [ge_iff_le] at stepped
    split_ifs at stepped with full
    · cases stepped
      exact ⟨stage, consistent.finish value false⟩
    · cases stepped
      refine ⟨stage, consistent.moveTo ?_⟩
      show head < machine.queue.tail + machine.queue.capacity
      rw [machineDifference_unbounded] at full
      omega
  | sawRoom value head =>
    rw [place] at here stepped
    simp only [machineIndex_unbounded] at stepped
    split_ifs at stepped with won
    · cases stepped
      exact ⟨_, consistent.reserve value (won.1 ▸ here)⟩
    · cases stepped
      exact ⟨stage, consistent.moveTo trivial⟩
  | reserved value head =>
    rw [place] at here stepped
    cases stepped
    refine ⟨_, consistent.work (Or.inl here.1) here.2 (Or.inl rfl) ?_ ⟨Function.update_self .., here.2⟩⟩
    obtain ⟨low, high⟩ := consistent.window.held (Or.inl here.1)
    rw [consistent.window.slots head low (high.trans_le consistent.window.room), here.1, itemOf, here.2]
    rfl
  | constructed value head =>
    rw [place] at here stepped
    cases stepped
    refine ⟨_, consistent.work (Or.inr here.1) here.2 (Or.inr rfl) ?_ trivial⟩
    obtain ⟨low, high⟩ := consistent.window.held (Or.inr here.1)
    rw [consistent.window.slots head low (high.trans_le consistent.window.room), here.1, machineIndex_unbounded]
    rfl
  | published value head =>
    rw [place] at stepped
    cases stepped
    exact ⟨stage, consistent.moveTo trivial⟩
  | measured value occupancy =>
    rw [place] at stepped
    cases stepped
    exact ⟨stage, consistent.moveTo trivial⟩
  | peaking value occupancy peak =>
    rw [place] at stepped
    simp only [gt_iff_lt] at stepped
    split_ifs at stepped
    · cases stepped
      exact ⟨stage, (consistent.finish value true).mark occupancy⟩
    · cases stepped
      exact ⟨stage, consistent.moveTo trivial⟩
    · cases stepped
      exact ⟨stage, consistent.finish value true⟩

/-- One step of anyone keeps the invariant. -/
theorem Consistent.step (consistent : Consistent machine stage) {action : Action P T}
    (stepped : machine.step 0 action = some next) : ∃ stage, Consistent next stage := by
  cases action with
  | call producer value =>
    rw [Machine.step] at stepped
    split at stepped
    · cases stepped
      exact ⟨stage, consistent.moveTo trivial⟩
    · cases stepped
  | push producer spurious => exact consistent.pushStep stepped
  | callPop =>
    have here := consistent.consumer
    have log := consistent.popped
    rw [Machine.step] at stepped
    split at stepped
    next place =>
      rw [place] at here log
      cases stepped
      exact ⟨stage, consistent.window, consistent.producers, here, log⟩
    next => cases stepped
  | pop => exact consistent.popStep stepped
  | collect =>
    have here := consistent.consumer
    have log := consistent.popped
    rw [Machine.step] at stepped
    split at stepped
    next value place =>
      rw [place] at here log
      cases stepped
      exact ⟨stage, consistent.window, consistent.producers, here, log⟩
    next => cases stepped

omit [DecidableEq P] in
theorem make_consistent (capacity : Nat) : Consistent (Machine.make capacity : Machine P T) fun _ => .fresh where
  window :=
    { positive := Nat.pos_of_isPowerOfTwo (Nat.isPowerOfTwo_nextPowerOfTwo capacity)
      counted := rfl
      behind := le_rfl
      room := Nat.zero_le _
      slots := fun _ _ _ => rfl
      fresh := fun ticket => iff_of_true rfl (Nat.zero_le ticket)
      freed := fun ticket => iff_of_false (by decide) (Nat.not_lt_zero ticket)
      waiting := fun _ waits => by simp at waits }
  producers _ := trivial
  consumer := ⟨Stage.noConfusion, Stage.noConfusion⟩
  popped := rfl

end Steps

section History
variable {P T : Type} [DecidableEq P] {machine next : Machine P T}

/-- What a producer has pushed in the call it is in. -/
def inFlight : Producer T → List T
  | .idle | .called _ | .loadedHead .. | .sawRoom .. => []
  | .reserved value _ | .constructed value _ | .published value _ | .measured value _ | .peaking value _ _ => [value]

/-- The items whose `try_push` returned true, in the order of the calls. -/
def accepted (outcomes : List (T × Bool)) : List T := (outcomes.filter Prod.snd).map Prod.fst

/-- The items of one producer, in the order of the log. -/
def itemsOf (reservations : List (P × T)) (producer : P) : List T :=
  (reservations.filter fun entry => entry.1 = producer).map Prod.snd

/-- The log has each producer's accepted items in its own order, and nothing else of it but
the item of the call it is in. -/
def Attributed (machine : Machine P T) : Prop :=
  ∀ producer, itemsOf machine.reservations producer =
    accepted (machine.outcomes producer) ++ inFlight (machine.producers producer)

theorem itemsOf_reserve (reservations : List (P × T)) (producer other : P) (value : T) :
    itemsOf (reservations ++ [(producer, value)]) other =
      itemsOf reservations other ++ if producer = other then [value] else [] := by
  unfold itemsOf
  rw [List.filter_append, List.map_append]
  congr 1
  by_cases same : producer = other <;> simp [same]

theorem accepted_append (outcomes : List (T × Bool)) (value : T) (pushed : Bool) :
    accepted (outcomes ++ [(value, pushed)]) = accepted outcomes ++ if pushed then [value] else [] := by
  unfold accepted
  rw [List.filter_append, List.map_append]
  cases pushed <;> rfl

theorem Attributed.moveTo (attributed : Attributed machine) {producer : P} {place : Producer T}
    (same : inFlight place = inFlight (machine.producers producer)) : Attributed (machine.moveTo producer place) := by
  intro other
  show _ = accepted (machine.outcomes other) ++ inFlight (Function.update machine.producers producer place other)
  rw [Function.update_apply]
  split_ifs with self
  · rw [same, ← self]
    exact attributed other
  · exact attributed other

theorem Attributed.finish (attributed : Attributed machine) {producer : P} {value : T} {pushed : Bool}
    (held : inFlight (machine.producers producer) = if pushed then [value] else []) :
    Attributed (machine.finish producer value pushed) := by
  intro other
  show _ = accepted (Function.update machine.outcomes producer (machine.outcomes producer ++ [(value, pushed)]) other) ++
    inFlight (Function.update machine.producers producer .idle other)
  rw [Function.update_apply, Function.update_apply]
  split_ifs with self
  · rw [accepted_append, ← held, self]
    exact (attributed producer).trans (List.append_nil _).symm
  · exact attributed other

theorem Attributed.reserve (attributed : Attributed machine) {producer : P} {value : T} {head : Nat}
    {queue : MpscQueue T} (empty : inFlight (machine.producers producer) = []) :
    Attributed
      { machine.moveTo producer (.reserved value head) with
        queue := queue
        reservations := machine.reservations ++ [(producer, value)] } := by
  intro other
  show itemsOf (machine.reservations ++ [(producer, value)]) other =
    accepted (machine.outcomes other) ++ inFlight (Function.update machine.producers producer (.reserved value head) other)
  rw [itemsOf_reserve, attributed other, Function.update_apply]
  by_cases self : other = producer
  · rw [if_pos self.symm, if_pos self, self, empty, List.append_nil]
    rfl
  · rw [if_neg fun same => self same.symm, if_neg self, List.append_nil]

theorem Attributed.pushStep (attributed : Attributed machine) {producer : P} {spurious : Bool}
    (stepped : machine.pushStep 0 producer spurious = some next) : Attributed next := by
  simp only [Machine.pushStep] at stepped
  cases place : machine.producers producer <;> rw [place] at stepped <;> simp only [reduceCtorEq] at stepped
  case called => cases stepped; exact attributed.moveTo (by rw [place]; rfl)
  case loadedHead =>
    split_ifs at stepped
    · cases stepped; exact attributed.finish (by rw [place]; rfl)
    · cases stepped; exact attributed.moveTo (by rw [place]; rfl)
  case sawRoom =>
    split_ifs at stepped
    · cases stepped; exact attributed.reserve (by rw [place]; rfl)
    · cases stepped; exact attributed.moveTo (by rw [place]; rfl)
  case reserved | constructed | published | measured =>
    cases stepped
    exact attributed.moveTo (by rw [place]; rfl)
  case peaking =>
    split_ifs at stepped
    · cases stepped; exact attributed.finish (by rw [place]; rfl)
    · cases stepped; exact attributed.moveTo (by rw [place]; rfl)
    · cases stepped; exact attributed.finish (by rw [place]; rfl)

theorem Attributed.step (attributed : Attributed machine) {action : Action P T}
    (stepped : machine.step 0 action = some next) : Attributed next := by
  cases action with
  | call producer value =>
    rw [Machine.step] at stepped
    split at stepped
    next place =>
      cases stepped
      exact attributed.moveTo (by rw [place]; rfl)
    next => cases stepped
  | push producer spurious => exact attributed.pushStep stepped
  | callPop | collect =>
    rw [Machine.step] at stepped
    split at stepped <;> cases stepped
    exact attributed
  | pop =>
    simp only [Machine.step, Machine.popStep] at stepped
    cases place : machine.consumer <;> rw [place] at stepped <;> simp only [reduceCtorEq] at stepped
    case loadedTail => split_ifs at stepped <;> cases stepped <;> exact attributed
    all_goals cases stepped; exact attributed

end History

/-- What makes the queue a linear log: pops follow the reservations one by one, a producer's
accepted items stand in the log in its own order, a slot is written only when every earlier
item of it has been popped, and popped only when it has been written. -/
structure IsLinearLog {P T : Type} [DecidableEq P] (machine : Machine P T) : Prop where
  popped : ∃ count, count ≤ machine.reservations.length ∧
    machine.popped = (machine.reservations.take count).map fun entry => some entry.2
  attributed : Attributed machine
  ordered : ∀ producer, itemsOf (machine.reservations.take machine.popped.length) producer <+:
    accepted (machine.outcomes producer) ++ inFlight (machine.producers producer)
  vacated : ∀ producer value head, machine.producers producer = .reserved value head →
    (machine.queue.slotAt head).storage = none ∧
      ∀ earlier < head, earlier % machine.queue.capacity = head % machine.queue.capacity →
        earlier < machine.popped.length
  written : ∀ tail, machine.consumer = .sawTicket tail →
    tail = machine.popped.length ∧ ∃ entry, machine.reservations[tail]? = some entry ∧
      (machine.queue.slotAt tail).storage = some entry.2

section Log
variable {P T : Type} [DecidableEq P] {machine : Machine P T} {stage : Nat → Stage}

omit [DecidableEq P] in
theorem Consistent.popped_length (consistent : Consistent machine stage) :
    machine.popped.length = machine.queue.tail + inHand machine.consumer := by
  rw [consistent.popped, List.length_map, List.length_take, Nat.min_eq_left consistent.popped_reserved]

theorem Consistent.isLinearLog (consistent : Consistent machine stage) (attributed : Attributed machine) :
    IsLinearLog machine where
  popped := ⟨_, consistent.popped_reserved, consistent.popped⟩
  attributed := attributed
  ordered producer := by
    rw [← attributed producer]
    exact ((List.take_prefix _ machine.reservations).filter _).map _
  vacated producer value head place := by
    have here := consistent.producers producer
    rw [place] at here
    obtain ⟨low, high⟩ := consistent.window.held (Or.inl here.1)
    have inside := high.trans_le consistent.window.room
    refine ⟨by rw [consistent.window.slots head low inside, here.1]; rfl, fun earlier before lap => ?_⟩
    rw [consistent.popped_length]
    by_contra waiting
    have same := window_distinct (by omega) (before.trans inside) low inside lap
    omega
  written tail place := by
    have here := consistent.consumer
    have count := consistent.popped_length
    rw [place] at here count
    obtain ⟨rfl, published⟩ := here
    have reserved : machine.queue.tail < machine.reservations.length := by
      rw [consistent.window.counted]
      by_contra ahead
      rw [(consistent.window.fresh _).mpr (not_lt.mp ahead)] at published
      cases published
    refine ⟨count.symm, machine.reservations[machine.queue.tail], List.getElem?_eq_getElem reserved, ?_⟩
    rw [consistent.window.slots _ le_rfl (Nat.lt_add_of_pos_right consistent.window.positive), published]
    show itemOf machine.reservations machine.queue.tail = _
    rw [itemOf, List.getElem?_eq_getElem reserved]
    rfl

/-- What every step of the machine keeps. -/
def Logged (machine : Machine P T) : Prop := (∃ stage, Consistent machine stage) ∧ Attributed machine

theorem Logged.step {next : Machine P T} (logged : Logged machine) {action : Action P T}
    (stepped : machine.step 0 action = some next) : Logged next := by
  obtain ⟨⟨stage, consistent⟩, attributed⟩ := logged
  exact ⟨consistent.step stepped, attributed.step stepped⟩

theorem make_logged (capacity : Nat) : Logged (Machine.make capacity : Machine P T) :=
  ⟨⟨_, make_consistent capacity⟩, fun _ => rfl⟩

theorem Logged.isLinearLog (logged : Logged machine) : IsLinearLog machine := by
  obtain ⟨⟨stage, consistent⟩, attributed⟩ := logged
  exact consistent.isLinearLog attributed

end Log

end Mdh.Concurrency
