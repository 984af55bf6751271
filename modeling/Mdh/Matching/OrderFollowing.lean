import Mdh.Matching.BookRefinement

/-! One order followed through the operations that come after it. Only an operation about the
order edits or removes it, and every queue stays in the order of its arrivals. -/

namespace Mdh.Matching
open Mdh.Core Mdh.Lib

/-- The same order, whatever is left of it and whichever client order id it answers to. -/
def SameOrder (one two : BookOrder) : Prop :=
  two = { one with remainingQuantity := two.remainingQuantity, clientOrderId := two.clientOrderId }

theorem SameOrder.refl (order : BookOrder) : SameOrder order order := rfl

theorem SameOrder.trans {one two three : BookOrder} (first : SameOrder one two) (second : SameOrder two three) :
    SameOrder one three := by
  unfold SameOrder at *
  rw [first] at second
  exact second

theorem SameOrder.side {one two : BookOrder} (same : SameOrder one two) : two.side = one.side := by
  rw [same]

theorem SameOrder.price {one two : BookOrder} (same : SameOrder one two) : two.price = one.price := by
  rw [same]

/-- What an operation makes of the order it is about. Nothing is left of a removed one. -/
def BookOp.edit : BookOp → BookOrder → Option BookOrder
  | .add _, order => some order
  | .removeAt _, _ | .removeFront _, _ => none
  | .reduceAt _ quantity, order | .reduceFront _ quantity, order => some { order with remainingQuantity := quantity }
  | .setClientOrderIdAt _ clientOrderId, order => some { order with clientOrderId }

theorem BookOp.edit_same {op : BookOp} {order edited : BookOrder} (edits : op.edit order = some edited) :
    SameOrder order edited := by
  cases op <;> simp only [edit, Option.some.injEq, reduceCtorEq] at edits <;> subst edits <;> rfl

namespace LevelBook

/-- The order an operation edits or removes, by its arrival. -/
def subject (book : LevelBook) : BookOp → Option Nat
  | .add _ => none
  | .removeAt arrival | .reduceAt arrival _ | .setClientOrderIdAt arrival _ => some arrival
  | .reduceFront side _ | .removeFront side => (book.front side).map Arrived.arrival

/-- What an operation makes of the order that arrived as `arrival`. -/
def touch (book : LevelBook) (arrival : Nat) (op : BookOp) (order : BookOrder) : Option BookOrder :=
  if book.subject op = some arrival then op.edit order else some order

/-- What is left of an order after further operations. -/
def followed (arrival : Nat) : List BookOp → LevelBook → BookOrder → Option BookOrder
  | [], _, order => some order
  | op :: rest, book, order => (book.touch arrival op order).bind (followed arrival rest (book.apply op))

theorem touch_same {book : LevelBook} {arrival : Nat} {op : BookOp} {order current : BookOrder}
    (touched : book.touch arrival op order = some current) : SameOrder order current := by
  unfold touch at touched
  split_ifs at touched
  · exact BookOp.edit_same touched
  · rw [Option.some.inj touched]
    exact SameOrder.refl current

theorem followed_same {arrival : Nat} {ops : List BookOp} {book : LevelBook} {order current : BookOrder}
    (follows : followed arrival ops book order = some current) : SameOrder order current := by
  induction ops generalizing book order with
  | nil =>
    rw [Option.some.inj follows]
    exact SameOrder.refl current
  | cons op rest ih =>
    obtain ⟨touched, first, later⟩ := Option.bind_eq_some_iff.mp follows
    exact (touch_same first).trans (ih later)

/-- What becomes of an entry of a queue. -/
def touchEntry (book : LevelBook) (op : BookOp) (entry : Arrived) : Option Arrived :=
  (book.touch entry.arrival op entry.order).map (Arrived.mk entry.arrival)

theorem allowsAll_append (book : LevelBook) (front back : List BookOp) :
    book.AllowsAll (front ++ back) ↔ book.AllowsAll front ∧ (book.run front).AllowsAll back := by
  induction front generalizing book with
  | nil => exact (iff_of_eq (true_and _)).symm
  | cons op rest ih =>
    rw [List.cons_append, AllowsAll, AllowsAll, ih, and_assoc]
    rfl

theorem run_append (book : LevelBook) (front back : List BookOp) :
    book.run (front ++ back) = (book.run front).run back := List.foldl_append ..

end LevelBook

section Steps
variable {session : Session} {reference : LevelBook}

theorem Agrees.unique (agrees : Agrees session reference) {side other : Side} {price level : Int} {first second : Arrived}
    (one : first ∈ reference.queueAt side price) (two : second ∈ reference.queueAt other level)
    (same : first.arrival = second.arrival) : side = other ∧ price = level ∧ first = second :=
  agrees.place_injective one two ((agrees.same_arrival one two).mpr same)

theorem Agrees.find_iff (agrees : Agrees session reference) (arrival : Nat) (order : BookOrder) :
    reference.find arrival = some order ↔ ⟨arrival, order⟩ ∈ reference.queueAt order.side order.price :=
  ⟨LevelBook.find_eq_some agrees.tidy, fun member => agrees.find_of_mem member⟩

theorem Agrees.mem_queueAt (agrees : Agrees session reference) (side : Side) (price : Int) (entry : Arrived) :
    entry ∈ reference.queueAt side price ↔
      reference.find entry.arrival = some entry.order ∧ entry.order.side = side ∧ entry.order.price = price := by
  rw [agrees.find_iff]
  constructor
  · intro member
    obtain ⟨rfl, rfl⟩ := agrees.tidy.placed side price entry member
    exact ⟨member, rfl, rfl⟩
  · rintro ⟨member, rfl, rfl⟩
    exact member

/-- An edit of one order's queue that passes over every other order edits all queues alike. -/
theorem Agrees.queueAt_edit (agrees : Agrees session reference) {arrival : Nat} {order : BookOrder}
    (found : reference.find arrival = some order) {edit : List Arrived → List Arrived}
    (passes : ∀ queue, (∀ entry ∈ queue, entry.arrival ≠ arrival) → edit queue = queue) (side : Side) (price : Int) :
    (reference.editQueue arrival edit).queueAt side price = edit (reference.queueAt side price) := by
  rw [LevelBook.queueAt_editQueue found]
  split_ifs with here
  · rfl
  · refine (passes _ fun entry member same => here ?_).symm
    obtain ⟨sides, prices, _⟩ := agrees.unique member ((agrees.find_iff arrival order).mp found) same
    exact ⟨sides, prices⟩

theorem Agrees.queueAt_remove (agrees : Agrees session reference) {arrival : Nat} {order : BookOrder}
    (found : reference.find arrival = some order) (side : Side) (price : Int) :
    (reference.remove arrival).queueAt side price =
      (reference.queueAt side price).filter fun entry => entry.arrival ≠ arrival :=
  agrees.queueAt_edit found (fun queue others => List.filter_eq_self.mpr (by simpa using others)) side price

theorem Agrees.queueAt_amend (agrees : Agrees session reference) {arrival : Nat} {order : BookOrder}
    (found : reference.find arrival = some order) (change : BookOrder → BookOrder) (side : Side) (price : Int) :
    (reference.amend arrival change).queueAt side price = (reference.queueAt side price).map fun entry =>
      if entry.arrival = arrival then { entry with order := change entry.order } else entry := by
  apply agrees.queueAt_edit found
  intro queue others
  conv_rhs => rw [← List.map_id queue]
  exact List.map_congr_left fun entry member => if_neg (others entry member)

theorem touchEntry_add (reference : LevelBook) (order : BookOrder) (queue : List Arrived) :
    queue.filterMap (reference.touchEntry (.add order)) = queue := by
  conv_rhs => rw [← List.filterMap_some (l := queue)]
  rfl

theorem touchEntry_eq {op : BookOp} {arrival : Nat} (subject : reference.subject op = some arrival) (entry : Arrived) :
    reference.touchEntry op entry =
      if entry.arrival = arrival then (op.edit entry.order).map (Arrived.mk entry.arrival) else some entry := by
  unfold LevelBook.touchEntry LevelBook.touch
  simp only [subject, Option.some.injEq, eq_comm (a := arrival)]
  split_ifs <;> rfl

theorem touchEntry_removes {op : BookOp} {arrival : Nat} (subject : reference.subject op = some arrival)
    (removes : ∀ order, op.edit order = none) (queue : List Arrived) :
    queue.filterMap (reference.touchEntry op) = queue.filter fun entry => entry.arrival ≠ arrival := by
  rw [← List.filterMap_eq_filter]
  apply List.filterMap_congr
  intro entry _
  rw [touchEntry_eq subject, removes]
  by_cases same : entry.arrival = arrival <;> simp [Option.guard, same]

theorem touchEntry_amends {op : BookOp} {arrival : Nat} (subject : reference.subject op = some arrival)
    {change : BookOrder → BookOrder} (amends : ∀ order, op.edit order = some (change order)) (queue : List Arrived) :
    queue.filterMap (reference.touchEntry op) = queue.map fun entry =>
      if entry.arrival = arrival then { entry with order := change entry.order } else entry := by
  rw [← List.filterMap_eq_map]
  apply List.filterMap_congr
  intro entry _
  rw [touchEntry_eq subject, amends]
  by_cases same : entry.arrival = arrival <;> simp [same]

/-- What an operation adds behind a queue. -/
def LevelBook.arriving (book : LevelBook) (side : Side) (price : Int) : BookOp → List Arrived
  | .add order => if side = order.side ∧ price = order.price then [⟨book.arrivals, order⟩] else []
  | .removeAt _ | .reduceAt _ _ | .setClientOrderIdAt _ _ | .reduceFront _ _ | .removeFront _ => []

theorem Agrees.front_found (agrees : Agrees session reference) {side : Side} {first : Arrived}
    (front : reference.front side = some first) : reference.find first.arrival = some first.order := by
  obtain ⟨_, _, found⟩ := agrees.front front
  exact found

/-- Every operation touches each queue entry by entry and adds at most one behind it. -/
theorem Agrees.queueAt_apply (agrees : Agrees session reference) {op : BookOp} (allowed : reference.Allows op)
    (side : Side) (price : Int) :
    (reference.apply op).queueAt side price =
      (reference.queueAt side price).filterMap (reference.touchEntry op) ++ reference.arriving side price op := by
  cases op with
  | add order =>
    rw [touchEntry_add]
    refine (reference.queueAt_add order side price).trans ?_
    simp only [LevelBook.arriving]
    split_ifs with here
    · rw [here.1, here.2]
    · rw [List.append_nil]
  | removeAt arrival =>
    obtain ⟨order, found⟩ := Option.isSome_iff_exists.mp allowed
    rw [touchEntry_removes rfl fun _ => rfl, LevelBook.arriving, List.append_nil]
    exact agrees.queueAt_remove found side price
  | reduceAt arrival quantity =>
    obtain ⟨order, found⟩ := Option.isSome_iff_exists.mp allowed
    rw [touchEntry_amends rfl fun _ => rfl, LevelBook.arriving, List.append_nil]
    exact agrees.queueAt_amend found _ side price
  | setClientOrderIdAt arrival clientOrderId =>
    obtain ⟨order, found⟩ := Option.isSome_iff_exists.mp allowed
    rw [touchEntry_amends rfl fun _ => rfl, LevelBook.arriving, List.append_nil]
    exact agrees.queueAt_amend found _ side price
  | reduceFront bookSide quantity =>
    obtain ⟨first, front⟩ := Option.isSome_iff_exists.mp allowed
    have subject : reference.subject (.reduceFront bookSide quantity) = some first.arrival := by
      rw [LevelBook.subject, front, Option.map_some]
    rw [touchEntry_amends subject fun _ => rfl, LevelBook.arriving, List.append_nil, LevelBook.apply,
      LevelBook.reduceFront, front]
    exact agrees.queueAt_amend (agrees.front_found front) _ side price
  | removeFront bookSide =>
    obtain ⟨first, front⟩ := Option.isSome_iff_exists.mp allowed
    have subject : reference.subject (.removeFront bookSide) = some first.arrival := by
      rw [LevelBook.subject, front, Option.map_some]
    rw [touchEntry_removes subject fun _ => rfl, LevelBook.arriving, List.append_nil, LevelBook.apply,
      LevelBook.removeFront, front]
    exact agrees.queueAt_remove (agrees.front_found front) side price

theorem touchEntry_some {op : BookOp} {entry after : Arrived} (touched : reference.touchEntry op entry = some after) :
    after.arrival = entry.arrival ∧ reference.touch after.arrival op entry.order = some after.order := by
  obtain ⟨order, left, rfl⟩ := Option.map_eq_some_iff.mp touched
  exact ⟨rfl, left⟩

theorem arriving_eq {op : BookOp} {side : Side} {price : Int} {entry : Arrived}
    (member : entry ∈ reference.arriving side price op) : entry.arrival = reference.arrivals := by
  cases op with
  | add order =>
    simp only [LevelBook.arriving] at member
    split_ifs at member
    · rw [List.mem_singleton.mp member]
    · exact absurd member List.not_mem_nil
  | removeAt | reduceAt | setClientOrderIdAt | reduceFront | removeFront => exact absurd member List.not_mem_nil

theorem arriving_inOrder (op : BookOp) (side : Side) (price : Int) :
    (reference.arriving side price op).Pairwise fun first second => first.arrival < second.arrival := by
  cases op with
  | add order =>
    simp only [LevelBook.arriving]
    split_ifs
    · exact List.pairwise_singleton ..
    · exact List.Pairwise.nil
  | removeAt | reduceAt | setClientOrderIdAt | reduceFront | removeFront => exact List.Pairwise.nil

/-- Every queue is in the order in which its orders arrived. -/
def LevelBook.InOrder (book : LevelBook) : Prop :=
  ∀ side price, (book.queueAt side price).Pairwise fun first second => first.arrival < second.arrival

theorem Agrees.inOrder_apply (agrees : Agrees session reference) (inOrder : reference.InOrder) {op : BookOp}
    (allowed : reference.Allows op) : (reference.apply op).InOrder := by
  intro side price
  rw [agrees.queueAt_apply allowed, List.pairwise_append]
  refine ⟨(inOrder side price).filterMap _ ?_, arriving_inOrder op side price, ?_⟩
  · intro first second before one touchedOne two touchedTwo
    rw [(touchEntry_some touchedOne).1, (touchEntry_some touchedTwo).1]
    exact before
  · intro earlier member later arrives
    obtain ⟨entry, there, touched⟩ := List.mem_filterMap.mp member
    rw [(touchEntry_some touched).1, arriving_eq arrives]
    exact agrees.arrived side price entry there

/-- An operation leaves every order alone but the one it is about. -/
theorem Agrees.find_apply (agrees : Agrees session reference) {op : BookOp} (allowed : reference.Allows op)
    {arrival : Nat} (arrived : arrival < reference.arrivals) :
    (reference.apply op).find arrival = (reference.find arrival).bind (reference.touch arrival op) := by
  ext current
  rw [(agrees.apply allowed).find_iff, agrees.queueAt_apply allowed, List.mem_append, List.mem_filterMap,
    Option.bind_eq_some_iff]
  constructor
  · rintro (⟨entry, member, touched⟩ | arrives)
    · obtain ⟨same, left⟩ := touchEntry_some touched
      have found := agrees.find_of_mem member
      rw [← same] at found
      exact ⟨entry.order, found, left⟩
    · exact absurd (arriving_eq arrives) arrived.ne
  · rintro ⟨order, found, left⟩
    have same := LevelBook.touch_same left
    rw [same.side, same.price]
    refine Or.inl ⟨⟨arrival, order⟩, (agrees.find_iff arrival order).mp found, ?_⟩
    unfold LevelBook.touchEntry
    rw [left, Option.map_some]

theorem Agrees.find_add (agrees : Agrees session reference) (order : BookOrder) :
    (reference.add order).find reference.arrivals = some order := by
  rw [(agrees.add order).find_iff, LevelBook.queueAt_add, if_pos ⟨rfl, rfl⟩]
  exact List.mem_append_right _ (List.mem_singleton_self _)

theorem handles_apply (session : Session) (op : BookOp) : session.handles <+: (session.apply op).handles := by
  cases op with
  | add order => exact List.prefix_append ..
  | removeAt | reduceAt | setClientOrderIdAt | reduceFront | removeFront => exact List.prefix_rfl

theorem handles_run (session : Session) (ops : List BookOp) : session.handles <+: (session.run ops).handles := by
  induction ops generalizing session with
  | nil => exact List.prefix_rfl
  | cons op rest ih => exact (handles_apply session op).trans (ih (session.apply op))

/-- A handle stays the handle of its arrival. -/
theorem handleOf_run (session : Session) (ops : List BookOp) {arrival : Nat}
    (arrived : arrival < session.handles.length) : (session.run ops).handleOf arrival = session.handleOf arrival := by
  obtain ⟨later, handles⟩ := handles_run session ops
  unfold Session.handleOf
  rw [← handles, List.getD_append _ _ _ _ arrived]

theorem Agrees.arrived_apply (agrees : Agrees session reference) {op : BookOp} (allowed : reference.Allows op)
    {arrival : Nat} (arrived : arrival < reference.arrivals) : arrival < (reference.apply op).arrivals := by
  rw [← (agrees.apply allowed).counted]
  rw [← agrees.counted] at arrived
  exact arrived.trans_le (handles_apply session op).length_le

end Steps

section Runs
variable {session : Session} {reference : LevelBook}

theorem Agrees.inOrder_run (agrees : Agrees session reference) (inOrder : reference.InOrder) {ops : List BookOp}
    (allowed : reference.AllowsAll ops) : (reference.run ops).InOrder := by
  induction ops generalizing session reference with
  | nil => exact inOrder
  | cons op rest ih => exact ih (agrees.apply allowed.1) (agrees.inOrder_apply inOrder allowed.1) allowed.2

/-- What a run leaves of an order is what its operations, followed one by one, leave of it. -/
theorem Agrees.find_run (agrees : Agrees session reference) {ops : List BookOp} (allowed : reference.AllowsAll ops)
    {arrival : Nat} (arrived : arrival < reference.arrivals) :
    (reference.run ops).find arrival = (reference.find arrival).bind (LevelBook.followed arrival ops reference) := by
  induction ops generalizing session reference with
  | nil => exact (Option.bind_fun_some (reference.find arrival)).symm
  | cons op rest ih =>
    calc
      (reference.run (op :: rest)).find arrival = ((reference.apply op).run rest).find arrival := rfl
      _ = ((reference.apply op).find arrival).bind (LevelBook.followed arrival rest (reference.apply op)) :=
        ih (agrees.apply allowed.1) allowed.2 (agrees.arrived_apply allowed.1 arrived)
      _ = ((reference.find arrival).bind (reference.touch arrival op)).bind
          (LevelBook.followed arrival rest (reference.apply op)) := by rw [agrees.find_apply allowed.1 arrived]
      _ = (reference.find arrival).bind (LevelBook.followed arrival (op :: rest) reference) := Option.bind_assoc ..

end Runs

end Mdh.Matching
