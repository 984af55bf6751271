import Mathlib.Data.List.Nodup

/-! Doubly linked queues and singly linked stacks threaded through an array of
cells by index. A queue is described by the list of indices it visits. -/

namespace Mdh.Lib

/-- The link fields of every cell. -/
@[ext] structure Links where
  next : Nat → Option Nat
  prev : Nat → Option Nat

namespace Links

/-- The cells of `cells`, entered from `before`, are linked both ways in order
and the last one ends the queue. -/
def Chain (links : Links) : Option Nat → List Nat → Prop
  | _, [] => True
  | before, cell :: rest =>
      links.prev cell = before ∧ links.next cell = rest.head? ∧ Chain links (some cell) rest

/-- A singly linked stack: only the forward links mean anything. -/
def Stack (links : Links) : List Nat → Prop
  | [] => True
  | cell :: rest => links.next cell = rest.head? ∧ Stack links rest

def pushBack (links : Links) (tail : Option Nat) (cell : Nat) : Links where
  next i := if i = cell then none else if tail = some i then some cell else links.next i
  prev i := if i = cell then tail else links.prev i

def detach (links : Links) (cell : Nat) : Links where
  next i := if links.prev cell = some i then links.next cell else links.next i
  prev i := if links.next cell = some i then links.prev cell else links.prev i

theorem Chain.frame {links other : Links} {before : Option Nat} {cells : List Nat}
    (chain : links.Chain before cells)
    (same : ∀ cell ∈ cells, other.next cell = links.next cell ∧ other.prev cell = links.prev cell) :
    other.Chain before cells := by
  induction cells generalizing before with
  | nil => trivial
  | cons cell rest ih =>
    obtain ⟨back, forward, tail⟩ := chain
    obtain ⟨nextSame, prevSame⟩ := same cell List.mem_cons_self
    exact ⟨prevSame.trans back, nextSame.trans forward,
      ih tail fun other member => same other (List.mem_cons_of_mem _ member)⟩

theorem Stack.frame {links other : Links} {cells : List Nat} (stack : links.Stack cells)
    (same : ∀ cell ∈ cells, other.next cell = links.next cell) : other.Stack cells := by
  induction cells with
  | nil => trivial
  | cons cell rest ih =>
    exact ⟨(same cell List.mem_cons_self).trans stack.1,
      ih stack.2 fun other member => same other (List.mem_cons_of_mem _ member)⟩

/-- Read forwards only, a queue is a stack. -/
theorem Chain.stack {links : Links} {before : Option Nat} {cells : List Nat} (chain : links.Chain before cells) :
    links.Stack cells := by
  induction cells generalizing before with
  | nil => trivial
  | cons cell rest ih => exact ⟨chain.2.1, ih chain.2.2⟩

/-- Where a cell in the middle of a queue points. -/
theorem Chain.links_of_mid {links : Links} {before : Option Nat} {front back : List Nat} {cell : Nat}
    (chain : links.Chain before (front ++ cell :: back)) :
    links.prev cell = front.getLast?.or before ∧ links.next cell = back.head? := by
  induction front generalizing before with
  | nil => exact ⟨chain.1, chain.2.1⟩
  | cons first rest ih =>
    obtain ⟨backward, forward⟩ := ih chain.2.2
    refine ⟨?_, forward⟩
    rw [backward, List.getLast?_cons]
    cases rest.getLast? <;> rfl

private theorem getLast?_cons_or (cell : Nat) (rest : List Nat) (before : Option Nat) :
    (cell :: rest).getLast?.or before = rest.getLast?.or (some cell) := by
  rw [List.getLast?_cons]
  cases rest.getLast? <;> rfl

theorem Chain.pushBack {links : Links} {before : Option Nat} {cells : List Nat} {cell : Nat}
    (chain : links.Chain before cells) (fresh : cell ∉ cells) (nodup : cells.Nodup) :
    (links.pushBack (cells.getLast?.or before) cell).Chain before (cells ++ [cell]) := by
  induction cells generalizing before with
  | nil => simp [Chain, Links.pushBack]
  | cons first rest ih =>
    obtain ⟨back, forward, tail⟩ := chain
    obtain ⟨firstFresh, restNodup⟩ := List.nodup_cons.mp nodup
    have different : first ≠ cell := fun same => fresh (by simp [same])
    rw [getLast?_cons_or]
    refine ⟨by simp [Links.pushBack, different, back], ?_,
      ih tail (fun member => fresh (List.mem_cons_of_mem _ member)) restNodup⟩
    cases rest with
    | nil => simp [Links.pushBack, different]
    | cons second others =>
      have notLast : (second :: others).getLast?.or (some first) ≠ some first := by
        intro same
        rw [List.getLast?_cons, Option.or_some] at same
        exact firstFresh (List.mem_of_getLast? (by rw [List.getLast?_cons]; exact same))
      simp only [Links.pushBack, if_neg different, if_neg notLast]
      simpa using forward

theorem Chain.detach {links : Links} {before : Option Nat} {front back : List Nat} {cell : Nat}
    (chain : links.Chain before (front ++ cell :: back)) (nodup : (front ++ cell :: back).Nodup)
    (outside : ∀ b ∈ before, b ∉ front ++ cell :: back) :
    (links.detach cell).Chain before (front ++ back) := by
  obtain ⟨backward, forward⟩ := chain.links_of_mid
  induction front generalizing before with
  | nil =>
    obtain ⟨_, _, tail⟩ := chain
    simp only [List.nil_append, List.nodup_cons, List.getLast?_nil, Option.none_or] at *
    cases back with
    | nil => trivial
    | cons first rest =>
      obtain ⟨_, onward, others⟩ := tail
      have notBefore : ∀ other ∈ first :: rest, before ≠ some other :=
        fun other member same => outside other same (List.mem_cons_of_mem _ member)
      refine ⟨by simp [Links.detach, forward, backward], ?_, others.frame ?_⟩
      · simp [Links.detach, backward, notBefore first List.mem_cons_self, onward]
      · intro other member
        have later : first ≠ other := fun same =>
          (List.nodup_cons.mp nodup.2).1 (same ▸ member)
        simp [Links.detach, backward, forward, notBefore other (List.mem_cons_of_mem _ member), later]
  | cons first rest ih =>
    obtain ⟨back', forward', tail⟩ := chain
    simp only [List.cons_append, List.nodup_cons] at nodup
    rw [getLast?_cons_or] at backward
    have notNext : links.next cell ≠ some first := by
      rw [forward]
      intro same
      exact nodup.1 (by simp [List.mem_of_head? same])
    refine ⟨by simp [Links.detach, notNext, back'], ?_, ih tail nodup.2 (by simpa using nodup.1) backward⟩
    cases rest with
    | nil =>
      simp only [List.getLast?_nil, Option.none_or] at backward
      simp [Links.detach, backward, forward]
    | cons second others =>
      have notPrev : links.prev cell ≠ some first := by
        rw [backward]
        intro same
        have last : (second :: others).getLast? = some first := by
          rw [List.getLast?_cons] at same ⊢
          simpa using same
        exact nodup.1 (List.mem_append_left _ (List.mem_of_getLast? last))
      simp only [Links.detach, if_neg notPrev]
      simpa using forward'

theorem Chain.next_of_mem {links : Links} {before : Option Nat} {cells : List Nat}
    (chain : links.Chain before cells) {cell other : Nat} (member : cell ∈ cells)
    (next : links.next cell = some other) : other ∈ cells := by
  obtain ⟨front, back, rfl⟩ := List.append_of_mem member
  rw [chain.links_of_mid.2] at next
  simp [List.mem_of_head? next]

theorem Chain.prev_of_mem {links : Links} {cells : List Nat}
    (chain : links.Chain none cells) {cell other : Nat} (member : cell ∈ cells)
    (prev : links.prev cell = some other) : other ∈ cells := by
  obtain ⟨front, back, rfl⟩ := List.append_of_mem member
  rw [chain.links_of_mid.1, Option.or_none] at prev
  exact List.mem_append_left _ (List.mem_of_getLast? prev)

end Links

end Mdh.Lib
