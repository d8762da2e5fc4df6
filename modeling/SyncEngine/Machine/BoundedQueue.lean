import Mathlib

/-!
# Bounded queues

A first-in first-out list with a capacity.  An item is put behind the others unless the queue is
full, and taken from the front.  `respond` is the queue as a machine that answers calls: `undefined`
where there is no item, and where a call returns nothing.
-/

@[ext]
structure BoundedQueue (α : Type) where
  capacity : ℕ
  items : List α
  length_le : items.length ≤ capacity

namespace BoundedQueue

variable {α : Type}

def empty (capacity : ℕ) : BoundedQueue α := ⟨capacity, [], Nat.zero_le capacity⟩

def length (q : BoundedQueue α) : ℕ := q.items.length

def isFull (q : BoundedQueue α) : Bool := q.length = q.capacity

def isEmpty (q : BoundedQueue α) : Bool := q.items.isEmpty

/-- Put an item behind the others; a full queue refuses it. -/
def push (q : BoundedQueue α) (item : α) : BoundedQueue α × Bool :=
  if h : q.items.length = q.capacity then (q, false)
  else
    ({ capacity := q.capacity
       items := q.items ++ [item]
       length_le := by
         rw [List.length_append, List.length_singleton]
         exact lt_of_le_of_ne q.length_le h }, true)

/-- Take the first item, if there is one. -/
def pop (q : BoundedQueue α) : BoundedQueue α × Option α :=
  ({ capacity := q.capacity
     items := q.items.tail
     length_le := (List.tail_sublist q.items).length_le.trans q.length_le }, q.items.head?)

def peek (q : BoundedQueue α) : Option α := q.items.head?

def clear (q : BoundedQueue α) : BoundedQueue α := empty q.capacity

inductive Call (α : Type)
  | push (item : α)
  | pop
  | peek
  | length
  | isFull
  | isEmpty
  | clear
  | toArray

inductive Answer (α : Type)
  | bool (b : Bool)
  | item (x : Option α)
  | number (n : ℕ)
  | array (xs : List (Option α))
  | undefined
  deriving DecidableEq

/-- One call. -/
def respond (q : BoundedQueue α) : Call α → BoundedQueue α × Answer α
  | .push item => ((q.push item).1, .bool (q.push item).2)
  | .pop => (q.pop.1, .item q.pop.2)
  | .peek => (q, .item q.peek)
  | .length => (q, .number q.length)
  | .isFull => (q, .bool q.isFull)
  | .isEmpty => (q, .bool q.isEmpty)
  | .clear => (q.clear, .undefined)
  | .toArray => (q, .array (q.items.map some))

end BoundedQueue
