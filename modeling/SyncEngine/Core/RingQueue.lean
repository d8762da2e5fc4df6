import SyncEngine.Core.RingBuffer
import SyncEngine.Machine.BoundedQueue
import SyncEngine.Machine.Runs

/-!
# The ring buffer as a queue

`toQueue` reads a ring buffer as a first-in first-out list with a capacity.  Every method of
`RingBuffer` does to the list what the queue does, and returns the same (`respond_toQueue`), so the
two return the same in every sequence of calls, however often the positions wrap around
(`refines_queue`).
-/

namespace SyncEngine

open Js

namespace RingBuffer

open BoundedQueue (Call Answer)

variable {α : Type}

/-- A call of a method. -/
def respond (r : RingBuffer α) : Call α → RingBuffer α × Answer α
  | .push item => ((r.push item).1, .bool (r.push item).2)
  | .pop => (r.pop.1, .item r.pop.2)
  | .peek => (r, .item r.peek)
  | .length => (r, .number r.length)
  | .isFull => (r, .bool r.isFull)
  | .isEmpty => (r, .bool r.isEmpty)
  | .clear => (r.clear, .undefined)
  | .toArray => (r, .array (slots r.buffer r.capacity r.count r.head))

/-- The queue that a ring buffer stands for. -/
def toQueue (r : RingBuffer α) : BoundedQueue α :=
  ⟨r.capacity, r.toArray, r.length_toArray.trans_le r.count_le⟩

@[simp] lemma items_toQueue (r : RingBuffer α) : r.toQueue.items = r.toArray := rfl

@[simp] lemma capacity_toQueue (r : RingBuffer α) : r.toQueue.capacity = r.capacity := rfl

lemma toQueue_new (capacity : ℕ) : (new capacity : RingBuffer α).toQueue = .empty capacity := rfl

lemma push_toQueue (r : RingBuffer α) (item : α) :
    r.toQueue.push item = ((r.push item).1.toQueue, (r.push item).2) := by
  unfold BoundedQueue.push
  split
  next h =>
    have hfull : r.count = r.capacity := r.length_toArray.symm.trans h
    rw [push, dif_pos hfull]
  next h =>
    have hroom : r.count ≠ r.capacity := fun hfull => h (r.length_toArray.trans hfull)
    have hadded : (r.push item).1.toArray = r.toArray ++ [item] :=
      (r.toArray_push item).trans (if_neg h)
    refine Prod.ext (BoundedQueue.ext (r.capacity_push item).symm hadded.symm) ?_
    rw [push, dif_neg hroom]

lemma pop_toQueue (r : RingBuffer α) : r.toQueue.pop = (r.pop.1.toQueue, r.pop.2) :=
  Prod.ext (BoundedQueue.ext r.capacity_pop.symm r.pop_eq.1.symm) r.pop_eq.2.symm

lemma length_toQueue (r : RingBuffer α) : r.toQueue.length = r.length := r.length_toArray

lemma isFull_toQueue (r : RingBuffer α) : r.toQueue.isFull = r.isFull := by
  unfold BoundedQueue.isFull isFull
  rw [length_toQueue]
  rfl

lemma isEmpty_toQueue (r : RingBuffer α) : r.toQueue.isEmpty = r.isEmpty := by
  rw [BoundedQueue.isEmpty, items_toQueue, Bool.eq_iff_iff, List.isEmpty_iff,
    ← List.length_eq_zero_iff, length_toArray]
  exact decide_eq_true_iff.symm

/-- **A call** does to the queue what it does to the buffer, and both return the same. -/
lemma respond_toQueue (r : RingBuffer α) (call : Call α) :
    r.toQueue.respond call = ((r.respond call).1.toQueue, (r.respond call).2) := by
  cases call with
  | push item => rw [BoundedQueue.respond, push_toQueue, respond]
  | pop => rw [BoundedQueue.respond, pop_toQueue, respond]
  | peek => rw [BoundedQueue.respond, respond, peek_eq, BoundedQueue.peek, items_toQueue]
  | length => rw [BoundedQueue.respond, length_toQueue, respond]
  | isFull => rw [BoundedQueue.respond, isFull_toQueue, respond]
  | isEmpty => rw [BoundedQueue.respond, isEmpty_toQueue, respond]
  | clear => rfl
  | toArray => rw [BoundedQueue.respond, respond, slots_eq_toArray, items_toQueue]

/-- **The ring buffer is a bounded queue.**  The constructor throws where there is no array of that
length, and else every sequence of calls returns what it returns for an empty queue with that
capacity. -/
theorem refines_queue (capacity : Js.Double) (calls : List (Call α)) :
    (construct capacity).map (fun r => Machine.answers respond r calls) =
      capacity.arrayLength.map fun n => Machine.answers BoundedQueue.respond (.empty n) calls := by
  unfold construct
  cases capacity.arrayLength with
  | error e => rfl
  | ok n =>
    have hanswers := Machine.answers_eq_of_abstracts respond_toQueue (new n : RingBuffer α) calls
    exact congrArg Except.ok hanswers

/-- The third item wraps around to the first slot. -/
example : (construct (.finite 2)).map (fun r => Machine.answers respond r
    [.push 'a', .push 'b', .push 'c', .pop, .push 'c', .toArray, .isFull]) =
    .ok [.bool true, .bool true, .bool false, .item (some 'a'), .bool true,
      .array [some 'b', some 'c'], .bool true] := by decide +kernel

end RingBuffer

end SyncEngine
