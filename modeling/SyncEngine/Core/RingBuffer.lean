import SyncEngine.Js.Double

/-!
# The ring buffer

`RingBuffer` of `src/utils/buffer-pool.ts`.  The slots, the two positions and the count are kept
as the source keeps them, and the structure carries what ties them together: `tail` is `count`
slots behind `head`, and the slots between them are filled.  A slot that is `none` is `undefined`.
A buffer that is full refuses an item (`toArray_push`); it does not drop the oldest one, which only
`pop` takes out (`pop_eq`).
-/

namespace SyncEngine

structure RingBuffer (α : Type) where
  buffer : List (Option α)
  head : ℕ
  tail : ℕ
  count : ℕ
  capacity : ℕ
  length_buffer : buffer.length = capacity
  count_le : count ≤ capacity
  tail_eq : tail = (head + count) % capacity
  head_eq : head = head % capacity
  filled : ∀ i < count, ∃ x, buffer[(head + i) % capacity]? = some (some x)

namespace RingBuffer

variable {α : Type}

/-- `new RingBuffer(capacity)`. -/
def new (capacity : ℕ) : RingBuffer α where
  buffer := List.replicate capacity none
  head := 0
  tail := 0
  count := 0
  capacity := capacity
  length_buffer := List.length_replicate
  count_le := Nat.zero_le _
  tail_eq := (Nat.zero_mod _).symm
  head_eq := (Nat.zero_mod _).symm
  filled i hi := absurd hi (Nat.not_lt_zero i)

/-- The constructor: `new Array(capacity)` throws where no array has that length. -/
def construct (capacity : Js.Double) : Except Js.JsError (RingBuffer α) :=
  capacity.arrayLength.map new

/-- Two filled slots are one slot only if they are the same one. -/
lemma slot_ne {head i n capacity : ℕ} (hi : i < n) (hn : n < capacity) :
    (head + n) % capacity ≠ (head + i) % capacity := by
  intro heq
  have hmod : n % capacity = i % capacity := Nat.ModEq.add_left_cancel' head heq
  rw [Nat.mod_eq_of_lt hn, Nat.mod_eq_of_lt (hi.trans hn)] at hmod
  omega

def push (r : RingBuffer α) (item : α) : RingBuffer α × Bool :=
  if h : r.count = r.capacity then (r, false)
  else
    ({ buffer := r.buffer.set r.tail (some item)
       head := r.head
       tail := (r.tail + 1) % r.capacity
       count := r.count + 1
       capacity := r.capacity
       length_buffer := by rw [List.length_set, r.length_buffer]
       count_le := lt_of_le_of_ne r.count_le h
       tail_eq := by rw [r.tail_eq, Nat.mod_add_mod, Nat.add_assoc]
       head_eq := r.head_eq
       filled := by
         have hlt : r.count < r.capacity := lt_of_le_of_ne r.count_le h
         intro i hi
         rw [r.tail_eq, List.getElem?_set]
         by_cases hic : i = r.count
         · subst hic
           refine ⟨item, ?_⟩
           rw [if_pos rfl, if_pos]
           rw [r.length_buffer]
           exact Nat.mod_lt _ (Nat.zero_lt_of_lt hlt)
         · have hi' : i < r.count := by omega
           rw [if_neg (slot_ne hi' hlt)]
           exact r.filled i hi' }, true)

/-- The first slot is none of those behind it. -/
lemma head_ne {head i capacity : ℕ} (hhead : head = head % capacity) (hi : i + 1 < capacity) :
    head ≠ (head + (i + 1)) % capacity :=
  hhead.trans_ne (slot_ne (Nat.succ_pos i) hi).symm

/-- One slot further on. -/
lemma slot_succ (head i capacity : ℕ) :
    ((head + 1) % capacity + i) % capacity = (head + (i + 1)) % capacity := by
  rw [Nat.mod_add_mod, Nat.add_assoc, Nat.add_comm 1 i]

def pop (r : RingBuffer α) : RingBuffer α × Option α :=
  if h : r.count = 0 then (r, none)
  else
    ({ buffer := r.buffer.set r.head none
       head := (r.head + 1) % r.capacity
       tail := r.tail
       count := r.count - 1
       capacity := r.capacity
       length_buffer := by rw [List.length_set, r.length_buffer]
       count_le := (Nat.sub_le _ _).trans r.count_le
       tail_eq := by rw [slot_succ, Nat.sub_one_add_one h, r.tail_eq]
       head_eq := (Nat.mod_mod _ _).symm
       filled := by
         intro i hi
         have hle := r.count_le
         rw [slot_succ, List.getElem?_set_ne (head_ne r.head_eq (by omega))]
         exact r.filled (i + 1) (by omega) }, r.buffer[r.head]?.join)

def peek (r : RingBuffer α) : Option α :=
  if r.count = 0 then none else r.buffer[r.head]?.join

def length (r : RingBuffer α) : ℕ := r.count

def isFull (r : RingBuffer α) : Bool := r.count = r.capacity

def isEmpty (r : RingBuffer α) : Bool := r.count = 0

def clear (r : RingBuffer α) : RingBuffer α := new r.capacity

/-- The loop of `toArray`: `n` slots from `idx` on. -/
def slots (buffer : List (Option α)) (capacity : ℕ) : ℕ → ℕ → List (Option α)
  | 0, _ => []
  | n + 1, idx => buffer[idx]?.join :: slots buffer capacity n ((idx + 1) % capacity)

/-- The slots between `head` and `tail`, all of which are filled. -/
def toArray (r : RingBuffer α) : List α := (slots r.buffer r.capacity r.count r.head).reduceOption

lemma slots_eq (buffer : List (Option α)) (capacity n head : ℕ) (hhead : head = head % capacity) :
    slots buffer capacity n head =
      (List.range n).map fun i => buffer[(head + i) % capacity]?.join := by
  induction n generalizing head with
  | zero => rfl
  | succ n ih =>
    rw [slots, ih ((head + 1) % capacity) (Nat.mod_mod _ _).symm, List.range_succ_eq_map,
      List.map_cons, List.map_map]
    have hfirst : (head + 0) % capacity = head := hhead.symm
    rw [hfirst]
    congr 1
    apply List.map_congr_left
    intro i _
    simp only [Function.comp_apply, Nat.mod_add_mod, Nat.succ_eq_add_one]
    rw [Nat.add_assoc, Nat.add_comm 1 i]

@[simp] lemma toArray_new (capacity : ℕ) : (new capacity : RingBuffer α).toArray = [] := rfl

@[simp] lemma capacity_new (capacity : ℕ) : (new capacity : RingBuffer α).capacity = capacity := rfl

/-- The last slot read. -/
lemma slots_concat (buffer : List (Option α)) (capacity n head : ℕ)
    (hhead : head = head % capacity) : slots buffer capacity (n + 1) head =
      slots buffer capacity n head ++ [buffer[(head + n) % capacity]?.join] := by
  rw [slots_eq _ _ _ _ hhead, slots_eq _ _ _ _ hhead, List.range_succ, List.map_append,
    List.map_singleton]

/-- Writing a slot that is none of those read changes nothing in them. -/
lemma slots_set {buffer : List (Option α)} {capacity n head idx : ℕ} {x : Option α}
    (hhead : head = head % capacity) (hidx : ∀ i < n, idx ≠ (head + i) % capacity) :
    slots (buffer.set idx x) capacity n head = slots buffer capacity n head := by
  rw [slots_eq _ _ _ _ hhead, slots_eq _ _ _ _ hhead]
  refine List.map_congr_left fun i hi => ?_
  rw [List.getElem?_set_ne (hidx i (List.mem_range.1 hi))]

/-- What `toArray` reads: an item in every slot. -/
lemma slots_eq_toArray (r : RingBuffer α) :
    slots r.buffer r.capacity r.count r.head = r.toArray.map some := by
  have hsome : ∀ o ∈ slots r.buffer r.capacity r.count r.head, o.isSome := by
    intro o ho
    rw [slots_eq _ _ _ _ r.head_eq] at ho
    obtain ⟨i, hi, rfl⟩ := List.mem_map.1 ho
    obtain ⟨x, hx⟩ := r.filled i (List.mem_range.1 hi)
    rw [hx]
    rfl
  rw [toArray, List.reduceOption, List.map_filterMap_some_eq_filter_map_isSome, List.map_id,
    List.filter_eq_self.2 hsome]

/-- No filled slot is lost in `toArray`. -/
lemma length_toArray (r : RingBuffer α) : r.toArray.length = r.count := by
  have hlength : (slots r.buffer r.capacity r.count r.head).length = r.count := by
    rw [slots_eq _ _ _ _ r.head_eq, List.length_map, List.length_range]
  rw [slots_eq_toArray, List.length_map] at hlength
  exact hlength

@[simp] lemma capacity_push (r : RingBuffer α) (item : α) :
    (r.push item).1.capacity = r.capacity := by
  unfold push
  split <;> rfl

/-- **What a push does**: a full buffer refuses the item. -/
lemma toArray_push (r : RingBuffer α) (item : α) :
    (r.push item).1.toArray =
      if r.toArray.length = r.capacity then r.toArray else r.toArray ++ [item] := by
  rw [length_toArray, push]
  split
  · rfl
  next h =>
    have hlt : r.count < r.capacity := lt_of_le_of_ne r.count_le h
    have hslot : r.buffer.length > (r.head + r.count) % r.capacity := by
      rw [r.length_buffer]
      exact Nat.mod_lt _ (Nat.zero_lt_of_lt hlt)
    have hkept := @slots_set _ r.buffer r.capacity r.count r.head r.tail (some item) r.head_eq
      fun i hi => r.tail_eq.trans_ne (slot_ne hi hlt)
    simp only [toArray]
    rw [slots_concat _ _ _ _ r.head_eq, hkept, List.reduceOption_append, r.tail_eq,
      List.getElem?_set_self hslot]
    rfl

/-- The first items pushed are the ones a buffer holds. -/
lemma toArray_push_take {r : RingBuffer α} {items : List α} (h : r.toArray = items.take r.capacity)
    (item : α) : (r.push item).1.toArray = (items ++ [item]).take r.capacity := by
  rw [toArray_push, h, List.length_take]
  split
  next hfull => rw [List.take_append_of_le_length (by omega)]
  next hroom =>
    rw [List.take_of_length_le (by omega), List.take_of_length_le]
    rw [List.length_append, List.length_singleton]
    omega

/-- The first item is in the slot at `head`, and the others are in those behind it. -/
lemma exists_toArray_cons {r : RingBuffer α} (h : r.count ≠ 0) :
    ∃ item rest, r.toArray = item :: rest ∧ r.buffer[r.head]?.join = some item ∧
      slots r.buffer r.capacity (r.count - 1) ((r.head + 1) % r.capacity) = rest.map some := by
  have hslots := r.slots_eq_toArray
  rw [← Nat.sub_one_add_one h, slots] at hslots
  obtain ⟨item, rest, htoArray, hitem, hrest⟩ := List.map_eq_cons_iff.1 hslots.symm
  exact ⟨item, rest, htoArray, hitem.symm, hrest.symm⟩

lemma toArray_of_count_eq_zero {r : RingBuffer α} (h : r.count = 0) : r.toArray = [] :=
  List.length_eq_zero_iff.1 (r.length_toArray.trans h)

@[simp] lemma capacity_pop (r : RingBuffer α) : r.pop.1.capacity = r.capacity := by
  unfold pop
  split <;> rfl

/-- **What a pop does**: it takes the first item, and returns it. -/
lemma pop_eq (r : RingBuffer α) :
    r.pop.1.toArray = r.toArray.tail ∧ r.pop.2 = r.toArray.head? := by
  unfold pop
  split
  next h =>
    rw [toArray_of_count_eq_zero h]
    exact ⟨rfl, rfl⟩
  next h =>
    obtain ⟨item, rest, htoArray, hitem, hrest⟩ := exists_toArray_cons h
    have hle := r.count_le
    refine ⟨List.map_injective_iff.2 (Option.some_injective α) ?_, ?_⟩
    · rw [← slots_eq_toArray, htoArray, List.tail_cons, ← hrest]
      refine slots_set (Nat.mod_mod _ _).symm fun i hi => ?_
      have hi : i < r.count - 1 := hi
      rw [slot_succ]
      exact head_ne r.head_eq (by omega)
    · rw [htoArray]
      exact hitem

lemma peek_eq (r : RingBuffer α) : r.peek = r.toArray.head? := by
  unfold peek
  split
  next h =>
    rw [toArray_of_count_eq_zero h]
    rfl
  next h =>
    obtain ⟨item, rest, htoArray, hitem, -⟩ := exists_toArray_cons h
    rw [htoArray]
    exact hitem

end RingBuffer

end SyncEngine
