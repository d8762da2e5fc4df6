import SyncEngine.Core.StateManager
import SyncEngine.Js.Heap

/-!
# Data objects held by reference

The memory in which data objects and the values of operations are objects of a heap, so that an
operation places its value in the data itself.  `applyOperation` is the source's loop on such a
heap; where `Core/Operation.lean` rebuilds a document, it writes an object.

`target` is the object that an operation is aimed at.  `applyOperation_effect` says that of the
objects there were no other one is written.
-/

namespace SyncEngine

open Js

namespace HeapMemory

/-- Perform a step of one object. -/
def writing (h : Heap) (a : Address) (o : Except JsError (Obj Val)) : Written Heap :=
  attempt h (o.map (h.write a))

/-- Walk to the last segment of a path and act there. -/
def walk (f : String → Address → Heap → Written Heap) : List String → Address → Heap → Written Heap
  | [], _, h => (h, none)
  | [k], a, h => f k a h
  | k :: ks, a, h =>
    match (h.obj a).get k with
    | .ref b => walk f ks b h
    | .prim _ =>
      match (h.obj a).assign k (.ref (h.place .empty).1) (Doc.obj .empty).toArrayLength with
      | .error e => (h, some e)
      | .ok o => walk f ks (h.place .empty).1 ((h.place .empty).2.write a o)

/-- `Array.isArray(v)`. -/
def isArray (h : Heap) : Val → Bool
  | .prim _ => false
  | .ref b => (h.obj b).isArray

/-- `v.push(x)`. -/
def push (h : Heap) (x : Val) : Val → Written Heap
  | .prim _ => (h, some .typeError)
  | .ref b => writing h b ((h.obj b).push x)

/-- `current[k] = (Number(current[k]) || 0) + (Number(value) || 1)`. -/
def increment (value : Val) (k : String) (a : Address) (h : Heap) : Written Heap :=
  match incremented (h.doc ((h.obj a).get k)) (h.doc value) with
  | .error e => (h, some e)
  | .ok q => writing h a ((h.obj a).assign k (.prim (.num q)) (Doc.prim (.num q)).toArrayLength)

/-- The two lines of the case `append`. -/
def append (value : Val) (k : String) (a : Address) (h : Heap) : Written Heap :=
  if isArray h ((h.obj a).get k) then push h value ((h.obj a).get k)
  else
    match (h.obj a).assign k (.ref (h.place .emptyArray).1) (Doc.obj .emptyArray).toArrayLength with
    | .error e => (h, some e)
    | .ok o =>
      -- On the name `length` of an array the empty array is stored as the number `0`.
      let h' := (h.place .emptyArray).2.write a o
      push h' value ((h'.obj a).get k)

/-- The lines of the case `remove`. -/
def remove (value : Val) (k : String) (a : Address) (h : Heap) : Written Heap :=
  match (h.obj a).get k with
  | .prim _ => (h, none)
  | .ref b =>
    if isArray h (.ref b) then
      match (h.obj b).removeAll fun v => v = value with
      | .error e => (h, some e)
      | .ok o => ((h.place o).2.write a ((h.obj a).put k (.ref (h.place o).1)), none)
    else (h, none)

/-- The switch of `StateManager.applyOperation`, at the object the walk ended at. -/
def operate (op : DeltaOperation Val) (k : String) (a : Address) (h : Heap) : Written Heap :=
  match op.op with
  | .set => writing h a ((h.obj a).assign k op.value (h.doc op.value).toArrayLength)
  | .delete => writing h a ((h.obj a).erase k)
  | .increment => increment op.value k a h
  | .append => append op.value k a h
  | .remove => remove op.value k a h
  | .other => (h, none)

/-- The last two lines of `StateSynchronizer.applyOperationToData`. -/
def operateToData (op : DeltaOperation Val) (k : String) (a : Address) (h : Heap) : Written Heap :=
  match op.op with
  | .set => writing h a ((h.obj a).assign k op.value (h.doc op.value).toArrayLength)
  | .delete => writing h a ((h.obj a).erase k)
  | _ => (h, none)

/-- `StateManager.applyOperation`. -/
def applyOperation (h : Heap) (a : Address) (op : DeltaOperation Val) : Written Heap :=
  walk (operate op) (splitPath op.path) a h

/-- `StateSynchronizer.applyOperationToData`. -/
def applyOperationToData (h : Heap) (a : Address) (op : DeltaOperation Val) : Written Heap :=
  walk (operateToData op) (splitPath op.path) a h

end HeapMemory

instance : Memory Heap Val where
  empty := .empty
  parse := Heap.parse
  read := Heap.read
  parseValue := Heap.parseValue
  readValue := Heap.doc
  number q := .prim (.num q)
  applyOperation := HeapMemory.applyOperation
  applyOperationToData := HeapMemory.applyOperationToData

namespace HeapMemory

/-! ## The object an operation is aimed at -/

/-- The object that the switch writes, if it gets to write. -/
def operateTarget (op : DeltaOperation Val) (k : String) (a : Address) (h : Heap) :
    Option Address :=
  match op.op with
  | .set | .delete | .increment => some a
  | .append => if isArray h ((h.obj a).get k) then ((h.obj a).get k).address? else some a
  | .remove => if isArray h ((h.obj a).get k) then some a else none
  | .other => none

/-- The last object along a path, where the walk either acts or makes the next object. -/
def walkTarget (f : String → Address → Heap → Option Address) :
    List String → Address → Heap → Option Address
  | [], _, _ => none
  | [k], a, h => f k a h
  | k :: ks, a, h =>
    match (h.obj a).get k with
    | .ref b => walkTarget f ks b h
    | .prim _ => some a

/-- **The object that an operation on the data object at `a` is aimed at.** -/
def target (h : Heap) (a : Address) (op : DeltaOperation Val) : Option Address :=
  walkTarget (operateTarget op) (splitPath op.path) a h

/-! ## Nothing else is written -/

variable {h h' : Heap} {a : Address} {k : String} {value : Val}

lemma get_allocated (hclosed : h.Closed) (a : Address) (k : String) :
    h.Allocated ((h.obj a).get k) :=
  (hclosed a).get (Heap.allocated_prim h) k

lemma effect_writing (hclosed : h.Closed) (a : Address) {o : Except JsError (Obj Val)}
    (ho : ∀ o', o = .ok o' → o'.All h.Allocated) : Heap.Effect h (writing h a o).1 (some a) := by
  cases o with
  | error e => exact .refl hclosed _
  | ok o' => exact Heap.effect_write hclosed a (ho o' rfl)

lemma effect_push (hclosed : h.Closed) (hvalue : h.Allocated value) (b : Address) :
    Heap.Effect h (push h value (.ref b)).1 (some b) := by
  apply effect_writing hclosed
  intro o' ho'
  exact (hclosed b).push hvalue ho'

lemma effect_assign (hclosed : h.Closed) (a : Address) (k : String) (hvalue : h.Allocated value)
    (n : Except JsError ℕ) :
    Heap.Effect h (writing h a ((h.obj a).assign k value n)).1 (some a) := by
  apply effect_writing hclosed
  intro o' ho'
  exact (hclosed a).assign (Heap.allocated_prim h) hvalue ho'

lemma effect_erase (hclosed : h.Closed) (a : Address) (k : String) :
    Heap.Effect h (writing h a ((h.obj a).erase k)).1 (some a) := by
  apply effect_writing hclosed
  intro o' ho'
  exact (hclosed a).erase (Heap.allocated_prim h) ho'

lemma effect_increment (hclosed : h.Closed) (value : Val) (k : String) (a : Address) :
    Heap.Effect h (increment value k a h).1 (some a) := by
  unfold increment
  split
  · exact .refl hclosed _
  · exact effect_assign hclosed a k (Heap.allocated_prim h _) _

/-- A new object, put in a property of an object there was. -/
lemma effect_write_new (hclosed : h.Closed) (a : Address) {o n : Obj Val} (hn : n.All h.Allocated)
    (ho : o.All (h.place n).2.Allocated) :
    Heap.Effect h ((h.place n).2.write a o) (some a) := by
  have hplace := Heap.effect_place hclosed hn
  exact (hplace.of_none _).trans (Heap.effect_write hplace.closed a ho) fun c hc _ => hc

lemma all_place (hclosed : h.Closed) (a : Address) (n : Obj Val) :
    (h.obj a).All (h.place n).2.Allocated :=
  fun j => (hclosed a j).mono (Nat.le_succ _)

/-- A new object as the value of an assignment. -/
lemma effect_assign_new (hclosed : h.Closed) (a : Address) {n o : Obj Val} (hn : n.All h.Allocated)
    {len : Except JsError ℕ} (ho : (h.obj a).assign k (.ref (h.place n).1) len = .ok o) :
    Heap.Effect h ((h.place n).2.write a o) (some a) := by
  apply effect_write_new hclosed a hn
  have hnew : (h.place n).2.Allocated (.ref (h.place n).1) := Nat.lt_succ_self h.next
  exact (all_place hclosed a n).assign (Heap.allocated_prim _) hnew ho

/-- An object that was assigned is found again, unless it was stored as the length of an array. -/
lemma get_of_assign {o o' : Obj Val} {b : Address} {len : Except JsError ℕ}
    (ho : o.assign k (.ref b) len = .ok o') : o'.get k = .ref b ∨ ∃ p, o'.get k = .prim p := by
  unfold Obj.assign at ho
  split at ho
  next hlen =>
    right
    cases len with
    | error e => cases ho
    | ok n =>
      obtain rfl := Except.ok.inj ho
      exact ⟨.num n, by simp [Obj.get, Obj.truncate, hlen.2]⟩
  next hlen =>
    obtain rfl := Except.ok.inj ho
    left
    unfold Obj.get
    split
    next n hn =>
      have harray : o.isArray := by
        rw [Obj.isArray, ← Obj.isSome_grow o.len k]
        exact Option.isSome_iff_exists.2 ⟨n, hn⟩
      rw [if_neg fun hk => hlen ⟨harray, hk⟩]
      exact Function.update_self _ _ _
    next => exact Function.update_self _ _ _

lemma effect_append (hclosed : h.Closed) (hvalue : h.Allocated value) (k : String) (a : Address) :
    Heap.Effect h (append value k a h).1
      (if isArray h ((h.obj a).get k) then ((h.obj a).get k).address? else some a) := by
  unfold append
  split
  next harray =>
    cases hget : (h.obj a).get k with
    | prim p => simp [hget, isArray] at harray
    | ref b => exact effect_push hclosed hvalue b
  next =>
    split
    · exact .refl hclosed _
    next o ho =>
      have hnew : Heap.Effect h ((h.place .emptyArray).2.write a o) (some a) :=
        effect_assign_new hclosed a (Obj.all_emptyArray (Heap.allocated_prim h)) ho
      have hself : ((h.place .emptyArray).2.write a o).obj a = o := Function.update_self _ _ _
      dsimp only
      rw [hself]
      obtain hget | ⟨p, hget⟩ := get_of_assign ho
      · rw [hget]
        refine hnew.trans (effect_push hnew.closed (hvalue.mono hnew.next_le) _) ?_
        -- The new array was not there before.
        rintro c hc hlt
        obtain rfl := Option.some.inj hc
        exact absurd hlt (lt_irrefl h.next)
      · rw [hget]
        exact hnew

lemma effect_remove (hclosed : h.Closed) (value : Val) (k : String) (a : Address) :
    Heap.Effect h (remove value k a h).1
      (if isArray h ((h.obj a).get k) then some a else none) := by
  unfold remove
  split
  · exact .refl hclosed _
  next b hget =>
    rw [hget]
    split
    · split
      · exact .refl hclosed _
      next o ho =>
        apply effect_write_new hclosed a ((hclosed b).removeAll (Heap.allocated_prim h) ho)
        exact (all_place hclosed a o).update _ k (Nat.lt_succ_self h.next)
    · exact .refl hclosed _

lemma effect_operate {op : DeltaOperation Val} (hclosed : h.Closed)
    (hop : h.Allocated op.value) (k : String) (a : Address) :
    Heap.Effect h (operate op k a h).1 (operateTarget op k a h) := by
  unfold operate operateTarget
  cases op.op with
  | set => exact effect_assign hclosed a k hop _
  | delete => exact effect_erase hclosed a k
  | increment => exact effect_increment hclosed op.value k a
  | append => exact effect_append hclosed hop k a
  | remove => exact effect_remove hclosed op.value k a
  | other => exact .refl hclosed _

/-! ## The walk -/

/-- A last step that writes at its target, and finds nothing to write in an empty object but the
object itself. -/
structure Acts (f : String → Address → Heap → Written Heap)
    (target : String → Address → Heap → Option Address) (value : Val) : Prop where
  effect : ∀ {h : Heap} (k : String) (a : Address), h.Closed → h.Allocated value →
    Heap.Effect h (f k a h).1 (target k a h)
  at_empty : ∀ {h : Heap} (k : String) (a : Address), h.obj a = .empty →
    target k a h = some a ∨ target k a h = none

lemma acts_operate (op : DeltaOperation Val) : Acts (operate op) (operateTarget op) op.value where
  effect k a hclosed hop := effect_operate hclosed hop k a
  at_empty {h} k a hempty := by
    have hget : (h.obj a).get k = .prim .absent := by rw [hempty]; rfl
    unfold operateTarget
    rw [hget]
    cases op.op <;> simp [isArray]

variable {f : String → Address → Heap → Written Heap}
  {aim : String → Address → Heap → Option Address}

lemma walk_cons_cons (f : String → Address → Heap → Written Heap) (k j : String) (ks : List String)
    (a : Address) (h : Heap) :
    walk f (k :: j :: ks) a h =
      match (h.obj a).get k with
      | .ref b => walk f (j :: ks) b h
      | .prim _ =>
        match (h.obj a).assign k (.ref (h.place .empty).1) (Doc.obj .empty).toArrayLength with
        | .error e => (h, some e)
        | .ok o => walk f (j :: ks) (h.place .empty).1 ((h.place .empty).2.write a o) := rfl

lemma walkTarget_cons_cons (aim : String → Address → Heap → Option Address) (k j : String)
    (ks : List String) (a : Address) (h : Heap) :
    walkTarget aim (k :: j :: ks) a h =
      match (h.obj a).get k with
      | .ref b => walkTarget aim (j :: ks) b h
      | .prim _ => some a := rfl

/-- The object that a walk makes is empty. -/
lemma write_place_obj (ha : a.1 < h.next) (n o : Obj Val) :
    ((h.place n).2.write a o).obj (h.place n).1 = n := by
  have hne : (h.place n).1 ≠ a := by
    rintro rfl
    exact lt_irrefl _ ha
  show Function.update (h.place n).2.obj a o (h.place n).1 = n
  rw [Function.update_of_ne hne]
  exact Function.update_self _ _ _

/-- A walk that makes the next object writes one object there was. -/
lemma effect_walk_new (hclosed : h.Closed) (ha : a.1 < h.next) (k : String) (path : List String)
    (hrest : ∀ {h' : Heap} {b : Address}, h'.Closed → b.1 < h'.next → h.next ≤ h'.next →
      h'.obj b = .empty → Heap.Effect h' (walk f path b h').1 (some b)) :
    Heap.Effect h
      (match (h.obj a).assign k (.ref (h.place .empty).1) (Doc.obj .empty).toArrayLength with
        | .error e => (h, some e)
        | .ok o => walk f path (h.place .empty).1 ((h.place .empty).2.write a o)).1 (some a) := by
  split
  · exact .refl hclosed _
  next o ho =>
    have hnew : Heap.Effect h ((h.place .empty).2.write a o) (some a) :=
      effect_assign_new hclosed a (Obj.all_empty (Heap.allocated_prim h)) ho
    have hthen := hrest hnew.closed (Nat.lt_succ_self h.next) hnew.next_le
      (write_place_obj ha .empty o)
    refine hnew.trans hthen ?_
    rintro c hc hlt
    obtain rfl := Option.some.inj hc
    exact absurd hlt (lt_irrefl h.next)

/-- From an empty object on, the walk goes through objects that it makes. -/
lemma effect_walk_empty (hf : Acts f aim value) (path : List String) (hclosed : h.Closed)
    (ha : a.1 < h.next) (hvalue : h.Allocated value) (hempty : h.obj a = .empty) :
    Heap.Effect h (walk f path a h).1 (some a) := by
  induction path generalizing h a with
  | nil => exact .refl hclosed _
  | cons k ks ih =>
    cases ks with
    | nil =>
      have heffect := hf.effect k a hclosed hvalue
      obtain haim | haim := hf.at_empty k a hempty
      · rw [haim] at heffect
        exact heffect
      · rw [haim] at heffect
        exact heffect.of_none _
    | cons j ks =>
      have hget : (h.obj a).get k = .prim .absent := by rw [hempty]; rfl
      rw [walk_cons_cons, hget]
      apply effect_walk_new hclosed ha
      intro h' b hclosed' hb hle hempty'
      exact ih hclosed' hb (hvalue.mono hle) hempty'

/-- **A walk writes the last object along its path, and objects it makes.** -/
lemma effect_walk (hf : Acts f aim value) (path : List String) (hclosed : h.Closed)
    (ha : a.1 < h.next) (hvalue : h.Allocated value) :
    Heap.Effect h (walk f path a h).1 (walkTarget aim path a h) := by
  induction path generalizing a with
  | nil => exact .refl hclosed _
  | cons k ks ih =>
    cases ks with
    | nil => exact hf.effect k a hclosed hvalue
    | cons j ks =>
      rw [walk_cons_cons, walkTarget_cons_cons]
      cases hget : (h.obj a).get k with
      | ref b =>
        have hb := get_allocated hclosed a k
        rw [hget] at hb
        exact ih hb
      | prim p =>
        apply effect_walk_new hclosed ha
        intro h' b hclosed' hb hle hempty'
        exact effect_walk_empty hf _ hclosed' hb (hvalue.mono hle) hempty'

/-- **An operation writes the object it is aimed at, and no other one there was.** -/
lemma effect_applyOperation (hclosed : h.Closed) (ha : a.1 < h.next) {op : DeltaOperation Val}
    (hop : h.Allocated op.value) :
    Heap.Effect h (applyOperation h a op).1 (target h a op) :=
  effect_walk (acts_operate op) _ hclosed ha hop

/-! ## Loops -/

/-- No operation of a loop is aimed at an object that the values reach. -/
def Spares (held : Set Val) (a : Address) : List (DeltaOperation Val) → Heap → Prop
  | [], _ => True
  | op :: ops, h =>
    (∀ v ∈ held, ∀ b, Heap.Reach h v b → target h a op ≠ some b) ∧
      match applyOperation h a op with
      | (h', none) => Spares held a ops h'
      | (_, some _) => True

lemma spares_singleton {held : Set Val} {op : DeltaOperation Val}
    (hop : ∀ v ∈ held, ∀ b, Heap.Reach h v b → target h a op ≠ some b) :
    Spares held a [op] h := by
  refine ⟨hop, ?_⟩
  rcases applyOperation h a op with ⟨h', _ | e⟩ <;> trivial

lemma applyOperations_cons (a : Address) (op : DeltaOperation Val)
    (ops : List (DeltaOperation Val)) (h : Heap) :
    StateManager.applyOperations a (op :: ops) h =
      match applyOperation h a op with
      | (h', none) => StateManager.applyOperations a ops h'
      | (h', some e) => (h', some e) := by
  have heq : Memory.applyOperation h a op = applyOperation h a op := rfl
  rw [StateManager.applyOperations_cons, heq]
  rcases applyOperation h a op with ⟨h', _ | e⟩ <;> rfl

lemma closed_applyOperations (hclosed : h.Closed) (ha : a.1 < h.next)
    {ops : List (DeltaOperation Val)} (hops : ∀ op ∈ ops, h.Allocated op.value) :
    (StateManager.applyOperations a ops h).1.Closed ∧
      h.next ≤ (StateManager.applyOperations a ops h).1.next := by
  induction ops generalizing h with
  | nil => exact ⟨hclosed, le_rfl⟩
  | cons op ops ih =>
    have heffect := effect_applyOperation hclosed ha (hops op List.mem_cons_self)
    rw [applyOperations_cons]
    rcases hop : applyOperation h a op with ⟨h', _ | e⟩
    · rw [hop] at heffect
      have hrest := ih heffect.closed (ha.trans_le heffect.next_le) fun o ho =>
        (hops o (List.mem_cons_of_mem op ho)).mono heffect.next_le
      exact ⟨hrest.1, heffect.next_le.trans hrest.2⟩
    · rw [hop] at heffect
      exact ⟨heffect.closed, heffect.next_le⟩

/-- **A loop leaves the values alone that its operations spare.** -/
lemma doc_applyOperations {held : Set Val} (hclosed : h.Closed) (ha : a.1 < h.next)
    {ops : List (DeltaOperation Val)} (hops : ∀ op ∈ ops, h.Allocated op.value)
    (hspares : Spares held a ops h) {v : Val} (hheld : v ∈ held) (hv : h.Allocated v) :
    (StateManager.applyOperations a ops h).1.doc v = h.doc v := by
  induction ops generalizing h with
  | nil => rfl
  | cons op ops ih =>
    have heffect := effect_applyOperation hclosed ha (hops op List.mem_cons_self)
    have hsame := heffect.doc_eq hclosed hv (hspares.1 v hheld)
    have hlater := hspares.2
    rw [applyOperations_cons]
    rcases hop : applyOperation h a op with ⟨h', _ | e⟩
    · rw [hop] at heffect hsame hlater
      have hrest := ih heffect.closed (ha.trans_le heffect.next_le)
        (fun o ho => (hops o (List.mem_cons_of_mem op ho)).mono heffect.next_le) hlater
        (hv.mono heffect.next_le)
      exact hrest.trans hsame
    · rw [hop] at hsame
      exact hsame

end HeapMemory

end SyncEngine
