import SyncEngine.Core.StateManager
import SyncEngine.Js.Realm

/-!
# Data objects that inherit

The memory in which data objects are objects of a realm: a path of an operation is walked through
whatever property access yields, inherited properties and `__proto__` included.  `applyOperation`
is the source's loop, with its test `typeof current[key] !== 'object' || current[key] === null`
and the read of `current[key]` that follows it.

`targets` are the objects that an operation may write.  `within_applyOperation` says that of the
objects there were no other one is written, and that from a set that nothing leads out of the
operation does not get out.
-/

namespace SyncEngine

open Js

namespace RealmMemory

/-- The object that a value is, if its `typeof` is `object`. -/
def object? : Val → Option Address
  | .prim _ => none
  | .ref a => if isFunction a then none else some a

/-- Walk to the last segment of a path and act there. -/
def walk (f : String → Address → Realm → Written Realm) :
    List String → Address → Realm → Written Realm
  | [], _, r => (r, none)
  | [k], a, r => f k a r
  | k :: ks, a, r =>
    match object? (r.get a k) with
    | some b => walk f ks b r
    | none =>
      match r.assignNew a k .empty with
      | (r', some e) => (r', some e)
      | (r', none) =>
        match object? (r'.get a k) with
        | some b => walk f ks b r'
        | none => (r', some .typeError)

/-- `Array.isArray(v)`. -/
def isArray (r : Realm) : Val → Bool
  | .prim _ => false
  | .ref b => (r.obj b).isArray

/-- The array with one more element. -/
def pushed (o : Obj Val) (x : Val) : Obj Val :=
  ⟨o.len.map (· + 1), Function.update o.props (toString (o.len.getD 0)) x⟩

/-- `v.push(x)`. -/
def push (r : Realm) (x : Val) : Val → Written Realm
  | .prim _ => (r, some .typeError)
  | .ref b =>
    if (r.method? b "push").isSome then (r.write b (pushed (r.obj b) x), none)
    else (r, some .typeError)

/-- `current[k] = (Number(current[k]) || 0) + (Number(value) || 1)`. -/
def increment (value : Val) (k : String) (a : Address) (r : Realm) : Written Realm :=
  match r.numberOr (r.get a k) 0, r.numberOr value 1 with
  | .ok p, .ok q => r.assign a k (.prim (.num (p + q)))
  | .error e, _ => (r, some e)
  | _, .error e => (r, some e)

/-- The two lines of the case `append`. -/
def append (value : Val) (k : String) (a : Address) (r : Realm) : Written Realm :=
  if isArray r (r.get a k) then push r value (r.get a k)
  else
    match r.assignNew a k .emptyArray with
    | (r', some e) => (r', some e)
    | (r', none) => push r' value (r'.get a k)

/-- The elements of an array that are not the value, a missing one looked for on the prototypes. -/
def filtered (r : Realm) (b : Address) (value : Val) : Obj Val :=
  .ofElements (((List.range ((r.obj b).len.getD 0)).map fun i => r.get b (toString i)).filter
    fun v => !isAbsent v && v ≠ value)

/-- `v.filter(w => w !== value)` throws: there is no such method, or nothing to construct the new
array with. -/
def filterRefuses (r : Realm) (b : Address) : Bool :=
  (r.method? b "filter").isNone ||
    match r.get b "constructor" with
    | .ref _ => false
    | .prim p => p ≠ .absent ∧ p ≠ .undefined

/-- The lines of the case `remove`. -/
def remove (value : Val) (k : String) (a : Address) (r : Realm) : Written Realm :=
  match r.get a k with
  | .prim _ => (r, none)
  | .ref b =>
    if isArray r (.ref b) then
      if filterRefuses r b then (r, some .typeError)
      else r.assignNew a k (filtered r b value)
    else (r, none)

/-- The switch of `StateManager.applyOperation`, at the object the walk ended at. -/
def operate (op : DeltaOperation Val) (k : String) (a : Address) (r : Realm) : Written Realm :=
  match op.op with
  | .set => r.assign a k op.value
  | .delete => r.erase a k
  | .increment => increment op.value k a r
  | .append => append op.value k a r
  | .remove => remove op.value k a r
  | .other => (r, none)

/-- The last two lines of `StateSynchronizer.applyOperationToData`. -/
def operateToData (op : DeltaOperation Val) (k : String) (a : Address) (r : Realm) :
    Written Realm :=
  match op.op with
  | .set => r.assign a k op.value
  | .delete => r.erase a k
  | _ => (r, none)

/-- `StateManager.applyOperation`. -/
def applyOperation (r : Realm) (a : Address) (op : DeltaOperation Val) : Written Realm :=
  walk (operate op) (splitPath op.path) a r

/-- `StateSynchronizer.applyOperationToData`. -/
def applyOperationToData (r : Realm) (a : Address) (op : DeltaOperation Val) : Written Realm :=
  walk (operateToData op) (splitPath op.path) a r

end RealmMemory

instance : Memory Realm Val where
  empty := .initial 1000
  parse := Realm.parse
  read r a := r.heap.read a
  parseValue := Realm.parseValue
  readValue r v := r.heap.doc v
  number q := .prim (.num q)
  applyOperation := RealmMemory.applyOperation
  applyOperationToData := RealmMemory.applyOperationToData

namespace RealmMemory

/-! ## The objects an operation is aimed at -/

/-- The objects that the case `append` writes, if it gets to write. -/
def appendTargets (k : String) (a : Address) (r : Realm) : List Address :=
  if isArray r (r.get a k) then (r.get a k).address?.toList
  else
    match r.assignNew a k .emptyArray with
    | (_, some _) => [a]
    | (r', none) => a :: (r'.get a k).address?.toList

/-- The objects that the switch writes, if it gets to write. -/
def operateTargets (op : DeltaOperation Val) (k : String) (a : Address) (r : Realm) :
    List Address :=
  match op.op with
  | .set | .delete | .increment => [a]
  | .append => appendTargets k a r
  | .remove => if isArray r (r.get a k) then [a] else []
  | .other => []

/-- The objects that a walk writes: those where it makes the next object, and those that the last
step writes. -/
def walkTargets (aim : String → Address → Realm → List Address) :
    List String → Address → Realm → List Address
  | [], _, _ => []
  | [k], a, r => aim k a r
  | k :: ks, a, r =>
    match object? (r.get a k) with
    | some b => walkTargets aim ks b r
    | none =>
      match r.assignNew a k .empty with
      | (_, some _) => [a]
      | (r', none) =>
        match object? (r'.get a k) with
        | some b => a :: walkTargets aim ks b r'
        | none => [a]

/-- **The objects that an operation on the data object at `a` is aimed at.** -/
def targets (r : Realm) (a : Address) (op : DeltaOperation Val) : List Address :=
  walkTargets (operateTargets op) (splitPath op.path) a r

/-! ## Nothing else is written -/

variable {r r' : Realm} {T : Set Address} {a b : Address} {k : String} {value : Val}

lemma object?_inside {v : Val} (hv : r.Inside T v) (hb : object? v = some b) :
    r.Inside T (.ref b) := by
  cases v with
  | prim p => cases hb
  | ref c =>
    rw [object?] at hb
    split at hb
    · cases hb
    · obtain rfl := Option.some.inj hb
      exact hv

lemma within_push (hr : r.Confined T) (hvalue : r.Inside T value) {v : Val} (hv : r.Inside T v) :
    Realm.Within T r (push r value v).1 v.address?.toList := by
  cases v with
  | prim p => exact .refl hr fun c hc => by cases hc
  | ref b =>
    rw [push]
    split
    · exact .write hr hv ((hr.own b hv.1).update _ _ hvalue)
    · exact .refl hr fun c hc => (List.mem_singleton.1 hc) ▸ hv.1

lemma within_increment (hr : r.Confined T) (ha : r.Inside T (.ref a)) (value : Val) (k : String) :
    Realm.Within T r (increment value k a r).1 [a] := by
  have hsame : Realm.Within T r r [a] := .refl hr fun c hc => (List.mem_singleton.1 hc) ▸ ha.1
  unfold increment
  split
  · exact .assign hr ha k trivial fun b hb => by cases hb
  · exact hsame
  · exact hsame

/-- What is made on the way and what follows it. -/
lemma within_assignNew_trans (hr : r.Confined T) (ha : r.Inside T (.ref a)) {o : Obj Val}
    (ho : o.All (r.Inside T)) {r'' : Realm} {rest : List Address}
    (hassign : (r.assignNew a k o).1 = r')
    (hrest : r'.Confined T → r.heap.next ≤ r'.heap.next → r'.Inside T (r'.get a k) →
      Realm.Within T r' r'' rest) :
    Realm.Within T r r'' (a :: rest) := by
  have hnew : Realm.Within T r r' [a] := hassign ▸ Realm.Within.assignNew hr ha k ho
  exact hnew.trans (hrest hnew.confined hnew.next_le (hnew.confined.get ha.1 k))

lemma within_append (hr : r.Confined T) (ha : r.Inside T (.ref a)) (hvalue : r.Inside T value)
    (k : String) : Realm.Within T r (append value k a r).1 (appendTargets k a r) := by
  unfold append appendTargets
  split
  · exact within_push hr hvalue (hr.get ha.1 k)
  · have hall : (Obj.emptyArray : Obj Val).All (r.Inside T) :=
      Obj.all_emptyArray (Realm.inside_prim T r)
    rcases hassign : r.assignNew a k .emptyArray with ⟨r', _ | e⟩
    · apply within_assignNew_trans hr ha hall (by rw [hassign])
      intro hr' hle hget
      exact within_push hr' (hvalue.mono hle) hget
    · apply within_assignNew_trans hr ha hall (by rw [hassign])
      exact fun hr' _ _ => .refl hr' fun c hc => by cases hc

lemma all_filtered (hr : r.Confined T) (hb : b ∈ T) (value : Val) :
    (filtered r b value).All (r.Inside T) := by
  apply Obj.all_ofElements (Realm.inside_prim T r)
  intro v hv
  obtain ⟨i, -, rfl⟩ := List.mem_map.1 (List.mem_filter.1 hv).1
  exact hr.get hb _

lemma within_remove (hr : r.Confined T) (ha : r.Inside T (.ref a)) (value : Val) (k : String) :
    Realm.Within T r (remove value k a r).1 (if isArray r (r.get a k) then [a] else []) := by
  have hnothing : ∀ c ∈ (if isArray r (r.get a k) then [a] else []), c ∈ T := by
    intro c hc
    split at hc
    · exact (List.mem_singleton.1 hc) ▸ ha.1
    · cases hc
  have hget := hr.get ha.1 k
  unfold remove
  split
  · exact .refl hr hnothing
  next b hb =>
    rw [hb] at hget
    split
    next harray =>
      split
      · exact .refl hr hnothing
      · rw [hb, if_pos harray]
        exact .assignNew hr ha k (all_filtered hr hget.1 value)
    · exact .refl hr hnothing

lemma within_operate {op : DeltaOperation Val} (hr : r.Confined T) (ha : r.Inside T (.ref a))
    (hop : r.Inside T op.value) (hpos : ∀ b, op.value = .ref b → 0 < b.1) (k : String) :
    Realm.Within T r (operate op k a r).1 (operateTargets op k a r) := by
  unfold operate operateTargets
  cases op.op with
  | set => exact .assign hr ha k hop hpos
  | delete => exact .erase hr ha k
  | increment => exact within_increment hr ha op.value k
  | append => exact within_append hr ha hop k
  | remove => exact within_remove hr ha op.value k
  | other => exact .refl hr fun c hc => by cases hc

/-! ## The walk -/

variable {f : String → Address → Realm → Written Realm}
  {aim : String → Address → Realm → List Address}

lemma walk_cons_cons (f : String → Address → Realm → Written Realm) (k j : String)
    (ks : List String) (a : Address) (r : Realm) :
    walk f (k :: j :: ks) a r =
      match object? (r.get a k) with
      | some b => walk f (j :: ks) b r
      | none =>
        match r.assignNew a k .empty with
        | (r', some e) => (r', some e)
        | (r', none) =>
          match object? (r'.get a k) with
          | some b => walk f (j :: ks) b r'
          | none => (r', some .typeError) := rfl

lemma walkTargets_cons_cons (aim : String → Address → Realm → List Address) (k j : String)
    (ks : List String) (a : Address) (r : Realm) :
    walkTargets aim (k :: j :: ks) a r =
      match object? (r.get a k) with
      | some b => walkTargets aim (j :: ks) b r
      | none =>
        match r.assignNew a k .empty with
        | (_, some _) => [a]
        | (r', none) =>
          match object? (r'.get a k) with
          | some b => a :: walkTargets aim (j :: ks) b r'
          | none => [a] := rfl

/-- **A walk from an object of `T` writes objects of `T`.** -/
lemma within_walk (hf : ∀ {r : Realm} (k : String) (a : Address), r.Confined T →
      r.Inside T (.ref a) → r.Inside T value → Realm.Within T r (f k a r).1 (aim k a r))
    (path : List String) (hr : r.Confined T) (ha : r.Inside T (.ref a))
    (hvalue : r.Inside T value) :
    Realm.Within T r (walk f path a r).1 (walkTargets aim path a r) := by
  induction path generalizing a r with
  | nil => exact .refl hr fun c hc => by cases hc
  | cons k ks ih =>
    cases ks with
    | nil => exact hf k a hr ha hvalue
    | cons j ks =>
      rw [walk_cons_cons, walkTargets_cons_cons]
      have hempty : (Obj.empty : Obj Val).All (r.Inside T) := Obj.all_empty (Realm.inside_prim T r)
      cases hobject : object? (r.get a k) with
      | some b => exact ih hr (object?_inside (hr.get ha.1 k) hobject) hvalue
      | none =>
        rcases hassign : r.assignNew a k .empty with ⟨r', _ | e⟩
        · dsimp only
          cases hagain : object? (r'.get a k) with
          | some b =>
            apply within_assignNew_trans hr ha hempty (by rw [hassign])
            intro hr' hle hget
            exact ih hr' (object?_inside hget hagain) (hvalue.mono hle)
          | none =>
            apply within_assignNew_trans hr ha hempty (by rw [hassign])
            exact fun hr' _ _ => .refl hr' fun c hc => by cases hc
        · apply within_assignNew_trans hr ha hempty (by rw [hassign])
          exact fun hr' _ _ => .refl hr' fun c hc => by cases hc

/-- **An operation writes the objects it is aimed at, and no other ones there were.** -/
lemma within_applyOperation (hr : r.Confined T) (ha : r.Inside T (.ref a))
    {op : DeltaOperation Val} (hop : r.Inside T op.value)
    (hpos : ∀ b, op.value = .ref b → 0 < b.1) :
    Realm.Within T r (applyOperation r a op).1 (targets r a op) :=
  within_walk (fun k _ hr ha hop => within_operate hr ha hop hpos k) _ hr ha hop

end RealmMemory

end SyncEngine
