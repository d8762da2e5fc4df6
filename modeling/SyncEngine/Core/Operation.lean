import SyncEngine.Core.Types

/-!
# One operation on a data object

What `StateManager.applyOperation` and `StateSynchronizer.applyOperationToData` do to a data
object, on documents.  Both walk to the last path segment and act there (`Obj.walk`); they
differ in the act.  The first performs all five operations, the second only `set` and `delete`.

An element of an operations array that comes from a client is a document of any shape;
`DeltaOperation.ofElement` is what the first line of `applyOperation` makes of it.
-/

namespace SyncEngine

open Js

/-- The sum `(Number(current) || 0) + (Number(value) || 1)`. -/
def incremented (current value : Doc) : Except JsError ℚ :=
  match current.numberOr 0, value.numberOr 1 with
  | .ok a, .ok b => .ok (a + b)
  | .error e, _ => .error e
  | _, .error e => .error e

/-- `o[k].push(v)` where `o[k]` holds the array `a`. -/
def pushAt (o : Obj Doc) (k : String) (a : Obj Doc) (v : Doc) : Written (Obj Doc) :=
  attempt o ((a.push v).map fun a' => o.put k (.obj a'))

/-- The switch of `StateManager.applyOperation`, at the object the walk ended at. -/
def operate (op : DeltaOperation Doc) (k : String) (o : Obj Doc) : Written (Obj Doc) :=
  match op.op with
  | .set => attempt o (o.assign k op.value op.value.toArrayLength)
  | .delete => attempt o (o.erase k)
  | .increment =>
    match incremented (o.get k) op.value with
    | .error e => (o, some e)
    | .ok q => attempt o (o.assign k (.prim (.num q)) (Doc.prim (.num q)).toArrayLength)
  | .append =>
    match (o.get k).view with
    | .obj ⟨some n, ps⟩ => pushAt o k ⟨some n, ps⟩ op.value
    | _ =>
      match o.assign k (.obj .emptyArray) (Doc.obj .emptyArray).toArrayLength with
      | .error e => (o, some e)
      | .ok o' =>
        -- On the name `length` of an array the empty array was stored as the number `0`.
        match (o'.get k).view with
        | .obj ⟨some n, ps⟩ => pushAt o' k ⟨some n, ps⟩ op.value
        | _ => (o', some .typeError)
  | .remove =>
    match (o.get k).view with
    | .obj ⟨some n, ps⟩ =>
      match (Obj.mk (some n) ps).removeAll (Doc.strictEq op.value) with
      | .error e => (o, some e)
      | .ok a => (o.put k (.obj a), none)
    | _ => (o, none)
  | .other => (o, none)

/-- The last two lines of `StateSynchronizer.applyOperationToData`. -/
def operateToData (op : DeltaOperation Doc) (k : String) (o : Obj Doc) : Written (Obj Doc) :=
  match op.op with
  | .set => attempt o (o.assign k op.value op.value.toArrayLength)
  | .delete => attempt o (o.erase k)
  | _ => (o, none)

/-- `StateManager.applyOperation` on the contents of the data object. -/
def applyOperation (op : DeltaOperation Doc) (o : Obj Doc) : Written (Obj Doc) :=
  o.walk (operate op) (splitPath op.path)

/-- `StateSynchronizer.applyOperationToData` on the contents of the data object. -/
def applyOperationToData (op : DeltaOperation Doc) (o : Obj Doc) : Written (Obj Doc) :=
  o.walk (operateToData op) (splitPath op.path)

/-! ## Loops -/

/-- A loop that writes for each item and stops at the first exception. -/
def forEachWrite {σ ι : Type} (write : ι → σ → Written σ) : List ι → σ → Written σ
  | [], s => (s, none)
  | i :: is, s =>
    match write i s with
    | (s', none) => forEachWrite write is s'
    | (s', some e) => (s', some e)

lemma forEachWrite_append {σ ι : Type} (write : ι → σ → Written σ) (is js : List ι) (s : σ) :
    forEachWrite write (is ++ js) s =
      match forEachWrite write is s with
      | (s', none) => forEachWrite write js s'
      | (s', some e) => (s', some e) := by
  induction is generalizing s with
  | nil => rfl
  | cons i is ih =>
      simp only [List.cons_append, forEachWrite]
      rcases write i s with ⟨s', _ | e⟩
      · exact ih s'
      · rfl

lemma forEachWrite_cons_ok {σ ι : Type} {write : ι → σ → Written σ} {i : ι} {is : List ι} {s : σ}
    (h : (write i s).2 = none) :
    forEachWrite write (i :: is) s = forEachWrite write is (write i s).1 := by
  rw [forEachWrite]
  rcases hw : write i s with ⟨s', _ | e⟩
  · rfl
  · rw [hw] at h
    cases h

lemma ok_of_forEachWrite_cons {σ ι : Type} {write : ι → σ → Written σ} {i : ι} {is : List ι}
    {s : σ} (h : (forEachWrite write (i :: is) s).2 = none) : (write i s).2 = none := by
  rw [forEachWrite] at h
  rcases hw : write i s with ⟨s', _ | e⟩
  · rfl
  · rw [hw] at h
    cases h

lemma forEachWrite_append_ok {σ ι : Type} {write : ι → σ → Written σ} {is js : List ι} {s : σ}
    (h : (forEachWrite write is s).2 = none) :
    forEachWrite write (is ++ js) s = forEachWrite write js (forEachWrite write is s).1 := by
  rw [forEachWrite_append]
  rcases hw : forEachWrite write is s with ⟨s', _ | e⟩
  · rfl
  · rw [hw] at h
    cases h

lemma ok_of_forEachWrite_append {σ ι : Type} {write : ι → σ → Written σ} {is js : List ι} {s : σ}
    (h : (forEachWrite write (is ++ js) s).2 = none) : (forEachWrite write is s).2 = none := by
  rw [forEachWrite_append] at h
  rcases hw : forEachWrite write is s with ⟨s', _ | e⟩
  · rfl
  · rw [hw] at h
    cases h

/-- What every step of a loop keeps, the loop keeps. -/
lemma forEachWrite_invariant {σ ι : Type} {write : ι → σ → Written σ} {I : σ → Prop} {is : List ι}
    (h : ∀ i ∈ is, ∀ s, I s → I (write i s).1) {s : σ} (hs : I s) :
    I (forEachWrite write is s).1 := by
  induction is generalizing s with
  | nil => exact hs
  | cons i is ih =>
    have hi := h i (by simp) s hs
    rw [forEachWrite]
    rcases hw : write i s with ⟨s', _ | e⟩
    · rw [hw] at hi
      exact ih (fun j hj => h j (by simp [hj])) hi
    · rw [hw] at hi
      exact hi

/-- A loop whose steps do nothing does nothing. -/
lemma forEachWrite_eq_self {σ ι : Type} {write : ι → σ → Written σ} {is : List ι} {s : σ}
    (h : ∀ i ∈ is, write i s = (s, none)) : forEachWrite write is s = (s, none) := by
  induction is with
  | nil => rfl
  | cons i is ih =>
    have hi := h i (by simp)
    rw [forEachWrite_cons_ok (by rw [hi]), hi]
    exact ih fun j hj => h j (by simp [hj])

/-! ## Elements of an operations array -/

/-- The kind an element's field `op` selects in the switch. -/
def OperationKind.ofNode (n : Node) : OperationKind :=
  if n = .prim (.str "set") then .set
  else if n = .prim (.str "delete") then .delete
  else if n = .prim (.str "increment") then .increment
  else if n = .prim (.str "append") then .append
  else if n = .prim (.str "remove") then .remove
  else .other

/-- The value of a property read, which is `undefined` where there is no property. -/
def orUndefined (d : Doc) : Doc := if isAbsent d then .prim .undefined else d

/-- Read an element as an operation.  `op.path` throws on `null` and `undefined`, and
`op.path.split` throws where the field is not a string. -/
def DeltaOperation.ofElement (e : Doc) : Except JsError (DeltaOperation Doc) :=
  match e.node ["path"] with
  | .prim (.str path) => .ok ⟨.ofNode (e.node ["op"]), path, orUndefined (e.child "value")⟩
  | _ => .error .typeError

/-- `applyOperation` on an element of any shape. -/
def applyElement (e : Doc) (o : Obj Doc) : Written (Obj Doc) :=
  match DeltaOperation.ofElement e with
  | .error err => (o, some err)
  | .ok op => applyOperation op o

end SyncEngine
