import SyncEngine.Js.Number

/-!
# The JSON round trip

`JSON.parse(JSON.stringify(v))` as a map on documents: a property that is undefined is left
out, an array element that is undefined or a hole becomes `null`, and what an array holds under
other names than its indices is dropped.  `Obj.IsJson` is the class of objects that survive the
round trip, and `json_json` says that one trip is enough to enter it.
-/

namespace Js

/-- A primitive after the round trip, as an array element or as a property. -/
def Prim.json (element : Bool) : Prim → Prim
  | .absent | .undefined => if element then .null else .absent
  | p => p

/-- The name `k` is an index of an array of length `n`. -/
def isElement (n : ℕ) (k : String) : Bool :=
  match arrayIndex k with
  | some i => i < n
  | none => false

/-- What the round trip visits at property `k`: the value there, and whether it is an element. -/
def jsonChild (o : Obj Doc) (k : String) : Bool × Doc :=
  match o.len with
  | none => (false, o.props k)
  | some n => if isElement n k then (true, o.props k) else (false, .prim .absent)

/-- One layer of the round trip. -/
def jsonStep : Bool × Doc → Layer (Bool × Doc)
  | (element, d) => match d.view with
    | .prim p => .prim (p.json element)
    | .obj o => .obj ⟨o.len, jsonChild o⟩

/-- `JSON.parse(JSON.stringify(v))` for a property value. -/
def Doc.json (d : Doc) : Doc := Doc.unfold jsonStep (false, d)

/-- `JSON.parse(JSON.stringify(o))`. -/
def Obj.json (o : Obj Doc) : Obj Doc :=
  ⟨o.len, fun k => Doc.unfold jsonStep (jsonChild o k)⟩

/-- The object is unchanged by the round trip. -/
def Obj.IsJson (o : Obj Doc) : Prop := o.json = o

lemma Prim.json_json (b : Bool) (p : Prim) : (p.json b).json b = p.json b := by
  cases p <;> cases b <;> rfl

lemma unfold_jsonStep_prim (b : Bool) (p : Prim) :
    Doc.unfold jsonStep (b, .prim p) = .prim (p.json b) :=
  Doc.unfold_of_prim _ rfl

lemma unfold_jsonStep_obj (b : Bool) (o : Obj Doc) :
    Doc.unfold jsonStep (b, .obj o) = .obj o.json :=
  Doc.unfold_of_obj jsonStep (s := (b, .obj o)) (o := ⟨o.len, jsonChild o⟩) rfl

@[simp] lemma Doc.json_prim (p : Prim) : (Doc.prim p).json = .prim (p.json false) :=
  unfold_jsonStep_prim false p

@[simp] lemma Doc.json_obj (o : Obj Doc) : (Doc.obj o).json = .obj o.json :=
  unfold_jsonStep_obj false o

/-- The round trip visits a round-tripped object's property in the same way. -/
lemma jsonChild_json (o : Obj Doc) (k : String) :
    jsonChild o.json k = ((jsonChild o k).1, Doc.unfold jsonStep (jsonChild o k)) := by
  unfold jsonChild
  cases h : o.len with
  | none => simp [Obj.json, h, jsonChild]
  | some n =>
      by_cases he : isElement n k
      · simp [Obj.json, h, jsonChild, he]
      · simp [Obj.json, h, he, unfold_jsonStep_prim, Prim.json]

/-- One round trip is enough. -/
lemma unfold_jsonStep_idem (b : Bool) (d : Doc) :
    Doc.unfold jsonStep (b, Doc.unfold jsonStep (b, d)) = Doc.unfold jsonStep (b, d) := by
  ext p
  induction p generalizing b d with
  | nil =>
      cases d with
      | prim x => simp [unfold_jsonStep_prim, Prim.json_json]
      | obj o => simp [unfold_jsonStep_obj, Obj.json]
  | cons k q ih =>
      cases d with
      | prim x => simp [unfold_jsonStep_prim]
      | obj o =>
          rw [unfold_jsonStep_obj, unfold_jsonStep_obj, Doc.obj_node_cons, Doc.obj_node_cons]
          have h : (o.json.json).props k =
              Doc.unfold jsonStep ((jsonChild o k).1, Doc.unfold jsonStep (jsonChild o k)) := by
            rw [← jsonChild_json]; rfl
          rw [h]
          exact ih (jsonChild o k).1 (jsonChild o k).2

@[simp] lemma Obj.json_json (o : Obj Doc) : o.json.json = o.json := by
  have h := unfold_jsonStep_idem false (.obj o)
  rw [unfold_jsonStep_obj, unfold_jsonStep_obj] at h
  exact Doc.obj_injective h

lemma Obj.isJson_empty : (Obj.empty : Obj Doc).IsJson := by
  refine Obj.ext rfl (funext fun k => ?_)
  exact unfold_jsonStep_prim false .absent

end Js
