import SyncEngine.Js.Map

/-!
# Documents

The value of a JavaScript expression that holds data, seen from outside, is a tree: a
primitive, or an object whose properties are values again.  `Doc` is that tree, given by what
is found at every property path, so that two documents are equal exactly when no path tells
them apart.  In particular the order in which properties were added is not part of a document.

A document is also the *unfolding* of a graph of objects.  `Layer` is one level of such a graph
— a primitive, or an object with a child at each property — and `Doc.unfold` reads a whole
document off any state space with a layer map.  `Doc.view` and `Doc.ofLayer` make a document
and its top layer the same thing (`view_ofLayer`, `ofLayer_view`), and `view_unfold` is the
computation rule of an unfolding.  Object graphs with sharing, and trees held by value, are
both read this way.

Three conventions.  A property that an object does not have holds the primitive `absent`, which
no program value is; arrays are objects that carry a length, with their elements under the
decimal index names; numbers are exact rationals, so the rounding of doubles and the values
`NaN` and `Infinity` are not represented as numbers.
-/

namespace Js

/-- The primitive values, with `absent` for a property that is not there. -/
inductive Prim
  | absent
  | undefined
  | null
  | bool (b : Bool)
  | num (q : ℚ)
  | str (s : String)
  deriving DecidableEq

/-- An object over a type of property values: `len` is the length of an array and `none` for a
plain object. -/
@[ext] structure Obj (α : Type) where
  len : Option ℕ
  props : String → α

/-- One level of an object graph: a primitive, or an object with its children. -/
inductive Layer (α : Type)
  | prim (p : Prim)
  | obj (o : Obj α)

/-- What is found at one path: a primitive, or an object with its length if it is an array. -/
inductive Node
  | prim (p : Prim)
  | obj (len : Option ℕ)
  deriving DecidableEq

variable {α β : Type}

/-- Map the children of an object. -/
def Obj.map (f : α → β) (o : Obj α) : Obj β := ⟨o.len, fun k => f (o.props k)⟩

@[simp] lemma Obj.map_len (f : α → β) (o : Obj α) : (o.map f).len = o.len := rfl

@[simp] lemma Obj.map_props (f : α → β) (o : Obj α) (k : String) :
    (o.map f).props k = f (o.props k) := rfl

/-- Map the children of a layer. -/
def Layer.map (f : α → β) : Layer α → Layer β
  | .prim p => .prim p
  | .obj o => .obj (o.map f)

@[simp] lemma Layer.map_prim (f : α → β) (p : Prim) : (Layer.prim p).map f = .prim p := rfl

@[simp] lemma Layer.map_obj (f : α → β) (o : Obj α) : (Layer.obj o).map f = .obj (o.map f) := rfl

/-- The node a layer shows at its root. -/
def Layer.node : Layer α → Node
  | .prim p => .prim p
  | .obj o => .obj o.len

/-- A document: the node at every path, with nothing below a primitive. -/
structure Doc where
  node : List String → Node
  leaf : ∀ p q x, node p = .prim x → q ≠ [] → node (p ++ q) = .prim .absent

namespace Doc

@[ext] lemma ext {c d : Doc} (h : ∀ p, c.node p = d.node p) : c = d := by
  cases c; cases d
  congr
  exact funext h

/-- The document below property `k`. -/
def child (d : Doc) (k : String) : Doc where
  node q := d.node (k :: q)
  leaf p q x h hq := by simpa using d.leaf (k :: p) q x h hq

@[simp] lemma child_node (d : Doc) (k : String) (q : List String) :
    (d.child k).node q = d.node (k :: q) := rfl

/-- The node at a path of the document with a given top layer. -/
def layerNode (l : Layer Doc) : List String → Node
  | [] => l.node
  | k :: q => match l with
    | .prim _ => .prim .absent
    | .obj o => (o.props k).node q

/-- The document with a given top layer. -/
def ofLayer (l : Layer Doc) : Doc where
  node := layerNode l
  leaf p q x h hq := by
    obtain ⟨k, q, rfl⟩ := List.exists_cons_of_ne_nil hq
    cases l with
    | prim y =>
        cases p with
        | nil => rfl
        | cons j p => rfl
    | obj o =>
        cases p with
        | nil => cases h
        | cons j p => exact (o.props j).leaf p (k :: q) x h hq

/-- A primitive as a document. -/
def prim (p : Prim) : Doc := ofLayer (.prim p)

/-- An object as a document. -/
def obj (o : Obj Doc) : Doc := ofLayer (.obj o)

@[simp] lemma prim_node_nil (p : Prim) : (prim p).node [] = .prim p := rfl

@[simp] lemma prim_node_cons (p : Prim) (k : String) (q : List String) :
    (prim p).node (k :: q) = .prim .absent := rfl

@[simp] lemma obj_node_nil (o : Obj Doc) : (obj o).node [] = .obj o.len := rfl

@[simp] lemma obj_node_cons (o : Obj Doc) (k : String) (q : List String) :
    (obj o).node (k :: q) = (o.props k).node q := rfl

/-- The top layer of a document. -/
def view (d : Doc) : Layer Doc :=
  match d.node [] with
  | .prim p => .prim p
  | .obj len => .obj ⟨len, d.child⟩

@[simp] lemma view_prim (p : Prim) : (prim p).view = .prim p := rfl

@[simp] lemma view_obj (o : Obj Doc) : (obj o).view = .obj o := rfl

lemma view_ofLayer (l : Layer Doc) : (ofLayer l).view = l := by
  cases l <;> rfl

lemma ofLayer_view (d : Doc) : ofLayer d.view = d := by
  ext p
  unfold view
  cases hd : d.node [] with
  | prim x =>
      cases p with
      | nil => simp [ofLayer, layerNode, Layer.node, hd]
      | cons k q => simpa [ofLayer, layerNode] using (d.leaf [] (k :: q) x hd (by simp)).symm
  | obj len =>
      cases p with
      | nil => simp [ofLayer, layerNode, Layer.node, hd]
      | cons k q => simp [ofLayer, layerNode]

lemma eq_prim_of_view {d : Doc} {p : Prim} (h : d.view = .prim p) : d = prim p := by
  rw [← ofLayer_view d, h]; rfl

lemma eq_obj_of_view {d : Doc} {o : Obj Doc} (h : d.view = .obj o) : d = obj o := by
  rw [← ofLayer_view d, h]; rfl

/-- Every document is a primitive or an object. -/
@[elab_as_elim, cases_eliminator] lemma cases_layer {motive : Doc → Prop}
    (prim : ∀ p, motive (prim p)) (obj : ∀ o, motive (obj o)) (d : Doc) : motive d := by
  cases h : d.view with
  | prim p => rw [eq_prim_of_view h]; exact prim p
  | obj o => rw [eq_obj_of_view h]; exact obj o

lemma prim_injective {p q : Prim} (h : prim p = prim q) : p = q := by
  have := congrArg (fun d => d.node []) h
  simpa using this

lemma obj_injective {o u : Obj Doc} (h : obj o = obj u) : o = u := by
  have := congrArg view h
  simpa using this

@[simp] lemma prim_inj {p q : Prim} : prim p = prim q ↔ p = q :=
  ⟨prim_injective, congrArg prim⟩

@[simp] lemma obj_inj {o u : Obj Doc} : obj o = obj u ↔ o = u :=
  ⟨obj_injective, congrArg obj⟩

@[simp] lemma prim_ne_obj (p : Prim) (o : Obj Doc) : prim p ≠ obj o := fun h => by
  have := congrArg view h
  simp at this

@[simp] lemma obj_ne_prim (p : Prim) (o : Obj Doc) : obj o ≠ prim p := (prim_ne_obj p o).symm

/-! ## Unfolding a graph -/

section Unfold

variable {S : Type} (step : S → Layer S)

/-- The node met from state `s` along a path. -/
def unfoldNode : S → List String → Node
  | s, [] => (step s).node
  | s, k :: q => match step s with
    | .prim _ => .prim .absent
    | .obj o => unfoldNode (o.props k) q

lemma unfoldNode_leaf (s : S) (p q : List String) (x : Prim)
    (h : unfoldNode step s p = .prim x) (hq : q ≠ []) :
    unfoldNode step s (p ++ q) = .prim .absent := by
  obtain ⟨k, q, rfl⟩ := List.exists_cons_of_ne_nil hq
  induction p generalizing s with
  | nil =>
      simp only [unfoldNode, List.nil_append] at h ⊢
      cases hs : step s with
      | prim y => rfl
      | obj o => rw [hs] at h; cases h
  | cons j p ih =>
      simp only [unfoldNode, List.cons_append] at h ⊢
      cases hs : step s with
      | prim y => rfl
      | obj o =>
          rw [hs] at h
          exact ih _ h

/-- **The unfolding of a graph at a state.** -/
def unfold (s : S) : Doc := ⟨unfoldNode step s, unfoldNode_leaf step s⟩

/-- The computation rule of an unfolding: its top layer is the state's layer, with the
children unfolded. -/
lemma view_unfold (s : S) : (unfold step s).view = (step s).map (unfold step) := by
  unfold view
  simp only [unfold, unfoldNode]
  cases hs : step s with
  | prim p => rfl
  | obj o =>
      simp only [Layer.node, Layer.map_obj, Layer.obj.injEq]
      refine Obj.ext rfl (funext fun k => ?_)
      ext q
      simp [child, unfoldNode, hs, unfold]

lemma unfold_of_prim {s : S} {p : Prim} (h : step s = .prim p) : unfold step s = prim p :=
  eq_prim_of_view (by rw [view_unfold, h]; rfl)

lemma unfold_of_obj {s : S} {o : Obj S} (h : step s = .obj o) :
    unfold step s = obj (o.map (unfold step)) :=
  eq_obj_of_view (by rw [view_unfold, h]; rfl)

end Unfold

end Doc

end Js
