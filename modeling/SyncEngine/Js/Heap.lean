import SyncEngine.Js.Number

/-!
# Objects by reference

A `Heap` holds every object at an address, with properties that are primitives or addresses: one
object can be a property of many others.  `doc` reads a document off the heap.

A value reads the same in two heaps that agree on the objects it reaches (`doc_congr`).  A heap is
`Closed` if the objects made so far refer to such objects only; then whatever is made later is out
of reach (`Reach.allocated`).
-/

namespace Js

/-- Which object text or literal an object was made from, and its path inside the text. -/
abbrev Address := ℕ × List String

inductive Val
  | prim (p : Prim)
  | ref (a : Address)
  deriving DecidableEq

instance : Slot Val where
  prim := .prim
  prim?
    | .prim p => some p
    | .ref _ => none
  prim?_prim _ := rfl

/-- The object that a value is. -/
def Val.address? : Val → Option Address
  | .prim _ => none
  | .ref a => some a

@[simp] lemma Val.slot_prim (p : Prim) : (Slot.prim p : Val) = .prim p := rfl

/-! ## Objects whose properties all satisfy something -/

namespace Obj

variable {α : Type} [Slot α] {P : α → Prop} {o : Obj α}

/-- Every property of the object satisfies `P`. -/
def All {α : Type} (P : α → Prop) (o : Obj α) : Prop := ∀ k, P (o.props k)

variable (hprim : ∀ p, P (Slot.prim p))

include hprim

lemma All.get (h : o.All P) (k : String) : P (o.get k) := by
  unfold Obj.get
  split
  · split
    · exact hprim _
    · exact h k
  · exact h k

lemma All.truncate (h : o.All P) (n : ℕ) : (o.truncate n).All P := by
  intro k
  dsimp only [Obj.truncate]
  split
  · split
    · exact hprim _
    · exact h k
  · exact h k

omit [Slot α] hprim in
lemma All.update (h : o.All P) (len : Option ℕ) (k : String) {v : α} (hv : P v) :
    (Obj.mk len (Function.update o.props k v)).All P := by
  intro j
  show P (Function.update o.props k v j)
  by_cases hj : j = k
  · rw [hj, Function.update_self]
    exact hv
  · rw [Function.update_of_ne hj]
    exact h j

lemma All.assign (h : o.All P) {k : String} {v : α} (hv : P v) {asLength : Except JsError ℕ}
    {o' : Obj α} (ho' : o.assign k v asLength = .ok o') : o'.All P := by
  unfold Obj.assign at ho'
  split at ho'
  · cases asLength with
    | error e => cases ho'
    | ok n =>
      obtain rfl := Except.ok.inj ho'
      exact h.truncate hprim n
  · obtain rfl := Except.ok.inj ho'
    exact h.update _ k hv

lemma All.erase (h : o.All P) {k : String} {o' : Obj α} (ho' : o.erase k = .ok o') : o'.All P := by
  unfold Obj.erase at ho'
  split at ho'
  · cases ho'
  · obtain rfl := Except.ok.inj ho'
    exact h.update _ k (hprim _)

omit hprim in
lemma All.push (h : o.All P) {v : α} (hv : P v) {o' : Obj α} (ho' : o.push v = .ok o') :
    o'.All P := by
  unfold Obj.push at ho'
  split at ho'
  · obtain rfl := Except.ok.inj ho'
    exact h.update _ _ hv
  · cases ho'

lemma all_ofElements {l : List α} (h : ∀ v ∈ l, P v) : (Obj.ofElements l).All P := by
  intro k
  dsimp only [Obj.ofElements]
  split
  next i _ =>
    rw [List.getD_eq_getElem?_getD]
    cases hi : l[i]? with
    | none => exact hprim _
    | some v => exact h v (List.mem_of_getElem? hi)
  next => exact hprim _

lemma All.removeAll (h : o.All P) {eq : α → Bool} {o' : Obj α} (ho' : o.removeAll eq = .ok o') :
    o'.All P := by
  unfold Obj.removeAll at ho'
  split at ho'
  · obtain rfl := Except.ok.inj ho'
    apply all_ofElements hprim
    intro v hv
    obtain ⟨i, -, rfl⟩ := List.mem_map.1 (List.mem_filter.1 (List.mem_filter.1 hv).1).1
    exact h _
  · cases ho'

lemma all_empty : (Obj.empty : Obj α).All P := fun _ => hprim _

lemma all_emptyArray : (Obj.emptyArray : Obj α).All P := fun _ => hprim _

end Obj

/-! ## The heap -/

/-- The objects made so far are those at addresses that begin below `next`. -/
structure Heap where
  next : ℕ
  obj : Address → Obj Val

namespace Heap

def empty : Heap := ⟨0, fun _ => .empty⟩

/-- The object that a value refers to. -/
def layer (h : Heap) : Val → Layer Val
  | .prim p => .prim p
  | .ref a => .obj (h.obj a)

/-- What a value is, seen from outside. -/
def doc (h : Heap) (v : Val) : Doc := Doc.unfold h.layer v

/-- The contents of an object. -/
def read (h : Heap) (a : Address) : Obj Doc := (h.obj a).map h.doc

@[simp] lemma doc_prim (h : Heap) (p : Prim) : h.doc (.prim p) = .prim p :=
  Doc.unfold_of_prim h.layer rfl

@[simp] lemma doc_ref (h : Heap) (a : Address) : h.doc (.ref a) = .obj (h.read a) :=
  Doc.unfold_of_obj h.layer rfl

def write (h : Heap) (a : Address) (o : Obj Val) : Heap :=
  { h with obj := Function.update h.obj a o }

/-- A new object. -/
def place (h : Heap) (o : Obj Val) : Address × Heap :=
  ((h.next, []), ⟨h.next + 1, Function.update h.obj (h.next, []) o⟩)

/-- The value at a path of a text. -/
def textVal (n : ℕ) (d : Doc) (p : List String) : Val :=
  match d.node p with
  | .prim x => .prim x
  | .obj _ => .ref (n, p)

/-- The object at a path of a text. -/
def textObj (n : ℕ) (d : Doc) (p : List String) : Obj Val where
  len := match d.node p with
    | .prim _ => none
    | .obj len => len
  props k := textVal n d (p ++ [k])

/-- An object made from a JSON text, with all the objects below it. -/
def parse (h : Heap) (o : Obj Doc) : Address × Heap :=
  ((h.next, []),
    ⟨h.next + 1, fun a => if a.1 = h.next then textObj h.next (.obj o) a.2 else h.obj a⟩)

/-- A value made from a JSON text. -/
def parseValue (h : Heap) (d : Doc) : Val × Heap :=
  match d.view with
  | .prim p => (.prim p, h)
  | .obj o => (.ref (h.parse o).1, (h.parse o).2)

/-! ## What a value reaches -/

/-- The objects that can be reached from a value. -/
inductive Reach (h : Heap) : Val → Address → Prop
  | here (a : Address) : Reach h (.ref a) a
  | step {a b : Address} (k : String) (hb : Reach h ((h.obj a).props k) b) : Reach h (.ref a) b

variable {h h' : Heap}

/-- An object of primitives reaches itself only. -/
lemma Reach.eq_of_prims {a b : Address} (hreach : Reach h (.ref a) b)
    (hprims : ∀ k, ∃ p, (h.obj a).props k = .prim p) : b = a := by
  cases hreach with
  | here => rfl
  | step k hb =>
    obtain ⟨p, hp⟩ := hprims k
    rw [hp] at hb
    cases hb

/-- **A value reads the same where the objects it reaches are the same.** -/
lemma doc_congr {v : Val} (hsame : ∀ a, Reach h v a → h'.obj a = h.obj a) :
    h'.doc v = h.doc v := by
  have hnode : ∀ (p : List String) (v : Val), (∀ a, Reach h v a → h'.obj a = h.obj a) →
      Doc.unfoldNode h'.layer v p = Doc.unfoldNode h.layer v p := by
    intro p
    induction p with
    | nil =>
      intro v hv
      cases v with
      | prim x => rfl
      | ref a =>
        show (Layer.obj (h'.obj a)).node = (Layer.obj (h.obj a)).node
        rw [hv a (.here a)]
    | cons k p ih =>
      intro v hv
      cases v with
      | prim x => rfl
      | ref a =>
        show Doc.unfoldNode h'.layer ((h'.obj a).props k) p =
          Doc.unfoldNode h.layer ((h.obj a).props k) p
        rw [hv a (.here a)]
        exact ih _ fun b hb => hv b (.step k hb)
  ext p
  show Doc.unfoldNode h'.layer v p = Doc.unfoldNode h.layer v p
  exact hnode p v hsame

/-- What is reached the same way is reached in the other heap. -/
lemma Reach.congr {v : Val} {b : Address} (hreach : Reach h' v b)
    (hsame : ∀ a, Reach h v a → h'.obj a = h.obj a) : Reach h v b := by
  induction hreach with
  | here a => exact .here a
  | step k hb ih =>
    rename_i a b
    rw [hsame a (.here a)] at hb ih
    exact .step k (ih fun c hc => hsame c (.step k hc))

/-! ## Objects made so far -/

/-- The value refers to no object that is yet to be made. -/
def Allocated (h : Heap) : Val → Prop
  | .prim _ => True
  | .ref a => a.1 < h.next

instance (h : Heap) : DecidablePred h.Allocated := fun
  | .prim _ => isTrue trivial
  | .ref a => Nat.decLt a.1 h.next

/-- The objects refer to objects made so far. -/
def Closed (h : Heap) : Prop := ∀ a : Address, (h.obj a).All h.Allocated

lemma allocated_prim (h : Heap) (p : Prim) : h.Allocated (Slot.prim p) := trivial

lemma Reach.allocated {v : Val} {a : Address} (hreach : Reach h v a) (hclosed : h.Closed)
    (hv : h.Allocated v) : a.1 < h.next := by
  induction hreach with
  | here a => exact hv
  | step k _ ih => exact ih (hclosed _ k)

lemma Allocated.mono {v : Val} (hv : h.Allocated v) (hle : h.next ≤ h'.next) : h'.Allocated v := by
  cases v with
  | prim p => trivial
  | ref a => exact lt_of_lt_of_le hv hle

lemma closed_empty : empty.Closed := fun _ _ => trivial

/-! ## What a piece of code may write -/

/-- Of the objects there were, only the one at `target` may have been written. -/
structure Effect (h h' : Heap) (target : Option Address) : Prop where
  next_le : h.next ≤ h'.next
  closed : h'.Closed
  frame : ∀ c : Address, c.1 < h.next → target ≠ some c → h'.obj c = h.obj c

variable {t : Option Address}

lemma Effect.refl (hclosed : h.Closed) (t : Option Address) : Effect h h t where
  next_le := le_rfl
  closed := hclosed
  frame _ _ _ := rfl

lemma Effect.of_none (heffect : Effect h h' none) (t : Option Address) : Effect h h' t where
  next_le := heffect.next_le
  closed := heffect.closed
  frame c hc _ := heffect.frame c hc (Option.some_ne_none c).symm

/-- What is written after is written at the same object, or at one that was not there before. -/
lemma Effect.trans {h'' : Heap} {t' : Option Address} (hfirst : Effect h h' t)
    (hthen : Effect h' h'' t') (ht : ∀ c : Address, t' = some c → c.1 < h.next → t = some c) :
    Effect h h'' t where
  next_le := hfirst.next_le.trans hthen.next_le
  closed := hthen.closed
  frame c hc hne := by
    have hthen' : h''.obj c = h'.obj c :=
      hthen.frame c (lt_of_lt_of_le hc hfirst.next_le) fun heq => hne (ht c heq hc)
    exact hthen'.trans (hfirst.frame c hc hne)

lemma effect_write (hclosed : h.Closed) (a : Address) {o : Obj Val} (ho : o.All h.Allocated) :
    Effect h (h.write a o) (some a) where
  next_le := le_rfl
  closed c := by
    show (Function.update h.obj a o c).All h.Allocated
    by_cases hca : c = a
    · rw [hca, Function.update_self]
      exact ho
    · rw [Function.update_of_ne hca]
      exact hclosed c
  frame c _ hne := by
    apply Function.update_of_ne
    rintro rfl
    exact hne rfl

lemma effect_place (hclosed : h.Closed) {o : Obj Val} (ho : o.All h.Allocated) :
    Effect h (h.place o).2 none where
  next_le := Nat.le_succ _
  closed c k := by
    show Allocated (h.place o).2 ((Function.update h.obj (h.next, []) o c).props k)
    by_cases hca : c = (h.next, [])
    · rw [hca, Function.update_self]
      exact (ho k).mono (Nat.le_succ _)
    · rw [Function.update_of_ne hca]
      exact (hclosed c k).mono (Nat.le_succ _)
  frame c hc _ := by
    apply Function.update_of_ne
    rintro rfl
    exact lt_irrefl _ hc

lemma allocated_textObj (n : ℕ) (d : Doc) (p : List String) (hn : n < h.next) :
    (textObj n d p).All h.Allocated := by
  intro k
  show h.Allocated (textVal n d (p ++ [k]))
  unfold textVal
  cases d.node (p ++ [k]) with
  | prim x => trivial
  | obj len => exact hn

lemma effect_parse (hclosed : h.Closed) (o : Obj Doc) : Effect h (h.parse o).2 none where
  next_le := Nat.le_succ _
  closed c := by
    show (if c.1 = h.next then textObj h.next (.obj o) c.2 else h.obj c).All (h.parse o).2.Allocated
    split
    · exact allocated_textObj _ _ _ (Nat.lt_succ_self _)
    · exact fun k => (hclosed c k).mono (Nat.le_succ _)
  frame c hc _ := if_neg hc.ne

lemma effect_parseValue (hclosed : h.Closed) (d : Doc) : Effect h (h.parseValue d).2 none := by
  unfold parseValue
  split
  · exact .refl hclosed none
  · exact effect_parse hclosed _

lemma allocated_parseValue (h : Heap) (d : Doc) :
    (h.parseValue d).2.Allocated (h.parseValue d).1 := by
  unfold parseValue
  split
  · trivial
  · exact Nat.lt_succ_self h.next

/-- **What was reached before reads the same, unless what it reaches was written.** -/
lemma Effect.doc_eq (heffect : Effect h h' t) (hclosed : h.Closed) {v : Val} (hv : h.Allocated v)
    (hspared : ∀ b, Reach h v b → t ≠ some b) : h'.doc v = h.doc v := by
  apply doc_congr
  intro b hb
  exact heffect.frame b (hb.allocated hclosed hv) (hspared b hb)

/-! ## Texts -/

/-- **An object made from a text reads as the text.** -/
lemma read_parse (h : Heap) (o : Obj Doc) : (h.parse o).2.read (h.parse o).1 = o := by
  set d := Doc.obj o
  have hnode : ∀ q p, Doc.unfoldNode (h.parse o).2.layer (textVal h.next d p) q =
      d.node (p ++ q) := by
    intro q
    induction q with
    | nil =>
      intro p
      rw [List.append_nil]
      cases hp : d.node p with
      | prim x => simp [textVal, hp, Doc.unfoldNode, layer, Layer.node]
      | obj len => simp [textVal, hp, Doc.unfoldNode, layer, Layer.node, parse, textObj, d]
    | cons k q ih =>
      intro p
      cases hp : d.node p with
      | prim x =>
        rw [d.leaf p (k :: q) x hp (List.cons_ne_nil k q)]
        simp [textVal, hp, Doc.unfoldNode, layer]
      | obj len =>
        have hk := ih (p ++ [k])
        rw [List.append_assoc, List.singleton_append] at hk
        rw [← hk]
        rw [textVal, hp]
        simp [Doc.unfoldNode, layer, parse, textObj, d]
  have hdoc : (h.parse o).2.doc (.ref (h.parse o).1) = d := by
    ext q
    exact hnode q []
  rw [doc_ref] at hdoc
  exact Doc.obj_injective hdoc

/-- **A value made from a text reads as the text.** -/
lemma doc_parseValue (h : Heap) (d : Doc) : (h.parseValue d).2.doc (h.parseValue d).1 = d := by
  cases d with
  | prim p => simp [parseValue]
  | obj o =>
    simp only [parseValue, Doc.view_obj, doc_ref, read_parse]

end Heap

end Js
