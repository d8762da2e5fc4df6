import SyncEngine.Js.Doc

/-!
# Property access

The primitive steps of reading and writing an object's own properties, over any type of
property values (`Slot`): `get`, `assign`, `erase`, and the array methods `push`, `elements`
and `removeAll` (`filter` with a test for inequality).  Arrays are objects with a length.
Writing an index at or past the length grows it, writing `length` truncates, and the steps that
JavaScript refuses in strict mode return the exception it throws.

An object here has own properties only.  A name that is found on a prototype holds a function
there, and reading a function differs from reading an absent property in none of the steps
below: neither is an object to walk into, an array, or a number.  The one exception is
`__proto__`, which this library treats as a name like any other.
-/

namespace Js

/-- The exceptions the steps below can throw. -/
inductive JsError
  | typeError
  | rangeError
  deriving DecidableEq

/-- What a property can hold: at least the primitives. -/
class Slot (α : Type) where
  prim : Prim → α
  prim? : α → Option Prim
  prim?_prim : ∀ p, prim? (prim p) = some p

attribute [simp] Slot.prim?_prim

instance : Slot Doc where
  prim := Doc.prim
  prim? d := match d.view with
    | .prim p => some p
    | .obj _ => none
  prim?_prim _ := rfl

@[simp] lemma Doc.slot_prim (p : Prim) : (Slot.prim p : Doc) = Doc.prim p := rfl

@[simp] lemma Doc.slot_prim?_obj (o : Obj Doc) : Slot.prim? (Doc.obj o) = none := rfl

/-- No property here: an absent name, or a hole of an array. -/
def isAbsent {α : Type} [Slot α] (v : α) : Bool := Slot.prim? v = some .absent

/-- The number a string of digits writes. -/
def digits? (cs : List Char) : Option ℕ :=
  if cs ≠ [] ∧ cs.all Char.isDigit then some (Nat.ofDigitChars 10 cs 0) else none

/-- The index an array index name stands for: a canonical decimal below `2 ^ 32 - 1`. -/
def arrayIndex (k : String) : Option ℕ :=
  match digits? k.toList with
  | some n => if toString n = k ∧ n < 4294967295 then some n else none
  | none => none

lemma digits?_toDigits (n : ℕ) : digits? (Nat.toDigits 10 n) = some n := by
  have hall : (Nat.toDigits 10 n).all Char.isDigit = true :=
    List.all_eq_true.mpr fun c hc => Nat.isDigit_of_mem_toDigits (by norm_num) le_rfl hc
  rw [digits?, if_pos ⟨Nat.toDigits_ne_nil, hall⟩, Nat.ofDigitChars_ten_toDigits]

lemma arrayIndex_toString {n : ℕ} (h : n < 4294967295) : arrayIndex (toString n) = some n := by
  simp [arrayIndex, digits?_toDigits, h]

lemma toString_of_arrayIndex {k : String} {n : ℕ} (h : arrayIndex k = some n) :
    k = toString n := by
  unfold arrayIndex at h
  split at h
  · split at h
    · rename_i hk
      cases h
      exact hk.1.symm
    · cases h
  · cases h

@[simp] lemma arrayIndex_length : arrayIndex "length" = none := by decide

namespace Obj

variable {α : Type}

/-- `Array.isArray(o)`. -/
def isArray (o : Obj α) : Bool := o.len.isSome

/-- Overwrite the property `k` where it stands. -/
def put (o : Obj α) (k : String) (v : α) : Obj α := ⟨o.len, Function.update o.props k v⟩

@[simp] lemma put_len (o : Obj α) (k : String) (v : α) : (o.put k v).len = o.len := rfl

@[simp] lemma put_props (o : Obj α) (k : String) (v : α) :
    (o.put k v).props = Function.update o.props k v := rfl

/-- The length after the property `k` has been written. -/
def grow (len : Option ℕ) (k : String) : Option ℕ :=
  len.map fun n => match arrayIndex k with
    | some i => max n (i + 1)
    | none => n

@[simp] lemma grow_grow (len : Option ℕ) (k : String) : grow (grow len k) k = grow len k := by
  cases len with
  | none => rfl
  | some n =>
      simp only [grow, Option.map_some, Option.some.injEq]
      cases arrayIndex k <;> simp

lemma grow_comm (len : Option ℕ) (j k : String) : grow (grow len j) k = grow (grow len k) j := by
  cases len with
  | none => rfl
  | some n =>
      simp only [grow, Option.map_some, Option.some.injEq]
      cases arrayIndex j <;> cases arrayIndex k <;> simp [max_right_comm]

@[simp] lemma isSome_grow (len : Option ℕ) (k : String) : (grow len k).isSome = len.isSome := by
  cases len <;> rfl

variable [Slot α]

/-- `{}`. -/
def empty : Obj α := ⟨none, fun _ => Slot.prim .absent⟩

/-- `[]`. -/
def emptyArray : Obj α := ⟨some 0, fun _ => Slot.prim .absent⟩

/-- `o[k]`. -/
def get (o : Obj α) (k : String) : α :=
  match o.len with
  | some n => if k = "length" then Slot.prim (.num n) else o.props k
  | none => o.props k

/-- `o.length = n` on an array. -/
def truncate (o : Obj α) (n : ℕ) : Obj α :=
  ⟨some n, fun k => match arrayIndex k with
    | some i => if n ≤ i then Slot.prim .absent else o.props k
    | none => o.props k⟩

/-- `o[k] = v`, where `asLength` is what `v` is as an array length. -/
def assign (o : Obj α) (k : String) (v : α) (asLength : Except JsError ℕ) :
    Except JsError (Obj α) :=
  if o.isArray ∧ k = "length" then asLength.map o.truncate
  else .ok ⟨grow o.len k, Function.update o.props k v⟩

/-- `delete o[k]`. -/
def erase (o : Obj α) (k : String) : Except JsError (Obj α) :=
  if o.isArray ∧ k = "length" then .error .typeError else .ok (o.put k (Slot.prim .absent))

/-- `o.push(v)` on an array. -/
def push (o : Obj α) (v : α) : Except JsError (Obj α) :=
  if isAbsent (o.props "push") then
    .ok ⟨o.len.map (· + 1), Function.update o.props (toString (o.len.getD 0)) v⟩
  else .error .typeError

/-- The elements of an array, holes left out. -/
def elements (o : Obj α) : List α :=
  ((List.range (o.len.getD 0)).map fun i => o.props (toString i)).filter fun v => !isAbsent v

/-- The array with the given elements. -/
def ofElements (l : List α) : Obj α :=
  ⟨some l.length, fun k => match arrayIndex k with
    | some i => l.getD i (Slot.prim .absent)
    | none => Slot.prim .absent⟩

/-- `o.filter(w => w !== v)` on an array, with `eq` the test `w === v`. -/
def removeAll (o : Obj α) (eq : α → Bool) : Except JsError (Obj α) :=
  if isAbsent (o.props "filter") then .ok (ofElements (o.elements.filter fun w => !eq w))
  else .error .typeError

/-- Away from the name `length` an assignment is an update of one property. -/
lemma assign_of_ne {o : Obj α} {k : String} (h : k ≠ "length") (v : α)
    (n : Except JsError ℕ) :
    o.assign k v n = .ok ⟨grow o.len k, Function.update o.props k v⟩ := by
  simp [assign, h]

/-! ## Arrays made of a list -/

lemma length_elements_le (o : Obj α) : o.elements.length ≤ o.len.getD 0 := by
  refine (List.length_filter_le _ _).trans ?_
  simp

/-- An array made of a list has the elements of the list, if none of them is missing. -/
lemma elements_ofElements {l : List α} (h : l.length ≤ (ofElements l).elements.length) :
    (ofElements l).elements = l := by
  have hlen : ((List.range l.length).map fun i => (ofElements l).props (toString i)).length =
      l.length := by simp
  have hall : (ofElements l).elements =
      (List.range l.length).map fun i => (ofElements l).props (toString i) := by
    refine List.filter_eq_self.2 (List.length_filter_eq_length_iff.1 ?_)
    exact le_antisymm (List.length_filter_le _ _) (hlen.le.trans h)
  rw [hall]
  refine List.ext_getElem hlen fun i hi hl => ?_
  rw [List.getElem_map, List.getElem_range]
  have hpresent : isAbsent ((ofElements l).props (toString i)) = false := by
    have hmem : (ofElements l).props (toString i) ∈ (ofElements l).elements := by
      rw [hall]
      exact List.mem_map.2 ⟨i, List.mem_range.2 hl, rfl⟩
    simpa using (List.mem_filter.1 hmem).2
  unfold ofElements at hpresent ⊢
  simp only at hpresent ⊢
  rcases hidx : arrayIndex (toString i) with - | j
  · rw [hidx] at hpresent
    simp [isAbsent] at hpresent
  · obtain rfl : i = j := Nat.repr_injective (toString_of_arrayIndex hidx)
    exact List.getD_eq_getElem _ _ hl

/-- It has them if they are there and are no more than an array has room for. -/
lemma elements_ofElements_of_le {l : List α} (hlen : l.length ≤ 4294967295)
    (hl : ∀ v ∈ l, isAbsent v = false) : (ofElements l).elements = l := by
  refine elements_ofElements (le_of_eq ?_)
  have hall : (ofElements l).elements =
      (List.range l.length).map fun i => (ofElements l).props (toString i) := by
    refine List.filter_eq_self.2 fun v hv => ?_
    obtain ⟨i, hi, rfl⟩ := List.mem_map.1 hv
    have hi : i < l.length := List.mem_range.1 hi
    have hvalue : (ofElements l).props (toString i) = l[i] := by
      unfold ofElements
      dsimp only
      rw [arrayIndex_toString (hi.trans_le hlen)]
      exact List.getD_eq_getElem _ _ hi
    rw [hvalue, hl _ (List.getElem_mem hi)]
    rfl
  rw [hall]
  simp

lemma eq_of_removeAll {o a : Obj α} {eq : α → Bool} (h : o.removeAll eq = .ok a) :
    a = ofElements (o.elements.filter fun w => !eq w) := by
  unfold removeAll at h
  split at h
  · exact (Except.ok.inj h).symm
  · simp at h

/-- Removing a value from an array a second time changes nothing. -/
lemma removeAll_removeAll {o a b : Obj α} {eq : α → Bool} (hlen : o.len.getD 0 ≤ 4294967295)
    (ha : o.removeAll eq = .ok a) (hb : a.removeAll eq = .ok b) : b = a := by
  have helements : a.elements = o.elements.filter fun w => !eq w := by
    rw [eq_of_removeAll ha]
    refine elements_ofElements_of_le ?_ fun v hv => ?_
    · exact (List.length_filter_le _ _).trans ((length_elements_le o).trans hlen)
    · have hpresent := (List.mem_filter.1 (List.mem_filter.1 hv).1).2
      simpa using hpresent
  rw [eq_of_removeAll hb, helements, List.filter_filter, eq_of_removeAll ha]
  simp

/-- Where removing a value twice gives back the array, removing it once does. -/
lemma eq_of_removeAll_removeAll {o a : Obj α} {eq : α → Bool} (ha : o.removeAll eq = .ok a)
    (ho : a.removeAll eq = .ok o) : a = o := by
  have ha' := eq_of_removeAll ha
  have ho' := eq_of_removeAll ho
  have hshrink : ∀ b : Obj α, (b.elements.filter fun w => !eq w).length ≤ b.elements.length :=
    fun b => List.length_filter_le _ _
  have hlena : a.len.getD 0 = (o.elements.filter fun w => !eq w).length := by rw [ha']; rfl
  have hleno : o.len.getD 0 = (a.elements.filter fun w => !eq w).length := by rw [ho']; rfl
  have h₁ := hshrink o
  have h₂ := hshrink a
  have h₃ := length_elements_le o
  have h₄ := length_elements_le a
  -- Nothing is removed, and there are no holes.
  have helements : o.elements = a.elements.filter fun w => !eq w := by
    conv_lhs => rw [ho']
    refine elements_ofElements ?_
    rw [← ho']
    omega
  have hkept : (o.elements.filter fun w => !eq w) = o.elements := by
    refine List.filter_eq_self.2 (List.length_filter_eq_length_iff.1 ?_)
    omega
  rw [ha', hkept, helements, ← ho']

end Obj

end Js
