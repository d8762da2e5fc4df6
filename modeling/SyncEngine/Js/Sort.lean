import SyncEngine.Js.Object

/-!
# Stable sorting

`Array.prototype.sort` with a numeric comparison of keys (`sortOn`), and without a comparison
on an array of strings (`sortNames`).  Both are stable, so they are insertion sorts.  What a
client uses is that the result is the sorted permutation, that it is determined by the
permutation class when the keys are distinct (`sortOn_eq_of_perm`), and that dropping a name
commutes with sorting (`sortNames_filter`).

An object enumerates its properties with the array index names first, in ascending order, and
the others in the order they were added.  `Map.asObject` is what a map of properties becomes
when it is written as an object and enumerated again.
-/

namespace Js

variable {α β : Type}

/-- `l.sort((a, b) => key(a) - key(b))`. -/
def sortOn (key : α → ℕ) (l : List α) : List α := l.insertionSort fun a b => key a ≤ key b

/-- `names.sort()`. -/
def sortNames (l : List String) : List String := l.insertionSort (· ≤ ·)

lemma sortOn_perm (key : α → ℕ) (l : List α) : (sortOn key l).Perm l :=
  List.perm_insertionSort _ l

lemma pairwise_sortOn (key : α → ℕ) (l : List α) :
    (sortOn key l).Pairwise fun a b => key a ≤ key b := by
  have : Std.Total fun a b : α => key a ≤ key b := ⟨fun a b => le_total _ _⟩
  have : IsTrans α fun a b : α => key a ≤ key b := ⟨fun _ _ _ => le_trans⟩
  exact List.pairwise_insertionSort _ l

lemma sortOn_eq_self {key : α → ℕ} {l : List α} (h : l.Pairwise fun a b => key a ≤ key b) :
    sortOn key l = l :=
  h.insertionSort_eq

/-- A list with strictly increasing keys is what sorting any of its permutations gives. -/
lemma sortOn_eq_of_perm {key : α → ℕ} {l m : List α} (hp : l.Perm m)
    (hm : m.Pairwise fun a b => key a < key b) : sortOn key l = m := by
  have hm' : m.Pairwise fun a b => key a ≤ key b := hm.imp le_of_lt
  refine List.Perm.eq_of_pairwise ?_ (pairwise_sortOn key l) hm' ((sortOn_perm key l).trans hp)
  intro a b ha hb hab hba
  have hnodup : (m.map key).Nodup := by
    rw [List.nodup_iff_pairwise_ne, List.pairwise_map]
    exact hm.imp ne_of_lt
  have ha' : a ∈ m := hp.mem_iff.mp ((sortOn_perm key l).mem_iff.mp ha)
  exact List.inj_on_of_nodup_map hnodup ha' hb (le_antisymm hab hba)

lemma sortNames_perm (l : List String) : (sortNames l).Perm l :=
  List.perm_insertionSort _ l

lemma pairwise_sortNames (l : List String) : (sortNames l).Pairwise (· ≤ ·) :=
  List.pairwise_insertionSort _ l

@[simp] lemma mem_sortNames {l : List String} {f : String} : f ∈ sortNames l ↔ f ∈ l :=
  (sortNames_perm l).mem_iff

lemma sortNames_eq_of_perm {l m : List String} (hp : l.Perm m) (hm : m.Pairwise (· ≤ ·)) :
    sortNames l = m :=
  List.Perm.eq_of_pairwise' (pairwise_sortNames l) hm ((sortNames_perm l).trans hp)

lemma sortNames_filter (p : String → Bool) (l : List String) :
    sortNames (l.filter p) = (sortNames l).filter p :=
  sortNames_eq_of_perm ((sortNames_perm l).symm.filter p) ((pairwise_sortNames l).filter p)

/-! ## The order of an object's properties -/

/-- The name is an array index. -/
def isIndex (k : String) : Bool := (arrayIndex k).isSome

/-- The properties of an object in the order of their enumeration. -/
def enumerate {V : Type} (es : List (String × V)) : List (String × V) :=
  sortOn (fun e => (arrayIndex e.1).getD 0) (es.filter fun e => isIndex e.1) ++
    es.filter fun e => !isIndex e.1

lemma enumerate_perm {V : Type} (es : List (String × V)) : (enumerate es).Perm es := by
  have hsort := sortOn_perm (fun e : String × V => (arrayIndex e.1).getD 0)
    (es.filter fun e => isIndex e.1)
  have hsplit := List.filter_append_perm (fun e : String × V => isIndex e.1) es
  unfold enumerate
  exact (List.Perm.append_right _ hsort).trans hsplit

namespace Map

variable {V : Type}

/-- `new Map(Object.entries(Object.fromEntries(map)))`. -/
def asObject (m : Map String V) : Map String V :=
  ⟨enumerate m.entries, ((enumerate_perm m.entries).map Prod.fst).nodup_iff.mpr m.nodup⟩

/-- Only the order changes. -/
@[simp] lemma get?_asObject (m : Map String V) (k : String) : m.asObject.get? k = m.get? k := by
  ext v
  rw [← mem_entries_iff, ← mem_entries_iff, asObject, (enumerate_perm m.entries).mem_iff]

end Map

end Js
