import Mathlib

/-!
# Insertion-ordered maps

A JavaScript `Map` enumerates its entries in the order in which their keys were first set:
setting a key that is present rewrites its value where it stands, setting a new key appends an
entry, and deleting a key closes the gap.  `Js.Map` is that structure over arbitrary key and
value types, with the invariant that no key occurs twice carried as a field.

The laws a client needs are the lookup laws `get?_set` and `get?_delete`, the membership
bridge `mem_entries_iff`, and `entries_ofEntries`: rebuilding a map from a list with distinct
keys keeps the list.
-/

namespace Js

/-- A JavaScript `Map`: its entries in insertion order, one for each key. -/
structure Map (K V : Type) where
  entries : List (K × V)
  nodup : (entries.map Prod.fst).Nodup

namespace Map

variable {K V W : Type}

@[ext] lemma ext {m n : Map K V} (h : m.entries = n.entries) : m = n := by
  cases m; cases n; cases h; rfl

/-- `new Map()`. -/
def empty : Map K V := ⟨[], by simp⟩

/-- `map.keys()`. -/
def keys (m : Map K V) : List K := m.entries.map Prod.fst

/-- `map.values()`. -/
def values (m : Map K V) : List V := m.entries.map Prod.snd

/-- `map.size`. -/
def size (m : Map K V) : ℕ := m.entries.length

/-- Every value replaced by its image; keys and their order stay. -/
def mapValues (f : K → V → W) (m : Map K V) : Map K W :=
  ⟨m.entries.map fun e => (e.1, f e.1 e.2), by
    simpa [List.map_map, Function.comp_def] using m.nodup⟩

variable [DecidableEq K]

/-- The value stored first under `k` in an entry list. -/
def find (k : K) : List (K × V) → Option V
  | [] => none
  | e :: es => if e.1 = k then some e.2 else find k es

/-- `map.get(k)`. -/
def get? (m : Map K V) (k : K) : Option V := find k m.entries

/-- `map.has(k)`. -/
def has (m : Map K V) (k : K) : Bool := (m.get? k).isSome

/-- Rewrite the value stored under `k`. -/
def replace (k : K) (v : V) (es : List (K × V)) : List (K × V) :=
  es.map fun e => if e.1 = k then (k, v) else e

lemma map_fst_replace (k : K) (v : V) (es : List (K × V)) :
    (replace k v es).map Prod.fst = es.map Prod.fst := by
  rw [replace, List.map_map]
  refine List.map_congr_left fun e _ => ?_
  by_cases h : e.1 = k <;> simp [h]

/-- `map.set(k, v)`: in place when `k` is present, at the end otherwise. -/
def set (m : Map K V) (k : K) (v : V) : Map K V :=
  if h : k ∈ m.entries.map Prod.fst then
    ⟨replace k v m.entries, by rw [map_fst_replace]; exact m.nodup⟩
  else
    ⟨m.entries ++ [(k, v)], by
      rw [List.map_append, List.nodup_append]
      refine ⟨m.nodup, by simp, ?_⟩
      intro a ha b hb hab
      simp only [List.map_cons, List.map_nil, List.mem_singleton] at hb
      exact h (hb ▸ hab ▸ ha)⟩

/-- `map.delete(k)`. -/
def delete (m : Map K V) (k : K) : Map K V :=
  ⟨m.entries.filter fun e => e.1 ≠ k, m.nodup.sublist (List.filter_sublist.map _)⟩

/-- Write to the value under a key, if there is one. -/
def modify (m : Map K V) (k : K) (f : V → V) : Map K V :=
  match m.get? k with
  | some v => m.set k (f v)
  | none => m

/-- `new Map(list)`: the entries are set one after another. -/
def ofEntries (es : List (K × V)) : Map K V :=
  es.foldl (fun m e => m.set e.1 e.2) empty

/-! ## Lookup in entry lists -/

lemma find_eq_none {k : K} {es : List (K × V)} : find k es = none ↔ k ∉ es.map Prod.fst := by
  induction es with
  | nil => simp [find]
  | cons e es ih =>
      by_cases h : e.1 = k
      · simp [find, h]
      · simp only [find, if_neg h, ih, List.map_cons, List.mem_cons, not_or]
        exact ⟨fun hn => ⟨fun hk => h hk.symm, hn⟩, fun hn => hn.2⟩

lemma find_append (k : K) (es fs : List (K × V)) :
    find k (es ++ fs) = (find k es).or (find k fs) := by
  induction es with
  | nil => simp [find]
  | cons e es ih =>
      by_cases h : e.1 = k
      · simp [find, h]
      · simp [find, h, ih]

lemma find_replace_self {k : K} (v : V) {es : List (K × V)} (h : k ∈ es.map Prod.fst) :
    find k (replace k v es) = some v := by
  induction es with
  | nil => simp at h
  | cons e es ih =>
      have hcons : replace k v (e :: es) = (if e.1 = k then (k, v) else e) :: replace k v es := rfl
      by_cases hk : e.1 = k
      · simp [hcons, find, hk]
      · have hmem : k ∈ es.map Prod.fst := by
          rcases List.mem_cons.mp h with he | he
          · exact absurd he.symm hk
          · exact he
        simp [hcons, find, hk, ih hmem]

lemma find_replace_of_ne {k j : K} (v : V) (es : List (K × V)) (h : j ≠ k) :
    find j (replace k v es) = find j es := by
  induction es with
  | nil => rfl
  | cons e es ih =>
      have hcons : replace k v (e :: es) = (if e.1 = k then (k, v) else e) :: replace k v es := rfl
      have hkj : k ≠ j := h.symm
      by_cases hk : e.1 = k
      · simp [hcons, find, hk, hkj, ih]
      · simp [hcons, find, hk, ih]

lemma find_filter_ne (k j : K) (es : List (K × V)) :
    find j (es.filter fun e => e.1 ≠ k) = if j = k then none else find j es := by
  induction es with
  | nil => simp [find]
  | cons e es ih =>
      by_cases he : e.1 = k
      · rw [List.filter_cons_of_neg (by simp [he]), ih]
        by_cases hj : j = k
        · simp [hj]
        · have : ¬ e.1 = j := fun h => hj (h ▸ he)
          simp [hj, find, this]
      · rw [List.filter_cons_of_pos (by simp [he])]
        by_cases hj : j = k
        · subst hj
          simp only [find, if_neg he, ih]
        · simp only [find, ih, if_neg hj]

lemma find_map_snd (f : K → V → W) (k : K) (es : List (K × V)) :
    find k (es.map fun e => (e.1, f e.1 e.2)) = (find k es).map (f k) := by
  induction es with
  | nil => simp [find]
  | cons e es ih =>
      by_cases h : e.1 = k
      · simp [find, h]
      · simp [find, h, ih]

lemma find_eq_some_of_mem {k : K} {v : V} {es : List (K × V)}
    (hn : (es.map Prod.fst).Nodup) (h : (k, v) ∈ es) : find k es = some v := by
  induction es with
  | nil => cases h
  | cons e es ih =>
      rw [List.map_cons, List.nodup_cons] at hn
      rcases List.mem_cons.mp h with rfl | h
      · simp [find]
      · have hne : e.1 ≠ k := by
          rintro rfl
          exact hn.1 (List.mem_map.mpr ⟨(e.1, v), h, rfl⟩)
        rw [find, if_neg hne]
        exact ih hn.2 h

lemma mem_of_find_eq_some {k : K} {v : V} {es : List (K × V)} (h : find k es = some v) :
    (k, v) ∈ es := by
  induction es with
  | nil => cases h
  | cons e es ih =>
      by_cases he : e.1 = k
      · rw [find, if_pos he, Option.some.injEq] at h
        subst he; subst h
        exact List.mem_cons_self
      · rw [find, if_neg he] at h
        exact List.mem_cons_of_mem _ (ih h)

/-! ## The laws of the map operations -/

@[simp] lemma get?_empty (k : K) : (empty : Map K V).get? k = none := rfl

lemma get?_set (m : Map K V) (k j : K) (v : V) :
    (m.set k v).get? j = if j = k then some v else m.get? j := by
  unfold set get?
  split
  next h =>
    by_cases hj : j = k
    · rw [if_pos hj, hj]
      exact find_replace_self v h
    · rw [if_neg hj]
      exact find_replace_of_ne v _ hj
  next h =>
    rw [find_append]
    by_cases hj : j = k
    · subst hj
      simp [find_eq_none.mpr h, find]
    · have hkj : ¬ k = j := fun hk => hj hk.symm
      simp [find, hj, hkj]

@[simp] lemma get?_set_self (m : Map K V) (k : K) (v : V) : (m.set k v).get? k = some v := by
  simp [get?_set]

@[simp] lemma get?_set_of_ne (m : Map K V) {k j : K} (v : V) (h : j ≠ k) :
    (m.set k v).get? j = m.get? j := by
  simp [get?_set, h]

lemma get?_delete (m : Map K V) (k j : K) :
    (m.delete k).get? j = if j = k then none else m.get? j :=
  find_filter_ne k j m.entries

@[simp] lemma get?_delete_self (m : Map K V) (k : K) : (m.delete k).get? k = none := by
  simp [get?_delete]

@[simp] lemma get?_delete_of_ne (m : Map K V) {k j : K} (h : j ≠ k) :
    (m.delete k).get? j = m.get? j := by
  simp [get?_delete, h]

lemma get?_modify (m : Map K V) (k j : K) (f : V → V) :
    (m.modify k f).get? j = if j = k then (m.get? k).map f else m.get? j := by
  unfold modify
  rcases h : m.get? k with - | v
  · by_cases hj : j = k
    · simp [hj, h]
    · simp [hj]
  · simp [get?_set]

lemma has_set (m : Map K V) (k j : K) (v : V) :
    (m.set k v).has j = if j = k then true else m.has j := by
  unfold has
  rw [get?_set]
  split <;> rfl

lemma has_delete (m : Map K V) (k j : K) :
    (m.delete k).has j = if j = k then false else m.has j := by
  unfold has
  rw [get?_delete]
  split <;> rfl

/-- Writing to one value again and again. -/
lemma get?_modify_iterate (k j : K) (f : V → V) (n : ℕ) (m : Map K V) :
    ((fun m : Map K V => m.modify k f)^[n] m).get? j =
      if j = k then (m.get? k).map f^[n] else m.get? j := by
  induction n generalizing m with
  | zero =>
    rw [Function.iterate_zero_apply, Function.iterate_zero, Option.map_id_fun, id_eq]
    split
    next hj => rw [hj]
    · rfl
  | succ n ih =>
    rw [Function.iterate_succ_apply, ih, get?_modify, get?_modify, if_pos rfl, Option.map_map,
      ← Function.iterate_succ]
    split <;> rfl

@[simp] lemma get?_mapValues (f : K → V → W) (m : Map K V) (k : K) :
    (m.mapValues f).get? k = (m.get? k).map (f k) :=
  find_map_snd f k m.entries

lemma mapValues_set (f : V → W) (m : Map K V) (k : K) (v : V) :
    (m.set k v).mapValues (fun _ => f) = (m.mapValues fun _ => f).set k (f v) := by
  have hkeys : ((m.mapValues fun _ => f).entries.map Prod.fst) = m.entries.map Prod.fst := by
    simp [mapValues, List.map_map, Function.comp_def]
  apply ext
  by_cases h : k ∈ m.entries.map Prod.fst
  · have h' : k ∈ (m.mapValues fun _ => f).entries.map Prod.fst := hkeys ▸ h
    simp only [set, dif_pos h, dif_pos h']
    simp only [mapValues, replace, List.map_map]
    refine List.map_congr_left fun e _ => ?_
    by_cases he : e.1 = k <;> simp [he]
  · have h' : k ∉ (m.mapValues fun _ => f).entries.map Prod.fst := hkeys ▸ h
    simp only [set, dif_neg h, dif_neg h']
    simp only [mapValues, List.map_append, List.map_cons, List.map_nil]

lemma mapValues_congr {f g : V → W} {m : Map K V} (h : ∀ k v, m.get? k = some v → f v = g v) :
    (m.mapValues fun _ => f) = m.mapValues fun _ => g := by
  apply ext
  apply List.map_congr_left
  rintro ⟨k, v⟩ he
  exact congrArg (Prod.mk k) (h k v (find_eq_some_of_mem m.nodup he))

/-- To change what one value is mapped to is to set its key. -/
lemma mapValues_update [DecidableEq V] {m : Map K V} {k : K} {v : V} (h : m.get? k = some v)
    (honly : ∀ j, m.get? j = some v → j = k) (f : V → W) (w : W) :
    (m.mapValues fun _ => Function.update f v w) = (m.mapValues fun _ => f).set k w := by
  have hmem : k ∈ (m.mapValues fun _ => f).entries.map Prod.fst := by
    by_contra hk
    have hnone : (m.mapValues fun _ => f).get? k = none := find_eq_none.2 hk
    rw [get?_mapValues, h] at hnone
    cases hnone
  apply ext
  rw [set, dif_pos hmem]
  simp only [mapValues, replace, List.map_map]
  apply List.map_congr_left
  rintro ⟨j, u⟩ he
  have hj : m.get? j = some u := find_eq_some_of_mem m.nodup he
  by_cases hjk : j = k
  · subst hjk
    obtain rfl : u = v := Option.some.inj (hj.symm.trans h)
    simp
  · have huv : u ≠ v := by
      rintro rfl
      exact hjk (honly j hj)
    simp [hjk, Function.update_of_ne huv]

lemma mapValues_delete (f : V → W) (m : Map K V) (k : K) :
    (m.delete k).mapValues (fun _ => f) = (m.mapValues fun _ => f).delete k := by
  apply ext
  simp only [mapValues, delete, List.filter_map]
  rfl

lemma mapValues_modify (f : V → W) (m : Map K V) (k : K) {g : V → V} {g' : W → W}
    (h : ∀ v, f (g v) = g' (f v)) :
    (m.modify k g).mapValues (fun _ => f) = (m.mapValues fun _ => f).modify k g' := by
  unfold modify
  rw [get?_mapValues]
  cases m.get? k with
  | none => rfl
  | some v =>
    rw [Option.map_some]
    dsimp only
    rw [← h, mapValues_set]

omit [DecidableEq K] in
lemma values_mapValues (f : V → W) (m : Map K V) :
    (m.mapValues fun _ => f).values = m.values.map f := by
  simp only [values, mapValues, List.map_map, Function.comp_def]

omit [DecidableEq K] in
lemma size_mapValues (f : V → W) (m : Map K V) : (m.mapValues fun _ => f).size = m.size :=
  List.length_map _

lemma mem_entries_iff (m : Map K V) (k : K) (v : V) :
    (k, v) ∈ m.entries ↔ m.get? k = some v :=
  ⟨find_eq_some_of_mem m.nodup, mem_of_find_eq_some⟩

lemma mem_keys_iff (m : Map K V) (k : K) : k ∈ m.keys ↔ (m.get? k).isSome := by
  rw [keys, ← not_iff_not, ← find_eq_none, get?]
  simp

lemma get?_eq_none_iff (m : Map K V) (k : K) : m.get? k = none ↔ k ∉ m.keys := by
  rw [mem_keys_iff, Option.not_isSome_iff_eq_none]

lemma mem_values_iff (m : Map K V) (v : V) : v ∈ m.values ↔ ∃ k, m.get? k = some v := by
  constructor
  · intro h
    obtain ⟨⟨k, w⟩, he, rfl⟩ := List.mem_map.mp h
    exact ⟨k, (mem_entries_iff m k w).mp he⟩
  · rintro ⟨k, h⟩
    exact List.mem_map.mpr ⟨(k, v), (mem_entries_iff m k v).mpr h, rfl⟩

lemma keys_set_of_mem (m : Map K V) {k : K} (v : V) (h : k ∈ m.keys) :
    (m.set k v).keys = m.keys := by
  have h' : k ∈ m.entries.map Prod.fst := h
  simp only [set, dif_pos h', keys, map_fst_replace]

lemma keys_set_of_not_mem (m : Map K V) {k : K} (v : V) (h : k ∉ m.keys) :
    (m.set k v).keys = m.keys ++ [k] := by
  have h' : k ∉ m.entries.map Prod.fst := h
  simp only [set, dif_neg h', keys, List.map_append, List.map_cons, List.map_nil]

@[simp] lemma keys_modify (m : Map K V) (k : K) (f : V → V) : (m.modify k f).keys = m.keys := by
  unfold modify
  split
  next h => exact keys_set_of_mem m _ ((mem_keys_iff m k).2 (by rw [h]; rfl))
  next => rfl

omit [DecidableEq K] in
lemma nodup_keys (m : Map K V) : m.keys.Nodup := m.nodup

omit [DecidableEq K] in
lemma size_eq_length_keys (m : Map K V) : m.size = m.keys.length := List.length_map _ |>.symm

lemma keys_delete (m : Map K V) (k : K) : (m.delete k).keys = m.keys.erase k := by
  rw [m.nodup_keys.erase_eq_filter, keys, keys, List.filter_map]
  simp only [delete, ne_eq, decide_not, Function.comp_def, bne, Bool.beq_eq_decide_eq]

lemma entries_set_of_not_mem (m : Map K V) {k : K} (v : V) (h : k ∉ m.keys) :
    (m.set k v).entries = m.entries ++ [(k, v)] := by
  have h' : k ∉ m.entries.map Prod.fst := h
  simp only [set, dif_neg h']

/-- Setting a key that is present rewrites its value where it stands. -/
lemma entries_set_of_split {m : Map K V} {k : K} {v : V} {l r : List (K × V)}
    (h : m.entries = l ++ (k, v) :: r) (w : V) : (m.set k w).entries = l ++ (k, w) :: r := by
  have hnodup := m.nodup
  rw [h, List.map_append, List.map_cons, List.nodup_append] at hnodup
  obtain ⟨-, hr, hl⟩ := hnodup
  have hmem : k ∈ m.entries.map Prod.fst := by simp [h]
  have hkeep : ∀ es : List (K × V), (∀ e ∈ es, e.1 ≠ k) → replace k w es = es := fun es hes =>
    (List.map_congr_left fun e he => if_neg (hes e he)).trans (List.map_id es)
  have hleft : ∀ e ∈ l, e.1 ≠ k := fun e he => hl e.1 (List.mem_map_of_mem he) k (by simp)
  have hright : ∀ e ∈ r, e.1 ≠ k := by
    rintro e he rfl
    exact (List.nodup_cons.mp hr).1 (List.mem_map.mpr ⟨e, he, rfl⟩)
  have hset : (m.set k w).entries = replace k w m.entries := by
    simp only [set, dif_pos hmem]
  calc (m.set k w).entries
      = replace k w l ++ (if k = k then (k, w) else (k, v)) :: replace k w r := by
        rw [hset, h]
        simp [replace]
    _ = l ++ (k, w) :: r := by rw [hkeep l hleft, hkeep r hright, if_pos rfl]

/-- To set a key to the value it has changes nothing. -/
lemma set_eq_self {m : Map K V} {k : K} {v : V} (h : m.get? k = some v) : m.set k v = m := by
  obtain ⟨l, r, hsplit⟩ := List.append_of_mem ((mem_entries_iff m k v).2 h)
  exact ext ((entries_set_of_split hsplit v).trans hsplit.symm)

/-- A sum over the values when one of them is rewritten. -/
lemma sum_values_set (f : V → ℕ) {m : Map K V} {k : K} {v : V} (h : m.get? k = some v) (w : V) :
    ((m.set k w).values.map f).sum + f v = (m.values.map f).sum + f w := by
  obtain ⟨l, r, hsplit⟩ := List.append_of_mem ((mem_entries_iff m k v).2 h)
  simp only [values, entries_set_of_split hsplit, hsplit, List.map_append, List.map_cons,
    List.sum_append, List.sum_cons]
  omega

/-- A sum over the values when one of them is new. -/
lemma sum_values_set_of_not_mem (f : V → ℕ) {m : Map K V} {k : K} (h : k ∉ m.keys) (w : V) :
    ((m.set k w).values.map f).sum = (m.values.map f).sum + f w := by
  simp [values, entries_set_of_not_mem m w h]

omit [DecidableEq K] in
/-- **A loop over the entries that a map had.**  Every turn keeps the invariant where it finds of
its own entry what it needs, and a turn at one key leaves what is needed at the others. -/
lemma foldl_invariant {S : Type} {f : S → K × V → S} {Inv : S → Prop} {Here : S → K × V → Prop}
    (hstep : ∀ s e, Inv s → Here s e → Inv (f s e))
    (hothers : ∀ s e e', Inv s → Here s e → e'.1 ≠ e.1 → Here s e' → Here (f s e) e')
    {es : List (K × V)} (hnodup : (es.map Prod.fst).Nodup) {s : S} (hs : Inv s)
    (hhere : ∀ e ∈ es, Here s e) : Inv (es.foldl f s) := by
  induction es generalizing s with
  | nil => exact hs
  | cons e es ih =>
      rw [List.map_cons, List.nodup_cons] at hnodup
      have he := hhere e List.mem_cons_self
      refine ih hnodup.2 (hstep s e hs he) fun e' he' => ?_
      have hne : e'.1 ≠ e.1 := fun heq => hnodup.1 (heq ▸ List.mem_map_of_mem he')
      exact hothers s e e' hs he hne (hhere e' (List.mem_cons_of_mem e he'))

lemma foldl_set_entries (es : List (K × V)) (m : Map K V)
    (h : ((m.entries ++ es).map Prod.fst).Nodup) :
    (es.foldl (fun m e => m.set e.1 e.2) m).entries = m.entries ++ es := by
  induction es generalizing m with
  | nil => simp
  | cons e es ih =>
      have hmem : e.1 ∉ m.keys := by
        rw [List.map_append, List.nodup_append] at h
        intro hk
        exact h.2.2 e.1 hk e.1 (by simp) rfl
      have hset := entries_set_of_not_mem m e.2 hmem
      rw [List.foldl_cons, ih, hset]
      · simp
      · rw [hset]
        simpa using h

/-- Rebuilding a map from a list of entries with distinct keys keeps the list. -/
@[simp] lemma entries_ofEntries {es : List (K × V)} (h : (es.map Prod.fst).Nodup) :
    (ofEntries es).entries = es := by
  have := foldl_set_entries es (empty : Map K V) (by simpa [empty] using h)
  simpa [ofEntries, empty] using this

lemma get?_ofEntries {es : List (K × V)} (h : (es.map Prod.fst).Nodup) (k : K) :
    (ofEntries es).get? k = find k es := by
  rw [get?, entries_ofEntries h]

/-- A loop that deletes the entries of a kind. -/
lemma get?_foldl_delete (p : K × V → Bool) (m : Map K V) (k : K) :
    (m.entries.foldl (fun m e => if p e then m.delete e.1 else m) m).get? k =
      (m.get? k).filter fun v => !p (k, v) := by
  have hloop : ∀ (es : List (K × V)) (n : Map K V),
      (es.foldl (fun m e => if p e then m.delete e.1 else m) n).get? k =
        if es.any fun e => decide (e.1 = k) && p e then none else n.get? k := by
    intro es
    induction es with
    | nil => exact fun n => rfl
    | cons e es ih =>
      intro n
      rw [List.foldl_cons, ih, List.any_cons]
      cases hp : p e with
      | false => rw [Bool.and_false, Bool.false_or, if_neg Bool.false_ne_true]
      | true =>
        rw [Bool.and_true, if_pos rfl, get?_delete]
        by_cases hk : e.1 = k
        · rw [decide_eq_true hk, Bool.true_or, if_pos rfl, if_pos hk.symm, ite_self]
        · rw [decide_eq_false hk, Bool.false_or, if_neg (Ne.symm hk)]
  have hany : (m.entries.any fun e => decide (e.1 = k) && p e) =
      (m.get? k).any fun v => p (k, v) := by
    rw [Bool.eq_iff_iff, List.any_eq_true, Option.any_eq_true]
    constructor
    · rintro ⟨e, he, hboth⟩
      obtain ⟨hk, hp⟩ := Bool.and_eq_true_iff.1 hboth
      obtain rfl := of_decide_eq_true hk
      exact ⟨e.2, (mem_entries_iff m e.1 e.2).1 he, hp⟩
    · rintro ⟨v, hv, hp⟩
      exact ⟨(k, v), (mem_entries_iff m k v).2 hv, by simpa using hp⟩
  rw [hloop, hany]
  cases m.get? k with
  | none => rfl
  | some v =>
    rw [Option.any_some, Option.filter_some]
    cases p (k, v) <;> rfl

end Map

end Js
