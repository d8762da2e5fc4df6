import SyncEngine.Core.OperationLaws
import SyncEngine.Js.Sort

/-!
# The delta compressor

`src/sync/delta-compressor.ts`: the deltas of a batch are grouped by entity, and the operations
of an entity with several deltas are collapsed into one operation for each path.  Collapsing
keeps a map from paths to operations.  An operation on a new path is added at the end.  An
operation on a path that has an entry takes the entry's place, or is added up with it; the
second `append` or `remove` on a path gets an entry of its own, under a key made from its path,
kind and value.

What is collapsed is performed in the order of the entries, so an operation that is folded into
an entry is moved ahead of all the entries after it.  `Collapsible` lists what an operation must
satisfy to survive the move, and `collapseOperations_sound` is the result: what the collapsed
operations do to a document is what the operations do.
-/

namespace SyncEngine

open Js

/-- What the compressor sees of the values that operations carry: the document, the JSON text,
and the value that a number is. -/
structure ValueView (V : Type) where
  doc : V → Doc
  text : V → String
  number : ℚ → V
  doc_number : ∀ q, doc (number q) = .prim (.num q)

namespace DeltaCompressor

variable {V : Type} (view : ValueView V)

/-- The key of a second `append` or `remove` on a path. -/
def ownKey (op : DeltaOperation V) : String :=
  op.path ++ ":" ++ op.op.name ++ ":" ++ view.text op.value

/-- The body of the loop of `collapseOperations`. -/
def collapseStep (pathOps : Js.Map String (DeltaOperation V)) (op : DeltaOperation V) :
    Except JsError (Js.Map String (DeltaOperation V)) :=
  match pathOps.get? op.path with
  | none => .ok (pathOps.set op.path op)
  | some existing =>
    match op.op with
    | .set => .ok (pathOps.set op.path op)
    | .delete => .ok (pathOps.set op.path op)
    | .increment =>
      if existing.op = .increment ∨ existing.op = .set then
        (incremented (view.doc existing.value) (view.doc op.value)).map fun q =>
          pathOps.set op.path { existing with value := view.number q }
      else .ok (pathOps.set op.path op)
    | .append => .ok (pathOps.set (ownKey view op) op)
    | .remove => .ok (pathOps.set (ownKey view op) op)
    | .other => .ok pathOps

def collapseOperations (operations : List (DeltaOperation V)) :
    Except JsError (List (DeltaOperation V)) :=
  (operations.foldlM (collapseStep view) .empty).map Js.Map.values

def mergeEntityDeltas (deltas : List (StateDelta V)) : Except JsError (Option (StateDelta V)) :=
  match sortOn (fun d => d.timestamp) deltas with
  | [] => .ok none
  | first :: rest =>
    let last := (first :: rest).getLast (by simp)
    (collapseOperations view ((first :: rest).flatMap fun d => d.operations)).map fun mergedOps =>
      some ⟨first.entityId, first.fromVersion, last.toVersion, mergedOps, last.timestamp⟩

/-- The deltas of each entity, in the order in which the entities first occur. -/
def groupDeltas (deltas : List (StateDelta V)) : Js.Map EntityId (List (StateDelta V)) :=
  deltas.foldl (fun grouped delta =>
    grouped.set delta.entityId ((grouped.get? delta.entityId).getD [] ++ [delta])) .empty

/-- What the deltas of one entity become. -/
def compressGroup (entityDeltas : List (StateDelta V)) : Except JsError (List (StateDelta V)) :=
  match entityDeltas with
  | [delta] => .ok [delta]
  | _ => (mergeEntityDeltas view entityDeltas).map Option.toList

def compress (deltas : List (StateDelta V)) : Except JsError (List (StateDelta V)) :=
  if deltas.length ≤ 1 then .ok deltas
  else ((groupDeltas deltas).values.mapM (compressGroup view)).map List.flatten

/-! ## When collapsing is sound -/

/-- Operations as document operations. -/
def docs (ops : List (DeltaOperation V)) : List (DeltaOperation Doc) :=
  ops.map fun op => op.map view.doc

/-- The operations before the first one on a path. -/
def before (path : String) (ops : List (DeltaOperation V)) : List (DeltaOperation V) :=
  ops.takeWhile fun c => c.path ≠ path

/-- The operations after the first one on a path. -/
def since (path : String) (ops : List (DeltaOperation V)) : List (DeltaOperation V) :=
  (ops.dropWhile fun c => c.path ≠ path).tail

/-- The operations on a path. -/
def onPath (path : String) (ops : List (DeltaOperation V)) : List (DeltaOperation V) :=
  ops.filter fun c => c.path = path

/-- The operation `c` of the list is an `append` or `remove` that is not the first operation on
its path. -/
def Owns (ops : List (DeltaOperation V)) (c : DeltaOperation V) : Prop :=
  ∃ l r, ops = l ++ c :: r ∧ c.path ∈ l.map (·.path) ∧ (c.op = .append ∨ c.op = .remove)

/-- The operation may be moved to the place of the first one on its path: what came since is on
paths that part from its own, or is an entry of that path. -/
def Moves (pre : List (DeltaOperation V)) (op : DeltaOperation V) : Prop :=
  ∀ c ∈ since op.path pre, Part (splitPath c.path) (splitPath op.path) ∨
    c.path = op.path ∧ c.op ≠ .append ∧ c.op ≠ .remove

/-- What an `increment` adds. -/
def amount (op : DeltaOperation V) : ℚ :=
  match (view.doc op.value).numberOr 1 with
  | .ok q => q
  | .error _ => 1

/-- What several increments add. -/
def total (ops : List (DeltaOperation V)) : ℚ := (ops.map (amount view)).sum

/-- The first operation carries a number other than zero. -/
def Counts (ops : List (DeltaOperation V)) : Prop :=
  ∃ c q, ops.head? = some c ∧ (view.doc c.value).numberOr 0 = .ok q ∧ q ≠ 0

/-- The last operation that is no `increment`. -/
def base (ops : List (DeltaOperation V)) : Option (DeltaOperation V) :=
  ops.reverse.find? fun c => c.op ≠ .increment

/-- An `increment` adds up with the operations on its path: they set a value and increment it, or
they only increment, the first by a number, and all of them do not add up to zero. -/
def AddsUp (mine : List (DeltaOperation V)) (op : DeltaOperation V) : Prop :=
  match base mine with
  | some c => c.op = .set
  | none => Counts view mine ∧ total view (mine ++ [op]) ≠ 0

/-- Folding the operation into the entries made from `pre` is sound, for a batch of operations
`ops` on the document `o`. -/
def Folds (o : Obj Doc) (ops pre : List (DeltaOperation V)) (op : DeltaOperation V) : Prop :=
  match op.op with
  | .set => Moves pre op
  | .delete => Moves pre op ∧
      (applyAll (docs view (before op.path pre)) o).1.growsAt (splitPath op.path) = false
  | .increment => Moves pre op ∧ AddsUp view (onPath op.path pre) op
  | .append | .remove => (∀ c ∈ ops, c.path ≠ ownKey view op) ∧
      ∀ c, Owns pre c → ownKey view c ≠ ownKey view op
  | .other => False

/-- **Operations that collapsing preserves**, on the document `o`: none of them touches the length
of an array, and each one that is not the first on its path folds. -/
def Collapsible (ops : List (DeltaOperation V)) (o : Obj Doc) : Prop :=
  LengthFree (docs view ops) o ∧
    ∀ pre op post, ops = pre ++ op :: post → op.path ∈ pre.map (·.path) → Folds view o ops pre op

/-! ## The entries while collapsing -/

/-- What the entry of a path is, after the operations on the path. -/
def Tallied (mine : List (DeltaOperation V)) (a : DeltaOperation V) : Prop :=
  match base mine with
  | some c => c.op = .set → a.op = .set
  | none => a.op = .increment ∧ (Counts view mine →
      total view mine ≠ 0 ∧ (view.doc a.value).numberOr 0 = .ok (total view mine))

/-- Of two entries the later one is younger than the first operation on the path of the other. -/
def Later (pre : List (DeltaOperation V)) (x e : String × String) : Prop :=
  x.1 = x.2 → ∃ c ∈ since x.1 pre, c.path = e.2 ∧
    (e.1 = e.2 ∨ c.op = .append ∨ c.op = .remove)

/-- The key and the path of an entry. -/
def place (e : String × DeltaOperation V) : String × String := (e.1, e.2.path)

/-- The operations of entries. -/
def opsOf (es : List (String × DeltaOperation V)) : List (DeltaOperation Doc) :=
  docs view (es.map Prod.snd)

/-- **The entries after the operations `pre`** on the document `o`. -/
structure Collapsed (o : Obj Doc) (pre : List (DeltaOperation V))
    (pathOps : Js.Map String (DeltaOperation V)) : Prop where
  run : performAll (docs view pathOps.values) o = performAll (docs view pre) o
  key : ∀ e ∈ pathOps.entries, e.1 = e.2.path ∧ e.1 ∈ pre.map (·.path) ∨
    Owns pre e.2 ∧ e.1 = ownKey view e.2
  path : ∀ p ∈ pre.map (·.path), p ∈ pathOps.keys
  later : (pathOps.entries.map place).Pairwise (Later pre)
  grows : ∀ l x r, pathOps.entries = l ++ x :: r → x.1 = x.2.path →
    (performAll (docs view (before x.1 pre)) o).1.growsAt (splitPath x.1) = false →
    (performAll (opsOf view l) o).1.growsAt (splitPath x.1) = false
  tally : ∀ p a, pathOps.get? p = some a → p = a.path → Tallied view (onPath p pre) a

section Lists

variable {pre : List (DeltaOperation V)} {b c : DeltaOperation V} {p : String}

lemma since_concat (h : p ∈ pre.map (·.path)) : since p (pre ++ [b]) = since p pre ++ [b] := by
  induction pre with
  | nil => simp at h
  | cons c pre ih =>
      by_cases hc : c.path = p
      · simp [since, hc]
      · have hmem : p ∈ pre.map (·.path) := by
          rcases List.mem_cons.mp h with rfl | h
          · exact absurd rfl hc
          · exact h
        have hih := ih hmem
        simp only [since, List.cons_append] at hih ⊢
        rw [List.dropWhile_cons_of_pos (by simpa using hc),
          List.dropWhile_cons_of_pos (by simpa using hc)]
        exact hih

lemma before_concat (h : p ∈ pre.map (·.path)) : before p (pre ++ [b]) = before p pre := by
  induction pre with
  | nil => simp at h
  | cons c pre ih =>
      by_cases hc : c.path = p
      · simp [before, hc]
      · have hmem : p ∈ pre.map (·.path) := by
          rcases List.mem_cons.mp h with rfl | h
          · exact absurd rfl hc
          · exact h
        have hih := ih hmem
        simp only [before, List.cons_append] at hih ⊢
        rw [List.takeWhile_cons_of_pos (by simpa using hc),
          List.takeWhile_cons_of_pos (by simpa using hc), hih]

lemma before_concat_self (h : b.path ∉ pre.map (·.path)) : before b.path (pre ++ [b]) = pre := by
  induction pre with
  | nil => simp [before]
  | cons c pre ih =>
      simp only [List.map_cons, List.mem_cons, not_or] at h
      have hih := ih h.2
      have hc : c.path ≠ b.path := fun hc => h.1 hc.symm
      simp only [before, List.cons_append] at hih ⊢
      rw [List.takeWhile_cons_of_pos (by simpa using hc), hih]

lemma base_concat (mine : List (DeltaOperation V)) (b : DeltaOperation V) :
    base (mine ++ [b]) = if b.op = .increment then base mine else some b := by
  simp only [base, List.reverse_append, List.reverse_cons, List.reverse_nil, List.nil_append,
    List.singleton_append, List.find?_cons]
  by_cases hb : b.op = .increment <;> simp [hb]

lemma onPath_concat (p : String) (pre : List (DeltaOperation V)) (b : DeltaOperation V) :
    onPath p (pre ++ [b]) = if b.path = p then onPath p pre ++ [b] else onPath p pre := by
  by_cases hb : b.path = p <;> simp [onPath, hb]

lemma Owns.concat (h : Owns pre c) : Owns (pre ++ [b]) c := by
  obtain ⟨l, r, rfl, hmem, hop⟩ := h
  exact ⟨l, r ++ [b], by simp, hmem, hop⟩

lemma Owns.mem (h : Owns pre c) : c.path ∈ pre.map (·.path) := by
  obtain ⟨l, r, rfl, -, -⟩ := h
  simp

lemma Later.concat {x e : String × String} (h : Later pre x e)
    (hx : x.1 = x.2 → x.1 ∈ pre.map (·.path)) : Later (pre ++ [b]) x e := by
  intro hxe
  obtain ⟨c, hc, hpath, hkind⟩ := h hxe
  refine ⟨c, ?_, hpath, hkind⟩
  rw [since_concat (hx hxe)]
  exact List.mem_append_left _ hc

@[simp] lemma docs_append (xs ys : List (DeltaOperation V)) :
    docs view (xs ++ ys) = docs view xs ++ docs view ys := List.map_append

@[simp] lemma docs_cons (x : DeltaOperation V) (xs : List (DeltaOperation V)) :
    docs view (x :: xs) = x.map view.doc :: docs view xs := rfl

@[simp] lemma docs_nil : docs view ([] : List (DeltaOperation V)) = [] := rfl

@[simp] lemma opsOf_append (es fs : List (String × DeltaOperation V)) :
    opsOf view (es ++ fs) = opsOf view es ++ opsOf view fs := by
  simp [opsOf]

@[simp] lemma opsOf_cons (e : String × DeltaOperation V) (es : List (String × DeltaOperation V)) :
    opsOf view (e :: es) = e.2.map view.doc :: opsOf view es := rfl

end Lists

section Entries

variable {view} {o : Obj Doc} {pre : List (DeltaOperation V)} {b : DeltaOperation V}
  {pathOps : Js.Map String (DeltaOperation V)}

lemma Collapsed.mem_paths (h : Collapsed view o pre pathOps) {e : String × DeltaOperation V}
    (he : e ∈ pathOps.entries) (hkey : e.1 = e.2.path) : e.1 ∈ pre.map (·.path) := by
  rcases h.key e he with ⟨-, hmem⟩ | ⟨howns, -⟩
  · exact hmem
  · rw [hkey]
    exact howns.mem

lemma Collapsed.mem_places (h : Collapsed view o pre pathOps) {x : String × String}
    (hx : x ∈ pathOps.entries.map place) (hkey : x.1 = x.2) : x.1 ∈ pre.map (·.path) := by
  obtain ⟨e, he, rfl⟩ := List.mem_map.mp hx
  exact h.mem_paths he hkey

/-! What holds of the entries still holds of those that one more operation leaves. -/

lemma Collapsed.key_concat (h : Collapsed view o pre pathOps) {e : String × DeltaOperation V}
    (he : e ∈ pathOps.entries) :
    e.1 = e.2.path ∧ e.1 ∈ (pre ++ [b]).map (·.path) ∨
      Owns (pre ++ [b]) e.2 ∧ e.1 = ownKey view e.2 := by
  rcases h.key e he with ⟨hkey, hmem⟩ | ⟨howns, hkey⟩
  · exact .inl ⟨hkey, by simp [hmem]⟩
  · exact .inr ⟨howns.concat, hkey⟩

lemma Collapsed.later_concat (h : Collapsed view o pre pathOps) :
    (pathOps.entries.map place).Pairwise (Later (pre ++ [b])) :=
  h.later.imp_of_mem fun hx _ hlater => hlater.concat (h.mem_places hx)

lemma Collapsed.grows_concat (h : Collapsed view o pre pathOps)
    {l r : List (String × DeltaOperation V)} {x : String × DeltaOperation V}
    (hsplit : pathOps.entries = l ++ x :: r) (hkey : x.1 = x.2.path)
    (hgrows : (performAll (docs view (before x.1 (pre ++ [b]))) o).1.growsAt (splitPath x.1) =
      false) :
    (performAll (opsOf view l) o).1.growsAt (splitPath x.1) = false := by
  have hmem := h.mem_paths (e := x) (by simp [hsplit]) hkey
  rw [before_concat hmem] at hgrows
  exact h.grows l x r hsplit hkey hgrows

/-- The first operation on a path is its own tally. -/
lemma tallied_singleton (b : DeltaOperation V) : Tallied view [b] b := by
  have hbase : base [b] = if b.op = .increment then none else some b := base_concat [] b
  rw [Tallied, hbase]
  by_cases hb : b.op = .increment
  · rw [if_pos hb]
    refine ⟨hb, ?_⟩
    rintro ⟨c, q, hc, hq, hq0⟩
    obtain rfl : b = c := by simpa using hc
    have htotal : total view [b] = q := by
      simp [total, amount, numberOr_of_ne_zero hq hq0]
    rw [htotal]
    exact ⟨hq0, hq⟩
  · rw [if_neg hb]
    exact id

lemma Collapsed.key_append (h : Collapsed view o pre pathOps) {k : String}
    (hplace : k = b.path ∨
      k = ownKey view b ∧ b.path ∈ pre.map (·.path) ∧ (b.op = .append ∨ b.op = .remove)) :
    ∀ e ∈ pathOps.entries ++ [(k, b)], e.1 = e.2.path ∧ e.1 ∈ (pre ++ [b]).map (·.path) ∨
      Owns (pre ++ [b]) e.2 ∧ e.1 = ownKey view e.2 := by
  intro e he
  rcases List.mem_append.mp he with he | he
  · exact h.key_concat he
  · rw [List.mem_singleton.mp he]
    rcases hplace with rfl | ⟨rfl, hmem, hkind⟩
    · exact .inl ⟨rfl, by simp⟩
    · exact .inr ⟨⟨pre, [], by simp, hmem, hkind⟩, rfl⟩

/-- The new operation is younger than every entry there is. -/
lemma Collapsed.later_append (h : Collapsed view o pre pathOps) {k : String}
    (hplace : k = b.path ∨ b.op = .append ∨ b.op = .remove) :
    ((pathOps.entries ++ [(k, b)]).map place).Pairwise (Later (pre ++ [b])) := by
  rw [List.map_append, List.pairwise_append]
  refine ⟨h.later_concat, by simp, ?_⟩
  intro x hx e he hxe
  have he' : e = (k, b.path) := by simpa [place] using he
  subst he'
  refine ⟨b, ?_, rfl, hplace⟩
  rw [since_concat (h.mem_places hx hxe)]
  simp

/-- An entry at its own path is new only where the path is: all that is before it has run. -/
lemma Collapsed.grows_append (h : Collapsed view o pre pathOps) {k : String}
    (hfirst : k = b.path → b.path ∉ pre.map (·.path)) :
    ∀ l x r, pathOps.entries ++ [(k, b)] = l ++ x :: r → x.1 = x.2.path →
      (performAll (docs view (before x.1 (pre ++ [b]))) o).1.growsAt (splitPath x.1) = false →
      (performAll (opsOf view l) o).1.growsAt (splitPath x.1) = false := by
  intro l x r hsplit hkey hgrows
  rcases List.eq_nil_or_concat r with rfl | ⟨r, y, rfl⟩
  · obtain ⟨rfl, hx⟩ := List.append_inj' hsplit rfl
    obtain rfl : (k, b) = x := by simpa using hx
    have hkb : k = b.path := hkey
    subst hkb
    rw [before_concat_self (hfirst rfl)] at hgrows
    have hrun : performAll (opsOf view pathOps.entries) o = performAll (docs view pre) o := h.run
    rwa [hrun]
  · rw [List.concat_eq_append, ← List.cons_append, ← List.append_assoc] at hsplit
    obtain ⟨hsplit, -⟩ := List.append_inj' hsplit rfl
    exact h.grows_concat hsplit hkey hgrows

lemma Collapsed.tally_append (h : Collapsed view o pre pathOps) {k : String}
    (hfirst : k = b.path → b.path ∉ pre.map (·.path))
    (hplace : k = b.path ∨ b.op = .append ∨ b.op = .remove) :
    ∀ p a, (pathOps.set k b).get? p = some a → p = a.path →
      Tallied view (onPath p (pre ++ [b])) a := by
  intro p a hget hpa
  rw [Js.Map.get?_set] at hget
  split at hget
  next hpk =>
    obtain rfl : b = a := by simpa using hget
    have hnone : onPath p pre = [] := by
      rw [onPath, List.filter_eq_nil_iff]
      intro c hc
      simp only [decide_eq_true_eq]
      rintro hcp
      exact hfirst (hpk.symm.trans hpa) (List.mem_map.mpr ⟨c, hc, hcp.trans hpa⟩)
    rw [onPath_concat, if_pos hpa.symm, hnone]
    exact tallied_singleton b
  next hpk =>
    have htally := h.tally p a hget hpa
    rw [onPath_concat]
    split
    next hbp =>
      rcases hplace with rfl | hkind
      · exact absurd hbp.symm hpk
      · have hb : b.op ≠ .increment := by rcases hkind with hb | hb <;> simp [hb]
        rw [Tallied, base_concat, if_neg hb]
        intro hset
        rcases hkind with hb | hb <;> simp [hb] at hset
    next => exact htally

/-- A new entry at the end performs its operation last. -/
lemma Collapsed.append (h : Collapsed view o pre pathOps)
    (hok : (performAll (docs view (pre ++ [b])) o).2 = none) {k : String} (hk : k ∉ pathOps.keys)
    (hplace : k = b.path ∨
      k = ownKey view b ∧ b.path ∈ pre.map (·.path) ∧ (b.op = .append ∨ b.op = .remove)) :
    Collapsed view o (pre ++ [b]) (pathOps.set k b) := by
  have hentries := Js.Map.entries_set_of_not_mem pathOps b hk
  have hfirst : k = b.path → b.path ∉ pre.map (·.path) := by
    rintro rfl hmem
    exact hk (h.path _ hmem)
  have hkind : k = b.path ∨ b.op = .append ∨ b.op = .remove := hplace.imp_right fun hp => hp.2.2
  refine ⟨?_, ?_, ?_, ?_, ?_, h.tally_append hfirst hkind⟩
  · rw [docs_append] at hok
    have hpre := ok_of_forEachWrite_append hok
    have hvalues : (pathOps.set k b).values = pathOps.values ++ [b] := by
      simp [Js.Map.values, hentries]
    rw [hvalues, docs_append, docs_append, performAll_append (by rw [h.run]; exact hpre),
      performAll_append hpre, h.run]
  · rw [hentries]
    exact h.key_append hplace
  · intro p hp
    rw [Js.Map.keys_set_of_not_mem pathOps b hk, List.mem_append]
    rw [List.map_append, List.mem_append] at hp
    rcases hp with hp | hp
    · exact .inl (h.path p hp)
    · rcases hplace with rfl | ⟨-, hmem, -⟩
      · exact .inr hp
      · have hpb : p = b.path := by simpa using hp
        exact .inl (hpb ▸ h.path _ hmem)
  · rw [hentries]
    exact h.later_append hkind
  · rw [hentries]
    exact h.grows_append hfirst

/-- **Where an operation meets the entry of its path**: what comes after the entry parts from it,
and performing it after all entries is performing it at the end. -/
lemma Collapsed.meets (h : Collapsed view o pre pathOps)
    (hok : (performAll (docs view (pre ++ [b])) o).2 = none) (hmoves : Moves pre b)
    {l r : List (String × DeltaOperation V)} {a : DeltaOperation V}
    (hsplit : pathOps.entries = l ++ (b.path, a) :: r) (ha : a.path = b.path) :
    (∀ e ∈ r, Part (splitPath e.2.path) (splitPath b.path)) ∧
      performAll (opsOf view l ++ a.map view.doc :: opsOf view r ++ [b.map view.doc]) o =
        performAll (docs view (pre ++ [b])) o := by
  constructor
  · intro e he
    have hpair := h.later
    rw [hsplit, List.map_append, List.map_cons, List.pairwise_append, List.pairwise_cons] at hpair
    obtain ⟨c, hc, hpath, hkind⟩ := hpair.2.1.1 (place e) (List.mem_map_of_mem he) ha.symm
    rcases hmoves c hc with hpart | ⟨hcb, hnot⟩
    · rw [hpath] at hpart
      exact hpart
    · -- An entry of the same path has a key of its own, and so an operation that does not move.
      exfalso
      have hepath : e.2.path = b.path := hpath.symm.trans hcb
      rcases hkind with hkey | hkind
      · have hnodup := pathOps.nodup
        rw [hsplit, List.map_append, List.map_cons, List.nodup_append, List.nodup_cons] at hnodup
        refine hnodup.2.1.1 (List.mem_map.mpr ⟨e, he, ?_⟩)
        exact Eq.trans hkey hepath
      · rcases hkind with hkind | hkind
        · exact hnot.1 hkind
        · exact hnot.2 hkind
  · have hrun := h.run
    have hvalues : docs view pathOps.values =
        opsOf view l ++ a.map view.doc :: opsOf view r := by
      simp [Js.Map.values, hsplit, opsOf]
    rw [hvalues] at hrun
    rw [docs_append] at hok
    have hpre := ok_of_forEachWrite_append hok
    rw [docs_append, performAll_append (by rw [hrun]; exact hpre), performAll_append hpre, hrun]
    rfl

lemma part_opsOf {r : List (String × DeltaOperation V)}
    (hpart : ∀ e ∈ r, Part (splitPath e.2.path) (splitPath b.path)) :
    ∀ x ∈ opsOf view r, Part (splitPath x.path) (splitPath (b.map view.doc).path) := by
  intro x hx
  obtain ⟨c, hc, rfl⟩ := List.mem_map.mp hx
  obtain ⟨e, he, rfl⟩ := List.mem_map.mp hc
  exact hpart e he

/-- Where the entry of its path stands, the operation can be performed after it. -/
lemma Collapsed.performs (h : Collapsed view o pre pathOps)
    (hok : (performAll (docs view (pre ++ [b])) o).2 = none) (hmoves : Moves pre b)
    {l r : List (String × DeltaOperation V)} {a : DeltaOperation V}
    (hsplit : pathOps.entries = l ++ (b.path, a) :: r) (ha : a.path = b.path) :
    (perform (a.map view.doc) (performAll (opsOf view l) o).1).2 = none ∧
      (perform (b.map view.doc)
        (perform (a.map view.doc) (performAll (opsOf view l) o).1).1).2 = none := by
  obtain ⟨hpart, hruns⟩ := h.meets hok hmoves hsplit ha
  rw [← hruns] at hok
  obtain ⟨hperf, hperf', -⟩ := performAll_meets (part_opsOf hpart) hok
  exact ⟨hperf, hperf'⟩

/-- Folding an operation into the entry of its path makes no array grow at another entry. -/
lemma Collapsed.grows_fold (h : Collapsed view o pre pathOps)
    (hok : (performAll (docs view (pre ++ [b])) o).2 = none) (hmoves : Moves pre b)
    {l r : List (String × DeltaOperation V)} {a m : DeltaOperation V}
    (hsplit : pathOps.entries = l ++ (b.path, a) :: r) (ha : a.path = b.path)
    (hm : perform (b.map view.doc) (perform (a.map view.doc) (performAll (opsOf view l) o).1).1 =
      perform (m.map view.doc) (performAll (opsOf view l) o).1)
    {u v : List (String × DeltaOperation V)} {x : String × DeltaOperation V}
    (hu : l ++ (b.path, m) :: r = u ++ x :: v) (hkey : x.1 = x.2.path)
    (hgrows : (performAll (docs view (before x.1 (pre ++ [b]))) o).1.growsAt (splitPath x.1) =
      false) :
    (performAll (opsOf view u) o).1.growsAt (splitPath x.1) = false := by
  rw [List.append_eq_append_iff] at hu
  rcases hu with ⟨w, rfl, hw⟩ | ⟨w, rfl, hw⟩
  · rcases w with _ | ⟨y, w⟩
    · obtain ⟨rfl, rfl⟩ : (b.path, m) = x ∧ r = v := by simpa using hw
      rw [List.append_nil]
      exact h.grows_concat (x := (b.path, a)) hsplit ha.symm hgrows
    · -- The later path comes after the entry that has changed.
      obtain ⟨rfl, rfl⟩ : (b.path, m) = y ∧ r = w ++ x :: v := by simpa using hw
      have hlast := @Collapsed.grows_concat _ _ _ _ b _ h (l ++ (b.path, a) :: w) v x
        (by simp [hsplit]) hkey hgrows
      obtain ⟨hpart, hruns⟩ := h.meets hok hmoves hsplit ha
      rw [← hruns] at hok
      have hparts := @part_opsOf _ view b _ hpart
      have hxpart := (hpart x (by simp)).symm
      rw [← hkey] at hxpart
      have hstart : (performAll (opsOf view l ++ m.map view.doc :: opsOf view w) o).2 = none := by
        rw [← performAll_fold hparts hm hok] at hok
        have hrest : opsOf view l ++ m.map view.doc :: opsOf view (w ++ x :: v) =
            (opsOf view l ++ m.map view.doc :: opsOf view w) ++ opsOf view (x :: v) := by simp
        rw [hrest] at hok
        exact ok_of_forEachWrite_append hok
      have hlater := growsAt_fold (part_opsOf fun e he => hpart e (by simp [he])) hxpart
        (performAll_meets hparts hok).1 hm hstart (by simpa using hlast)
      simpa using hlater
  · rcases w with _ | ⟨y, w⟩
    · obtain ⟨rfl, rfl⟩ : x = (b.path, m) ∧ v = r := by simpa using hw
      exact h.grows_concat (x := (b.path, a)) (by simpa using hsplit) ha.symm hgrows
    · obtain ⟨rfl, rfl⟩ : x = y ∧ v = w ++ (b.path, m) :: r := by simpa using hw
      exact h.grows_concat (r := w ++ (b.path, a) :: r) (by simp [hsplit]) hkey hgrows

/-- **An operation is folded into the entry of its path** by an entry `m` that does, where the
entry `a` stands, what the two do one after the other. -/
lemma Collapsed.fold (h : Collapsed view o pre pathOps)
    (hok : (performAll (docs view (pre ++ [b])) o).2 = none) (hmoves : Moves pre b)
    {l r : List (String × DeltaOperation V)} {a m : DeltaOperation V}
    (hsplit : pathOps.entries = l ++ (b.path, a) :: r) (ha : a.path = b.path)
    (hmpath : m.path = b.path) (htally : Tallied view (onPath b.path pre ++ [b]) m)
    (hm : perform (b.map view.doc) (perform (a.map view.doc) (performAll (opsOf view l) o).1).1 =
      perform (m.map view.doc) (performAll (opsOf view l) o).1) :
    Collapsed view o (pre ++ [b]) (pathOps.set b.path m) := by
  have hentries := Js.Map.entries_set_of_split hsplit m
  have hmem : b.path ∈ pre.map (·.path) :=
    h.mem_paths (e := (b.path, a)) (by simp [hsplit]) ha.symm
  refine ⟨?_, ?_, ?_, ?_, ?_, ?_⟩
  · obtain ⟨hpart, hruns⟩ := h.meets hok hmoves hsplit ha
    rw [← hruns] at hok
    have hvalues : docs view (pathOps.set b.path m).values =
        opsOf view l ++ m.map view.doc :: opsOf view r := by
      simp [Js.Map.values, hentries, opsOf]
    rw [hvalues, ← hruns]
    exact performAll_fold (part_opsOf hpart) hm hok
  · intro e he
    have hcases : e ∈ pathOps.entries ∨ e = (b.path, m) := by
      rw [hentries] at he
      rw [hsplit]
      simp only [List.mem_append, List.mem_cons] at he ⊢
      tauto
    rcases hcases with he | rfl
    · exact h.key_concat he
    · exact .inl ⟨hmpath.symm, by simp [hmem]⟩
  · intro p hp
    rw [Js.Map.keys_set_of_mem pathOps m (h.path _ hmem)]
    rw [List.map_append, List.mem_append] at hp
    rcases hp with hp | hp
    · exact h.path p hp
    · obtain rfl : p = b.path := by simpa using hp
      exact h.path _ hmem
  · have hplaces : (pathOps.set b.path m).entries.map place = pathOps.entries.map place := by
      simp [hentries, hsplit, place, ha, hmpath]
    rw [hplaces]
    exact h.later_concat
  · intro u x v hu hkey hgrows
    exact h.grows_fold hok hmoves hsplit ha hm (hentries.symm.trans hu) hkey hgrows
  · intro p c hget hpc
    rw [Js.Map.get?_set] at hget
    rw [onPath_concat]
    split at hget
    next hp =>
      obtain rfl : m = c := by simpa using hget
      rw [if_pos hp.symm, hp]
      exact htally
    next hp =>
      rw [if_neg fun hb => hp hb.symm]
      exact h.tally p c hget hpc

/-- **An increment that adds up** is folded into its entry as the sum. -/
lemma exists_sum {mine : List (DeltaOperation V)} {a : DeltaOperation V} {x : Obj Doc}
    (hop : b.op = .increment) (ha : a.path = b.path) (htally : Tallied view mine a)
    (hadds : AddsUp view mine b) (hperf : (perform (a.map view.doc) x).2 = none)
    (hperf' : (perform (b.map view.doc) (perform (a.map view.doc) x).1).2 = none) :
    ∃ q, (a.op = .increment ∨ a.op = .set) ∧
      incremented (view.doc a.value) (view.doc b.value) = .ok q ∧
      Tallied view (mine ++ [b]) { a with value := view.number q } ∧
      perform (b.map view.doc) (perform (a.map view.doc) x).1 =
        perform (DeltaOperation.map view.doc { a with value := view.number q }) x := by
  obtain ⟨d, s, hd, hs⟩ := incremented_of_perform hop ha hperf hperf'
  obtain ⟨p, q, hp, hq, -⟩ := incremented_eq_ok hs
  have hbq : (view.doc b.value).numberOr 1 = .ok q := hq
  unfold AddsUp at hadds
  unfold Tallied at htally
  cases hbase : base mine with
  | some c =>
      simp only [hbase] at hadds htally
      have haop := htally hadds
      have hp' : (view.doc a.value).numberOr 0 = .ok p := by
        simpa [DeltaOperation.step, DeltaOperation.map, haop] using hp
      refine ⟨p + q, .inr haop, ?_, ?_, ?_⟩
      · simp only [incremented, hp', hbq]
      · simp [Tallied, base_concat, hop, hbase, haop]
      · exact perform_set_increment haop hop haop ha ha hp' hq (view.doc_number _) hperf
  | none =>
      simp only [hbase] at hadds htally
      obtain ⟨haop, hnumber⟩ := htally
      obtain ⟨hcounts, hsum⟩ := hadds
      obtain ⟨htotal, hp'⟩ := hnumber hcounts
      have hsum' : total view (mine ++ [b]) = total view mine + q := by
        simp [total, amount, hbq]
      rw [hsum'] at hsum
      refine ⟨total view mine + q, .inl haop, ?_, ?_, ?_⟩
      · simp only [incremented, hp', hbq]
      · simp only [Tallied, base_concat, hop, if_true, hbase]
        refine ⟨haop, fun _ => ?_⟩
        rw [hsum', view.doc_number, Doc.numberOr_num, if_neg hsum]
        exact ⟨hsum, rfl⟩
      · exact perform_increment haop hop haop ha ha hp' htotal hq hsum (view.doc_number _) hperf

/-- The key of an entry of its own is the path of no operation. -/
lemma Collapsible.ownKey_ne {ops post : List (DeltaOperation V)} (hops : ops = pre ++ post)
    (h : Collapsible view ops o) {c : DeltaOperation V} (hc : Owns pre c) :
    ∀ d ∈ ops, d.path ≠ ownKey view c := by
  obtain ⟨l, r, rfl, hmem, hkind⟩ := hc
  have hfolds := h.2 l c (r ++ post) (by simp [hops]) hmem
  rcases hkind with hop | hop <;> simp only [Folds, hop] at hfolds <;> exact hfolds.1

/-- The key of a second `append` or `remove` on a path is a new one. -/
lemma Collapsed.ownKey_not_mem (h : Collapsed view o pre pathOps)
    (hpaths : ∀ c ∈ pre, c.path ≠ ownKey view b)
    (howns : ∀ c, Owns pre c → ownKey view c ≠ ownKey view b) :
    ownKey view b ∉ pathOps.keys := by
  intro hk
  obtain ⟨e, he, hek⟩ := List.mem_map.mp hk
  rcases h.key e he with ⟨-, hin⟩ | ⟨how, hkey⟩
  · obtain ⟨c, hc, hcp⟩ := List.mem_map.mp hin
    exact hpaths c hc (hcp.trans hek)
  · exact howns e.2 how (hkey.symm.trans hek)

/-- **One step of the loop.** -/
lemma Collapsed.step (h : Collapsed view o pre pathOps) {ops post : List (DeltaOperation V)}
    (hops : ops = pre ++ b :: post) (hcond : Collapsible view ops o)
    (hok : (performAll (docs view ops) o).2 = none) :
    ∃ pathOps', collapseStep view pathOps b = .ok pathOps' ∧
      Collapsed view o (pre ++ [b]) pathOps' := by
  have hcut : docs view ops = docs view (pre ++ [b]) ++ docs view post := by simp [hops]
  rw [hcut] at hok
  replace hok := ok_of_forEachWrite_append hok
  unfold collapseStep
  cases hget : pathOps.get? b.path with
  | none =>
      have hk : b.path ∉ pathOps.keys := (Js.Map.get?_eq_none_iff pathOps b.path).1 hget
      exact ⟨_, rfl, h.append hok hk (.inl rfl)⟩
  | some a =>
      have hin := (Js.Map.mem_entries_iff pathOps b.path a).mpr hget
      have ha : a.path = b.path := by
        rcases h.key _ hin with ⟨hkey, -⟩ | ⟨howns, hkey⟩
        · exact hkey.symm
        · exact absurd hkey (hcond.ownKey_ne hops howns b (by simp [hops]))
      have hmem : b.path ∈ pre.map (·.path) := h.mem_paths hin ha.symm
      have hfolds := hcond.2 pre b post hops hmem
      obtain ⟨l, r, hsplit⟩ := List.append_of_mem hin
      have hown : (∀ c ∈ ops, c.path ≠ ownKey view b) →
          (∀ c, Owns pre c → ownKey view c ≠ ownKey view b) → ownKey view b ∉ pathOps.keys :=
        fun hpaths => h.ownKey_not_mem fun c hc => hpaths c (by simp [hops, hc])
      cases hop : b.op with
      | set =>
          simp only [Folds, hop] at hfolds
          refine ⟨_, rfl, h.fold hok hfolds hsplit ha rfl ?_ ?_⟩
          · simp [Tallied, base_concat, hop]
          · exact perform_set hop ha (h.performs hok hfolds hsplit ha).1
      | delete =>
          simp only [Folds, hop] at hfolds
          obtain ⟨hmoves, hgrows⟩ := hfolds
          refine ⟨_, rfl, h.fold hok hmoves hsplit ha rfl ?_ ?_⟩
          · simp [Tallied, base_concat, hop]
          · have hperf := (h.performs hok hmoves hsplit ha).1
            rw [applyAll_of_performAll] at hgrows
            · exact perform_delete hop ha (h.grows l _ r hsplit ha.symm hgrows) hperf
            · obtain ⟨rest, hrest⟩ := List.takeWhile_prefix
                (fun c : DeltaOperation V => c.path ≠ b.path) (l := pre)
              rw [← hrest, List.append_assoc, docs_append] at hok
              exact ok_of_forEachWrite_append hok
      | increment =>
          simp only [Folds, hop] at hfolds
          obtain ⟨hmoves, hadds⟩ := hfolds
          obtain ⟨hperf, hperf'⟩ := h.performs hok hmoves hsplit ha
          obtain ⟨q, haop, hinc, htally, hsum⟩ :=
            exists_sum hop ha (h.tally b.path a hget ha.symm) hadds hperf hperf'
          refine ⟨pathOps.set b.path { a with value := view.number q }, ?_,
            h.fold hok hmoves hsplit ha ha htally hsum⟩
          simp [haop, hinc, Except.map]
      | append =>
          simp only [Folds, hop] at hfolds
          exact ⟨_, rfl, h.append hok (hown hfolds.1 hfolds.2) (.inr ⟨rfl, hmem, .inl hop⟩)⟩
      | remove =>
          simp only [Folds, hop] at hfolds
          exact ⟨_, rfl, h.append hok (hown hfolds.1 hfolds.2) (.inr ⟨rfl, hmem, .inr hop⟩)⟩
      | other => simp [Folds, hop] at hfolds

lemma collapsed_empty (o : Obj Doc) : Collapsed view o [] .empty := by
  refine ⟨rfl, ?_, ?_, ?_, ?_, ?_⟩ <;> simp [Js.Map.empty, Js.Map.get?, Js.Map.find]

/-- **Collapsing preserves what the operations do.** -/
lemma collapseOperations_sound {ops : List (DeltaOperation V)} (hcond : Collapsible view ops o)
    (hok : (applyAll (docs view ops) o).2 = none) :
    ∃ merged, collapseOperations view ops = .ok merged ∧
      applyAll (docs view merged) o = applyAll (docs view ops) o := by
  have hperform := performAll_of_applyAll hok hcond.1
  rw [← hperform] at hok
  have hloop : ∀ pre post, ops = pre ++ post → ∃ pathOps,
      pre.foldlM (collapseStep view) .empty = .ok pathOps ∧ Collapsed view o pre pathOps := by
    intro pre
    induction pre using List.reverseRecOn with
    | nil => exact fun _ _ => ⟨_, rfl, collapsed_empty o⟩
    | append_singleton pre b ih =>
        intro post hops
        obtain ⟨pathOps, hfold, hcollapsed⟩ := ih (b :: post) (by simp [hops])
        obtain ⟨pathOps', hstep, hcollapsed'⟩ := hcollapsed.step (by simpa using hops) hcond hok
        refine ⟨pathOps', ?_, hcollapsed'⟩
        rw [List.foldlM_append, hfold]
        show (collapseStep view pathOps b >>= fun next => pure next) = _
        rw [hstep]
        rfl
  obtain ⟨pathOps, hfold, hcollapsed⟩ := hloop ops [] (by simp)
  refine ⟨pathOps.values, by simp [collapseOperations, hfold, Except.map], ?_⟩
  rw [applyAll_of_performAll (by rw [hcollapsed.run]; exact hok), hcollapsed.run, hperform]

end Entries

end DeltaCompressor

end SyncEngine
