import SyncEngine.Sync.Compression

/-!
# What a compressed batch names

Compression keeps one map for paths and for synthetic keys: the second `append` or `remove` on a
path is kept under `path:op:value`, and nothing stops a path from being just that text.  Then two
operations on different paths share a key, and the later one takes the place of the other.

`stored` lists which operation goes under which key, the latest first, and every entry of the map
is `Alike` the latest operation under its key (`Reflects`).  So a path is named by what is left if
and only if one of its operations is the latest under its key (`Named`), and
`compress_keeps_iff` puts that together for a batch.
-/

namespace SyncEngine

open Js

namespace DeltaCompressor

variable {V : Type} (view : ValueView V)

/-- The entry is one that an `increment` is added to. -/
def Counting (c : DeltaOperation V) : Prop := c.op = .increment ∨ c.op = .set

/-- `Number` returns on the value. -/
def Converts (v : V) : Prop := ∃ x, (view.doc v).toNumber = .ok x

/-- One operation goes under a key: its path, or a key of its own. -/
def store (log : List (String × DeltaOperation V)) (op : DeltaOperation V) :
    List (String × DeltaOperation V) :=
  if op.path ∈ log.map Prod.fst then
    match op.op with
    | .append | .remove => (ownKey view op, op) :: log
    | .other => log
    | _ => (op.path, op) :: log
  else (op.path, op) :: log

/-- The operations with their keys, the latest first. -/
def stored (ops : List (DeltaOperation V)) : List (String × DeltaOperation V) :=
  ops.foldl (store view) []

/-- The path of every operation is the path of the latest operation under some key. -/
def Named (ops : List (DeltaOperation V)) : Prop :=
  ∀ op ∈ ops, ∃ k c, Js.Map.find k (stored view ops) = some c ∧ c.path = op.path

/-- Every `increment` of an entry it is added to is by a value, and of a value, that `Number`
returns on. -/
def AddsNumbers (ops : List (DeltaOperation V)) : Prop :=
  ∀ pre op post, ops = pre ++ op :: post → op.op = .increment →
    ∀ c, Js.Map.find op.path (stored view pre) = some c → Counting c →
      Converts view c.value ∧ Converts view op.value

variable {view}

/-! ## What is stored -/

lemma stored_concat (pre : List (DeltaOperation V)) (op : DeltaOperation V) :
    stored view (pre ++ [op]) = store view (stored view pre) op := by
  rw [stored, List.foldl_append]
  rfl

variable {log : List (String × DeltaOperation V)} {a c op : DeltaOperation V}

variable (view) in
/-- The three things that can become of an operation. -/
lemma store_cases (log : List (String × DeltaOperation V)) (op : DeltaOperation V) :
    (op.path ∈ log.map Prod.fst ∧ op.op = .other ∧ store view log op = log) ∨
    (op.path ∈ log.map Prod.fst ∧ (op.op = .append ∨ op.op = .remove) ∧
      store view log op = (ownKey view op, op) :: log) ∨
    store view log op = (op.path, op) :: log := by
  unfold store
  by_cases htaken : op.path ∈ log.map Prod.fst
  · rw [if_pos htaken]
    cases hop : op.op
    case other => exact .inl ⟨htaken, rfl, rfl⟩
    case append => exact .inr (.inl ⟨htaken, .inl rfl, rfl⟩)
    case remove => exact .inr (.inl ⟨htaken, .inr rfl, rfl⟩)
    case set | delete | increment => exact .inr (.inr rfl)
  · exact .inr (.inr (if_neg htaken))

/-- What is stored is one of the operations, under its path if it can be added to. -/
lemma mem_of_mem_stored {ops : List (DeltaOperation V)} {e : String × DeltaOperation V}
    (h : e ∈ stored view ops) : e.2 ∈ ops ∧ (Counting e.2 → e.1 = e.2.path) := by
  induction ops using List.reverseRecOn with
  | nil => cases h
  | append_singleton ops op ih =>
    have hlater : e ∈ stored view ops → e.2 ∈ ops ++ [op] ∧ (Counting e.2 → e.1 = e.2.path) :=
      fun h => ⟨List.mem_append_left _ (ih h).1, (ih h).2⟩
    rw [stored_concat] at h
    obtain ⟨-, -, hlog⟩ | ⟨-, hkind, hlog⟩ | hlog := store_cases view (stored view ops) op
    · rw [hlog] at h
      exact hlater h
    · rw [hlog] at h
      obtain rfl | h := List.mem_cons.1 h
      · refine ⟨by simp, ?_⟩
        rintro (hop | hop) <;> rw [hop] at hkind <;> simp at hkind
      · exact hlater h
    · rw [hlog] at h
      obtain rfl | h := List.mem_cons.1 h
      · exact ⟨by simp, fun _ => rfl⟩
      · exact hlater h

/-! ## The map reflects what is stored -/

variable (view) in
/-- An entry of the map, and the operation that was stored under its key last. -/
structure Alike (a c : DeltaOperation V) : Prop where
  path : a.path = c.path
  counting : Counting a ↔ Counting c
  converts : Counting c → (Converts view a.value ↔ Converts view c.value)

variable (view) in
def Reflects (pathOps : Js.Map String (DeltaOperation V))
    (log : List (String × DeltaOperation V)) : Prop :=
  ∀ k, Option.Rel (Alike view) (pathOps.get? k) (Js.Map.find k log)

lemma Alike.refl (a : DeltaOperation V) : Alike view a a := ⟨rfl, Iff.rfl, fun _ => Iff.rfl⟩

lemma find_cons_eq (k j : String) (c : DeltaOperation V) (log : List (String × DeltaOperation V)) :
    Js.Map.find j ((k, c) :: log) = if j = k then some c else Js.Map.find j log := by
  simp only [Js.Map.find, eq_comm]

variable {pathOps : Js.Map String (DeltaOperation V)}

/-- What is put under a key, and what is stored under it. -/
lemma Reflects.set (h : Reflects view pathOps log) (hac : Alike view a c) (k : String) :
    Reflects view (pathOps.set k a) ((k, c) :: log) := by
  intro j
  rw [Js.Map.get?_set, find_cons_eq]
  split
  · exact .some hac
  · exact h j

lemma Reflects.none_iff (h : Reflects view pathOps log) (k : String) :
    pathOps.get? k = none ↔ k ∉ log.map Prod.fst := by
  rw [← Js.Map.find_eq_none]
  have hk := h k
  generalize pathOps.get? k = x, Js.Map.find k log = y at hk
  cases hk <;> simp

lemma Reflects.exists_of_some (h : Reflects view pathOps log) {k : String}
    (ha : pathOps.get? k = some a) : ∃ c, Js.Map.find k log = some c ∧ Alike view a c := by
  have hk := h k
  rw [ha] at hk
  generalize hy : Js.Map.find k log = y at hk
  cases hk with
  | some hac => exact ⟨_, rfl, hac⟩

/-! ## Collapsing -/

variable (view) in
/-- Two values are added up if `Number` returns on both. -/
lemma exists_incremented_iff (c d : V) :
    (∃ q, incremented (view.doc c) (view.doc d) = .ok q) ↔ Converts view c ∧ Converts view d := by
  unfold incremented Doc.numberOr Converts
  cases (view.doc c).toNumber <;> cases (view.doc d).toNumber <;> simp [Except.map]

lemma converts_number (q : ℚ) : Converts view (view.number q) :=
  ⟨some q, by rw [view.doc_number, Doc.toNumber_num]⟩

/-- An `increment` finds what it is added to, and both are numbers. -/
def Adds (view : ValueView V) (log : List (String × DeltaOperation V)) (op : DeltaOperation V) :
    Prop :=
  op.op = .increment → ∀ c, Js.Map.find op.path log = some c → Counting c →
    Converts view c.value ∧ Converts view op.value

/-- An `increment` on a path that has an entry is added to it, or takes its place. -/
lemma Reflects.increment (h : Reflects view pathOps log)
    (hkeys : ∀ e ∈ log, Counting e.2 → e.1 = e.2.path) (hop : op.op = .increment)
    (ha : pathOps.get? op.path = some a) :
    let next := if a.op = .increment ∨ a.op = .set then
        (incremented (view.doc a.value) (view.doc op.value)).map fun q =>
          pathOps.set op.path { a with value := view.number q }
      else .ok (pathOps.set op.path op)
    (Adds view log op → ∃ m, next = .ok m ∧ Reflects view m ((op.path, op) :: log)) ∧
      ∀ m, next = .ok m → Adds view log op := by
  intro next
  obtain ⟨c, hc, halike⟩ := h.exists_of_some ha
  by_cases hcounting : a.op = .increment ∨ a.op = .set
  · have hnext : next = (incremented (view.doc a.value) (view.doc op.value)).map fun q =>
        pathOps.set op.path { a with value := view.number q } := if_pos hcounting
    have hcount : Counting c := halike.counting.1 hcounting
    have hpath : a.path = op.path := by
      rw [halike.path, ← hkeys _ (Js.Map.mem_of_find_eq_some hc) hcount]
    have hboth := exists_incremented_iff view a.value op.value
    rw [halike.converts hcount] at hboth
    rw [hnext]
    constructor
    · intro hadds
      have hconverts := hadds hop c hc hcount
      obtain ⟨q, hq⟩ := hboth.2 hconverts
      have hsum : Alike view { a with value := view.number q } op :=
        ⟨hpath, iff_of_true hcounting (.inl hop),
          fun _ => iff_of_true (converts_number q) hconverts.2⟩
      exact ⟨_, by rw [hq]; rfl, h.set hsum _⟩
    · intro m hm _ c' hc' _
      obtain rfl := Option.some.inj (hc.symm.trans hc')
      obtain ⟨q, hq, -⟩ := exists_of_map_eq_ok hm
      exact hboth.1 ⟨q, hq⟩
  · have hnext : next = .ok (pathOps.set op.path op) := if_neg hcounting
    rw [hnext]
    refine ⟨fun _ => ⟨_, rfl, h.set (.refl op) _⟩, fun m _ _ c' hc' hcount => ?_⟩
    obtain rfl := Option.some.inj (hc.symm.trans hc')
    exact absurd (halike.counting.2 hcount) hcounting

/-- **One operation is collapsed** unless it adds what is no number, and the map then reflects
that it is stored. -/
lemma Reflects.step (h : Reflects view pathOps log)
    (hkeys : ∀ e ∈ log, Counting e.2 → e.1 = e.2.path) (op : DeltaOperation V) :
    (Adds view log op →
      ∃ m, collapseStep view pathOps op = .ok m ∧ Reflects view m (store view log op)) ∧
    ∀ m, collapseStep view pathOps op = .ok m → Adds view log op := by
  unfold collapseStep store
  cases ha : pathOps.get? op.path with
  | none =>
    have hfree : op.path ∉ log.map Prod.fst := (h.none_iff op.path).1 ha
    rw [if_neg hfree]
    refine ⟨fun _ => ⟨_, rfl, h.set (.refl op) _⟩, fun _ _ _ c hc => ?_⟩
    rw [Js.Map.find_eq_none.2 hfree] at hc
    cases hc
  | some existing =>
    have htaken : op.path ∈ log.map Prod.fst := by
      by_contra hfree
      rw [(h.none_iff op.path).2 hfree] at ha
      cases ha
    rw [if_pos htaken]
    cases hop : op.op
    case set => exact ⟨fun _ => ⟨_, rfl, h.set (.refl op) _⟩, by simp [Adds, hop]⟩
    case delete => exact ⟨fun _ => ⟨_, rfl, h.set (.refl op) _⟩, by simp [Adds, hop]⟩
    case append => exact ⟨fun _ => ⟨_, rfl, h.set (.refl op) _⟩, by simp [Adds, hop]⟩
    case remove => exact ⟨fun _ => ⟨_, rfl, h.set (.refl op) _⟩, by simp [Adds, hop]⟩
    case other => exact ⟨fun _ => ⟨_, rfl, h⟩, by simp [Adds, hop]⟩
    case increment => exact h.increment hkeys hop ha

lemma addsNumbers_concat (pre : List (DeltaOperation V)) (op : DeltaOperation V) :
    AddsNumbers view (pre ++ [op]) ↔ AddsNumbers view pre ∧ Adds view (stored view pre) op := by
  constructor
  · intro h
    refine ⟨fun before c after hsplit => ?_, h pre op [] rfl⟩
    exact h before c (after ++ [op]) (by simp [hsplit])
  · rintro ⟨hpre, hop⟩ before c after hsplit
    obtain rfl | ⟨after, last, rfl⟩ := List.eq_nil_or_concat' after
    · obtain ⟨rfl, hlast⟩ := List.append_inj' hsplit rfl
      obtain rfl := List.singleton_inj.1 hlast
      exact hop
    · rw [← List.cons_append, ← List.append_assoc] at hsplit
      exact hpre before c after (List.append_inj' hsplit rfl).1

variable (view) in
/-- **Operations are collapsed** unless they add what is no number, and the map then reflects what
they are stored as. -/
lemma foldlM_collapseStep (ops : List (DeltaOperation V)) :
    (AddsNumbers view ops →
      ∃ m, ops.foldlM (collapseStep view) .empty = .ok m ∧ Reflects view m (stored view ops)) ∧
    ∀ m, ops.foldlM (collapseStep view) .empty = .ok m → AddsNumbers view ops := by
  induction ops using List.reverseRecOn with
  | nil =>
    refine ⟨fun _ => ⟨.empty, rfl, fun k => .none⟩, fun _ _ pre op post hsplit => ?_⟩
    simp at hsplit
  | append_singleton ops op ih =>
    have hkeys : ∀ e ∈ stored view ops, Counting e.2 → e.1 = e.2.path :=
      fun e he => (mem_of_mem_stored he).2
    have hlast : ∀ m, [op].foldlM (collapseStep view) m = collapseStep view m op := fun m =>
      (List.foldlM_cons ..).trans (bind_pure _)
    rw [addsNumbers_concat, stored_concat, List.foldlM_append]
    constructor
    · rintro ⟨hops, hop⟩
      obtain ⟨m, hm, hreflects⟩ := ih.1 hops
      obtain ⟨m', hm', hreflects'⟩ := (hreflects.step hkeys op).1 hop
      refine ⟨m', ?_, hreflects'⟩
      rw [hm]
      exact (hlast m).trans hm'
    · intro m' hm'
      cases hm : ops.foldlM (collapseStep view) .empty with
      | error e =>
        rw [hm] at hm'
        cases hm'
      | ok m =>
        have hops := ih.2 m hm
        obtain ⟨m₁, hm₁, hreflects⟩ := ih.1 hops
        obtain rfl := Except.ok.inj (hm.symm.trans hm₁)
        rw [hm] at hm'
        exact ⟨hops, (hreflects.step hkeys op).2 m' ((hlast m).symm.trans hm')⟩

/-- The paths that operations name. -/
def paths (ops : List (DeltaOperation V)) : List String := ops.map fun op => op.path

lemma Reflects.mem_paths (h : Reflects view pathOps log) (p : String) :
    p ∈ paths pathOps.values ↔ ∃ k c, Js.Map.find k log = some c ∧ c.path = p := by
  rw [paths, List.mem_map]
  constructor
  · rintro ⟨a, ha, rfl⟩
    obtain ⟨k, hk⟩ := (Js.Map.mem_values_iff _ _).1 ha
    obtain ⟨c, hc, halike⟩ := h.exists_of_some hk
    exact ⟨k, c, hc, halike.path.symm⟩
  · rintro ⟨k, c, hc, rfl⟩
    have hk := h k
    rw [hc] at hk
    generalize hx : pathOps.get? k = x at hk
    cases hk with
    | some halike => exact ⟨_, (Js.Map.mem_values_iff _ _).2 ⟨k, hx⟩, halike.path⟩

/-- **When collapsing keeps every path.** -/
lemma collapse_keeps_iff (ops : List (DeltaOperation V)) :
    (∃ merged, collapseOperations view ops = .ok merged ∧ ∀ p, p ∈ paths merged ↔ p ∈ paths ops) ↔
      AddsNumbers view ops ∧ Named view ops := by
  obtain ⟨hok, honly⟩ := foldlM_collapseStep view ops
  constructor
  · rintro ⟨merged, hmerged, hpaths⟩
    obtain ⟨m, hm, rfl⟩ := exists_of_map_eq_ok hmerged
    have hadds := honly m hm
    obtain ⟨m', hm', hreflects⟩ := hok hadds
    obtain rfl := Except.ok.inj (hm.symm.trans hm')
    refine ⟨hadds, fun op hop => ?_⟩
    exact (hreflects.mem_paths op.path).1 ((hpaths _).2 (List.mem_map_of_mem hop))
  · rintro ⟨hadds, hnamed⟩
    obtain ⟨m, hm, hreflects⟩ := hok hadds
    refine ⟨m.values, by rw [collapseOperations, hm]; rfl, fun p => ?_⟩
    rw [hreflects.mem_paths]
    constructor
    · rintro ⟨k, c, hc, rfl⟩
      exact List.mem_map_of_mem (mem_of_mem_stored (Js.Map.mem_of_find_eq_some hc)).1
    · intro hp
      obtain ⟨op, hop, rfl⟩ := List.mem_map.1 hp
      exact hnamed op hop

/-! ## Batches -/

lemma exists_of_mapM_eq_ok {ε α β : Type} {f : α → Except ε β} {l : List α} {r : List β}
    (h : l.mapM f = .ok r) {a : α} (ha : a ∈ l) : ∃ b ∈ r, f a = .ok b := by
  induction l generalizing r with
  | nil => cases ha
  | cons x l ih =>
    rw [List.mapM_cons] at h
    cases hx : f x with
    | error e =>
      rw [hx] at h
      cases h
    | ok b =>
      cases hl : l.mapM f with
      | error e =>
        rw [hx, hl] at h
        cases h
      | ok r' =>
        rw [hx, hl] at h
        cases h
        obtain rfl | ha := List.mem_cons.1 ha
        · exact ⟨b, List.mem_cons_self, hx⟩
        · obtain ⟨b', hb', hfa⟩ := ih hl ha
          exact ⟨b', List.mem_cons_of_mem _ hb', hfa⟩

/-- What the deltas of an entity with several become is part of what is compressed. -/
lemma exists_group_of_compress {batch compressed : List (StateDelta V)}
    (h : compress view batch = .ok compressed) {id : EntityId}
    (hmany : 2 ≤ (deltasOf id batch).length) :
    ∃ ds, compressGroup view (deltasOf id batch) = .ok ds ∧ ∀ d ∈ ds, d ∈ compressed := by
  have hlen : ¬ batch.length ≤ 1 := by
    have hle : (deltasOf id batch).length ≤ batch.length := List.length_filter_le _ _
    omega
  rw [compress, if_neg hlen] at h
  obtain ⟨groups, hgroups, rfl⟩ := exists_of_map_eq_ok h
  have hne : deltasOf id batch ≠ [] := by
    intro hnil
    simp [hnil] at hmany
  have hgroup : deltasOf id batch ∈ (groupDeltas batch).values := by
    rw [Js.Map.mem_values_iff]
    exact ⟨id, by rw [get?_groupDeltas, if_neg hne]⟩
  obtain ⟨ds, hds, hcompressed⟩ := exists_of_mapM_eq_ok hgroups hgroup
  exact ⟨ds, hcompressed, fun d hd => List.mem_flatten.2 ⟨ds, hds, hd⟩⟩

/-- One delta for each entity of the batch, in the order in which they first occur, from the first
version of the entity to its last, with operations on the same paths. -/
def KeepsAll (batch compressed : List (StateDelta V)) : Prop :=
  (compressed.map fun d => d.entityId) = (batch.map fun d => d.entityId).eraseDups ∧
    ∀ d ∈ compressed, ∃ first last, (deltasOf d.entityId batch).head? = some first ∧
      (deltasOf d.entityId batch).getLast? = some last ∧ d.fromVersion = first.fromVersion ∧
      d.toVersion = last.toVersion ∧
      ∀ p, p ∈ paths d.operations ↔ p ∈ paths (operationsOn d.entityId batch)

lemma id_of_mem_deltasOf {id : EntityId} {batch : List (StateDelta V)} {d : StateDelta V}
    (h : d ∈ deltasOf id batch) : d.entityId = id := by
  simpa using (List.mem_filter.1 h).2

/-- **When compression keeps every entity and every path.**  In a batch in which the timestamps of
each entity do not decrease, compression returns one delta for each entity, in the order in which
they first occur, from its first version to its last, that names exactly the paths its operations
have named, if and only if, for every entity with several deltas, no increment adds what is no
number, and every path named has an operation that is the last to be stored under its key. -/
theorem compress_keeps_iff (view : ValueView V) {batch : List (StateDelta V)}
    (htime : ∀ id, (deltasOf id batch).Pairwise fun a b => a.timestamp ≤ b.timestamp) :
    (∃ compressed, compress view batch = .ok compressed ∧ KeepsAll batch compressed) ↔
      ∀ id, 2 ≤ (deltasOf id batch).length →
        AddsNumbers view (operationsOn id batch) ∧ Named view (operationsOn id batch) := by
  constructor
  · rintro ⟨compressed, hc, -, hspec⟩ id hmany
    have hne : deltasOf id batch ≠ [] := by
      intro hnil
      simp [hnil] at hmany
    obtain ⟨ds, hds, hsub⟩ := exists_group_of_compress hc hmany
    rw [compressGroup_of_many hne hmany (htime id)] at hds
    obtain ⟨merged, hmerged, rfl⟩ := exists_of_map_eq_ok hds
    obtain ⟨-, -, -, -, -, -, hpaths⟩ := hspec _ (hsub _ List.mem_cons_self)
    have hid := id_of_mem_deltasOf (List.head_mem hne)
    simp only [hid] at hpaths
    exact (collapse_keeps_iff _).1 ⟨merged, hmerged, hpaths⟩
  · intro h
    refine compress_spec fun id hne => ?_
    obtain ⟨d, hd, hid, hfrom, hto, hpaths⟩ := @compressGroup_spec V view _ id
      (fun ops => ∀ p, p ∈ paths ops ↔ p ∈ paths (operationsOn id batch)) hne (htime id)
      (fun d hd => id_of_mem_deltasOf hd) (fun _ _ => Iff.rfl)
      (fun hmany => (collapse_keeps_iff _).2 (h id hmany))
    refine ⟨d, hd, hid, (deltasOf id batch).head hne, (deltasOf id batch).getLast hne, ?_⟩
    rw [hid]
    exact ⟨List.head?_eq_some_head hne, List.getLast?_eq_some_getLast hne, hfrom, hto, hpaths⟩

/-! ## Paths that are no synthetic keys -/

variable (view) in
lemma stored_keys (ops : List (DeltaOperation V)) :
    (∀ op ∈ ops, op.path ∈ (stored view ops).map Prod.fst) ∧
      ∀ e ∈ stored view ops, e.1 = e.2.path ∨ e.1 = ownKey view e.2 := by
  induction ops using List.reverseRecOn with
  | nil => exact ⟨nofun, nofun⟩
  | append_singleton ops op ih =>
    obtain ⟨hpaths, hkeys⟩ := ih
    rw [stored_concat]
    obtain ⟨htaken, -, hlog⟩ | ⟨htaken, -, hlog⟩ | hlog :=
      store_cases view (stored view ops) op
    · rw [hlog]
      refine ⟨fun c hc => ?_, hkeys⟩
      obtain hc | hc := List.mem_append.1 hc
      · exact hpaths c hc
      · rwa [List.mem_singleton.1 hc]
    · rw [hlog]
      refine ⟨fun c hc => List.mem_cons_of_mem _ ?_, List.forall_mem_cons.2 ⟨.inr rfl, hkeys⟩⟩
      obtain hc | hc := List.mem_append.1 hc
      · exact hpaths c hc
      · rwa [List.mem_singleton.1 hc]
    · rw [hlog]
      refine ⟨fun c hc => ?_, List.forall_mem_cons.2 ⟨.inl rfl, hkeys⟩⟩
      obtain hc | hc := List.mem_append.1 hc
      · exact List.mem_cons_of_mem _ (hpaths c hc)
      · rw [List.mem_singleton.1 hc]
        exact List.mem_cons_self

/-- Every path is kept if none of them is the synthetic key of an operation. -/
lemma named_of_ownKey_ne {ops : List (DeltaOperation V)}
    (h : ∀ c ∈ ops, ∀ op ∈ ops, ownKey view c ≠ op.path) : Named view ops := by
  intro op hop
  obtain ⟨hpaths, hkeys⟩ := stored_keys view ops
  obtain ⟨c, hc⟩ :=
    Option.ne_none_iff_exists'.1 (mt Js.Map.find_eq_none.1 (not_not.2 (hpaths op hop)))
  have hmem := Js.Map.mem_of_find_eq_some hc
  refine ⟨op.path, c, hc, ?_⟩
  obtain hkey | hkey := hkeys _ hmem
  · exact hkey.symm
  · exact absurd hkey.symm (h c (mem_of_mem_stored hmem).1 op hop)

/-- Two appends to one path, a millisecond apart. -/
def twoAppends : List (StateDelta Doc) :=
  twoUpdates ⟨.append, "a", .prim (.num 1)⟩ ⟨.append, "a", .prim (.num 1)⟩

theorem compress_keeps_twoAppends :
    ∃ compressed, compress (docView fun _ => "1") twoAppends = .ok compressed ∧
      KeepsAll twoAppends compressed := by
  refine (compress_keeps_iff _ fun id => ?_).2 fun id hmany => ?_
  · have hall : twoAppends.Pairwise fun a b => a.timestamp ≤ b.timestamp := by
      simp [twoAppends, twoUpdates]
    exact hall.filter _
  · have hops : operationsOn id twoAppends =
        [⟨.append, "a", .prim (.num 1)⟩, ⟨.append, "a", .prim (.num 1)⟩] := by
      by_cases hid : "e1" = id
      · subst hid
        rfl
      · simp [deltasOf, twoAppends, twoUpdates, hid] at hmany
    rw [hops]
    constructor
    · intro pre op post hsplit hop
      have hmem : op ∈ [(⟨.append, "a", .prim (.num 1)⟩ : DeltaOperation Doc),
          ⟨.append, "a", .prim (.num 1)⟩] := by
        rw [hsplit]
        simp
      simp only [List.mem_cons, List.not_mem_nil, or_false, or_self] at hmem
      rw [hmem] at hop
      cases hop
    · apply named_of_ownKey_ne
      simp only [List.mem_cons, List.not_mem_nil, or_false, or_self, forall_eq]
      decide

/-- The second append to the path `a` is kept under `a:append:1`, which is a path of its own. -/
def pathLikeKey : List (StateDelta Doc) :=
  [⟨"e1", 1, 2, [⟨.append, "a", .prim (.num 1)⟩, ⟨.set, "a:append:1", .prim (.num 1)⟩], 2⟩,
    ⟨"e1", 2, 3, [⟨.append, "a", .prim (.num 1)⟩], 3⟩]

/-- A path that looks like a synthetic key is lost. -/
theorem compress_loses_path :
    ¬ ∃ compressed, compress (docView fun _ => "1") pathLikeKey = .ok compressed ∧
      KeepsAll pathLikeKey compressed := by
  rintro ⟨compressed, hc, -, hspec⟩
  have hpaths : (compress (docView fun _ => "1") pathLikeKey).map
      (fun c => c.map fun d => (d.entityId, paths d.operations)) = .ok [("e1", ["a", "a"])] := by
    decide +kernel
  rw [hc] at hpaths
  obtain ⟨d, rfl, hd⟩ := List.map_eq_singleton_iff.1 (Except.ok.inj hpaths)
  obtain ⟨hid, hnamed⟩ := Prod.mk.inj hd
  obtain ⟨-, -, -, -, -, -, hsame⟩ := hspec d List.mem_cons_self
  have hlost := (hsame "a:append:1").2 (by rw [hid]; decide)
  rw [hnamed] at hlost
  revert hlost
  decide

end DeltaCompressor

end SyncEngine
