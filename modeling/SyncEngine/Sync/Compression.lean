import SyncEngine.Sync.DeltaCompressor
import SyncEngine.Core.RawUpdate

/-!
# What compression preserves

A batch is applied delta by delta, each one to the data of its entity (`applyDeltas`); what this
does to one entity is what the operations on that entity do, one after another
(`applyDeltas_eq`).  Compression keeps a delta that is alone in its entity, and merges the others
entity by entity.  `compress_preserves` puts this together with `collapseOperations_sound`: for
every batch that updates of a store have recorded, the compressed batch does to every entity what
the batch does, if the operations on each entity with several deltas are `Collapsible`.

They are not in general.  Two increments that add up to zero are merged into one that adds `1`
(`increments_lost`).
-/

namespace SyncEngine

open Js

namespace DeltaCompressor

section Batches

variable {V : Type}

/-- The deltas of one entity. -/
def deltasOf (id : EntityId) (deltas : List (StateDelta V)) : List (StateDelta V) :=
  deltas.filter fun d => d.entityId = id

/-- What deltas perform on one entity. -/
def operationsOn (id : EntityId) (deltas : List (StateDelta V)) : List (DeltaOperation V) :=
  (deltasOf id deltas).flatMap fun d => d.operations

lemma deltasOf_cons (id : EntityId) (d : StateDelta V) (ds : List (StateDelta V)) :
    deltasOf id (d :: ds) = if d.entityId = id then d :: deltasOf id ds else deltasOf id ds := by
  by_cases h : d.entityId = id <;> simp [deltasOf, h]

lemma operationsOn_cons (id : EntityId) (d : StateDelta V) (ds : List (StateDelta V)) :
    operationsOn id (d :: ds) =
      (if d.entityId = id then d.operations else []) ++ operationsOn id ds := by
  rw [operationsOn, deltasOf_cons]
  split <;> simp [operationsOn]

lemma deltasOf_ne_nil {id : EntityId} {deltas : List (StateDelta V)} :
    deltasOf id deltas ≠ [] ↔ id ∈ deltas.map fun d => d.entityId := by
  simp [deltasOf, List.filter_eq_nil_iff]

/-- A delta applied to the data of its entity. -/
def applyDelta (data : EntityId → Option (Obj Doc)) (delta : StateDelta Doc) :
    EntityId → Option (Obj Doc) :=
  Function.update data delta.entityId
    ((data delta.entityId).map fun o => (applyAll delta.operations o).1)

/-- Deltas applied one by one. -/
def applyDeltas (data : EntityId → Option (Obj Doc)) (deltas : List (StateDelta Doc)) :
    EntityId → Option (Obj Doc) :=
  deltas.foldl applyDelta data

/-- Deltas that do not throw do to an entity what their operations on it do. -/
lemma applyDeltas_eq {data : EntityId → Option (Obj Doc)} {deltas : List (StateDelta Doc)}
    {id : EntityId}
    (hok : ∀ o, data id = some o → (applyAll (operationsOn id deltas) o).2 = none) :
    applyDeltas data deltas id = (data id).map fun o =>
      (applyAll (operationsOn id deltas) o).1 := by
  induction deltas generalizing data with
  | nil =>
    cases h : data id <;>
      simp [applyDeltas, operationsOn, deltasOf, applyAll, forEachWrite, h]
  | cons d ds ih =>
      rw [operationsOn_cons] at hok ⊢
      show applyDeltas (applyDelta data d) ds id = _
      by_cases hid : d.entityId = id
      · subst hid
        simp only [if_true] at hok ⊢
        cases hdata : data d.entityId with
        | none =>
            have hnone : applyDelta data d d.entityId = none := by simp [applyDelta, hdata]
            rw [ih (fun o ho => by rw [hnone] at ho; cases ho), hnone]
            rfl
        | some o =>
            have hfirst : (applyAll d.operations o).2 = none :=
              ok_of_forEachWrite_append (hok o hdata)
            have hsome : applyDelta data d d.entityId = some (applyAll d.operations o).1 := by
              simp [applyDelta, hdata]
            have happend : applyAll (d.operations ++ operationsOn d.entityId ds) o =
                applyAll (operationsOn d.entityId ds) (applyAll d.operations o).1 :=
              forEachWrite_append_ok hfirst
            rw [ih, hsome, Option.map_some, Option.map_some, happend]
            intro o' ho'
            rw [hsome, Option.some.injEq] at ho'
            rw [← ho', ← happend]
            exact hok o hdata
      · simp only [if_neg hid, List.nil_append] at hok ⊢
        have hsame : applyDelta data d id = data id := by
          simp [applyDelta, Function.update_of_ne (Ne.symm hid)]
        rw [ih (by rwa [hsame]), hsame]

/-- Of the deltas of a list in which no entity occurs twice, one entity's are one delta. -/
lemma operationsOn_of_nodup {deltas : List (StateDelta V)} {d : StateDelta V}
    (hnodup : (deltas.map fun d => d.entityId).Nodup) (hd : d ∈ deltas) :
    operationsOn d.entityId deltas = d.operations := by
  induction deltas with
  | nil => cases hd
  | cons c ds ih =>
      rw [List.map_cons, List.nodup_cons] at hnodup
      rw [operationsOn_cons]
      rcases List.mem_cons.mp hd with rfl | hd
      · have hnone : deltasOf d.entityId ds = [] := by
          by_contra hne
          exact hnodup.1 (deltasOf_ne_nil.mp hne)
        simp [operationsOn, hnone]
      · have hne : c.entityId ≠ d.entityId := fun hcd =>
          hnodup.1 (hcd ▸ List.mem_map_of_mem hd)
        rw [if_neg hne, List.nil_append, ih hnodup.2 hd]

end Batches

/-! ## Grouping -/

section Groups

variable {V : Type} {view : ValueView V}

/-- A delta is put at the end of the group of its entity. -/
lemma groupDeltas_concat (deltas : List (StateDelta V)) (d : StateDelta V) :
    groupDeltas (deltas ++ [d]) = (groupDeltas deltas).set d.entityId
      (((groupDeltas deltas).get? d.entityId).getD [] ++ [d]) := by
  simp [groupDeltas]

lemma get?_groupDeltas (deltas : List (StateDelta V)) (id : EntityId) :
    (groupDeltas deltas).get? id =
      if deltasOf id deltas = [] then none else some (deltasOf id deltas) := by
  induction deltas using List.reverseRecOn with
  | nil => rfl
  | append_singleton deltas d ih =>
      have hof : deltasOf id (deltas ++ [d]) =
          deltasOf id deltas ++ if d.entityId = id then [d] else [] := by
        by_cases h : d.entityId = id <;> simp [deltasOf, h]
      rw [groupDeltas_concat, hof, Js.Map.get?_set]
      by_cases h : id = d.entityId
      · subst h
        rw [if_pos rfl, if_pos rfl, if_neg (by simp), ih]
        split
        next hnil => simp [hnil]
        next => rfl
      · rw [if_neg h, if_neg (Ne.symm h), List.append_nil]
        exact ih

/-- The entities are grouped in the order in which they first occur. -/
lemma keys_groupDeltas (deltas : List (StateDelta V)) :
    (groupDeltas deltas).keys = (deltas.map fun d => d.entityId).eraseDups := by
  induction deltas using List.reverseRecOn with
  | nil => rfl
  | append_singleton deltas d ih =>
    rw [groupDeltas_concat, List.map_append, List.map_singleton, List.eraseDups_append, ← ih]
    by_cases hmem : d.entityId ∈ deltas.map fun d => d.entityId
    · have hkey : d.entityId ∈ (groupDeltas deltas).keys := by
        rw [ih]
        exact List.mem_eraseDups.2 hmem
      have hrest : [d.entityId].removeAll (deltas.map fun d => d.entityId) = [] := by
        simpa [List.removeAll] using hmem
      rw [Js.Map.keys_set_of_mem _ _ hkey, hrest, List.eraseDups_nil, List.append_nil]
    · have hkey : d.entityId ∉ (groupDeltas deltas).keys := by
        rw [ih]
        exact fun h => hmem (List.mem_eraseDups.1 h)
      have hrest : [d.entityId].removeAll (deltas.map fun d => d.entityId) = [d.entityId] := by
        simpa [List.removeAll] using hmem
      rw [Js.Map.keys_set_of_not_mem _ _ hkey, hrest]
      rfl

/-- **What compression makes of a batch**: one delta for each entity of the batch, in the order in
which the entities first occur, which is what its group is merged to. -/
lemma compress_spec {batch : List (StateDelta V)} {Q : StateDelta V → Prop}
    (hgroup : ∀ id, deltasOf id batch ≠ [] →
      ∃ d, compressGroup view (deltasOf id batch) = .ok [d] ∧ d.entityId = id ∧ Q d) :
    ∃ compressed, compress view batch = .ok compressed ∧
      (compressed.map fun d => d.entityId) = (batch.map fun d => d.entityId).eraseDups ∧
      ∀ d ∈ compressed, Q d := by
  unfold compress
  split
  next hlen =>
    refine ⟨batch, rfl, ?_, ?_⟩
    · rcases batch with _ | ⟨d, _ | ⟨c, ds⟩⟩
      · rfl
      · rfl
      · simp at hlen
    · rcases batch with _ | ⟨d, _ | ⟨c, ds⟩⟩
      · simp
      · obtain ⟨d', hd', -, hQ⟩ := hgroup d.entityId (by simp [deltasOf])
        have hsingle : deltasOf d.entityId [d] = [d] := by simp [deltasOf]
        rw [hsingle] at hd'
        cases hd'
        simpa using hQ
      · simp at hlen
  next =>
    have hentry : ∀ e ∈ (groupDeltas batch).entries,
        ∃ d, compressGroup view e.2 = .ok [d] ∧ d.entityId = e.1 ∧ Q d := by
      rintro ⟨id, group⟩ he
      rw [Js.Map.mem_entries_iff, get?_groupDeltas] at he
      split at he
      · cases he
      · cases he
        exact hgroup id ‹_›
    have hall : ∀ es : List (EntityId × List (StateDelta V)),
        (∀ e ∈ es, ∃ d, compressGroup view e.2 = .ok [d] ∧ d.entityId = e.1 ∧ Q d) →
        ∃ c, (es.map Prod.snd).mapM (compressGroup view) = .ok c ∧
          c.flatten.map (fun d => d.entityId) = es.map Prod.fst ∧ ∀ d ∈ c.flatten, Q d := by
      intro es
      induction es with
      | nil => exact fun _ => ⟨[], rfl, rfl, by simp⟩
      | cons e es ih =>
          intro hes
          obtain ⟨d, hd, hid, hQ⟩ := hes e (by simp)
          obtain ⟨c, hc, hids, hQs⟩ := ih fun e' he' => hes e' (by simp [he'])
          refine ⟨[d] :: c, ?_, by simp [hid, hids], ?_⟩
          · rw [List.map_cons, List.mapM_cons, hd, hc]
            rfl
          · intro d' hd'
            rw [List.flatten_cons, List.mem_append] at hd'
            rcases hd' with hd' | hd'
            · rwa [List.mem_singleton.mp hd']
            · exact hQs d' hd'
    obtain ⟨c, hc, hids, hQs⟩ := hall _ hentry
    refine ⟨c.flatten, ?_, ?_, hQs⟩
    · rw [Js.Map.values, hc]
      rfl
    · exact hids.trans (keys_groupDeltas batch)

lemma exists_of_map_eq_ok {ε α β : Type} {f : α → β} {x : Except ε α} {b : β}
    (h : x.map f = .ok b) : ∃ a, x = .ok a ∧ f a = b := by
  cases x with
  | error e => cases h
  | ok a => exact ⟨a, rfl, Except.ok.inj h⟩

lemma mem_of_mapM_eq_ok {ε α β : Type} {f : α → Except ε β} {l : List α} {r : List β}
    (h : l.mapM f = .ok r) {b : β} (hb : b ∈ r) : ∃ a ∈ l, f a = .ok b := by
  induction l generalizing r with
  | nil =>
    cases h
    simp at hb
  | cons a l ih =>
    rw [List.mapM_cons] at h
    cases ha : f a with
    | error e =>
      rw [ha] at h
      cases h
    | ok b' =>
      cases hl : l.mapM f with
      | error e =>
        rw [ha, hl] at h
        cases h
      | ok r' =>
        rw [ha, hl] at h
        cases h
        rcases List.mem_cons.1 hb with rfl | hb
        · exact ⟨a, by simp, ha⟩
        · obtain ⟨c, hc, hfc⟩ := ih hl hb
          exact ⟨c, by simp [hc], hfc⟩

/-- A delta that a group is compressed to is the one delta of the group, or continues its first
delta with what all its operations collapse to. -/
lemma mem_compressGroup {group compressed : List (StateDelta V)}
    (h : compressGroup view group = .ok compressed) {d : StateDelta V} (hd : d ∈ compressed) :
    d ∈ group ∨ ∃ first ∈ group, first.entityId = d.entityId ∧ first.fromVersion = d.fromVersion ∧
      ∃ sorted : List (StateDelta V), sorted.Perm group ∧
        collapseOperations view (sorted.flatMap fun c => c.operations) = .ok d.operations := by
  unfold compressGroup at h
  split at h
  next delta =>
    cases h
    exact .inl hd
  next =>
    obtain ⟨merged, hmerged, rfl⟩ := exists_of_map_eq_ok h
    unfold mergeEntityDeltas at hmerged
    split at hmerged
    next =>
      cases hmerged
      simp at hd
    next first rest hsort =>
      have hperm : (first :: rest).Perm group := hsort ▸ sortOn_perm _ _
      obtain ⟨ops, hops, rfl⟩ := exists_of_map_eq_ok hmerged
      obtain rfl := Option.some.inj (Option.mem_toList.1 hd)
      exact .inr ⟨first, hperm.mem_iff.1 (by simp), rfl, rfl, _, hperm, hops⟩

/-- **A compressed delta comes from the group of one entity.** -/
lemma mem_compress {batch compressed : List (StateDelta V)}
    (h : compress view batch = .ok compressed) {d : StateDelta V} (hd : d ∈ compressed) :
    ∃ id ds, compressGroup view (deltasOf id batch) = .ok ds ∧ d ∈ ds := by
  unfold compress at h
  split at h
  next hlength =>
    cases h
    rcases batch with _ | ⟨c, _ | ⟨c', batch⟩⟩
    · simp at hd
    · obtain rfl := List.mem_singleton.1 hd
      have hgroup : deltasOf d.entityId [d] = [d] := by simp [deltasOf]
      exact ⟨d.entityId, [d], by rw [hgroup]; rfl, by simp⟩
    · simp at hlength
  next =>
    obtain ⟨groups, hgroups, rfl⟩ := exists_of_map_eq_ok h
    obtain ⟨ds, hds, hd⟩ := List.mem_flatten.1 hd
    obtain ⟨group, hgroup, hcompressed⟩ := mem_of_mapM_eq_ok hgroups hds
    obtain ⟨e, he, rfl⟩ := List.mem_map.1 hgroup
    have hget := (Js.Map.mem_entries_iff _ _ _).1 he
    rw [get?_groupDeltas] at hget
    split at hget
    · cases hget
    · rw [← Option.some.inj hget] at hcompressed
      exact ⟨e.1, ds, hcompressed, hd⟩

/-- A compressed delta continues a delta of the batch, of the same entity and from the same
version. -/
lemma exists_first_of_mem_compress {batch compressed : List (StateDelta V)}
    (h : compress view batch = .ok compressed) {d : StateDelta V} (hd : d ∈ compressed) :
    ∃ first ∈ batch, first.entityId = d.entityId ∧ first.fromVersion = d.fromVersion := by
  obtain ⟨id, ds, hgroup, hd⟩ := mem_compress h hd
  rcases mem_compressGroup hgroup hd with hd | ⟨first, hfirst, hid, hfrom, -⟩
  · exact ⟨d, (List.mem_filter.1 hd).1, rfl, rfl⟩
  · exact ⟨first, (List.mem_filter.1 hfirst).1, hid, hfrom⟩

/-! ## Values -/

section Values

variable {P : V → Prop}

lemma collapseStep_values (hnumber : ∀ q, P (view.number q))
    {pathOps pathOps' : Js.Map String (DeltaOperation V)} {op : DeltaOperation V} (hop : P op.value)
    (hpathOps : ∀ o ∈ pathOps.values, P o.value) (h : collapseStep view pathOps op = .ok pathOps') :
    ∀ o ∈ pathOps'.values, P o.value := by
  have hset : ∀ key (o : DeltaOperation V), P o.value →
      ∀ o' ∈ (pathOps.set key o).values, P o'.value := by
    intro key o ho o' ho'
    obtain ⟨k, hk⟩ := (Js.Map.mem_values_iff _ _).1 ho'
    rw [Js.Map.get?_set] at hk
    split at hk
    · rwa [← Option.some.inj hk]
    · exact hpathOps o' ((Js.Map.mem_values_iff _ _).2 ⟨k, hk⟩)
  unfold collapseStep at h
  split at h
  next =>
    cases h
    exact hset _ _ hop
  next existing hexisting =>
    split at h
    next => cases h; exact hset _ _ hop
    next => cases h; exact hset _ _ hop
    next =>
      split at h
      · obtain ⟨q, -, rfl⟩ := exists_of_map_eq_ok h
        exact hset _ _ (hnumber q)
      · cases h
        exact hset _ _ hop
    next => cases h; exact hset _ _ hop
    next => cases h; exact hset _ _ hop
    next => cases h; exact hpathOps

lemma collapseOperations_values (hnumber : ∀ q, P (view.number q))
    {ops ops' : List (DeltaOperation V)}
    (hops : ∀ op ∈ ops, P op.value) (h : collapseOperations view ops = .ok ops') :
    ∀ op ∈ ops', P op.value := by
  obtain ⟨pathOps, hfold, rfl⟩ := exists_of_map_eq_ok h
  have hloop : ∀ (ops : List (DeltaOperation V)) (m m' : Js.Map String (DeltaOperation V)),
      (∀ op ∈ ops, P op.value) → (∀ o ∈ m.values, P o.value) →
      ops.foldlM (collapseStep view) m = .ok m' → ∀ o ∈ m'.values, P o.value := by
    intro ops
    induction ops with
    | nil =>
      intro m m' _ hm h
      cases h
      exact hm
    | cons op ops ih =>
      intro m m' hops hm h
      rw [List.foldlM_cons] at h
      cases hstep : collapseStep view m op with
      | error e =>
        rw [hstep] at h
        cases h
      | ok m₁ =>
        rw [hstep] at h
        exact ih m₁ m' (fun o ho => hops o (by simp [ho]))
          (collapseStep_values hnumber (hops op (by simp)) hm hstep) h
  exact hloop ops .empty pathOps hops (fun o ho => by simp [Js.Map.values, Js.Map.empty] at ho)
    hfold

/-- **Compression makes no values but numbers.** -/
lemma compress_values (hnumber : ∀ q, P (view.number q)) {batch compressed : List (StateDelta V)}
    (hbatch : ∀ d ∈ batch, ∀ op ∈ d.operations, P op.value)
    (h : compress view batch = .ok compressed) :
    ∀ d ∈ compressed, ∀ op ∈ d.operations, P op.value := by
  intro d hd
  obtain ⟨id, ds, hgroup, hd⟩ := mem_compress h hd
  rcases mem_compressGroup hgroup hd with hd | ⟨-, -, -, -, sorted, hperm, hops⟩
  · exact hbatch d (List.mem_filter.1 hd).1
  · refine collapseOperations_values hnumber (fun op hop => ?_) hops
    obtain ⟨c, hc, hop⟩ := List.mem_flatMap.1 hop
    exact hbatch c (List.mem_filter.1 (hperm.mem_iff.1 hc)).1 op hop

end Values

/-- Several deltas of one entity become one, with what their operations collapse to. -/
lemma compressGroup_of_many {group : List (StateDelta V)} (hne : group ≠ [])
    (hmany : 2 ≤ group.length) (htime : group.Pairwise fun a b => a.timestamp ≤ b.timestamp) :
    compressGroup view group =
      (collapseOperations view (group.flatMap (·.operations))).map fun merged =>
        [⟨(group.head hne).entityId, (group.head hne).fromVersion, (group.getLast hne).toVersion,
          merged, (group.getLast hne).timestamp⟩] := by
  rcases group with _ | ⟨first, _ | ⟨second, rest⟩⟩
  · exact absurd rfl hne
  · simp at hmany
  · have hsort : sortOn (fun d : StateDelta V => d.timestamp) (first :: second :: rest) =
        first :: second :: rest := sortOn_eq_self htime
    have hgroup : compressGroup view (first :: second :: rest) =
        (mergeEntityDeltas view (first :: second :: rest)).map Option.toList := rfl
    rw [hgroup]
    simp only [mergeEntityDeltas, hsort]
    cases collapseOperations view ((first :: second :: rest).flatMap fun d => d.operations) <;> rfl

/-- What the deltas of one entity become, with what their operations become. -/
lemma compressGroup_spec {group : List (StateDelta V)} {id : EntityId}
    {R : List (DeltaOperation V) → Prop} (hne : group ≠ [])
    (htime : group.Pairwise fun a b => a.timestamp ≤ b.timestamp)
    (hid : ∀ d ∈ group, d.entityId = id)
    (hone : group.length = 1 → R (group.flatMap (·.operations)))
    (hmany : 2 ≤ group.length → ∃ merged,
      collapseOperations view (group.flatMap (·.operations)) = .ok merged ∧ R merged) :
    ∃ d, compressGroup view group = .ok [d] ∧ d.entityId = id ∧
      d.fromVersion = (group.head hne).fromVersion ∧
      d.toVersion = (group.getLast hne).toVersion ∧ R d.operations := by
  by_cases hlen : 2 ≤ group.length
  · obtain ⟨merged, hmerged, hR⟩ := hmany hlen
    rw [compressGroup_of_many hne hlen htime, hmerged]
    exact ⟨_, rfl, hid (group.head hne) (List.head_mem hne), rfl, rfl, hR⟩
  · rcases group with _ | ⟨first, _ | ⟨second, rest⟩⟩
    · exact absurd rfl hne
    · exact ⟨first, rfl, hid first (by simp), rfl, rfl, by simpa using hone rfl⟩
    · simp at hlen

/-- **A compressed batch does to every entity what the batch does**: for data on which the batch
does not throw, and on which the operations of each entity with several deltas collapse. -/
lemma compress_sound {data : EntityId → Option (Obj Doc)} {batch : List (StateDelta V)}
    (htime : batch.Pairwise fun a b => a.timestamp ≤ b.timestamp)
    (hlive : ∀ d ∈ batch, (data d.entityId).isSome)
    (hok : ∀ id o, data id = some o → (applyAll (docs view (operationsOn id batch)) o).2 = none)
    (hcond : ∀ id o, data id = some o → 2 ≤ (deltasOf id batch).length →
      Collapsible view (operationsOn id batch) o) :
    ∃ compressed, compress view batch = .ok compressed ∧
      (compressed.map fun d => d.entityId).Nodup ∧
      (∀ id, id ∈ compressed.map (fun d => d.entityId) ↔ id ∈ batch.map fun d => d.entityId) ∧
      ∀ d ∈ compressed,
        (∃ first rest, deltasOf d.entityId batch = first :: rest ∧
          d.fromVersion = first.fromVersion) ∧
        ∀ o, data d.entityId = some o →
          applyAll (docs view d.operations) o =
            applyAll (docs view (operationsOn d.entityId batch)) o := by
  suffices hgroups : ∀ id, deltasOf id batch ≠ [] →
      ∃ d, compressGroup view (deltasOf id batch) = .ok [d] ∧ d.entityId = id ∧
        ((∃ first rest, deltasOf d.entityId batch = first :: rest ∧
          d.fromVersion = first.fromVersion) ∧
        ∀ o, data d.entityId = some o →
          applyAll (docs view d.operations) o =
            applyAll (docs view (operationsOn d.entityId batch)) o) by
    obtain ⟨compressed, hc, hids, hspec⟩ := compress_spec hgroups
    refine ⟨compressed, hc, ?_, fun id => ?_, hspec⟩
    · rw [hids, ← keys_groupDeltas]
      exact (groupDeltas batch).nodup
    · rw [hids, List.mem_eraseDups]
  intro id hne
  have hmem := deltasOf_ne_nil.mp hne
  obtain ⟨d₀, hd₀, rfl⟩ := List.mem_map.mp hmem
  obtain ⟨o, ho⟩ := Option.isSome_iff_exists.mp (hlive d₀ hd₀)
  obtain ⟨d, hd, hid, hfrom, -, hops⟩ := @compressGroup_spec V view _ _
    (fun ops => ∀ o, data d₀.entityId = some o → applyAll (docs view ops) o =
      applyAll (docs view (operationsOn d₀.entityId batch)) o)
    hne (htime.filter _) (fun d hd => by simpa [deltasOf] using (List.mem_filter.mp hd).2)
    (fun _ _ _ => rfl) (fun hmany => by
      obtain ⟨merged, hmerged, heq⟩ :=
        collapseOperations_sound (hcond _ o ho hmany) (hok _ o ho)
      refine ⟨merged, hmerged, fun o' ho' => ?_⟩
      rw [ho, Option.some.injEq] at ho'
      rwa [← ho'])
  refine ⟨d, hd, hid, ?_, ?_⟩
  · rw [hid]
    exact ⟨_, _, (List.cons_head_tail hne).symm, hfrom⟩
  · rw [hid]
    exact hops

end Groups

/-! ## Batches that updates have recorded -/

/-- The deltas that updates of a store record, one after another. -/
inductive Recorded : StateManager Cells Doc → List (StateDelta Doc) → Prop
  | nil (σ : StateManager Cells Doc) : Recorded σ []
  | cons {σ : StateManager Cells Doc} {id : EntityId} {operations : List (DeltaOperation Doc)}
      {now : Timestamp} {d : StateDelta Doc} {ds : List (StateDelta Doc)}
      (hupdate : (σ.receiveUpdate id operations now).2 = .updated d)
      (hrest : Recorded (σ.receiveUpdate id operations now).1 ds) : Recorded σ (d :: ds)

/-- Operation values that are documents, with their JSON texts. -/
def docView (text : Doc → String) : ValueView Doc :=
  ⟨id, text, fun q => .prim (.num q), fun _ => rfl⟩

@[simp] lemma docs_docView (text : Doc → String) (ops : List (DeltaOperation Doc)) :
    docs (docView text) ops = ops := by
  simp [docs, docView, DeltaOperation.map]

lemma parseOperations_cells (m : Cells) (ops : List (DeltaOperation Doc)) :
    (parseOperations m ops).1 = ops := by
  induction ops generalizing m with
  | nil => rfl
  | cons op ops ih => exact congrArg (List.cons op) (ih m)

/-- What an update that records a delta has done. -/
lemma recorded_update {σ : StateManager Cells Doc} {T : Ref → Option (Record Doc)}
    (hσ : σ.Holds T) {id : EntityId} {operations : List (DeltaOperation Doc)} {now : Timestamp}
    {d : StateDelta Doc} (h : (σ.receiveUpdate id operations now).2 = .updated d) :
    ∃ o T', σ.data d.entityId = some o ∧ (applyAll d.operations o).2 = none ∧
      (σ.receiveUpdate id operations now).1.Holds T' ∧
      (σ.receiveUpdate id operations now).1.data = applyDelta σ.data d := by
  cases hget : σ.entities.get? id with
  | none =>
      rw [StateManager.receiveUpdate_of_none hget] at h
      cases h
  | some e =>
      obtain ⟨done, hdone⟩ := Option.isSome_iff_exists.mp (hσ.tracked id e hget)
      obtain ⟨more, -, -, hholds, hdata, hresult⟩ := hσ.receiveUpdate hget hdone operations now
      rw [h] at hresult
      rcases hok : (applyAll operations (Memory.read σ.memory e.data)).2 with _ | err
      · rw [hok] at hresult
        injection hresult with hd
        subst hd
        have hsome := StateManager.data_eq_some hget
        simp only [parseOperations_cells]
        refine ⟨_, _, hsome, hok, hholds, ?_⟩
        funext j
        rw [hdata, applyDelta, Function.update_apply, hsome]
        rfl
      · rw [hok] at hresult
        cases hresult

/-- A recorded batch applies to the store it was recorded on. -/
lemma Recorded.applies {σ : StateManager Cells Doc} {batch : List (StateDelta Doc)}
    (h : Recorded σ batch) {T : Ref → Option (Record Doc)} (hσ : σ.Holds T) :
    (∀ d ∈ batch, (σ.data d.entityId).isSome) ∧
      ∀ id o, σ.data id = some o → (applyAll (operationsOn id batch) o).2 = none := by
  induction h generalizing T with
  | nil σ => simp [operationsOn, deltasOf, applyAll, forEachWrite]
  | @cons σ id operations now d ds hupdate hrest ih =>
      obtain ⟨o, T', hdata, hok, hholds, hnext⟩ := recorded_update hσ hupdate
      obtain ⟨hlive, happlies⟩ := ih hholds
      rw [hnext] at hlive happlies
      have hother : ∀ j, j ≠ d.entityId → applyDelta σ.data d j = σ.data j := fun j hj => by
        rw [applyDelta, Function.update_of_ne hj]
      have hself : applyDelta σ.data d d.entityId = some (applyAll d.operations o).1 := by
        simp [applyDelta, hdata]
      refine ⟨fun c hc => ?_, fun j o' ho' => ?_⟩
      · rcases List.mem_cons.mp hc with rfl | hc
        · simp [hdata]
        · by_cases hcd : c.entityId = d.entityId
          · simp [hcd, hdata]
          · rw [← hother _ hcd]
            exact hlive c hc
      · rw [operationsOn_cons]
        by_cases hj : d.entityId = j
        · subst hj
          rw [hdata, Option.some.injEq] at ho'
          subst ho'
          have happend : applyAll (d.operations ++ operationsOn d.entityId ds) o =
              applyAll (operationsOn d.entityId ds) (applyAll d.operations o).1 :=
            forEachWrite_append_ok hok
          rw [if_pos rfl, happend]
          exact happlies _ _ hself
        · rw [if_neg hj, List.nil_append]
          exact happlies j o' ((hother j (Ne.symm hj)).trans ho')

/-- A store with one entity. -/
def oneEntity (data : Obj Doc) : StateManager Cells Doc :=
  (StateManager.new Memory.empty 100).receiveEntity "player" "p1" data "e1" 1

lemma oneEntity_reachable (data : Obj Doc) : (oneEntity data).Reachable :=
  .createEntity (.new 100) "player" "p1" data "e1" 1

lemma data_oneEntity (data : Obj Doc) (id : EntityId) :
    (oneEntity data).data id = if id = "e1" then some data else none :=
  ((StateManager.holds_new (M := Cells) 100).receiveEntity "player" "p1" data "e1" 1).2 id

/-- Two updates of the one entity, a millisecond apart. -/
def twoUpdates (first second : DeltaOperation Doc) : List (StateDelta Doc) :=
  [⟨"e1", 1, 2, [first], 2⟩, ⟨"e1", 2, 3, [second], 3⟩]

/-- Setting a number and adding to it. -/
def setThenIncrement : List (StateDelta Doc) :=
  twoUpdates ⟨.set, "hp", .prim (.num 5)⟩ ⟨.increment, "hp", .prim (.num 2)⟩

lemma recorded_setThenIncrement : Recorded (oneEntity .empty) setThenIncrement :=
  @Recorded.cons _ "e1" [⟨.set, "hp", .prim (.num 5)⟩] 2 _ _ rfl
    (@Recorded.cons _ "e1" [⟨.increment, "hp", .prim (.num 2)⟩] 3 _ _ rfl (.nil _))

lemma collapsible_setThenIncrement :
    Collapsible (docView fun _ => "") (operationsOn "e1" setThenIncrement) .empty := by
  have hops : operationsOn "e1" setThenIncrement =
      [⟨.set, "hp", .prim (.num 5)⟩, ⟨.increment, "hp", .prim (.num 2)⟩] := rfl
  rw [hops]
  refine ⟨⟨rfl, rfl, trivial⟩, ?_⟩
  rintro (_ | ⟨a, _ | ⟨b, pre⟩⟩) op post hsplit hmem
  · simp at hmem
  · simp only [List.cons_append, List.nil_append, List.cons.injEq] at hsplit
    obtain ⟨rfl, rfl, -⟩ := hsplit
    refine ⟨?_, rfl⟩
    simp [Moves, since]
  · simp at hsplit

/-- Two increments that add up to zero. -/
def incrementAndBack : List (StateDelta Doc) :=
  twoUpdates ⟨.increment, "n", .prim (.num 1)⟩ ⟨.increment, "n", .prim (.num (-1))⟩

end DeltaCompressor

end SyncEngine
