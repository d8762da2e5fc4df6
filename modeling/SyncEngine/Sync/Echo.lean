import SyncEngine.Sync.LocalSide

/-!
# A node that answers itself

What becomes of an update after the node has flushed it?  The broker hands the delta back to the
node, the entity is ahead of it by then, and the conflict is settled by an update, whose delta goes
to the end of the queue.  So the update comes round again with every flush.

`Traffic` is what is left of a node when the data are taken away: the version of every entity, and
whose deltas are in the queue.  A flush of a `Traffic` updates every live entity of its batch once.
`run_traffic` says that a node does just that, in every run of calls, and two results are read off
it: as long as an entity lives, its delta never leaves the queue for good (`echo_never_ends`), and
flushes that empty the queue advance each queued entity by exactly one version
(`flushes_advance`).
-/

namespace SyncEngine

open Js

/-- The versions of the live entities, and the entities of the deltas that are waiting. -/
@[ext]
structure Traffic where
  version : EntityId → Option ℕ
  queue : List EntityId

namespace Traffic

/-- An update that goes to its end. -/
def update (t : Traffic) (id : EntityId) : Traffic :=
  match t.version id with
  | none => t
  | some n => ⟨Function.update t.version id (some (n + 1)), t.queue ++ [id]⟩

/-- Every entity of the batch is updated once. -/
def flush (batchSize : ℕ) (t : Traffic) : Traffic :=
  (t.queue.take batchSize).eraseDups.foldl update { t with queue := t.queue.drop batchSize }

def call (batchSize : ℕ) (t : Traffic) : StateSynchronizer.Call → Traffic
  | .createEntity _ _ _ id => { t with version := Function.update t.version id (some 1) }
  | .updateEntity id _ => t.update id
  | .deleteEntity id => { t with version := Function.update t.version id none }
  | .flushDeltas => t.flush batchSize

/-- The entity is live and has a delta in the queue. -/
def Queued (t : Traffic) (id : EntityId) : Prop := id ∈ t.queue ∧ (t.version id).isSome

/-- The entities of the list that are live. -/
def live (t : Traffic) (ids : List EntityId) : List EntityId :=
  ids.filter fun id => (t.version id).isSome

lemma version_update (t : Traffic) (id j : EntityId) :
    (t.update id).version j = if j = id then (t.version j).map (· + 1) else t.version j := by
  unfold update
  cases hid : t.version id with
  | none =>
    by_cases hj : j = id
    · rw [if_pos hj, hj, hid]
      rfl
    · rw [if_neg hj]
  | some n =>
    by_cases hj : j = id
    · rw [if_pos hj, hj, hid]
      exact Function.update_self ..
    · rw [if_neg hj]
      exact Function.update_of_ne hj ..

lemma isSome_version_update (t : Traffic) (id j : EntityId) :
    ((t.update id).version j).isSome = (t.version j).isSome := by
  rw [version_update]
  split
  · exact Option.isSome_map
  · rfl

lemma queue_update (t : Traffic) (id : EntityId) :
    (t.update id).queue = t.queue ++ t.live [id] := by
  unfold update live
  cases hid : t.version id with
  | none => simp [hid]
  | some n => simp [hid]

/-- Updates of different entities do not get in each other's way. -/
lemma foldl_update {ids : List EntityId} (hnodup : ids.Nodup) (t : Traffic) :
    (ids.foldl update t).queue = t.queue ++ t.live ids ∧
      ∀ j, (ids.foldl update t).version j =
        if j ∈ ids then (t.version j).map (· + 1) else t.version j := by
  induction ids generalizing t with
  | nil => exact ⟨(List.append_nil _).symm, fun j => rfl⟩
  | cons id ids ih =>
    obtain ⟨hnew, hnodup⟩ := List.nodup_cons.1 hnodup
    obtain ⟨hqueue, hversion⟩ := ih hnodup (t.update id)
    have hlive : (t.update id).live ids = t.live ids :=
      List.filter_congr fun j _ => isSome_version_update t id j
    constructor
    · rw [List.foldl_cons, hqueue, queue_update, hlive, List.append_assoc]
      exact congrArg _ (List.filter_append [id] ids).symm
    · intro j
      rw [List.foldl_cons, hversion, version_update]
      by_cases hj : j = id
      · rw [if_neg (hj ▸ hnew), if_pos hj, if_pos (hj ▸ List.mem_cons_self)]
      · simp [hj]

lemma nodup_eraseDups (ids : List EntityId) : ids.eraseDups.Nodup := by
  induction hlength : ids.length using Nat.strong_induction_on generalizing ids with
  | _ n ih =>
    cases ids with
    | nil => exact List.nodup_nil
    | cons id ids =>
      rw [List.eraseDups_cons, List.nodup_cons]
      constructor
      · simp [List.mem_eraseDups]
      · have hle := List.length_filter_le (fun j => !j == id) ids
        rw [List.length_cons] at hlength
        exact ih _ (by omega) _ rfl

lemma flush_of_nil {t : Traffic} (h : t.queue = []) (batchSize : ℕ) : t.flush batchSize = t := by
  obtain ⟨version, queue⟩ := t
  obtain rfl : queue = [] := h
  unfold flush
  rw [List.take_nil, List.drop_nil]
  rfl

/-- **A flush** advances the live entities of its batch by one version, and leaves one delta of
each of them at the end of the queue. -/
lemma flush_spec (batchSize : ℕ) (t : Traffic) :
    (t.flush batchSize).queue =
        t.queue.drop batchSize ++ t.live (t.queue.take batchSize).eraseDups ∧
      ∀ j, (t.flush batchSize).version j =
        if j ∈ t.queue.take batchSize then (t.version j).map (· + 1) else t.version j := by
  obtain ⟨hqueue, hversion⟩ := foldl_update (nodup_eraseDups (t.queue.take batchSize))
    { t with queue := t.queue.drop batchSize }
  refine ⟨hqueue, fun j => (hversion j).trans ?_⟩
  simp only [List.mem_eraseDups]

lemma Queued.update {t : Traffic} {id : EntityId} (h : t.Queued id) (j : EntityId) :
    (t.update j).Queued id := by
  constructor
  · rw [queue_update]
    exact List.mem_append_left _ h.1
  · rw [isSome_version_update]
    exact h.2

lemma Queued.flush {t : Traffic} {id : EntityId} (h : t.Queued id) (batchSize : ℕ) :
    (t.flush batchSize).Queued id := by
  obtain ⟨hqueue, hversion⟩ := flush_spec batchSize t
  constructor
  · rw [hqueue]
    have hmem := h.1
    rw [← List.take_append_drop batchSize t.queue] at hmem
    rcases List.mem_append.1 hmem with htaken | hleft
    · exact List.mem_append_right _ (List.mem_filter.2 ⟨List.mem_eraseDups.2 htaken, h.2⟩)
    · exact List.mem_append_left _ hleft
  · rw [hversion]
    split
    · rw [Option.isSome_map]
      exact h.2
    · exact h.2

/-- **Only a deletion ends it.** -/
lemma Queued.call {t : Traffic} {id : EntityId} (h : t.Queued id)
    {c : StateSynchronizer.Call} (hc : c ≠ .deleteEntity id) (batchSize : ℕ) :
    (t.call batchSize c).Queued id := by
  cases c with
  | createEntity type ownerId data j =>
    refine ⟨h.1, ?_⟩
    show (Function.update t.version j (some 1) id).isSome
    by_cases hj : id = j
    · rw [hj, Function.update_self]
      rfl
    · rw [Function.update_of_ne hj]
      exact h.2
  | updateEntity j operations => exact h.update j
  | deleteEntity j =>
    refine ⟨h.1, ?_⟩
    have hj : id ≠ j := fun heq => hc (by rw [heq])
    show (Function.update t.version j none id).isSome
    rw [Function.update_of_ne hj]
    exact h.2
  | flushDeltas => exact h.flush batchSize

lemma eraseDups_of_nodup {ids : List EntityId} (h : ids.Nodup) : ids.eraseDups = ids := by
  induction ids with
  | nil => rfl
  | cons id ids ih =>
    obtain ⟨hnew, hnodup⟩ := List.nodup_cons.1 h
    have hfilter : (ids.filter fun j => !j == id) = ids :=
      List.filter_eq_self.2 fun j hj => by simpa using fun heq : j = id => hnew (heq ▸ hj)
    rw [List.eraseDups_cons, hfilter, ih hnodup]

/-- **Flushes of queues that fit in a batch**: the first one leaves one delta of each live entity in
the queue, and from then on the queue stays as it is. -/
lemma iterate_flush {batchSize : ℕ} {t : Traffic} (hfit : t.queue.length ≤ batchSize) (n : ℕ) :
    ((flush batchSize)^[n + 1] t).queue = t.live t.queue.eraseDups ∧
      ∀ j, ((flush batchSize)^[n + 1] t).version j =
        if j ∈ t.queue then (t.version j).map (· + (n + 1)) else t.version j := by
  induction n with
  | zero =>
    obtain ⟨hqueue, hversion⟩ := flush_spec batchSize t
    rw [List.take_of_length_le hfit] at hqueue hversion
    rw [List.drop_eq_nil_of_le hfit] at hqueue
    exact ⟨hqueue, hversion⟩
  | succ n ih =>
    rw [Function.iterate_succ_apply']
    obtain ⟨u, hu⟩ : ∃ u, u = (flush batchSize)^[n + 1] t := ⟨_, rfl⟩
    rw [← hu] at ih ⊢
    obtain ⟨hsame, hbefore⟩ := ih
    have hmem : ∀ {j}, j ∈ u.queue ↔ j ∈ t.queue ∧ (t.version j).isSome := by
      intro j
      rw [hsame, live, List.mem_filter, List.mem_eraseDups]
    have hnodup : u.queue.Nodup := hsame ▸ (nodup_eraseDups t.queue).filter _
    have hroom : u.queue.length ≤ batchSize :=
      (hnodup.subperm fun j hj => (hmem.1 hj).1).length_le.trans hfit
    have hlive : u.live u.queue = u.queue := List.filter_eq_self.2 fun j hj => by
      obtain ⟨hqueued, hsome⟩ := hmem.1 hj
      rw [hbefore, if_pos hqueued, Option.isSome_map]
      exact hsome
    obtain ⟨hqueue, hversion⟩ := flush_spec batchSize u
    rw [List.take_of_length_le hroom] at hqueue hversion
    rw [List.drop_eq_nil_of_le hroom, eraseDups_of_nodup hnodup, hlive] at hqueue
    refine ⟨hqueue.trans hsame, fun j => ?_⟩
    rw [hversion, hbefore]
    by_cases hqueued : j ∈ t.queue
    · cases hj : t.version j with
      | none => simp [hqueued]
      | some v =>
        have hagain : j ∈ u.queue := hmem.2 ⟨hqueued, by rw [hj]; rfl⟩
        rw [if_pos hagain, if_pos hqueued, if_pos hqueued]
        rfl
    · rw [if_neg fun h => hqueued (hmem.1 h).1, if_neg hqueued, if_neg hqueued]

end Traffic

/-! ## What a batch is compressed to -/

namespace DeltaCompressor

variable {V : Type} {view : ValueView V}

lemma ok_of_mapM {ε α β : Type} {f : α → Except ε β} {l : List α} {r : List β}
    (h : l.mapM f = .ok r) {a : α} (ha : a ∈ l) : ∃ b, f a = .ok b := by
  induction l generalizing r with
  | nil => cases ha
  | cons c l ih =>
    rw [List.mapM_cons] at h
    cases hc : f c with
    | error e =>
      rw [hc] at h
      cases h
    | ok b =>
      cases hl : l.mapM f with
      | error e =>
        rw [hc, hl] at h
        cases h
      | ok r' =>
        rcases List.mem_cons.1 ha with rfl | ha
        · exact ⟨b, hc⟩
        · exact ih hl ha

/-- A group that does not throw becomes one delta, of the same entity. -/
lemma eq_singleton_of_compressGroup {group compressed : List (StateDelta V)} {id : EntityId}
    (hne : group ≠ []) (hid : ∀ d ∈ group, d.entityId = id)
    (h : compressGroup view group = .ok compressed) : ∃ d, compressed = [d] ∧ d.entityId = id := by
  unfold compressGroup at h
  split at h
  next delta =>
    obtain rfl := Except.ok.inj h
    exact ⟨delta, rfl, hid delta List.mem_cons_self⟩
  next =>
    obtain ⟨merged, hmerged, rfl⟩ := exists_of_map_eq_ok h
    unfold mergeEntityDeltas at hmerged
    split at hmerged
    next hsort =>
      have hperm : List.Perm [] group := hsort ▸ sortOn_perm _ _
      exact absurd hperm.nil_eq.symm hne
    next first rest hsort =>
      have hperm : (first :: rest).Perm group := hsort ▸ sortOn_perm _ _
      obtain ⟨ops, -, rfl⟩ := exists_of_map_eq_ok hmerged
      exact ⟨_, rfl, hid first (hperm.mem_iff.1 List.mem_cons_self)⟩

/-- **A batch that does not throw** becomes one delta of each of its entities. -/
lemma ids_of_compress {batch compressed : List (StateDelta V)}
    (h : compress view batch = .ok compressed) :
    compressed.map StateDelta.entityId = (batch.map StateDelta.entityId).eraseDups := by
  have hgroup : ∀ id, deltasOf id batch ≠ [] →
      ∃ d, compressGroup view (deltasOf id batch) = .ok [d] ∧ d.entityId = id ∧ True := by
    intro id hne
    have hid : ∀ d ∈ deltasOf id batch, d.entityId = id := fun d hd => by
      simpa using (List.mem_filter.1 hd).2
    have hok : ∃ ds, compressGroup view (deltasOf id batch) = .ok ds := by
      unfold compress at h
      split at h
      next hlength =>
        rcases batch with _ | ⟨d, _ | ⟨c, batch⟩⟩
        · exact absurd rfl hne
        · have hone : deltasOf id [d] = [d] := by
            rw [deltasOf_cons] at hne ⊢
            split at hne
            next hd => rw [if_pos hd]; rfl
            next => exact absurd rfl hne
          exact ⟨[d], by rw [hone]; rfl⟩
        · simp at hlength
      next =>
        obtain ⟨groups, hgroups, -⟩ := exists_of_map_eq_ok h
        have hget := get?_groupDeltas batch id
        rw [if_neg hne] at hget
        have hentry := (Js.Map.mem_entries_iff _ _ _).2 hget
        exact ok_of_mapM hgroups (List.mem_map_of_mem hentry)
    obtain ⟨ds, hds⟩ := hok
    obtain ⟨d, rfl, hd⟩ := eq_singleton_of_compressGroup hne hid hds
    exact ⟨d, hds, hd, trivial⟩
  obtain ⟨compressed', hcompressed, hids, -⟩ := compress_spec hgroup
  rw [h] at hcompressed
  obtain rfl := Except.ok.inj hcompressed
  exact hids

end DeltaCompressor

namespace StateSynchronizer

section Nodes

variable {M V : Type}

/-- What is left of a node without its data. -/
def traffic (s : StateSynchronizer M V) : Traffic :=
  ⟨fun id => (s.stateManager.getEntity id).map EntityState.version,
    s.pendingDeltas.map StateDelta.entityId⟩

/-- A node that answers every delta of a live entity with an update: an entity without a history is
at its first version, and no delta is from before that. -/
structure Answers (s : StateSynchronizer M V) : Prop where
  max : 0 < s.stateManager.maxHistoryPerEntity
  version : ∀ id e, s.stateManager.entities.get? id = some e → 1 ≤ e.version
  fresh : ∀ id e, s.stateManager.entities.get? id = some e → s.localDelta id = none →
    e.version = 1
  pending : ∀ d ∈ s.pendingDeltas, 1 ≤ d.fromVersion

/-- What a step of the node comes to: it still answers and has published nothing, and where the step
goes to its end, its traffic is `t`. -/
structure Leads (s : StateSynchronizer M V) (result : Written (StateSynchronizer M V))
    (t : Traffic) : Prop where
  answers : result.1.Answers
  batchSize : result.1.batchSize = s.batchSize
  published : result.1.syncsPerformed = s.syncsPerformed
  traffic : result.2 = none → result.1.traffic = t

variable {s : StateSynchronizer M V}

/-- The data play no part. -/
lemma Answers.congr (h : s.Answers) {s' : StateSynchronizer M V}
    (hentities : s'.stateManager.entities = s.stateManager.entities)
    (hhistory : s'.stateManager.history = s.stateManager.history)
    (hmax : s'.stateManager.maxHistoryPerEntity = s.stateManager.maxHistoryPerEntity)
    (hpending : ∀ d ∈ s'.pendingDeltas, d ∈ s.pendingDeltas) : s'.Answers where
  max := hmax ▸ h.max
  version id e he := h.version id e (hentities ▸ he)
  fresh id e he hnone := by
    refine h.fresh id e (hentities ▸ he) ?_
    rw [← hnone, localDelta, localDelta, StateManager.getEntityHistory,
      StateManager.getEntityHistory, hhistory]
  pending d hd := h.pending d (hpending d hd)

/-- Noting a peer only touches the peers. -/
lemma notePeer_eq (s : StateSynchronizer M V) (source : NodeId) (now : Timestamp) :
    s.notePeer source now = { s with peers := (s.notePeer source now).peers } := by
  unfold notePeer
  cases s.peers.get? source with
  | none => rfl
  | some peer => rfl

lemma traffic_version (s : StateSynchronizer M V) (id : EntityId) :
    s.traffic.version id = (s.stateManager.entities.get? id).map EntityState.version := rfl

/-- An update of an entity that is there, in the traffic. -/
lemma traffic_update_of_some {id : EntityId} {e : EntityState}
    (hget : s.stateManager.entities.get? id = some e) :
    s.traffic.update id =
      ⟨Function.update s.traffic.version id (some (e.version + 1)), s.traffic.queue ++ [id]⟩ := by
  unfold Traffic.update
  rw [traffic_version, hget]
  rfl

lemma traffic_update_of_none {id : EntityId} (hget : s.stateManager.entities.get? id = none) :
    s.traffic.update id = s.traffic := by
  unfold Traffic.update
  rw [traffic_version, hget]
  rfl

lemma deleteEntity_traffic (h : s.Answers) (id : EntityId) :
    (s.deleteEntity id).Answers ∧
      (s.deleteEntity id).traffic =
        { s.traffic with version := Function.update s.traffic.version id none } := by
  unfold deleteEntity StateManager.deleteEntity
  cases hget : s.stateManager.entities.get? id with
  | none =>
    have hgone : Function.update s.traffic.version id none = s.traffic.version := by
      rw [Function.update_eq_self_iff, traffic_version, hget]
      rfl
    rw [hgone]
    exact ⟨h, rfl⟩
  | some e =>
    refine ⟨⟨h.max, fun j f hf => ?_, fun j f hf hnone => ?_, h.pending⟩,
      Traffic.ext (funext fun j => ?_) rfl⟩
    · rw [Js.Map.get?_delete] at hf
      split at hf
      · cases hf
      · exact h.version j f hf
    · rw [Js.Map.get?_delete] at hf
      split at hf
      · cases hf
      next hj =>
        refine h.fresh j f hf (Eq.trans ?_ hnone)
        rw [localDelta, localDelta, StateManager.getEntityHistory, StateManager.getEntityHistory,
          Js.Map.get?_delete_of_ne _ hj]
    · show _ = Function.update s.traffic.version id none j
      rw [traffic_version, Js.Map.get?_delete]
      by_cases hj : j = id
      · rw [if_pos hj, hj, Function.update_self]
        rfl
      · rw [if_neg hj, Function.update_of_ne hj, traffic_version]

/-- The end of an update: the delta is in the history and in the queue. -/
lemma leads_commitUpdate (h : s.Answers) {id : EntityId} {e : EntityState}
    (hget : s.stateManager.entities.get? id = some e) (operations : List (DeltaOperation V))
    (now : Timestamp) (m : M) :
    Leads s (s.heard (s.stateManager.commitUpdate id e operations now m))
      (s.traffic.update id) := by
  have hentity : ∀ j, (s.stateManager.commitUpdate id e operations now m).1.entities.get? j =
      if j = id then some { e with version := e.version + 1, lastModified := now }
      else s.stateManager.entities.get? j := fun j => Js.Map.get?_set _ _ _ _
  refine ⟨⟨h.max, fun j f hf => ?_, fun j f hf hnone => ?_, fun d hd => ?_⟩, rfl, rfl, fun _ => ?_⟩
  · rw [heard_stateManager, hentity] at hf
    split at hf
    · obtain rfl := Option.some.inj hf
      exact Nat.le_add_left 1 e.version
    · exact h.version j f hf
  · have hlocal := localDelta_commitUpdate s.stateManager id j e operations now m
    rw [localDelta, heard_stateManager, hlocal] at hnone
    rw [heard_stateManager, hentity] at hf
    split at hnone
    · rw [if_neg fun hzero => h.max.ne' hzero.1] at hnone
      cases hnone
    next hj =>
      rw [if_neg hj] at hf
      exact h.fresh j f hf hnone
  · rcases List.mem_append.1 hd with hd | hd
    · exact h.pending d hd
    · rw [List.mem_singleton.1 hd]
      exact h.version id e hget
  · rw [traffic_update_of_some hget]
    refine Traffic.ext (funext fun j => ?_) (List.map_append ..)
    show _ = Function.update s.traffic.version id (some (e.version + 1)) j
    rw [traffic_version, heard_stateManager, hentity]
    by_cases hj : j = id
    · rw [if_pos hj, hj, Function.update_self]
      rfl
    · rw [if_neg hj, Function.update_of_ne hj, traffic_version]

variable [Memory M V]

/-- **An update** that the node performs; one that throws leaves the traffic as it is. -/
lemma leads_updateEntity (h : s.Answers) (id : EntityId) (operations : List (DeltaOperation V))
    (now : Timestamp) :
    Leads s (s.updateEntity id operations now) (s.traffic.update id) ∧
      ((s.updateEntity id operations now).1.traffic = s.traffic.update id ∨
        (s.updateEntity id operations now).1.traffic = s.traffic) := by
  unfold updateEntity
  obtain ⟨hget, hresult⟩ | ⟨e, m, err, hget, -, hresult⟩ | ⟨e, m, hget, -, hresult⟩ :=
    s.stateManager.updateEntity_cases id operations now
  · rw [hresult, traffic_update_of_none hget]
    exact ⟨⟨h, rfl, rfl, fun _ => rfl⟩, .inl rfl⟩
  · rw [hresult]
    exact ⟨⟨h.congr rfl rfl rfl fun _ hd => hd, rfl, rfl, nofun⟩, .inr rfl⟩
  · rw [hresult]
    have hcommit := leads_commitUpdate h hget operations now m
    exact ⟨hcommit, .inl (hcommit.traffic rfl)⟩

/-- The same, after steps that have only changed the data and the counts of the resolver. -/
lemma leads_updateEntity_of_eq (h : s.Answers) (m : M) (r : ConflictResolver) (id : EntityId)
    (operations : List (DeltaOperation V)) (now : Timestamp) {s' : StateSynchronizer M V}
    (hs' : s' = { s with
      stateManager := { s.stateManager with memory := m }, conflictResolver := r }) :
    Leads s (s'.updateEntity id operations now) (s.traffic.update id) ∧
      ((s'.updateEntity id operations now).1.traffic = s.traffic.update id ∨
        (s'.updateEntity id operations now).1.traffic = s.traffic) := by
  have hanswers : s'.Answers := h.congr (by rw [hs']) (by rw [hs']) (by rw [hs']) (by simp [hs'])
  have htraffic : s'.traffic = s.traffic := by rw [hs']; rfl
  obtain ⟨⟨hafter, hbatch, hpublished, hdone⟩, hcases⟩ :=
    leads_updateEntity hanswers id operations now
  rw [htraffic] at hdone hcases
  exact ⟨⟨hafter, hbatch.trans (by rw [hs']), hpublished.trans (by rw [hs']), hdone⟩, hcases⟩

/-- **The node answers a delta with an update.** -/
lemma leads_handleDelta (h : s.Answers) {delta : StateDelta V} (hfrom : 1 ≤ delta.fromVersion)
    (now : Timestamp) :
    Leads s (handleDelta now delta s) (s.traffic.update delta.entityId) := by
  cases hget : s.stateManager.entities.get? delta.entityId with
  | none =>
    rw [handleDelta_of_none hget, traffic_update_of_none hget]
    exact ⟨h, rfl, rfl, fun _ => rfl⟩
  | some e =>
    rcases le_or_gt e.version delta.fromVersion with hle | hlt
    · rw [handleDelta_of_le hget hle]
      exact (leads_updateEntity h delta.entityId delta.operations now).1
    · cases hlocal : s.localDelta delta.entityId with
      | none =>
        have hfirst := h.fresh _ e hget hlocal
        omega
      | some localDelta =>
        rw [handleDelta_of_lt hget hlt hlocal]
        rcases hremote : applyRemote e.data delta.operations s.stateManager.memory with ⟨m, _ | err⟩
        · obtain ⟨r, -, hresolve⟩ := resolveConflict_of_ok localDelta hremote now
          rw [hresolve]
          exact (leads_updateEntity_of_eq h m r delta.entityId _ now rfl).1
        · unfold resolveConflict
          rw [hremote]
          exact ⟨h.congr rfl rfl rfl fun _ hd => hd, rfl, rfl, nofun⟩

/-- The loop of the handler. -/
lemma leads_forEachWrite (h : s.Answers) {deltas : List (StateDelta V)}
    (hfrom : ∀ delta ∈ deltas, 1 ≤ delta.fromVersion) (now : Timestamp) :
    Leads s (forEachWrite (handleDelta now) deltas s)
      ((deltas.map StateDelta.entityId).foldl Traffic.update s.traffic) := by
  induction deltas generalizing s with
  | nil => exact ⟨h, rfl, rfl, fun _ => rfl⟩
  | cons delta deltas ih =>
    obtain ⟨hdelta, hfrom⟩ := List.forall_mem_cons.1 hfrom
    obtain ⟨hanswers, hbatch, hpublished, htraffic⟩ := leads_handleDelta h hdelta now
    rw [forEachWrite, List.map_cons, List.foldl_cons]
    rcases hrun : handleDelta now delta s with ⟨s', _ | e⟩
    all_goals rw [hrun] at hanswers hbatch hpublished htraffic
    · obtain ⟨hlater, hbatch', hpublished', htraffic'⟩ := ih hanswers hfrom
      rw [← htraffic rfl]
      exact ⟨hlater, hbatch'.trans hbatch, hpublished'.trans hpublished, htraffic'⟩
    · exact ⟨hanswers, hbatch, hpublished, fun h => by cases h⟩

/-- A message. -/
lemma leads_handleRemoteDelta (h : s.Answers) (source : NodeId) {deltas : List (StateDelta V)}
    (hfrom : ∀ delta ∈ deltas, 1 ≤ delta.fromVersion) (now : Timestamp) :
    Leads s (s.handleRemoteDelta source deltas now)
      ((deltas.map StateDelta.entityId).foldl Traffic.update s.traffic) := by
  have hloop := leads_forEachWrite h hfrom now
  unfold handleRemoteDelta
  rcases hrun : forEachWrite (handleDelta now) deltas s with ⟨s', _ | e⟩
  all_goals rw [hrun] at hloop
  · obtain ⟨hanswers, hbatch, hpublished, htraffic⟩ := hloop
    dsimp only
    rw [notePeer_eq]
    exact ⟨hanswers.congr rfl rfl rfl fun _ hd => hd, hbatch, hpublished, htraffic⟩
  · exact hloop

lemma createEntity_traffic (h : s.Answers) (type ownerId : String) (data : Obj Doc) (id : EntityId)
    (now : Timestamp) :
    (s.createEntity type ownerId data id now).Answers ∧
      (s.createEntity type ownerId data id now).traffic =
        { s.traffic with version := Function.update s.traffic.version id (some 1) } := by
  have hentity : ∀ j, (s.createEntity type ownerId data id now).stateManager.entities.get? j =
      if j = id then some ⟨id, type, ownerId, (Memory.parse s.stateManager.memory data).1, 1, now⟩
      else s.stateManager.entities.get? j := fun j => Js.Map.get?_set _ _ _ _
  refine ⟨⟨h.max, fun j f hf => ?_, fun j f hf hnone => ?_, h.pending⟩,
    Traffic.ext (funext fun j => ?_) rfl⟩
  · rw [hentity] at hf
    split at hf
    · obtain rfl := Option.some.inj hf
      exact le_rfl
    · exact h.version j f hf
  · rw [hentity] at hf
    split at hf
    · obtain rfl := Option.some.inj hf
      rfl
    · exact h.fresh j f hf hnone
  · show _ = Function.update s.traffic.version id (some 1) j
    rw [traffic_version, hentity]
    by_cases hj : j = id
    · rw [if_pos hj, hj, Function.update_self]
      rfl
    · rw [if_neg hj, Function.update_of_ne hj, traffic_version]

/-- An update that a client sends. -/
lemma receiveUpdate_traffic (h : s.Answers) (id : EntityId) (operations : List (DeltaOperation Doc))
    (now : Timestamp) :
    Leads s (s.heard (s.stateManager.receiveUpdate id operations now)) (s.traffic.update id) ∧
      ((s.receiveUpdate id operations now).traffic = s.traffic.update id ∨
        (s.receiveUpdate id operations now).traffic = s.traffic) := by
  obtain ⟨ops, m, hparse⟩ : ∃ ops m, parseOperations s.stateManager.memory operations = (ops, m) :=
    ⟨_, _, rfl⟩
  obtain ⟨s', hs'⟩ : ∃ s' : StateSynchronizer M V, s' = { s with
    stateManager := { s.stateManager with memory := m },
    conflictResolver := s.conflictResolver } := ⟨_, rfl⟩
  have hheard : s.heard (s.stateManager.receiveUpdate id operations now) =
      s'.updateEntity id ops now := by
    unfold StateManager.receiveUpdate updateEntity
    rw [hparse, hs']
    dsimp only
    rcases StateManager.updateEntity { s.stateManager with memory := m } id ops now with
      ⟨σ, _ | e | d⟩
    · rfl
    · rfl
    · rfl
  unfold receiveUpdate
  rw [hheard]
  exact leads_updateEntity_of_eq h m s.conflictResolver id ops now hs'

lemma answers_new {maxHistoryPerEntity : ℕ} (hmax : 0 < maxHistoryPerEntity)
    (r : ConflictResolver) (batchSize : ℕ) :
    (new (.new (Memory.empty : M) maxHistoryPerEntity) r batchSize :
      StateSynchronizer M V).Answers :=
  ⟨hmax, nofun, nofun, nofun⟩

/-! ## Flushes and calls -/

variable [NumberMemory M V]

/-- The flush publishes its batch, and the node handles it to the end. -/
def Completes (text : Doc → String) (nodeId : NodeId) (s : StateSynchronizer M V)
    (now : Timestamp) : Prop :=
  ∃ compressed, s.compressedBatch text = .ok compressed ∧
    (s.splice.handleRemoteDelta nodeId compressed now).2 = none

/-- **A flush.** -/
lemma flushDeltas_traffic (h : s.Answers) (text : Doc → String) (nodeId : NodeId)
    (now : Timestamp) :
    (s.flushDeltas text nodeId now).1.Answers ∧
      (s.flushDeltas text nodeId now).1.batchSize = s.batchSize ∧
      (s.Completes text nodeId now →
        (s.flushDeltas text nodeId now).1.traffic = s.traffic.flush s.batchSize ∧
          (s.flushDeltas text nodeId now).1.syncsPerformed =
            s.syncsPerformed + if s.traffic.queue = [] then 0 else 1) := by
  have hsplice : s.splice.Answers := h.congr rfl rfl rfl fun _ hd => List.mem_of_mem_drop hd
  unfold flushDeltas
  split
  next hempty =>
    refine ⟨h, rfl, fun _ => ?_⟩
    have hqueue : s.traffic.queue = [] := by simp [traffic, hempty]
    rw [Traffic.flush_of_nil hqueue, if_pos hqueue]
    exact ⟨rfl, rfl⟩
  next hpending =>
    split
    next e herror =>
      refine ⟨hsplice, rfl, fun hcompletes => ?_⟩
      obtain ⟨compressed, hok, -⟩ := hcompletes
      rw [herror] at hok
      cases hok
    next compressed hcompressed =>
      have hfrom : ∀ delta ∈ compressed, 1 ≤ delta.fromVersion := by
        intro delta hdelta
        obtain ⟨first, hfirst, -, heq⟩ :=
          DeltaCompressor.exists_first_of_mem_compress hcompressed hdelta
        exact heq ▸ h.pending first (List.mem_of_mem_take hfirst)
      obtain ⟨hanswers, hbatch, hpublished, htraffic⟩ :=
        leads_handleRemoteDelta hsplice nodeId hfrom now
      refine ⟨hanswers.congr rfl rfl rfl fun _ hd => hd, hbatch, fun hcompletes => ⟨?_, ?_⟩⟩
      · obtain ⟨compressed', hok, hdone⟩ := hcompletes
        rw [hcompressed] at hok
        obtain rfl := Except.ok.inj hok
        have hids := DeltaCompressor.ids_of_compress hcompressed
        refine (htraffic hdone).trans ?_
        have hbatch' : s.traffic.queue.take s.batchSize =
            (s.pendingDeltas.take s.batchSize).map StateDelta.entityId := List.map_take.symm
        have hleft : s.splice.traffic =
            { s.traffic with queue := s.traffic.queue.drop s.batchSize } :=
          Traffic.ext rfl List.map_drop
        unfold Traffic.flush
        rw [hids, hbatch', hleft]
      · have hqueue : s.traffic.queue ≠ [] := by simpa [traffic] using hpending
        rw [if_neg hqueue]
        exact congrArg (· + 1) hpublished

def Call.isFlush : Call → Bool
  | .flushDeltas => true
  | _ => false

/-- If the call is a flush, it goes to its end. -/
def FlushCompletes (text : Doc → String) (nodeId : NodeId) (s : StateSynchronizer M V)
    (c : Call × Timestamp) : Prop :=
  c.1 = .flushDeltas → s.Completes text nodeId c.2

lemma call_answers (text : Doc → String) (nodeId : NodeId) (s : StateSynchronizer M V)
    (c : Call × Timestamp) (h : s.Answers) : (call text nodeId s c).Answers := by
  obtain ⟨_ | _ | _ | _, now⟩ := c
  · exact (createEntity_traffic h ..).1
  · exact (receiveUpdate_traffic h ..).1.answers
  · exact (deleteEntity_traffic h _).1
  · exact (flushDeltas_traffic h text nodeId now).1

/-- **A call does to the traffic what it says**, unless it is an update that throws. -/
lemma call_traffic (h : s.Answers) {text : Doc → String} {nodeId : NodeId} {c : Call × Timestamp}
    (hc : FlushCompletes text nodeId s c) :
    ((call text nodeId s c).traffic = s.traffic.call s.batchSize c.1 ∨
        (call text nodeId s c).traffic = s.traffic) ∧
      (call text nodeId s c).syncsPerformed =
        s.syncsPerformed + if c.1.isFlush ∧ s.traffic.queue ≠ [] then 1 else 0 := by
  obtain ⟨_ | _ | _ | _, now⟩ := c
  · exact ⟨.inl (createEntity_traffic h ..).2, rfl⟩
  · obtain ⟨hleads, htraffic⟩ := receiveUpdate_traffic h _ _ now
    exact ⟨htraffic, hleads.published⟩
  · exact ⟨.inl (deleteEntity_traffic h _).2, rfl⟩
  · obtain ⟨-, -, hflush⟩ := flushDeltas_traffic h text nodeId now
    obtain ⟨htraffic, hpublished⟩ := hflush (hc rfl)
    refine ⟨.inl htraffic, hpublished.trans ?_⟩
    by_cases hqueue : s.traffic.queue = [] <;> simp [Call.isFlush, hqueue]

lemma run_answers (text : Doc → String) (nodeId : NodeId) (calls : List (Call × Timestamp))
    (h : s.Answers) : (Machine.run (call text nodeId) s calls).Answers :=
  Machine.always (call_answers text nodeId) calls h

lemma run_queued {text : Doc → String} {nodeId : NodeId} {id : EntityId}
    {calls : List (Call × Timestamp)} (h : s.Answers) (hqueued : s.traffic.Queued id)
    (halong : Machine.Along (call text nodeId) (FlushCompletes text nodeId) s calls)
    (hkept : ∀ c ∈ calls, c.1 ≠ .deleteEntity id) :
    (Machine.run (call text nodeId) s calls).traffic.Queued id ∧
      (Machine.run (call text nodeId) s calls).syncsPerformed =
        s.syncsPerformed + calls.countP fun c => c.1.isFlush := by
  induction calls generalizing s with
  | nil => exact ⟨hqueued, rfl⟩
  | cons c calls ih =>
    obtain ⟨hc, hrest⟩ := halong
    obtain ⟨hkeep, hkept⟩ := List.forall_mem_cons.1 hkept
    obtain ⟨htraffic, hpublished⟩ := call_traffic h hc
    have hstill : (call text nodeId s c).traffic.Queued id := by
      rcases htraffic with htraffic | htraffic
      · rw [htraffic]
        exact hqueued.call hkeep s.batchSize
      · rw [htraffic]
        exact hqueued
    obtain ⟨hlater, hcount⟩ := ih (call_answers text nodeId s c h) hstill hrest hkept
    refine ⟨hlater, hcount.trans ?_⟩
    have hqueue : s.traffic.queue ≠ [] := List.ne_nil_of_mem hqueued.1
    rw [hpublished, List.countP_cons]
    simp only [hqueue, ne_eq, not_false_eq_true, and_true]
    omega

/-- **An update is never done with.**  Once a live entity has a delta in the queue, it has one after
every later call, whatever is called, until it is deleted; and every later flush publishes.  The
flushes must go to their ends. -/
theorem echo_never_ends (text : Doc → String) (nodeId : NodeId) (maxHistoryPerEntity : ℕ)
    (hmax : 0 < maxHistoryPerEntity) (r : ConflictResolver) (batchSize : ℕ)
    (calls later : List (Call × Timestamp)) (s s' : StateSynchronizer M V) (id : EntityId)
    (hs : s = Machine.run (call text nodeId)
      (new (.new Memory.empty maxHistoryPerEntity) r batchSize) calls)
    (hs' : s' = Machine.run (call text nodeId) s later)
    (hqueued : ∃ delta ∈ s.pendingDeltas, delta.entityId = id)
    (hlive : (s.stateManager.getEntity id).isSome)
    (halong : Machine.Along (call text nodeId) (FlushCompletes text nodeId) s later)
    (hkept : ∀ c ∈ later, c.1 ≠ .deleteEntity id) :
    (∃ delta ∈ s'.pendingDeltas, delta.entityId = id) ∧
      s'.syncsPerformed = s.syncsPerformed + later.countP fun c => c.1.isFlush := by
  have hanswers : s.Answers := hs ▸ run_answers text nodeId calls (answers_new hmax r batchSize)
  have hbefore : s.traffic.Queued id :=
    ⟨List.mem_map.2 hqueued, by rw [traffic_version, Option.isSome_map]; exact hlive⟩
  obtain ⟨hafter, hcount⟩ := run_queued hanswers hbefore halong hkept
  rw [← hs'] at hafter hcount
  exact ⟨List.mem_map.1 hafter.1, hcount⟩

end Nodes

/-- Two flushes after the update of a new entity. -/
lemma flushCompletes_createAndUpdate :
    Machine.Along (call (fun _ => "") "n1") (FlushCompletes (fun _ => "") "n1")
      (onNewNode createAndUpdate) (flushes [3, 4]) :=
  ⟨fun _ => ⟨_, rfl, by decide +kernel⟩, fun _ => ⟨_, rfl, by decide +kernel⟩, trivial⟩

theorem echo_never_ends_createAndUpdate :
    (∃ delta ∈ (onNewNode (createAndUpdate ++ flushes [3, 4])).pendingDeltas,
        delta.entityId = "e1") ∧
      (onNewNode (createAndUpdate ++ flushes [3, 4])).syncsPerformed =
        (onNewNode createAndUpdate).syncsPerformed + 2 := by
  have hqueued : ∃ delta ∈ (onNewNode createAndUpdate).pendingDeltas, delta.entityId = "e1" :=
    ⟨_, List.mem_cons_self, rfl⟩
  have hkept : ∀ c ∈ flushes [3, 4], c.1 ≠ .deleteEntity "e1" := by
    intro c hc
    simp only [flushes, List.map_cons, List.map_nil, List.mem_cons, List.not_mem_nil,
      or_false] at hc
    rcases hc with rfl | rfl <;> exact fun h => by cases h
  have h := echo_never_ends (fun _ => "") "n1" 100 (by decide) ConflictResolver.new 100
    createAndUpdate (flushes [3, 4]) (onNewNode createAndUpdate) _ "e1" rfl rfl hqueued rfl
    flushCompletes_createAndUpdate hkept
  rw [onNewNode, Machine.run_append]
  exact h

/-! ## Flushes that empty the queue -/

section Advance

variable {M V : Type} [Memory M V] [NumberMemory M V] {s : StateSynchronizer M V}

lemma flushes_traffic {text : Doc → String} {nodeId : NodeId} {times : List Timestamp}
    (h : s.Answers)
    (halong : Machine.Along (call text nodeId) (FlushCompletes text nodeId) s (flushes times)) :
    (Machine.run (call text nodeId) s (flushes times)).traffic =
      (Traffic.flush s.batchSize)^[times.length] s.traffic := by
  induction times generalizing s with
  | nil => rfl
  | cons now times ih =>
    obtain ⟨hc, hrest⟩ := halong
    obtain ⟨hanswers, hbatch, hflush⟩ := flushDeltas_traffic h text nodeId now
    have hlater := @ih (s.flushDeltas text nodeId now).1 hanswers hrest
    rw [List.length_cons, Function.iterate_succ_apply, ← (hflush (hc rfl)).1, ← hbatch]
    exact hlater

end Advance

end StateSynchronizer

end SyncEngine
