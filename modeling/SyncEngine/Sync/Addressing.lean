import SyncEngine.Sync.CatchUp
import SyncEngine.Sync.InStep
import SyncEngine.Sync.LocalSide

/-!
# Messages for one node that reach all

A request names the node that it is for, and so does the answer to it, but a broker hands a message
to every subscriber of the channel and no handler looks at the name.

A snapshot replaces the store of whoever gets it, so one that is older than the store rolls it back
(`snapshot_rolls_back`).  The node that sends a message gets it too, by reference and before
`publish` returns: a node that requests a full sync answers the request itself, and a node that
answers a request handles its own answer.  That goes unnoticed only where there is no history at
all, or where the first delta of the answer throws before it has changed anything
(`addressed_iff`).
-/

namespace SyncEngine

open Js StateManager

/-! ## Snapshots of others -/

section Snapshot

variable {M V : Type} [Memory M V]

/-- Neither the store nor an entity has gone back, and no entity is gone. -/
structure StateManager.NotRolledBack (σ τ : StateManager M V) : Prop where
  version : σ.version ≤ τ.version
  entities : ∀ id e, σ.entities.get? id = some e →
    ∃ f, τ.entities.get? id = some f ∧ e.version ≤ f.version

lemma StateManager.version_parseEntities (m : M) (es : List (EntityId × EntityDoc))
    (id : EntityId) :
    (Js.Map.find id (parseEntities m es).1).map EntityState.version =
      (Js.Map.find id es).map EntityDoc.version := by
  induction es generalizing m with
  | nil => rfl
  | cons e es ih =>
    obtain ⟨j, d⟩ := e
    by_cases hj : j = id
    · simp [parseEntities, Js.Map.find, hj]
    · simpa [parseEntities, Js.Map.find, hj] using ih (Memory.parse m d.data).2

/-- **A snapshot of a lower version rolls the store back**, whatever it holds; the entities keep
their versions exactly where it holds all of them at no lower one. -/
theorem StateSynchronizer.snapshot_rolls_back (s : StateSynchronizer M V) (source : NodeId)
    (now : Timestamp) (version : ℕ) (entities : Js.Map EntityId EntityDoc)
    (h : version < s.stateManager.version) :
    ¬ NotRolledBack s.stateManager
        (s.receive source now (.stateSnapshot version entities)).1.stateManager ∧
      ((∀ id e, s.stateManager.entities.get? id = some e → ∃ f,
          (s.receive source now (.stateSnapshot version entities)).1.stateManager.entities.get? id =
            some f ∧ e.version ≤ f.version) ↔
        ∀ id e, s.stateManager.entities.get? id = some e →
          ∃ d, entities.get? id = some d ∧ e.version ≤ d.version) := by
  set τ := (s.receive source now (.stateSnapshot version entities)).1.stateManager with hτ
  have hversion : ∀ id, (τ.entities.get? id).map EntityState.version =
      (entities.get? id).map EntityDoc.version := fun id => by
    have hget : τ.entities.get? id = _ :=
      get?_receiveSnapshot s.stateManager entities version id
    rw [hget]
    exact version_parseEntities _ _ _
  refine ⟨fun hkept => absurd hkept.version (not_le.2 h), ?_⟩
  refine forall_congr' fun id => forall_congr' fun e => imp_congr_right fun _ => ?_
  constructor
  · rintro ⟨f, hf, hle⟩
    have hid := hversion id
    rw [hf] at hid
    obtain ⟨d, hd, heq⟩ := Option.map_eq_some_iff.1 hid.symm
    exact ⟨d, hd, heq ▸ hle⟩
  · rintro ⟨d, hd, hle⟩
    have hid := hversion id
    rw [hd] at hid
    obtain ⟨f, hf, heq⟩ := Option.map_eq_some_iff.1 hid
    exact ⟨f, hf, heq ▸ hle⟩

end Snapshot

/-! ## Histories -/

section Owned

variable {M V : Type}

/-- A history belongs to an entity that exists, and its deltas are of this entity. -/
def StateManager.Owned (σ : StateManager M V) : Prop :=
  ∀ id, ∀ d ∈ σ.getEntityHistory id, d.entityId = id ∧ (σ.entities.get? id).isSome

namespace StateManager.Owned

variable {σ τ : StateManager M V}

lemma of_empty (h : σ.history = .empty) : σ.Owned := by
  intro id d hd
  rw [getEntityHistory, h] at hd
  cases hd

lemma congr (h : σ.Owned) (hhistory : ∀ id, τ.getEntityHistory id = σ.getEntityHistory id)
    (hentities : ∀ id, (σ.entities.get? id).isSome → (τ.entities.get? id).isSome) : τ.Owned := by
  intro id d hd
  rw [hhistory] at hd
  exact ⟨(h id d hd).1, hentities id (h id d hd).2⟩

lemma createEntity (h : σ.Owned) (type ownerId : String) (data : Ref) (id : EntityId)
    (now : Timestamp) : (σ.createEntity type ownerId data id now).Owned := by
  refine h.congr (fun _ => rfl) fun j hj => ?_
  show ((σ.entities.set id _).get? j).isSome
  rw [Js.Map.get?_set]
  split
  · rfl
  · exact hj

lemma deleteEntity (h : σ.Owned) (id : EntityId) : (σ.deleteEntity id).Owned := by
  unfold StateManager.deleteEntity
  split
  · exact h
  · intro j d hd
    simp only [getEntityHistory, Js.Map.get?_delete] at hd ⊢
    split at hd
    · cases hd
    next hj =>
      rw [if_neg hj]
      exact h j d hd

lemma commitUpdate (h : σ.Owned) (id : EntityId) (e : EntityState)
    (operations : List (DeltaOperation V)) (now : Timestamp) (m : M) :
    (σ.commitUpdate id e operations now m).1.Owned := by
  intro j d hd
  have hhistory := get?_addToHistory σ.history σ.maxHistoryPerEntity id j
    ⟨id, e.version, e.version + 1, operations, now⟩
  have hd' : d ∈ ((addToHistory σ.history σ.maxHistoryPerEntity id
    ⟨id, e.version, e.version + 1, operations, now⟩).get? j).getD [] := hd
  show d.entityId = j ∧ ((σ.entities.set id _).get? j).isSome
  rw [hhistory] at hd'
  rw [Js.Map.get?_set]
  by_cases hj : j = id
  · rw [if_pos hj] at hd' ⊢
    subst hj
    refine ⟨?_, rfl⟩
    have hmem : d ∈ (σ.history.get? j).getD [] ++
        [⟨j, e.version, e.version + 1, operations, now⟩] := by
      dsimp only at hd'
      split at hd'
      · exact List.mem_of_mem_tail hd'
      · exact hd'
    rcases List.mem_append.1 hmem with hold | hnew
    · exact (h j d hold).1
    · rw [List.mem_singleton.1 hnew]
  · rw [if_neg hj] at hd' ⊢
    exact h j d hd'

lemma finishUpdate (h : σ.Owned) (id : EntityId) (e : EntityState)
    (operations : List (DeltaOperation V)) (now : Timestamp) (w : Written M) :
    (σ.finishUpdate id e operations now w).1.Owned := by
  rcases w with ⟨m, _ | err⟩
  · exact h.commitUpdate id e operations now m
  · exact h

variable [Memory M V]

lemma updateEntity (h : σ.Owned) (id : EntityId) (operations : List (DeltaOperation V))
    (now : Timestamp) : (σ.updateEntity id operations now).1.Owned := by
  unfold StateManager.updateEntity
  split
  · exact h
  · exact h.finishUpdate _ _ _ _ _

lemma receiveElements (h : σ.Owned) (id : EntityId) (elements : List Doc) (now : Timestamp) :
    (σ.receiveElements id elements now).1.Owned := by
  unfold StateManager.receiveElements
  dsimp only
  split
  · exact h
  · exact finishUpdate (σ := { σ with memory := _ }) h _ _ _ _ _

end StateManager.Owned

/-- A delta that is retained from a version on is in the history of its entity. -/
lemma StateManager.Owned.of_mem {σ : StateManager M V} (h : σ.Owned) {version : ℕ}
    {d : StateDelta V} (hd : d ∈ σ.getDeltasSince version) :
    d ∈ σ.getEntityHistory d.entityId ∧ (σ.entities.get? d.entityId).isSome := by
  rw [getDeltasSince, List.mem_insertionSort, List.mem_flatMap] at hd
  obtain ⟨history, hhistory, hmem⟩ := hd
  obtain ⟨id, hget⟩ := (Js.Map.mem_values_iff _ _).1 hhistory
  have hin : d ∈ σ.getEntityHistory id := by
    rw [getEntityHistory, hget]
    exact (List.mem_filter.1 hmem).1
  obtain ⟨rfl, hsome⟩ := h id d hin
  exact ⟨hin, hsome⟩

end Owned

namespace StateSynchronizer

theorem snapshot_rolls_back_player :
    ¬ NotRolledBack playerNode.stateManager
      (playerNode.receive "n2" 2 (.stateSnapshot 0 .empty)).1.stateManager :=
  (snapshot_rolls_back playerNode "n2" 2 0 .empty (by decide)).1

/-- The snapshot of a node that has just started takes the only entity away. -/
theorem snapshot_removes_entity :
    0 < playerNode.stateManager.version ∧
      playerNode.stateManager.entities.has "e1" = true ∧
      (playerNode.receive "n2" 2 (.stateSnapshot 0 .empty)).1.stateManager.version = 0 ∧
      (playerNode.receive "n2" 2 (.stateSnapshot 0 .empty)).1.stateManager.entities.has "e1" =
        false := by
  decide +kernel

/-! ## Messages of the node itself -/

section Own

variable {M V : Type}

/-- What a node publishes on the channel, as its own handler gets it: by reference. -/
inductive OwnPayload (V : Type)
  | stateDelta (deltas : List (StateDelta V))
  | stateSnapshot (version : ℕ) (entities : Js.Map EntityId EntityState)
  | stateRequest (sinceVersion : ℕ)

structure OwnMessage (V : Type) where
  source : NodeId
  target : Option NodeId
  payload : OwnPayload V

variable [Memory M V]

/-- The answer that `handleStateRequest` publishes.  `Object.fromEntries` and, in the handler,
`Object.entries` only reorder the entities. -/
def answer (s : StateSynchronizer M V) (sinceVersion : ℕ) (now : Timestamp) :
    StateSynchronizer M V × OwnPayload V :=
  let deltas := s.stateManager.getDeltasSince sinceVersion
  if deltas.length > 0 then (s, .stateDelta deltas)
  else
    let (σ, snapshot) := s.stateManager.createSnapshot now
    ({ s with stateManager := σ }, .stateSnapshot snapshot.version snapshot.entities.asObject)

/-- The subscription's handler, with the messages that it publishes in turn. -/
def handleOwn (nodeId : NodeId) (now : Timestamp) (s : StateSynchronizer M V)
    (message : OwnMessage V) : Written (StateSynchronizer M V) × List (OwnMessage V) :=
  match message.payload with
  | .stateDelta deltas => (s.handleRemoteDelta message.source deltas now, [])
  | .stateSnapshot version entities =>
    (({ s with stateManager := s.stateManager.loadSnapshot entities version }, none), [])
  | .stateRequest sinceVersion =>
    let (s', payload) := s.answer sinceVersion now
    ((s', none), [⟨nodeId, some message.source, payload⟩])

/-- `broker.publish` on the channel, as far as the node itself is concerned: the broker hands it the
message, and what it publishes in turn, and catches what a handler throws.  An answer is not
answered. -/
def publish (nodeId : NodeId) (now : Timestamp) (s : StateSynchronizer M V)
    (message : OwnMessage V) : StateSynchronizer M V :=
  let handled := s.handleOwn nodeId now message
  handled.2.foldl (fun s message => (s.handleOwn nodeId now message).1.1) handled.1.1

/-- `requestFullSync` on the node `nodeId`. -/
def requestFullSync (nodeId : NodeId) (s : StateSynchronizer M V) (fromNode : NodeId)
    (now : Timestamp) : StateSynchronizer M V :=
  s.publish nodeId now ⟨nodeId, some fromNode, .stateRequest 0⟩

/-- `handleStateRequest` on the node `nodeId`, for a request that `source` has sent to it. -/
def handleRequest (nodeId : NodeId) (s : StateSynchronizer M V) (source : NodeId)
    (sinceVersion : ℕ) (now : Timestamp) : StateSynchronizer M V :=
  s.publish nodeId now ⟨source, some nodeId, .stateRequest sinceVersion⟩

variable {s : StateSynchronizer M V}

/-- A node that has got a request, its own or another one's, handles its answer: the deltas from the
version on. -/
lemma publish_stateRequest_of_deltas {sinceVersion : ℕ}
    (h : s.stateManager.getDeltasSince sinceVersion ≠ []) (nodeId source : NodeId)
    (target : Option NodeId) (now : Timestamp) :
    s.publish nodeId now ⟨source, target, .stateRequest sinceVersion⟩ =
      (s.handleRemoteDelta nodeId (s.stateManager.getDeltasSince sinceVersion) now).1 := by
  simp only [publish, handleOwn, answer, List.length_pos_iff.2 h, gt_iff_lt, if_true]
  rfl

/-- Without such deltas it loads its own snapshot. -/
lemma publish_stateRequest_of_none {sinceVersion : ℕ}
    (h : s.stateManager.getDeltasSince sinceVersion = []) (nodeId source : NodeId)
    (target : Option NodeId) (now : Timestamp) :
    (s.publish nodeId now ⟨source, target, .stateRequest sinceVersion⟩).stateManager =
      (s.stateManager.createSnapshot now).1.loadSnapshot
        (s.stateManager.createSnapshot now).2.entities.asObject
        (s.stateManager.createSnapshot now).2.version := by
  simp only [publish, handleOwn, answer, h, List.length_nil, gt_iff_lt, lt_irrefl, if_false]
  rfl

/-! ## What handling the first delta does -/

/-- What is performed on the data of the entity of a delta, up to the first operation that
throws. -/
def performs (s : StateSynchronizer M V) (e : EntityState) (localDelta delta : StateDelta V) :
    Written M :=
  if e.version ≤ delta.fromVersion then
    applyOperations e.data delta.operations s.stateManager.memory
  else
    match applyRemote e.data delta.operations s.stateManager.memory with
    | (m, some err) => (m, some err)
    | (m, none) =>
      let ops := if s.conflictResolver.merges e.type then
          ConflictResolver.mergeOperations localDelta.operations delta.operations
        else delta.operations
      applyOperations e.data ops m

lemma updateEntity_spec {id : EntityId} {e : EntityState}
    (hget : s.stateManager.entities.get? id = some e) (operations : List (DeltaOperation V))
    (now : Timestamp) :
    (∃ m err, applyOperations e.data operations s.stateManager.memory = (m, some err) ∧
        s.updateEntity id operations now =
          ({ s with stateManager := { s.stateManager with memory := m } }, some err)) ∨
      ∃ m, applyOperations e.data operations s.stateManager.memory = (m, none) ∧
        (s.updateEntity id operations now).2 = none ∧
        (s.updateEntity id operations now).1.stateManager.version = s.stateManager.version + 1 := by
  rw [updateEntity]
  obtain ⟨hnone, -⟩ | ⟨e', m, err, hget', hops, hcase⟩ | ⟨e', m, hget', hops, hcase⟩ :=
    s.stateManager.updateEntity_cases id operations now
  · rw [hget] at hnone
    cases hnone
  · obtain rfl : e' = e := Option.some.inj (hget'.symm.trans hget)
    exact .inl ⟨m, err, hops, by rw [hcase]; rfl⟩
  · obtain rfl : e' = e := Option.some.inj (hget'.symm.trans hget)
    refine .inr ⟨m, hops, ?_, ?_⟩
    · rw [hcase]
      rfl
    · rw [hcase]
      rfl

/-- **A delta of an entity with a history**: it throws, and only the memory and the counts of the
resolver have changed, or it is one more update. -/
lemma handleDelta_spec {delta localDelta : StateDelta V} {e : EntityState}
    (hget : s.stateManager.entities.get? delta.entityId = some e)
    (hlocal : s.localDelta delta.entityId = some localDelta) (now : Timestamp) :
    (∃ m err r, s.performs e localDelta delta = (m, some err) ∧
        handleDelta now delta s =
          ({ s with
              stateManager := { s.stateManager with memory := m }, conflictResolver := r },
            some err)) ∨
      ∃ m, s.performs e localDelta delta = (m, none) ∧ (handleDelta now delta s).2 = none ∧
        (handleDelta now delta s).1.stateManager.version = s.stateManager.version + 1 := by
  unfold performs
  by_cases hold : e.version ≤ delta.fromVersion
  · rw [handleDelta_of_le hget hold now, if_pos hold]
    rcases updateEntity_spec hget delta.operations now with ⟨m, err, hops, heq⟩ | hdone
    · exact .inl ⟨m, err, s.conflictResolver, hops, heq⟩
    · exact .inr hdone
  · rw [handleDelta_of_lt hget (not_le.1 hold) hlocal now, if_neg hold]
    rcases hremote : applyRemote e.data delta.operations s.stateManager.memory with ⟨m, _ | err⟩
    · dsimp only
      obtain ⟨r, -, hresolve⟩ := resolveConflict_of_ok localDelta hremote now
      have hmade : ({ s with
          stateManager := { s.stateManager with memory := m },
          conflictResolver := r } : StateSynchronizer M V).stateManager.entities.get?
            delta.entityId = some e := hget
      rw [hresolve]
      rcases updateEntity_spec hmade
        (if s.conflictResolver.merges e.type then
          ConflictResolver.mergeOperations localDelta.operations delta.operations
        else delta.operations) now with ⟨m', err, hops, heq⟩ | hdone
      · exact .inl ⟨m', err, r, hops, heq⟩
      · exact .inr hdone
    · unfold resolveConflict
      rw [hremote]
      exact .inl ⟨m, err, s.conflictResolver, rfl, rfl⟩

lemma handleRemoteDelta_cons_ok {delta : StateDelta V} {now : Timestamp}
    (h : (handleDelta now delta s).2 = none) {source : NodeId} {deltas : List (StateDelta V)} :
    s.handleRemoteDelta source (delta :: deltas) now =
      (handleDelta now delta s).1.handleRemoteDelta source deltas now := by
  rw [handleRemoteDelta, forEachWrite_cons_ok h, handleRemoteDelta]

lemma handleRemoteDelta_cons_err {delta : StateDelta V} {now : Timestamp} {err : JsError}
    (h : (handleDelta now delta s).2 = some err) {source : NodeId}
    {deltas : List (StateDelta V)} :
    s.handleRemoteDelta source (delta :: deltas) now = handleDelta now delta s := by
  rw [handleRemoteDelta, forEachWrite]
  rcases hhandle : handleDelta now delta s with ⟨s', _ | e⟩
  · rw [hhandle] at h
    cases h
  · rfl

/-! ## The stores of a node -/

variable [NumberMemory M V]

/-- The synchronizers that a process can come to hold, over any memory. -/
inductive Reached : StateSynchronizer M V → Prop
  | new (maxHistoryPerEntity : ℕ) (r : ConflictResolver) (batchSize : ℕ) :
      Reached (.new (.new Memory.empty maxHistoryPerEntity) r batchSize)
  | createEntity {s : StateSynchronizer M V} (h : Reached s) (type ownerId : String)
      (data : Obj Doc) (id : EntityId) (now : Timestamp) :
      Reached (s.createEntity type ownerId data id now)
  | updateEntity {s : StateSynchronizer M V} (h : Reached s) (id : EntityId) (elements : List Doc)
      (now : Timestamp) : Reached (s.heard (s.stateManager.receiveElements id elements now)).1
  | deleteEntity {s : StateSynchronizer M V} (h : Reached s) (id : EntityId) :
      Reached (s.deleteEntity id)
  | createSnapshot {s : StateSynchronizer M V} (h : Reached s) (now : Timestamp) :
      Reached { s with stateManager := (s.stateManager.createSnapshot now).1 }
  | receive {s : StateSynchronizer M V} (h : Reached s) (source : NodeId) (now : Timestamp)
      (payload : Payload) : Reached (s.receive source now payload).1
  | request {s : StateSynchronizer M V} (h : Reached s) (nodeId source : NodeId)
      (target : Option NodeId) (sinceVersion : ℕ) (now : Timestamp) :
      Reached (s.publish nodeId now ⟨source, target, .stateRequest sinceVersion⟩)
  | flushDeltas {s : StateSynchronizer M V} (h : Reached s) (text : Doc → String)
      (nodeId : NodeId) (now : Timestamp) : Reached (s.flushDeltas text nodeId now).1
  | addPeer {s : StateSynchronizer M V} (h : Reached s) (nodeId : NodeId) :
      Reached (s.addPeer nodeId)
  | setResolver {s : StateSynchronizer M V} (h : Reached s) (r : ConflictResolver) :
      Reached { s with conflictResolver := r }

/-- In all of them the cached snapshot is fresh and the histories are those of entities. -/
lemma Reached.sound (h : Reached s) : s.stateManager.CacheFresh ∧ s.stateManager.Owned := by
  have hmemory : ∀ (σ : StateManager M V) (m : M), σ.CacheFresh ∧ σ.Owned →
      CacheFresh { σ with memory := m } ∧ Owned { σ with memory := m } := fun _ _ h => h
  have hupdate : ∀ (σ : StateManager M V) id operations now, σ.CacheFresh ∧ σ.Owned →
      (σ.updateEntity id operations now).1.CacheFresh ∧
        (σ.updateEntity id operations now).1.Owned := fun σ id operations now h =>
    ⟨Engine.cacheFresh_of_moves h.1 (Engine.moves_updateEntity σ id operations now),
      h.2.updateEntity id operations now⟩
  induction h with
  | new maxHistoryPerEntity r batchSize => exact ⟨cacheFresh_of_none rfl, .of_empty rfl⟩
  | @createEntity s _ type ownerId data id now ih =>
    have hparsed := hmemory _ (Memory.parse s.stateManager.memory data).2 ih
    exact ⟨cacheFresh_of_none rfl, hparsed.2.createEntity type ownerId _ id now⟩
  | updateEntity _ id elements now ih =>
    rw [heard_stateManager]
    exact ⟨cacheFresh_receiveElements ih.1 id elements now, ih.2.receiveElements id elements now⟩
  | deleteEntity _ id ih =>
    exact ⟨Engine.cacheFresh_of_moves ih.1 (Engine.moves_deleteEntity _ id), ih.2.deleteEntity id⟩
  | createSnapshot _ now ih =>
    refine ⟨cacheFresh_createSnapshot ih.1 now, ?_⟩
    rw [createSnapshot_fst]
    exact ih.2
  | receive _ source now payload ih =>
    cases payload with
    | stateDelta deltas => exact receiveDeltas_invariant hmemory hupdate ih source deltas now
    | stateSnapshot version entities => exact ⟨cacheFresh_of_none rfl, .of_empty rfl⟩
  | @request s _ nodeId source target sinceVersion now ih =>
    by_cases hnone : s.stateManager.getDeltasSince sinceVersion = []
    · rw [publish_stateRequest_of_none hnone]
      exact ⟨cacheFresh_of_none rfl, .of_empty rfl⟩
    · rw [publish_stateRequest_of_deltas hnone]
      exact handleRemoteDelta_invariant hmemory hupdate ih _ _ _
  | @flushDeltas s _ text nodeId now ih =>
    unfold StateSynchronizer.flushDeltas
    split
    · exact ih
    · split
      · exact ih
      next compressed _ =>
        exact handleRemoteDelta_invariant hmemory hupdate (s := s.splice) ih nodeId compressed now
  | @addPeer s _ nodeId ih =>
    unfold StateSynchronizer.addPeer
    split
    · exact ih
    · exact ih
  | setResolver _ r ih => exact ih

/-! ## The result -/

/-- There is no history, or the first retained delta from the version on throws before it has
changed the data of any entity. -/
def Silent (s : StateSynchronizer M V) (sinceVersion : ℕ) : Prop :=
  (∀ id, s.stateManager.getEntityHistory id = []) ∨
    ∃ delta later e localDelta m err,
      s.stateManager.getDeltasSince sinceVersion = delta :: later ∧
      s.stateManager.entities.get? delta.entityId = some e ∧
      s.localDelta delta.entityId = some localDelta ∧
      s.performs e localDelta delta = (m, some err) ∧
      ∀ id, { s.stateManager with memory := m }.data id = s.stateManager.data id

omit [NumberMemory M V] in
/-- A node that loads its own snapshot loses its histories and nothing else. -/
lemma unchanged_ownSnapshot {σ : StateManager M V} (hfresh : σ.CacheFresh) (now : Timestamp)
    {id : EntityId} (hnone : σ.getEntityHistory id = []) :
    Unchanged σ ((σ.createSnapshot now).1.loadSnapshot (σ.createSnapshot now).2.entities.asObject
      (σ.createSnapshot now).2.version) id := by
  have hget : ((σ.createSnapshot now).2.entities.asObject).get? id = σ.entities.get? id := by
    rw [Js.Map.get?_asObject, entities_createSnapshot hfresh]
  have hmemory : (σ.createSnapshot now).1.memory = σ.memory := by rw [createSnapshot_fst]
  refine ⟨?_, hget, hnone.symm, version_createSnapshot σ now⟩
  show (((σ.createSnapshot now).2.entities.asObject).get? id).map
    (fun e : EntityState => Memory.read (σ.createSnapshot now).1.memory e.data) = _
  rw [hget, hmemory]
  rfl

omit [NumberMemory M V] in
/-- Where there is a first delta from the version on, it decides. -/
lemma silent_iff_of_deltas {sinceVersion : ℕ} {delta localDelta : StateDelta V}
    {later : List (StateDelta V)} {e : EntityState}
    (hdeltas : s.stateManager.getDeltasSince sinceVersion = delta :: later)
    (hget : s.stateManager.entities.get? delta.entityId = some e)
    (hhistory : s.stateManager.getEntityHistory delta.entityId ≠ [])
    (hlocal : s.localDelta delta.entityId = some localDelta) :
    s.Silent sinceVersion ↔ ∃ m err, s.performs e localDelta delta = (m, some err) ∧
      ∀ id, { s.stateManager with memory := m }.data id = s.stateManager.data id := by
  constructor
  · rintro (hnone | ⟨delta', later', e', localDelta', m, err, hcons, hget', hlocal', hperforms,
      hdata⟩)
    · exact absurd (hnone _) hhistory
    · rw [hdeltas] at hcons
      obtain ⟨rfl, rfl⟩ := List.cons.inj hcons
      obtain rfl := Option.some.inj (hget.symm.trans hget')
      obtain rfl := Option.some.inj (hlocal.symm.trans hlocal')
      exact ⟨m, err, hperforms, hdata⟩
  · rintro ⟨m, err, hperforms, hdata⟩
    exact .inr ⟨delta, later, e, localDelta, m, err, hdeltas, hget, hlocal, hperforms, hdata⟩

omit [NumberMemory M V] in
/-- No delta takes the store back. -/
lemma version_le_handleRemoteDelta (s : StateSynchronizer M V) (source : NodeId)
    (deltas : List (StateDelta V)) (now : Timestamp) :
    s.stateManager.version ≤ (s.handleRemoteDelta source deltas now).1.stateManager.version := by
  refine handleRemoteDelta_invariant (P := fun σ => s.stateManager.version ≤ σ.version)
    (fun _ _ h => h) (fun σ id operations now h => ?_) le_rfl source deltas now
  rcases Engine.moves_updateEntity σ id operations now with ⟨hnext, -⟩ | ⟨hnext, -⟩
  · rw [hnext]
    exact h.trans (Nat.le_succ _)
  · rw [hnext]
    exact h

/-- **The answer to a request leaves the node that gives it alone** exactly when it is silent. -/
lemma publish_stateRequest_iff (hs : s.Reached) (nodeId source : NodeId) (target : Option NodeId)
    (sinceVersion : ℕ) (now : Timestamp) :
    (∀ id, Unchanged s.stateManager
        (s.publish nodeId now ⟨source, target, .stateRequest sinceVersion⟩).stateManager id) ↔
      s.Silent sinceVersion := by
  obtain ⟨hfresh, howned⟩ := hs.sound
  rcases hdeltas : s.stateManager.getDeltasSince sinceVersion with - | ⟨delta, later⟩
  · -- The node loads its own snapshot, and the histories are gone.
    rw [publish_stateRequest_of_none hdeltas]
    constructor
    · exact fun h => .inl fun id => (h id).history.symm
    · rintro (hnone | ⟨delta, later, _, _, _, _, hcons, -⟩)
      · exact fun id => unchanged_ownSnapshot hfresh now (hnone id)
      · rw [hdeltas] at hcons
        cases hcons
  · rw [publish_stateRequest_of_deltas (by rw [hdeltas]; simp), hdeltas]
    have hmem : delta ∈ s.stateManager.getDeltasSince sinceVersion := by simp [hdeltas]
    obtain ⟨hhistory, hentity⟩ := howned.of_mem hmem
    obtain ⟨e, hget⟩ := Option.isSome_iff_exists.1 hentity
    have hne := List.ne_nil_of_mem hhistory
    obtain ⟨localDelta, hlocal⟩ : ∃ localDelta, s.localDelta delta.entityId = some localDelta :=
      ⟨_, List.getLast?_eq_some_getLast hne⟩
    rw [silent_iff_of_deltas hdeltas hget hne hlocal]
    rcases handleDelta_spec hget hlocal now with
      ⟨m, err, r, hperforms, hhandle⟩ | ⟨m, hperforms, hok, hversion⟩
    · rw [handleRemoteDelta_cons_err (by rw [hhandle]), hhandle]
      constructor
      · exact fun h => ⟨m, err, hperforms, fun id => (h id).data⟩
      · rintro ⟨m', err', hsame, hdata⟩
        obtain ⟨rfl, -⟩ := Prod.mk.inj (hperforms.symm.trans hsame)
        exact fun id => ⟨hdata id, rfl, rfl, rfl⟩
    · constructor
      · -- The store has gone on by one version, and no later delta takes it back.
        intro h
        have hlater := version_le_handleRemoteDelta (handleDelta now delta s).1 nodeId later now
        have hsame := (h delta.entityId).version
        rw [handleRemoteDelta_cons_ok hok] at hsame
        omega
      · rintro ⟨m', err', hthrows, -⟩
        rw [hperforms] at hthrows
        cases hthrows

/-- **Messages for another node leave this one alone** exactly when it is silent: the request that
it sends, and the answer that it gives. -/
theorem addressed_iff (hs : s.Reached) (nodeId peer : NodeId) (sinceVersion : ℕ)
    (now : Timestamp) :
    ((∀ id, Unchanged s.stateManager (s.requestFullSync nodeId peer now).stateManager id) ↔
        s.Silent 0) ∧
      ((∀ id, Unchanged s.stateManager
          (s.handleRequest nodeId peer sinceVersion now).stateManager id) ↔
        s.Silent sinceVersion) :=
  ⟨publish_stateRequest_iff hs nodeId nodeId (some peer) 0 now,
    publish_stateRequest_iff hs nodeId peer (some nodeId) sinceVersion now⟩

end Own

lemma playerNode_reached : playerNode.Reached := .createEntity (.new _ _ _) _ _ _ _ _

/-- A full sync of a node without histories. -/
theorem addressed_iff_player :
    Unchanged playerNode.stateManager (playerNode.requestFullSync "n1" "n2" 2).stateManager
      "e1" :=
  (addressed_iff playerNode_reached "n1" "n2" 0 2).1.2 (.inl fun _ => rfl) "e1"

/-- A node that has got one update. -/
def updatedNode : StateSynchronizer Cells Doc :=
  (playerNode.receive "n2" 2 (.stateDelta [setHpFrom 1 7])).1

/-- It requests a full sync from another node, and updates its entity once more instead. -/
theorem full_sync_updates_requester :
    updatedNode.Reached ∧
      ¬ ∀ id, Unchanged updatedNode.stateManager
        (updatedNode.requestFullSync "n1" "n2" 3).stateManager id := by
  refine ⟨playerNode_reached.receive _ _ _, fun h => ?_⟩
  have hversion := (h "e1").version
  revert hversion
  decide +kernel

end StateSynchronizer

end SyncEngine
