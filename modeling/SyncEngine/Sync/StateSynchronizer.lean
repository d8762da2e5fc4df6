import SyncEngine.Sync.ConflictResolver
import SyncEngine.Sync.Compression
import SyncEngine.Persistence.Engine

/-!
# The state synchronizer

`src/sync/state-synchronizer.ts`.  The synchronizer works on the state manager of its node: it
queues the delta of every update it hears of, publishes the queue in batches, and handles what is
published on the channel, its own messages among it, since a broker delivers to every subscriber
of the channel.

A delta that is published and handled in one process is handled by reference; between processes it
is a text, so `StateDelta Doc` is what travels and `receiveDeltas` parses it.  A handler runs
without a pause, and `now` is the time it runs at.  `start` and the timer are left out: a flush is a
step of its own.
-/

namespace SyncEngine

open Js

structure SyncPeer where
  nodeId : NodeId
  lastSyncVersion : ℕ
  lastSyncTime : Timestamp
  syncCount : ℕ
  errorCount : ℕ

structure StateSynchronizer (M V : Type) where
  stateManager : StateManager M V
  conflictResolver : ConflictResolver
  peers : Js.Map NodeId SyncPeer
  pendingDeltas : List (StateDelta V)
  batchSize : ℕ
  syncsPerformed : ℕ

/-- A memory in which the value that a number is reads as that number. -/
class NumberMemory (M V : Type) [Memory M V] : Prop where
  readValue_number (m : M) (q : ℚ) :
    Memory.readValue m (Memory.number (M := M) q) = .prim (.num q)

instance : NumberMemory Cells Doc := ⟨fun _ _ => rfl⟩

/-- What the compressor sees of operation values in memory `m`. -/
def valueView {M V : Type} [Memory M V] [NumberMemory M V] (text : Doc → String) (m : M) :
    ValueView V :=
  ⟨Memory.readValue m, fun v => text (Memory.readValue m v), Memory.number (M := M),
    NumberMemory.readValue_number m⟩

namespace StateSynchronizer

variable {M V : Type}

/-- A synchronizer over the state manager of its node. -/
def new (stateManager : StateManager M V) (conflictResolver : ConflictResolver) (batchSize : ℕ) :
    StateSynchronizer M V :=
  ⟨stateManager, conflictResolver, .empty, [], batchSize, 0⟩

def addPeer (s : StateSynchronizer M V) (nodeId : NodeId) : StateSynchronizer M V :=
  if s.peers.has nodeId then s else { s with peers := s.peers.set nodeId ⟨nodeId, 0, 0, 0, 0⟩ }

/-- A result of `updateEntity` as the synchronizer sees it: the listener on `entity:updated` has
queued the delta. -/
def heard (s : StateSynchronizer M V) :
    StateManager M V × UpdateResult V → Written (StateSynchronizer M V)
  | (σ, .notFound) => ({ s with stateManager := σ }, none)
  | (σ, .threw e) => ({ s with stateManager := σ }, some e)
  | (σ, .updated delta) =>
    ({ s with stateManager := σ, pendingDeltas := s.pendingDeltas ++ [delta] }, none)

@[simp] lemma heard_stateManager (s : StateSynchronizer M V)
    (u : StateManager M V × UpdateResult V) : (s.heard u).1.stateManager = u.1 := by
  obtain ⟨σ, _ | e | d⟩ := u <;> rfl

/-- `entityHistory.pop()` on the copy that `getEntityHistory` returns. -/
def localDelta (s : StateSynchronizer M V) (id : EntityId) : Option (StateDelta V) :=
  (s.stateManager.getEntityHistory id).getLast?

variable [Memory M V]

/-- `stateManager.updateEntity` in a process with this synchronizer. -/
def updateEntity (s : StateSynchronizer M V) (id : EntityId)
    (operations : List (DeltaOperation V)) (now : Timestamp) : Written (StateSynchronizer M V) :=
  s.heard (s.stateManager.updateEntity id operations now)

/-- The loop that makes the data of the remote version.  `{ ...localEntity }` copies the record
and shares the data object, so it is the local data that the loop writes to. -/
def applyRemote (data : Ref) (operations : List (DeltaOperation V)) (m : M) : Written M :=
  forEachWrite (fun op m => Memory.applyOperationToData m data op) operations m

/-- The branch of `handleRemoteDelta` for a delta older than the local entity. -/
def resolveConflict (s : StateSynchronizer M V) (localEntity : EntityState)
    (localDelta delta : StateDelta V) (now : Timestamp) : Written (StateSynchronizer M V) :=
  match applyRemote localEntity.data delta.operations s.stateManager.memory with
  | (m, some e) => ({ s with stateManager := { s.stateManager with memory := m } }, some e)
  | (m, none) =>
    let remoteEntity : EntityState :=
      { localEntity with version := delta.toVersion, lastModified := delta.timestamp }
    let (result, conflictResolver) := s.conflictResolver.resolve
      (StateManager.toDoc m localEntity) (StateManager.toDoc m remoteEntity)
      (localDelta.map (Memory.readValue m)) (delta.map (Memory.readValue m)) now
    let s' := { s with
      stateManager := { s.stateManager with memory := m }, conflictResolver := conflictResolver }
    if result.resolved then
      -- The merged operations are the operation objects of the two deltas themselves.
      let ops := if result.mergedOperations.isSome then
          ConflictResolver.mergeOperations localDelta.operations delta.operations
        else delta.operations
      s'.updateEntity delta.entityId ops now
    else (s', none)

/-- The body of the loop of `handleRemoteDelta`. -/
def handleDelta (now : Timestamp) (delta : StateDelta V) (s : StateSynchronizer M V) :
    Written (StateSynchronizer M V) :=
  match s.stateManager.getEntity delta.entityId with
  | none => s.updateEntity delta.entityId delta.operations now
  | some localEntity =>
    if localEntity.version < delta.fromVersion then
      s.updateEntity delta.entityId delta.operations now
    else if localEntity.version = delta.fromVersion then
      s.updateEntity delta.entityId delta.operations now
    else
      match s.localDelta delta.entityId with
      | none => (s, none)
      | some localDelta => s.resolveConflict localEntity localDelta delta now

/-- A delta of an entity that is not there comes to nothing. -/
lemma handleDelta_of_none {s : StateSynchronizer M V} {delta : StateDelta V}
    (hget : s.stateManager.entities.get? delta.entityId = none) (now : Timestamp) :
    handleDelta now delta s = (s, none) := by
  have hget' : s.stateManager.getEntity delta.entityId = none := hget
  unfold handleDelta
  rw [hget']
  simp only [updateEntity, StateManager.updateEntity, hget, heard]

/-- A delta that is not older than its entity is an update. -/
lemma handleDelta_of_le {s : StateSynchronizer M V} {delta : StateDelta V} {e : EntityState}
    (hget : s.stateManager.entities.get? delta.entityId = some e)
    (h : e.version ≤ delta.fromVersion) (now : Timestamp) :
    handleDelta now delta s = s.updateEntity delta.entityId delta.operations now := by
  have hget' : s.stateManager.getEntity delta.entityId = some e := hget
  unfold handleDelta
  rw [hget']
  dsimp only
  rcases h.lt_or_eq with hlt | heq
  · rw [if_pos hlt]
  · rw [if_neg heq.not_lt, if_pos heq]

/-- An older one comes to nothing, where the entity has no history. -/
lemma handleDelta_of_no_history {s : StateSynchronizer M V} {delta : StateDelta V}
    {e : EntityState} (hget : s.stateManager.entities.get? delta.entityId = some e)
    (h : delta.fromVersion < e.version) (hlocal : s.localDelta delta.entityId = none)
    (now : Timestamp) : handleDelta now delta s = (s, none) := by
  have hget' : s.stateManager.getEntity delta.entityId = some e := hget
  unfold handleDelta
  rw [hget']
  dsimp only
  rw [if_neg h.not_gt, if_neg h.ne', hlocal]

/-- An older one is a conflict, where the entity has a history. -/
lemma handleDelta_of_lt {s : StateSynchronizer M V} {delta localDelta : StateDelta V}
    {e : EntityState} (hget : s.stateManager.entities.get? delta.entityId = some e)
    (h : delta.fromVersion < e.version) (hlocal : s.localDelta delta.entityId = some localDelta)
    (now : Timestamp) : handleDelta now delta s = s.resolveConflict e localDelta delta now := by
  have hget' : s.stateManager.getEntity delta.entityId = some e := hget
  unfold handleDelta
  rw [hget']
  dsimp only
  rw [if_neg h.not_gt, if_neg h.ne', hlocal]

/-- The last lines of `handleRemoteDelta`, for a peer that was known at its start. -/
def notePeer (s : StateSynchronizer M V) (source : NodeId) (now : Timestamp) :
    StateSynchronizer M V :=
  match s.peers.get? source with
  | none => s
  | some peer =>
    let peer' : SyncPeer :=
      { peer with
        lastSyncVersion := s.stateManager.version
        lastSyncTime := now
        syncCount := peer.syncCount + 1 }
    { s with peers := s.peers.set source peer' }

omit [Memory M V] in
@[simp] lemma notePeer_stateManager (s : StateSynchronizer M V) (source : NodeId)
    (now : Timestamp) : (s.notePeer source now).stateManager = s.stateManager := by
  unfold notePeer
  cases s.peers.get? source <;> rfl

def handleRemoteDelta (s : StateSynchronizer M V) (source : NodeId) (deltas : List (StateDelta V))
    (now : Timestamp) : Written (StateSynchronizer M V) :=
  match forEachWrite (handleDelta now) deltas s with
  | (s', none) => (s'.notePeer source now, none)
  | (s', some e) => (s', some e)

/-- **What updates and writes to the memory keep of a store**, the handling of a delta keeps. -/
lemma handleDelta_invariant {P : StateManager M V → Prop}
    (hmemory : ∀ σ m, P σ → P { σ with memory := m })
    (hupdate : ∀ σ id operations now, P σ → P (σ.updateEntity id operations now).1)
    {s : StateSynchronizer M V} (h : P s.stateManager) (delta : StateDelta V) (now : Timestamp) :
    P (handleDelta now delta s).1.stateManager := by
  have hone : ∀ (s : StateSynchronizer M V) id operations, P s.stateManager →
      P (s.updateEntity id operations now).1.stateManager := fun s id operations hs => by
    rw [updateEntity, heard_stateManager]
    exact hupdate _ _ _ _ hs
  unfold handleDelta
  split
  next => exact hone _ _ _ h
  next localEntity _ =>
    split
    next => exact hone _ _ _ h
    next =>
      split
      next => exact hone _ _ _ h
      next =>
        split
        next => exact h
        next localDelta _ =>
          unfold resolveConflict
          split
          next => exact hmemory _ _ h
          next m _ =>
            dsimp only
            split
            next => exact hone _ _ _ (hmemory _ m h)
            next => exact hmemory _ _ h

lemma handleRemoteDelta_invariant {P : StateManager M V → Prop}
    (hmemory : ∀ σ m, P σ → P { σ with memory := m })
    (hupdate : ∀ σ id operations now, P σ → P (σ.updateEntity id operations now).1)
    {s : StateSynchronizer M V} (h : P s.stateManager) (source : NodeId)
    (deltas : List (StateDelta V)) (now : Timestamp) :
    P (s.handleRemoteDelta source deltas now).1.stateManager := by
  have hloop : P (forEachWrite (handleDelta now) deltas s).1.stateManager :=
    @forEachWrite_invariant _ _ (handleDelta now) (fun s => P s.stateManager) deltas
      (fun delta _ s hs => handleDelta_invariant hmemory hupdate hs delta now) s h
  unfold handleRemoteDelta
  rcases hrun : forEachWrite (handleDelta now) deltas s with ⟨s', _ | e⟩
  · rw [hrun] at hloop
    show P (s'.notePeer source now).stateManager
    rw [notePeer_stateManager]
    exact hloop
  · rw [hrun] at hloop
    exact hloop

/-! ## Messages from another process -/

/-- A delta of a message text.  The text is parsed delta by delta, since nothing depends on when
that is done. -/
def receiveDelta (now : Timestamp) (delta : StateDelta Doc) (s : StateSynchronizer M V) :
    Written (StateSynchronizer M V) :=
  let (operations, m) := parseOperations s.stateManager.memory delta.operations
  handleDelta now ⟨delta.entityId, delta.fromVersion, delta.toVersion, operations, delta.timestamp⟩
    { s with stateManager := { s.stateManager with memory := m } }

def receiveDeltas (s : StateSynchronizer M V) (source : NodeId) (deltas : List (StateDelta Doc))
    (now : Timestamp) : Written (StateSynchronizer M V) :=
  match forEachWrite (receiveDelta now) deltas s with
  | (s', none) => (s'.notePeer source now, none)
  | (s', some e) => (s', some e)

lemma receiveDeltas_invariant {P : StateManager M V → Prop}
    (hmemory : ∀ σ m, P σ → P { σ with memory := m })
    (hupdate : ∀ σ id operations now, P σ → P (σ.updateEntity id operations now).1)
    {s : StateSynchronizer M V} (h : P s.stateManager) (source : NodeId)
    (deltas : List (StateDelta Doc)) (now : Timestamp) :
    P (s.receiveDeltas source deltas now).1.stateManager := by
  have hloop : P (forEachWrite (receiveDelta now) deltas s).1.stateManager :=
    @forEachWrite_invariant _ _ (receiveDelta now) (fun s => P s.stateManager) deltas
      (fun delta _ s hs => handleDelta_invariant hmemory hupdate
        (s := { s with stateManager := { s.stateManager with
          memory := (parseOperations s.stateManager.memory delta.operations).2 } })
        (hmemory _ _ hs) _ now) s h
  unfold receiveDeltas
  rcases hrun : forEachWrite (receiveDelta now) deltas s with ⟨s', _ | e⟩
  · rw [hrun] at hloop
    show P (s'.notePeer source now).stateManager
    rw [notePeer_stateManager]
    exact hloop
  · rw [hrun] at hloop
    exact hloop

/-- A delta of a text that is not older than the local entity is an update. -/
lemma receiveDelta_eq {s : StateSynchronizer M V} {d : StateDelta Doc} (now : Timestamp)
    (h : ∀ e, s.stateManager.entities.get? d.entityId = some e → e.version ≤ d.fromVersion) :
    receiveDelta now d s =
      s.heard (s.stateManager.receiveUpdate d.entityId d.operations now) := by
  unfold receiveDelta
  cases hget : s.stateManager.entities.get? d.entityId with
  | none =>
    unfold handleDelta
    simp only [StateManager.getEntity, hget]
    rfl
  | some e =>
    exact handleDelta_of_le (s := { s with stateManager := { s.stateManager with
      memory := (parseOperations s.stateManager.memory d.operations).2 } }) hget (h e hget) now

/-- `handleRemoteSnapshot`. -/
def receiveSnapshot (s : StateSynchronizer M V) (version : ℕ)
    (entities : Js.Map EntityId EntityDoc) : StateSynchronizer M V :=
  { s with stateManager := s.stateManager.receiveSnapshot entities version }

/-- The payload of a message, as a text. -/
inductive Payload
  | stateDelta (deltas : List (StateDelta Doc))
  | stateSnapshot (version : ℕ) (entities : Js.Map EntityId EntityDoc)

/-- The reply that `handleStateRequest` publishes. -/
def handleStateRequest (s : StateSynchronizer M V) (sinceVersion : ℕ) (now : Timestamp) :
    StateSynchronizer M V × Payload :=
  let deltas := s.stateManager.getDeltasSince sinceVersion
  if deltas.length > 0 then
    (s, .stateDelta (deltas.map (writtenDelta s.stateManager.memory)))
  else
    let (σ, snapshot) := s.stateManager.createSnapshot now
    ({ s with stateManager := σ },
      .stateSnapshot snapshot.version (Engine.snapshotDoc σ.memory snapshot).entities)

/-- The subscription's handler on a message of another process. -/
def receive (s : StateSynchronizer M V) (source : NodeId) (now : Timestamp) :
    Payload → Written (StateSynchronizer M V)
  | .stateDelta deltas => s.receiveDeltas source deltas now
  | .stateSnapshot version entities => (s.receiveSnapshot version entities, none)

/-! ## Flushing -/

/-- The queue without its first batch. -/
def splice (s : StateSynchronizer M V) : StateSynchronizer M V :=
  { s with pendingDeltas := s.pendingDeltas.drop s.batchSize }

variable [NumberMemory M V]

/-- What a flush publishes, if the compressor does not throw. -/
def compressedBatch (text : Doc → String) (s : StateSynchronizer M V) :
    Except JsError (List (StateDelta V)) :=
  DeltaCompressor.compress (valueView text s.stateManager.memory)
    (s.pendingDeltas.take s.batchSize)

/-- `flushDeltas` on the node `nodeId`, with the delivery of the message to the node itself.  The
broker catches what a handler throws. -/
def flushDeltas (text : Doc → String) (nodeId : NodeId) (s : StateSynchronizer M V)
    (now : Timestamp) : Written (StateSynchronizer M V) :=
  if s.pendingDeltas = [] then (s, none)
  else
    match s.compressedBatch text with
    | .error e => (s.splice, some e)
    | .ok compressed =>
      let s' := (s.splice.handleRemoteDelta nodeId compressed now).1
      ({ s' with syncsPerformed := s'.syncsPerformed + 1 }, none)

end StateSynchronizer

end SyncEngine
