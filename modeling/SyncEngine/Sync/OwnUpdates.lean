import SyncEngine.Sync.StateSynchronizer
import SyncEngine.Machine.Runs

/-!
# A node that hears itself

A broker delivers a message to every subscriber of the channel, the synchronizer that published it
among them.  So a flush hands a node its own deltas, and an entity that still exists is ahead of
them: the synchronizer takes them for a conflict, performs operations on the store, and hears of
that update in turn.

`Passes` says of a delta that its handling comes to nothing.  A flush of such deltas leaves the
store alone and drains its batch (`flushDeltas_of_quiet`); along a run of such flushes nothing
changes, and the queue runs empty (`flushes_drain`).

`stop` flushes once.  What is pending beyond the first batch is never published
(`stop_loses_nothing_iff`).
-/

namespace SyncEngine

open Js

namespace StateSynchronizer

inductive Call
  | createEntity (type ownerId : String) (data : Obj Doc) (id : EntityId)
  | updateEntity (id : EntityId) (operations : List (DeltaOperation Doc))
  | deleteEntity (id : EntityId)
  | flushDeltas

section Calls

variable {M V : Type} [Memory M V]

def createEntity (s : StateSynchronizer M V) (type ownerId : String) (data : Obj Doc)
    (id : EntityId) (now : Timestamp) : StateSynchronizer M V :=
  { s with stateManager := s.stateManager.receiveEntity type ownerId data id now }

/-- An update that a client sends. -/
def receiveUpdate (s : StateSynchronizer M V) (id : EntityId)
    (operations : List (DeltaOperation Doc)) (now : Timestamp) : StateSynchronizer M V :=
  (s.heard (s.stateManager.receiveUpdate id operations now)).1

def deleteEntity (s : StateSynchronizer M V) (id : EntityId) : StateSynchronizer M V :=
  { s with stateManager := s.stateManager.deleteEntity id }

/-- One call on the node `nodeId`, at its time. -/
def call [NumberMemory M V] (text : Doc → String) (nodeId : NodeId) (s : StateSynchronizer M V)
    (c : Call × Timestamp) : StateSynchronizer M V :=
  match c.1 with
  | .createEntity type ownerId data id => s.createEntity type ownerId data id c.2
  | .updateEntity id operations => s.receiveUpdate id operations c.2
  | .deleteEntity id => s.deleteEntity id
  | .flushDeltas => (s.flushDeltas text nodeId c.2).1

end Calls

/-! ## Deltas that come to nothing -/

section Quiet

variable {M V : Type}

/-- Nothing comes of handling the delta: its entity is gone, or is ahead of it and has no
history. -/
def Passes (s : StateSynchronizer M V) (delta : StateDelta V) : Prop :=
  match s.stateManager.getEntity delta.entityId with
  | none => True
  | some e => delta.fromVersion < e.version ∧ s.localDelta delta.entityId = none

instance (s : StateSynchronizer M V) (delta : StateDelta V) : Decidable (s.Passes delta) := by
  unfold Passes
  split <;> infer_instance

variable [Memory M V]

lemma Passes.handleDelta {s : StateSynchronizer M V} {delta : StateDelta V} (h : s.Passes delta)
    (now : Timestamp) : handleDelta now delta s = (s, none) := by
  unfold Passes at h
  cases hget : s.stateManager.getEntity delta.entityId with
  | none => exact handleDelta_of_none hget now
  | some e =>
    rw [hget] at h
    exact handleDelta_of_no_history hget h.1 h.2 now

variable [NumberMemory M V]

/-- A flush comes to nothing: the compressor throws, or nothing comes of any delta of the batch. -/
def Quiet (text : Doc → String) (s : StateSynchronizer M V) : Prop :=
  (∃ e, s.compressedBatch text = .error e) ∨
    ∀ delta ∈ s.pendingDeltas.take s.batchSize, s.Passes delta

/-- **A flush that comes to nothing** leaves the store alone and drops its batch. -/
lemma flushDeltas_of_quiet {text : Doc → String} {s : StateSynchronizer M V} (h : s.Quiet text)
    (nodeId : NodeId) (now : Timestamp) :
    (s.flushDeltas text nodeId now).1.stateManager = s.stateManager ∧
      (s.flushDeltas text nodeId now).1.pendingDeltas = s.pendingDeltas.drop s.batchSize ∧
      (s.flushDeltas text nodeId now).1.batchSize = s.batchSize := by
  unfold flushDeltas
  split
  next hempty => simp [hempty]
  next =>
    split
    next => exact ⟨rfl, rfl, rfl⟩
    next compressed hcompressed =>
      have hpasses : ∀ delta ∈ s.pendingDeltas.take s.batchSize, s.Passes delta := by
        rcases h with ⟨e, herror⟩ | h
        · rw [herror] at hcompressed
          cases hcompressed
        · exact h
      have hnothing : forEachWrite (handleDelta now) compressed s.splice = (s.splice, none) := by
        refine forEachWrite_eq_self fun delta hdelta => Passes.handleDelta ?_ now
        obtain ⟨first, hfirst, hid, hfrom⟩ :=
          DeltaCompressor.exists_first_of_mem_compress hcompressed hdelta
        have hpass := hpasses first hfirst
        unfold Passes at hpass ⊢
        rw [hid, hfrom] at hpass
        exact hpass
      simp only [handleRemoteDelta, hnothing]
      unfold notePeer
      cases s.splice.peers.get? nodeId with
      | none => exact ⟨rfl, rfl, rfl⟩
      | some peer => exact ⟨rfl, rfl, rfl⟩

/-- A call after which the node is not busy with its own updates. -/
def CallQuiet (text : Doc → String) (s : StateSynchronizer M V) (c : Call × Timestamp) : Prop :=
  c.1 = .flushDeltas → s.Quiet text

/-- Flushes one after another, at their times. -/
def flushes (times : List Timestamp) : List (Call × Timestamp) :=
  times.map fun t => (.flushDeltas, t)

/-- Flushes that come to nothing leave the store alone, and each one drops its batch. -/
lemma run_flushes {text : Doc → String} {nodeId : NodeId} {s : StateSynchronizer M V}
    {times : List Timestamp}
    (h : Machine.Along (call text nodeId) (CallQuiet text) s (flushes times)) :
    (Machine.run (call text nodeId) s (flushes times)).stateManager = s.stateManager ∧
      (Machine.run (call text nodeId) s (flushes times)).pendingDeltas =
        s.pendingDeltas.drop (times.length * s.batchSize) := by
  induction times generalizing s with
  | nil => simp [flushes]
  | cons t times ih =>
    obtain ⟨hquiet, hrest⟩ := h
    obtain ⟨hstore, hpending, hbatch⟩ := flushDeltas_of_quiet (hquiet rfl) nodeId t
    obtain ⟨hstore', hpending'⟩ := ih hrest
    refine ⟨hstore'.trans hstore, hpending'.trans ?_⟩
    show (s.flushDeltas text nodeId t).1.pendingDeltas.drop
      (times.length * (s.flushDeltas text nodeId t).1.batchSize) = _
    rw [hpending, hbatch, List.drop_drop, List.length_cons, Nat.succ_mul, Nat.add_comm]

/-- **A node that is not busy with its own updates.**  After any calls, flushes change no entity,
and as many of them as there are batches in the queue leave it empty; each flush of the run must
come to nothing. -/
theorem flushes_drain (text : Doc → String) (nodeId : NodeId) (s₀ s s' : StateSynchronizer M V)
    (calls : List (Call × Timestamp)) (times : List Timestamp)
    (h : Machine.Along (call text nodeId) (CallQuiet text) s₀ (calls ++ flushes times))
    (hs : s = Machine.run (call text nodeId) s₀ calls)
    (hs' : s' = Machine.run (call text nodeId) s (flushes times)) :
    (∀ id, s'.stateManager.view id = s.stateManager.view id) ∧
      s'.pendingDeltas = s.pendingDeltas.drop (times.length * s.batchSize) ∧
      (0 < s.batchSize → ⌈(s.pendingDeltas.length / s.batchSize : ℚ)⌉₊ ≤ times.length →
        s'.pendingDeltas = []) := by
  obtain ⟨-, hflushes⟩ := Machine.along_append.1 h
  rw [← hs] at hflushes
  obtain ⟨hstore, hpending⟩ := run_flushes hflushes
  rw [← hs'] at hstore hpending
  refine ⟨fun id => by rw [hstore], hpending, fun hbatch hceil => ?_⟩
  have hall : s.pendingDeltas.length ≤ times.length * s.batchSize := by
    have hdiv := Nat.ceil_le.1 hceil
    rw [div_le_iff₀ (by exact_mod_cast hbatch)] at hdiv
    exact_mod_cast hdiv
  rw [hpending, List.drop_eq_nil_of_le hall]

end Quiet

/-- A new node. -/
def newNode : StateSynchronizer Cells Doc :=
  new (.new Memory.empty 100) ConflictResolver.new 100

def onNewNode (calls : List (Call × Timestamp)) : StateSynchronizer Cells Doc :=
  Machine.run (call (fun _ => "") "n1") newNode calls

/-- An update of a new entity. -/
def createAndUpdate : List (Call × Timestamp) :=
  [(.createEntity "player" "p1" .empty "e1", 1),
    (.updateEntity "e1" [⟨.increment, "hp", .prim (.num 5)⟩], 2)]

/-- The entity is deleted before the flush. -/
theorem flushes_drain_deleted :
    (onNewNode
      (createAndUpdate ++ [(.deleteEntity "e1", 3)] ++ flushes [4])).pendingDeltas = [] := by
  have halong : Machine.Along (call (fun _ => "") "n1") (CallQuiet fun _ => "") newNode
      (createAndUpdate ++ [(.deleteEntity "e1", 3)] ++ flushes [4]) := by
    refine ⟨fun h => ?_, fun h => ?_, fun h => ?_, fun _ => .inr ?_, trivial⟩
    · cases h
    · cases h
    · cases h
    · decide +kernel
  have hlength : (onNewNode (createAndUpdate ++ [(.deleteEntity "e1", 3)])).pendingDeltas.length =
      1 := by decide +kernel
  have hbatch : (onNewNode (createAndUpdate ++ [(.deleteEntity "e1", 3)])).batchSize = 100 := by
    decide +kernel
  have hceil : ⌈((onNewNode (createAndUpdate ++ [(.deleteEntity "e1", 3)])).pendingDeltas.length /
      (onNewNode (createAndUpdate ++ [(.deleteEntity "e1", 3)])).batchSize : ℚ)⌉₊ ≤ [4].length := by
    rw [hlength, hbatch, Nat.ceil_le]
    norm_num
  have hdrain := flushes_drain (fun _ => "") "n1" _ _ _ _ [4] halong rfl rfl
  rw [onNewNode, Machine.run_append]
  exact hdrain.2.2 (hbatch ▸ by norm_num) hceil

/-- The entity stays: the flush performs the update once more, and one delta is pending again. -/
theorem flush_repeats_update :
    ((onNewNode createAndUpdate).stateManager.view "e1").map EntityDoc.version ≠
        ((onNewNode (createAndUpdate ++ flushes [3])).stateManager.view "e1").map
          EntityDoc.version ∧
      (onNewNode createAndUpdate).stateManager.data "e1" ≠
        (onNewNode (createAndUpdate ++ flushes [3])).stateManager.data "e1" ∧
      (onNewNode (createAndUpdate ++ flushes [3])).pendingDeltas ≠ [] := by
  refine ⟨by decide +kernel, fun h => ?_, fun h => ?_⟩
  · have hhp := congrArg (Option.map fun o : Obj Doc => (o.props "hp").node []) h
    revert hhp
    decide +kernel
  · have hlength := congrArg List.length h
    revert hlength
    decide +kernel

/-! ## Stopping -/

section Stopping

variable {M V : Type} [Memory M V] [NumberMemory M V]

/-- The batches that a flush hands to `broker.publish`, as they go into the compressor. -/
def handed (text : Doc → String) (s : StateSynchronizer M V) : List (List (StateDelta V)) :=
  if s.pendingDeltas = [] then []
  else
    match s.compressedBatch text with
    | .error _ => []
    | .ok _ => [s.pendingDeltas.take s.batchSize]

/-- `stop`, which flushes once: the node that it leaves, and the batches that it has handed to
`broker.publish`. -/
def stop (text : Doc → String) (nodeId : NodeId) (s : StateSynchronizer M V) (now : Timestamp) :
    StateSynchronizer M V × List (List (StateDelta V)) :=
  ((s.flushDeltas text nodeId now).1, s.handed text)

/-- A batch that is handed over has been taken out of the queue, and is handled, compressed, by
the node itself. -/
lemma flushDeltas_of_handed {text : Doc → String} {s : StateSynchronizer M V}
    {batch : List (StateDelta V)} (h : batch ∈ s.handed text) (nodeId : NodeId)
    (now : Timestamp) :
    s.pendingDeltas = batch ++ s.splice.pendingDeltas ∧
      ∃ compressed, s.compressedBatch text = .ok compressed ∧
        (s.flushDeltas text nodeId now).1.stateManager =
          (s.splice.handleRemoteDelta nodeId compressed now).1.stateManager := by
  unfold handed at h
  unfold flushDeltas
  split at h
  · cases h
  next hpending =>
    rw [if_neg hpending]
    rcases hcompress : s.compressedBatch text with e | compressed
    · rw [hcompress] at h
      cases h
    · rw [hcompress] at h
      obtain rfl := List.mem_singleton.1 h
      exact ⟨(List.take_append_drop _ _).symm, compressed, rfl, rfl⟩

/-- **Stopping loses nothing** exactly when one batch is enough for all that is pending, and the
compressor does not throw on it. -/
theorem stop_loses_nothing_iff (text : Doc → String) (nodeId : NodeId)
    (s : StateSynchronizer M V) (now : Timestamp) :
    (s.stop text nodeId now).2.flatten = s.pendingDeltas ↔
      s.pendingDeltas.length ≤ s.batchSize ∧ ∀ e, s.compressedBatch text ≠ .error e := by
  unfold stop handed
  split
  next hempty =>
    have hnone : s.compressedBatch text = .ok [] := by
      rw [compressedBatch, hempty, List.take_nil]
      rfl
    simp [hempty, hnone]
  next hpending =>
    rcases hcompress : s.compressedBatch text with e | compressed
    · simp [eq_comm, hpending]
    · simp

end Stopping

/-- Two updates of an entity on a node that flushes one delta at a time. -/
def backlogNode : StateSynchronizer Cells Doc :=
  Machine.run (call (fun _ => "") "n1") (new (.new Memory.empty 100) ConflictResolver.new 1)
    (createAndUpdate ++ [(.updateEntity "e1" [⟨.increment, "hp", .prim (.num 1)⟩], 3)])

/-- The theorem at this node. -/
theorem stop_loses_nothing_iff_backlog :
    (backlogNode.stop (fun _ => "") "n1" 4).2.flatten = backlogNode.pendingDeltas ↔
      backlogNode.pendingDeltas.length ≤ backlogNode.batchSize ∧
        ∀ e, backlogNode.compressedBatch (fun _ => "") ≠ .error e :=
  stop_loses_nothing_iff (fun _ => "") "n1" backlogNode 4

/-- The second one is not handed over when the node stops. -/
theorem stop_loses_delta :
    1 ≤ backlogNode.batchSize ∧
      (backlogNode.stop (fun _ => "") "n1" 4).2.flatten ≠ backlogNode.pendingDeltas := by
  refine ⟨by decide +kernel, fun h => ?_⟩
  have hlength := congrArg List.length h
  revert hlength
  decide +kernel

end StateSynchronizer

end SyncEngine
