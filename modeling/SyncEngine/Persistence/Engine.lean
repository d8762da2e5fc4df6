import SyncEngine.Persistence.WriteAheadLog
import SyncEngine.Persistence.SnapshotManager

/-!
# The engine with its files

One process of the engine, as `src/index.ts` wires it: the store, the write-ahead log and the
snapshot manager over one pair of directories, with the `entity:updated` listener that appends
every delta to the log.  `Engine.call` is one client call or one snapshot, `Engine.run` a
sequence of them, and `Engine.boot` a new process on the directories an earlier one left.

The clock is read once in each call.  Every write has reached the directory when the call ends.
-/

namespace SyncEngine

open Js

structure Disk where
  wal : WalDir
  snapshots : SnapshotDir

/-- Directories with no files. -/
def Disk.empty : Disk := ⟨.empty, .empty⟩

/-- What the constructors of the three components are given. -/
structure Config where
  maxHistoryPerEntity : ℕ
  maxFileSize : ℕ
  maxSnapshots : ℕ
  lineBytes : WALEntry → ℕ
  contentBytes : SnapshotDoc → ℕ

/-- The defaults of the constructors, with every line and every snapshot of one length. -/
def Config.default : Config := ⟨100, 10 * 1024 * 1024, 10, fun _ => 128, fun _ => 128⟩

structure Engine (M V : Type) where
  stateManager : StateManager M V
  wal : WriteAheadLog
  snapshotManager : SnapshotManager
  disk : Disk

/-- A client call, or a snapshot. -/
inductive Call
  | createEntity (type ownerId : String) (data : Obj Doc) (id : EntityId)
  | updateEntity (id : EntityId) (operations : List (DeltaOperation Doc))
  | deleteEntity (id : EntityId)
  | takeSnapshot

namespace Engine

variable {M V : Type} [Memory M V]

/-- The objects of a process that has not been started. -/
def new (c : Config) (disk : Disk) : Engine M V where
  stateManager := .new Memory.empty c.maxHistoryPerEntity
  wal := .new c.maxFileSize c.lineBytes
  snapshotManager := .new c.maxSnapshots c.contentBytes
  disk := disk

/-! ## Entity calls -/

def createEntity (e : Engine M V) (type ownerId : String) (data : Obj Doc) (id : EntityId)
    (now : Timestamp) : Engine M V :=
  { e with stateManager := e.stateManager.receiveEntity type ownerId data id now }

/-- The `entity:updated` listener of `setupEventListeners`. -/
def appendDelta (e : Engine M V) (delta : StateDelta V) (now : Timestamp) : Engine M V :=
  let (wal, dir) :=
    e.wal.append e.disk.wal (.delta (writtenDelta e.stateManager.memory delta)) now
  { e with wal := wal, disk := { e.disk with wal := dir } }

/-- `updateEntity` with the listener it runs. -/
def updateEntity (e : Engine M V) (id : EntityId) (operations : List (DeltaOperation Doc))
    (now : Timestamp) : Engine M V :=
  match e.stateManager.receiveUpdate id operations now with
  | (σ, .updated delta) => { e with stateManager := σ }.appendDelta delta now
  | (σ, _) => { e with stateManager := σ }

lemma stateManager_updateEntity (e : Engine M V) (id : EntityId)
    (operations : List (DeltaOperation Doc)) (now : Timestamp) :
    (e.updateEntity id operations now).stateManager =
      (e.stateManager.receiveUpdate id operations now).1 := by
  unfold updateEntity
  rcases e.stateManager.receiveUpdate id operations now with ⟨σ, _ | _ | delta⟩ <;> rfl

def deleteEntity (e : Engine M V) (id : EntityId) : Engine M V :=
  { e with stateManager := e.stateManager.deleteEntity id }

/-! ## Snapshots -/

/-- A snapshot as its file holds it. -/
def snapshotDoc (m : M) (s : StateSnapshot) : SnapshotDoc :=
  ⟨s.version, s.timestamp, s.checksum,
    (s.entities.mapValues fun _ e => (StateManager.toDoc m e).json).asObject⟩

/-- The index entry of a snapshot and the file it is written to. -/
def snapshotFile (sm : SnapshotManager) (m : M) (s : StateSnapshot) :
    SnapshotMeta × SnapshotFile :=
  let bytes := sm.contentBytes (snapshotDoc m s)
  (⟨s.version, s.timestamp, s.entities.size, s.checksum,
      SnapshotManager.snapshotName s.version s.timestamp, bytes⟩,
    ⟨some (snapshotDoc m s), bytes⟩)

def takeSnapshot (e : Engine M V) (now : Timestamp) : Engine M V :=
  let (σ, snapshot) := e.stateManager.createSnapshot now
  let (entry, file) := snapshotFile e.snapshotManager σ.memory snapshot
  let dir := e.disk.snapshots.set entry.filename file
  let (sm, dir) := { e.snapshotManager with
    snapshots := e.snapshotManager.snapshots ++ [entry]
    snapshotsTaken := e.snapshotManager.snapshotsTaken + 1 }.pruneOldSnapshots dir
  let (wal, walDir) := e.wal.append e.disk.wal (.checkpoint snapshot.version now) now
  ⟨σ, wal, sm, ⟨walDir, dir⟩⟩

/-- `loadSnapshot` on the store, and whether it succeeded. -/
def loadSnapshotInto (σ : StateManager M V) (dir : SnapshotDir) (filename : String) :
    StateManager M V × Bool :=
  match (dir.get? filename).bind SnapshotFile.content with
  | some data => (σ.receiveSnapshot data.entities data.version, true)
  | none => (σ, false)

/-- `loadLatestSnapshot` on the store, and whether it succeeded. -/
def loadLatestInto (σ : StateManager M V) (sm : SnapshotManager) (dir : SnapshotDir) :
    StateManager M V × Bool :=
  match sm.latest with
  | some latest => loadSnapshotInto σ dir latest.filename
  | none => (σ, false)

def loadLatestSnapshot (e : Engine M V) : Engine M V × Bool :=
  let (σ, loaded) := loadLatestInto e.stateManager e.snapshotManager e.disk.snapshots
  ({ e with stateManager := σ }, loaded)

/-! ## Start-up -/

/-- The body of the loop of `recoverState`. -/
def applyEntry (now : Timestamp) (e : Engine M V) (entry : WALEntry) : Engine M V :=
  match entry.data with
  | .delta d => e.updateEntity d.entityId d.operations now
  | .checkpoint _ _ => e

/-- The cut-off of `recoverState`, given what `loadLatestSnapshot` returned. -/
def fromSequence (loaded : Engine M V × Bool) : ℕ :=
  if loaded.2 then loaded.1.stateManager.version else 0

def recoverState (e : Engine M V) (now : Timestamp) : Engine M V :=
  let loaded := e.loadLatestSnapshot
  (WriteAheadLog.replay loaded.1.disk.wal (fromSequence loaded)).foldl (applyEntry now) loaded.1

/-- `wal.start` and `snapshotManager.start`. -/
def openFiles (e : Engine M V) (now : Timestamp) : Engine M V :=
  let (wal, dir) := e.wal.start e.disk.wal now
  { e with
    wal := wal
    disk := { e.disk with wal := dir }
    snapshotManager := e.snapshotManager.loadSnapshotIndex e.disk.snapshots }

/-- The persistence part of `start`, in a new process on the given directories. -/
def boot (c : Config) (disk : Disk) (now : Timestamp) : Engine M V :=
  ((new c disk).openFiles now).recoverState now

/-! ## What a snapshot's file holds -/

/-- What a snapshot's file holds is what the entities read as when it is written. -/
lemma get?_snapshotDoc (m : M) (s : StateSnapshot) (id : EntityId) :
    (snapshotDoc m s).entities.get? id =
      (s.entities.get? id).map fun e => (StateManager.toDoc m e).json := by
  rw [snapshotDoc, Js.Map.get?_asObject, Js.Map.get?_mapValues]

/-! ## Runs -/

def call (e : Engine M V) (now : Timestamp) : Call → Engine M V
  | .createEntity type ownerId data id => e.createEntity type ownerId data id now
  | .updateEntity id operations => e.updateEntity id operations now
  | .deleteEntity id => e.deleteEntity id
  | .takeSnapshot => e.takeSnapshot now

/-- Calls one after another, each with the time it is made at. -/
def run (e : Engine M V) (calls : List (Call × Timestamp)) : Engine M V :=
  calls.foldl (fun e c => e.call c.2 c.1) e

@[simp] lemma run_nil (e : Engine M V) : e.run [] = e := rfl

@[simp] lemma run_cons (e : Engine M V) (c : Call × Timestamp) (calls : List (Call × Timestamp)) :
    e.run (c :: calls) = (e.call c.2 c.1).run calls := rfl

lemma run_append (e : Engine M V) (pre post : List (Call × Timestamp)) :
    e.run (pre ++ post) = (e.run pre).run post := by
  simp [run]

/-- What holds at the start and is kept by every call holds after every run. -/
lemma run_induction {P : Engine M V → Prop} (hcall : ∀ e now c, P e → P (e.call now c))
    {e : Engine M V} (he : P e) (calls : List (Call × Timestamp)) : P (e.run calls) := by
  induction calls generalizing e with
  | nil => exact he
  | cons c calls ih => exact ih (hcall e c.2 c.1 he)

end Engine

end SyncEngine
