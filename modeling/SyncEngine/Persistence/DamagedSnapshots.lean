import SyncEngine.Persistence.Durability
import SyncEngine.Persistence.Restart
import SyncEngine.Persistence.SnapshotOrder

/-!
# Damaged snapshot files

A process that dies while it writes a snapshot leaves a file that does not parse.  Loading such
a file fails before the store is touched (`loadSnapshotInto_failed`), and `recoverState` goes on
with what there is: it tries the last file of its index and no other, and when that fails it
starts fresh, whatever the older files hold.

`boot_lastSnapshot` says what a start-up makes of any directories.  It replays the log from the
version of the last file, or from the beginning if that file does not parse; and the store ends
with the entities of the last file, changed by the replayed deltas, or with none, because a
delta creates no entity.
-/

namespace SyncEngine

open Js WriteAheadLog SnapshotManager

namespace Engine

variable {M V : Type} [Memory M V]

/-- **A failed load leaves the store as it is.** -/
lemma loadSnapshotInto_failed (σ : StateManager M V) (dir : SnapshotDir) (filename : String)
    (h : (loadSnapshotInto σ dir filename).2 = false) :
    (loadSnapshotInto σ dir filename).1 = σ := by
  unfold loadSnapshotInto at h ⊢
  split
  next hcontent =>
    rw [hcontent] at h
    cases h
  next => rfl

/-! ## The file that is tried -/

/-- What the last file of the index holds, if it parses. -/
def lastSnapshot (c : Config) (disk : Disk) : Option SnapshotDoc :=
  ((SnapshotManager.new c.maxSnapshots c.contentBytes).loadSnapshotIndex
    disk.snapshots).latest.bind fun latest =>
      (disk.snapshots.get? latest.filename).bind SnapshotFile.content

/-- What a start-up loads: that file or nothing. -/
lemma loaded_eq (c : Config) (disk : Disk) : loaded M c disk =
    match lastSnapshot c disk with
    | some doc => ((StateManager.new Memory.empty c.maxHistoryPerEntity).receiveSnapshot
        doc.entities doc.version, true)
    | none => (.new Memory.empty c.maxHistoryPerEntity, false) := by
  unfold loaded loadLatestInto lastSnapshot
  cases ((SnapshotManager.new c.maxSnapshots c.contentBytes).loadSnapshotIndex
    disk.snapshots).latest with
  | none => rfl
  | some latest =>
      cases hcontent : (disk.snapshots.get? latest.filename).bind SnapshotFile.content with
      | none => simp only [loadSnapshotInto, Option.bind_some, hcontent]
      | some doc => simp only [loadSnapshotInto, Option.bind_some, hcontent]

/-- The sequence number from which a start-up replays. -/
def replayedFrom (c : Config) (disk : Disk) : ℕ := (lastSnapshot c disk).elim 0 SnapshotDoc.version

variable (M) in
lemma cutoff_eq (c : Config) (disk : Disk) : cutoff M c disk = replayedFrom c disk := by
  rw [cutoff, loaded_eq, replayedFrom]
  cases lastSnapshot c disk <;> rfl

/-! ## What the log makes of it -/

/-- The data of the entities after the deltas among the entries. -/
def replayed (entries : List WALEntry) (data : EntityId → Option (Obj Doc)) :
    EntityId → Option (Obj Doc) :=
  entries.foldl (fun data x =>
    match x.data with
    | .delta d => Function.update data d.entityId
        ((data d.entityId).map fun o => (applyAll d.operations o).1)
    | .checkpoint _ _ => data) data

/-- A delta creates no entity. -/
lemma replayed_none (entries : List WALEntry) :
    replayed entries (fun _ => none) = fun _ => none := by
  induction entries with
  | nil => rfl
  | cons x entries ih =>
      obtain ⟨n, t, d | ⟨v, t'⟩⟩ := x
      · have hnone : Function.update (fun _ : EntityId => (none : Option (Obj Doc))) d.entityId
            none = fun _ => none := Function.update_eq_self d.entityId _
        rw [replayed, List.foldl_cons]
        simp only [Option.map_none, hnone]
        exact ih
      · exact ih

variable [TreeMemory M V]

lemma Apart.data_foldl_applyEntry {g : Engine M V} (hg : g.Apart) (now : Timestamp)
    (entries : List WALEntry) : (entries.foldl (applyEntry now) g).stateManager.data =
      replayed entries g.stateManager.data := by
  induction entries generalizing g with
  | nil => rfl
  | cons x entries ih =>
      obtain ⟨n, t, d | ⟨v, t'⟩⟩ := x
      · obtain ⟨hApart, hdata⟩ := hg.applyDelta now ⟨n, t, .delta d⟩ rfl
        have hstep : (applyEntry now g ⟨n, t, .delta d⟩).stateManager.data =
            Function.update g.stateManager.data d.entityId
              ((g.stateManager.data d.entityId).map fun o => (applyAll d.operations o).1) := by
          funext j
          rw [hdata, Function.update_apply]
        rw [List.foldl_cons, ih hApart, hstep]
        rfl
      · exact ih hg

/-- **Recovery tries the last file of its index and no other.**  On any directories, whichever of
the files parse, a failed load leaves the store as it is, and a start-up replays the log from the
version of the last file, or from the beginning if that file does not parse.  It ends with the
entities of the last file, changed by the replayed deltas; if that file does not parse, with no
entity at all. -/
theorem boot_lastSnapshot (c : Config) (disk : Disk) (now : Timestamp) :
    (∀ (σ : StateManager M V) filename, (loadSnapshotInto σ disk.snapshots filename).2 = false →
      (loadSnapshotInto σ disk.snapshots filename).1 = σ) ∧
    (boot c disk now : Engine M V) = (replay disk.wal (replayedFrom c disk)).foldl (applyEntry now)
      ((new c disk : Engine M V).openFiles now).loadLatestSnapshot.1 ∧
    (boot c disk now : Engine M V).stateManager.data =
      match lastSnapshot c disk with
      | some doc => replayed (replay disk.wal doc.version)
          fun id => (doc.entities.get? id).map EntityDoc.data
      | none => fun _ => none := by
  have hboot : (boot c disk now : Engine M V) =
      (replay disk.wal (replayedFrom c disk)).foldl (applyEntry now)
        ((new c disk : Engine M V).openFiles now).loadLatestSnapshot.1 := by
    rw [boot_eq, cutoff_eq]
  have hloaded : ((new c disk : Engine M V).openFiles now).loadLatestSnapshot.1.stateManager =
      (loaded M c disk).1 := rfl
  refine ⟨fun σ filename => loadSnapshotInto_failed σ _ filename, hboot, ?_⟩
  have hnew := StateManager.holds_new (M := M) (V := V) c.maxHistoryPerEntity
  cases hlast : lastSnapshot c disk with
  | none =>
      have hstore : ((new c disk : Engine M V).openFiles now).loadLatestSnapshot.1.stateManager =
          .new Memory.empty c.maxHistoryPerEntity := by
        rw [hloaded, loaded_eq, hlast]
      rw [hboot, Apart.data_foldl_applyEntry ⟨_, hstore ▸ hnew⟩, hstore]
      exact replayed_none _
  | some doc =>
      rw [loaded_eq, hlast] at hloaded
      obtain ⟨T, hT, -, hview⟩ := hnew.receiveSnapshot doc.entities doc.version
      have hdata : ((new c disk : Engine M V).openFiles
          now).loadLatestSnapshot.1.stateManager.data =
            fun id => (doc.entities.get? id).map EntityDoc.data := by
        funext id
        rw [hloaded, StateManager.data_eq_view, hview]
      rw [hboot, Apart.data_foldl_applyEntry ⟨T, hloaded ▸ hT⟩, hdata, replayedFrom, hlast]
      rfl

/-- Two snapshots, the newer of which was cut off while it was written. -/
def tornNewest : Disk :=
  { twoSnapshots 1 with
    snapshots := (twoSnapshots 1).snapshots.set (stampName (2, 3)) ⟨none, 64⟩ }

/-- The older file parses and holds an entity, and a start-up does not restore it. -/
theorem older_snapshot_not_tried :
    ((tornNewest.snapshots.get? (stampName (1, 1))).bind SnapshotFile.content).map
        (fun doc => doc.entities.has "0") = some true ∧
      (boot .default tornNewest 5 : Engine Cells Doc).stateManager.entities.has "0" = false := by
  decide +kernel

end Engine

end SyncEngine
