import SyncEngine.Core.RawUpdate
import SyncEngine.Persistence.SnapshotIndex

/-!
# The snapshot file round trip

Does a snapshot come back from its file?  `takeSnapshot` writes the entity map as an object, and
`loadSnapshot` makes a map of the object's entries again.  The version and every entity come back
as they were; but an object enumerates its integer names first, so the map may have another order
than it had, and `computeChecksum` hashes the entries in the order of the map.

`snapshot_round_trip_iff` says when the three parts of a snapshot, its version, its entities and
its checksum, are the same after the round trip: when the entries hash to the same value in the
order of an object, which they do whenever they are in that order.
-/

namespace Js

/-- Enumeration looks at names only. -/
lemma enumerate_map {V W : Type} (f : String → V → W) (es : List (String × V)) :
    enumerate (es.map fun e => (e.1, f e.1 e.2)) =
      (enumerate es).map fun e => (e.1, f e.1 e.2) := by
  unfold enumerate sortOn
  rw [List.map_append, List.filter_map, List.filter_map]
  congr 1
  symm
  apply List.map_insertionSort
  exact fun a _ b _ => Iff.rfl

lemma Map.asObject_mapValues {V W : Type} (f : String → V → W) (m : Map String V) :
    (m.mapValues f).asObject = m.asObject.mapValues f :=
  Map.ext (enumerate_map f m.entries)

end Js

namespace SyncEngine

open Js SnapshotManager

namespace StateManager

variable {M V : Type}

/-! ## What the checksum depends on -/

/-- What `computeChecksum` reads of an entry. -/
def stamp (e : EntityId × EntityState) : EntityId × ℕ × Timestamp :=
  (e.1, e.2.version, e.2.lastModified)

/-- The same of an entry of a file. -/
def stampDoc (e : EntityId × EntityDoc) : EntityId × ℕ × Timestamp :=
  (e.1, e.2.version, e.2.lastModified)

lemma computeChecksum_congr {σ τ : StateManager M V}
    (h : τ.entities.entries.map stamp = σ.entities.entries.map stamp) :
    τ.computeChecksum = σ.computeChecksum := by
  have hstamps : ∀ ρ : StateManager M V, ρ.computeChecksum =
      hexText ((ρ.entities.entries.map stamp).foldl (fun hash s =>
        (charCodes (s.1 ++ ":" ++ toString s.2.1 ++ ":" ++ toString s.2.2)).foldl hashStep hash)
          0) := by
    intro ρ
    rw [List.foldl_map]
    rfl
  rw [hstamps, hstamps, h]

lemma map_stamp_parseEntities [Memory M V] (m : M) (es : List (EntityId × EntityDoc)) :
    (parseEntities m es).1.map stamp = es.map stampDoc := by
  induction es generalizing m with
  | nil => rfl
  | cons e es ih =>
    simp only [parseEntities, List.map_cons, ih]
    rfl

/-- The entries hash, in the order in which an object enumerates them, to what they hash to in the
order of the map. -/
def HashesAsObject (σ : StateManager M V) : Prop :=
  ({ σ with entities := σ.entities.asObject } : StateManager M V).computeChecksum =
    σ.computeChecksum

/-- They do if the map has that order: the ids that are array indices first and ascending. -/
lemma hashesAsObject_of_asObject {σ : StateManager M V} (h : σ.entities.asObject = σ.entities) :
    σ.HashesAsObject := by
  rw [HashesAsObject, h]

end StateManager

namespace Engine

variable {M V : Type} [Memory M V]

/-- Two snapshots, read in their memories, have the same version, entities and checksum. -/
structure SameSnapshot (m : M) (p : StateSnapshot) (m' : M) (q : StateSnapshot) : Prop where
  version : q.version = p.version
  entities : ∀ id, (q.entities.get? id).map (StateManager.toDoc m') =
    (p.entities.get? id).map (StateManager.toDoc m)
  checksum : q.checksum = p.checksum

/-- The file that `takeSnapshot` writes is pruned by the same call: the index gets longer than its
limit, and an entry over the limit has the name of the file. -/
def PrunedAtOnce (e : Engine M V) (now : Timestamp) : Prop :=
  (e.nextEntry now).filename ∈
    ((e.snapshotManager.snapshots ++ [e.nextEntry now]).take
      ((e.snapshotManager.snapshots ++ [e.nextEntry now]).length -
        e.snapshotManager.maxSnapshots)).map SnapshotMeta.filename

/-! ## The file -/

/-- The file is there, with what was written to it, unless it was pruned at once. -/
lemma get?_takeSnapshot (e : Engine M V) (now : Timestamp) :
    (e.takeSnapshot now).disk.snapshots.get? (e.nextEntry now).filename = none ∧
        e.PrunedAtOnce now ∨
      (e.takeSnapshot now).disk.snapshots.get? (e.nextEntry now).filename =
          some (snapshotFile e.snapshotManager e.stateManager.memory (e.nextSnapshot now)).2 ∧
        ¬ e.PrunedAtOnce now := by
  have hdir := congrArg Prod.snd (e.takeSnapshot_pruned now)
  dsimp only at hdir
  have hwritten : (e.writtenDir now).get? (e.nextEntry now).filename =
      some (snapshotFile e.snapshotManager e.stateManager.memory (e.nextSnapshot now)).2 := by
    rw [writtenDir, Js.Map.get?_set, if_pos rfl]
  have hhas : (e.takeSnapshot now).disk.snapshots.has (e.nextEntry now).filename = true ↔
      ¬ e.PrunedAtOnce now := by
    rw [hdir, has_prune, Js.Map.has, hwritten, PrunedAtOnce]
    simp
  cases hget : (e.takeSnapshot now).disk.snapshots.get? (e.nextEntry now).filename with
  | none =>
    left
    rw [Js.Map.has, hget] at hhas
    refine ⟨rfl, ?_⟩
    by_contra hkept
    exact absurd (hhas.2 hkept) (by simp)
  | some file =>
    right
    rw [Js.Map.has, hget] at hhas
    refine ⟨?_, hhas.1 rfl⟩
    rw [hdir] at hget
    rw [← get?_prune _ _ hget, hwritten]

/-- What is loaded from the file has its stamps in the order of an object. -/
lemma map_stamp_receiveSnapshot (σ τ : StateManager M V) (m : M) {p : StateSnapshot}
    (hp : p.entities = σ.entities) :
    (τ.receiveSnapshot (snapshotDoc m p).entities p.version).entities.entries.map
        StateManager.stamp = σ.entities.asObject.entries.map StateManager.stamp := by
  have hnodup : ((StateManager.parseEntities τ.memory
      (snapshotDoc m p).entities.entries).1.map Prod.fst).Nodup := by
    rw [StateManager.map_fst_parseEntities]
    exact (snapshotDoc m p).entities.nodup
  have hentries : (τ.receiveSnapshot (snapshotDoc m p).entities p.version).entities.entries =
      (StateManager.parseEntities τ.memory (snapshotDoc m p).entities.entries).1 :=
    Js.Map.entries_ofEntries hnodup
  rw [hentries, StateManager.map_stamp_parseEntities, snapshotDoc, Js.Map.asObject_mapValues, hp,
    Js.Map.mapValues, List.map_map]
  rfl

/-- **What comes back from the file**, loaded into any store: the version, the entities, and the
checksum of the entries in the order of an object. -/
lemma sameSnapshot_receiveSnapshot [LawfulMemory M V] {σ : StateManager M V}
    (hchecked : σ.CacheChecked) (hjson : ∀ id d, σ.view id = some d → d.json = d)
    (τ : StateManager M V) (now now' : Timestamp) :
    let p := (σ.createSnapshot now).2
    let ρ := τ.receiveSnapshot (snapshotDoc σ.memory p).entities p.version
    SameSnapshot σ.memory p ρ.memory (ρ.createSnapshot now').2 ↔ σ.HashesAsObject := by
  intro p ρ
  obtain ⟨hentities, hsum⟩ := hchecked.createSnapshot now
  have hfresh : (ρ.createSnapshot now').2 = ρ.freshSnapshot now' := rfl
  have hstamps : ρ.computeChecksum =
      ({ σ with entities := σ.entities.asObject } : StateManager M V).computeChecksum :=
    StateManager.computeChecksum_congr (map_stamp_receiveSnapshot σ τ σ.memory hentities)
  rw [hfresh, StateManager.HashesAsObject, ← hstamps]
  constructor
  · intro h
    exact h.checksum.trans hsum
  · intro h
    refine ⟨rfl, fun id => ?_, h.trans hsum.symm⟩
    have hview : ρ.view id = (snapshotDoc σ.memory p).entities.get? id :=
      StateManager.view_receiveSnapshot τ _ _ id
    have hid : (p.entities.get? id).map (StateManager.toDoc σ.memory) = σ.view id := by
      rw [hentities]
      rfl
    calc ((ρ.freshSnapshot now').entities.get? id).map (StateManager.toDoc ρ.memory)
        = ρ.view id := rfl
      _ = (σ.view id).map EntityDoc.json := by
          rw [hview, get?_snapshotDoc, ← hid, Option.map_map]
          rfl
      _ = σ.view id := by
          cases hd : σ.view id with
          | none => rfl
          | some d => rw [Option.map_some, hjson id d hd]
      _ = (p.entities.get? id).map (StateManager.toDoc σ.memory) := hid.symm

/-- **When a snapshot comes back from its file.**  A snapshot is taken of any store a process can
come to hold, with JSON data; its file is loaded, and another snapshot is taken.  The two have the
same version, entities and checksum if and only if the entries hash to the same value in the order
of an object, or the file was pruned at once, so that nothing is loaded. -/
theorem snapshot_round_trip_iff [LawfulMemory M V] {e : Engine M V}
    (h : e.stateManager.Reachable)
    (hjson : ∀ id d, e.stateManager.view id = some d → d.json = d) (now now' : Timestamp) :
    let p := (e.stateManager.createSnapshot now).2
    let f := e.takeSnapshot now
    let τ := (loadSnapshotInto f.stateManager f.disk.snapshots
      (snapshotName p.version p.timestamp)).1
    SameSnapshot f.stateManager.memory p τ.memory (τ.createSnapshot now').2 ↔
      e.stateManager.HashesAsObject ∨ e.PrunedAtOnce now := by
  intro p f τ
  have hmemory : f.stateManager.memory = e.stateManager.memory := by
    rw [show f.stateManager = _ from e.takeSnapshot_stateManager now]
  have hname : snapshotName p.version p.timestamp = (e.nextEntry now).filename := rfl
  obtain ⟨hgone, hpruned⟩ | ⟨hfile, hkept⟩ := e.get?_takeSnapshot now
  · -- Nothing is loaded, and the second snapshot is the first one, from the cache.
    have hτ : τ = f.stateManager := by
      unfold τ loadSnapshotInto
      rw [hname, hgone]
      rfl
    have hcached : (f.stateManager.createSnapshot now').2 = p := by
      apply StateManager.createSnapshot_of_cached
      · rw [show f.stateManager = _ from e.takeSnapshot_stateManager now]
        rfl
      · rw [show f.stateManager = _ from e.takeSnapshot_stateManager now]
        exact StateManager.version_createSnapshot _ now
    rw [hτ, hcached]
    exact iff_of_true ⟨rfl, fun _ => rfl, rfl⟩ (.inr hpruned)
  · have hτ : τ = f.stateManager.receiveSnapshot (snapshotDoc e.stateManager.memory p).entities
        p.version := by
      unfold τ loadSnapshotInto
      rw [hname, hfile]
      rfl
    rw [hτ, hmemory]
    have hback := sameSnapshot_receiveSnapshot h.cacheChecked hjson f.stateManager now now'
    exact hback.trans ⟨.inl, fun hor => hor.resolve_right hkept⟩

/-- A process with two entities, the ids of which are not in the order of an object. -/
def unordered : Engine Cells Doc :=
  (boot .default .empty 0).run
    [(.createEntity "player" "p1" .empty "b", 1), (.createEntity "player" "p2" .empty "1", 2)]

/-- The two in the other order. -/
def ordered : Engine Cells Doc :=
  (boot .default .empty 0).run
    [(.createEntity "player" "p2" .empty "1", 1), (.createEntity "player" "p1" .empty "b", 2)]

theorem snapshot_round_trip_ordered :
    let p := (ordered.stateManager.createSnapshot 3).2
    let f := ordered.takeSnapshot 3
    let τ := (loadSnapshotInto f.stateManager f.disk.snapshots
      (snapshotName p.version p.timestamp)).1
    SameSnapshot f.stateManager.memory p τ.memory (τ.createSnapshot 4).2 := by
  have hreach : ordered.stateManager.Reachable :=
    .createEntity (.createEntity (.new 100) "player" "p2" .empty "1" 1) "player" "p1" .empty "b" 2
  refine (snapshot_round_trip_iff hreach ?_ 3 4).2 (.inl ?_)
  · intro id d hd
    obtain ⟨x, hx, rfl⟩ := Option.map_eq_some_iff.1 hd
    have hentries : ordered.stateManager.entities.entries =
        [("1", ⟨"1", "player", "p2", (0, []), 1, 1⟩),
          ("b", ⟨"b", "player", "p1", (1, []), 1, 2⟩)] := rfl
    have hmem := (Js.Map.mem_entries_iff _ _ _).2 hx
    rw [hentries, List.mem_cons, List.mem_singleton] at hmem
    obtain h | h := hmem
    · obtain ⟨rfl, rfl⟩ := Prod.mk.inj h
      exact congrArg (EntityDoc.mk "1" "player" "p2" · 1 1) Obj.isJson_empty
    · obtain ⟨rfl, rfl⟩ := Prod.mk.inj h
      exact congrArg (EntityDoc.mk "b" "player" "p1" · 1 2) Obj.isJson_empty
  · exact StateManager.hashesAsObject_of_asObject (Js.Map.ext (by decide +kernel))

/-- The reloaded map begins with the id that is an array index, and hashes to another value. -/
theorem round_trip_changes_checksum :
    let p := (unordered.stateManager.createSnapshot 3).2
    let f := unordered.takeSnapshot 3
    let τ := (loadSnapshotInto f.stateManager f.disk.snapshots
      (snapshotName p.version p.timestamp)).1
    ¬ SameSnapshot f.stateManager.memory p τ.memory (τ.createSnapshot 4).2 := by
  intro p f τ h
  have hsum := h.checksum
  revert hsum
  decide +kernel

end Engine

end SyncEngine
