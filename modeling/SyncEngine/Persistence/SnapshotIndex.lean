import SyncEngine.Persistence.Engine

/-!
# The index and its files

Every entry of the snapshot index should name a file that exists, and the latest one should
restore the store it was taken of.  What keeps the two together is that a file is named after
the store's version: as long as the version moves between snapshots, every entry has a file of
its own, and pruning removes the file of the oldest entry only.

`createSnapshot` answers from its cache while the version stands still, so two snapshots taken
without a change in between share one name, one file, and two index entries.  When the first of
the two is pruned, the file of the second goes with it.  `snapshots_sound_iff` says that this is
the only way an indexed file can be lost.

`Indexed` is the invariant of every run: the entry's name is made of its version and its
timestamp, no version is ahead of the store's, and the entries of one version agree on the
timestamp, because the cache still holds the snapshot they were made of.
-/

namespace SyncEngine

open Js SnapshotManager

namespace Engine

variable {M V : Type} [Memory M V]

/-- Every indexed file is there. -/
def Intact (e : Engine M V) : Prop :=
  ∀ s ∈ e.snapshotManager.snapshots, e.disk.snapshots.has s.filename = true

/-- `loadLatestSnapshot` succeeds and restores every entity, as JSON writes it. -/
def Restores (e : Engine M V) : Prop :=
  e.loadLatestSnapshot.2 = true ∧
    ∀ id, e.loadLatestSnapshot.1.stateManager.view id =
      (e.stateManager.view id).map EntityDoc.json

/-- The snapshot that the next one prunes, if it prunes one, is of a version that no other
index entry has, and that is not the store's. -/
def PrunesOwnFile (e : Engine M V) : Prop :=
  ∀ oldest rest, e.snapshotManager.snapshots = oldest :: rest →
    (oldest :: rest).length = e.snapshotManager.maxSnapshots →
    oldest.version ∉ rest.map SnapshotMeta.version ++ [e.stateManager.version]

/-- A store with nothing cached and an index with nothing in it. -/
structure Fresh (e : Engine M V) : Prop where
  snapshots : e.snapshotManager.snapshots = []
  cache : e.stateManager.cache = none

lemma fresh_new (c : Config) (disk : Disk) : (new c disk : Engine M V).Fresh := ⟨rfl, rfl⟩

/-- The invariant of the index and the cache. -/
structure Indexed (e : Engine M V) : Prop where
  name : ∀ s ∈ e.snapshotManager.snapshots, s.filename = snapshotName s.version s.timestamp
  version_le : ∀ s ∈ e.snapshotManager.snapshots, s.version ≤ e.stateManager.version
  timestamp : ∀ s ∈ e.snapshotManager.snapshots, ∀ t ∈ e.snapshotManager.snapshots,
    s.version = t.version → s.timestamp = t.timestamp
  cached : ∀ s ∈ e.snapshotManager.snapshots, s.version = e.stateManager.version →
    ∃ c, e.stateManager.cache = some c ∧ c.version = s.version ∧ c.timestamp = s.timestamp
  length_le : e.snapshotManager.snapshots.length ≤ e.snapshotManager.maxSnapshots
  fresh : e.stateManager.CacheFresh

omit [Memory M V] in
lemma Fresh.indexed {e : Engine M V} (h : e.Fresh) : e.Indexed where
  name := by simp [h.snapshots]
  version_le := by simp [h.snapshots]
  timestamp := by simp [h.snapshots]
  cached := by simp [h.snapshots]
  length_le := by simp [h.snapshots]
  fresh := by simp [StateManager.CacheFresh, h.cache]

/-! ## Entity calls -/

/-- What an entity call does to the store's version: it moves on and drops the cache, or
version, cache and entity map stay. -/
def Moves (σ σ' : StateManager M V) : Prop :=
  (σ'.version = σ.version + 1 ∧ σ'.cache = none) ∨
    (σ'.version = σ.version ∧ σ'.cache = σ.cache ∧ σ'.entities = σ.entities)

lemma moves_updateEntity (σ : StateManager M V) (id : EntityId)
    (operations : List (DeltaOperation V)) (now : Timestamp) :
    Moves σ (σ.updateEntity id operations now).1 := by
  obtain ⟨-, h⟩ | ⟨_, _, _, -, -, h⟩ | ⟨_, _, -, -, h⟩ :=
    σ.updateEntity_cases id operations now
  · rw [h]; exact .inr ⟨rfl, rfl, rfl⟩
  · rw [h]; exact .inr ⟨rfl, rfl, rfl⟩
  · rw [h]; exact .inl ⟨rfl, rfl⟩

omit [Memory M V] in
lemma moves_deleteEntity (σ : StateManager M V) (id : EntityId) :
    Moves σ (σ.deleteEntity id) := by
  unfold StateManager.deleteEntity
  split
  · exact .inr ⟨rfl, rfl, rfl⟩
  · exact .inl ⟨rfl, rfl⟩

/-- **What an entity call can do**: the index and the snapshot directory stay, and the store
moves. -/
lemma call_moves (e : Engine M V) (now : Timestamp) {c : Call} (hc : c ≠ .takeSnapshot) :
    (e.call now c).snapshotManager = e.snapshotManager ∧
      (e.call now c).disk.snapshots = e.disk.snapshots ∧
      Moves e.stateManager (e.call now c).stateManager := by
  cases c with
  | createEntity type ownerId data id => exact ⟨rfl, rfl, .inl ⟨rfl, rfl⟩⟩
  | updateEntity id operations =>
      have h : Moves e.stateManager (e.stateManager.receiveUpdate id operations now).1 :=
        moves_updateEntity
          { e.stateManager with memory := (parseOperations e.stateManager.memory operations).2 } id
          (parseOperations e.stateManager.memory operations).1 now
      simp only [call, updateEntity]
      split
      all_goals
        rename_i heq
        rw [heq] at h
        exact ⟨rfl, rfl, h⟩
  | deleteEntity id => exact ⟨rfl, rfl, moves_deleteEntity _ id⟩
  | takeSnapshot => exact absurd rfl hc

/-- What handing over one log entry does to the files and the store. -/
lemma applyEntry_moves (now : Timestamp) (e : Engine M V) (x : WALEntry) :
    (applyEntry now e x).snapshotManager = e.snapshotManager ∧
      (applyEntry now e x).disk.snapshots = e.disk.snapshots ∧
      Moves e.stateManager (applyEntry now e x).stateManager := by
  obtain ⟨n, t, d | ⟨v, t'⟩⟩ := x
  · exact e.call_moves now (c := .updateEntity d.entityId d.operations) (by simp)
  · exact ⟨rfl, rfl, .inr ⟨rfl, rfl, rfl⟩⟩

omit [Memory M V] in
lemma cacheFresh_of_moves {σ σ' : StateManager M V} (h : σ.CacheFresh) (hm : Moves σ σ') :
    σ'.CacheFresh := by
  intro c hc hcv
  rcases hm with ⟨-, hcache⟩ | ⟨hv, hcache, hent⟩
  · rw [hcache] at hc
    cases hc
  · rw [hent]
    exact h c (hcache ▸ hc) (hcv.trans hv)

omit [Memory M V] in
lemma Indexed.of_moves {e e' : Engine M V} (h : e.Indexed)
    (hsm : e'.snapshotManager = e.snapshotManager) (hm : Moves e.stateManager e'.stateManager) :
    e'.Indexed := by
  have hfresh := cacheFresh_of_moves h.fresh hm
  rcases hm with ⟨hv, hcache⟩ | ⟨hv, hcache, hent⟩
  · refine ⟨?_, ?_, ?_, ?_, ?_, hfresh⟩
    · rw [hsm]; exact h.name
    · rw [hsm, hv]
      exact fun s hs => (h.version_le s hs).trans (Nat.le_succ _)
    · rw [hsm]; exact h.timestamp
    · rw [hsm, hv]
      intro s hs hsv
      have := h.version_le s hs
      omega
    · rw [hsm]; exact h.length_le
  · refine ⟨?_, ?_, ?_, ?_, ?_, hfresh⟩
    · rw [hsm]; exact h.name
    · rw [hsm, hv]; exact h.version_le
    · rw [hsm]; exact h.timestamp
    · rw [hsm, hv, hcache]; exact h.cached
    · rw [hsm]; exact h.length_le

/-! ## Taking a snapshot -/

/-- The snapshot that `takeSnapshot` writes. -/
def nextSnapshot (e : Engine M V) (now : Timestamp) : StateSnapshot :=
  (e.stateManager.createSnapshot now).2

/-- The index entry that `takeSnapshot` adds. -/
def nextEntry (e : Engine M V) (now : Timestamp) : SnapshotMeta :=
  (snapshotFile e.snapshotManager e.stateManager.memory (e.nextSnapshot now)).1

/-- The snapshot directory before pruning. -/
def writtenDir (e : Engine M V) (now : Timestamp) : SnapshotDir :=
  e.disk.snapshots.set (e.nextEntry now).filename
    (snapshotFile e.snapshotManager e.stateManager.memory (e.nextSnapshot now)).2

lemma nextEntry_version (e : Engine M V) (now : Timestamp) :
    (e.nextEntry now).version = e.stateManager.version :=
  StateManager.version_createSnapshot _ now

lemma nextEntry_filename (e : Engine M V) (now : Timestamp) :
    (e.nextEntry now).filename =
      snapshotName (e.nextEntry now).version (e.nextEntry now).timestamp :=
  rfl

lemma takeSnapshot_stateManager (e : Engine M V) (now : Timestamp) :
    (e.takeSnapshot now).stateManager =
      { e.stateManager with cache := some (e.nextSnapshot now) } :=
  StateManager.createSnapshot_fst _ now

lemma cacheFresh_takeSnapshot {e : Engine M V} (h : e.stateManager.CacheFresh)
    (now : Timestamp) : (e.takeSnapshot now).stateManager.CacheFresh := by
  intro c hc hcv
  rw [takeSnapshot_stateManager] at hc ⊢
  cases hc
  exact StateManager.entities_createSnapshot h now

lemma cacheFresh_run {e : Engine M V} (h : e.stateManager.CacheFresh)
    (calls : List (Call × Timestamp)) : (e.run calls).stateManager.CacheFresh := by
  refine run_induction (P := fun f => f.stateManager.CacheFresh) (fun f now c hf => ?_) h calls
  by_cases hc : c = .takeSnapshot
  · subst hc
    exact cacheFresh_takeSnapshot hf now
  · exact cacheFresh_of_moves hf (f.call_moves now hc).2.2

lemma takeSnapshot_pruned (e : Engine M V) (now : Timestamp) :
    ((e.takeSnapshot now).snapshotManager.snapshots, (e.takeSnapshot now).disk.snapshots) =
      prune e.snapshotManager.maxSnapshots (e.snapshotManager.snapshots ++ [e.nextEntry now])
        (e.writtenDir now) := by
  have hm : (e.stateManager.createSnapshot now).1.memory = e.stateManager.memory := by
    rw [StateManager.createSnapshot_fst]
  unfold nextEntry writtenDir nextSnapshot nextEntry nextSnapshot
  rw [← hm]
  rfl

@[simp] lemma takeSnapshot_maxSnapshots (e : Engine M V) (now : Timestamp) :
    (e.takeSnapshot now).snapshotManager.maxSnapshots = e.snapshotManager.maxSnapshots := rfl

/-- **What pruning does after a snapshot**: nothing while the index has room, and otherwise the
oldest entry goes with its file. -/
lemma takeSnapshot_cases {e : Engine M V} (h : e.Indexed)
    (hmax : 1 ≤ e.snapshotManager.maxSnapshots) (now : Timestamp) :
    (e.snapshotManager.snapshots.length < e.snapshotManager.maxSnapshots ∧
      (e.takeSnapshot now).snapshotManager.snapshots =
        e.snapshotManager.snapshots ++ [e.nextEntry now] ∧
      (e.takeSnapshot now).disk.snapshots = e.writtenDir now) ∨
    (∃ oldest rest, e.snapshotManager.snapshots = oldest :: rest ∧
      (oldest :: rest).length = e.snapshotManager.maxSnapshots ∧
      (e.takeSnapshot now).snapshotManager.snapshots = rest ++ [e.nextEntry now] ∧
      (e.takeSnapshot now).disk.snapshots = (e.writtenDir now).delete oldest.filename) := by
  have hp := e.takeSnapshot_pruned now
  rcases h.length_le.lt_or_eq with hlt | heq
  · left
    rw [prune_of_le (by simpa using hlt)] at hp
    exact ⟨hlt, congrArg Prod.fst hp, congrArg Prod.snd hp⟩
  · right
    cases hs : e.snapshotManager.snapshots with
    | nil => rw [hs] at heq; simp at heq; omega
    | cons oldest rest =>
        rw [hs] at heq
        rw [hs, List.cons_append, prune_of_eq (by simpa using heq)] at hp
        exact ⟨oldest, rest, rfl, heq, congrArg Prod.fst hp, congrArg Prod.snd hp⟩

/-- The entries after a snapshot are among the old ones and the new one, which is the last. -/
lemma takeSnapshot_index {e : Engine M V} (h : e.Indexed)
    (hmax : 1 ≤ e.snapshotManager.maxSnapshots) (now : Timestamp) :
    ∃ kept, (e.takeSnapshot now).snapshotManager.snapshots = kept ++ [e.nextEntry now] ∧
      (∀ s ∈ kept, s ∈ e.snapshotManager.snapshots) ∧
      kept.length < e.snapshotManager.maxSnapshots := by
  rcases takeSnapshot_cases h hmax now with ⟨hlt, hs, -⟩ | ⟨oldest, rest, hold, hlen, hs, -⟩
  · exact ⟨_, hs, fun s => id, hlt⟩
  · refine ⟨rest, hs, fun s hs => ?_, ?_⟩
    · rw [hold]; exact List.mem_cons_of_mem _ hs
    · rw [← hlen]; simp

/-- An old entry of the present version has the timestamp of the new one. -/
lemma timestamp_nextEntry {e : Engine M V} (h : e.Indexed) (now : Timestamp) {s : SnapshotMeta}
    (hs : s ∈ e.snapshotManager.snapshots) (hv : s.version = e.stateManager.version) :
    s.timestamp = (e.nextEntry now).timestamp := by
  obtain ⟨c, hc, hcv, hct⟩ := h.cached s hs hv
  have hnext : e.nextSnapshot now = c :=
    StateManager.createSnapshot_of_cached hc (hcv.trans hv) now
  calc s.timestamp = c.timestamp := hct.symm
    _ = (e.nextSnapshot now).timestamp := by rw [hnext]
    _ = (e.nextEntry now).timestamp := rfl

lemma Indexed.takeSnapshot {e : Engine M V} (h : e.Indexed)
    (hmax : 1 ≤ e.snapshotManager.maxSnapshots) (now : Timestamp) :
    (e.takeSnapshot now).Indexed := by
  obtain ⟨kept, hidx, hkept, hlen⟩ := takeSnapshot_index h hmax now
  have hver := e.nextEntry_version now
  have hmem : ∀ s ∈ (e.takeSnapshot now).snapshotManager.snapshots,
      s ∈ e.snapshotManager.snapshots ∨ s = e.nextEntry now := by
    intro s hs
    rw [hidx, List.mem_append, List.mem_singleton] at hs
    exact hs.imp (hkept s) id
  have htime : ∀ s ∈ e.snapshotManager.snapshots, s.version = (e.nextEntry now).version →
      s.timestamp = (e.nextEntry now).timestamp := fun s hs hv =>
    timestamp_nextEntry h now hs (hv.trans hver)
  refine ⟨?_, ?_, ?_, ?_, ?_, ?_⟩
  · intro s hs
    rcases hmem s hs with hs | rfl
    · exact h.name s hs
    · exact e.nextEntry_filename now
  · intro s hs
    rw [takeSnapshot_stateManager]
    rcases hmem s hs with hs | rfl
    · exact h.version_le s hs
    · exact hver.le
  · intro s hs t ht hst
    rcases hmem s hs with hs | rfl <;> rcases hmem t ht with ht | rfl
    · exact h.timestamp s hs t ht hst
    · exact htime s hs hst
    · exact (htime t ht hst.symm).symm
    · rfl
  · intro s hs hv
    rw [takeSnapshot_stateManager] at hv ⊢
    refine ⟨_, rfl, (hver.trans hv.symm), ?_⟩
    rcases hmem s hs with hs | rfl
    · exact (timestamp_nextEntry h now hs hv).symm
    · rfl
  · rw [hidx, takeSnapshot_maxSnapshots, List.length_append]
    exact hlen
  · exact cacheFresh_takeSnapshot h.fresh now

lemma indexed_call {e : Engine M V} (h : e.Indexed) (hmax : 1 ≤ e.snapshotManager.maxSnapshots)
    (now : Timestamp) (c : Call) : (e.call now c).Indexed := by
  by_cases hc : c = .takeSnapshot
  · subst hc
    exact h.takeSnapshot hmax now
  · obtain ⟨hsm, -, hm⟩ := e.call_moves now hc
    exact h.of_moves hsm hm

@[simp] lemma maxSnapshots_call (e : Engine M V) (now : Timestamp) (c : Call) :
    (e.call now c).snapshotManager.maxSnapshots = e.snapshotManager.maxSnapshots := by
  by_cases hc : c = .takeSnapshot
  · subst hc; rfl
  · rw [(e.call_moves now hc).1]

/-- **The invariant holds after every run.** -/
lemma indexed_run {e : Engine M V} (h : e.Indexed) (hmax : 1 ≤ e.snapshotManager.maxSnapshots)
    (calls : List (Call × Timestamp)) :
    (e.run calls).Indexed ∧
      (e.run calls).snapshotManager.maxSnapshots = e.snapshotManager.maxSnapshots := by
  refine run_induction (P := fun f => f.Indexed ∧
    f.snapshotManager.maxSnapshots = e.snapshotManager.maxSnapshots) ?_ ⟨h, rfl⟩ calls
  rintro f now c ⟨hf, hfmax⟩
  exact ⟨indexed_call hf (hfmax ▸ hmax) now c, by rw [maxSnapshots_call, hfmax]⟩

/-! ## Which files are there -/

/-- Among the entries, a file name says as much as a version. -/
lemma filename_eq_iff {e : Engine M V} (h : e.Indexed) (now : Timestamp) {s t : SnapshotMeta}
    (hs : s ∈ e.snapshotManager.snapshots ∨ s = e.nextEntry now)
    (ht : t ∈ e.snapshotManager.snapshots) : s.filename = t.filename ↔ s.version = t.version := by
  have hname : s.filename = snapshotName s.version s.timestamp := by
    rcases hs with hs | rfl
    · exact h.name s hs
    · exact e.nextEntry_filename now
  rw [hname, h.name t ht, snapshotName_inj]
  refine ⟨fun hst => hst.1, fun hv => ⟨hv, ?_⟩⟩
  rcases hs with hs | rfl
  · exact h.timestamp s hs t ht hv
  · exact (timestamp_nextEntry h now ht (hv.symm.trans (e.nextEntry_version now))).symm

omit [Memory M V] in
lemma mem_of_mem_rest {e : Engine M V} {oldest next s : SnapshotMeta} {rest : List SnapshotMeta}
    (hold : e.snapshotManager.snapshots = oldest :: rest) (hs : s ∈ rest ++ [next]) :
    s ∈ e.snapshotManager.snapshots ∨ s = next := by
  rw [List.mem_append, List.mem_singleton] at hs
  exact hs.imp_left fun hm => by rw [hold]; exact List.mem_cons_of_mem _ hm

/-- Writing a snapshot removes no file. -/
lemma has_writtenDir_of_has {e : Engine M V} (now : Timestamp) {f : String}
    (hf : e.disk.snapshots.has f = true) : (e.writtenDir now).has f = true := by
  rw [Js.Map.has, writtenDir, Js.Map.get?_set]
  split
  · rfl
  · exact hf

lemma has_writtenDir {e : Engine M V} (hI : e.Intact) (now : Timestamp) {s : SnapshotMeta}
    (hs : s ∈ e.snapshotManager.snapshots ∨ s = e.nextEntry now) :
    (e.writtenDir now).has s.filename = true := by
  rcases hs with hs | rfl
  · exact has_writtenDir_of_has now (hI s hs)
  · rw [Js.Map.has, writtenDir, Js.Map.get?_set_self]
    rfl

/-- A file pruned while another entry, or the new one, is of its version is missed. -/
lemma prunesOwnFile_of_intact {e : Engine M V} (h : e.Indexed)
    (hmax : 1 ≤ e.snapshotManager.maxSnapshots) {now : Timestamp}
    (hI : (e.takeSnapshot now).Intact) : e.PrunesOwnFile := by
  intro oldest rest hold hlen hmem
  rcases takeSnapshot_cases h hmax now with ⟨hlt, -, -⟩ | ⟨oldest', rest', hold', -, hs, hd⟩
  · rw [hold] at hlt
    omega
  · obtain ⟨rfl, rfl⟩ : oldest = oldest' ∧ rest = rest' := by simpa using hold.symm.trans hold'
    rw [← nextEntry_version e now] at hmem
    have hversions : rest.map SnapshotMeta.version ++ [(e.nextEntry now).version] =
        (rest ++ [e.nextEntry now]).map SnapshotMeta.version := by simp
    rw [hversions] at hmem
    obtain ⟨s, hsmem, hsv⟩ := List.mem_map.mp hmem
    have hgone := hI s (by rw [hs]; exact hsmem)
    have hfile : s.filename = oldest.filename :=
      (filename_eq_iff h now (mem_of_mem_rest hold hsmem) (by simp [hold])).mpr hsv
    rw [hd, Js.Map.has, Js.Map.get?_delete, if_pos hfile] at hgone
    cases hgone

/-- As long as pruning removes a file of its own, every indexed file stays. -/
lemma Intact.takeSnapshot {e : Engine M V} (hI : e.Intact) (h : e.Indexed)
    (hmax : 1 ≤ e.snapshotManager.maxSnapshots) (hprune : e.PrunesOwnFile) (now : Timestamp) :
    (e.takeSnapshot now).Intact := by
  rcases takeSnapshot_cases h hmax now with ⟨-, hs, hd⟩ | ⟨oldest, rest, hold, hlen, hs, hd⟩
  · intro s hmem
    rw [hs, List.mem_append, List.mem_singleton] at hmem
    rw [hd]
    exact has_writtenDir hI now hmem
  · intro s hmem
    rw [hs] at hmem
    have hold_mem : oldest ∈ e.snapshotManager.snapshots := by simp [hold]
    have hne : s.filename ≠ oldest.filename := by
      intro hf
      refine hprune oldest rest hold hlen ?_
      have hv := (filename_eq_iff h now (mem_of_mem_rest hold hmem) hold_mem).mp hf
      rw [← nextEntry_version e now, ← hv]
      have := List.mem_map_of_mem (f := SnapshotMeta.version) hmem
      simpa using this
    rw [hd, Js.Map.has, Js.Map.get?_delete_of_ne _ hne]
    exact has_writtenDir hI now (mem_of_mem_rest hold hmem)

/-- A snapshot whose own file is still there restores the store. -/
lemma restores_takeSnapshot [LawfulMemory M V] {e : Engine M V} (h : e.Indexed)
    (hmax : 1 ≤ e.snapshotManager.maxSnapshots) (now : Timestamp)
    (hI : (e.takeSnapshot now).Intact) : (e.takeSnapshot now).Restores := by
  obtain ⟨kept, hidx, -, -⟩ := takeSnapshot_index h hmax now
  have hlatest : (e.takeSnapshot now).snapshotManager.latest = some (e.nextEntry now) := by
    rw [latest, hidx, List.getLast?_concat]
  have hthere : (e.takeSnapshot now).disk.snapshots.has (e.nextEntry now).filename = true :=
    hI _ (by rw [hidx]; simp)
  have hfile : (e.takeSnapshot now).disk.snapshots.get? (e.nextEntry now).filename =
      some (snapshotFile e.snapshotManager e.stateManager.memory (e.nextSnapshot now)).2 := by
    rw [Js.Map.has] at hthere
    rcases takeSnapshot_cases h hmax now with ⟨-, -, hd⟩ | ⟨oldest, rest, -, -, -, hd⟩
    · rw [hd, writtenDir, Js.Map.get?_set_self]
    · rw [hd, Js.Map.get?_delete] at hthere ⊢
      split at hthere
      · cases hthere
      next hne => rw [if_neg hne, writtenDir, Js.Map.get?_set_self]
  have hload : loadLatestInto (e.takeSnapshot now).stateManager
      (e.takeSnapshot now).snapshotManager (e.takeSnapshot now).disk.snapshots =
      ((e.takeSnapshot now).stateManager.receiveSnapshot
        (snapshotDoc e.stateManager.memory (e.nextSnapshot now)).entities
        (snapshotDoc e.stateManager.memory (e.nextSnapshot now)).version, true) := by
    simp only [loadLatestInto, hlatest, loadSnapshotInto, hfile, Option.bind_some, snapshotFile]
  refine ⟨by rw [loadLatestSnapshot, hload], fun id => ?_⟩
  rw [loadLatestSnapshot, hload]
  rw [StateManager.view_receiveSnapshot, get?_snapshotDoc, takeSnapshot_stateManager]
  have hent : (e.nextSnapshot now).entities = e.stateManager.entities :=
    StateManager.entities_createSnapshot h.fresh now
  rw [hent, StateManager.view, Option.map_map]
  rfl

lemma Intact.call {e : Engine M V} (hI : e.Intact) (h : e.Indexed)
    (hmax : 1 ≤ e.snapshotManager.maxSnapshots) (now : Timestamp) (c : Call)
    (hprune : c = .takeSnapshot → e.PrunesOwnFile) : (e.call now c).Intact := by
  by_cases hc : c = .takeSnapshot
  · subst hc
    exact hI.takeSnapshot h hmax (hprune rfl) now
  · obtain ⟨hsm, hdir, -⟩ := e.call_moves now hc
    rw [Intact, hsm, hdir]
    exact hI

/-- As long as every snapshot prunes a file of its own, every indexed file stays. -/
lemma Fresh.intact_run {e : Engine M V} (he : e.Fresh) (hmax : 1 ≤ e.snapshotManager.maxSnapshots)
    (calls : List (Call × Timestamp))
    (hprune : ∀ pre now post, calls = pre ++ (.takeSnapshot, now) :: post →
      (e.run pre).PrunesOwnFile) : (e.run calls).Intact := by
  induction calls using List.reverseRecOn with
  | nil => simp [Intact, he.snapshots]
  | append_singleton calls c ih =>
      obtain ⟨hidx, hm⟩ := indexed_run he.indexed hmax calls
      rw [run_append]
      refine Intact.call (ih ?_) hidx (hm ▸ hmax) c.2 c.1 ?_
      · intro pre now post hcalls
        exact hprune pre now (post ++ [c]) (by rw [hcalls]; simp)
      · intro hc
        exact hprune calls c.2 [] (by rw [← hc])

/-- **Indexed snapshots exist, exactly as long as pruning spares shared files.**  From a store
with nothing cached and an empty index, every snapshot of a run leaves every indexed file in
place and the latest one loadable, if and only if no snapshot of the run finds the index full
with an oldest entry whose version is also that of a later entry or of the store. -/
theorem snapshots_sound_iff [LawfulMemory M V] {e : Engine M V} (he : e.Fresh)
    (hmax : 1 ≤ e.snapshotManager.maxSnapshots) (calls : List (Call × Timestamp)) :
    (∀ pre now post, calls = pre ++ (.takeSnapshot, now) :: post →
      ((e.run pre).takeSnapshot now).Intact ∧ ((e.run pre).takeSnapshot now).Restores) ↔
    (∀ pre now post, calls = pre ++ (.takeSnapshot, now) :: post → (e.run pre).PrunesOwnFile) := by
  constructor
  · intro hsound pre now post hcalls
    obtain ⟨hidx, hm⟩ := indexed_run he.indexed hmax pre
    exact prunesOwnFile_of_intact hidx (hm ▸ hmax) (hsound pre now post hcalls).1
  · intro hprune pre now post hcalls
    obtain ⟨hidx, hm⟩ := indexed_run he.indexed hmax pre
    have hpre : (e.run pre).Intact := by
      refine he.intact_run hmax pre fun pre' now' post' hpre' => ?_
      exact hprune pre' now' (post' ++ (.takeSnapshot, now) :: post) (by rw [hcalls, hpre']; simp)
    have hI := hpre.takeSnapshot hidx (hm ▸ hmax) (hprune pre now post hcalls) now
    exact ⟨hI, restores_takeSnapshot hidx (hm ▸ hmax) now hI⟩

/-- The theorem at a run that changes the store between its two snapshots. -/
theorem snapshots_sound_iff_default :
    (∀ pre now post,
      [(.createEntity "player" "p1" .empty "e1", 1), (.takeSnapshot, 2), (.deleteEntity "e1", 3),
        (.takeSnapshot, 4)] = pre ++ (Call.takeSnapshot, now) :: post →
      (((new .default .empty : Engine Cells Doc).run pre).takeSnapshot now).Intact ∧
        (((new .default .empty : Engine Cells Doc).run pre).takeSnapshot now).Restores) ↔
    (∀ pre now post,
      [(.createEntity "player" "p1" .empty "e1", 1), (.takeSnapshot, 2), (.deleteEntity "e1", 3),
        (.takeSnapshot, 4)] = pre ++ (Call.takeSnapshot, now) :: post →
      ((new .default .empty : Engine Cells Doc).run pre).PrunesOwnFile) :=
  snapshots_sound_iff (fresh_new .default .empty) (by decide) _

/-- Eleven snapshots of one state: the eleventh prunes the file that all of them share. -/
theorem repeated_snapshot_loses_file :
    ¬ ((new .default .empty : Engine Cells Doc).run
      (List.replicate 11 (.takeSnapshot, 1))).Intact := by
  unfold Intact
  decide +kernel

end Engine

end SyncEngine
