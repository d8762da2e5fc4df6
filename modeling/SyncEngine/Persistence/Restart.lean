import SyncEngine.Persistence.Recovery
import SyncEngine.Persistence.SnapshotIndex

/-!
# Starting up again

Recovery applies the log through `updateEntity`, whose listener appends every delta it applies
to the log again, now numbered from `1`.  A later start-up reads these copies wherever they lie
above its cut-off, and applies their deltas twice.

`boot_restarts` says when no copy gets there: the deltas of the log that apply, which are those
that name an entity of the snapshot, are no more than the cut-off.  Then the copies of every
start-up stay at or below it, every later start-up replays the same entries from the same
snapshot, and every start-up ends with the same data.
-/

namespace SyncEngine

open Js WriteAheadLog

namespace Engine

variable {M V : Type} [Memory M V]

/-! ## Stores that hold the same data -/

/-- Two stores over one memory whose entities have the same data objects.  Versions and times
may differ. -/
def SameStore (σ τ : StateManager M V) : Prop :=
  σ.memory = τ.memory ∧
    ∀ id, (σ.entities.get? id).map EntityState.data = (τ.entities.get? id).map EntityState.data

omit [Memory M V] in
lemma SameStore.refl (σ : StateManager M V) : SameStore σ σ := ⟨rfl, fun _ => rfl⟩

lemma SameStore.data {σ τ : StateManager M V} (h : SameStore σ τ) (id : EntityId) :
    σ.data id = τ.data id := by
  have hid := h.2 id
  unfold StateManager.data
  rw [h.1]
  cases hσ : σ.entities.get? id <;> cases hτ : τ.entities.get? id <;> simp_all

/-- An update depends on the memory and the data object only. -/
lemma SameStore.updateEntity {σ τ : StateManager M V} (h : SameStore σ τ) (id : EntityId)
    (operations : List (DeltaOperation V)) (s t : Timestamp) :
    SameStore (σ.updateEntity id operations s).1 (τ.updateEntity id operations t).1 := by
  have hid := h.2 id
  unfold StateManager.updateEntity
  cases hσ : σ.entities.get? id with
  | none =>
      cases hτ : τ.entities.get? id with
      | none => exact h
      | some e => simp [hσ, hτ] at hid
  | some d =>
      cases hτ : τ.entities.get? id with
      | none => simp [hσ, hτ] at hid
      | some e =>
          have hde : d.data = e.data := by simpa [hσ, hτ] using hid
          simp only [hde, h.1]
          rcases StateManager.applyOperations e.data operations τ.memory with ⟨m, _ | err⟩
          · refine ⟨rfl, fun j => ?_⟩
            simp only [StateManager.finishUpdate, StateManager.commitUpdate, Js.Map.get?_set]
            split
            · simp [hde]
            · exact h.2 j
          · exact ⟨rfl, h.2⟩

lemma SameStore.receiveUpdate {σ τ : StateManager M V} (h : SameStore σ τ) (id : EntityId)
    (operations : List (DeltaOperation Doc)) (s t : Timestamp) :
    SameStore (σ.receiveUpdate id operations s).1 (τ.receiveUpdate id operations t).1 := by
  unfold StateManager.receiveUpdate
  rw [h.1]
  exact SameStore.updateEntity
    (σ := { σ with memory := (parseOperations τ.memory operations).2 })
    (τ := { τ with memory := (parseOperations τ.memory operations).2 })
    ⟨rfl, h.2⟩ id _ s t

lemma SameStore.applyEntry {e f : Engine M V} (h : SameStore e.stateManager f.stateManager)
    (x : WALEntry) (s t : Timestamp) :
    SameStore (applyEntry s e x).stateManager (applyEntry t f x).stateManager := by
  unfold Engine.applyEntry
  cases x.data with
  | delta d =>
      simp only [stateManager_updateEntity]
      exact h.receiveUpdate _ _ s t
  | checkpoint v t' => exact h

lemma SameStore.foldl_applyEntry {e f : Engine M V} (h : SameStore e.stateManager f.stateManager)
    (l : List WALEntry) (s t : Timestamp) :
    SameStore (l.foldl (Engine.applyEntry s) e).stateManager
      (l.foldl (Engine.applyEntry t) f).stateManager := by
  induction l generalizing e f with
  | nil => exact h
  | cons x l ih => exact ih (h.applyEntry x s t)

/-! ## What recovery appends -/

/-- The entry is a delta of an entity that the store holds. -/
def names (σ : StateManager M V) (x : WALEntry) : Bool :=
  match x.delta? with
  | some d => σ.entities.has d.entityId
  | none => false

/-- **What handing over one entry can do**: the entity ids and the snapshots stay, and so does
the log, unless the entry names an entity; then one entry may be appended. -/
lemma applyEntry_cases (now : Timestamp) (e : Engine M V) (x : WALEntry) :
    (∀ y, names (applyEntry now e x).stateManager y = names e.stateManager y) ∧
      (applyEntry now e x).disk.snapshots = e.disk.snapshots ∧
      (((applyEntry now e x).wal, (applyEntry now e x).disk.wal) = (e.wal, e.disk.wal) ∨
        names e.stateManager x = true ∧ ∃ data,
          ((applyEntry now e x).wal, (applyEntry now e x).disk.wal) =
            e.wal.append e.disk.wal data now) := by
  have hsnap := (applyEntry_moves now e x).2.1
  obtain ⟨n, t, d | ⟨v, t'⟩⟩ := x
  · have hcall : applyEntry now e ⟨n, t, .delta d⟩ =
        e.call now (.updateEntity d.entityId d.operations) := rfl
    rw [hcall] at hsnap ⊢
    refine ⟨fun y => ?_, hsnap, ?_⟩
    · have hhas : ∀ j, (e.stateManager.receiveUpdate d.entityId d.operations now).1.entities.has j =
          e.stateManager.entities.has j := fun j =>
        StateManager.has_updateEntity
          { e.stateManager with memory := (parseOperations e.stateManager.memory d.operations).2 }
          d.entityId _ now j
      simp only [names, call, stateManager_updateEntity, hhas]
    · have hwal := e.call_wal now (.updateEntity d.entityId d.operations)
      cases hd : e.callData now (.updateEntity d.entityId d.operations) with
      | none => exact .inl (by rw [hwal, hd])
      | some data =>
          refine .inr ⟨?_, data, by rw [hwal, hd]⟩
          simp only [callData] at hd
          split at hd
          next σ delta hupd =>
            exact StateManager.has_of_updated
              (σ := { e.stateManager with
                memory := (parseOperations e.stateManager.memory d.operations).2 })
              (congrArg Prod.snd hupd)
          next => cases hd
  · exact ⟨fun _ => rfl, rfl, .inl rfl⟩

/-- Entries handed over leave the replay above `k` as it is, as long as the copies they make
stay at or below `k`. -/
lemma foldl_applyEntry_replay (now : Timestamp) {k : ℕ} (l : List WALEntry) (e : Engine M V)
    (h : e.wal.sequence + l.countP (names e.stateManager) ≤ k) :
    (l.foldl (applyEntry now) e).disk.snapshots = e.disk.snapshots ∧
      replay (l.foldl (applyEntry now) e).disk.wal k = replay e.disk.wal k := by
  induction l generalizing e with
  | nil => exact ⟨rfl, rfl⟩
  | cons x l ih =>
      obtain ⟨hnames, hsnap, hwal⟩ := applyEntry_cases now e x
      have hcount : l.countP (names (applyEntry now e x).stateManager) =
          l.countP (names e.stateManager) :=
        List.countP_congr fun y _ => by rw [hnames]
      rw [List.countP_cons] at h
      rw [List.foldl_cons]
      rcases hwal with hwal | ⟨hx, data, hwal⟩
      · obtain ⟨hw, hdir⟩ := Prod.mk.inj hwal
        obtain ⟨hs, hr⟩ := ih (applyEntry now e x) (by rw [hw, hcount]; omega)
        exact ⟨hs.trans hsnap, hr.trans (by rw [hdir])⟩
      · have hw : (applyEntry now e x).wal = _ := congrArg Prod.fst hwal
        have hdir : (applyEntry now e x).disk.wal = _ := congrArg Prod.snd hwal
        rw [if_pos hx] at h
        obtain ⟨hs, hr⟩ := ih (applyEntry now e x) (by rw [hw, sequence_append, hcount]; omega)
        exact ⟨hs.trans hsnap, hr.trans (by rw [hdir, replay_append_of_le (by omega)])⟩

/-! ## Start-ups one after another -/

section Restarts

variable (M) (c : Config) (disk : Disk)

/-- The store that a start-up on the given directories loads, and whether it loads one. -/
def loaded : StateManager M V × Bool :=
  loadLatestInto (.new Memory.empty c.maxHistoryPerEntity)
    ((SnapshotManager.new c.maxSnapshots c.contentBytes).loadSnapshotIndex disk.snapshots)
    disk.snapshots

/-- The cut-off of a start-up on the given directories. -/
def cutoff : ℕ := if (loaded M c disk).2 then (loaded M c disk).1.version else 0

/-- The deltas that a start-up replays on an entity of the snapshot are no more than its
cut-off, which is the version of the snapshot. -/
def CopiesBelowCutoff : Prop :=
  (replay disk.wal (cutoff M c disk)).countP (names (loaded M c disk).1) ≤ cutoff M c disk

/-- The directories after start-ups at the given times. -/
def restarts (times : List Timestamp) : Disk :=
  times.foldl (fun disk now => (boot c disk now : Engine M V).disk) disk

/-- A start-up replays the log on the store it loads. -/
lemma boot_eq (now : Timestamp) :
    (boot c disk now : Engine M V) = (replay disk.wal (cutoff M c disk)).foldl (applyEntry now)
      ((new c disk : Engine M V).openFiles now).loadLatestSnapshot.1 := by
  have hreplay := replay_start (.new c.maxFileSize c.lineBytes) disk.wal now (cutoff M c disk)
  rw [← hreplay]
  rfl

/-- Two directories from which a start-up reads the same: the snapshot it loads, and the log
above the cut-off. -/
def ReadsSame (d : Disk) : Prop :=
  loaded M c d = loaded M c disk ∧
    replay d.wal (cutoff M c disk) = replay disk.wal (cutoff M c disk)

variable {M c disk}

lemma ReadsSame.cutoff_eq {d : Disk} (h : ReadsSame M c disk d) :
    cutoff M c d = cutoff M c disk := by
  rw [cutoff, cutoff, h.1]

lemma ReadsSame.data {d : Disk} (h : ReadsSame M c disk d) (now now' : Timestamp)
    (id : EntityId) : (boot c d now : Engine M V).stateManager.data id =
      (boot c disk now' : Engine M V).stateManager.data id := by
  have hstart : ((new c d : Engine M V).openFiles now).loadLatestSnapshot.1.stateManager =
      ((new c disk : Engine M V).openFiles now').loadLatestSnapshot.1.stateManager :=
    congrArg Prod.fst h.1
  rw [boot_eq, boot_eq, h.cutoff_eq, h.2]
  exact (SameStore.foldl_applyEntry (hstart ▸ SameStore.refl _) _ now now').data id

/-- **A start-up leaves what the next one reads**, if its copies stay at or below the cut-off. -/
lemma ReadsSame.boot (hcopies : CopiesBelowCutoff M c disk) {d : Disk}
    (h : ReadsSame M c disk d) (now : Timestamp) :
    ReadsSame M c disk (boot c d now : Engine M V).disk := by
  have hbelow : (0 : ℕ) + (replay d.wal (cutoff M c d)).countP (names (loaded M c d).1) ≤
      cutoff M c d := by
    rw [Nat.zero_add, h.cutoff_eq, h.2, h.1]
    exact hcopies
  obtain ⟨hsnap, hreplay⟩ := foldl_applyEntry_replay now (replay d.wal (cutoff M c d))
    ((new c d : Engine M V).openFiles now).loadLatestSnapshot.1 hbelow
  rw [← boot_eq] at hsnap hreplay
  constructor
  · rw [← h.1, loaded, hsnap]
    rfl
  · rw [← h.2, ← h.cutoff_eq]
    exact hreplay.trans (replay_start _ d.wal now _)

lemma ReadsSame.restarts (hcopies : CopiesBelowCutoff M c disk) {d : Disk}
    (h : ReadsSame M c disk d) (times : List Timestamp) :
    ReadsSame M c disk (Engine.restarts M c d times) := by
  induction times generalizing d with
  | nil => exact h
  | cons now times ih => exact ih (h.boot hcopies now)

/-- **Starting up is idempotent, as long as the copies stay below the cut-off.**  Whatever is on
the directories, if the replayed deltas that name an entity of the snapshot are no more than the
version of the snapshot, then after any number of start-ups another one ends with the data that
the first one ends with. -/
theorem boot_restarts (hcopies : CopiesBelowCutoff M c disk) (times : List Timestamp)
    (now now' : Timestamp) (id : EntityId) :
    (boot c (restarts M c disk times) now : Engine M V).stateManager.data id =
      (boot c disk now' : Engine M V).stateManager.data id := by
  have hself : ReadsSame M c disk disk := ⟨rfl, rfl⟩
  exact (hself.restarts hcopies times).data now now' id

end Restarts

/-- A create, a snapshot and one update: the update's copy is entry `1`, at the cut-off. -/
theorem boot_restarts_one_update :
    (boot .default (restarts Cells .default ((boot .default .empty 0).run
        [(.createEntity "player" "p1" .empty "e1", 1), (.takeSnapshot, 2),
          (.updateEntity "e1" [⟨.increment, "hp", .prim (.num 1)⟩], 3)] : Engine Cells Doc).disk
          [4, 5]) 6 : Engine Cells Doc).stateManager.data "e1" =
      (boot .default ((boot .default .empty 0).run
        [(.createEntity "player" "p1" .empty "e1", 1), (.takeSnapshot, 2),
          (.updateEntity "e1" [⟨.increment, "hp", .prim (.num 1)⟩], 3)] : Engine Cells Doc).disk
          4 : Engine Cells Doc).stateManager.data "e1" :=
  boot_restarts (by unfold CopiesBelowCutoff; decide +kernel) [4, 5] 6 4 "e1"

/-- Two updates after the snapshot: the copy of the second is entry `2`, above the cut-off, and
the second start-up applies it once more. -/
theorem second_boot_differs :
    (boot .default (restarts Cells .default ((boot .default .empty 0).run
        [(.createEntity "player" "p1" .empty "e1", 1), (.takeSnapshot, 2),
          (.updateEntity "e1" [⟨.increment, "hp", .prim (.num 1)⟩], 3),
          (.updateEntity "e1" [⟨.increment, "hp", .prim (.num 1)⟩], 4)] : Engine Cells Doc).disk
          [5]) 6 : Engine Cells Doc).stateManager.data "e1" ≠
      (boot .default ((boot .default .empty 0).run
        [(.createEntity "player" "p1" .empty "e1", 1), (.takeSnapshot, 2),
          (.updateEntity "e1" [⟨.increment, "hp", .prim (.num 1)⟩], 3),
          (.updateEntity "e1" [⟨.increment, "hp", .prim (.num 1)⟩], 4)] : Engine Cells Doc).disk
          5 : Engine Cells Doc).stateManager.data "e1" := by
  intro h
  have hp := congrArg (Option.map fun o : Obj Doc => (o.props "hp").node []) h
  revert hp
  decide +kernel

end Engine

end SyncEngine
