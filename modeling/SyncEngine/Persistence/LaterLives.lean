import SyncEngine.Persistence.Restart

/-!
# Work after a restart

A process numbers its log entries from `1`, whatever it has loaded; the next start-up replays the
entries above the version of its snapshot.  An update moves both counters, but in a process that has
started from a snapshot the version is ahead by the version of that snapshot.  So the updates that
follow a snapshot have to be more than that before the first of them is replayed: what comes before
is logged, and lost in a crash (`lost_after_snapshot`).
-/

namespace SyncEngine

open Js WriteAheadLog

def Call.isSnapshot : Call → Bool
  | .takeSnapshot => true
  | _ => false

def Call.isUpdate : Call → Bool
  | .updateEntity _ _ => true
  | _ => false

namespace Engine

variable {M V : Type} [Memory M V]

/-- The snapshots that calls take. -/
def snapshotCount (calls : List (Call × Timestamp)) : ℕ := calls.countP fun c => c.1.isSnapshot

/-- The updates among calls. -/
def updateCount (calls : List (Call × Timestamp)) : ℕ := calls.countP fun c => c.1.isUpdate

/-! ## The two counters -/

/-- Both counters move, or neither does. -/
def MovesBoth (e f : Engine M V) : Prop :=
  (f.wal.sequence = e.wal.sequence + 1 ∧ f.stateManager.version = e.stateManager.version + 1) ∨
    (f.wal.sequence = e.wal.sequence ∧ f.stateManager.version = e.stateManager.version)

lemma movesBoth_updateEntity (e : Engine M V) (id : EntityId)
    (operations : List (DeltaOperation Doc)) (now : Timestamp) :
    MovesBoth e (e.updateEntity id operations now) := by
  have hcases := StateManager.updateEntity_cases
    { e.stateManager with memory := (parseOperations e.stateManager.memory operations).2 } id
    (parseOperations e.stateManager.memory operations).1 now
  unfold updateEntity StateManager.receiveUpdate
  dsimp only
  obtain ⟨-, h⟩ | ⟨_, _, _, -, -, h⟩ | ⟨_, _, -, -, h⟩ := hcases
  · rw [h]
    exact .inr ⟨rfl, rfl⟩
  · rw [h]
    exact .inr ⟨rfl, rfl⟩
  · rw [h]
    exact .inl ⟨sequence_append _ _ _ _, rfl⟩

lemma movesBoth_applyEntry (now : Timestamp) (e : Engine M V) (x : WALEntry) :
    MovesBoth e (applyEntry now e x) := by
  unfold applyEntry
  split
  · exact movesBoth_updateEntity e _ _ now
  · exact .inr ⟨rfl, rfl⟩

/-- Where no snapshot is loaded, the store stays. -/
lemma loadLatestInto_cases (σ : StateManager M V) (sm : SnapshotManager) (dir : SnapshotDir) :
    (loadLatestInto σ sm dir).2 = true ∨ (loadLatestInto σ sm dir).1 = σ := by
  unfold loadLatestInto loadSnapshotInto
  split
  · split
    · exact .inl rfl
    · exact .inr rfl
  · exact .inr rfl

/-- After a start-up the version is ahead of the log by the cut-off. -/
lemma sequence_boot (c : Config) (disk : Disk) (now : Timestamp) :
    (boot c disk now : Engine M V).wal.sequence + cutoff M c disk =
      (boot c disk now : Engine M V).stateManager.version := by
  have hfold : ∀ (l : List WALEntry) (e : Engine M V) (k : ℕ),
      e.wal.sequence + k = e.stateManager.version →
        (l.foldl (applyEntry now) e).wal.sequence + k =
          (l.foldl (applyEntry now) e).stateManager.version := by
    intro l
    induction l with
    | nil => exact fun _ _ h => h
    | cons x l ih =>
      intro e k h
      refine ih _ k ?_
      obtain ⟨hsequence, hversion⟩ | ⟨hsequence, hversion⟩ := movesBoth_applyEntry now e x
      · omega
      · omega
  rw [boot_eq]
  refine hfold _ _ _ ?_
  change 0 + cutoff M c disk = (loaded M c disk).1.version
  rw [Nat.zero_add, cutoff]
  split
  · rfl
  next hloaded =>
    have hstore := (loadLatestInto_cases _ _ _).resolve_left hloaded
    exact (congrArg StateManager.version hstore).symm

/-- A call moves the log ahead of the version by a snapshot at most. -/
lemma sequence_call (e : Engine M V) (now : Timestamp) (c : Call) {k n : ℕ}
    (h : e.wal.sequence + k ≤ e.stateManager.version + n) :
    (e.call now c).wal.sequence + k ≤
      (e.call now c).stateManager.version + (n + if c.isSnapshot then 1 else 0) := by
  cases c with
  | createEntity type ownerId data id =>
    change e.wal.sequence + k ≤ e.stateManager.version + 1 + n
    omega
  | updateEntity id operations =>
    have hmoves := movesBoth_updateEntity e id operations now
    change (e.updateEntity id operations now).wal.sequence + k ≤
      (e.updateEntity id operations now).stateManager.version + n
    obtain ⟨hsequence, hversion⟩ | ⟨hsequence, hversion⟩ := hmoves
    · omega
    · omega
  | deleteEntity id =>
    have hmoves := moves_deleteEntity e.stateManager id
    change e.wal.sequence + k ≤ (e.stateManager.deleteEntity id).version + n
    obtain ⟨hversion, -⟩ | ⟨hversion, -⟩ := hmoves
    · omega
    · omega
  | takeSnapshot =>
    have hsequence : (e.takeSnapshot now).wal.sequence = e.wal.sequence + 1 :=
      sequence_append _ _ _ _
    have hversion : (e.takeSnapshot now).stateManager.version = e.stateManager.version := by
      change (e.stateManager.createSnapshot now).1.version = _
      rw [StateManager.createSnapshot_fst]
    change (e.takeSnapshot now).wal.sequence + k ≤
      (e.takeSnapshot now).stateManager.version + (n + 1)
    omega

lemma sequence_run (e : Engine M V) (calls : List (Call × Timestamp)) {k n : ℕ}
    (h : e.wal.sequence + k ≤ e.stateManager.version + n) :
    (e.run calls).wal.sequence + k ≤
      (e.run calls).stateManager.version + (n + snapshotCount calls) := by
  induction calls generalizing e n with
  | nil => exact h
  | cons c calls ih =>
    have hrest := ih (e.call c.2 c.1) (e.sequence_call c.2 c.1 h)
    rw [run_cons, snapshotCount, List.countP_cons]
    unfold snapshotCount at hrest
    omega

/-! ## What the next start-up reads -/

/-- A call that is logged, other than a snapshot, is an update. -/
lemma isUpdate_of_callData {e : Engine M V} {now : Timestamp} {c : Call} {data : WALData}
    (hc : c ≠ .takeSnapshot) (h : e.callData now c = some data) : c.isUpdate = true := by
  cases c with
  | createEntity type ownerId data id => cases h
  | updateEntity id operations => rfl
  | deleteEntity id => cases h
  | takeSnapshot => exact absurd rfl hc

/-- Updates that are logged at or below `k` do not show in a replay above `k`. -/
lemma run_replay (e : Engine M V) (calls : List (Call × Timestamp)) {k : ℕ}
    (hcalls : ∀ c ∈ calls, c.1 ≠ .takeSnapshot) (h : e.wal.sequence + updateCount calls ≤ k) :
    (e.run calls).disk.snapshots = e.disk.snapshots ∧
      replay (e.run calls).disk.wal k = replay e.disk.wal k := by
  induction calls generalizing e with
  | nil => exact ⟨rfl, rfl⟩
  | cons c calls ih =>
    obtain ⟨hc, hrest⟩ := List.forall_mem_cons.1 hcalls
    have hsnapshots := (e.call_moves c.2 hc).2.1
    have hwal := e.call_wal c.2 c.1
    rw [updateCount, List.countP_cons] at h
    cases hdata : e.callData c.2 c.1 with
    | none =>
      rw [hdata] at hwal
      obtain ⟨hlog, hdir⟩ := Prod.mk.inj hwal
      obtain ⟨hs, hr⟩ := ih (e.call c.2 c.1) hrest (by rw [hlog]; unfold updateCount; omega)
      exact ⟨hs.trans hsnapshots, hr.trans (by rw [hdir])⟩
    | some data =>
      have hupdate : c.1.isUpdate = true := isUpdate_of_callData hc hdata
      rw [hdata] at hwal
      have hlog : (e.call c.2 c.1).wal = _ := congrArg Prod.fst hwal
      have hdir : (e.call c.2 c.1).disk.wal = _ := congrArg Prod.snd hwal
      rw [if_pos hupdate] at h
      obtain ⟨hs, hr⟩ := ih (e.call c.2 c.1) hrest
        (by rw [hlog, sequence_append]; unfold updateCount; omega)
      exact ⟨hs.trans hsnapshots, hr.trans (by rw [hdir, replay_append_of_le (by omega)])⟩

section Lives

variable {c : Config} {disk : Disk}

lemma readsSame_run (e : Engine M V) (calls : List (Call × Timestamp))
    (hcalls : ∀ x ∈ calls, x.1 ≠ .takeSnapshot)
    (h : e.wal.sequence + updateCount calls ≤ cutoff M c e.disk) :
    ReadsSame M c e.disk (e.run calls).disk := by
  obtain ⟨hsnapshots, hreplay⟩ := e.run_replay calls hcalls h
  refine ⟨?_, hreplay⟩
  unfold loaded
  rw [hsnapshots]

/-- **What a restarted process logs after a snapshot is lost**, as long as its snapshots and the
updates since the last of them are no more than the version it has started from: a start-up after a
crash ends with the data that it would end with right after the snapshot. -/
theorem lost_after_snapshot (c : Config) (disk : Disk) (t₀ t t' t'' : Timestamp)
    (pre post : List (Call × Timestamp)) {saved : Engine M V}
    (hsaved : saved = ((boot c disk t₀).run pre).takeSnapshot t)
    (hload : cutoff M c saved.disk = saved.stateManager.version)
    (hpost : ∀ x ∈ post, x.1 ≠ .takeSnapshot)
    (hfew : snapshotCount pre + 1 + updateCount post ≤ cutoff M c disk) (id : EntityId) :
    (boot c (saved.run post).disk t' : Engine M V).stateManager.data id =
      (boot c saved.disk t'' : Engine M V).stateManager.data id := by
  have hboot : (boot c disk t₀ : Engine M V).wal.sequence + cutoff M c disk ≤
      (boot c disk t₀ : Engine M V).stateManager.version + 0 := (sequence_boot c disk t₀).le
  have hpre := sequence_call _ t .takeSnapshot (sequence_run _ pre hboot)
  change (((boot c disk t₀).run pre).takeSnapshot t).wal.sequence + _ ≤
    (((boot c disk t₀).run pre).takeSnapshot t).stateManager.version + (_ + 1) at hpre
  rw [← hsaved] at hpre
  have hbelow : saved.wal.sequence + updateCount post ≤ cutoff M c saved.disk := by omega
  exact (saved.readsSame_run post hpost hbelow).data t' t'' id

end Lives

/-- What a process leaves that has made three entities and taken a snapshot, at version `3`. -/
def threePlayers : Disk :=
  ((boot .default .empty 0).run [(.createEntity "player" "p1" .empty "e1", 1),
    (.createEntity "player" "p2" .empty "e2", 1), (.createEntity "player" "p3" .empty "e3", 1),
    (.takeSnapshot, 2)] : Engine Cells Doc).disk

/-- The next process takes a snapshot, and loses the two updates that follow it. -/
theorem lost_after_snapshot_twoUpdates :
    (boot .default ((((boot .default threePlayers 3).run []).takeSnapshot 4).run
        [(.updateEntity "e1" [⟨.set, "hp", .prim (.num 5)⟩], 5),
          (.updateEntity "e2" [⟨.increment, "hp", .prim (.num 1)⟩], 6)] : Engine Cells Doc).disk
        7 : Engine Cells Doc).stateManager.data "e1" =
      (boot .default (((boot .default threePlayers 3).run []).takeSnapshot 4 :
        Engine Cells Doc).disk 7 : Engine Cells Doc).stateManager.data "e1" :=
  lost_after_snapshot .default threePlayers 3 4 7 7 [] _ rfl (by decide +kernel) (by simp)
    (by decide +kernel) "e1"

end Engine

end SyncEngine
