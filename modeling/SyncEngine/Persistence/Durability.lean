import SyncEngine.Persistence.Recovery
import SyncEngine.Persistence.SnapshotIndex
import SyncEngine.Core.TreeMemory

/-!
# What survives a crash

Recovery has two sources: the snapshot that sorts last by its file name, and the deltas of the
log above that snapshot's version.  A run survives when the two together hold all of it.
`Survives` spells out what that takes.

* The last snapshot file in name order is the one the last snapshot wrote.  Names order as
  texts, so a snapshot of version `9` hides one of version `10`.
* The cut-off separates the deltas logged before the snapshot from those logged after it
  (`handedOver_iff`).
* Nothing after the snapshot is lost on the way to the log (`StepSurvives`).  Creates and
  deletes are not logged at all; an update that throws halfway is not logged; and the delta of
  an update is written when all its operations have been performed, so an operation that
  reaches into the value of an earlier one has changed what is written.

`recovered_data` is the simulation behind it: an engine that replays the deltas of a run on the
state the run started from goes through the same data.
-/

namespace SyncEngine

open Js WriteAheadLog SnapshotManager

namespace Engine

variable {M V : Type} [Memory M V]

/-- The operations came from a JSON text; a value that is missing is undefined. -/
def JsonOperations (operations : List (DeltaOperation Doc)) : Prop :=
  ∀ op ∈ operations, orUndefined op.value.json = op.value

/-- A call after the last snapshot of which nothing is lost, given the state it is made in and
the ids that the snapshot holds. -/
def StepSurvives (held : EntityId → Bool) (e : Engine M V) : Call → Prop
  | .createEntity _ _ _ id => held id = false
  | .deleteEntity id => held id = false
  | .updateEntity id operations => held id = true →
      JsonOperations operations ∧ Unaliased operations ∧
        ∀ o, e.stateManager.data id = some o →
          (applyAll operations o).2 = none ∨ (applyAll operations o).1 = o
  | .takeSnapshot => False

/-- Calls after the last snapshot of which nothing is lost; at the end, the snapshot holds every
id of the store. -/
def RunSurvives (held : EntityId → Bool) (e : Engine M V) : List (Call × Timestamp) → Prop
  | [] => ∀ id, held id = false → e.stateManager.data id = none
  | c :: calls => StepSurvives held e c.1 ∧ RunSurvives held (e.call c.2 c.1) calls

/-- The ids of a store. -/
def ids (e : Engine M V) (id : EntityId) : Bool := e.stateManager.entities.has id

variable (M) in
/-- A run of which recovery restores everything: it takes no snapshot and ends with an empty
store, or `before` is its state before its last snapshot, at time `t`, and `post` is what
follows. -/
inductive Survives (c : Config) (t₀ : Timestamp) : List (Call × Timestamp) → Prop
  | empty {calls : List (Call × Timestamp)} (hcalls : ∀ x ∈ calls, x.1 ≠ .takeSnapshot)
      (hend : ∀ id, ((boot c .empty t₀ : Engine M V).run calls).stateManager.data id = none) :
      Survives c t₀ calls
  | snapshot {pre post : List (Call × Timestamp)} {t : Timestamp} {before : Engine M V}
      (hbefore : before = (boot c .empty t₀).run pre)
      (hlast : (sortNames (((before.takeSnapshot t).disk.snapshots.keys).filter
        isSnapshotFile)).getLast? = some (before.nextEntry t).filename)
      (hbelow : ∀ x ∈ (boot c .empty t₀ : Engine M V).appended pre, x.isDelta →
        x.sequence ≤ before.stateManager.version)
      (habove : ∀ x ∈ (before.takeSnapshot t).appended post, x.isDelta →
        before.stateManager.version < x.sequence)
      (hjson : ∀ id o, before.stateManager.data id = some o → o.IsJson)
      (hpost : RunSurvives before.ids (before.takeSnapshot t) post) :
      Survives c t₀ (pre ++ (.takeSnapshot, t) :: post)

section Simulation

variable [TreeMemory M V] {held : EntityId → Bool}

/-- The engine's store keeps its entities apart. -/
def Apart (e : Engine M V) : Prop := ∃ T, e.stateManager.Holds T

/-- The data of the ids that the snapshot holds is the same, and `g` has no other ids. -/
def Agree (held : EntityId → Bool) (e g : Engine M V) : Prop :=
  ∀ id, g.stateManager.data id = if held id then e.stateManager.data id else none

/-- What recovery does with a delta: an update of the entity, if there is one. -/
lemma Apart.applyDelta {g : Engine M V} (hg : g.Apart) (now : Timestamp) (x : WALEntry)
    {d : StateDelta Doc} (hd : x.data = .delta d) :
    (applyEntry now g x).Apart ∧ ∀ j, (applyEntry now g x).stateManager.data j =
      if j = d.entityId then (g.stateManager.data d.entityId).map fun o =>
        (applyAll d.operations o).1 else g.stateManager.data j := by
  obtain ⟨T, hT⟩ := hg
  simp only [applyEntry, hd, Apart, stateManager_updateEntity]
  cases hget : g.stateManager.entities.get? d.entityId with
  | none =>
      obtain ⟨hholds, hdata⟩ := hT.receiveUpdate_none hget d.operations now
      refine ⟨⟨T, hholds⟩, fun j => ?_⟩
      rw [hdata]
      split
      next hj => subst hj; simp [StateManager.data, hget]
      next => rfl
  | some e =>
      obtain ⟨done, hdone⟩ := Option.isSome_iff_exists.mp (hT.tracked _ e hget)
      obtain ⟨more, -, -, hholds, hdata, -⟩ := hT.receiveUpdate hget hdone d.operations now
      refine ⟨⟨_, hholds⟩, fun j => ?_⟩
      rw [hdata, StateManager.data_eq_some hget]
      rfl

omit [TreeMemory M V] in
/-- The text of operations whose values have not changed since they were parsed reads back as the
operations. -/
lemma logged_operations {σ : StateManager M V} {m : M} {operations : List (DeltaOperation Doc)}
    (hjson : JsonOperations operations)
    (hheld : ∀ x ∈ parsedRecord m operations, x.1.map (Memory.readValue σ.memory) = x.2) :
    ((parseOperations m operations).1.map
      (DeltaOperation.map fun v => orUndefined (Memory.readValue σ.memory v).json)) =
        operations := by
  calc ((parseOperations m operations).1.map
          (DeltaOperation.map fun v => orUndefined (Memory.readValue σ.memory v).json))
      = (parsedRecord m operations).map
          (fun x => (x.1.map (Memory.readValue σ.memory)).map fun d => orUndefined d.json) := by
        rw [← parsedRecord_fst, List.map_map]
        rfl
    _ = (parsedRecord m operations).map (fun x => x.2.map fun d => orUndefined d.json) :=
        List.map_congr_left fun x hx => by rw [hheld x hx]
    _ = operations.map (DeltaOperation.map fun d => orUndefined d.json) := by
        conv_rhs => rw [← parsedRecord_docs m operations]
        rw [Record.docs, List.map_map]
        rfl
    _ = operations := by
        conv_rhs => rw [← List.map_id operations]
        refine List.map_congr_left fun op hop => ?_
        simp [DeltaOperation.map, hjson op hop]

/-- **What an update logs**: nothing, if it finds no entity or throws, and otherwise its
operations as they came, provided that none of them reaches into the value of an earlier one. -/
lemma Apart.callData_update {e : Engine M V} (he : e.Apart) (id : EntityId)
    (operations : List (DeltaOperation Doc)) (now : Timestamp) :
    (e.call now (.updateEntity id operations)).Apart ∧
      (∀ j, (e.call now (.updateEntity id operations)).stateManager.data j =
        if j = id then (e.stateManager.data id).map fun o => (applyAll operations o).1
        else e.stateManager.data j) ∧
      (e.callData now (.updateEntity id operations) = none ∧
          (∀ o, e.stateManager.data id = some o → (applyAll operations o).2 ≠ none) ∨
        ∃ d, e.callData now (.updateEntity id operations) = some (.delta d) ∧ d.entityId = id ∧
          (JsonOperations operations → Unaliased operations → d.operations = operations)) := by
  obtain ⟨T, hT⟩ := he
  simp only [call, Apart, stateManager_updateEntity, callData]
  cases hget : e.stateManager.entities.get? id with
  | none =>
      obtain ⟨hholds, hdata⟩ := hT.receiveUpdate_none hget operations now
      have hnone : e.stateManager.data id = none := by simp [StateManager.data, hget]
      refine ⟨⟨T, hholds⟩, fun j => ?_, .inl ⟨?_, by simp [hnone]⟩⟩
      · rw [hdata]
        split
        next hj => subst hj; simp [hnone]
        next => rfl
      · rw [StateManager.receiveUpdate_of_none hget]
  | some entity =>
      -- Only the operations of this call are of interest, so the earlier ones are forgotten.
      obtain ⟨more, -, hmore, hholds, hdata, hresult⟩ :=
        (hT.forget_at hget).receiveUpdate hget (Function.update_self _ _ _) operations now
      have hsome := StateManager.data_eq_some hget
      refine ⟨⟨_, hholds⟩, fun j => ?_, ?_⟩
      · rw [hdata, hsome]
        rfl
      · rcases happly : (applyAll operations (Memory.read e.stateManager.memory entity.data)).2
          with _ | err
        · right
          rw [happly] at hresult
          rcases hrec : e.stateManager.receiveUpdate id operations now with ⟨σ, result⟩
          rw [hrec] at hholds hresult
          subst hresult
          refine ⟨_, rfl, rfl, fun hjson hunaliased => ?_⟩
          rw [hmore happly, Function.update_idem, List.nil_append] at hholds
          exact logged_operations hjson
            (tracks_held hholds.tracks (Function.update_self _ _ _) (by rwa [parsedRecord_docs]))
        · left
          rw [happly] at hresult
          rcases hrec : e.stateManager.receiveUpdate id operations now with ⟨σ, result⟩
          rw [hrec] at hresult
          subst hresult
          refine ⟨rfl, fun o ho => ?_⟩
          rw [hsome, Option.some.injEq] at ho
          subst ho
          simp [happly]

omit [TreeMemory M V] in
/-- A write to an id that the snapshot does not hold goes unnoticed. -/
lemma Agree.of_not_held {e e' g : Engine M V} (h : Agree held e g) {id : EntityId}
    (hid : held id = false)
    (hothers : ∀ j, j ≠ id → e'.stateManager.data j = e.stateManager.data j) :
    Agree held e' g := by
  intro j
  rw [h j]
  by_cases hji : j = id
  · subst hji
    simp [hid]
  · rw [hothers j hji]

/-- An update of which nothing is lost. -/
lemma Agree.update {e g : Engine M V} (h : Agree held e g) (he : e.Apart) (hg : g.Apart)
    (now t : Timestamp) {id : EntityId} {operations : List (DeltaOperation Doc)}
    (hc : StepSurvives held e (.updateEntity id operations)) :
    (((e.callEntry now (.updateEntity id operations)).filter WALEntry.isDelta).foldl
        (applyEntry t) g).Apart ∧
      Agree held (e.call now (.updateEntity id operations))
        (((e.callEntry now (.updateEntity id operations)).filter WALEntry.isDelta).foldl
          (applyEntry t) g) := by
  obtain ⟨-, hdata, ⟨hnone, hthrew⟩ | ⟨d, hsome, hid, hops⟩⟩ :=
    he.callData_update id operations now
  · simp only [callEntry, hnone, Option.map_none, Option.toList_none, List.filter_nil,
      List.foldl_nil]
    refine ⟨hg, fun j => ?_⟩
    rw [h j, hdata j]
    by_cases hji : j = id
    · subst hji
      by_cases hj : held j = true
      · rw [if_pos hj, if_pos hj, if_pos rfl]
        cases ho : e.stateManager.data j with
        | none => rfl
        | some o =>
            rcases (hc hj).2.2 o ho with hok | hsame
            · exact absurd hok (hthrew o ho)
            · rw [Option.map_some, hsame]
      · simp [hj]
    · rw [if_neg hji]
  · have hentry : (e.callEntry now (.updateEntity id operations)).filter WALEntry.isDelta =
        [e.wal.nextEntry (.delta d) now] := by
      rw [callEntry, hsome]
      rfl
    rw [hentry, List.foldl_cons, List.foldl_nil]
    obtain ⟨hgApart, hgdata⟩ := hg.applyDelta t (e.wal.nextEntry (.delta d) now) (d := d) rfl
    refine ⟨hgApart, fun j => ?_⟩
    rw [hgdata, hdata, hid]
    by_cases hji : j = id
    · subst hji
      rw [if_pos rfl, if_pos rfl, h j]
      by_cases hj : held j = true
      · obtain ⟨hjson, hunaliased, -⟩ := hc hj
        rw [if_pos hj, if_pos hj, hops hjson hunaliased]
      · simp [hj]
    · rw [if_neg hji, if_neg hji, h j]

/-- A call of which nothing is lost keeps the two in agreement, if the other one is handed what
the call logs. -/
lemma Agree.call {e g : Engine M V} (h : Agree held e g) (he : e.Apart) (hg : g.Apart)
    (now t : Timestamp) {c : Call} (hc : StepSurvives held e c) :
    (e.call now c).Apart ∧
      (((e.callEntry now c).filter WALEntry.isDelta).foldl (applyEntry t) g).Apart ∧
      Agree held (e.call now c)
        (((e.callEntry now c).filter WALEntry.isDelta).foldl (applyEntry t) g) := by
  cases c with
  | createEntity type ownerId data id =>
      obtain ⟨T, hT⟩ := he
      obtain ⟨hholds, hdata⟩ := hT.receiveEntity type ownerId data id now
      exact ⟨⟨_, hholds⟩, hg, h.of_not_held hc fun j hj => (hdata j).trans (if_neg hj)⟩
  | deleteEntity id =>
      obtain ⟨T, hT⟩ := he
      exact ⟨⟨T, hT.deleteEntity id⟩, hg, h.of_not_held hc fun j hj =>
        (StateManager.data_deleteEntity id j).trans (if_neg hj)⟩
  | updateEntity id operations =>
      exact ⟨(he.callData_update id operations now).1, h.update he hg now t hc⟩
  | takeSnapshot => exact hc.elim

/-- **The simulation.**  Handed the deltas of a run of which nothing is lost, the engine that
starts from what the snapshot holds ends with the data of the run. -/
lemma Agree.run {e g : Engine M V} (h : Agree held e g) (he : e.Apart) (hg : g.Apart)
    (t : Timestamp) {post : List (Call × Timestamp)} (hpost : RunSurvives held e post)
    (id : EntityId) :
    (((e.appended post).filter WALEntry.isDelta).foldl (applyEntry t) g).stateManager.data id =
      (e.run post).stateManager.data id := by
  induction post generalizing e g with
  | nil =>
      show g.stateManager.data id = e.stateManager.data id
      rw [h id]
      by_cases hid : held id = true
      · rw [if_pos hid]
      · rw [if_neg hid, hpost id (by simpa using hid)]
  | cons c post ih =>
      obtain ⟨hstep, hrest⟩ := hpost
      obtain ⟨he', hg', h'⟩ := h.call he hg c.2 t hstep
      rw [appended, List.filter_append, List.foldl_append]
      exact ih h' he' hg' hrest

/-! ## From crash to recovery -/

lemma apart_boot (c : Config) (t : Timestamp) : (boot c .empty t : Engine M V).Apart := by
  rw [boot_empty]
  exact ⟨_, StateManager.holds_new c.maxHistoryPerEntity⟩

lemma Apart.takeSnapshot {e : Engine M V} (he : e.Apart) (now : Timestamp) :
    (e.takeSnapshot now).Apart := by
  obtain ⟨T, hT⟩ := he
  refine ⟨T, ?_⟩
  rw [takeSnapshot_stateManager]
  exact ⟨hT.tracks, hT.tracked, hT.own⟩

lemma Apart.call {e : Engine M V} (he : e.Apart) (now : Timestamp) (c : Call) :
    (e.call now c).Apart := by
  cases c with
  | createEntity type ownerId data id =>
      obtain ⟨T, hT⟩ := he
      exact ⟨_, (hT.receiveEntity type ownerId data id now).1⟩
  | updateEntity id operations => exact (he.callData_update id operations now).1
  | deleteEntity id =>
      obtain ⟨T, hT⟩ := he
      exact ⟨T, hT.deleteEntity id⟩
  | takeSnapshot => exact he.takeSnapshot now

lemma Apart.run {e : Engine M V} (he : e.Apart) (calls : List (Call × Timestamp)) :
    (e.run calls).Apart :=
  run_induction (P := Apart) (fun _ now c h => h.call now c) he calls

/-- Handed anything, a store with no entities stays without. -/
lemma Apart.foldl_applyEntry_none (t : Timestamp) (l : List WALEntry) {g : Engine M V}
    (hg : g.Apart) (hnone : ∀ id, g.stateManager.data id = none) (id : EntityId) :
    (l.foldl (applyEntry t) g).stateManager.data id = none := by
  induction l generalizing g with
  | nil => exact hnone id
  | cons x l ih =>
      obtain ⟨n, s, d | ⟨v, s'⟩⟩ := x
      · obtain ⟨hApart, hdata⟩ := hg.applyDelta t ⟨n, s, .delta d⟩ rfl
        refine ih hApart fun j => ?_
        rw [hdata, hnone, hnone]
        simp
      · exact ih hg hnone

omit [TreeMemory M V] in
/-- Without a snapshot in it, a run leaves the snapshot directory as it is. -/
lemma snapshots_run (e : Engine M V) {calls : List (Call × Timestamp)}
    (h : ∀ x ∈ calls, x.1 ≠ .takeSnapshot) :
    (e.run calls).disk.snapshots = e.disk.snapshots := by
  induction calls generalizing e with
  | nil => rfl
  | cons c calls ih =>
      have hc := (e.call_moves c.2 (h c (by simp))).2.1
      exact (ih (e.call c.2 c.1) fun x hx => h x (by simp [hx])).trans hc

omit [TreeMemory M V] in
lemma RunSurvives.ne_takeSnapshot {e : Engine M V} {post : List (Call × Timestamp)}
    (h : RunSurvives held e post) : ∀ x ∈ post, x.1 ≠ .takeSnapshot := by
  induction post generalizing e with
  | nil => simp
  | cons c post ih =>
      intro x hx
      rcases List.mem_cons.mp hx with rfl | hx
      · intro hc
        have := h.1
        rw [hc] at this
        exact this
      · exact ih h.2 x hx

/-- What the start-up after the crash loads: the snapshot that the last one wrote. -/
lemma loadLatest_after {before : Engine M V} (c' : Config) (t t' : Timestamp)
    {disk : Disk} (hdisk : disk.snapshots = (before.takeSnapshot t).disk.snapshots)
    (hfresh : before.stateManager.CacheFresh)
    (hlast : (sortNames (((before.takeSnapshot t).disk.snapshots.keys).filter
      isSnapshotFile)).getLast? = some (before.nextEntry t).filename)
    (hjson : ∀ id o, before.stateManager.data id = some o → o.IsJson) :
    ∃ g, ((new c' disk : Engine M V).openFiles t').loadLatestSnapshot = (g, true) ∧
      g.Apart ∧ g.stateManager.version = before.stateManager.version ∧
      Agree before.ids (before.takeSnapshot t) g := by
  rw [nextEntry_filename] at hlast
  obtain ⟨entry, file, hlatest, hname, hget⟩ :=
    latest_loadSnapshotIndex (.new c'.maxSnapshots c'.contentBytes) hlast
  have hfile : file = (snapshotFile before.snapshotManager before.stateManager.memory
      (before.nextSnapshot t)).2 := by
    have hpruned := congrArg Prod.snd (before.takeSnapshot_pruned t)
    simp only at hpruned
    rw [hpruned] at hget
    have hwritten := get?_prune _ _ hget
    rw [writtenDir, nextEntry_filename, Js.Map.get?_set_self, Option.some.injEq] at hwritten
    exact hwritten.symm
  obtain ⟨T, hT, -, hview⟩ :=
    (StateManager.holds_new (M := M) (V := V) c'.maxHistoryPerEntity).receiveSnapshot
      (snapshotDoc before.stateManager.memory (before.nextSnapshot t)).entities
      (snapshotDoc before.stateManager.memory (before.nextSnapshot t)).version
  have hload : loadLatestInto (.new Memory.empty c'.maxHistoryPerEntity : StateManager M V)
      ((SnapshotManager.new c'.maxSnapshots c'.contentBytes).loadSnapshotIndex disk.snapshots)
      disk.snapshots = ((StateManager.new Memory.empty c'.maxHistoryPerEntity).receiveSnapshot
        (snapshotDoc before.stateManager.memory (before.nextSnapshot t)).entities
        (snapshotDoc before.stateManager.memory (before.nextSnapshot t)).version, true) := by
    rw [hdisk]
    simp only [loadLatestInto, hlatest, loadSnapshotInto, hname, hget, hfile, Option.bind_some,
      snapshotFile]
  have hloaded : ((new c' disk : Engine M V).openFiles t').loadLatestSnapshot.2 = true :=
    congrArg Prod.snd hload
  refine ⟨_, Prod.ext rfl hloaded, ?_, ?_, ?_⟩
  all_goals
    have hstore : ((new c' disk : Engine M V).openFiles t').loadLatestSnapshot.1.stateManager = _ :=
      congrArg Prod.fst hload
  · exact ⟨T, hstore ▸ hT⟩
  · rw [hstore]
    exact StateManager.version_createSnapshot _ t
  · intro id
    rw [hstore, StateManager.data_eq_view, hview, get?_snapshotDoc, takeSnapshot_stateManager]
    have hent : (before.nextSnapshot t).entities = before.stateManager.entities :=
      StateManager.entities_createSnapshot hfresh t
    rw [hent]
    unfold ids
    rw [Js.Map.has]
    cases hid : before.stateManager.entities.get? id with
    | none => rfl
    | some e =>
        have hdata := StateManager.data_eq_some hid
        show some (Memory.read before.stateManager.memory e.data).json = before.stateManager.data id
        rw [hdata, hjson id _ hdata]

end Simulation

/-! ## A run that survives, and one that does not -/

/-- A create, a snapshot, and one logged update. -/
lemma survives_logged_update :
    Survives Cells .default 0 ([(.createEntity "player" "p1" .empty "e1", 1)] ++
      (.takeSnapshot, 2) :: [(.updateEntity "e1" [⟨.set, "hp", .prim (.num 5)⟩], 3)]) := by
  have hApart : ((boot .default .empty 0 : Engine Cells Doc).run
      [(.createEntity "player" "p1" .empty "e1", 1)]).Apart := (apart_boot .default 0).run _
  have hdata : ∀ id, ((boot .default .empty 0 : Engine Cells Doc).run
      [(.createEntity "player" "p1" .empty "e1", 1)]).stateManager.data id =
        if id = "e1" then some .empty else none := by
    intro id
    rw [boot_empty]
    exact ((StateManager.holds_new (M := Cells) 100).receiveEntity "player" "p1" .empty "e1" 1).2 id
  refine .snapshot rfl (by decide +kernel) (by decide +kernel) (by decide +kernel) ?_ ⟨?_, ?_⟩
  · intro id o ho
    rw [hdata] at ho
    split at ho
    · cases ho
      exact Obj.isJson_empty
    · cases ho
  · intro _
    refine ⟨by simp [JsonOperations, Prim.json, orUndefined, isAbsent, Slot.prim?], by
      simp [Unaliased], fun o _ => .inl ?_⟩
    have hpath : splitPath "hp" = ["hp"] := by decide
    simp [applyAll, forEachWrite, applyOperation, hpath, Obj.walk, operate,
      Obj.assign_of_ne (show "hp" ≠ "length" by decide), attempt]
  · intro id hid
    obtain ⟨-, hupdate, -⟩ := (hApart.takeSnapshot 2).callData_update "e1"
      [⟨.set, "hp", .prim (.num 5)⟩] 3
    have hne : id ≠ "e1" := by
      rintro rfl
      revert hid
      decide +kernel
    rw [hupdate, if_neg hne, takeSnapshot_stateManager]
    exact (hdata id).trans (if_neg hne)

end Engine

end SyncEngine
