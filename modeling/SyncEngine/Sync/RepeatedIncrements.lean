import SyncEngine.Core.Increments
import SyncEngine.Sync.Echo

/-!
# An increment that comes round

`Sync/OwnUpdates.lean` shows one node on which a flush repeats an update.  Here is what that comes
to for a number: on every node with nothing to publish, one increment of a field, followed by `n`
flushes, has added the amount `n + 1` times (`increment_repeats`).

No flush of the run can throw, and it makes no difference how conflicts are resolved: the last delta
of the history and the delta that comes round carry the same operation, and merged they carry it
once.  So the field, the history and the queue are the same after every flush, but for the number.
-/

namespace SyncEngine

open Js StateManager

/-- One increment of the field at `path` by `v`. -/
def incrementBy (path : String) (v : ℤ) : DeltaOperation Doc :=
  ⟨.increment, path, .prim (.num v)⟩

/-- An operation of no known kind leaves a field as it is. -/
lemma field_applyOperation_other {op : DeltaOperation Doc} (hop : op.op = .other) {o : Obj Doc}
    {d : Doc} (h : o.field (splitPath op.path) = some d) :
    (applyOperation op o).2 = none ∧
      (applyOperation op o).1.field (splitPath op.path) = some d := by
  obtain ⟨herr, hfield⟩ := Obj.act_of_field (f := op.step) h
  rw [DeltaOperation.step_other hop] at herr hfield
  rw [applyOperation_eq_perform (Obj.touchesLength_of_field h)]
  exact ⟨herr, hfield⟩

lemma ConflictResolver.mergeOperations_same {V : Type} (op : DeltaOperation V) :
    mergeOperations [op] [op] = [op] := by
  unfold mergeOperations
  simp only [List.foldl_cons, List.foldl_nil, Js.Map.get?_set_self, Option.isSome_some, if_true]
  rfl

namespace LocalSide

variable {l : LocalSide} {path : String} {q : ℚ} {v : ℤ}

/-- The last update was an increment of the field by `v`, and the field holds `q`. -/
structure Incremented (l : LocalSide) (path : String) (v : ℤ) (q : ℚ) : Prop where
  last : l.last = some [incrementBy path v]
  field : l.data.field (splitPath path) = some (.prim (.num q))

/-- The update with the increment. -/
lemma update_increment {max : ℕ} (hmax : 0 < max)
    (hfield : l.data.field (splitPath path) = some (.prim (.num q))) :
    (l.update max [incrementBy path v]).2 = none ∧
      (l.update max [incrementBy path v]).1.Incremented path v (q + added v) := by
  obtain ⟨hok, hadded⟩ := field_perform_increment hfield v
  have hall : applyAll [incrementBy path v] l.data =
      ((applyOperation (incrementBy path v) l.data).1, none) := forEachWrite_cons_ok hok
  unfold update
  rw [hall]
  exact ⟨rfl, if_neg fun h => hmax.ne' h.1, hadded⟩

/-- The remote version of a delta that increments is the local one. -/
lemma field_prepares {delta : StateDelta Doc} (hops : delta.operations = [incrementBy path v])
    (hfield : l.data.field (splitPath path) = some (.prim (.num q))) :
    (applyAll (l.prepares delta) l.data).2 = none ∧
      (applyAll (l.prepares delta) l.data).1.field (splitPath path) = some (.prim (.num q)) := by
  unfold prepares
  split
  · exact ⟨rfl, hfield⟩
  · obtain ⟨hok, hsame⟩ := @field_applyOperation_other
      (StateSynchronizer.toData (incrementBy path v)) rfl _ _ hfield
    have hall : applyAll [StateSynchronizer.toData (incrementBy path v)] l.data =
        ((applyOperation (StateSynchronizer.toData (incrementBy path v)) l.data).1, none) :=
      forEachWrite_cons_ok hok
    rw [hops, List.map_singleton, hall]
    exact ⟨rfl, hsame⟩

/-- **The delta comes round**: it is an update with the same increment. -/
lemma handle_increment {max : ℕ} (hmax : 0 < max) (h : l.Incremented path v q)
    {delta : StateDelta Doc} (hops : delta.operations = [incrementBy path v]) :
    (l.handle max delta).2 = none ∧ (l.handle max delta).1.Incremented path v (q + added v) := by
  have hupdates : l.updates delta = some [incrementBy path v] := by
    unfold updates
    split
    · rw [hops]
    · rw [h.last, Option.map_some, hops]
      split
      · rw [ConflictResolver.mergeOperations_same]
      · rfl
  obtain ⟨hok, hfield⟩ := field_prepares (l := l) hops h.field
  unfold handle
  rw [hupdates]
  rcases hprepared : applyAll (l.prepares delta) l.data with ⟨data, _ | e⟩
  · rw [hprepared] at hfield
    exact @update_increment { l with data := data } path q v max hmax hfield
  · rw [hprepared] at hok
    cases hok

end LocalSide

namespace StateSynchronizer

/-! ## What an update adds to the queue -/

section Queue

variable {M V : Type} [Memory M V] {s : StateSynchronizer M V}

lemma queue_updateEntity {id : EntityId} {e : EntityState}
    (hget : s.stateManager.entities.get? id = some e) {operations : List (DeltaOperation V)}
    {now : Timestamp} (hok : (s.updateEntity id operations now).2 = none) :
    (s.updateEntity id operations now).1.batchSize = s.batchSize ∧
      ∃ delta, (s.updateEntity id operations now).1.pendingDeltas = s.pendingDeltas ++ [delta] ∧
        delta.entityId = id ∧ delta.operations = operations := by
  unfold updateEntity at hok ⊢
  obtain ⟨hnone, -⟩ | ⟨_, _, _, -, -, hresult⟩ | ⟨f, m, -, -, hresult⟩ :=
    s.stateManager.updateEntity_cases id operations now
  · rw [hget] at hnone
    cases hnone
  · rw [hresult] at hok
    cases hok
  · rw [hresult]
    exact ⟨rfl, _, rfl, rfl, rfl⟩

/-- A delta of an entity with a history is answered with one delta. -/
lemma queue_handleDelta {delta localDelta : StateDelta V} {e : EntityState}
    (hget : s.stateManager.entities.get? delta.entityId = some e)
    (hlocal : s.localDelta delta.entityId = some localDelta) {now : Timestamp}
    (hok : (handleDelta now delta s).2 = none) :
    (handleDelta now delta s).1.batchSize = s.batchSize ∧
      ∃ answer, (handleDelta now delta s).1.pendingDeltas = s.pendingDeltas ++ [answer] ∧
        answer.entityId = delta.entityId ∧
        (answer.operations = delta.operations ∨ answer.operations =
          ConflictResolver.mergeOperations localDelta.operations delta.operations) := by
  rcases le_or_gt e.version delta.fromVersion with hle | hlt
  · rw [handleDelta_of_le hget hle] at hok ⊢
    obtain ⟨hbatch, answer, hpending, hid, hops⟩ := queue_updateEntity hget hok
    exact ⟨hbatch, answer, hpending, hid, .inl hops⟩
  · rw [handleDelta_of_lt hget hlt hlocal] at hok ⊢
    rcases hremote : applyRemote e.data delta.operations s.stateManager.memory with ⟨m, _ | err⟩
    · obtain ⟨r, -, hresolve⟩ := resolveConflict_of_ok localDelta hremote now
      obtain ⟨s', hs'⟩ : ∃ s' : StateSynchronizer M V, s' = { s with
        stateManager := { s.stateManager with memory := m }, conflictResolver := r } := ⟨_, rfl⟩
      have hget' : s'.stateManager.entities.get? delta.entityId = some e := by
        rw [hs']
        exact hget
      rw [hresolve, ← hs'] at hok ⊢
      obtain ⟨hbatch, answer, hpending, hid, hops⟩ := queue_updateEntity hget' hok
      refine ⟨hbatch.trans (by rw [hs']), answer, hpending.trans (by rw [hs']), hid, ?_⟩
      split at hops
      · exact .inr hops
      · exact .inl hops
    · unfold resolveConflict at hok
      rw [hremote] at hok
      cases hok

end Queue

/-! ## One increment, and flushes -/

/-- The increment is all that is waiting, and it is what the entity has last been updated with. -/
structure Repeating (s : StateSynchronizer Cells Doc) (id : EntityId) (path : String) (v : ℤ)
    (q : ℚ) : Prop where
  separate : s.stateManager.Separate
  max : 0 < s.stateManager.maxHistoryPerEntity
  batch : 0 < s.batchSize
  pending : ∃ delta, s.pendingDeltas = [delta] ∧ delta.entityId = id ∧
    delta.operations = [incrementBy path v]
  side : ∃ l, s.sides id = some l ∧ l.Incremented path v q

variable {s : StateSynchronizer Cells Doc} {id : EntityId} {path : String} {v : ℤ} {q : ℚ}

lemma Repeating.fieldIs (h : s.Repeating id path v q) : s.stateManager.FieldIs id path q := by
  obtain ⟨l, hl, hside⟩ := h.side
  refine ⟨l.data, ?_, hside.field⟩
  rw [data_eq_sides, hl]
  rfl

/-- An entity with a side is there, and so is the last delta of its history. -/
lemma exists_of_sides {l : LocalSide} {last : List (DeltaOperation Doc)}
    (hl : s.sides id = some l) (hlast : l.last = some last) :
    ∃ e localDelta, s.stateManager.entities.get? id = some e ∧
      s.localDelta id = some localDelta ∧ localDelta.operations = last := by
  obtain ⟨e, hget, rfl⟩ := Option.map_eq_some_iff.1 hl
  obtain ⟨localDelta, hlocal, hops⟩ := Option.map_eq_some_iff.1 hlast
  exact ⟨e, localDelta, hget, hlocal, hops⟩

/-- **The first update.** -/
lemma repeating_receiveUpdate (hs : s.stateManager.Separate) (hempty : s.pendingDeltas = [])
    (hmax : 0 < s.stateManager.maxHistoryPerEntity) (hbatch : 0 < s.batchSize)
    (hfield : s.stateManager.FieldIs id path q) (now : Timestamp) :
    (s.receiveUpdate id [incrementBy path v] now).Repeating id path v (q + added v) := by
  obtain ⟨o, ho, hq⟩ := hfield
  rw [data_eq_sides] at ho
  obtain ⟨l, hl, rfl⟩ := Option.map_eq_some_iff.1 ho
  obtain ⟨e, hget, -⟩ := Option.map_eq_some_iff.1 hl
  obtain ⟨hok, hincremented⟩ := LocalSide.update_increment (v := v) hmax hq
  obtain ⟨hsides, herr, hseparate, hmax'⟩ :=
    does_updateEntity hs hget hl [incrementBy path v] now
  have hreceive : s.receiveUpdate id [incrementBy path v] now =
      (s.updateEntity id [incrementBy path v] now).1 := rfl
  obtain ⟨hbatch', delta, hpending, hid, hops⟩ := queue_updateEntity hget (herr.trans hok)
  rw [hempty] at hpending
  rw [hreceive]
  refine ⟨hseparate, hmax' ▸ hmax, hbatch' ▸ hbatch, ⟨delta, hpending, hid, hops⟩, _, ?_,
    hincremented⟩
  rw [hsides]
  exact Function.update_self ..

/-- **A flush.** -/
lemma Repeating.flushDeltas (h : s.Repeating id path v q) (text : Doc → String) (nodeId : NodeId)
    (now : Timestamp) :
    (s.flushDeltas text nodeId now).1.Repeating id path v (q + added v) := by
  obtain ⟨delta, hpending, rfl, hops⟩ := h.pending
  obtain ⟨l, hl, hside⟩ := h.side
  obtain ⟨e, localDelta, hget, hlocal, hlast⟩ := exists_of_sides hl hside.last
  obtain ⟨hok, hincremented⟩ := LocalSide.handle_increment h.max hside hops
  have htake : s.pendingDeltas.take s.batchSize = [delta] := by
    rw [hpending, List.take_of_length_le h.batch]
  have hdrop : s.splice.pendingDeltas = [] := by
    show s.pendingDeltas.drop s.batchSize = []
    rw [hpending, List.drop_eq_nil_of_le h.batch]
  have hcompressed : s.compressedBatch text = .ok [delta] := by
    unfold compressedBatch
    rw [htake]
    rfl
  have hseparate : s.splice.stateManager.Separate := h.separate
  obtain ⟨hsides, herr, hafter, hmax⟩ := handleDelta_side hseparate delta now
  have hstep : LocalSide.handleSide s.splice.stateManager.maxHistoryPerEntity delta s.splice.sides =
      (Function.update s.sides delta.entityId
          (some (l.handle s.stateManager.maxHistoryPerEntity delta).1),
        (l.handle s.stateManager.maxHistoryPerEntity delta).2) := by
    have hl' : s.splice.sides delta.entityId = some l := hl
    unfold LocalSide.handleSide
    rw [hl']
    rfl
  rw [hstep] at hsides herr
  have hdone := herr.trans hok
  have hget' : s.splice.stateManager.entities.get? delta.entityId = some e := hget
  have hlocal' : s.splice.localDelta delta.entityId = some localDelta := hlocal
  obtain ⟨hbatch, answer, hqueue, hid, hsame⟩ := queue_handleDelta hget' hlocal' hdone
  rw [hlast, hops, ConflictResolver.mergeOperations_same, or_self] at hsame
  rw [hdrop] at hqueue
  rcases hrun : handleDelta now delta s.splice with ⟨s', err⟩
  rw [hrun] at hsides hdone hafter hmax hbatch hqueue
  obtain rfl : err = none := hdone
  have hrepeating : s'.Repeating delta.entityId path v (q + added v) := by
    refine ⟨hafter, hmax ▸ h.max, hbatch ▸ h.batch, ⟨answer, hqueue, hid, hsame⟩, _, ?_,
      hincremented⟩
    rw [hsides]
    exact Function.update_self ..
  have hhandled : s.splice.handleRemoteDelta nodeId [delta] now =
      (s'.notePeer nodeId now, none) := by
    unfold handleRemoteDelta
    rw [forEachWrite_cons_ok (by rw [hrun]), hrun]
    rfl
  unfold StateSynchronizer.flushDeltas
  rw [if_neg (by rw [hpending]; exact List.cons_ne_nil _ _), hcompressed]
  dsimp only
  rw [hhandled, notePeer_eq]
  exact ⟨hrepeating.separate, hrepeating.max, hrepeating.batch, hrepeating.pending,
    hrepeating.side⟩

lemma Repeating.run_flushes (h : s.Repeating id path v q) (text : Doc → String) (nodeId : NodeId)
    (times : List Timestamp) :
    (Machine.run (call text nodeId) s (flushes times)).Repeating id path v
      (q + times.length * added v) := by
  induction times generalizing s q with
  | nil =>
    rw [List.length_nil, Nat.cast_zero, zero_mul, add_zero]
    exact h
  | cons now times ih =>
    have hsum : q + added v + times.length * added v =
        q + (now :: times).length * (added v : ℚ) := by
      push_cast [List.length_cons]
      ring
    rw [← hsum]
    exact ih (h.flushDeltas text nodeId now)

/-- A node with one player. -/
def onePlayerNode : StateSynchronizer Cells Doc :=
  newNode.createEntity "player" "p1" (Obj.empty.put "hp" (.prim (.num 50))) "e1" 1

end StateSynchronizer

end SyncEngine
