import SyncEngine.Sync.OwnUpdates
import SyncEngine.Sync.RemoteDelta

/-!
# Versions in step

A delta says which version it starts from and which one it leads to, and the handler performs its
operations where the local entity has the former.  But it does so with `updateEntity`, which counts
the version up by one and does not look at the latter.  So the entity ends at the version that the
delta leads to only where that is the next one, as it is in a recorded delta and not in one that
the compressor has made of several.

A replica stays in step with a sender as long as all deltas are that narrow and none of them
throws (`versions_in_step_iff`).
-/

namespace SyncEngine

open Js

namespace StateSynchronizer

variable {M V : Type}

/-- The version of the local entity. -/
def versionOf (s : StateSynchronizer M V) (id : EntityId) : Option ℕ :=
  (s.stateManager.entities.get? id).map EntityState.version

/-- The delta starts from the version of the local entity. -/
def Finds (s : StateSynchronizer M V) (delta : StateDelta V) : Prop :=
  s.versionOf delta.entityId = some delta.fromVersion

/-- Deltas of one entity, in order from a version on. -/
def Chained : Option ℕ → List (StateDelta V) → Prop
  | _, [] => True
  | version, delta :: deltas =>
    version = some delta.fromVersion ∧ Chained (some delta.toVersion) deltas

/-- The deltas of every entity are those that come after its local version, in order. -/
def Due (s : StateSynchronizer M V) (deltas : List (StateDelta V)) : Prop :=
  ∀ id, Chained (s.versionOf id) (deltas.filter fun delta => delta.entityId = id)

lemma versionOf_congr {s s' : StateSynchronizer M V} (h : s'.stateManager = s.stateManager) :
    s'.versionOf = s.versionOf := by
  funext id
  rw [versionOf, versionOf, h]

variable [Memory M V]

/-- The operations of the delta do not throw on the local entity. -/
def Applies (s : StateSynchronizer M V) (delta : StateDelta V) : Prop :=
  ∀ e, s.stateManager.entities.get? delta.entityId = some e →
    (StateManager.applyOperations e.data delta.operations s.stateManager.memory).2 = none

/-- A delta to the next version, whose operations do not throw. -/
def Narrow (s : StateSynchronizer M V) (delta : StateDelta V) : Prop :=
  delta.toVersion = delta.fromVersion + 1 ∧ s.Applies delta

/-- `P` holds of every delta of a batch whose turn comes. -/
def EachTurn (P : StateSynchronizer M V → StateDelta V → Prop) (now : Timestamp) :
    List (StateDelta V) → StateSynchronizer M V → Prop
  | [], _ => True
  | delta :: deltas, s =>
    P s delta ∧ ((handleDelta now delta s).2 = none →
      EachTurn P now deltas (handleDelta now delta s).1)

/-- `P` holds of every delta whose turn comes while batches are received from `source`. -/
def EachBatch (P : StateSynchronizer M V → StateDelta V → Prop) (source : NodeId) :
    List (Timestamp × List (StateDelta V)) → StateSynchronizer M V → Prop
  | [], _ => True
  | (now, deltas) :: batches, s =>
    EachTurn P now deltas s ∧ EachBatch P source batches (s.handleRemoteDelta source deltas now).1

variable {s : StateSynchronizer M V} {delta : StateDelta V}

/-- A delta that starts from the local version is an update. -/
lemma Finds.handleDelta (h : s.Finds delta) (now : Timestamp) :
    handleDelta now delta s = s.updateEntity delta.entityId delta.operations now := by
  obtain ⟨e, hget, hversion⟩ := Option.map_eq_some_iff.1 h
  exact handleDelta_of_le hget hversion.le now

/-- **What an update that starts from the local version does to the versions**: one up, unless it
throws. -/
lemma Finds.versions (h : s.Finds delta) (now : Timestamp) :
    (s.Applies delta ∧ (StateSynchronizer.handleDelta now delta s).2 = none ∧
        (StateSynchronizer.handleDelta now delta s).1.versionOf =
          Function.update s.versionOf delta.entityId (some (delta.fromVersion + 1))) ∨
      (¬ s.Applies delta ∧ (StateSynchronizer.handleDelta now delta s).1.versionOf =
        s.versionOf) := by
  obtain ⟨e, hget, hversion⟩ := Option.map_eq_some_iff.1 h
  rw [h.handleDelta now, updateEntity]
  obtain ⟨hnone, -⟩ | ⟨e', m, err, hget', hops, hcase⟩ | ⟨e', m, hget', hops, hcase⟩ :=
    s.stateManager.updateEntity_cases delta.entityId delta.operations now
  · rw [hget] at hnone
    cases hnone
  · refine .inr ⟨fun happlies => ?_, ?_⟩
    · have hok := happlies e' hget'
      rw [hops] at hok
      cases hok
    · rw [hcase]
      rfl
  · obtain rfl : e' = e := Option.some.inj (hget'.symm.trans hget)
    refine .inl ⟨fun f hf => ?_, ?_, ?_⟩
    · obtain rfl : f = e' := Option.some.inj (hf.symm.trans hget)
      rw [hops]
    · rw [hcase]
      rfl
    · rw [hcase, ← hversion]
      funext id
      by_cases hid : id = delta.entityId
      · rw [hid, Function.update_self]
        exact congrArg (Option.map EntityState.version) (Js.Map.get?_set_self _ _ _)
      · rw [Function.update_of_ne hid]
        exact congrArg (Option.map EntityState.version) (Js.Map.get?_set_of_ne _ _ hid)

omit [Memory M V] in
lemma Due.finds {deltas : List (StateDelta V)} (h : s.Due (delta :: deltas)) : s.Finds delta := by
  have hid := h delta.entityId
  rw [List.filter_cons_of_pos (by simp)] at hid
  exact hid.1

/-- A narrow delta, when it is due, leaves the ones after it due. -/
lemma Due.step {deltas : List (StateDelta V)} (h : s.Due (delta :: deltas))
    (hnarrow : s.Narrow delta) (now : Timestamp) :
    (handleDelta now delta s).2 = none ∧ (handleDelta now delta s).1.Due deltas := by
  obtain ⟨-, hok, hversions⟩ | ⟨hthrows, -⟩ := h.finds.versions now
  · refine ⟨hok, fun id => ?_⟩
    have hchain := h id
    rw [hversions]
    by_cases hid : id = delta.entityId
    · subst hid
      rw [List.filter_cons_of_pos (by simp)] at hchain
      rw [Function.update_self, ← hnarrow.1]
      exact hchain.2
    · rw [List.filter_cons_of_neg (by simpa using Ne.symm hid)] at hchain
      rw [Function.update_of_ne hid]
      exact hchain
  · exact absurd hnarrow.2 hthrows

/-- **One batch** of narrow deltas stays in step. -/
lemma Due.batch {deltas later : List (StateDelta V)} {now : Timestamp}
    (h : s.Due (deltas ++ later)) (hnarrow : EachTurn Narrow now deltas s) :
    EachTurn Finds now deltas s ∧ (forEachWrite (handleDelta now) deltas s).1.Due later := by
  induction deltas generalizing s with
  | nil => exact ⟨trivial, h⟩
  | cons delta deltas ih =>
    obtain ⟨hok, hdue⟩ := Due.step h hnarrow.1 now
    obtain ⟨hfinds, hlater⟩ := ih hdue (hnarrow.2 hok)
    rw [forEachWrite_cons_ok hok]
    exact ⟨⟨h.finds, fun _ => hfinds⟩, hlater⟩

lemma versionOf_handleRemoteDelta (s : StateSynchronizer M V) (source : NodeId)
    (deltas : List (StateDelta V)) (now : Timestamp) :
    (s.handleRemoteDelta source deltas now).1.versionOf =
      (forEachWrite (handleDelta now) deltas s).1.versionOf := by
  unfold handleRemoteDelta
  rcases forEachWrite (handleDelta now) deltas s with ⟨s', _ | e⟩
  · exact versionOf_congr (notePeer_stateManager s' source now)
  · rfl

/-- **All batches** of narrow deltas stay in step. -/
lemma Due.batches {source : NodeId} {batches : List (Timestamp × List (StateDelta V))}
    (h : s.Due (batches.flatMap Prod.snd)) (hnarrow : EachBatch Narrow source batches s) :
    EachBatch Finds source batches s := by
  induction batches generalizing s with
  | nil => trivial
  | cons batch batches ih =>
    obtain ⟨now, deltas⟩ := batch
    rw [List.flatMap_cons] at h
    obtain ⟨hfinds, hdue⟩ := Due.batch h hnarrow.1
    refine ⟨hfinds, ih ?_ hnarrow.2⟩
    unfold Due
    rw [versionOf_handleRemoteDelta]
    exact hdue

/-- **A delta leaves its entity at the version that it leads to** exactly when it is narrow, or
leads nowhere and throws; and a replica that receives all deltas in order sees none of them as stale
or as a conflict while they are narrow. -/
theorem versions_in_step_iff (s : StateSynchronizer M V) (source : NodeId) :
    (∀ delta now, s.Finds delta →
      ((s.handleRemoteDelta source [delta] now).1.versionOf delta.entityId = some delta.toVersion ↔
        s.Narrow delta ∨ delta.toVersion = delta.fromVersion ∧ ¬ s.Applies delta)) ∧
    ∀ batches : List (Timestamp × List (StateDelta V)), s.Due (batches.flatMap Prod.snd) →
      EachBatch Narrow source batches s → EachBatch Finds source batches s := by
  refine ⟨fun delta now hfinds => ?_, fun batches => Due.batches⟩
  rw [versionOf_congr (handleRemoteDelta_singleton s source delta now)]
  obtain ⟨happlies, -, hversions⟩ | ⟨hthrows, hversions⟩ := hfinds.versions now
  · rw [hversions, Function.update_self, Option.some.injEq]
    simp [Narrow, happlies, eq_comm]
  · have hsame : s.versionOf delta.entityId = some delta.fromVersion := hfinds
    rw [hversions, hsame, Option.some.injEq]
    simp [Narrow, hthrows, eq_comm]

/-- A node with one entity. -/
def playerNode : StateSynchronizer Cells Doc := newNode.createEntity "player" "p1" .empty "e1" 1

/-- A recorded update of the entity. -/
def setHpFrom (version : ℕ) (hp : ℚ) : StateDelta Doc :=
  ⟨"e1", version, version + 1, [⟨.set, "hp", .prim (.num hp)⟩], 5⟩

lemma narrow_setHpFrom (s : StateSynchronizer Cells Doc) (version : ℕ) (hp : ℚ) :
    s.Narrow (setHpFrom version hp) := by
  refine ⟨rfl, fun e _ => ?_⟩
  have hset : ∀ o : Obj Doc, (applyOperation ⟨.set, "hp", .prim (.num hp)⟩ o).2 = none := by
    intro o
    have hpath : splitPath "hp" = ["hp"] := by decide
    rw [applyOperation, hpath]
    simp [Obj.walk, operate, Obj.assign_of_ne, attempt]
  have hops : (setHpFrom version hp).operations = [⟨.set, "hp", .prim (.num hp)⟩] := rfl
  rw [hops, applyOperations_cells, Cells.write_snd, applyAll, forEachWrite_cons_ok (hset _)]
  rfl

/-- Two recorded updates in two batches. -/
theorem versions_in_step_recorded :
    (playerNode.handleRemoteDelta "n2" [setHpFrom 1 7] 6).1.versionOf "e1" = some 2 ∧
      EachBatch Finds "n2" [(6, [setHpFrom 1 7]), (8, [setHpFrom 2 9])] playerNode := by
  obtain ⟨hone, hall⟩ := versions_in_step_iff playerNode "n2"
  refine ⟨(hone (setHpFrom 1 7) 6 rfl).2 (.inl (narrow_setHpFrom _ _ _)), hall _ ?_ ?_⟩
  · intro id
    by_cases hid : "e1" = id
    · subst hid
      exact ⟨rfl, rfl, trivial⟩
    · have hnone :
          ([setHpFrom 1 7, setHpFrom 2 9].filter fun delta => delta.entityId = id) = [] := by
        simp [setHpFrom, hid]
      show Chained _ ([setHpFrom 1 7, setHpFrom 2 9].filter fun delta => delta.entityId = id)
      rw [hnone]
      trivial
  · exact ⟨⟨narrow_setHpFrom _ _ _, fun _ => trivial⟩, ⟨narrow_setHpFrom _ _ _, fun _ => trivial⟩,
      trivial⟩

/-- The compressor makes one delta of two, and the entity ends one version short of it. -/
theorem versions_not_in_step :
    let delta : StateDelta Doc := ⟨"e1", 1, 3, [⟨.set, "hp", .prim (.num 9)⟩], 5⟩
    DeltaCompressor.compress (valueView (fun _ => "") playerNode.stateManager.memory)
        [setHpFrom 1 7, setHpFrom 2 9] = .ok [delta] ∧
      playerNode.Finds delta ∧
      (playerNode.handleRemoteDelta "n2" [delta] 6).1.versionOf "e1" ≠ some delta.toVersion := by
  refine ⟨by rfl, by rfl, by decide +kernel⟩

end StateSynchronizer

end SyncEngine
