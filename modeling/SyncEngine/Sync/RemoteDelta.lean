import SyncEngine.Sync.StateSynchronizer
import SyncEngine.Sync.MergedOperations

/-!
# What the resolver decides and what is stored

For a delta that is older than the local entity the synchronizer makes a remote version, asks the
resolver, and then performs operations on the store.  Two things part the store from the decision.
The remote version shares the data object of the local entity, so making it performs the delta's
`set` and `delete` operations on the local data; and unless the resolver merged, the store then
performs all operations of the delta, whichever side has won.

So the store ends with the delta performed one and a half times, and this is what was decided in
the cases that `Lands` lists (`stored_as_decided_iff`).
-/

namespace SyncEngine

open Js

/-- The loop that makes the data of a remote version, on a document. -/
def applyAllToData (ops : List (DeltaOperation Doc)) (o : Obj Doc) : Written (Obj Doc) :=
  forEachWrite applyOperationToData ops o

namespace StateSynchronizer

/-- The loop that makes the data of a remote version, on a data object held by value. -/
lemma applyRemote_cells (r : Ref) (ops : List (DeltaOperation Doc)) (m : Cells) :
    applyRemote r ops m = Cells.write (applyAllToData ops) m r :=
  forEachWrite_cells applyOperationToData r ops m

/-- The version of an entity that a delta makes of it, in data of its own. -/
def remoteVersion (localEntity : EntityDoc) (delta : StateDelta Doc) : Option EntityDoc :=
  match applyAllToData delta.operations localEntity.data with
  | (data, none) => some { localEntity with
      data := data, version := delta.toVersion, lastModified := delta.timestamp }
  | (_, some _) => none

/-- What the resolver decides on the local entity as it is and the remote version. -/
def decision (r : ConflictResolver) (localEntity : EntityDoc) (localDelta delta : StateDelta Doc)
    (now : Timestamp) : Option ConflictResult :=
  (remoteVersion localEntity delta).map fun remoteEntity =>
    (r.resolve localEntity remoteEntity localDelta delta now).1

/-- What a custom resolver for the entity's type returns, if there is one and it does not throw. -/
def customAnswer (r : ConflictResolver) (localEntity remoteEntity : EntityDoc)
    (localDelta delta : StateDelta Doc) : Option EntityDoc :=
  (r.customResolvers.get? localEntity.type).bind fun resolver =>
    resolver localEntity remoteEntity localDelta delta

/-- The local side of a conflict is the winner, where no custom resolver answers. -/
def LocalWins (r : ConflictResolver) (localEntity remoteEntity : EntityDoc) : Prop :=
  if r.customResolvers.get? localEntity.type = none ∧ r.defaultStrategy = .firstWriteWins then
    localEntity.lastModified ≤ remoteEntity.lastModified
  else remoteEntity.lastModified ≤ localEntity.lastModified

instance (r : ConflictResolver) (localEntity remoteEntity : EntityDoc) :
    Decidable (LocalWins r localEntity remoteEntity) := by
  unfold LocalWins
  infer_instance

/-- **When the store ends with what was decided.**  The remote version can be made.  If a custom
resolver returns an entity, its data is what all operations make of the remote data.  If the local
side wins, they lead from the remote data back to the local data.  If the remote side wins, they
leave the remote data as it is. -/
def Lands (r : ConflictResolver) (localEntity : EntityDoc) (localDelta delta : StateDelta Doc) :
    Prop :=
  ∃ remoteEntity, remoteVersion localEntity delta = some remoteEntity ∧
    match customAnswer r localEntity remoteEntity localDelta delta with
    | some answer => (applyAll delta.operations remoteEntity.data).1 = answer.data
    | none =>
      if LocalWins r localEntity remoteEntity then
        (applyAll delta.operations remoteEntity.data).1 = localEntity.data
      else (applyAll delta.operations remoteEntity.data).1 = remoteEntity.data

/-- No strategy but `MERGE` has operations of its own. -/
def NoMerge (r : ConflictResolver) (localEntity : EntityDoc) : Prop :=
  r.customResolvers.get? localEntity.type = none → r.defaultStrategy ≠ .merge

/-- **What is decided without a merge**: what a custom resolver returns, or else one of the two
sides. -/
lemma resolve_of_noMerge {r : ConflictResolver} {localEntity : EntityDoc}
    (h : NoMerge r localEntity) (remoteEntity : EntityDoc) (localDelta delta : StateDelta Doc)
    (now : Timestamp) :
    (r.resolve localEntity remoteEntity localDelta delta now).1.resolved = true ∧
      (r.resolve localEntity remoteEntity localDelta delta now).1.mergedOperations = none ∧
      (r.resolve localEntity remoteEntity localDelta delta now).1.entity =
        (customAnswer r localEntity remoteEntity localDelta delta).getD
          (if LocalWins r localEntity remoteEntity then localEntity else remoteEntity) := by
  cases hcustom : r.customResolvers.get? localEntity.type with
  | some resolver =>
    simp only [ConflictResolver.resolve, customAnswer, LocalWins, hcustom,
      ConflictResolver.resolveWithCustom, Option.bind_some]
    cases resolver localEntity remoteEntity localDelta delta <;>
      simp [ConflictResolver.resolveLastWriteWins]
  | none =>
    simp only [ConflictResolver.resolve, customAnswer, LocalWins, hcustom]
    cases hstrategy : r.defaultStrategy with
    | merge => exact absurd hstrategy (h hcustom)
    | lastWriteWins => simp [ConflictResolver.resolveLastWriteWins]
    | firstWriteWins => simp [ConflictResolver.resolveFirstWriteWins]
    | custom => simp [ConflictResolver.resolveLastWriteWins]

/-! ## The store -/

section Handling

variable {M V : Type}

/-- A message of one delta leaves what its handling leaves. -/
lemma handleRemoteDelta_singleton [Memory M V] (s : StateSynchronizer M V) (source : NodeId)
    (delta : StateDelta V) (now : Timestamp) :
    (s.handleRemoteDelta source [delta] now).1.stateManager =
      (handleDelta now delta s).1.stateManager := by
  unfold handleRemoteDelta forEachWrite
  rcases handleDelta now delta s with ⟨s', _ | e⟩
  · simp [forEachWrite]
  · rfl

end Handling

/-- Without a merge the store performs the operations of the delta, whoever has won. -/
lemma resolveConflict_stateManager {M V : Type} [Memory M V] (s : StateSynchronizer M V)
    {localEntity : EntityState} (localDelta delta : StateDelta V) (now : Timestamp) {m : M}
    (hmade : applyRemote localEntity.data delta.operations s.stateManager.memory = (m, none))
    (hmerge : NoMerge s.conflictResolver (StateManager.toDoc m localEntity)) :
    (s.resolveConflict localEntity localDelta delta now).1.stateManager =
      ({ s.stateManager with memory := m }.updateEntity delta.entityId delta.operations now).1 := by
  unfold resolveConflict
  simp only [hmade]
  rw [if_pos (resolve_of_noMerge hmerge _ _ _ _).1, (resolve_of_noMerge hmerge _ _ _ _).2.1]
  simp [updateEntity]

/-- **What is stored without a merge**: what all operations make of the data that the `set` and
`delete` operations have made, if these do not throw. -/
lemma data_resolveConflict {s : StateSynchronizer Cells Doc} {delta : StateDelta Doc}
    {localEntity : EntityState} (hget : s.stateManager.getEntity delta.entityId = some localEntity)
    (hmerge : NoMerge s.conflictResolver (StateManager.toDoc s.stateManager.memory localEntity))
    (localDelta : StateDelta Doc) (now : Timestamp) {o : Obj Doc} {err : Option JsError}
    (ho : applyAllToData delta.operations (Memory.read s.stateManager.memory localEntity.data) =
      (o, err)) :
    (s.resolveConflict localEntity localDelta delta now).1.stateManager.data delta.entityId =
      some (if err = none then (applyAll delta.operations o).1 else o) := by
  obtain ⟨m, hm⟩ : ∃ m, m = (Cells.write (applyAllToData delta.operations) s.stateManager.memory
    localEntity.data).1 := ⟨_, rfl⟩
  have hmade : applyRemote localEntity.data delta.operations s.stateManager.memory = (m, err) := by
    rw [applyRemote_cells]
    exact Prod.ext hm.symm ((Cells.write_snd _ _ _).trans (congrArg Prod.snd ho))
  have hread : Memory.read m localEntity.data = o := by
    rw [hm]
    exact (Cells.write_cell_self _ _ _).trans (congrArg Prod.fst ho)
  have hget' : ({ s.stateManager with memory := m } : StateManager Cells Doc).entities.get?
      delta.entityId = some localEntity := hget
  cases err with
  | some e =>
    unfold resolveConflict
    simp only [hmade, reduceCtorEq, if_false]
    rw [StateManager.data_eq_some hget', hread]
  | none =>
    rw [resolveConflict_stateManager s localDelta delta now hmade hmerge,
      (updateEntity_cells _ hget' delta.operations now).2, hread]
    rfl

/-! ## One operation for every path -/

/-- What a remote version takes over of an operation. -/
def toData (op : DeltaOperation Doc) : DeltaOperation Doc :=
  if op.op = .set ∨ op.op = .delete then op else { op with op := .other }

lemma toData_of_data {op : DeltaOperation Doc} (h : op.op = .set ∨ op.op = .delete) :
    toData op = op := if_pos h

lemma segments_toData (op : DeltaOperation Doc) : (toData op).segments = op.segments := by
  unfold toData
  split <;> rfl

lemma step_toData {op : DeltaOperation Doc} (h : ¬ (op.op = .set ∨ op.op = .delete)) (x : Doc) :
    ((toData op).step x).doc = x := by
  rw [toData, if_neg h, DeltaOperation.step_other rfl]

/-- A `set` or `delete` is not changed by what is at its path, and neither is the outcome. -/
lemma step_step_toData {op : DeltaOperation Doc} (h : op.op = .set ∨ op.op = .delete) (x y : Doc) :
    op.step x = op.step y := by
  rcases h with h | h
  · rw [DeltaOperation.step_set h, DeltaOperation.step_set h]
  · rw [DeltaOperation.step_delete h, DeltaOperation.step_delete h]

lemma operateToData_eq (op : DeltaOperation Doc) : operateToData op = operate (toData op) := by
  funext k o
  unfold operateToData operate toData
  cases h : op.op <;> simp [h]

lemma applyAllToData_eq (ops : List (DeltaOperation Doc)) (o : Obj Doc) :
    applyAllToData ops o = applyAll (ops.map toData) o := by
  have hone : ∀ op o, applyOperationToData op o = applyOperation (toData op) o := fun op o => by
    have hpath : splitPath (toData op).path = splitPath op.path := segments_toData op
    rw [applyOperationToData, applyOperation, operateToData_eq, hpath]
  induction ops generalizing o with
  | nil => rfl
  | cons op ops ih =>
    unfold applyAllToData applyAll at *
    rw [List.map_cons, forEachWrite, forEachWrite, hone]
    rcases applyOperation (toData op) o with ⟨o', _ | e⟩
    · exact ih o'
    · rfl

/-- The operation finds its effect already there. -/
def Idle (op : DeltaOperation Doc) (d : Doc) : Prop :=
  ∃ x, Doc.Leads op.segments d x ∧ (op.step x).doc = x

/-- Operations that find their effect already there do nothing, unless they throw. -/
lemma reachAll_of_idle {ops : List (DeltaOperation Doc)} {d : Doc}
    (hidle : ∀ op ∈ ops, Idle op d)
    (herr : ∀ op ∈ ops, ∀ x, Doc.Along op.segments d x → (op.step x).err = none) :
    DeltaOperation.reachAll ops d = (d, none) := by
  refine forEachWrite_eq_self fun op hop => ?_
  obtain ⟨x, hleads, hx⟩ := hidle op hop
  have hdoc := hleads.reach_eq op.isLocal hx
  have hnone := (hleads.along.leads_reach op.isLocal).2.trans (herr op hop x hleads.along)
  exact Prod.ext hdoc hnone

section Parted

variable {ops : List (DeltaOperation Doc)} {o made : Obj Doc}

lemma parted_toData (h : ops.Pairwise DeltaOperation.Parted) :
    (ops.map toData).Pairwise DeltaOperation.Parted := by
  refine List.pairwise_map.2 (h.imp fun {a b} hab => ?_)
  unfold DeltaOperation.Parted
  rw [segments_toData, segments_toData]
  exact hab

/-- What the data of the remote version holds at the path of an operation, and what all operations
make of it. -/
lemma leads_twice (hparted : ops.Pairwise DeltaOperation.Parted)
    (hmade : applyAllToData ops o = (made, none)) (hok : (applyAll ops made).2 = none)
    {op : DeltaOperation Doc} (hop : op ∈ ops) {x : Doc} (hx : Doc.Along op.segments (.obj o) x) :
    Doc.Leads op.segments (.obj made) ((toData op).step x).doc ∧
      Doc.Leads op.segments (.obj (applyAll ops made).1) (op.step ((toData op).step x).doc).doc ∧
      (op.step ((toData op).step x).doc).err = none := by
  have hfirst : DeltaOperation.reachAll (ops.map toData) (.obj o) = (.obj made, none) := by
    rw [DeltaOperation.reachAll_obj, ← applyAllToData_eq, hmade]
  have hsecond : DeltaOperation.reachAll ops (.obj made) = (.obj (applyAll ops made).1, none) := by
    rw [DeltaOperation.reachAll_obj, hok]
  have hx' : Doc.Along (toData op).segments (.obj o) x := by rwa [segments_toData]
  obtain ⟨honce, -⟩ := DeltaOperation.leads_reachAll (parted_toData hparted)
    (List.mem_map_of_mem hop) hx' (by rw [hfirst])
  rw [hfirst, segments_toData] at honce
  obtain ⟨htwice, herr⟩ :=
    DeltaOperation.leads_reachAll hparted hop honce.along (by rw [hsecond])
  rw [hsecond] at htwice
  exact ⟨honce, htwice, herr⟩

/-- **All operations leave the remote data as it is** exactly when those that are no `set` or
`delete` find their effect there. -/
lemma made_settled_iff (hparted : ops.Pairwise DeltaOperation.Parted)
    (halong : ∀ op ∈ ops, ∃ x, Doc.Along op.segments (.obj o) x)
    (hmade : applyAllToData ops o = (made, none)) (hok : (applyAll ops made).2 = none) :
    (applyAll ops made).1 = made ↔
      ∀ op ∈ ops, (op.op = .set ∨ op.op = .delete) ∨ Idle op (.obj made) := by
  constructor
  · intro h op hop
    obtain ⟨x, hx⟩ := halong op hop
    obtain ⟨honce, htwice, -⟩ := leads_twice hparted hmade hok hop hx
    rw [h] at htwice
    exact .inr ⟨_, honce, htwice.along.unique honce.along⟩
  · intro h
    have hall : DeltaOperation.reachAll ops (.obj made) = (.obj made, none) := by
      refine reachAll_of_idle (fun op hop => ?_) fun op hop y hy => ?_
      · obtain ⟨x, hx⟩ := halong op hop
        obtain ⟨honce, -⟩ := leads_twice hparted hmade hok hop hx
        rcases h op hop with hkind | hidle
        · refine ⟨_, honce, ?_⟩
          rw [toData_of_data hkind, step_step_toData hkind _ x]
        · exact hidle
      · obtain ⟨x, hx⟩ := halong op hop
        obtain ⟨honce, -, herr⟩ := leads_twice hparted hmade hok hop hx
        rwa [hy.unique honce.along]
    rw [DeltaOperation.reachAll_obj] at hall
    exact Doc.obj_inj.1 (congrArg Prod.fst hall)

/-- **All operations lead from the remote data back to the local data** exactly when every one of
them finds its effect in the local data. -/
lemma made_undone_iff (hparted : ops.Pairwise DeltaOperation.Parted)
    (halong : ∀ op ∈ ops, ∃ x, Doc.Along op.segments (.obj o) x)
    (hmade : applyAllToData ops o = (made, none)) (hok : (applyAll ops made).2 = none) :
    (applyAll ops made).1 = o ↔ ∀ op ∈ ops, Idle op (.obj o) := by
  constructor
  · intro h op hop
    obtain ⟨x, hx⟩ := halong op hop
    obtain ⟨-, htwice, -⟩ := leads_twice hparted hmade hok hop hx
    rw [h] at htwice
    have hback := htwice.along.unique hx
    rw [hback] at htwice
    refine ⟨x, htwice, ?_⟩
    by_cases hkind : op.op = .set ∨ op.op = .delete
    · rwa [step_step_toData hkind _ x] at hback
    · rwa [step_toData hkind] at hback
  · intro h
    have hfirst : DeltaOperation.reachAll (ops.map toData) (.obj o) = (.obj o, none) := by
      refine reachAll_of_idle (fun op' hop' => ?_) fun op' hop' y hy => ?_
      · obtain ⟨op, hop, rfl⟩ := List.mem_map.1 hop'
        obtain ⟨x, hleads, hx⟩ := h op hop
        refine ⟨x, by rwa [segments_toData], ?_⟩
        by_cases hkind : op.op = .set ∨ op.op = .delete
        · rwa [toData_of_data hkind]
        · exact step_toData hkind x
      · obtain ⟨op, -, rfl⟩ := List.mem_map.1 hop'
        unfold toData
        split
        next hkind =>
          rcases hkind with hkind | hkind
          · rw [DeltaOperation.step_set hkind]
          · rw [DeltaOperation.step_delete hkind]
        next => rw [DeltaOperation.step_other rfl]
    have hsame : made = o := by
      rw [DeltaOperation.reachAll_obj, ← applyAllToData_eq, hmade] at hfirst
      exact Doc.obj_inj.1 (congrArg Prod.fst hfirst)
    subst hsame
    exact (made_settled_iff hparted halong hmade hok).2 fun op hop => .inr (h op hop)

/-- **Landing, operation by operation.**  Where every path has one operation and leads through
plain objects, and no operation throws: if the local side wins, every operation must find its
effect in the local data; if the remote side wins, every one that is no `set` or `delete` must find
its effect in the remote data. -/
theorem lands_iff_of_parted {r : ConflictResolver} {localEntity remoteEntity : EntityDoc}
    {localDelta delta : StateDelta Doc}
    (hremote : remoteVersion localEntity delta = some remoteEntity)
    (hcustom : customAnswer r localEntity remoteEntity localDelta delta = none)
    (hparted : delta.operations.Pairwise DeltaOperation.Parted)
    (halong : ∀ op ∈ delta.operations, ∃ x, Doc.Along op.segments (.obj localEntity.data) x)
    (hok : (applyAll delta.operations remoteEntity.data).2 = none) :
    Lands r localEntity localDelta delta ↔
      if LocalWins r localEntity remoteEntity then
        ∀ op ∈ delta.operations, Idle op (.obj localEntity.data)
      else ∀ op ∈ delta.operations,
        (op.op = .set ∨ op.op = .delete) ∨ Idle op (.obj remoteEntity.data) := by
  have hmade : applyAllToData delta.operations localEntity.data = (remoteEntity.data, none) := by
    unfold remoteVersion at hremote
    rcases hmade : applyAllToData delta.operations localEntity.data with ⟨o, _ | e⟩
    · rw [hmade] at hremote
      rw [← Option.some.inj hremote]
    · rw [hmade] at hremote
      cases hremote
  unfold Lands
  simp only [hremote, Option.some.injEq, exists_eq_left', hcustom]
  split
  · exact made_undone_iff hparted halong hmade hok
  · exact made_settled_iff hparted halong hmade hok

end Parted

/-- A node that holds the entity of `localStore` with `hp = 5`, set at time `5`. -/
def hpNode : StateSynchronizer Cells Doc :=
  new (localStore [⟨.set, "hp", .prim (.num 5)⟩]) ConflictResolver.new 100

/-- A delta of another node that sets `hp` at time `t`. -/
def remoteHp (t : Timestamp) : StateDelta Doc :=
  ⟨"e1", 1, 2, [⟨.set, "hp", .prim (.num 99)⟩], t⟩

end StateSynchronizer

end SyncEngine
