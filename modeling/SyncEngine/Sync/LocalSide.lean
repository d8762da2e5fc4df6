import SyncEngine.Core.History
import SyncEngine.Core.RawUpdate
import SyncEngine.Sync.OwnUpdates
import SyncEngine.Sync.RemoteDelta

/-!
# The local side of a delta

What the handler performs for a delta depends on the version of the entity, on the last delta of
its history and on whether its conflicts are merged.  The times and the winner that the resolver
picks make no difference to it.  `LocalSide` is that part of an entity, with its data, and `handle`
is what a delta does to it.

`handleDelta_side` says that the handler does this to the entity that the delta names, and nothing
to any other one, in every store that keeps its entities apart.
-/

namespace SyncEngine

open Js StateManager

/-- Conflicts of entities of the type are merged. -/
def ConflictResolver.merges (r : ConflictResolver) (type : String) : Bool :=
  (r.customResolvers.get? type).isNone && decide (r.defaultStrategy = .merge)

/-- What the resolver decides is always to be performed, and its strategies stay as they are. -/
lemma ConflictResolver.resolve_spec (r : ConflictResolver) (localEntity remoteEntity : EntityDoc)
    (localDelta remoteDelta : StateDelta Doc) (now : Timestamp) :
    (r.resolve localEntity remoteEntity localDelta remoteDelta now).1.resolved = true ∧
      (r.resolve localEntity remoteEntity localDelta remoteDelta now).1.mergedOperations.isSome =
        r.merges localEntity.type ∧
      (r.resolve localEntity remoteEntity localDelta remoteDelta now).2.merges = r.merges := by
  cases hcustom : r.customResolvers.get? localEntity.type with
  | some resolver =>
    have hmerges : r.merges localEntity.type = false := by simp [merges, hcustom]
    rw [hmerges]
    simp only [resolve, hcustom, resolveWithCustom]
    cases resolver localEntity remoteEntity localDelta remoteDelta with
    | some answer => exact ⟨rfl, rfl, rfl⟩
    | none => exact ⟨rfl, rfl, rfl⟩
  | none =>
    have hmerges : r.merges localEntity.type = decide (r.defaultStrategy = .merge) := by
      simp [merges, hcustom]
    rw [hmerges]
    simp only [resolve, hcustom]
    rcases hstrategy : r.defaultStrategy with - | - | - | -
    · exact ⟨rfl, rfl, rfl⟩
    · exact ⟨rfl, rfl, rfl⟩
    · exact ⟨rfl, rfl, rfl⟩
    · exact ⟨rfl, rfl, rfl⟩

/-- **A conflict is an update**, once the remote version is made: with the merged operations where
conflicts of the type are merged, and with those of the remote delta otherwise. -/
lemma StateSynchronizer.resolveConflict_of_ok {M V : Type} [Memory M V]
    {s : StateSynchronizer M V} {e : EntityState} (localDelta : StateDelta V)
    {delta : StateDelta V} {m : M}
    (hremote : applyRemote e.data delta.operations s.stateManager.memory = (m, none))
    (now : Timestamp) : ∃ r : ConflictResolver, r.merges = s.conflictResolver.merges ∧
      s.resolveConflict e localDelta delta now =
        ({ s with
            stateManager := { s.stateManager with memory := m },
            conflictResolver := r } : StateSynchronizer M V).updateEntity delta.entityId
          (if s.conflictResolver.merges e.type then
            ConflictResolver.mergeOperations localDelta.operations delta.operations
          else delta.operations) now := by
  obtain ⟨hresolved, hmerged, hmerges⟩ := s.conflictResolver.resolve_spec (toDoc m e)
    (toDoc m { e with version := delta.toVersion, lastModified := delta.timestamp })
    (localDelta.map (Memory.readValue m)) (delta.map (Memory.readValue m)) now
  refine ⟨_, hmerges, ?_⟩
  unfold resolveConflict
  rw [hremote]
  dsimp only
  rw [if_pos hresolved, hmerged]
  rfl

/-- What the handling of a delta goes by in an entity, and its data. -/
structure LocalSide where
  version : ℕ
  /-- The operations of the last delta of the history. -/
  last : Option (List (DeltaOperation Doc))
  merges : Bool
  data : Obj Doc

/-- What the handling goes by in every entity. -/
abbrev Sides : Type := EntityId → Option LocalSide

namespace LocalSide

/-- The operations that `updateEntity` is called with, if it is called. -/
def updates (l : LocalSide) (delta : StateDelta Doc) : Option (List (DeltaOperation Doc)) :=
  if l.version ≤ delta.fromVersion then some delta.operations
  else l.last.map fun last =>
    if l.merges then ConflictResolver.mergeOperations last delta.operations
    else delta.operations

/-- What is performed on the data before that, to make the remote version. -/
def prepares (l : LocalSide) (delta : StateDelta Doc) : List (DeltaOperation Doc) :=
  if l.version ≤ delta.fromVersion then [] else delta.operations.map StateSynchronizer.toData

/-- All that is performed on the data. -/
def performs (l : LocalSide) (delta : StateDelta Doc) : List (DeltaOperation Doc) :=
  match l.updates delta with
  | none => []
  | some ops => l.prepares delta ++ ops

/-- The operations of the last delta, after an update with a history of at most `max` deltas. -/
def lastAfter (max : ℕ) (l : LocalSide) (ops : List (DeltaOperation Doc)) :
    Option (List (DeltaOperation Doc)) :=
  if max = 0 ∧ l.last = none then none else some ops

/-- What `updateEntity` does. -/
def update (max : ℕ) (ops : List (DeltaOperation Doc)) (l : LocalSide) : Written LocalSide :=
  match applyAll ops l.data with
  | (data, none) =>
    ({ l with version := l.version + 1, last := l.lastAfter max ops, data := data }, none)
  | (data, some e) => ({ l with data := data }, some e)

def handle (max : ℕ) (delta : StateDelta Doc) (l : LocalSide) : Written LocalSide :=
  match l.updates delta with
  | none => (l, none)
  | some ops =>
    match applyAll (l.prepares delta) l.data with
    | (data, none) => { l with data := data }.update max ops
    | (data, some e) => ({ l with data := data }, some e)

/-- The body of the loop of `handleRemoteDelta`. -/
def handleSide (max : ℕ) (delta : StateDelta Doc) (sides : Sides) : Written Sides :=
  match sides delta.entityId with
  | none => (sides, none)
  | some l =>
    (Function.update sides delta.entityId (some (l.handle max delta).1), (l.handle max delta).2)

def handleSides (max : ℕ) (deltas : List (StateDelta Doc)) (sides : Sides) : Written Sides :=
  forEachWrite (handleSide max) deltas sides

end LocalSide

/-! ## Stores that keep their entities apart -/

/-- Every entity has a data object of its own. -/
structure StateManager.Separate (σ : StateManager Cells Doc) : Prop where
  made : ∀ id e, σ.entities.get? id = some e → e.data.1 < σ.memory.next
  own : ∀ id e j f, σ.entities.get? id = some e → σ.entities.get? j = some f →
    e.data = f.data → id = j

namespace StateManager

variable {σ τ : StateManager Cells Doc}

lemma Holds.separate {T : Ref → Option (Record Doc)} (h : σ.Holds T) : σ.Separate where
  made id e he := by
    obtain ⟨done, hdone⟩ := Option.isSome_iff_exists.1 (h.tracked id e he)
    exact (h.tracks.1 _ done hdone).1
  own := h.own

lemma Separate.holds (h : σ.Separate) :
    σ.Holds fun r => if r.1 < σ.memory.next then some [] else none where
  tracks := by
    constructor
    · intro r done hr
      dsimp only at hr
      split at hr
      next hlt =>
        obtain rfl := Option.some.inj hr
        exact ⟨hlt, by simp⟩
      · cases hr
    · simp
  tracked id e he := by simp [h.made id e he]
  own := h.own

/-- The entities keep their data objects. -/
lemma Separate.congr (h : σ.Separate) (hnext : τ.memory.next = σ.memory.next)
    (hrefs : ∀ id, (τ.entities.get? id).map EntityState.data =
      (σ.entities.get? id).map EntityState.data) : τ.Separate := by
  have hold : ∀ id f, τ.entities.get? id = some f →
      ∃ e, σ.entities.get? id = some e ∧ e.data = f.data := by
    intro id f hf
    have hid := hrefs id
    rw [hf, Option.map_some] at hid
    exact Option.map_eq_some_iff.1 hid.symm
  constructor
  · intro id f hf
    obtain ⟨e, he, hdata⟩ := hold id f hf
    rw [hnext, ← hdata]
    exact h.made id e he
  · intro id f j g hf hg hfg
    obtain ⟨e, he, hdata⟩ := hold id f hf
    obtain ⟨e', he', hdata'⟩ := hold j g hg
    exact h.own id e j e' he he' (hdata.trans (hfg.trans hdata'.symm))

end StateManager

namespace StateSynchronizer

/-- What the handling of deltas goes by in the store. -/
def sides (s : StateSynchronizer Cells Doc) : Sides := fun id =>
  (s.stateManager.getEntity id).map fun e =>
    ⟨e.version, (s.localDelta id).map StateDelta.operations, s.conflictResolver.merges e.type,
      Memory.read s.stateManager.memory e.data⟩

variable {s : StateSynchronizer Cells Doc}

/-- Only one entity, and the data object of this one, has been touched. -/
lemma sides_eq_update (h : s.stateManager.Separate) {id : EntityId} {e : EntityState}
    (hget : s.stateManager.entities.get? id = some e) {s' : StateSynchronizer Cells Doc}
    {l : LocalSide} (hid : s'.sides id = some l)
    (hentities : ∀ j, j ≠ id → s'.stateManager.entities.get? j = s.stateManager.entities.get? j)
    (hhistory : ∀ j, j ≠ id → s'.localDelta j = s.localDelta j)
    (hcell : ∀ r, r ≠ e.data → s'.stateManager.memory.cell r = s.stateManager.memory.cell r)
    (hmerges : s'.conflictResolver.merges = s.conflictResolver.merges) :
    s'.sides = Function.update s.sides id (some l) := by
  funext j
  by_cases hj : j = id
  · rw [hj, Function.update_self]
    exact hid
  · rw [Function.update_of_ne hj]
    unfold sides StateManager.getEntity
    rw [hentities j hj, hhistory j hj, hmerges]
    cases hf : s.stateManager.entities.get? j with
    | none => rfl
    | some f =>
      have hne : f.data ≠ e.data := fun heq => hj (h.own j f id e hf hget heq)
      have hread : Memory.read s'.stateManager.memory f.data =
          Memory.read s.stateManager.memory f.data := hcell _ hne
      rw [Option.map_some, Option.map_some, hread]

lemma sides_eq_some {id : EntityId} {e : EntityState}
    (hget : s.stateManager.entities.get? id = some e) :
    s.sides id = some ⟨e.version, (s.localDelta id).map StateDelta.operations,
      s.conflictResolver.merges e.type, Memory.read s.stateManager.memory e.data⟩ := by
  unfold sides StateManager.getEntity
  rw [hget, Option.map_some]

/-- What a step of the handler has done: it went on to other sides in a store that keeps its
entities apart, as the step on the sides says. -/
structure Does (s : StateSynchronizer Cells Doc) (result : Written (StateSynchronizer Cells Doc))
    (after : Written Sides) : Prop where
  sides : result.1.sides = after.1
  err : result.2 = after.2
  separate : result.1.stateManager.Separate
  max : result.1.stateManager.maxHistoryPerEntity = s.stateManager.maxHistoryPerEntity

/-- An in-place step on the data object of an entity. -/
lemma does_write (h : s.stateManager.Separate) {id : EntityId} {e : EntityState}
    (hget : s.stateManager.entities.get? id = some e) {l : LocalSide} (hl : s.sides id = some l)
    (step : Obj Doc → Written (Obj Doc)) {s' : StateSynchronizer Cells Doc}
    (hs' : s'.stateManager = { s.stateManager with
      memory := (Cells.write step s.stateManager.memory e.data).1 })
    (hmerges : s'.conflictResolver.merges = s.conflictResolver.merges) (err : Option JsError) :
    Does s (s', err)
      (Function.update s.sides id (some { l with data := (step l.data).1 }), err) where
  sides := by
    have hlocal : ∀ j, s'.localDelta j = s.localDelta j := fun j => by
      rw [localDelta, hs']
      rfl
    refine sides_eq_update h hget ?_ (fun _ _ => by rw [hs']) (fun j _ => hlocal j)
      (fun q hq => ?_) hmerges
    · have hget' : s'.stateManager.entities.get? id = some e := by rw [hs']; exact hget
      have hread : Memory.read s'.stateManager.memory e.data =
          (step (Memory.read s.stateManager.memory e.data)).1 := by
        rw [hs']
        exact Cells.write_cell_self step _ _
      rw [sides_eq_some hget, Option.some.injEq] at hl
      rw [sides_eq_some hget', ← hl, hlocal, hmerges, hread]
    · rw [hs']
      exact Cells.write_cell_of_ne step _ hq
  err := rfl
  separate := by
    apply h.congr
    · rw [hs']
      rfl
    · intro j
      rw [hs']
  max := by rw [hs']

/-- The last delta of a history to which one was added. -/
lemma getLast?_addToHistory {V : Type} (old : List (StateDelta V)) (d : StateDelta V) (max : ℕ) :
    (if (old ++ [d]).length > max then (old ++ [d]).tail else old ++ [d]).getLast? =
      if max = 0 ∧ old.getLast? = none then none else some d := by
  cases old with
  | nil =>
    rcases Nat.eq_zero_or_pos max with rfl | hmax
    · rfl
    · have hroom : ¬ ([] ++ [d]).length > max := by simpa using hmax.ne'
      rw [if_neg hroom, if_neg fun h => hmax.ne' h.1]
      rfl
  | cons a old =>
    have hsome : ¬ (max = 0 ∧ (a :: old).getLast? = none) := by simp
    rw [if_neg hsome]
    split
    · exact List.getLast?_concat
    · exact List.getLast?_concat

lemma localDelta_commitUpdate {M V : Type} (σ : StateManager M V) (id j : EntityId)
    (e : EntityState) (ops : List (DeltaOperation V)) (now : Timestamp) (m : M) :
    ((σ.commitUpdate id e ops now m).1.getEntityHistory j).getLast? =
      if j = id then
        (if σ.maxHistoryPerEntity = 0 ∧ (σ.getEntityHistory id).getLast? = none then none
        else some ⟨id, e.version, e.version + 1, ops, now⟩)
      else (σ.getEntityHistory j).getLast? := by
  have hhistory := get?_addToHistory σ.history σ.maxHistoryPerEntity id j
    ⟨id, e.version, e.version + 1, ops, now⟩
  refine (congrArg List.getLast? hhistory).trans ?_
  split
  · exact getLast?_addToHistory _ _ _
  · rfl

/-- The end of an update, once the loop has written the data object. -/
lemma does_commitUpdate (h : s.stateManager.Separate) {id : EntityId} {e : EntityState}
    (hget : s.stateManager.entities.get? id = some e) {l : LocalSide} (hl : s.sides id = some l)
    (ops : List (DeltaOperation Doc)) (now : Timestamp) (step : Obj Doc → Written (Obj Doc)) :
    Does s
      (s.heard (s.stateManager.commitUpdate id e ops now
        (Cells.write step s.stateManager.memory e.data).1))
      (Function.update s.sides id (some { l with
        version := l.version + 1
        last := l.lastAfter s.stateManager.maxHistoryPerEntity ops
        data := (step l.data).1 }), none) := by
  have hside := hl
  rw [sides_eq_some hget, Option.some.injEq] at hside
  have hdata : Memory.read s.stateManager.memory e.data = l.data := by rw [← hside]
  set m := (Cells.write step s.stateManager.memory e.data).1 with hm
  obtain ⟨s', hs'⟩ : ∃ s', s' = (s.heard (s.stateManager.commitUpdate id e ops now m)).1 :=
    ⟨_, rfl⟩
  have hmemory : s'.stateManager.memory = m := by
    rw [hs']
    rfl
  have hread : Memory.read m e.data = (step l.data).1 := by
    rw [hm, ← hdata]
    exact Cells.write_cell_self step _ _
  have hget' : s'.stateManager.entities.get? id =
      some { e with version := e.version + 1, lastModified := now } := by
    rw [hs']
    exact Js.Map.get?_set_self _ _ _
  have hlocal : ∀ j, s'.localDelta j =
      if j = id then
        (if s.stateManager.maxHistoryPerEntity = 0 ∧ s.localDelta id = none then none
        else some ⟨id, e.version, e.version + 1, ops, now⟩)
      else s.localDelta j := by
    intro j
    rw [hs']
    exact localDelta_commitUpdate s.stateManager id j e ops now m
  have hlast : (s'.localDelta id).map StateDelta.operations =
      l.lastAfter s.stateManager.maxHistoryPerEntity ops := by
    have hnone : l.last = none ↔ s.localDelta id = none := by
      rw [← hside]
      exact Option.map_eq_none_iff
    rw [hlocal, if_pos rfl]
    simp only [LocalSide.lastAfter, hnone]
    split
    · rfl
    · rfl
  have hmerges : s'.conflictResolver.merges = s.conflictResolver.merges := by
    rw [hs']
    rfl
  have hsides : s'.sides = Function.update s.sides id (some { l with
      version := l.version + 1
      last := l.lastAfter s.stateManager.maxHistoryPerEntity ops
      data := (step l.data).1 }) := by
    refine sides_eq_update h hget ?_ (fun j hj => ?_) (fun j hj => ?_) (fun r hr => ?_) hmerges
    · rw [sides_eq_some hget', hlast, hmerges, hmemory, hread, ← hside]
    · rw [hs']
      exact Js.Map.get?_set_of_ne _ _ hj
    · rw [hlocal, if_neg hj]
    · rw [hmemory]
      exact Cells.write_cell_of_ne step _ hr
  refine ⟨?_, rfl, ?_, rfl⟩
  · rw [hs'] at hsides
    exact hsides
  · apply h.congr
    · rfl
    · intro j
      exact map_data_commitUpdate hget ops now m j

/-- **An update**, on the side of its entity. -/
lemma does_updateEntity (h : s.stateManager.Separate) {id : EntityId} {e : EntityState}
    (hget : s.stateManager.entities.get? id = some e) {l : LocalSide} (hl : s.sides id = some l)
    (ops : List (DeltaOperation Doc)) (now : Timestamp) :
    Does s (s.updateEntity id ops now)
      (Function.update s.sides id
          (some (l.update s.stateManager.maxHistoryPerEntity ops).1),
        (l.update s.stateManager.maxHistoryPerEntity ops).2) := by
  have hside := hl
  rw [sides_eq_some hget, Option.some.injEq] at hside
  have hdata : s.stateManager.memory.cell e.data = l.data := by rw [← hside]; rfl
  have hloop : applyOperations e.data ops s.stateManager.memory =
      ((Cells.write (applyAll ops) s.stateManager.memory e.data).1, (applyAll ops l.data).2) := by
    rw [applyOperations_cells, Cells.write, hdata]
  have hcommit := does_commitUpdate h hget hl ops now (applyAll ops)
  unfold updateEntity StateManager.updateEntity LocalSide.update
  rw [hget]
  dsimp only
  rw [hloop]
  rcases hops : applyAll ops l.data with ⟨o, _ | err⟩
  · rw [hops] at hcommit
    exact hcommit
  · have hdoes := @does_write s h _ e hget l hl (applyAll ops)
      { s with stateManager := { s.stateManager with
        memory := (Cells.write (applyAll ops) s.stateManager.memory e.data).1 } }
      rfl rfl (some err)
    rw [hops] at hdoes
    exact hdoes

/-- **A conflict**, on the side of its entity. -/
lemma does_resolveConflict (h : s.stateManager.Separate) {delta localDelta : StateDelta Doc}
    {e : EntityState} (hget : s.stateManager.entities.get? delta.entityId = some e)
    {l : LocalSide} (hl : s.sides delta.entityId = some l)
    (hlocal : s.localDelta delta.entityId = some localDelta)
    (hnewer : delta.fromVersion < l.version) (now : Timestamp) :
    Does s (s.resolveConflict e localDelta delta now)
      (Function.update s.sides delta.entityId
          (some (l.handle s.stateManager.maxHistoryPerEntity delta).1),
        (l.handle s.stateManager.maxHistoryPerEntity delta).2) := by
  have hside := hl
  rw [sides_eq_some hget, Option.some.injEq] at hside
  obtain ⟨ops, hops⟩ : ∃ ops, ops = if s.conflictResolver.merges e.type then
      ConflictResolver.mergeOperations localDelta.operations delta.operations
    else delta.operations := ⟨_, rfl⟩
  have hupdates : l.updates delta = some ops := by
    unfold LocalSide.updates
    rw [if_neg hnewer.not_ge, ← hside, hlocal, hops]
    rfl
  have hprepares : l.prepares delta = delta.operations.map toData := if_neg hnewer.not_ge
  have hcell : s.stateManager.memory.cell e.data = l.data := by rw [← hside]; rfl
  set m := (Cells.write (applyAllToData delta.operations) s.stateManager.memory e.data).1 with hm
  have hwrite : applyRemote e.data delta.operations s.stateManager.memory =
      (m, (applyAll (delta.operations.map toData) l.data).2) := by
    rw [applyRemote_cells, ← applyAllToData_eq, ← hcell]
    exact Prod.ext rfl rfl
  unfold LocalSide.handle
  rw [hupdates, hprepares]
  rcases hmade : applyAll (delta.operations.map toData) l.data with ⟨o, _ | err⟩
  · dsimp only
    rw [hmade] at hwrite
    obtain ⟨r, hmerges, hresolve⟩ := resolveConflict_of_ok localDelta hwrite now
    obtain ⟨s', hs'⟩ : ∃ s' : StateSynchronizer Cells Doc, s' = { s with
      stateManager := { s.stateManager with memory := m }, conflictResolver := r } := ⟨_, rfl⟩
    rw [hresolve, ← hs', ← hops]
    have hdoes := @does_write s h _ e hget l hl (applyAllToData delta.operations) s'
      (by rw [hs']) (by rw [hs', hmerges]) none
    rw [applyAllToData_eq, hmade] at hdoes
    have hsides : s'.sides = Function.update s.sides delta.entityId (some { l with data := o }) :=
      hdoes.sides
    have hl' : s'.sides delta.entityId = some { l with data := o } := by
      rw [hsides, Function.update_self]
    have hget' : s'.stateManager.entities.get? delta.entityId = some e := by
      rw [hs']
      exact hget
    have hupdate := does_updateEntity hdoes.separate hget' hl' ops now
    have hmax : s'.stateManager.maxHistoryPerEntity = s.stateManager.maxHistoryPerEntity :=
      hdoes.max
    rw [hmax] at hupdate
    refine ⟨?_, hupdate.err, hupdate.separate, hupdate.max.trans hmax⟩
    rw [hupdate.sides, hsides]
    exact Function.update_idem ..
  · have hdoes := @does_write s h _ e hget l hl (applyAllToData delta.operations)
      { s with stateManager := { s.stateManager with memory := m } } rfl rfl (some err)
    rw [applyAllToData_eq, hmade] at hdoes
    unfold resolveConflict
    rw [hwrite, hmade]
    exact hdoes

/-- **The handler does to the entity that a delta names what the delta does to its side.** -/
lemma handleDelta_side (h : s.stateManager.Separate) (delta : StateDelta Doc) (now : Timestamp) :
    Does s (handleDelta now delta s)
      (LocalSide.handleSide s.stateManager.maxHistoryPerEntity delta s.sides) := by
  unfold LocalSide.handleSide
  cases hget : s.stateManager.entities.get? delta.entityId with
  | none =>
    have hside : s.sides delta.entityId = none := by
      unfold sides
      rw [StateManager.getEntity, hget, Option.map_none]
    rw [hside, handleDelta_of_none hget]
    exact ⟨rfl, rfl, h, rfl⟩
  | some e =>
    obtain ⟨l, hl⟩ : ∃ l, s.sides delta.entityId = some l := ⟨_, sides_eq_some hget⟩
    have hside := hl
    rw [sides_eq_some hget, Option.some.injEq] at hside
    have hversion : e.version = l.version := by rw [← hside]
    rw [hl]
    dsimp only
    by_cases hold : l.version ≤ delta.fromVersion
    · have hhandle : l.handle s.stateManager.maxHistoryPerEntity delta =
          l.update s.stateManager.maxHistoryPerEntity delta.operations := by
        unfold LocalSide.handle LocalSide.updates LocalSide.prepares
        rw [if_pos hold, if_pos hold]
        rfl
      rw [hhandle, handleDelta_of_le hget (hversion ▸ hold)]
      exact does_updateEntity h hget hl delta.operations now
    · have hnewer : delta.fromVersion < l.version := not_le.1 hold
      cases hlocal : s.localDelta delta.entityId with
      | none =>
        have hlast : l.last = none := by rw [← hside, hlocal]; rfl
        have hupdates : l.updates delta = none := by
          unfold LocalSide.updates
          rw [if_neg hold, hlast]
          rfl
        have hhandle : l.handle s.stateManager.maxHistoryPerEntity delta = (l, none) := by
          unfold LocalSide.handle
          rw [hupdates]
        rw [hhandle, ← hl, Function.update_eq_self,
          handleDelta_of_no_history hget (hversion ▸ hnewer) hlocal]
        exact ⟨rfl, rfl, h, rfl⟩
      | some localDelta =>
        rw [handleDelta_of_lt hget (hversion ▸ hnewer) hlocal]
        exact does_resolveConflict h hget hl hlocal hnewer now

/-- The loop of the handler. -/
lemma does_forEachWrite (h : s.stateManager.Separate) (deltas : List (StateDelta Doc))
    (now : Timestamp) :
    Does s (forEachWrite (handleDelta now) deltas s)
      (LocalSide.handleSides s.stateManager.maxHistoryPerEntity deltas s.sides) := by
  induction deltas generalizing s with
  | nil => exact ⟨rfl, rfl, h, rfl⟩
  | cons delta deltas ih =>
    obtain ⟨hsides, herr, hseparate, hmax⟩ := handleDelta_side h delta now
    unfold LocalSide.handleSides at ih ⊢
    rw [forEachWrite, forEachWrite]
    rcases hrun : handleDelta now delta s with ⟨s', err⟩
    rcases hside : LocalSide.handleSide s.stateManager.maxHistoryPerEntity delta s.sides
      with ⟨sides', err'⟩
    rw [hrun, hside] at hsides herr
    rw [hrun] at hseparate hmax
    obtain rfl : err = err' := herr
    cases err with
    | none =>
      have hrest := ih hseparate
      rw [hmax, hsides] at hrest
      exact ⟨hrest.sides, hrest.err, hrest.separate, hrest.max.trans hmax⟩
    | some e => exact ⟨hsides, rfl, hseparate, hmax⟩

lemma sides_notePeer (s : StateSynchronizer Cells Doc) (source : NodeId) (now : Timestamp) :
    (s.notePeer source now).sides = s.sides := by
  unfold notePeer
  cases s.peers.get? source with
  | none => rfl
  | some peer => rfl

/-- A message read from a text, in a store that holds its data by value. -/
lemma receiveDeltas_eq (s : StateSynchronizer Cells Doc) (source : NodeId)
    (deltas : List (StateDelta Doc)) (now : Timestamp) :
    s.receiveDeltas source deltas now = s.handleRemoteDelta source deltas now := by
  have hparse : ∀ (m : Cells) (ops : List (DeltaOperation Doc)),
      parseOperations m ops = (ops, m) := by
    intro m ops
    induction ops with
    | nil => rfl
    | cons op ops ih =>
      show (⟨op.op, op.path, op.value⟩ :: (parseOperations m ops).1, (parseOperations m ops).2) = _
      rw [ih]
  have hone : receiveDelta now = (handleDelta now : StateDelta Doc → _ →
      Written (StateSynchronizer Cells Doc)) := by
    funext delta s
    unfold receiveDelta
    rw [hparse]
  unfold receiveDeltas handleRemoteDelta
  rw [hone]

/-- **A message does to the sides what its deltas do**, one after another up to the first that
throws. -/
lemma receiveDeltas_sides (h : s.stateManager.Separate) (source : NodeId)
    (deltas : List (StateDelta Doc)) (now : Timestamp) :
    Does s (s.receiveDeltas source deltas now)
      (LocalSide.handleSides s.stateManager.maxHistoryPerEntity deltas s.sides) := by
  have hloop := does_forEachWrite h deltas now
  rw [receiveDeltas_eq]
  unfold handleRemoteDelta
  rcases hrun : forEachWrite (handleDelta now) deltas s with ⟨s', _ | e⟩
  all_goals rw [hrun] at hloop
  · refine ⟨(sides_notePeer s' source now).trans hloop.sides, hloop.err, ?_, ?_⟩
    · rw [notePeer_stateManager]
      exact hloop.separate
    · rw [notePeer_stateManager]
      exact hloop.max
  · exact hloop

lemma data_eq_sides (s : StateSynchronizer Cells Doc) (id : EntityId) :
    s.stateManager.data id = (s.sides id).map LocalSide.data := by
  unfold StateManager.data sides StateManager.getEntity
  rw [Option.map_map]
  rfl

/-! ## The stores that a synchronizer can come to hold -/

inductive Reachable : StateSynchronizer Cells Doc → Prop
  | new (maxHistoryPerEntity : ℕ) (r : ConflictResolver) (batchSize : ℕ) :
      Reachable (.new (.new Memory.empty maxHistoryPerEntity) r batchSize)
  | createEntity {s : StateSynchronizer Cells Doc} (h : Reachable s) (type ownerId : String)
      (data : Obj Doc) (id : EntityId) (now : Timestamp) :
      Reachable (s.createEntity type ownerId data id now)
  | updateEntity {s : StateSynchronizer Cells Doc} (h : Reachable s) (id : EntityId)
      (elements : List Doc) (now : Timestamp) :
      Reachable (s.heard (s.stateManager.receiveElements id elements now)).1
  | deleteEntity {s : StateSynchronizer Cells Doc} (h : Reachable s) (id : EntityId) :
      Reachable (s.deleteEntity id)
  | flushDeltas {s : StateSynchronizer Cells Doc} (h : Reachable s) (text : Doc → String)
      (nodeId : NodeId) (now : Timestamp) : Reachable (s.flushDeltas text nodeId now).1
  | handleStateRequest {s : StateSynchronizer Cells Doc} (h : Reachable s) (sinceVersion : ℕ)
      (now : Timestamp) : Reachable (s.handleStateRequest sinceVersion now).1
  | receive {s : StateSynchronizer Cells Doc} (h : Reachable s) (source : NodeId) (now : Timestamp)
      (payload : Payload) : Reachable (s.receive source now payload).1
  | addPeer {s : StateSynchronizer Cells Doc} (h : Reachable s) (nodeId : NodeId) :
      Reachable (s.addPeer nodeId)
  | setResolver {s : StateSynchronizer Cells Doc} (h : Reachable s) (r : ConflictResolver) :
      Reachable { s with conflictResolver := r }

/-- Every such store keeps its entities apart. -/
lemma Reachable.separate (h : Reachable s) : s.stateManager.Separate := by
  induction h with
  | new maxHistoryPerEntity r batchSize =>
    constructor
    · intro id e he
      cases he
    · intro id e j f he
      cases he
  | createEntity _ type ownerId data id now ih =>
    exact (ih.holds.receiveEntity type ownerId data id now).1.separate
  | updateEntity _ id elements now ih =>
    obtain ⟨T, hT⟩ := ih.holds.receiveElements id elements now
    rw [heard_stateManager]
    exact hT.separate
  | deleteEntity _ id ih => exact (ih.holds.deleteEntity id).separate
  | @flushDeltas s _ text nodeId now ih =>
    unfold StateSynchronizer.flushDeltas
    split
    · exact ih
    · split
      · exact ih
      next compressed _ =>
        have hsplice : s.splice.stateManager.Separate := ih
        have hhandled := (receiveDeltas_sides hsplice nodeId compressed now).separate
        rw [receiveDeltas_eq] at hhandled
        exact hhandled
  | @handleStateRequest s _ sinceVersion now ih =>
    unfold StateSynchronizer.handleStateRequest
    dsimp only
    split
    · exact ih
    · rw [createSnapshot_fst]
      exact ih.congr rfl fun _ => rfl
  | receive _ source now payload ih =>
    cases payload with
    | stateDelta deltas => exact (receiveDeltas_sides ih source deltas now).separate
    | stateSnapshot version entities =>
      obtain ⟨T, hT, -⟩ := ih.holds.receiveSnapshot entities version
      exact hT.separate
  | @addPeer s _ nodeId ih =>
    unfold StateSynchronizer.addPeer
    split
    · exact ih
    · exact ih
  | setResolver _ r ih => exact ih

end StateSynchronizer

end SyncEngine
