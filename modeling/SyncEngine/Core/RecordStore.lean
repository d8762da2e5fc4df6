import SyncEngine.Core.HeapMemory
import SyncEngine.Core.History

/-!
# Entity records by reference

The state manager once more, with every object of it by reference: the entity map holds the places
of the records, `updateEntity` writes the record at such a place, and a snapshot copies the map and
shares the records.

`live` reads the records off.  Every call does to what `live` shows what `StateManager` does, as
long as no two entities share a record (`live_updateEntity`).  What a snapshot shows is another
matter: it is read with the records of the moment (`live_loadSnapshot`).
-/

namespace SyncEngine

open Js

/-- A snapshot in memory, with the places of its records. -/
structure SharedSnapshot where
  version : ℕ
  timestamp : Timestamp
  entities : Js.Map EntityId ℕ
  checksum : String

/-- The state manager, with its records at numbered places; `made` counts them. -/
structure RecordStore where
  memory : Heap
  made : ℕ
  record : ℕ → EntityState
  entities : Js.Map EntityId ℕ
  history : Js.Map EntityId (List (StateDelta Val))
  version : ℕ
  cache : Option SharedSnapshot
  maxHistoryPerEntity : ℕ

namespace RecordStore

open StateManager (addToHistory settleId applyOperations)

def new (maxHistoryPerEntity : ℕ) : RecordStore :=
  ⟨.empty, 0, fun _ => ⟨"", "", "", (0, []), 0, 0⟩, .empty, .empty, 0, none, maxHistoryPerEntity⟩

def getEntity (σ : RecordStore) (id : EntityId) : Option EntityState :=
  (σ.entities.get? id).map σ.record

/-- A new record, that no map holds yet. -/
def makeRecord (σ : RecordStore) (e : EntityState) : RecordStore :=
  { σ with made := σ.made + 1, record := Function.update σ.record σ.made e }

def createEntity (σ : RecordStore) (type ownerId : String) (data : Address) (id : EntityId)
    (now : Timestamp) : RecordStore :=
  { σ.makeRecord ⟨id, type, ownerId, data, 1, now⟩ with
    version := σ.version + 1
    entities := σ.entities.set id σ.made
    cache := none }

/-- The part of `updateEntity` after its loop, in memory `m`, on the record at place `i`. -/
def commitUpdate (σ : RecordStore) (id : EntityId) (i : ℕ) (operations : List (DeltaOperation Val))
    (now : Timestamp) (m : Heap) : RecordStore × UpdateResult Val :=
  let entity := σ.record i
  let delta : StateDelta Val := ⟨id, entity.version, entity.version + 1, operations, now⟩
  ({ σ with
      memory := m
      record := Function.update σ.record i
        { entity with version := entity.version + 1, lastModified := now }
      history := addToHistory σ.history σ.maxHistoryPerEntity id delta
      version := σ.version + 1
      cache := none },
    .updated delta)

def finishUpdate (σ : RecordStore) (id : EntityId) (i : ℕ) (operations : List (DeltaOperation Val))
    (now : Timestamp) : Written Heap → RecordStore × UpdateResult Val
  | (m, none) => σ.commitUpdate id i operations now m
  | (m, some e) => ({ σ with memory := m }, .threw e)

/-- The loop of an update of the record at place `i`. -/
def loop (σ : RecordStore) (i : ℕ) (operations : List (DeltaOperation Val)) : Written Heap :=
  applyOperations (σ.record i).data operations σ.memory

def updateEntity (σ : RecordStore) (id : EntityId) (operations : List (DeltaOperation Val))
    (now : Timestamp) : RecordStore × UpdateResult Val :=
  match σ.entities.get? id with
  | none => (σ, .notFound)
  | some i => σ.finishUpdate id i operations now (σ.loop i operations)

def deleteEntity (σ : RecordStore) (id : EntityId) : RecordStore :=
  match σ.entities.get? id with
  | none => σ
  | some _ =>
    { σ with
      entities := σ.entities.delete id
      history := σ.history.delete id
      version := σ.version + 1
      cache := none }

/-- The snapshot, with the records that are at its places. -/
def readSnapshot (σ : RecordStore) (c : SharedSnapshot) : StateSnapshot :=
  ⟨c.version, c.timestamp, c.entities.mapValues fun _ => σ.record, c.checksum⟩

/-- **The store, with the records that are at its places.** -/
def live (σ : RecordStore) : StateManager Heap Val :=
  ⟨σ.memory, σ.entities.mapValues fun _ => σ.record, σ.history, σ.version,
    σ.cache.map σ.readSnapshot, σ.maxHistoryPerEntity⟩

/-- The snapshot `createSnapshot` makes when the cache does not answer: `new Map(this.entities)`
copies the places. -/
def freshSnapshot (σ : RecordStore) (now : Timestamp) : SharedSnapshot :=
  ⟨σ.version, now, σ.entities, σ.live.computeChecksum⟩

def createSnapshot (σ : RecordStore) (now : Timestamp) : RecordStore × SharedSnapshot :=
  match σ.cache with
  | some cached =>
    if cached.version = σ.version then (σ, cached)
    else ({ σ with cache := some (σ.freshSnapshot now) }, σ.freshSnapshot now)
  | none => ({ σ with cache := some (σ.freshSnapshot now) }, σ.freshSnapshot now)

def loadSnapshot (σ : RecordStore) (p : SharedSnapshot) : RecordStore :=
  { σ with entities := p.entities, version := p.version, history := .empty, cache := none }

/-- `clear()`. -/
def clear (σ : RecordStore) : RecordStore :=
  { σ with entities := .empty, history := .empty, version := 0, cache := none }

/-- What `getEntity` returns, with its data written out. -/
def view (σ : RecordStore) (id : EntityId) : Option EntityDoc :=
  (σ.getEntity id).map (StateManager.toDoc σ.memory)

/-! ## What the calls do to the live store -/

variable {σ : RecordStore}

/-- No two entities share a record. -/
def Own (σ : RecordStore) : Prop :=
  ∀ id j i, σ.entities.get? id = some i → σ.entities.get? j = some i → j = id

lemma get?_live (σ : RecordStore) (id : EntityId) :
    σ.live.entities.get? id = σ.getEntity id := Js.Map.get?_mapValues _ _ _

lemma view_live (σ : RecordStore) (id : EntityId) : σ.live.view id = σ.view id := by
  rw [StateManager.view, get?_live]
  rfl

lemma live_createEntity (hmade : ∀ id i, σ.entities.get? id = some i → i < σ.made)
    (type ownerId : String) (data : Address) (id : EntityId) (now : Timestamp) :
    (σ.createEntity type ownerId data id now).live =
      σ.live.createEntity type ownerId data id now := by
  have hentities : (σ.entities.set id σ.made).mapValues
        (fun _ => Function.update σ.record σ.made ⟨id, type, ownerId, data, 1, now⟩) =
      (σ.entities.mapValues fun _ => σ.record).set id ⟨id, type, ownerId, data, 1, now⟩ := by
    rw [Js.Map.mapValues_set, Function.update_self]
    congr 1
    apply Js.Map.mapValues_congr
    intro j i hi
    exact Function.update_of_ne (hmade j i hi).ne _ _
  simp only [live, createEntity, makeRecord, StateManager.createEntity, hentities, Option.map_none]

/-- **An update writes the record of its entity only.** -/
lemma live_updateEntity (hown : σ.Own) (id : EntityId) (operations : List (DeltaOperation Val))
    (now : Timestamp) :
    (σ.updateEntity id operations now).1.live = (σ.live.updateEntity id operations now).1 ∧
      (σ.updateEntity id operations now).2 = (σ.live.updateEntity id operations now).2 := by
  unfold updateEntity StateManager.updateEntity
  rw [get?_live, getEntity]
  cases hget : σ.entities.get? id with
  | none => exact ⟨rfl, rfl⟩
  | some i =>
    simp only [Option.map_some]
    have hloop : applyOperations (σ.record i).data operations σ.live.memory = σ.loop i operations :=
      rfl
    rw [hloop]
    rcases σ.loop i operations with ⟨m, _ | e⟩
    · refine ⟨?_, rfl⟩
      have hentities := Js.Map.mapValues_update hget (fun j hj => hown id j i hget hj) σ.record
        { σ.record i with version := (σ.record i).version + 1, lastModified := now }
      simp only [finishUpdate, commitUpdate, StateManager.finishUpdate, StateManager.commitUpdate,
        live, hentities, Option.map_none]
    · exact ⟨rfl, rfl⟩

lemma live_deleteEntity (id : EntityId) :
    (σ.deleteEntity id).live = σ.live.deleteEntity id := by
  unfold deleteEntity StateManager.deleteEntity
  rw [get?_live, getEntity]
  cases σ.entities.get? id with
  | none => rfl
  | some i => simp only [live, Option.map_some, Js.Map.mapValues_delete, Option.map_none]

lemma live_createSnapshot (now : Timestamp) :
    (σ.createSnapshot now).1.live = (σ.live.createSnapshot now).1 ∧
      σ.readSnapshot (σ.createSnapshot now).2 = (σ.live.createSnapshot now).2 := by
  have hcache : σ.live.cache = σ.cache.map σ.readSnapshot := rfl
  unfold createSnapshot StateManager.createSnapshot
  rw [hcache]
  cases hc : σ.cache with
  | none => exact ⟨rfl, rfl⟩
  | some c =>
    by_cases hversion : c.version = σ.version
    · simp only [Option.map_some, readSnapshot, live, hversion, if_true, and_self]
    · simp only [Option.map_some, readSnapshot, live, hversion, if_false]
      exact ⟨rfl, rfl⟩

/-- A snapshot is loaded with the records that are now at its places. -/
lemma live_loadSnapshot (p : SharedSnapshot) :
    (σ.loadSnapshot p).live = σ.live.loadSnapshot (σ.readSnapshot p).entities p.version := rfl

end RecordStore

end SyncEngine
