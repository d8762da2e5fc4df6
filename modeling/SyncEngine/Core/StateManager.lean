import SyncEngine.Core.Memory

/-!
# The state manager

`src/core/state-manager.ts` over an arbitrary memory of data objects: the entity map, the
per-entity history of deltas, the store version and the cached snapshot.

Every call that emits an event returns what the event carries, so that the modules that wire
listeners to the event bus can run them.  `Date.now()` and the generated id are arguments.  The
LRU cache of the source only ever holds the key `snapshot`, so it is an `Option`.
-/

namespace SyncEngine

open Js

structure StateManager (M V : Type) where
  memory : M
  entities : Js.Map EntityId EntityState
  history : Js.Map EntityId (List (StateDelta V))
  version : ℕ
  cache : Option StateSnapshot
  maxHistoryPerEntity : ℕ

/-- How a call of `updateEntity` ends. -/
inductive UpdateResult (V : Type)
  | notFound
  | threw (e : JsError)
  | updated (delta : StateDelta V)

namespace StateManager

variable {M V : Type}

/-- `new StateManager(cacheSize, maxHistoryPerEntity)` in a process whose memory is `m`. -/
def new (m : M) (maxHistoryPerEntity : ℕ) : StateManager M V :=
  ⟨m, .empty, .empty, 0, none, maxHistoryPerEntity⟩

def getEntity (σ : StateManager M V) (id : EntityId) : Option EntityState := σ.entities.get? id

/-- `createEntity`, with the id it settles on and its data object already made. -/
def createEntity (σ : StateManager M V) (type ownerId : String) (data : Ref) (id : EntityId)
    (now : Timestamp) : StateManager M V :=
  { σ with
    version := σ.version + 1
    entities := σ.entities.set id ⟨id, type, ownerId, data, 1, now⟩
    cache := none }

/-- `addToHistory`: append the delta, and drop the oldest one over the limit. -/
def addToHistory (history : Js.Map EntityId (List (StateDelta V))) (max : ℕ) (id : EntityId)
    (delta : StateDelta V) : Js.Map EntityId (List (StateDelta V)) :=
  let entityHistory := (history.get? id).getD [] ++ [delta]
  history.set id (if entityHistory.length > max then entityHistory.tail else entityHistory)

/-- The part of `updateEntity` after its loop, in memory `m`. -/
def commitUpdate (σ : StateManager M V) (id : EntityId) (entity : EntityState)
    (operations : List (DeltaOperation V)) (now : Timestamp) (m : M) :
    StateManager M V × UpdateResult V :=
  let delta : StateDelta V := ⟨id, entity.version, entity.version + 1, operations, now⟩
  ({ σ with
      memory := m
      entities := σ.entities.set id
        { entity with version := entity.version + 1, lastModified := now }
      history := addToHistory σ.history σ.maxHistoryPerEntity id delta
      version := σ.version + 1
      cache := none },
    .updated delta)

/-- `updateEntity` given what its loop over the operations left: on an exception nothing after
the loop runs. -/
def finishUpdate (σ : StateManager M V) (id : EntityId) (entity : EntityState)
    (operations : List (DeltaOperation V)) (now : Timestamp) :
    Written M → StateManager M V × UpdateResult V
  | (m, none) => σ.commitUpdate id entity operations now m
  | (m, some e) => ({ σ with memory := m }, .threw e)

def deleteEntity (σ : StateManager M V) (id : EntityId) : StateManager M V :=
  match σ.entities.get? id with
  | none => σ
  | some _ =>
    { σ with
      entities := σ.entities.delete id
      history := σ.history.delete id
      version := σ.version + 1
      cache := none }

/-- `getEntityHistory` without a lower bound. -/
def getEntityHistory (σ : StateManager M V) (id : EntityId) : List (StateDelta V) :=
  (σ.history.get? id).getD []

/-- `getDeltasSince`: the retained deltas from an entity version on, by timestamp. -/
def getDeltasSince (σ : StateManager M V) (version : ℕ) : List (StateDelta V) :=
  (σ.history.values.flatMap fun h => h.filter fun d => version ≤ d.fromVersion).insertionSort
    fun a b => a.timestamp ≤ b.timestamp

/-! ## Snapshots -/

/-- The UTF-16 code units of a string. -/
def charCodes (s : String) : List ℕ :=
  s.toList.flatMap fun c =>
    if c.toNat < 0x10000 then [c.toNat]
    else [0xD800 + (c.toNat - 0x10000) / 0x400, 0xDC00 + (c.toNat - 0x10000) % 0x400]

/-- `hash = ((hash << 5) - hash) + char; hash |= 0` on 32-bit integers. -/
def hashStep (hash : ℤ) (char : ℕ) : ℤ :=
  (((hash * 32).bmod (2 ^ 32) - hash) + char).bmod (2 ^ 32)

/-- `hash.toString(16)`. -/
def hexText (hash : ℤ) : String :=
  (if hash < 0 then "-" else "") ++ String.ofList (Nat.toDigits 16 hash.natAbs)

def computeChecksum (σ : StateManager M V) : String :=
  hexText <| σ.entities.entries.foldl (fun hash e =>
    (charCodes (e.1 ++ ":" ++ toString e.2.version ++ ":" ++ toString e.2.lastModified)).foldl
      hashStep hash) 0

/-- The snapshot `createSnapshot` makes when the cache does not answer. -/
def freshSnapshot (σ : StateManager M V) (now : Timestamp) : StateSnapshot :=
  ⟨σ.version, now, σ.entities, σ.computeChecksum⟩

def createSnapshot (σ : StateManager M V) (now : Timestamp) : StateManager M V × StateSnapshot :=
  match σ.cache with
  | some cached =>
    if cached.version = σ.version then (σ, cached)
    else ({ σ with cache := some (σ.freshSnapshot now) }, σ.freshSnapshot now)
  | none => ({ σ with cache := some (σ.freshSnapshot now) }, σ.freshSnapshot now)

def loadSnapshot (σ : StateManager M V) (entities : Js.Map EntityId EntityState)
    (version : ℕ) : StateManager M V :=
  { σ with entities := entities, version := version, history := .empty, cache := none }

/-- A cached snapshot of the present version holds the present entities. -/
def CacheFresh (σ : StateManager M V) : Prop :=
  ∀ c, σ.cache = some c → c.version = σ.version → c.entities = σ.entities

/-- `createSnapshot` leaves the snapshot it returns in the cache, and nothing else changed. -/
lemma createSnapshot_fst (σ : StateManager M V) (now : Timestamp) :
    (σ.createSnapshot now).1 = { σ with cache := some (σ.createSnapshot now).2 } := by
  unfold createSnapshot
  cases h : σ.cache with
  | none => rfl
  | some c =>
      by_cases hc : c.version = σ.version
      · simp only [hc, if_true]
        rw [← h]
      · simp only [hc, if_false]

/-- The snapshot returned is the cached one of the present version, or a fresh one. -/
lemma createSnapshot_cases (σ : StateManager M V) (now : Timestamp) :
    (∃ c, σ.cache = some c ∧ c.version = σ.version ∧ (σ.createSnapshot now).2 = c) ∨
      (σ.createSnapshot now).2 = σ.freshSnapshot now := by
  unfold createSnapshot
  cases σ.cache with
  | none => exact .inr rfl
  | some c =>
      by_cases hc : c.version = σ.version
      · exact .inl ⟨c, rfl, hc, by simp [hc]⟩
      · exact .inr (by simp [hc])

@[simp] lemma version_createSnapshot (σ : StateManager M V) (now : Timestamp) :
    (σ.createSnapshot now).2.version = σ.version := by
  rcases σ.createSnapshot_cases now with ⟨c, -, hv, hnext⟩ | hnext
  · rw [hnext, hv]
  · rw [hnext]
    rfl

lemma entities_createSnapshot {σ : StateManager M V} (h : σ.CacheFresh) (now : Timestamp) :
    (σ.createSnapshot now).2.entities = σ.entities := by
  rcases σ.createSnapshot_cases now with ⟨c, hc, hv, hnext⟩ | hnext
  · rw [hnext]
    exact h c hc hv
  · rw [hnext]
    rfl

/-- What is cached has the checksum of the store. -/
def CacheChecked (σ : StateManager M V) : Prop :=
  ∀ c, σ.cache = some c → c.version = σ.version →
    c.entities = σ.entities ∧ c.checksum = σ.computeChecksum

lemma cacheChecked_of_none {σ : StateManager M V} (h : σ.cache = none) : σ.CacheChecked := by
  intro c hc
  rw [h] at hc
  cases hc

lemma CacheChecked.createSnapshot {σ : StateManager M V} (h : σ.CacheChecked) (now : Timestamp) :
    (σ.createSnapshot now).2.entities = σ.entities ∧
      (σ.createSnapshot now).2.checksum = σ.computeChecksum := by
  obtain ⟨c, hc, hversion, hnext⟩ | hnext := σ.createSnapshot_cases now
  · rw [hnext]
    exact h c hc hversion
  · rw [hnext]
    exact ⟨rfl, rfl⟩

/-- A cached snapshot of the present version is the one returned. -/
lemma createSnapshot_of_cached {σ : StateManager M V} {c : StateSnapshot} (h : σ.cache = some c)
    (hc : c.version = σ.version) (now : Timestamp) : (σ.createSnapshot now).2 = c := by
  simp [createSnapshot, h, hc]

variable [Memory M V]

/-- The loop of `updateEntity`. -/
def applyOperations (data : Ref) (operations : List (DeltaOperation V)) (m : M) : Written M :=
  forEachWrite (fun op m => Memory.applyOperation m data op) operations m

lemma applyOperations_cons (data : Ref) (op : DeltaOperation V) (ops : List (DeltaOperation V))
    (m : M) :
    applyOperations data (op :: ops) m =
      match Memory.applyOperation m data op with
      | (m', none) => applyOperations data ops m'
      | (m', some e) => (m', some e) := by
  rw [applyOperations, forEachWrite]
  rcases Memory.applyOperation m data op with ⟨m', _ | e⟩ <;> rfl

def updateEntity (σ : StateManager M V) (id : EntityId) (operations : List (DeltaOperation V))
    (now : Timestamp) : StateManager M V × UpdateResult V :=
  match σ.entities.get? id with
  | none => (σ, .notFound)
  | some entity =>
    σ.finishUpdate id entity operations now (applyOperations entity.data operations σ.memory)

/-- `createEntity` with a data object read from a text. -/
def receiveEntity (σ : StateManager M V) (type ownerId : String) (data : Obj Doc)
    (id : EntityId) (now : Timestamp) : StateManager M V :=
  let (r, m) := Memory.parse σ.memory data
  { σ with memory := m }.createEntity type ownerId r id now

/-- `updateEntity` on operations read from a text. -/
def receiveUpdate (σ : StateManager M V) (id : EntityId)
    (operations : List (DeltaOperation Doc)) (now : Timestamp) :
    StateManager M V × UpdateResult V :=
  let (ops, m) := parseOperations σ.memory operations
  { σ with memory := m }.updateEntity id ops now

/-- **What `updateEntity` can do.**  It finds no entity and changes nothing; or an operation
throws, and only the memory has changed; or it commits. -/
lemma updateEntity_cases (σ : StateManager M V) (id : EntityId)
    (operations : List (DeltaOperation V)) (now : Timestamp) :
    (σ.entities.get? id = none ∧ σ.updateEntity id operations now = (σ, .notFound)) ∨
    (∃ entity m e, σ.entities.get? id = some entity ∧
      applyOperations entity.data operations σ.memory = (m, some e) ∧
      σ.updateEntity id operations now = ({ σ with memory := m }, .threw e)) ∨
    (∃ entity m, σ.entities.get? id = some entity ∧
      applyOperations entity.data operations σ.memory = (m, none) ∧
      σ.updateEntity id operations now = σ.commitUpdate id entity operations now m) := by
  unfold updateEntity
  cases hget : σ.entities.get? id with
  | none => exact .inl ⟨rfl, rfl⟩
  | some entity =>
      right
      rcases hops : applyOperations entity.data operations σ.memory with ⟨m, _ | e⟩
      · exact .inr ⟨entity, m, rfl, hops, by simp only [finishUpdate, hops]⟩
      · exact .inl ⟨entity, m, e, rfl, hops, by simp only [finishUpdate, hops]⟩

/-- An update that has recorded a delta has gone to its end. -/
lemma exists_of_updated {σ : StateManager M V} {id : EntityId}
    {operations : List (DeltaOperation V)} {now : Timestamp} {d : StateDelta V}
    (h : (σ.updateEntity id operations now).2 = .updated d) :
    ∃ entity m, σ.entities.get? id = some entity ∧
      applyOperations entity.data operations σ.memory = (m, none) ∧
      σ.updateEntity id operations now = σ.commitUpdate id entity operations now m := by
  obtain ⟨-, hcase⟩ | ⟨_, _, _, -, -, hcase⟩ | hcommit := σ.updateEntity_cases id operations now
  · rw [hcase] at h
    cases h
  · rw [hcase] at h
    cases h
  · exact hcommit

/-- An update neither adds nor removes an entity. -/
lemma has_updateEntity (σ : StateManager M V) (id : EntityId)
    (operations : List (DeltaOperation V)) (now : Timestamp) (j : EntityId) :
    (σ.updateEntity id operations now).1.entities.has j = σ.entities.has j := by
  obtain ⟨-, h⟩ | ⟨_, _, _, -, -, h⟩ | ⟨_, _, hget, -, h⟩ :=
    σ.updateEntity_cases id operations now
  · rw [h]
  · rw [h]
  · rw [h, commitUpdate, Js.Map.has, Js.Map.has, Js.Map.get?_set]
    split
    next hj => rw [hj, hget]; rfl
    next => rfl

/-- An update leaves every entity the data object it has. -/
lemma data_updateEntity (σ : StateManager M V) (id : EntityId)
    (operations : List (DeltaOperation V)) (now : Timestamp) (j : EntityId) :
    ((σ.updateEntity id operations now).1.entities.get? j).map EntityState.data =
      (σ.entities.get? j).map EntityState.data := by
  obtain ⟨-, h⟩ | ⟨_, _, _, -, -, h⟩ | ⟨_, _, hget, -, h⟩ :=
    σ.updateEntity_cases id operations now
  · rw [h]
  · rw [h]
  · rw [h, commitUpdate, Js.Map.get?_set]
    split
    next hj => rw [hj, hget]; rfl
    next => rfl

/-- The memory is what the loop leaves. -/
lemma memory_updateEntity {σ : StateManager M V} {id : EntityId} {entity : EntityState}
    (hget : σ.entities.get? id = some entity) (operations : List (DeltaOperation V))
    (now : Timestamp) :
    (σ.updateEntity id operations now).1.memory =
      (applyOperations entity.data operations σ.memory).1 := by
  rw [updateEntity, hget]
  dsimp only
  rcases applyOperations entity.data operations σ.memory with ⟨m, _ | e⟩ <;> rfl

lemma has_of_updated {σ : StateManager M V} {id : EntityId} {operations : List (DeltaOperation V)}
    {now : Timestamp} {delta : StateDelta V}
    (h : (σ.updateEntity id operations now).2 = .updated delta) : σ.entities.has id = true := by
  rw [Js.Map.has]
  obtain ⟨-, hcase⟩ | ⟨_, _, _, hget, -, -⟩ | ⟨_, _, hget, -, -⟩ :=
    σ.updateEntity_cases id operations now
  · rw [hcase] at h; cases h
  · rw [hget]; rfl
  · rw [hget]; rfl

/-- An entity record with its data written out. -/
def toDoc (m : M) (e : EntityState) : EntityDoc :=
  ⟨e.id, e.type, e.ownerId, Memory.read m e.data, e.version, e.lastModified⟩

/-- What a client sees of the store: every entity with its data. -/
def view (σ : StateManager M V) (id : EntityId) : Option EntityDoc :=
  (σ.entities.get? id).map (toDoc σ.memory)

/-- The data of every entity. -/
def data (σ : StateManager M V) (id : EntityId) : Option (Obj Doc) :=
  (σ.entities.get? id).map fun e => Memory.read σ.memory e.data

/-! ## Snapshots from a text -/

/-- The entity records that `JSON.parse` makes of the entities of a snapshot. -/
def parseEntities (m : M) : List (EntityId × EntityDoc) → List (EntityId × EntityState) × M
  | [] => ([], m)
  | (id, d) :: es =>
    let (r, m') := Memory.parse m d.data
    let (rest, m'') := parseEntities m' es
    ((id, ⟨d.id, d.type, d.ownerId, r, d.version, d.lastModified⟩) :: rest, m'')

/-- `loadSnapshot` on a snapshot read from a text. -/
def receiveSnapshot (σ : StateManager M V) (entities : Js.Map EntityId EntityDoc)
    (version : ℕ) : StateManager M V :=
  let (parsed, m) := parseEntities σ.memory entities.entries
  { σ with memory := m }.loadSnapshot (.ofEntries parsed) version

lemma map_fst_parseEntities (m : M) (es : List (EntityId × EntityDoc)) :
    (parseEntities m es).1.map Prod.fst = es.map Prod.fst := by
  induction es generalizing m with
  | nil => rfl
  | cons e es ih => simp [parseEntities, ih]

lemma parseEntities_snd (m : M) (es : List (EntityId × EntityDoc)) :
    (parseEntities m es).2 =
      (es.map fun e => e.2.data).foldl (fun m o => (Memory.parse m o).2) m := by
  induction es generalizing m with
  | nil => rfl
  | cons e es ih => simp [parseEntities, ih]

/-- Every parsed record reads as the record it was parsed from. -/
lemma find_parseEntities [LawfulMemory M V] (m : M) (es : List (EntityId × EntityDoc))
    (id : EntityId) :
    (Js.Map.find id (parseEntities m es).1).map (toDoc (parseEntities m es).2) =
      Js.Map.find id es := by
  induction es generalizing m with
  | nil => rfl
  | cons e es ih =>
      obtain ⟨j, d⟩ := e
      by_cases hj : j = id
      · have hread := LawfulMemory.read_parse_list m d.data (es.map fun e => e.2.data)
        rw [← parseEntities_snd] at hread
        simp [parseEntities, Js.Map.find, hj, toDoc, hread]
      · simpa [parseEntities, Js.Map.find, hj] using ih (Memory.parse m d.data).2

lemma get?_receiveSnapshot (σ : StateManager M V) (entities : Js.Map EntityId EntityDoc)
    (version : ℕ) (id : EntityId) :
    (σ.receiveSnapshot entities version).entities.get? id =
      Js.Map.find id (parseEntities σ.memory entities.entries).1 := by
  have hnodup : ((parseEntities σ.memory entities.entries).1.map Prod.fst).Nodup := by
    rw [map_fst_parseEntities]
    exact entities.nodup
  exact Js.Map.get?_ofEntries hnodup id

/-- **Loading a snapshot restores what it holds.** -/
lemma view_receiveSnapshot [LawfulMemory M V] (σ : StateManager M V)
    (entities : Js.Map EntityId EntityDoc) (version : ℕ) (id : EntityId) :
    (σ.receiveSnapshot entities version).view id = entities.get? id := by
  have hfind := find_parseEntities σ.memory entities.entries id
  rw [← get?_receiveSnapshot σ entities version] at hfind
  exact hfind

end StateManager

end SyncEngine
