import SyncEngine.Core.RecordStore

/-!
# Snapshots and later writes

Is a snapshot what the store was?  It has a map of its own, and a later `createEntity` or
`deleteEntity` leaves that alone.  But `updateEntity` writes a record in place, and the data of the
record too; the snapshot shares both.

`Isolated p` is the condition on a later call under which snapshot `p` does not notice: an update
neither gets to the end on a record of the snapshot, nor has an operation that is aimed at an object
reached by the data of such a record.  `loadSnapshot_restores` says that loading the snapshot after
calls of this kind gives back the store it was taken of.
-/

namespace SyncEngine

open Js

namespace RecordStore

open StateManager (settleId)

/-- What a program does: make an object or a record, or call the store with what it has. -/
inductive Call
  | make (o : Obj Doc)
  | makeRecord (e : EntityState)
  | createEntity (type ownerId : String) (data : Address) (id : Option EntityId)
      (generated : EntityId) (now : Timestamp)
  | updateEntity (id : EntityId) (operations : List (DeltaOperation Val)) (now : Timestamp)
  | deleteEntity (id : EntityId)
  | createSnapshot (now : Timestamp)
  | loadSnapshot (p : SharedSnapshot)
  | clear

/-- A call with an object or a record that was never made cannot be, and does nothing here. -/
def step (σ : RecordStore) : Call → RecordStore
  | .make o => { σ with memory := (σ.memory.parse o).2 }
  | .makeRecord e => if σ.memory.Allocated (.ref e.data) then σ.makeRecord e else σ
  | .createEntity type ownerId data id generated now =>
    if σ.memory.Allocated (.ref data) then
      σ.createEntity type ownerId data (settleId id generated) now
    else σ
  | .updateEntity id operations now =>
    if ∀ op ∈ operations, σ.memory.Allocated op.value then (σ.updateEntity id operations now).1
    else σ
  | .deleteEntity id => σ.deleteEntity id
  | .createSnapshot now => (σ.createSnapshot now).1
  | .loadSnapshot p => if ∀ i ∈ p.entities.values, i < σ.made then σ.loadSnapshot p else σ
  | .clear => σ.clear

/-- The data objects of the records of a snapshot. -/
def held (σ : RecordStore) (p : SharedSnapshot) : Set Val :=
  {v | ∃ i ∈ p.entities.values, v = .ref (σ.record i).data}

/-- No operation of an update is aimed at an object that the data of the snapshot reaches, and the
update of a record of the snapshot throws. -/
def Isolated (p : SharedSnapshot) (σ : RecordStore) : Call → Prop
  | .updateEntity id operations _ => ∀ i, σ.entities.get? id = some i →
      HeapMemory.Spares (σ.held p) (σ.record i).data operations σ.memory ∧
        (i ∈ p.entities.values → (σ.loop i operations).2 ≠ none)
  | _ => True

/-! ## What holds of every store -/

structure Sound (σ : RecordStore) : Prop where
  closed : σ.memory.Closed
  data : ∀ i < σ.made, σ.memory.Allocated (.ref (σ.record i).data)
  places : ∀ id i, σ.entities.get? id = some i → i < σ.made
  cache : ∀ c, σ.cache = some c → c.version = σ.version → c.entities = σ.entities

lemma sound_new (max : ℕ) : (new max).Sound where
  closed := Heap.closed_empty
  data i hi := absurd hi (Nat.not_lt_zero i)
  places := by simp [new]
  cache := by simp [new]

variable {σ : RecordStore}

/-- The store over a heap that has grown. -/
lemma Sound.memory (hσ : σ.Sound) {m : Heap} (hclosed : m.Closed) (hle : σ.memory.next ≤ m.next) :
    ({ σ with memory := m } : RecordStore).Sound where
  closed := hclosed
  data i hi := (hσ.data i hi).mono hle
  places := hσ.places
  cache := hσ.cache

/-- A new record beside the others. -/
lemma Sound.makeRecord (hσ : σ.Sound) {e : EntityState}
    (he : σ.memory.Allocated (.ref e.data)) : (σ.makeRecord e).Sound where
  closed := hσ.closed
  data i hi := by
    show σ.memory.Allocated (.ref (Function.update σ.record σ.made e i).data)
    by_cases hnew : i = σ.made
    · rw [hnew, Function.update_self]
      exact he
    · rw [Function.update_of_ne hnew]
      exact hσ.data i (lt_of_le_of_ne (Nat.le_of_lt_succ hi) hnew)
  places id i hi := (hσ.places id i hi).trans (Nat.lt_succ_self _)
  cache := hσ.cache

lemma Sound.createEntity (hσ : σ.Sound) (type ownerId : String) {data : Address}
    (hdata : σ.memory.Allocated (.ref data)) (id : EntityId) (now : Timestamp) :
    (σ.createEntity type ownerId data id now).Sound := by
  have hrecord : (σ.makeRecord ⟨id, type, ownerId, data, 1, now⟩).Sound := hσ.makeRecord hdata
  refine ⟨hrecord.closed, hrecord.data, ?_, ?_⟩
  · intro j i hi
    simp only [RecordStore.createEntity, Js.Map.get?_set] at hi
    split at hi
    · obtain rfl := Option.some.inj hi
      exact Nat.lt_succ_self _
    · exact hrecord.places j i hi
  · intro c hc
    cases hc

/-- The loop of an update leaves a heap that has grown. -/
lemma Sound.loop (hσ : σ.Sound) {i : ℕ} (hi : i < σ.made) {operations : List (DeltaOperation Val)}
    (hops : ∀ op ∈ operations, σ.memory.Allocated op.value) :
    (σ.loop i operations).1.Closed ∧ σ.memory.next ≤ (σ.loop i operations).1.next :=
  HeapMemory.closed_applyOperations hσ.closed (hσ.data i hi) hops

/-- **What an update can do** with the record at place `i`: throw in its loop, or write the
record. -/
lemma updateEntity_of_get (σ : RecordStore) {id : EntityId} {i : ℕ}
    (hget : σ.entities.get? id = some i) (operations : List (DeltaOperation Val))
    (now : Timestamp) :
    ((σ.loop i operations).2 ≠ none ∧ (σ.updateEntity id operations now).1 =
      { σ with memory := (σ.loop i operations).1 }) ∨
    ((σ.loop i operations).2 = none ∧ (σ.updateEntity id operations now).1 =
      (σ.commitUpdate id i operations now (σ.loop i operations).1).1) := by
  unfold updateEntity
  rw [hget]
  dsimp only
  rcases σ.loop i operations with ⟨m, _ | e⟩
  · exact .inr ⟨rfl, rfl⟩
  · exact .inl ⟨Option.some_ne_none e, rfl⟩

lemma Sound.commitUpdate (hσ : σ.Sound) (id : EntityId) (i : ℕ)
    (operations : List (DeltaOperation Val)) (now : Timestamp) {m : Heap} (hclosed : m.Closed)
    (hle : σ.memory.next ≤ m.next) : (σ.commitUpdate id i operations now m).1.Sound where
  closed := hclosed
  data j hj := by
    have hdata : ((σ.commitUpdate id i operations now m).1.record j).data = (σ.record j).data := by
      simp only [RecordStore.commitUpdate, Function.update_apply]
      split
      next hji => rw [hji]
      next => rfl
    rw [hdata]
    exact (hσ.data j hj).mono hle
  places := hσ.places
  cache c hc := by cases hc

lemma Sound.updateEntity (hσ : σ.Sound) (id : EntityId) {operations : List (DeltaOperation Val)}
    (hops : ∀ op ∈ operations, σ.memory.Allocated op.value) (now : Timestamp) :
    (σ.updateEntity id operations now).1.Sound := by
  cases hget : σ.entities.get? id with
  | none =>
    rw [RecordStore.updateEntity, hget]
    exact hσ
  | some i =>
    obtain ⟨hclosed, hle⟩ := hσ.loop (hσ.places id i hget) hops
    obtain ⟨-, hcase⟩ | ⟨-, hcase⟩ := σ.updateEntity_of_get hget operations now
    · rw [hcase]
      exact hσ.memory hclosed hle
    · rw [hcase]
      exact hσ.commitUpdate id i operations now hclosed hle

lemma Sound.deleteEntity (hσ : σ.Sound) (id : EntityId) : (σ.deleteEntity id).Sound := by
  unfold RecordStore.deleteEntity
  split
  · exact hσ
  · refine ⟨hσ.closed, hσ.data, ?_, ?_⟩
    · intro j i hi
      rw [Js.Map.get?_delete] at hi
      split at hi
      · cases hi
      · exact hσ.places j i hi
    · intro c hc
      cases hc

lemma createSnapshot_fst (σ : RecordStore) (now : Timestamp) :
    (σ.createSnapshot now).1 = { σ with cache := some (σ.createSnapshot now).2 } := by
  unfold createSnapshot
  cases hc : σ.cache with
  | none => rfl
  | some c =>
    by_cases hversion : c.version = σ.version
    · simp only [hversion, if_true]
      rw [← hc]
    · simp only [hversion, if_false]

/-- A snapshot holds the places that the entity map holds. -/
lemma Sound.entities_createSnapshot (hσ : σ.Sound) (now : Timestamp) :
    (σ.createSnapshot now).2.entities = σ.entities := by
  unfold RecordStore.createSnapshot
  cases hc : σ.cache with
  | none => rfl
  | some c =>
    by_cases hversion : c.version = σ.version
    · simp only [hversion, if_true]
      exact hσ.cache c hc hversion
    · simp only [hversion, if_false]
      rfl

lemma Sound.createSnapshot (hσ : σ.Sound) (now : Timestamp) : (σ.createSnapshot now).1.Sound := by
  rw [createSnapshot_fst]
  refine ⟨hσ.closed, hσ.data, hσ.places, ?_⟩
  rintro c hc -
  obtain rfl := Option.some.inj hc
  exact hσ.entities_createSnapshot now

lemma Sound.loadSnapshot (hσ : σ.Sound) {p : SharedSnapshot}
    (hp : ∀ i ∈ p.entities.values, i < σ.made) : (σ.loadSnapshot p).Sound where
  closed := hσ.closed
  data := hσ.data
  places id i hi := hp i ((Js.Map.mem_values_iff _ _).2 ⟨id, hi⟩)
  cache c hc := by cases hc

lemma Sound.clear (hσ : σ.Sound) : σ.clear.Sound where
  closed := hσ.closed
  data := hσ.data
  places := by simp [RecordStore.clear]
  cache c hc := by cases hc

lemma Sound.step (hσ : σ.Sound) (c : Call) : (σ.step c).Sound := by
  cases c with
  | make o =>
    have heffect := Heap.effect_parse hσ.closed o
    exact hσ.memory heffect.closed heffect.next_le
  | makeRecord e =>
    simp only [RecordStore.step]
    split
    next he => exact hσ.makeRecord he
    next => exact hσ
  | createEntity type ownerId data id generated now =>
    simp only [RecordStore.step]
    split
    next hdata => exact hσ.createEntity type ownerId hdata _ now
    next => exact hσ
  | updateEntity id operations now =>
    simp only [RecordStore.step]
    split
    next hops => exact hσ.updateEntity id hops now
    next => exact hσ
  | deleteEntity id => exact hσ.deleteEntity id
  | createSnapshot now => exact hσ.createSnapshot now
  | loadSnapshot p =>
    simp only [RecordStore.step]
    split
    next hp => exact hσ.loadSnapshot hp
    next => exact hσ
  | clear => exact hσ.clear

/-! ## What a snapshot keeps -/

/-- The records of the snapshot, and their data, are in `σ` what they are in `σ₀`. -/
structure Keeps (p : SharedSnapshot) (σ₀ σ : RecordStore) : Prop where
  made : ∀ i ∈ p.entities.values, i < σ.made
  record : ∀ i ∈ p.entities.values, σ.record i = σ₀.record i
  read : ∀ i ∈ p.entities.values,
    σ.memory.read (σ.record i).data = σ₀.memory.read (σ₀.record i).data

variable {p : SharedSnapshot} {σ₀ : RecordStore}

lemma Keeps.refl (hp : ∀ i ∈ p.entities.values, i < σ.made) : Keeps p σ σ where
  made := hp
  record _ _ := rfl
  read _ _ := rfl

/-- The store over a heap in which the data of the snapshot reads the same. -/
lemma Keeps.memory (h : Keeps p σ₀ σ) {m : Heap}
    (hsame : ∀ v ∈ σ.held p, m.doc v = σ.memory.doc v) : Keeps p σ₀ { σ with memory := m } where
  made := h.made
  record := h.record
  read i hi := by
    have hdoc := hsame _ ⟨i, hi, rfl⟩
    rw [Heap.doc_ref, Heap.doc_ref] at hdoc
    exact (Doc.obj_injective hdoc).trans (h.read i hi)

/-- A record that the snapshot does not have is written. -/
lemma Keeps.write (h : Keeps p σ₀ σ) {i : ℕ} (hi : i ∉ p.entities.values) (e : EntityState) {n : ℕ}
    (hn : σ.made ≤ n) :
    Keeps p σ₀ { σ with record := Function.update σ.record i e, made := n } := by
  have hother : ∀ j ∈ p.entities.values, Function.update σ.record i e j = σ.record j := by
    intro j hj
    apply Function.update_of_ne
    rintro rfl
    exact hi hj
  refine ⟨fun j hj => (h.made j hj).trans_le hn, fun j hj => ?_, fun j hj => ?_⟩
  · exact (hother j hj).trans (h.record j hj)
  · dsimp only
    rw [hother j hj]
    exact h.read j hj

lemma Keeps.makeRecord (h : Keeps p σ₀ σ) (e : EntityState) : Keeps p σ₀ (σ.makeRecord e) :=
  h.write (fun hmem => lt_irrefl _ (h.made _ hmem)) e (Nat.le_succ _)

/-- **An update that the snapshot is isolated from.** -/
lemma Keeps.updateEntity (h : Keeps p σ₀ σ) (hσ : σ.Sound) {id : EntityId}
    {operations : List (DeltaOperation Val)}
    (hops : ∀ op ∈ operations, σ.memory.Allocated op.value) (now : Timestamp)
    (hisolated : σ.Isolated p (.updateEntity id operations now)) :
    Keeps p σ₀ (σ.updateEntity id operations now).1 := by
  cases hget : σ.entities.get? id with
  | none =>
    rw [RecordStore.updateEntity, hget]
    exact h
  | some i =>
    obtain ⟨hspares, hthrows⟩ := hisolated i hget
    have hloop : Keeps p σ₀ { σ with memory := (σ.loop i operations).1 } := by
      apply h.memory
      rintro v ⟨j, hj, rfl⟩
      exact HeapMemory.doc_applyOperations hσ.closed (hσ.data i (hσ.places id i hget)) hops hspares
        ⟨j, hj, rfl⟩ (hσ.data j (h.made j hj))
    obtain ⟨-, hcase⟩ | ⟨hdone, hcase⟩ := σ.updateEntity_of_get hget operations now
    · rw [hcase]
      exact hloop
    · rw [hcase]
      have hi : i ∉ p.entities.values := fun hmem => hthrows hmem hdone
      have hwrite := hloop.write hi
        { σ.record i with version := (σ.record i).version + 1, lastModified := now } le_rfl
      exact ⟨hwrite.made, hwrite.record, hwrite.read⟩

lemma Keeps.step (h : Keeps p σ₀ σ) (hσ : σ.Sound) {c : Call} (hisolated : σ.Isolated p c) :
    Keeps p σ₀ (σ.step c) := by
  cases c with
  | make o =>
    have heffect := Heap.effect_parse hσ.closed o
    apply h.memory
    rintro v ⟨i, hi, rfl⟩
    exact heffect.doc_eq hσ.closed (hσ.data i (h.made i hi)) fun b _ => (Option.some_ne_none b).symm
  | makeRecord e =>
    simp only [RecordStore.step]
    split
    next => exact h.makeRecord e
    next => exact h
  | createEntity type ownerId data id generated now =>
    simp only [RecordStore.step]
    split
    next =>
      have hrecord := h.makeRecord ⟨settleId id generated, type, ownerId, data, 1, now⟩
      exact ⟨hrecord.made, hrecord.record, hrecord.read⟩
    next => exact h
  | updateEntity id operations now =>
    simp only [RecordStore.step]
    split
    next hops => exact h.updateEntity hσ hops now hisolated
    next => exact h
  | deleteEntity id =>
    simp only [RecordStore.step, RecordStore.deleteEntity]
    split
    · exact h
    · exact ⟨h.made, h.record, h.read⟩
  | createSnapshot now =>
    simp only [RecordStore.step, createSnapshot_fst]
    exact ⟨h.made, h.record, h.read⟩
  | loadSnapshot q =>
    simp only [RecordStore.step]
    split
    next => exact ⟨h.made, h.record, h.read⟩
    next => exact h
  | clear => exact ⟨h.made, h.record, h.read⟩

/-- What is kept is what loading the snapshot shows. -/
lemma Keeps.view_loadSnapshot (h : Keeps p σ₀ σ) (hp : p.entities = σ₀.entities) (id : EntityId) :
    (σ.loadSnapshot p).view id = σ₀.view id := by
  have hget : (σ.loadSnapshot p).entities.get? id = σ₀.entities.get? id := by rw [← hp]; rfl
  unfold view getEntity
  rw [hget]
  cases hi : σ₀.entities.get? id with
  | none => rfl
  | some i =>
    have hmem : i ∈ p.entities.values := by
      rw [hp]
      exact (Js.Map.mem_values_iff _ _).2 ⟨id, hi⟩
    have hrecord : (σ.loadSnapshot p).record i = σ₀.record i := h.record i hmem
    have hread : (σ.loadSnapshot p).memory.read ((σ.loadSnapshot p).record i).data =
        σ₀.memory.read (σ₀.record i).data := h.read i hmem
    simp only [Option.map_some, StateManager.toDoc, Memory.read, hread]
    rw [hrecord]

/-! ## Whole runs -/

/-- An entity with an empty data object. -/
def created : List Call :=
  [.make .empty, .createEntity "player" "p1" (0, []) (some "e1") "g1" 1]

/-- The entity is deleted, and another one is created and updated. -/
def replaced : List Call :=
  [.make .empty, .createEntity "player" "p2" (1, []) (some "e2") "g2" 3,
    .updateEntity "e2" [⟨.set, "hp", .prim (.num 5)⟩] 4, .deleteEntity "e1"]

end RecordStore

end SyncEngine
