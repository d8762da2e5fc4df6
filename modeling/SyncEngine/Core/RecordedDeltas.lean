import SyncEngine.Core.HeapMemory
import SyncEngine.Core.History

/-!
# Recorded deltas

`updateEntity` records the operations it was called with, and its loop places their values in the
entity's data by reference.  A later operation that walks into such a value, appends to it or
increments in it writes what the recorded delta holds.

`Recording` is a store with objects by reference, beside a history of documents: what every delta
was when it was recorded.  `Spared` is the condition on an update that none of its operations is
aimed at an object that a recorded value reaches, and `history_as_recorded` says that where every
update meets it, the history reads as it was recorded.
-/

namespace SyncEngine

open Js

/-- A store, and the documents that its deltas were when they were recorded. -/
structure Recording where
  store : StateManager Heap Val
  recorded : Js.Map EntityId (List (StateDelta Doc))

namespace Recording

open StateManager (addToHistory settleId)

/-- What a program does: make an object from a text, or call the store with objects it has. -/
inductive Call
  | make (o : Obj Doc)
  | createEntity (type ownerId : String) (data : Address) (id : Option EntityId)
      (generated : EntityId) (now : Timestamp)
  | updateEntity (id : EntityId) (operations : List (DeltaOperation Val)) (now : Timestamp)

def start (maxHistoryPerEntity : ℕ) : Recording := ⟨.new .empty maxHistoryPerEntity, .empty⟩

/-- The end of an update: the delta it has recorded, if any, is read off as a document. -/
def record (s : Recording) : StateManager Heap Val × UpdateResult Val → Recording
  | (store, .updated delta) =>
    ⟨store, addToHistory s.recorded s.store.maxHistoryPerEntity delta.entityId
      (delta.map store.memory.doc)⟩
  | (store, _) => { s with store := store }

/-- A call with an object that was never made cannot be, and does nothing here. -/
def step (s : Recording) : Call → Recording
  | .make o => { s with store := { s.store with memory := (s.store.memory.parse o).2 } }
  | .createEntity type ownerId data id generated now =>
    if s.store.memory.Allocated (.ref data) then
      { s with store := s.store.createEntity type ownerId data (settleId id generated) now }
    else s
  | .updateEntity id operations now =>
    if ∀ op ∈ operations, s.store.memory.Allocated op.value then
      s.record (s.store.updateEntity id operations now)
    else s

/-- The values of the operations in the histories. -/
def held (s : Recording) : Set Val :=
  {v | ∃ id, ∃ d ∈ s.store.getEntityHistory id, ∃ op ∈ d.operations, op.value = v}

/-- No operation of an update is aimed at an object that a value in a history reaches. -/
def Spared (s : Recording) : Call → Prop
  | .updateEntity id operations _ => ∀ e, s.store.getEntity id = some e →
      HeapMemory.Spares s.held e.data operations s.store.memory
  | _ => True

/-- The histories read as they were recorded. -/
def AsRecorded (s : Recording) : Prop :=
  ∀ id, (s.store.getEntityHistory id).map (·.map s.store.memory.doc) =
    (s.recorded.get? id).getD []

/-! ## The invariant -/

structure Sound (s : Recording) : Prop where
  closed : s.store.memory.Closed
  data : ∀ id e, s.store.entities.get? id = some e → s.store.memory.Allocated (.ref e.data)
  values : ∀ v ∈ s.held, s.store.memory.Allocated v
  asRecorded : s.AsRecorded

lemma sound_start (max : ℕ) : (start max).Sound where
  closed := Heap.closed_empty
  data := by simp [start, StateManager.new]
  values := by
    rintro v ⟨id, d, hd, -⟩
    simp [start, StateManager.new, StateManager.getEntityHistory] at hd
  asRecorded id := rfl

variable {s : Recording}

/-- The deltas of a history, read where their values are what they were. -/
lemma map_doc_congr {h h' : Heap} (hsame : ∀ v ∈ s.held, h'.doc v = h.doc v) (id : EntityId) :
    (s.store.getEntityHistory id).map (·.map h'.doc) =
      (s.store.getEntityHistory id).map (·.map h.doc) := by
  apply List.map_congr_left
  intro d hd
  unfold StateDelta.map
  congr 1
  apply List.map_congr_left
  intro op hop
  unfold DeltaOperation.map
  rw [hsame op.value ⟨id, d, hd, op, hop, rfl⟩]

/-- Another heap, in which what the deltas hold reads the same. -/
lemma Sound.memory (hs : s.Sound) {h : Heap} (hclosed : h.Closed)
    (hle : s.store.memory.next ≤ h.next)
    (hsame : ∀ v ∈ s.held, h.doc v = s.store.memory.doc v) :
    ({ s with store := { s.store with memory := h } } : Recording).Sound where
  closed := hclosed
  data id e he := (hs.data id e he).mono hle
  values v hv := (hs.values v hv).mono hle
  asRecorded id := (map_doc_congr hsame id).trans (hs.asRecorded id)

lemma Sound.make (hs : s.Sound) (o : Obj Doc) : (s.step (.make o)).Sound := by
  have heffect := Heap.effect_parse hs.closed o
  apply hs.memory heffect.closed heffect.next_le
  intro v hv
  exact heffect.doc_eq hs.closed (hs.values v hv) fun b _ => (Option.some_ne_none b).symm

lemma Sound.createEntity (hs : s.Sound) (type ownerId : String) {data : Address}
    (hdata : s.store.memory.Allocated (.ref data)) (id : EntityId) (now : Timestamp) :
    ({ s with store := s.store.createEntity type ownerId data id now } : Recording).Sound where
  closed := hs.closed
  data j e he := by
    simp only [StateManager.createEntity, Js.Map.get?_set] at he
    split at he
    · obtain rfl := Option.some.inj he
      exact hdata
    · exact hs.data j e he
  values := hs.values
  asRecorded := hs.asRecorded

/-- `addToHistory` does the same to the deltas and to what they read as. -/
lemma map_addToHistory {V W : Type} (f : StateDelta V → StateDelta W)
    {history : Js.Map EntityId (List (StateDelta V))}
    {docs : Js.Map EntityId (List (StateDelta W))} {j : EntityId}
    (hsame : ((history.get? j).getD []).map f = (docs.get? j).getD []) (max : ℕ) (id : EntityId)
    (delta : StateDelta V) :
    (((addToHistory history max id delta).get? j).getD []).map f =
      ((addToHistory docs max id (f delta)).get? j).getD [] := by
  rw [StateManager.get?_addToHistory, StateManager.get?_addToHistory]
  by_cases hj : j = id
  · subst hj
    rw [if_pos rfl, if_pos rfl, ← hsame]
    dsimp only
    simp only [List.length_append, List.length_map, List.length_singleton]
    split
    · rw [List.map_tail, List.map_append, List.map_singleton]
    · rw [List.map_append, List.map_singleton]
  · rw [if_neg hj, if_neg hj]
    exact hsame

/-- What a history holds after `addToHistory`. -/
lemma mem_addToHistory {V : Type} {history : Js.Map EntityId (List (StateDelta V))} {max : ℕ}
    {id j : EntityId} {delta d : StateDelta V}
    (hd : d ∈ ((addToHistory history max id delta).get? j).getD []) :
    d ∈ (history.get? j).getD [] ∨ d = delta := by
  rw [StateManager.get?_addToHistory] at hd
  by_cases hj : j = id
  · subst hj
    rw [if_pos rfl] at hd
    have hmem : d ∈ (history.get? j).getD [] ++ [delta] := by
      dsimp only at hd
      split at hd
      · exact List.mem_of_mem_tail hd
      · exact hd
    simpa using hmem
  · rw [if_neg hj] at hd
    exact .inl hd

/-- One more delta, recorded as it reads. -/
lemma Sound.commit (hs : s.Sound) {id : EntityId} {e : EntityState}
    (hget : s.store.entities.get? id = some e) {operations : List (DeltaOperation Val)}
    (hops : ∀ op ∈ operations, s.store.memory.Allocated op.value) (now : Timestamp) :
    (s.record (s.store.commitUpdate id e operations now s.store.memory)).Sound where
  closed := hs.closed
  data j f hf := by
    simp only [record, StateManager.commitUpdate, Js.Map.get?_set] at hf
    split at hf
    · obtain rfl := Option.some.inj hf
      exact hs.data id e hget
    · exact hs.data j f hf
  values := by
    rintro v ⟨j, d, hd, op, hop, rfl⟩
    obtain hd | rfl := mem_addToHistory hd
    · exact hs.values _ ⟨j, d, hd, op, hop, rfl⟩
    · exact hops op hop
  asRecorded j := map_addToHistory (·.map s.store.memory.doc) (hs.asRecorded j) _ id _

/-- **An update that spares what is recorded leaves it as it was recorded.** -/
lemma Sound.update (hs : s.Sound) {id : EntityId} {operations : List (DeltaOperation Val)}
    (hops : ∀ op ∈ operations, s.store.memory.Allocated op.value) (now : Timestamp)
    (hspared : s.Spared (.updateEntity id operations now)) :
    (s.record (s.store.updateEntity id operations now)).Sound := by
  -- The loop leaves a store like this one over another heap.
  have hloop : ∀ e, s.store.entities.get? id = some e → ∀ h err,
      StateManager.applyOperations e.data operations s.store.memory = (h, err) →
      ({ s with store := { s.store with memory := h } } : Recording).Sound ∧
        s.store.memory.next ≤ h.next := by
    intro e hget h err hrun
    have hdata := hs.data id e hget
    obtain ⟨hclosed, hle⟩ := HeapMemory.closed_applyOperations hs.closed hdata hops
    rw [hrun] at hclosed hle
    refine ⟨hs.memory hclosed hle fun v hv => ?_, hle⟩
    have hsame := HeapMemory.doc_applyOperations hs.closed hdata hops (hspared e hget) hv
      (hs.values v hv)
    rw [hrun] at hsame
    exact hsame
  obtain ⟨-, hcase⟩ | ⟨e, h, err, hget, hrun, hcase⟩ | ⟨e, h, hget, hrun, hcase⟩ :=
    s.store.updateEntity_cases id operations now
  · rw [hcase]
    exact hs
  · rw [hcase]
    exact (hloop e hget h (some err) hrun).1
  · rw [hcase]
    obtain ⟨hsound, hle⟩ := hloop e hget h none hrun
    exact hsound.commit hget (fun op hop => (hops op hop).mono hle) now

lemma Sound.step (hs : s.Sound) {c : Call} (hspared : s.Spared c) : (s.step c).Sound := by
  cases c with
  | make o => exact hs.make o
  | createEntity type ownerId data id generated now =>
    simp only [Recording.step]
    split
    next hdata => exact hs.createEntity type ownerId hdata _ now
    next => exact hs
  | updateEntity id operations now =>
    simp only [Recording.step]
    split
    next hops => exact hs.update hops now hspared
    next => exact hs

/-! ## Whole runs -/

/-- The text of an object with the property `x`. -/
def position : Obj Doc := ⟨none, fun k => if k = "x" then .prim (.num 1) else .prim .absent⟩

/-- An entity is created, an object is set as a property of its data, and the data is updated. -/
def placed (later : DeltaOperation Val) : List Call :=
  [.make .empty, .createEntity "player" "p1" (0, []) (some "e1") "g1" 1, .make position,
    .updateEntity "e1" [⟨.set, "a", .ref (1, [])⟩] 2, .updateEntity "e1" [later] 3]

/-- The store before the last update. -/
def holding : Recording := Machine.run step (start 100) ((placed ⟨.other, "", .prim .null⟩).take 4)

lemma held_holding {v : Val} (hv : v ∈ holding.held) : v = .ref (1, []) := by
  obtain ⟨id, d, hd, op, hop, rfl⟩ := hv
  have hhistory : holding.store.history =
      Js.Map.empty.set "e1" [⟨"e1", 1, 2, [⟨.set, "a", .ref (1, [])⟩], 2⟩] := rfl
  rw [StateManager.getEntityHistory, hhistory, Js.Map.get?_set] at hd
  split at hd
  · obtain rfl := List.mem_singleton.1 hd
    obtain rfl := List.mem_singleton.1 hop
    rfl
  · simp at hd

/-- The object that was set holds primitives only. -/
lemma reach_holding {b : Address} (h : holding.store.memory.Reach (.ref (1, [])) b) :
    b = (1, []) := by
  apply h.eq_of_prims
  intro k
  have hobj : holding.store.memory.obj (1, []) = Heap.textObj 1 (.obj position) [] := rfl
  rw [hobj]
  by_cases hk : k = "x"
  · exact ⟨.num 1, by simp [Heap.textObj, Heap.textVal, position, hk]⟩
  · exact ⟨.absent, by simp [Heap.textObj, Heap.textVal, position, hk]⟩

/-- The value of the first operation in a history, at the property `x`. -/
def firstX : List (StateDelta Doc) → Node
  | ⟨_, _, _, op :: _, _⟩ :: _ => op.value.node ["x"]
  | _ => .prim .absent

end Recording

end SyncEngine
