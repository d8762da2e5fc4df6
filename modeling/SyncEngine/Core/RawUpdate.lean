import SyncEngine.Core.TreeMemory

/-!
# Operations as clients send them

The REST route and the WebSocket message check that `operations` is an array, and nothing about
its elements: an element can be `null`, a number, or an object with any fields.  The first line
of `applyOperation` throws on an element whose `path` is not a string, and the switch throws on
some values; the loop of `updateEntity` then stops where it is.

What the loop wrote before stays written.  The version, the time, the history and the store
version are only touched after the loop, so an update that throws leaves them alone; whether it
leaves the data alone is a question about the documents, and `receiveElements_atomic_iff`
answers it.
-/

namespace SyncEngine

open Js

variable {M V : Type} [Memory M V]

/-- The operations that `JSON.parse` makes of the elements of an array; an element that cannot be
read as an operation is recorded with the exception that reading it throws. -/
def parseElements (m : M) : List Doc → List (Except JsError (DeltaOperation V)) × M
  | [] => ([], m)
  | element :: elements =>
    match DeltaOperation.ofElement element with
    | .error e =>
      let (rest, m') := parseElements m elements
      (.error e :: rest, m')
    | .ok op =>
      let (value, m') := Memory.parseValue m op.value
      let (rest, m'') := parseElements m' elements
      (.ok ⟨op.op, op.path, value⟩ :: rest, m'')

/-- `applyOperation` on an element of any shape. -/
def applyParsed (data : Ref) : Except JsError (DeltaOperation V) → M → Written M
  | .error e, m => (m, some e)
  | .ok op, m => Memory.applyOperation m data op

/-- The loop of `updateEntity` over elements of any shape, on a document. -/
def applyElements (elements : List Doc) (o : Obj Doc) : Written (Obj Doc) :=
  forEachWrite applyElement elements o

namespace StateManager

/-- `updateEntity` on an array of elements of any shape, read from a text. -/
def receiveElements (σ : StateManager M V) (id : EntityId) (elements : List Doc)
    (now : Timestamp) : StateManager M V × UpdateResult V :=
  let (parsed, m) := parseElements σ.memory elements
  match σ.entities.get? id with
  | none => ({ σ with memory := m }, .notFound)
  | some entity =>
    { σ with memory := m }.finishUpdate id entity (parsed.filterMap Except.toOption) now
      (forEachWrite (applyParsed entity.data) parsed m)

/-- The stores a process can come to hold. -/
inductive Reachable : StateManager M V → Prop
  | new (n : ℕ) : Reachable (.new Memory.empty n)
  | createEntity {σ : StateManager M V} (h : Reachable σ) (type ownerId : String)
      (data : Obj Doc) (id : EntityId) (now : Timestamp) :
      Reachable (σ.receiveEntity type ownerId data id now)
  | updateEntity {σ : StateManager M V} (h : Reachable σ) (id : EntityId)
      (elements : List Doc) (now : Timestamp) : Reachable (σ.receiveElements id elements now).1
  | deleteEntity {σ : StateManager M V} (h : Reachable σ) (id : EntityId) :
      Reachable (σ.deleteEntity id)
  | createSnapshot {σ : StateManager M V} (h : Reachable σ) (now : Timestamp) :
      Reachable (σ.createSnapshot now).1
  | loadSnapshot {σ : StateManager M V} (h : Reachable σ)
      (entities : Js.Map EntityId EntityDoc) (version : ℕ) :
      Reachable (σ.receiveSnapshot entities version)

/-- The cache of a store that a process can come to hold. -/
lemma Reachable.cacheChecked {σ : StateManager M V} (h : σ.Reachable) : σ.CacheChecked := by
  induction h with
  | new n => exact cacheChecked_of_none rfl
  | createEntity _ type ownerId data id now => exact cacheChecked_of_none rfl
  | @updateEntity σ _ id elements now ih =>
    cases hget : σ.entities.get? id with
    | none =>
      simp only [receiveElements, hget]
      exact ih
    | some entity =>
      simp only [receiveElements, hget]
      rcases forEachWrite (applyParsed entity.data) (parseElements σ.memory elements).1
        (parseElements σ.memory elements).2 with ⟨m, _ | e⟩
      · exact cacheChecked_of_none rfl
      · exact ih
  | @deleteEntity σ _ id ih =>
    unfold StateManager.deleteEntity
    split
    · exact ih
    · exact cacheChecked_of_none rfl
  | @createSnapshot σ _ now ih =>
    rw [createSnapshot_fst]
    intro c hc _
    obtain rfl := Option.some.inj hc
    exact ih.createSnapshot now
  | loadSnapshot _ entities version => exact cacheChecked_of_none rfl

/-- Nothing about the entity has changed, and neither has the store version. -/
structure Unchanged (σ τ : StateManager M V) (id : EntityId) : Prop where
  data : τ.data id = σ.data id
  entity : τ.entities.get? id = σ.entities.get? id
  history : τ.getEntityHistory id = σ.getEntityHistory id
  version : τ.version = σ.version

end StateManager

/-! ## The loop on elements -/

/-- How the parsed elements, the elements and the record of the operations among them go
together. -/
inductive Parsed : List (Except JsError (DeltaOperation V)) → List Doc → Record V → Prop
  | nil : Parsed [] [] []
  | error {parsed : List (Except JsError (DeltaOperation V))} {element : Doc}
      {elements : List Doc} {xs : Record V} {e : JsError}
      (he : DeltaOperation.ofElement element = .error e) (h : Parsed parsed elements xs) :
      Parsed (.error e :: parsed) (element :: elements) xs
  | ok {parsed : List (Except JsError (DeltaOperation V))} {element : Doc}
      {elements : List Doc} {xs : Record V} {x : DeltaOperation V × DeltaOperation Doc}
      (hx : DeltaOperation.ofElement element = .ok x.2) (h : Parsed parsed elements xs) :
      Parsed (.ok x.1 :: parsed) (element :: elements) (x :: xs)

section Loop

variable [TreeMemory M V] {m : M} {T : Ref → Option (Record V)} {xs : Record V}

lemma tracks_parseElements (h : Tracks m T xs) (elements : List Doc) :
    ∃ ys, Parsed (parseElements m elements).1 elements ys ∧
      Tracks (parseElements m elements).2 T (xs ++ ys) ∧
      ∀ r, (T r).isSome → Memory.read (parseElements m elements).2 r = Memory.read m r := by
  induction elements generalizing m xs with
  | nil => exact ⟨[], .nil, by simpa [parseElements] using h, fun _ _ => rfl⟩
  | cons element elements ih =>
      simp only [parseElements]
      cases hop : DeltaOperation.ofElement element with
      | error e =>
          obtain ⟨ys, hparsed, htrack, hread⟩ := ih h
          exact ⟨ys, .error hop hparsed, htrack, hread⟩
      | ok op =>
          obtain ⟨htrack, hread⟩ := tracks_parseValue h op
          obtain ⟨ys, hparsed, htrack', hread'⟩ := ih htrack
          rw [List.append_assoc] at htrack'
          exact ⟨_, .ok (x := (_, op)) hop hparsed, htrack', fun r hr =>
            (hread' r hr).trans (hread r hr)⟩

/-- **The loop does to the data object what it does to a document**, exceptions included. -/
lemma Parsed.tracks_apply {parsed : List (Except JsError (DeltaOperation V))}
    {elements : List Doc} (hp : Parsed parsed elements xs) (h : Tracks m T xs) {r : Ref}
    {done : Record V} (hr : T r = some done) :
    ∃ done', Tracks (forEachWrite (applyParsed r) parsed m).1
        (Function.update T r (some done')) [] ∧
      Memory.read (forEachWrite (applyParsed r) parsed m).1 r =
        (applyElements elements (Memory.read m r)).1 ∧
      (forEachWrite (applyParsed r) parsed m).2 = (applyElements elements (Memory.read m r)).2 ∧
      ∀ q, (T q).isSome → q ≠ r →
        Memory.read (forEachWrite (applyParsed r) parsed m).1 q = Memory.read m q := by
  induction hp generalizing m T done with
  | nil =>
      refine ⟨done, ?_, rfl, rfl, fun _ _ _ => rfl⟩
      rw [← hr, Function.update_eq_self]
      exact h
  | @error parsed element elements xs e he hp ih =>
      refine ⟨done, ?_, ?_, ?_, fun _ _ _ => rfl⟩
      · rw [← hr, Function.update_eq_self]
        exact tracks_forget h (fun r d hd => ⟨d, hd, List.suffix_rfl⟩) List.nil_suffix
      · simp [applyElements, forEachWrite, applyParsed, applyElement, he]
      · simp [applyElements, forEachWrite, applyParsed, applyElement, he]
  | @ok parsed element elements xs x hx hp ih =>
      obtain ⟨htrack, hread, herr, hother⟩ := TreeMemory.tracks_apply h hr
      have hdoc : applyElement element (Memory.read m r) =
          applyOperation x.2 (Memory.read m r) := by
        rw [applyElement, hx]
      simp only [applyElements, forEachWrite, applyParsed, hdoc]
      rcases hw : Memory.applyOperation m r x.1 with ⟨m', _ | e⟩ <;>
        rcases hd : applyOperation x.2 (Memory.read m r) with ⟨o, err⟩ <;>
        simp only [hw, hd] at htrack hread herr hother <;> subst herr
      · obtain ⟨done', htrack', hread', herr', hother'⟩ :=
          ih htrack (Function.update_self r (some (done ++ [x])) T)
        rw [hread] at hread' herr'
        refine ⟨done', ?_, hread', herr', fun q hq hne => ?_⟩
        · rwa [Function.update_idem] at htrack'
        · refine (hother' q ?_ hne).trans (hother q hq hne)
          rwa [Function.update_of_ne hne]
      · exact ⟨_, tracks_forget htrack (fun r d hd => ⟨d, hd, List.suffix_rfl⟩) List.nil_suffix,
          hread, rfl, hother⟩

end Loop

/-! ## Whole updates -/

namespace StateManager

variable [TreeMemory M V] {σ : StateManager M V} {T : Ref → Option (Record V)}

/-- **What an update of an entity can do**: it commits what its loop left, or throws and leaves
everything but the data. -/
lemma Holds.receiveElements_cases (h : σ.Holds T) {id : EntityId} {e : EntityState}
    (hget : σ.entities.get? id = some e) (elements : List Doc) (now : Timestamp) :
    ∃ m done, Tracks m (Function.update T e.data (some done)) [] ∧
      Memory.read m e.data = (applyElements elements (Memory.read σ.memory e.data)).1 ∧
      ((applyElements elements (Memory.read σ.memory e.data)).2 = none ∧
          (∃ ops, σ.receiveElements id elements now = σ.commitUpdate id e ops now m) ∨
        ∃ err, (applyElements elements (Memory.read σ.memory e.data)).2 = some err ∧
          σ.receiveElements id elements now = ({ σ with memory := m }, .threw err)) := by
  obtain ⟨all, hall⟩ := Option.isSome_iff_exists.mp (h.tracked id e hget)
  obtain ⟨ys, hparsed, htrack, hkeep⟩ := tracks_parseElements h.tracks elements
  obtain ⟨done, htrack', hread, herr, -⟩ := hparsed.tracks_apply htrack hall
  rw [hkeep e.data (h.tracked id e hget)] at hread herr
  refine ⟨_, done, htrack', hread, ?_⟩
  simp only [receiveElements, hget, ← herr]
  rcases forEachWrite (applyParsed e.data) (parseElements σ.memory elements).1
    (parseElements σ.memory elements).2 with ⟨m, _ | err⟩
  · exact .inl ⟨rfl, _, rfl⟩
  · exact .inr ⟨err, rfl, rfl⟩

lemma Holds.receiveElements (h : σ.Holds T) (id : EntityId) (elements : List Doc)
    (now : Timestamp) : ∃ T', (σ.receiveElements id elements now).1.Holds T' := by
  cases hget : σ.entities.get? id with
  | none =>
      obtain ⟨ys, -, htrack, -⟩ := tracks_parseElements h.tracks elements
      refine ⟨T, ?_⟩
      simp only [StateManager.receiveElements, hget]
      exact ⟨tracks_forget htrack (fun r d hd => ⟨d, hd, List.suffix_rfl⟩) List.nil_suffix,
        h.tracked, h.own⟩
  | some e =>
      obtain ⟨m, done, htrack, -, ⟨-, ops, hcommit⟩ | ⟨err, -, hthrow⟩⟩ :=
        h.receiveElements_cases hget elements now
      · rw [hcommit]
        exact ⟨_, h.commitUpdate hget ops now htrack⟩
      · rw [hthrow]
        exact ⟨_, h.written htrack⟩

/-- Every store a process can come to hold keeps its entities apart. -/
lemma Reachable.holds (h : σ.Reachable) : ∃ T, σ.Holds T := by
  induction h with
  | new n => exact ⟨_, holds_new n⟩
  | createEntity _ type ownerId data id now ih =>
      obtain ⟨T, hT⟩ := ih
      exact ⟨_, (hT.receiveEntity type ownerId data id now).1⟩
  | updateEntity _ id elements now ih =>
      obtain ⟨T, hT⟩ := ih
      exact hT.receiveElements id elements now
  | deleteEntity _ id ih =>
      obtain ⟨T, hT⟩ := ih
      exact ⟨T, hT.deleteEntity id⟩
  | createSnapshot _ now ih =>
      obtain ⟨T, hT⟩ := ih
      rw [createSnapshot_fst]
      exact ⟨T, hT.tracks, hT.tracked, hT.own⟩
  | loadSnapshot _ entities version ih =>
      obtain ⟨T, hT⟩ := ih
      obtain ⟨T', hT', -⟩ := hT.receiveSnapshot entities version
      exact ⟨T', hT'⟩

end StateManager

end SyncEngine
