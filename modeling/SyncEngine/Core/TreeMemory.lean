import SyncEngine.Core.StateManager

/-!
# Memories of trees

JavaScript places the value an operation carries in an entity's data by reference, and the
operation goes on holding it: in the history, in the queue of pending deltas, in the delta that
is being logged.  A later operation that reaches into the placed value changes what the earlier
one holds.

`TreeMemory` says what can be relied on all the same.  Data objects that are made from texts of
their own stay apart, so an operation does to its data object what `applyOperation` does to a
document, and nothing to any other.  And an operation that is performed once goes on holding
the value it came with, as long as no later operation on the same data object reaches into it;
`Spares` is that condition on two operations, and `Unaliased` on a list of them.

`Tracks m T xs` is the bookkeeping.  `T` maps every data object to the operations performed on
it that are still of interest, and `xs` are operations that have been parsed and not yet been
performed; each is recorded with the document it was parsed from.
-/

namespace SyncEngine

open Js

/-! ## Operations that reach into an earlier value -/

/-- The document is an object or an array. -/
def isObject (d : Doc) : Bool :=
  match d.node [] with
  | .obj _ => true
  | .prim _ => false

/-- The deepest object that an operation writes to: the array an append pushes onto, and for
the others the object that holds the last path segment. -/
def DeltaOperation.target (o : DeltaOperation Doc) : List String :=
  if o.op = .append then splitPath o.path else (splitPath o.path).dropLast

/-- `b` filters an array that the path of `a` leads through, which moves its elements. -/
def Shifts (a b : DeltaOperation Doc) : Prop :=
  b.op = .remove ∧ splitPath b.path <+: splitPath a.path ∧ splitPath b.path ≠ splitPath a.path

/-- Operation `b` leaves the value that `a` has placed as it is. -/
def Spares (a b : DeltaOperation Doc) : Prop :=
  isObject a.value = true →
    (a.op = .set → ¬ splitPath a.path <+: b.target ∧ ¬ Shifts a b) ∧
    (a.op = .append →
      ¬ (splitPath a.path <+: b.target ∧ splitPath a.path ≠ b.target) ∧ ¬ Shifts a b)

instance (a b : DeltaOperation Doc) : Decidable (Spares a b) := by
  unfold Spares Shifts
  infer_instance

/-- No operation of the list reaches into a value that an earlier one has placed. -/
def Unaliased (ops : List (DeltaOperation Doc)) : Prop := ops.Pairwise Spares

instance (ops : List (DeltaOperation Doc)) : Decidable (Unaliased ops) := by
  unfold Unaliased
  infer_instance

/-- The loop of `updateEntity` on a document. -/
def applyAll (ops : List (DeltaOperation Doc)) (o : Obj Doc) : Written (Obj Doc) :=
  forEachWrite applyOperation ops o

/-- A loop of steps on a data object held by value. -/
lemma forEachWrite_cells {ι : Type} (step : ι → Obj Doc → Written (Obj Doc)) (r : Ref)
    (is : List ι) (m : Cells) :
    forEachWrite (fun i m => Cells.write (step i) m r) is m =
      Cells.write (forEachWrite step is) m r := by
  induction is generalizing m with
  | nil => simp [forEachWrite, Cells.write]
  | cons i is ih =>
    simp only [forEachWrite, Cells.write] at ih ⊢
    rcases step i (m.cell r) with ⟨o, _ | e⟩
    · simp [ih]
    · rfl

/-- The loop of `updateEntity` on a data object held by value. -/
lemma applyOperations_cells (r : Ref) (ops : List (DeltaOperation Doc)) (m : Cells) :
    StateManager.applyOperations r ops m = Cells.write (applyAll ops) m r :=
  forEachWrite_cells applyOperation r ops m

/-! ## The class -/

/-- Operations as they are held in memory, each with the document it was parsed from. -/
abbrev Record (V : Type) : Type := List (DeltaOperation V × DeltaOperation Doc)

/-- The document operations of a record. -/
def Record.docs {V : Type} (xs : Record V) : List (DeltaOperation Doc) := xs.map Prod.snd

class TreeMemory (M : Type) (V : outParam Type) [Memory M V] where
  Tracks : M → (Ref → Option (Record V)) → Record V → Prop
  tracks_empty : Tracks Memory.empty (fun _ => none) []
  tracks_parse {m : M} {T : Ref → Option (Record V)} {xs : Record V} (h : Tracks m T xs)
    (o : Obj Doc) :
    T (Memory.parse m o).1 = none ∧
      Tracks (Memory.parse m o).2 (Function.update T (Memory.parse m o).1 (some [])) xs ∧
      Memory.read (Memory.parse m o).2 (Memory.parse m o).1 = o ∧
      ∀ r, (T r).isSome → Memory.read (Memory.parse m o).2 r = Memory.read m r
  tracks_parseValue {m : M} {T : Ref → Option (Record V)} {xs : Record V} (h : Tracks m T xs)
    (op : DeltaOperation Doc) :
    Tracks (Memory.parseValue m op.value).2 T
        (xs ++ [(⟨op.op, op.path, (Memory.parseValue m op.value).1⟩, op)]) ∧
      ∀ r, (T r).isSome → Memory.read (Memory.parseValue m op.value).2 r = Memory.read m r
  /-- An operation does to its data object what it does to a document. -/
  tracks_apply {m : M} {T : Ref → Option (Record V)} {x : DeltaOperation V × DeltaOperation Doc}
    {xs : Record V} (h : Tracks m T (x :: xs)) {r : Ref} {done : Record V} (hr : T r = some done) :
    Tracks (Memory.applyOperation m r x.1).1 (Function.update T r (some (done ++ [x]))) xs ∧
      Memory.read (Memory.applyOperation m r x.1).1 r =
        (applyOperation x.2 (Memory.read m r)).1 ∧
      (Memory.applyOperation m r x.1).2 = (applyOperation x.2 (Memory.read m r)).2 ∧
      ∀ q, (T q).isSome → q ≠ r →
        Memory.read (Memory.applyOperation m r x.1).1 q = Memory.read m q
  /-- Data objects and operations that are of no more interest may be forgotten. -/
  tracks_forget {m : M} {T T' : Ref → Option (Record V)} {xs ys : Record V} (h : Tracks m T xs)
    (hT : ∀ r done, T' r = some done → ∃ all, T r = some all ∧ done <:+ all) (hys : ys <:+ xs) :
    Tracks m T' ys
  /-- **Operations that were not reached into hold what they came with.** -/
  tracks_held {m : M} {T : Ref → Option (Record V)} {xs : Record V} (h : Tracks m T xs) {r : Ref}
    {done : Record V} (hr : T r = some done) (hal : Unaliased done.docs) :
    ∀ x ∈ done, x.1.map (Memory.readValue m) = x.2

export TreeMemory (Tracks tracks_empty tracks_parse tracks_parseValue tracks_apply tracks_forget
  tracks_held)

section Laws

variable {M V : Type} [Memory M V] [TreeMemory M V]
  {m : M} {T : Ref → Option (Record V)} {xs : Record V}

/-- What `parseOperations` makes of operations, with their documents. -/
def parsedRecord (m : M) (ops : List (DeltaOperation Doc)) : Record V :=
  (parseOperations m ops).1.zip ops

omit [TreeMemory M V] in
lemma parsedRecord_fst (m : M) (ops : List (DeltaOperation Doc)) :
    (parsedRecord m ops).map Prod.fst = (parseOperations m ops).1 := by
  induction ops generalizing m with
  | nil => rfl
  | cons op ops ih => exact congrArg _ (ih (Memory.parseValue m op.value).2)

omit [TreeMemory M V] in
lemma parsedRecord_docs (m : M) (ops : List (DeltaOperation Doc)) :
    (parsedRecord m ops).docs = ops := by
  induction ops generalizing m with
  | nil => rfl
  | cons op ops ih => exact congrArg _ (ih (Memory.parseValue m op.value).2)

lemma tracks_parseOperations (h : Tracks m T xs) (ops : List (DeltaOperation Doc)) :
    Tracks (parseOperations m ops).2 T (xs ++ parsedRecord m ops) ∧
      ∀ r, (T r).isSome → Memory.read (parseOperations m ops).2 r = Memory.read m r := by
  induction ops generalizing m xs with
  | nil => exact ⟨by simpa [parsedRecord, parseOperations] using h, fun _ _ => rfl⟩
  | cons op ops ih =>
      obtain ⟨htrack, hread⟩ := tracks_parseValue h op
      obtain ⟨htrack', hread'⟩ := ih htrack
      refine ⟨?_, fun r hr => (hread' r hr).trans (hread r hr)⟩
      rw [List.append_assoc] at htrack'
      exact htrack'

/-- **A loop over operations does to its data object what it does to a document.** -/
lemma tracks_applyOperations {ys : Record V} (h : Tracks m T (xs ++ ys)) {r : Ref}
    {done : Record V} (hr : T r = some done) :
    ∃ more, more <+: xs ∧
      Tracks (StateManager.applyOperations r (xs.map Prod.fst) m).1
        (Function.update T r (some (done ++ more))) ys ∧
      ((StateManager.applyOperations r (xs.map Prod.fst) m).2 = none → more = xs) ∧
      Memory.read (StateManager.applyOperations r (xs.map Prod.fst) m).1 r =
        (applyAll xs.docs (Memory.read m r)).1 ∧
      (StateManager.applyOperations r (xs.map Prod.fst) m).2 =
        (applyAll xs.docs (Memory.read m r)).2 ∧
      ∀ q, (T q).isSome → q ≠ r →
        Memory.read (StateManager.applyOperations r (xs.map Prod.fst) m).1 q =
          Memory.read m q := by
  induction xs generalizing m T done with
  | nil =>
      refine ⟨[], List.prefix_rfl, ?_, fun _ => rfl, rfl, rfl, fun _ _ _ => rfl⟩
      rw [List.append_nil, ← hr, Function.update_eq_self]
      exact h
  | cons x xs ih =>
      obtain ⟨htrack, hread, herr, hother⟩ := tracks_apply (by simpa using h) hr
      simp only [StateManager.applyOperations, List.map_cons, forEachWrite, Record.docs, applyAll]
      rcases hw : Memory.applyOperation m r x.1 with ⟨m', _ | e⟩
      · simp only [hw] at htrack hread herr hother
        obtain ⟨more, hpre, htrack', hall, hread', herr', hother'⟩ :=
          ih htrack (Function.update_self r (some (done ++ [x])) T)
        rcases hd : applyOperation x.2 (Memory.read m r) with ⟨o, err⟩
        simp only [hd] at hread herr
        subst herr
        refine ⟨x :: more, List.prefix_cons_inj x |>.mpr hpre, ?_, fun hn => ?_, ?_, ?_, ?_⟩
        · rw [Function.update_idem, List.append_assoc] at htrack'
          exact htrack'
        · rw [hall hn]
        · rw [hread] at hread'
          exact hread'
        · rw [hread] at herr'
          exact herr'
        · intro q hq hne
          refine (hother' q ?_ hne).trans (hother q hq hne)
          rwa [Function.update_of_ne hne]
      · simp only [hw] at htrack hread herr hother
        rcases hd : applyOperation x.2 (Memory.read m r) with ⟨o, err⟩
        simp only [hd] at hread herr
        subst herr
        refine ⟨[x], by simp, ?_, by simp, hread, rfl, hother⟩
        exact tracks_forget htrack (fun r' d' hd' => ⟨d', hd', List.suffix_rfl⟩)
          (List.suffix_append xs ys)

end Laws

/-! ## Data objects held by value -/

/-- The values that `Cells` holds are documents, which nothing reaches into. -/
instance : TreeMemory Cells Doc where
  Tracks m T xs :=
    (∀ r done, T r = some done → r.1 < m.next ∧ ∀ x ∈ done, x.1 = x.2) ∧ ∀ x ∈ xs, x.1 = x.2
  tracks_empty := by simp
  tracks_parse := by
    rintro m T xs ⟨hT, hxs⟩ o
    have hfresh : ∀ r, (T r).isSome → r ≠ (m.next, []) := by
      rintro r hr rfl
      obtain ⟨done, hdone⟩ := Option.isSome_iff_exists.mp hr
      exact lt_irrefl _ (hT _ done hdone).1
    refine ⟨?_, ⟨?_, hxs⟩, ?_, ?_⟩
    · by_contra hne
      exact hfresh _ (Option.ne_none_iff_isSome.mp hne) rfl
    · intro r done hr
      by_cases hrn : r = (m.next, [])
      · subst hrn
        rw [show (Memory.parse m o).1 = (m.next, []) from rfl, Function.update_self] at hr
        cases hr
        exact ⟨Nat.lt_succ_self _, by simp⟩
      · rw [show (Memory.parse m o).1 = (m.next, []) from rfl, Function.update_of_ne hrn] at hr
        exact ⟨(hT r done hr).1.trans (Nat.lt_succ_self _), (hT r done hr).2⟩
    · simp [Memory.parse, Memory.read, Cells.parse]
    · intro r hr
      simp [Memory.parse, Memory.read, Cells.parse, hfresh r hr]
  tracks_parseValue := by
    rintro m T xs ⟨hT, hxs⟩ op
    refine ⟨⟨hT, ?_⟩, fun _ _ => rfl⟩
    intro x hx
    rcases List.mem_append.mp hx with hx | hx
    · exact hxs x hx
    · rw [List.mem_singleton.mp hx]
      rfl
  tracks_apply := by
    rintro m T x xs ⟨hT, hxs⟩ r done hr
    have hx : x.1 = x.2 := hxs x (by simp)
    refine ⟨⟨?_, fun y hy => hxs y (by simp [hy])⟩, ?_, ?_, ?_⟩
    · intro q done' hq
      by_cases hqr : q = r
      · subst hqr
        rw [Function.update_self] at hq
        cases hq
        refine ⟨(hT q done hr).1, fun y hy => ?_⟩
        rcases List.mem_append.mp hy with hy | hy
        · exact (hT q done hr).2 y hy
        · rw [List.mem_singleton.mp hy]
          exact hx
      · rw [Function.update_of_ne hqr] at hq
        exact hT q done' hq
    · simp [Memory.applyOperation, Memory.read, hx]
    · simp [Memory.applyOperation, Memory.read, hx]
    · intro q _ hqr
      simp [Memory.applyOperation, Memory.read, hqr]
  tracks_forget := by
    rintro m T T' xs ys ⟨hT, hxs⟩ hT' hys
    refine ⟨fun r done hr => ?_, fun x hx => hxs x (hys.subset hx)⟩
    obtain ⟨all, hall, hsuffix⟩ := hT' r done hr
    exact ⟨(hT r all hall).1, fun x hx => (hT r all hall).2 x (hsuffix.subset hx)⟩
  tracks_held := by
    rintro m T xs ⟨hT, -⟩ r done hr - x hx
    exact (hT r done hr).2 x hx

/-! ## Stores over memories of trees -/

namespace StateManager

variable {M V : Type} [Memory M V] [TreeMemory M V]

/-- Every entity has a data object of its own, and the memory keeps track of it. -/
structure Holds (σ : StateManager M V) (T : Ref → Option (Record V)) : Prop where
  tracks : Tracks σ.memory T []
  tracked : ∀ id e, σ.entities.get? id = some e → (T e.data).isSome
  own : ∀ id e j f, σ.entities.get? id = some e → σ.entities.get? j = some f →
    e.data = f.data → id = j

lemma holds_new (n : ℕ) : (new Memory.empty n : StateManager M V).Holds fun _ => none where
  tracks := tracks_empty
  tracked := by simp [new]
  own := by simp [new]

variable {σ : StateManager M V} {T : Ref → Option (Record V)}

omit [TreeMemory M V] in
lemma data_eq_some {id : EntityId} {e : EntityState} (h : σ.entities.get? id = some e) :
    σ.data id = some (Memory.read σ.memory e.data) := by
  rw [data, h]
  rfl

/-- Stores with one entity map, in memories that read the same. -/
lemma Holds.data_of_read {τ : StateManager M V} (h : σ.Holds T) (hent : τ.entities = σ.entities)
    (hread : ∀ r, (T r).isSome → Memory.read τ.memory r = Memory.read σ.memory r) (j : EntityId) :
    τ.data j = σ.data j := by
  unfold data
  rw [hent]
  cases hj : σ.entities.get? j with
  | none => rfl
  | some f => simp [hread f.data (h.tracked j f hj)]

/-- **A new entity holds the data of its text**, and the others keep theirs. -/
lemma Holds.receiveEntity (h : σ.Holds T) (type ownerId : String) (o : Obj Doc) (id : EntityId)
    (now : Timestamp) :
    (σ.receiveEntity type ownerId o id now).Holds
        (Function.update T (Memory.parse σ.memory o).1 (some [])) ∧
      ∀ j, (σ.receiveEntity type ownerId o id now).data j =
        if j = id then some o else σ.data j := by
  obtain ⟨hnew, htrack, hread, hother⟩ := tracks_parse h.tracks o
  have hne : ∀ j f, σ.entities.get? j = some f → f.data ≠ (Memory.parse σ.memory o).1 := by
    intro j f hj heq
    have := h.tracked j f hj
    rw [heq, hnew] at this
    cases this
  refine ⟨⟨htrack, ?_, ?_⟩, ?_⟩
  · intro j f hj
    simp only [StateManager.receiveEntity, createEntity, Js.Map.get?_set] at hj
    split at hj
    · cases hj
      simp
    · rw [Function.update_of_ne (hne j f hj)]
      exact h.tracked j f hj
  · intro i e j f hi hj hef
    simp only [StateManager.receiveEntity, createEntity, Js.Map.get?_set] at hi hj
    split at hi <;> split at hj
    · simp_all
    · cases hi
      exact absurd hef.symm (hne j f hj)
    · cases hj
      exact absurd hef (hne i e hi)
    · exact h.own i e j f hi hj hef
  · intro j
    simp only [data, StateManager.receiveEntity, createEntity, Js.Map.get?_set]
    split
    · simp [hread]
    · cases hj : σ.entities.get? j with
      | none => rfl
      | some f => simp [hother f.data (h.tracked j f hj)]

omit [TreeMemory M V] in
lemma receiveUpdate_of_none {id : EntityId} (hget : σ.entities.get? id = none)
    (ops : List (DeltaOperation Doc)) (now : Timestamp) :
    σ.receiveUpdate id ops now =
      ({ σ with memory := (parseOperations σ.memory ops).2 }, .notFound) := by
  simp [receiveUpdate, updateEntity, hget]

/-- An update of no entity changes no data. -/
lemma Holds.receiveUpdate_none (h : σ.Holds T) {id : EntityId}
    (hget : σ.entities.get? id = none) (ops : List (DeltaOperation Doc)) (now : Timestamp) :
    (σ.receiveUpdate id ops now).1.Holds T ∧
      ∀ j, (σ.receiveUpdate id ops now).1.data j = σ.data j := by
  obtain ⟨htrack, hread⟩ := tracks_parseOperations h.tracks ops
  rw [receiveUpdate_of_none hget]
  exact ⟨⟨tracks_forget htrack (fun r d hd => ⟨d, hd, List.suffix_rfl⟩) List.nil_suffix,
    h.tracked, h.own⟩, h.data_of_read rfl hread⟩

/-- The store keeps its entities apart when one data object has been written to. -/
lemma Holds.written (h : σ.Holds T) {e : EntityState} {m : M} {done : Record V}
    (htrack : Tracks m (Function.update T e.data (some done)) []) :
    ({ σ with memory := m } : StateManager M V).Holds (Function.update T e.data (some done)) := by
  refine ⟨htrack, fun j f hj => ?_, h.own⟩
  by_cases hf : f.data = e.data
  · rw [hf, Function.update_self]; rfl
  · rw [Function.update_of_ne hf]
    exact h.tracked j f hj

lemma Holds.commitUpdate (h : σ.Holds T) {id : EntityId} {e : EntityState}
    (hget : σ.entities.get? id = some e) (ops : List (DeltaOperation V)) (now : Timestamp) {m : M}
    {done : Record V} (htrack : Tracks m (Function.update T e.data (some done)) []) :
    (σ.commitUpdate id e ops now m).1.Holds (Function.update T e.data (some done)) := by
  refine ⟨htrack, fun j f hj => ?_, fun i f j g hi hj hfg => ?_⟩
  · simp only [StateManager.commitUpdate, Js.Map.get?_set] at hj
    split at hj
    · cases hj
      simp
    · exact (h.written htrack).tracked j f hj
  · simp only [StateManager.commitUpdate, Js.Map.get?_set] at hi hj
    split at hi <;> split at hj
    · simp_all
    · cases hi
      simp_all [h.own id e j g hget hj hfg]
    · cases hj
      simp_all [h.own i f id e hi hget hfg]
    · exact h.own i f j g hi hj hfg

/-- The data of a store in which one data object has been written to. -/
lemma Holds.data_written (h : σ.Holds T) {id : EntityId} {e : EntityState}
    (hget : σ.entities.get? id = some e) {τ : StateManager M V} {o : Obj Doc}
    (hread : Memory.read τ.memory e.data = o)
    (hother : ∀ q, (T q).isSome → q ≠ e.data →
      Memory.read τ.memory q = Memory.read σ.memory q)
    (hent : ∀ j, (τ.entities.get? j).map EntityState.data =
      (σ.entities.get? j).map EntityState.data) (j : EntityId) :
    τ.data j = if j = id then some o else σ.data j := by
  have hj := hent j
  unfold data
  split
  next hid =>
    subst hid
    rw [hget] at hj
    obtain ⟨f, hf, hfd⟩ := Option.map_eq_some_iff.mp hj
    rw [hf, Option.map_some, hfd, hread]
  next hid =>
    cases hσ : σ.entities.get? j with
    | none =>
        rw [hσ, Option.map_none, Option.map_eq_none_iff] at hj
        rw [hj]; rfl
    | some f =>
        rw [hσ] at hj
        obtain ⟨g, hg, hgd⟩ := Option.map_eq_some_iff.mp hj
        have hne : f.data ≠ e.data := fun hfe => hid (h.own j f id e hσ hget hfe)
        rw [hg, Option.map_some, Option.map_some, hgd, hother f.data (h.tracked j f hσ) hne]

omit [Memory M V] [TreeMemory M V] in
lemma map_data_commitUpdate {id : EntityId} {e : EntityState}
    (hget : σ.entities.get? id = some e) (ops : List (DeltaOperation V)) (now : Timestamp) (m : M)
    (j : EntityId) :
    ((σ.commitUpdate id e ops now m).1.entities.get? j).map EntityState.data =
      (σ.entities.get? j).map EntityState.data := by
  simp only [StateManager.commitUpdate, Js.Map.get?_set]
  split
  next hj => rw [hj, hget]; rfl
  next => rfl

/-- **An update does to its entity's data what its operations do to a document**, and nothing to
any other entity's; it throws exactly when they do. -/
lemma Holds.receiveUpdate (h : σ.Holds T) {id : EntityId} {e : EntityState} {done : Record V}
    (hget : σ.entities.get? id = some e) (hdone : T e.data = some done)
    (ops : List (DeltaOperation Doc)) (now : Timestamp) :
    ∃ more, more <+: parsedRecord σ.memory ops ∧
      ((applyAll ops (Memory.read σ.memory e.data)).2 = none → more = parsedRecord σ.memory ops) ∧
      (σ.receiveUpdate id ops now).1.Holds (Function.update T e.data (some (done ++ more))) ∧
      (∀ j, (σ.receiveUpdate id ops now).1.data j =
        if j = id then some (applyAll ops (Memory.read σ.memory e.data)).1 else σ.data j) ∧
      (σ.receiveUpdate id ops now).2 =
        match (applyAll ops (Memory.read σ.memory e.data)).2 with
        | none => .updated ⟨id, e.version, e.version + 1, (parseOperations σ.memory ops).1, now⟩
        | some err => .threw err := by
  obtain ⟨htrack, hkeep⟩ := tracks_parseOperations h.tracks ops
  rw [List.nil_append, ← List.append_nil (parsedRecord σ.memory ops)] at htrack
  obtain ⟨more, hpre, htrack', hall, hread, herr, hother⟩ := tracks_applyOperations htrack hdone
  rw [parsedRecord_fst, parsedRecord_docs, hkeep e.data (h.tracked id e hget)] at *
  have hothers : ∀ q, (T q).isSome → q ≠ e.data →
      Memory.read (applyOperations e.data (parseOperations σ.memory ops).1
        (parseOperations σ.memory ops).2).1 q = Memory.read σ.memory q := fun q hq hne =>
    (hother q hq hne).trans (hkeep q hq)
  have hupd : σ.receiveUpdate id ops now =
      { σ with memory := (parseOperations σ.memory ops).2 }.finishUpdate id e
        (parseOperations σ.memory ops).1 now
          (applyOperations e.data (parseOperations σ.memory ops).1
          (parseOperations σ.memory ops).2) := by
    simp only [StateManager.receiveUpdate, updateEntity, hget]
  refine ⟨more, hpre, fun hn => hall (herr.trans hn), ?_⟩
  rcases hw : applyOperations e.data (parseOperations σ.memory ops).1
    (parseOperations σ.memory ops).2 with ⟨m', _ | err⟩
  · rw [hw] at hupd htrack' hread herr hothers
    have hcommit : σ.receiveUpdate id ops now =
        σ.commitUpdate id e (parseOperations σ.memory ops).1 now m' := hupd
    rw [hcommit, ← herr]
    exact ⟨h.commitUpdate hget _ now htrack',
      h.data_written hget hread hothers (map_data_commitUpdate hget _ now m'), rfl⟩
  · rw [hw] at hupd htrack' hread herr hothers
    have hthrow : σ.receiveUpdate id ops now = ({ σ with memory := m' }, .threw err) := hupd
    rw [hthrow, ← herr]
    exact ⟨h.written htrack', h.data_written hget hread hothers (fun _ => rfl), rfl⟩

omit [TreeMemory M V] in
lemma data_deleteEntity (id j : EntityId) :
    (σ.deleteEntity id).data j = if j = id then none else σ.data j := by
  unfold deleteEntity data
  split
  next hnone =>
    split
    next hj => rw [hj, hnone]; rfl
    next => rfl
  next =>
    rw [Js.Map.get?_delete]
    split <;> rfl

lemma Holds.deleteEntity (h : σ.Holds T) (id : EntityId) : (σ.deleteEntity id).Holds T := by
  unfold StateManager.deleteEntity
  split
  · exact h
  · refine ⟨h.tracks, ?_, ?_⟩
    · intro j f hj
      rw [Js.Map.get?_delete] at hj
      split at hj
      · cases hj
      · exact h.tracked j f hj
    · intro i e j f hi hj hef
      rw [Js.Map.get?_delete] at hi hj
      split at hi
      · cases hi
      · split at hj
        · cases hj
        · exact h.own i e j f hi hj hef

/-- The records parsed from a snapshot have data objects of their own, which read as the text. -/
lemma tracks_parseEntities {m : M} {xs : Record V} (h : Tracks m T xs)
    (es : List (EntityId × EntityDoc)) :
    ∃ T' : Ref → Option (Record V), Tracks (parseEntities m es).2 T' xs ∧
      (∀ r, (T r).isSome →
        T' r = T r ∧ Memory.read (parseEntities m es).2 r = Memory.read m r) ∧
      (∀ p ∈ (parseEntities m es).1, T p.2.data = none ∧ T' p.2.data = some []) ∧
      ((parseEntities m es).1.map fun p => p.2.data).Nodup ∧
      ∀ id, (Js.Map.find id (parseEntities m es).1).map (toDoc (parseEntities m es).2) =
        Js.Map.find id es := by
  induction es generalizing m T with
  | nil => exact ⟨T, h, fun r _ => ⟨rfl, rfl⟩, by simp [parseEntities], by simp [parseEntities],
      fun _ => rfl⟩
  | cons e es ih =>
      obtain ⟨i, d⟩ := e
      obtain ⟨hnew, htrack, hread, hother⟩ := tracks_parse h d.data
      obtain ⟨T', htrack', hkept, hfresh, hnodup, hfind⟩ := ih htrack
      have hself := hkept (Memory.parse m d.data).1 (by simp)
      have hne : ∀ r, (T r).isSome → r ≠ (Memory.parse m d.data).1 := by
        rintro r hr rfl
        rw [hnew] at hr
        cases hr
      refine ⟨T', htrack', fun r hr => ?_, ?_, ?_, fun j => ?_⟩
      · have hr' := hkept r (by rw [Function.update_of_ne (hne r hr)]; exact hr)
        rw [Function.update_of_ne (hne r hr)] at hr'
        exact ⟨hr'.1, hr'.2.trans (hother r hr)⟩
      · intro p hp
        rcases List.mem_cons.mp hp with rfl | hp
        · exact ⟨hnew, hself.1.trans (Function.update_self _ _ _)⟩
        · obtain ⟨hnone, hsome⟩ := hfresh p hp
          rw [Function.update_apply] at hnone
          split at hnone
          · cases hnone
          · exact ⟨hnone, hsome⟩
      · refine List.nodup_cons.mpr ⟨fun hmem => ?_, hnodup⟩
        obtain ⟨p, hp, hpd⟩ := List.mem_map.mp hmem
        have hnone := (hfresh p hp).1
        have hpd' : p.2.data = (Memory.parse m d.data).1 := hpd
        rw [hpd', Function.update_self] at hnone
        cases hnone
      · by_cases hj : i = j
        · have hdata := hself.2.trans hread
          simp [parseEntities, Js.Map.find, hj, toDoc, hdata]
        · simpa [parseEntities, Js.Map.find, hj] using hfind j

/-- **A store loaded from a snapshot holds what the snapshot holds.** -/
lemma Holds.receiveSnapshot (h : σ.Holds T) (entities : Js.Map EntityId EntityDoc)
    (version : ℕ) :
    ∃ T', (σ.receiveSnapshot entities version).Holds T' ∧
      (∀ id e, (σ.receiveSnapshot entities version).entities.get? id = some e →
        T' e.data = some []) ∧
      ∀ id, (σ.receiveSnapshot entities version).view id = entities.get? id := by
  obtain ⟨T', htrack, -, hfresh, hnodup, hfind⟩ := tracks_parseEntities h.tracks entities.entries
  have hmem : ∀ id e, (σ.receiveSnapshot entities version).entities.get? id = some e →
      (id, e) ∈ (parseEntities σ.memory entities.entries).1 := by
    intro id e hget
    rw [get?_receiveSnapshot] at hget
    exact Js.Map.mem_of_find_eq_some hget
  refine ⟨T', ⟨htrack, fun id e hget => ?_, ?_⟩, fun id e hget => (hfresh _ (hmem id e hget)).2,
    fun id => ?_⟩
  · rw [(hfresh _ (hmem id e hget)).2]
    rfl
  · intro i e j f hi hj hef
    have := List.inj_on_of_nodup_map hnodup (hmem i e hi) (hmem j f hj) hef
    exact congrArg Prod.fst this
  · have hid := hfind id
    rw [← get?_receiveSnapshot σ entities version] at hid
    exact hid

/-- What is performed on an entity's data may be forgotten. -/
lemma Holds.forget (h : σ.Holds T) {T' : Ref → Option (Record V)}
    (hT : ∀ r done, T' r = some done → ∃ all, T r = some all ∧ done <:+ all)
    (hent : ∀ id e, σ.entities.get? id = some e → (T' e.data).isSome) : σ.Holds T' :=
  ⟨tracks_forget h.tracks hT List.suffix_rfl, hent, h.own⟩

/-- The operations recorded for one data object can be forgotten. -/
lemma Holds.forget_at (h : σ.Holds T) {id : EntityId} {e : EntityState}
    (hget : σ.entities.get? id = some e) : σ.Holds (Function.update T e.data (some [])) := by
  obtain ⟨all, hall⟩ := Option.isSome_iff_exists.mp (h.tracked id e hget)
  refine h.forget (fun r done hr => ?_) fun j f hj => ?_
  · by_cases hrd : r = e.data
    · subst hrd
      rw [Function.update_self, Option.some.injEq] at hr
      exact ⟨all, hall, hr ▸ List.nil_suffix⟩
    · rw [Function.update_of_ne hrd] at hr
      exact ⟨done, hr, List.suffix_rfl⟩
  · by_cases hfd : f.data = e.data
    · rw [hfd, Function.update_self]
      rfl
    · rw [Function.update_of_ne hfd]
      exact h.tracked j f hj

omit [TreeMemory M V] in
lemma data_eq_view (id : EntityId) : σ.data id = (σ.view id).map EntityDoc.data := by
  unfold data view
  cases σ.entities.get? id <;> rfl

end StateManager

end SyncEngine
