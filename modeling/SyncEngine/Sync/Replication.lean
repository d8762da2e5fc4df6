import SyncEngine.Sync.Lag
import SyncEngine.Sync.OwnUpdates

/-!
# One-way replication

A node publishes what its synchronizer has queued, a transport delivers every message to another
node once and in order, and that node hands it to its handler.  Do the two stores hold the same
once nothing is queued and nothing is on its way?

The synchronizer listens to updates only, so a new entity is never published, and neither is a
deletion.  `Carries` is the condition on a call under which nothing is lost: no entity is created or
deleted, an update does not throw and its operations survive the text and reach into no value that
is still queued, and what a flush compresses may be compressed.  `replicates` says that in a run of
such calls the other node catches up.

What a node is to another one is its `standing`: the version and the data of every entity.  `Takes`
is what a delta does to it where the handler finds no conflict.
-/

namespace SyncEngine

open Js DeltaCompressor StateManager

section Standing

variable {M V : Type} [Memory M V]

/-- The version and the data of every entity. -/
abbrev Standing : Type := EntityId → Option (ℕ × Obj Doc)

def StateManager.standing (σ : StateManager M V) : Standing := fun id =>
  Option.map₂ Prod.mk ((σ.entities.get? id).map EntityState.version) (σ.data id)

lemma StateManager.standing_eq {σ : StateManager M V} {id : EntityId} {e : EntityState}
    {o : Obj Doc} (h : σ.entities.get? id = some e) (ho : σ.data id = some o) :
    σ.standing id = some (e.version, o) := by
  rw [standing, h, ho]
  rfl

lemma StateManager.data_eq_standing (σ : StateManager M V) (id : EntityId) :
    σ.data id = (σ.standing id).map Prod.snd := by
  unfold data standing
  cases h : σ.entities.get? id with
  | none => rfl
  | some e => rw [data_eq_some h]; rfl

lemma StateManager.data_congr_standing {σ τ : StateManager M V} (h : σ.standing = τ.standing) :
    σ.data = τ.data := by
  funext id
  rw [data_eq_standing, data_eq_standing, h]

/-- A delta that is not older than its entity, and does not throw on its data. -/
def Takes (a : Standing) (d : StateDelta Doc) (b : Standing) : Prop :=
  ∃ v o, a d.entityId = some (v, o) ∧ v ≤ d.fromVersion ∧ (applyAll d.operations o).2 = none ∧
    b = Function.update a d.entityId (some (v + 1, (applyAll d.operations o).1))

/-- Deltas taken one after another. -/
def TakesAll (a : Standing) : List (StateDelta Doc) → Standing → Prop
  | [], b => b = a
  | d :: ds, b => ∃ mid, Takes a d mid ∧ TakesAll mid ds b

lemma TakesAll.append {a b c : Standing} {ds es : List (StateDelta Doc)} (h : TakesAll a ds b)
    (h' : TakesAll b es c) : TakesAll a (ds ++ es) c := by
  induction ds generalizing a with
  | nil =>
    obtain rfl := h
    exact h'
  | cons d ds ih =>
    obtain ⟨mid, hd, hrest⟩ := h
    exact ⟨mid, hd, ih hrest⟩

lemma takesAll_append {a c : Standing} {ds es : List (StateDelta Doc)}
    (h : TakesAll a (ds ++ es) c) : ∃ b, TakesAll a ds b ∧ TakesAll b es c := by
  induction ds generalizing a with
  | nil => exact ⟨a, rfl, h⟩
  | cons d ds ih =>
    obtain ⟨mid, hd, hrest⟩ := h
    obtain ⟨b, hb, hlater⟩ := ih hrest
    exact ⟨b, ⟨mid, hd, hb⟩, hlater⟩

variable [TreeMemory M V]

namespace StateSynchronizer

/-- **The handler takes such a delta.** -/
lemma receiveDelta_takes {s : StateSynchronizer M V} {T : Ref → Option (Record V)}
    (hs : s.stateManager.Holds T) {d : StateDelta Doc} {b : Standing}
    (h : Takes s.stateManager.standing d b) (now : Timestamp) :
    (receiveDelta now d s).2 = none ∧ (receiveDelta now d s).1.stateManager.standing = b ∧
      ∃ T', (receiveDelta now d s).1.stateManager.Holds T' := by
  obtain ⟨v, o, hv, hle, hok, rfl⟩ := h
  cases hf : s.stateManager.entities.get? d.entityId with
  | none =>
    rw [standing, hf] at hv
    cases hv
  | some f =>
    have hread := data_eq_some hf
    rw [standing_eq hf hread, Option.some.injEq, Prod.mk.injEq] at hv
    obtain ⟨rfl, rfl⟩ := hv
    have hreceive := receiveDelta_eq (s := s) (d := d) now fun g hg => by
      obtain rfl := Option.some.inj (hf.symm.trans hg)
      exact hle
    obtain ⟨done, hdone⟩ := Option.isSome_iff_exists.1 (hs.tracked _ f hf)
    obtain ⟨more, -, -, hholds, hdata, hresult⟩ := hs.receiveUpdate hf hdone d.operations now
    rw [hok] at hresult
    have hentities := Lag.get?_updated hf hresult
    rw [hreceive]
    refine ⟨?_, ?_, _, by rw [heard_stateManager]; exact hholds⟩
    · rcases hrec : s.stateManager.receiveUpdate d.entityId d.operations now with ⟨τ, result⟩
      rw [hrec] at hresult
      rw [show result = _ from hresult]
      rfl
    · rw [heard_stateManager]
      funext j
      by_cases hj : j = d.entityId
      · subst hj
        rw [Function.update_self]
        refine standing_eq ((hentities _).trans (if_pos rfl)) ((hdata _).trans (if_pos rfl))
      · rw [Function.update_of_ne hj, standing, hentities, hdata, if_neg hj, if_neg hj]
        rfl

omit [TreeMemory M V] in
lemma receiveDeltas_stateManager (s : StateSynchronizer M V) (source : NodeId)
    (ds : List (StateDelta Doc)) (now : Timestamp) :
    (s.receiveDeltas source ds now).1.stateManager =
      (forEachWrite (receiveDelta now) ds s).1.stateManager := by
  unfold receiveDeltas
  rcases forEachWrite (receiveDelta now) ds s with ⟨s', _ | e⟩
  · exact notePeer_stateManager s' source now
  · rfl

/-- **The handler takes deltas one after another.** -/
lemma receiveDeltas_takes {s : StateSynchronizer M V} {T : Ref → Option (Record V)}
    (hs : s.stateManager.Holds T) {ds : List (StateDelta Doc)} {b : Standing}
    (h : TakesAll s.stateManager.standing ds b) (source : NodeId) (now : Timestamp) :
    (s.receiveDeltas source ds now).1.stateManager.standing = b ∧
      ∃ T', (s.receiveDeltas source ds now).1.stateManager.Holds T' := by
  have hloop : (forEachWrite (receiveDelta now) ds s).2 = none ∧
      (forEachWrite (receiveDelta now) ds s).1.stateManager.standing = b ∧
      ∃ T', (forEachWrite (receiveDelta now) ds s).1.stateManager.Holds T' := by
    induction ds generalizing s T with
    | nil =>
      obtain rfl := h
      exact ⟨rfl, rfl, T, hs⟩
    | cons d ds ih =>
      obtain ⟨mid, hd, hrest⟩ := h
      obtain ⟨hnone, hstanding, T', hT'⟩ := receiveDelta_takes hs hd now
      rw [← hstanding] at hrest
      rw [forEachWrite_cons_ok hnone]
      exact ih hT' hrest
  obtain ⟨-, hstanding, hholds⟩ := hloop
  rw [receiveDeltas_stateManager]
  exact ⟨hstanding, hholds⟩

end StateSynchronizer

/-! ## Catching up with a batch -/

variable {σ τ : StateManager M V} {T : Ref → Option (Record V)}
  {Q : EntityId → List (StateDelta V)} {R : EntityId → Record V}

/-- A delta that does the work of the first deltas of its queue is one that the other store
takes. -/
lemma Lag.takes {s : StateSynchronizer M V} (h : Lag σ s.stateManager T Q R) {d : StateDelta Doc}
    {Q₁ Q₂ : List (StateDelta V)} (hQ : Q d.entityId = Q₁ ++ Q₂) (hne : Q₁ ≠ [])
    (hfrom : d.fromVersion = (Q₁.head hne).fromVersion)
    (hops : ∀ o, s.stateManager.data d.entityId = some o →
      applyAll d.operations o = applyAll (heldOperations σ.memory Q₁) o) :
    ∃ b, Takes s.stateManager.standing d b := by
  obtain ⟨R₁, R₂, hR, hfirst, hdocs⟩ := h.held_first hQ hne
  have hentity := h.entity d.entityId
  rw [hQ, hR] at hentity
  obtain ⟨e, he⟩ := Option.isSome_iff_exists.1 (hentity.live (by simp [hne]))
  obtain ⟨f, hf⟩ := Option.isSome_iff_exists.1 (hentity.same.trans (by rw [he]; rfl))
  have hread := data_eq_some hf
  refine ⟨_, f.version, _, standing_eq hf hread, ?_, ?_, rfl⟩
  · rw [hfrom]
    exact ((hentity.version e f he hf).2 _ (List.mem_append_left _ (List.head_mem hne))).1
  · rw [hops _ hread, hdocs]
    have hall := (hentity.data _ hread).1
    rw [Record.docs_append] at hall
    exact ok_of_forEachWrite_append hall

/-- **Deltas of different entities, each of which does the work of the first deltas of its queue**,
take these from the queues. -/
lemma Lag.deliverAll {s : StateSynchronizer M V} {ds : List (StateDelta Doc)}
    (h : Lag σ s.stateManager T Q R) (hnodup : (ds.map fun d => d.entityId).Nodup)
    (first rest : EntityId → List (StateDelta V))
    (hds : ∀ d ∈ ds, Q d.entityId = first d.entityId ++ rest d.entityId ∧
      ∃ hne : first d.entityId ≠ [], d.fromVersion = ((first d.entityId).head hne).fromVersion ∧
        ∀ o, s.stateManager.data d.entityId = some o →
          applyAll d.operations o =
            applyAll (heldOperations σ.memory (first d.entityId)) o) :
    ∃ (s' : StateSynchronizer M V) (R' : EntityId → Record V),
      TakesAll s.stateManager.standing ds s'.stateManager.standing ∧
      Lag σ s'.stateManager T (fun id => if id ∈ ds.map (fun d => d.entityId) then
        rest id else Q id)
        R' := by
  induction ds generalizing s Q R with
  | nil => exact ⟨s, R, rfl, by simpa using h⟩
  | cons d ds ih =>
    obtain ⟨hQ, hne, hfrom, hops⟩ := hds d List.mem_cons_self
    rw [List.map_cons, List.nodup_cons] at hnodup
    obtain ⟨b, hb⟩ := h.takes hQ hne hfrom hops
    obtain ⟨T', hT'⟩ := h.replica
    obtain ⟨-, hstanding, -⟩ := StateSynchronizer.receiveDelta_takes hT' hb 0
    obtain ⟨-, hothers, R', hlag⟩ := h.deliver hQ hne hfrom hops 0
    have hother : ∀ c ∈ ds, c.entityId ≠ d.entityId := by
      intro c hc heq
      exact hnodup.1 (heq ▸ List.mem_map_of_mem hc)
    obtain ⟨s', R'', htakes, hlag'⟩ := ih hlag hnodup.2 fun c hc => by
      obtain ⟨hQc, hnec, hfromc, hopsc⟩ := hds c (List.mem_cons_of_mem d hc)
      rw [Function.update_of_ne (hother c hc)]
      refine ⟨hQc, hnec, hfromc, fun o ho => hopsc o ?_⟩
      rwa [hothers _ (hother c hc)] at ho
    rw [← hstanding] at hb
    refine ⟨s', R'', ⟨_, hb, htakes⟩, ?_⟩
    have hqueues : (fun id => if id ∈ (d :: ds).map (fun d => d.entityId) then rest id else Q id) =
        fun id => if id ∈ ds.map (fun d => d.entityId) then rest id
          else Function.update Q d.entityId (rest d.entityId) id := by
      funext id
      by_cases hid : id = d.entityId
      · subst hid
        rw [List.map_cons, Function.update_self, if_pos List.mem_cons_self, ite_self]
      · rw [Function.update_of_ne hid]
        simp only [List.map_cons, List.mem_cons, hid, false_or]
    rw [hqueues]
    exact hlag'

lemma deltasOf_append (id : EntityId) (ds es : List (StateDelta V)) :
    deltasOf id (ds ++ es) = deltasOf id ds ++ deltasOf id es := List.filter_append ..

/-- The values in the queues survive the text. -/
lemma Lag.json_value (h : Lag σ τ T Q R) {id : EntityId} {e : EntityState}
    (hget : σ.entities.get? id = some e) {d : StateDelta V} (hd : d ∈ Q id)
    {op : DeltaOperation V} (hop : op ∈ d.operations) :
    orUndefined (Memory.readValue σ.memory op.value).json = Memory.readValue σ.memory op.value := by
  have hmem : op.map (Memory.readValue σ.memory) ∈ (R id).docs := by
    rw [← h.held hget]
    exact List.mem_map_of_mem (List.mem_flatMap.2 ⟨d, hd, hop⟩)
  exact (h.entity id).json _ hmem

omit [TreeMemory M V] in
/-- A delta whose values survive the text is written as it reads. -/
lemma operations_writtenDelta {m : M} {d : StateDelta V}
    (h : ∀ op ∈ d.operations, orUndefined (Memory.readValue m op.value).json =
      Memory.readValue m op.value) :
    (writtenDelta m d).operations = d.operations.map fun op => op.map (Memory.readValue m) := by
  apply List.map_congr_left
  intro op hop
  exact congrArg (DeltaOperation.mk op.op op.path) (h op hop)

variable [NumberMemory M V]

/-- **A batch that may be compressed**, written and handed to the other store, takes its deltas from
the queues. -/
lemma Lag.flush {s : StateSynchronizer M V} {batch later : List (StateDelta V)}
    (h : Lag σ s.stateManager T (fun id => deltasOf id (batch ++ later)) R)
    (htime : batch.Pairwise fun a b => a.timestamp ≤ b.timestamp) (text : Doc → String)
    (hcond : ∀ id o, s.stateManager.data id = some o → 2 ≤ (deltasOf id batch).length →
      Collapsible (valueView text σ.memory) (operationsOn id batch) o) :
    ∃ compressed, compress (valueView text σ.memory) batch = .ok compressed ∧
      ∃ (s' : StateSynchronizer M V) (R' : EntityId → Record V),
        TakesAll s.stateManager.standing (compressed.map (writtenDelta σ.memory))
          s'.stateManager.standing ∧
        Lag σ s'.stateManager T (fun id => deltasOf id later) R' := by
  have hlive : ∀ d ∈ batch, (σ.entities.get? d.entityId).isSome := by
    intro d hd
    apply (h.entity d.entityId).live
    exact deltasOf_ne_nil.2 (List.mem_map_of_mem (List.mem_append_left later hd))
  obtain ⟨compressed, hcompress, hnodup, hids, hspec⟩ :=
    @compress_sound V (valueView text σ.memory) s.stateManager.data batch htime (fun d hd => by
      rw [isSome_data, (h.entity d.entityId).same]
      exact hlive d hd) (fun id o ho => by
      by_cases hnone : deltasOf id batch = []
      · simp [operationsOn, hnone, docs, applyAll, forEachWrite]
      · obtain ⟨R₁, R₂, hR, -, hdocs⟩ := h.held_first (deltasOf_append id batch later) hnone
        have hall := ((h.entity id).data o ho).1
        rw [hR, Record.docs_append, ← hdocs] at hall
        exact ok_of_forEachWrite_append hall) hcond
  refine ⟨compressed, hcompress, ?_⟩
  have hvalues : ∀ d ∈ compressed, ∀ op ∈ d.operations,
      orUndefined (Memory.readValue σ.memory op.value).json =
        Memory.readValue σ.memory op.value := by
    refine @compress_values _ _ (fun v => orUndefined (Memory.readValue σ.memory v).json =
      Memory.readValue σ.memory v) (fun q => ?_) _ _ (fun d hd op hop => ?_) hcompress
    · have hnumber : Memory.readValue σ.memory ((valueView text σ.memory).number q) =
          .prim (.num q) := NumberMemory.readValue_number _ _
      rw [hnumber]
      simp [Prim.json, orUndefined, isAbsent, Slot.prim?]
    · obtain ⟨e, he⟩ := Option.isSome_iff_exists.1 (hlive d hd)
      refine h.json_value he (List.mem_filter.2 ⟨List.mem_append_left later hd, ?_⟩) hop
      simp
  have hwritten : (compressed.map (writtenDelta σ.memory)).map (fun d => d.entityId) =
      compressed.map fun d => d.entityId := by
    rw [List.map_map]
    rfl
  obtain ⟨s', R', htakes, hlag⟩ := @Lag.deliverAll _ _ _ _ _ _ _ _ _
    (compressed.map (writtenDelta σ.memory)) h (by rw [hwritten]; exact hnodup)
    (fun id => deltasOf id batch) (fun id => deltasOf id later) fun w hw => by
      obtain ⟨d, hd, rfl⟩ := List.mem_map.1 hw
      have hne : deltasOf d.entityId batch ≠ [] :=
        deltasOf_ne_nil.2 ((hids _).1 (List.mem_map_of_mem hd))
      obtain ⟨⟨first, rest, hfirst, hfrom⟩, hops⟩ := hspec d hd
      refine ⟨deltasOf_append _ _ _, hne, ?_, fun o ho => ?_⟩
      · have hhead : (deltasOf d.entityId batch).head hne = first := by simp [hfirst]
        exact hfrom.trans (congrArg StateDelta.fromVersion hhead.symm)
      · rw [operations_writtenDelta (hvalues d hd)]
        exact hops o ho
  refine ⟨s', R', htakes, ?_⟩
  have hqueues : (fun id => if id ∈ (compressed.map (writtenDelta σ.memory)).map
      (fun d => d.entityId) then deltasOf id later else deltasOf id (batch ++ later)) =
      fun id => deltasOf id later := by
    funext id
    split
    next => rfl
    next hid =>
      rw [hwritten, hids, ← deltasOf_ne_nil, not_not] at hid
      rw [deltasOf_append, hid, List.nil_append]
  rwa [hqueues] at hlag

end Standing

/-! ## Two nodes -/

/-- A node, the messages it has published that are on their way, and the node they go to. -/
structure Link (M V : Type) where
  source : StateSynchronizer M V
  inFlight : List (List (StateDelta Doc))
  replica : StateSynchronizer M V

namespace Link

/-- What happens on the first node, or the arrival of a message. -/
inductive Call
  | createEntity (type ownerId : String) (data : Obj Doc) (id : EntityId)
  | updateEntity (id : EntityId) (operations : List (DeltaOperation Doc))
  | deleteEntity (id : EntityId)
  | flushDeltas
  | deliver

variable {M V : Type} [Memory M V] [NumberMemory M V]

/-- `flushDeltas`, with the message on its way to the other node.  What the first node does with its
own messages is left out. -/
def flush (text : Doc → String) (l : Link M V) : Link M V :=
  if l.source.pendingDeltas = [] then l
  else
    match l.source.compressedBatch text with
    | .error _ => { l with source := l.source.splice }
    | .ok compressed =>
      { l with
        source := { l.source.splice with syncsPerformed := l.source.syncsPerformed + 1 }
        inFlight := l.inFlight ++
          [compressed.map (writtenDelta l.source.stateManager.memory)] }

/-- The oldest message that is on its way arrives. -/
def deliver (source : NodeId) (now : Timestamp) (l : Link M V) : Link M V :=
  match l.inFlight with
  | [] => l
  | message :: later =>
    { l with inFlight := later, replica := (l.replica.receiveDeltas source message now).1 }

/-- One call, at its time; the first node is `source`. -/
def call (text : Doc → String) (source : NodeId) (l : Link M V) (c : Call × Timestamp) : Link M V :=
  match c.1 with
  | .createEntity type ownerId data id =>
    { l with source := l.source.createEntity type ownerId data id c.2 }
  | .updateEntity id operations => { l with source := l.source.receiveUpdate id operations c.2 }
  | .deleteEntity id => { l with source := l.source.deleteEntity id }
  | .flushDeltas => l.flush text
  | .deliver => l.deliver source c.2

/-- The other node as it will be when all messages that are on their way have arrived. -/
def caughtUp (source : NodeId) (l : Link M V) : StateSynchronizer M V :=
  l.inFlight.foldl (fun s message => (s.receiveDeltas source message 0).1) l.replica

/-- **A call of which nothing is lost.** -/
def Carries (text : Doc → String) (source : NodeId) (l : Link M V) (c : Call × Timestamp) : Prop :=
  match c.1 with
  | .createEntity _ _ _ _ => False
  | .updateEntity id operations => ∀ o, l.source.stateManager.data id = some o →
      Engine.JsonOperations operations ∧
      Unaliased (heldOperations l.source.stateManager.memory
        (deltasOf id l.source.pendingDeltas) ++ operations) ∧
      (applyAll operations o).2 = none ∧
      ∀ d ∈ l.source.pendingDeltas, d.timestamp ≤ c.2
  | .deleteEntity id => l.source.stateManager.data id = none
  | .flushDeltas => ∀ id o, (l.caughtUp source).stateManager.data id = some o →
      let batch := l.source.pendingDeltas.take l.source.batchSize
      2 ≤ (deltasOf id batch).length →
        Collapsible (valueView text l.source.stateManager.memory) (operationsOn id batch) o
  | .deliver => True

variable [TreeMemory M V]

/-- The other node, once all messages have arrived, lags behind the first one by what is queued. -/
structure Inv (l : Link M V) : Prop where
  replica : ∃ T, l.replica.stateManager.Holds T
  time : l.source.pendingDeltas.Pairwise fun a b => a.timestamp ≤ b.timestamp
  lag : ∃ (s : StateSynchronizer M V) (T : Ref → Option (Record V)) (R : EntityId → Record V),
    TakesAll l.replica.stateManager.standing l.inFlight.flatten s.stateManager.standing ∧
    Lag l.source.stateManager s.stateManager T (fun id => deltasOf id l.source.pendingDeltas) R

variable {l : Link M V}

omit [NumberMemory M V] [TreeMemory M V] in
lemma receiveUpdate_updated {s : StateSynchronizer M V} {id : EntityId}
    {operations : List (DeltaOperation Doc)} {now : Timestamp} {d : StateDelta V}
    (h : (s.stateManager.receiveUpdate id operations now).2 = .updated d) :
    (s.receiveUpdate id operations now).stateManager =
        (s.stateManager.receiveUpdate id operations now).1 ∧
      (s.receiveUpdate id operations now).pendingDeltas = s.pendingDeltas ++ [d] := by
  rw [StateSynchronizer.receiveUpdate]
  rcases hrec : s.stateManager.receiveUpdate id operations now with ⟨σ, result⟩
  rw [hrec] at h
  rw [show result = _ from h]
  exact ⟨rfl, rfl⟩

/-- **An update is queued.** -/
lemma Inv.update (h : l.Inv) {text : Doc → String} {source : NodeId} {id : EntityId}
    {operations : List (DeltaOperation Doc)} {now : Timestamp}
    (hcarries : l.Carries text source (.updateEntity id operations, now)) :
    (l.call text source (.updateEntity id operations, now)).Inv := by
  obtain ⟨s, T, R, htakes, hlag⟩ := h.lag
  cases hget : l.source.stateManager.entities.get? id with
  | none =>
    have hlag' := hlag.update_none hget operations now
    have hnone : (l.source.stateManager.receiveUpdate id operations now).2 = .notFound := by
      rw [receiveUpdate_of_none hget]
    have hpending : (l.source.receiveUpdate id operations now).pendingDeltas =
        l.source.pendingDeltas := by
      rw [StateSynchronizer.receiveUpdate]
      rcases hrec : l.source.stateManager.receiveUpdate id operations now with ⟨σ, result⟩
      rw [hrec] at hnone
      rw [show result = _ from hnone]
      rfl
    have hstore : (l.source.receiveUpdate id operations now).stateManager =
        (l.source.stateManager.receiveUpdate id operations now).1 :=
      StateSynchronizer.heard_stateManager _ _
    refine ⟨h.replica, ?_, s, T, R, htakes, ?_⟩
    · show (l.source.receiveUpdate id operations now).pendingDeltas.Pairwise _
      rw [hpending]
      exact h.time
    · show Lag (l.source.receiveUpdate id operations now).stateManager _ _
        (fun id' => deltasOf id' (l.source.receiveUpdate id operations now).pendingDeltas) _
      rw [hstore, hpending]
      exact hlag'
  | some e =>
    have hread := data_eq_some hget
    obtain ⟨hjson, hunaliased, hok, htime⟩ := hcarries _ hread
    obtain ⟨d, T', R', hresult, hid, hnow, hlag'⟩ := hlag.update hget now hjson hunaliased
      fun o ho => by
        obtain rfl := Option.some.inj (hread.symm.trans ho)
        exact hok
    obtain ⟨hstore, hpending⟩ := receiveUpdate_updated hresult
    refine ⟨h.replica, ?_, s, T', R', htakes, ?_⟩
    · show (l.source.receiveUpdate id operations now).pendingDeltas.Pairwise _
      rw [hpending, List.pairwise_append]
      refine ⟨h.time, List.pairwise_singleton _ _, fun a ha b hb => ?_⟩
      rw [List.mem_singleton.1 hb, hnow]
      exact htime a ha
    · show Lag (l.source.receiveUpdate id operations now).stateManager _ _
        (fun id' => deltasOf id' (l.source.receiveUpdate id operations now).pendingDeltas) _
      rw [hstore, hpending]
      have hqueues : (fun id' => deltasOf id' (l.source.pendingDeltas ++ [d])) =
          Function.update (fun id' => deltasOf id' l.source.pendingDeltas) id
            (deltasOf id l.source.pendingDeltas ++ [d]) := by
        funext j
        rw [deltasOf_append]
        by_cases hj : j = id
        · subst hj
          rw [Function.update_self]
          simp [deltasOf, hid]
        · rw [Function.update_of_ne hj]
          simp [deltasOf, hid, Ne.symm hj]
      rw [hqueues]
      exact hlag'

omit [NumberMemory M V] in
/-- A node that has got the messages has the standing that they lead to. -/
lemma standing_caughtUp {s : StateSynchronizer M V} (source : NodeId)
    {messages : List (List (StateDelta Doc))} {T : Ref → Option (Record V)}
    (hs : s.stateManager.Holds T) {b : Standing}
    (h : TakesAll s.stateManager.standing messages.flatten b) :
    (messages.foldl (fun s message => (s.receiveDeltas source message 0).1)
      s).stateManager.standing = b := by
  induction messages generalizing s T with
  | nil => exact h.symm
  | cons message messages ih =>
    rw [List.flatten_cons] at h
    obtain ⟨mid, hfirst, hrest⟩ := takesAll_append h
    obtain ⟨hstanding, T', hT'⟩ := StateSynchronizer.receiveDeltas_takes hs hfirst source 0
    rw [← hstanding] at hrest
    exact ih hT' hrest

/-- **A flush puts a batch on its way.** -/
lemma Inv.flush (h : l.Inv) {text : Doc → String} {source : NodeId} {now : Timestamp}
    (hcarries : l.Carries text source (.flushDeltas, now)) : (l.flush text).Inv := by
  obtain ⟨T₀, hreplica⟩ := h.replica
  obtain ⟨s, T, R, htakes, hlag⟩ := h.lag
  have hdata : (l.caughtUp source).stateManager.data = s.stateManager.data :=
    data_congr_standing (standing_caughtUp source hreplica htakes)
  unfold Link.flush
  split
  next => exact h
  next =>
    rw [← List.take_append_drop l.source.batchSize l.source.pendingDeltas] at hlag
    obtain ⟨compressed, hcompress, s', R', htakes', hlag'⟩ := hlag.flush
      (h.time.sublist (List.take_sublist _ _)) text fun id o ho => by
        rw [← hdata] at ho
        exact hcarries id o ho
    have hbatch : l.source.compressedBatch text = .ok compressed := hcompress
    rw [hbatch]
    refine ⟨⟨T₀, hreplica⟩, h.time.sublist (List.drop_sublist _ _), s', T, R', ?_, hlag'⟩
    rw [List.flatten_append, List.flatten_singleton]
    exact htakes.append htakes'

omit [NumberMemory M V] in
/-- **A message arrives.** -/
lemma Inv.deliver (h : l.Inv) (source : NodeId) (now : Timestamp) :
    (l.deliver source now).Inv := by
  unfold Link.deliver
  cases hflight : l.inFlight with
  | nil => exact h
  | cons message later =>
    obtain ⟨T₀, hreplica⟩ := h.replica
    obtain ⟨s, T, R, htakes, hlag⟩ := h.lag
    rw [hflight, List.flatten_cons] at htakes
    obtain ⟨mid, hfirst, hrest⟩ := takesAll_append htakes
    obtain ⟨hstanding, hholds⟩ :=
      StateSynchronizer.receiveDeltas_takes hreplica hfirst source now
    rw [← hstanding] at hrest
    exact ⟨hholds, h.time, s, T, R, hrest, hlag⟩

lemma Inv.call (h : l.Inv) {text : Doc → String} {source : NodeId} {c : Call × Timestamp}
    (hcarries : l.Carries text source c) : (l.call text source c).Inv := by
  obtain ⟨c, now⟩ := c
  cases c with
  | createEntity type ownerId data id => exact absurd hcarries not_false
  | updateEntity id operations => exact h.update hcarries
  | deleteEntity id =>
    have hnone : l.source.stateManager.entities.get? id = none := by
      rw [← Option.not_isSome_iff_eq_none, ← isSome_data, show _ = none from hcarries]
      simp
    have hsame : l.source.deleteEntity id = l.source := by
      unfold StateSynchronizer.deleteEntity StateManager.deleteEntity
      rw [hnone]
    show (Link.mk (l.source.deleteEntity id) l.inFlight l.replica).Inv
    rw [hsame]
    exact h
  | flushDeltas => exact h.flush hcarries
  | deliver => exact h.deliver source now

/-- Two nodes that hold the same entity. -/
def twoNodes : Link Cells Doc :=
  ⟨.new (oneEntity .empty) ConflictResolver.new 100, [],
    .new (oneEntity .empty) ConflictResolver.new 100⟩

def onTwoNodes (calls : List (Call × Timestamp)) : Link Cells Doc :=
  Machine.run (call (fun _ => "") "n1") twoNodes calls

/-- An update, its flush, and the arrival of the message. -/
def updateAndDeliver : List (Call × Timestamp) :=
  [(.updateEntity "e1" [⟨.increment, "hp", .prim (.num 5)⟩], 2), (.flushDeltas, 3), (.deliver, 4)]

end Link

end SyncEngine
