import SyncEngine.Core.History
import SyncEngine.Sync.Replication

/-!
# Catching up on request

A node that was equal to another one when its store had version `v` asks it for the state since
`v`.  The answer is made of the retained deltas from *entity* version `v` on, or, if there are none,
of a snapshot.

A snapshot is right wherever data survives its text.  The deltas are right where they are what has
happened since: `Follows` is the condition on a call, and it admits little, since the version of an
entity falls behind the version of the store as soon as anything else is done to the store.
-/

namespace SyncEngine

open Js DeltaCompressor StateManager

namespace StateManager

variable {M V : Type}

/-- The retained deltas of an entity from a version on. -/
def deltasSince (σ : StateManager M V) (version : ℕ) (id : EntityId) : List (StateDelta V) :=
  (σ.getEntityHistory id).filter fun d => version ≤ d.fromVersion

lemma mem_deltasSince {σ : StateManager M V} {version : ℕ} {id : EntityId} {d : StateDelta V} :
    d ∈ σ.deltasSince version id ↔ d ∈ σ.getEntityHistory id ∧ version ≤ d.fromVersion := by
  simp [deltasSince]

lemma mem_getDeltasSince {σ : StateManager M V} {version : ℕ} {id : EntityId} {d : StateDelta V}
    (hd : d ∈ σ.deltasSince version id) : d ∈ σ.getDeltasSince version := by
  obtain ⟨hmem, hle⟩ := mem_deltasSince.1 hd
  rw [getDeltasSince, List.mem_insertionSort, List.mem_flatMap]
  cases hget : σ.history.get? id with
  | none =>
    rw [getEntityHistory, hget] at hmem
    simp at hmem
  | some h =>
    rw [getEntityHistory, hget] at hmem
    exact ⟨h, (Js.Map.mem_values_iff _ _).2 ⟨id, hget⟩,
      List.mem_filter.2 ⟨hmem, by simpa using hle⟩⟩

/-- Of a list of entries with different keys, those of one key. -/
lemma flatMap_of_key {K A B : Type} [DecidableEq K] (f : A → List B) (k : K) (es : List (K × A))
    (hnodup : (es.map Prod.fst).Nodup) :
    (es.flatMap fun e => if e.1 = k then f e.2 else []) =
      ((Js.Map.find k es).map f).getD [] := by
  induction es with
  | nil => rfl
  | cons e es ih =>
    rw [List.map_cons, List.nodup_cons] at hnodup
    rw [List.flatMap_cons, ih hnodup.2, Js.Map.find]
    by_cases he : e.1 = k
    · have hnone : Js.Map.find k es = none := by
        rw [Js.Map.find_eq_none, ← he]
        exact hnodup.1
      rw [if_pos he, if_pos he, hnone]
      simp
    · rw [if_neg he, if_neg he, List.nil_append]

/-- **What the answer holds of one entity**: its retained deltas, in their order. -/
lemma deltasOf_getDeltasSince {σ : StateManager M V} {version : ℕ}
    (hid : ∀ id, ∀ d ∈ σ.deltasSince version id, d.entityId = id)
    (htime : ∀ id, (σ.deltasSince version id).Pairwise fun a b => a.timestamp ≤ b.timestamp)
    (id : EntityId) : deltasOf id (σ.getDeltasSince version) = σ.deltasSince version id := by
  set all := σ.history.values.flatMap fun h => h.filter fun d => version ≤ d.fromVersion
  have hentry : ∀ e ∈ σ.history.entries, deltasOf id (e.2.filter fun d => version ≤ d.fromVersion) =
      if e.1 = id then e.2.filter (fun d => version ≤ d.fromVersion) else [] := by
    rintro ⟨j, h⟩ he
    have hget : σ.getEntityHistory j = h := by
      rw [getEntityHistory, (Js.Map.mem_entries_iff _ _ _).1 he]
      rfl
    have hj : ∀ d ∈ h.filter (fun d => version ≤ d.fromVersion), d.entityId = j := by
      rw [← hget]
      exact hid j
    by_cases hji : j = id
    · rw [if_pos hji]
      apply List.filter_eq_self.2
      intro d hd
      simp [hj d hd, hji]
    · rw [if_neg hji]
      apply List.filter_eq_nil_iff.2
      intro d hd
      simp [hj d hd, hji]
  have hall : deltasOf id all = σ.deltasSince version id := by
    have hflat : deltasOf id all = σ.history.entries.flatMap fun e =>
        deltasOf id (e.2.filter fun d => version ≤ d.fromVersion) := by
      simp only [all, deltasOf, Js.Map.values, List.filter_flatMap, List.flatMap_map]
    have hkey := flatMap_of_key
      (fun h : List (StateDelta V) => h.filter fun d => version ≤ d.fromVersion) id
      σ.history.entries σ.history.nodup
    rw [hflat, List.flatMap_congr hentry, hkey, deltasSince, getEntityHistory, Js.Map.get?]
    cases Js.Map.find id σ.history.entries <;> rfl
  -- Sorting keeps the deltas of the entity in their order, since they are sorted.
  have hsub : (σ.deltasSince version id).Sublist (σ.getDeltasSince version) := by
    apply List.sublist_insertionSort (htime id)
    rw [← hall]
    exact List.filter_sublist
  have hsub' : (σ.deltasSince version id).Sublist (deltasOf id (σ.getDeltasSince version)) := by
    have hfilter := hsub.filter fun d : StateDelta V => decide (d.entityId = id)
    have hself : (σ.deltasSince version id).filter (fun d => decide (d.entityId = id)) =
        σ.deltasSince version id := by
      apply List.filter_eq_self.2
      intro d hd
      simp [hid id d hd]
    rwa [hself] at hfilter
  have hlength : (deltasOf id (σ.getDeltasSince version)).length =
      (σ.deltasSince version id).length := by
    rw [← hall]
    exact ((List.perm_insertionSort _ all).filter _).length_eq
  exact (hsub'.eq_of_length hlength.symm).symm

/-- What a recorded update has done to the history. -/
lemma of_updated [Memory M V] {σ : StateManager M V} {id : EntityId}
    {operations : List (DeltaOperation V)} {now : Timestamp} {d : StateDelta V}
    (h : (σ.updateEntity id operations now).2 = .updated d) :
    ∃ e, σ.entities.get? id = some e ∧ d.fromVersion = e.version ∧
      (σ.updateEntity id operations now).1.history =
        addToHistory σ.history σ.maxHistoryPerEntity id d ∧
      (σ.updateEntity id operations now).1.maxHistoryPerEntity = σ.maxHistoryPerEntity := by
  obtain ⟨e, _, hget, -, hcommit⟩ := exists_of_updated h
  rw [hcommit] at h ⊢
  obtain rfl : _ = d := by simpa [commitUpdate] using h
  exact ⟨e, hget, rfl, rfl, rfl⟩

/-- Once a version is reached, the deltas of a history stay at it. -/
def Reaching (version : ℕ) (history : List (StateDelta V)) : Prop :=
  history.Pairwise fun a b => version ≤ a.fromVersion → version ≤ b.fromVersion

/-- A delta added to a history of which not too much counts: the oldest one may be dropped, and is
none of those that count. -/
lemma deltasSince_addToHistory {history : List (StateDelta V)} {d : StateDelta V} {version max : ℕ}
    (hreaching : Reaching version history) (hd : version ≤ d.fromVersion)
    (hroom : (history.filter fun d => version ≤ d.fromVersion).length < max) :
    let added := if (history ++ [d]).length > max then (history ++ [d]).tail else history ++ [d]
    Reaching version added ∧ (added.filter fun d => version ≤ d.fromVersion) =
      (history.filter fun d => version ≤ d.fromVersion) ++ [d] := by
  have hall : Reaching version (history ++ [d]) := by
    apply List.pairwise_append.2
    refine ⟨hreaching, List.pairwise_singleton _ _, fun a _ b hb _ => ?_⟩
    rw [List.mem_singleton.1 hb]
    exact hd
  have hfilter : ((history ++ [d]).filter fun d => version ≤ d.fromVersion) =
      (history.filter fun d => version ≤ d.fromVersion) ++ [d] := by
    rw [List.filter_append]
    simp [hd]
  intro added
  by_cases hover : (history ++ [d]).length > max
  · have hout : added = (history ++ [d]).tail := if_pos hover
    cases history with
    | nil =>
      simp at hroom hover
      omega
    | cons first history =>
      have hold : ¬ version ≤ first.fromVersion := by
        intro hfirst
        have hcount : ((first :: history).filter fun d => version ≤ d.fromVersion) =
            first :: history := by
          apply List.filter_eq_self.2
          intro a ha
          obtain rfl | ha := List.mem_cons.1 ha
          · simpa using hfirst
          · simpa using (List.pairwise_cons.1 hreaching).1 a ha hfirst
        rw [hcount] at hroom
        simp only [List.length_append, List.length_singleton] at hover
        omega
      rw [hout]
      refine ⟨List.Pairwise.tail hall, ?_⟩
      rw [← hfilter]
      simp [hold]
  · have hout : added = history ++ [d] := if_neg hover
    rw [hout]
    exact ⟨hall, hfilter⟩

end StateManager

section Fresh

variable {M V : Type} [Memory M V] {σ : StateManager M V}

omit [Memory M V] in
lemma StateManager.cacheFresh_of_none (h : σ.cache = none) : σ.CacheFresh := by
  intro c hc
  rw [h] at hc
  cases hc

lemma StateManager.cacheFresh_receiveElements (h : σ.CacheFresh) (id : EntityId)
    (elements : List Doc) (now : Timestamp) :
    (σ.receiveElements id elements now).1.CacheFresh := by
  refine Engine.cacheFresh_of_moves h ?_
  unfold StateManager.receiveElements
  dsimp only
  split
  next => exact .inr ⟨rfl, rfl, rfl⟩
  next entity _ =>
    rcases forEachWrite (applyParsed entity.data) (parseElements σ.memory elements).1
      (parseElements σ.memory elements).2 with ⟨m, _ | e⟩
    · exact .inl ⟨rfl, rfl⟩
    · exact .inr ⟨rfl, rfl, rfl⟩

omit [Memory M V] in
lemma StateManager.cacheFresh_createSnapshot (h : σ.CacheFresh) (now : Timestamp) :
    (σ.createSnapshot now).1.CacheFresh := by
  rw [createSnapshot_fst]
  rintro c hc -
  obtain rfl := Option.some.inj hc
  exact entities_createSnapshot h now

/-- A store that can be reached has no stale snapshot in its cache. -/
lemma StateManager.Reachable.cacheFresh (h : σ.Reachable) : σ.CacheFresh := fun c hc hversion =>
  (h.cacheChecked c hc hversion).1

end Fresh

namespace StateSynchronizer

variable {M V : Type} [Memory M V]

section Following

variable [TreeMemory M V]

/-- The deltas from a version on are what the store `τ` lacks. -/
structure Following (version : ℕ) (τ σ : StateManager M V) : Prop where
  lag : ∃ T R, Lag σ τ T (σ.deltasSince version) R
  reaching : ∀ id, Reaching version (σ.getEntityHistory id)
  time : ∀ id, (σ.deltasSince version id).Pairwise fun a b => a.timestamp ≤ b.timestamp
  own : ∀ id, ∀ d ∈ σ.deltasSince version id, d.entityId = id

variable {version : ℕ} {τ σ : StateManager M V}

/-- A store and its equal, while no retained delta counts. -/
lemma Following.refl {T T' : Ref → Option (Record V)} (hσ : σ.Holds T) (hτ : τ.Holds T')
    (hview : ∀ id, τ.view id = σ.view id) (hnone : ∀ id, σ.deltasSince version id = []) :
    Following version τ σ := by
  have hcount : ∀ id, ∀ d ∈ σ.getEntityHistory id, ¬ version ≤ d.fromVersion := by
    intro id d hd hle
    have hmem : d ∈ σ.deltasSince version id := mem_deltasSince.2 ⟨hd, hle⟩
    rw [hnone] at hmem
    simp at hmem
  refine ⟨⟨T, fun _ => [], ?_⟩, fun id => ?_, fun id => ?_, fun id d hd => ?_⟩
  · have hqueues : σ.deltasSince version = fun _ => [] := funext hnone
    rw [hqueues]
    exact Lag.refl hσ hτ hview
  · exact List.pairwise_of_forall_mem_list fun a ha b _ hle => absurd hle (hcount id a ha)
  · rw [hnone]
    exact .nil
  · rw [hnone] at hd
    simp at hd

/-- **An update adds its delta to what the other store lacks.** -/
lemma Following.update (h : Following version τ σ) {id : EntityId} {e : EntityState}
    {operations : List (DeltaOperation Doc)} {now : Timestamp}
    (hget : σ.entities.get? id = some e) (hversion : version ≤ e.version)
    (hjson : Engine.JsonOperations operations)
    (hunaliased : Unaliased (heldOperations σ.memory (σ.deltasSince version id) ++ operations))
    (hok : ∀ o, σ.data id = some o → (applyAll operations o).2 = none)
    (htime : ∀ d ∈ σ.deltasSince version id, d.timestamp ≤ now)
    (hroom : (σ.deltasSince version id).length < σ.maxHistoryPerEntity) :
    Following version τ (σ.receiveUpdate id operations now).1 := by
  obtain ⟨T, R, hlag⟩ := h.lag
  obtain ⟨d, T', R', hresult, hid, hnow, hlag'⟩ := hlag.update hget now hjson hunaliased hok
  obtain ⟨e', he', hfrom, hhistory, -⟩ := of_updated hresult
  obtain rfl : e' = e := Option.some.inj (he'.symm.trans hget)
  have hd : version ≤ d.fromVersion := hversion.trans_eq hfrom.symm
  obtain ⟨hreaching, hfilter⟩ := deltasSince_addToHistory (h.reaching id) hd hroom
  have hnew : ∀ j, (σ.receiveUpdate id operations now).1.getEntityHistory j =
      if j = id then
        (if (σ.getEntityHistory id ++ [d]).length > σ.maxHistoryPerEntity then
          (σ.getEntityHistory id ++ [d]).tail else σ.getEntityHistory id ++ [d])
      else σ.getEntityHistory j := by
    intro j
    have hadd := get?_addToHistory σ.history σ.maxHistoryPerEntity id j d
    exact (congrArg (fun m => (Js.Map.get? m j).getD []) hhistory).trans hadd
  have hsince : (σ.receiveUpdate id operations now).1.deltasSince version =
      Function.update (σ.deltasSince version) id (σ.deltasSince version id ++ [d]) := by
    funext j
    unfold deltasSince
    rw [hnew]
    by_cases hj : j = id
    · rw [hj, if_pos rfl, Function.update_self]
      exact hfilter
    · rw [if_neg hj, Function.update_of_ne hj]
  refine ⟨⟨T', R', by rw [hsince]; exact hlag'⟩, fun j => ?_, fun j => ?_, fun j c hc => ?_⟩
  · rw [hnew]
    by_cases hj : j = id
    · rw [if_pos hj]
      exact hreaching
    · rw [if_neg hj]
      exact h.reaching j
  · rw [hsince]
    by_cases hj : j = id
    · rw [hj, Function.update_self, List.pairwise_append]
      refine ⟨h.time id, List.pairwise_singleton _ _, fun a ha b hb => ?_⟩
      rw [List.mem_singleton.1 hb, hnow]
      exact htime a ha
    · rw [Function.update_of_ne hj]
      exact h.time j
  · rw [hsince] at hc
    by_cases hj : j = id
    · rw [hj, Function.update_self] at hc
      obtain hc | hc := List.mem_append.1 hc
      · exact (h.own id c hc).trans hj.symm
      · rw [List.mem_singleton.1 hc, hid, hj]
    · rw [Function.update_of_ne hj] at hc
      exact h.own j c hc

/-- Deltas one by one, until nothing is lacking. -/
lemma data_of_lag {s : StateSynchronizer M V} {T : Ref → Option (Record V)}
    {R : EntityId → Record V} {ds : List (StateDelta V)}
    (h : Lag σ s.stateManager T (fun id => deltasOf id ds) R) (now : Timestamp) (id : EntityId) :
    (forEachWrite (receiveDelta now) (ds.map (writtenDelta σ.memory)) s).1.stateManager.data id =
      σ.data id := by
  induction ds generalizing s R with
  | nil => exact h.data_eq (fun _ => rfl) id
  | cons d ds ih =>
    have hQ : deltasOf d.entityId (d :: ds) = [d] ++ deltasOf d.entityId ds := by
      rw [deltasOf_cons, if_pos rfl]
      rfl
    obtain ⟨e, he⟩ := Option.isSome_iff_exists.1
      ((h.entity d.entityId).live (by rw [hQ]; exact List.cons_ne_nil _ _))
    have hops : (writtenDelta σ.memory d).operations = heldOperations σ.memory [d] := by
      rw [operations_writtenDelta fun op hop =>
        h.json_value he (by rw [hQ]; exact List.mem_cons_self) hop]
      simp [heldOperations]
    obtain ⟨hnone, -, R', hlag⟩ := @Lag.deliver _ _ _ _ _ _ _ _ s h (writtenDelta σ.memory d) [d]
      (deltasOf d.entityId ds) hQ (List.cons_ne_nil _ _) rfl (fun o _ => by rw [hops]) now
    have hqueues : Function.update (fun id => deltasOf id (d :: ds))
        (writtenDelta σ.memory d).entityId (deltasOf d.entityId ds) = fun id => deltasOf id ds := by
      funext j
      by_cases hj : j = d.entityId
      · subst hj
        exact Function.update_self _ _ _
      · refine (Function.update_of_ne hj _ _).trans ?_
        rw [deltasOf_cons, if_neg (Ne.symm hj)]
    rw [hqueues] at hlag
    rw [List.map_cons, forEachWrite_cons_ok hnone]
    exact ih hlag

/-- **The answer brings the other store up to date.** -/
lemma Following.data_receiveDeltas {s : StateSynchronizer M V}
    (h : Following version s.stateManager σ) (source : NodeId) (now : Timestamp) (id : EntityId) :
    (s.receiveDeltas source ((σ.getDeltasSince version).map (writtenDelta σ.memory))
      now).1.stateManager.data id = σ.data id := by
  obtain ⟨T, R, hlag⟩ := h.lag
  have hqueues : σ.deltasSince version = fun id => deltasOf id (σ.getDeltasSince version) :=
    funext fun id => (deltasOf_getDeltasSince h.own h.time id).symm
  rw [hqueues] at hlag
  rw [receiveDeltas_stateManager]
  exact data_of_lag hlag now id

end Following

/-! ## The cached snapshot -/

section Fresh

variable {s : StateSynchronizer M V}

lemma cacheFresh_handleRemoteDelta (h : s.stateManager.CacheFresh) (source : NodeId)
    (deltas : List (StateDelta V)) (now : Timestamp) :
    (s.handleRemoteDelta source deltas now).1.stateManager.CacheFresh :=
  handleRemoteDelta_invariant (fun _ _ h => h)
    (fun σ id operations now h => Engine.cacheFresh_of_moves h
      (Engine.moves_updateEntity σ id operations now)) h source deltas now

variable [NumberMemory M V]

/-- **No call leaves a stale snapshot in the cache.** -/
lemma cacheFresh_call (h : s.stateManager.CacheFresh) (text : Doc → String) (nodeId : NodeId)
    (c : Call × Timestamp) : (s.call text nodeId c).stateManager.CacheFresh := by
  obtain ⟨c, now⟩ := c
  cases c with
  | createEntity type ownerId data id => exact Engine.cacheFresh_of_moves h (.inl ⟨rfl, rfl⟩)
  | updateEntity id operations =>
    show (s.receiveUpdate id operations now).stateManager.CacheFresh
    rw [receiveUpdate, heard_stateManager]
    have hmoves := Engine.moves_updateEntity
      { s.stateManager with memory := (parseOperations s.stateManager.memory operations).2 } id
      (parseOperations s.stateManager.memory operations).1 now
    exact Engine.cacheFresh_of_moves (σ := { s.stateManager with
      memory := (parseOperations s.stateManager.memory operations).2 }) h hmoves
  | deleteEntity id => exact Engine.cacheFresh_of_moves h (Engine.moves_deleteEntity _ id)
  | flushDeltas =>
    show (s.flushDeltas text nodeId now).1.stateManager.CacheFresh
    unfold flushDeltas
    split
    next => exact h
    next =>
      split
      next => exact h
      next compressed _ =>
        have hsplice : s.splice.stateManager.CacheFresh := h
        exact cacheFresh_handleRemoteDelta hsplice nodeId compressed now

end Fresh

/-! ## The answer -/

section Answers

variable [NumberMemory M V]

/-- **A call that the deltas from `version` on make up for.**  It creates and deletes nothing.  An
update does not throw, its operations survive the text and reach into no value that an earlier delta
carries, its time is not before theirs, none of them is dropped from the history, and its entity has
reached the version.  A flush comes to nothing. -/
def Follows (text : Doc → String) (version : ℕ) (s : StateSynchronizer M V) (c : Call × Timestamp) :
    Prop :=
  match c.1 with
  | .createEntity _ _ _ _ => False
  | .updateEntity id operations => ∀ e o, s.stateManager.entities.get? id = some e →
      s.stateManager.data id = some o →
      version ≤ e.version ∧ Engine.JsonOperations operations ∧
      Unaliased (heldOperations s.stateManager.memory (s.stateManager.deltasSince version id) ++
        operations) ∧
      (applyAll operations o).2 = none ∧
      (∀ d ∈ s.stateManager.deltasSince version id, d.timestamp ≤ c.2) ∧
      (s.stateManager.deltasSince version id).length < s.stateManager.maxHistoryPerEntity
  | .deleteEntity id => s.stateManager.data id = none
  | .flushDeltas => s.Quiet text

/-- **When the answer is right.**  It is a snapshot, of data that survives the text; or it is made
of deltas, none of which was there when the two stores were equal, and they make up for every call
since. -/
def Answered (text : Doc → String) (nodeId : NodeId) (s : StateSynchronizer M V)
    (calls : List (Call × Timestamp)) : Prop :=
  let version := s.stateManager.version
  let later := (Machine.run (call text nodeId) s calls).stateManager
  if later.getDeltasSince version = [] then ∀ id o, later.data id = some o → o.IsJson
  else s.stateManager.getDeltasSince version = [] ∧
    Machine.Along (call text nodeId) (Follows text version) s calls

variable [TreeMemory M V] {version : ℕ} {τ : StateManager M V} {s : StateSynchronizer M V}

lemma Following.call (h : Following version τ s.stateManager) {text : Doc → String}
    (nodeId : NodeId) {c : Call × Timestamp} (hfollows : s.Follows text version c) :
    Following version τ (s.call text nodeId c).stateManager := by
  obtain ⟨c, now⟩ := c
  cases c with
  | createEntity type ownerId data id => exact absurd hfollows not_false
  | updateEntity id operations =>
    show Following version τ (s.receiveUpdate id operations now).stateManager
    rw [receiveUpdate, heard_stateManager]
    cases hget : s.stateManager.entities.get? id with
    | none =>
      obtain ⟨T, R, hlag⟩ := h.lag
      have hlag' := hlag.update_none hget operations now
      rw [receiveUpdate_of_none hget] at hlag' ⊢
      exact ⟨⟨T, R, hlag'⟩, h.reaching, h.time, h.own⟩
    | some e =>
      have hread := data_eq_some hget
      obtain ⟨hversion, hjson, hunaliased, hok, htime, hroom⟩ := hfollows e _ hget hread
      refine h.update hget hversion hjson hunaliased (fun o ho => ?_) htime hroom
      obtain rfl := Option.some.inj (hread.symm.trans ho)
      exact hok
  | deleteEntity id =>
    have hnone : s.stateManager.entities.get? id = none := by
      rw [← Option.not_isSome_iff_eq_none, ← isSome_data, show _ = none from hfollows]
      simp
    show Following version τ (s.stateManager.deleteEntity id)
    rw [StateManager.deleteEntity, hnone]
    exact h
  | flushDeltas =>
    show Following version τ (s.flushDeltas text nodeId now).1.stateManager
    rw [(flushDeltas_of_quiet hfollows nodeId now).1]
    exact h

omit [TreeMemory M V] [NumberMemory M V] in
/-- The deltas of an answer. -/
lemma handleStateRequest_of_deltas {version : ℕ}
    (h : s.stateManager.getDeltasSince version ≠ []) (now : Timestamp) :
    (s.handleStateRequest version now).2 = .stateDelta
      ((s.stateManager.getDeltasSince version).map (writtenDelta s.stateManager.memory)) := by
  have hlength : (s.stateManager.getDeltasSince version).length > 0 := List.length_pos_of_ne_nil h
  simp only [handleStateRequest, hlength, if_true]

omit [TreeMemory M V] [NumberMemory M V] in
/-- The snapshot of an answer. -/
lemma handleStateRequest_of_none {version : ℕ}
    (h : s.stateManager.getDeltasSince version = []) (now : Timestamp) :
    (s.handleStateRequest version now).2 =
      .stateSnapshot (s.stateManager.createSnapshot now).2.version
        (Engine.snapshotDoc s.stateManager.memory
          (s.stateManager.createSnapshot now).2).entities := by
  have hmemory : (s.stateManager.createSnapshot now).1.memory = s.stateManager.memory := by
    rw [createSnapshot_fst]
  simp only [handleStateRequest, h, List.length_nil, gt_iff_lt, lt_irrefl, if_false, hmemory]

omit [NumberMemory M V] in
/-- A store loaded from a snapshot holds what the snapshot's text says. -/
lemma data_receive_snapshot {σ : StateManager M V} (hfresh : σ.CacheFresh)
    {replica : StateSynchronizer M V} {T : Ref → Option (Record V)}
    (hreplica : replica.stateManager.Holds T) (now : Timestamp)
    (id : EntityId) :
    (replica.receiveSnapshot (σ.createSnapshot now).2.version
      (Engine.snapshotDoc σ.memory (σ.createSnapshot now).2).entities).stateManager.data id =
      (σ.data id).map Obj.json := by
  obtain ⟨T', -, -, hview⟩ := hreplica.receiveSnapshot
    (Engine.snapshotDoc σ.memory (σ.createSnapshot now).2).entities
    (σ.createSnapshot now).2.version
  show (replica.stateManager.receiveSnapshot _ _).data id = _
  rw [data_eq_view, hview, Engine.get?_snapshotDoc, entities_createSnapshot hfresh]
  unfold data
  cases σ.entities.get? id <;> rfl

/-- A node that asks for the state since `version` and handles the answer. -/
def catchUp (replica source : StateSynchronizer M V) (nodeId : NodeId) (version : ℕ)
    (now now' : Timestamp) : StateSynchronizer M V :=
  (replica.receive nodeId now' (source.handleStateRequest version now).2).1

end Answers

/-- A node with one entity, and another one that is equal to it. -/
def oneNode : StateSynchronizer Cells Doc := .new (oneEntity .empty) ConflictResolver.new 100

/-- An update of the entity, since then. -/
def updatedSince : List (Call × Timestamp) :=
  [(.updateEntity "e1" [⟨.increment, "hp", .prim (.num 5)⟩], 2)]

end StateSynchronizer

end SyncEngine
