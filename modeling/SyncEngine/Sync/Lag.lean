import SyncEngine.Sync.StateSynchronizer
import SyncEngine.Persistence.Durability

/-!
# A store that lags behind another

`Lag σ τ T Q R` says that the store `τ` becomes `σ` once the deltas `Q id` are applied to each
entity `id` of it.  The operations of these deltas are held in the memory of `σ`, where nothing has
reached into their values (`R` pairs each of them with the document it came with), and their
versions are those that `τ` will have or has passed, so that `τ` takes none of them for a conflict.

An update of `σ` adds its delta to the queue of its entity (`Lag.update`).  A delta handed to `τ`
takes from the queue of its entity the deltas whose work it does (`Lag.deliver`).  With empty
queues the two stores hold the same data.
-/

namespace SyncEngine

open Js StateManager

variable {M V : Type}

/-- An update that has recorded a delta has set the version of its entity. -/
lemma StateManager.entities_of_updated [Memory M V] {σ : StateManager M V} {id : EntityId}
    {operations : List (DeltaOperation V)} {now : Timestamp} {d : StateDelta V}
    (h : (σ.updateEntity id operations now).2 = .updated d) :
    ∃ e, σ.entities.get? id = some e ∧ (σ.updateEntity id operations now).1.entities =
      σ.entities.set id { e with version := e.version + 1, lastModified := now } := by
  obtain ⟨e, _, hget, -, hcommit⟩ := exists_of_updated h
  exact ⟨e, hget, by rw [hcommit]; rfl⟩

lemma StateManager.isSome_data [Memory M V] (σ : StateManager M V) (id : EntityId) :
    (σ.data id).isSome = (σ.entities.get? id).isSome := by
  rw [StateManager.data, Option.isSome_map]

/-- The operations of deltas, as they read in memory `m`. -/
def heldOperations [Memory M V] (m : M) (deltas : List (StateDelta V)) :
    List (DeltaOperation Doc) :=
  (deltas.flatMap fun d => d.operations).map fun op => op.map (Memory.readValue m)

section Lags

variable [Memory M V]

/-- The entity `id` of `τ` becomes that of `σ` once the deltas `Q` are applied to it. -/
structure EntityLag (σ τ : StateManager M V) (T : Ref → Option (Record V)) (id : EntityId)
    (Q : List (StateDelta V)) (R : Record V) : Prop where
  performed : ∀ e, σ.entities.get? id = some e → ∃ all, T e.data = some all ∧ R <:+ all
  recorded : R.map Prod.fst = Q.flatMap fun d => d.operations
  unaliased : Unaliased R.docs
  json : Engine.JsonOperations R.docs
  live : Q ≠ [] → (σ.entities.get? id).isSome
  same : (τ.entities.get? id).isSome = (σ.entities.get? id).isSome
  data : ∀ o, τ.data id = some o →
    (applyAll R.docs o).2 = none ∧ σ.data id = some (applyAll R.docs o).1
  version : ∀ e f, σ.entities.get? id = some e → τ.entities.get? id = some f →
    f.version ≤ e.version ∧ ∀ d ∈ Q, f.version ≤ d.fromVersion ∧ d.fromVersion < e.version
  ascending : Q.Pairwise fun a b => a.fromVersion < b.fromVersion

/-- The queue of an entity depends on what the stores have of that entity. -/
lemma EntityLag.congr {σ σ' τ τ' : StateManager M V} {T T' : Ref → Option (Record V)}
    {id : EntityId} {Q : List (StateDelta V)} {R : Record V} (h : EntityLag σ τ T id Q R)
    (hσ : σ'.entities.get? id = σ.entities.get? id) (hσ' : σ'.data id = σ.data id)
    (hτ : τ'.entities.get? id = τ.entities.get? id) (hτ' : τ'.data id = τ.data id)
    (hT : ∀ e, σ.entities.get? id = some e → T' e.data = T e.data) :
    EntityLag σ' τ' T' id Q R := by
  refine ⟨fun e he => ?_, h.recorded, h.unaliased, h.json, ?_, ?_, ?_, ?_, h.ascending⟩
  · rw [hσ] at he
    rw [hT e he]
    exact h.performed e he
  · rw [hσ]
    exact h.live
  · rw [hσ, hτ]
    exact h.same
  · rw [hσ', hτ']
    exact h.data
  · rw [hσ, hτ]
    exact h.version

lemma Record.docs_append (xs ys : Record V) : (xs ++ ys).docs = xs.docs ++ ys.docs :=
  List.map_append

/-- An update of the entity extends its queue. -/
lemma EntityLag.extend {σ σ' τ : StateManager M V} {T T' : Ref → Option (Record V)}
    {id : EntityId} {Q : List (StateDelta V)} {R xs : Record V} (h : EntityLag σ τ T id Q R)
    {e : EntityState} {d : StateDelta V} {o : Obj Doc}
    (hget : σ.entities.get? id = some e) (hread : σ.data id = some o) (now : Timestamp)
    (hget' : σ'.entities.get? id =
      some { e with version := e.version + 1, lastModified := now })
    (hread' : σ'.data id = some (applyAll xs.docs o).1) (hok : (applyAll xs.docs o).2 = none)
    (hT : ∀ all, T e.data = some all → T' e.data = some (all ++ xs))
    (hfrom : d.fromVersion = e.version) (hops : xs.map Prod.fst = d.operations)
    (hunaliased : Unaliased (R.docs ++ xs.docs)) (hjson : Engine.JsonOperations xs.docs) :
    EntityLag σ' τ T' id (Q ++ [d]) (R ++ xs) := by
  have hsame := h.same
  rw [hget] at hsame
  obtain ⟨f, hf⟩ := Option.isSome_iff_exists.1 hsame
  obtain ⟨hfe, hqueue⟩ := h.version e f hget hf
  refine ⟨fun g hg => ?_, ?_, ?_, ?_, fun _ => ?_, ?_, fun o' ho' => ?_, fun g f' hg hf' => ?_, ?_⟩
  · rw [hget', Option.some.injEq] at hg
    subst hg
    obtain ⟨all, hall, earlier, rfl⟩ := h.performed e hget
    exact ⟨_, hT _ hall, earlier, (List.append_assoc _ _ _).symm⟩
  · rw [List.map_append, h.recorded, hops, List.flatMap_append]
    simp
  · rw [Record.docs_append]
    exact hunaliased
  · rw [Record.docs_append]
    intro op hop
    rcases List.mem_append.1 hop with hop | hop
    · exact h.json op hop
    · exact hjson op hop
  · rw [hget']
    rfl
  · rw [hget', hf]
    rfl
  · obtain ⟨hfine, hdata⟩ := h.data o' ho'
    rw [hread, Option.some.injEq] at hdata
    have happend : applyAll (R.docs ++ xs.docs) o' = applyAll xs.docs (applyAll R.docs o').1 :=
      forEachWrite_append_ok hfine
    rw [Record.docs_append, happend, ← hdata]
    exact ⟨hok, hread'⟩
  · rw [hget', Option.some.injEq] at hg
    rw [hf, Option.some.injEq] at hf'
    subst hg hf'
    refine ⟨hfe.trans (Nat.le_succ _), fun c hc => ?_⟩
    rcases List.mem_append.1 hc with hc | hc
    · exact ⟨(hqueue c hc).1, (hqueue c hc).2.trans (Nat.lt_succ_self _)⟩
    · rw [List.mem_singleton.1 hc, hfrom]
      exact ⟨hfe, Nat.lt_succ_self _⟩
  · refine List.pairwise_append.2 ⟨h.ascending, List.pairwise_singleton _ _, fun a ha b hb => ?_⟩
    rw [List.mem_singleton.1 hb, hfrom]
    exact (hqueue a ha).2

/-- A delta that does the work of the first deltas of the queue takes them from it, and leaves the
entity one version ahead. -/
lemma EntityLag.advance {σ τ τ' : StateManager M V} {T : Ref → Option (Record V)}
    {id : EntityId} {Q₁ Q₂ : List (StateDelta V)} {R₁ R₂ : Record V}
    (h : EntityLag σ τ T id (Q₁ ++ Q₂) (R₁ ++ R₂)) (hne : Q₁ ≠ [])
    (hops : R₁.map Prod.fst = Q₁.flatMap fun d => d.operations) {f : EntityState} {o : Obj Doc}
    (hget : τ.entities.get? id = some f) (hread : τ.data id = some o) (now : Timestamp)
    (hget' : τ'.entities.get? id =
      some { f with version := f.version + 1, lastModified := now })
    (hread' : τ'.data id = some (applyAll R₁.docs o).1) :
    EntityLag σ τ' T id Q₂ R₂ := by
  obtain ⟨hfine, hdata⟩ := h.data o hread
  rw [Record.docs_append] at hfine hdata
  have hfirst : (applyAll R₁.docs o).2 = none := ok_of_forEachWrite_append hfine
  have happend : applyAll (R₁.docs ++ R₂.docs) o = applyAll R₂.docs (applyAll R₁.docs o).1 :=
    forEachWrite_append_ok hfirst
  have hunaliased := h.unaliased
  have hjson := h.json
  rw [Record.docs_append] at hunaliased hjson
  obtain ⟨first, rest, rfl⟩ := List.exists_cons_of_ne_nil hne
  obtain ⟨-, hascending, hlater⟩ := List.pairwise_append.1 h.ascending
  refine ⟨fun e he => ?_, ?_, ?_, fun op hop => ?_, fun _ => ?_, ?_, fun o' ho' => ?_,
    fun e g he hg => ?_, hascending⟩
  · obtain ⟨all, hall, hsuffix⟩ := h.performed e he
    exact ⟨all, hall, (List.suffix_append R₁ R₂).trans hsuffix⟩
  · have hrecorded := h.recorded
    rw [List.map_append, List.flatMap_append, hops] at hrecorded
    exact List.append_cancel_left hrecorded
  · exact (List.pairwise_append.1 hunaliased).2.1
  · exact hjson op (List.mem_append_right _ hop)
  · exact h.live (by simp)
  · rw [hget', ← h.same, hget]
    rfl
  · rw [hread', Option.some.injEq] at ho'
    subst ho'
    rw [← happend]
    exact ⟨hfine, hdata⟩
  · rw [hget', Option.some.injEq] at hg
    subst hg
    obtain ⟨hfe, hqueue⟩ := h.version e f he hget
    obtain ⟨hfrom, hbelow⟩ := hqueue first (by simp)
    refine ⟨hfrom.trans_lt hbelow, fun d hd => ⟨?_, (hqueue d (by simp [hd])).2⟩⟩
    exact hfrom.trans_lt (hlater first (by simp) d hd)

variable [TreeMemory M V]

/-- **`τ` becomes `σ` once the deltas of the queues `Q` are applied to it.** -/
structure Lag (σ τ : StateManager M V) (T : Ref → Option (Record V))
    (Q : EntityId → List (StateDelta V)) (R : EntityId → Record V) : Prop where
  holds : σ.Holds T
  replica : ∃ T', τ.Holds T'
  entity : ∀ id, EntityLag σ τ T id (Q id) (R id)

end Lags

namespace Lag

variable [Memory M V] [TreeMemory M V] {σ τ : StateManager M V} {T : Ref → Option (Record V)}
  {Q : EntityId → List (StateDelta V)} {R : EntityId → Record V}

/-- **Equal stores lag nowhere.** -/
lemma refl {T' : Ref → Option (Record V)} (hσ : σ.Holds T) (hτ : τ.Holds T')
    (hview : ∀ id, τ.view id = σ.view id) : Lag σ τ T (fun _ => []) fun _ => [] := by
  refine ⟨hσ, ⟨T', hτ⟩, fun id => ⟨fun e hget => ?_, rfl, .nil, ?_, fun h => absurd rfl h, ?_,
    fun o ho => ⟨rfl, ?_⟩, fun e f he hf => ⟨?_, by simp⟩, .nil⟩⟩
  · obtain ⟨all, hall⟩ := Option.isSome_iff_exists.1 (hσ.tracked id e hget)
    exact ⟨all, hall, List.nil_suffix⟩
  · intro op hop
    simp [Record.docs] at hop
  · have hsome := congrArg Option.isSome (hview id)
    simpa [view] using hsome
  · rw [data_eq_view, hview, ← data_eq_view] at ho
    exact ho
  · have hversion := congrArg (Option.map EntityDoc.version) (hview id)
    simp only [view, he, hf, Option.map_some, toDoc, Option.some.injEq] at hversion
    exact hversion.le

/-- With empty queues the two stores hold the same data. -/
lemma data_eq (h : Lag σ τ T Q R) (hempty : ∀ id, Q id = []) (id : EntityId) :
    τ.data id = σ.data id := by
  have hnone : R id = [] := by simpa [hempty id] using (h.entity id).recorded
  cases ho : τ.data id with
  | some o =>
    have hdata := ((h.entity id).data o ho).2
    rw [hnone] at hdata
    exact hdata.symm
  | none =>
    have hsame := (h.entity id).same
    rw [← isSome_data, ← isSome_data, ho] at hsame
    exact (Option.not_isSome_iff_eq_none.1 (by simp [← hsame])).symm

/-- **The operations in the queues read as the documents they came with.** -/
lemma held (h : Lag σ τ T Q R) {id : EntityId} {e : EntityState}
    (hget : σ.entities.get? id = some e) : heldOperations σ.memory (Q id) = (R id).docs := by
  obtain ⟨all, hall, hsuffix⟩ := (h.entity id).performed e hget
  have htracks : Tracks σ.memory (Function.update T e.data (some (R id))) [] := by
    refine tracks_forget h.holds.tracks (fun r done hr => ?_) List.suffix_rfl
    by_cases hre : r = e.data
    · subst hre
      rw [Function.update_self, Option.some.injEq] at hr
      exact ⟨all, hall, hr ▸ hsuffix⟩
    · rw [Function.update_of_ne hre] at hr
      exact ⟨done, hr, List.suffix_rfl⟩
  have hheld := tracks_held htracks (Function.update_self _ _ _) (h.entity id).unaliased
  rw [heldOperations, ← (h.entity id).recorded, List.map_map]
  exact List.map_congr_left hheld

/-- An update that finds no entity changes nothing. -/
lemma update_none (h : Lag σ τ T Q R) {id : EntityId} (hget : σ.entities.get? id = none)
    (operations : List (DeltaOperation Doc)) (now : Timestamp) :
    Lag (σ.receiveUpdate id operations now).1 τ T Q R := by
  obtain ⟨hholds, hdata⟩ := h.holds.receiveUpdate_none hget operations now
  have hentities : (σ.receiveUpdate id operations now).1.entities = σ.entities := by
    rw [receiveUpdate_of_none hget]
  exact ⟨hholds, h.replica, fun j => (h.entity j).congr (by rw [hentities]) (hdata j) rfl rfl
    fun _ _ => rfl⟩

section Update

variable {id : EntityId} {e : EntityState} {operations : List (DeltaOperation Doc)}

omit [TreeMemory M V] in
/-- The entity of an update that has recorded a delta. -/
lemma get?_updated {d : StateDelta V} {now : Timestamp} (hget : σ.entities.get? id = some e)
    (h : (σ.receiveUpdate id operations now).2 = .updated d) (j : EntityId) :
    (σ.receiveUpdate id operations now).1.entities.get? j =
      if j = id then some { e with version := e.version + 1, lastModified := now }
      else σ.entities.get? j := by
  obtain ⟨e', he', hentities⟩ := entities_of_updated h
  obtain rfl : e' = e := Option.some.inj (he'.symm.trans hget)
  have hset : (σ.receiveUpdate id operations now).1.entities =
      σ.entities.set id { e' with version := e'.version + 1, lastModified := now } := hentities
  rw [hset, Js.Map.get?_set]

/-- **An update adds its delta to the queue of its entity.**  Its operations came from a text, none
of them reaches into a value that another one in the queue carries, and none throws. -/
lemma update (h : Lag σ τ T Q R) (hget : σ.entities.get? id = some e) (now : Timestamp)
    (hjson : Engine.JsonOperations operations)
    (hunaliased : Unaliased (heldOperations σ.memory (Q id) ++ operations))
    (hok : ∀ o, σ.data id = some o → (applyAll operations o).2 = none) :
    ∃ d T' R', (σ.receiveUpdate id operations now).2 = .updated d ∧ d.entityId = id ∧
      d.timestamp = now ∧ Lag (σ.receiveUpdate id operations now).1 τ T'
        (Function.update Q id (Q id ++ [d])) R' := by
  obtain ⟨all, hall, hsuffix⟩ := (h.entity id).performed e hget
  obtain ⟨more, -, hmore, hholds, hdata, hresult⟩ := h.holds.receiveUpdate hget hall operations now
  have hread := data_eq_some hget
  have hnone := hok _ hread
  rw [hnone] at hresult
  rw [hmore hnone] at hholds
  have hentities := get?_updated hget hresult
  have hdocs := parsedRecord_docs σ.memory operations
  refine ⟨_, _, Function.update R id (R id ++ parsedRecord σ.memory operations), hresult, rfl, rfl,
    ⟨hholds, h.replica, fun j => ?_⟩⟩
  by_cases hj : j = id
  · subst hj
    rw [Function.update_self, Function.update_self]
    refine (h.entity j).extend hget hread now ?_ ?_ ?_ (fun all' hall' => ?_) rfl
      (parsedRecord_fst _ _) ?_ ?_
    · rw [hentities, if_pos rfl]
    · rw [hdata, if_pos rfl, hdocs]
    · rw [hdocs]
      exact hnone
    · obtain rfl := Option.some.inj (hall.symm.trans hall')
      exact Function.update_self _ _ _
    · rw [hdocs, ← h.held hget]
      exact hunaliased
    · rw [hdocs]
      exact hjson
  · rw [Function.update_of_ne hj, Function.update_of_ne hj]
    refine (h.entity j).congr ?_ ?_ rfl rfl fun g hg => ?_
    · rw [hentities, if_neg hj]
    · rw [hdata, if_neg hj]
    · exact Function.update_of_ne (fun hdata => hj (h.holds.own j g id e hg hget hdata)) _ _

end Update

/-- The operations of the first deltas of a queue, with the documents they came with. -/
lemma held_first (h : Lag σ τ T Q R) {id : EntityId} {Q₁ Q₂ : List (StateDelta V)}
    (hQ : Q id = Q₁ ++ Q₂) (hne : Q₁ ≠ []) :
    ∃ R₁ R₂, R id = R₁ ++ R₂ ∧ R₁.map Prod.fst = (Q₁.flatMap fun d => d.operations) ∧
      heldOperations σ.memory Q₁ = R₁.docs := by
  obtain ⟨e, hget⟩ := Option.isSome_iff_exists.1 ((h.entity id).live (by simp [hQ, hne]))
  have hrecorded := (h.entity id).recorded
  rw [hQ, List.flatMap_append] at hrecorded
  obtain ⟨R₁, R₂, hR, hfirst, hrest⟩ := List.map_eq_append_iff.1 hrecorded
  refine ⟨R₁, R₂, hR, hfirst, ?_⟩
  have hheld := h.held hget
  rw [hQ, hR, heldOperations, List.flatMap_append, List.map_append, Record.docs_append] at hheld
  refine (List.append_inj hheld ?_).1
  rw [← hfirst]
  simp [Record.docs]

/-- **A delta handed to the other store** that does the work of the first deltas of its queue takes
them from the queue. -/
lemma deliver {s : StateSynchronizer M V} (h : Lag σ s.stateManager T Q R) {d : StateDelta Doc}
    {Q₁ Q₂ : List (StateDelta V)} (hQ : Q d.entityId = Q₁ ++ Q₂) (hne : Q₁ ≠ [])
    (hfrom : d.fromVersion = (Q₁.head hne).fromVersion)
    (hops : ∀ o, s.stateManager.data d.entityId = some o →
      applyAll d.operations o = applyAll (heldOperations σ.memory Q₁) o) (now : Timestamp) :
    (StateSynchronizer.receiveDelta now d s).2 = none ∧
      (∀ j, j ≠ d.entityId → (StateSynchronizer.receiveDelta now d s).1.stateManager.data j =
        s.stateManager.data j) ∧
      ∃ R', Lag σ (StateSynchronizer.receiveDelta now d s).1.stateManager T
        (Function.update Q d.entityId Q₂) R' := by
  obtain ⟨T', hT'⟩ := h.replica
  obtain ⟨R₁, R₂, hR, hfirst, hdocs⟩ := h.held_first hQ hne
  have hentity := h.entity d.entityId
  rw [hQ, hR] at hentity
  obtain ⟨e, he⟩ := Option.isSome_iff_exists.1 (hentity.live (by simp [hne]))
  obtain ⟨f, hf⟩ := Option.isSome_iff_exists.1 (hentity.same.trans (by rw [he]; rfl))
  have hnewer : f.version ≤ d.fromVersion := by
    rw [hfrom]
    exact ((hentity.version e f he hf).2 _ (List.mem_append_left _ (List.head_mem hne))).1
  have hreceive := StateSynchronizer.receiveDelta_eq (s := s) (d := d) now fun g hg => by
    obtain rfl := Option.some.inj (hf.symm.trans hg)
    exact hnewer
  obtain ⟨done, hdone⟩ := Option.isSome_iff_exists.1 (hT'.tracked _ f hf)
  obtain ⟨more, -, -, hholds, hdata, hresult⟩ := hT'.receiveUpdate hf hdone d.operations now
  have hread := data_eq_some hf
  have hsame := hops _ hread
  rw [hdocs] at hsame
  have hfine : (applyAll R₁.docs (Memory.read s.stateManager.memory f.data)).2 = none := by
    have hall := (hentity.data _ hread).1
    rw [Record.docs_append] at hall
    exact ok_of_forEachWrite_append hall
  rw [hsame, hfine] at hresult
  have hentities := get?_updated hf hresult
  have hheard : s.heard (s.stateManager.receiveUpdate d.entityId d.operations now) =
      ({ s with
        stateManager := (s.stateManager.receiveUpdate d.entityId d.operations now).1
        pendingDeltas := s.pendingDeltas ++ [⟨d.entityId, f.version, f.version + 1,
          (parseOperations s.stateManager.memory d.operations).1, now⟩] }, none) := by
    rcases hrec : s.stateManager.receiveUpdate d.entityId d.operations now with ⟨τ, result⟩
    rw [hrec] at hresult
    rw [show result = _ from hresult]
    rfl
  rw [hreceive, hheard]
  refine ⟨rfl, fun j hj => ?_, Function.update R d.entityId R₂, h.holds, ⟨_, hholds⟩, fun j => ?_⟩
  · rw [hdata, if_neg hj]
  · by_cases hj : j = d.entityId
    · subst hj
      rw [Function.update_self, Function.update_self]
      refine hentity.advance hne hfirst hf hread now ?_ ?_
      · rw [hentities, if_pos rfl]
      · rw [hdata, if_pos rfl, hsame]
    · rw [Function.update_of_ne hj, Function.update_of_ne hj]
      refine (h.entity j).congr rfl rfl ?_ ?_ fun _ _ => rfl
      · rw [hentities, if_neg hj]
      · rw [hdata, if_neg hj]

end Lag

end SyncEngine
