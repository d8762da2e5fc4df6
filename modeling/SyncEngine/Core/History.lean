import SyncEngine.Core.StateManager
import SyncEngine.Machine.Runs

/-!
# Entity histories

What is the history of an entity worth?  `Kept` is the invariant one would rely on: a history that
is not empty belongs to an entity that exists, is no longer than the limit, and is a chain of
deltas of one version each that ends at the version the entity has.

Every call but one keeps it.  `createEntity` accepts the id of an entity that is there: it puts a
record of version 1 in its place and leaves the history of the old one.  `Restarts` is the
condition under which that does no harm, and `histories_kept_iff` says that nothing else can break
the invariant.
-/

namespace SyncEngine

open Js

namespace StateManager

variable {M V : Type}

/-- `clear()`. -/
def clear (σ : StateManager M V) : StateManager M V :=
  { σ with entities := .empty, history := .empty, version := 0, cache := none }

/-- `id || generateId()`. -/
def settleId (id : Option EntityId) (generated : EntityId) : EntityId :=
  match id with
  | none => generated
  | some id => if id = "" then generated else id

/-- The calls that write to a store. -/
inductive Call (V : Type)
  | createEntity (type ownerId : String) (data : Ref) (id : Option EntityId)
      (generated : EntityId) (now : Timestamp)
  | updateEntity (id : EntityId) (operations : List (DeltaOperation V)) (now : Timestamp)
  | deleteEntity (id : EntityId)
  | loadSnapshot (entities : Js.Map EntityId EntityState) (version : ℕ)
  | clear

def call [Memory M V] (σ : StateManager M V) : Call V → StateManager M V
  | .createEntity type ownerId data id generated now =>
    σ.createEntity type ownerId data (settleId id generated) now
  | .updateEntity id operations now => (σ.updateEntity id operations now).1
  | .deleteEntity id => σ.deleteEntity id
  | .loadSnapshot entities version => σ.loadSnapshot entities version
  | .clear => σ.clear

/-! ## The invariant -/

/-- The deltas lead, one version at a time, to `version`. -/
structure LeadsTo (history : List (StateDelta V)) (version : ℕ) : Prop where
  single : ∀ d ∈ history, d.toVersion = d.fromVersion + 1
  chain : history.IsChain fun a b => b.fromVersion = a.toVersion
  ends : ∀ d, history.getLast? = some d → d.toVersion = version

/-- The history of an entity belongs to it. -/
def KeptFor (σ : StateManager M V) (id : EntityId) : Prop :=
  σ.getEntityHistory id ≠ [] → ∃ e, σ.getEntity id = some e ∧
    (σ.getEntityHistory id).length ≤ σ.maxHistoryPerEntity ∧
    LeadsTo (σ.getEntityHistory id) e.version

/-- The history of every entity belongs to it. -/
def Kept (σ : StateManager M V) : Prop := ∀ id, σ.KeptFor id

/-- An entity is only created where no history is, or where the history ends at version 1. -/
def Restarts (σ : StateManager M V) : Call V → Prop
  | .createEntity _ _ _ id generated _ =>
    ∀ d, (σ.getEntityHistory (settleId id generated)).getLast? = some d → d.toVersion = 1
  | _ => True

/-! ## What the calls do to a history -/

variable {σ : StateManager M V}

lemma keptFor_of_nil {id : EntityId} (h : σ.getEntityHistory id = []) : σ.KeptFor id :=
  fun hne => absurd h hne

lemma kept_of_empty (h : σ.history = .empty) : σ.Kept := by
  intro id
  apply keptFor_of_nil
  rw [getEntityHistory, h]
  rfl

/-- A call that leaves an entity and its history alone keeps what they are to one another. -/
lemma KeptFor.congr {τ : StateManager M V} {id : EntityId} (h : σ.KeptFor id)
    (hhistory : τ.getEntityHistory id = σ.getEntityHistory id)
    (hentity : τ.getEntity id = σ.getEntity id)
    (hmax : τ.maxHistoryPerEntity = σ.maxHistoryPerEntity) : τ.KeptFor id := by
  unfold KeptFor
  rw [hhistory, hentity, hmax]
  exact h

lemma LeadsTo.nil (version : ℕ) : LeadsTo ([] : List (StateDelta V)) version where
  single := by simp
  chain := .nil
  ends := by simp

/-- One more delta, from where the history has led. -/
lemma LeadsTo.snoc {history : List (StateDelta V)} {d : StateDelta V}
    (h : LeadsTo history d.fromVersion) (hd : d.toVersion = d.fromVersion + 1) :
    LeadsTo (history ++ [d]) d.toVersion where
  single a ha := by
    obtain ha | ha := List.mem_append.1 ha
    · exact h.single a ha
    · rw [List.mem_singleton.1 ha]
      exact hd
  chain := by
    rw [List.isChain_append]
    refine ⟨h.chain, .singleton d, fun a ha b hb => ?_⟩
    obtain rfl : d = b := by simpa using hb
    exact (h.ends a ha).symm
  ends a ha := by
    rw [List.getLast?_concat, Option.some.injEq] at ha
    rw [ha]

lemma LeadsTo.tail {history : List (StateDelta V)} {version : ℕ} (h : LeadsTo history version) :
    LeadsTo history.tail version where
  single d hd := h.single d (List.mem_of_mem_tail hd)
  chain := h.chain.tail
  ends d hd := by
    apply h.ends
    cases history with
    | nil => exact hd
    | cons a history =>
      rw [List.tail_cons] at hd
      rw [List.getLast?_cons, hd]
      rfl

/-- `addToHistory` writes the history of one entity. -/
lemma get?_addToHistory (history : Js.Map EntityId (List (StateDelta V))) (max : ℕ)
    (id j : EntityId) (delta : StateDelta V) :
    ((addToHistory history max id delta).get? j).getD [] =
      if j = id then
        (let entityHistory := (history.get? id).getD [] ++ [delta]
          if entityHistory.length > max then entityHistory.tail else entityHistory)
      else (history.get? j).getD [] := by
  rw [addToHistory, Js.Map.get?_set]
  split <;> rfl

/-- Where the invariant holds, what `addToHistory` leaves leads to the version after the delta, and
is no longer than the limit. -/
lemma leadsTo_addToHistory {history : List (StateDelta V)} {d : StateDelta V} {max : ℕ}
    (h : LeadsTo history d.fromVersion) (hlength : history.length ≤ max)
    (hd : d.toVersion = d.fromVersion + 1) :
    let added := if (history ++ [d]).length > max then (history ++ [d]).tail else history ++ [d]
    LeadsTo added d.toVersion ∧ added.length ≤ max := by
  have hadded := h.snoc hd
  intro added
  by_cases hover : (history ++ [d]).length > max
  · have hout : added = (history ++ [d]).tail := if_pos hover
    rw [hout]
    refine ⟨hadded.tail, ?_⟩
    simp only [List.length_tail, List.length_append, List.length_singleton]
    omega
  · have hout : added = history ++ [d] := if_neg hover
    rw [hout]
    refine ⟨hadded, ?_⟩
    omega

/-! ## One call -/

/-- A committed update. -/
lemma Kept.commitUpdate (h : σ.Kept) {id : EntityId}
    {entity : EntityState} (hget : σ.entities.get? id = some entity)
    (operations : List (DeltaOperation V)) (now : Timestamp) (m : M) :
    (σ.commitUpdate id entity operations now m).1.Kept := by
  intro j
  by_cases hj : j = id
  · subst hj
    intro _
    set d : StateDelta V := ⟨j, entity.version, entity.version + 1, operations, now⟩
    have hold : LeadsTo (σ.getEntityHistory j) d.fromVersion ∧
        (σ.getEntityHistory j).length ≤ σ.maxHistoryPerEntity := by
      by_cases hnil : σ.getEntityHistory j = []
      · rw [hnil]
        exact ⟨.nil _, Nat.zero_le _⟩
      · obtain ⟨e, he, hlength, hleads⟩ := h j hnil
        obtain rfl : entity = e := Option.some.inj (hget.symm.trans he)
        exact ⟨hleads, hlength⟩
    obtain ⟨hleads, hlength⟩ := leadsTo_addToHistory hold.1 hold.2 rfl
    have hhistory := get?_addToHistory σ.history σ.maxHistoryPerEntity j j d
    rw [if_pos rfl] at hhistory
    refine ⟨{ entity with version := entity.version + 1, lastModified := now }, ?_, ?_, ?_⟩
    · exact (Js.Map.get?_set _ _ _ _).trans (if_pos rfl)
    · exact (congrArg List.length hhistory).trans_le hlength
    · have hcongr := congrArg (fun l => LeadsTo l d.toVersion) hhistory
      exact hcongr.mpr hleads
  · refine (h j).congr ?_ ?_ rfl
    · exact (get?_addToHistory _ _ id j _).trans (if_neg hj)
    · exact (Js.Map.get?_set _ _ _ _).trans (if_neg hj)

lemma Kept.updateEntity [Memory M V] (h : σ.Kept)
    (id : EntityId) (operations : List (DeltaOperation V)) (now : Timestamp) :
    (σ.updateEntity id operations now).1.Kept := by
  obtain ⟨-, hcase⟩ | ⟨_, m, _, -, -, hcase⟩ | ⟨entity, m, hget, -, hcase⟩ :=
    σ.updateEntity_cases id operations now
  · rw [hcase]
    exact h
  · rw [hcase]
    exact h
  · rw [hcase]
    exact h.commitUpdate hget operations now m

lemma Kept.deleteEntity (h : σ.Kept) (id : EntityId) : (σ.deleteEntity id).Kept := by
  cases hget : σ.entities.get? id with
  | none =>
    have hsame : σ.deleteEntity id = σ := by rw [StateManager.deleteEntity, hget]
    rwa [hsame]
  | some e =>
    intro j
    have hhistory : (σ.deleteEntity id).getEntityHistory j =
        if j = id then [] else σ.getEntityHistory j := by
      rw [StateManager.deleteEntity, hget, getEntityHistory, Js.Map.get?_delete]
      split <;> rfl
    by_cases hj : j = id
    · apply keptFor_of_nil
      rw [hhistory, if_pos hj]
    · refine (h j).congr ?_ ?_ ?_
      · rw [hhistory, if_neg hj]
      · rw [StateManager.deleteEntity, hget, getEntity, Js.Map.get?_delete, if_neg hj]
        rfl
      · rw [StateManager.deleteEntity, hget]

/-- **Creating an entity keeps the invariant exactly where no history is continued.** -/
lemma kept_createEntity_iff (h : σ.Kept) (type ownerId : String) (data : Ref) (id : EntityId)
    (now : Timestamp) :
    (σ.createEntity type ownerId data id now).Kept ↔
      ∀ d, (σ.getEntityHistory id).getLast? = some d → d.toVersion = 1 := by
  have hentity : (σ.createEntity type ownerId data id now).getEntity id =
      some ⟨id, type, ownerId, data, 1, now⟩ :=
    (Js.Map.get?_set _ _ _ _).trans (if_pos rfl)
  constructor
  · intro hkept d hd
    have hne : σ.getEntityHistory id ≠ [] := by
      rintro hnil
      rw [hnil] at hd
      simp at hd
    obtain ⟨e, he, -, hleads⟩ := hkept id hne
    rw [hentity, Option.some.injEq] at he
    rw [← he] at hleads
    exact hleads.ends d hd
  · intro hends j
    by_cases hj : j = id
    · subst hj
      intro hne
      obtain ⟨e, -, hlength, hleads⟩ := h j hne
      exact ⟨_, hentity, hlength, hleads.single, hleads.chain, hends⟩
    · refine (h j).congr rfl ?_ rfl
      exact (Js.Map.get?_set _ _ _ _).trans (if_neg hj)

/-- A call keeps the invariant exactly when it does not continue a history. -/
lemma kept_call_iff [Memory M V] (h : σ.Kept) (c : Call V) :
    (σ.call c).Kept ↔ σ.Restarts c := by
  cases c with
  | createEntity type ownerId data id generated now =>
    exact kept_createEntity_iff h type ownerId data _ now
  | updateEntity id operations now => exact iff_of_true (h.updateEntity id operations now) trivial
  | deleteEntity id => exact iff_of_true (h.deleteEntity id) trivial
  | loadSnapshot entities version => exact iff_of_true (kept_of_empty rfl) trivial
  | clear => exact iff_of_true (kept_of_empty rfl) trivial

/-! ## Whole runs -/

/-- **When histories belong to their entities.**  After every call of a run the invariant holds, if
and only if no call of the run creates an entity over a history that does not end at version 1. -/
theorem histories_kept_iff [Memory M V] (m : M) (maxHistoryPerEntity : ℕ) (calls : List (Call V)) :
    (∀ before, before <+: calls → (Machine.run call (new m maxHistoryPerEntity) before).Kept) ↔
      Machine.Along call Restarts (new m maxHistoryPerEntity) calls := by
  have hnew : (new m maxHistoryPerEntity : StateManager M V).Kept := kept_of_empty rfl
  apply @Machine.forall_prefix_iff_along _ _ call Restarts (fun _ => True) Kept
  · exact fun _ _ _ => trivial
  · exact fun σ c _ h => kept_call_iff h c
  · trivial
  · exact hnew

/-- An entity is created, updated, and created again under its id. -/
def createdTwice : List (Call Doc) :=
  [.createEntity "player" "p1" (0, []) (some "e1") "g1" 1, .updateEntity "e1" [] 2,
    .createEntity "player" "p1" (1, []) (some "e1") "g2" 3]

/-- Its history then ends at version 2, and the entity has version 1. -/
theorem history_outlives_entity :
    ¬ (Machine.run call (new Memory.empty 100 : StateManager Cells Doc) createdTwice).Kept := by
  intro hkept
  set σ := Machine.run call (new Memory.empty 100 : StateManager Cells Doc) createdTwice
  have hhistory : σ.getEntityHistory "e1" = [⟨"e1", 1, 2, [], 2⟩] := rfl
  have hentity : σ.getEntity "e1" = some ⟨"e1", "player", "p1", (1, []), 1, 3⟩ := rfl
  obtain ⟨e, he, -, hleads⟩ := hkept "e1" (by simp [hhistory])
  rw [hentity, Option.some.injEq] at he
  rw [hhistory, ← he] at hleads
  have hends := hleads.ends _ rfl
  simp at hends

end StateManager

end SyncEngine
