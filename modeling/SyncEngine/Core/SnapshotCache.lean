import SyncEngine.Core.SnapshotIsolation

/-!
# The snapshot cache

`createSnapshot` answers from the cache when the cached snapshot has the version of the store, and
`loadSnapshot` and `clear` can bring an old version back.  Can a cached snapshot be taken for one of
another store?

Every call that changes the entity map, a record or the version drops the entry of the cache, so a
cached snapshot is always of the store as it is: `Current` is kept by every call, and by the cache
itself when it drops its entry.  An update that throws keeps the entry; it has written to the data
of the entity, which the snapshot shares.
-/

namespace SyncEngine

open Js

namespace RecordStore

/-- What happens to a store: the program calls it, or the LRU cache drops its entry. -/
inductive Event
  | call (c : Call)
  | evict

def happen (σ : RecordStore) : Event → RecordStore
  | .call c => σ.step c
  | .evict => { σ with cache := none }

/-- The snapshot is one of this store: of its version, with the records of its ids, and with the
checksum that `computeChecksum` gives. -/
structure IsSnapshot (σ : RecordStore) (p : SharedSnapshot) : Prop where
  version : p.version = σ.version
  entities : p.entities = σ.entities
  checksum : p.checksum = σ.live.computeChecksum

/-- What is cached is a snapshot of the store. -/
def Current (σ : RecordStore) : Prop := ∀ c, σ.cache = some c → σ.IsSnapshot c

variable {σ : RecordStore}

lemma isSnapshot_freshSnapshot (now : Timestamp) : σ.IsSnapshot (σ.freshSnapshot now) :=
  ⟨rfl, rfl, rfl⟩

lemma current_of_none (h : σ.cache = none) : σ.Current := by
  intro c hc
  rw [h] at hc
  cases hc

/-- The store with something changed that neither its version nor the live records show. -/
lemma Current.congr {τ : RecordStore} (h : σ.Current) (hcache : τ.cache = σ.cache)
    (hversion : τ.version = σ.version) (hentities : τ.entities = σ.entities)
    (hlive : τ.live.entities = σ.live.entities) : τ.Current := by
  intro c hc
  rw [hcache] at hc
  obtain ⟨hv, he, hsum⟩ := h c hc
  refine ⟨hv.trans hversion.symm, he.trans hentities.symm, ?_⟩
  rw [hsum, StateManager.computeChecksum, StateManager.computeChecksum, hlive]

/-- **From a current cache comes a snapshot of the store**, as from no cache. -/
lemma Current.isSnapshot_createSnapshot (h : σ.Current) (now : Timestamp) :
    σ.IsSnapshot (σ.createSnapshot now).2 := by
  unfold RecordStore.createSnapshot
  cases hc : σ.cache with
  | none => exact isSnapshot_freshSnapshot now
  | some c =>
    dsimp only
    by_cases hversion : c.version = σ.version
    · rw [if_pos hversion]
      exact h c hc
    · rw [if_neg hversion]
      exact isSnapshot_freshSnapshot now

/-! ## What the calls do to the cache -/

/-- A record at a place of its own is seen in no entity. -/
lemma Current.makeRecord (h : σ.Current) (hσ : σ.Sound) (e : EntityState) :
    (σ.makeRecord e).Current := by
  refine h.congr rfl rfl rfl ?_
  apply Js.Map.mapValues_congr
  intro id i hi
  exact Function.update_of_ne (hσ.places id i hi).ne _ _

lemma Current.updateEntity (h : σ.Current) (id : EntityId) (operations : List (DeltaOperation Val))
    (now : Timestamp) : (σ.updateEntity id operations now).1.Current := by
  cases hget : σ.entities.get? id with
  | none =>
    rw [RecordStore.updateEntity, hget]
    exact h
  | some i =>
    obtain ⟨-, hcase⟩ | ⟨-, hcase⟩ := σ.updateEntity_of_get hget operations now
    · rw [hcase]
      exact h.congr rfl rfl rfl rfl
    · rw [hcase]
      exact current_of_none rfl

lemma Current.createSnapshot (h : σ.Current) (now : Timestamp) :
    (σ.createSnapshot now).1.Current := by
  rw [createSnapshot_fst]
  intro c hc
  obtain rfl := Option.some.inj hc
  obtain ⟨hversion, hentities, hsum⟩ := h.isSnapshot_createSnapshot now
  exact ⟨hversion, hentities, hsum⟩

lemma Current.step (h : σ.Current) (hσ : σ.Sound) (c : Call) : (σ.step c).Current := by
  cases c with
  | make o => exact h.congr rfl rfl rfl rfl
  | makeRecord e =>
    simp only [RecordStore.step]
    split
    next => exact h.makeRecord hσ e
    next => exact h
  | createEntity type ownerId data id generated now =>
    simp only [RecordStore.step]
    split
    next => exact current_of_none rfl
    next => exact h
  | updateEntity id operations now =>
    simp only [RecordStore.step]
    split
    next => exact h.updateEntity id operations now
    next => exact h
  | deleteEntity id =>
    simp only [RecordStore.step, RecordStore.deleteEntity]
    split
    · exact h
    · exact current_of_none rfl
  | createSnapshot now => exact h.createSnapshot now
  | loadSnapshot p =>
    simp only [RecordStore.step]
    split
    next => exact current_of_none rfl
    next => exact h
  | clear => exact current_of_none rfl

/-- One event. -/
lemma Current.happen (h : σ.Current) (hσ : σ.Sound) (e : Event) :
    (σ.happen e).Current ∧ (σ.happen e).Sound := by
  cases e with
  | call c => exact ⟨h.step hσ c, hσ.step c⟩
  | evict =>
    refine ⟨current_of_none rfl, hσ.closed, hσ.data, hσ.places, ?_⟩
    intro c hc
    cases hc

/-! ## Whole runs -/

/-- **The cache is not seen.**  Whatever has happened to the store, the snapshot that
`createSnapshot` returns is one of the store as it is: of its version, with its ids and their
records, and with its checksum. -/
theorem createSnapshot_transparent (maxHistoryPerEntity : ℕ) (events : List Event)
    (now : Timestamp) :
    let σ := Machine.run happen (new maxHistoryPerEntity) events
    let p := (σ.createSnapshot now).2
    p.version = σ.version ∧ p.entities = σ.entities ∧ p.checksum = σ.live.computeChecksum ∧
      (σ.readSnapshot p).entities = σ.live.entities := by
  intro σ p
  have hrun : σ.Current ∧ σ.Sound := by
    apply @Machine.always _ _ happen (fun τ => τ.Current ∧ τ.Sound)
    · rintro τ e ⟨hcurrent, hsound⟩
      exact hcurrent.happen hsound e
    · exact ⟨current_of_none rfl, sound_new maxHistoryPerEntity⟩
  obtain ⟨hversion, hentities, hsum⟩ := hrun.1.isSnapshot_createSnapshot now
  refine ⟨hversion, hentities, hsum, ?_⟩
  have hread : (σ.readSnapshot p).entities = p.entities.mapValues fun _ => σ.record := rfl
  rw [hread, hentities]
  rfl

end RecordStore

end SyncEngine
