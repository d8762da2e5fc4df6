import SyncEngine.Core.RealmMemory
import SyncEngine.Js.Alike

/-!
# Updates that get out of their entity

Every object leads to the built-in prototypes, so entities that share no data objects share those,
and whatever has been put into them.  What an update writes is in the data of its entity, in the
values that it brings, or in that shared part (`within_receiveUpdate`).  If no operation is aimed at
the shared part, every path reads from the data of any other entity as it did, and from the data of
an entity created later as if there had been no update (`receiveUpdate_confined`).

A client gets into the shared part by a segment `__proto__`: `update_pollutes`.
-/

namespace SyncEngine

open Js

namespace RealmMemory

variable {r r' : Realm} {T : Set Address} {a : Address}

/-- The objects that the loop of an update is aimed at. -/
def loopTargets (a : Address) : List (DeltaOperation Val) → Realm → List Address
  | [], _ => []
  | op :: ops, r =>
    targets r a op ++
      match applyOperation r a op with
      | (r', none) => loopTargets a ops r'
      | (_, some _) => []

/-- The value is an object that came with a text, or no object. -/
def Brought (T : Set Address) (r : Realm) (v : Val) : Prop :=
  r.Inside T v ∧ ∀ b, v = .ref b → 0 < b.1

lemma Brought.mono {v : Val} (hv : Brought T r v) (hle : r.heap.next ≤ r'.heap.next) :
    Brought T r' v := ⟨hv.1.mono hle, hv.2⟩

lemma applyOperations_cons (a : Address) (op : DeltaOperation Val)
    (ops : List (DeltaOperation Val)) (r : Realm) :
    StateManager.applyOperations a (op :: ops) r =
      match applyOperation r a op with
      | (r', none) => StateManager.applyOperations a ops r'
      | (r', some e) => (r', some e) := by
  have heq : Memory.applyOperation r a op = applyOperation r a op := rfl
  rw [StateManager.applyOperations_cons, heq]
  rcases applyOperation r a op with ⟨r', _ | e⟩ <;> rfl

/-- **A loop writes the objects that its operations are aimed at.** -/
lemma within_applyOperations (hr : r.Confined T) (ha : r.Inside T (.ref a))
    {ops : List (DeltaOperation Val)} (hops : ∀ op ∈ ops, Brought T r op.value) :
    Realm.Within T r (StateManager.applyOperations a ops r).1 (loopTargets a ops r) := by
  induction ops generalizing r with
  | nil => exact .refl hr fun c hc => by cases hc
  | cons op ops ih =>
    have hop := hops op List.mem_cons_self
    have hfirst := within_applyOperation hr ha hop.1 hop.2
    rw [applyOperations_cons, loopTargets]
    rcases happly : applyOperation r a op with ⟨r', _ | e⟩
    · rw [happly] at hfirst
      refine hfirst.trans (ih hfirst.confined (ha.mono hfirst.next_le) fun o ho => ?_)
      exact (hops o (List.mem_cons_of_mem op ho)).mono hfirst.next_le
    · rw [happly] at hfirst
      exact hfirst.trans (.refl hfirst.confined fun c hc => by cases hc)

/-- Values made from texts lead nowhere else. -/
lemma within_parseOperations (hr : r.Confined T) (operations : List (DeltaOperation Doc)) :
    Realm.Within T r (parseOperations r operations).2 [] ∧
      ∀ op ∈ (parseOperations r operations).1,
        Brought T (parseOperations r operations).2 op.value := by
  induction operations generalizing r with
  | nil => exact ⟨.refl hr (fun c hc => by cases hc), fun op hop => by cases hop⟩
  | cons op ops ih =>
    have hfirst : Realm.Within T r (r.parseValue op.value).2 [] := .parseValue hr op.value
    obtain ⟨hrest, hvalues⟩ := ih hfirst.confined
    refine ⟨hfirst.trans hrest, fun o ho => ?_⟩
    obtain rfl | ho := List.mem_cons.1 ho
    · refine Brought.mono ?_ hrest.next_le
      show Brought T (r.parseValue op.value).2 (r.parseValue op.value).1
      unfold Realm.parseValue Heap.parseValue
      split
      · exact ⟨trivial, fun b hb => by cases hb⟩
      · refine ⟨⟨(hr.fresh (r.heap.next, []) le_rfl).1, Nat.lt_succ_self _⟩, fun b hb => ?_⟩
        obtain rfl := Val.ref.inj hb
        exact hr.pos
    · exact hvalues o ho

end RealmMemory

namespace StateManager

variable {σ : StateManager Realm Val} {id : EntityId} {e : EntityState}

/-- What is read along a path from the data of an entity. -/
def reading (σ : StateManager Realm Val) (id : EntityId) (path : List String) : Option Sight :=
  (σ.entities.get? id).map fun e => σ.memory.peek (.ref e.data) path

/-- The objects there are lead to such objects only, and the data objects are among them. -/
structure Sound (σ : StateManager Realm Val) : Prop where
  closed : σ.memory.Closed
  data : ∀ id e, σ.entities.get? id = some e → e.data.1 < σ.memory.heap.next

/-- Two entities share no objects but those that the built-in ones reach. -/
def Apart (σ : StateManager Realm Val) : Prop :=
  ∀ i j d e, i ≠ j → σ.entities.get? i = some d → σ.entities.get? j = some e →
    ∀ b, σ.memory.Reaches d.data b → σ.memory.Reaches e.data b → σ.memory.Shared b

/-- No operation of the update, when its turn comes, is aimed at an object that the built-in ones
reach. -/
def Unshared (σ : StateManager Realm Val) (id : EntityId)
    (operations : List (DeltaOperation Doc)) : Prop :=
  ∀ e, σ.entities.get? id = some e →
    ∀ b ∈ RealmMemory.loopTargets e.data (parseOperations σ.memory operations).1
      (parseOperations σ.memory operations).2, ¬ σ.memory.Shared b

/-- What is shared, and what is reached from the data of the other entities. -/
def others (σ : StateManager Realm Val) (id : EntityId) : Set Address :=
  {b | σ.memory.Shared b ∨
    ∃ j e, j ≠ id ∧ σ.entities.get? j = some e ∧ σ.memory.Reaches e.data b}

lemma others_refers {a b : Address} (ha : a ∈ σ.others id) (hb : σ.memory.Refers a b) :
    b ∈ σ.others id := by
  obtain hshared | ⟨j, e, hj, hget, hreach⟩ := ha
  · exact .inl (hshared.refers hb)
  · exact .inr ⟨j, e, hj, hget, hreach.tail hb⟩

lemma others_old (hσ : σ.Sound) {a : Address} (ha : a ∈ σ.others id) :
    a.1 < σ.memory.heap.next := by
  obtain ⟨c, hc, hshared⟩ | ⟨j, e, -, hget, hdata⟩ := ha
  · exact hσ.closed.reaches_old (hc ▸ hσ.closed.pos) hshared
  · exact hσ.closed.reaches_old (hσ.data j e hget) hdata

lemma memory_receiveUpdate_of_some (hget : σ.entities.get? id = some e)
    (operations : List (DeltaOperation Doc)) (now : Timestamp) :
    (σ.receiveUpdate id operations now).1.memory =
      (applyOperations e.data (parseOperations σ.memory operations).1
        (parseOperations σ.memory operations).2).1 :=
  memory_updateEntity (σ := { σ with memory := (parseOperations σ.memory operations).2 }) hget
    (parseOperations σ.memory operations).1 now

/-- **An update of an entity that is there writes what its operations are aimed at.** -/
lemma within_receiveUpdate {T : Set Address} (hr : σ.memory.Confined T)
    (hget : σ.entities.get? id = some e) (ha : σ.memory.Inside T (.ref e.data))
    (operations : List (DeltaOperation Doc)) (now : Timestamp) :
    Realm.Within T σ.memory (σ.receiveUpdate id operations now).1.memory
      (RealmMemory.loopTargets e.data (parseOperations σ.memory operations).1
        (parseOperations σ.memory operations).2) := by
  obtain ⟨hparse, hvalues⟩ := RealmMemory.within_parseOperations hr operations
  have hloop := RealmMemory.within_applyOperations hparse.confined (ha.mono hparse.next_le) hvalues
  rw [memory_receiveUpdate_of_some hget]
  exact hparse.trans hloop

/-- An update of no entity only reads its values. -/
lemma memory_receiveUpdate_of_none (hget : σ.entities.get? id = none)
    (operations : List (DeltaOperation Doc)) (now : Timestamp) :
    (σ.receiveUpdate id operations now).1.memory = (parseOperations σ.memory operations).2 := by
  unfold receiveUpdate updateEntity
  dsimp only
  rw [hget]

/-- After an update the objects there are lead to such objects only. -/
lemma Sound.memory_receiveUpdate (hσ : σ.Sound) (id : EntityId)
    (operations : List (DeltaOperation Doc)) (now : Timestamp) :
    (σ.receiveUpdate id operations now).1.memory.Closed ∧
      σ.memory.heap.next ≤ (σ.receiveUpdate id operations now).1.memory.heap.next := by
  cases hget : σ.entities.get? id with
  | none =>
    rw [memory_receiveUpdate_of_none hget]
    have hparse := (RealmMemory.within_parseOperations hσ.closed operations).1
    exact ⟨hparse.confined, hparse.next_le⟩
  | some e =>
    have hwithin := within_receiveUpdate hσ.closed hget ⟨Set.mem_univ _, hσ.data id e hget⟩
      operations now
    exact ⟨hwithin.confined, hwithin.next_le⟩

/-- **If nothing shared is written, the objects of the other entities are spared.** -/
lemma alike_receiveUpdate (hσ : σ.Sound) (hapart : σ.Apart)
    {operations : List (DeltaOperation Doc)} (hunshared : σ.Unshared id operations)
    (now : Timestamp) :
    Realm.Alike (fun a a' => a' = a ∧ a ∈ σ.others id) σ.memory
      (σ.receiveUpdate id operations now).1.memory := by
  have halike : ∀ {targets : List Address} {r : Realm}, Realm.Effect σ.memory r targets →
      (∀ b ∈ targets, b ∉ σ.others id) →
      Realm.Alike (fun a a' => a' = a ∧ a ∈ σ.others id) σ.memory r := by
    intro targets r heffect hspared
    exact heffect.alike (fun a ha => others_old hσ ha) (fun a ha b hb => others_refers ha hb)
      (.inl (Realm.shared_of_builtIn _ rfl)) hspared
  cases hget : σ.entities.get? id with
  | none =>
    rw [memory_receiveUpdate_of_none hget]
    exact halike (RealmMemory.within_parseOperations hσ.closed operations).1.toEffect
      fun b hb => by cases hb
  | some e =>
    have hwithin := within_receiveUpdate (.domain hσ.closed {e.data}) hget
      ⟨.inr (.inr ⟨e.data, rfl, .refl⟩), hσ.data id e hget⟩ operations now
    apply halike hwithin.toEffect
    intro b hb hothers
    have hprivate := hunshared e hget b hb
    obtain hshared | ⟨j, d, hj, hgetj, hreach⟩ := hothers
    · exact hprivate hshared
    · obtain hfresh | hshared | ⟨_, rfl, hown⟩ := hwithin.inside b hb
      · exact (others_old hσ (.inr ⟨j, d, hj, hgetj, hreach⟩)).not_ge hfresh
      · exact hprivate hshared
      · exact hprivate (hapart id j e d hj.symm hget hgetj b hown hreach)

/-- An update leaves every entity the data object it has. -/
lemma data_receiveUpdate (σ : StateManager Realm Val) (id : EntityId)
    (operations : List (DeltaOperation Doc)) (now : Timestamp) (j : EntityId) :
    ((σ.receiveUpdate id operations now).1.entities.get? j).map EntityState.data =
      (σ.entities.get? j).map EntityState.data :=
  data_updateEntity { σ with memory := (parseOperations σ.memory operations).2 } id
    (parseOperations σ.memory operations).1 now j

/-! ## Stores made of texts -/

lemma sound_new (depth maxHistoryPerEntity : ℕ) :
    (new (Realm.initial depth) maxHistoryPerEntity : StateManager Realm Val).Sound where
  closed := Realm.closed_initial depth
  data id e hget := by cases hget

lemma Sound.receiveEntity (hσ : σ.Sound) (type ownerId : String) (data : Obj Doc) (id : EntityId)
    (now : Timestamp) : (σ.receiveEntity type ownerId data id now).Sound where
  closed := (Realm.Within.parse hσ.closed data).confined
  data j e hget := by
    simp only [StateManager.receiveEntity, createEntity, Js.Map.get?_set] at hget
    split at hget
    · obtain rfl := Option.some.inj hget
      exact Nat.lt_succ_self _
    · exact (hσ.data j e hget).trans (Nat.lt_succ_self _)

lemma Sound.receiveUpdate (hσ : σ.Sound) (id : EntityId) (operations : List (DeltaOperation Doc))
    (now : Timestamp) : (σ.receiveUpdate id operations now).1.Sound where
  closed := (hσ.memory_receiveUpdate id operations now).1
  data j e hget := by
    have hdata := data_receiveUpdate σ id operations now j
    rw [hget] at hdata
    obtain ⟨d, hd, hde⟩ := Option.map_eq_some_iff.1 hdata.symm
    rw [← hde]
    exact (hσ.data j d hd).trans_le (hσ.memory_receiveUpdate id operations now).2

/-! ## When an update is confined -/

/-- Every path reads from the data of any other entity as it would have read without the update, and
so it does from the data of an entity created after it. -/
def ConfinedTo (σ : StateManager Realm Val) (id : EntityId)
    (operations : List (DeltaOperation Doc)) (now : Timestamp) : Prop :=
  let σ' := (σ.receiveUpdate id operations now).1
  (∀ j ≠ id, ∀ path, σ'.reading j path = σ.reading j path) ∧
    ∀ type ownerId data j later path,
      (σ'.receiveEntity type ownerId data j later).reading j path =
        (σ.receiveEntity type ownerId data j later).reading j path

/-- **When an update is confined to its entity.**  The entities share no objects but what the
built-in ones reach, and no operation, when its turn comes, is aimed at one of those. -/
theorem receiveUpdate_confined (hσ : σ.Sound) (hapart : σ.Apart)
    {operations : List (DeltaOperation Doc)} (hunshared : σ.Unshared id operations)
    (now : Timestamp) : σ.ConfinedTo id operations now := by
  have halike := alike_receiveUpdate hσ hapart hunshared now
  obtain ⟨hclosed, hle⟩ := hσ.memory_receiveUpdate id operations now
  constructor
  · intro j hj path
    have hdata := data_receiveUpdate σ id operations now j
    unfold reading
    cases hget : σ.entities.get? j with
    | none =>
      rw [hget] at hdata
      rw [Option.map_eq_none_iff.1 hdata]
      rfl
    | some d =>
      rw [hget] at hdata
      obtain ⟨e, he, hed⟩ := Option.map_eq_some_iff.1 hdata
      have hsame : Realm.Paired (fun a a' => a' = a ∧ a ∈ σ.others id) (.ref d.data)
          (.ref e.data) := ⟨hed, .inr ⟨j, d, hj, hget, .refl⟩⟩
      rw [he]
      exact congrArg some (halike.peek hsame path)
  · intro type ownerId data j later path
    have hnew := halike.parse hσ.closed hclosed hle (fun a ha => others_old hσ ha)
      (fun a ha => .inl (Realm.shared_of_builtIn _ ha)) data
    have hsame : Realm.Paired (Realm.SamePlace (σ.others id) σ.memory
        (σ.receiveUpdate id operations now).1.memory) (.ref (σ.memory.heap.next, []))
        (.ref ((σ.receiveUpdate id operations now).1.memory.heap.next, [])) := .inr ⟨[], rfl, rfl⟩
    unfold reading receiveEntity createEntity
    simp only [Js.Map.get?_set]
    exact congrArg some (hnew.peek hsame path)

/-- A new object of primitives leads to what is shared. -/
lemma eq_or_shared {r : Realm} {a b : Address} (hprims : ∀ k, ∃ p, (r.obj a).props k = .prim p)
    (hchosen : r.chosen a = none) (h : r.Reaches a b) : b = a ∨ r.Shared b := by
  induction h with
  | refl => exact .inl rfl
  | tail _ hb ih =>
    obtain rfl | hshared := ih
    · obtain ⟨k, hk⟩ | hprototype := hb
      · obtain ⟨p, hp⟩ := hprims k
        rw [hp] at hk
        cases hk
      · obtain ⟨-, hset | hbuiltIn⟩ := Realm.chosen_or_builtIn hprototype
        · rw [hchosen] at hset
          cases hset
        · exact .inr (Realm.shared_of_builtIn r hbuiltIn)
    · exact .inr (hshared.refers hb)

/-- Two entities, each with an empty data object. -/
def twoPlayers : StateManager Realm Val :=
  ((new (.initial 1000) 100).receiveEntity "player" "p1" .empty "e1" 1).receiveEntity "player" "p2"
    .empty "e2" 2

lemma sound_twoPlayers : twoPlayers.Sound :=
  ((sound_new 1000 100).receiveEntity _ _ _ _ _).receiveEntity _ _ _ _ _

lemma twoPlayers_data {id : EntityId} {e : EntityState}
    (hget : twoPlayers.entities.get? id = some e) :
    (id = "e1" ∧ e.data = (1, [])) ∨ (id = "e2" ∧ e.data = (2, [])) := by
  simp only [twoPlayers, receiveEntity, createEntity, Js.Map.get?_set] at hget
  split at hget
  next hid =>
    obtain rfl := Option.some.inj hget
    exact .inr ⟨hid, rfl⟩
  next =>
    split at hget
    next hid =>
      obtain rfl := Option.some.inj hget
      exact .inl ⟨hid, rfl⟩
    next => cases hget

lemma apart_twoPlayers : twoPlayers.Apart := by
  have hbare : ∀ {id e}, twoPlayers.entities.get? id = some e →
      ∀ {b}, twoPlayers.memory.Reaches e.data b → b = e.data ∨ twoPlayers.memory.Shared b := by
    intro id e hget b hb
    obtain ⟨-, hdata⟩ | ⟨-, hdata⟩ := twoPlayers_data hget
    · rw [hdata] at hb ⊢
      exact eq_or_shared (fun k => ⟨.absent, rfl⟩) rfl hb
    · rw [hdata] at hb ⊢
      exact eq_or_shared (fun k => ⟨.absent, rfl⟩) rfl hb
  intro i j d e hne hd he b hdb heb
  obtain hd' | hshared := hbare hd hdb
  · obtain he' | hshared := hbare he heb
    · have hdata : d.data = e.data := hd'.symm.trans he'
      obtain ⟨rfl, hd₁⟩ | ⟨rfl, hd₂⟩ := twoPlayers_data hd <;>
        obtain ⟨rfl, he₁⟩ | ⟨rfl, he₂⟩ := twoPlayers_data he
      · exact absurd rfl hne
      · rw [hd₁, he₂] at hdata
        cases hdata
      · rw [hd₂, he₁] at hdata
        cases hdata
      · exact absurd rfl hne
    · exact hshared
  · exact hshared

/-- In that store no built-in object has been written. -/
lemma builtIn_twoPlayers (a : Address) (ha : a.1 = 0) :
    twoPlayers.memory.obj a = Realm.builtIn a ∧ twoPlayers.memory.chosen a = none := by
  refine ⟨?_, rfl⟩
  show (if a.1 = 2 then _ else if a.1 = 1 then _ else Realm.builtIn a) = Realm.builtIn a
  rw [ha, if_neg (by decide), if_neg (by decide)]

theorem receiveUpdate_confined_twoPlayers :
    twoPlayers.ConfinedTo "e1" [⟨.set, "hp", .prim (.num 5)⟩] 3 := by
  apply receiveUpdate_confined sound_twoPlayers apart_twoPlayers
  intro e hget b hb hshared
  obtain ⟨-, hdata⟩ | ⟨hid, -⟩ := twoPlayers_data hget
  · rw [hdata] at hb
    have htargets : RealmMemory.loopTargets (1, [])
        (parseOperations twoPlayers.memory [⟨.set, "hp", .prim (.num 5)⟩]).1
        (parseOperations twoPlayers.memory [⟨.set, "hp", .prim (.num 5)⟩]).2 = [(1, [])] := by
      decide +kernel
    rw [htargets] at hb
    obtain rfl := List.mem_singleton.1 hb
    exact Nat.one_ne_zero (Realm.builtIn_of_shared builtIn_twoPlayers hshared)
  · exact absurd hid (by decide)

/-- A segment `__proto__` gets an update into `Object.prototype`, where every object finds what it
has written. -/
theorem update_pollutes : ¬ ∀ (σ : StateManager Realm Val) (id : EntityId)
    (operations : List (DeltaOperation Doc)) (now : Timestamp),
    σ.Sound → σ.Apart → σ.ConfinedTo id operations now := by
  intro h
  have hconfined := h twoPlayers "e1" [⟨.set, "__proto__.polluted", .prim (.bool true)⟩] 3
    sound_twoPlayers apart_twoPlayers
  have hread := hconfined.1 "e2" (by decide) ["polluted"]
  revert hread
  decide +kernel

end StateManager

end SyncEngine
