import SyncEngine.Core.Pollution

/-!
# Paths without `__proto__`

In a process whose built-in objects have not been written, a name other than `__proto__` leads from
a data object to another one, to a primitive or to a built-in function, and no walk goes into a
function.  So updates whose paths have no segment `__proto__` are aimed at data objects only, and
leave the built-in ones as they were (`untouched_applyOperations`).  As long as a process receives
no others, none of its updates is aimed at anything shared (`Ordinary.unshared`).
-/

namespace SyncEngine

open Js

namespace RealmMemory

variable {r r' : Realm} {a b : Address} {k : String} {v value : Val}

/-- What a data object may have as a property: no built-in object but a function. -/
def Outer (v : Val) : Prop := ∀ b, v = .ref b → 0 < b.1 ∨ isFunction b = true

/-- The built-in objects are what they were, and no object has a prototype as a property. -/
structure Untouched (r : Realm) : Prop where
  pos : 0 < r.heap.next
  builtIn : ∀ a : Address, a.1 = 0 → r.obj a = Realm.builtIn a ∧ r.chosen a = none
  own : ∀ a : Address, (r.obj a).All Outer

lemma outer_prim (p : Prim) : Outer (Slot.prim p) := fun b hb => by cases hb

lemma outer_of_pos (hb : 0 < b.1) : Outer (.ref b) := by
  intro c hc
  obtain rfl := Val.ref.inj hc
  exact .inl hb

/-- The built-in objects have functions as properties, and nothing else. -/
lemma outer_builtIn (a : Address) : (Realm.builtIn a).All Outer := by
  intro k b hb
  simp only [Realm.builtIn] at hb
  split at hb
  next hname =>
    obtain rfl := Val.ref.inj hb
    obtain ⟨ha, hk⟩ := hname
    right
    unfold Realm.builtInNames at hk
    split at hk
    next hobject => simp [hobject, isFunction, objectPrototype, arrayPrototype]
    next =>
      split at hk
      next harray => simp [harray, isFunction, objectPrototype, arrayPrototype]
      next =>
        split at hk
        next hfunction =>
          simp [hfunction, isFunction, functionPrototype, objectPrototype, arrayPrototype]
        next => cases hk
  next => cases hb

lemma untouched_initial (depth : ℕ) : Untouched (Realm.initial depth) where
  pos := Nat.one_pos
  builtIn _ _ := ⟨rfl, rfl⟩
  own := outer_builtIn

/-! ## What is found -/

lemma own_data (hr : Untouched r) {home : Address} (h : r.own k a = .data home v) : Outer v := by
  unfold Realm.own at h
  split at h
  · split at h <;> cases h
  · obtain ⟨-, rfl⟩ := Property.data.inj h
    exact (hr.own a).get outer_prim k

lemma find_data (hr : Untouched r) (n : ℕ) {home : Address} (h : r.find k n a = .data home v) :
    Outer v := by
  induction n generalizing a with
  | zero => exact own_data hr h
  | succ n ih =>
    rw [Realm.find] at h
    split at h
    · split at h
      · cases h
      · exact ih h
    · exact own_data hr h

lemma find_accessor (n : ℕ) (h : r.find k n a = .accessor) : k = "__proto__" := by
  induction n generalizing a with
  | zero => exact (Realm.own_accessor h).2
  | succ n ih =>
    rw [Realm.find] at h
    split at h
    · split at h
      · cases h
      · exact ih h
    · exact (Realm.own_accessor h).2

/-- **What is found under another name than `__proto__` is no prototype.** -/
lemma outer_get (hr : Untouched r) (hk : k ≠ "__proto__") (a : Address) : Outer (r.get a k) := by
  unfold Realm.get
  split
  · exact outer_prim _
  next hdata => exact find_data hr _ hdata
  next haccessor => exact absurd (find_accessor _ haccessor) hk

lemma pos_of_object (hv : Outer v) (hb : object? v = some b) : 0 < b.1 := by
  cases v with
  | prim p => cases hb
  | ref c =>
    rw [object?] at hb
    split at hb
    · cases hb
    next hc =>
      obtain rfl := Option.some.inj hb
      exact (hv c rfl).resolve_right hc

/-- No function is an array. -/
lemma pos_of_isArray (hr : Untouched r) (hv : Outer (.ref b)) (harray : isArray r (.ref b) = true) :
    0 < b.1 := by
  by_contra hb
  have hzero : b.1 = 0 := Nat.eq_zero_of_not_pos hb
  obtain hpos | hfunction := hv b rfl
  · exact hb hpos
  · rw [isArray, (hr.builtIn b hzero).1, Obj.isArray, Realm.builtIn] at harray
    dsimp only at harray
    split at harray
    next heq => rw [heq] at hfunction; exact absurd hfunction (by decide)
    next => cases harray

/-! ## Steps -/

lemma Untouched.write (hr : Untouched r) (ha : 0 < a.1) {o : Obj Val} (ho : o.All Outer) :
    Untouched (r.write a o) where
  pos := hr.pos
  builtIn c hc := by
    have hne : c ≠ a := by
      rintro rfl
      exact ha.ne' hc
    exact ⟨(Function.update_of_ne hne _ _).trans (hr.builtIn c hc).1, (hr.builtIn c hc).2⟩
  own c := by
    show (Function.update r.heap.obj a o c).All Outer
    by_cases hca : c = a
    · rw [hca, Function.update_self]
      exact ho
    · rw [Function.update_of_ne hca]
      exact hr.own c

lemma Untouched.place (hr : Untouched r) {o : Obj Val} (ho : o.All Outer) :
    Untouched (r.place o).2 where
  pos := Nat.succ_pos _
  builtIn c hc := by
    have hne : c ≠ (r.heap.next, []) := by
      rintro rfl
      exact hr.pos.ne' hc
    exact ⟨(Function.update_of_ne hne _ _).trans (hr.builtIn c hc).1, (hr.builtIn c hc).2⟩
  own c := by
    show (Function.update r.heap.obj (r.heap.next, []) o c).All Outer
    by_cases hca : c = (r.heap.next, [])
    · rw [hca, Function.update_self]
      exact ho
    · rw [Function.update_of_ne hca]
      exact hr.own c

lemma Untouched.parse (hr : Untouched r) (o : Obj Doc) : Untouched (r.parse o).2 where
  pos := Nat.succ_pos _
  builtIn c hc := by
    refine ⟨(Realm.obj_parse_old o ?_).trans (hr.builtIn c hc).1, (hr.builtIn c hc).2⟩
    rw [hc]
    exact hr.pos.ne
  own c := by
    by_cases hc : c.1 = r.heap.next
    · intro k
      rw [show c = (r.heap.next, c.2) from Prod.ext hc rfl, Realm.obj_parse_new]
      show Outer (Heap.textVal _ _ _)
      unfold Heap.textVal
      split
      · exact outer_prim _
      · exact outer_of_pos hr.pos
    · rw [Realm.obj_parse_old o hc]
      exact hr.own c

lemma Untouched.attempt (hr : Untouched r) (ha : 0 < a.1) {o : Except JsError (Obj Val)}
    (ho : ∀ o', o = .ok o' → o'.All Outer) :
    Untouched (attempt r (o.map (r.write a))).1 := by
  cases o with
  | error e => exact hr
  | ok o' => exact hr.write ha (ho o' rfl)

lemma Untouched.assign (hr : Untouched r) (ha : 0 < a.1) (hk : k ≠ "__proto__") (hv : Outer v) :
    Untouched (r.assign a k v).1 := by
  unfold Realm.assign
  split
  next haccessor => exact absurd (find_accessor _ haccessor) hk
  next =>
    apply hr.attempt ha
    intro o' ho'
    exact (hr.own a).assign outer_prim hv ho'

lemma Untouched.assignNew (hr : Untouched r) (ha : 0 < a.1) (hk : k ≠ "__proto__") {o : Obj Val}
    (ho : o.All Outer) : Untouched (r.assignNew a k o).1 :=
  (hr.place ho).assign ha hk (outer_of_pos hr.pos)

lemma Untouched.erase (hr : Untouched r) (ha : 0 < a.1) (k : String) :
    Untouched (r.erase a k).1 := by
  unfold Realm.erase
  split
  next haccessor => exact absurd haccessor.2.1 (Realm.ne_objectPrototype ha)
  next =>
    apply hr.attempt ha
    intro o' ho'
    exact (hr.own a).erase outer_prim ho'

/-- What an assignment has put there is read again, unless it was stored as a length. -/
lemma get_assignNew (hk : k ≠ "__proto__") {o : Obj Val}
    (h : r.assignNew a k o = (r', none)) :
    r'.get a k = .ref (r.place o).1 ∨ ∃ p, r'.get a k = .prim p := by
  unfold Realm.assignNew Realm.assign at h
  split at h
  next haccessor => exact absurd (find_accessor _ haccessor) hk
  next =>
    cases ho : ((r.place o).2.obj a).assign k (.ref (r.place o).1)
        ((r.place o).2.toArrayLength (.ref (r.place o).1)) with
    | error e =>
      rw [ho] at h
      cases congrArg Prod.snd h
    | ok o' =>
      rw [ho] at h
      obtain rfl := congrArg Prod.fst h
      have hobj : ((r.place o).2.write a o').obj a = o' := Function.update_self _ _ _
      -- Whatever the object holds there is its own.
      have hread : ∀ {v : Val}, o'.get k = v → isAbsent v = false →
          ((r.place o).2.write a o').get a k = v := by
        intro v hv hpresent
        rw [Realm.get_of_present (by rw [hobj, hv, hpresent]), hobj, hv]
      unfold Obj.assign at ho
      split at ho
      next hlength =>
        cases hn : (r.place o).2.toArrayLength (.ref (r.place o).1) with
        | error e =>
          rw [hn] at ho
          cases ho
        | ok n =>
          rw [hn] at ho
          obtain rfl := Except.ok.inj ho
          refine .inr ⟨.num n, hread ?_ rfl⟩
          simp [Obj.get, Obj.truncate, hlength.2]
      next hlength =>
        obtain rfl := Except.ok.inj ho
        refine .inl (hread ?_ rfl)
        rw [Realm.get_eq_props]
        · exact Function.update_self _ _ _
        · rwa [Obj.isArray, Obj.isSome_grow]

/-- The name of an element is not `__proto__`. -/
lemma toString_ne (i : ℕ) : toString i ≠ "__proto__" := by
  intro h
  have hmem : '_' ∈ Nat.toDigits 10 i := by
    have hlist : (toString i).toList = Nat.toDigits 10 i := by
      simp
    rw [← hlist, h]
    decide
  have hdigit := Nat.isDigit_of_mem_toDigits (by norm_num) le_rfl hmem
  exact absurd hdigit (by decide)

lemma outer_filtered (hr : Untouched r) (b : Address) (value : Val) :
    (filtered r b value).All Outer := by
  apply Obj.all_ofElements outer_prim
  intro v hv
  obtain ⟨i, -, rfl⟩ := List.mem_map.1 (List.mem_filter.1 hv).1
  exact outer_get hr (toString_ne i) b

lemma untouched_push (hr : Untouched r) (hvalue : Outer value) {v : Val}
    (hv : ∀ b, v = .ref b → 0 < b.1) : Untouched (push r value v).1 := by
  cases v with
  | prim p => exact hr
  | ref b =>
    rw [push]
    split
    · exact hr.write (hv b rfl) ((hr.own b).update _ _ hvalue)
    · exact hr

lemma address_pos {v : Val} (hv : ∀ b, v = .ref b → 0 < b.1) :
    ∀ c ∈ v.address?.toList, 0 < c.1 := by
  cases v with
  | prim p => exact fun c hc => by cases hc
  | ref b =>
    intro c hc
    rw [List.mem_singleton.1 hc]
    exact hv b rfl

lemma untouched_increment (hr : Untouched r) (ha : 0 < a.1) (hk : k ≠ "__proto__") (value : Val) :
    Untouched (increment value k a r).1 := by
  unfold increment
  split
  · exact hr.assign ha hk (outer_prim _)
  · exact hr
  · exact hr

lemma untouched_append (hr : Untouched r) (ha : 0 < a.1) (hk : k ≠ "__proto__")
    (hvalue : Outer value) :
    Untouched (append value k a r).1 ∧ ∀ c ∈ appendTargets k a r, 0 < c.1 := by
  unfold append appendTargets
  split
  next harray =>
    have hpos : ∀ b, r.get a k = .ref b → 0 < b.1 := by
      intro b hb
      rw [hb] at harray
      exact pos_of_isArray hr (hb ▸ outer_get hr hk a) harray
    exact ⟨untouched_push hr hvalue hpos, address_pos hpos⟩
  next =>
    have hnew : Untouched (r.assignNew a k .emptyArray).1 :=
      hr.assignNew ha hk (Obj.all_emptyArray outer_prim)
    rcases hassign : r.assignNew a k .emptyArray with ⟨r', _ | e⟩
    · rw [hassign] at hnew
      have hpos : ∀ b, r'.get a k = .ref b → 0 < b.1 := by
        intro b hb
        obtain hget | ⟨p, hget⟩ := get_assignNew hk hassign
        · obtain rfl := Val.ref.inj (hb.symm.trans hget)
          exact hr.pos
        · rw [hget] at hb
          cases hb
      refine ⟨untouched_push hnew hvalue hpos, fun c hc => ?_⟩
      obtain rfl | hc := List.mem_cons.1 hc
      · exact ha
      · exact address_pos hpos c hc
    · rw [hassign] at hnew
      exact ⟨hnew, fun c hc => (List.mem_singleton.1 hc) ▸ ha⟩

lemma untouched_remove (hr : Untouched r) (ha : 0 < a.1) (hk : k ≠ "__proto__") (value : Val) :
    Untouched (remove value k a r).1 := by
  unfold remove
  split
  · exact hr
  next b hb =>
    split
    · split
      · exact hr
      · exact hr.assignNew ha hk (outer_filtered hr b value)
    · exact hr

/-- **The switch, at a data object and under another name than `__proto__`.** -/
lemma untouched_operate {op : DeltaOperation Val} (hr : Untouched r) (ha : 0 < a.1)
    (hop : Outer op.value) (hk : k ≠ "__proto__") :
    Untouched (operate op k a r).1 ∧ ∀ c ∈ operateTargets op k a r, 0 < c.1 := by
  have hself : ∀ c ∈ [a], 0 < c.1 := fun c hc => (List.mem_singleton.1 hc) ▸ ha
  unfold operate operateTargets
  cases op.op with
  | set => exact ⟨hr.assign ha hk hop, hself⟩
  | delete => exact ⟨hr.erase ha k, hself⟩
  | increment => exact ⟨untouched_increment hr ha hk op.value, hself⟩
  | append => exact untouched_append hr ha hk hop
  | remove =>
    refine ⟨untouched_remove hr ha hk op.value, fun c hc => ?_⟩
    dsimp only at hc
    split at hc
    · exact hself c hc
    · cases hc
  | other => exact ⟨hr, fun c hc => by cases hc⟩

/-! ## Walks and loops -/

lemma untouched_walk {op : DeltaOperation Val} (hop : Outer op.value) {path : List String}
    (hpath : "__proto__" ∉ path) (hr : Untouched r) (ha : 0 < a.1) :
    Untouched (walk (operate op) path a r).1 ∧
      ∀ c ∈ walkTargets (operateTargets op) path a r, 0 < c.1 := by
  induction path generalizing a r with
  | nil => exact ⟨hr, fun c hc => by cases hc⟩
  | cons k ks ih =>
    rw [List.mem_cons, not_or] at hpath
    obtain ⟨hk, hks⟩ := hpath
    cases ks with
    | nil => exact untouched_operate hr ha hop (Ne.symm hk)
    | cons j ks =>
      rw [walk_cons_cons, walkTargets_cons_cons]
      cases hobject : object? (r.get a k) with
      | some b => exact ih hks hr (pos_of_object (outer_get hr (Ne.symm hk) a) hobject)
      | none =>
        have hnew : Untouched (r.assignNew a k .empty).1 :=
          hr.assignNew ha (Ne.symm hk) (Obj.all_empty outer_prim)
        have hself : ∀ c ∈ [a], 0 < c.1 := fun c hc => (List.mem_singleton.1 hc) ▸ ha
        rcases hassign : r.assignNew a k .empty with ⟨r', _ | e⟩
        · rw [hassign] at hnew
          dsimp only
          cases hagain : object? (r'.get a k) with
          | some b =>
            obtain ⟨hrest, htargets⟩ := ih hks hnew
              (pos_of_object (outer_get hnew (Ne.symm hk) a) hagain)
            refine ⟨hrest, fun c hc => ?_⟩
            obtain rfl | hc := List.mem_cons.1 hc
            · exact ha
            · exact htargets c hc
          | none => exact ⟨hnew, hself⟩
        · rw [hassign] at hnew
          exact ⟨hnew, hself⟩

/-- **A loop over paths without `__proto__` is aimed at data objects.** -/
lemma untouched_applyOperations (hr : Untouched r) (ha : 0 < a.1)
    {ops : List (DeltaOperation Val)}
    (hops : ∀ op ∈ ops, Outer op.value ∧ "__proto__" ∉ splitPath op.path) :
    Untouched (StateManager.applyOperations a ops r).1 ∧ ∀ c ∈ loopTargets a ops r, 0 < c.1 := by
  induction ops generalizing r with
  | nil => exact ⟨hr, fun c hc => by cases hc⟩
  | cons op ops ih =>
    obtain ⟨hvalue, hpath⟩ := hops op List.mem_cons_self
    have hfirst : Untouched (applyOperation r a op).1 ∧ ∀ c ∈ targets r a op, 0 < c.1 :=
      untouched_walk hvalue hpath hr ha
    rw [applyOperations_cons, loopTargets]
    rcases happly : applyOperation r a op with ⟨r', _ | e⟩
    · rw [happly] at hfirst
      obtain ⟨hrest, htargets⟩ := ih hfirst.1 fun o ho => hops o (List.mem_cons_of_mem op ho)
      exact ⟨hrest, fun c hc => (List.mem_append.1 hc).elim (hfirst.2 c) (htargets c)⟩
    · rw [happly] at hfirst
      refine ⟨hfirst.1, fun c hc => ?_⟩
      exact hfirst.2 c (by simpa using hc)

lemma untouched_parseOperations (hr : Untouched r) (operations : List (DeltaOperation Doc)) :
    Untouched (parseOperations r operations).2 ∧
      ∀ op ∈ (parseOperations r operations).1, Outer op.value ∧
        ∃ o ∈ operations, op.path = o.path := by
  induction operations generalizing r with
  | nil => exact ⟨hr, fun op hop => by cases hop⟩
  | cons op ops ih =>
    have hfirst : Untouched (r.parseValue op.value).2 ∧ Outer (r.parseValue op.value).1 := by
      unfold Realm.parseValue Heap.parseValue
      split
      · exact ⟨hr, outer_prim _⟩
      · exact ⟨hr.parse _, outer_of_pos hr.pos⟩
    obtain ⟨hrest, hvalues⟩ := ih hfirst.1
    refine ⟨hrest, fun o ho => ?_⟩
    obtain rfl | ho := List.mem_cons.1 ho
    · exact ⟨hfirst.2, op, List.mem_cons_self, rfl⟩
    · obtain ⟨hvalue, o', ho', hpath⟩ := hvalues o ho
      exact ⟨hvalue, o', List.mem_cons_of_mem op ho', hpath⟩

end RealmMemory

namespace StateManager

variable {σ : StateManager Realm Val}

/-- The stores that a process comes to hold by requests whose paths have no segment `__proto__`. -/
inductive Ordinary : StateManager Realm Val → Prop
  | new (depth maxHistoryPerEntity : ℕ) : Ordinary (.new (.initial depth) maxHistoryPerEntity)
  | createEntity {σ : StateManager Realm Val} (h : Ordinary σ) (type ownerId : String)
      (data : Obj Doc) (id : EntityId) (now : Timestamp) :
      Ordinary (σ.receiveEntity type ownerId data id now)
  | updateEntity {σ : StateManager Realm Val} (h : Ordinary σ) (id : EntityId)
      (operations : List (DeltaOperation Doc)) (now : Timestamp)
      (hpaths : ∀ op ∈ operations, "__proto__" ∉ splitPath op.path) :
      Ordinary (σ.receiveUpdate id operations now).1
  | deleteEntity {σ : StateManager Realm Val} (h : Ordinary σ) (id : EntityId) :
      Ordinary (σ.deleteEntity id)

/-- The built-in objects are what they were, and no entity has one for its data. -/
structure Outside (σ : StateManager Realm Val) : Prop where
  untouched : RealmMemory.Untouched σ.memory
  data : ∀ id e, σ.entities.get? id = some e → 0 < e.data.1

/-- What the loop of an ordinary update leaves, and what it is aimed at. -/
lemma Outside.loop (hσ : σ.Outside) {id : EntityId} {e : EntityState}
    (hget : σ.entities.get? id = some e) {operations : List (DeltaOperation Doc)}
    (hpaths : ∀ op ∈ operations, "__proto__" ∉ splitPath op.path) :
    RealmMemory.Untouched (applyOperations e.data (parseOperations σ.memory operations).1
        (parseOperations σ.memory operations).2).1 ∧
      ∀ c ∈ RealmMemory.loopTargets e.data (parseOperations σ.memory operations).1
        (parseOperations σ.memory operations).2, 0 < c.1 := by
  obtain ⟨hparsed, hvalues⟩ := RealmMemory.untouched_parseOperations hσ.untouched operations
  apply RealmMemory.untouched_applyOperations hparsed (hσ.data id e hget)
  intro op hop
  obtain ⟨hvalue, o, ho, hpath⟩ := hvalues op hop
  exact ⟨hvalue, hpath ▸ hpaths o ho⟩

lemma Outside.receiveUpdate (hσ : σ.Outside) (id : EntityId)
    {operations : List (DeltaOperation Doc)} (now : Timestamp)
    (hpaths : ∀ op ∈ operations, "__proto__" ∉ splitPath op.path) :
    (σ.receiveUpdate id operations now).1.Outside where
  untouched := by
    cases hget : σ.entities.get? id with
    | none =>
      rw [memory_receiveUpdate_of_none hget]
      exact (RealmMemory.untouched_parseOperations hσ.untouched operations).1
    | some e =>
      rw [memory_receiveUpdate_of_some hget]
      exact (hσ.loop hget hpaths).1
  data j e hget := by
    have hdata := data_receiveUpdate σ id operations now j
    rw [hget] at hdata
    obtain ⟨d, hd, hde⟩ := Option.map_eq_some_iff.1 hdata.symm
    rw [← hde]
    exact hσ.data j d hd

lemma Ordinary.outside (h : Ordinary σ) : σ.Outside := by
  induction h with
  | new depth max =>
    refine ⟨RealmMemory.untouched_initial depth, fun id e hget => ?_⟩
    cases hget
  | createEntity _ type ownerId data id now ih =>
    refine ⟨ih.untouched.parse data, fun j e hget => ?_⟩
    simp only [receiveEntity, StateManager.createEntity, Js.Map.get?_set] at hget
    split at hget
    · obtain rfl := Option.some.inj hget
      exact ih.untouched.pos
    · exact ih.data j e hget
  | updateEntity _ id operations now hpaths ih => exact ih.receiveUpdate id now hpaths
  | deleteEntity _ id ih =>
    unfold StateManager.deleteEntity
    split
    · exact ih
    · refine ⟨ih.untouched, fun j e hget => ?_⟩
      rw [Js.Map.get?_delete] at hget
      split at hget
      · cases hget
      · exact ih.data j e hget

/-- **In a process whose requests have no segment `__proto__`, no update is aimed at anything
shared.** -/
theorem Ordinary.unshared (h : Ordinary σ) (id : EntityId) {operations : List (DeltaOperation Doc)}
    (hpaths : ∀ op ∈ operations, "__proto__" ∉ splitPath op.path) :
    σ.Unshared id operations := by
  intro e hget b hb hshared
  have hpos := (h.outside.loop hget hpaths).2 b hb
  exact hpos.ne' (Realm.builtIn_of_shared h.outside.untouched.builtIn hshared)

end StateManager

end SyncEngine
