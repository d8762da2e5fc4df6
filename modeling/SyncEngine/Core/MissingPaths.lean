import SyncEngine.Core.RealmMemory
import SyncEngine.Js.Alike

/-!
# Deleting what is not there

The loop that walks a path makes an object wherever there is none to walk into, before the switch
looks at the kind of the operation.  So a `delete` or a `remove` whose path does not resolve leaves
the data as it was only if the walk gets through without making an object.  `breaksAt` is where it
makes the first one, if it does.

`assignNew_break` says what becomes of that object: it is put there as a property, or refused.
What the walk writes after it is outside of the data (`within_walk_new`), so the new property stays,
and the data is not what it was (`doc_ne_of_reach`).
-/

namespace SyncEngine

open Js

namespace RealmMemory

variable {r r' : Realm} {T : Set Address} {a b : Address} {k : String}

/-- The value at the end of a path; a primitive is not looked into. -/
def resolve (r : Realm) : Val → List String → Val
  | v, [] => v
  | .prim _, _ :: _ => .prim .absent
  | .ref a, k :: ks => resolve r (r.get a k) ks

/-- Where a walk makes its first object: the object that gets it, and the name. -/
def breaksAt (r : Realm) : List String → Address → Option (Address × String)
  | k :: j :: ks, a =>
    match object? (r.get a k) with
    | some b => breaksAt r (j :: ks) b
    | none => some (a, k)
  | _, _ => none

/-! ## The first object that a walk makes -/

lemma obj_place_of_ne (o : Obj Val) (hb : b ≠ (r.heap.next, [])) : (r.place o).2.obj b = r.obj b :=
  Function.update_of_ne hb _ _

lemma obj_place_self (r : Realm) (o : Obj Val) : (r.place o).2.obj (r.place o).1 = o :=
  Function.update_self _ _ _

lemma ne_place_of_lt (o : Obj Val) (hb : b.1 < r.heap.next) : b ≠ (r.place o).1 := by
  rintro rfl
  exact lt_irrefl _ hb

/-- A new object does not change what is read from the objects there were. -/
lemma get_place (hr : r.Closed) (hb : b.1 < r.heap.next) (k : String) :
    (r.place .empty).2.get b k = r.get b k := by
  have hplace : Realm.Within Set.univ r (r.place .empty).2 [] :=
    .place hr (Obj.all_empty (Realm.inside_prim _ r))
  have halike := hplace.toEffect.alike (K := {c | c.1 < r.heap.next}) (fun c hc => hc)
    (fun c _ d hd => hr.refers_old hd) hr.pos fun c hc => by cases hc
  have hget := halike.get ⟨rfl, hb⟩ k
  cases hv : r.get b k <;> cases hv' : (r.place .empty).2.get b k <;> rw [hv, hv'] at hget
  · exact congrArg Val.prim hget.symm
  · exact hget.elim
  · exact hget.elim
  · exact congrArg Val.ref hget.1

/-- No object but a function inherits from a function. -/
lemma isFunction_prototype (hr : r.Closed) (hfunction : isFunction a = false)
    (hb : r.prototypeOf a = some b) : isFunction b = false := by
  unfold Realm.prototypeOf at hb
  split at hb
  · cases hb
  next hne =>
    cases hchosen : r.chosen a with
    | none =>
      rw [hchosen] at hb
      obtain rfl := Option.some.inj hb
      unfold Realm.defaultPrototype
      split
      · decide
      · split
        next htrue => exact absurd htrue (by rw [hfunction]; decide)
        next => split <;> decide
    | some p =>
      rw [hchosen] at hb
      have hpos := (hr.chosen a (Set.mem_univ a) hne b (hchosen.trans (congrArg some hb))).1
      exact Realm.isFunction_of_pos hpos

/-- The name `__proto__` yields an object everywhere but on `Object.prototype`. -/
lemma eq_objectPrototype (hr : r.Closed) (hfunction : isFunction b = false)
    (hproperty : r.property b k = .accessor) (hobject : object? (r.get b k) = none) :
    b = objectPrototype := by
  cases hprototype : r.prototypeOf b with
  | none =>
    rw [Realm.property_of_prototype_none hprototype] at hproperty
    exact (Realm.own_accessor hproperty).1
  | some p =>
    have hget : r.get b k = .ref p := by simp only [Realm.get, hproperty, hprototype]
    rw [hget, object?, isFunction_prototype hr hfunction hprototype] at hobject
    cases hobject

/-- **What becomes of the first object that a walk makes.**  It is refused, as the length of an
array or as the prototype of `Object.prototype`, or it is put there as a property. -/
lemma assignNew_break (hr : r.Closed) (hb : b.1 < r.heap.next) (hfunction : isFunction b = false)
    (hobject : object? (r.get b k) = none) :
    (((r.obj b).isArray ∧ k = "length" ∨ b = objectPrototype) ∧
      ∃ e, r.assignNew b k .empty = ((r.place .empty).2, some e)) ∨
    (¬ ((r.obj b).isArray ∧ k = "length") ∧
      r.assignNew b k .empty = ((r.place .empty).2.write b ⟨Obj.grow (r.obj b).len k,
        Function.update (r.obj b).props k (.ref (r.place .empty).1)⟩, none)) := by
  set r' := (r.place .empty).2 with hr'
  have hclosed : r'.Closed :=
    (Realm.Within.place hr (Obj.all_empty (Realm.inside_prim _ r))).confined
  have hobj : r'.obj b = r.obj b := obj_place_of_ne .empty (ne_place_of_lt .empty hb)
  unfold Realm.assignNew
  rw [← hr', Realm.assign]
  split
  next haccessor =>
    have hobject' : object? (r'.get b k) = none := by rw [get_place hr hb k, hobject]
    have heq := eq_objectPrototype hclosed hfunction haccessor hobject'
    refine .inl ⟨.inr heq, .typeError, ?_⟩
    subst heq
    rfl
  next =>
    rw [hobj]
    by_cases hlength : (r.obj b).isArray ∧ k = "length"
    · have hbare : r'.Bare (r.place .empty).1 := by
        refine ⟨hr.pos, obj_place_self r .empty, ?_⟩
        exact (hr.fresh (r.heap.next, []) le_rfl).2.2
      obtain ⟨e, he⟩ := hbare.toArrayLength
      refine .inl ⟨.inl hlength, e, ?_⟩
      rw [he, Obj.assign, if_pos hlength]
      rfl
    · refine .inr ⟨hlength, ?_⟩
      rw [Obj.assign, if_neg hlength]
      rfl

/-! ## Walks that get through and walks that break off -/

variable {f : String → Address → Realm → Written Realm} {data : Address} {path : List String}

/-- A walk gets through to its last object, or makes a first one on the way. -/
lemma walk_cases (hr : r.Closed) (ha : a.1 < r.heap.next) (hfunction : isFunction a = false)
    (hpath : path ≠ []) :
    (breaksAt r path a = none ∧
      ∃ b k, walk f path a r = f k b r ∧ resolve r (.ref a) path = r.get b k) ∨
    (∃ b k j ks, breaksAt r path a = some (b, k) ∧ walk f path a r = walk f (k :: j :: ks) b r ∧
      object? (r.get b k) = none ∧ b.1 < r.heap.next ∧ isFunction b = false) := by
  induction path generalizing a with
  | nil => exact absurd rfl hpath
  | cons k ks ih =>
    cases ks with
    | nil => exact .inl ⟨rfl, a, k, rfl, rfl⟩
    | cons j ks =>
      cases hobject : object? (r.get a k) with
      | none =>
        refine .inr ⟨a, k, j, ks, ?_, rfl, hobject, ha, hfunction⟩
        rw [breaksAt, hobject]
      | some b =>
        have hb : r.Inside Set.univ (.ref b) :=
          object?_inside (hr.get (Set.mem_univ a) k) hobject
        have hget : r.get a k = .ref b ∧ isFunction b = false := by
          cases hv : r.get a k with
          | prim p => rw [hv] at hobject; cases hobject
          | ref c =>
            rw [hv, object?] at hobject
            split at hobject
            · cases hobject
            next hc =>
              obtain rfl := Option.some.inj hobject
              exact ⟨rfl, by simpa using hc⟩
        have hbreaks : breaksAt r (k :: j :: ks) a = breaksAt r (j :: ks) b := by
          rw [breaksAt, hobject]
        have hwalk : walk f (k :: j :: ks) a r = walk f (j :: ks) b r := by
          rw [walk_cons_cons, hobject]
        have hresolve : resolve r (.ref a) (k :: j :: ks) = resolve r (.ref b) (j :: ks) := by
          rw [resolve, hget.1]
        rw [hbreaks, hwalk, hresolve]
        exact ih hb.2 hget.2 (List.cons_ne_nil j ks)

lemma eq_absent {v : Val} (hv : isAbsent v = true) : v = .prim .absent := by
  cases v with
  | prim p => simpa [isAbsent, Slot.prim?] using hv
  | ref b => simp [isAbsent, Slot.prim?] at hv

/-- At the last object there is nothing to delete, and nothing to remove from. -/
lemma operate_missing {op : DeltaOperation Val} (hop : op.op = .delete ∨ op.op = .remove)
    (hmissing : isAbsent (r.get b k) = true) (c : Address) :
    (operate op k b r).1.obj c = r.obj c := by
  unfold operate
  obtain hop | hop := hop
  · have hown := Realm.own_of_absent hmissing
    have habsent := Realm.isAbsent_of_own hown
    rw [hop]
    dsimp only
    unfold Realm.erase
    split
    next haccessor =>
      rw [Realm.own, if_pos habsent, if_pos haccessor] at hown
      cases hown
    next =>
      unfold Obj.erase
      split
      · rfl
      next hlength =>
        have hprops : (Slot.prim .absent : Val) = (r.obj b).props k := by
          rw [← Realm.get_eq_props hlength, eq_absent habsent]
          rfl
        have hput : (r.obj b).put k (Slot.prim .absent) = r.obj b := by
          rw [Obj.put, hprops, Function.update_eq_self]
        rw [hput]
        exact congrFun (Function.update_eq_self b r.heap.obj) c
  · rw [hop]
    dsimp only
    rw [remove, eq_absent hmissing]

/-- An operation that takes away brings no value. -/
lemma within_operate_away {op : DeltaOperation Val} (hop : op.op = .delete ∨ op.op = .remove)
    (hr : r.Confined T) (ha : r.Inside T (.ref a)) (k : String) :
    Realm.Within T r (operate op k a r).1 (operateTargets op k a r) := by
  unfold operate operateTargets
  obtain hop | hop := hop
  · rw [hop]
    exact .erase hr ha k
  · rw [hop]
    exact within_remove hr ha op.value k

/-- The object that has been given a new one under a name. -/
def extended (r : Realm) (b : Address) (k : String) : Obj Val :=
  ⟨Obj.grow (r.obj b).len k, Function.update (r.obj b).props k (.ref (r.place .empty).1)⟩

/-- **After its first new object a walk writes outside of what is private to the data.** -/
lemma obj_walk_break {op : DeltaOperation Val} (hop : op.op = .delete ∨ op.op = .remove)
    (hr : r.Closed) (hb : b.1 < r.heap.next) (hobject : object? (r.get b k) = none)
    (hlength : ¬ ((r.obj b).isArray = true ∧ k = "length"))
    (hassign : r.assignNew b k .empty = ((r.place .empty).2.write b (extended r b k), none))
    (j : String) (ks : List String) {c : Address} (hc : c.1 < r.heap.next)
    (hprivate : ¬ r.Shared c) :
    (walk (operate op) (k :: j :: ks) b r).1.obj c =
      if c = b then extended r b k else r.obj c := by
  have hT : r.Confined (r.domain ∅) := .domain hr ∅
  have hplace : Realm.Within (r.domain ∅) r (r.place .empty).2 [] :=
    .place hT (Obj.all_empty (Realm.inside_prim _ r))
  have hnew := hT.inside_place .empty
  set r₁ := (r.place .empty).2.write b (extended r b k) with hr₁
  have hT₁ : r₁.Confined (r.domain ∅) := by
    refine hplace.confined.write (hb.trans_le hplace.next_le) fun hmem => ?_
    have hall : (r.obj b).All ((r.place .empty).2.Inside (r.domain ∅)) := fun i =>
      (hT.own b hmem i).mono hplace.next_le
    exact hall.update _ k hnew
  have hobj : r₁.obj b = extended r b k := Function.update_self _ _ _
  have hget : r₁.get b k = .ref (r.place .empty).1 := by
    have hown : (r₁.obj b).get k = .ref (r.place .empty).1 := by
      have hlength' : ¬ ((extended r b k).isArray = true ∧ k = "length") := by
        rwa [Obj.isArray, extended, Obj.isSome_grow]
      rw [hobj, Realm.get_eq_props hlength', extended]
      exact Function.update_self _ _ _
    rw [Realm.get_of_present (by rw [hown]; rfl), hown]
  have hfunction : isFunction (r.place .empty).1 = false := Realm.isFunction_of_pos hr.pos
  have hwalk : walk (operate op) (k :: j :: ks) b r =
      walk (operate op) (j :: ks) (r.place .empty).1 r₁ := by
    rw [walk_cons_cons, hobject, hassign]
    dsimp only
    rw [hget, object?, hfunction]
    rfl
  have hwithin := @within_walk _ (r.domain ∅) _ (.prim .absent) (operate op) (operateTargets op)
    (fun k a hr ha _ => within_operate_away hop hr ha k) (j :: ks) hT₁ hnew trivial
  have hout : c ∉ walkTargets (operateTargets op) (j :: ks) (r.place .empty).1 r₁ := by
    intro hmem
    obtain hfresh | hshared | ⟨_, hroot, -⟩ := hwithin.inside c hmem
    · exact hc.not_ge hfresh
    · exact hprivate hshared
    · exact hroot
  rw [hwalk, hwithin.obj c (hc.trans_le hplace.next_le) hout]
  split
  next hcb => rw [hcb, hobj]
  next hcb =>
    exact (Function.update_of_ne hcb _ _).trans (obj_place_of_ne .empty (ne_place_of_lt .empty hc))

/-- A value that reaches an object where a primitive was replaced by an object is not what it was,
if nothing else that it reaches was written. -/
lemma doc_ne_of_reach {h h' : Heap} {v : Val} (hreach : Heap.Reach h v b) {p : Prim}
    (hprim : (h.obj b).props k = .prim p) {c : Address} (hnew : (h'.obj b).props k = .ref c)
    (hsame : ∀ a, Heap.Reach h v a → a ≠ b → h'.obj a = h.obj a) : h'.doc v ≠ h.doc v := by
  have hhere : h'.doc (.ref b) ≠ h.doc (.ref b) := by
    intro heq
    rw [Heap.doc_ref, Heap.doc_ref] at heq
    have hprops := congrArg (fun o : Obj Doc => o.props k) (Doc.obj_injective heq)
    simp only [Heap.read, Obj.map_props, hprim, hnew, Heap.doc_ref, Heap.doc_prim] at hprops
    exact Doc.obj_ne_prim _ _ hprops
  induction hreach with
  | here => exact hhere
  | @step a b j hb ih =>
    by_cases hab : a = b
    · rw [hab]
      exact hhere
    · intro heq
      rw [Heap.doc_ref, Heap.doc_ref] at heq
      have hprops := congrArg (fun o : Obj Doc => o.props j) (Doc.obj_injective heq)
      simp only [Heap.read, Obj.map_props, hsame a (.here a) hab] at hprops
      exact ih hprim hnew (fun c hc => hsame c (.step j hc)) hhere hprops

/-! ## What a missing path leaves -/

lemma closed_heap (hr : r.Closed) : r.heap.Closed := by
  intro a k
  have hinside := hr.own a (Set.mem_univ a) k
  show r.heap.Allocated ((r.obj a).props k)
  cases hv : (r.obj a).props k with
  | prim p => trivial
  | ref b =>
    rw [hv] at hinside
    exact hinside.2

/-- What a value reaches is reached from the object that has it. -/
lemma reach_of_props {h : Heap} {v : Val} (hb : Heap.Reach h v b) {c : Address}
    (hc : (h.obj b).props k = .ref c) : Heap.Reach h v c := by
  induction hb with
  | here b =>
    refine .step k ?_
    rw [hc]
    exact .here c
  | step j _ ih => exact .step j (ih hc)

/-- Where a walk breaks off there stands a primitive, or a function. -/
lemma prim_of_break (hobject : object? (r.get b k) = none)
    (hlength : ¬ ((r.obj b).isArray = true ∧ k = "length"))
    (hfunction : ∀ f, (r.obj b).props k = .ref f → f.1 ≠ 0) :
    ∃ p, (r.obj b).props k = .prim p := by
  cases hpresent : isAbsent ((r.obj b).get k) with
  | true => exact ⟨.absent, by rw [← Realm.get_eq_props hlength, eq_absent hpresent]⟩
  | false =>
    rw [Realm.get_of_present hpresent, Realm.get_eq_props hlength] at hobject
    cases hv : (r.obj b).props k with
    | prim p => exact ⟨p, rfl⟩
    | ref f =>
      rw [hv, object?, Realm.isFunction_of_pos (Nat.pos_of_ne_zero (hfunction f hv))] at hobject
      cases hobject

/-- Where a realm has kept what the data reaches, the data reads as it did. -/
lemma read_congr (hsame : ∀ c, Heap.Reach r.heap (.ref data) c → r'.obj c = r.obj c) :
    r'.heap.read data = r.heap.read data := by
  have hdoc : r'.heap.doc (.ref data) = r.heap.doc (.ref data) := Heap.doc_congr hsame
  rw [Heap.doc_ref, Heap.doc_ref] at hdoc
  exact Doc.obj_injective hdoc

/-- **What a walk that breaks off leaves of the data**: all of it, unless the object where it breaks
off is in the data and takes the new one. -/
lemma read_break_iff {op : DeltaOperation Val} (hop : op.op = .delete ∨ op.op = .remove)
    (hr : r.Closed) (hdata : data.1 < r.heap.next)
    (hprivate : ∀ c, Heap.Reach r.heap (.ref data) c → ¬ r.Shared c) (hb : b.1 < r.heap.next)
    (hfunction : isFunction b = false) (hobject : object? (r.get b k) = none) (j : String)
    (ks : List String) :
    (walk (operate op) (k :: j :: ks) b r).1.heap.read data = r.heap.read data ↔
      ¬ Heap.Reach r.heap (.ref data) b ∨ ((r.obj b).isArray = true ∧ k = "length") := by
  have hbuiltIn : ∀ c, Heap.Reach r.heap (.ref data) c → c.1 ≠ 0 := fun c hc hzero =>
    hprivate c hc (Realm.shared_of_builtIn r hzero)
  have hold : ∀ c, Heap.Reach r.heap (.ref data) c → c.1 < r.heap.next := fun c hc =>
    hc.allocated (closed_heap hr) hdata
  obtain ⟨hrefused, e, hassign⟩ | ⟨hlength, hassign⟩ := assignNew_break hr hb hfunction hobject
  · -- The new object is refused.
    refine iff_of_true ?_ ?_
    · rw [walk_cons_cons, hobject, hassign]
      exact read_congr fun c hc => obj_place_of_ne .empty (ne_place_of_lt .empty (hold c hc))
    · obtain hlength | rfl := hrefused
      · exact .inr hlength
      · exact .inl fun hreach => hbuiltIn _ hreach rfl
  · -- The new object is put there, and stays.
    have hobj := fun c hc =>
      obj_walk_break hop hr hb hobject hlength hassign j ks (hold c hc) (hprivate c hc)
    by_cases hreach : Heap.Reach r.heap (.ref data) b
    · refine iff_of_false ?_ (not_or.2 ⟨not_not.2 hreach, hlength⟩)
      obtain ⟨p, hp⟩ := prim_of_break hobject hlength fun f hf =>
        hbuiltIn f (reach_of_props hreach hf)
      have hput : ((walk (operate op) (k :: j :: ks) b r).1.heap.obj b).props k =
          .ref (r.place .empty).1 := by
        have hextended := (hobj b hreach).trans (if_pos rfl)
        rw [Realm.obj] at hextended
        rw [hextended]
        exact Function.update_self _ _ _
      have hne := doc_ne_of_reach hreach hp hput fun c hc hcb =>
        (hobj c hc).trans (if_neg hcb)
      rwa [Heap.doc_ref, Heap.doc_ref, Ne, Doc.obj_inj] at hne
    · refine iff_of_true (read_congr fun c hc => ?_) (.inl hreach)
      refine (hobj c hc).trans (if_neg ?_)
      rintro rfl
      exact hreach hc

/-- **When deleting what is not there changes nothing.**  The path of a `delete` or `remove` does
not resolve, and no object of the data is one that the built-in ones reach.  Then the data is left
as it was if and only if the walk makes no object in it: it finds one at each prefix of the path, or
breaks off at an object outside of the data, or at the length of an array, where it throws. -/
theorem missing_unchanged_iff (hr : r.Closed) (hdata : data.1 < r.heap.next)
    (hprivate : ∀ b, Heap.Reach r.heap (.ref data) b → ¬ r.Shared b) {op : DeltaOperation Val}
    (hop : op.op = .delete ∨ op.op = .remove)
    (hmissing : isAbsent (resolve r (.ref data) (splitPath op.path)) = true) :
    Memory.read (applyOperation r data op).1 data = Memory.read r data ↔
      ∀ b k, breaksAt r (splitPath op.path) data = some (b, k) →
        ¬ Heap.Reach r.heap (.ref data) b ∨ ((r.obj b).isArray = true ∧ k = "length") := by
  show (applyOperation r data op).1.heap.read data = r.heap.read data ↔ _
  have hfunction : isFunction data = false := by
    apply Realm.isFunction_of_pos (Nat.pos_of_ne_zero fun hzero => ?_)
    exact hprivate data (.here data) (Realm.shared_of_builtIn r hzero)
  unfold applyOperation
  obtain ⟨hbreaks, b, k, hwalk, hresolve⟩ | ⟨b, k, j, ks, hbreaks, hwalk, hobject, hb, hfunction⟩ :=
    @walk_cases r _ (operate op) (splitPath op.path) hr hdata hfunction (splitPath_ne_nil op.path)
  · -- The walk gets through.
    rw [hresolve] at hmissing
    refine iff_of_true ?_ fun b k hb => ?_
    · rw [hwalk]
      exact read_congr fun c _ => operate_missing hop hmissing c
    · rw [hbreaks] at hb
      cases hb
  · rw [hwalk, read_break_iff hop hr hdata hprivate hb hfunction hobject]
    constructor
    · rintro h b' k' hb'
      rw [hbreaks] at hb'
      cases hb'
      exact h
    · exact fun h => h b k hbreaks

/-- Objects made of a text reach objects of the text. -/
lemma reach_parse (o : Obj Doc) {p : List String} (hb : Heap.Reach (r.parse o).2.heap
    (.ref (r.heap.next, p)) b) : b.1 = r.heap.next := by
  generalize hv : Val.ref (r.heap.next, p) = v at hb
  induction hb generalizing p with
  | here b =>
    obtain rfl := Val.ref.inj hv
    rfl
  | @step a b k hb ih =>
    obtain rfl := Val.ref.inj hv
    have hprops : ((r.parse o).2.heap.obj (r.heap.next, p)).props k =
        Heap.textVal r.heap.next (.obj o) (p ++ [k]) :=
      congrArg (fun o : Obj Val => o.props k) (Realm.obj_parse_new r o p)
    rw [hprops, Heap.textVal] at hb ih
    split at hb
    · cases hb
    next hnode =>
      rw [hnode] at ih
      exact ih rfl

/-- A data object with an empty object in it. -/
def bag : Realm := ((Realm.initial 1000).parse (Obj.empty.put "items" (.obj .empty))).2

lemma closed_bag : bag.Closed := (Realm.Within.parse (Realm.closed_initial 1000) _).confined

lemma private_bag (b : Address) (hb : Heap.Reach bag.heap (.ref (1, [])) b) : ¬ bag.Shared b := by
  intro hshared
  have hzero := Realm.builtIn_of_shared (fun a ha => ?_) hshared
  · rw [reach_parse _ hb] at hzero
    cases hzero
  · refine ⟨Realm.obj_parse_old _ ?_, rfl⟩
    rw [ha]
    exact Nat.zero_ne_one

theorem missing_unchanged_bag :
    Memory.read (applyOperation bag (1, []) ⟨.delete, "items.x", .prim .undefined⟩).1 (1, []) =
      Memory.read bag (1, []) := by
  refine (missing_unchanged_iff closed_bag (by decide) private_bag (.inl rfl)
    (by decide +kernel)).2 fun b k hb => ?_
  have hnone : breaksAt bag (splitPath "items.x") (1, []) = none := by decide +kernel
  rw [hnone] at hb
  cases hb

/-- Deleting what is not there makes the object on the way to it. -/
theorem delete_makes_object : ¬ ∀ (r : Realm) (data : Address) (op : DeltaOperation Val),
    r.Closed → data.1 < r.heap.next →
    (∀ b, Heap.Reach r.heap (.ref data) b → ¬ r.Shared b) →
    (op.op = .delete ∨ op.op = .remove) →
    isAbsent (resolve r (.ref data) (splitPath op.path)) = true →
    Memory.read (applyOperation r data op).1 data = Memory.read r data := by
  intro h
  have hread := h bag (1, []) ⟨.delete, "temp.x", .prim .undefined⟩ closed_bag (by decide)
    private_bag (.inl rfl) (by decide +kernel)
  have hnode := congrArg (fun o : Obj Doc => (o.props "temp").node []) hread
  revert hnode
  decide +kernel

end RealmMemory

end SyncEngine
