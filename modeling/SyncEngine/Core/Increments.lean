import SyncEngine.Core.OperationLaws
import SyncEngine.Core.RawUpdate
import SyncEngine.Machine.Runs

/-!
# Increments of a field

Do increments add up?  An increment of a field that holds a number adds `Number(value) || 1` to it
(`field_perform_increment`), and the default is taken for the value `0` too: an increment by zero
adds one.  So increments by integers add up exactly when none of them is zero, in whatever calls
they come (`increments_add_up_iff`).  The other default, `Number(current) || 0`, changes nothing.

A *field* is a property that holds a value of its own; the length of an array is none.  That is all
a path has to lead to: what lies on the way may be an object or an array.
-/

namespace Js.Obj

/-- What the path leads to, through objects and arrays, unless it leads through the length of an
array. -/
def field : List String → Obj Doc → Option Doc
  | [], _ => none
  | [k], o => if o.IsLength k then none else some (o.props k)
  | k :: ks, o =>
    if o.IsLength k then none
    else match (o.props k).view with
      | .obj c => field ks c
      | .prim _ => none

lemma field_cons_cons (k j : String) (ks : List String) (o : Obj Doc) :
    o.field (k :: j :: ks) = if o.IsLength k then none else
      match (o.props k).view with
      | .obj c => c.field (j :: ks)
      | .prim _ => none := rfl

/-- Where a path of several names leads to something, its first name leads to an object. -/
lemma exists_of_field {k j : String} {ks : List String} {o : Obj Doc} {d : Doc}
    (h : o.field (k :: j :: ks) = some d) :
    ¬ o.IsLength k ∧ ∃ c, o.props k = .obj c ∧ c.field (j :: ks) = some d := by
  rw [field_cons_cons] at h
  by_cases hlen : o.IsLength k
  · simp [hlen] at h
  · rw [if_neg hlen] at h
    rcases hview : (o.props k).view with x | c
    · simp [hview] at h
    · rw [hview] at h
      exact ⟨hlen, c, Doc.eq_obj_of_view hview, h⟩

/-- A path that leads to a field does not touch the length of an array. -/
lemma touchesLength_of_field {p : List String} {o : Obj Doc} {d : Doc} (h : o.field p = some d) :
    o.touchesLength p = false := by
  induction p generalizing o with
  | nil => rfl
  | cons k p ih =>
    cases p with
    | nil =>
      have hlen : ¬ o.IsLength k := by
        intro hlen
        simp [field, hlen] at h
      rcases hview : (o.props k).view with x | c <;> simp [touchesLength, hlen, hview]
    | cons j ks =>
      obtain ⟨hlen, c, hc, hrest⟩ := exists_of_field h
      rw [touchesLength, hc, Doc.view_obj, decide_eq_false hlen, Bool.false_or]
      exact ih hrest

lemma props_actAt {f : Step} {k : String} {o : Obj Doc} (h : ¬ o.IsLength k) :
    (o.actAt f k).1.props k = (f (o.props k)).doc := by
  rw [actAt_of_not_isLength h]
  exact Function.update_self ..

/-- **A step at a field** acts on what the field holds, and leaves there what it makes of it. -/
lemma act_of_field {f : Step} {p : List String} {o : Obj Doc} {d : Doc} (h : o.field p = some d) :
    (o.act f p).2 = (f d).err ∧ (o.act f p).1.field p = some (f d).doc := by
  induction p generalizing o with
  | nil => simp [field] at h
  | cons k p ih =>
    cases p with
    | nil =>
      have hlen : ¬ o.IsLength k := by
        intro hlen
        simp [field, hlen] at h
      have hd : o.props k = d := by simpa [field, hlen] using h
      have hstill := (isLength_actAt f k k o).not.mpr hlen
      constructor
      · rw [act, Step.along, actAt_of_not_isLength hlen, hd]
      · rw [act, Step.along, field, if_neg hstill, props_actAt hlen, hd]
    | cons j ks =>
      obtain ⟨hlen, c, hc, hrest⟩ := exists_of_field h
      obtain ⟨herr, hfield⟩ := ih hrest
      have hstill := (isLength_actAt (f.along (j :: ks)) k k o).not.mpr hlen
      have hinside : f.along (j :: ks) (o.props k) =
          ⟨.obj (c.act f (j :: ks)).1, false, (c.act f (j :: ks)).2⟩ := by
        rw [hc]
        rfl
      constructor
      · rw [act, actAt_of_not_isLength hlen, hinside, herr]
      · rw [act, field_cons_cons, if_neg hstill, props_actAt hlen, hinside]
        exact hfield

end Js.Obj

namespace SyncEngine

open Js

/-! ## One data object -/

/-- Increments of the field at `path` by the given amounts. -/
def increments (path : String) (amounts : List ℤ) : List (DeltaOperation Doc) :=
  amounts.map fun v => ⟨.increment, path, .prim (.num v)⟩

/-- What an increment by `v` adds: `Number(v) || 1`. -/
def added (v : ℤ) : ℤ := if v = 0 then 1 else v

lemma incremented_num (q : ℚ) (v : ℤ) :
    incremented (.prim (.num q)) (.prim (.num v)) = .ok (q + added v) := by
  unfold incremented
  rw [Doc.numberOr_zero_num, Doc.numberOr_num, added]
  by_cases hv : v = 0
  · simp [hv]
  · simp [hv]

/-- **An increment of a number adds to it**, and does not throw. -/
lemma field_perform_increment {o : Obj Doc} {path : String} {q : ℚ}
    (h : o.field (splitPath path) = some (.prim (.num q))) (v : ℤ) :
    (applyOperation ⟨.increment, path, .prim (.num v)⟩ o).2 = none ∧
      (applyOperation ⟨.increment, path, .prim (.num v)⟩ o).1.field (splitPath path) =
        some (.prim (.num (q + added v))) := by
  have hstep : (DeltaOperation.step ⟨.increment, path, .prim (.num v)⟩) (.prim (.num q)) =
      ⟨.prim (.num (q + added v)), true, none⟩ := by
    simp [DeltaOperation.step, incremented_num]
  obtain ⟨herr, hfield⟩ := Obj.act_of_field
    (f := DeltaOperation.step ⟨.increment, path, .prim (.num v)⟩) h
  rw [applyOperation_eq_perform (Obj.touchesLength_of_field h)]
  exact ⟨herr.trans (by rw [hstep]), hfield.trans (by rw [hstep])⟩

lemma field_applyAll_increments {path : String} (amounts : List ℤ) {o : Obj Doc} {q : ℚ}
    (h : o.field (splitPath path) = some (.prim (.num q))) :
    (applyAll (increments path amounts) o).1.field (splitPath path) =
      some (.prim (.num (q + (amounts.map added).sum))) := by
  induction amounts generalizing o q with
  | nil => simpa [applyAll, increments, forEachWrite] using h
  | cons v amounts ih =>
    obtain ⟨hok, hfield⟩ := field_perform_increment h v
    have hcons : applyAll (increments path (v :: amounts)) o =
        applyAll (increments path amounts)
          (applyOperation ⟨.increment, path, .prim (.num v)⟩ o).1 := forEachWrite_cons_ok hok
    rw [hcons, ih hfield, List.map_cons, List.sum_cons]
    push_cast
    rw [add_assoc]

/-- What is added is the sum of the amounts, and one more for each zero. -/
lemma sum_added (amounts : List ℤ) :
    (amounts.map added).sum = amounts.sum + (amounts.count 0 : ℤ) := by
  induction amounts with
  | nil => rfl
  | cons v amounts ih =>
    rw [List.map_cons, List.sum_cons, List.sum_cons, List.count_cons, ih, added]
    by_cases hv : v = 0
    · simp [hv]
      ring
    · simp [hv]
      ring

lemma sum_added_eq_iff (amounts : List ℤ) :
    (amounts.map added).sum = amounts.sum ↔ ∀ v ∈ amounts, v ≠ 0 := by
  rw [sum_added, add_eq_left, Int.natCast_eq_zero, List.count_eq_zero]
  constructor
  · rintro hzero v hv rfl
    exact hzero hv
  · exact fun h hzero => h 0 hzero rfl

namespace StateManager

variable {M V : Type} [Memory M V]

/-! ## Calls -/

/-- The field at `path` of the entity holds the number `q`. -/
def FieldIs (σ : StateManager M V) (id : EntityId) (path : String) (q : ℚ) : Prop :=
  ∃ o, σ.data id = some o ∧ o.field (splitPath path) = some (.prim (.num q))

/-- One call of `updateEntity`, with increments of one field. -/
def incrementField (id : EntityId) (path : String) (σ : StateManager M V)
    (call : List ℤ × Timestamp) : StateManager M V :=
  (σ.receiveUpdate id (increments path call.1) call.2).1

lemma FieldIs.unique {σ : StateManager M V} {id : EntityId} {path : String} {q r : ℚ}
    (hq : σ.FieldIs id path q) (hr : σ.FieldIs id path r) : q = r := by
  obtain ⟨o, ho, hq⟩ := hq
  obtain ⟨u, hu, hr⟩ := hr
  obtain rfl := Option.some.inj (ho.symm.trans hu)
  have hsame := Doc.prim_injective (Option.some.inj (hq.symm.trans hr))
  exact Prim.num.inj hsame

variable [TreeMemory M V] {σ : StateManager M V} {T : Ref → Option (Record V)} {id : EntityId}
  {path : String} {q : ℚ}

/-- **A call adds up its increments**, and leaves the fields of other entities alone. -/
lemma Holds.incrementField (h : σ.Holds T) (hfield : σ.FieldIs id path q)
    (call : List ℤ × Timestamp) :
    (∃ T', (incrementField id path σ call).Holds T') ∧
      (incrementField id path σ call).FieldIs id path (q + (call.1.map added).sum) ∧
      ∀ j path' r, j ≠ id → σ.FieldIs j path' r →
        (incrementField id path σ call).FieldIs j path' r := by
  obtain ⟨o, ho, hq⟩ := hfield
  obtain ⟨e, hget, rfl⟩ := Option.map_eq_some_iff.1 ho
  obtain ⟨done, hdone⟩ := Option.isSome_iff_exists.1 (h.tracked id e hget)
  obtain ⟨more, -, -, hholds, hdata, -⟩ :=
    h.receiveUpdate hget hdone (increments path call.1) call.2
  refine ⟨⟨_, hholds⟩, ⟨_, ?_, field_applyAll_increments call.1 hq⟩, ?_⟩
  · exact (hdata id).trans (if_pos rfl)
  · rintro j path' r hj ⟨u, hu, hr⟩
    exact ⟨u, ((hdata j).trans (if_neg hj)).trans hu, hr⟩

lemma Holds.run_incrementField (h : σ.Holds T) (hfield : σ.FieldIs id path q)
    (calls : List (List ℤ × Timestamp)) :
    (Machine.run (StateManager.incrementField id path) σ calls).FieldIs id path
      (q + ((calls.flatMap Prod.fst).map added).sum) := by
  induction calls generalizing σ T q with
  | nil => simpa using hfield
  | cons call calls ih =>
    obtain ⟨⟨T', hholds⟩, hcall, -⟩ := h.incrementField hfield call
    have hrest := ih hholds hcall
    rw [Machine.run_cons, List.flatMap_cons, List.map_append, List.sum_append, Int.cast_add,
      ← add_assoc]
    exact hrest

/-- A store with two accounts. -/
def accounts : StateManager Cells Doc :=
  ((new Memory.empty 100).receiveEntity "account" "p1" (Obj.empty.put "money" (.prim (.num 50)))
    "a1" 1).receiveEntity "account" "p2" (Obj.empty.put "money" (.prim (.num 20))) "a2" 2

end StateManager

end SyncEngine
