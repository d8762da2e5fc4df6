import SyncEngine.Core.UnrelatedPaths

/-!
# What an operation leaves at a path

The value at a path is what reading one property after the other gives (`Doc.valueAt`).  A step at a
path that meets no array leaves there what it makes of the value that was there
(`Obj.valueAt_act`), and every value at a path that parts from it stays (`Obj.valueAt_act_of_part`):
the objects that the walk puts in the place of what is none are seen from below the path only.

So `set`, `delete` and `append` leave what their names say, and no operation is seen anywhere else,
with one exception: an array to which nothing can be pushed (`pathLaws_iff`).  Either it has as many
elements as an array can have, or a property `push` of its own has been set on it, and the source
calls that.
-/

namespace Js

/-- What is read at a path, one property after the other. -/
def Doc.valueAt : Doc → List String → Doc
  | d, [] => d
  | d, k :: p =>
    match d.view with
    | .obj o => valueAt (o.get k) p
    | .prim _ => .prim .absent

namespace Obj

open Doc

variable {f : Step} {o : Obj Doc} {p q : List String}

@[simp] lemma valueAt_cons (o : Obj Doc) (k : String) (p : List String) :
    (Doc.obj o).valueAt (k :: p) = (o.get k).valueAt p := rfl

lemma get_of_plain (h : o.isArray = false) (k : String) : o.get k = o.props k :=
  SyncEngine.get_of_not_isLength (by simp [IsLength, h])

/-- Below what is no object there is as little as in `{}`. -/
lemma valueAt_goesOn (hp : p ≠ []) (d : Doc) : (Doc.obj (goesOn d)).valueAt p = d.valueAt p := by
  obtain ⟨k, p, rfl⟩ := List.exists_cons_of_ne_nil hp
  cases d with
  | obj c => rw [goesOn_obj]
  | prim x => cases p <;> rfl

/-- What a step leaves where its path ends, and whether it throws. -/
lemma valueAt_act (hp : p ≠ []) (h : o.meetsArray p = false) :
    (Doc.obj (o.act f p).1).valueAt p = (f ((Doc.obj o).valueAt p)).doc ∧
      (o.act f p).2 = (f ((Doc.obj o).valueAt p)).err := by
  induction p generalizing o with
  | nil => exact absurd rfl hp
  | cons k p ih =>
    obtain ⟨hplain, hrest⟩ := meetsArray_cons_iff.1 h
    rw [act_of_plain hplain, valueAt_cons, valueAt_cons, get_of_plain hplain, get_of_plain rfl]
    simp only [Function.update_self]
    by_cases hnil : p = []
    · subst hnil
      exact ⟨rfl, rfl⟩
    · obtain ⟨w, halong⟩ := along_of_ne_nil (f := f) hnil (o.props k)
      rw [halong, ← valueAt_goesOn hnil (o.props k)]
      exact ih hnil hrest

/-- A step is not seen at a path that parts from its own. -/
lemma valueAt_act_of_part (hpart : Part p q) (h : o.meetsArray p = false) :
    (Doc.obj (o.act f p).1).valueAt q = (Doc.obj o).valueAt q := by
  induction hpart generalizing o with
  | @head j k hne p q =>
    obtain ⟨hplain, -⟩ := meetsArray_cons_iff.1 h
    rw [act_of_plain hplain, valueAt_cons, valueAt_cons, get_of_plain hplain, get_of_plain rfl]
    simp only [Function.update_of_ne (Ne.symm hne)]
  | @tail k p q hpart ih =>
    obtain ⟨hplain, hrest⟩ := meetsArray_cons_iff.1 h
    have hne : p ≠ [] ∧ q ≠ [] := by
      cases hpart <;> exact ⟨List.cons_ne_nil _ _, List.cons_ne_nil _ _⟩
    obtain ⟨w, halong⟩ := along_of_ne_nil (f := f) hne.1 (o.props k)
    rw [act_of_plain hplain, valueAt_cons, valueAt_cons, get_of_plain hplain, get_of_plain rfl]
    simp only [Function.update_self]
    rw [halong, ih hrest, valueAt_goesOn hne.2]

end Obj

end Js

namespace SyncEngine

open Js

/-- An array whose last element is `v`. -/
def EndsIn (d v : Doc) : Prop :=
  ∃ n ps, d = .obj ⟨some (n + 1), ps⟩ ∧ n < 4294967295 ∧ ps (toString n) = v

/-- An array that has a property `push` of its own, or as many elements as an array can have. -/
def CannotPush (d : Doc) : Prop :=
  match d.view with
  | .obj ⟨some n, ps⟩ => isAbsent (ps "push") = false ∨ 4294967295 ≤ n
  | _ => False

/-- The laws of an operation on a data object: what it leaves at its path, and that it leaves
everything at other paths. -/
structure PathLaws (op : DeltaOperation Doc) (o : Obj Doc) : Prop where
  set : op.op = .set → (applyOperation op o).2 = none ∧
    (Doc.obj (applyOperation op o).1).valueAt (splitPath op.path) = op.value
  delete : op.op = .delete → (applyOperation op o).2 = none ∧
    (Doc.obj (applyOperation op o).1).valueAt (splitPath op.path) = .prim .absent
  append : op.op = .append → (applyOperation op o).2 = none ∧
    EndsIn ((Doc.obj (applyOperation op o).1).valueAt (splitPath op.path)) op.value
  others : ∀ q, ¬ splitPath op.path <+: q → ¬ q <+: splitPath op.path →
    (Doc.obj (applyOperation op o).1).valueAt q = (Doc.obj o).valueAt q

/-- A value was pushed last. -/
lemma endsIn_pushed (n : ℕ) (ps : String → Doc) (v : Doc) :
    EndsIn (.obj ⟨some (n + 1), Function.update ps (toString n) v⟩) v ↔ n < 4294967295 := by
  constructor
  · rintro ⟨m, qs, heq, hm, -⟩
    obtain rfl : n = m := by simpa using congrArg Obj.len (Doc.obj_injective heq)
    exact hm
  · exact fun hn => ⟨n, _, rfl, hn, Function.update_self _ _ _⟩

/-- Pushing returns and leaves the value last, unless nothing can be pushed. -/
lemma append_step_iff {op : DeltaOperation Doc} (hop : op.op = .append) (d : Doc) :
    (op.step d).err = none ∧ EndsIn (op.step d).doc op.value ↔ ¬ CannotPush d := by
  have hnew : (Obj.emptyArray : Obj Doc).push op.value =
      .ok ⟨some 1, Function.update (fun _ => .prim .absent) (toString 0) op.value⟩ := rfl
  unfold DeltaOperation.step CannotPush
  simp only [hop]
  rcases d.view with x | ⟨_ | n, ps⟩
  · simp only [hnew, true_and, not_false_eq_true, iff_true]
    exact (endsIn_pushed 0 _ _).2 (by decide)
  · simp only [hnew, true_and, not_false_eq_true, iff_true]
    exact (endsIn_pushed 0 _ _).2 (by decide)
  · cases hown : isAbsent (ps "push") with
    | true =>
      have hpush : (Obj.mk (some n) ps).push op.value =
          .ok ⟨some (n + 1), Function.update ps (toString n) op.value⟩ := if_pos hown
      simp only [hpush, true_and]
      rw [endsIn_pushed, hown, or_iff_right (by decide), not_le]
    | false =>
      have hpush : (Obj.mk (some n) ps).push op.value = .error .typeError :=
        if_neg (by simp [hown])
      simp [hpush, hown]

/-- **The path laws of an operation.**  Let the path meet no array before its end.  Then the laws
hold for every operation but an `append` to an array to which nothing can be pushed.  No segment of
the path is to be `__proto__`, which names an object here and the prototype in the source. -/
theorem pathLaws_iff {op : DeltaOperation Doc} {o : Obj Doc}
    (h : o.meetsArray (splitPath op.path) = false) :
    PathLaws op o ↔
      ¬ (op.op = .append ∧ CannotPush ((Doc.obj o).valueAt (splitPath op.path))) := by
  have happly : applyOperation op o = o.act op.step (splitPath op.path) :=
    applyOperation_eq_perform (Obj.touchesLength_of_meetsArray h)
  obtain ⟨hvalue, herr⟩ := Obj.valueAt_act (f := op.step) (splitPath_ne_nil op.path) h
  rw [← happly] at hvalue herr
  constructor
  · rintro hlaws ⟨hop, hcannot⟩
    have happend := hlaws.append hop
    rw [hvalue, herr] at happend
    exact (append_step_iff hop _).1 happend hcannot
  · intro hcan
    refine ⟨fun hop => ?_, fun hop => ?_, fun hop => ?_, fun q hpq hqp => ?_⟩
    · rw [hvalue, herr, DeltaOperation.step, hop]
      exact ⟨rfl, rfl⟩
    · rw [hvalue, herr, DeltaOperation.step, hop]
      exact ⟨rfl, rfl⟩
    · rw [hvalue, herr]
      exact (append_step_iff hop _).2 fun hcannot => hcan ⟨hop, hcannot⟩
    · have hpart := part_of_not_prefix hpq hqp
      rw [happly]
      exact Obj.valueAt_act_of_part hpart h

/-- A coordinate that is set in an empty object. -/
theorem pathLaws_iff_empty :
    let op : DeltaOperation Doc := ⟨.set, "position.x", .prim (.num 1)⟩
    PathLaws op .empty ↔
      ¬ (op.op = .append ∧ CannotPush ((Doc.obj .empty).valueAt (splitPath op.path))) :=
  pathLaws_iff (by decide)

/-- An inventory on whose list a client has set a property `push`. -/
def inventory : Obj Doc :=
  (applyOperation ⟨.set, "items.push", .prim (.num 5)⟩
    (applyOperation ⟨.set, "items", .obj .emptyArray⟩ .empty).1).1

/-- Nothing can be appended to that list. -/
theorem own_push_refuses : ¬ ∀ (op : DeltaOperation Doc) (o : Obj Doc),
    o.meetsArray (splitPath op.path) = false → PathLaws op o := by
  intro h
  have hlaws := h ⟨.append, "items", .prim (.str "sword")⟩ inventory (by decide +kernel)
  exact absurd (hlaws.append rfl).1 (by decide +kernel)

end SyncEngine
