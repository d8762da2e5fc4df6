import SyncEngine.Core.OperationLaws

/-!
# Operations on unrelated paths

Two operations walk down what their paths have in common, and both put `{}` in the place of what
is no object there.  Where the paths part they act on different properties, and neither is seen by
the other: not what it writes, and not whether it throws (`Obj.act_comm_of_part`).  So they may go
in either order, also if one of them throws or both do (`applyOperation_comm`).

`Js/Local.lean` has this for steps that do not throw, with arrays on the way.  Here no array is met
before the ends of the paths: an index that is written makes an array longer, and the length of an
array is a property that both paths would see.
-/

namespace Js

/-- Two paths of which neither is the beginning of the other part. -/
lemma part_of_not_prefix {p q : List String} (hpq : ¬ p <+: q) (hqp : ¬ q <+: p) : Part p q := by
  induction p generalizing q with
  | nil => exact absurd List.nil_prefix hpq
  | cons j p ih =>
    cases q with
    | nil => exact absurd List.nil_prefix hqp
    | cons k q =>
      by_cases h : j = k
      · subst h
        rw [List.prefix_cons_inj] at hpq hqp
        exact .tail j (ih hpq hqp)
      · exact .head h p q

namespace Obj

/-- The path meets an array before its end. -/
def meetsArray : List String → Obj Doc → Bool
  | [], _ => false
  | k :: ks, o => o.isArray || match (o.props k).view with
    | .obj c => meetsArray ks c
    | .prim _ => false

lemma meetsArray_empty (p : List String) : (Obj.empty : Obj Doc).meetsArray p = false := by
  cases p <;> rfl

/-- A path that meets no array does not touch the length of one. -/
lemma touchesLength_of_meetsArray {p : List String} {o : Obj Doc} (h : o.meetsArray p = false) :
    o.touchesLength p = false := by
  induction p generalizing o with
  | nil => rfl
  | cons k p ih =>
    rw [meetsArray, Bool.or_eq_false_iff] at h
    obtain ⟨hplain, hrest⟩ := h
    rw [touchesLength, Bool.or_eq_false_iff]
    constructor
    · simp [IsLength, hplain]
    · cases hview : (o.props k).view with
      | prim x => rfl
      | obj c =>
        rw [hview] at hrest
        exact ih hrest

/-- The object that a walk goes on from: what is held, or `{}`. -/
def goesOn (d : Doc) : Obj Doc :=
  match d.view with
  | .obj c => c
  | .prim _ => .empty

@[simp] lemma goesOn_obj (c : Obj Doc) : goesOn (.obj c) = c := by
  rw [goesOn, Doc.view_obj]

variable {f g : Step} {j k : String} {o : Obj Doc} {p q : List String}

/-- A step below a value leaves an object there, which is what the walk went on from, changed. -/
lemma along_of_ne_nil (hp : p ≠ []) (d : Doc) : ∃ w, f.along p d =
    ⟨.obj ((goesOn d).act f p).1, w, ((goesOn d).act f p).2⟩ := by
  obtain ⟨j, p, rfl⟩ := List.exists_cons_of_ne_nil hp
  rw [Step.along, Step.inside, goesOn]
  cases d.view with
  | prim x => exact ⟨true, rfl⟩
  | obj c => exact ⟨false, rfl⟩

/-- A step in a plain object changes one property, and what it does depends on that one only. -/
lemma act_of_plain (h : o.isArray = false) : o.act f (k :: p) =
    (⟨none, Function.update o.props k (f.along p (o.props k)).doc⟩,
      (f.along p (o.props k)).err) := by
  have hlen : ¬ o.IsLength k := by simp [IsLength, h]
  have hnone : o.len = none := by simpa [isArray] using h
  rw [act, actAt_of_not_isLength hlen, hnone]
  cases (f.along p (o.props k)).wrote <;> rfl

lemma meetsArray_cons_iff : o.meetsArray (k :: p) = false ↔
    o.isArray = false ∧ (goesOn (o.props k)).meetsArray p = false := by
  rw [meetsArray, Bool.or_eq_false_iff, goesOn]
  cases (o.props k).view with
  | prim x => simp [meetsArray_empty]
  | obj c => exact Iff.rfl

/-- **Steps at paths that part do not see one another**, if no array is met before the ends. -/
lemma act_comm_of_part (h : Part p q) (hp : o.meetsArray p = false)
    (hq : o.meetsArray q = false) :
    ((o.act f p).1.act g q).1 = ((o.act g q).1.act f p).1 ∧
      ((o.act f p).1.act g q).2 = (o.act g q).2 ∧ (o.act f p).1.meetsArray q = false := by
  induction h generalizing o with
  | @head j k hne p q =>
    obtain ⟨hplain, -⟩ := meetsArray_cons_iff.1 hp
    obtain ⟨-, hrest⟩ := meetsArray_cons_iff.1 hq
    rw [act_of_plain hplain, act_of_plain hplain, act_of_plain rfl, act_of_plain rfl]
    simp only [Function.update_of_ne hne, Function.update_of_ne hne.symm]
    refine ⟨by rw [Function.update_comm hne], trivial, meetsArray_cons_iff.2 ⟨rfl, ?_⟩⟩
    dsimp only
    rwa [Function.update_of_ne hne.symm]
  | @tail k p q hpart ih =>
    obtain ⟨hplain, hp⟩ := meetsArray_cons_iff.1 hp
    obtain ⟨-, hq⟩ := meetsArray_cons_iff.1 hq
    have hne : p ≠ [] ∧ q ≠ [] := by
      cases hpart <;> exact ⟨List.cons_ne_nil _ _, List.cons_ne_nil _ _⟩
    obtain ⟨hdata, herr, hmeets⟩ := ih hp hq
    obtain ⟨w, hf⟩ := along_of_ne_nil (f := f) hne.1 (o.props k)
    obtain ⟨v, hg⟩ := along_of_ne_nil (f := g) hne.2 (o.props k)
    obtain ⟨w', hfg⟩ := along_of_ne_nil (f := g) hne.2 (.obj ((goesOn (o.props k)).act f p).1)
    obtain ⟨v', hgf⟩ := along_of_ne_nil (f := f) hne.1 (.obj ((goesOn (o.props k)).act g q).1)
    rw [goesOn_obj] at hfg hgf
    rw [act_of_plain hplain, act_of_plain hplain, act_of_plain rfl, act_of_plain rfl]
    simp only [Function.update_self, Function.update_idem, hf, hg, hfg, hgf]
    refine ⟨by rw [hdata], herr, meetsArray_cons_iff.2 ⟨rfl, ?_⟩⟩
    dsimp only
    rwa [Function.update_self, goesOn_obj]

end Obj

end Js

namespace SyncEngine

open Js

/-- **Operations on unrelated paths commute.**  Let neither of the paths of two operations be the
beginning of the other, and let none of them meet an array before its end.  Then the operations
leave the same data in either order, and each of them throws in the one order exactly if it throws
in the other, with the same exception.  No segment of the paths is to be `__proto__`, which names
an object here and the prototype in the source. -/
theorem applyOperation_comm {a b : DeltaOperation Doc} {o : Obj Doc}
    (hab : ¬ splitPath a.path <+: splitPath b.path) (hba : ¬ splitPath b.path <+: splitPath a.path)
    (ha : o.meetsArray (splitPath a.path) = false)
    (hb : o.meetsArray (splitPath b.path) = false) :
    (applyOperation b (applyOperation a o).1).1 = (applyOperation a (applyOperation b o).1).1 ∧
      (applyOperation b (applyOperation a o).1).2 = (applyOperation b o).2 ∧
      (applyOperation a (applyOperation b o).1).2 = (applyOperation a o).2 := by
  have hpart := part_of_not_prefix hab hba
  obtain ⟨hdata, hberr, hb'⟩ := Obj.act_comm_of_part (f := a.step) (g := b.step) hpart ha hb
  obtain ⟨-, haerr, ha'⟩ := Obj.act_comm_of_part (f := b.step) (g := a.step) hpart.symm hb ha
  have hfree : ∀ (op : DeltaOperation Doc) (u : Obj Doc), u.meetsArray (splitPath op.path) = false →
      applyOperation op u = u.act op.step (splitPath op.path) :=
    fun op u h => applyOperation_eq_perform (Obj.touchesLength_of_meetsArray h)
  rw [hfree a o ha, hfree b o hb, hfree b _ hb', hfree a _ ha']
  exact ⟨hdata, hberr, haerr⟩

/-- A name that is set, and a counter beside it. -/
theorem applyOperation_comm_beside :
    let rename : DeltaOperation Doc := ⟨.set, "profile.name", .prim (.str "x")⟩
    let count : DeltaOperation Doc := ⟨.increment, "profile.visits", .prim (.num 1)⟩
    (applyOperation count (applyOperation rename .empty).1).1 =
      (applyOperation rename (applyOperation count .empty).1).1 :=
  (applyOperation_comm (by decide) (by decide) (by decide) (by decide)).1

end SyncEngine
