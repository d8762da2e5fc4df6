import SyncEngine.Core.TreeMemory
import SyncEngine.Js.Local

/-!
# How operations compose

`applyOperation` is a step at a path (`applyOperation_eq_perform`), so what `Js/Local.lean` says
of steps holds of operations.  Operations on paths that part commute (`perform_comm`).  On one
path, a `set` makes up for whatever was done before it and so does a `delete` where nothing made
an array longer (`perform_set`, `perform_delete`), and an `increment` adds up with an `increment`
before it or with a `set` before it (`perform_increment`, `perform_set_increment`).

These are laws about operations that do not throw and do not touch the length of an array,
`perform` being the operation that throws in that case.
-/

namespace SyncEngine

open Js

/-- What an operation does to the value that its path leads to. -/
def DeltaOperation.step (op : DeltaOperation Doc) : Step := fun d =>
  match op.op with
  | .set => ⟨op.value, true, none⟩
  | .delete => ⟨.prim .absent, false, none⟩
  | .increment =>
    match incremented d op.value with
    | .error e => ⟨d, false, some e⟩
    | .ok q => ⟨.prim (.num q), true, none⟩
  | .append =>
    match d.view with
    | .obj ⟨some n, ps⟩ =>
      match (Obj.mk (some n) ps).push op.value with
      | .error e => ⟨d, false, some e⟩
      | .ok a => ⟨.obj a, false, none⟩
    | _ =>
      match (Obj.emptyArray : Obj Doc).push op.value with
      | .error e => ⟨.obj .emptyArray, true, some e⟩
      | .ok a => ⟨.obj a, true, none⟩
  | .remove =>
    match d.view with
    | .obj ⟨some n, ps⟩ =>
      match (Obj.mk (some n) ps).removeAll (Doc.strictEq op.value) with
      | .error e => ⟨d, false, some e⟩
      | .ok a => ⟨.obj a, false, none⟩
    | _ => ⟨d, false, none⟩
  | .other => ⟨d, false, none⟩

/-- An operation that refuses to touch the length of an array. -/
def perform (op : DeltaOperation Doc) (o : Obj Doc) : Written (Obj Doc) :=
  o.act op.step (splitPath op.path)

lemma get_of_not_isLength {o : Obj Doc} {k : String} (h : ¬ o.IsLength k) :
    o.get k = o.props k := by
  unfold Obj.get
  cases ho : o.len with
  | none => rfl
  | some n =>
      have hk : k ≠ "length" := fun hk => h ⟨by simp [Obj.isArray, ho], hk⟩
      simp [hk]

/-- The switch is local. -/
lemma operate_eq_actAt (op : DeltaOperation Doc) (k : String) (o : Obj Doc) (h : ¬ o.IsLength k) :
    operate op k o = o.actAt op.step k := by
  have hget := get_of_not_isLength h
  have hassign : ∀ v n, o.assign k v n = .ok ⟨Obj.grow o.len k, Function.update o.props k v⟩ :=
    fun v n => if_neg h
  rw [Obj.actAt_of_not_isLength h]
  obtain ⟨kind, path, value⟩ := op
  cases kind with
  | set => simp [operate, DeltaOperation.step, hassign, attempt]
  | delete =>
      have herase : o.erase k = .ok (o.put k (Slot.prim .absent)) := if_neg h
      simp [operate, DeltaOperation.step, herase, attempt, Obj.put]
  | increment =>
      rcases hi : incremented (o.props k) value with e | q
      · simp [operate, DeltaOperation.step, hget, hi]
      · simp [operate, DeltaOperation.step, hget, hi, hassign, attempt]
  | append =>
      have hpush : (Obj.mk (some 0) fun _ => Doc.prim .absent : Obj Doc).push value =
          .ok ⟨some 1, Function.update (fun _ => Doc.prim .absent) (toString 0) value⟩ := rfl
      -- The array that the branch for anything else has just stored is the one it pushes onto.
      have hnew : (Obj.mk (Obj.grow o.len k) (Function.update o.props k
          (.obj ⟨some 0, fun _ => Doc.prim .absent⟩))).get k =
            .obj ⟨some 0, fun _ => Doc.prim .absent⟩ := by
        rw [get_of_not_isLength]
        · simp
        · simpa [Obj.IsLength, Obj.isArray] using h
      rcases hd : (o.props k).view with p | ⟨_ | n, ps⟩
      · simp [operate, DeltaOperation.step, hget, hd, hassign, Obj.emptyArray, hnew, hpush, pushAt,
          attempt, Except.map, Obj.put]
      · simp [operate, DeltaOperation.step, hget, hd, hassign, Obj.emptyArray, hnew, hpush, pushAt,
          attempt, Except.map, Obj.put]
      · rcases hr : (Obj.mk (some n) ps).push value with e | a
        · simp [operate, DeltaOperation.step, hget, hd, pushAt, hr, attempt, Except.map]
        · simp [operate, DeltaOperation.step, hget, hd, pushAt, hr, attempt, Except.map, Obj.put]
  | remove =>
      rcases hd : (o.props k).view with p | ⟨_ | n, ps⟩
      · simp [operate, DeltaOperation.step, hget, hd]
      · simp [operate, DeltaOperation.step, hget, hd]
      · rcases hr : (Obj.mk (some n) ps).removeAll (Doc.strictEq value) with e | a
        · simp [operate, DeltaOperation.step, hget, hd, hr]
        · simp [operate, DeltaOperation.step, hget, hd, hr, Obj.put]
  | other => simp [operate, DeltaOperation.step]

/-! ## Operations as actions -/

/-- The path of the operation leads through the length of an array. -/
def DeltaOperation.touchesLength (op : DeltaOperation Doc) (o : Obj Doc) : Bool :=
  o.touchesLength (splitPath op.path)

/-- **An operation that does not touch the length of an array is a step at its path.** -/
lemma applyOperation_eq_perform {op : DeltaOperation Doc} {o : Obj Doc}
    (h : op.touchesLength o = false) : applyOperation op o = perform op o := by
  obtain ⟨k, ks, hpath⟩ := List.exists_cons_of_ne_nil (splitPath_ne_nil op.path)
  unfold DeltaOperation.touchesLength at h
  rw [applyOperation, perform, hpath]
  rw [hpath] at h
  exact Obj.walk_eq_act (operate_eq_actAt op) k ks o h

lemma touchesLength_of_perform {op : DeltaOperation Doc} {o : Obj Doc}
    (h : (perform op o).2 = none) : op.touchesLength o = false :=
  Obj.touchesLength_of_act h

/-- **Operations on paths that part commute.** -/
lemma perform_comm {a b : DeltaOperation Doc} {o : Obj Doc}
    (hpart : Part (splitPath a.path) (splitPath b.path)) (ha : (perform a o).2 = none)
    (hb : (perform b (perform a o).1).2 = none) :
    (perform b o).2 = none ∧ perform a (perform b o).1 = perform b (perform a o).1 :=
  Obj.act_comm hpart ha hb

section OnePath

variable {a b m : DeltaOperation Doc} {o : Obj Doc}

/-- An operation after another one on its path is the composed step. -/
lemma perform_perform (hpath : a.path = b.path) (ha : (perform a o).2 = none) :
    perform b (perform a o).1 = o.act (a.step.seq b.step) (splitPath b.path) := by
  unfold perform at ha ⊢
  rw [hpath] at ha ⊢
  exact Obj.act_seq ha

/-- A `set` makes up for what was done before it on its path. -/
lemma perform_set (hb : b.op = .set) (hpath : a.path = b.path) (ha : (perform a o).2 = none) :
    perform b (perform a o).1 = perform b o := by
  have hseq : ∀ d, (a.step d).err = none → a.step.seq b.step d = b.step d := by
    intro d hd
    rw [Step.seq_of_ok _ hd]
    simp [DeltaOperation.step, hb]
  rw [perform_perform hpath ha, perform]
  unfold perform at ha
  rw [hpath] at ha
  exact Obj.act_congr (fun d hd => by rw [hseq d hd]) (fun d hd => by rw [hseq d hd])
    (.inl fun d hd => by rw [hseq d hd]) ha

/-- A `delete` makes up for what was done before it on its path, unless that made an array
longer. -/
lemma perform_delete (hb : b.op = .delete) (hpath : a.path = b.path)
    (hgrows : o.growsAt (splitPath b.path) = false) (ha : (perform a o).2 = none) :
    perform b (perform a o).1 = perform b o := by
  rw [perform_perform hpath ha, perform]
  unfold perform at ha
  rw [hpath] at ha
  refine Obj.act_congr (fun d hd => ?_) (fun d hd => ?_) (.inr hgrows) ha
  · rw [Step.seq_of_ok _ hd]
    simp [DeltaOperation.step, hb]
  · rw [Step.seq_of_ok _ hd]
    simp [DeltaOperation.step, hb]

/-- `Number(v) || 1` is the number where that is not zero. -/
lemma numberOr_of_ne_zero {v : Doc} {p : ℚ} (h : v.numberOr 0 = .ok p) (hp : p ≠ 0) (d : ℚ) :
    v.numberOr d = .ok p := by
  unfold Doc.numberOr at h ⊢
  rcases hv : v.toNumber with e | q
  · rw [hv] at h
    cases h
  · rw [hv] at h
    rcases q with _ | q
    · simp only [Except.map, Except.ok.injEq] at h
      exact absurd h.symm hp
    · by_cases hq : q = 0
      · simp only [Except.map, hq, if_true, Except.ok.injEq] at h
        exact absurd h.symm hp
      · simpa [Except.map, hq] using h

lemma incremented_eq_ok {c v : Doc} {s : ℚ} (h : incremented c v = .ok s) :
    ∃ p q, c.numberOr 0 = .ok p ∧ v.numberOr 1 = .ok q ∧ s = p + q := by
  unfold incremented at h
  rcases hc : c.numberOr 0 with e | p <;> rcases hv : v.numberOr 1 with e' | q <;>
    rw [hc, hv] at h
  · cases h
  · cases h
  · cases h
  · cases h
    exact ⟨p, q, rfl, rfl, rfl⟩

/-- An `increment` that does not throw after another operation on its path adds two numbers. -/
lemma incremented_of_perform (hb : b.op = .increment) (hpath : a.path = b.path)
    (ha : (perform a o).2 = none) (hok : (perform b (perform a o).1).2 = none) :
    ∃ d s, (a.step d).err = none ∧ incremented (a.step d).doc b.value = .ok s := by
  rw [perform_perform hpath ha] at hok
  obtain ⟨d, hd⟩ := Obj.exists_ok_of_act (splitPath_ne_nil _) hok
  obtain ⟨had, hbd⟩ := Step.ok_of_seq hd
  refine ⟨d, ?_⟩
  generalize (a.step d).doc = x at hbd ⊢
  rcases hs : incremented x b.value with e | s
  · simp [DeltaOperation.step, hb, hs] at hbd
  · exact ⟨s, had, rfl⟩

/-- An `increment` adds up with an `increment` before it, if its number and the sum are not
zero. -/
lemma perform_increment {p q : ℚ} (ha : a.op = .increment) (hb : b.op = .increment)
    (hm : m.op = .increment) (hpath : a.path = b.path) (hmpath : m.path = b.path)
    (hp : a.value.numberOr 0 = .ok p) (hp0 : p ≠ 0) (hq : b.value.numberOr 1 = .ok q)
    (hpq : p + q ≠ 0) (hmv : m.value = .prim (.num (p + q))) (hok : (perform a o).2 = none) :
    perform b (perform a o).1 = perform m o := by
  have hseq : ∀ d, (a.step d).err = none → a.step.seq b.step d = m.step d := by
    intro d hd
    rw [Step.seq_of_ok _ hd]
    rcases hc : d.numberOr 0 with e | c
    · simp [DeltaOperation.step, ha, incremented, hc] at hd
    · have hsum : (if c + p = 0 then 0 else c + p) = c + p := by
        split
        next h => exact h.symm
        next => rfl
      simp [DeltaOperation.step, ha, hb, hm, hmv, incremented, hc, numberOr_of_ne_zero hp hp0,
        Doc.numberOr_num, hq, hpq, hsum, add_assoc]
  rw [perform_perform hpath hok, perform, hmpath]
  unfold perform at hok
  rw [hpath] at hok
  exact Obj.act_congr (fun d hd => by rw [hseq d hd]) (fun d hd => by rw [hseq d hd])
    (.inl fun d hd => by rw [hseq d hd]) hok

/-- An `increment` adds up with a `set` before it. -/
lemma perform_set_increment {p q : ℚ} (ha : a.op = .set) (hb : b.op = .increment)
    (hm : m.op = .set) (hpath : a.path = b.path) (hmpath : m.path = b.path)
    (hp : a.value.numberOr 0 = .ok p) (hq : b.value.numberOr 1 = .ok q)
    (hmv : m.value = .prim (.num (p + q))) (hok : (perform a o).2 = none) :
    perform b (perform a o).1 = perform m o := by
  have hseq : ∀ d, (a.step d).err = none → a.step.seq b.step d = m.step d := by
    intro d hd
    rw [Step.seq_of_ok _ hd]
    simp [DeltaOperation.step, ha, hb, hm, hmv, incremented, hp, hq]
  rw [perform_perform hpath hok, perform, hmpath]
  unfold perform at hok
  rw [hpath] at hok
  exact Obj.act_congr (fun d hd => by rw [hseq d hd]) (fun d hd => by rw [hseq d hd])
    (.inl fun d hd => by rw [hseq d hd]) hok

end OnePath

/-! ## Operations one after another -/

/-- A loop over operations that refuse to touch the length of an array. -/
def performAll (ops : List (DeltaOperation Doc)) (o : Obj Doc) : Written (Obj Doc) :=
  forEachWrite perform ops o

/-- No operation of the list, when its turn comes, touches the length of an array. -/
def LengthFree : List (DeltaOperation Doc) → Obj Doc → Prop
  | [], _ => True
  | op :: ops, o => op.touchesLength o = false ∧ LengthFree ops (applyOperation op o).1

section Runs

variable {xs ys : List (DeltaOperation Doc)} {b : DeltaOperation Doc} {o : Obj Doc}

lemma performAll_append (h : (performAll xs o).2 = none) :
    performAll (xs ++ ys) o = performAll ys (performAll xs o).1 :=
  forEachWrite_append_ok h

lemma performAll_cons (h : (perform b o).2 = none) :
    performAll (b :: xs) o = performAll xs (perform b o).1 :=
  forEachWrite_cons_ok h

/-- Operations that are performed are applied. -/
lemma applyAll_of_performAll (h : (performAll xs o).2 = none) :
    applyAll xs o = performAll xs o := by
  induction xs generalizing o with
  | nil => rfl
  | cons x xs ih =>
      have hx := ok_of_forEachWrite_cons h
      have happly := applyOperation_eq_perform (touchesLength_of_perform hx)
      unfold performAll applyAll at *
      rw [forEachWrite_cons_ok hx] at h ⊢
      rw [forEachWrite_cons_ok (by rw [happly]; exact hx), happly]
      exact ih h

/-- Operations that do not throw and do not touch the length of an array are performed. -/
lemma performAll_of_applyAll (h : (applyAll xs o).2 = none) (hfree : LengthFree xs o) :
    performAll xs o = applyAll xs o := by
  induction xs generalizing o with
  | nil => rfl
  | cons x xs ih =>
      have hx := ok_of_forEachWrite_cons h
      have happly := applyOperation_eq_perform hfree.1
      unfold performAll applyAll at *
      rw [forEachWrite_cons_ok hx] at h ⊢
      rw [forEachWrite_cons_ok (by rw [← happly]; exact hx), ← happly]
      exact ih h hfree.2

/-- **An operation on a path of its own may go first.** -/
lemma performAll_bubble (hpart : ∀ x ∈ xs, Part (splitPath x.path) (splitPath b.path))
    (h : (performAll (xs ++ [b]) o).2 = none) :
    performAll (b :: xs) o = performAll (xs ++ [b]) o := by
  induction xs generalizing o with
  | nil => rfl
  | cons x xs ih =>
      have hx := ok_of_forEachWrite_cons h
      have hrest : performAll (x :: xs ++ [b]) o = performAll (xs ++ [b]) (perform x o).1 :=
        forEachWrite_cons_ok hx
      rw [hrest] at h ⊢
      have hih := ih (fun y hy => hpart y (by simp [hy])) h
      rw [← hih] at h ⊢
      have hb : (perform b (perform x o).1).2 = none := ok_of_forEachWrite_cons h
      obtain ⟨hb', hcomm⟩ := perform_comm (hpart x (by simp)) hx hb
      calc performAll (b :: x :: xs) o
          = performAll (x :: xs) (perform b o).1 := forEachWrite_cons_ok hb'
        _ = performAll xs (perform x (perform b o).1).1 :=
            forEachWrite_cons_ok (by rw [hcomm]; exact hb)
        _ = performAll xs (perform b (perform x o).1).1 := by rw [hcomm]
        _ = performAll (b :: xs) (perform x o).1 := (forEachWrite_cons_ok hb).symm

/-- An operation on a path of its own may go last. -/
lemma performAll_sink (hpart : ∀ x ∈ xs, Part (splitPath x.path) (splitPath b.path))
    (h : (performAll (b :: xs) o).2 = none) :
    performAll (xs ++ [b]) o = performAll (b :: xs) o := by
  induction xs generalizing o with
  | nil => rfl
  | cons x xs ih =>
      have hb : (perform b o).2 = none := ok_of_forEachWrite_cons h
      have hrest : performAll (b :: x :: xs) o = performAll (x :: xs) (perform b o).1 :=
        forEachWrite_cons_ok hb
      rw [hrest] at h ⊢
      have hx : (perform x (perform b o).1).2 = none := ok_of_forEachWrite_cons h
      obtain ⟨hx', hcomm⟩ := perform_comm (hpart x (by simp)).symm hb hx
      have hlast : performAll (x :: xs) (perform b o).1 = performAll (b :: xs) (perform x o).1 := by
        calc performAll (x :: xs) (perform b o).1
            = performAll xs (perform x (perform b o).1).1 := forEachWrite_cons_ok hx
          _ = performAll xs (perform b (perform x o).1).1 := by rw [hcomm]
          _ = performAll (b :: xs) (perform x o).1 :=
              (forEachWrite_cons_ok (by rw [hcomm]; exact hx)).symm
      rw [hlast] at h ⊢
      rw [← ih (fun y hy => hpart y (by simp [hy])) h]
      exact forEachWrite_cons_ok hx'

/-- An operation after others on paths of their own can be performed where they start. -/
lemma performAll_meets {a : DeltaOperation Doc}
    (hpart : ∀ x ∈ ys, Part (splitPath x.path) (splitPath b.path))
    (h : (performAll (xs ++ a :: ys ++ [b]) o).2 = none) :
    (perform a (performAll xs o).1).2 = none ∧
      (perform b (perform a (performAll xs o).1).1).2 = none ∧
      performAll (xs ++ a :: ys ++ [b]) o =
        performAll (b :: ys) (perform a (performAll xs o).1).1 := by
  rw [List.append_assoc] at h ⊢
  have hxs : (performAll xs o).2 = none := ok_of_forEachWrite_append h
  rw [performAll_append hxs] at h ⊢
  have ha : (perform a (performAll xs o).1).2 = none := ok_of_forEachWrite_cons h
  have hrest : performAll (a :: ys ++ [b]) (performAll xs o).1 =
      performAll (ys ++ [b]) (perform a (performAll xs o).1).1 := performAll_cons ha
  rw [hrest] at h ⊢
  have hbubble := performAll_bubble hpart h
  rw [← hbubble] at h ⊢
  exact ⟨ha, ok_of_forEachWrite_cons h, rfl⟩

/-- **Folding an operation into an earlier one.**  Where `m` does what `a` and `b` do one after the
other, and everything between them is on a path that parts from that of `b`, the operation `m` in
the place of `a` does the work of both. -/
lemma performAll_fold {a m : DeltaOperation Doc}
    (hpart : ∀ x ∈ ys, Part (splitPath x.path) (splitPath b.path))
    (hm : perform b (perform a (performAll xs o).1).1 = perform m (performAll xs o).1)
    (h : (performAll (xs ++ a :: ys ++ [b]) o).2 = none) :
    performAll (xs ++ m :: ys) o = performAll (xs ++ a :: ys ++ [b]) o := by
  obtain ⟨ha, hb, hmeets⟩ := performAll_meets hpart h
  rw [List.append_assoc] at h
  have hxs : (performAll xs o).2 = none := ok_of_forEachWrite_append h
  have hmok : (perform m (performAll xs o).1).2 = none := by rw [← hm]; exact hb
  calc performAll (xs ++ m :: ys) o
      = performAll ys (perform m (performAll xs o).1).1 := by
        rw [performAll_append hxs, performAll_cons hmok]
    _ = performAll (b :: ys) (perform a (performAll xs o).1).1 := by
        rw [← hm, performAll_cons hb]
    _ = performAll (xs ++ a :: ys ++ [b]) o := hmeets.symm

/-- Folding an operation into an earlier one does not make an array longer on another path. -/
lemma growsAt_fold {a m : DeltaOperation Doc} {p : List String}
    (hpart : ∀ x ∈ ys, Part (splitPath x.path) (splitPath b.path))
    (hp : Part (splitPath b.path) p) (ha : (perform a (performAll xs o).1).2 = none)
    (hm : perform b (perform a (performAll xs o).1).1 = perform m (performAll xs o).1)
    (h : (performAll (xs ++ m :: ys) o).2 = none)
    (hgrows : (performAll (xs ++ a :: ys) o).1.growsAt p = false) :
    (performAll (xs ++ m :: ys) o).1.growsAt p = false := by
  have hxs : (performAll xs o).2 = none := ok_of_forEachWrite_append h
  rw [performAll_append hxs] at h ⊢
  rw [performAll_append hxs, performAll_cons ha] at hgrows
  have hmok : (perform m (performAll xs o).1).2 = none := ok_of_forEachWrite_cons h
  have hb : (perform b (perform a (performAll xs o).1).1).2 = none := by rw [hm]; exact hmok
  have hmoved : performAll (m :: ys) (performAll xs o).1 =
      performAll (b :: ys) (perform a (performAll xs o).1).1 := by
    rw [performAll_cons hmok, performAll_cons hb, hm]
  rw [hmoved] at h ⊢
  have hsink := performAll_sink hpart h
  rw [← hsink] at h ⊢
  have hys : (performAll ys (perform a (performAll xs o).1).1).2 = none :=
    ok_of_forEachWrite_append h
  rw [performAll_append hys] at h ⊢
  have hlast := ok_of_forEachWrite_cons h
  rw [performAll_cons hlast]
  exact Obj.growsAt_act hp hgrows hlast

end Runs

end SyncEngine
