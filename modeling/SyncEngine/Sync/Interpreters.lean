import SyncEngine.Sync.MergedOperations

/-!
# The two interpreters of operations

`StateManager.applyOperation` and `StateSynchronizer.applyOperationToData` are two copies of one
walk along a path, with a switch of their own at its end: the synchronizer's knows `set` and
`delete` only.  The walk replaces the same things on the way in both, so the two differ exactly
where their switches differ on the object that the walk ends at (`walk_eq_iff`).  An `increment`,
`append` or `remove` has to leave that object as it is, by throwing or because there is nothing to
remove (`Idles`).
-/

namespace Js.Obj

/-- The object that a walk ends at, with the name to act on, unless it throws on the way. -/
def walkEnd : List String → Obj Doc → Option (String × Obj Doc)
  | [], _ => none
  | [k], o => some (k, o)
  | k :: ks, o =>
    match (o.get k).view with
    | .obj c => walkEnd ks c
    | .prim _ =>
      match o.assign k (.obj .empty) (Doc.obj .empty).toArrayLength with
      | .error _ => none
      | .ok _ => walkEnd ks .empty

lemma put_obj_inj {o c c' : Obj Doc} {k : String} :
    o.put k (.obj c) = o.put k (.obj c') ↔ c = c' := by
  constructor
  · intro h
    have hprops := congrFun (congrArg Obj.props h) k
    rw [put_props, put_props, Function.update_self, Function.update_self] at hprops
    exact Doc.obj_inj.1 hprops
  · rintro rfl
    rfl

/-- **Two walks along one path leave the same data** exactly when they do so at its end. -/
lemma walk_eq_iff (f g : String → Obj Doc → Written (Obj Doc)) (p : List String) (o : Obj Doc) :
    (o.walk f p).1 = (o.walk g p).1 ↔
      ∀ k c, o.walkEnd p = some (k, c) → (f k c).1 = (g k c).1 := by
  induction p generalizing o with
  | nil => simp [walk, walkEnd]
  | cons k p ih =>
    cases p with
    | nil =>
      constructor
      · rintro h k' c hend
        obtain ⟨rfl, rfl⟩ := Prod.mk.inj (Option.some.inj hend)
        exact h
      · exact fun h => h k o rfl
    | cons j p =>
      rcases hview : (o.get k).view with x | c
      · rcases hassign : o.assign k (.obj .empty) (Doc.obj .empty).toArrayLength with e | o'
        · simp [walk, walkEnd, hview, hassign]
        · simp only [walk, walkEnd, hview, hassign, put_obj_inj]
          exact ih .empty
      · simp only [walk, walkEnd, hview, put_obj_inj]
        exact ih c

end Js.Obj

namespace SyncEngine

open Js

/-- An increment never stores what was there before. -/
lemma ne_num_of_incremented {d v : Doc} {q : ℚ} (h : incremented d v = .ok q) :
    d ≠ .prim (.num q) := by
  rintro rfl
  obtain ⟨p, n, hp, hn, hq⟩ := incremented_eq_ok h
  have hne := DeltaOperation.numberOr_one_ne_zero hn
  rw [Doc.numberOr_zero_num] at hp
  have hp := Except.ok.inj hp
  exact hne (by linarith)

lemma eq_cast_of_toArrayLength {q : ℚ} {n : ℕ} (h : (Doc.prim (.num q)).toArrayLength = .ok n) :
    q = n := by
  unfold Doc.toArrayLength at h
  rw [Doc.toNumber_num] at h
  dsimp only at h
  split at h
  next hint =>
    obtain ⟨hden, hpos, -⟩ := hint
    obtain rfl := Except.ok.inj h
    have hnum : (q.num.toNat : ℤ) = q.num := Int.toNat_of_nonneg hpos
    calc q = q.num := (Rat.den_eq_one_iff q).1 hden |>.symm
      _ = ((q.num.toNat : ℤ) : ℚ) := by rw [hnum]
      _ = (q.num.toNat : ℚ) := by push_cast; rfl
  · cases h

/-- The switch of `applyOperation` leaves the object as it is, although the operation is one that
the synchronizer's switch does not know. -/
def Idles (op : DeltaOperation Doc) (k : String) (o : Obj Doc) : Prop :=
  match op.op with
  | .increment =>
    -- It throws: on a value that is no number, or for a length that is none.
    match incremented (o.get k) op.value with
    | .error _ => True
    | .ok q => o.IsLength k ∧ ∃ e, (Doc.prim (.num q)).toArrayLength = .error e
  | .append =>
    -- It throws: on an array with a `push` of its own, or on the length of an array.
    match (o.get k).view with
    | .obj ⟨some _, ps⟩ => isAbsent (ps "push") = false
    | _ => o.IsLength k ∧ o.truncate 0 = o
  | .remove =>
    -- It throws on an array with a `filter` of its own, or it finds nothing to remove.
    match (o.get k).view with
    | .obj ⟨some n, ps⟩ => isAbsent (ps "filter") = false ∨
        (Obj.ofElements (Obj.mk (some n) ps).elements = ⟨some n, ps⟩ ∧
          ∀ w ∈ (Obj.mk (some n) ps).elements, Doc.strictEq op.value w = false)
    | _ => True
  | _ => True

section Switch

variable {op : DeltaOperation Doc} {k : String} {o : Obj Doc}

lemma get_of_isLength (h : o.IsLength k) : ∃ n : ℕ, o.len = some n ∧ o.get k = .prim (.num n) := by
  obtain ⟨n, hn⟩ := Option.isSome_iff_exists.1 h.1
  refine ⟨n, hn, ?_⟩
  unfold Obj.get
  rw [hn, h.2]
  rfl

/-- What holds an object is not the length of an array. -/
lemma props_of_get_obj {a : Obj Doc} (h : o.get k = .obj a) : o.props k = .obj a := by
  by_cases hlength : o.IsLength k
  · obtain ⟨n, -, hn⟩ := get_of_isLength hlength
    exact absurd (h.symm.trans hn) (Doc.obj_ne_prim _ _)
  · rw [← get_of_not_isLength hlength, h]

lemma put_eq_self_iff {a b : Obj Doc} (h : o.get k = .obj a) : o.put k (.obj b) = o ↔ b = a := by
  have hself : o.put k (.obj a) = o := by
    rw [Obj.put, ← props_of_get_obj h, Function.update_eq_self]
  have hinj := @Obj.put_obj_inj o b a k
  rwa [hself] at hinj

lemma assign_of_isLength (h : o.IsLength k) (v : Doc) (n : Except JsError ℕ) :
    o.assign k v n = n.map o.truncate := if_pos h

lemma assign_of_not_isLength (h : ¬ o.IsLength k) (v : Doc) (n : Except JsError ℕ) :
    o.assign k v n = .ok ⟨Obj.grow o.len k, Function.update o.props k v⟩ := if_neg h

lemma increment_eq_self_iff (hop : op.op = .increment) :
    (operate op k o).1 = o ↔ Idles op k o := by
  unfold operate Idles
  rw [hop]
  dsimp only
  rcases hsum : incremented (o.get k) op.value with e | q
  · simp
  have hne := ne_num_of_incremented hsum
  dsimp only
  by_cases hlength : o.IsLength k
  · rw [assign_of_isLength hlength]
    rcases hlen : (Doc.prim (.num q)).toArrayLength with e | m
    · simp [Except.map, attempt, hlength]
    · obtain ⟨n, hn, hget⟩ := get_of_isLength hlength
      have hcut : o.truncate m ≠ o := fun h => by
        have hsame : some m = o.len := congrArg Obj.len h
        obtain rfl : m = n := Option.some.inj (hsame.trans hn)
        exact hne (by rw [hget, eq_cast_of_toArrayLength hlen])
      simp [Except.map, attempt, hcut]
  · rw [assign_of_not_isLength hlength]
    have hset : (⟨Obj.grow o.len k, Function.update o.props k (.prim (.num q))⟩ : Obj Doc) ≠ o := by
      intro h
      have hsame := congrFun (congrArg Obj.props h) k
      rw [get_of_not_isLength hlength, ← hsame] at hne
      exact hne (Function.update_self ..)
    simp [attempt, hset, hlength]

lemma push_ne {a b : Obj Doc} {v : Doc} (ha : a.isArray = true) (h : a.push v = .ok b) : b ≠ a := by
  obtain ⟨n, hn⟩ := Option.isSome_iff_exists.1 ha
  unfold Obj.push at h
  split at h
  · rintro rfl
    have hlen := congrArg Obj.len (Except.ok.inj h)
    rw [hn, Option.map_some, Option.some.injEq] at hlen
    omega
  · cases h

/-- An append to what is no array starts one, except on the length of an array. -/
lemma append_new_eq_self_iff (v : Doc) (hnone : ∀ n ps, (o.get k).view ≠ .obj ⟨some n, ps⟩) :
    (match o.assign k (.obj .emptyArray) (Doc.obj .emptyArray).toArrayLength with
      | .error e => (o, some e)
      | .ok o' =>
        match (o'.get k).view with
        | .obj ⟨some n, ps⟩ => pushAt o' k ⟨some n, ps⟩ v
        | _ => (o', some .typeError)).1 = o ↔ o.IsLength k ∧ o.truncate 0 = o := by
  by_cases hlength : o.IsLength k
  · have hzero : (Doc.obj .emptyArray).toArrayLength = .ok 0 := by rfl
    have hcut : (o.truncate 0).get k = .prim (.num 0) := by
      rw [hlength.2]
      rfl
    rw [assign_of_isLength hlength, hzero]
    simp [Except.map, hcut, hlength]
  · set o' : Obj Doc := ⟨Obj.grow o.len k, Function.update o.props k (.obj .emptyArray)⟩ with ho'
    have hget : o'.get k = .obj .emptyArray := by
      rw [get_of_not_isLength]
      · exact Function.update_self ..
      · simpa [ho', Obj.IsLength, Obj.isArray] using hlength
    have hview : (o'.get k).view = .obj ⟨some 0, fun _ => Doc.prim .absent⟩ := by
      rw [hget]
      rfl
    obtain ⟨ps, hpush⟩ : ∃ ps, pushAt o' k ⟨some 0, fun _ => Doc.prim .absent⟩ v =
        (o'.put k (.obj ⟨some 1, ps⟩), none) := ⟨_, rfl⟩
    have hne : o'.put k (.obj ⟨some 1, ps⟩) ≠ o := fun h => by
      have hprops := congrFun (congrArg Obj.props h) k
      rw [Obj.put_props, Function.update_self, ← get_of_not_isLength hlength] at hprops
      exact hnone 1 ps (by rw [← hprops]; rfl)
    rw [assign_of_not_isLength hlength]
    dsimp only
    rw [hview]
    dsimp only
    rw [hpush]
    simp [hne, hlength]

lemma append_eq_self_iff (hop : op.op = .append) : (operate op k o).1 = o ↔ Idles op k o := by
  unfold operate Idles
  rw [hop]
  dsimp only
  rcases hview : (o.get k).view with x | ⟨_ | n, ps⟩
  · exact append_new_eq_self_iff op.value fun n ps h => by rw [hview] at h; cases h
  · exact append_new_eq_self_iff op.value fun n ps h => by rw [hview] at h; cases h
  · have hget : o.get k = .obj ⟨some n, ps⟩ := Doc.eq_obj_of_view hview
    dsimp only
    unfold pushAt
    rcases hold : (Obj.mk (some n) ps).push op.value with e | a
    · have hown : isAbsent (ps "push") = false := by
        unfold Obj.push at hold
        split at hold
        · cases hold
        next hown => exact Bool.eq_false_iff.2 hown
      simp [Except.map, attempt, hown]
    · have hown : isAbsent (ps "push") = true := by
        unfold Obj.push at hold
        split at hold
        next hown => exact hown
        · cases hold
      simp [Except.map, attempt, hown, put_eq_self_iff hget, push_ne rfl hold]

lemma removeAll_eq_self_iff {a b : Obj Doc} {v : Doc} (h : a.removeAll (Doc.strictEq v) = .ok b) :
    b = a ↔ Obj.ofElements a.elements = a ∧ ∀ w ∈ a.elements, Doc.strictEq v w = false := by
  have hb := Obj.eq_of_removeAll h
  constructor
  · intro heq
    have hkept : a.elements = a.elements.filter fun w => !Doc.strictEq v w := by
      conv_lhs => rw [← heq, hb]
      refine Obj.elements_ofElements ?_
      rw [← hb, heq]
      exact List.length_filter_le _ _
    refine ⟨by rw [hkept, ← hb, heq], fun w hw => ?_⟩
    rw [hkept] at hw
    simpa using (List.mem_filter.1 hw).2
  · rintro ⟨hdense, hnone⟩
    have hkept : (a.elements.filter fun w => !Doc.strictEq v w) = a.elements :=
      List.filter_eq_self.2 fun w hw => by rw [hnone w hw]; rfl
    rw [hb, hkept, hdense]

lemma remove_eq_self_iff (hop : op.op = .remove) : (operate op k o).1 = o ↔ Idles op k o := by
  unfold operate Idles
  rw [hop]
  dsimp only
  rcases hview : (o.get k).view with x | ⟨_ | n, ps⟩
  · simp
  · simp
  · have hget : o.get k = .obj ⟨some n, ps⟩ := Doc.eq_obj_of_view hview
    dsimp only
    rcases hold : (Obj.mk (some n) ps).removeAll (Doc.strictEq op.value) with e | a
    · have hown : isAbsent (ps "filter") = false := by
        unfold Obj.removeAll at hold
        split at hold
        · cases hold
        next hown => exact Bool.eq_false_iff.2 hown
      simp [hown]
    · have hown : isAbsent (ps "filter") = true := by
        unfold Obj.removeAll at hold
        split at hold
        next hown => exact hown
        · cases hold
      simp only [hown, Bool.true_eq_false, false_or]
      exact (put_eq_self_iff hget).trans (removeAll_eq_self_iff hold)

/-- **The two switches** leave the same object exactly when the one that only the state manager
knows leaves it as it is. -/
lemma operate_eq_iff (op : DeltaOperation Doc) (k : String) (o : Obj Doc) :
    (operate op k o).1 = (operateToData op k o).1 ↔ Idles op k o := by
  cases hop : op.op with
  | set => simp [operate, operateToData, Idles, hop]
  | delete => simp [operate, operateToData, Idles, hop]
  | increment =>
    rw [← increment_eq_self_iff hop]
    simp [operateToData, hop]
  | append =>
    rw [← append_eq_self_iff hop]
    simp [operateToData, hop]
  | remove =>
    rw [← remove_eq_self_iff hop]
    simp [operateToData, hop]
  | other => simp [operate, operateToData, Idles, hop]

end Switch

end SyncEngine
