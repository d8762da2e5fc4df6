import SyncEngine.Js.Walk

/-!
# Steps at a path

A walk that ends in a step on one property changes nothing outside its path, and what it does
there depends only on what the path holds.  `Step` is such a step, seen from the property:
what the property held goes in, and what it holds then comes out, together with the exception
and with the mark whether the property was *written*, which is what makes an array grow.
`Obj.act p f` performs the step `f` at the path `p`.

Two laws follow from locality alone.  Steps at one path compose to a step at that path
(`act_seq`), and steps at paths that part from one another commute (`act_comm`).  The second
needs that neither path touches the length of an array, which is a property that depends on all
the others.  `Obj.act` refuses to touch it, and `walk_eq_act` says that a walk which does not
touch it either is the action.
-/

namespace Js

/-- What a step leaves in a property. -/
@[ext] structure Outcome where
  doc : Doc
  wrote : Bool
  err : Option JsError

/-- A step on what a property holds. -/
abbrev Step : Type := Doc → Outcome

namespace Step

/-- One step after the other, unless the first one throws. -/
def seq (f g : Step) : Step := fun d =>
  match (f d).err with
  | some _ => f d
  | none => ⟨(g (f d).doc).doc, (f d).wrote || (g (f d).doc).wrote, (g (f d).doc).err⟩

lemma seq_of_err {f : Step} {d : Doc} (g : Step) (h : (f d).err ≠ none) : f.seq g d = f d := by
  unfold seq
  split
  · rfl
  · contradiction

lemma seq_of_ok {f : Step} {d : Doc} (g : Step) (h : (f d).err = none) :
    f.seq g d = ⟨(g (f d).doc).doc, (f d).wrote || (g (f d).doc).wrote, (g (f d).doc).err⟩ := by
  unfold seq
  rw [h]

end Step

namespace Obj

/-- The name `k` on `o` is the length of an array. -/
def IsLength (o : Obj Doc) (k : String) : Prop := o.isArray = true ∧ k = "length"

instance (o : Obj Doc) (k : String) : Decidable (o.IsLength k) := by
  unfold IsLength
  infer_instance

/-- Perform a step on the property `k`, unless it is the length of an array. -/
def actAt (f : Step) (k : String) (o : Obj Doc) : Written (Obj Doc) :=
  if o.IsLength k then (o, some .typeError)
  else (⟨if (f (o.props k)).wrote then grow o.len k else o.len,
      Function.update o.props k (f (o.props k)).doc⟩, (f (o.props k)).err)

end Obj

namespace Step

/-- A step on the property `k` of what is held, with `{}` in the place of what is no object. -/
def inside (k : String) (f : Step) : Step := fun d =>
  match d.view with
  | .obj c => ⟨.obj (c.actAt f k).1, false, (c.actAt f k).2⟩
  | .prim _ => ⟨.obj ((Obj.empty : Obj Doc).actAt f k).1, true, ((Obj.empty : Obj Doc).actAt f k).2⟩

/-- A step below what is held, along a path. -/
def along (f : Step) : List String → Step
  | [] => f
  | k :: ks => inside k (along f ks)

@[simp] lemma inside_obj (k : String) (f : Step) (c : Obj Doc) :
    inside k f (.obj c) = ⟨.obj (c.actAt f k).1, false, (c.actAt f k).2⟩ := rfl

@[simp] lemma inside_prim (k : String) (f : Step) (p : Prim) :
    inside k f (.prim p) =
      ⟨.obj ((Obj.empty : Obj Doc).actAt f k).1, true, ((Obj.empty : Obj Doc).actAt f k).2⟩ := rfl

end Step

namespace Obj

/-- **Perform a step at a path.** -/
def act (f : Step) : List String → Obj Doc → Written (Obj Doc)
  | [], o => (o, none)
  | k :: ks, o => o.actAt (f.along ks) k

/-- The path leads through the length of an array. -/
def touchesLength : List String → Obj Doc → Bool
  | [], _ => false
  | k :: ks, o => o.IsLength k || match (o.props k).view with
    | .obj c => touchesLength ks c
    | .prim _ => false

lemma not_isLength_empty (k : String) : ¬ (Obj.empty : Obj Doc).IsLength k := by
  simp [IsLength, isArray, Obj.empty]

/-! ## Steps on one property -/

section

variable {f g : Step} {j k : String} {o : Obj Doc}

lemma actAt_of_not_isLength (h : ¬ o.IsLength k) :
    o.actAt f k = (⟨if (f (o.props k)).wrote then grow o.len k else o.len,
      Function.update o.props k (f (o.props k)).doc⟩, (f (o.props k)).err) := if_neg h

lemma actAt_of_isLength (h : o.IsLength k) : o.actAt f k = (o, some .typeError) := if_pos h

lemma not_isLength_of_actAt (h : (o.actAt f k).2 = none) : ¬ o.IsLength k := by
  intro hlen
  rw [actAt_of_isLength hlen] at h
  cases h

/-- No step makes an array of a plain object, or the other way round. -/
@[simp] lemma isLength_actAt (f : Step) (j k : String) (o : Obj Doc) :
    (o.actAt f j).1.IsLength k ↔ o.IsLength k := by
  by_cases hlen : o.IsLength j
  · rw [actAt, if_pos hlen]
  · rw [actAt, if_neg hlen]
    cases (f (o.props j)).wrote <;> simp [IsLength, isArray]

/-- **Two steps on one property compose.** -/
lemma actAt_seq (h : (o.actAt f k).2 = none) :
    (o.actAt f k).1.actAt g k = o.actAt (f.seq g) k := by
  have hlen := not_isLength_of_actAt h
  rw [actAt_of_not_isLength hlen] at h
  rw [actAt_of_not_isLength ((isLength_actAt f k k o).not.mpr hlen), actAt_of_not_isLength hlen,
    actAt_of_not_isLength hlen, Step.seq_of_ok g h]
  simp only [Function.update_self, Function.update_idem]
  cases (f (o.props k)).wrote <;> cases (g (f (o.props k)).doc).wrote <;> simp

lemma actAt_seq_of_err (h : (o.actAt f k).2 ≠ none) : o.actAt (f.seq g) k = o.actAt f k := by
  by_cases hlen : o.IsLength k
  · rw [actAt_of_isLength hlen, actAt_of_isLength hlen]
  · rw [actAt_of_not_isLength hlen] at h
    rw [actAt_of_not_isLength hlen, actAt_of_not_isLength hlen, Step.seq_of_err g h]

/-- What a step does to one property is not seen by a step on another. -/
lemma actAt_snd_of_ne (hjk : j ≠ k) (hf : (o.actAt f j).2 = none) :
    ((o.actAt f j).1.actAt g k).2 = (o.actAt g k).2 := by
  by_cases hlen : o.IsLength k
  · rw [actAt_of_isLength hlen, actAt_of_isLength ((isLength_actAt f j k o).mpr hlen)]
  · have hlenj := not_isLength_of_actAt hf
    rw [actAt_of_not_isLength ((isLength_actAt f j k o).not.mpr hlen),
      actAt_of_not_isLength hlen, actAt_of_not_isLength hlenj]
    simp [Function.update_of_ne hjk.symm]

/-- **Steps on different properties commute.** -/
lemma actAt_comm (hjk : j ≠ k) (hf : (o.actAt f j).2 = none) (hg : (o.actAt g k).2 = none) :
    (o.actAt f j).1.actAt g k = (o.actAt g k).1.actAt f j := by
  have hj := not_isLength_of_actAt hf
  have hk := not_isLength_of_actAt hg
  rw [actAt_of_not_isLength ((isLength_actAt f j k o).not.mpr hk),
    actAt_of_not_isLength ((isLength_actAt g k j o).not.mpr hj)]
  rw [actAt_of_not_isLength hj] at hf ⊢
  rw [actAt_of_not_isLength hk] at hg ⊢
  simp only [Function.update_of_ne hjk, Function.update_of_ne hjk.symm]
  refine Prod.ext (Obj.ext ?_ (Function.update_comm hjk _ _ _)) (hg.trans hf.symm)
  cases (f (o.props j)).wrote <;> cases (g (o.props k)).wrote <;> simp [grow_comm]

end

end Obj

/-! ## Steps along a path -/

namespace Step

/-- Two steps commute where the one after the other does not throw. -/
def Commute (f g : Step) : Prop := ∀ d, (f.seq g d).err = none → g.seq f d = f.seq g d

lemma ok_of_seq {f g : Step} {d : Doc} (h : (f.seq g d).err = none) :
    (f d).err = none ∧ (g (f d).doc).err = none := by
  by_cases hf : (f d).err = none
  · rw [seq_of_ok g hf] at h
    exact ⟨hf, h⟩
  · rw [seq_of_err g hf] at h
    exact absurd h hf

/-- Steps inside one property compose inside it. -/
lemma inside_seq (k : String) (f g : Step) :
    (inside k f).seq (inside k g) = inside k (f.seq g) := by
  have hobj : ∀ c : Obj Doc, ∀ w, (c.actAt f k).2 = none →
      (⟨.obj ((c.actAt f k).1.actAt g k).1, w || false, ((c.actAt f k).1.actAt g k).2⟩ : Outcome) =
        ⟨.obj (c.actAt (f.seq g) k).1, w, (c.actAt (f.seq g) k).2⟩ := by
    intro c w hc
    rw [Obj.actAt_seq hc, Bool.or_false]
  funext d
  cases d with
  | prim p =>
      by_cases h : ((Obj.empty : Obj Doc).actAt f k).2 = none
      · rw [seq_of_ok _ (by simpa using h)]
        exact hobj _ true h
      · rw [seq_of_err _ (by simpa using h)]
        simp [Obj.actAt_seq_of_err h]
  | obj c =>
      by_cases h : (c.actAt f k).2 = none
      · rw [seq_of_ok _ (by simpa using h)]
        exact hobj _ false h
      · rw [seq_of_err _ (by simpa using h)]
        simp [Obj.actAt_seq_of_err h]

lemma along_seq (f g : Step) (p : List String) :
    (f.along p).seq (g.along p) = (f.seq g).along p := by
  induction p with
  | nil => rfl
  | cons k p ih => rw [along, along, inside_seq, ih, along]

lemma Commute.inside {f g : Step} (h : Commute f g) (k : String) :
    Commute (inside k f) (inside k g) := by
  intro d hd
  rw [inside_seq] at hd ⊢
  rw [inside_seq]
  have hact : ∀ c : Obj Doc, (c.actAt (f.seq g) k).2 = none →
      c.actAt (g.seq f) k = c.actAt (f.seq g) k := by
    intro c hc
    have hlen := Obj.not_isLength_of_actAt hc
    rw [Obj.actAt_of_not_isLength hlen] at hc
    rw [Obj.actAt_of_not_isLength hlen, Obj.actAt_of_not_isLength hlen, h _ hc]
  cases d with
  | prim p => simp [hact .empty hd]
  | obj c => simp [hact c hd]

/-- Steps inside different properties commute. -/
lemma inside_commute {j k : String} (h : j ≠ k) (f g : Step) :
    Commute (inside j f) (inside k g) := by
  have hact : ∀ c : Obj Doc, (c.actAt f j).2 = none → ((c.actAt f j).1.actAt g k).2 = none →
      (c.actAt g k).2 = none ∧ (c.actAt g k).1.actAt f j = (c.actAt f j).1.actAt g k := by
    intro c hf hg
    rw [Obj.actAt_snd_of_ne h hf] at hg
    exact ⟨hg, (Obj.actAt_comm h hf hg).symm⟩
  intro d hd
  obtain ⟨hf, hg⟩ := ok_of_seq hd
  cases d with
  | prim p =>
      obtain ⟨hg', hcomm⟩ := hact .empty hf hg
      rw [seq_of_ok _ hf, seq_of_ok _ (by simpa using hg')]
      simp [hcomm]
  | obj c =>
      obtain ⟨hg', hcomm⟩ := hact c hf hg
      rw [seq_of_ok _ hf, seq_of_ok _ (by simpa using hg')]
      simp [hcomm]

end Step

/-- Two paths part: after a common beginning they go different ways. -/
inductive Part : List String → List String → Prop
  | head {j k : String} (h : j ≠ k) (p q : List String) : Part (j :: p) (k :: q)
  | tail (k : String) {p q : List String} (h : Part p q) : Part (k :: p) (k :: q)

lemma Part.symm {p q : List String} (h : Part p q) : Part q p := by
  induction h with
  | head h p q => exact .head (Ne.symm h) q p
  | tail k _ ih => exact .tail k ih

/-- Decide whether two paths part. -/
def parts : List String → List String → Bool
  | j :: p, k :: q => if j = k then parts p q else true
  | _, _ => false

lemma parts_iff (p q : List String) : parts p q = true ↔ Part p q := by
  induction p generalizing q with
  | nil => exact ⟨nofun, nofun⟩
  | cons j p ih =>
      cases q with
      | nil => exact ⟨nofun, nofun⟩
      | cons k q =>
          by_cases h : j = k
          · subst h
            rw [parts, if_pos rfl, ih]
            refine ⟨.tail j, fun hpart => ?_⟩
            cases hpart with
            | head hne => exact absurd rfl hne
            | tail _ hpart => exact hpart
          · rw [parts, if_neg h]
            exact ⟨fun _ => .head h p q, fun _ => rfl⟩

instance (p q : List String) : Decidable (Part p q) := decidable_of_iff _ (parts_iff p q)

lemma Step.along_commute {p q : List String} (h : Part p q) (f g : Step) :
    Step.Commute (f.along p) (g.along q) := by
  induction h with
  | head hne p q => exact inside_commute hne _ _
  | tail k _ ih => exact ih.inside k

namespace Obj

variable {f g : Step} {p q : List String} {o : Obj Doc}

/-- **Steps at one path compose to a step at that path.** -/
lemma act_seq (h : (o.act f p).2 = none) : (o.act f p).1.act g p = o.act (f.seq g) p := by
  cases p with
  | nil => rfl
  | cons k p =>
      rw [act, act, act, ← Step.along_seq]
      exact actAt_seq h

/-- **Steps at paths that part commute**, where the one after the other does not throw. -/
lemma act_comm (hpart : Part p q) (hf : (o.act f p).2 = none)
    (hg : ((o.act f p).1.act g q).2 = none) :
    (o.act g q).2 = none ∧ (o.act g q).1.act f p = (o.act f p).1.act g q := by
  cases hpart with
  | head hne p q =>
      simp only [act] at hf hg ⊢
      rw [actAt_snd_of_ne hne hf] at hg
      exact ⟨hg, (actAt_comm hne hf hg).symm⟩
  | @tail k p q hpart =>
      simp only [act] at hf hg ⊢
      have hlen := not_isLength_of_actAt hf
      rw [actAt_seq hf] at hg ⊢
      rw [actAt_of_not_isLength hlen] at hg
      have hcomm := Step.along_commute hpart f g (o.props k) hg
      have hq : (o.actAt (g.along q) k).2 = none := by
        rw [actAt_of_not_isLength hlen]
        rw [← hcomm] at hg
        exact (Step.ok_of_seq hg).1
      refine ⟨hq, ?_⟩
      rw [actAt_seq hq, actAt_of_not_isLength hlen, actAt_of_not_isLength hlen, hcomm]

/-- An action that does not throw performs its step on some value. -/
lemma exists_ok_of_act (hp : p ≠ []) (h : (o.act f p).2 = none) : ∃ d, (f d).err = none := by
  obtain ⟨k, p, rfl⟩ := List.exists_cons_of_ne_nil hp
  rw [act, actAt_of_not_isLength (not_isLength_of_actAt h)] at h
  generalize o.props k = d at h
  induction p generalizing d with
  | nil => exact ⟨d, h⟩
  | cons j p ih =>
      cases d with
      | prim x =>
          simp only [Step.along, Step.inside_prim] at h
          rw [actAt_of_not_isLength (not_isLength_of_actAt h)] at h
          exact ih (by simp) _ h
      | obj c =>
          simp only [Step.along, Step.inside_obj] at h
          rw [actAt_of_not_isLength (not_isLength_of_actAt h)] at h
          exact ih (by simp) _ h

/-- Writing the property that the path leads to makes an array longer. -/
def growsAt : List String → Obj Doc → Bool
  | [], _ => false
  | [k], o => grow o.len k ≠ o.len
  | k :: ks, o => match (o.props k).view with
    | .obj c => growsAt ks c
    | .prim _ => false

lemma growsAt_empty (p : List String) : (Obj.empty : Obj Doc).growsAt p = false := by
  cases p with
  | nil => rfl
  | cons k p => cases p <;> rfl

/-- **A step can be exchanged for one with the same outcomes**, where a step `e` in the same place
does not throw; whether they count as writing matters only where an array would grow. -/
lemma act_congr {e : Step} (hdoc : ∀ d, (e d).err = none → (f d).doc = (g d).doc)
    (herr : ∀ d, (e d).err = none → (f d).err = (g d).err)
    (hwrote : (∀ d, (e d).err = none → (f d).wrote = (g d).wrote) ∨ o.growsAt p = false)
    (he : (o.act e p).2 = none) : o.act f p = o.act g p := by
  cases p with
  | nil => rfl
  | cons k p =>
      induction p generalizing k o with
      | nil =>
          have hlen := not_isLength_of_actAt he
          simp only [act, Step.along, actAt_of_not_isLength hlen] at he ⊢
          rw [hdoc _ he, herr _ he]
          refine Prod.ext (Obj.ext ?_ rfl) rfl
          rcases hwrote with hwrote | hgrows
          · rw [hwrote _ he]
          · simp only [growsAt, ne_eq, decide_not, Bool.not_eq_false', decide_eq_true_eq] at hgrows
            simp [hgrows]
      | cons j p ih =>
          have hlen := not_isLength_of_actAt he
          simp only [act, actAt_of_not_isLength hlen] at he ⊢
          -- The step inside is exchanged, and counts as writing or not whatever it is.
          suffices h : f.along (j :: p) (o.props k) = g.along (j :: p) (o.props k) by rw [h]
          rcases hd : (o.props k).view with x | c
          · rw [Doc.eq_prim_of_view hd] at he ⊢
            have hc := ih j (o := .empty) (.inr (growsAt_empty _)) he
            simp only [act] at hc
            simp only [Step.along, Step.inside_prim] at hc ⊢
            rw [hc]
          · have hc := ih j (o := c)
              (hwrote.imp id fun h => by simpa [growsAt, hd] using h)
              (by rw [Doc.eq_obj_of_view hd] at he; exact he)
            rw [Doc.eq_obj_of_view hd]
            simp only [act] at hc
            simp only [Step.along, Step.inside_obj] at hc ⊢
            rw [hc]

/-- A step on another path than `p` leaves the array that `p` ends in as long as it is, or makes
it longer. -/
lemma growsAt_act (hpart : Part q p) (h : o.growsAt p = false) (hf : (o.act f q).2 = none) :
    (o.act f q).1.growsAt p = false := by
  have hgrow : ∀ (len : Option ℕ) (w : Bool) (j k : String), grow len k = len →
      grow (if w then grow len j else len) k = if w then grow len j else len := by
    intro len w j k hlen
    cases w
    · exact hlen
    · rw [if_pos rfl, grow_comm, hlen]
  induction hpart generalizing o with
  | @head j k hne q p =>
      have hlen := not_isLength_of_actAt hf
      rw [act, actAt_of_not_isLength hlen]
      cases p with
      | nil =>
          simp only [growsAt, ne_eq, decide_not, Bool.not_eq_false', decide_eq_true_eq] at h ⊢
          exact hgrow _ _ _ _ h
      | cons i p =>
          simp only [growsAt] at h ⊢
          rwa [Function.update_of_ne hne.symm]
  | @tail k q p hpart ih =>
      have hlen := not_isLength_of_actAt hf
      rw [act, actAt_of_not_isLength hlen] at hf ⊢
      obtain ⟨i, p', j, q', rfl, rfl⟩ : ∃ i p' j q', p = i :: p' ∧ q = j :: q' := by
        cases hpart <;> exact ⟨_, _, _, _, rfl, rfl⟩
      simp only [growsAt, Function.update_self] at h ⊢
      rcases hd : (o.props k).view with x | c
      · rw [Doc.eq_prim_of_view hd] at hf ⊢
        simp only [Step.along, Step.inside_prim, Doc.view_obj] at hf ⊢
        exact ih (growsAt_empty _) hf
      · rw [Doc.eq_obj_of_view hd] at hf ⊢
        rw [hd] at h
        simp only [Step.along, Step.inside_obj, Doc.view_obj] at hf ⊢
        exact ih h hf

/-! ## Walks as actions -/

lemma touchesLength_empty (p : List String) : (Obj.empty : Obj Doc).touchesLength p = false := by
  cases p with
  | nil => rfl
  | cons k p =>
      have hview : ((Obj.empty : Obj Doc).props k).view = .prim .absent := rfl
      simp [touchesLength, not_isLength_empty, hview]

lemma walk_cons_cons (step : String → Obj Doc → Written (Obj Doc)) (k j : String)
    (ks : List String) (o : Obj Doc) :
    o.walk step (k :: j :: ks) = match (o.get k).view with
      | .obj c => (o.put k (.obj (c.walk step (j :: ks)).1), (c.walk step (j :: ks)).2)
      | .prim _ => match o.assign k (.obj .empty) (Doc.obj .empty).toArrayLength with
        | .error e => (o, some e)
        | .ok o' => (o'.put k (.obj ((Obj.empty : Obj Doc).walk step (j :: ks)).1),
            ((Obj.empty : Obj Doc).walk step (j :: ks)).2) := by
  refine (walk.eq_3 step o k (j :: ks) (by simp)).trans ?_
  rcases (o.get k).view with p | c
  · cases o.assign k (.obj .empty) (Doc.obj .empty).toArrayLength <;> rfl
  · rfl

/-- **A walk that does not touch the length of an array is an action**, if its step is local. -/
lemma walk_eq_act {step : String → Obj Doc → Written (Obj Doc)}
    (hstep : ∀ k o, ¬ o.IsLength k → step k o = o.actAt f k) (k : String) (ks : List String)
    (o : Obj Doc) (h : o.touchesLength (k :: ks) = false) :
    o.walk step (k :: ks) = o.act f (k :: ks) := by
  induction ks generalizing k o with
  | nil =>
      simp only [touchesLength, Bool.or_eq_false_iff, decide_eq_false_iff_not] at h
      exact hstep k o h.1
  | cons j ks ih =>
      simp only [touchesLength, Bool.or_eq_false_iff, decide_eq_false_iff_not] at h
      obtain ⟨hlen, hrest⟩ := h
      have hget : o.get k = o.props k := by
        unfold get
        cases ho : o.len with
        | none => rfl
        | some n =>
            have hk : k ≠ "length" := fun hk => hlen ⟨by simp [isArray, ho], hk⟩
            simp [hk]
      have hassign : ∀ v n, o.assign k v n = .ok ⟨grow o.len k, Function.update o.props k v⟩ :=
        fun v n => if_neg hlen
      rw [act, actAt_of_not_isLength hlen, walk_cons_cons, hget]
      rcases hd : (o.props k).view with p | c
      · have hprim := Doc.eq_prim_of_view hd
        have hempty := ih j .empty (touchesLength_empty _)
        simp only [hassign, hempty, hprim, Step.along, Step.inside_prim, act, put,
          Function.update_idem, if_true]
      · have hobj := Doc.eq_obj_of_view hd
        rw [hd] at hrest
        have hc := ih j c (by simpa [touchesLength] using hrest)
        simp only [hc, hobj, Step.along, Step.inside_obj, act, put]
        rfl

/-- An action that does not throw touches the length of no array. -/
lemma touchesLength_of_act (h : (o.act f p).2 = none) : o.touchesLength p = false := by
  cases p with
  | nil => rfl
  | cons k p =>
      induction p generalizing k o with
      | nil =>
          have hlen := not_isLength_of_actAt h
          cases hd : (o.props k).view <;> simp [touchesLength, hlen, hd]
      | cons j p ih =>
          have hlen := not_isLength_of_actAt h
          simp only [act, actAt_of_not_isLength hlen] at h
          rcases hd : (o.props k).view with x | c
          · simp [touchesLength, hlen, hd]
          · rw [Doc.eq_obj_of_view hd] at h
            have hc := ih (o := c) (k := j) h
            rw [touchesLength, hd]
            show (decide (o.IsLength k) || c.touchesLength (j :: p)) = false
            rw [hc]
            simp [hlen]

end Obj

end Js
