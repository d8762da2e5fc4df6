import SyncEngine.Js.Local
import SyncEngine.Js.Overlay

/-!
# Walks and overlays

A walk that goes down through plain objects only, or through nothing, where it makes them, is
exactly where an overlay goes down too.  `Along p d x` says that `p` leads through such values of
`d` to `x`, `Leads p d x` that it leads there through plain objects only, and `reach` is the walk
as a step on a document.

Along such a path a step moves through an overlay: on the first side where its outcome hides what
the second one holds (`overlay_reach_left`), on the second side where its outcome hides what the
first one holds (`overlay_reach_right`).  On the second side the walk may also end up in an array
or a primitive of the first one, which the overlay replaces as a whole.  `Beside` is what remains
true of a document while steps are performed on it at other paths.
-/

namespace Js

variable {w w' : String → Obj Doc → Written (Obj Doc)} {f f' : Step}

namespace Doc

/-- A walk goes on in the document, or makes a plain object in its place. -/
def Open (d : Doc) : Prop := d = absent ∨ d.IsPlain

@[simp] lemma absent_child (k : String) : absent.child k = absent := by
  ext q
  cases q <;> rfl

@[simp] lemma child_obj (o : Obj Doc) (k : String) : (obj o).child k = o.props k := rfl

lemma Open.of_plain (ps : String → Doc) : (obj ⟨none, ps⟩).Open := .inr rfl

lemma absent_open : absent.Open := .inl rfl

/-- The path leads through plain objects, or nothing, to `x`. -/
def Along : List String → Doc → Doc → Prop
  | [], d, x => d = x
  | k :: p, d, x => d.Open ∧ Along p (d.child k) x

/-- The path leads through plain objects to `x`. -/
def Leads : List String → Doc → Doc → Prop
  | [], d, x => d = x
  | k :: p, d, x => d.IsPlain ∧ Leads p (d.child k) x

/-- The document `d` is open along the path where `b` is, and holds at its end what `b` holds; and
where the path leaves the open part of `b` the two are related by `C`. -/
def Beside (C : Doc → Doc → Prop) : List String → Doc → Doc → Prop
  | [], b, d => d = b
  | k :: p, b, d =>
    (¬ b.Open ∧ C b d) ∨ (b.Open ∧ d.Open ∧ Beside C p (b.child k) (d.child k))

variable {p : List String} {b d x y t s : Doc}

lemma Leads.along (h : Leads p d x) : Along p d x := by
  induction p generalizing d with
  | nil => exact h
  | cons k p ih => exact ⟨.inr h.1, ih h.2⟩

lemma Along.unique (h : Along p d x) (h' : Along p d y) : x = y := by
  induction p generalizing d with
  | nil => exact h.symm.trans h'
  | cons k p ih => exact ih h.2 h'.2

lemma Beside.refl {C : Doc → Doc → Prop} (hC : ∀ b, ¬ b.Open → C b b) (p : List String) (b : Doc) :
    Beside C p b b := by
  induction p generalizing b with
  | nil => rfl
  | cons k p ih =>
    by_cases hopen : b.Open
    · exact .inr ⟨hopen, hopen, ih _⟩
    · exact .inl ⟨hopen, hC b hopen⟩

/-- What is open all along stays so. -/
lemma Beside.along {C : Doc → Doc → Prop} (h : Beside C p b d) (hb : Along p b x) :
    Along p d x := by
  induction p generalizing b d with
  | nil => exact h.trans hb
  | cons k p ih =>
    obtain ⟨hopen, -⟩ | ⟨-, hd, hrest⟩ := h
    · exact absurd hb.1 hopen
    · exact ⟨hd, ih hrest hb.2⟩

/-- An overlay of two open documents is the overlay of what they hold. -/
lemma child_overlay (ht : t.Open) (hs : s.Open) (k : String) :
    (t.overlay s).child k = (t.child k).overlay (s.child k) := by
  rcases ht with rfl | ht
  · simp
  rcases hs with rfl | hs
  · simp
  obtain ⟨ts, rfl⟩ := ht.exists_eq
  obtain ⟨ss, rfl⟩ := hs.exists_eq
  rw [overlay_plain]
  rfl

/-- An overlay of a plain object on an open document. -/
lemma Open.overlay_obj (ht : t.Open) (ss : String → Doc) :
    t.overlay (obj ⟨none, ss⟩) = obj ⟨none, fun k => (t.child k).overlay (ss k)⟩ := by
  rcases ht with rfl | ht
  · simp
  · obtain ⟨ts, rfl⟩ := ht.exists_eq
    exact overlay_plain ts ss

lemma Open.overlay (ht : t.Open) (hs : s.Open) : (t.overlay s).Open := by
  rcases ht with rfl | ht
  · rwa [absent_overlay]
  rcases hs with rfl | hs
  · rw [overlay_absent]
    exact .inr ht
  obtain ⟨ts, rfl⟩ := ht.exists_eq
  obtain ⟨ss, rfl⟩ := hs.exists_eq
  rw [overlay_plain]
  exact Open.of_plain _

lemma Along.overlay (ht : Along p t x) (hs : Along p s y) :
    Along p (t.overlay s) (x.overlay y) := by
  induction p generalizing t s with
  | nil => exact congrArg₂ Doc.overlay ht hs
  | cons k p ih =>
    refine ⟨ht.1.overlay hs.1, ?_⟩
    rw [child_overlay ht.1 hs.1]
    exact ih ht.2 hs.2

/-- A plain object is what it holds. -/
lemma IsPlain.eq_obj (h : d.IsPlain) : d = obj ⟨none, d.child⟩ := by
  obtain ⟨ps, rfl⟩ := h.exists_eq
  rfl

end Doc

open Doc

/-! ## Walking as a step -/

namespace Step

/-- The object that a walk goes on in. -/
def entered (d : Doc) : Obj Doc :=
  match d.view with
  | .obj c => c
  | .prim _ => .empty

@[simp] lemma entered_obj (o : Obj Doc) : entered (.obj o) = o := rfl

@[simp] lemma entered_prim (x : Prim) : entered (.prim x) = .empty := rfl

/-- What a walk does to the value it starts in, with the step `f` at its end. -/
def reach (w : String → Obj Doc → Written (Obj Doc)) (f : Step) : List String → Step
  | [] => f
  | k :: p => fun d =>
    ⟨.obj ((entered d).walk w (k :: p)).1, true, ((entered d).walk w (k :: p)).2⟩

/-- The last step of the walk is the step `f` on one property. -/
def Local (w : String → Obj Doc → Written (Obj Doc)) (f : Step) : Prop :=
  ∀ k o, ¬ o.IsLength k → w k o = o.actAt f k

lemma reach_cons (k : String) (p : List String) (d : Doc) :
    reach w f (k :: p) d =
      ⟨.obj ((entered d).walk w (k :: p)).1, true, ((entered d).walk w (k :: p)).2⟩ := rfl

lemma reach_ne_absent (k : String) (p : List String) (d : Doc) :
    (reach w f (k :: p) d).doc ≠ absent := obj_ne_prim _ _

/-- A walk in a plain object goes on in one of its properties. -/
lemma walk_plain (hw : Local w f) (k : String) (p : List String) (ps : String → Doc) :
    (Obj.mk none ps).walk w (k :: p) =
      (⟨none, Function.update ps k (reach w f p (ps k)).doc⟩, (reach w f p (ps k)).err) := by
  have hlen : ¬ (Obj.mk none ps).IsLength k := by simp [Obj.IsLength, Obj.isArray]
  cases p with
  | nil =>
    rw [Obj.walk, hw k _ hlen, Obj.actAt_of_not_isLength hlen, reach]
    cases (f (ps k)).wrote <;> rfl
  | cons j p =>
    have hget : (Obj.mk none ps).get k = ps k := rfl
    rw [Obj.walk_cons_cons, hget, reach_cons]
    rcases hd : (ps k).view with x | c
    · rw [eq_prim_of_view hd]
      simp [Obj.assign, Obj.isArray, Obj.put, Obj.grow, Function.update_idem]
    · rw [eq_obj_of_view hd]
      rfl

/-- **A walk in an open document goes on in one of its properties.** -/
lemma reach_open (hw : Local w f) {d : Doc} (hd : d.Open) (k : String) (p : List String) :
    (reach w f (k :: p) d).doc =
        obj ⟨none, Function.update d.child k (reach w f p (d.child k)).doc⟩ ∧
      (reach w f (k :: p) d).err = (reach w f p (d.child k)).err := by
  have hentered : entered d = ⟨none, d.child⟩ := by
    rcases hd with rfl | hd
    · exact Obj.ext rfl (funext fun j => (absent_child j).symm)
    · obtain ⟨ps, rfl⟩ := hd.exists_eq
      rfl
  rw [reach_cons, hentered, walk_plain hw]
  exact ⟨rfl, rfl⟩

lemma isPlain_reach (hw : Local w f) {d : Doc} (hd : d.Open) (k : String) (p : List String) :
    (reach w f (k :: p) d).doc.IsPlain := by
  rw [(reach_open hw hd k p).1]
  rfl

lemma child_reach (hw : Local w f) {d : Doc} (hd : d.Open) (k : String) (p : List String)
    (j : String) :
    (reach w f (k :: p) d).doc.child j =
      if j = k then (reach w f p (d.child k)).doc else d.child j := by
  rw [(reach_open hw hd k p).1, child_obj]
  by_cases hj : j = k
  · subst hj
    simp
  · simp [hj]

end Step

open Step

namespace Doc

variable {p q : List String} {b d x y t s : Doc}

/-! ## At the end of the path, and beside it -/

lemma Along.leads_reach (hw : Local w f) (h : Along p d x) :
    Leads p (reach w f p d).doc (f x).doc ∧ (reach w f p d).err = (f x).err := by
  induction p generalizing d with
  | nil =>
    obtain rfl : d = x := h
    exact ⟨rfl, rfl⟩
  | cons k p ih =>
    obtain ⟨hleads, herr⟩ := ih h.2
    refine ⟨⟨isPlain_reach hw h.1 k p, ?_⟩, (reach_open hw h.1 k p).2.trans herr⟩
    rw [child_reach hw h.1, if_pos rfl]
    exact hleads

lemma Along.of_part (hw : Local w f) (hpart : Part q p) (h : Along p d x) :
    Along p (reach w f q d).doc x := by
  induction hpart generalizing d with
  | @head j k hne q p =>
    refine ⟨.inr (isPlain_reach hw h.1 j q), ?_⟩
    rw [child_reach hw h.1, if_neg hne.symm]
    exact h.2
  | @tail k q p hpart ih =>
    refine ⟨.inr (isPlain_reach hw h.1 k q), ?_⟩
    rw [child_reach hw h.1, if_pos rfl]
    exact ih h.2

lemma Leads.of_part (hw : Local w f) (hpart : Part q p) (h : Leads p d x) :
    Leads p (reach w f q d).doc x := by
  induction hpart generalizing d with
  | @head j k hne q p =>
    refine ⟨isPlain_reach hw (.inr h.1) j q, ?_⟩
    rw [child_reach hw (.inr h.1), if_neg hne.symm]
    exact h.2
  | @tail k q p hpart ih =>
    refine ⟨isPlain_reach hw (.inr h.1) k q, ?_⟩
    rw [child_reach hw (.inr h.1), if_pos rfl]
    exact ih h.2

/-- A step that changes nothing at the end of a path changes nothing. -/
lemma Leads.reach_eq (hw : Local w f) (h : Leads p d x) (hx : (f x).doc = x) :
    (reach w f p d).doc = d := by
  induction p generalizing d with
  | nil =>
    obtain rfl : d = x := h
    exact hx
  | cons k p ih =>
    rw [(reach_open hw (.inr h.1) k p).1, ih h.2, Function.update_eq_self]
    exact h.1.eq_obj.symm

/-- A walk on another path leaves a document beside the one it started from, if it does so where
the path leaves the open part. -/
lemma Beside.of_part {C : Doc → Doc → Prop} (hw : Local w f) (hpart : Part q p)
    (hC : (∀ b d k r, C b d → C b (reach w f (k :: r) d).doc) ∨ Along q b x)
    (h : Beside C p b d) : Beside C p b (reach w f q d).doc := by
  induction hpart generalizing b d with
  | @head j k hne q p =>
    obtain ⟨hopen, hbd⟩ | ⟨hb, hd, hrest⟩ := h
    · rcases hC with hC | hC
      · exact .inl ⟨hopen, hC b d j q hbd⟩
      · exact absurd hC.1 hopen
    · refine .inr ⟨hb, .inr (isPlain_reach hw hd j q), ?_⟩
      rw [child_reach hw hd, if_neg hne.symm]
      exact hrest
  | @tail k q p hpart ih =>
    obtain ⟨hopen, hbd⟩ | ⟨hb, hd, hrest⟩ := h
    · rcases hC with hC | hC
      · exact .inl ⟨hopen, hC b d k q hbd⟩
      · exact absurd hC.1 hopen
    · refine .inr ⟨hb, .inr (isPlain_reach hw hd k q), ?_⟩
      rw [child_reach hw hd, if_pos rfl]
      exact ih (hC.imp id fun hC => hC.2) hrest

/-! ## Steps and overlays -/

lemma overlay_child_eq (h : t.overlay b = t) (ht : t.IsPlain) (hb : b.Open) (k : String) :
    (t.child k).overlay (b.child k) = t.child k := by
  rw [← child_overlay (.inr ht) hb, h]

/-- **A step on the first side**: where it hides what the second side holds at its place, the
whole hides what it hid. -/
lemma overlay_reach_left (hw : Local w f) (hb : Along p b y) (ht : Along p t x)
    (hhides : (f x).doc.overlay y = (f x).doc) (h : t.overlay b = t) :
    (reach w f p t).doc.overlay b = (reach w f p t).doc := by
  induction p generalizing b t with
  | nil =>
    obtain rfl : b = y := hb
    obtain rfl : t = x := ht
    exact hhides
  | cons k p ih =>
    rcases hb.1 with rfl | hplain
    · exact overlay_absent _
    have htplain : t.IsPlain := by
      rcases ht.1 with rfl | htplain
      · rw [absent_overlay] at h
        exact absurd h hplain.ne_absent
      · exact htplain
    have hchild := overlay_child_eq h htplain hb.1
    rw [(reach_open hw ht.1 k p).1]
    obtain ⟨bs, rfl⟩ := hplain.exists_eq
    rw [overlay_plain]
    refine congrArg obj (Obj.ext rfl (funext fun j => ?_))
    by_cases hj : j = k
    · subst hj
      simpa using ih hb.2 ht.2 (hchild j)
    · simpa [hj] using hchild j

/-- **A step on the second side** is a step on the whole, if what it makes of a value that both
sides hold hides that value. -/
lemma overlay_reach_right (hw : Local w f) (ht : Beside (fun b d => d = b) p b t)
    (hs : Beside (fun _ d => d ≠ absent) p b s)
    (hhides : ∀ x, Along p b x → x.overlay (f x).doc = (f x).doc) :
    t.overlay (reach w f p s).doc = (reach w f p (t.overlay s)).doc ∧
      (reach w f p s).err = (reach w f p (t.overlay s)).err := by
  induction p generalizing b t s with
  | nil =>
    obtain rfl : t = b := ht
    obtain rfl : s = t := hs
    rw [overlay_self]
    exact ⟨hhides s rfl, rfl⟩
  | cons k p ih =>
    obtain ⟨hopen, rfl⟩ | ⟨hb, htopen, htrest⟩ := ht
    · obtain ⟨-, hs⟩ | ⟨hb, -⟩ := hs
      · have hnot : ∀ c : Doc, ¬ (t.IsPlain ∧ c.IsPlain) := fun c hc => hopen (.inr hc.1)
        rw [overlay_of_not_plain (hnot s) hs,
          overlay_of_not_plain (hnot _) (reach_ne_absent k p s)]
        exact ⟨rfl, rfl⟩
      · exact absurd hb hopen
    · obtain ⟨hopen, -⟩ | ⟨-, hsopen, hsrest⟩ := hs
      · exact absurd hb hopen
      obtain ⟨hdoc, herr⟩ := ih htrest hsrest fun x hx => hhides x ⟨hb, hx⟩
      have hwhole : (t.overlay s).Open := htopen.overlay hsopen
      refine ⟨?_, ?_⟩
      · rw [(reach_open hw hwhole k p).1, (reach_open hw hsopen k p).1, htopen.overlay_obj,
          child_overlay htopen hsopen, ← hdoc]
        refine congrArg obj (Obj.ext rfl (funext fun j => ?_))
        by_cases hj : j = k
        · subst hj
          simp
        · simp [hj, child_overlay htopen hsopen]
      · rw [(reach_open hw hsopen k p).2, (reach_open hw hwhole k p).2,
          child_overlay htopen hsopen, herr]

end Doc

end Js
