import SyncEngine.Js.Object

/-!
# Overlays

`overlay t s` is `{ ...t, ...s }` all the way down: it holds what `s` holds, and what `t` holds
where `s` has nothing, and where both hold plain objects these are overlaid in turn.  Arrays and
primitives are not taken apart.

An overlay looks at two documents along the paths that lead through plain objects in both, and at
the end of such a path it takes one side or the other.  `Somewhere P` says that some such path
leads to values with `P`, and `eq_iff_not_somewhere` is the resulting rule: two ways of combining
documents that both go down through plain objects agree exactly when they agree at the end of
every such path.  Commutation and the two absorption laws of overlays are cases of it
(`overlay_comm_iff`, `overlay_eq_left_iff`, `overlay_eq_right_iff`).  What an overlay holds at a
path is what one of the two sides holds there (`found_overlay_of_leaf`, `found_overlay_of_absent`).
-/

namespace Js

namespace Doc

/-- Nothing: the value of a property that is not there. -/
def absent : Doc := .prim .absent

/-- An object that is not an array. -/
def IsPlain (d : Doc) : Prop := d.node [] = .obj none

instance (d : Doc) : Decidable d.IsPlain := by
  unfold IsPlain
  infer_instance

@[simp] lemma isPlain_obj (o : Obj Doc) : (obj o).IsPlain ↔ o.len = none := by
  simp [IsPlain]

@[simp] lemma not_isPlain_prim (p : Prim) : ¬ (prim p).IsPlain := by
  simp [IsPlain]

lemma IsPlain.exists_eq {d : Doc} (h : d.IsPlain) : ∃ ps, d = obj ⟨none, ps⟩ := by
  cases d with
  | prim p => exact absurd h (not_isPlain_prim p)
  | obj o =>
    obtain ⟨len, ps⟩ := o
    rw [isPlain_obj] at h
    exact ⟨ps, by rw [show len = none from h]⟩

lemma IsPlain.ne_absent {d : Doc} (h : d.IsPlain) : d ≠ absent := by
  rintro rfl
  exact not_isPlain_prim _ h

/-- One level of an overlay, with nothing on the side that is not taken. -/
def overlayLayer : Doc × Doc → Layer (Doc × Doc)
  | (t, s) =>
    match t.view, s.view with
    | .obj ⟨none, ts⟩, .obj ⟨none, ss⟩ => .obj ⟨none, fun k => (ts k, ss k)⟩
    | l, .prim .absent => l.map fun c => (c, absent)
    | _, l => l.map fun c => (absent, c)

/-- **The overlay of two documents.** -/
def overlay (t s : Doc) : Doc := unfold overlayLayer (t, s)

variable {t s : Doc}

@[simp] lemma overlay_absent (t : Doc) : overlay t absent = t := by
  ext p
  induction p generalizing t with
  | nil =>
    cases t with
    | prim p => rfl
    | obj o => obtain ⟨_ | n, ps⟩ := o <;> rfl
  | cons k q ih =>
    cases t with
    | prim p => rfl
    | obj o => obtain ⟨_ | n, ps⟩ := o <;> exact ih (ps k)

@[simp] lemma absent_overlay (s : Doc) : overlay absent s = s := by
  ext p
  induction p generalizing s with
  | nil =>
    cases s with
    | prim p => cases p <;> rfl
    | obj o => rfl
  | cons k q ih =>
    cases s with
    | prim p => cases p <;> rfl
    | obj o => exact ih (o.props k)

lemma overlay_plain (ts ss : String → Doc) :
    overlay (obj ⟨none, ts⟩) (obj ⟨none, ss⟩) = obj ⟨none, fun k => overlay (ts k) (ss k)⟩ :=
  @unfold_of_obj _ overlayLayer (obj ⟨none, ts⟩, obj ⟨none, ss⟩)
    ⟨none, fun k => (ts k, ss k)⟩ rfl

/-- What is there replaces what it cannot be overlaid on. -/
lemma overlay_of_not_plain (h : ¬ (t.IsPlain ∧ s.IsPlain)) (hs : s ≠ absent) :
    overlay t s = s := by
  have hlayer : overlayLayer (t, s) = s.view.map fun c => (absent, c) := by
    unfold overlayLayer
    cases t with
    | prim p =>
      cases s with
      | prim q => cases q <;> first | exact absurd rfl hs | rfl
      | obj o => rfl
    | obj o =>
      obtain ⟨_ | n, ts⟩ := o
      · cases s with
        | prim q => cases q <;> first | exact absurd rfl hs | rfl
        | obj u =>
          obtain ⟨_ | m, ss⟩ := u
          · exact absurd ⟨rfl, rfl⟩ h
          · rfl
      · cases s with
        | prim q => cases q <;> first | exact absurd rfl hs | rfl
        | obj u => rfl
  have hchild : ∀ c : Doc, unfold overlayLayer (absent, c) = c := absent_overlay
  have hview : (overlay t s).view = s.view := by
    rw [overlay, view_unfold, hlayer]
    cases s with
    | prim q => rfl
    | obj o =>
      simp only [view_obj, Layer.map_obj, Layer.obj.injEq]
      exact Obj.ext rfl (funext fun k => hchild (o.props k))
  rw [← ofLayer_view (overlay t s), hview, ofLayer_view]

/-! ## Along the plain objects of both -/

/-- Some path that leads through plain objects in both leads to two values with `P`. -/
inductive Somewhere (P : Doc → Doc → Prop) : Doc → Doc → Prop
  | here {t s : Doc} (h : P t s) : Somewhere P t s
  | inside {ts ss : String → Doc} (k : String) (h : Somewhere P (ts k) (ss k)) :
      Somewhere P (obj ⟨none, ts⟩) (obj ⟨none, ss⟩)

/-- Where one of the two is no plain object the path ends. -/
lemma somewhere_iff {P : Doc → Doc → Prop} (h : ¬ (t.IsPlain ∧ s.IsPlain)) :
    Somewhere P t s ↔ P t s := by
  refine ⟨fun hsome => ?_, .here⟩
  cases hsome with
  | here hP => exact hP
  | inside k _ => exact absurd ⟨rfl, rfl⟩ h

/-- A combination of documents that goes down where both are plain objects. -/
def GoesDown (f : Doc → Doc → Doc) : Prop :=
  ∀ ts ss : String → Doc,
    f (obj ⟨none, ts⟩) (obj ⟨none, ss⟩) = obj ⟨none, fun k => f (ts k) (ss k)⟩

/-- **Two combinations that go down agree exactly when they agree wherever they stop.** -/
lemma eq_iff_not_somewhere {f g : Doc → Doc → Doc} {P : Doc → Doc → Prop} (hf : GoesDown f)
    (hg : GoesDown g)
    (hP : ∀ t s, P t s ↔ ¬ (t.IsPlain ∧ s.IsPlain) ∧ f t s ≠ g t s) (t s : Doc) :
    f t s = g t s ↔ ¬ Somewhere P t s := by
  constructor
  · intro heq h
    induction h with
    | here h => exact ((hP _ _).1 h).2 heq
    | @inside ts ss k _ ih =>
      rw [hf, hg, obj_inj] at heq
      exact ih (congrFun (congrArg Obj.props heq) k)
  · intro hnot
    ext p
    induction p generalizing t s with
    | nil =>
      by_cases hplain : t.IsPlain ∧ s.IsPlain
      · obtain ⟨ts, rfl⟩ := hplain.1.exists_eq
        obtain ⟨ss, rfl⟩ := hplain.2.exists_eq
        rw [hf, hg]
        rfl
      · have heq : f t s = g t s := by
          by_contra hne
          exact hnot (.here ((hP t s).2 ⟨hplain, hne⟩))
        rw [heq]
    | cons k q ih =>
      by_cases hplain : t.IsPlain ∧ s.IsPlain
      · obtain ⟨ts, rfl⟩ := hplain.1.exists_eq
        obtain ⟨ss, rfl⟩ := hplain.2.exists_eq
        rw [hf, hg]
        exact ih (ts k) (ss k) fun h => hnot (.inside k h)
      · have heq : f t s = g t s := by
          by_contra hne
          exact hnot (.here ((hP t s).2 ⟨hplain, hne⟩))
        rw [heq]

/-- Both sides hold something, and not the same. -/
def Clash (t s : Doc) : Prop :=
  t ≠ absent ∧ s ≠ absent ∧ t ≠ s ∧ ¬ (t.IsPlain ∧ s.IsPlain)

/-- The second side holds something else than the first. -/
def Overrides (t s : Doc) : Prop := s ≠ absent ∧ t ≠ s ∧ ¬ (t.IsPlain ∧ s.IsPlain)

/-- The second side has nothing where the first has something. -/
def Shines (t s : Doc) : Prop := s = absent ∧ t ≠ absent

/-- Two documents can be overlaid in either order exactly when they nowhere clash. -/
lemma overlay_comm_iff (t s : Doc) : overlay t s = overlay s t ↔ ¬ Somewhere Clash t s := by
  refine @eq_iff_not_somewhere overlay (fun t s => overlay s t) Clash overlay_plain
    (fun ts ss => overlay_plain ss ts) (fun t s => ?_) t s
  by_cases hplain : t.IsPlain ∧ s.IsPlain
  · simp [Clash, hplain]
  by_cases ht : t = absent
  · simp [Clash, ht]
  by_cases hs : s = absent
  · simp [Clash, hs]
  have hplain' : ¬ (s.IsPlain ∧ t.IsPlain) := fun h => hplain h.symm
  simp only [Clash, overlay_of_not_plain hplain hs, overlay_of_not_plain hplain' ht]
  tauto

/-- An overlay changes nothing exactly when it nowhere overrides. -/
lemma overlay_eq_left_iff (t s : Doc) : overlay t s = t ↔ ¬ Somewhere Overrides t s := by
  refine @eq_iff_not_somewhere overlay (fun t _ => t) Overrides overlay_plain
    (fun ts ss => rfl) (fun t s => ?_) t s
  by_cases hplain : t.IsPlain ∧ s.IsPlain
  · simp [Overrides, hplain]
  by_cases hs : s = absent
  · simp [Overrides, hs]
  simp only [Overrides, overlay_of_not_plain hplain hs]
  tauto

@[simp] lemma overlay_self (d : Doc) : overlay d d = d := by
  have hne : ∀ t s : Doc, Somewhere Overrides t s → t ≠ s := by
    intro t s h
    induction h with
    | here h => exact h.2.1
    | @inside ts ss k _ ih =>
      intro heq
      rw [obj_inj] at heq
      exact ih (congrFun (congrArg Obj.props heq) k)
  exact (overlay_eq_left_iff d d).2 fun h => hne d d h rfl

/-- An overlay hides everything exactly when nothing shines through. -/
lemma overlay_eq_right_iff (t s : Doc) : overlay t s = s ↔ ¬ Somewhere Shines t s := by
  refine @eq_iff_not_somewhere overlay (fun _ s => s) Shines overlay_plain
    (fun ts ss => rfl) (fun t s => ?_) t s
  by_cases hs : s = absent
  · subst hs
    have hnot : ¬ (t.IsPlain ∧ absent.IsPlain) := fun h => not_isPlain_prim _ h.2
    simp [Shines, hnot]
  · by_cases hplain : t.IsPlain ∧ s.IsPlain
    · simp [Shines, hs, hplain]
    · simp [Shines, hs, overlay_of_not_plain hplain hs]

/-! ## What is found at a path -/

/-- A value that is not taken apart: a primitive or an array. -/
def IsLeaf (d : Doc) : Prop := d ≠ absent ∧ ¬ d.IsPlain

/-- What is at a path that leads through plain objects. -/
def found (d : Doc) : List String → Doc
  | [] => d
  | k :: p =>
    match d.view with
    | .obj ⟨none, ps⟩ => (ps k).found p
    | _ => absent

@[simp] lemma found_nil (d : Doc) : d.found [] = d := rfl

/-- There is nothing below what is no plain object. -/
lemma found_of_not_plain (h : ¬ t.IsPlain) (k : String) (p : List String) :
    t.found (k :: p) = absent := by
  cases t with
  | prim q => rfl
  | obj o =>
    obtain ⟨_ | n, ps⟩ := o
    · exact absurd rfl h
    · rfl

lemma isLeaf_prim {p : Prim} (h : p ≠ .absent) : (prim p).IsLeaf :=
  ⟨fun heq => h (prim_injective heq), not_isPlain_prim p⟩

lemma not_isLeaf_absent : ¬ absent.IsLeaf := fun h => h.1 rfl

/-- An overlay has every leaf of the second side. -/
lemma found_overlay_of_leaf {p : List String} (h : (s.found p).IsLeaf) :
    (overlay t s).found p = s.found p := by
  induction p generalizing t s with
  | nil => exact overlay_of_not_plain (fun hplain => h.2 hplain.2) h.1
  | cons k p ih =>
    by_cases hs : s.IsPlain
    · by_cases ht : t.IsPlain
      · obtain ⟨ts, rfl⟩ := ht.exists_eq
        obtain ⟨ss, rfl⟩ := hs.exists_eq
        rw [overlay_plain]
        exact ih h
      · rw [overlay_of_not_plain (fun hplain => ht hplain.1) hs.ne_absent]
    · rw [found_of_not_plain hs] at h
      exact absurd h not_isLeaf_absent

/-- Where the second side has nothing, and no leaf above, an overlay has what the first one has. -/
lemma found_overlay_of_absent {p : List String} (h : s.found p = absent)
    (habove : ∀ q, q <+: p → q ≠ p → ¬ (s.found q).IsLeaf) :
    (overlay t s).found p = t.found p := by
  induction p generalizing t s with
  | nil =>
    rw [found_nil] at h
    rw [h, overlay_absent]
  | cons k p ih =>
    by_cases hs : s.IsPlain
    · by_cases ht : t.IsPlain
      · obtain ⟨ts, rfl⟩ := ht.exists_eq
        obtain ⟨ss, rfl⟩ := hs.exists_eq
        rw [overlay_plain]
        refine ih h fun q hq hne => ?_
        exact habove (k :: q) ((List.prefix_cons_inj k).2 hq) fun heq => hne (List.cons.inj heq).2
      · rw [overlay_of_not_plain (fun hplain => ht hplain.1) hs.ne_absent, h,
          found_of_not_plain ht]
    · have habsent : s = absent := by
        by_contra hne
        exact habove [] List.nil_prefix (List.cons_ne_nil k p).symm ⟨hne, hs⟩
      rw [habsent, overlay_absent]

end Doc

end Js
