import SyncEngine.Sync.ConflictResolver

/-!
# Deep merging, key by key

`deepMerge` of `src/sync/conflict-resolver.ts` as the loop that the source has, over the keys that
`Object.keys` lists, with a bound on how deep it goes.  For an object whose keys are listed at every
depth below the bound (`Listed`, which every parsed object is), the loop ends with the overlay that
`ConflictResolver.deepMerge` is, whatever the order of the keys (`deepMergeWith_eq`).  So what it
holds at a path follows from the laws of overlays (`deepMergeWith_law`).

A leaf is a primitive or an array, and paths lead through plain objects only.  The name `__proto__`
is taken here for a key like any other, so this is about objects without it.
-/

namespace SyncEngine.ConflictResolver

open Js

/-- What the loop writes for the value of `target` and that of `source` under a key; `deeper` is the
recursive call. -/
def mergedValue (deeper : Obj Doc → Obj Doc → Obj Doc) (target source : Doc) : Doc :=
  match source.view, target.view with
  | .obj ⟨none, ss⟩, .obj ⟨none, ts⟩ => .obj (deeper ⟨none, ts⟩ ⟨none, ss⟩)
  | _, _ => source

/-- `deepMerge(target, source)` as a loop, of which no more than `depth` are inside each other. -/
def deepMergeWith (objectKeys : Obj Doc → List String) : ℕ → Obj Doc → Obj Doc → Obj Doc
  | 0, target, _ => ⟨none, target.props⟩
  | depth + 1, target, source =>
    (objectKeys source).foldl (fun result key =>
      result.put key (mergedValue (deepMergeWith objectKeys depth) (result.props key)
        (source.props key))) ⟨none, target.props⟩

/-- `Object.keys` lists the keys of the object and of the plain objects in it, and there are fewer
than `depth` of these inside each other. -/
def Listed (objectKeys : Obj Doc → List String) : ℕ → Obj Doc → Prop
  | 0, _ => False
  | depth + 1, o =>
    (objectKeys o).Nodup ∧ (∀ key, key ∈ objectKeys o ↔ o.props key ≠ Doc.absent) ∧
      ∀ key ps, o.props key = .obj ⟨none, ps⟩ → Listed objectKeys depth ⟨none, ps⟩

variable {objectKeys : Obj Doc → List String} {depth : ℕ} {target source : Obj Doc}

/-- A loop that rewrites each key once. -/
lemma foldl_put (value : String → Doc → Doc) {keys : List String} (hkeys : keys.Nodup)
    (o : Obj Doc) :
    keys.foldl (fun o key => o.put key (value key (o.props key))) o =
      ⟨o.len, fun key => if key ∈ keys then value key (o.props key) else o.props key⟩ := by
  induction keys generalizing o with
  | nil => simp
  | cons first keys ih =>
    obtain ⟨hfirst, hrest⟩ := List.nodup_cons.1 hkeys
    rw [List.foldl_cons, ih hrest, Obj.put_len, Obj.put_props]
    refine Obj.ext rfl (funext fun key => ?_)
    by_cases hkey : key = first
    · subst hkey
      simp [hfirst]
    · simp [hkey]

/-- The loop writes the overlay of the two values. -/
lemma mergedValue_eq (deeper : Obj Doc → Obj Doc → Obj Doc) {t s : Doc} (hs : s ≠ Doc.absent)
    (h : ∀ ts ss, t = .obj ⟨none, ts⟩ → s = .obj ⟨none, ss⟩ →
      deeper ⟨none, ts⟩ ⟨none, ss⟩ = deepMerge ⟨none, ts⟩ ⟨none, ss⟩) :
    mergedValue deeper t s = t.overlay s := by
  by_cases hplain : t.IsPlain ∧ s.IsPlain
  · obtain ⟨ts, rfl⟩ := hplain.1.exists_eq
    obtain ⟨ss, rfl⟩ := hplain.2.exists_eq
    rw [Doc.overlay_plain]
    exact congrArg Doc.obj (h ts ss rfl rfl)
  · rw [Doc.overlay_of_not_plain hplain hs]
    unfold mergedValue
    split
    next ss ts hss hts =>
      rw [Doc.eq_obj_of_view hss, Doc.eq_obj_of_view hts] at hplain
      exact absurd ⟨rfl, rfl⟩ hplain
    next => rfl

/-- **The loop computes the overlay**, in whatever order the keys are listed. -/
lemma deepMergeWith_eq (h : Listed objectKeys depth source) (target : Obj Doc) :
    deepMergeWith objectKeys depth target source = deepMerge target source := by
  induction depth generalizing target source with
  | zero => exact absurd h id
  | succ depth ih =>
    obtain ⟨hnodup, hkeys, hdeeper⟩ := h
    rw [deepMergeWith, foldl_put (fun key value =>
      mergedValue (deepMergeWith objectKeys depth) value (source.props key)) hnodup]
    refine Obj.ext rfl (funext fun key => ?_)
    change (if key ∈ objectKeys source then _ else _) =
      (target.props key).overlay (source.props key)
    by_cases hkey : key ∈ objectKeys source
    · rw [if_pos hkey]
      exact mergedValue_eq _ ((hkeys key).1 hkey) fun ts ss _ hss => ih (hdeeper key ss hss) _
    · have habsent : source.props key = Doc.absent := by
        by_contra hne
        exact hkey ((hkeys key).2 hne)
      rw [if_neg hkey, habsent, Doc.overlay_absent]

/-- **The law of `deepMerge`.**  At every path the result has the leaf of the source, or what the
target has where the source has nothing there and no leaf above; and an object merged with itself
is the object. -/
theorem deepMergeWith_law (ts : String → Doc) {ss : String → Doc}
    (h : Listed objectKeys depth ⟨none, ss⟩) :
    (∀ p, ((Doc.obj ⟨none, ss⟩).found p).IsLeaf →
      (Doc.obj (deepMergeWith objectKeys depth ⟨none, ts⟩ ⟨none, ss⟩)).found p =
        (Doc.obj ⟨none, ss⟩).found p) ∧
    (∀ p, (Doc.obj ⟨none, ss⟩).found p = Doc.absent →
      (∀ q, q <+: p → q ≠ p → ¬ ((Doc.obj ⟨none, ss⟩).found q).IsLeaf) →
      (Doc.obj (deepMergeWith objectKeys depth ⟨none, ts⟩ ⟨none, ss⟩)).found p =
        (Doc.obj ⟨none, ts⟩).found p) ∧
    deepMergeWith objectKeys depth ⟨none, ss⟩ ⟨none, ss⟩ = ⟨none, ss⟩ := by
  have hoverlay : ∀ ts : String → Doc,
      Doc.obj (deepMergeWith objectKeys depth ⟨none, ts⟩ ⟨none, ss⟩) =
        (Doc.obj ⟨none, ts⟩).overlay (.obj ⟨none, ss⟩) := fun ts => by
    rw [deepMergeWith_eq h, Doc.overlay_plain]
    rfl
  refine ⟨fun p hleaf => ?_, fun p habsent habove => ?_, ?_⟩
  · rw [hoverlay]
    exact Doc.found_overlay_of_leaf hleaf
  · rw [hoverlay]
    exact Doc.found_overlay_of_absent habsent habove
  · refine Doc.obj_injective ?_
    rw [hoverlay, Doc.overlay_self]

/-- `Object.keys` on objects that have no other names than some. -/
def keysAmong (names : List String) (o : Obj Doc) : List String :=
  names.filter fun key => !isAbsent (o.props key)

lemma isAbsent_eq_false_iff (d : Doc) : isAbsent d = false ↔ d ≠ Doc.absent := by
  cases d with
  | prim p =>
    unfold isAbsent Doc.absent
    rw [← Doc.slot_prim p, Slot.prim?_prim, decide_eq_false_iff_not, Option.some_inj,
      Doc.slot_prim, Ne, Doc.prim_inj]
  | obj o => exact iff_of_true rfl (Doc.obj_ne_prim _ _)

lemma mem_keysAmong {names : List String} {o : Obj Doc}
    (h : ∀ key, o.props key ≠ Doc.absent → key ∈ names) (key : String) :
    key ∈ keysAmong names o ↔ o.props key ≠ Doc.absent := by
  rw [keysAmong, List.mem_filter, Bool.not_eq_true', isAbsent_eq_false_iff]
  exact ⟨fun hkey => hkey.2, fun hne => ⟨h key hne, hne⟩⟩

/-- An object with one property. -/
def single (name : String) (value : Doc) : Obj Doc :=
  ⟨none, fun key => if key = name then value else Doc.absent⟩

lemma eq_of_single_ne_absent {name key : String} {value : Doc}
    (h : (single name value).props key ≠ Doc.absent) : key = name := by
  by_contra hne
  exact h (if_neg hne)

/-- An object with a coordinate. -/
def position (name : String) (q : ℚ) : Obj Doc :=
  single "position" (.obj (single name (.prim (.num q))))

lemma listed_single {names : List String} (hnames : names.Nodup) {name : String}
    (hname : name ∈ names) {value : Doc}
    (h : ∀ ps, value = .obj ⟨none, ps⟩ → Listed (keysAmong names) depth ⟨none, ps⟩) :
    Listed (keysAmong names) (depth + 1) (single name value) := by
  refine ⟨hnames.filter _, mem_keysAmong fun key hkey => ?_, fun key ps hps => ?_⟩
  · rw [eq_of_single_ne_absent hkey]
    exact hname
  · have hkey : key = name := eq_of_single_ne_absent (by
      rw [hps]
      exact Doc.obj_ne_prim _ _)
    refine h ps ?_
    rw [← hps, hkey]
    exact (if_pos rfl).symm

lemma listed_position (q : ℚ) : Listed (keysAmong ["position", "x"]) 2 (position "x" q) := by
  refine listed_single (by decide) (by decide) fun ps hps => ?_
  rw [← Doc.obj_injective hps]
  exact listed_single (by decide) (by decide) fun ps hps => absurd hps (Doc.prim_ne_obj _ _)

/-- One coordinate is merged into an object with another one. -/
theorem deepMergeWith_law_position :
    (Doc.obj (deepMergeWith (keysAmong ["position", "x"]) 2 (position "y" 2)
      (position "x" 1))).found ["position", "x"] = .prim (.num 1) ∧
    deepMergeWith (keysAmong ["position", "x"]) 2 (position "x" 1) (position "x" 1) =
      position "x" 1 :=
  have h := fun ts => deepMergeWith_law ts (listed_position 1)
  have hleaf : (Doc.prim (.num 1)).IsLeaf := Doc.isLeaf_prim (by decide)
  ⟨(h _).1 ["position", "x"] hleaf, (h (position "x" 1).props).2.2⟩

end SyncEngine.ConflictResolver
