import SyncEngine.Js.Realm

/-!
# Reading along a path

`peek` reads along a path the way the property accesses of a program do: what an object does not
have is read from its prototypes.  Two realms read alike from objects that are related one by one,
as long as related objects have related properties and related prototypes (`Alike`).

Two uses are made of it.  Objects that a step has spared are related to themselves
(`Effect.alike`), and the objects made of one text are related wherever they were made
(`Alike.parse`).
-/

namespace Js

/-- What is seen of a value. -/
inductive Sight
  | prim (p : Prim)
  | object (len : Option ℕ)
  | function
  deriving DecidableEq

namespace Realm

def see (r : Realm) : Val → Sight
  | .prim p => .prim p
  | .ref a => if isFunction a then .function else .object (r.obj a).len

/-- What is read along a path; a primitive is not looked into. -/
def peek (r : Realm) : Val → List String → Sight
  | v, [] => r.see v
  | .prim _, _ :: _ => .prim .absent
  | .ref a, k :: ks => peek r (r.get a k) ks

variable {R : Address → Address → Prop} {r r' : Realm} {a a' : Address} {v v' : Val}

/-- The same primitive, or related objects. -/
def Paired (R : Address → Address → Prop) : Val → Val → Prop
  | .prim p, .prim q => p = q
  | .ref a, .ref b => R a b
  | _, _ => False

lemma Paired.mono {R' : Address → Address → Prop} (hv : Paired R v v')
    (hR : ∀ a a', R a a' → R' a a') : Paired R' v v' := by
  cases v <;> cases v'
  · exact hv
  · exact hv.elim
  · exact hv.elim
  · exact hR _ _ hv

/-- Related objects have related properties and prototypes. -/
structure Alike (R : Address → Address → Prop) (r r' : Realm) : Prop where
  depth : r'.depth = r.depth
  accessor : r'.accessor = r.accessor
  object : ∀ {a a'}, R a a' → (a' = objectPrototype ↔ a = objectPrototype)
  function : ∀ {a a'}, R a a' → isFunction a' = isFunction a
  len : ∀ {a a'}, R a a' → (r'.obj a').len = (r.obj a).len
  props : ∀ {a a'}, R a a' → ∀ k, Paired R ((r.obj a).props k) ((r'.obj a').props k)
  prototype : ∀ {a a'}, R a a' → Option.Rel R (r.prototypeOf a) (r'.prototypeOf a')

/-- Both searches end at nothing, at related values, or at the accessor. -/
inductive Found (R : Address → Address → Prop) : Property → Property → Prop
  | missing : Found R .missing .missing
  | data {home home' : Address} {v v' : Val} (hv : Paired R v v') :
      Found R (.data home v) (.data home' v')
  | accessor : Found R .accessor .accessor

lemma Paired.isAbsent_eq (hv : Paired R v v') : isAbsent v' = isAbsent v := by
  cases v <;> cases v'
  · rw [show _ = _ from hv]
  · exact hv.elim
  · exact hv.elim
  · rfl

lemma Alike.obj_get (h : Alike R r r') (ha : R a a') (k : String) :
    Paired R ((r.obj a).get k) ((r'.obj a').get k) := by
  unfold Obj.get
  rw [h.len ha]
  split
  · split
    · rfl
    · exact h.props ha k
  · exact h.props ha k

lemma Alike.own (h : Alike R r r') (ha : R a a') (k : String) :
    Found R (r.own k a) (r'.own k a') := by
  unfold Realm.own
  rw [(h.obj_get ha k).isAbsent_eq, h.accessor]
  simp only [h.object ha]
  split
  · split
    · exact .accessor
    · exact .missing
  · exact .data (h.obj_get ha k)

lemma Alike.find (h : Alike R r r') (ha : R a a') (k : String) (n : ℕ) :
    Found R (r.find k n a) (r'.find k n a') := by
  induction n generalizing a a' with
  | zero => exact h.own ha k
  | succ n ih =>
    have hown := h.own ha k
    rw [Realm.find, Realm.find]
    generalize r.own k a = p at hown ⊢
    generalize r'.own k a' = p' at hown ⊢
    cases hown with
    | missing =>
      have hprototype := h.prototype ha
      dsimp only
      generalize r.prototypeOf a = q at hprototype ⊢
      generalize r'.prototypeOf a' = q' at hprototype ⊢
      cases hprototype with
      | none => exact .missing
      | some hb => exact ih hb
    | data hv => exact .data hv
    | accessor => exact .accessor

/-- Related objects read alike. -/
lemma Alike.get (h : Alike R r r') (ha : R a a') (k : String) :
    Paired R (r.get a k) (r'.get a' k) := by
  have hfind := h.find ha k r.depth
  unfold Realm.get property
  rw [h.depth]
  generalize r.find k r.depth a = p at hfind ⊢
  generalize r'.find k r.depth a' = p' at hfind ⊢
  cases hfind with
  | missing => rfl
  | data hv => exact hv
  | accessor =>
    have hprototype := h.prototype ha
    dsimp only
    generalize r.prototypeOf a = q at hprototype ⊢
    generalize r'.prototypeOf a' = q' at hprototype ⊢
    cases hprototype with
    | none => rfl
    | some hb => exact hb

/-- **Related values read alike along every path.** -/
lemma Alike.peek (h : Alike R r r') (hv : Paired R v v') (path : List String) :
    r'.peek v' path = r.peek v path := by
  induction path generalizing v v' with
  | nil =>
    cases v <;> cases v'
    · exact congrArg Sight.prim hv.symm
    · exact hv.elim
    · exact hv.elim
    · simp only [Realm.peek, see, h.function hv, h.len hv]
  | cons k ks ih =>
    cases v <;> cases v'
    · rfl
    · exact hv.elim
    · exact hv.elim
    · exact ih (h.get hv k)

/-! ## Objects that a step has spared -/

variable {K : Set Address} {targets : List Address}

lemma paired_self (hv : ∀ b, v = .ref b → R b b) : Paired R v v := by
  cases v with
  | prim p => rfl
  | ref b => exact hv b rfl

/-- An object that is what it was has the prototype it had. -/
lemma prototypeOf_congr (hobj : r'.obj a = r.obj a) (hchosen : r'.chosen a = r.chosen a) :
    r'.prototypeOf a = r.prototypeOf a := by
  unfold prototypeOf defaultPrototype
  rw [hobj, hchosen]

/-- Objects there were before are related to themselves. -/
lemma Effect.alike (heffect : Effect r r' targets) (hold : ∀ a ∈ K, a.1 < r.heap.next)
    (hrefers : ∀ a ∈ K, ∀ b, r.Refers a b → b ∈ K) (hobject : objectPrototype ∈ K)
    (hspared : ∀ a ∈ targets, a ∉ K) : Alike (fun a a' => a' = a ∧ a ∈ K) r r' := by
  have hobj : ∀ a ∈ K, r'.obj a = r.obj a := fun a ha =>
    heffect.obj a (hold a ha) fun hmem => hspared a hmem ha
  have hprototype : ∀ a ∈ K, r'.prototypeOf a = r.prototypeOf a := fun a ha =>
    prototypeOf_congr (hobj a ha) (heffect.chosen a (hold a ha) fun hmem => hspared a hmem ha)
  refine ⟨heffect.depth, heffect.accessor fun hmem => hspared _ hmem hobject, ?_, ?_, ?_, ?_, ?_⟩
  · rintro a a' ⟨rfl, -⟩
    rfl
  · rintro a a' ⟨rfl, -⟩
    rfl
  · rintro a a' ⟨rfl, ha⟩
    rw [hobj a' ha]
  · rintro a a' ⟨rfl, ha⟩ k
    rw [hobj a' ha]
    exact paired_self fun b hb => ⟨rfl, hrefers a' ha b (.inl ⟨k, hb⟩)⟩
  · rintro a a' ⟨rfl, ha⟩
    rw [hprototype a' ha]
    cases hb : r.prototypeOf a' with
    | none => exact .none
    | some b => exact .some ⟨rfl, hrefers a' ha b (.inr hb)⟩

/-! ## Objects made of one text -/

/-- Objects of `K`, and objects that stand at one place of the text read next. -/
def SamePlace (K : Set Address) (r r' : Realm) (a a' : Address) : Prop :=
  (a' = a ∧ a ∈ K) ∨ ∃ p, a = (r.heap.next, p) ∧ a' = (r'.heap.next, p)

lemma obj_parse_old (o : Obj Doc) (ha : a.1 ≠ r.heap.next) : (r.parse o).2.obj a = r.obj a :=
  if_neg ha

lemma obj_parse_new (r : Realm) (o : Obj Doc) (p : List String) :
    (r.parse o).2.obj (r.heap.next, p) = Heap.textObj r.heap.next (.obj o) p :=
  if_pos rfl

/-- **A text read in two realms that look alike gives objects that look alike.** -/
lemma Alike.parse {T : Set Address} (h : Alike (fun a a' => a' = a ∧ a ∈ K) r r')
    (hr : r.Confined T) (hr' : r'.Confined T) (hle : r.heap.next ≤ r'.heap.next)
    (hold : ∀ a ∈ K, a.1 < r.heap.next) (hbuiltIn : ∀ a : Address, a.1 = 0 → a ∈ K) (o : Obj Doc) :
    Alike (SamePlace K r r') (r.parse o).2 (r'.parse o).2 := by
  have hobj : ∀ a ∈ K, (r.parse o).2.obj a = r.obj a := fun a ha => obj_parse_old o (hold a ha).ne
  have hobj' : ∀ a ∈ K, (r'.parse o).2.obj a = r'.obj a := fun a ha =>
    obj_parse_old o ((hold a ha).trans_le hle).ne
  have hnew : ∀ {r : Realm} (p : List String), r.Confined T →
      (r.parse o).2.prototypeOf (r.heap.next, p) =
        some (if (Heap.textObj r.heap.next (.obj o) p).isArray then arrayPrototype
          else objectPrototype) := by
    intro r p hr
    rw [← obj_parse_new]
    exact prototypeOf_of_chosen hr.pos (hr.fresh (r.heap.next, p) le_rfl).2.2
  refine ⟨h.depth, h.accessor, ?_, ?_, ?_, ?_, ?_⟩
  · rintro a a' (ha | ⟨p, rfl, rfl⟩)
    · exact h.object ha
    · exact iff_of_false (ne_objectPrototype hr'.pos) (ne_objectPrototype hr.pos)
  · rintro a a' (ha | ⟨p, rfl, rfl⟩)
    · exact h.function ha
    · rw [isFunction_of_pos hr'.pos, isFunction_of_pos hr.pos]
  · rintro a a' (⟨rfl, ha⟩ | ⟨p, rfl, rfl⟩)
    · rw [hobj a' ha, hobj' a' ha]
      exact h.len ⟨rfl, ha⟩
    · rw [obj_parse_new, obj_parse_new]
      rfl
  · rintro a a' (⟨rfl, ha⟩ | ⟨p, rfl, rfl⟩) k
    · rw [hobj a' ha, hobj' a' ha]
      exact (h.props ⟨rfl, ha⟩ k).mono fun b b' hb => .inl hb
    · rw [obj_parse_new, obj_parse_new]
      show Paired _ (Heap.textVal _ _ _) (Heap.textVal _ _ _)
      unfold Heap.textVal
      split
      · rfl
      · exact .inr ⟨p ++ [k], rfl, rfl⟩
  · rintro a a' (⟨rfl, ha⟩ | ⟨p, rfl, rfl⟩)
    · rw [prototypeOf_congr (hobj a' ha) rfl, prototypeOf_congr (hobj' a' ha) rfl]
      have hprototype := h.prototype ⟨rfl, ha⟩
      generalize r.prototypeOf a' = q at hprototype ⊢
      generalize r'.prototypeOf a' = q' at hprototype ⊢
      cases hprototype with
      | none => exact .none
      | some hb => exact .some (.inl hb)
    · rw [hnew p hr, hnew p hr']
      refine .some (.inl ⟨rfl, hbuiltIn _ ?_⟩)
      split <;> rfl

end Realm

end Js
