import SyncEngine.Js.Heap
import SyncEngine.Js.Walk
import Mathlib.Logic.Relation

/-!
# Objects and what they inherit

A `Realm` is a heap in which property access is JavaScript's.  A property that an object does not
have is looked for on its prototype, and so on up; the plain objects end at the one
`Object.prototype`, the arrays at `Array.prototype` before it.  The name `__proto__` is an accessor
of `Object.prototype`: reading it yields the prototype of the object, and assigning an object to it
sets that prototype.

The built-in objects are those of the addresses that begin with `0`.  All of them but the two
prototypes are functions.

`Shared` are the objects that the built-in ones reach.  `Confined T` says of a set of objects that
nothing in it leads out of it; then what is found from an object of `T` is in `T` again
(`Confined.get`), and each step that is performed on one leaves everything outside as it was.
`Within` is that statement of a step, and it composes (`Within.trans`).
-/

namespace Js

/-! ## Built-in objects -/

def objectPrototype : Address := (0, ["Object"])

def arrayPrototype : Address := (0, ["Array"])

def functionPrototype : Address := (0, ["Function"])

/-- `typeof` gives `function`. -/
def isFunction (a : Address) : Bool := a.1 = 0 ∧ a ≠ objectPrototype ∧ a ≠ arrayPrototype

structure Realm where
  heap : Heap
  /-- The prototypes that were set through `__proto__`. -/
  chosen : Address → Option (Option Address)
  /-- `Object.prototype` has its accessor `__proto__`. -/
  accessor : Bool
  /-- How many prototypes a search follows. -/
  depth : ℕ

/-- What a search for a property ends at; data is found at some object, its home. -/
inductive Property
  | missing
  | data (home : Address) (v : Val)
  | accessor

namespace Realm

/-- The object at an address. -/
def obj (r : Realm) (a : Address) : Obj Val := r.heap.obj a

/-! ## Reading -/

/-- The prototype an object was made with. -/
def defaultPrototype (r : Realm) (a : Address) : Address :=
  if a = arrayPrototype ∨ a = functionPrototype then objectPrototype
  else if isFunction a then functionPrototype
  else if (r.obj a).isArray then arrayPrototype
  else objectPrototype

/-- `Object.getPrototypeOf(o)`. -/
def prototypeOf (r : Realm) (a : Address) : Option Address :=
  if a = objectPrototype then none else (r.chosen a).getD (some (r.defaultPrototype a))

/-- An object's own property. -/
def own (r : Realm) (k : String) (a : Address) : Property :=
  if isAbsent ((r.obj a).get k) then
    if r.accessor ∧ a = objectPrototype ∧ k = "__proto__" then .accessor else .missing
  else .data a ((r.obj a).get k)

/-- The property of an object or, failing that, of the first prototype that has one. -/
def find (r : Realm) (k : String) : ℕ → Address → Property
  | 0, a => r.own k a
  | n + 1, a =>
    match r.own k a with
    | .missing =>
      match r.prototypeOf a with
      | none => .missing
      | some b => find r k n b
    | p => p

def property (r : Realm) (a : Address) (k : String) : Property := r.find k r.depth a

/-- `o[k]`. -/
def get (r : Realm) (a : Address) (k : String) : Val :=
  match r.property a k with
  | .missing => .prim .absent
  | .data _ v => v
  | .accessor =>
    match r.prototypeOf a with
    | none => .prim .null
    | some b => .ref b

/-- The home of the method found under a name. -/
def method? (r : Realm) (a : Address) (k : String) : Option Address :=
  match r.property a k with
  | .data home (.ref f) => if isFunction f then some home else none
  | _ => none

/-! ## Conversion to numbers -/

/-- `ToLength` of a number. -/
def lengthOfNumber : Option ℚ → ℕ
  | some q => min q.floor.toNat 9007199254740991
  | none => 0

/-- `Number(o)` on an object; `fuel` bounds how deep nested arrays are followed. -/
def objectToNumber (r : Realm) : ℕ → Address → Except JsError (Option ℚ)
  | 0, _ => .ok none
  | fuel + 1, a =>
    match r.method? a "toString" with
    | none => .error .typeError
    | some home =>
      -- What `Object.prototype.toString` and a function's own one return is no number.
      if home = arrayPrototype ∧ (r.method? a "join").isSome then
        let length : Except JsError (Option ℚ) := match r.get a "length" with
          | .prim p => .ok p.toNumber
          | .ref b => objectToNumber r fuel b
        let element (i : ℕ) : Except JsError (Option ℚ) := match r.get a (toString i) with
          | .prim p => .ok p.elementNumber
          | .ref b => objectToNumber r fuel b
        match length.map lengthOfNumber with
        | .error e => .error e
        | .ok 0 => .ok (some 0)
        | .ok 1 => element 0
        | .ok n => ((List.range n).mapM element).map fun _ => none
      else .ok none

/-- `Number(v)`. -/
def toNumber (r : Realm) : Val → Except JsError (Option ℚ)
  | .prim p => .ok p.toNumber
  | .ref a => r.objectToNumber nestingLimit a

/-- `Number(v) || d`. -/
def numberOr (r : Realm) (v : Val) (d : ℚ) : Except JsError ℚ :=
  (r.toNumber v).map fun
    | some q => if q = 0 then d else q
    | none => d

/-- What a value is as an array length: an integer from `0` below `2 ^ 32`. -/
def toArrayLength (r : Realm) (v : Val) : Except JsError ℕ :=
  match r.toNumber v with
  | .error e => .error e
  | .ok none => .error .rangeError
  | .ok (some q) =>
    if q.den = 1 ∧ 0 ≤ q.num ∧ q.num < 4294967296 then .ok q.num.toNat else .error .rangeError

/-! ## Writing -/

def write (r : Realm) (a : Address) (o : Obj Val) : Realm := { r with heap := r.heap.write a o }

/-- A new object. -/
def place (r : Realm) (o : Obj Val) : Address × Realm :=
  ((r.heap.place o).1, { r with heap := (r.heap.place o).2 })

/-- An object made from a JSON text.  A name `__proto__` in it is a property like any other. -/
def parse (r : Realm) (o : Obj Doc) : Address × Realm :=
  ((r.heap.parse o).1, { r with heap := (r.heap.parse o).2 })

/-- A value made from a JSON text. -/
def parseValue (r : Realm) (d : Doc) : Val × Realm :=
  ((r.heap.parseValue d).1, { r with heap := (r.heap.parseValue d).2 })

/-- Whether `a` is met on the way up from an object. -/
def onChain (r : Realm) (a : Address) : ℕ → Address → Bool
  | 0, b => b = a
  | n + 1, b =>
    b = a ||
      match r.prototypeOf b with
      | none => false
      | some c => onChain r a n c

/-- `Object.setPrototypeOf(o, p)`. -/
def setPrototype (r : Realm) (a : Address) (p : Option Address) : Written Realm :=
  if r.prototypeOf a = p then (r, none)
  else if a = objectPrototype ∨ p.any (r.onChain a r.depth) then (r, some .typeError)
  else ({ r with chosen := Function.update r.chosen a (some p) }, none)

/-- `o[k] = v`. -/
def assign (r : Realm) (a : Address) (k : String) (v : Val) : Written Realm :=
  match r.property a k with
  | .accessor =>
    match v with
    | .ref b => r.setPrototype a (some b)
    | .prim .null => r.setPrototype a none
    | .prim _ => (r, none)
  | _ => attempt r (((r.obj a).assign k v (r.toArrayLength v)).map (r.write a))

/-- `o[k] = n` for a new object `n`. -/
def assignNew (r : Realm) (a : Address) (k : String) (n : Obj Val) : Written Realm :=
  (r.place n).2.assign a k (.ref (r.place n).1)

/-- `delete o[k]`. -/
def erase (r : Realm) (a : Address) (k : String) : Written Realm :=
  if r.accessor ∧ a = objectPrototype ∧ k = "__proto__" then ({ r with accessor := false }, none)
  else attempt r (((r.obj a).erase k).map (r.write a))

/-! ## A new realm -/

/-- The names under which the prototypes hold functions. -/
def builtInNames (a : Address) : List String :=
  if a = objectPrototype then
    ["constructor", "__defineGetter__", "__defineSetter__", "hasOwnProperty", "__lookupGetter__",
      "__lookupSetter__", "isPrototypeOf", "propertyIsEnumerable", "toString", "valueOf",
      "toLocaleString"]
  else if a = arrayPrototype then
    ["constructor", "at", "concat", "copyWithin", "fill", "find", "findIndex", "findLast",
      "findLastIndex", "lastIndexOf", "pop", "push", "reverse", "shift", "unshift", "slice",
      "sort", "splice", "includes", "indexOf", "join", "keys", "entries", "values", "forEach",
      "filter", "flat", "flatMap", "map", "every", "some", "reduce", "reduceRight",
      "toLocaleString", "toReversed", "toSorted", "toSpliced", "toString", "with"]
  else if a = functionPrototype then ["constructor", "apply", "bind", "call", "toString"]
  else []

/-- The built-in objects; what the functions have as properties is left out. -/
def builtIn (a : Address) : Obj Val where
  len := if a = arrayPrototype then some 0 else none
  props k := if a.1 = 0 ∧ k ∈ builtInNames a then .ref (0, a.2 ++ [k]) else .prim .absent

/-- The objects of a process at its start. -/
def initial (depth : ℕ) : Realm := ⟨⟨1, builtIn⟩, fun _ => none, true, depth⟩

/-! ## What an object leads to -/

variable {r r' r'' : Realm} {T : Set Address} {a b : Address} {k : String} {v : Val}

/-- An object has a property that is the other one, or inherits from it. -/
def Refers (r : Realm) (a b : Address) : Prop :=
  (∃ k, (r.obj a).props k = .ref b) ∨ r.prototypeOf a = some b

def Reaches (r : Realm) : Address → Address → Prop := Relation.ReflTransGen r.Refers

/-- The objects that a built-in one reaches. -/
def Shared (r : Realm) (b : Address) : Prop := ∃ c : Address, c.1 = 0 ∧ r.Reaches c b

lemma shared_of_builtIn (r : Realm) (ha : a.1 = 0) : r.Shared a := ⟨a, ha, .refl⟩

lemma Shared.refers (ha : r.Shared a) (hb : r.Refers a b) : r.Shared b := by
  obtain ⟨c, hc, hreach⟩ := ha
  exact ⟨c, hc, hreach.tail hb⟩

lemma isFunction_of_pos (ha : 0 < a.1) : isFunction a = false := by
  simp [isFunction, ha.ne']

lemma ne_objectPrototype (ha : 0 < a.1) : a ≠ objectPrototype := by
  rintro rfl
  exact lt_irrefl 0 ha

/-- A default prototype is built in. -/
lemma defaultPrototype_fst (r : Realm) (a : Address) : (r.defaultPrototype a).1 = 0 := by
  unfold defaultPrototype
  split_ifs <;> rfl

/-- The prototype of an object is the one that was set, or a built-in one. -/
lemma chosen_or_builtIn (h : r.prototypeOf a = some b) :
    a ≠ objectPrototype ∧ (r.chosen a = some (some b) ∨ b.1 = 0) := by
  unfold prototypeOf at h
  split at h
  · cases h
  next hobject =>
    refine ⟨hobject, ?_⟩
    cases hchosen : r.chosen a with
    | none =>
      rw [hchosen] at h
      obtain rfl := Option.some.inj h
      exact .inr (r.defaultPrototype_fst a)
    | some p =>
      rw [hchosen] at h
      exact .inl (congrArg some h)

/-! ## Sets that nothing leads out of -/

/-- The value is no object outside of `T`, and none that is yet to be made. -/
def Inside (T : Set Address) (r : Realm) : Val → Prop
  | .prim _ => True
  | .ref b => b ∈ T ∧ b.1 < r.heap.next

/-- Nothing leads out of `T`, which has the built-in objects and all that are yet to be made. -/
structure Confined (T : Set Address) (r : Realm) : Prop where
  pos : 0 < r.heap.next
  builtIn : ∀ a : Address, a.1 = 0 → a ∈ T
  fresh : ∀ a : Address, r.heap.next ≤ a.1 → a ∈ T ∧ r.obj a = .empty ∧ r.chosen a = none
  own : ∀ a ∈ T, (r.obj a).All (r.Inside T)
  chosen : ∀ a ∈ T, a ≠ objectPrototype → ∀ b, r.chosen a = some (some b) →
    0 < b.1 ∧ r.Inside T (.ref b)

/-- The objects there are lead to such objects only. -/
abbrev Closed (r : Realm) : Prop := r.Confined Set.univ

lemma inside_prim (T : Set Address) (r : Realm) (p : Prim) : r.Inside T (Slot.prim p) := trivial

lemma Inside.mono (hv : r.Inside T v) (hle : r.heap.next ≤ r'.heap.next) : r'.Inside T v := by
  cases v with
  | prim p => trivial
  | ref b => exact ⟨hv.1, hv.2.trans_le hle⟩

lemma Confined.inside_builtIn (hr : r.Confined T) (hb : b.1 = 0) : r.Inside T (.ref b) := by
  refine ⟨hr.builtIn b hb, ?_⟩
  rw [hb]
  exact hr.pos

lemma Confined.prototype (hr : r.Confined T) (ha : a ∈ T) (hb : r.prototypeOf a = some b) :
    r.Inside T (.ref b) := by
  obtain ⟨hobject, hchosen | hbuiltIn⟩ := chosen_or_builtIn hb
  · exact (hr.chosen a ha hobject b hchosen).2
  · exact hr.inside_builtIn hbuiltIn

lemma Confined.find (hr : r.Confined T) (n : ℕ) (ha : a ∈ T) {home : Address}
    (h : r.find k n a = .data home v) : r.Inside T v := by
  have hown : ∀ {c : Address}, c ∈ T → r.own k c = .data home v → r.Inside T v := by
    intro c hc hdata
    unfold Realm.own at hdata
    split at hdata
    · split at hdata <;> cases hdata
    · obtain ⟨rfl, rfl⟩ := Property.data.inj hdata
      exact (hr.own c hc).get (inside_prim T r) k
  induction n generalizing a with
  | zero => exact hown ha h
  | succ n ih =>
    rw [Realm.find] at h
    split at h
    · split at h
      · cases h
      next b hb => exact ih (hr.prototype ha hb).1 h
    · exact hown ha h

/-- **What is found from an object of `T` is in `T`.** -/
lemma Confined.get (hr : r.Confined T) (ha : a ∈ T) (k : String) : r.Inside T (r.get a k) := by
  unfold Realm.get
  split
  · trivial
  next hdata => exact hr.find _ ha hdata
  · split
    · trivial
    next b hb => exact hr.prototype ha hb

lemma Confined.refers_old (hr : r.Closed) (hb : r.Refers a b) : b.1 < r.heap.next := by
  obtain ⟨k, hk⟩ | hprototype := hb
  · have hinside := hr.own a (Set.mem_univ a) k
    rw [hk] at hinside
    exact hinside.2
  · exact (hr.prototype (Set.mem_univ a) hprototype).2

/-- What is reached from an object there is was there. -/
lemma Confined.reaches_old (hr : r.Closed) (ha : a.1 < r.heap.next) (hb : r.Reaches a b) :
    b.1 < r.heap.next := by
  induction hb with
  | refl => exact ha
  | tail _ hb _ => exact hr.refers_old hb

/-- In a closed realm it is enough that the references do not lead out. -/
lemma Confined.of_closed (hr : r.Closed) (hbuiltIn : ∀ a : Address, a.1 = 0 → a ∈ T)
    (hfresh : ∀ a : Address, r.heap.next ≤ a.1 → a ∈ T)
    (hrefers : ∀ a ∈ T, ∀ b, r.Refers a b → b ∈ T) : r.Confined T where
  pos := hr.pos
  builtIn := hbuiltIn
  fresh a ha := ⟨hfresh a ha, (hr.fresh a ha).2⟩
  own a ha k := by
    have hall := hr.own a (Set.mem_univ a) k
    cases hk : (r.obj a).props k with
    | prim p => trivial
    | ref b =>
      rw [hk] at hall
      exact ⟨hrefers a ha b (.inl ⟨k, hk⟩), hall.2⟩
  chosen a ha hobject b hb := by
    have hchosen := hr.chosen a (Set.mem_univ a) hobject b hb
    refine ⟨hchosen.1, hrefers a ha b (.inr ?_), hchosen.2.2⟩
    rw [prototypeOf, if_neg hobject, hb]
    rfl

/-- What is yet to be made, what is shared, and what the roots reach. -/
def domain (r : Realm) (roots : Set Address) : Set Address :=
  {b | r.heap.next ≤ b.1 ∨ r.Shared b ∨ ∃ a ∈ roots, r.Reaches a b}

lemma Confined.domain (hr : r.Closed) (roots : Set Address) : r.Confined (r.domain roots) := by
  refine .of_closed hr (fun a ha => .inr (.inl (shared_of_builtIn r ha))) (fun a ha => .inl ha) ?_
  rintro a (hfresh | hshared | ⟨c, hc, hreach⟩) b hb
  · -- An object that is yet to be made has no properties, and a built-in prototype.
    obtain ⟨-, hempty, hchosen⟩ := hr.fresh a hfresh
    obtain ⟨k, hk⟩ | hprototype := hb
    · rw [hempty] at hk
      cases hk
    · obtain ⟨-, hset | hbuiltIn⟩ := chosen_or_builtIn hprototype
      · rw [hchosen] at hset
        cases hset
      · exact .inr (.inl (shared_of_builtIn r hbuiltIn))
  · exact .inr (.inl (hshared.refers hb))
  · exact .inr (.inr ⟨c, hc, hreach.tail hb⟩)

/-! ## What a step may write -/

/-- Of the objects there were, only the ones named may have been written. -/
structure Effect (r r' : Realm) (targets : List Address) : Prop where
  next_le : r.heap.next ≤ r'.heap.next
  depth : r'.depth = r.depth
  accessor : objectPrototype ∉ targets → r'.accessor = r.accessor
  obj : ∀ c : Address, c.1 < r.heap.next → c ∉ targets → r'.obj c = r.obj c
  chosen : ∀ c : Address, c.1 < r.heap.next → c ∉ targets → r'.chosen c = r.chosen c

/-- A step on objects of `T`, after which still nothing leads out. -/
structure Within (T : Set Address) (r r' : Realm) (targets : List Address) : Prop
    extends Effect r r' targets where
  confined : r'.Confined T
  inside : ∀ c ∈ targets, c ∈ T

variable {targets targets' : List Address}

lemma Within.refl (hr : r.Confined T) (htargets : ∀ c ∈ targets, c ∈ T) :
    Within T r r targets where
  next_le := le_rfl
  depth := rfl
  accessor _ := rfl
  obj _ _ _ := rfl
  chosen _ _ _ := rfl
  confined := hr
  inside := htargets

lemma Within.trans (hfirst : Within T r r' targets) (hthen : Within T r' r'' targets') :
    Within T r r'' (targets ++ targets') where
  next_le := hfirst.next_le.trans hthen.next_le
  depth := hthen.depth.trans hfirst.depth
  accessor hmem := by
    rw [List.mem_append, not_or] at hmem
    exact (hthen.accessor hmem.2).trans (hfirst.accessor hmem.1)
  obj c hc hmem := by
    rw [List.mem_append, not_or] at hmem
    exact (hthen.obj c (hc.trans_le hfirst.next_le) hmem.2).trans (hfirst.obj c hc hmem.1)
  chosen c hc hmem := by
    rw [List.mem_append, not_or] at hmem
    exact (hthen.chosen c (hc.trans_le hfirst.next_le) hmem.2).trans (hfirst.chosen c hc hmem.1)
  confined := hthen.confined
  inside c hc := (List.mem_append.1 hc).elim (hfirst.inside c) (hthen.inside c)

lemma Confined.write (hr : r.Confined T) (ha : a.1 < r.heap.next) {o : Obj Val}
    (ho : a ∈ T → o.All (r.Inside T)) : (r.write a o).Confined T := by
  refine ⟨hr.pos, hr.builtIn, fun c hc => ?_, fun c hc => ?_, hr.chosen⟩
  · have hne : c ≠ a := by
      rintro rfl
      exact lt_irrefl _ (ha.trans_le hc)
    obtain ⟨hmem, hempty, hchosen⟩ := hr.fresh c hc
    exact ⟨hmem, (Function.update_of_ne hne _ _).trans hempty, hchosen⟩
  · show (Function.update r.heap.obj a o c).All (r.Inside T)
    by_cases hca : c = a
    · rw [hca, Function.update_self]
      exact ho (hca ▸ hc)
    · rw [Function.update_of_ne hca]
      exact hr.own c hc

lemma Within.write (hr : r.Confined T) (ha : r.Inside T (.ref a)) {o : Obj Val}
    (ho : o.All (r.Inside T)) : Within T r (r.write a o) [a] where
  next_le := le_rfl
  depth := rfl
  accessor _ := rfl
  obj _ _ hmem := Function.update_of_ne (List.ne_of_not_mem_cons hmem) _ _
  chosen _ _ _ := rfl
  inside _ hc := (List.mem_singleton.1 hc) ▸ ha.1
  confined := hr.write ha.2 fun _ => ho

lemma Within.attempt (hr : r.Confined T) (ha : r.Inside T (.ref a)) {o : Except JsError (Obj Val)}
    (ho : ∀ o', o = .ok o' → o'.All (r.Inside T)) :
    Within T r (attempt r (o.map (r.write a))).1 [a] := by
  cases o with
  | error e => exact .refl hr fun c hc => (List.mem_singleton.1 hc) ▸ ha.1
  | ok o' => exact .write hr ha (ho o' rfl)

/-- Objects made at addresses where there was none. -/
lemma Within.made (hr : r.Confined T) {f : Address → Obj Val}
    (hold : ∀ c : Address, c.1 ≠ r.heap.next → f c = r.obj c)
    (hnew : ∀ c : Address, c.1 = r.heap.next →
      (f c).All (Inside T { r with heap := ⟨r.heap.next + 1, f⟩ })) :
    Within T r { r with heap := ⟨r.heap.next + 1, f⟩ } [] where
  next_le := Nat.le_succ _
  depth := rfl
  accessor _ := rfl
  obj c hc _ := hold c hc.ne
  chosen _ _ _ := rfl
  inside c hc := by cases hc
  confined := by
    refine ⟨Nat.succ_pos _, hr.builtIn, fun c hc => ?_, fun c hc => ?_, fun c hc hobject b hb => ?_⟩
    · obtain ⟨hmem, hempty, hchosen⟩ := hr.fresh c ((Nat.le_succ _).trans hc)
      exact ⟨hmem, (hold c (Nat.lt_of_succ_le hc).ne').trans hempty, hchosen⟩
    · show (f c).All _
      by_cases hnext : c.1 = r.heap.next
      · exact hnew c hnext
      · rw [hold c hnext]
        exact fun k => (hr.own c hc k).mono (Nat.le_succ _)
    · obtain ⟨hpos, hinside⟩ := hr.chosen c hc hobject b hb
      exact ⟨hpos, hinside.mono (Nat.le_succ _)⟩

lemma Within.place (hr : r.Confined T) {o : Obj Val} (ho : o.All (r.Inside T)) :
    Within T r (r.place o).2 [] := by
  apply Within.made hr
  · intro c hc
    apply Function.update_of_ne
    rintro rfl
    exact hc rfl
  · intro c hc k
    show Inside T _ ((Function.update r.heap.obj (r.heap.next, []) o c).props k)
    by_cases hca : c = (r.heap.next, [])
    · rw [hca, Function.update_self]
      exact (ho k).mono (Nat.le_succ _)
    · rw [Function.update_of_ne hca]
      exact (hr.own c (hr.fresh c hc.ge).1 k).mono (Nat.le_succ _)

lemma Confined.inside_place (hr : r.Confined T) (o : Obj Val) :
    (r.place o).2.Inside T (.ref (r.place o).1) :=
  ⟨(hr.fresh (r.heap.next, []) le_rfl).1, Nat.lt_succ_self _⟩

lemma Within.parse (hr : r.Confined T) (o : Obj Doc) : Within T r (r.parse o).2 [] := by
  apply Within.made hr
  · exact fun c hc => if_neg hc
  · intro c hc k
    rw [if_pos hc]
    show Inside T _ (Heap.textVal _ _ _)
    unfold Heap.textVal
    split
    · trivial
    · exact ⟨(hr.fresh (r.heap.next, c.2 ++ [k]) le_rfl).1, Nat.lt_succ_self _⟩

lemma Within.parseValue (hr : r.Confined T) (d : Doc) : Within T r (r.parseValue d).2 [] := by
  unfold Realm.parseValue Heap.parseValue
  split
  · exact .refl hr fun c hc => by cases hc
  · exact .parse hr _

lemma Within.setPrototype (hr : r.Confined T) (ha : r.Inside T (.ref a)) {p : Option Address}
    (hp : ∀ b, p = some b → 0 < b.1 ∧ r.Inside T (.ref b)) :
    Within T r (r.setPrototype a p).1 [a] := by
  have hsame : Within T r r [a] := .refl hr fun c hc => (List.mem_singleton.1 hc) ▸ ha.1
  unfold Realm.setPrototype
  split_ifs
  · exact hsame
  · exact hsame
  · refine ⟨⟨le_rfl, rfl, fun _ => rfl, fun _ _ _ => rfl, fun c _ hmem => ?_⟩, ?_, hsame.inside⟩
    · exact Function.update_of_ne (List.ne_of_not_mem_cons hmem) _ _
    · refine ⟨hr.pos, hr.builtIn, fun c hc => ?_, hr.own, fun c hc hobject b hb => ?_⟩
      · have hne : c ≠ a := by
          rintro rfl
          exact lt_irrefl _ (ha.2.trans_le hc)
        obtain ⟨hmem, hempty, hchosen⟩ := hr.fresh c hc
        exact ⟨hmem, hempty, (Function.update_of_ne hne _ _).trans hchosen⟩
      · have hb' : Function.update r.chosen a (some p) c = some (some b) := hb
        by_cases hca : c = a
        · rw [hca, Function.update_self] at hb'
          exact hp b (Option.some.inj hb')
        · rw [Function.update_of_ne hca] at hb'
          exact hr.chosen c hc hobject b hb'

/-- **An assignment to an object of `T`.** -/
lemma Within.assign (hr : r.Confined T) (ha : r.Inside T (.ref a)) (k : String)
    (hv : r.Inside T v) (hpos : ∀ b, v = .ref b → 0 < b.1) :
    Within T r (r.assign a k v).1 [a] := by
  unfold Realm.assign
  split
  · split
    next b =>
      apply Within.setPrototype hr ha
      rintro c hc
      obtain rfl := Option.some.inj hc
      exact ⟨hpos b rfl, hv⟩
    · exact Within.setPrototype hr ha fun b hb => by cases hb
    · exact .refl hr fun c hc => (List.mem_singleton.1 hc) ▸ ha.1
  · apply Within.attempt hr ha
    intro o' ho'
    exact (hr.own a ha.1).assign (inside_prim T r) hv ho'

lemma Within.assignNew (hr : r.Confined T) (ha : r.Inside T (.ref a)) (k : String) {o : Obj Val}
    (ho : o.All (r.Inside T)) : Within T r (r.assignNew a k o).1 [a] := by
  have hplace := Within.place hr ho
  refine hplace.trans (.assign hplace.confined (ha.mono hplace.next_le) k (hr.inside_place o) ?_)
  rintro b hb
  obtain rfl := Val.ref.inj hb
  exact hr.pos

lemma Within.erase (hr : r.Confined T) (ha : r.Inside T (.ref a)) (k : String) :
    Within T r (r.erase a k).1 [a] := by
  unfold Realm.erase
  split
  next hobject =>
    obtain ⟨-, rfl, -⟩ := hobject
    refine ⟨⟨le_rfl, rfl, fun hmem => ?_, fun _ _ _ => rfl, fun _ _ _ => rfl⟩, ?_, ?_⟩
    · exact absurd List.mem_cons_self hmem
    · exact ⟨hr.pos, hr.builtIn, hr.fresh, hr.own, hr.chosen⟩
    · exact fun c hc => (List.mem_singleton.1 hc) ▸ ha.1
  · apply Within.attempt hr ha
    intro o' ho'
    exact (hr.own a ha.1).erase (inside_prim T r) ho'

lemma closed_initial (depth : ℕ) : (initial depth).Closed where
  pos := Nat.one_pos
  builtIn a _ := Set.mem_univ a
  fresh a ha := by
    have ha' : a.1 ≠ 0 := (Nat.one_pos.trans_le ha).ne'
    refine ⟨Set.mem_univ a, ?_, rfl⟩
    have harray : a ≠ arrayPrototype := by
      rintro rfl
      exact ha' rfl
    show builtIn a = Obj.empty
    simp [builtIn, Obj.empty, ha', harray]
  own a _ k := by
    show Inside _ _ (if _ then Val.ref (0, _) else _)
    split
    · exact ⟨Set.mem_univ _, Nat.one_pos⟩
    · trivial
  chosen _ _ _ _ hb := by cases hb

/-- Where no built-in object has been written, the shared objects are the built-in ones. -/
lemma builtIn_of_shared (h : ∀ a : Address, a.1 = 0 → r.obj a = builtIn a ∧ r.chosen a = none)
    (hb : r.Shared b) : b.1 = 0 := by
  obtain ⟨c, hc, hreach⟩ := hb
  induction hreach with
  | refl => exact hc
  | tail _ hb ih =>
    obtain ⟨hobj, hchosen⟩ := h _ ih
    obtain ⟨k, hk⟩ | hprototype := hb
    · rw [hobj] at hk
      simp only [builtIn] at hk
      split at hk
      · obtain rfl := Val.ref.inj hk
        rfl
      · cases hk
    · obtain ⟨-, hset | hbuiltIn⟩ := chosen_or_builtIn hprototype
      · rw [hchosen] at hset
        cases hset
      · exact hbuiltIn

/-! ## Own properties -/

/-- Away from the length of an array a property is what stands there. -/
lemma get_eq_props {o : Obj Val} (h : ¬ (o.isArray = true ∧ k = "length")) :
    o.get k = o.props k := by
  unfold Obj.get
  split
  next n hn =>
    rw [if_neg fun hk => h ⟨by simp [Obj.isArray, hn], hk⟩]
  next => rfl

lemma property_of_own (h : r.own k a ≠ .missing) : r.property a k = r.own k a := by
  unfold property
  cases r.depth with
  | zero => rfl
  | succ n =>
    rw [find]
    cases hown : r.own k a with
    | missing => exact absurd hown h
    | data home v => rfl
    | accessor => rfl

/-- An own property is what is read. -/
lemma get_of_present (h : isAbsent ((r.obj a).get k) = false) : r.get a k = (r.obj a).get k := by
  have hown : r.own k a = .data a ((r.obj a).get k) := by simp [own, h]
  rw [get, property_of_own (by rw [hown]; exact nofun), hown]

/-- Where nothing is read there is no own property, and no accessor. -/
lemma own_of_absent (h : isAbsent (r.get a k) = true) : r.own k a = .missing := by
  cases hown : r.own k a with
  | missing => rfl
  | data home v =>
    rw [get, property_of_own (by rw [hown]; exact nofun), hown] at h
    unfold own at hown
    split at hown
    · split at hown <;> cases hown
    next hpresent =>
      obtain ⟨-, rfl⟩ := Property.data.inj hown
      exact absurd h hpresent
  | accessor =>
    rw [get, property_of_own (by rw [hown]; exact nofun), hown] at h
    dsimp only at h
    split at h <;> simp [isAbsent, Slot.prim?] at h

lemma own_accessor (h : r.own k a = .accessor) : a = objectPrototype ∧ k = "__proto__" := by
  unfold own at h
  split at h
  · split at h
    next haccessor => exact haccessor.2
    next => cases h
  · cases h

lemma property_of_prototype_none (h : r.prototypeOf a = none) : r.property a k = r.own k a := by
  unfold property
  cases r.depth with
  | zero => rfl
  | succ n =>
    rw [find, h]
    cases r.own k a <;> rfl

lemma isAbsent_of_own (h : r.own k a = .missing) : isAbsent ((r.obj a).get k) = true := by
  unfold own at h
  split at h
  next habsent => exact habsent
  next => cases h

/-- An object is new: it has no properties, and no prototype was set for it. -/
structure Bare (r : Realm) (a : Address) : Prop where
  pos : 0 < a.1
  obj : r.obj a = .empty
  chosen : r.chosen a = none

/-- An object that no prototype was set for inherits from a built-in one. -/
lemma prototypeOf_of_chosen (hpos : 0 < a.1) (hchosen : r.chosen a = none) :
    r.prototypeOf a = some (if (r.obj a).isArray then arrayPrototype else objectPrototype) := by
  have hne : ∀ b : Address, b.1 = 0 → a ≠ b := by
    rintro b hb rfl
    exact hpos.ne' hb
  unfold prototypeOf defaultPrototype
  rw [if_neg (hne _ rfl), hchosen, isFunction_of_pos hpos]
  simp [hne arrayPrototype rfl, hne functionPrototype rfl]

/-- What a new plain object inherits is found at `Object.prototype`. -/
lemma Bare.find (h : r.Bare a) (n : ℕ) {home : Address} (hfind : r.find k n a = .data home v) :
    home = objectPrototype := by
  have hown : ∀ {c : Address}, r.own k c = .data home v → home = c := by
    intro c hdata
    unfold Realm.own at hdata
    split at hdata
    · split at hdata <;> cases hdata
    · exact (Property.data.inj hdata).1.symm
  have hmissing : r.own k a = .missing := by
    have hget : (r.obj a).get k = .prim .absent := by rw [h.obj]; rfl
    simp [Realm.own, hget, isAbsent, Slot.prim?, ne_objectPrototype h.pos]
  have hprototype : r.prototypeOf a = some objectPrototype := by
    rw [prototypeOf_of_chosen h.pos h.chosen, h.obj]
    rfl
  cases n with
  | zero =>
    rw [Realm.find, hmissing] at hfind
    cases hfind
  | succ n =>
    rw [Realm.find, hmissing] at hfind
    dsimp only at hfind
    rw [hprototype] at hfind
    dsimp only at hfind
    cases n with
    | zero => exact hown hfind
    | succ n =>
      rw [Realm.find] at hfind
      split at hfind
      · cases hfind
      · exact hown hfind

/-- **A new plain object is no array length.** -/
lemma Bare.toArrayLength (h : r.Bare a) : ∃ e, r.toArrayLength (.ref a) = .error e := by
  have hnumber : r.toNumber (.ref a) = .error .typeError ∨ r.toNumber (.ref a) = .ok none := by
    show r.objectToNumber (999 + 1) a = _ ∨ r.objectToNumber (999 + 1) a = _
    rw [objectToNumber]
    cases hmethod : r.method? a "toString" with
    | none => exact .inl rfl
    | some home =>
      have hhome : home ≠ arrayPrototype := by
        unfold method? at hmethod
        split at hmethod
        next hproperty =>
          split at hmethod
          · obtain rfl := Option.some.inj hmethod
            rw [h.find _ hproperty]
            decide
          · cases hmethod
        next => cases hmethod
      right
      simp [hhome]
  obtain hnumber | hnumber := hnumber
  · exact ⟨.typeError, by rw [Realm.toArrayLength, hnumber]⟩
  · exact ⟨.rangeError, by rw [Realm.toArrayLength, hnumber]⟩

end Realm

end Js
