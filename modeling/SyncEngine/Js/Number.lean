import SyncEngine.Js.Object

/-!
# Conversion to numbers

`Number(v)` on every document: primitives by kind, strings by the numeric literal grammar,
objects through their string form.  A plain object's string form is no number; an array's is
its elements joined by commas, so an empty array converts to zero, an array with one element
converts like that element's string form, and any longer one contains a comma.  The conversion
throws where an object on the way has an own property `toString`, which hides the inherited
method.

`none` stands for `NaN`, and also for the infinities, which exact rationals do not have.
-/

namespace Js

/-! ## Numeric literals -/

/-- The characters trimmed from a numeric string. -/
def isSpace (c : Char) : Bool :=
  c.toNat ∈ [9, 10, 11, 12, 13, 32, 0xA0, 0x1680, 0x2028, 0x2029, 0x202F, 0x205F, 0x3000, 0xFEFF] ||
    (0x2000 ≤ c.toNat && c.toNat ≤ 0x200A)

/-- A string without the blanks at both ends. -/
def trim (cs : List Char) : List Char :=
  ((cs.dropWhile isSpace).reverse.dropWhile isSpace).reverse

/-- The value of a digit in radix 16. -/
def hexDigit? (c : Char) : Option ℕ :=
  if c.isDigit then some (c.toNat - '0'.toNat)
  else if 'a' ≤ c ∧ c ≤ 'f' then some (c.toNat - 'a'.toNat + 10)
  else if 'A' ≤ c ∧ c ≤ 'F' then some (c.toNat - 'A'.toNat + 10)
  else none

/-- The number a nonempty digit string writes in a radix of at most 16. -/
def radix? (b : ℕ) (cs : List Char) : Option ℚ :=
  if cs = [] then none
  else cs.foldl (fun acc c => match acc, hexDigit? c with
    | some n, some d => if d < b then some (n * b + d) else none
    | _, _ => none) (some 0)

/-- The digits before the first other character, and the rest. -/
def spanDigits (cs : List Char) : List Char × List Char :=
  (cs.takeWhile Char.isDigit, cs.dropWhile Char.isDigit)

/-- The value of an exponent part: nothing, or `e` with an optionally signed integer. -/
def exponent? : List Char → Option ℤ
  | [] => some 0
  | c :: cs =>
    if c = 'e' ∨ c = 'E' then
      match cs with
      | '-' :: ds => (digits? ds).map fun n => -(n : ℤ)
      | '+' :: ds => (digits? ds).map fun n => (n : ℤ)
      | ds => (digits? ds).map fun n => (n : ℤ)
    else none

/-- An unsigned decimal literal: digits with an optional fraction and exponent. -/
def decimal? (cs : List Char) : Option ℚ :=
  let (whole, rest) := spanDigits cs
  let (frac, rest) := match rest with
    | '.' :: ds => spanDigits ds
    | _ => ([], rest)
  if whole = [] ∧ frac = [] then none
  else (exponent? rest).map fun (e : ℤ) =>
    (Nat.ofDigitChars 10 (whole ++ frac) 0 : ℚ) * (10 : ℚ) ^ (e - (frac.length : ℤ))

/-- `Number(s)` on a string. -/
def numberOfString (s : String) : Option ℚ :=
  match trim s.toList with
  | [] => some 0
  | '0' :: 'x' :: ds | '0' :: 'X' :: ds => radix? 16 ds
  | '0' :: 'o' :: ds | '0' :: 'O' :: ds => radix? 8 ds
  | '0' :: 'b' :: ds | '0' :: 'B' :: ds => radix? 2 ds
  | '-' :: ds => (decimal? ds).map fun q => -q
  | '+' :: ds => decimal? ds
  | ds => decimal? ds

/-! ## Documents -/

/-- `Number(p)` on a primitive. -/
def Prim.toNumber : Prim → Option ℚ
  | .absent | .undefined => none
  | .null => some 0
  | .bool b => some (if b then 1 else 0)
  | .num q => some q
  | .str s => numberOfString s

/-- The number a primitive gives as the only element of an array, through its string form. -/
def Prim.elementNumber : Prim → Option ℚ
  | .absent | .undefined | .null => some 0
  | .bool _ => none
  | .num q => some q
  | .str s => numberOfString s

/-- `Number(o)` on an object; `fuel` bounds how deep nested arrays are followed. -/
def Obj.toNumber : ℕ → Obj Doc → Except JsError (Option ℚ)
  | 0, _ => .ok none
  | fuel + 1, o =>
    if !isAbsent (o.props "toString") then .error .typeError
    else match o.len with
      | none => .ok none
      | some n =>
        if !isAbsent (o.props "join") then .ok none
        else
          let element (i : ℕ) : Except JsError (Option ℚ) := match (o.props (toString i)).view with
            | .prim p => .ok p.elementNumber
            | .obj u => Obj.toNumber fuel u
          match n with
          | 0 => .ok (some 0)
          | 1 => element 0
          | n => ((List.range n).mapM element).map fun _ => none

/-- How deep nested arrays are followed by a conversion. -/
def nestingLimit : ℕ := 1000

/-- `Number(v)`. -/
def Doc.toNumber (d : Doc) : Except JsError (Option ℚ) :=
  match d.view with
  | .prim p => .ok p.toNumber
  | .obj o => o.toNumber nestingLimit

/-- `Number(v) || d`. -/
def Doc.numberOr (v : Doc) (d : ℚ) : Except JsError ℚ :=
  v.toNumber.map fun
    | some q => if q = 0 then d else q
    | none => d

/-- What a value is as an array length: an integer from `0` below `2 ^ 32`. -/
def Doc.toArrayLength (v : Doc) : Except JsError ℕ :=
  match v.toNumber with
  | .error e => .error e
  | .ok none => .error .rangeError
  | .ok (some q) =>
    if q.den = 1 ∧ 0 ≤ q.num ∧ q.num < 4294967296 then .ok q.num.toNat else .error .rangeError

/-- `v === w` on values of which no two are the same object. -/
def Doc.strictEq (v w : Doc) : Bool :=
  match v.view, w.view with
  | .prim p, .prim q => p = q
  | _, _ => false

@[simp] lemma Doc.toNumber_num (q : ℚ) : (Doc.prim (.num q)).toNumber = .ok (some q) := rfl

lemma Doc.numberOr_num (q d : ℚ) :
    (Doc.prim (.num q)).numberOr d = .ok (if q = 0 then d else q) := rfl

lemma Doc.numberOr_zero_num (q : ℚ) : (Doc.prim (.num q)).numberOr 0 = .ok q := by
  rw [Doc.numberOr_num]
  split
  next hzero => rw [hzero]
  next => rfl

example : numberOfString " -12.5e1 " = some (-125) := by decide +kernel

end Js
