import SyncEngine.Js.Object

/-!
# Numbers with infinities and NaN

Numbers where every value a program can be given counts: metrics, thresholds and limits.  Finite
numbers are exact rationals, so sums are not rounded, and `-0` is `0`.
-/

namespace Js

/-- A number: `NaN`, or a rational or infinity. -/
inductive Double
  | nan
  | number (x : WithBot (WithTop ℚ))
  deriving DecidableEq

namespace Double

/-- A finite number. -/
def finite (q : ℚ) : Double := .number ((q : WithTop ℚ) : WithBot (WithTop ℚ))

/-- `x < y` -/
def lt : Double → Double → Bool
  | .number x, .number y => x < y
  | _, _ => false

/-- `x <= y` -/
def le : Double → Double → Bool
  | .number x, .number y => x ≤ y
  | _, _ => false

/-- `x === y` -/
def eq : Double → Double → Bool
  | .number x, .number y => x = y
  | _, _ => false

/-- `x + y` -/
def add : Double → Double → Double
  | .number x, .number y => if x = ⊥ ∧ y = ⊤ ∨ x = ⊤ ∧ y = ⊥ then .nan else .number (x + y)
  | _, _ => .nan

/-- `x || 0` -/
def orZero : Double → Double
  | .nan => finite 0
  | x => x

/-- The length of `new Array(x)`: a natural number below `2 ^ 32`, or there is no such array. -/
def arrayLength : Double → Except JsError ℕ
  | .number (.some (.some q)) =>
    if q.den = 1 ∧ 0 ≤ q.num ∧ q.num < 4294967296 then .ok q.num.toNat else .error .rangeError
  | _ => .error .rangeError

/-- What is not less is at least as much, `NaN` apart. -/
lemma le_of_not_lt {x y : Double} (hx : x ≠ .nan) (hy : y ≠ .nan) (h : x.lt y = false) :
    y.le x = true := by
  cases x with
  | nan => exact absurd rfl hx
  | number x =>
    cases y with
    | nan => exact absurd rfl hy
    | number y =>
      have hlt : ¬ x < y := by simpa only [lt, decide_eq_false_iff_not] using h
      simpa only [le, decide_eq_true_eq] using not_lt.1 hlt

lemma finite_ne_nan (q : ℚ) : finite q ≠ .nan := nofun

/-- What is at most a finite number is at most a larger one. -/
lemma le_finite_mono {x : Double} {p q : ℚ} (h : x.le (finite p) = true) (hpq : p ≤ q) :
    x.le (finite q) = true := by
  cases x with
  | nan => exact h
  | number x =>
    simp only [le, finite, decide_eq_true_eq] at h ⊢
    exact h.trans (WithBot.coe_le_coe.2 (WithTop.coe_le_coe.2 hpq))

end Double

end Js
