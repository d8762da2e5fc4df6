import Mathlib

/-!
# Rounded products

`Math.floor(count * 0.95)` for a natural number `count`.  Neither `0.95` nor the product is a double
in general: the factor is the double next to it, `m / 2 ^ 52`, and the product is rounded to 53
significant bits, ties to even.  A factor that is a little too small would make the floor of a whole
product one too small; the rounding of the product makes up for it (`floorTimes_eq`).
-/

namespace Js

/-- How many of its low bits an integer loses as a double. -/
def lostBits (p : ℕ) : ℕ := p.log2 + 1 - 53

/-- The double next to an integer. -/
def roundDouble (p : ℕ) : ℕ :=
  let q := p / 2 ^ lostBits p
  let r := p % 2 ^ lostBits p
  if 2 * r > 2 ^ lostBits p ∨ 2 * r = 2 ^ lostBits p ∧ q % 2 = 1 then (q + 1) * 2 ^ lostBits p
  else q * 2 ^ lostBits p

/-- `Math.floor(n * x)`, where the double `x` is `m / 2 ^ 52`. -/
def floorTimes (n m : ℕ) : ℕ := roundDouble (n * m) / 2 ^ 52

lemma dvd_roundDouble (p : ℕ) : 2 ^ lostBits p ∣ roundDouble p := by
  unfold roundDouble
  dsimp only
  split
  · exact Dvd.intro_left _ rfl
  · exact Dvd.intro_left _ rfl

/-- Rounding goes half the way to the next double at most. -/
lemma roundDouble_near (p : ℕ) :
    2 * p ≤ 2 * roundDouble p + 2 ^ lostBits p ∧ 2 * roundDouble p ≤ 2 * p + 2 ^ lostBits p := by
  have hp := Nat.div_add_mod p (2 ^ lostBits p)
  have hr := Nat.mod_lt p (Nat.two_pow_pos (lostBits p))
  rw [Nat.mul_comm] at hp
  unfold roundDouble
  dsimp only
  split
  next hup =>
    rw [Nat.add_mul, Nat.one_mul]
    omega
  next hdown => omega

lemma lt_of_lostBits (p : ℕ) : p < 2 ^ 53 * 2 ^ lostBits p := by
  rw [← Nat.pow_add]
  refine Nat.lt_log2_self.trans_le (Nat.pow_le_pow_right (by decide) ?_)
  unfold lostBits
  omega

lemma lostBits_le {p k : ℕ} (h : p < 2 ^ (53 + k)) : lostBits p ≤ k := by
  by_cases hp : p = 0
  · simp [hp, lostBits]
  · have hlog := (Nat.log2_lt hp).2 h
    unfold lostBits
    omega

variable {n m a e : ℕ}

/-- **The floor of a rounded product.**  For a factor a little below `a / 100`, and counts up to ten
thousand, it is the floor of the exact product. -/
theorem floorTimes_eq (hm : m * 100 + e = a * 2 ^ 52) (he : 4 * e < a) (ha : a ≤ 100)
    (hn : n ≤ 10000) : floorTimes n m = n * a / 100 := by
  have hexact : n * m * 100 + n * e = n * a * 2 ^ 52 := by
    rw [Nat.mul_assoc, ← Nat.mul_add, hm, Nat.mul_assoc]
  have hlow : n * e ≤ 250000 := (Nat.mul_le_mul hn (show e ≤ 25 by omega)).trans (by decide)
  have hhigh : n * a ≤ 1000000 := (Nat.mul_le_mul hn ha).trans (by decide)
  have hbits : lostBits (n * m) ≤ 13 := lostBits_le (by omega)
  have hpower : 2 ^ lostBits (n * m) ≤ 8192 := Nat.pow_le_pow_right (by decide) hbits
  obtain ⟨hfrom, hto⟩ := roundDouble_near (n * m)
  have hlt := lt_of_lostBits (n * m)
  unfold floorTimes
  set p := n * m
  set R := roundDouble p
  set step := 2 ^ lostBits p
  obtain hwhole | hpart := Nat.eq_zero_or_pos (n * a % 100)
  · -- a whole product: the double above is nearer
    set k := n * a / 100
    have hk : n * a = 100 * k := by omega
    obtain ⟨d, hd⟩ : ∃ d, n * e = 100 * d := by
      have hdvd : 100 ∣ n * e := by omega
      exact hdvd
    have hp : p + d = k * 2 ^ 52 := by omega
    have hratio : 4 * d < k ∨ d = 0 := by
      have hcross : d * a = k * e := by
        have h100 : 100 * (d * a) = 100 * (k * e) := by
          rw [← Nat.mul_assoc, ← hd, ← Nat.mul_assoc, ← hk]
          ring
        omega
      obtain rfl | hdpos := Nat.eq_zero_or_pos d
      · exact .inr rfl
      · left
        by_contra hge
        have h4 : k * e * 4 ≤ d * e * 16 := by nlinarith
        nlinarith
    have hsmall : 2 * d < step := by
      have hstep : 0 < step := Nat.two_pow_pos _
      omega
    obtain ⟨c, hc⟩ : step ∣ R := dvd_roundDouble p
    obtain ⟨c', hc'⟩ : step ∣ k * 2 ^ 52 := by
      refine Dvd.dvd.mul_left (Nat.pow_dvd_pow 2 ?_) k
      omega
    have hge : c' ≤ c := by
      by_contra hless
      have hone : step * (c + 1) ≤ step * c' := Nat.mul_le_mul_left _ (by omega)
      rw [Nat.mul_add, Nat.mul_one] at hone
      omega
    have hle : k * 2 ^ 52 ≤ R := by
      rw [hc, hc']
      exact Nat.mul_le_mul_left _ hge
    omega
  · omega

end Js
