import Mathlib

/-!
# The order of texts with numerals in them

Texts are compared character by character, so a numeral in a text is compared by its first
digits and not by its value.  `numeral_le_iff` says what comes out for two numerals that stand
at the same place of two texts and are followed by one character below the digits: the smaller
number comes first if and only if it is at most the number that as many first digits of the
greater one make.  With equally many digits it always is (`leading_of_numDigits_le`); `9` and
`10` is the first case in which it is not.
-/

namespace Js

/-! ## Appended texts -/

/-- Texts that begin with equally long texts are compared by these first. -/
lemma append_lt_append_iff {α : Type} [LinearOrder α] {a b : List α} (x y : List α)
    (h : a.length = b.length) : a ++ x < b ++ y ↔ a < b ∨ a = b ∧ x < y := by
  induction a generalizing b with
  | nil =>
      obtain rfl := List.length_eq_zero_iff.mp h.symm
      simp
  | cons c a ih =>
      cases b with
      | nil => simp at h
      | cons d b =>
          have hab := ih (b := b) (by simpa using h)
          rw [List.cons_append, List.cons_append, List.cons_lt_cons_iff, List.cons_lt_cons_iff,
            hab, List.cons.injEq]
          tauto

lemma append_le_append_iff {α : Type} [LinearOrder α] {a b : List α} (x y : List α)
    (h : a.length = b.length) : a ++ x ≤ b ++ y ↔ a < b ∨ a = b ∧ x ≤ y := by
  rw [← not_lt, append_lt_append_iff y x h.symm]
  rcases lt_trichotomy a b with hab | rfl | hab
  · simp [hab, hab.ne', hab.not_gt]
  · simp
  · simp [hab, hab.ne', hab.not_gt]

/-! ## Digits -/

/-- How many digits the numeral of `n` has. -/
def numDigits (n : ℕ) : ℕ := (Nat.toDigits 10 n).length

/-- The number that the first `k` digits of `n` make. -/
def leading (k n : ℕ) : ℕ := n / 10 ^ (numDigits n - k)

lemma numDigits_pos (n : ℕ) : 0 < numDigits n := Nat.length_toDigits_pos

lemma numDigits_le_iff {n k : ℕ} (hk : 0 < k) : numDigits n ≤ k ↔ n < 10 ^ k :=
  Nat.length_toDigits_le_iff (by norm_num) hk

lemma numDigits_mono {v w : ℕ} (h : v ≤ w) : numDigits v ≤ numDigits w := by
  have hw : w < 10 ^ numDigits w := (numDigits_le_iff (numDigits_pos w)).mp le_rfl
  exact (numDigits_le_iff (numDigits_pos w)).mpr (h.trans_lt hw)

/-- All digits of a number make the number. -/
lemma leading_of_numDigits_le {k n : ℕ} (h : numDigits n ≤ k) : leading k n = n := by
  rw [leading, Nat.sub_eq_zero_of_le h, pow_zero, Nat.div_one]

lemma toDigits_injective {v w : ℕ} (h : Nat.toDigits 10 v = Nat.toDigits 10 w) : v = w := by
  rw [← Nat.ofDigitChars_ten_toDigits (n := v), h, Nat.ofDigitChars_ten_toDigits]

/-- The numeral without its last `j` digits is that of the quotient. -/
lemma toDigits_div_pow {n j : ℕ} (h : j < numDigits n) :
    ∃ r, r.length = j ∧ (∀ c ∈ r, c.isDigit = true) ∧
      Nat.toDigits 10 n = Nat.toDigits 10 (n / 10 ^ j) ++ r := by
  induction j with
  | zero => exact ⟨[], rfl, by simp, by simp⟩
  | succ j ih =>
      obtain ⟨r, hlen, hdigits, hr⟩ := ih (by omega)
      have hn : 10 ^ (j + 1) ≤ n :=
        not_lt.mp fun hlt => absurd ((numDigits_le_iff (Nat.succ_pos j)).mpr hlt) (by omega)
      have hq : 10 ≤ n / 10 ^ j :=
        (Nat.le_div_iff_mul_le (by positivity)).mpr (by rwa [← pow_succ'])
      refine ⟨(n / 10 ^ j % 10).digitChar :: r, by simp [hlen], ?_, ?_⟩
      · intro c hc
        rcases List.mem_cons.mp hc with rfl | hc
        · simpa [Nat.isDigit_digitChar] using Nat.mod_lt _ (by norm_num)
        · exact hdigits c hc
      · rw [hr, Nat.toDigits_of_base_le (by norm_num) hq, pow_succ, Nat.div_div_eq_div_mul]
        simp

lemma digitChar_lt_iff {v w : ℕ} (hv : v < 10) (hw : w < 10) :
    v.digitChar < w.digitChar ↔ v < w := by
  rw [Char.lt_def, UInt32.lt_iff_toNat_lt]
  change v.digitChar.toNat < w.digitChar.toNat ↔ v < w
  rw [Nat.toNat_digitChar_of_lt_ten hv, Nat.toNat_digitChar_of_lt_ten hw]
  omega

/-- Numerals of equally many digits are ordered as their numbers. -/
lemma toDigits_lt_iff {v w : ℕ} (h : numDigits v = numDigits w) :
    Nat.toDigits 10 v < Nat.toDigits 10 w ↔ v < w := by
  induction v using Nat.strong_induction_on generalizing w with
  | _ v ih =>
      have hten : v < 10 ↔ w < 10 := by
        rw [← pow_one 10, ← numDigits_le_iff one_pos, ← numDigits_le_iff one_pos, h]
      by_cases hv : v < 10
      · have hw := hten.mp hv
        rw [Nat.toDigits_of_lt_base hv, Nat.toDigits_of_lt_base hw, List.cons_lt_cons_iff,
          digitChar_lt_iff hv hw]
        simp
      · have hw : ¬ w < 10 := fun hw => hv (hten.mpr hw)
        have hsplit {n : ℕ} (hn : ¬ n < 10) : Nat.toDigits 10 n =
            Nat.toDigits 10 (n / 10) ++ [(n % 10).digitChar] :=
          Nat.toDigits_of_base_le (by norm_num) (not_lt.mp hn)
        have hlen : numDigits (v / 10) = numDigits (w / 10) := by
          have hlength {n : ℕ} (hn : ¬ n < 10) : numDigits n = numDigits (n / 10) + 1 := by
            rw [numDigits, hsplit hn, List.length_append]
            rfl
          rw [hlength hv, hlength hw] at h
          exact Nat.succ_injective h
        have heq : Nat.toDigits 10 (v / 10) = Nat.toDigits 10 (w / 10) ↔ v / 10 = w / 10 :=
          ⟨toDigits_injective, fun h => by rw [h]⟩
        rw [hsplit hv, hsplit hw, append_lt_append_iff _ _ hlen, ih (v / 10) (by omega) hlen, heq,
          List.cons_lt_cons_iff,
          digitChar_lt_iff (Nat.mod_lt _ (by norm_num)) (Nat.mod_lt _ (by norm_num))]
        simp only [List.not_lt_nil, and_false, or_false]
        omega

/-! ## Numerals in texts -/

/-- The first digits of a numeral, and the digits after them. -/
lemma exists_leading {k n : ℕ} (hk : 0 < k) (h : k ≤ numDigits n) :
    ∃ r, r.length = numDigits n - k ∧ (∀ c ∈ r, c.isDigit = true) ∧
      numDigits (leading k n) = k ∧
      Nat.toDigits 10 n = Nat.toDigits 10 (leading k n) ++ r := by
  obtain ⟨r, hlen, hdigits, hr⟩ := toDigits_div_pow (n := n) (j := numDigits n - k) (by omega)
  refine ⟨r, hlen, hdigits, ?_, hr⟩
  have hsum : numDigits n = numDigits (leading k n) + r.length := by
    rw [numDigits, hr, List.length_append]
    rfl
  omega

/-- **The order of two numerals in a text.** -/
lemma numeral_le_iff {v w : ℕ} (hvw : v ≤ w) {c : Char} (hc : ∀ d, d.isDigit = true → c < d)
    (x y : List Char) : Nat.toDigits 10 v ++ c :: x ≤ Nat.toDigits 10 w ++ c :: y ↔
      v ≤ leading (numDigits v) w ∧ (v = w → x ≤ y) := by
  obtain ⟨r, hlen, hdigits, hnum, hr⟩ := exists_leading (numDigits_pos v) (numDigits_mono hvw)
  have heq : Nat.toDigits 10 v = Nat.toDigits 10 (leading (numDigits v) w) ↔
      v = leading (numDigits v) w := ⟨toDigits_injective, fun h => congrArg _ h⟩
  rw [hr, List.append_assoc, append_le_append_iff _ _ hnum.symm, toDigits_lt_iff hnum.symm, heq]
  cases r with
  | nil =>
      -- no further digits: the numbers have equally many
      have hw : leading (numDigits v) w = w :=
        leading_of_numDigits_le (Nat.sub_eq_zero_iff_le.mp hlen.symm)
      rw [hw, List.nil_append, ← not_lt (a := c :: y), List.cons_lt_cons_iff]
      simp only [lt_irrefl, true_and, false_or, not_lt]
      rcases hvw.lt_or_eq with hlt | rfl
      · simp [hlt, hlt.ne, hlt.le]
      · simp
  | cons d r =>
      have hne : v ≠ w := by
        rintro rfl
        simp at hlen
      have hlt : c :: x < d :: r ++ c :: y := by
        rw [List.cons_append, List.cons_lt_cons_iff]
        exact .inl (hc d (hdigits d (by simp)))
      simp only [hlt.le, hne, and_true, false_imp_iff]
      exact le_iff_lt_or_eq.symm

end Js
