import SyncEngine.Js.Double

/-!
# Sorted numbers

`values.sort((a, b) => a - b)`, and what is read off the sorted array.  Where there is a `NaN` among
the values, the comparisons contradict each other and the order is not specified; the results are
about the others.

The element at place `k` of a sorted array has at most `k` elements below it, and more than `k` that
are not above it (`HasRank`).  This says which value it is, however often values repeat.
-/

namespace Js

namespace Double

/-- `values.sort((a, b) => a - b)` -/
def sort (values : List Double) : List Double := values.insertionSort fun a b => a.le b

/-- `values.reduce((a, b) => a + b, 0)` -/
def sum (values : List Double) : Double := values.foldl add (finite 0)

/-- `x / n` -/
def divNat (x : Double) (n : ℕ) : Double :=
  match x with
  | .number (.some (.some q)) => finite (q / n)
  | x => x

/-- An element with `k` elements before it in the sorted array. -/
structure HasRank (values : List Double) (k : ℕ) (v : Double) : Prop where
  mem : v ∈ values
  below : values.countP (fun x => x.lt v) ≤ k
  upTo : k < values.countP (fun x => x.le v)

lemma le_refl {v : Double} (h : v ≠ .nan) : v.le v = true := by
  cases v with
  | nan => exact absurd rfl h
  | number x => exact decide_eq_true (Eq.le rfl)

lemma lt_eq_false_of_le {v w : Double} (h : v.le w = true) : w.lt v = false := by
  cases v with
  | nan => cases h
  | number x =>
    cases w with
    | nan => cases h
    | number y => exact decide_eq_false (not_lt.2 (of_decide_eq_true h))

lemma sort_perm (values : List Double) : (sort values).Perm values := List.perm_insertionSort _ _

lemma exists_numbers {values : List Double} (h : Double.nan ∉ values) :
    ∃ xs : List (WithBot (WithTop ℚ)), values = xs.map Double.number := by
  induction values with
  | nil => exact ⟨[], rfl⟩
  | cons v values ih =>
    obtain ⟨xs, rfl⟩ := ih (List.not_mem_of_not_mem_cons h)
    cases v with
    | nan => exact absurd List.mem_cons_self h
    | number x => exact ⟨x :: xs, rfl⟩

/-- Numbers are sorted by their values. -/
lemma pairwise_sort {values : List Double} (h : Double.nan ∉ values) :
    (sort values).Pairwise fun a b => a.le b = true := by
  obtain ⟨xs, rfl⟩ := exists_numbers h
  have hsort : sort (xs.map Double.number) = (xs.insertionSort (· ≤ ·)).map Double.number :=
    (List.map_insertionSort _ _ _ _ fun a _ b _ => decide_eq_true_iff.symm).symm
  rw [hsort, List.pairwise_map]
  exact (List.pairwise_insertionSort (· ≤ ·) xs).imp fun hle => decide_eq_true hle

/-- What stands at a place of a sorted list has its rank. -/
lemma hasRank_of_sorted {values : List Double} (h : Double.nan ∉ values)
    (hsorted : values.Pairwise fun a b => a.le b = true) {k : ℕ} {v : Double}
    (hv : values[k]? = some v) : HasRank values k v := by
  induction values generalizing k with
  | nil => cases hv
  | cons x values ih =>
    have hvalues := List.not_mem_of_not_mem_cons h
    obtain ⟨hfirst, hrest⟩ := List.pairwise_cons.1 hsorted
    cases k with
    | zero =>
      obtain rfl := Option.some.inj hv
      have hrefl : x.le x = true := le_refl (List.ne_of_not_mem_cons h).symm
      refine ⟨List.mem_cons_self, ?_, ?_⟩
      · refine (List.countP_eq_zero.2 fun y hy => ?_).le
        obtain rfl | hy := List.mem_cons.1 hy
        · simp [lt_eq_false_of_le hrefl]
        · simp [lt_eq_false_of_le (hfirst y hy)]
      · exact List.countP_pos_iff.2 ⟨x, List.mem_cons_self, hrefl⟩
    | succ k =>
      obtain ⟨hmem, hbelow, hupTo⟩ := ih hvalues hrest hv
      have hle : x.le v = true := hfirst v hmem
      refine ⟨List.mem_cons_of_mem _ hmem, ?_, ?_⟩
      · rw [List.countP_cons]
        split <;> omega
      · rw [List.countP_cons, if_pos hle]
        omega

lemma HasRank.of_perm {values values' : List Double} {k : ℕ} {v : Double}
    (h : HasRank values k v) (hp : values.Perm values') : HasRank values' k v :=
  ⟨hp.mem_iff.1 h.mem, hp.countP_eq _ ▸ h.below, hp.countP_eq _ ▸ h.upTo⟩

/-- **An element of the sorted array has the rank of its place.** -/
lemma hasRank_sort {values : List Double} (h : Double.nan ∉ values) {k : ℕ} {v : Double}
    (hv : (sort values)[k]? = some v) : HasRank values k v := by
  have hperm := sort_perm values
  have hsorted : nan ∉ sort values := fun hmem => h (hperm.mem_iff.1 hmem)
  exact (hasRank_of_sorted hsorted (pairwise_sort h) hv).of_perm hperm

end Double

end Js
