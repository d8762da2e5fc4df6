import Mathlib

/-!
# Comparing strings by locale

`localeCompare` is a parameter: any comparison of strings that is total and transitive.  Sorting by
it gives one list for all the orders in which distinct keys can be listed, if it separates distinct
strings.
-/

namespace SyncEngine

/-- `localeCompare` of some locale: any two strings can be compared, and consistently so. -/
structure Collator where
  localeCompare : String → String → ℤ
  total : ∀ a b, localeCompare a b ≤ 0 ∨ localeCompare b a ≤ 0
  trans : ∀ a b c, localeCompare a b ≤ 0 → localeCompare b c ≤ 0 → localeCompare a c ≤ 0

/-- Distinct strings are told apart. -/
def Collator.Separates (collator : Collator) : Prop :=
  ∀ a b, collator.localeCompare a b ≤ 0 → collator.localeCompare b a ≤ 0 → a = b

lemma codePoints_le (a b : String) :
    (if a ≤ b then (if b ≤ a then (0 : ℤ) else -1) else 1) ≤ 0 ↔ a ≤ b := by
  split
  next h => exact iff_of_true (by split <;> omega) h
  next h => exact iff_of_false (by omega) h

/-- Strings compared by their code points. -/
def Collator.byCodePoint : Collator where
  localeCompare a b := if a ≤ b then (if b ≤ a then 0 else -1) else 1
  total a b := by
    obtain h | h := le_total a b
    · left
      rw [if_pos h]
      split <;> omega
    · right
      rw [if_pos h]
      split <;> omega
  trans a b c hab hbc := by
    rw [codePoints_le] at *
    exact hab.trans hbc

lemma Collator.byCodePoint_separates : Collator.byCodePoint.Separates := fun a b hab hba =>
  le_antisymm ((codePoints_le a b).1 hab) ((codePoints_le b a).1 hba)

namespace Collator

variable {V : Type}

/-- `entries.sort(([a], [b]) => a.localeCompare(b))`. -/
def sortEntries (collator : Collator) (entries : List (String × V)) : List (String × V) :=
  entries.insertionSort fun a b => collator.localeCompare a.1 b.1 ≤ 0

lemma sortEntries_perm (collator : Collator) (entries : List (String × V)) :
    (collator.sortEntries entries).Perm entries :=
  List.perm_insertionSort _ entries

lemma pairwise_sortEntries (collator : Collator) (entries : List (String × V)) :
    (collator.sortEntries entries).Pairwise fun a b => collator.localeCompare a.1 b.1 ≤ 0 := by
  have : Std.Total fun a b : String × V => collator.localeCompare a.1 b.1 ≤ 0 :=
    ⟨fun a b => collator.total a.1 b.1⟩
  have : IsTrans (String × V) fun a b => collator.localeCompare a.1 b.1 ≤ 0 :=
    ⟨fun a b c => collator.trans a.1 b.1 c.1⟩
  exact List.pairwise_insertionSort _ entries

/-- The order in which entries with distinct keys are listed does not matter. -/
lemma sortEntries_eq_of_perm {collator : Collator} (hsep : collator.Separates)
    {l m : List (String × V)} (hp : l.Perm m) (hm : (m.map Prod.fst).Nodup) :
    collator.sortEntries l = collator.sortEntries m := by
  have hperm : (collator.sortEntries l).Perm (collator.sortEntries m) :=
    ((collator.sortEntries_perm l).trans hp).trans (collator.sortEntries_perm m).symm
  refine List.Perm.eq_of_pairwise ?_ (collator.pairwise_sortEntries l)
    (collator.pairwise_sortEntries m) hperm
  intro a b ha hb hab hba
  have ha' : a ∈ m := hp.mem_iff.1 ((collator.sortEntries_perm l).mem_iff.1 ha)
  have hb' : b ∈ m := (collator.sortEntries_perm m).mem_iff.1 hb
  exact List.inj_on_of_nodup_map hm ha' hb' (hsep a.1 b.1 hab hba)

end Collator

end SyncEngine
