import Mathlib

/-!
# The most recent of a series

A bounded record drops its oldest element when a new one makes it too long (`keepRecent`).  What is
left after any series of additions is the end of the series (`foldl_keepRecent`).
-/

namespace Machine

variable {α : Type}

/-- `list.push(x); if (list.length > bound) list.shift()` -/
def keepRecent (bound : ℕ) (list : List α) (x : α) : List α :=
  let list := list ++ [x]
  if list.length > bound then list.tail else list

/-- The last `bound` elements of a list. -/
def recent (bound : ℕ) (list : List α) : List α := list.drop (list.length - bound)

@[simp] lemma recent_nil (bound : ℕ) : recent bound ([] : List α) = [] := List.drop_nil

lemma length_recent (bound : ℕ) (list : List α) :
    (recent bound list).length = min list.length bound := by
  rw [recent, List.length_drop]
  omega

lemma recent_eq_nil {bound : ℕ} (hbound : 0 < bound) {list : List α} :
    recent bound list = [] ↔ list = [] := by
  rw [← List.length_eq_zero_iff, length_recent, ← List.length_eq_zero_iff]
  omega

lemma keepRecent_recent (bound : ℕ) (list : List α) (x : α) :
    keepRecent bound (recent bound list) x = recent bound (list ++ [x]) := by
  have hlength := length_recent bound list
  unfold keepRecent
  dsimp only
  rw [List.length_append, hlength, List.length_singleton]
  unfold recent
  rw [List.length_append, List.length_singleton]
  split
  next hfull =>
    -- the oldest element goes
    have hnext : list.length + 1 - bound = list.length - bound + 1 := by omega
    rw [hnext, ← List.drop_append_of_le_length (by omega), ← List.drop_one, List.drop_drop]
  next hroom =>
    have hall : list.length - bound = 0 := by omega
    have hall' : list.length + 1 - bound = 0 := by omega
    rw [hall, hall', List.drop_zero, List.drop_zero]

/-- **A bounded record holds the end of the series.** -/
theorem foldl_keepRecent (bound : ℕ) (list : List α) :
    list.foldl (keepRecent bound) [] = recent bound list := by
  induction list using List.reverseRecOn with
  | nil => exact (recent_nil bound).symm
  | append_singleton list x ih =>
    rw [List.foldl_append, ih]
    exact keepRecent_recent bound list x

end Machine
