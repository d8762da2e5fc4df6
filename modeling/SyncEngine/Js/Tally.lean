import SyncEngine.Js.Map

/-!
# Tallies

A map that is written to for one item after another: each item has a key, and is combined with the
value that the map has there.  The keys of the map are those of the items in the order in which
they first occur, and each value is what its own items make of the initial one (`entries_tally`).
-/

namespace Js

namespace Map

variable {K V W : Type} [DecidableEq K]

/-- The items under a key. -/
def itemsAt (key : K) (items : List (K × W)) : List W :=
  (items.filter fun e => e.1 = key).map Prod.snd

/-- The map that the items make, where `initial` stands for a value that is missing. -/
def tally (initial : V) (combine : V → W → V) (items : List (K × W)) : Map K V :=
  items.foldl (fun m e => m.set e.1 (combine ((m.get? e.1).getD initial) e.2)) empty

variable {initial : V} {combine : V → W → V} {key : K} {items : List (K × W)}

lemma tally_append (e : K × W) : tally initial combine (items ++ [e]) =
    (tally initial combine items).set e.1
      (combine (((tally initial combine items).get? e.1).getD initial) e.2) := by
  rw [tally, List.foldl_append]
  rfl

lemma itemsAt_append (e : K × W) : itemsAt key (items ++ [e]) =
    if e.1 = key then itemsAt key items ++ [e.2] else itemsAt key items := by
  rw [itemsAt, List.filter_append, List.map_append]
  split
  next h => simp [itemsAt, h]
  next h => simp [itemsAt, h]

lemma eraseDups_append_singleton (keys : List K) (key : K) : (keys ++ [key]).eraseDups =
    if key ∈ keys then keys.eraseDups else keys.eraseDups ++ [key] := by
  rw [List.eraseDups_append]
  split
  next h => simp [List.removeAll, h]
  next h => simp [List.removeAll, h, List.eraseDups_cons]

/-- The keys stand in the order in which they first occur. -/
lemma keys_tally (initial : V) (combine : V → W → V) (items : List (K × W)) :
    (tally initial combine items).keys = (items.map Prod.fst).eraseDups := by
  induction items using List.reverseRecOn with
  | nil => rfl
  | append_singleton items e ih =>
    rw [tally_append, List.map_append, List.map_singleton, eraseDups_append_singleton]
    have hmem : e.1 ∈ (tally initial combine items).keys ↔ e.1 ∈ items.map Prod.fst := by
      rw [ih, List.mem_eraseDups]
    split
    next h => rw [keys_set_of_mem _ _ (hmem.2 h), ih]
    next h => rw [keys_set_of_not_mem _ _ (mt hmem.1 h), ih]

/-- A value is what the items under its key make of the initial one. -/
lemma getD_tally (initial : V) (combine : V → W → V) (items : List (K × W)) (key : K) :
    ((tally initial combine items).get? key).getD initial =
      (itemsAt key items).foldl combine initial := by
  induction items using List.reverseRecOn with
  | nil => rfl
  | append_singleton items e ih =>
    rw [tally_append, get?_set, itemsAt_append]
    by_cases h : e.1 = key
    · rw [if_pos h.symm, if_pos h, Option.getD_some, List.foldl_append, h, ih]
      rfl
    · rw [if_neg (Ne.symm h), if_neg h, ih]

/-- **A tally has one entry for each key that occurs**, with all that its items come to. -/
lemma entries_tally (initial : V) (combine : V → W → V) (items : List (K × W)) :
    (tally initial combine items).entries = (items.map Prod.fst).eraseDups.map fun key =>
      (key, (itemsAt key items).foldl combine initial) := by
  rw [← keys_tally initial combine, keys, List.map_map]
  refine (List.map_id _).symm.trans (List.map_congr_left fun e he => ?_)
  have hget : (tally initial combine items).get? e.1 = some e.2 := (mem_entries_iff _ _ _).1 he
  have hvalue := getD_tally initial combine items e.1
  rw [hget, Option.getD_some] at hvalue
  rw [Function.comp_apply, ← hvalue]
  rfl

end Map

end Js
