import SyncEngine.Js.Json

/-!
# Writing along a path

`Obj.walk f path o` goes down `o` along all segments of `path` but the last, replacing whatever
is not an object on the way by a fresh `{}`, and performs `f` on the object reached, with the
last segment as the name to act on.  The write is in place: the object at every step is the one
the parent holds, so a change below is a change of the parent.  An exception ends the walk and
leaves what was written before it.
-/

namespace Js

/-- The state an in-place step leaves, and the exception it ended with if it threw. -/
abbrev Written (σ : Type) : Type := σ × Option JsError

/-- A step that either succeeds or throws before it writes anything. -/
def attempt {σ : Type} (s : σ) : Except JsError σ → Written σ
  | .ok s' => (s', none)
  | .error e => (s, some e)

/-- Walk to the last segment of a path and act there. -/
def Obj.walk (f : String → Obj Doc → Written (Obj Doc)) : List String → Obj Doc → Written (Obj Doc)
  | [], o => (o, none)
  | [k], o => f k o
  | k :: ks, o =>
    match (o.get k).view with
    | .obj c =>
      let (c', e) := walk f ks c
      (o.put k (.obj c'), e)
    | .prim _ =>
      match o.assign k (.obj .empty) (Doc.obj .empty).toArrayLength with
      | .error e => (o, some e)
      | .ok o' =>
        let (c', e) := walk f ks .empty
        (o'.put k (.obj c'), e)

/-- `path.split('.')`, on characters. -/
def splitDots : List Char → List (List Char)
  | [] => [[]]
  | c :: cs =>
    if c = '.' then [] :: splitDots cs
    else match splitDots cs with
      | [] => [[c]]
      | w :: ws => (c :: w) :: ws

/-- `path.split('.')`. -/
def splitPath (path : String) : List String := (splitDots path.toList).map String.ofList

lemma splitDots_ne_nil (cs : List Char) : splitDots cs ≠ [] := by
  cases cs with
  | nil => simp [splitDots]
  | cons c cs =>
      rw [splitDots]
      split
      · simp
      · split <;> simp

lemma splitPath_ne_nil (path : String) : splitPath path ≠ [] := by
  simp [splitPath, splitDots_ne_nil]

example : splitPath "a..bc" = ["a", "", "bc"] := by decide

end Js
