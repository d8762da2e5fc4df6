import SyncEngine.Core.Operation

/-!
# Memories of data objects

The engine never looks into an entity's data itself: it makes data objects from JSON texts,
hands operations to them, and writes them out again.  `Memory` is that interface, so that the
engine is defined once over every way of holding the data.

`Cells` is the memory that holds each data object by value: the values inside a data object,
and the values operations carry, are documents of their own.  It is the right reading wherever
it does not matter that JavaScript places the value an operation carries in the data by
reference.
-/

namespace SyncEngine

open Js

/-- How data objects are held: `M` is the memory and `V` the type of values that operations
carry into it. -/
class Memory (M : Type) (V : outParam Type) where
  empty : M
  /-- A data object made from a JSON text. -/
  parse : M → Obj Doc → Ref × M
  /-- The contents of a data object. -/
  read : M → Ref → Obj Doc
  /-- An operation value made from a JSON text. -/
  parseValue : M → Doc → V × M
  /-- What an operation value is, seen from outside. -/
  readValue : M → V → Doc
  /-- A number as an operation value. -/
  number : ℚ → V
  /-- `StateManager.applyOperation`. -/
  applyOperation : M → Ref → DeltaOperation V → Written M
  /-- `StateSynchronizer.applyOperationToData`. -/
  applyOperationToData : M → Ref → DeltaOperation V → Written M

/-- A memory that gives back what was parsed into it, also when several texts are parsed one
after another. -/
class LawfulMemory (M : Type) (V : outParam Type) [Memory M V] : Prop where
  /-- What `parse` made keeps its contents while other texts are parsed. -/
  read_parse_list (m : M) (o : Obj Doc) (os : List (Obj Doc)) :
    Memory.read (os.foldl (fun m o => (Memory.parse m o).2) (Memory.parse m o).2)
      (Memory.parse m o).1 = o

/-- Operations made from a JSON text, one value after another. -/
def parseOperations {M V : Type} [Memory M V] (m : M) :
    List (DeltaOperation Doc) → List (DeltaOperation V) × M
  | [] => ([], m)
  | op :: ops =>
    let (value, m') := Memory.parseValue m op.value
    let (rest, m'') := parseOperations m' ops
    (⟨op.op, op.path, value⟩ :: rest, m'')

/-- A delta as a JSON text gives it back: a value that is undefined is left out of the text,
and read as undefined. -/
def writtenDelta {M V : Type} [Memory M V] (m : M) (delta : StateDelta V) : StateDelta Doc :=
  delta.map fun v => orUndefined (Memory.readValue m v).json

/-! ## Data objects held by value -/

/-- Data objects by address; `next` counts the object texts parsed so far. -/
structure Cells where
  next : ℕ
  cell : Ref → Obj Doc

namespace Cells

def empty : Cells := ⟨0, fun _ => .empty⟩

def parse (m : Cells) (o : Obj Doc) : Ref × Cells :=
  ((m.next, []), ⟨m.next + 1, Function.update m.cell (m.next, []) o⟩)

/-- Perform an in-place step on the object at an address. -/
def write (step : Obj Doc → Written (Obj Doc)) (m : Cells) (r : Ref) : Written Cells :=
  ({ m with cell := Function.update m.cell r (step (m.cell r)).1 }, (step (m.cell r)).2)

@[simp] lemma write_cell_self (step : Obj Doc → Written (Obj Doc)) (m : Cells) (r : Ref) :
    (write step m r).1.cell r = (step (m.cell r)).1 := by
  simp [write]

@[simp] lemma write_cell_of_ne (step : Obj Doc → Written (Obj Doc)) (m : Cells) {r q : Ref}
    (h : q ≠ r) : (write step m r).1.cell q = m.cell q := by
  simp [write, h]

@[simp] lemma write_snd (step : Obj Doc → Written (Obj Doc)) (m : Cells) (r : Ref) :
    (write step m r).2 = (step (m.cell r)).2 := rfl

end Cells

instance : Memory Cells Doc where
  empty := Cells.empty
  parse := Cells.parse
  read m r := m.cell r
  parseValue m d := (d, m)
  readValue _ d := d
  number q := .prim (.num q)
  applyOperation m r op := Cells.write (applyOperation op) m r
  applyOperationToData m r op := Cells.write (applyOperationToData op) m r

/-- Parsing only writes above the counter. -/
lemma Cells.cell_parse_foldl (os : List (Obj Doc)) (m : Cells) {n : ℕ} (h : n < m.next)
    (p : List String) :
    (os.foldl (fun m o => (Cells.parse m o).2) m).cell (n, p) = m.cell (n, p) := by
  induction os generalizing m with
  | nil => rfl
  | cons o os ih =>
      have hne : ((n, p) : Ref) ≠ (m.next, []) := by
        intro he
        cases he
        exact lt_irrefl _ h
      rw [List.foldl_cons, ih _ (Nat.lt_succ_of_lt h)]
      simp [Cells.parse, hne]

instance : LawfulMemory Cells Doc where
  read_parse_list m o os := by
    have h := Cells.cell_parse_foldl os (Cells.parse m o).2 (n := m.next) (Nat.lt_succ_self _) []
    calc ((os.foldl (fun m o => (Cells.parse m o).2) (Cells.parse m o).2).cell (m.next, []))
        = (Cells.parse m o).2.cell (m.next, []) := h
      _ = o := by simp [Cells.parse]

end SyncEngine
