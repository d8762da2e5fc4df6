import SyncEngine.Js.Object

/-!
# Byte buffers

A Node `Buffer` as a list of bytes, with the accesses that a binary format is written with:
unsigned integers of a given number of bytes, most significant byte first, written to and read
from an offset, and one buffer copied into another.  An access outside the buffer and a number
that does not fit in its field are `RangeError`s.

The laws follow the way a writer and a reader go through a buffer from the left.  A writer
finds behind what it has written the zeros of `alloc` (`writeUInt_alloc`, `copy_alloc`), a reader
finds at its offset the field that stands there (`readUInt_append`), and `bigEndian` and `number`
are inverse on numbers that fit (`number_bigEndian`) and on every field (`bigEndian_number`).
-/

namespace Js

/-- A buffer: its bytes. -/
abbrev Buffer := List UInt8

namespace Buffer

/-- `Buffer.alloc(n)`: `n` zero bytes. -/
def alloc (n : ℕ) : Buffer := List.replicate n 0

/-- The low `w` bytes of a number, most significant first. -/
def bigEndian : ℕ → ℕ → Buffer
  | 0, _ => []
  | w + 1, n => bigEndian w (n / 256) ++ [UInt8.ofNat n]

/-- The number that a field of bytes holds, most significant byte first. -/
def number (b : Buffer) : ℕ := b.foldl (fun n x => n * 256 + x.toNat) 0

/-- `buf.writeUInt8`, `writeUInt16BE`, `writeUInt32BE`: `w` bytes at an offset. -/
def writeUInt (w v offset : ℕ) (b : Buffer) : Except JsError Buffer :=
  if v < 256 ^ w ∧ offset + w ≤ b.length then
    .ok (b.take offset ++ bigEndian w v ++ b.drop (offset + w))
  else .error .rangeError

/-- `buf.readUInt8`, `readUInt16BE`, `readUInt32BE`: `w` bytes at an offset. -/
def readUInt (w offset : ℕ) (b : Buffer) : Except JsError ℕ :=
  if offset + w ≤ b.length then .ok (number ((b.drop offset).take w)) else .error .rangeError

/-- `source.copy(target, offset)`: as many bytes as the target has room for. -/
def copy (source target : Buffer) (offset : ℕ) : Buffer :=
  target.take offset ++ source.take (target.length - offset) ++
    target.drop (offset + source.length)

/-- `buf.subarray(start, stop)`. -/
def subarray (start stop : ℕ) (b : Buffer) : Buffer := (b.drop start).take (stop - start)

/-! ## Numbers and fields -/

@[simp] lemma length_alloc (n : ℕ) : (alloc n).length = n := by
  simp [alloc]

lemma alloc_add (n m : ℕ) : alloc (n + m) = alloc n ++ alloc m := by
  simp [alloc]

@[simp] lemma length_bigEndian (w n : ℕ) : (bigEndian w n).length = w := by
  induction w generalizing n with
  | zero => rfl
  | succ w ih => simp [bigEndian, ih]

lemma number_concat (b : Buffer) (x : UInt8) : number (b ++ [x]) = number b * 256 + x.toNat := by
  simp [number, List.foldl_append]

lemma number_lt (b : Buffer) : number b < 256 ^ b.length := by
  induction b using List.reverseRecOn with
  | nil => simp [number]
  | append_singleton b x ih =>
    have hx : x.toNat < 256 := x.toNat_lt
    rw [number_concat, List.length_append, List.length_singleton, pow_succ]
    omega

/-- A number that fits in its field is read back. -/
lemma number_bigEndian {w n : ℕ} (h : n < 256 ^ w) : number (bigEndian w n) = n := by
  induction w generalizing n with
  | zero =>
    have hn : n = 0 := by simpa using h
    simp [bigEndian, number, hn]
  | succ w ih =>
    have hq : n / 256 < 256 ^ w := Nat.div_lt_of_lt_mul (by rwa [pow_succ, mul_comm] at h)
    have hr : (UInt8.ofNat n).toNat = n % 256 := by simp
    rw [bigEndian, number_concat, ih hq, hr]
    omega

/-- A field is the one its number is written to. -/
lemma bigEndian_number {w : ℕ} {b : Buffer} (h : b.length = w) : bigEndian w (number b) = b := by
  subst h
  induction b using List.reverseRecOn with
  | nil => rfl
  | append_singleton b x ih =>
    have hx : x.toNat < 256 := x.toNat_lt
    have hq : (number b * 256 + x.toNat) / 256 = number b := by omega
    have hr : UInt8.ofNat (number b * 256 + x.toNat) = x := by
      apply UInt8.toNat_inj.1
      rw [UInt8.toNat_ofNat']
      show (number b * 256 + x.toNat) % 256 = x.toNat
      omega
    rw [number_concat, List.length_append, List.length_singleton, bigEndian, hq, hr, ih]

/-! ## Writing and reading from the left -/

/-- A step that does not throw hands its result on. -/
lemma ok_bind {α β : Type} (a : α) (f : α → Except JsError β) : (Except.ok a >>= f) = f a := rfl

/-- Writing a field behind what is written already. -/
lemma writeUInt_alloc {w v offset total m : ℕ} {written : Buffer} (h : v < 256 ^ w)
    (ho : written.length = offset) (ht : total = w + m) :
    writeUInt w v offset (written ++ alloc total) = .ok (written ++ bigEndian w v ++ alloc m) := by
  subst ho ht
  have hroom : written.length + w ≤ (written ++ alloc (w + m)).length := by
    simp only [List.length_append, length_alloc]
    omega
  rw [writeUInt, if_pos ⟨h, hroom⟩, List.take_left, alloc_add, ← List.append_assoc,
    List.drop_left' (by simp)]

/-- A number that does not fit is refused. -/
lemma writeUInt_of_le {w v : ℕ} (offset : ℕ) (b : Buffer) (h : 256 ^ w ≤ v) :
    writeUInt w v offset b = .error .rangeError :=
  if_neg fun hv => absurd hv.1 (by omega)

/-- Copying a buffer behind what is written already. -/
lemma copy_alloc {offset total m : ℕ} {source written : Buffer} (ho : written.length = offset)
    (ht : total = source.length + m) :
    copy source (written ++ alloc total) offset = written ++ source ++ alloc m := by
  subst ho ht
  have hroom : source.take ((written ++ alloc (source.length + m)).length - written.length) =
      source := by
    apply List.take_of_length_le
    simp only [List.length_append, length_alloc]
    omega
  rw [copy, hroom, List.take_left, alloc_add, ← List.append_assoc, List.drop_left' (by simp)]

/-- Reading the field that stands at the offset. -/
lemma readUInt_append {offset w : ℕ} (before : Buffer) {field : Buffer} (after : Buffer)
    (hb : before.length = offset) (hf : field.length = w) :
    readUInt w offset (before ++ (field ++ after)) = .ok (number field) := by
  have hin : offset + w ≤ (before ++ (field ++ after)).length := by
    simp only [List.length_append]
    omega
  rw [readUInt, if_pos hin, List.drop_left' hb, List.take_left' hf]

lemma subarray_append {start stop : ℕ} (before : Buffer) {field : Buffer} (after : Buffer)
    (hb : before.length = start) (hf : start + field.length = stop) :
    subarray start stop (before ++ (field ++ after)) = field := by
  rw [subarray, List.drop_left' hb, List.take_left' (by omega)]

/-- A buffer long enough begins with a field of any length. -/
lemma exists_field {w : ℕ} {b : Buffer} (h : w ≤ b.length) :
    ∃ field rest, field.length = w ∧ b = field ++ rest :=
  ⟨b.take w, b.drop w, by simp [h], (List.take_append_drop w b).symm⟩

end Buffer

end Js
