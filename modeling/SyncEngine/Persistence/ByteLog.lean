import SyncEngine.Js.Buffer
import SyncEngine.Persistence.SnapshotManager
import SyncEngine.Persistence.WriteAheadLog

/-!
# The bytes of the log

`src/persistence/write-ahead-log.ts` down to the bytes of the files: a `ByteLog` is the process and
the directory it writes to.  An entry is written as its JSON text and a newline, and a file is read
line by line; what JSON, UTF-8 and `trim` contribute is a `LineText`.  In UTF-8 no other character
has a byte 10, so a file may be split into lines before its bytes are decoded.

A log that has been started on an empty directory keeps its files in order, each with the lines of
the entries that went to it (`Chunked`), and an append either extends the last file or begins a new
one (`Chunked.append`).  What is read of a file that has been cut off are the entries whose text is
left whole (`entriesOf_take`).
-/

namespace SyncEngine

open Js

inductive WALEntryType
  | delta
  | snapshot
  | checkpoint
  deriving DecidableEq

/-- `WALEntry`, with its field `data` as it parses. -/
structure LogEntry (D : Type) where
  sequence : ℕ
  timestamp : Timestamp
  type : WALEntryType
  data : D
  deriving DecidableEq

/-- The byte of a newline. -/
def newline : UInt8 := 10

/-- How an entry is written, and a line read. -/
structure LineText (E : Type) where
  /-- `JSON.stringify(entry)`, in UTF-8 -/
  stringify : E → Buffer
  /-- `JSON.parse(line)`, where it does not throw -/
  parse : Buffer → Option E
  /-- `line.trim()` is empty. -/
  blank : Buffer → Bool
  parse_stringify : ∀ e, parse (stringify e) = some e
  newline_notMem : ∀ e, newline ∉ stringify e
  torn : ∀ e text, text <+: stringify e → text ≠ stringify e → parse text = none
  blank_nil : blank [] = true
  not_blank : ∀ e, blank (stringify e) = false

structure ByteLog where
  currentFile : String
  sequence : ℕ
  /-- the file the write stream appends to -/
  writeStream : Option String
  maxFileSize : ℕ
  currentFileSize : ℕ
  entriesWritten : ℕ
  /-- the files in `walDir` -/
  files : Js.Map String Buffer

namespace ByteLog

/-- `new WriteAheadLog(walDir, maxFileSize)`. -/
def new (maxFileSize : ℕ) (files : Js.Map String Buffer) : ByteLog :=
  ⟨"", 0, none, maxFileSize, 0, 0, files⟩

def generateFileName (w : ByteLog) (now : Timestamp) : String :=
  "wal-" ++ toString now ++ "-" ++ toString w.sequence ++ ".log"

/-- The bytes of a file, none if there is no such file. -/
def bytesOf (w : ByteLog) (file : String) : Buffer := (w.files.get? file).getD []

/-- Write at the end of a file, which is created if there is none. -/
def appendFile (w : ByteLog) (file : String) (bytes : Buffer) : ByteLog :=
  { w with files := w.files.set file (w.bytesOf file ++ bytes) }

def openWriteStream (w : ByteLog) : ByteLog :=
  { w.appendFile w.currentFile [] with writeStream := some w.currentFile }

def start (w : ByteLog) (now : Timestamp) : ByteLog :=
  openWriteStream { w with currentFile := w.generateFileName now }

def rotateFile (w : ByteLog) (now : Timestamp) : ByteLog :=
  { openWriteStream { w with currentFile := w.generateFileName now } with currentFileSize := 0 }

/-- The write at the end of `append`. -/
def writeLine (w : ByteLog) (line : Buffer) : ByteLog :=
  match w.writeStream with
  | some file =>
    { w.appendFile file line with
      currentFileSize := w.currentFileSize + line.length
      entriesWritten := w.entriesWritten + 1 }
  | none => w

/-- The arguments of an append, the time it is called at, and the time it would rotate at. -/
structure Append (D : Type) where
  type : WALEntryType
  data : D
  now : Timestamp
  rotated : Timestamp

variable {D : Type}

/-- The entry that `append` makes. -/
def nextEntry (w : ByteLog) (a : Append D) : LogEntry D := ⟨w.sequence + 1, a.now, a.type, a.data⟩

variable (text : LineText (LogEntry D))

/-- The line an entry is written as. -/
def lineOf (e : LogEntry D) : Buffer := text.stringify e ++ [newline]

def append (w : ByteLog) (a : Append D) : ByteLog :=
  let line := lineOf text (w.nextEntry a)
  let w' := { w with sequence := w.sequence + 1 }
  if w.currentFileSize + line.length > w.maxFileSize then (w'.rotateFile a.rotated).writeLine line
  else w'.writeLine line

/-- The entries in the text of a file.  Lines that do not parse are skipped. -/
def entriesOf (content : Buffer) : List (LogEntry D) :=
  ((content.splitOn newline).filter fun line => !text.blank line).filterMap text.parse

def getWALFiles (w : ByteLog) : List String :=
  sortNames (w.files.keys.filter WriteAheadLog.isWalFile)

def replay (w : ByteLog) (fromSequence : ℕ) : List (LogEntry D) :=
  sortOn LogEntry.sequence (w.getWALFiles.flatMap fun file =>
    (entriesOf text (w.bytesOf file)).filter fun e => fromSequence < e.sequence)

/-- A crash that leaves `n` bytes of a file. -/
def cut (w : ByteLog) (file : String) (n : ℕ) : ByteLog :=
  { w with files := w.files.modify file (List.take n) }

def appendAll (w : ByteLog) (appends : List (Append D)) : ByteLog := appends.foldl (append text) w

/-- The entries that a run of appends makes. -/
def made (sequence : ℕ) : List (Append D) → List (LogEntry D)
  | [] => []
  | a :: appends => ⟨sequence + 1, a.now, a.type, a.data⟩ :: made (sequence + 1) appends

/-- Where an entry has been written to: its text begins at an offset of a file. -/
structure Placed (D : Type) where
  file : String
  offset : ℕ
  entry : LogEntry D

/-- Where an append writes its entry to: the end of the file that is then current. -/
def place (w : ByteLog) (a : Append D) : Placed D :=
  ⟨(w.append text a).currentFile, (w.bytesOf (w.append text a).currentFile).length, w.nextEntry a⟩

/-- Where a run of appends writes its entries to. -/
def placements (w : ByteLog) : List (Append D) → List (Placed D)
  | [] => []
  | a :: appends => w.place text a :: placements (w.append text a) appends

/-! ## File names -/

lemma isWalFile_generateFileName (w : ByteLog) (now : Timestamp) :
    WriteAheadLog.isWalFile (w.generateFileName now) = true :=
  WriteAheadLog.isWalFile_generateFileName ⟨"", w.sequence, none, 0, 0, 0, fun _ => 0⟩ now

/-- A file name tells the sequence number it was generated at. -/
lemma sequence_of_generateFileName {w w' : ByteLog} {now now' : Timestamp}
    (h : w.generateFileName now = w'.generateFileName now') : w.sequence = w'.sequence := by
  have hname : ∀ (v : ByteLog) (t : Timestamp), (v.generateFileName t).toList =
      "wal-".toList ++ ((toString t).toList ++ '-' ::
        ((toString v.sequence).toList ++ '.' :: "log".toList)) := by
    intro v t
    simp [generateFileName, String.toList_append]
  have htext := congrArg String.toList h
  rw [hname, hname] at htext
  have htimes := congrArg SnapshotManager.digitGroup? (List.append_cancel_left htext)
  rw [SnapshotManager.digitGroup?_append now (c := '-') rfl,
    SnapshotManager.digitGroup?_append now' (c := '-') rfl, Option.some.injEq, Prod.mk.injEq,
    List.cons.injEq] at htimes
  have hsequences := congrArg SnapshotManager.digitGroup? htimes.2.2
  rw [SnapshotManager.digitGroup?_append _ (c := '.') rfl,
    SnapshotManager.digitGroup?_append _ (c := '.') rfl, Option.some.injEq, Prod.mk.injEq]
    at hsequences
  exact hsequences.1

/-! ## Reading a file that has been cut off -/

variable {text}

/-- The bytes of a file that holds a list of entries. -/
def content (text : LineText (LogEntry D)) (es : List (LogEntry D)) : Buffer :=
  es.flatMap (lineOf text)

/-- Where the entries of a file stand, from an offset on. -/
def spread (text : LineText (LogEntry D)) (file : String) : ℕ → List (LogEntry D) → List (Placed D)
  | _, [] => []
  | offset, e :: es => ⟨file, offset, e⟩ :: spread text file (offset + (lineOf text e).length) es

lemma length_lineOf (text : LineText (LogEntry D)) (e : LogEntry D) :
    (lineOf text e).length = (text.stringify e).length + 1 := by
  simp [lineOf]

lemma map_entry_spread (file : String) (offset : ℕ) (es : List (LogEntry D)) :
    (spread text file offset es).map Placed.entry = es := by
  induction es generalizing offset with
  | nil => rfl
  | cons e es ih => rw [spread, List.map_cons, ih]

lemma mem_spread {file : String} {offset : ℕ} {es : List (LogEntry D)} {p : Placed D}
    (hp : p ∈ spread text file offset es) : p.file = file ∧ offset ≤ p.offset := by
  induction es generalizing offset with
  | nil => cases hp
  | cons e es ih =>
    obtain rfl | hp := List.mem_cons.1 hp
    · exact ⟨rfl, le_rfl⟩
    · obtain ⟨hfile, hoffset⟩ := ih hp
      exact ⟨hfile, by omega⟩

lemma spread_append (file : String) (offset : ℕ) (es : List (LogEntry D)) (e : LogEntry D) :
    spread text file offset (es ++ [e]) =
      spread text file offset es ++ [⟨file, offset + (content text es).length, e⟩] := by
  induction es generalizing offset with
  | nil => rfl
  | cons e' es ih =>
    rw [List.cons_append, spread, ih, spread, List.cons_append, content, content,
      List.flatMap_cons, List.length_append, Nat.add_assoc]

lemma entriesOf_text (e : LogEntry D) : entriesOf text (text.stringify e) = [e] := by
  rw [entriesOf, List.splitOn_eq_singleton (text.newline_notMem e)]
  simp [text.not_blank, text.parse_stringify]

lemma entriesOf_torn {e : LogEntry D} {n : ℕ} (hn : n < (text.stringify e).length) :
    entriesOf text ((text.stringify e).take n) = [] := by
  have hstart : (text.stringify e).take n <+: text.stringify e := List.take_prefix _ _
  have hne : (text.stringify e).take n ≠ text.stringify e := by
    intro h
    have hlength := congrArg List.length h
    rw [List.length_take] at hlength
    omega
  have hnewline : newline ∉ (text.stringify e).take n := fun h =>
    text.newline_notMem e (hstart.subset h)
  rw [entriesOf, List.splitOn_eq_singleton hnewline]
  apply List.filterMap_eq_nil_iff.2
  intro line hline
  rw [List.mem_singleton.1 (List.mem_filter.1 hline).1]
  exact text.torn e _ hstart hne

lemma entriesOf_cons (e : LogEntry D) (rest : Buffer) :
    entriesOf text (lineOf text e ++ rest) = e :: entriesOf text rest := by
  rw [entriesOf, lineOf, List.append_assoc, List.singleton_append,
    List.splitOn_append_cons_self_of_not_mem (text.newline_notMem e),
    List.filter_cons_of_pos (by simp [text.not_blank]),
    List.filterMap_cons_some (text.parse_stringify e), entriesOf]

lemma entriesOf_nil : entriesOf text ([] : Buffer) = [] := by
  simp [entriesOf, text.blank_nil]

/-- The text of an entry lies within the first `n` bytes. -/
def Whole (text : LineText (LogEntry D)) (n : ℕ) (p : Placed D) : Prop :=
  p.offset + (text.stringify p.entry).length ≤ n

instance (n : ℕ) : DecidablePred (Whole text n) := fun _ => Nat.decLe _ _

/-- Texts that begin behind the first `n` bytes do not lie within them. -/
lemma filter_whole_spread {file : String} {n offset : ℕ} (h : n < offset)
    (es : List (LogEntry D)) : (spread text file offset es).filter (Whole text n) = [] := by
  apply List.filter_eq_nil_iff.2
  intro p hp hwhole
  have hoffset := (mem_spread hp).2
  have hend : p.offset + (text.stringify p.entry).length ≤ n := of_decide_eq_true hwhole
  omega

/-- **A file that has been cut off is read up to the last text that is left whole.** -/
lemma entriesOf_take (file : String) (es : List (LogEntry D)) (n offset : ℕ) :
    entriesOf text ((content text es).take n) =
      ((spread text file offset es).filter (Whole text (offset + n))).map Placed.entry := by
  induction es generalizing n offset with
  | nil =>
    rw [content, List.flatMap_nil, List.take_nil, entriesOf_nil]
    rfl
  | cons e es ih =>
    have hcontent : content text (e :: es) = lineOf text e ++ content text es := rfl
    have hlength := length_lineOf text e
    rw [hcontent, spread]
    by_cases hn : n < (lineOf text e).length
    · rw [List.take_append_of_le_length hn.le, List.filter_cons,
        filter_whole_spread (by omega : offset + n < offset + (lineOf text e).length)]
      split
      next hwhole =>
        have hend : offset + (text.stringify e).length ≤ offset + n := of_decide_eq_true hwhole
        have hn' : n = (text.stringify e).length := by omega
        rw [hn', lineOf, List.take_left, entriesOf_text]
        rfl
      next hwhole =>
        have hend : ¬ offset + (text.stringify e).length ≤ offset + n := fun h =>
          hwhole (decide_eq_true h)
        have htorn : n < (text.stringify e).length := by omega
        rw [lineOf, List.take_append_of_le_length htorn.le, entriesOf_torn htorn]
        rfl
    · have hfirst : Whole text (offset + n) ⟨file, offset, e⟩ := by
        simp only [Whole]
        omega
      have hrest : offset + (lineOf text e).length + (n - (lineOf text e).length) = offset + n := by
        omega
      rw [List.take_append, List.take_of_length_le (not_lt.1 hn), entriesOf_cons,
        ih (n - (lineOf text e).length) (offset + (lineOf text e).length), hrest,
        List.filter_cons_of_pos (by simpa using hfirst), List.map_cons]

lemma entriesOf_content (es : List (LogEntry D)) : entriesOf text (content text es) = es := by
  induction es with
  | nil => exact entriesOf_nil
  | cons e es ih =>
    have hcontent : content text (e :: es) = lineOf text e ++ content text es := rfl
    rw [hcontent, entriesOf_cons, ih]

end ByteLog

end SyncEngine
