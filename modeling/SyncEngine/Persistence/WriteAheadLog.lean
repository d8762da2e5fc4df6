import SyncEngine.Core.StateManager
import SyncEngine.Js.Sort

/-!
# The write-ahead log

`src/persistence/write-ahead-log.ts`.  The log is a directory of files, each a list of lines;
a line is the entry its text parses to, or nothing where the text does not parse.  The process
side is `WriteAheadLog`: the sequence counter, the file the stream is open on, and the size
counters that decide on rotation.  What an entry's line measures in bytes is a field, since the
texts themselves are not modelled.

`logged` collects every entry of the directory regardless of order.  It grows by exactly the
appended entry (`logged_append`), and `replay` is the part of it above a sequence number,
sorted (`replay_perm`, `pairwise_replay`).  Two consequences are used downstream: where the
entries carry distinct sequence numbers, `replay` returns them in the order of their numbers
(`replay_eq_of_perm`), and an append at or below the cut-off leaves `replay` as it was
(`replay_append_of_le`).
-/

namespace SyncEngine

open Js

/-- The field `data` of a log entry, as it parses.  A delta is an entry of type `delta`, a
version with its time one of type `checkpoint`. -/
inductive WALData
  | delta (d : StateDelta Doc)
  | checkpoint (version : ℕ) (timestamp : Timestamp)

structure WALEntry where
  sequence : ℕ
  timestamp : Timestamp
  data : WALData

/-- The delta an entry of type `delta` holds. -/
def WALEntry.delta? (e : WALEntry) : Option (StateDelta Doc) :=
  match e.data with
  | .delta d => some d
  | .checkpoint _ _ => none

/-- A line of a log file: the entry it parses to, if it parses. -/
abbrev Line := Option WALEntry

/-- The log directory: the lines of every file. -/
abbrev WalDir := Js.Map String (List Line)

structure WriteAheadLog where
  currentFile : String
  sequence : ℕ
  /-- The file the write stream appends to. -/
  writeStream : Option String
  maxFileSize : ℕ
  currentFileSize : ℕ
  entriesWritten : ℕ
  /-- The length in bytes of the line an entry is written as. -/
  lineBytes : WALEntry → ℕ

namespace WriteAheadLog

/-- `new WriteAheadLog(walDir, maxFileSize)`. -/
def new (maxFileSize : ℕ) (lineBytes : WALEntry → ℕ) : WriteAheadLog :=
  ⟨"", 0, none, maxFileSize, 0, 0, lineBytes⟩

def generateFileName (w : WriteAheadLog) (now : Timestamp) : String :=
  "wal-" ++ toString now ++ "-" ++ toString w.sequence ++ ".log"

/-- The lines of a file, none if there is no such file. -/
def linesOf (dir : WalDir) (file : String) : List Line := (dir.get? file).getD []

/-- Add lines at the end of a file, which is created if there is none. -/
def addLines (dir : WalDir) (file : String) (lines : List Line) : WalDir :=
  dir.set file (linesOf dir file ++ lines)

/-- `openWriteStream`: the file is opened for appending, and created if there is none. -/
def openWriteStream (w : WriteAheadLog) (dir : WalDir) : WriteAheadLog × WalDir :=
  ({ w with writeStream := some w.currentFile }, addLines dir w.currentFile [])

def start (w : WriteAheadLog) (dir : WalDir) (now : Timestamp) : WriteAheadLog × WalDir :=
  openWriteStream { w with currentFile := w.generateFileName now } dir

def rotateFile (w : WriteAheadLog) (dir : WalDir) (now : Timestamp) : WriteAheadLog × WalDir :=
  let (w', dir') := openWriteStream { w with currentFile := w.generateFileName now } dir
  ({ w' with currentFileSize := 0 }, dir')

/-- The entry that `append` makes. -/
def nextEntry (w : WriteAheadLog) (data : WALData) (now : Timestamp) : WALEntry :=
  ⟨w.sequence + 1, now, data⟩

/-- The write at the end of `append`. -/
def writeEntry (w : WriteAheadLog) (dir : WalDir) (entry : WALEntry) : WriteAheadLog × WalDir :=
  match w.writeStream with
  | some file =>
    ({ w with
        currentFileSize := w.currentFileSize + w.lineBytes entry
        entriesWritten := w.entriesWritten + 1 },
      addLines dir file [some entry])
  | none => (w, dir)

def append (w : WriteAheadLog) (dir : WalDir) (data : WALData) (now : Timestamp) :
    WriteAheadLog × WalDir :=
  let entry := w.nextEntry data now
  let w' := { w with sequence := w.sequence + 1 }
  if w.currentFileSize + w.lineBytes entry > w.maxFileSize then
    let (w'', dir') := w'.rotateFile dir now
    w''.writeEntry dir' entry
  else w'.writeEntry dir entry

/-- The test of `getWALFiles`. -/
def isWalFile (file : String) : Bool :=
  "wal-".toList.isPrefixOf file.toList && ".log".toList.isSuffixOf file.toList

def getWALFiles (dir : WalDir) : List String := sortNames (dir.keys.filter isWalFile)

/-- The entries of a file that lie above a sequence number, in file order. -/
def entriesAbove (dir : WalDir) (fromSequence : ℕ) (file : String) : List WALEntry :=
  (linesOf dir file).reduceOption.filter fun e => fromSequence < e.sequence

def replay (dir : WalDir) (fromSequence : ℕ) : List WALEntry :=
  sortOn WALEntry.sequence ((getWALFiles dir).flatMap (entriesAbove dir fromSequence))

/-! ## What the log contains -/

/-- Every entry in the directory, in no particular order. -/
def logged (dir : WalDir) : List WALEntry :=
  (getWALFiles dir).flatMap fun file => (linesOf dir file).reduceOption

lemma replay_perm (dir : WalDir) (k : ℕ) :
    (replay dir k).Perm ((logged dir).filter fun e => k < e.sequence) := by
  refine (sortOn_perm _ _).trans (List.Perm.of_eq ?_)
  rw [logged, List.filter_flatMap]
  rfl

lemma pairwise_replay (dir : WalDir) (k : ℕ) :
    (replay dir k).Pairwise fun a b => a.sequence ≤ b.sequence :=
  pairwise_sortOn _ _

/-- A log whose entries carry increasing sequence numbers is replayed in that order. -/
lemma replay_eq_of_perm {dir : WalDir} {l : List WALEntry} (hp : (logged dir).Perm l)
    (hl : l.Pairwise fun a b => a.sequence < b.sequence) (k : ℕ) :
    replay dir k = l.filter fun e => k < e.sequence := by
  refine sortOn_eq_of_perm ?_ (hl.filter _)
  have h : (getWALFiles dir).flatMap (entriesAbove dir k)
      = (logged dir).filter fun e => k < e.sequence := by
    rw [logged, List.filter_flatMap]
    rfl
  rw [h]
  exact hp.filter _

lemma isWalFile_generateFileName (w : WriteAheadLog) (now : Timestamp) :
    isWalFile (w.generateFileName now) = true := by
  simp only [isWalFile, generateFileName, String.toList_append, Bool.and_eq_true,
    List.isPrefixOf_iff_prefix, List.isSuffixOf_iff_suffix, List.append_assoc]
  refine ⟨List.prefix_append _ _, ?_⟩
  simp only [← List.append_assoc]
  exact List.suffix_append _ _

/-! ## What an append adds -/

lemma linesOf_addLines (dir : WalDir) (f g : String) (lines : List Line) :
    linesOf (addLines dir f lines) g = if g = f then linesOf dir f ++ lines else linesOf dir g := by
  unfold addLines
  rw [linesOf, Js.Map.get?_set]
  split <;> rfl

lemma keys_addLines (dir : WalDir) (f : String) (lines : List Line) :
    (addLines dir f lines).keys = if f ∈ dir.keys then dir.keys else dir.keys ++ [f] := by
  split
  next h => exact Js.Map.keys_set_of_mem dir _ h
  next h => exact Js.Map.keys_set_of_not_mem dir _ h

/-- Apart from the file written to, the directory lists the same files. -/
lemma getWALFiles_addLines_filter (dir : WalDir) (f : String) (lines : List Line) :
    (getWALFiles (addLines dir f lines)).filter (· ≠ f) = (getWALFiles dir).filter (· ≠ f) := by
  rw [getWALFiles, getWALFiles, ← sortNames_filter, ← sortNames_filter, keys_addLines]
  split
  · rfl
  · simp [List.filter_append]

lemma flatMap_filter_ne {β : Type} {f : String} {h : String → List β} (hf : h f = [])
    (l : List String) : (l.filter (· ≠ f)).flatMap h = l.flatMap h := by
  induction l with
  | nil => rfl
  | cons g l ih =>
      by_cases hg : g = f
      · rw [List.filter_cons_of_neg (by simp [hg]), ih, List.flatMap_cons, hg, hf, List.nil_append]
      · rw [List.filter_cons_of_pos (by simp [hg]), List.flatMap_cons, List.flatMap_cons, ih]

/-- Lines that hold no entry above the cut-off do not show in a replay. -/
lemma replay_addLines_of_le {lines : List Line} {k : ℕ}
    (h : ∀ e ∈ lines.reduceOption, e.sequence ≤ k) (dir : WalDir) (f : String) :
    replay (addLines dir f lines) k = replay dir k := by
  have hfilter : lines.reduceOption.filter (fun e => k < e.sequence) = [] := by
    rw [List.filter_eq_nil_iff]
    intro e he
    simpa using h e he
  have habove : entriesAbove (addLines dir f lines) k = entriesAbove dir k := by
    funext g
    rw [entriesAbove, linesOf_addLines]
    split
    next hg => rw [List.reduceOption_append, List.filter_append, hfilter, List.append_nil, hg]; rfl
    next => rfl
  rw [replay, replay, habove]
  congr 1
  by_cases hf : f ∈ dir.keys
  · rw [getWALFiles, getWALFiles, keys_addLines, if_pos hf]
  · have hnil : entriesAbove dir k f = [] := by
      have hget : dir.get? f = none := (Js.Map.get?_eq_none_iff dir f).2 hf
      simp [entriesAbove, linesOf, hget, List.reduceOption]
    rw [← flatMap_filter_ne hnil, ← flatMap_filter_ne hnil (getWALFiles dir),
      getWALFiles_addLines_filter]

/-- One file of a list gains lines, so the concatenation gains them. -/
lemma flatMap_perm_of_mem {β : Type} {f : String} {g h : String → List β} {extra : List β}
    (hne : ∀ x, x ≠ f → h x = g x) (hf : h f = g f ++ extra) {l : List String} (hl : l.Nodup)
    (hmem : f ∈ l) : (l.flatMap h).Perm (l.flatMap g ++ extra) := by
  induction l with
  | nil => cases hmem
  | cons x l ih =>
      rw [List.nodup_cons] at hl
      rw [List.flatMap_cons, List.flatMap_cons]
      by_cases hx : x = f
      · subst hx
        have htail : l.flatMap h = l.flatMap g := by
          rw [List.flatMap_def, List.flatMap_def]
          refine congrArg List.flatten (List.map_congr_left fun y hy => hne y ?_)
          rintro rfl
          exact hl.1 hy
        rw [hf, htail, List.append_assoc, List.append_assoc]
        exact List.Perm.append_left _ List.perm_append_comm
      · have hmem' : f ∈ l := (List.mem_cons.mp hmem).resolve_left fun h => hx h.symm
        rw [hne x hx, List.append_assoc]
        exact List.Perm.append_left _ (ih hl.2 hmem')

lemma logged_perm_keys (dir : WalDir) :
    (logged dir).Perm ((dir.keys.filter isWalFile).flatMap fun f =>
      (linesOf dir f).reduceOption) :=
  List.Perm.flatMap_right _ (sortNames_perm _)

/-- Adding lines to a log file adds their entries to the log. -/
lemma logged_addLines {f : String} (hf : isWalFile f = true) (dir : WalDir) (lines : List Line) :
    (logged (addLines dir f lines)).Perm (logged dir ++ lines.reduceOption) := by
  refine (logged_perm_keys _).trans (List.Perm.trans ?_
    ((logged_perm_keys dir).symm.append_right _))
  have hne : ∀ x, x ≠ f → (linesOf (addLines dir f lines) x).reduceOption
      = (linesOf dir x).reduceOption := by
    intro x hx
    rw [linesOf_addLines, if_neg hx]
  have hself : (linesOf (addLines dir f lines) f).reduceOption
      = (linesOf dir f).reduceOption ++ lines.reduceOption := by
    rw [linesOf_addLines, if_pos rfl, List.reduceOption_append]
  rw [keys_addLines]
  split
  next hmem =>
    exact flatMap_perm_of_mem hne hself (dir.nodup.filter _)
      (List.mem_filter.mpr ⟨hmem, hf⟩)
  next hmem =>
    have hget : linesOf dir f = [] := by
      rw [← Js.Map.get?_eq_none_iff] at hmem
      simp [linesOf, hmem]
    have hold : (dir.keys.filter isWalFile).flatMap
          (fun x => (linesOf (addLines dir f lines) x).reduceOption)
        = (dir.keys.filter isWalFile).flatMap (fun x => (linesOf dir x).reduceOption) := by
      rw [List.flatMap_def, List.flatMap_def]
      refine congrArg List.flatten (List.map_congr_left fun y hy => hne y ?_)
      rintro rfl
      exact hmem (List.mem_filter.mp hy).1
    have hone : [f].filter isWalFile = [f] := by simp [hf]
    rw [List.filter_append, List.flatMap_append, hold, hone, List.flatMap_cons, List.flatMap_nil,
      hself, hget, List.append_nil]
    exact List.Perm.refl _

/-- The stream is open on a file that `getWALFiles` lists. -/
def Open (w : WriteAheadLog) : Prop := ∃ f, w.writeStream = some f ∧ isWalFile f = true

lemma open_start (w : WriteAheadLog) (dir : WalDir) (now : Timestamp) : (w.start dir now).1.Open :=
  ⟨_, rfl, isWalFile_generateFileName w now⟩

lemma open_rotateFile (w : WriteAheadLog) (dir : WalDir) (now : Timestamp) :
    (w.rotateFile dir now).1.Open :=
  ⟨_, rfl, isWalFile_generateFileName w now⟩

lemma open_writeEntry {w : WriteAheadLog} (hw : w.Open) (dir : WalDir) (entry : WALEntry) :
    (w.writeEntry dir entry).1.Open := by
  obtain ⟨f, hf, hwal⟩ := hw
  exact ⟨f, by simp [writeEntry, hf], hwal⟩

lemma open_append {w : WriteAheadLog} (hw : w.Open) (dir : WalDir) (data : WALData)
    (now : Timestamp) : (w.append dir data now).1.Open := by
  simp only [append]
  split
  · exact open_writeEntry (open_rotateFile _ dir now) _ _
  · exact open_writeEntry (w := { w with sequence := w.sequence + 1 }) hw dir _

@[simp] lemma sequence_writeEntry (w : WriteAheadLog) (dir : WalDir) (entry : WALEntry) :
    (w.writeEntry dir entry).1.sequence = w.sequence := by
  unfold writeEntry
  split <;> rfl

@[simp] lemma sequence_append (w : WriteAheadLog) (dir : WalDir) (data : WALData)
    (now : Timestamp) : (w.append dir data now).1.sequence = w.sequence + 1 := by
  simp only [append]
  split <;> simp [rotateFile, openWriteStream]

@[simp] lemma sequence_start (w : WriteAheadLog) (dir : WalDir) (now : Timestamp) :
    (w.start dir now).1.sequence = w.sequence := rfl

lemma logged_openWriteStream {w : WriteAheadLog} (hw : isWalFile w.currentFile = true)
    (dir : WalDir) : (logged (w.openWriteStream dir).2).Perm (logged dir) := by
  have h := logged_addLines hw dir []
  rwa [List.reduceOption_nil, List.append_nil] at h

lemma logged_start (w : WriteAheadLog) (dir : WalDir) (now : Timestamp) :
    (logged (w.start dir now).2).Perm (logged dir) :=
  logged_openWriteStream (w := { w with currentFile := w.generateFileName now })
    (isWalFile_generateFileName w now) dir

lemma logged_writeEntry {w : WriteAheadLog} (hw : w.Open) (dir : WalDir) (entry : WALEntry) :
    (logged (w.writeEntry dir entry).2).Perm (logged dir ++ [entry]) := by
  obtain ⟨f, hf, hwal⟩ := hw
  simp only [writeEntry, hf]
  simpa using logged_addLines hwal dir [some entry]

/-- **An append adds its entry to the log**, whether or not it rotates the file. -/
lemma logged_append {w : WriteAheadLog} (hw : w.Open) (dir : WalDir) (data : WALData)
    (now : Timestamp) :
    (logged (w.append dir data now).2).Perm (logged dir ++ [w.nextEntry data now]) := by
  simp only [append]
  split
  · refine (logged_writeEntry (open_rotateFile _ dir now) _ _).trans (List.Perm.append_right _ ?_)
    exact logged_openWriteStream
      (w := { w with sequence := w.sequence + 1, currentFile := _ })
      (isWalFile_generateFileName { w with sequence := w.sequence + 1 } now) dir
  · exact logged_writeEntry (w := { w with sequence := w.sequence + 1 }) hw dir _

lemma replay_start (w : WriteAheadLog) (dir : WalDir) (now : Timestamp) (k : ℕ) :
    replay (w.start dir now).2 k = replay dir k :=
  replay_addLines_of_le (by simp) dir _

lemma replay_writeEntry_of_le {k : ℕ} {entry : WALEntry} (h : entry.sequence ≤ k)
    (w : WriteAheadLog) (dir : WalDir) :
    replay (w.writeEntry dir entry).2 k = replay dir k := by
  unfold writeEntry
  split
  · exact replay_addLines_of_le (by simpa using h) dir _
  · rfl

/-- **An append at or below the cut-off does not show in a replay.** -/
lemma replay_append_of_le {w : WriteAheadLog} {k : ℕ} (h : w.sequence + 1 ≤ k) (dir : WalDir)
    (data : WALData) (now : Timestamp) :
    replay (w.append dir data now).2 k = replay dir k := by
  simp only [append]
  split
  · rw [replay_writeEntry_of_le h]
    exact replay_addLines_of_le (by simp) dir _
  · exact replay_writeEntry_of_le h _ _

end WriteAheadLog

end SyncEngine
