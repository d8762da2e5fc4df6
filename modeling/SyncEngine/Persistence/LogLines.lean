import SyncEngine.Persistence.TornTail
import SyncEngine.Persistence.Lifetimes

/-!
# The lines of the log

What the bytes of the log show, line by line, is the log of `Persistence.WriteAheadLog`: an append
to the one shows as an append to the other (`Shows.append`), so that both are replayed to the same
entries (`replay_eq_replay`).
-/

namespace SyncEngine

open Js

def WALData.type : WALData → WALEntryType
  | .delta _ => .delta
  | .checkpoint _ _ => .checkpoint

def LogEntry.toWALEntry (e : LogEntry WALData) : WALEntry := ⟨e.sequence, e.timestamp, e.data⟩

def WALEntry.toLogEntry (e : WALEntry) : LogEntry WALData :=
  ⟨e.sequence, e.timestamp, e.data.type, e.data⟩

namespace ByteLog

variable (text : LineText (LogEntry WALData))

/-- The lines in the text of a file. -/
def linesIn (content : Buffer) : List Line :=
  ((content.splitOn newline).filter fun line => !text.blank line).map fun line =>
    (text.parse line).map LogEntry.toWALEntry

/-- What the bytes of a log show. -/
structure Shows (w : ByteLog) (log : WriteAheadLog × WalDir) : Prop where
  currentFile : log.1.currentFile = w.currentFile
  sequence : log.1.sequence = w.sequence
  writeStream : log.1.writeStream = w.writeStream
  maxFileSize : log.1.maxFileSize = w.maxFileSize
  currentFileSize : log.1.currentFileSize = w.currentFileSize
  lineBytes : log.1.lineBytes = fun e => (lineOf text e.toLogEntry).length
  files : log.2 = w.files.mapValues fun _ => linesIn text

variable {text} {w : ByteLog} {log : WriteAheadLog × WalDir}

lemma reduceOption_linesIn (content : Buffer) :
    (linesIn text content).reduceOption = (entriesOf text content).map LogEntry.toWALEntry := by
  rw [linesIn, entriesOf, List.reduceOption, List.filterMap_map, List.map_filterMap]
  rfl

lemma linesIn_nil : linesIn text ([] : Buffer) = [] := by
  simp [linesIn, text.blank_nil]

lemma linesIn_lineOf_append (e : LogEntry WALData) (rest : Buffer) :
    linesIn text (lineOf text e ++ rest) = some e.toWALEntry :: linesIn text rest := by
  rw [linesIn, lineOf, List.append_assoc, List.singleton_append,
    List.splitOn_append_cons_self_of_not_mem (text.newline_notMem e),
    List.filter_cons_of_pos (by simp [text.not_blank]), List.map_cons, text.parse_stringify]
  rfl

lemma linesIn_content (es : List (LogEntry WALData)) :
    linesIn text (content text es) = es.map fun e => some e.toWALEntry := by
  induction es with
  | nil => exact linesIn_nil
  | cons e es ih =>
    have hcontent : content text (e :: es) = lineOf text e ++ content text es := rfl
    rw [hcontent, linesIn_lineOf_append, ih, List.map_cons]

lemma Shows.get? (h : Shows text w log) (file : String) :
    log.2.get? file = (w.files.get? file).map (linesIn text) := by
  rw [h.files, Js.Map.get?_mapValues]

lemma Shows.keys (h : Shows text w log) : log.2.keys = w.files.keys := by
  rw [h.files, Js.Map.keys, Js.Map.mapValues, List.map_map]
  rfl

lemma Shows.linesOf (h : Shows text w log) (file : String) :
    WriteAheadLog.linesOf log.2 file = linesIn text (w.bytesOf file) := by
  rw [WriteAheadLog.linesOf, h.get?, bytesOf]
  cases w.files.get? file with
  | some bytes => rfl
  | none => exact linesIn_nil.symm

/-- Both logs are replayed to the same entries. -/
lemma Shows.replay (h : Shows text w log) (k : ℕ) :
    WriteAheadLog.replay log.2 k = (w.replay text k).map LogEntry.toWALEntry := by
  have habove : ∀ file, WriteAheadLog.entriesAbove log.2 k file =
      ((entriesOf text (w.bytesOf file)).filter fun e => k < e.sequence).map
        LogEntry.toWALEntry := by
    intro file
    rw [WriteAheadLog.entriesAbove, h.linesOf, reduceOption_linesIn, List.filter_map]
    rfl
  have hfiles : WriteAheadLog.getWALFiles log.2 = w.getWALFiles := by
    rw [WriteAheadLog.getWALFiles, h.keys, getWALFiles]
  have hsort := List.map_insertionSort (r := fun a b : LogEntry WALData => a.sequence ≤ b.sequence)
    (s := fun a b : WALEntry => a.sequence ≤ b.sequence) LogEntry.toWALEntry
    (w.getWALFiles.flatMap fun file =>
      (entriesOf text (w.bytesOf file)).filter fun e => k < e.sequence) fun _ _ _ _ => Iff.rfl
  rw [ByteLog.replay, sortOn, hsort, List.map_flatMap, WriteAheadLog.replay, hfiles, sortOn]
  congr 1
  exact List.flatMap_congr fun file _ => habove file

/-! ## The steps -/

/-- What is written at the end of a file shows at the end of its lines. -/
lemma Shows.addLines (h : Shows text w log) {file : String} {bytes : Buffer} {lines : List Line}
    (hlines : linesIn text (w.bytesOf file ++ bytes) = linesIn text (w.bytesOf file) ++ lines) :
    WriteAheadLog.addLines log.2 file lines =
      (w.appendFile file bytes).files.mapValues fun _ => linesIn text := by
  rw [appendFile, Js.Map.mapValues_set, hlines, ← h.linesOf, ← h.files]
  rfl

lemma Shows.openWriteStream (h : Shows text w log) :
    Shows text w.openWriteStream (log.1.openWriteStream log.2) where
  currentFile := h.currentFile
  sequence := h.sequence
  writeStream := congrArg some h.currentFile
  maxFileSize := h.maxFileSize
  currentFileSize := h.currentFileSize
  lineBytes := h.lineBytes
  files := by
    rw [WriteAheadLog.openWriteStream, h.currentFile]
    apply h.addLines
    rw [List.append_nil, List.append_nil]

lemma Shows.named (h : Shows text w log) (now : Timestamp) :
    Shows text { w with currentFile := w.generateFileName now }
      ({ log.1 with currentFile := log.1.generateFileName now }, log.2) := by
  refine ⟨?_, h.sequence, h.writeStream, h.maxFileSize, h.currentFileSize, h.lineBytes, h.files⟩
  rw [WriteAheadLog.generateFileName, h.sequence]
  rfl

lemma shows_start (maxFileSize : ℕ) (started : Timestamp) :
    Shows text ((new maxFileSize .empty).start started)
      ((WriteAheadLog.new maxFileSize fun e => (lineOf text e.toLogEntry).length).start .empty
        started) := by
  have hnew : Shows text (new maxFileSize .empty)
      (WriteAheadLog.new maxFileSize fun e => (lineOf text e.toLogEntry).length, .empty) :=
    ⟨rfl, rfl, rfl, rfl, rfl, rfl, rfl⟩
  exact (hnew.named started).openWriteStream

lemma Shows.rotateFile (h : Shows text w log) (now : Timestamp) :
    Shows text (w.rotateFile now) (log.1.rotateFile log.2 now) := by
  have hopened := (h.named now).openWriteStream
  exact ⟨hopened.currentFile, hopened.sequence, hopened.writeStream, hopened.maxFileSize, rfl,
    hopened.lineBytes, hopened.files⟩

lemma Shows.writeLine (h : Shows text w log) (es : List (LogEntry WALData))
    (hes : ∀ file, w.writeStream = some file → w.bytesOf file = content text es) (e : WALEntry) :
    Shows text (w.writeLine (lineOf text e.toLogEntry)) (log.1.writeEntry log.2 e) := by
  rw [ByteLog.writeLine, WriteAheadLog.writeEntry, h.writeStream]
  cases hstream : w.writeStream with
  | none => exact h
  | some file =>
    refine ⟨h.currentFile, h.sequence, hstream.symm, h.maxFileSize, ?_, h.lineBytes, ?_⟩
    · dsimp only
      rw [h.currentFileSize, h.lineBytes]
    · apply h.addLines
      rw [hes file hstream, ← content_append, linesIn_content, linesIn_content, List.map_append]
      rfl

/-- **An append to the bytes shows as an append to the lines.** -/
lemma Shows.append (h : Shows text w log) {earlier : List (String × List (LogEntry WALData))}
    {es : List (LogEntry WALData)} (hchunked : Chunked text w earlier es) (data : WALData)
    (now : Timestamp) :
    Shows text (w.append text ⟨data.type, data, now, now⟩) (log.1.append log.2 data now) := by
  have hnext : (log.1.nextEntry data now).toLogEntry =
      w.nextEntry ⟨data.type, data, now, now⟩ := by
    rw [WriteAheadLog.nextEntry, h.sequence]
    rfl
  have hlater : Shows text { w with sequence := w.sequence + 1 }
      ({ log.1 with sequence := log.1.sequence + 1 }, log.2) :=
    ⟨h.currentFile, congrArg Nat.succ h.sequence, h.writeStream, h.maxFileSize,
      h.currentFileSize, h.lineBytes, h.files⟩
  have hcondition : (log.1.currentFileSize + log.1.lineBytes (log.1.nextEntry data now) >
      log.1.maxFileSize) ↔ (w.currentFileSize +
        (lineOf text (w.nextEntry ⟨data.type, data, now, now⟩)).length > w.maxFileSize) := by
    rw [h.lineBytes, h.currentFileSize, h.maxFileSize, ← hnext]
  simp only [ByteLog.append, WriteAheadLog.append, hcondition, ← hnext]
  split
  next hrotate =>
    apply (hlater.rotateFile now).writeLine []
    intro file hfile
    obtain rfl := Option.some.inj hfile
    have hfresh := hchunked.fresh (v := { w with sequence := w.sequence + 1 }) (Nat.lt_succ_self _)
      now
    rw [← Js.Map.get?_eq_none_iff] at hfresh
    simp only [ByteLog.rotateFile, ByteLog.openWriteStream, appendFile, ByteLog.bytesOf,
      Js.Map.get?_set_self, Option.getD_some, hfresh, Option.getD_none, List.append_nil]
    rfl
  next hroom =>
    apply hlater.writeLine es
    intro file hfile
    obtain rfl := Option.some.inj (hchunked.stream.symm.trans hfile)
    exact hchunked.bytesOf (c := (w.currentFile, es)) (by simp)

/-- **Both models of the log replay the same entries.** -/
lemma replay_eq_replay (text : LineText (LogEntry WALData)) (maxFileSize : ℕ)
    (started : Timestamp) (appends : List (WALData × Timestamp)) (k : ℕ) :
    WriteAheadLog.replay (WriteAheadLog.appendAll
        ((WriteAheadLog.new maxFileSize fun e => (lineOf text e.toLogEntry).length).start .empty
          started) appends).2 k =
      ((((new maxFileSize .empty).start started).appendAll text
        (appends.map fun a => ⟨a.1.type, a.1, a.2, a.2⟩)).replay text k).map
          LogEntry.toWALEntry := by
  have hrun : ∀ (w : ByteLog) (log : WriteAheadLog × WalDir)
      (earlier : List (String × List (LogEntry WALData))) (es : List (LogEntry WALData)),
      Shows text w log → Chunked text w earlier es →
        Shows text (w.appendAll text (appends.map fun a => ⟨a.1.type, a.1, a.2, a.2⟩))
          (WriteAheadLog.appendAll log appends) := by
    induction appends with
    | nil => exact fun _ _ _ _ h _ => h
    | cons a appends ih =>
      intro w log earlier es h hchunked
      obtain ⟨earlier', es', hchunked', -⟩ := hchunked.append ⟨a.1.type, a.1, a.2, a.2⟩
      exact ih _ _ earlier' es' (h.append hchunked a.1 a.2) hchunked'
  exact (hrun _ _ _ _ (shows_start maxFileSize started)
    (chunked_start text maxFileSize started)).replay k

end ByteLog

end SyncEngine
