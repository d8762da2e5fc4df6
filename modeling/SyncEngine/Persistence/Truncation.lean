import SyncEngine.Persistence.ReturnedSequences

/-!
# Truncation of the log

`truncate(b)` deletes a file on the evidence of its last line: if that parses, and its number is
below `b`, the file goes.  So it is safe for every `b` exactly when each file but the current one
`EndsHighest`: if its last line parses, no entry of the file has a higher number
(`replay_truncate_iff`).

Within one process the numbers ascend, and a file that a crash has cut off has its last line torn,
or ends with a whole one.  So a file ends highest as long as only one process writes to it.  But a
file is named by the time and the counter, the counter of every process begins at zero, and a
stream is opened for appending.  Two processes that start at the same time write to one file.
-/

namespace SyncEngine

open Js

namespace ByteLog

variable {D : Type} (text : LineText (LogEntry D))

/-- The lines in the text of a file that are not blank. -/
def linesOf (bytes : Buffer) : List Buffer :=
  (bytes.splitOn newline).filter fun line => !text.blank line

/-- `fs.unlinkSync(file)`. -/
def unlink (w : ByteLog) (file : String) : ByteLog := { w with files := w.files.delete file }

/-- The body of the loop in `truncate`. -/
def truncateFile (beforeSequence : ℕ) (w : ByteLog) (file : String) : ByteLog :=
  if file = w.currentFile then w
  else
    match (linesOf text (w.bytesOf file)).getLast? with
    | none => w
    | some lastLine =>
      match text.parse lastLine with
      | some entry =>
        if entry.sequence < beforeSequence then w.unlink file else w
      | none => w

def truncate (w : ByteLog) (beforeSequence : ℕ) : ByteLog :=
  w.getWALFiles.foldl (truncateFile text beforeSequence) w

/-- The entry in the last line, if that parses. -/
def lastEntry (bytes : Buffer) : Option (LogEntry D) :=
  (linesOf text bytes).getLast?.bind text.parse

/-- A file that is not the current one is deleted if its last line has a number below `b`. -/
def expired (b : ℕ) (bytes : Buffer) : Bool :=
  (lastEntry text bytes).any fun e => e.sequence < b

variable {text} {w : ByteLog} {b : ℕ}

/-! ## What is deleted -/

lemma truncateFile_eq (w : ByteLog) (b : ℕ) (file : String) : truncateFile text b w file =
    if file ≠ w.currentFile ∧ expired text b (w.bytesOf file) = true then w.unlink file
    else w := by
  unfold truncateFile expired lastEntry
  by_cases hfile : file = w.currentFile
  · simp [hfile]
  · cases (linesOf text (w.bytesOf file)).getLast? with
    | none => simp
    | some line => cases hparse : text.parse line <;> simp [hfile, hparse]

lemma expired_iff {bytes : Buffer} : expired text b bytes = true ↔
    ∃ e, lastEntry text bytes = some e ∧ e.sequence < b := by
  rw [expired]
  cases lastEntry text bytes <;> simp

/-- A file is kept if it is the current one or has not expired. -/
def keeps (text : LineText (LogEntry D)) (w : ByteLog) (b : ℕ) (file : String) : Bool :=
  file = w.currentFile || !expired text b (w.bytesOf file)

lemma bytesOf_unlink_of_ne (w : ByteLog) {file other : String} (h : other ≠ file) :
    (w.unlink file).bytesOf other = w.bytesOf other := by
  rw [bytesOf, unlink, Js.Map.get?_delete_of_ne _ h, bytesOf]

/-- **The loop deletes the files that are not kept**, whatever it has deleted before. -/
lemma foldl_truncateFile (files : List String) (w : ByteLog) :
    (files.foldl (truncateFile text b) w).currentFile = w.currentFile ∧
      (files.foldl (truncateFile text b) w).files.entries =
        w.files.entries.filter fun c => c.1 ∉ files ∨ keeps text w b c.1 := by
  induction files generalizing w with
  | nil => simp
  | cons file files ih =>
    rw [List.foldl_cons, truncateFile_eq]
    split
    next hexpired =>
      obtain ⟨hfile, hexpired⟩ := hexpired
      obtain ⟨hcurrent, hentries⟩ := ih (w.unlink file)
      refine ⟨hcurrent, hentries.trans ?_⟩
      rw [unlink, Js.Map.delete, List.filter_filter, ← Js.Map.delete, ← unlink]
      apply List.filter_congr
      intro c hc
      by_cases hsame : c.1 = file
      · simp [hsame, keeps, hfile, hexpired]
      · have hkeeps : keeps text (w.unlink file) b c.1 = keeps text w b c.1 := by
          rw [keeps, bytesOf_unlink_of_ne w hsame, keeps, unlink]
        simp [hsame, hkeeps]
    next hkept =>
      obtain ⟨hcurrent, hentries⟩ := ih w
      refine ⟨hcurrent, hentries.trans (List.filter_congr fun c _ => ?_)⟩
      by_cases hsame : c.1 = file
      · have hkeeps : keeps text w b file = true := by
          rw [keeps]
          by_cases hfile : file = w.currentFile
          · simp [hfile]
          · have hstays : ¬ expired text b (w.bytesOf file) = true := fun h => hkept ⟨hfile, h⟩
            simp [hstays]
        simp [hsame, hkeeps]
      · simp [hsame]

lemma entries_truncate (w : ByteLog) (b : ℕ) : (w.truncate text b).files.entries =
    w.files.entries.filter fun c => c.1 ∉ w.getWALFiles ∨ keeps text w b c.1 :=
  (foldl_truncateFile _ w).2

/-- What is read of a file that is still there is what was there. -/
lemma get?_truncate (w : ByteLog) (b : ℕ) (file : String) : (w.truncate text b).files.get? file =
    if file ∉ w.getWALFiles ∨ keeps text w b file then w.files.get? file else none := by
  apply Option.ext
  intro bytes
  rw [← Js.Map.mem_entries_iff, entries_truncate, List.mem_filter, Js.Map.mem_entries_iff,
    decide_eq_true_eq]
  split
  next h => exact and_iff_left h
  next h => simp [h]

/-- The current file is not deleted. -/
lemma get?_truncate_currentFile (w : ByteLog) (b : ℕ) :
    (w.truncate text b).files.get? w.currentFile = w.files.get? w.currentFile := by
  rw [get?_truncate, if_pos]
  right
  simp [keeps]

lemma getWALFiles_truncate (w : ByteLog) (b : ℕ) :
    (w.truncate text b).getWALFiles = w.getWALFiles.filter (keeps text w b) := by
  have hkeys : (w.truncate text b).files.keys =
      w.files.keys.filter fun file => file ∉ w.getWALFiles ∨ keeps text w b file := by
    rw [Js.Map.keys, entries_truncate, Js.Map.keys, List.filter_map]
    rfl
  have hfilter : (w.files.keys.filter WriteAheadLog.isWalFile).filter (keeps text w b) =
      (w.truncate text b).files.keys.filter WriteAheadLog.isWalFile := by
    rw [hkeys, List.filter_filter, List.filter_filter]
    apply List.filter_congr
    intro file hfile
    by_cases hwal : WriteAheadLog.isWalFile file = true
    · have hmem : file ∈ w.getWALFiles := mem_sortNames.2 (List.mem_filter.2 ⟨hfile, hwal⟩)
      simp [hwal, hmem]
    · simp [hwal]
  rw [getWALFiles, ← hfilter, sortNames_filter, ← getWALFiles]

/-- The entries of a file with numbers above `k`. -/
def entriesAbove (text : LineText (LogEntry D)) (w : ByteLog) (k : ℕ) (file : String) :
    List (LogEntry D) :=
  (entriesOf text (w.bytesOf file)).filter fun e => k < e.sequence

lemma replay_truncate (w : ByteLog) (b k : ℕ) : (w.truncate text b).replay text k =
    sortOn LogEntry.sequence
      ((w.getWALFiles.filter (keeps text w b)).flatMap (entriesAbove text w k)) := by
  rw [replay, getWALFiles_truncate]
  congr 1
  apply List.flatMap_congr
  intro file hfile
  have hbytes : (w.truncate text b).bytesOf file = w.bytesOf file := by
    rw [bytesOf, get?_truncate, if_pos (.inr (List.mem_filter.1 hfile).2), bytesOf]
  rw [hbytes, entriesAbove]

/-- To leave out list elements that contribute nothing changes nothing, and nothing else does. -/
lemma length_flatMap_filter_eq_iff {α β : Type} (p : α → Bool) (g : α → List β) (l : List α) :
    ((l.filter p).flatMap g).length = (l.flatMap g).length ↔ ∀ x ∈ l, p x = false → g x = [] := by
  have hsplit : (l.flatMap g).length =
      ((l.filter p).flatMap g).length + ((l.filter fun x => !p x).flatMap g).length := by
    have hperm := ((List.filter_append_perm p l).flatMap_right g).length_eq
    rw [← hperm, List.flatMap_append, List.length_append]
  rw [hsplit, left_eq_add, List.length_eq_zero_iff, List.flatMap_eq_nil_iff]
  simp

lemma flatMap_filter_of_nil {α β : Type} {p : α → Bool} {g : α → List β} {l : List α}
    (h : ∀ x ∈ l, p x = false → g x = []) : (l.filter p).flatMap g = l.flatMap g := by
  induction l with
  | nil => rfl
  | cons x l ih =>
    have hrest := ih fun y hy => h y (List.mem_cons_of_mem x hy)
    cases hp : p x with
    | true => rw [List.filter_cons_of_pos hp, List.flatMap_cons, List.flatMap_cons, hrest]
    | false =>
      rw [List.filter_cons_of_neg (by simp [hp]), List.flatMap_cons,
        h x List.mem_cons_self hp, List.nil_append, hrest]

/-! ## When it is safe -/

/-- In every file but the current one: if the last line parses, no entry has a higher number. -/
def EndsHighest (text : LineText (LogEntry D)) (w : ByteLog) : Prop :=
  ∀ file ∈ w.getWALFiles, file ≠ w.currentFile → ∀ e, lastEntry text (w.bytesOf file) = some e →
    ∀ e' ∈ entriesOf text (w.bytesOf file), e'.sequence ≤ e.sequence

/-- **Truncation is safe for every bound exactly when every file ends highest.** -/
lemma replay_truncate_iff (w : ByteLog) :
    (∀ b k, b ≤ k + 1 → (w.truncate text b).replay text k = w.replay text k) ↔
      w.EndsHighest text := by
  constructor
  · intro hsafe file hfile hcurrent e hlast e' he'
    by_contra hhigher
    have hsame := congrArg List.length (hsafe (e.sequence + 1) e.sequence le_rfl)
    rw [replay_truncate, (sortOn_perm _ _).length_eq, replay, (sortOn_perm _ _).length_eq] at hsame
    have hexpired : expired text (e.sequence + 1) (w.bytesOf file) = true :=
      expired_iff.2 ⟨e, hlast, Nat.lt_succ_self _⟩
    have hdeleted : keeps text w (e.sequence + 1) file = false := by
      simp [keeps, hcurrent, hexpired]
    have hnone := (length_flatMap_filter_eq_iff _ _ _).1 hsame file hfile hdeleted
    have hmem : e' ∈ entriesAbove text w e.sequence file :=
      List.mem_filter.2 ⟨he', decide_eq_true (not_le.1 hhigher)⟩
    rw [hnone] at hmem
    cases hmem
  · intro h b k hb
    rw [replay_truncate, flatMap_filter_of_nil, replay]
    · rfl
    intro file hfile hdeleted
    rw [keeps, Bool.or_eq_false_iff, decide_eq_false_iff_not, Bool.not_eq_false'] at hdeleted
    obtain ⟨hcurrent, hexpired⟩ := hdeleted
    obtain ⟨e, hlast, hbelow⟩ := expired_iff.1 hexpired
    apply List.filter_eq_nil_iff.2
    intro e' he'
    have hle := h file hfile hcurrent e hlast e' he'
    simp only [decide_eq_true_eq]
    omega

/-! ## Files with ascending numbers -/

/-- The numbers of the entries ascend. -/
def Ascends (es : List (LogEntry D)) : Prop := es.Pairwise fun e e' => e.sequence ≤ e'.sequence

lemma entriesOf_eq (bytes : Buffer) :
    entriesOf text bytes = (linesOf text bytes).filterMap text.parse := rfl

lemma mem_of_lastEntry {bytes : Buffer} {e : LogEntry D} (h : lastEntry text bytes = some e) :
    e ∈ entriesOf text bytes := by
  obtain ⟨line, hline, hparse⟩ := Option.bind_eq_some_iff.1 h
  rw [entriesOf_eq]
  exact List.mem_filterMap.2 ⟨line, List.mem_of_getLast? hline, hparse⟩

lemma linesOf_lineOf_append (e : LogEntry D) (rest : Buffer) :
    linesOf text (lineOf text e ++ rest) = text.stringify e :: linesOf text rest := by
  rw [linesOf, lineOf, List.append_assoc, List.singleton_append,
    List.splitOn_append_cons_self_of_not_mem (text.newline_notMem e),
    List.filter_cons_of_pos (by simp [text.not_blank]), linesOf]

/-- What is read of a file that has been cut off are some of its entries. -/
lemma mem_of_mem_take {es : List (LogEntry D)} {n : ℕ} {e : LogEntry D}
    (h : e ∈ entriesOf text ((content text es).take n)) : e ∈ es := by
  rw [entriesOf_take "" es n 0] at h
  obtain ⟨p, hp, rfl⟩ := List.mem_map.1 h
  have hmem := List.mem_map_of_mem (f := Placed.entry) (List.mem_filter.1 hp).1
  rwa [map_entry_spread] at hmem

/-- **A file with ascending numbers ends highest**, wherever it is cut off. -/
lemma le_lastEntry {es : List (LogEntry D)} (h : Ascends es) (n : ℕ) {e e' : LogEntry D}
    (hlast : lastEntry text ((content text es).take n) = some e)
    (he' : e' ∈ entriesOf text ((content text es).take n)) : e'.sequence ≤ e.sequence := by
  induction es generalizing n with
  | nil =>
    rw [content, List.flatMap_nil, List.take_nil, entriesOf_nil] at he'
    cases he'
  | cons first es ih =>
    have hcontent : content text (first :: es) = lineOf text first ++ content text es := rfl
    obtain ⟨hfirst, hrest⟩ := List.pairwise_cons.1 h
    rw [hcontent, List.take_append] at hlast he'
    by_cases hn : n < (lineOf text first).length
    · -- at most the first entry is left
      rw [Nat.sub_eq_zero_of_le hn.le, List.take_zero, List.append_nil] at hlast he'
      have honly : ∀ x ∈ entriesOf text ((lineOf text first).take n), x = first := by
        intro x hx
        rw [length_lineOf] at hn
        rw [lineOf, List.take_append_of_le_length (Nat.lt_succ_iff.1 hn)] at hx
        by_cases htorn : n < (text.stringify first).length
        · rw [entriesOf_torn htorn] at hx
          cases hx
        · rw [List.take_of_length_le (not_lt.1 htorn), entriesOf_text] at hx
          exact List.mem_singleton.1 hx
      rw [honly e (mem_of_lastEntry hlast), honly e' he']
    · rw [List.take_of_length_le (not_lt.1 hn)] at hlast he'
      rw [entriesOf_cons] at he'
      rw [lastEntry, linesOf_lineOf_append, List.getLast?_cons] at hlast
      generalize n - (lineOf text first).length = m at hlast he'
      cases hlines : (linesOf text ((content text es).take m)).getLast? with
      | none =>
        rw [hlines, Option.getD_none, Option.bind_some, text.parse_stringify] at hlast
        obtain rfl := Option.some.inj hlast
        rw [entriesOf_eq, List.getLast?_eq_none_iff.1 hlines] at he'
        rw [List.mem_singleton.1 he']
      | some line =>
        have hlater : lastEntry text ((content text es).take m) = some e := by
          rw [lastEntry, hlines]
          rwa [hlines, Option.getD_some] at hlast
        obtain rfl | he' := List.mem_cons.1 he'
        · exact hfirst e (mem_of_mem_take (mem_of_lastEntry hlater))
        · exact ih hrest _ hlater he'

/-! ## Runs -/

/-- What happens to a log: a call, or a crash that cuts files off, after which a new process uses
the directory. -/
inductive LogEvent (D : Type)
  | call (c : LogCall D)
  | crash (cuts : List (String × ℕ)) (maxFileSize : ℕ)

/-- What a crash leaves of the files. -/
def cutAll (w : ByteLog) (cuts : List (String × ℕ)) : ByteLog :=
  cuts.foldl (fun w c => w.cut c.1 c.2) w

def logEvent (text : LineText (LogEntry D)) (w : ByteLog) : LogEvent D → ByteLog
  | .call c => w.logCall text c
  | .crash cuts maxFileSize => new maxFileSize (w.cutAll cuts).files

/-- A file holds entries that are whole, with ascending numbers up to the counter, or none. -/
def Continues (text : LineText (LogEntry D)) (w : ByteLog) (file : String) : Prop :=
  ∃ es, w.bytesOf file = content text es ∧ Ascends es ∧ ∀ e ∈ es, e.sequence ≤ w.sequence

/-- Where a stream is opened, it is opened on a file that the counter continues. -/
def OpensOwn (text : LineText (LogEntry D)) (w : ByteLog) : LogEvent D → Prop
  | .call (.start now) => w.Continues text (w.generateFileName now)
  | .call (.append a) => w.Rotates text a →
    let w' := { w with sequence := w.sequence + 1 }
    w'.Continues text (w'.generateFileName a.rotated)
  | _ => True

/-- What holds of every file, and of the file that the stream is open on. -/
structure Tidy (text : LineText (LogEntry D)) (w : ByteLog) : Prop where
  files : ∀ file, ∃ es n, w.bytesOf file = (content text es).take n ∧ Ascends es
  stream : ∀ file, w.writeStream = some file → w.Continues text file

lemma Tidy.endsHighest (h : w.Tidy text) : w.EndsHighest text := by
  intro file _ _ e hlast e' he'
  obtain ⟨es, n, hbytes, hes⟩ := h.files file
  rw [hbytes] at hlast he'
  exact le_lastEntry hes n hlast he'

lemma Continues.cut_content {file : String} (h : w.Continues text file) :
    ∃ es n, w.bytesOf file = (content text es).take n ∧ Ascends es := by
  obtain ⟨es, hbytes, hes, -⟩ := h
  exact ⟨es, (content text es).length, by rw [hbytes, List.take_length], hes⟩

/-- A stream is opened on a file that the counter continues. -/
lemma Tidy.openWriteStream (h : w.Tidy text) (hcurrent : w.Continues text w.currentFile) :
    w.openWriteStream.Tidy text := by
  constructor
  · intro file
    rw [bytesOf_openWriteStream]
    exact h.files file
  · intro file hfile
    obtain rfl := Option.some.inj hfile
    obtain ⟨es, hcontent, hes, hle⟩ := hcurrent
    exact ⟨es, (bytesOf_openWriteStream w _).trans hcontent, hes, hle⟩

/-- A line is written with a number that is not below those of the file. -/
lemma Tidy.writeLine (h : w.Tidy text) {e : LogEntry D} (he : e.sequence = w.sequence) :
    (w.writeLine (lineOf text e)).Tidy text := by
  unfold ByteLog.writeLine
  split
  next file hstream =>
    obtain ⟨es, hcontent, hes, hle⟩ := h.stream file hstream
    have hcontinues : (w.appendFile file (lineOf text e)).Continues text file := by
      refine ⟨es ++ [e], ?_, ?_, ?_⟩
      · rw [bytesOf_appendFile, if_pos rfl, hcontent, content_append]
      · refine List.pairwise_append.2 ⟨hes, List.pairwise_singleton _ _, fun x hx y hy => ?_⟩
        rw [List.mem_singleton.1 hy, he]
        exact hle x hx
      · intro x hx
        obtain hx | hx := List.mem_append.1 hx
        · exact hle x hx
        · rw [List.mem_singleton.1 hx]
          exact he.le
    constructor
    · intro g
      by_cases hg : g = file
      · rw [hg]
        exact hcontinues.cut_content
      · obtain ⟨es', n, hbytes, hes'⟩ := h.files g
        refine ⟨es', n, ?_, hes'⟩
        rw [← hbytes]
        exact (bytesOf_appendFile w file g _).trans (if_neg hg)
    · intro g hg
      obtain rfl := Option.some.inj (hstream.symm.trans hg)
      exact hcontinues
  next => exact h

/-- The counter goes up. -/
lemma Tidy.next (h : w.Tidy text) : Tidy text { w with sequence := w.sequence + 1 } where
  files := h.files
  stream file hfile := by
    obtain ⟨es, hcontent, hes, hle⟩ := h.stream file hfile
    exact ⟨es, hcontent, hes, fun e he => (hle e he).trans (Nat.le_succ _)⟩

lemma Tidy.rotateFile (h : w.Tidy text) {now : Timestamp}
    (hopens : w.Continues text (w.generateFileName now)) : (w.rotateFile now).Tidy text := by
  have hnamed : Tidy text { w with currentFile := w.generateFileName now } := ⟨h.files, h.stream⟩
  have hopened := hnamed.openWriteStream hopens
  exact ⟨hopened.files, hopened.stream⟩

lemma Tidy.append (h : w.Tidy text) (a : Append D) (hopens : w.OpensOwn text (.call (.append a))) :
    (w.append text a).Tidy text := by
  by_cases hrotates : w.Rotates text a
  · rw [append_of_rotates hrotates]
    exact (h.next.rotateFile (hopens hrotates)).writeLine rfl
  · rw [append_of_not_rotates hrotates]
    exact h.next.writeLine rfl

/-- A crash leaves the beginnings of files. -/
lemma bytesOf_cutAll (w : ByteLog) (cuts : List (String × ℕ)) (file : String) :
    ∃ n, (w.cutAll cuts).bytesOf file = (w.bytesOf file).take n := by
  induction cuts generalizing w with
  | nil => exact ⟨(w.bytesOf file).length, (List.take_length ..).symm⟩
  | cons c cuts ih =>
    obtain ⟨n, hn⟩ := ih (w.cut c.1 c.2)
    rw [bytesOf_cut] at hn
    split at hn
    · exact ⟨min n c.2, hn.trans (List.take_take ..)⟩
    · exact ⟨n, hn⟩

/-- **What a step keeps** that opens only files of its own. -/
lemma Tidy.logEvent (h : w.Tidy text) (ev : LogEvent D) (hopens : w.OpensOwn text ev) :
    (w.logEvent text ev).Tidy text := by
  cases ev with
  | call c =>
    cases c with
    | start now =>
      have hnamed : Tidy text { w with currentFile := w.generateFileName now } :=
        ⟨h.files, h.stream⟩
      exact hnamed.openWriteStream hopens
    | append a => exact h.append a hopens
    | stop => exact ⟨h.files, nofun⟩
  | crash cuts maxFileSize =>
    refine ⟨fun file => ?_, nofun⟩
    obtain ⟨m, hm⟩ := bytesOf_cutAll w cuts file
    obtain ⟨es, n, hbytes, hes⟩ := h.files file
    refine ⟨es, min m n, ?_, hes⟩
    rw [← List.take_take, ← hbytes]
    exact hm

/-- **When truncation is safe.**  A directory is written to by any number of processes, each of
which starts, appends, rotates and stops in any order, and crashes, which may cut files off.
Whatever happens, truncation keeps the current file.  It keeps what is replayed from any number on
that is not more than one below its bound, for every bound, if and only if every file but the
current one ends with its highest number, or with a line that does not parse.  And so it is after
every run in which a stream is opened only on a file that is new, or holds whole entries with
numbers up to the counter. -/
theorem truncate_safe_iff (text : LineText (LogEntry D)) (maxFileSize : ℕ)
    (events : List (LogEvent D)) :
    let w := Machine.run (logEvent text) (new maxFileSize .empty) events
    (∀ b, (w.truncate text b).files.get? w.currentFile = w.files.get? w.currentFile) ∧
      ((∀ b k, b ≤ k + 1 → (w.truncate text b).replay text k = w.replay text k) ↔
        w.EndsHighest text) ∧
      (Machine.Along (logEvent text) (OpensOwn text) (new maxFileSize .empty) events →
        w.EndsHighest text) := by
  intro w
  refine ⟨get?_truncate_currentFile w, replay_truncate_iff w, fun hopens => ?_⟩
  have hnew : Tidy text (new maxFileSize .empty) :=
    ⟨fun file => ⟨[], 0, rfl, .nil⟩, nofun⟩
  have hstep : ∀ v ev, Tidy text v → OpensOwn text v ev → Tidy text (logEvent text v ev) :=
    fun v ev hv hev => hv.logEvent ev hev
  exact (Machine.invariant hstep hnew hopens).endsHighest

/-- Two processes that start at the same time write to one file, and the last line of it is from
the second. -/
theorem truncate_shared_file :
    let entry : LogEvent Unit := .call (.append ⟨.delta, (), 5, 5⟩)
    let w := Machine.run (logEvent nullText) (new 1000 .empty)
      [.call (.start 5), entry, entry, entry, .crash [] 1000, .call (.start 5), entry,
        .crash [] 1000, .call (.start 6)]
    ¬ ∀ b k, b ≤ k + 1 → (w.truncate nullText b).replay nullText k = w.replay nullText k := by
  intro entry w h
  have hlengths := congrArg List.length (h 2 1 le_rfl)
  revert hlengths
  decide +kernel

end ByteLog

end SyncEngine
