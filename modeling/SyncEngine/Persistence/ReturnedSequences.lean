import SyncEngine.Machine.Runs
import SyncEngine.Persistence.TornTail

/-!
# Sequence numbers that are returned

`append` counts its sequence number up before it looks for a stream, and returns it whether or not
there is one.  Before `start` and after `stop` there is none, unless the line has no room in what
the log takes for its current file: then the log rotates, and a rotation opens a stream of its own.

A call writes its entry exactly when it `FindsStream`, and what is written is read back
(`holds_append`).  So `returned_is_logged_iff`: every number that is returned is in the log if and
only if every call finds a stream, or the log holds an entry with its number and data from earlier
on.
-/

namespace SyncEngine

open Js

namespace ByteLog

variable {D : Type}

/-- `stop()`. -/
def stop (w : ByteLog) : ByteLog := { w with writeStream := none }

/-- What a program does with its log. -/
inductive LogCall (D : Type)
  | start (now : Timestamp)
  | append (a : Append D)
  | stop

def logCall (text : LineText (LogEntry D)) (w : ByteLog) : LogCall D → ByteLog
  | .start now => w.start now
  | .append a => w.append text a
  | .stop => w.stop

/-- The line has no room in what the log takes for its current file. -/
def Rotates (text : LineText (LogEntry D)) (w : ByteLog) (a : Append D) : Prop :=
  w.currentFileSize + (lineOf text (w.nextEntry a)).length > w.maxFileSize

/-- A stream is open, or the call opens one. -/
def FindsStream (text : LineText (LogEntry D)) (w : ByteLog) (a : Append D) : Prop :=
  w.writeStream ≠ none ∨ w.Rotates text a

/-- The replay from `n` on begins with an entry of number `n` and these data, or has one. -/
def HasLogged (text : LineText (LogEntry D)) (w : ByteLog) (n : ℕ) (data : D) : Prop :=
  ∃ e ∈ w.replay text (n - 1), e.sequence = n ∧ e.data = data

/-! ## What is read back -/

/-- The entry stands in a file of the log. -/
def Holds (text : LineText (LogEntry D)) (w : ByteLog) (e : LogEntry D) : Prop :=
  ∃ file, WriteAheadLog.isWalFile file = true ∧ e ∈ entriesOf text (w.bytesOf file)

variable {text : LineText (LogEntry D)} {w : ByteLog}

lemma mem_replay {k : ℕ} {e : LogEntry D} :
    e ∈ w.replay text k ↔ k < e.sequence ∧ w.Holds text e := by
  rw [replay, (sortOn_perm _ _).mem_iff, List.mem_flatMap]
  constructor
  · rintro ⟨file, hfile, he⟩
    obtain ⟨he, habove⟩ := List.mem_filter.1 he
    exact ⟨of_decide_eq_true habove, file, (List.mem_filter.1 (mem_sortNames.1 hfile)).2, he⟩
  · rintro ⟨habove, file, hfile, he⟩
    refine ⟨file, mem_sortNames.2 (List.mem_filter.2 ⟨?_, hfile⟩),
      List.mem_filter.2 ⟨he, decide_eq_true habove⟩⟩
    by_contra hnone
    rw [bytesOf, (Js.Map.get?_eq_none_iff _ _).2 hnone] at he
    rw [show (none : Option Buffer).getD [] = [] from rfl, entriesOf_nil] at he
    cases he

lemma hasLogged_iff {n : ℕ} {data : D} : w.HasLogged text (n + 1) data ↔
    ∃ e, w.Holds text e ∧ e.sequence = n + 1 ∧ e.data = data := by
  unfold HasLogged
  rw [Nat.add_sub_cancel]
  constructor
  · rintro ⟨e, he, hn, hdata⟩
    exact ⟨e, (mem_replay.1 he).2, hn, hdata⟩
  · rintro ⟨e, he, hn, hdata⟩
    exact ⟨e, mem_replay.2 ⟨by omega, he⟩, hn, hdata⟩

lemma bytesOf_appendFile (w : ByteLog) (f g : String) (bytes : Buffer) :
    (w.appendFile f bytes).bytesOf g = if g = f then w.bytesOf f ++ bytes else w.bytesOf g := by
  rw [bytesOf, appendFile, Js.Map.get?_set]
  split <;> rfl

lemma bytesOf_openWriteStream (w : ByteLog) (file : String) :
    w.openWriteStream.bytesOf file = w.bytesOf file := by
  refine (bytesOf_appendFile w w.currentFile file []).trans ?_
  split
  next hfile => rw [hfile, List.append_nil]
  next => rfl

/-- The text of every file is made of whole lines. -/
def WholeLines (files : Js.Map String Buffer) : Prop :=
  ∀ file bytes, files.get? file = some bytes → bytes = [] ∨ ∃ lines, bytes = lines ++ [newline]

lemma WholeLines.bytesOf (h : WholeLines w.files) (file : String) :
    w.bytesOf file = [] ∨ ∃ lines, w.bytesOf file = lines ++ [newline] := by
  rw [ByteLog.bytesOf]
  cases hget : w.files.get? file with
  | none => exact .inl rfl
  | some bytes => exact h file bytes hget

/-- After whole lines, the next line is read by itself. -/
lemma entriesOf_append {bytes : Buffer} (h : bytes = [] ∨ ∃ lines, bytes = lines ++ [newline])
    (rest : Buffer) :
    entriesOf text (bytes ++ rest) = entriesOf text bytes ++ entriesOf text rest := by
  obtain rfl | ⟨lines, rfl⟩ := h
  · rw [entriesOf_nil, List.nil_append, List.nil_append]
  · have hsplit : (lines ++ [newline]).splitOn newline = lines.splitOn newline ++ [[]] := by
      rw [List.splitOn_append_cons_self, List.splitOn_nil]
    have hsplit' : (lines ++ [newline] ++ rest).splitOn newline =
        lines.splitOn newline ++ rest.splitOn newline := by
      rw [List.append_assoc, List.singleton_append, List.splitOn_append_cons_self]
    simp only [entriesOf, hsplit, hsplit', List.filter_append, List.filterMap_append]
    simp [text.blank_nil]

/-! ## The calls -/

/-- What holds of a log whose writes succeed. -/
structure Sound (w : ByteLog) : Prop where
  whole : WholeLines w.files
  stream : ∀ file, w.writeStream = some file → WriteAheadLog.isWalFile file = true

lemma WholeLines.appendFile (h : WholeLines w.files) (file : String) {bytes : Buffer}
    (hbytes : bytes = [] ∨ ∃ lines, bytes = lines ++ [newline]) :
    WholeLines (w.appendFile file bytes).files := by
  intro g c hg
  rw [ByteLog.appendFile, Js.Map.get?_set] at hg
  split at hg
  · obtain rfl := Option.some.inj hg
    obtain rfl | ⟨lines, rfl⟩ := hbytes
    · rw [List.append_nil]
      exact h.bytesOf file
    · exact .inr ⟨w.bytesOf file ++ lines, (List.append_assoc _ _ _).symm⟩
  · exact h g c hg

/-- A stream is opened on a file with a generated name. -/
lemma Sound.openNamed (h : w.Sound) (now : Timestamp) :
    (openWriteStream { w with currentFile := w.generateFileName now }).Sound where
  whole := h.whole.appendFile (w := { w with currentFile := w.generateFileName now }) _ (.inl rfl)
  stream file hfile := by
    obtain rfl := Option.some.inj hfile
    exact isWalFile_generateFileName w now

lemma Sound.rotateFile (h : w.Sound) (now : Timestamp) : (w.rotateFile now).Sound :=
  ⟨(h.openNamed now).whole, (h.openNamed now).stream⟩

lemma Sound.writeLine (h : w.Sound) (e : LogEntry D) : (w.writeLine (lineOf text e)).Sound := by
  unfold ByteLog.writeLine
  split
  · exact ⟨h.whole.appendFile _ (.inr ⟨text.stringify e, rfl⟩), h.stream⟩
  · exact h

lemma Sound.append (h : w.Sound) (a : Append D) : (w.append text a).Sound := by
  have hnext : Sound { w with sequence := w.sequence + 1 } := ⟨h.whole, h.stream⟩
  unfold ByteLog.append
  dsimp only
  split
  · exact (hnext.rotateFile a.rotated).writeLine _
  · exact hnext.writeLine _

lemma Sound.logCall (h : w.Sound) (c : LogCall D) : (w.logCall text c).Sound := by
  cases c with
  | start now => exact h.openNamed now
  | append a => exact h.append a
  | stop => exact ⟨h.whole, nofun⟩

/-- Opening a stream adds nothing to any file. -/
lemma holds_openWriteStream (e : LogEntry D) :
    w.openWriteStream.Holds text e ↔ w.Holds text e := by
  simp only [Holds, bytesOf_openWriteStream]

/-- A line that is written to a stream is read back, with what was there. -/
lemma holds_writeLine (h : w.Sound) {file : String} (hstream : w.writeStream = some file)
    (e e' : LogEntry D) :
    (w.writeLine (lineOf text e)).Holds text e' ↔ w.Holds text e' ∨ e' = e := by
  have hbytes : ∀ g, entriesOf text ((w.writeLine (lineOf text e)).bytesOf g) =
      if g = file then entriesOf text (w.bytesOf g) ++ [e] else entriesOf text (w.bytesOf g) := by
    intro g
    have hwritten : (w.writeLine (lineOf text e)).bytesOf g =
        (w.appendFile file (lineOf text e)).bytesOf g := by
      simp only [writeLine, hstream]
      rfl
    have hline : entriesOf text (lineOf text e) = [e] := by
      have hcons : entriesOf text (lineOf text e ++ []) = e :: entriesOf text [] :=
        entriesOf_cons e []
      rwa [List.append_nil, entriesOf_nil] at hcons
    rw [hwritten, bytesOf_appendFile]
    split
    next hg => rw [hg, entriesOf_append (h.whole.bytesOf file), hline]
    next => rfl
  constructor
  · rintro ⟨g, hg, he⟩
    rw [hbytes] at he
    split at he
    · obtain he | he := List.mem_append.1 he
      · exact .inl ⟨g, hg, he⟩
      · exact .inr (List.mem_singleton.1 he)
    · exact .inl ⟨g, hg, he⟩
  · rintro (⟨g, hg, he⟩ | rfl)
    · refine ⟨g, hg, ?_⟩
      rw [hbytes]
      split
      · exact List.mem_append_left _ he
      · exact he
    · refine ⟨file, h.stream file hstream, ?_⟩
      rw [hbytes, if_pos rfl]
      simp

lemma append_of_rotates {a : Append D} (h : w.Rotates text a) : w.append text a =
    ({ w with sequence := w.sequence + 1 }.rotateFile a.rotated).writeLine
      (lineOf text (w.nextEntry a)) := if_pos h

lemma append_of_not_rotates {a : Append D} (h : ¬ w.Rotates text a) : w.append text a =
    { w with sequence := w.sequence + 1 }.writeLine (lineOf text (w.nextEntry a)) := if_neg h

/-- **What an append adds to the log**: its entry, if it finds a stream, and otherwise nothing. -/
lemma holds_append (h : w.Sound) (a : Append D) (e : LogEntry D) :
    (w.append text a).Holds text e ↔
      w.Holds text e ∨ w.FindsStream text a ∧ e = w.nextEntry a := by
  have hnext : Sound { w with sequence := w.sequence + 1 } := ⟨h.whole, h.stream⟩
  by_cases hrotates : w.Rotates text a
  · have hfinds : w.FindsStream text a := .inr hrotates
    rw [append_of_rotates hrotates, holds_writeLine (hnext.rotateFile a.rotated) rfl,
      and_iff_right hfinds]
    exact or_congr_left (holds_openWriteStream e)
  · rw [append_of_not_rotates hrotates]
    obtain hstream | ⟨file, hstream⟩ := Option.eq_none_or_eq_some w.writeStream
    · have hnone : ¬ w.FindsStream text a := by
        rintro (hopen | hrot)
        · exact hopen hstream
        · exact hrotates hrot
      have hsame : ({ w with sequence := w.sequence + 1 } : ByteLog).writeLine
          (lineOf text (w.nextEntry a)) = { w with sequence := w.sequence + 1 } := by
        unfold writeLine
        dsimp only
        rw [hstream]
      rw [hsame]
      simp only [hnone, false_and, or_false]
      exact Iff.rfl
    · have hfinds : w.FindsStream text a := .inl (by simp [hstream])
      rw [and_iff_right hfinds]
      exact (holds_writeLine hnext hstream _ e).trans (or_congr_left Iff.rfl)

/-- An entry that is in the log stays there. -/
lemma Holds.logCall (h : w.Sound) {e : LogEntry D} (he : w.Holds text e) (c : LogCall D) :
    (w.logCall text c).Holds text e := by
  cases c with
  | start now =>
    exact (holds_openWriteStream (w := { w with currentFile := w.generateFileName now }) e).2 he
  | append a => exact (holds_append h a e).2 (.inl he)
  | stop => exact he

/-- An append that returns is in the log exactly if it finds a stream, or was there before. -/
lemma hasLogged_append (h : w.Sound) (a : Append D) :
    (w.append text a).HasLogged text (w.sequence + 1) a.data ↔
      w.FindsStream text a ∨ w.HasLogged text (w.sequence + 1) a.data := by
  rw [hasLogged_iff, hasLogged_iff]
  constructor
  · rintro ⟨e, he, hn, hdata⟩
    obtain he | ⟨hfinds, -⟩ := (holds_append h a e).1 he
    · exact .inr ⟨e, he, hn, hdata⟩
    · exact .inl hfinds
  · rintro (hfinds | ⟨e, he, hn, hdata⟩)
    · exact ⟨w.nextEntry a, (holds_append h a _).2 (.inr ⟨hfinds, rfl⟩), rfl, rfl⟩
    · exact ⟨e, (holds_append h a e).2 (.inl he), hn, hdata⟩

lemma HasLogged.run (h : w.Sound) {n : ℕ} {data : D} (hlogged : w.HasLogged text (n + 1) data)
    (calls : List (LogCall D)) :
    (Machine.run (logCall text) w calls).HasLogged text (n + 1) data := by
  obtain ⟨e, he, hn, hdata⟩ := hasLogged_iff.1 hlogged
  have hrun := @Machine.always _ _ (ByteLog.logCall text) (fun v => v.Sound ∧ v.Holds text e)
    (fun v c hv => ⟨hv.1.logCall c, hv.2.logCall hv.1 c⟩) _ calls ⟨h, he⟩
  exact hasLogged_iff.2 ⟨e, hrun.2, hn, hdata⟩

/-! ## Whole runs -/

/-- An append finds a stream, or what it would log is there already. -/
def Served (text : LineText (LogEntry D)) (w : ByteLog) : LogCall D → Prop
  | .append a => w.FindsStream text a ∨ w.HasLogged text (w.sequence + 1) a.data
  | _ => True

/-- **When a returned sequence number is in the log.**  A log is used in any order of calls on a
directory of whole lines.  Every append that returns `n` has an entry of number `n` with its data
in the replay from `n` on, then and after every later call, if and only if every append finds a
stream, or such an entry was there before. -/
theorem returned_is_logged_iff (text : LineText (LogEntry D)) (maxFileSize : ℕ)
    {files : Js.Map String Buffer} (hfiles : WholeLines files) (calls : List (LogCall D)) :
    (∀ before a later, before ++ .append a :: later <+: calls →
      let w := Machine.run (logCall text) (new maxFileSize files) before
      let n := (w.append text a).sequence
      (Machine.run (logCall text) (w.append text a) later).HasLogged text n a.data) ↔
    Machine.Along (logCall text) (Served text) (new maxFileSize files) calls := by
  have hnew : (new maxFileSize files).Sound := ⟨hfiles, nofun⟩
  generalize new maxFileSize files = w at hnew
  induction calls generalizing w with
  | nil =>
    refine iff_of_true ?_ trivial
    intro before a later hprefix
    simp at hprefix
  | cons c calls ih =>
    refine Iff.trans ?_ (and_congr_right' (ih (w.logCall text c) (hnew.logCall c)))
    constructor
    · intro h
      constructor
      · cases c with
        | append a =>
          have hlogged : (w.append text a).HasLogged text (w.append text a).sequence a.data :=
            h [] a [] (by simp)
          rw [sequence_append] at hlogged
          exact (hasLogged_append hnew a).1 hlogged
        | start now => trivial
        | stop => trivial
      · intro before a later hprefix
        exact h (c :: before) a later ((List.prefix_cons_inj c).2 hprefix)
    · rintro ⟨hserved, hrest⟩ before a later hprefix
      cases before with
      | nil =>
        obtain ⟨rfl, -⟩ := List.cons_prefix_cons.1 hprefix
        have hlogged := ((hasLogged_append hnew a).2 hserved).run (hnew.append a) later
        rwa [← sequence_append text w a] at hlogged
      | cons c' before =>
        obtain ⟨rfl, hlater⟩ := List.cons_prefix_cons.1 hprefix
        exact hrest before a later hlater

lemma wholeLines_empty : WholeLines .empty := nofun

/-- A log that is started returns what it has logged. -/
theorem returned_is_logged_started :
    let w := ((new 1000 .empty).start 5).append nullText ⟨.delta, (), 6, 6⟩
    w.HasLogged nullText w.sequence () :=
  (returned_is_logged_iff nullText 1000 wholeLines_empty
    [.start 5, .append ⟨.delta, (), 6, 6⟩]).2 ⟨trivial, .inl (.inl nofun), trivial⟩
    [.start 5] ⟨.delta, (), 6, 6⟩ [] List.prefix_rfl

/-- A log that is not started returns a number that it has not logged. -/
theorem append_before_start :
    let w := (new 1000 .empty).append nullText ⟨.delta, (), 5, 5⟩
    w.sequence = 1 ∧ ¬ w.HasLogged nullText 1 () := by
  intro w
  have hreplay : w.replay nullText 0 = [] := by decide +kernel
  refine ⟨by decide +kernel, ?_⟩
  rintro ⟨e, he, -⟩
  rw [hreplay] at he
  cases he

end ByteLog

end SyncEngine
