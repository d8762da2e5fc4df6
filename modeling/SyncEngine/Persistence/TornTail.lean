import SyncEngine.Persistence.ByteLog

/-!
# Replay after a torn tail

A log that is started on an empty directory and appended to, whose last file is then cut off at any
byte, is replayed up to the last text that is left whole (`replay_torn`).
-/

namespace SyncEngine

open Js

namespace ByteLog

variable {D : Type} {text : LineText (LogEntry D)} {w : ByteLog}

/-- The files of a log with the entries in them, in the order they were opened in.  The stream is
open on the last one. -/
structure Chunked (text : LineText (LogEntry D)) (w : ByteLog)
    (earlier : List (String × List (LogEntry D))) (es : List (LogEntry D)) : Prop where
  files : w.files.entries =
    (earlier ++ [(w.currentFile, es)]).map fun c => (c.1, content text c.2)
  stream : w.writeStream = some w.currentFile
  size : w.currentFileSize = (content text es).length
  names : ∀ c ∈ earlier ++ [(w.currentFile, es)], ∃ (v : ByteLog) (now : Timestamp),
    c.1 = v.generateFileName now ∧ v.sequence ≤ w.sequence
  bounded : ∀ c ∈ earlier ++ [(w.currentFile, es)],
    (content text c.2).length ≤ w.maxFileSize ∨ ∃ e, c.2 = [e]

/-- Where the entries of a number of files stand. -/
def laid (text : LineText (LogEntry D)) (chunks : List (String × List (LogEntry D))) :
    List (Placed D) :=
  chunks.flatMap fun c => spread text c.1 0 c.2

variable {earlier : List (String × List (LogEntry D))} {es : List (LogEntry D)}

lemma content_append (es : List (LogEntry D)) (e : LogEntry D) :
    content text (es ++ [e]) = content text es ++ lineOf text e := by
  simp [content]

lemma Chunked.bytesOf (h : Chunked text w earlier es) {c : String × List (LogEntry D)}
    (hc : c ∈ earlier ++ [(w.currentFile, es)]) : w.bytesOf c.1 = content text c.2 := by
  have hmem : (c.1, content text c.2) ∈ w.files.entries := by
    rw [h.files]
    exact List.mem_map.2 ⟨c, hc, rfl⟩
  rw [ByteLog.bytesOf, (Js.Map.mem_entries_iff _ _ _).1 hmem]
  rfl

lemma Chunked.keys (h : Chunked text w earlier es) :
    w.files.keys = (earlier ++ [(w.currentFile, es)]).map Prod.fst := by
  rw [Js.Map.keys, h.files, List.map_map]
  rfl

lemma Chunked.ne_current (h : Chunked text w earlier es) {c : String × List (LogEntry D)}
    (hc : c ∈ earlier) : c.1 ≠ w.currentFile := by
  have hnodup : ((earlier ++ [(w.currentFile, es)]).map Prod.fst).Nodup := by
    rw [← h.keys]
    exact w.files.nodup
  rw [List.map_append, List.nodup_append] at hnodup
  exact hnodup.2.2 _ (List.mem_map_of_mem hc) _ (by simp)

lemma Chunked.walFiles (h : Chunked text w earlier es) :
    ∀ file ∈ w.files.keys, WriteAheadLog.isWalFile file = true := by
  rw [h.keys]
  intro file hfile
  obtain ⟨c, hc, rfl⟩ := List.mem_map.1 hfile
  obtain ⟨v, now, hname, -⟩ := h.names c hc
  rw [hname]
  exact isWalFile_generateFileName v now

/-- A name that is generated later is new. -/
lemma Chunked.fresh (h : Chunked text w earlier es) {v : ByteLog} (hv : w.sequence < v.sequence)
    (now : Timestamp) : v.generateFileName now ∉ w.files.keys := by
  rw [h.keys]
  intro hmem
  obtain ⟨c, hc, hname⟩ := List.mem_map.1 hmem
  obtain ⟨v', now', hv', hle⟩ := h.names c hc
  have hsequence := sequence_of_generateFileName (hv'.symm.trans hname)
  omega

lemma chunked_start (text : LineText (LogEntry D)) (maxFileSize : ℕ) (started : Timestamp) :
    Chunked text ((new maxFileSize .empty).start started) [] [] where
  files := rfl
  stream := rfl
  size := rfl
  names c hc := by
    rw [List.mem_singleton.1 hc]
    exact ⟨new maxFileSize .empty, started, rfl, le_rfl⟩
  bounded c hc := by
    rw [List.mem_singleton.1 hc]
    exact .inl (Nat.zero_le _)

/-- An append that finds room writes to the current file. -/
lemma append_of_le (hstream : w.writeStream = some w.currentFile) {a : Append D}
    (hroom : ¬ w.currentFileSize + (lineOf text (w.nextEntry a)).length > w.maxFileSize) :
    w.append text a =
      { w with
        sequence := w.sequence + 1
        currentFileSize := w.currentFileSize + (lineOf text (w.nextEntry a)).length
        entriesWritten := w.entriesWritten + 1
        files := w.files.set w.currentFile
          (w.bytesOf w.currentFile ++ lineOf text (w.nextEntry a)) } := by
  simp only [ByteLog.append, if_neg hroom, writeLine, hstream]
  rfl

/-- Any other append writes to a new file. -/
lemma append_of_gt {a : Append D}
    (hrotate : w.currentFileSize + (lineOf text (w.nextEntry a)).length > w.maxFileSize)
    {name : String}
    (hname : name = { w with sequence := w.sequence + 1 }.generateFileName a.rotated)
    (hfresh : name ∉ w.files.keys) :
    ∃ files : Js.Map String Buffer,
      files.entries = w.files.entries ++ [(name, lineOf text (w.nextEntry a))] ∧
      w.append text a =
        { w with
          sequence := w.sequence + 1
          currentFile := name
          writeStream := some name
          currentFileSize := 0 + (lineOf text (w.nextEntry a)).length
          entriesWritten := w.entriesWritten + 1
          files := files } := by
  have hnone : w.files.get? name = none := (Js.Map.get?_eq_none_iff w.files name).2 hfresh
  have hopened : (w.files.set name []).entries = w.files.entries ++ [(name, [])] :=
    Js.Map.entries_set_of_not_mem _ _ hfresh
  refine ⟨(w.files.set name []).set name (lineOf text (w.nextEntry a)),
    Js.Map.entries_set_of_split hopened _, ?_⟩
  simp only [ByteLog.append, if_pos hrotate, rotateFile, openWriteStream, writeLine, appendFile,
    ← hname, ByteLog.bytesOf, hnone, Option.getD_none, List.append_nil, Js.Map.get?_set_self,
    Option.getD_some, List.nil_append]

/-- An append for which the last file has no room begins a new one. -/
lemma Chunked.rotate (h : Chunked text w earlier es) (a : Append D)
    (hrotate : w.currentFileSize + (lineOf text (w.nextEntry a)).length > w.maxFileSize) :
    Chunked text (w.append text a) (earlier ++ [(w.currentFile, es)]) [w.nextEntry a] ∧
      laid text (earlier ++ [(w.currentFile, es)] ++
          [((w.append text a).currentFile, [w.nextEntry a])]) =
        laid text (earlier ++ [(w.currentFile, es)]) ++ [w.place text a] := by
  have hfresh := h.fresh (v := { w with sequence := w.sequence + 1 }) (Nat.lt_succ_self _)
    a.rotated
  obtain ⟨files, hfiles, happend⟩ := append_of_gt hrotate rfl hfresh
  constructor
  · rw [happend]
    refine ⟨?_, rfl, ?_, ?_, ?_⟩
    · dsimp only
      rw [hfiles, h.files]
      simp [content]
    · simp [content]
    · intro c hc
      obtain hc | hc := List.mem_append.1 hc
      · obtain ⟨v, now, hname, hle⟩ := h.names c hc
        exact ⟨v, now, hname, hle.trans (Nat.le_succ _)⟩
      · rw [List.mem_singleton.1 hc]
        exact ⟨{ w with sequence := w.sequence + 1 }, a.rotated, rfl, le_rfl⟩
    · intro c hc
      obtain hc | hc := List.mem_append.1 hc
      · exact h.bounded c hc
      · rw [List.mem_singleton.1 hc]
        exact .inr ⟨_, rfl⟩
  · have hnone : w.bytesOf ({ w with sequence := w.sequence + 1 }.generateFileName a.rotated) =
        [] := by
      rw [← Js.Map.get?_eq_none_iff] at hfresh
      rw [ByteLog.bytesOf, hfresh]
      rfl
    rw [laid, List.flatMap_append, place, happend]
    dsimp only
    rw [hnone]
    rfl

/-- An append for which the last file has room extends it. -/
lemma Chunked.extend (h : Chunked text w earlier es) (a : Append D)
    (hroom : ¬ w.currentFileSize + (lineOf text (w.nextEntry a)).length > w.maxFileSize) :
    Chunked text (w.append text a) earlier (es ++ [w.nextEntry a]) ∧
      laid text (earlier ++ [((w.append text a).currentFile, es ++ [w.nextEntry a])]) =
        laid text (earlier ++ [(w.currentFile, es)]) ++ [w.place text a] := by
  have hcurrent : w.bytesOf w.currentFile = content text es :=
    h.bytesOf (c := (w.currentFile, es)) (by simp)
  have happend := append_of_le h.stream hroom
  constructor
  · rw [happend]
    have hsplit : w.files.entries = earlier.map (fun c => (c.1, content text c.2)) ++
        (w.currentFile, content text es) :: [] := by
      rw [h.files]
      simp
    have hsize : (content text (es ++ [w.nextEntry a])).length =
        w.currentFileSize + (lineOf text (w.nextEntry a)).length := by
      rw [content_append, List.length_append, h.size]
    refine ⟨?_, h.stream, hsize.symm, ?_, ?_⟩
    · dsimp only
      rw [Js.Map.entries_set_of_split hsplit, hcurrent, List.map_append, ← content_append]
      rfl
    · intro c hc
      obtain hc | hc := List.mem_append.1 hc
      · obtain ⟨v, now, hname, hle⟩ := h.names c (List.mem_append_left _ hc)
        exact ⟨v, now, hname, hle.trans (Nat.le_succ _)⟩
      · obtain ⟨v, now, hname, hle⟩ := h.names (w.currentFile, es) (by simp)
        rw [List.mem_singleton.1 hc]
        exact ⟨v, now, hname, hle.trans (Nat.le_succ _)⟩
    · intro c hc
      obtain hc | hc := List.mem_append.1 hc
      · exact h.bounded c (List.mem_append_left _ hc)
      · rw [List.mem_singleton.1 hc]
        left
        dsimp only
        omega
  · rw [laid, laid, List.flatMap_append, List.flatMap_append, List.append_assoc, place, happend]
    dsimp only
    rw [hcurrent]
    simp [spread_append]

/-- **An append extends the last file, or begins a new one.** -/
lemma Chunked.append (h : Chunked text w earlier es) (a : Append D) :
    ∃ earlier' es', Chunked text (w.append text a) earlier' es' ∧
      laid text (earlier' ++ [((w.append text a).currentFile, es')]) =
        laid text (earlier ++ [(w.currentFile, es)]) ++ [w.place text a] := by
  by_cases hrotate : w.currentFileSize + (lineOf text (w.nextEntry a)).length > w.maxFileSize
  · exact ⟨_, _, h.rotate a hrotate⟩
  · exact ⟨_, _, h.extend a hrotate⟩

/-- What a run of appends leaves. -/
lemma Chunked.appendAll (h : Chunked text w earlier es) (appends : List (Append D)) :
    ∃ earlier' es', Chunked text (w.appendAll text appends) earlier' es' ∧
      laid text (earlier' ++ [((w.appendAll text appends).currentFile, es')]) =
        laid text (earlier ++ [(w.currentFile, es)]) ++ w.placements text appends := by
  induction appends generalizing w earlier es with
  | nil => exact ⟨earlier, es, h, (List.append_nil _).symm⟩
  | cons a appends ih =>
    obtain ⟨earlier₁, es₁, h₁, hlaid₁⟩ := h.append a
    obtain ⟨earlier₂, es₂, h₂, hlaid₂⟩ := ih h₁
    refine ⟨earlier₂, es₂, h₂, ?_⟩
    rw [ByteLog.appendAll, List.foldl_cons, ← ByteLog.appendAll, hlaid₂, hlaid₁, placements,
      List.append_assoc, List.singleton_append]

/-! ## The replay -/

lemma made_append (sequence : ℕ) (appends : List (Append D)) :
    (made sequence appends).Pairwise (fun e e' => e.sequence < e'.sequence) ∧
      ∀ e ∈ made sequence appends, sequence < e.sequence := by
  induction appends generalizing sequence with
  | nil => exact ⟨.nil, by simp [made]⟩
  | cons a appends ih =>
    obtain ⟨hpairwise, hlater⟩ := ih (sequence + 1)
    refine ⟨List.pairwise_cons.2 ⟨hlater, hpairwise⟩, fun e he => ?_⟩
    obtain rfl | he := List.mem_cons.1 he
    · exact Nat.lt_succ_self _
    · exact (Nat.lt_succ_self _).trans (hlater e he)

@[simp] lemma writeLine_sequence (w : ByteLog) (line : Buffer) :
    (w.writeLine line).sequence = w.sequence := by
  unfold writeLine
  split <;> rfl

@[simp] lemma writeLine_maxFileSize (w : ByteLog) (line : Buffer) :
    (w.writeLine line).maxFileSize = w.maxFileSize := by
  unfold writeLine
  split <;> rfl

lemma sequence_append (text : LineText (LogEntry D)) (w : ByteLog) (a : Append D) :
    (w.append text a).sequence = w.sequence + 1 := by
  simp only [ByteLog.append]
  split <;> simp [rotateFile, openWriteStream, appendFile]

lemma maxFileSize_appendAll (text : LineText (LogEntry D)) (w : ByteLog)
    (appends : List (Append D)) : (w.appendAll text appends).maxFileSize = w.maxFileSize := by
  induction appends generalizing w with
  | nil => rfl
  | cons a appends ih =>
    have hone : (w.append text a).maxFileSize = w.maxFileSize := by
      simp only [ByteLog.append]
      split <;> simp [rotateFile, openWriteStream, appendFile]
    exact (ih _).trans hone

/-- The entries that a run places are those that its appends make. -/
lemma map_entry_placements (text : LineText (LogEntry D)) (w : ByteLog)
    (appends : List (Append D)) :
    (w.placements text appends).map Placed.entry = made w.sequence appends := by
  induction appends generalizing w with
  | nil => rfl
  | cons a appends ih =>
    rw [placements, List.map_cons, ih, sequence_append]
    rfl

/-- An entry survives if its text is not in the file that is cut off, or within what is left. -/
def Survives (text : LineText (LogEntry D)) (file : String) (n : ℕ) (p : Placed D) : Prop :=
  p.file ≠ file ∨ Whole text n p

instance (file : String) (n : ℕ) : DecidablePred (Survives text file n) := fun _ =>
  inferInstanceAs (Decidable (_ ∨ _))

lemma filter_survives_of_ne {file file' : String} (h : file ≠ file') (n offset : ℕ)
    (es : List (LogEntry D)) :
    (spread text file offset es).filter (Survives text file' n) = spread text file offset es := by
  apply List.filter_eq_self.2
  intro p hp
  apply decide_eq_true
  left
  rw [(mem_spread hp).1]
  exact h

lemma filter_survives_self (file : String) (n offset : ℕ) (es : List (LogEntry D)) :
    (spread text file offset es).filter (Survives text file n) =
      (spread text file offset es).filter (Whole text n) := by
  apply List.filter_congr
  intro p hp
  have hfile := (mem_spread hp).1
  simp [Survives, hfile]

lemma bytesOf_cut (w : ByteLog) (file : String) (n : ℕ) (g : String) :
    (w.cut file n).bytesOf g = if g = file then (w.bytesOf g).take n else w.bytesOf g := by
  rw [bytesOf, cut, Js.Map.get?_modify, bytesOf]
  split
  next hg =>
    rw [hg]
    cases w.files.get? file with
    | none => simp
    | some bytes => rfl
  next => rfl

/-- The files, read after the last one has been cut off. -/
lemma Chunked.read_cut (h : Chunked text w earlier es) (n : ℕ) :
    w.files.keys.flatMap (fun file => entriesOf text ((w.cut w.currentFile n).bytesOf file)) =
      ((laid text (earlier ++ [(w.currentFile, es)])).filter
        (Survives text w.currentFile n)).map Placed.entry := by
  have hearlier : ∀ c ∈ earlier,
      entriesOf text ((w.cut w.currentFile n).bytesOf c.1) =
        ((spread text c.1 0 c.2).filter (Survives text w.currentFile n)).map Placed.entry := by
    intro c hc
    have hne := h.ne_current hc
    rw [bytesOf_cut, if_neg hne, h.bytesOf (List.mem_append_left _ hc), entriesOf_content,
      filter_survives_of_ne hne, map_entry_spread]
  have hlast : entriesOf text ((w.cut w.currentFile n).bytesOf w.currentFile) =
      ((spread text w.currentFile 0 es).filter
        (Survives text w.currentFile n)).map Placed.entry := by
    rw [bytesOf_cut, if_pos rfl, h.bytesOf (c := (w.currentFile, es)) (by simp),
      entriesOf_take w.currentFile es n 0, Nat.zero_add, filter_survives_self]
  rw [h.keys, List.flatMap_map, laid, List.filter_flatMap, List.map_flatMap]
  apply List.flatMap_congr
  intro c hc
  obtain hc | hc := List.mem_append.1 hc
  · exact hearlier c hc
  · rw [List.mem_singleton.1 hc]
    exact hlast

/-- The text of an entry stands where it has been placed. -/
lemma stands_of_mem_spread {file : String} {offset : ℕ} {es : List (LogEntry D)} {p : Placed D}
    (hp : p ∈ spread text file offset es) :
    lineOf text p.entry <+: (content text es).drop (p.offset - offset) := by
  induction es generalizing offset with
  | nil => cases hp
  | cons e es ih =>
    have hcontent : content text (e :: es) = lineOf text e ++ content text es := rfl
    rw [hcontent]
    obtain rfl | hp := List.mem_cons.1 hp
    · rw [Nat.sub_self, List.drop_zero]
      exact List.prefix_append _ _
    · have hoffset := (mem_spread hp).2
      have hrest : p.offset - offset =
          (lineOf text e).length + (p.offset - (offset + (lineOf text e).length)) := by
        omega
      rw [hrest, ← List.drop_drop, List.drop_left]
      exact ih hp

/-- **Replay after a torn tail.**  A log is started on an empty directory, and entries are appended
to it.  Each is written to a place of its own, and numbered in the order of the appends.  However
much is then cut off the last file, the replay returns the entries whose text is left whole, in the
order they were appended in.  No file is longer than `maxFileSize`, or it holds a single entry. -/
theorem replay_torn (text : LineText (LogEntry D)) (maxFileSize : ℕ) (started : Timestamp)
    (appends : List (Append D)) (n k : ℕ) :
    let log := (new maxFileSize .empty).start started
    let log' := log.appendAll text appends
    let placed := log.placements text appends
    placed.map Placed.entry = made 0 appends ∧
      (∀ p ∈ placed, lineOf text p.entry <+: (log'.bytesOf p.file).drop p.offset) ∧
      replay text (log'.cut log'.currentFile n) k =
        ((placed.filter (Survives text log'.currentFile n)).map Placed.entry).filter
          (fun e => k < e.sequence) ∧
      ∀ file ∈ log'.getWALFiles, (log'.bytesOf file).length ≤ maxFileSize ∨
        ∃ p ∈ placed, p.file = file ∧ log'.bytesOf file = lineOf text p.entry := by
  intro log log' placed
  have hentries : placed.map Placed.entry = made 0 appends := map_entry_placements text log appends
  obtain ⟨earlier, es, hchunked, hlaid⟩ :=
    (chunked_start text maxFileSize started).appendAll appends
  have hlaid : laid text (earlier ++ [(log'.currentFile, es)]) = placed := hlaid
  refine ⟨hentries, fun p hp => ?_, ?_, fun file hfile => ?_⟩
  · rw [← hlaid] at hp
    obtain ⟨c, hc, hp⟩ := List.mem_flatMap.1 hp
    rw [(mem_spread hp).1, hchunked.bytesOf hc]
    exact stands_of_mem_spread hp
  · have hfiles : (log'.cut log'.currentFile n).getWALFiles.Perm log'.files.keys := by
      have hkeys : (log'.cut log'.currentFile n).files.keys = log'.files.keys :=
        Js.Map.keys_modify _ _ _
      rw [getWALFiles, hkeys, List.filter_eq_self.2 hchunked.walFiles]
      exact sortNames_perm _
    refine sortOn_eq_of_perm ((hfiles.flatMap_right _).trans (List.Perm.of_eq ?_))
      (List.Pairwise.filter _ ?_)
    · rw [← List.filter_flatMap, hchunked.read_cut n, hlaid]
    · have hsub : ((placed.filter (Survives text log'.currentFile n)).map Placed.entry).Sublist
          (placed.map Placed.entry) := List.filter_sublist.map _
      rw [hentries] at hsub
      exact (made_append 0 appends).1.sublist hsub
  · have hkeys : file ∈ log'.files.keys := (List.mem_filter.1 (mem_sortNames.1 hfile)).1
    rw [hchunked.keys] at hkeys
    obtain ⟨c, hc, rfl⟩ := List.mem_map.1 hkeys
    rw [hchunked.bytesOf hc]
    obtain hle | ⟨e, he⟩ := hchunked.bounded c hc
    · left
      exact hle.trans_eq (maxFileSize_appendAll text _ appends)
    · right
      have hmem : ⟨c.1, 0, e⟩ ∈ placed := by
        rw [← hlaid]
        refine List.mem_flatMap.2 ⟨c, hc, ?_⟩
        rw [he]
        exact List.mem_cons_self
      refine ⟨_, hmem, rfl, ?_⟩
      rw [he]
      simp [content]

/-! ## Entries without data -/

section Null

open SnapshotManager

def beforeSequence : String := "\x7b\"sequence\":"

def beforeTime : String := "\"timestamp\":"

def afterTime : WALEntryType → String
  | .delta => "\"type\":\"delta\",\"data\":\"null\""
  | .snapshot => "\"type\":\"snapshot\",\"data\":\"null\""
  | .checkpoint => "\"type\":\"checkpoint\",\"data\":\"null\""

/-- The text of an entry whose data is `null`, up to the closing brace. -/
def nullBody (e : LogEntry Unit) : List Char :=
  beforeSequence.toList ++ ((toString e.sequence).toList ++ ',' ::
    (beforeTime.toList ++ ((toString e.timestamp).toList ++ ',' :: (afterTime e.type).toList)))

def readNull (cs : List Char) : Option (LogEntry Unit) := do
  let cs ← after? beforeSequence cs
  let (sequence, cs) ← digitGroup? cs
  let cs ← after? "," cs
  let cs ← after? beforeTime cs
  let (timestamp, cs) ← digitGroup? cs
  let cs ← after? "," cs
  let type ← [.delta, .snapshot, .checkpoint].find? fun t => cs = (afterTime t).toList ++ ['}']
  pure ⟨sequence, timestamp, type, ()⟩

def asciiByte (c : Char) : UInt8 := UInt8.ofNat c.toNat

def nullBytes (e : LogEntry Unit) : Buffer := (nullBody e ++ ['}']).map asciiByte

lemma find_afterTime (t : WALEntryType) : [WALEntryType.delta, .snapshot, .checkpoint].find?
    (fun t' => (afterTime t).toList ++ ['}'] = (afterTime t').toList ++ ['}']) = some t := by
  cases t <;> simp [afterTime]

lemma readNull_nullBody (e : LogEntry Unit) : readNull (nullBody e ++ ['}']) = some e := by
  have hsequence := digitGroup?_append e.sequence (c := ',') rfl
  have htimestamp := digitGroup?_append e.timestamp (c := ',') rfl
  have hcomma (cs : List Char) : after? "," (',' :: cs) = some cs := after?_append "," cs
  simp only [readNull, nullBody, List.append_assoc, List.cons_append, after?_append,
    Option.bind_eq_bind, Option.bind_some, hsequence, htimestamp, hcomma, find_afterTime,
    Option.pure_def]

/-- Between a blank and a closing brace. -/
lemma nullBody_range (e : LogEntry Unit) : ∀ c ∈ nullBody e, 32 < c.toNat ∧ c.toNat < 125 := by
  have hdigits : ∀ n : ℕ, ∀ c ∈ (toString n).toList, 32 < c.toNat ∧ c.toNat < 125 := by
    intro n c hc
    have hn : (toString n).toList = Nat.toDigits 10 n := Nat.toList_repr
    rw [hn] at hc
    have hdigit := Nat.isDigit_of_mem_toDigits (by norm_num) le_rfl hc
    rw [Char.isDigit_iff_toNat] at hdigit
    simp only [Char.reduceToNat] at hdigit
    omega
  have hsequence : ∀ c ∈ beforeSequence.toList, 32 < c.toNat ∧ c.toNat < 125 := by
    simp [beforeSequence]
  have htime : ∀ c ∈ beforeTime.toList, 32 < c.toNat ∧ c.toNat < 125 := by
    simp [beforeTime]
  have hend : ∀ t, ∀ c ∈ (afterTime t).toList, 32 < c.toNat ∧ c.toNat < 125 := by
    intro t
    cases t <;> simp [afterTime]
  have hcomma : 32 < ','.toNat ∧ ','.toNat < 125 := by decide
  intro c hc
  simp only [nullBody, List.mem_append, List.mem_cons] at hc
  obtain hc | hc | rfl | hc | hc | rfl | hc := hc
  · exact hsequence c hc
  · exact hdigits _ c hc
  · exact hcomma
  · exact htime c hc
  · exact hdigits _ c hc
  · exact hcomma
  · exact hend _ c hc

lemma nullBytes_eq (e : LogEntry Unit) : nullBytes e = (nullBody e).map asciiByte ++ [125] := by
  rw [nullBytes, List.map_append]
  rfl

lemma nullBody_bytes (e : LogEntry Unit) :
    ∀ b ∈ (nullBody e).map asciiByte, 32 < b.toNat ∧ b.toNat < 125 := by
  intro b hb
  obtain ⟨c, hc, rfl⟩ := List.mem_map.1 hb
  have hrange := nullBody_range e c hc
  rw [asciiByte, UInt8.toNat_ofNat', Nat.mod_eq_of_lt (by omega)]
  exact hrange

lemma nullBytes_chars (e : LogEntry Unit) :
    (nullBytes e).map (fun b => Char.ofNat b.toNat) = nullBody e ++ ['}'] := by
  rw [nullBytes, List.map_map]
  refine (List.map_congr_left fun c hc => ?_).trans (List.map_id _)
  have hrange : c.toNat < 256 := by
    obtain hc | hc := List.mem_append.1 hc
    · exact (nullBody_range e c hc).2.trans (by decide)
    · rw [List.mem_singleton.1 hc]
      decide
  rw [Function.comp_apply, asciiByte, UInt8.toNat_ofNat', Nat.mod_eq_of_lt hrange,
    Char.ofNat_toNat, id_eq]

/-- The texts of entries whose data is `null`. -/
def nullText : LineText (LogEntry Unit) where
  stringify := nullBytes
  parse line := (readNull (line.map fun b => Char.ofNat b.toNat)).filter fun e =>
    nullBytes e = line
  blank line := line.all fun b => b = 32 || 9 ≤ b && b ≤ 13
  parse_stringify e := by
    rw [nullBytes_chars, readNull_nullBody]
    simp
  newline_notMem e h := by
    rw [nullBytes_eq] at h
    obtain h | h := List.mem_append.1 h
    · have hrange := nullBody_bytes e _ h
      simp [newline] at hrange
    · simp [newline] at h
  torn e line hstart hne := by
    apply Option.filter_eq_none_iff.2
    rintro e' - hline
    rw [nullBytes_eq] at hstart hne
    obtain h | h := List.prefix_concat_iff.1 hstart
    · exact hne h
    · -- A text has a closing brace, which is the last byte of the other one.
      have hbrace : (125 : UInt8) ∈ line := by
        rw [← of_decide_eq_true hline, nullBytes_eq]
        simp
      have hrange := nullBody_bytes e _ (h.subset hbrace)
      simp at hrange
  blank_nil := rfl
  not_blank e := by
    rw [nullBytes_eq]
    simp

/-- Two entries in files of their own, of which the second is cut off. -/
theorem replay_torn_null :
    (replay nullText ((((new 80 .empty).start 1).appendAll nullText
      [⟨.delta, (), 2, 2⟩, ⟨.checkpoint, (), 3, 3⟩]).cut "wal-3-2.log" 20) 0).map
        LogEntry.sequence = [1] := by
  have htorn := (replay_torn nullText 80 1 [⟨.delta, (), 2, 2⟩, ⟨.checkpoint, (), 3, 3⟩] 20 0).2.2.1
  have hfile : (((new 80 .empty).start 1).appendAll nullText
      [⟨.delta, (), 2, 2⟩, ⟨.checkpoint, (), 3, 3⟩]).currentFile = "wal-3-2.log" := by
    decide +kernel
  rw [hfile] at htorn
  rw [htorn]
  decide +kernel

end Null

end ByteLog

end SyncEngine
