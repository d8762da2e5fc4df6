import SyncEngine.Core.StateManager
import SyncEngine.Js.Sort

/-!
# The snapshot files and their index

The parts of `src/persistence/snapshot-manager.ts` that look at files and at the index only;
the parts that work on the store and the log are in `Persistence/Engine.lean`.  A snapshot file
is the snapshot its text parses to, or nothing where the text does not parse, together with its
length in bytes.

A file is named after the version and the timestamp of its snapshot.  The index built at
start-up reads both back from the name, and `matchName_snapshotName` says that it reads what
was written; so a name determines the version and the timestamp (`snapshotName_inj`).
-/

namespace SyncEngine

open Js

structure SnapshotFile where
  content : Option SnapshotDoc
  bytes : ℕ

/-- The snapshot directory. -/
abbrev SnapshotDir := Js.Map String SnapshotFile

structure SnapshotMeta where
  version : ℕ
  timestamp : Timestamp
  entityCount : ℕ
  checksum : String
  filename : String
  sizeBytes : ℕ
  deriving DecidableEq

structure SnapshotManager where
  snapshots : List SnapshotMeta
  maxSnapshots : ℕ
  snapshotsTaken : ℕ
  /-- The length in bytes of the text a snapshot is written as. -/
  contentBytes : SnapshotDoc → ℕ

namespace SnapshotManager

/-- `new SnapshotManager(stateManager, wal, maxSnapshots)`. -/
def new (maxSnapshots : ℕ) (contentBytes : SnapshotDoc → ℕ) : SnapshotManager :=
  ⟨[], maxSnapshots, 0, contentBytes⟩

/-! ## File names -/

def snapshotName (version : ℕ) (timestamp : Timestamp) : String :=
  "snapshot-" ++ toString version ++ "-" ++ toString timestamp ++ ".json"

/-- The text after a given beginning. -/
def after? (start : String) (cs : List Char) : Option (List Char) :=
  if start.toList.isPrefixOf cs then some (cs.drop start.toList.length) else none

/-- A group of digits, and the text after it. -/
def digitGroup? (cs : List Char) : Option (ℕ × List Char) :=
  (digits? (cs.takeWhile Char.isDigit)).map fun n => (n, cs.dropWhile Char.isDigit)

/-- The groups of `/snapshot-(\d+)-(\d+)\.json/` matched at the start of the text. -/
def matchHere (cs : List Char) : Option (ℕ × Timestamp) := do
  let cs ← after? "snapshot-" cs
  let (version, cs) ← digitGroup? cs
  let cs ← after? "-" cs
  let (timestamp, cs) ← digitGroup? cs
  let _ ← after? ".json" cs
  pure (version, timestamp)

/-- `filename.match(/snapshot-(\d+)-(\d+)\.json/)`: the leftmost match. -/
def matchName (filename : String) : Option (ℕ × Timestamp) :=
  filename.toList.tails.findSome? matchHere

lemma after?_append (start : String) (cs : List Char) :
    after? start (start.toList ++ cs) = some cs := by
  have h : start.toList.isPrefixOf (start.toList ++ cs) = true :=
    List.isPrefixOf_iff_prefix.mpr (List.prefix_append _ _)
  rw [after?, if_pos h, List.drop_left]

lemma digitGroup?_append (n : ℕ) {c : Char} (hc : c.isDigit = false) (cs : List Char) :
    digitGroup? ((toString n).toList ++ c :: cs) = some (n, c :: cs) := by
  have hn : (toString n).toList = Nat.toDigits 10 n := Nat.toList_repr
  have hall : ∀ d ∈ Nat.toDigits 10 n, d.isDigit = true := fun d hd =>
    Nat.isDigit_of_mem_toDigits (by norm_num) le_rfl hd
  have htake : (Nat.toDigits 10 n ++ c :: cs).takeWhile Char.isDigit = Nat.toDigits 10 n := by
    rw [List.takeWhile_append_of_pos hall, List.takeWhile_cons_of_neg (by simp [hc]),
      List.append_nil]
  have hdrop : (Nat.toDigits 10 n ++ c :: cs).dropWhile Char.isDigit = c :: cs := by
    rw [List.dropWhile_append_of_pos hall, List.dropWhile_cons_of_neg (by simp [hc])]
  rw [digitGroup?, hn, htake, hdrop, digits?_toDigits]
  rfl

/-- **A name is read back as it was written.** -/
lemma matchName_snapshotName (version : ℕ) (timestamp : Timestamp) :
    matchName (snapshotName version timestamp) = some (version, timestamp) := by
  have hname : (snapshotName version timestamp).toList =
      "snapshot-".toList ++ ((toString version).toList ++ '-' ::
        ((toString timestamp).toList ++ '.' :: "json".toList)) := by
    simp [snapshotName, String.toList_append]
  have hhere : matchHere (snapshotName version timestamp).toList = some (version, timestamp) := by
    have hjson : after? ".json" ('.' :: "json".toList) = some [] := by decide
    have hdash (cs : List Char) : after? "-" ('-' :: cs) = some cs := after?_append "-" cs
    have hversion := digitGroup?_append version (c := '-') rfl
    have htimestamp := digitGroup?_append timestamp (c := '.') rfl
    simp only [hname, matchHere, after?_append, hversion, hdash, htimestamp, hjson,
      Option.bind_eq_bind, Option.bind_some, Option.pure_def]
  obtain ⟨c, cs, hcs⟩ := List.exists_cons_of_ne_nil
    (show (snapshotName version timestamp).toList ≠ [] by rw [hname]; simp)
  rw [matchName, hcs, List.tails_cons, List.findSome?_cons, ← hcs, hhere]

lemma snapshotName_inj {v w : ℕ} {t u : Timestamp} :
    snapshotName v t = snapshotName w u ↔ v = w ∧ t = u := by
  constructor
  · intro h
    have := congrArg matchName h
    rw [matchName_snapshotName, matchName_snapshotName] at this
    simpa using this
  · rintro ⟨rfl, rfl⟩
    rfl

/-! ## The index -/

/-- The file test of `loadSnapshotIndex`. -/
def isSnapshotFile (filename : String) : Bool :=
  "snapshot-".toList.isPrefixOf filename.toList && ".json".toList.isSuffixOf filename.toList

lemma isSnapshotFile_snapshotName (version : ℕ) (timestamp : Timestamp) :
    isSnapshotFile (snapshotName version timestamp) = true := by
  simp only [isSnapshotFile, snapshotName, String.toList_append, Bool.and_eq_true,
    List.isPrefixOf_iff_prefix, List.isSuffixOf_iff_suffix, List.append_assoc]
  refine ⟨List.prefix_append _ _, ?_⟩
  simp only [← List.append_assoc]
  exact List.suffix_append _ _

/-- The index entry `loadSnapshotIndex` makes of a file, if its name matches. -/
def indexEntry (dir : SnapshotDir) (filename : String) : Option SnapshotMeta :=
  match dir.get? filename, matchName filename with
  | some file, some (version, timestamp) =>
    some ⟨version, timestamp, 0, "", filename, file.bytes⟩
  | _, _ => none

def loadSnapshotIndex (s : SnapshotManager) (dir : SnapshotDir) : SnapshotManager :=
  { s with snapshots :=
      (sortNames (dir.keys.filter isSnapshotFile)).filterMap (indexEntry dir) }

/-- The loop of `pruneOldSnapshots`: as long as the index is over the limit, its oldest entry
goes, together with the file of that name. -/
def prune (max : ℕ) : List SnapshotMeta → SnapshotDir → List SnapshotMeta × SnapshotDir
  | [], dir => ([], dir)
  | oldest :: rest, dir =>
    if (oldest :: rest).length > max then prune max rest (dir.delete oldest.filename)
    else (oldest :: rest, dir)

def pruneOldSnapshots (s : SnapshotManager) (dir : SnapshotDir) : SnapshotManager × SnapshotDir :=
  let (snapshots, dir') := prune s.maxSnapshots s.snapshots dir
  ({ s with snapshots := snapshots }, dir')

/-- The entry of the latest snapshot. -/
def latest (s : SnapshotManager) : Option SnapshotMeta := s.snapshots.getLast?

/-- An index within the limit is left alone. -/
lemma prune_of_le {max : ℕ} {l : List SnapshotMeta} (h : l.length ≤ max) (dir : SnapshotDir) :
    prune max l dir = (l, dir) := by
  cases l with
  | nil => rfl
  | cons oldest rest => rw [prune, if_neg (not_lt.mpr h)]

/-- One entry over the limit: the oldest goes. -/
lemma prune_of_eq {max : ℕ} {oldest : SnapshotMeta} {rest : List SnapshotMeta}
    (h : rest.length = max) (dir : SnapshotDir) :
    prune max (oldest :: rest) dir = (rest, dir.delete oldest.filename) := by
  rw [prune, if_pos (by simp [h]), prune_of_le h.le]

/-- By how much an index is over the limit, behind its first entry. -/
lemma excess_cons {max : ℕ} {oldest : SnapshotMeta} {rest : List SnapshotMeta}
    (h : max < (oldest :: rest).length) :
    (oldest :: rest).length - max = rest.length - max + 1 := by
  rw [List.length_cons] at h ⊢
  omega

/-- The index loses as many of its first entries as it is over the limit. -/
lemma prune_fst (max : ℕ) (l : List SnapshotMeta) (dir : SnapshotDir) :
    (prune max l dir).1 = l.drop (l.length - max) := by
  induction l generalizing dir with
  | nil => simp [prune]
  | cons oldest rest ih =>
      rw [prune]
      split
      next hlt =>
        rw [ih, excess_cons hlt, List.drop_succ_cons]
      next hle => rw [Nat.sub_eq_zero_of_le (not_lt.mp hle), List.drop_zero]

/-- The files of these entries go, and no others. -/
lemma has_prune (max : ℕ) (l : List SnapshotMeta) (dir : SnapshotDir) (f : String) :
    (prune max l dir).2.has f = true ↔
      dir.has f = true ∧ f ∉ (l.take (l.length - max)).map SnapshotMeta.filename := by
  induction l generalizing dir with
  | nil => simp [prune]
  | cons oldest rest ih =>
      rw [prune]
      split
      next hlt =>
        rw [ih, excess_cons hlt, List.take_succ_cons, List.map_cons, List.mem_cons, not_or,
          Js.Map.has, Js.Map.get?_delete]
        by_cases hf : f = oldest.filename
        · simp [hf]
        · simp [hf, Js.Map.has]
      next hle =>
        rw [Nat.sub_eq_zero_of_le (not_lt.mp hle), List.take_zero]
        simp

/-- Pruning writes no file: what is left of a file is what was there. -/
lemma get?_prune {max : ℕ} {f : String} {file : SnapshotFile} (l : List SnapshotMeta)
    (dir : SnapshotDir) (h : (prune max l dir).2.get? f = some file) : dir.get? f = some file := by
  induction l generalizing dir with
  | nil => exact h
  | cons oldest rest ih =>
      rw [prune] at h
      split at h
      · have := ih _ h
        rw [Js.Map.get?_delete] at this
        split at this
        · cases this
        · exact this
      · exact h

/-- The latest entry of an index built at start-up is that of the last file in name order. -/
lemma latest_loadSnapshotIndex (s : SnapshotManager) {dir : SnapshotDir} {v : ℕ} {t : Timestamp}
    (h : (sortNames (dir.keys.filter isSnapshotFile)).getLast? = some (snapshotName v t)) :
    ∃ entry file, (s.loadSnapshotIndex dir).latest = some entry ∧
      entry.filename = snapshotName v t ∧ dir.get? (snapshotName v t) = some file := by
  obtain ⟨names, hnames⟩ := List.getLast?_eq_some_iff.mp h
  have hmem : snapshotName v t ∈ sortNames (dir.keys.filter isSnapshotFile) := by
    rw [hnames]; simp
  have hkey : snapshotName v t ∈ dir.keys := (List.mem_filter.mp (mem_sortNames.mp hmem)).1
  obtain ⟨file, hfile⟩ := Option.isSome_iff_exists.mp ((Js.Map.mem_keys_iff _ _).mp hkey)
  refine ⟨⟨v, t, 0, "", snapshotName v t, file.bytes⟩, file, ?_, rfl, hfile⟩
  have hentry : indexEntry dir (snapshotName v t) =
      some ⟨v, t, 0, "", snapshotName v t, file.bytes⟩ := by
    rw [indexEntry, hfile, matchName_snapshotName]
  rw [latest, loadSnapshotIndex, hnames, List.filterMap_append]
  simp [hentry]

end SnapshotManager

end SyncEngine
