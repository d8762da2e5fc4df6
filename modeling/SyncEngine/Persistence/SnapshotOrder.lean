import SyncEngine.Js.Numerals
import SyncEngine.Persistence.SnapshotIndex

/-!
# The order of the snapshots

The index is read as a history: its last entry is the latest snapshot, its first the one to be
pruned.  While a process runs it is one, because a snapshot is appended when it is taken.  At
start-up the history is rebuilt by sorting the file names, and names are sorted as texts, in
which `snapshot-9-…` comes after `snapshot-10-…`.

`stampName_le_iff` says which of two snapshots comes first: the older one, if and only if its
version is at most what as many first digits of the newer version make.  `newest_snapshot_iff`
says that this is all there is to it: on a set of snapshot files every start-up loads the newest
and every snapshot taken afterwards prunes only what is older than all that it keeps, if and
only if that holds of every two of the files.

The invariant of the runs is `Aged`: the entries of the index are in the order of their age,
every snapshot file has one, and whatever `createSnapshot` answers next is at least as new as
all of them.
-/

namespace SyncEngine

open Js

/-- The version and the timestamp of a snapshot.  One of two is older if neither its version nor
its timestamp is greater, and they are not the same. -/
abbrev Stamp := ℕ × Timestamp

def SnapshotMeta.stamp (s : SnapshotMeta) : Stamp := (s.version, s.timestamp)

def SnapshotDoc.stamp (d : SnapshotDoc) : Stamp := (d.version, d.timestamp)

namespace SnapshotManager

def stampName (a : Stamp) : String := snapshotName a.1 a.2

@[simp] lemma stampName_inj {a b : Stamp} : stampName a = stampName b ↔ a = b := by
  rw [stampName, stampName, snapshotName_inj, Prod.ext_iff]

/-! ## The order of the names -/

/-- The name of the older snapshot comes first: its version is at most the number that as many
first digits of the other version make; and for one version, the same of the timestamps. -/
def Leads (a b : Stamp) : Prop :=
  a.1 ≤ leading (numDigits a.1) b.1 ∧ (a.1 = b.1 → a.2 ≤ leading (numDigits a.2) b.2)

instance (a b : Stamp) : Decidable (Leads a b) := by unfold Leads; infer_instance

lemma lt_of_isDigit {c d : Char} (hc : c < '0') (hd : d.isDigit = true) : c < d := by
  refine hc.trans_le ?_
  simp only [Char.isDigit, Bool.and_eq_true, decide_eq_true_eq] at hd
  exact hd.1

/-- **The order of two file names.** -/
lemma stampName_le_iff {a b : Stamp} (h : a ≤ b) : stampName a ≤ stampName b ↔ Leads a b := by
  have hname (a : Stamp) : (stampName a).toList = "snapshot-".toList ++
      (Nat.toDigits 10 a.1 ++ '-' :: (Nat.toDigits 10 a.2 ++ '.' :: "json".toList)) := by
    simp [stampName, snapshotName, String.toList_append]
  have hdash : ∀ d : Char, d.isDigit = true → '-' < d := fun d => lt_of_isDigit (by decide)
  have hdot : ∀ d : Char, d.isDigit = true → '.' < d := fun d => lt_of_isDigit (by decide)
  rw [String.le_iff_toList_le, hname, hname, append_le_append_iff _ _ rfl,
    numeral_le_iff h.1 hdash, numeral_le_iff h.2 hdot]
  simp [Leads]

/-! ## Sets of snapshot files -/

/-- The snapshot files of the directory are those of the given snapshots, from the oldest to the
newest, and each holds a snapshot of the version and the timestamp in its name. -/
structure Written (dir : SnapshotDir) (stamps : List Stamp) : Prop where
  sorted : stamps.Pairwise (· < ·)
  files : (dir.keys.filter isSnapshotFile).Perm (stamps.map stampName)
  holds : ∀ a ∈ stamps,
    ((dir.get? (stampName a)).bind SnapshotFile.content).map SnapshotDoc.stamp = some a

lemma Written.nodup {dir : SnapshotDir} {stamps : List Stamp} (h : Written dir stamps) :
    (stamps.map stampName).Nodup :=
  h.files.nodup_iff.mp (dir.nodup_keys.filter _)

lemma Written.le_newest {dir : SnapshotDir} {stamps : List Stamp} (h : Written dir stamps)
    {a newest : Stamp} (hn : newest ∈ stamps.getLast?) (ha : a ∈ stamps) : a ≤ newest := by
  obtain ⟨before, rfl⟩ := List.getLast?_eq_some_iff.mp hn
  rcases List.mem_append.mp ha with ha | ha
  · exact ((List.pairwise_append.mp h.sorted).2.2 a ha newest (by simp)).le
  · rw [List.mem_singleton.mp ha]

/-- One file is of an older snapshot than another. -/
def Older (f g : String) : Prop := ∃ a b : Stamp, f = stampName a ∧ g = stampName b ∧ a < b

lemma older_stampName_iff {a b : Stamp} : Older (stampName a) (stampName b) ↔ a < b := by
  refine ⟨?_, fun h => ⟨a, b, rfl, rfl, h⟩⟩
  rintro ⟨c, d, hc, hd, h⟩
  rw [stampName_inj] at hc hd
  rwa [hc, hd]

lemma Older.asymm {f g : String} (h : Older f g) : ¬ Older g f := by
  obtain ⟨a, b, rfl, rfl, hab⟩ := h
  rw [older_stampName_iff]
  exact hab.asymm

/-- **Sorting the names sorts the snapshots**, exactly if every name comes before those of newer
snapshots. -/
lemma sortNames_eq_iff {stamps : List Stamp} (h : stamps.Pairwise (· < ·)) :
    sortNames (stamps.map stampName) = stamps.map stampName ↔ stamps.Pairwise Leads := by
  have hle : (stamps.map stampName).Pairwise (· ≤ ·) ↔ stamps.Pairwise Leads := by
    rw [List.pairwise_map]
    exact ⟨fun hp => (hp.and h).imp fun hab => (stampName_le_iff hab.2.le).mp hab.1,
      fun hp => (hp.and h).imp fun hab => (stampName_le_iff hab.2.le).mpr hab.1⟩
  rw [← hle]
  exact ⟨fun hsort => hsort ▸ pairwise_sortNames _, sortNames_eq_of_perm (List.Perm.refl _)⟩

/-- A snapshot file holds a snapshot of the version and the timestamp in its name. -/
def NameHolds (dir : SnapshotDir) : Prop :=
  ∀ a, dir.has (stampName a) = true →
    ((dir.get? (stampName a)).bind SnapshotFile.content).map SnapshotDoc.stamp = some a

lemma Written.nameHolds {dir : SnapshotDir} {stamps : List Stamp} (h : Written dir stamps) :
    NameHolds dir := by
  intro a ha
  have hkey : stampName a ∈ dir.keys.filter isSnapshotFile :=
    List.mem_filter.mpr ⟨(Js.Map.mem_keys_iff _ _).mpr ha, isSnapshotFile_snapshotName _ _⟩
  obtain ⟨b, hb, hab⟩ := List.mem_map.mp (h.files.mem_iff.mp hkey)
  obtain rfl := stampName_inj.mp hab
  exact h.holds b hb

/-! ## The index at start-up -/

lemma indexEntry_eq_some {dir : SnapshotDir} {a : Stamp} {file : SnapshotFile}
    (h : dir.get? (stampName a) = some file) :
    indexEntry dir (stampName a) = some ⟨a.1, a.2, 0, "", stampName a, file.bytes⟩ := by
  rw [indexEntry, h, stampName, matchName_snapshotName]

/-- Every file has its entry, in the order of the names. -/
lemma loadSnapshotIndex_names {dir : SnapshotDir} {stamps : List Stamp} (h : Written dir stamps)
    (s : SnapshotManager) :
    (s.loadSnapshotIndex dir).snapshots.map SnapshotMeta.filename =
        sortNames (stamps.map stampName) ∧
      ∀ entry ∈ (s.loadSnapshotIndex dir).snapshots, entry.filename = stampName entry.stamp := by
  have hsort : sortNames (dir.keys.filter isSnapshotFile) = sortNames (stamps.map stampName) :=
    sortNames_eq_of_perm (h.files.trans (sortNames_perm _).symm) (pairwise_sortNames _)
  have hnames : ∀ f ∈ sortNames (stamps.map stampName), ∃ a file,
      f = stampName a ∧ dir.get? f = some file := by
    intro f hf
    obtain ⟨a, ha, rfl⟩ := List.mem_map.mp (mem_sortNames.mp hf)
    have hholds := h.holds a ha
    cases hfile : dir.get? (stampName a) with
    | none => simp [hfile] at hholds
    | some file => exact ⟨a, file, rfl, rfl⟩
  rw [loadSnapshotIndex, hsort]
  simp only
  clear hsort
  generalize sortNames (stamps.map stampName) = names at hnames ⊢
  induction names with
  | nil => simp
  | cons f names ih =>
      obtain ⟨hmap, hentries⟩ := ih fun f hf => hnames f (List.mem_cons_of_mem _ hf)
      obtain ⟨a, file, rfl, hfile⟩ := hnames f (List.mem_cons_self ..)
      rw [List.filterMap_cons_some (indexEntry_eq_some hfile)]
      refine ⟨by rw [List.map_cons, hmap], fun entry hentry => ?_⟩
      rcases List.mem_cons.mp hentry with rfl | hentry
      · rfl
      · exact hentries entry hentry

/-- The index is that of the snapshots in the order of their age, if the names are in that
order. -/
lemma loadSnapshotIndex_stamps {dir : SnapshotDir} {stamps : List Stamp} (h : Written dir stamps)
    (hleads : stamps.Pairwise Leads) (s : SnapshotManager) :
    (s.loadSnapshotIndex dir).snapshots.map SnapshotMeta.stamp = stamps := by
  obtain ⟨hnames, hnamed⟩ := loadSnapshotIndex_names h s
  rw [(sortNames_eq_iff h.sorted).mpr hleads] at hnames
  have hinj : Function.Injective stampName := fun a b hab => stampName_inj.mp hab
  refine hinj.list_map ?_
  rw [← hnames, List.map_map]
  exact (List.map_congr_left hnamed).symm

/-! ## Pruning -/

/-- The entries are in the order of their age, and every snapshot file has one. -/
structure Ordered (index : List SnapshotMeta) (dir : SnapshotDir) : Prop where
  named : ∀ s ∈ index, s.filename = stampName s.stamp
  sorted : index.Pairwise fun s t => s.stamp ≤ t.stamp
  files : ∀ f, isSnapshotFile f = true → dir.has f = true → ∃ s ∈ index, s.filename = f

variable {index : List SnapshotMeta} {dir : SnapshotDir}

/-- A new entry that is at least as new as the others. -/
lemma Ordered.append (h : Ordered index dir) {s : SnapshotMeta}
    (hs : s.filename = stampName s.stamp) (hle : ∀ t ∈ index, t.stamp ≤ s.stamp)
    (file : SnapshotFile) : Ordered (index ++ [s]) (dir.set s.filename file) where
  named := by
    intro t ht
    rw [List.mem_append, List.mem_singleton] at ht
    rcases ht with ht | rfl
    · exact h.named t ht
    · exact hs
  sorted := by
    rw [List.pairwise_append]
    refine ⟨h.sorted, List.pairwise_singleton _ _, fun t ht u hu => ?_⟩
    rw [List.mem_singleton.mp hu]
    exact hle t ht
  files := by
    intro f hf hhas
    by_cases hfs : f = s.filename
    · exact ⟨s, by simp, hfs.symm⟩
    · rw [Js.Map.has, Js.Map.get?_set_of_ne _ _ hfs] at hhas
      obtain ⟨t, ht, htf⟩ := h.files f hf hhas
      exact ⟨t, List.mem_append_left _ ht, htf⟩

/-- What is left of the files has its entries in what is left of the index. -/
lemma Ordered.mem_drop (h : Ordered index dir) {max : ℕ} {f : String}
    (hf : isSnapshotFile f = true) (hhas : (prune max index dir).2.has f = true) :
    ∃ s ∈ index.drop (index.length - max), s.filename = f := by
  obtain ⟨hdir, hkept⟩ := (has_prune max index dir f).mp hhas
  obtain ⟨s, hs, rfl⟩ := h.files f hf hdir
  rw [← List.take_append_drop (index.length - max) index, List.mem_append] at hs
  exact ⟨s, hs.resolve_left fun htake => hkept (List.mem_map_of_mem htake), rfl⟩

lemma Ordered.prune (h : Ordered index dir) (max : ℕ) :
    Ordered (SnapshotManager.prune max index dir).1 (SnapshotManager.prune max index dir).2 where
  named := by
    rw [prune_fst]
    exact fun s hs => h.named s (List.mem_of_mem_drop hs)
  sorted := by
    rw [prune_fst]
    exact h.sorted.sublist (List.drop_sublist _ _)
  files := by
    rw [prune_fst]
    exact fun f hf hhas => h.mem_drop hf hhas

/-- **Pruning deletes the oldest files.** -/
lemma Ordered.older (h : Ordered index dir) {max : ℕ} {f g : String} (hdir : dir.has f = true)
    (hgone : (SnapshotManager.prune max index dir).2.has f = false) (hg : isSnapshotFile g = true)
    (hkept : (SnapshotManager.prune max index dir).2.has g = true) : Older f g := by
  have htake : f ∈ (index.take (index.length - max)).map SnapshotMeta.filename := by
    by_contra hnot
    rw [(has_prune max index dir f).mpr ⟨hdir, hnot⟩] at hgone
    cases hgone
  obtain ⟨s, hs, rfl⟩ := List.mem_map.mp htake
  obtain ⟨t, ht, rfl⟩ := h.mem_drop hg hkept
  have hne : s.filename ≠ t.filename := by
    intro heq
    rw [heq, hkept] at hgone
    cases hgone
  have hst : s.stamp ≤ t.stamp := by
    have hsorted := h.sorted
    rw [← List.take_append_drop (index.length - max) index, List.pairwise_append] at hsorted
    exact hsorted.2.2 s hs t ht
  have hsn := h.named s (List.mem_of_mem_take hs)
  have htn := h.named t (List.mem_of_mem_drop ht)
  refine ⟨s.stamp, t.stamp, hsn, htn, lt_of_le_of_ne hst fun heq => hne ?_⟩
  rw [hsn, htn, heq]

/-- The files with their entries in order are those of a list of snapshots. -/
lemma Ordered.exists_written (h : Ordered index dir) (hholds : NameHolds dir) :
    ∃ stamps, Written dir stamps := by
  let kept : List Stamp :=
    ((index.map SnapshotMeta.stamp).filter fun a => dir.has (stampName a)).dedup
  have hkept : ∀ a ∈ kept, dir.has (stampName a) = true := by
    intro a ha
    exact (List.mem_filter.mp (List.mem_dedup.mp ha)).2
  refine ⟨kept, ?_, ?_, fun a ha => hholds a (hkept a ha)⟩
  · have hsorted : kept.Pairwise (· ≤ ·) :=
      ((List.pairwise_map.mpr h.sorted).filter _).sublist (List.dedup_sublist _)
    exact (hsorted.and (List.nodup_dedup _)).imp fun hab => lt_of_le_of_ne hab.1 hab.2
  · have hinj : Function.Injective stampName := fun a b hab => stampName_inj.mp hab
    refine (List.perm_ext_iff_of_nodup (dir.nodup_keys.filter _)
      ((List.nodup_dedup _).map hinj)).mpr fun f => ?_
    rw [List.mem_filter, Js.Map.mem_keys_iff, List.mem_map]
    constructor
    · rintro ⟨hf, hsnap⟩
      obtain ⟨s, hs, rfl⟩ := h.files f hsnap hf
      rw [h.named s hs] at hf ⊢
      refine ⟨s.stamp, List.mem_dedup.mpr (List.mem_filter.mpr ⟨List.mem_map_of_mem hs, hf⟩), rfl⟩
    · rintro ⟨a, ha, rfl⟩
      exact ⟨hkept a ha, isSnapshotFile_snapshotName a.1 a.2⟩

end SnapshotManager

namespace Engine

open SnapshotManager

variable {M V : Type} [Memory M V]

/-! ## What a process does with the files -/

/-- `loadLatestSnapshot` loads the file of the given snapshot. -/
structure Opens (e : Engine M V) (newest : Stamp) : Prop where
  latest : e.snapshotManager.latest.map SnapshotMeta.filename = some (stampName newest)
  loads : e.loadLatestSnapshot.2 = true
  version : e.loadLatestSnapshot.1.stateManager.version = newest.1

/-- Every file that a snapshot prunes is older than every snapshot file that it keeps. -/
def PrunesOldest (e : Engine M V) (now : Timestamp) : Prop :=
  ∀ f g, (e.writtenDir now).has f = true → (e.takeSnapshot now).disk.snapshots.has f = false →
    isSnapshotFile g = true → (e.takeSnapshot now).disk.snapshots.has g = true → Older f g

/-- The calls are made one after another, and none before `now`. -/
def Clocked (now : Timestamp) (calls : List (Call × Timestamp)) : Prop :=
  (now :: calls.map Prod.snd).Pairwise (· ≤ ·)

/-- The invariant of the runs, at the time of the last call. -/
structure Aged (e : Engine M V) (now : Timestamp) : Prop where
  ordered : Ordered e.snapshotManager.snapshots e.disk.snapshots
  stamp_le : ∀ s ∈ e.snapshotManager.snapshots, s.stamp ≤ (e.stateManager.version, now)
  cached : ∀ c, e.stateManager.cache = some c → c.timestamp ≤ now ∧
    (c.version = e.stateManager.version →
      ∀ s ∈ e.snapshotManager.snapshots, s.timestamp ≤ c.timestamp)

/-! ## Calls -/

omit [Memory M V] in
/-- A call that takes no snapshot. -/
lemma Aged.of_moves {e e' : Engine M V} {now t : Timestamp} (h : e.Aged now) (hle : now ≤ t)
    (hsm : e'.snapshotManager = e.snapshotManager) (hdir : e'.disk.snapshots = e.disk.snapshots)
    (hm : Moves e.stateManager e'.stateManager) : e'.Aged t where
  ordered := by
    rw [hsm, hdir]
    exact h.ordered
  stamp_le := by
    rw [hsm]
    intro s hs
    have hv : e.stateManager.version ≤ e'.stateManager.version := by
      rcases hm with ⟨hv, -⟩ | ⟨hv, -, -⟩ <;> omega
    exact (h.stamp_le s hs).trans ⟨hv, hle⟩
  cached := by
    intro c hc
    rcases hm with ⟨-, hcache⟩ | ⟨hv, hcache, -⟩
    · rw [hcache] at hc
      cases hc
    · rw [hcache] at hc
      obtain ⟨hct, hcs⟩ := h.cached c hc
      rw [hsm, hv]
      exact ⟨hct.trans hle, hcs⟩

/-- The next snapshot is at least as new as every indexed one, and of the present version. -/
lemma Aged.nextEntry {e : Engine M V} {now t : Timestamp} (h : e.Aged now) (hle : now ≤ t) :
    (∀ s ∈ e.snapshotManager.snapshots, s.stamp ≤ (e.nextEntry t).stamp) ∧
      (e.nextEntry t).stamp ≤ (e.stateManager.version, t) := by
  have hversion := e.nextEntry_version t
  have htime : (∀ s ∈ e.snapshotManager.snapshots, s.timestamp ≤ (e.nextSnapshot t).timestamp) ∧
      (e.nextSnapshot t).timestamp ≤ t := by
    rcases e.stateManager.createSnapshot_cases t with ⟨c, hc, hcv, hnext⟩ | hnext
    · obtain ⟨hct, hcs⟩ := h.cached c hc
      rw [nextSnapshot, hnext]
      exact ⟨hcs hcv, hct.trans hle⟩
    · rw [nextSnapshot, hnext]
      exact ⟨fun s hs => (h.stamp_le s hs).2.trans hle, le_rfl⟩
  refine ⟨fun s hs => ⟨?_, htime.1 s hs⟩, ?_, htime.2⟩
  · exact (h.stamp_le s hs).1.trans hversion.ge
  · exact hversion.le

/-- The index and the directory before pruning. -/
lemma Aged.written {e : Engine M V} {now t : Timestamp} (h : e.Aged now) (hle : now ≤ t) :
    Ordered (e.snapshotManager.snapshots ++ [e.nextEntry t]) (e.writtenDir t) :=
  h.ordered.append (e.nextEntry_filename t) (h.nextEntry hle).1 _

lemma Aged.takeSnapshot {e : Engine M V} {now t : Timestamp} (h : e.Aged now) (hle : now ≤ t) :
    (e.takeSnapshot t).Aged t := by
  obtain ⟨hnewer, hnext⟩ := h.nextEntry hle
  obtain ⟨hindex, hdir⟩ := Prod.mk.inj (e.takeSnapshot_pruned t)
  have hmem : ∀ s ∈ (e.takeSnapshot t).snapshotManager.snapshots,
      s.stamp ≤ (e.nextEntry t).stamp := by
    intro s hs
    rw [hindex, prune_fst] at hs
    rcases List.mem_append.mp (List.mem_of_mem_drop hs) with hs | hs
    · exact hnewer s hs
    · rw [List.mem_singleton.mp hs]
  refine ⟨?_, fun s hs => ?_, fun c hc => ?_⟩
  · rw [hindex, hdir]
    exact (h.written hle).prune _
  · rw [takeSnapshot_stateManager]
    exact (hmem s hs).trans hnext
  · rw [takeSnapshot_stateManager] at hc
    cases hc
    exact ⟨hnext.2, fun _ s hs => (hmem s hs).2⟩

lemma Aged.call {e : Engine M V} {now t : Timestamp} (h : e.Aged now) (hle : now ≤ t) (c : Call) :
    (e.call t c).Aged t := by
  by_cases hc : c = .takeSnapshot
  · subst hc
    exact h.takeSnapshot hle
  · obtain ⟨hsm, hdir, hm⟩ := e.call_moves t hc
    exact h.of_moves hle hsm hdir hm

/-- A snapshot prunes what is older than what it keeps. -/
lemma Aged.prunesOldest {e : Engine M V} {now t : Timestamp} (h : e.Aged now) (hle : now ≤ t) :
    e.PrunesOldest t := by
  intro f g hf hgone hg hkept
  have hdir := congrArg Prod.snd (e.takeSnapshot_pruned t)
  simp only at hdir
  rw [hdir] at hgone hkept
  exact (h.written hle).older hf hgone hg hkept

/-- **The invariant holds in every run**, and the calls still to come are made later. -/
lemma Aged.run {e : Engine M V} {now : Timestamp} (h : e.Aged now)
    {pre post : List (Call × Timestamp)} (hclock : Clocked now (pre ++ post)) :
    ∃ t, (e.run pre).Aged t ∧ Clocked t post := by
  induction pre generalizing e now with
  | nil => exact ⟨now, h, hclock⟩
  | cons c pre ih =>
      obtain ⟨hfirst, hrest⟩ := List.pairwise_cons.mp hclock
      exact ih (h.call (hfirst c.2 (by simp)) c.1) hrest

/-! ## Start-up -/

lemma Aged.foldl_applyEntry {e : Engine M V} {now : Timestamp} (h : e.Aged now)
    (l : List WALEntry) : (l.foldl (applyEntry now) e).Aged now := by
  induction l generalizing e with
  | nil => exact h
  | cons x l ih =>
      obtain ⟨hsm, hdir, hm⟩ := applyEntry_moves now e x
      exact ih (h.of_moves le_rfl hsm hdir hm)

/-- Recovery leaves the index and the snapshot files alone, and nothing in the cache. -/
lemma foldl_applyEntry_files (now : Timestamp) (l : List WALEntry) (e : Engine M V)
    (hcache : e.stateManager.cache = none) :
    (l.foldl (applyEntry now) e).snapshotManager = e.snapshotManager ∧
      (l.foldl (applyEntry now) e).disk.snapshots = e.disk.snapshots ∧
      (l.foldl (applyEntry now) e).stateManager.cache = none := by
  induction l generalizing e with
  | nil => exact ⟨rfl, rfl, hcache⟩
  | cons x l ih =>
      obtain ⟨hsm, hdir, hm⟩ := applyEntry_moves now e x
      have hcache' : (applyEntry now e x).stateManager.cache = none := by
        rcases hm with ⟨-, h⟩ | ⟨-, h, -⟩
        · exact h
        · exact h.trans hcache
      obtain ⟨hsm', hdir', hnone⟩ := ih (applyEntry now e x) hcache'
      exact ⟨hsm'.trans hsm, hdir'.trans hdir, hnone⟩

lemma cache_loadLatestInto {σ : StateManager M V} (h : σ.cache = none) (sm : SnapshotManager)
    (dir : SnapshotDir) : (loadLatestInto σ sm dir).1.cache = none := by
  unfold loadLatestInto loadSnapshotInto
  split
  · split
    · rfl
    · exact h
  · exact h

section Startup

variable (c : Config) {disk : Disk} {stamps : List Stamp} (now : Timestamp)

lemma boot_files (disk : Disk) :
    (boot c disk now : Engine M V).snapshotManager =
        (SnapshotManager.new c.maxSnapshots c.contentBytes).loadSnapshotIndex disk.snapshots ∧
      (boot c disk now : Engine M V).disk.snapshots = disk.snapshots ∧
      (boot c disk now : Engine M V).stateManager.cache = none :=
  foldl_applyEntry_files now _ ((new c disk : Engine M V).openFiles now).loadLatestSnapshot.1
    (cache_loadLatestInto rfl _ _)

/-- **The newest file is loaded**, if the names are in the order of the snapshots. -/
lemma opens_openFiles (hw : Written disk.snapshots stamps) (hleads : stamps.Pairwise Leads)
    {newest : Stamp} (hn : newest ∈ stamps.getLast?) :
    ((new c disk : Engine M V).openFiles now).Opens newest := by
  have hsm : ((new c disk : Engine M V).openFiles now).snapshotManager =
    (SnapshotManager.new c.maxSnapshots c.contentBytes).loadSnapshotIndex disk.snapshots := rfl
  have hlatest : ((new c disk : Engine M V).openFiles now).snapshotManager.latest.map
      SnapshotMeta.filename = some (stampName newest) := by
    rw [hsm, latest, ← List.getLast?_map, (loadSnapshotIndex_names hw _).1,
      (sortNames_eq_iff hw.sorted).mpr hleads, List.getLast?_map, hn, Option.map_some]
  obtain ⟨entry, hentry, hname⟩ := Option.map_eq_some_iff.mp hlatest
  have hholds := hw.holds newest (List.mem_of_getLast? hn)
  obtain ⟨doc, hdoc, hstamp⟩ := Option.map_eq_some_iff.mp hholds
  have hload : loadLatestInto (.new Memory.empty c.maxHistoryPerEntity : StateManager M V)
      ((new c disk : Engine M V).openFiles now).snapshotManager disk.snapshots =
      ((StateManager.new Memory.empty c.maxHistoryPerEntity).receiveSnapshot doc.entities
        doc.version, true) := by
    simp only [loadLatestInto, hentry, loadSnapshotInto, hname, hdoc]
  refine ⟨hlatest, congrArg Prod.snd hload, ?_⟩
  calc ((new c disk : Engine M V).openFiles now).loadLatestSnapshot.1.stateManager.version
      = doc.version := congrArg (fun l => l.1.version) hload
    _ = newest.1 := congrArg Prod.fst hstamp

/-- A process starts with the invariant, if the names are in the order of the snapshots. -/
lemma aged_boot (hw : Written disk.snapshots stamps) (hleads : stamps.Pairwise Leads)
    (hnow : ∀ a ∈ stamps, a.2 ≤ now) : (boot c disk now : Engine M V).Aged now := by
  have hstamps := loadSnapshotIndex_stamps hw hleads (.new c.maxSnapshots c.contentBytes)
  obtain ⟨hnames, hnamed⟩ :=
    loadSnapshotIndex_names hw (.new c.maxSnapshots c.contentBytes)
  have hmem : ∀ s ∈ ((SnapshotManager.new c.maxSnapshots c.contentBytes).loadSnapshotIndex
      disk.snapshots).snapshots, s.stamp ∈ stamps := by
    intro s hs
    rw [← hstamps]
    exact List.mem_map_of_mem hs
  refine Aged.foldl_applyEntry (e := ((new c disk : Engine M V).openFiles
    now).loadLatestSnapshot.1) ⟨⟨hnamed, ?_, ?_⟩, ?_, ?_⟩ _
  · refine List.pairwise_map.mp ?_
    have hsorted := hw.sorted.imp (S := (· ≤ ·)) le_of_lt
    rwa [← hstamps] at hsorted
  · intro f hf hhas
    have hkey : f ∈ disk.snapshots.keys.filter isSnapshotFile :=
      List.mem_filter.mpr ⟨(Js.Map.mem_keys_iff _ _).mpr hhas, hf⟩
    rw [hw.files.mem_iff, ← mem_sortNames, ← hnames] at hkey
    exact List.mem_map.mp hkey
  · intro s hs
    have hs' := hmem s hs
    refine ⟨?_, hnow _ hs'⟩
    cases hlast : stamps.getLast? with
    | none =>
        rw [List.getLast?_eq_none_iff] at hlast
        simp [hlast] at hs'
    | some newest =>
        calc s.version ≤ newest.1 := (hw.le_newest hlast hs').1
          _ = _ := (opens_openFiles c now hw hleads hlast).version.symm
  · intro cached hcached
    have hnone : ((new c disk : Engine M V).openFiles
        now).loadLatestSnapshot.1.stateManager.cache = none := cache_loadLatestInto rfl _ _
    rw [hnone] at hcached
    cases hcached

end Startup

/-! ## What a process leaves -/

lemma nameHolds_takeSnapshot {e : Engine M V} (h : NameHolds e.disk.snapshots) (now : Timestamp) :
    NameHolds (e.takeSnapshot now).disk.snapshots := by
  intro a ha
  obtain ⟨file, hfile⟩ := Option.isSome_iff_exists.mp ha
  have hdir := congrArg Prod.snd (e.takeSnapshot_pruned now)
  simp only at hdir
  have hwritten : (e.writtenDir now).get? (stampName a) = some file :=
    get?_prune _ _ (hdir ▸ hfile)
  rw [hfile]
  by_cases hname : stampName a = (e.nextEntry now).filename
  · rw [writtenDir, hname, Js.Map.get?_set_self] at hwritten
    cases hwritten
    obtain rfl : a = (e.nextEntry now).stamp := stampName_inj.mp hname
    rfl
  · rw [writtenDir, Js.Map.get?_set_of_ne _ _ hname] at hwritten
    rw [← hwritten]
    exact h a (by rw [Js.Map.has, hwritten]; rfl)

lemma nameHolds_run {e : Engine M V} (h : NameHolds e.disk.snapshots)
    (calls : List (Call × Timestamp)) : NameHolds (e.run calls).disk.snapshots := by
  refine run_induction (P := fun e => NameHolds e.disk.snapshots) (fun e now c he => ?_) h calls
  by_cases hc : c = .takeSnapshot
  · subst hc
    exact nameHolds_takeSnapshot he now
  · rw [(e.call_moves now hc).2.1]
    exact he

/-- **Runs leave such sets of files**: what a process leaves that is started on files whose names
are in the order of the snapshots, or on none. -/
theorem written_run (c : Config) (now : Timestamp) {disk : Disk} {stamps : List Stamp}
    (hw : Written disk.snapshots stamps) (hleads : stamps.Pairwise Leads)
    (hnow : ∀ a ∈ stamps, a.2 ≤ now) {calls : List (Call × Timestamp)}
    (hclock : Clocked now calls) :
    ∃ stamps', Written ((boot c disk now : Engine M V).run calls).disk.snapshots stamps' := by
  obtain ⟨-, hdir, -⟩ := boot_files (M := M) (V := V) c now disk
  have hholds : NameHolds (boot c disk now : Engine M V).disk.snapshots := by
    rw [hdir]
    exact hw.nameHolds
  have hboot : (boot c disk now : Engine M V).Aged now := aged_boot c now hw hleads hnow
  obtain ⟨t, hAged, -⟩ := hboot.run ((List.append_nil calls).symm ▸ hclock)
  exact hAged.ordered.exists_written (nameHolds_run hholds calls)

/-! ## What pruning says about the order -/

/-- The snapshot after a snapshot is the same one. -/
lemma nextEntry_takeSnapshot (e : Engine M V) (now t : Timestamp) :
    ((e.takeSnapshot now).nextEntry t).filename = (e.nextEntry now).filename := by
  have hcache : (e.takeSnapshot now).stateManager.cache = some (e.nextSnapshot now) := by
    rw [takeSnapshot_stateManager]
  have hversion : (e.nextSnapshot now).version = (e.takeSnapshot now).stateManager.version := by
    rw [takeSnapshot_stateManager]
    exact e.nextEntry_version now
  have hnext : (e.takeSnapshot now).nextSnapshot t = e.nextSnapshot now :=
    StateManager.createSnapshot_of_cached hcache hversion t
  rw [nextEntry_filename, nextEntry_filename]
  exact congrArg (fun s : StateSnapshot => snapshotName s.version s.timestamp) hnext

/-- With nothing cached, the snapshot is of the present moment. -/
lemma timestamp_nextEntry_of_none {e : Engine M V} (h : e.stateManager.cache = none)
    (now : Timestamp) : (e.nextEntry now).timestamp = now := by
  rcases e.stateManager.createSnapshot_cases now with ⟨c, hc, -⟩ | hnext
  · rw [h] at hc
    cases hc
  · exact congrArg StateSnapshot.timestamp hnext

lemma clocked_replicate (now : Timestamp) (n : ℕ) (c : Call) :
    Clocked now (List.replicate n (c, now)) := by
  rw [Clocked, List.map_replicate, ← List.replicate_succ, List.pairwise_replicate]
  exact .inr le_rfl

/-- A full index is pruned from its first entry on, one with each snapshot.  If every file pruned
is older than what is kept, the entries are in the order of their age. -/
lemma pairwise_older_of_prunesOldest {e : Engine M V} {t : Timestamp} {l r : List SnapshotMeta}
    (hindex : e.snapshotManager.snapshots = l ++ r)
    (hfull : (l ++ r).length = e.snapshotManager.maxSnapshots)
    (hfiles : ∀ s ∈ l, isSnapshotFile s.filename = true ∧ e.disk.snapshots.has s.filename = true)
    (hnodup : (l.map SnapshotMeta.filename).Nodup)
    (hnext : (e.nextEntry t).filename ∉ l.map SnapshotMeta.filename)
    (hprunes : ∀ n, (e.run (List.replicate n (.takeSnapshot, t))).PrunesOldest t) :
    (l.map SnapshotMeta.filename).Pairwise Older := by
  induction l generalizing e r with
  | nil => exact List.Pairwise.nil
  | cons s l ih =>
      have hlen : (l ++ r ++ [e.nextEntry t]).length = e.snapshotManager.maxSnapshots := by
        rw [← hfull]
        simp only [List.length_append, List.length_cons, List.length_nil]
        omega
      have hpruned := e.takeSnapshot_pruned t
      rw [hindex, List.cons_append, List.cons_append, prune_of_eq hlen] at hpruned
      obtain ⟨hindex', hdir⟩ := Prod.mk.inj hpruned
      rw [List.map_cons, List.nodup_cons] at hnodup
      have hkept : ∀ s' ∈ l, (e.takeSnapshot t).disk.snapshots.has s'.filename = true := by
        intro s' hs'
        have hne : s'.filename ≠ s.filename := by
          intro heq
          exact hnodup.1 (heq ▸ List.mem_map_of_mem hs')
        have hwritten :=
          has_writtenDir_of_has t (hfiles s' (List.mem_cons_of_mem _ hs')).2
        rw [hdir, Js.Map.has, Js.Map.get?_delete_of_ne _ hne]
        exact hwritten
      rw [List.map_cons, List.pairwise_cons]
      constructor
      · intro g hg
        obtain ⟨s', hs', rfl⟩ := List.mem_map.mp hg
        refine hprunes 0 s.filename s'.filename ?_ ?_ ?_ (hkept s' hs')
        · exact has_writtenDir_of_has t (hfiles s (List.mem_cons_self ..)).2
        · show (e.takeSnapshot t).disk.snapshots.has s.filename = false
          rw [hdir, Js.Map.has, Js.Map.get?_delete_self]
          rfl
        · exact (hfiles s' (List.mem_cons_of_mem _ hs')).1
      · refine ih (e := e.takeSnapshot t) (r := r ++ [e.nextEntry t]) ?_ ?_ ?_ hnodup.2 ?_ ?_
        · rw [hindex', List.append_assoc]
        · rw [takeSnapshot_maxSnapshots, ← hlen, List.append_assoc]
        · exact fun s' hs' => ⟨(hfiles s' (List.mem_cons_of_mem _ hs')).1, hkept s' hs'⟩
        · rw [nextEntry_takeSnapshot]
          exact fun hmem => hnext (List.mem_cons_of_mem _ hmem)
        · exact fun n => hprunes (n + 1)

/-- If every process prunes only what is older than what it keeps, the names are in the order of
the snapshots. -/
lemma leads_of_prunesOldest {disk : Disk} {stamps : List Stamp}
    (hw : Written disk.snapshots stamps)
    (h : ∀ (c : Config) (now : Timestamp) (calls : List (Call × Timestamp)),
      (∀ a ∈ stamps, a.2 ≤ now) → Clocked now calls →
        ∀ pre t post, calls = pre ++ (.takeSnapshot, t) :: post →
          ((boot c disk now : Engine M V).run pre).PrunesOldest t) : stamps.Pairwise Leads := by
  rw [← sortNames_eq_iff hw.sorted]
  -- a process whose index is full at the start, at a time that no file is named after
  let c : Config := { Config.default with maxSnapshots := stamps.length }
  let now : Timestamp := (stamps.map Prod.snd).sum + 1
  have hlt : ∀ a ∈ stamps, a.2 < now := fun a ha =>
    Nat.lt_succ_of_le (List.single_le_sum (by simp) _ (List.mem_map_of_mem ha))
  obtain ⟨hsm, hdir, hcache⟩ := boot_files (M := M) (V := V) c now disk
  obtain ⟨hnames, -⟩ := loadSnapshotIndex_names hw (.new c.maxSnapshots c.contentBytes)
  rw [← hsm] at hnames
  have hperm := sortNames_perm (stamps.map stampName)
  have hmax : (boot c disk now : Engine M V).snapshotManager.maxSnapshots = stamps.length := by
    rw [hsm]
    rfl
  have hlength := congrArg List.length hnames
  rw [List.length_map, hperm.length_eq, List.length_map] at hlength
  have hsorted : (sortNames (stamps.map stampName)).Pairwise Older := by
    rw [← hnames]
    refine pairwise_older_of_prunesOldest (e := boot c disk now) (t := now) (r := [])
      (List.append_nil _).symm ?_ ?_ ?_ ?_ fun n => ?_
    · rw [List.append_nil, hlength, hmax]
    · intro s hs
      have hmem := List.mem_map_of_mem (f := SnapshotMeta.filename) hs
      rw [hnames, hperm.mem_iff, ← hw.files.mem_iff, List.mem_filter, Js.Map.mem_keys_iff] at hmem
      exact ⟨hmem.2, by rw [hdir]; exact hmem.1⟩
    · rw [hnames, hperm.nodup_iff]
      exact hw.nodup
    · rw [hnames, mem_sortNames, nextEntry_filename]
      intro hmem
      obtain ⟨a, ha, hname⟩ := List.mem_map.mp hmem
      have htime := (snapshotName_inj.mp hname).2
      rw [timestamp_nextEntry_of_none hcache] at htime
      exact (hlt a ha).ne htime
    · exact (h c now (List.replicate (n + 1) (.takeSnapshot, now)) (fun a ha => (hlt a ha).le)
        (clocked_replicate now (n + 1) _)) _ now [] (List.replicate_succ' ..)
  refine List.Perm.eq_of_pairwise (fun f g _ _ hfg hgf => absurd hgf hfg.asymm) hsorted ?_ hperm
  exact List.pairwise_map.mpr (hw.sorted.imp older_stampName_iff.mpr)

/-- **The newest snapshot is loaded and the oldest are pruned, exactly as long as the names are
in the order of the snapshots.**  On a directory with the files of the given snapshots, every
start-up loads the newest, and afterwards every snapshot of every run prunes only files that are
older than all that it keeps, if and only if for every two of the snapshots the version of the
older one is at most the number that as many first digits of the newer version make. -/
theorem newest_snapshot_iff {disk : Disk} {stamps : List Stamp}
    (hw : Written disk.snapshots stamps) :
    (∀ (c : Config) (now : Timestamp) (calls : List (Call × Timestamp)),
      (∀ a ∈ stamps, a.2 ≤ now) → Clocked now calls →
        (∀ newest ∈ stamps.getLast?,
          ((new c disk : Engine M V).openFiles now).Opens newest) ∧
        ∀ pre t post, calls = pre ++ (.takeSnapshot, t) :: post →
          ((boot c disk now : Engine M V).run pre).PrunesOldest t) ↔
    stamps.Pairwise Leads := by
  constructor
  · intro h
    exact leads_of_prunesOldest hw fun c now calls hnow hclock => (h c now calls hnow hclock).2
  · intro hleads c now calls hnow hclock
    refine ⟨fun newest hn => opens_openFiles c now hw hleads hn, fun pre t post hcalls => ?_⟩
    have hboot : (boot c disk now : Engine M V).Aged now := aged_boot c now hw hleads hnow
    obtain ⟨t', hAged, hclock'⟩ := hboot.run (hcalls ▸ hclock)
    exact hAged.prunesOldest ((List.pairwise_cons.mp hclock').1 t (by simp))

/-- The files of a process that takes a snapshot of version `n` and one of version `n + 1`. -/
def twoSnapshots (n : ℕ) : Disk :=
  ((boot .default .empty 0 : Engine Cells Doc).run
    ((List.range n).map (fun k => (.createEntity "item" "p1" .empty (toString k), k)) ++
      [(.takeSnapshot, n), (.createEntity "item" "p1" .empty "last", n + 1),
        (.takeSnapshot, n + 2)])).disk

lemma written_twoSnapshots_one : Written (twoSnapshots 1).snapshots [(1, 1), (2, 3)] :=
  ⟨by simp, by decide +kernel, by decide +kernel⟩

/-- The theorem at versions of one digit. -/
theorem newest_snapshot_iff_one_digit :
    (∀ (c : Config) (now : Timestamp) (calls : List (Call × Timestamp)),
      (∀ a ∈ [((1, 1) : Stamp), (2, 3)], a.2 ≤ now) → Clocked now calls →
        (∀ newest ∈ [((1, 1) : Stamp), (2, 3)].getLast?,
          ((new c (twoSnapshots 1) : Engine Cells Doc).openFiles now).Opens newest) ∧
        ∀ pre t post, calls = pre ++ (.takeSnapshot, t) :: post →
          ((boot c (twoSnapshots 1) now : Engine Cells Doc).run pre).PrunesOldest t) ↔
    [((1, 1) : Stamp), (2, 3)].Pairwise Leads :=
  newest_snapshot_iff written_twoSnapshots_one

/-- After the snapshots of versions `9` and `10`, a start-up loads that of version `9`. -/
theorem older_snapshot_loaded :
    Written (twoSnapshots 9).snapshots [(9, 9), (10, 11)] ∧
      ¬ ((new .default (twoSnapshots 9) : Engine Cells Doc).openFiles 12).Opens (10, 11) := by
  refine ⟨⟨by simp, by decide +kernel, by decide +kernel⟩, fun h => ?_⟩
  have hversion := h.version
  revert hversion
  decide +kernel

end Engine

end SyncEngine
