import SyncEngine.Persistence.WriteAheadLog

/-!
# One log directory, several processes

A log directory outlives the process that writes it: the next process opens a file of its own in
it, and `replay` merges the files of all of them by sequence number.  The counter that hands out
the sequence numbers does not outlive the process.  It starts from zero in every constructor, so
the entries of two lifetimes carry the same numbers (`sequences_dirAfter`), and the merged order is
the order of appending only where a single lifetime has appended anything (`replay_in_order_iff`).
-/

namespace SyncEngine

open Js

namespace WriteAheadLog

/-- A process that uses the directory: when it started the log, how large its files may get, and
what it appended at which times. -/
structure Lifetime where
  started : Timestamp
  maxFileSize : ℕ
  appends : List (WALData × Timestamp)

/-- Append one after another. -/
def appendAll (log : WriteAheadLog × WalDir) (appends : List (WALData × Timestamp)) :
    WriteAheadLog × WalDir :=
  appends.foldl (fun log a => log.1.append log.2 a.1 a.2) log

/-- The entries that a run of appends makes, in order. -/
def entriesOf (log : WriteAheadLog × WalDir) : List (WALData × Timestamp) → List WALEntry
  | [] => []
  | a :: appends =>
    log.1.nextEntry a.1 a.2 :: entriesOf (log.1.append log.2 a.1 a.2) appends

variable (lineBytes : WALEntry → ℕ)

/-- The log of a process that has just started it. -/
def Lifetime.start (l : Lifetime) (dir : WalDir) : WriteAheadLog × WalDir :=
  (new l.maxFileSize lineBytes).start dir l.started

/-- The directory after a number of lifetimes. -/
def dirAfter (lifetimes : List Lifetime) (dir : WalDir) : WalDir :=
  lifetimes.foldl (fun dir l => (appendAll (l.start lineBytes dir) l.appends).2) dir

/-- What the lifetimes have appended, in order. -/
def appendedBy : List Lifetime → WalDir → List WALEntry
  | [], _ => []
  | l :: lifetimes, dir =>
    entriesOf (l.start lineBytes dir) l.appends ++
      appendedBy lifetimes (appendAll (l.start lineBytes dir) l.appends).2

/-! ## One lifetime -/

variable {lineBytes} {log : WriteAheadLog × WalDir}

/-- The log holds what it held, and the entries of the appends. -/
lemma logged_appendAll (hopen : log.1.Open) (appends : List (WALData × Timestamp)) :
    (logged (appendAll log appends).2).Perm (logged log.2 ++ entriesOf log appends) := by
  induction appends generalizing log with
  | nil => simp [appendAll, entriesOf]
  | cons a appends ih =>
    have hrest := ih (open_append hopen log.2 a.1 a.2)
    have hfirst := logged_append hopen log.2 a.1 a.2
    refine hrest.trans ((hfirst.append_right _).trans ?_)
    rw [List.append_assoc]
    exact List.Perm.refl _

/-- The entries are numbered one after another. -/
lemma sequence_entriesOf (log : WriteAheadLog × WalDir) (appends : List (WALData × Timestamp)) :
    (entriesOf log appends).map WALEntry.sequence =
      List.range' (log.1.sequence + 1) appends.length := by
  induction appends generalizing log with
  | nil => rfl
  | cons a appends ih =>
    rw [entriesOf, List.map_cons, ih, sequence_append, List.length_cons, List.range'_succ]
    rfl

/-! ## All of them -/

lemma logged_dirAfter (lifetimes : List Lifetime) (dir : WalDir) :
    (logged (dirAfter lineBytes lifetimes dir)).Perm
      (logged dir ++ appendedBy lineBytes lifetimes dir) := by
  induction lifetimes generalizing dir with
  | nil => simp [dirAfter, appendedBy]
  | cons l lifetimes ih =>
    have hopen : (l.start lineBytes dir).1.Open := open_start _ _ _
    have hstart : (logged (l.start lineBytes dir).2).Perm (logged dir) := logged_start _ _ _
    have hfirst := (logged_appendAll hopen l.appends).trans (hstart.append_right _)
    refine (ih _).trans ((hfirst.append_right _).trans ?_)
    rw [appendedBy, List.append_assoc]

/-- **Every lifetime numbers its entries from one.** -/
lemma sequences_dirAfter (lineBytes : WALEntry → ℕ) (lifetimes : List Lifetime) (dir : WalDir) :
    (appendedBy lineBytes lifetimes dir).map WALEntry.sequence =
      (lifetimes.map fun l => l.appends.length).flatMap (List.range' 1) := by
  induction lifetimes generalizing dir with
  | nil => rfl
  | cons l lifetimes ih =>
    have hnew : (l.start lineBytes dir).1.sequence = 0 := sequence_start _ _ _
    rw [appendedBy, List.map_append, ih, sequence_entriesOf, hnew, List.map_cons,
      List.flatMap_cons]

/-- Every lifetime that appends uses the number one. -/
lemma count_one_flatMap_range' (lengths : List ℕ) :
    (lengths.flatMap (List.range' 1)).count 1 = (lengths.filter (· ≠ 0)).length := by
  induction lengths with
  | nil => rfl
  | cons n lengths ih =>
    rw [List.flatMap_cons, List.count_append, ih]
    cases n with
    | zero => simp
    | succ n =>
      have hrest : (List.range' 2 n).count 1 = 0 := by
        apply List.count_eq_zero_of_not_mem
        simp [List.mem_range'_1]
      rw [List.range'_succ, List.count_cons_self, hrest]
      simp [Nat.add_comm]

/-- The numbers of a single lifetime increase. -/
lemma pairwise_flatMap_range' {lengths : List ℕ} (h : (lengths.filter (· ≠ 0)).length ≤ 1) :
    (lengths.flatMap (List.range' 1)).Pairwise (· < ·) := by
  induction lengths with
  | nil => exact .nil
  | cons n lengths ih =>
    rw [List.flatMap_cons]
    cases n with
    | zero => exact ih (by simpa using h)
    | succ n =>
      have hnone : lengths.filter (· ≠ 0) = [] := by
        simpa using h
      have hrest : lengths.flatMap (List.range' 1) = [] := by
        rw [List.flatMap_eq_nil_iff]
        intro m hm
        have hzero := List.filter_eq_nil_iff.1 hnone m hm
        obtain rfl : m = 0 := by simpa using hzero
        rfl
      rw [hrest, List.append_nil]
      exact List.pairwise_lt_range'

/-- **When a log is replayed in order.**  After any number of lifetimes on a directory that was
empty, the entries in it carry distinct sequence numbers and are replayed in the order they were
appended in, if and only if at most one of the lifetimes has appended anything. -/
theorem replay_in_order_iff (lineBytes : WALEntry → ℕ) (lifetimes : List Lifetime) :
    (((logged (dirAfter lineBytes lifetimes .empty)).map WALEntry.sequence).Nodup ∧
        replay (dirAfter lineBytes lifetimes .empty) 0 = appendedBy lineBytes lifetimes .empty) ↔
      (lifetimes.filter fun l => l.appends ≠ []).length ≤ 1 := by
  set entries := appendedBy lineBytes lifetimes .empty
  have hlogged : (logged (dirAfter lineBytes lifetimes .empty)).Perm entries :=
    logged_dirAfter lifetimes .empty
  have hsequences := sequences_dirAfter lineBytes lifetimes .empty
  have hfilter : (lifetimes.filter fun l => l.appends ≠ []).length =
      ((lifetimes.map fun l => l.appends.length).filter (· ≠ 0)).length := by
    rw [List.filter_map, List.length_map]
    simp [Function.comp_def]
  rw [hfilter]
  constructor
  · rintro ⟨hnodup, -⟩
    rw [(hlogged.map _).nodup_iff, hsequences] at hnodup
    rw [← count_one_flatMap_range']
    exact List.nodup_iff_count_le_one.1 hnodup 1
  · intro hone
    have hpairwise : (entries.map WALEntry.sequence).Pairwise (· < ·) := by
      rw [hsequences]
      exact pairwise_flatMap_range' hone
    have hpositive : ∀ e ∈ entries, 0 < e.sequence := by
      intro e he
      have hmem : e.sequence ∈ entries.map WALEntry.sequence := List.mem_map_of_mem he
      rw [hsequences, List.mem_flatMap] at hmem
      obtain ⟨n, -, hn⟩ := hmem
      exact (List.mem_range'_1.1 hn).1
    constructor
    · rw [(hlogged.map _).nodup_iff]
      exact hpairwise.imp ne_of_lt
    · rw [replay_eq_of_perm hlogged (List.pairwise_map.1 hpairwise)]
      exact List.filter_eq_self.2 fun e he => by simpa using hpositive e he

/-- Two processes, each appending one checkpoint. -/
def twoLifetimes : List Lifetime :=
  [⟨1, 10485760, [(.checkpoint 1 2, 2)]⟩, ⟨3, 10485760, [(.checkpoint 5 4, 4)]⟩]

/-- Both entries carry the number one. -/
theorem sequences_repeat :
    ¬ ((logged (dirAfter (fun _ => 128) twoLifetimes .empty)).map WALEntry.sequence).Nodup := by
  have hlogged : (logged (dirAfter (fun _ => 128) twoLifetimes .empty)).Perm
      (appendedBy (fun _ => 128) twoLifetimes .empty) :=
    logged_dirAfter twoLifetimes .empty
  rw [(hlogged.map _).nodup_iff, sequences_dirAfter]
  decide

end WriteAheadLog

end SyncEngine
