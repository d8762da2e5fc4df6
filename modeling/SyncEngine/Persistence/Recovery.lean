import SyncEngine.Persistence.Engine

/-!
# The replay cursor

Recovery cuts the log off at the version of the snapshot it loaded.  The version counts creates,
updates and deletes; the log's sequence numbers count updates and snapshots.  The two counters
have nothing to do with each other, so the cut-off is right only when they happen to lie on the
same side of every delta.

`appended` is what the calls of a run append to the log, in order.  In one lifetime of a process
the sequence numbers increase along it (`LogHolds`), so a replay above a cut-off is the part of
it above the cut-off, in append order.  `handedOver` is what recovery hands to `updateEntity`
(`recoverState_eq`), and `handedOver_iff` says exactly when it is the deltas appended since the
snapshot.
-/

namespace SyncEngine

open Js WriteAheadLog

/-- An entry of type `delta`. -/
def WALEntry.isDelta (x : WALEntry) : Bool := x.delta?.isSome

namespace Engine

variable {M V : Type} [Memory M V]

/-! ## What a call appends -/

/-- What a call appends to the log, if it appends anything. -/
def callData (e : Engine M V) (now : Timestamp) : Call → Option WALData
  | .updateEntity id operations =>
    match e.stateManager.receiveUpdate id operations now with
    | (σ, .updated delta) => some (.delta (writtenDelta σ.memory delta))
    | _ => none
  | .takeSnapshot => some (.checkpoint e.stateManager.version now)
  | _ => none

/-- The entry a call appends to the log. -/
def callEntry (e : Engine M V) (now : Timestamp) (c : Call) : List WALEntry :=
  ((e.callData now c).map fun data => e.wal.nextEntry data now).toList

/-- What a run appends to the log, in order. -/
def appended (e : Engine M V) : List (Call × Timestamp) → List WALEntry
  | [] => []
  | c :: calls => e.callEntry c.2 c.1 ++ (e.call c.2 c.1).appended calls

/-- The log after a call is the log with the call's entry appended. -/
lemma call_wal (e : Engine M V) (now : Timestamp) (c : Call) :
    ((e.call now c).wal, (e.call now c).disk.wal) =
      match e.callData now c with
      | some data => e.wal.append e.disk.wal data now
      | none => (e.wal, e.disk.wal) := by
  cases c with
  | createEntity type ownerId data id => rfl
  | updateEntity id operations =>
      simp only [call, updateEntity, callData]
      rcases e.stateManager.receiveUpdate id operations now with ⟨σ, _ | _ | delta⟩ <;> rfl
  | deleteEntity id => rfl
  | takeSnapshot =>
      have h := StateManager.version_createSnapshot e.stateManager now
      simp only [callData, ← h]
      rfl

/-- The log of one lifetime of a process: it holds exactly these entries, in increasing order
of their sequence numbers, and the counter is not behind them. -/
structure LogHolds (e : Engine M V) (log : List WALEntry) : Prop where
  isOpen : e.wal.Open
  perm : (logged e.disk.wal).Perm log
  sorted : log.Pairwise fun x y => x.sequence < y.sequence
  le : ∀ x ∈ log, x.sequence ≤ e.wal.sequence

lemma LogHolds.call {e : Engine M V} {log : List WALEntry} (h : e.LogHolds log)
    (now : Timestamp) (c : Call) : (e.call now c).LogHolds (log ++ e.callEntry now c) := by
  have hwal := e.call_wal now c
  unfold callEntry
  cases hd : e.callData now c with
  | none =>
      simp only [hd, Prod.mk.injEq] at hwal
      obtain ⟨hw, hdir⟩ := hwal
      refine ⟨by rw [hw]; exact h.isOpen, ?_, ?_, ?_⟩
      · rw [hdir]; simpa using h.perm
      · simpa using h.sorted
      · rw [hw]; simpa using h.le
  | some data =>
      simp only [hd] at hwal
      have hw : (e.call now c).wal = (e.wal.append e.disk.wal data now).1 := congrArg Prod.fst hwal
      have hdir : (e.call now c).disk.wal = (e.wal.append e.disk.wal data now).2 :=
        congrArg Prod.snd hwal
      simp only [Option.map_some, Option.toList_some]
      refine ⟨by rw [hw]; exact open_append h.isOpen _ _ _, ?_, ?_, ?_⟩
      · rw [hdir]
        exact (logged_append h.isOpen _ _ _).trans (h.perm.append_right _)
      · rw [List.pairwise_append]
        refine ⟨h.sorted, List.pairwise_singleton _ _, ?_⟩
        intro x hx y hy
        rw [List.mem_singleton.mp hy]
        exact Nat.lt_succ_of_le (h.le x hx)
      · intro x hx
        rw [hw, sequence_append]
        rcases List.mem_append.mp hx with hx | hx
        · exact (h.le x hx).trans (Nat.le_succ _)
        · rw [List.mem_singleton.mp hx]; rfl

/-- **A run extends the log by what its calls append.** -/
lemma LogHolds.run {e : Engine M V} {log : List WALEntry} (h : e.LogHolds log)
    (calls : List (Call × Timestamp)) : (e.run calls).LogHolds (log ++ e.appended calls) := by
  induction calls generalizing e log with
  | nil => simpa [appended] using h
  | cons c calls ih =>
      have := ih (h.call c.2 c.1)
      rwa [List.append_assoc] at this

lemma sequence_le_call (e : Engine M V) (now : Timestamp) (c : Call) :
    e.wal.sequence ≤ (e.call now c).wal.sequence := by
  have hwal := e.call_wal now c
  cases hd : e.callData now c with
  | none =>
      simp only [hd, Prod.mk.injEq] at hwal
      exact hwal.1 ▸ le_rfl
  | some data =>
      simp only [hd] at hwal
      rw [show (e.call now c).wal = _ from congrArg Prod.fst hwal, sequence_append]
      exact Nat.le_succ _

/-- What a run appends lies above the sequence number it starts from. -/
lemma sequence_lt_appended (e : Engine M V) (calls : List (Call × Timestamp)) :
    ∀ x ∈ e.appended calls, e.wal.sequence < x.sequence := by
  induction calls generalizing e with
  | nil => simp [appended]
  | cons c calls ih =>
      intro x hx
      rcases List.mem_append.mp hx with hx | hx
      · simp only [callEntry, Option.mem_toList, Option.map_eq_some_iff] at hx
        obtain ⟨data, -, rfl⟩ := hx
        exact Nat.lt_succ_self _
      · exact (e.sequence_le_call c.2 c.1).trans_lt (ih _ x hx)

/-! ## Start-up on empty directories -/

/-- Starting up on empty directories opens a log file and does nothing else. -/
lemma boot_empty (c : Config) (now : Timestamp) :
    (boot c .empty now : Engine M V) = (new c .empty).openFiles now := by
  have hreplay : replay ((new c .empty : Engine M V).openFiles now).disk.wal 0 = [] :=
    replay_start _ .empty _ _
  unfold boot recoverState
  show List.foldl _ _ (replay ((new c .empty : Engine M V).openFiles now).disk.wal 0) = _
  rw [hreplay]
  rfl

lemma logHolds_openFiles_empty (c : Config) (now : Timestamp) :
    ((new c .empty : Engine M V).openFiles now).LogHolds [] where
  isOpen := open_start _ .empty _
  perm := logged_start _ .empty _
  sorted := List.Pairwise.nil
  le := by simp

/-- **The log of a process started on empty directories** is what its calls appended. -/
lemma logHolds_run (c : Config) (now : Timestamp) (calls : List (Call × Timestamp)) :
    ((boot c .empty now : Engine M V).run calls).LogHolds
      ((boot c .empty now : Engine M V).appended calls) := by
  have h : (boot c .empty now : Engine M V).LogHolds [] := by
    rw [boot_empty]
    exact logHolds_openFiles_empty c now
  simpa using h.run calls

/-! ## What recovery hands over -/

/-- The entries of which `recoverState` hands the deltas to `updateEntity`. -/
def handedOver (f : Engine M V) : List WALEntry :=
  (replay f.disk.wal (fromSequence f.loadLatestSnapshot)).filter WALEntry.isDelta

/-- The loop of `recoverState` passes over what is not a delta. -/
lemma foldl_applyEntry_filter (now : Timestamp) (l : List WALEntry) (f : Engine M V) :
    l.foldl (applyEntry now) f = (l.filter WALEntry.isDelta).foldl (applyEntry now) f := by
  induction l generalizing f with
  | nil => rfl
  | cons x l ih =>
      rcases x with ⟨n, t, d | ⟨v, t'⟩⟩
      · rw [List.filter_cons_of_pos rfl, List.foldl_cons, List.foldl_cons, ih]
      · rw [List.filter_cons_of_neg (by simp [WALEntry.isDelta, WALEntry.delta?]), List.foldl_cons,
          ih]
        rfl

/-- **Recovery is the update of every entry handed over**, after the snapshot is loaded. -/
lemma recoverState_eq (f : Engine M V) (now : Timestamp) :
    f.recoverState now = f.handedOver.foldl (applyEntry now) f.loadLatestSnapshot.1 := by
  rw [recoverState, foldl_applyEntry_filter]
  rfl

/-- A list filtered by two tests gives the same result exactly when they agree on it. -/
lemma filter_eq_iff {α : Type} (p q : α → Bool) (l : List α) :
    l.filter p = l.filter q ↔ ∀ x ∈ l, p x = q x := by
  refine ⟨fun h x hx => ?_, List.filter_congr⟩
  have hp : x ∈ l.filter p ↔ x ∈ l.filter q := by rw [h]
  simp only [List.mem_filter, hx, true_and] at hp
  exact Bool.eq_iff_iff.mpr hp

/-- The log of a run through a snapshot: what came before, the checkpoint, what came after. -/
lemma logHolds_through (c : Config) (t₀ t : Timestamp) (pre post : List (Call × Timestamp)) :
    ((((boot c .empty t₀ : Engine M V).run pre).takeSnapshot t).run post).LogHolds
      ((boot c .empty t₀ : Engine M V).appended pre ++
        ((boot c .empty t₀ : Engine M V).run pre).callEntry t .takeSnapshot ++
        (((boot c .empty t₀ : Engine M V).run pre).takeSnapshot t).appended post) :=
  ((logHolds_run c t₀ pre).call t .takeSnapshot).run post

/-- The replay of a process started on the files of one run is the part of the log above the
cut-off, in order. -/
lemma replay_openFiles {e : Engine M V} {log : List WALEntry} (h : e.LogHolds log) (c : Config)
    (t : Timestamp) (k : ℕ) :
    replay ((new c e.disk : Engine M V).openFiles t).disk.wal k =
      log.filter fun x => k < x.sequence :=
  (replay_start _ e.disk.wal t k).trans (replay_eq_of_perm h.perm h.sorted k)

/-- **The replay cursor.**  A process that loads the snapshot taken after `pre` hands over
exactly the deltas appended since, in order, if and only if the version saved in the snapshot
is not below any delta logged before it and is below every delta logged after it. -/
theorem handedOver_iff (c c' : Config) (t₀ t t' : Timestamp) (pre post : List (Call × Timestamp))
    {before after f : Engine M V} (hbefore : before = (boot c .empty t₀).run pre)
    (hafter : after = (before.takeSnapshot t).run post)
    (hf : f = (new c' after.disk).openFiles t') (hloaded : f.loadLatestSnapshot.2 = true)
    (hversion : f.loadLatestSnapshot.1.stateManager.version = before.stateManager.version) :
    f.handedOver = ((before.takeSnapshot t).appended post).filter WALEntry.isDelta ↔
      (∀ x ∈ (boot c .empty t₀ : Engine M V).appended pre, x.isDelta →
        x.sequence ≤ before.stateManager.version) ∧
      (∀ x ∈ (before.takeSnapshot t).appended post, x.isDelta →
        before.stateManager.version < x.sequence) := by
  have hfrom : fromSequence f.loadLatestSnapshot = before.stateManager.version := by
    rw [fromSequence, if_pos hloaded, hversion]
  have hlog := logHolds_through (M := M) (V := V) c t₀ t pre post
  have hpre := logHolds_run (M := M) (V := V) c t₀ pre
  rw [← hbefore] at hlog hpre
  rw [handedOver, hfrom, hf, hafter, replay_openFiles hlog, List.filter_filter]
  generalize hV : before.stateManager.version = v
  -- The deltas after the snapshot are the deltas above the sequence number it was taken at.
  have hafterq : ∀ x ∈ (before.takeSnapshot t).appended post, before.wal.sequence < x.sequence :=
    fun x hx => (before.sequence_le_call t .takeSnapshot).trans_lt
      (sequence_lt_appended _ post x hx)
  have hsince : ((before.takeSnapshot t).appended post).filter WALEntry.isDelta =
      ((boot c .empty t₀ : Engine M V).appended pre ++ before.callEntry t .takeSnapshot ++
        (before.takeSnapshot t).appended post).filter
          fun x => x.isDelta && decide (before.wal.sequence < x.sequence) := by
    rw [List.filter_append, List.filter_append]
    have h₁ : ((boot c .empty t₀ : Engine M V).appended pre).filter
        (fun x => x.isDelta && decide (before.wal.sequence < x.sequence)) = [] := by
      rw [List.filter_eq_nil_iff]
      intro x hx
      have := hpre.le x hx
      simp [this]
    have h₂ : (before.callEntry t .takeSnapshot).filter
        (fun x => x.isDelta && decide (before.wal.sequence < x.sequence)) = [] := rfl
    rw [h₁, h₂, List.nil_append, List.nil_append]
    refine List.filter_congr fun x hx => ?_
    simp [hafterq x hx]
  rw [hsince, filter_eq_iff]
  constructor
  · intro h
    refine ⟨fun x hx hd => ?_, fun x hx hd => ?_⟩
    · have := h x (by simp [hx])
      simpa [hd, (hpre.le x hx).not_gt] using this
    · have := h x (by simp [hx])
      simpa [hd, hafterq x hx] using this
  · rintro ⟨hbelow, habove⟩ x hx
    rw [List.mem_append, List.mem_append] at hx
    by_cases hd : x.isDelta
    · rcases hx with (hx | hx) | hx
      · simp [hd, (hbelow x hx hd).not_gt, (hpre.le x hx).not_gt]
      · cases hk : x.delta? with
        | none => simp [WALEntry.isDelta, hk] at hd
        | some d =>
            rw [List.mem_singleton.mp hx] at hk
            cases hk
      · simp [hd, habove x hx hd, hafterq x hx]
    · simp [hd]

/-- A create, a snapshot and an update: the version saved is `1` and the update is entry `2`. -/
theorem handedOver_update_after_snapshot :
    ((new .default (((boot .default .empty 0).run [(.createEntity "player" "p1" .empty "e1", 1),
        (.takeSnapshot, 2), (.updateEntity "e1" [⟨.set, "hp", .prim (.num 5)⟩], 3)]
          : Engine Cells Doc)).disk : Engine Cells Doc).openFiles 4).handedOver =
      (((((boot .default .empty 0).run [(.createEntity "player" "p1" .empty "e1", 1)]
          : Engine Cells Doc)).takeSnapshot 2).appended
            [(.updateEntity "e1" [⟨.set, "hp", .prim (.num 5)⟩], 3)]).filter WALEntry.isDelta :=
  (handedOver_iff .default .default 0 2 4 [(.createEntity "player" "p1" .empty "e1", 1)]
    [(.updateEntity "e1" [⟨.set, "hp", .prim (.num 5)⟩], 3)] rfl rfl rfl (by decide +kernel)
    (by decide +kernel)).mpr ⟨by decide +kernel, by decide +kernel⟩

/-- Three creates before the snapshot: the version saved is `3`, and the update after it, entry
`2` of the log, is never handed over. -/
theorem handedOver_skips_update :
    ((new .default (((boot .default .empty 0).run [(.createEntity "player" "p1" .empty "e1", 1),
        (.createEntity "player" "p2" .empty "e2", 1), (.createEntity "player" "p3" .empty "e3", 1),
        (.takeSnapshot, 2), (.updateEntity "e1" [⟨.set, "hp", .prim (.num 5)⟩], 3)]
          : Engine Cells Doc)).disk : Engine Cells Doc).openFiles 4).loadLatestSnapshot.2 = true ∧
    ((new .default (((boot .default .empty 0).run [(.createEntity "player" "p1" .empty "e1", 1),
        (.createEntity "player" "p2" .empty "e2", 1), (.createEntity "player" "p3" .empty "e3", 1),
        (.takeSnapshot, 2), (.updateEntity "e1" [⟨.set, "hp", .prim (.num 5)⟩], 3)]
          : Engine Cells Doc)).disk : Engine Cells Doc).openFiles 4).handedOver ≠
      (((((boot .default .empty 0).run [(.createEntity "player" "p1" .empty "e1", 1),
        (.createEntity "player" "p2" .empty "e2", 1), (.createEntity "player" "p3" .empty "e3", 1)]
          : Engine Cells Doc)).takeSnapshot 2).appended
            [(.updateEntity "e1" [⟨.set, "hp", .prim (.num 5)⟩], 3)]).filter WALEntry.isDelta := by
  refine ⟨by decide +kernel, fun h => ?_⟩
  have hlength := congrArg List.length h
  revert hlength
  decide +kernel

end Engine

end SyncEngine
