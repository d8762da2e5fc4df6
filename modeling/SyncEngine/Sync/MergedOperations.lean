import SyncEngine.Core.OperationLaws
import SyncEngine.Js.Reach
import SyncEngine.Sync.ConflictResolver

/-!
# The two outputs of a merge

`resolveMerge` returns merged data and merged operations.  The data is the remote version laid
over the local one; the operations are applied to the local entity, which has performed the local
ones already.  The two outputs can only agree where no local change is overwritten by what the
remote version has in its place (in most cases the base value), where performing a local
operation again changes nothing, and where no remote change is undone by the local version
shining through.

`Apart` is the ground on which this is said value by value: every path has one operation, and the
local ones go through plain objects.  There the outputs agree exactly when every operation keeps
to `LocalKept` or `RemoteKept`, which look at the operation and at what the base holds at its path
(`outputsAgree_iff`).  No operation reaches into a value that another one has placed there, so the
store may hold its data by value.
-/

namespace SyncEngine

open Js Doc

namespace DeltaOperation

/-- The path of an operation, in segments. -/
def segments (op : DeltaOperation Doc) : List String := splitPath op.path

/-- An operation as a step on a whole document. -/
def reach (op : DeltaOperation Doc) : Step := Step.reach (operate op) op.step op.segments

lemma isLocal (op : DeltaOperation Doc) : Step.Local (operate op) op.step :=
  fun k o h => operate_eq_actAt op k o h

lemma reach_obj (op : DeltaOperation Doc) (o : Obj Doc) :
    (op.reach (.obj o)).doc = .obj (applyOperation op o).1 ∧
      (op.reach (.obj o)).err = (applyOperation op o).2 := by
  obtain ⟨k, ks, hpath⟩ := List.exists_cons_of_ne_nil (splitPath_ne_nil op.path)
  rw [applyOperation, reach, segments, hpath]
  exact ⟨rfl, rfl⟩

/-- The loop over operations on a whole document. -/
def reachAll (ops : List (DeltaOperation Doc)) (d : Doc) : Written Doc :=
  forEachWrite (fun op d => ((op.reach d).doc, (op.reach d).err)) ops d

lemma reachAll_obj (ops : List (DeltaOperation Doc)) (o : Obj Doc) :
    reachAll ops (.obj o) = (.obj (applyAll ops o).1, (applyAll ops o).2) := by
  induction ops generalizing o with
  | nil => rfl
  | cons op ops ih =>
    obtain ⟨hdoc, herr⟩ := op.reach_obj o
    unfold reachAll applyAll at *
    rw [forEachWrite, forEachWrite, hdoc, herr]
    rcases applyOperation op o with ⟨o', _ | e⟩
    · exact ih o'
    · rfl

/-- The paths of two operations part. -/
def Parted (a b : DeltaOperation Doc) : Prop := Part a.segments b.segments

instance (a b : DeltaOperation Doc) : Decidable (Parted a b) := by
  unfold Parted
  infer_instance

variable {ops : List (DeltaOperation Doc)} {p : List String} {b d t s x : Doc}

lemma reachAll_cons {op : DeltaOperation Doc} (h : (op.reach d).err = none) :
    reachAll (op :: ops) d = reachAll ops (op.reach d).doc := forEachWrite_cons_ok h

lemma ok_of_reachAll_cons {op : DeltaOperation Doc} (h : (reachAll (op :: ops) d).2 = none) :
    (op.reach d).err = none := ok_of_forEachWrite_cons h

/-- Operations on other paths leave the value at a path alone. -/
lemma along_reachAll (hparted : ∀ op ∈ ops, Part op.segments p) (h : Along p d x) :
    Along p (reachAll ops d).1 x :=
  @forEachWrite_invariant _ _ _ (fun d => Along p d x) ops
    (fun op hop _ hs => hs.of_part op.isLocal (hparted op hop)) d h

/-- **What an operation has made is still there when the others are done**, and it has thrown
nothing. -/
lemma leads_reachAll {op : DeltaOperation Doc} (hops : ops.Pairwise Parted) (hop : op ∈ ops)
    (h : Along op.segments d x) (hok : (reachAll ops d).2 = none) :
    Leads op.segments (reachAll ops d).1 (op.step x).doc ∧ (op.step x).err = none := by
  induction ops generalizing d with
  | nil => simp at hop
  | cons a ops ih =>
    obtain ⟨hfirst, hrest⟩ := List.pairwise_cons.1 hops
    have hfine := ok_of_reachAll_cons hok
    rw [reachAll_cons hfine] at hok ⊢
    rcases List.mem_cons.1 hop with rfl | hop
    · obtain ⟨hleads, herr⟩ := h.leads_reach op.isLocal
      refine ⟨?_, herr.symm.trans hfine⟩
      exact @forEachWrite_invariant _ _ _ (fun d => Leads op.segments d (op.step x).doc) ops
        (fun b hb _ hs => hs.of_part b.isLocal (hfirst b hb).symm) _ hleads
    · exact ih hrest hop (h.of_part a.isLocal (hfirst op hop)) hok

/-- Operations on the first side of an overlay, which hide what the second side holds. -/
lemma overlay_reachAll_left (hops : ops.Pairwise Parted)
    (hhides : ∀ op ∈ ops, ∃ x, Along op.segments b x ∧ Along op.segments t x ∧
      (op.step x).doc.overlay x = (op.step x).doc)
    (h : t.overlay b = t) : (reachAll ops t).1.overlay b = (reachAll ops t).1 := by
  induction ops generalizing t with
  | nil => exact h
  | cons op ops ih =>
    obtain ⟨hfirst, hrest⟩ := List.pairwise_cons.1 hops
    obtain ⟨x, hb, ht, hx⟩ := hhides op (by simp)
    have hone : (op.reach t).doc.overlay b = (op.reach t).doc :=
      overlay_reach_left op.isLocal hb ht hx h
    unfold reachAll at ih ⊢
    rw [forEachWrite]
    rcases (op.reach t).err with _ | e
    · refine ih hrest (fun a ha => ?_) hone
      obtain ⟨y, hb', ht', hy⟩ := hhides a (by simp [ha])
      exact ⟨y, hb', ht'.of_part op.isLocal (hfirst a ha), hy⟩
    · exact hone

/-- Operations on the second side of an overlay, which hide what the first side holds. -/
lemma overlay_reachAll_right (hops : ops.Pairwise Parted)
    (ht : ∀ op ∈ ops, Beside (fun b d => d = b) op.segments b t)
    (hs : ∀ op ∈ ops, Beside (fun _ d => d ≠ absent) op.segments b s)
    (hhides : ∀ op ∈ ops, ∀ x, Along op.segments b x → x.overlay (op.step x).doc = (op.step x).doc)
    (hok : (reachAll ops s).2 = none) :
    reachAll ops (t.overlay s) = (t.overlay (reachAll ops s).1, none) := by
  induction ops generalizing s with
  | nil => rfl
  | cons op ops ih =>
    obtain ⟨hfirst, hrest⟩ := List.pairwise_cons.1 hops
    have hfine := ok_of_reachAll_cons hok
    obtain ⟨hdoc, herr⟩ := overlay_reach_right op.isLocal (ht op (by simp)) (hs op (by simp))
      (hhides op (by simp))
    rw [reachAll_cons hfine] at hok ⊢
    rw [reachAll_cons (herr.symm.trans hfine)]
    have hwhole : (op.reach (t.overlay s)).doc = t.overlay (op.reach s).doc := hdoc.symm
    rw [hwhole]
    refine ih hrest (fun a ha => ht a (by simp [ha])) (fun a ha => ?_)
      (fun a ha => hhides a (by simp [ha])) hok
    exact @Beside.of_part _ _ _ _ _ _ absent _ op.isLocal (hfirst a ha)
      (.inl fun _ _ k r _ => Step.reach_ne_absent k r _) (hs a (by simp [ha]))

/-! ## One operation -/

/-- A local operation on the value `x` that keeps the two outputs together: the base holds nothing
there but what the operation makes of it, and once more it changes nothing.  An `increment` or an
`append` never does. -/
def LocalKept (op : DeltaOperation Doc) (x : Doc) : Prop :=
  match op.op with
  | .set => ¬ Somewhere Overrides op.value x
  | .delete => x = absent
  | .increment => False
  | .append => False
  | .remove => (op.step x).doc = x
  | .other => True

/-- A remote operation on the value `x` that keeps the two outputs together: nothing of `x` is
gone. -/
def RemoteKept (op : DeltaOperation Doc) (x : Doc) : Prop :=
  match op.op with
  | .set => ¬ Somewhere Shines x op.value
  | .delete => x = absent
  | _ => True

variable {op : DeltaOperation Doc} {y z : Doc}

lemma step_set (h : op.op = .set) (x : Doc) : op.step x = ⟨op.value, true, none⟩ := by
  simp [DeltaOperation.step, h]

lemma step_delete (h : op.op = .delete) (x : Doc) : op.step x = ⟨absent, false, none⟩ := by
  simp [DeltaOperation.step, h, absent]

lemma step_other (h : op.op = .other) (x : Doc) : op.step x = ⟨x, false, none⟩ := by
  simp [DeltaOperation.step, h]

lemma numberOr_one_ne_zero {v : Doc} {q : ℚ} (h : v.numberOr 1 = .ok q) : q ≠ 0 := by
  unfold Doc.numberOr at h
  rcases hv : v.toNumber with e | n
  · rw [hv] at h
    simp [Except.map] at h
  · rw [hv] at h
    simp only [Except.map, Except.ok.injEq] at h
    rcases n with - | n
    · simp [← h]
    · by_cases hn : n = 0
      · simp [← h, hn]
      · simp [← h, hn]

/-- An increment stores a number that differs from the one before by something. -/
lemma step_increment (hop : op.op = .increment) (h : (op.step x).err = none) :
    ∃ p n : ℚ, n ≠ 0 ∧ x.numberOr 0 = .ok p ∧ op.value.numberOr 1 = .ok n ∧
      (op.step x).doc = .prim (.num (p + n)) := by
  rcases hi : incremented x op.value with e | q
  · simp [DeltaOperation.step, hop, hi] at h
  · obtain ⟨p, n, hp, hn, rfl⟩ := incremented_eq_ok hi
    exact ⟨p, n, numberOr_one_ne_zero hn, hp, hn, by simp [DeltaOperation.step, hop, hi]⟩

/-- How long an array is; `0` for what is none. -/
def arrayLength (d : Doc) : ℕ :=
  match d.node [] with
  | .obj len => len.getD 0
  | .prim _ => 0

/-- An append stores an array that is one longer. -/
lemma step_append (hop : op.op = .append) (h : (op.step x).err = none) :
    ∃ a : Obj Doc, (op.step x).doc = .obj a ∧ a.len = some (arrayLength x + 1) := by
  have hnew : ∃ a : Obj Doc, (Obj.emptyArray : Obj Doc).push op.value = .ok a ∧ a.len = some 1 :=
    ⟨_, rfl, rfl⟩
  obtain ⟨new, hpush, hlen⟩ := hnew
  rcases hx : x.view with q | ⟨_ | n, ps⟩
  · refine ⟨new, by simp [DeltaOperation.step, hop, hx, hpush], ?_⟩
    rw [eq_prim_of_view hx]
    exact hlen
  · refine ⟨new, by simp [DeltaOperation.step, hop, hx, hpush], ?_⟩
    rw [eq_obj_of_view hx]
    exact hlen
  · rcases hold : (Obj.mk (some n) ps).push op.value with e | a
    · simp [DeltaOperation.step, hop, hx, hold] at h
    · refine ⟨a, by simp [DeltaOperation.step, hop, hx, hold], ?_⟩
      unfold Obj.push at hold
      split at hold
      · rw [eq_obj_of_view hx, ← Except.ok.inj hold]
        rfl
      · simp at hold

/-- An increment performed twice adds the same twice. -/
lemma step_increment_twice (hop : op.op = .increment) (h : (op.step x).err = none)
    (h' : (op.step (op.step x).doc).err = none) :
    ∃ p n : ℚ, n ≠ 0 ∧ x.numberOr 0 = .ok p ∧ (op.step x).doc = .prim (.num (p + n)) ∧
      (op.step (op.step x).doc).doc = .prim (.num (p + n + n)) := by
  obtain ⟨p, n, hn, hp, hv, hdoc⟩ := step_increment hop h
  obtain ⟨p', n', -, hp', hv', hdoc'⟩ := step_increment hop h'
  obtain rfl : n = n' := Except.ok.inj (hv.symm.trans hv')
  have hsum : p' = p + n := by
    rw [hdoc, numberOr_zero_num] at hp'
    exact (Except.ok.inj hp').symm
  rw [hsum] at hdoc'
  exact ⟨p, n, hn, hp, hdoc, hdoc'⟩

/-- An append performed twice makes the array two longer. -/
lemma step_append_twice (hop : op.op = .append) (h : (op.step x).err = none)
    (h' : (op.step (op.step x).doc).err = none) :
    ∃ a a' : Obj Doc, (op.step x).doc = .obj a ∧ a.len = some (arrayLength x + 1) ∧
      (op.step (op.step x).doc).doc = .obj a' ∧ a'.len = some (arrayLength x + 2) := by
  obtain ⟨a, hdoc, hlen⟩ := step_append hop h
  obtain ⟨a', hdoc', hlen'⟩ := step_append hop h'
  have hlength : arrayLength (.obj a) = arrayLength x + 1 := by simp [arrayLength, hlen]
  rw [hdoc, hlength] at hlen'
  exact ⟨a, a', hdoc, hlen, hdoc', hlen'⟩

lemma step_remove_cases (hop : op.op = .remove) (h : (op.step x).err = none) :
    (op.step x).doc = x ∨ ∃ n ps a, x = .obj ⟨some n, ps⟩ ∧
      (Obj.mk (some n) ps).removeAll (Doc.strictEq op.value) = .ok a ∧
      (op.step x).doc = .obj a := by
  rcases hx : x.view with q | ⟨_ | n, ps⟩
  · exact .inl (by simp [DeltaOperation.step, hop, hx])
  · exact .inl (by simp [DeltaOperation.step, hop, hx])
  · rcases hold : (Obj.mk (some n) ps).removeAll (Doc.strictEq op.value) with e | a
    · simp [DeltaOperation.step, hop, hx, hold] at h
    · exact .inr ⟨n, ps, a, eq_obj_of_view hx, hold, by simp [DeltaOperation.step, hop, hx, hold]⟩

/-- **A local operation that keeps the outputs together** hides what the base holds at its place,
and changes nothing when it is performed again. -/
lemma LocalKept.settled (hkept : op.LocalKept x) (h : (op.step x).err = none) :
    (op.step x).doc.overlay x = (op.step x).doc ∧
      (op.step (op.step x).doc).doc = (op.step x).doc ∧
      (op.step (op.step x).doc).err = none := by
  unfold LocalKept at hkept
  split at hkept
  next hop =>
    rw [step_set hop, step_set hop]
    exact ⟨(overlay_eq_left_iff _ _).2 hkept, rfl, rfl⟩
  next hop =>
    rw [step_delete hop, step_delete hop, hkept]
    exact ⟨overlay_absent _, rfl, rfl⟩
  next => exact hkept.elim
  next => exact hkept.elim
  next hop =>
    rw [hkept]
    exact ⟨overlay_self x, hkept, h⟩
  next hop =>
    rw [step_other hop, step_other hop]
    exact ⟨overlay_self x, rfl, rfl⟩

/-- A local operation that, performed again, makes what the overlay holds keeps the outputs
together. -/
lemma localKept_of_eq (h : (op.step x).err = none) (h' : (op.step (op.step x).doc).err = none)
    (heq : (op.step (op.step x).doc).doc = (op.step x).doc.overlay x) : op.LocalKept x := by
  unfold LocalKept
  split
  next hop =>
    rw [step_set hop, step_set hop] at heq
    exact (overlay_eq_left_iff _ _).1 heq.symm
  next hop =>
    rw [step_delete hop, step_delete hop] at heq
    rw [absent_overlay] at heq
    exact heq.symm
  next hop =>
    obtain ⟨p, n, hn, hp, hdoc, hdoc'⟩ := step_increment_twice hop h h'
    rw [hdoc', hdoc] at heq
    by_cases hx : x = absent
    · rw [hx, overlay_absent, prim_inj, Prim.num.injEq] at heq
      exact hn (by linarith)
    · rw [overlay_of_not_plain (fun hplain => not_isPlain_prim _ hplain.1) hx] at heq
      rw [← heq, numberOr_zero_num] at hp
      have hp := Except.ok.inj hp
      exact hn (by linarith)
  next hop =>
    obtain ⟨a, a', hdoc, hlen, hdoc', hlen'⟩ := step_append_twice hop h h'
    rw [hdoc', hdoc] at heq
    by_cases hx : x = absent
    · rw [hx, overlay_absent, obj_inj] at heq
      rw [heq, hlen] at hlen'
      simp at hlen'
    · have hnot : ¬ ((obj a).IsPlain ∧ x.IsPlain) := fun hplain => by
        have hnone := (isPlain_obj a).1 hplain.1
        rw [hlen] at hnone
        simp at hnone
      rw [overlay_of_not_plain hnot hx] at heq
      rw [← heq] at hlen'
      have hself : a'.len.getD 0 = arrayLength (.obj a') := rfl
      generalize arrayLength (.obj a') = m at hlen' hself
      rw [hlen', Option.getD_some] at hself
      omega
  next hop =>
    rcases step_remove_cases hop h with hsame | ⟨n, ps, a, rfl, ha, hdoc⟩
    · exact hsame
    have hover : (op.step (.obj ⟨some n, ps⟩)).doc.overlay (.obj ⟨some n, ps⟩) =
        .obj ⟨some n, ps⟩ :=
      overlay_of_not_plain (fun hplain => by simp at hplain) (obj_ne_prim _ _)
    rw [hover] at heq
    rcases step_remove_cases hop h' with hsame | ⟨m, ps', a', hm, ha', hdoc'⟩
    · exact hsame.symm.trans heq
    · rw [hdoc, obj_inj] at hm
      rw [heq, obj_inj] at hdoc'
      rw [← hm, ← hdoc'] at ha'
      rw [hdoc, Obj.eq_of_removeAll_removeAll ha ha']
  next => trivial

/-- **A remote operation keeps the outputs together** exactly when it hides what was there. -/
lemma remoteKept_iff (h : (op.step x).err = none) :
    op.RemoteKept x ↔ x.overlay (op.step x).doc = (op.step x).doc := by
  unfold RemoteKept
  split
  next hop =>
    rw [step_set hop]
    exact (overlay_eq_right_iff x op.value).symm
  next hop =>
    rw [step_delete hop]
    exact ⟨fun hx => by rw [hx, overlay_absent], fun heq => by rwa [overlay_absent] at heq⟩
  next hset hdelete =>
    refine ⟨fun _ => ?_, fun _ => trivial⟩
    rcases hop : op.op with - | - | - | - | - | -
    · exact absurd hop hset
    · exact absurd hop hdelete
    · obtain ⟨p, n, -, -, -, hdoc⟩ := step_increment hop h
      rw [hdoc]
      exact overlay_of_not_plain (fun hplain => not_isPlain_prim _ hplain.2)
        fun heq => by simp [absent] at heq
    · obtain ⟨a, hdoc, hlen⟩ := step_append hop h
      rw [hdoc]
      refine overlay_of_not_plain (fun hplain => ?_) (obj_ne_prim _ _)
      have hnone := (isPlain_obj a).1 hplain.2
      rw [hlen] at hnone
      simp at hnone
    · rcases step_remove_cases hop h with hsame | ⟨n, ps, a, rfl, -, hdoc⟩
      · rw [hsame, overlay_self]
      · rw [hdoc]
        exact overlay_of_not_plain (fun hplain => by simp at hplain) (obj_ne_prim _ _)
    · rw [step_other hop, overlay_self]

end DeltaOperation

open DeltaOperation

/-! ## Two deltas -/

/-- Every path has one operation, none of them above another, and the local ones go through plain
objects or nothing. -/
structure Apart (base : Obj Doc) (localOps remoteOps : List (DeltaOperation Doc)) : Prop where
  plain : base.len = none
  parted : (localOps ++ remoteOps).Pairwise Parted
  along : ∀ op ∈ localOps, ∃ x, Along op.segments (.obj base) x

/-- Every operation keeps the two outputs together. -/
structure Kept (base : Obj Doc) (localOps remoteOps : List (DeltaOperation Doc)) : Prop where
  locals : ∀ op ∈ localOps, ∀ x, Along op.segments (.obj base) x → op.LocalKept x
  remotes : ∀ op ∈ remoteOps, ∀ x, Along op.segments (.obj base) x → op.RemoteKept x

namespace Apart

variable {base : Obj Doc} {localOps remoteOps : List (DeltaOperation Doc)}

lemma base_isPlain (h : Apart base localOps remoteOps) : (Doc.obj base).IsPlain :=
  (isPlain_obj base).2 h.plain

/-- The local operations leave a value at the path of a remote one as it is. -/
lemma along_local (h : Apart base localOps remoteOps) {op : DeltaOperation Doc}
    (hop : op ∈ remoteOps) {d x : Doc} (hx : Along op.segments d x) :
    Along op.segments (reachAll localOps d).1 x :=
  along_reachAll (fun a ha => (List.pairwise_append.1 h.parted).2.2 a ha op hop) hx

lemma along_remote (h : Apart base localOps remoteOps) {op : DeltaOperation Doc}
    (hop : op ∈ localOps) {d x : Doc} (hx : Along op.segments d x) :
    Along op.segments (reachAll remoteOps d).1 x :=
  along_reachAll (fun a ha => ((List.pairwise_append.1 h.parted).2.2 op hop a ha).symm) hx

lemma isPlain_reachAll (ops : List (DeltaOperation Doc)) {d : Doc} (h : d.IsPlain) :
    (reachAll ops d).1.IsPlain := by
  refine @forEachWrite_invariant _ _ _ (fun d => d.IsPlain) ops (fun op _ s hs => ?_) d h
  obtain ⟨k, ks, hpath⟩ := List.exists_cons_of_ne_nil (splitPath_ne_nil op.path)
  simp only [DeltaOperation.reach, DeltaOperation.segments, hpath]
  exact Step.isPlain_reach op.isLocal (.inr hs) k ks

end Apart

section Outputs

variable {base : Obj Doc} {localOps remoteOps : List (DeltaOperation Doc)}

/-- The merged operations, performed on what the local ones have made of the base, make of it what
the overlay is. -/
def OutputsMeet (base : Doc) (localOps remoteOps : List (DeltaOperation Doc)) : Prop :=
  reachAll (localOps ++ remoteOps) (reachAll localOps base).1 =
    ((reachAll localOps base).1.overlay (reachAll remoteOps base).1, none)

lemma reachAll_append {first later : List (DeltaOperation Doc)} {d : Doc}
    (h : (reachAll first d).2 = none) :
    reachAll (first ++ later) d = reachAll later (reachAll first d).1 := forEachWrite_append_ok h

/-- Operations that keep the outputs together make them meet. -/
lemma outputsMeet_of_kept (h : Apart base localOps remoteOps) (hkept : Kept base localOps remoteOps)
    (hlocal : (reachAll localOps (.obj base)).2 = none)
    (hremote : (reachAll remoteOps (.obj base)).2 = none) :
    OutputsMeet (.obj base) localOps remoteOps := by
  obtain ⟨hl, hr, hlr⟩ := List.pairwise_append.1 h.parted
  -- What the base holds, the local data holds too or hides.
  have hhidden : (reachAll localOps (.obj base)).1.overlay (.obj base) =
      (reachAll localOps (.obj base)).1 := by
    refine overlay_reachAll_left hl (fun op hop => ?_) (overlay_self _)
    obtain ⟨x, hx⟩ := h.along op hop
    have herr := (leads_reachAll hl hop hx hlocal).2
    exact ⟨x, hx, hx, ((hkept.locals op hop x hx).settled herr).1⟩
  -- The local operations change nothing when they are performed again.
  have hagain : reachAll localOps (reachAll localOps (.obj base)).1 =
      ((reachAll localOps (.obj base)).1, none) := by
    refine forEachWrite_eq_self fun op hop => ?_
    obtain ⟨x, hx⟩ := h.along op hop
    obtain ⟨hleads, herr⟩ := leads_reachAll hl hop hx hlocal
    obtain ⟨-, hdoc, herr'⟩ := (hkept.locals op hop x hx).settled herr
    have hsame := hleads.reach_eq op.isLocal hdoc
    have hnone := (hleads.along.leads_reach op.isLocal).2.trans herr'
    exact Prod.ext hsame hnone
  -- The remote ones do to the local data what they do to the base below it.
  have hbeside : ∀ op ∈ remoteOps,
      Beside (fun b d => d = b) op.segments (.obj base) (reachAll localOps (.obj base)).1 := by
    intro op hop
    refine @forEachWrite_invariant _ _ _
      (fun d => Beside (fun b d => d = b) op.segments (.obj base) d) localOps
      (fun a ha d hd => ?_) _
      (@Beside.refl (fun b d => d = b) (fun _ _ => rfl) _ _)
    obtain ⟨x, hx⟩ := h.along a ha
    exact hd.of_part a.isLocal (hlr a ha op hop) (.inr hx)
  rw [OutputsMeet, reachAll_append (by rw [hagain]), hagain]
  conv_lhs => rw [← hhidden]
  refine overlay_reachAll_right hr hbeside (fun op hop => .refl (fun b hb => ?_) _ _)
    (fun op hop x hx => ?_) hremote
  · rintro rfl
    exact hb absent_open
  · have herr := (leads_reachAll hr hop hx hremote).2
    exact (remoteKept_iff herr).1 (hkept.remotes op hop x hx)

/-- Where the outputs meet every operation keeps them together. -/
lemma kept_of_outputsMeet (h : Apart base localOps remoteOps)
    (hlocal : (reachAll localOps (.obj base)).2 = none)
    (hremote : (reachAll remoteOps (.obj base)).2 = none)
    (hmeet : OutputsMeet (.obj base) localOps remoteOps) : Kept base localOps remoteOps := by
  obtain ⟨hl, hr, hlr⟩ := List.pairwise_append.1 h.parted
  have hagain : (reachAll localOps (reachAll localOps (.obj base)).1).2 = none :=
    ok_of_forEachWrite_append (congrArg Prod.snd hmeet)
  rw [OutputsMeet, reachAll_append hagain] at hmeet
  have hrest : (reachAll remoteOps (reachAll localOps (reachAll localOps (.obj base)).1).1).2 =
      none := congrArg Prod.snd hmeet
  have hdoc := congrArg Prod.fst hmeet
  refine ⟨fun op hop x hx => ?_, fun op hop x hx => ?_⟩
  · obtain ⟨honce, herr⟩ := leads_reachAll hl hop hx hlocal
    obtain ⟨htwice, herr'⟩ := leads_reachAll hl hop honce.along hagain
    have hops := h.along_remote hop htwice.along
    have hdata := honce.along.overlay (h.along_remote hop hx)
    rw [hdoc] at hops
    exact localKept_of_eq herr herr' (hops.unique hdata)
  · obtain ⟨hmade, herr⟩ := leads_reachAll hr hop hx hremote
    have hbefore := h.along_local hop (h.along_local hop hx)
    have hops := (leads_reachAll hr hop hbefore hrest).1.along
    have hdata := (h.along_local hop hx).overlay hmade.along
    rw [hdoc] at hops
    exact (remoteKept_iff herr).2 (hops.unique hdata).symm

end Outputs

/-! ## The resolver and the store -/

lemma ne_of_part {p q : List String} (h : Part p q) : p ≠ q := by
  induction h with
  | head hne p q => exact fun heq => hne (List.cons.inj heq).1
  | tail k _ ih => exact fun heq => ih (List.cons.inj heq).2

/-- A loop that files operations under new paths lists them one after another. -/
lemma values_foldl {file : Js.Map String (DeltaOperation Doc) → DeltaOperation Doc →
      Js.Map String (DeltaOperation Doc)}
    (hfile : ∀ m op, op.path ∉ m.keys → file m op = m.set op.path op)
    (ops : List (DeltaOperation Doc)) (m : Js.Map String (DeltaOperation Doc))
    (h : (m.keys ++ ops.map fun op => op.path).Nodup) :
    (ops.foldl file m).values = m.values ++ ops ∧
      (ops.foldl file m).keys = m.keys ++ ops.map fun op => op.path := by
  induction ops generalizing m with
  | nil => simp
  | cons op ops ih =>
    have hnew : op.path ∉ m.keys := fun hmem =>
      (List.nodup_append.1 h).2.2 op.path hmem op.path (by simp) rfl
    have hkeys := Js.Map.keys_set_of_not_mem m op hnew
    have hvalues : (m.set op.path op).values = m.values ++ [op] := by
      simp [Js.Map.values, Js.Map.entries_set_of_not_mem m op hnew]
    have hrest : ((m.set op.path op).keys ++ ops.map fun op => op.path).Nodup := by
      rw [hkeys]
      simpa using h
    obtain ⟨hv, hk⟩ := ih (m.set op.path op) hrest
    rw [List.foldl_cons, hfile m op hnew, hv, hk, hvalues, hkeys]
    simp

/-- With one operation for every path nothing is dropped. -/
lemma mergeOperations_of_parted {localOps remoteOps : List (DeltaOperation Doc)}
    (h : (localOps ++ remoteOps).Pairwise Parted) :
    ConflictResolver.mergeOperations localOps remoteOps = localOps ++ remoteOps := by
  have hpaths : ((localOps ++ remoteOps).map fun op => op.path).Nodup := by
    refine List.pairwise_map.2 (List.Pairwise.imp ?_ h)
    intro a b hab heq
    exact ne_of_part hab (congrArg splitPath heq)
  have hempty : (Js.Map.empty : Js.Map String (DeltaOperation Doc)).keys = [] := rfl
  have hnone : (Js.Map.empty : Js.Map String (DeltaOperation Doc)).values = [] := rfl
  have hlocal : ((Js.Map.empty : Js.Map String (DeltaOperation Doc)).keys ++
      localOps.map fun op => op.path).Nodup := by
    rw [hempty, List.nil_append]
    rw [List.map_append] at hpaths
    exact hpaths.of_append_left
  obtain ⟨hv, hk⟩ := values_foldl (fun m op _ => rfl) localOps .empty hlocal
  rw [hnone, List.nil_append] at hv
  rw [hempty, List.nil_append] at hk
  have hfile : ∀ (m : Js.Map String (DeltaOperation Doc)) (op : DeltaOperation Doc),
      op.path ∉ m.keys →
      (if (m.get? op.path).isSome then m else m.set op.path op) = m.set op.path op := by
    intro m op hnew
    rw [Js.Map.mem_keys_iff] at hnew
    exact if_neg hnew
  have hremote := values_foldl hfile remoteOps
    (localOps.foldl (fun m op => m.set op.path op) .empty)
    (by rw [hk, ← List.map_append]; exact hpaths)
  rw [ConflictResolver.mergeOperations, hremote.1, hv]

/-- **The two outputs agree**: the store performs the merged operations on the local entity, and
holds the merged data then. -/
def OutputsAgree (r : ConflictResolver) (σ : StateManager Cells Doc) (id : EntityId)
    (localEntity remoteEntity : EntityDoc) (localDelta remoteDelta : StateDelta Doc)
    (now : Timestamp) : Prop :=
  let result := (r.resolve localEntity remoteEntity localDelta remoteDelta now).1
  let updated := σ.updateEntity id (result.mergedOperations.getD []) now
  (∃ delta, updated.2 = .updated delta) ∧ updated.1.data id = some result.entity.data

/-- An update of a store that holds its data by value. -/
lemma updateEntity_cells (σ : StateManager Cells Doc) {id : EntityId} {e : EntityState}
    (hget : σ.entities.get? id = some e) (ops : List (DeltaOperation Doc)) (now : Timestamp) :
    ((∃ delta, (σ.updateEntity id ops now).2 = .updated delta) ↔
        (applyAll ops (Memory.read σ.memory e.data)).2 = none) ∧
      (σ.updateEntity id ops now).1.data id =
        some (applyAll ops (Memory.read σ.memory e.data)).1 := by
  have hloop := applyOperations_cells e.data ops σ.memory
  have hread : ∀ m : Cells, Memory.read m e.data = m.cell e.data := fun m => rfl
  rw [StateManager.updateEntity, hget]
  simp only [hloop, Cells.write, hread]
  rcases applyAll ops (σ.memory.cell e.data) with ⟨o, _ | err⟩
  · simp [StateManager.finishUpdate, StateManager.commitUpdate, StateManager.data, hread]
  · simp [StateManager.finishUpdate, StateManager.data, hread, hget]

/-- A store that holds the local version of an entity with `hp = 10`: what the operations have made
of it. -/
def localStore (ops : List (DeltaOperation Doc)) : StateManager Cells Doc :=
  (((StateManager.new Memory.empty 100).receiveEntity "player" "p1"
    (ConflictResolver.withHp 10).data "e1" 1).receiveUpdate "e1" ops 5).1

/-- A version of that entity: what the operations have made of it. -/
def versionOf (ops : List (DeltaOperation Doc)) : EntityDoc :=
  { ConflictResolver.withHp 10 with data := (applyAll ops (ConflictResolver.withHp 10).data).1 }

/-- A delta of that entity. -/
def deltaOf (ops : List (DeltaOperation Doc)) : StateDelta Doc := ⟨"e1", 1, 2, ops, 5⟩

end SyncEngine
