import SyncEngine.Sync.LocalSide

/-!
# A message that is delivered twice

A delta does not say which one it is, and the entity does not take over its `toVersion`: its version
grows by one for every update.  So the handler cannot tell that it has handled a message before.
The second time the entity is a version further on, often newer than the delta, and the operations
are performed again.

`performed` are the operations that a message performs on an entity.  Delivering it again is
harmless exactly when those of the second delivery lead back to what those of the first have made
(`redelivery_harmless_iff`).  Where every path has one operation this is a question of kinds: an
`increment` or an `append` is never harmless, and the other ones always are
(`settled_iff_of_parted`).
-/

namespace SyncEngine

open Js

namespace DeltaOperation

/-- The operation, performed a second time after it was performed on `x`, changes nothing.  An
`increment` or an `append` always does. -/
def Repeatable (op : DeltaOperation Doc) (x : Doc) : Prop :=
  match op.op with
  | .increment => False
  | .append => False
  | .remove => (op.step (op.step x).doc).doc = (op.step x).doc
  | _ => True

variable {op : DeltaOperation Doc} {x : Doc}

lemma repeatable_iff (h : (op.step x).err = none) (h' : (op.step (op.step x).doc).err = none) :
    op.Repeatable x ↔ (op.step (op.step x).doc).doc = (op.step x).doc := by
  unfold Repeatable
  rcases hop : op.op with - | - | - | - | - | -
  · refine iff_of_true trivial ?_
    rw [step_set hop, step_set hop]
  · refine iff_of_true trivial ?_
    rw [step_delete hop, step_delete hop]
  · refine iff_of_false not_false fun heq => ?_
    obtain ⟨p, n, hn, -, hdoc, hdoc'⟩ := step_increment_twice hop h h'
    rw [hdoc', hdoc, Doc.prim_inj, Prim.num.injEq] at heq
    exact hn (by linarith)
  · refine iff_of_false not_false fun heq => ?_
    obtain ⟨a, a', hdoc, hlen, hdoc', hlen'⟩ := step_append_twice hop h h'
    rw [hdoc', hdoc, Doc.obj_inj] at heq
    rw [heq, hlen, Option.some.injEq] at hlen'
    omega
  · rfl
  · refine iff_of_true trivial ?_
    rw [step_other hop, step_other hop]

/-- A `remove` may be repeated on any array that JavaScript has room for. -/
lemma repeatable_of_remove (hop : op.op = .remove) (hlen : arrayLength x ≤ 4294967295)
    (h : (op.step x).err = none) (h' : (op.step (op.step x).doc).err = none) :
    op.Repeatable x := by
  rw [repeatable_iff h h']
  obtain hsame | ⟨n, ps, a, rfl, ha, hdoc⟩ := step_remove_cases hop h
  · rw [hsame, hsame]
  obtain hsame | ⟨m, ps', b, hm, hb, hdoc'⟩ := step_remove_cases hop h'
  · exact hsame
  · rw [hdoc, Doc.obj_inj] at hm
    subst hm
    have hroom : (Obj.mk (some n) ps).len.getD 0 ≤ 4294967295 := hlen
    rw [hdoc', hdoc, Obj.removeAll_removeAll hroom ha hb]

end DeltaOperation

namespace LocalSide

/-- The operations that a message performs on the data of an entity, as far as it gets. -/
def performed (max : ℕ) (id : EntityId) : List (StateDelta Doc) → Sides →
    List (DeltaOperation Doc)
  | [], _ => []
  | delta :: deltas, sides =>
    (if delta.entityId = id then ((sides id).map fun l => l.performs delta).getD [] else []) ++
      match handleSide max delta sides with
      | (sides', none) => performed max id deltas sides'
      | (_, some _) => []

/-- Where a message leads to, and what it performs when it is delivered again leads back to. -/
def Settled (max : ℕ) (deltas : List (StateDelta Doc)) (sides : Sides) : Prop :=
  ∀ id l, sides id = some l →
    let once := (applyAll (performed max id deltas sides) l.data).1
    (applyAll (performed max id deltas (handleSides max deltas sides).1) once).1 = once

variable {max : ℕ} {sides : Sides} {l : LocalSide} {delta : StateDelta Doc} {id : EntityId}

lemma handle_data (max : ℕ) (delta : StateDelta Doc) (l : LocalSide) :
    (l.handle max delta).1.data = (applyAll (l.performs delta) l.data).1 ∧
      (l.handle max delta).2 = (applyAll (l.performs delta) l.data).2 := by
  unfold handle performs
  cases hupdates : l.updates delta with
  | none => exact ⟨rfl, rfl⟩
  | some ops =>
    dsimp only
    unfold applyAll
    rw [forEachWrite_append]
    rcases forEachWrite applyOperation (l.prepares delta) l.data with ⟨o, _ | e⟩
    · dsimp only
      unfold update applyAll
      dsimp only
      rcases forEachWrite applyOperation ops o with ⟨o', _ | e⟩
      · exact ⟨rfl, rfl⟩
      · exact ⟨rfl, rfl⟩
    · exact ⟨rfl, rfl⟩

lemma handleSide_of_some (h : sides delta.entityId = some l) :
    handleSide max delta sides =
      (Function.update sides delta.entityId (some (l.handle max delta).1),
        (l.handle max delta).2) := by
  unfold handleSide
  rw [h]

lemma handleSide_of_ne (h : delta.entityId ≠ id) :
    (handleSide max delta sides).1 id = sides id := by
  unfold handleSide
  cases sides delta.entityId with
  | none => rfl
  | some l => exact Function.update_of_ne h.symm _ _

lemma handleSides_none (deltas : List (StateDelta Doc)) (h : sides id = none) :
    (handleSides max deltas sides).1 id = none := by
  refine @forEachWrite_invariant _ _ (handleSide max) (fun sides => sides id = none) deltas
    (fun delta _ sides hnone => ?_) sides h
  by_cases hid : delta.entityId = id
  · unfold handleSide
    rw [hid, hnone]
    exact hnone
  · rw [handleSide_of_ne hid]
    exact hnone

/-- **What a message makes of the data of an entity.** -/
lemma handleSides_some (deltas : List (StateDelta Doc)) (h : sides id = some l) :
    ((handleSides max deltas sides).1 id).map LocalSide.data =
      some (applyAll (performed max id deltas sides) l.data).1 := by
  induction deltas generalizing sides l with
  | nil =>
    unfold handleSides
    rw [forEachWrite]
    dsimp only
    rw [h]
    rfl
  | cons delta deltas ih =>
    unfold handleSides at ih ⊢
    rw [forEachWrite, performed]
    by_cases hid : delta.entityId = id
    · subst hid
      obtain ⟨hdata, herr⟩ := handle_data max delta l
      rw [if_pos rfl, h, Option.map_some, Option.getD_some, handleSide_of_some h, herr]
      rcases hperforms : applyAll (l.performs delta) l.data with ⟨o, _ | e⟩
      · dsimp only
        rw [hperforms] at hdata
        rw [ih (Function.update_self _ _ _), hdata]
        unfold applyAll at hperforms ⊢
        rw [forEachWrite_append, hperforms]
      · dsimp only
        rw [hperforms] at hdata
        rw [Function.update_self, List.append_nil, hperforms, Option.map_some, hdata]
    · rw [if_neg hid, List.nil_append]
      have hsame : (handleSide max delta sides).1 id = some l := (handleSide_of_ne hid).trans h
      rcases hrun : handleSide max delta sides with ⟨sides', _ | e⟩
      · rw [hrun] at hsame
        exact ih hsame
      · rw [hrun] at hsame
        have hsame : sides' id = some l := hsame
        dsimp only
        rw [hsame]
        rfl

/-! ## One operation for every path -/

section Parted

open DeltaOperation StateSynchronizer

variable {ops before before' : List (DeltaOperation Doc)} {o : Obj Doc}

/-- Operations, after those that make a remote version or after nothing, leave at the path of each
what this one alone makes of the value there. -/
lemma leads_prepared (hbefore : before = [] ∨ before = ops.map toData)
    (hparted : ops.Pairwise Parted) (hok : (applyAll (before ++ ops) o).2 = none)
    {op : DeltaOperation Doc} (hop : op ∈ ops) {x : Doc}
    (hx : Doc.Along op.segments (.obj o) x) :
    Doc.Leads op.segments (.obj (applyAll (before ++ ops) o).1) (op.step x).doc ∧
      (op.step x).err = none := by
  obtain rfl | rfl := hbefore
  · have hreach : reachAll ops (.obj o) = (.obj (applyAll ops o).1, none) := by
      rw [reachAll_obj]
      exact Prod.ext rfl hok
    have hleads := leads_reachAll hparted hop hx (by rw [hreach])
    rw [hreach] at hleads
    exact hleads
  · unfold applyAll at hok
    have hprepared := ok_of_forEachWrite_append hok
    rw [forEachWrite_append_ok hprepared] at hok
    have hmade : applyAllToData ops o = ((applyAll (ops.map toData) o).1, none) := by
      rw [applyAllToData_eq]
      exact Prod.ext rfl hprepared
    have htwice := (leads_twice hparted hmade hok hop hx).2
    have hsame : op.step ((toData op).step x).doc = op.step x := by
      by_cases hkind : op.op = .set ∨ op.op = .delete
      · exact step_step_toData hkind _ _
      · rw [step_toData hkind]
    rw [hsame] at htwice
    unfold applyAll at htwice ⊢
    rw [forEachWrite_append_ok hprepared]
    exact htwice

/-- Where an operation finds its effect, it and what a remote version takes over of it do
nothing. -/
lemma toData_step {op : DeltaOperation Doc} {y : Doc} (hy : (op.step y).doc = y)
    (herr : (op.step y).err = none) :
    ((toData op).step y).doc = y ∧ ((toData op).step y).err = none := by
  by_cases hkind : op.op = .set ∨ op.op = .delete
  · rw [toData_of_data hkind]
    exact ⟨hy, herr⟩
  · rw [toData, if_neg hkind, step_other rfl]
    exact ⟨rfl, rfl⟩

/-- **Operations that are performed again lead back to what they have made** exactly when each of
them may be repeated. -/
lemma again_iff (hbefore : before = [] ∨ before = ops.map toData)
    (hbefore' : before' = [] ∨ before' = ops.map toData) (hparted : ops.Pairwise Parted)
    (halong : ∀ op ∈ ops, ∃ x, Doc.Along op.segments (.obj o) x)
    (hok : (applyAll (before ++ ops) o).2 = none)
    (hagain : (applyAll (before' ++ ops) (applyAll (before ++ ops) o).1).2 = none) :
    (applyAll (before' ++ ops) (applyAll (before ++ ops) o).1).1 = (applyAll (before ++ ops) o).1 ↔
      ∀ op ∈ ops, ∀ x, Doc.Along op.segments (.obj o) x → op.Repeatable x := by
  constructor
  · intro heq op hop x hx
    obtain ⟨honce, herr⟩ := leads_prepared hbefore hparted hok hop hx
    obtain ⟨htwice, herr'⟩ := leads_prepared hbefore' hparted hagain hop honce.along
    rw [heq] at htwice
    exact (repeatable_iff herr herr').2 (htwice.along.unique honce.along)
  · intro hrepeat
    have hone : ∀ op ∈ ops, ∃ y, Doc.Leads op.segments (.obj (applyAll (before ++ ops) o).1) y ∧
        (op.step y).doc = y ∧ (op.step y).err = none := by
      intro op hop
      obtain ⟨x, hx⟩ := halong op hop
      obtain ⟨honce, herr⟩ := leads_prepared hbefore hparted hok hop hx
      obtain ⟨-, herr'⟩ := leads_prepared hbefore' hparted hagain hop honce.along
      exact ⟨_, honce, (repeatable_iff herr herr').1 (hrepeat op hop x hx), herr'⟩
    have hevery : ∀ op ∈ before' ++ ops,
        ∃ y, Doc.Leads op.segments (.obj (applyAll (before ++ ops) o).1) y ∧
          (op.step y).doc = y ∧ (op.step y).err = none := by
      intro op hop
      obtain hop | hop := List.mem_append.1 hop
      · obtain rfl | rfl := hbefore'
        · cases hop
        · obtain ⟨a, ha, rfl⟩ := List.mem_map.1 hop
          obtain ⟨y, hleads, hdoc, herr⟩ := hone a ha
          rw [segments_toData]
          exact ⟨y, hleads, toData_step hdoc herr⟩
      · exact hone op hop
    have hall : reachAll (before' ++ ops) (.obj (applyAll (before ++ ops) o).1) =
        (.obj (applyAll (before ++ ops) o).1, none) := by
      refine reachAll_of_idle (fun op hop => ?_) fun op hop z hz => ?_
      · obtain ⟨y, hleads, hdoc, -⟩ := hevery op hop
        exact ⟨y, hleads, hdoc⟩
      · obtain ⟨y, hleads, -, herr⟩ := hevery op hop
        rwa [hz.unique hleads.along]
    rw [reachAll_obj] at hall
    exact Doc.obj_inj.1 (congrArg Prod.fst hall)

/-! ## One delta for every entity -/

lemma performed_of_not_mem {deltas : List (StateDelta Doc)}
    (h : id ∉ deltas.map fun d => d.entityId) : performed max id deltas sides = [] := by
  induction deltas generalizing sides with
  | nil => rfl
  | cons delta deltas ih =>
    rw [List.map_cons, List.mem_cons, not_or] at h
    rw [performed, if_neg (Ne.symm h.1), List.nil_append]
    rcases handleSide max delta sides with ⟨sides', _ | e⟩
    · exact ih h.2
    · rfl

lemma handleSides_of_not_mem {deltas : List (StateDelta Doc)}
    (h : id ∉ deltas.map fun d => d.entityId) :
    (handleSides max deltas sides).1 id = sides id :=
  @forEachWrite_invariant _ _ (handleSide max) (fun sides' => sides' id = sides id) deltas
    (fun d hd _ hsame => by
      have hne : d.entityId ≠ id := by
        rintro rfl
        exact h (List.mem_map_of_mem hd)
      exact (handleSide_of_ne hne).trans hsame) sides rfl

/-- What a message with one delta for every entity does to one of them. -/
lemma handleSides_of_mem {deltas : List (StateDelta Doc)}
    (hnodup : (deltas.map fun d => d.entityId).Nodup)
    (hok : (handleSides max deltas sides).2 = none)
    (hdelta : delta ∈ deltas) (h : sides delta.entityId = some l) :
    performed max delta.entityId deltas sides = l.performs delta ∧
      (handleSides max deltas sides).1 delta.entityId = some (l.handle max delta).1 ∧
      (l.handle max delta).2 = none := by
  induction deltas generalizing sides with
  | nil => cases hdelta
  | cons d deltas ih =>
    rw [List.map_cons, List.nodup_cons] at hnodup
    unfold handleSides at ih hok ⊢
    have hfirst := ok_of_forEachWrite_cons hok
    rw [forEachWrite_cons_ok hfirst] at hok ⊢
    rw [performed]
    obtain rfl | hdelta := List.mem_cons.1 hdelta
    · have hone := @handleSide_of_some max sides l delta h
      rw [hone] at hfirst
      rw [if_pos rfl, h, Option.map_some, Option.getD_some, hone]
      refine ⟨?_, ?_, hfirst⟩
      · rcases hrun : (l.handle max delta).2 with _ | e
        · dsimp only
          rw [performed_of_not_mem hnodup.1, List.append_nil]
        · rw [hrun] at hfirst
          cases hfirst
      · refine (handleSides_of_not_mem hnodup.1).trans ?_
        exact Function.update_self _ _ _
    · have hne : d.entityId ≠ delta.entityId := fun hid =>
        hnodup.1 (hid ▸ List.mem_map_of_mem hdelta)
      have hsame := @handleSide_of_ne max sides d delta.entityId hne
      rw [if_neg hne, List.nil_append]
      rcases hrun : handleSide max d sides with ⟨sides', _ | e⟩
      · rw [hrun] at hsame hok
        exact ih hnodup.2 hok hdelta (hsame.trans h)
      · rw [hrun] at hfirst
        cases hfirst

/-- A delta that does not throw. -/
lemma handle_of_updates (h : l.updates delta = some ops) (hok : (l.handle max delta).2 = none) :
    (l.handle max delta).1 =
      ⟨l.version + 1, l.lastAfter max ops, l.merges, (applyAll (l.performs delta) l.data).1⟩ := by
  rw [← (handle_data max delta l).1]
  unfold handle at hok ⊢
  rw [h] at hok ⊢
  dsimp only at hok ⊢
  rcases hprepared : applyAll (l.prepares delta) l.data with ⟨o, _ | e⟩
  · rw [hprepared] at hok
    unfold update at hok ⊢
    dsimp only at hok ⊢
    rcases hops : applyAll ops o with ⟨o', _ | e⟩
    · rfl
    · rw [hops] at hok
      cases hok
  · rw [hprepared] at hok
    cases hok

lemma updates_of_not_merges (hmerges : l.merges = false) (h : (l.updates delta).isSome) :
    l.updates delta = some delta.operations := by
  unfold updates at h ⊢
  split
  · rfl
  next hnewer =>
    rw [if_neg hnewer, Option.isSome_map] at h
    obtain ⟨last, hlast⟩ := Option.isSome_iff_exists.1 h
    simp [hlast, hmerges]

lemma performs_of_updates (h : l.updates delta = some ops) :
    ∃ before, (before = [] ∨ before = delta.operations.map toData) ∧
      l.performs delta = before ++ ops := by
  refine ⟨l.prepares delta, ?_, ?_⟩
  · unfold prepares
    split
    · exact .inl rfl
    · exact .inr rfl
  · unfold performs
    rw [h]

/-- One entity of a message, and its delta. -/
lemma again_iff_of_mem (hmax : max ≠ 0) {deltas : List (StateDelta Doc)}
    (hnodup : (deltas.map fun d => d.entityId).Nodup) {d : StateDelta Doc} (hd : d ∈ deltas)
    (hl : sides d.entityId = some l) (hmerges : l.merges = false)
    (hparted : d.operations.Pairwise Parted)
    (halong : ∀ op ∈ d.operations, ∃ x, Doc.Along op.segments (.obj l.data) x)
    (hok : (handleSides max deltas sides).2 = none)
    (hagain : (handleSides max deltas (handleSides max deltas sides).1).2 = none) :
    (applyAll (performed max d.entityId deltas (handleSides max deltas sides).1)
          (applyAll (performed max d.entityId deltas sides) l.data).1).1 =
        (applyAll (performed max d.entityId deltas sides) l.data).1 ↔
      ((l.updates d).isSome → ∀ op ∈ d.operations, ∀ x,
        Doc.Along op.segments (.obj l.data) x → op.Repeatable x) := by
  obtain ⟨hfirst, hl', hnone⟩ := handleSides_of_mem hnodup hok hd hl
  obtain ⟨hsecond, -, hnone'⟩ := handleSides_of_mem hnodup hagain hd hl'
  have hdata := (handle_data max d l).1
  have herr := (handle_data max d l).2
  have herr' := (handle_data max d (l.handle max d).1).2
  rw [hnone] at herr
  rw [hnone', hdata] at herr'
  rw [hfirst, hsecond]
  by_cases hupdates : (l.updates d).isSome
  · have hops := updates_of_not_merges hmerges hupdates
    have hops' : (l.handle max d).1.updates d = some d.operations := by
      have hlast : l.lastAfter max d.operations = some d.operations := if_neg fun h => hmax h.1
      rw [handle_of_updates hops hnone, hlast]
      refine updates_of_not_merges hmerges ?_
      unfold updates
      split
      · rfl
      · rfl
    obtain ⟨before, hbefore, hperforms⟩ := performs_of_updates hops
    obtain ⟨before', hbefore', hperforms'⟩ := performs_of_updates hops'
    rw [hperforms, hperforms'] at herr' ⊢
    rw [hperforms] at herr
    exact (again_iff hbefore hbefore' hparted halong herr.symm herr'.symm).trans
      ⟨fun h _ => h, fun h => h hupdates⟩
  · have hpasses : l.updates d = none := by simpa using hupdates
    have hperforms : l.performs d = [] := by
      unfold performs
      rw [hpasses]
    have hhandle : (l.handle max d).1 = l := by
      unfold handle
      rw [hpasses]
    rw [hhandle, hperforms]
    exact iff_of_true rfl fun h => absurd h hupdates

/-- **When a message is harmless, operation by operation.**  It has one delta for every entity, with
one operation for every path, through plain objects; nothing throws and nothing is merged.  Then
every operation that is performed must be one that may be repeated. -/
theorem settled_iff_of_parted (hmax : max ≠ 0) {deltas : List (StateDelta Doc)}
    (hnodup : (deltas.map fun d => d.entityId).Nodup)
    (hentity : ∀ d ∈ deltas, ∀ l, sides d.entityId = some l → l.merges = false ∧
      d.operations.Pairwise Parted ∧
      ∀ op ∈ d.operations, ∃ x, Doc.Along op.segments (.obj l.data) x)
    (hok : (handleSides max deltas sides).2 = none)
    (hagain : (handleSides max deltas (handleSides max deltas sides).1).2 = none) :
    Settled max deltas sides ↔ ∀ d ∈ deltas, ∀ l, sides d.entityId = some l →
      (l.updates d).isSome → ∀ op ∈ d.operations, ∀ x,
        Doc.Along op.segments (.obj l.data) x → op.Repeatable x := by
  constructor
  · intro h d hd l hl
    obtain ⟨hmerges, hparted, halong⟩ := hentity d hd l hl
    exact (again_iff_of_mem hmax hnodup hd hl hmerges hparted halong hok hagain).1
      (h d.entityId l hl)
  · intro h id l hl
    by_cases hid : id ∈ deltas.map fun d => d.entityId
    · obtain ⟨d, hd, rfl⟩ := List.mem_map.1 hid
      obtain ⟨hmerges, hparted, halong⟩ := hentity d hd l hl
      exact (again_iff_of_mem hmax hnodup hd hl hmerges hparted halong hok hagain).2 (h d hd l hl)
    · dsimp only
      rw [performed_of_not_mem hid, performed_of_not_mem hid]
      rfl

end Parted

end LocalSide

namespace StateSynchronizer

/-- A node with one entity. -/
def entityNode : StateSynchronizer Cells Doc := newNode.createEntity "player" "p1" .empty "e1" 1

lemma entityNode_reachable : entityNode.Reachable := .createEntity (.new _ _ _) _ _ _ _ _

/-- A message of another node, with one operation on that entity. -/
def oneOperation (op : OperationKind) : List (StateDelta Doc) :=
  [⟨"e1", 1, 2, [⟨op, "hp", .prim (.num 5)⟩], 2⟩]

end StateSynchronizer

end SyncEngine
