import SyncEngine.Core.Operation
import SyncEngine.Js.Overlay

/-!
# The conflict resolver

`src/sync/conflict-resolver.ts`.  The resolver writes to none of its arguments, so it is a function
of entities with their data written out.  A custom resolver is code that an application hands
in: a function that returns an entity, or throws (`none`).  `Date.now()` is an argument.

The resolver is then asked whether two replicas that see one conflict from opposite sides end
equal.  They do where one of them is strictly later, and with `MERGE` where the two versions
nowhere clash (`resolve_converges_iff`): a tie goes to whichever is the local one, and a value that
both sides hold is overwritten by the remote one.

The merged operations are filed under their paths.  Of the remote operations on paths that no local
operation names, the first one of each path is kept, so that all of them are kept only where there
is one for every path (`resolveMerge_keeps_iff`).
-/

namespace SyncEngine

open Js

inductive ConflictStrategy
  | lastWriteWins
  | firstWriteWins
  | merge
  | custom
  deriving DecidableEq

structure ConflictResult where
  resolved : Bool
  entity : EntityDoc
  strategy : ConflictStrategy
  mergedOperations : Option (List (DeltaOperation Doc))

abbrev CustomResolver :=
  EntityDoc → EntityDoc → StateDelta Doc → StateDelta Doc → Option EntityDoc

structure ConflictResolver where
  defaultStrategy : ConflictStrategy
  customResolvers : Js.Map String CustomResolver
  conflictsResolved : ℕ
  conflictsFailed : ℕ

namespace ConflictResolver

def new : ConflictResolver := ⟨.lastWriteWins, .empty, 0, 0⟩

def setDefaultStrategy (r : ConflictResolver) (strategy : ConflictStrategy) : ConflictResolver :=
  { r with defaultStrategy := strategy }

def registerResolver (r : ConflictResolver) (entityType : String) (resolver : CustomResolver) :
    ConflictResolver :=
  { r with customResolvers := r.customResolvers.set entityType resolver }

/-- `deepMerge(target, source)`: the properties of `target`, each overlaid with that of `source`. -/
def deepMerge (target source : Obj Doc) : Obj Doc :=
  ⟨none, fun key => (target.props key).overlay (source.props key)⟩

/-- The loop of `deepMerge`: a key of `source` is merged where both values are plain objects, and
written otherwise; the other keys stay. -/
lemma deepMerge_spec (target source : Obj Doc) (key : String) :
    (source.props key = Doc.absent →
        (deepMerge target source).props key = target.props key) ∧
      (∀ ts ss, target.props key = .obj ⟨none, ts⟩ → source.props key = .obj ⟨none, ss⟩ →
        (deepMerge target source).props key = .obj (deepMerge ⟨none, ts⟩ ⟨none, ss⟩)) ∧
      (source.props key ≠ Doc.absent →
        ¬ ((target.props key).IsPlain ∧ (source.props key).IsPlain) →
        (deepMerge target source).props key = source.props key) := by
  refine ⟨fun hs => ?_, fun ts ss ht hs => ?_, fun hs h => Doc.overlay_of_not_plain h hs⟩
  · simp only [deepMerge, hs, Doc.overlay_absent]
  · simp only [deepMerge, ht, hs, Doc.overlay_plain]

/-- `mergeOperations`: for each path its last local operation, else its first remote one. -/
def mergeOperations {V : Type} (localOps remoteOps : List (DeltaOperation V)) :
    List (DeltaOperation V) :=
  let pathMap : Js.Map String (DeltaOperation V) :=
    localOps.foldl (fun pathMap op => pathMap.set op.path op) .empty
  (remoteOps.foldl (fun pathMap op =>
    if (pathMap.get? op.path).isSome then pathMap else pathMap.set op.path op) pathMap).values

def resolveLastWriteWins (r : ConflictResolver) (localEntity remoteEntity : EntityDoc) :
    ConflictResult × ConflictResolver :=
  let winner := if localEntity.lastModified ≥ remoteEntity.lastModified then localEntity
    else remoteEntity
  (⟨true, winner, .lastWriteWins, none⟩, { r with conflictsResolved := r.conflictsResolved + 1 })

def resolveFirstWriteWins (r : ConflictResolver) (localEntity remoteEntity : EntityDoc) :
    ConflictResult × ConflictResolver :=
  let winner := if localEntity.lastModified ≤ remoteEntity.lastModified then localEntity
    else remoteEntity
  (⟨true, winner, .firstWriteWins, none⟩, { r with conflictsResolved := r.conflictsResolved + 1 })

def resolveMerge (r : ConflictResolver) (localEntity remoteEntity : EntityDoc)
    (localDelta remoteDelta : StateDelta Doc) (now : Timestamp) :
    ConflictResult × ConflictResolver :=
  let mergedEntity : EntityDoc :=
    { localEntity with
      data := deepMerge localEntity.data remoteEntity.data
      version := max localEntity.version remoteEntity.version + 1
      lastModified := now }
  (⟨true, mergedEntity, .merge,
      some (mergeOperations localDelta.operations remoteDelta.operations)⟩,
    { r with conflictsResolved := r.conflictsResolved + 1 })

def resolveWithCustom (r : ConflictResolver) (localEntity remoteEntity : EntityDoc)
    (localDelta remoteDelta : StateDelta Doc) (resolver : CustomResolver) :
    ConflictResult × ConflictResolver :=
  match resolver localEntity remoteEntity localDelta remoteDelta with
  | some resolved =>
    (⟨true, resolved, .custom, none⟩, { r with conflictsResolved := r.conflictsResolved + 1 })
  | none => { r with conflictsFailed := r.conflictsFailed + 1 }.resolveLastWriteWins
      localEntity remoteEntity

def resolve (r : ConflictResolver) (localEntity remoteEntity : EntityDoc)
    (localDelta remoteDelta : StateDelta Doc)
    (now : Timestamp) : ConflictResult × ConflictResolver :=
  match r.customResolvers.get? localEntity.type with
  | some resolver => r.resolveWithCustom localEntity remoteEntity localDelta remoteDelta resolver
  | none =>
    match r.defaultStrategy with
    | .lastWriteWins => r.resolveLastWriteWins localEntity remoteEntity
    | .firstWriteWins => r.resolveFirstWriteWins localEntity remoteEntity
    | .merge => r.resolveMerge localEntity remoteEntity localDelta remoteDelta now
    | .custom => r.resolveLastWriteWins localEntity remoteEntity

/-! ## Convergence -/

/-- The two data objects hold different values under some name, or further down in plain objects
that both hold. -/
def DataClash (a b : Obj Doc) : Prop := ∃ key, Doc.Somewhere Doc.Clash (a.props key) (b.props key)

/-- What the strategy needs to settle a conflict the same way from both sides. -/
def Settles (strategy : ConflictStrategy) (a b : EntityDoc) : Prop :=
  match strategy with
  | .merge => ¬ DataClash a.data b.data
  | _ => a.lastModified ≠ b.lastModified ∨ a.data = b.data

lemma deepMerge_comm_iff (a b : Obj Doc) : deepMerge a b = deepMerge b a ↔ ¬ DataClash a b := by
  have hprops : deepMerge a b = deepMerge b a ↔
      ∀ key, (a.props key).overlay (b.props key) = (b.props key).overlay (a.props key) :=
    ⟨fun h key => congrFun (congrArg Obj.props h) key, fun h => Obj.ext rfl (funext h)⟩
  simp only [hprops, Doc.overlay_comm_iff, DataClash, not_exists]

/-- A winner is chosen the same way from both sides where one of them comes first. -/
lemma winner_data_iff (a b : EntityDoc) (r : Timestamp → Timestamp → Prop) [DecidableRel r]
    (hrefl : ∀ t, r t t) (hantisymm : ∀ t u, r t u → r u t → t = u)
    (htotal : ∀ t u, r t u ∨ r u t) :
    (if r a.lastModified b.lastModified then a else b).data =
        (if r b.lastModified a.lastModified then b else a).data ↔
      a.lastModified ≠ b.lastModified ∨ a.data = b.data := by
  by_cases htie : a.lastModified = b.lastModified
  · rw [htie, if_pos (hrefl _), if_pos (hrefl _)]
    simp
  · by_cases hab : r a.lastModified b.lastModified
    · rw [if_pos hab, if_neg fun hba => htie (hantisymm _ _ hab hba)]
      simp [htie]
    · rw [if_neg hab, if_pos ((htotal _ _).resolve_left hab)]
      simp [htie]

lemma lastWriteWins_data_iff (r : ConflictResolver) (a b : EntityDoc) :
    (r.resolveLastWriteWins a b).1.entity.data = (r.resolveLastWriteWins b a).1.entity.data ↔
      a.lastModified ≠ b.lastModified ∨ a.data = b.data :=
  winner_data_iff a b (· ≥ ·) (fun _ => le_rfl) (fun _ _ h h' => le_antisymm h' h)
    fun _ _ => le_total _ _

lemma firstWriteWins_data_iff (r : ConflictResolver) (a b : EntityDoc) :
    (r.resolveFirstWriteWins a b).1.entity.data = (r.resolveFirstWriteWins b a).1.entity.data ↔
      a.lastModified ≠ b.lastModified ∨ a.data = b.data :=
  winner_data_iff a b (· ≤ ·) (fun _ => le_rfl) (fun _ _ => le_antisymm) le_total

/-- One entity at one time, with the number `n` under the name `hp`. -/
def withHp (n : ℚ) : EntityDoc :=
  ⟨"e1", "player", "p1", ⟨none, fun key => if key = "hp" then .prim (.num n) else Doc.absent⟩, 2, 5⟩

/-- A delta that sets `hp`. -/
def setHp (n : ℚ) : StateDelta Doc := ⟨"e1", 1, 2, [⟨.set, "hp", .prim (.num n)⟩], 5⟩

/-- The data of the conflict between `hp = 1` and `hp = 2` at one time, seen from both sides. -/
def hpConflict (strategy : ConflictStrategy) : Doc × Doc :=
  let r := new.setDefaultStrategy strategy
  (.obj (r.resolve (withHp 1) (withHp 2) (setHp 1) (setHp 2) 7).1.entity.data,
    .obj (r.resolve (withHp 2) (withHp 1) (setHp 2) (setHp 1) 7).1.entity.data)

section Kept

variable {V : Type} {keys : List String} {ops : List (DeltaOperation V)}

/-- No operation of the list names the path. -/
def Unnamed (localOps : List (DeltaOperation V)) (op : DeltaOperation V) : Bool :=
  op.path ∉ localOps.map DeltaOperation.path

/-- The operations on paths that are not among `keys`, only the first one of each path. -/
def firstOfEach : List String → List (DeltaOperation V) → List (DeltaOperation V)
  | _, [] => []
  | keys, op :: ops =>
    if op.path ∈ keys then firstOfEach keys ops else op :: firstOfEach (keys ++ [op.path]) ops

lemma path_not_mem_of_mem_firstOfEach {op : DeltaOperation V} (h : op ∈ firstOfEach keys ops) :
    op.path ∉ keys := by
  induction ops generalizing keys with
  | nil => cases h
  | cons a ops ih =>
    rw [firstOfEach] at h
    split at h
    · exact ih h
    next hnew =>
      rcases List.mem_cons.1 h with rfl | h
      · exact hnew
      · exact fun hmem => ih h (List.mem_append_left _ hmem)

/-- Only which paths there are makes a difference. -/
lemma firstOfEach_congr {keys' : List String} (h : ∀ path, path ∈ keys ↔ path ∈ keys')
    (ops : List (DeltaOperation V)) : firstOfEach keys ops = firstOfEach keys' ops := by
  induction ops generalizing keys keys' with
  | nil => rfl
  | cons op ops ih =>
    have hcons : firstOfEach (keys ++ [op.path]) ops = firstOfEach (keys' ++ [op.path]) ops :=
      ih fun path => by simp only [List.mem_append, h path]
    simp only [firstOfEach, h op.path, ih h, hcons]

lemma nodup_firstOfEach (keys : List String) (ops : List (DeltaOperation V)) :
    ((firstOfEach keys ops).map DeltaOperation.path).Nodup := by
  induction ops generalizing keys with
  | nil => exact List.nodup_nil
  | cons op ops ih =>
    rw [firstOfEach]
    split
    · exact ih keys
    · rw [List.map_cons, List.nodup_cons]
      refine ⟨fun hmem => ?_, ih _⟩
      obtain ⟨a, ha, hpath⟩ := List.mem_map.1 hmem
      exact path_not_mem_of_mem_firstOfEach ha (by simp [hpath])

lemma filter_append_path (keys : List String) (op : DeltaOperation V)
    (h : op.path ∉ (ops.filter fun a => a.path ∉ keys).map DeltaOperation.path) :
    (ops.filter fun a => a.path ∉ keys ++ [op.path]) = ops.filter fun a => a.path ∉ keys := by
  refine List.filter_congr fun a ha => ?_
  have hne : a.path ∉ keys → a.path ≠ op.path := fun hnew heq =>
    h (List.mem_map.2 ⟨a, List.mem_filter.2 ⟨ha, by simpa using hnew⟩, heq⟩)
  by_cases hnew : a.path ∈ keys
  · simp [hnew]
  · simp [hnew, hne hnew]

/-- Nothing is left out exactly where no path comes twice. -/
lemma firstOfEach_eq_filter_iff (keys : List String) (ops : List (DeltaOperation V)) :
    (firstOfEach keys ops = ops.filter fun op => op.path ∉ keys) ↔
      ((ops.filter fun op => op.path ∉ keys).map DeltaOperation.path).Nodup := by
  refine ⟨fun h => h ▸ nodup_firstOfEach keys ops, fun h => ?_⟩
  induction ops generalizing keys with
  | nil => rfl
  | cons op ops ih =>
    rw [firstOfEach]
    by_cases hmem : op.path ∈ keys
    · rw [List.filter_cons_of_neg (by simpa using hmem)] at h ⊢
      rw [if_pos hmem, ih keys h]
    · rw [List.filter_cons_of_pos (by simpa using hmem)] at h ⊢
      rw [List.map_cons, List.nodup_cons] at h
      have hsame := filter_append_path keys op h.1
      have hrest : firstOfEach (keys ++ [op.path]) ops = _ := ih (keys ++ [op.path]) (hsame ▸ h.2)
      rw [if_neg hmem, hrest, hsame]

/-- The second loop of `mergeOperations`: it adds the first operation of each new path. -/
lemma values_addRemote (ops : List (DeltaOperation V)) (m : Js.Map String (DeltaOperation V)) :
    (ops.foldl (fun pathMap op =>
      if (pathMap.get? op.path).isSome then pathMap else pathMap.set op.path op) m).values =
      m.values ++ firstOfEach m.keys ops := by
  induction ops generalizing m with
  | nil => simp [firstOfEach]
  | cons op ops ih =>
    rw [List.foldl_cons, firstOfEach, ih]
    by_cases hmem : op.path ∈ m.keys
    · rw [if_pos hmem, if_pos ((m.mem_keys_iff _).1 hmem)]
    · have hset := m.entries_set_of_not_mem op hmem
      rw [if_neg hmem, if_neg fun h => hmem ((m.mem_keys_iff _).2 h),
        m.keys_set_of_not_mem op hmem, Js.Map.values, hset]
      simp [Js.Map.values]

/-- The first loop of `mergeOperations`: it files the operations under their paths. -/
lemma mem_addLocal {ops : List (DeltaOperation V)} {m : Js.Map String (DeltaOperation V)}
    {path : String} {op : DeltaOperation V}
    (h : (ops.foldl (fun pathMap op => pathMap.set op.path op) m).get? path = some op) :
    m.get? path = some op ∨ op ∈ ops ∧ op.path = path := by
  induction ops generalizing m with
  | nil => exact .inl h
  | cons a ops ih =>
    rcases ih h with hset | ⟨hmem, hpath⟩
    · rw [Js.Map.get?_set] at hset
      split at hset
      next heq =>
        obtain rfl := Option.some.inj hset
        exact .inr ⟨List.mem_cons_self, heq.symm⟩
      · exact .inl hset
    · exact .inr ⟨List.mem_cons_of_mem _ hmem, hpath⟩

lemma mem_keys_addLocal (ops : List (DeltaOperation V)) (m : Js.Map String (DeltaOperation V))
    (path : String) :
    path ∈ (ops.foldl (fun pathMap op => pathMap.set op.path op) m).keys ↔
      path ∈ m.keys ∨ path ∈ ops.map DeltaOperation.path := by
  induction ops generalizing m with
  | nil => simp
  | cons op ops ih =>
    have hset : path ∈ (m.set op.path op).keys ↔ path ∈ m.keys ∨ path = op.path := by
      rw [Js.Map.mem_keys_iff, Js.Map.mem_keys_iff, Js.Map.get?_set]
      by_cases heq : path = op.path
      · simp [heq]
      · simp [heq]
    rw [List.foldl_cons, ih, hset, List.map_cons, List.mem_cons, or_assoc]

/-- Of the operations that no local one shares its path with, a merge keeps the first of each
path. -/
lemma filter_mergeOperations (localOps remoteOps : List (DeltaOperation V)) :
    (mergeOperations localOps remoteOps).filter (Unnamed localOps) =
      firstOfEach (localOps.map DeltaOperation.path) remoteOps := by
  set pathMap : Js.Map String (DeltaOperation V) :=
    localOps.foldl (fun pathMap op => pathMap.set op.path op) .empty with hmap
  have hkeys : ∀ path, path ∈ pathMap.keys ↔ path ∈ localOps.map DeltaOperation.path := by
    intro path
    rw [hmap, mem_keys_addLocal]
    simp [Js.Map.keys, Js.Map.empty]
  have hvalues : pathMap.values.filter (Unnamed localOps) = [] := by
    refine List.filter_eq_nil_iff.2 fun op hop => ?_
    obtain ⟨path, hget⟩ := (pathMap.mem_values_iff op).1 hop
    rcases mem_addLocal hget with hempty | ⟨hmem, -⟩
    · cases hempty
    · simpa [Unnamed] using ⟨op, hmem, rfl⟩
  have hfirst : firstOfEach pathMap.keys remoteOps =
      firstOfEach (localOps.map DeltaOperation.path) remoteOps := firstOfEach_congr hkeys remoteOps
  have hunnamed : ∀ op ∈ firstOfEach (localOps.map DeltaOperation.path) remoteOps,
      Unnamed localOps op = true :=
    fun op hop => decide_eq_true (path_not_mem_of_mem_firstOfEach hop)
  rw [mergeOperations, values_addRemote, List.filter_append, hvalues, hfirst, List.nil_append,
    List.filter_eq_self.2 hunnamed]

end Kept

/-- **A merge loses no remote operation** on the paths that no local operation names exactly when
no such path has two of them. -/
theorem resolveMerge_keeps_iff (r : ConflictResolver) (localEntity remoteEntity : EntityDoc)
    (localDelta remoteDelta : StateDelta Doc) (now : Timestamp) :
    (∃ merged, (r.resolveMerge localEntity remoteEntity localDelta remoteDelta
          now).1.mergedOperations = some merged ∧
        merged.filter (Unnamed localDelta.operations) =
          remoteDelta.operations.filter (Unnamed localDelta.operations)) ↔
      ((remoteDelta.operations.filter (Unnamed localDelta.operations)).map
        DeltaOperation.path).Nodup := by
  have hiff := firstOfEach_eq_filter_iff (localDelta.operations.map DeltaOperation.path)
    remoteDelta.operations
  rw [← filter_mergeOperations] at hiff
  refine Iff.trans ?_ hiff
  constructor
  · rintro ⟨merged, hmerged, hkeeps⟩
    obtain rfl : mergeOperations localDelta.operations remoteDelta.operations = merged :=
      Option.some.inj hmerged
    exact hkeeps
  · exact fun hkeeps => ⟨_, rfl, hkeeps⟩

/-- A remote delta with two appends to one list, as the compressor leaves them. -/
def twoAppends : StateDelta Doc :=
  ⟨"e1", 1, 3, [⟨.append, "items", .prim (.num 1)⟩, ⟨.append, "items", .prim (.num 2)⟩], 6⟩

/-- The second of two appends is lost, although the local delta only sets `hp`. -/
theorem resolveMerge_loses_append :
    ¬ ∃ merged, (new.resolveMerge (withHp 1) (withHp 1) (setHp 1) twoAppends
          7).1.mergedOperations = some merged ∧
        merged.filter (Unnamed (setHp 1).operations) =
          twoAppends.operations.filter (Unnamed (setHp 1).operations) := by
  rintro ⟨merged, hmerged, hkeeps⟩
  obtain rfl := Option.some.inj hmerged
  have hlength := congrArg List.length hkeeps
  revert hlength
  decide

end ConflictResolver

end SyncEngine
