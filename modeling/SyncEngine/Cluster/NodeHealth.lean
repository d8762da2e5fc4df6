import SyncEngine.Cluster.ClusterCoordinator
import SyncEngine.Machine.Clock

/-!
# The health check of the node registry

`checkNodeHealth` of `src/cluster/node-registry.ts`: a remote node that has not been heard from for
`heartbeatTimeout` becomes suspect, and a suspect one that has not been heard from for twice as long
goes offline.  The registry emits an event for each of these while it is still going through its
nodes, so what listens to the event sees the registry as it is at that point; the listeners are a
parameter here.

A heartbeat brings a suspect node back and leaves an offline one where it is.  So the nodes heard
from lately are the active ones in every run without a heartbeat of an offline node
(`heard_nodes_active`), and one such heartbeat breaks this (`heard_node_stays_offline`).
-/

namespace SyncEngine

open Js

/-- The events of a health check that something may depend on. -/
inductive NodeEvent
  | nodeSuspect (node : NodeInfo)
  | nodeOffline (node : NodeInfo)
  deriving DecidableEq

namespace NodeRegistry

/-- What the health check writes to a remote node, and the events it emits for it. -/
def checkNode (heartbeatTimeout : ℕ) (now : Timestamp) (node : NodeInfo) :
    NodeInfo × List NodeEvent :=
  if node.lastHeartbeat + heartbeatTimeout < now then
    if node.status = .active then
      let node' := { node with status := .suspect }
      (node', [.nodeSuspect node'])
    else if node.status = .suspect ∧ node.lastHeartbeat + heartbeatTimeout * 2 < now then
      let node' := { node with status := .offline }
      (node', [.nodeOffline node'])
    else (node, [])
  else (node, [])

section Loop

variable (localNodeId : NodeId) (heartbeatTimeout : ℕ) {L : Type}
  (listen : NodeRegistry → NodeEvent → L → L) (now : Timestamp)

/-- The loop of `checkNodeHealth` at one node.  A listener reads the registry and writes to a state
of its own. -/
def checkAt (s : NodeRegistry × L) (nodeId : NodeId) : NodeRegistry × L :=
  if nodeId = localNodeId then s
  else
    match s.1.get? nodeId with
    | none => s
    | some node =>
      let (node', events) := checkNode heartbeatTimeout now node
      let r := s.1.set nodeId node'
      (r, events.foldl (fun l e => listen r e l) s.2)

def checkNodeHealth (r : NodeRegistry) (l : L) : NodeRegistry × L :=
  r.keys.foldl (checkAt localNodeId heartbeatTimeout listen now) (r, l)

end Loop

/-! ## What an operation does to a node -/

variable {localNodeId : NodeId} {heartbeatTimeout : ℕ} {L : Type}
  {listen : NodeRegistry → NodeEvent → L → L} {now : Timestamp}

lemma get?_registerNode (r : NodeRegistry) (info : NodeInfo) (id : NodeId) :
    (r.registerNode info).get? id = if id = info.id then some info else r.get? id :=
  Js.Map.get?_set r info.id id info

lemma get?_deregisterNode (r : NodeRegistry) (nodeId id : NodeId) :
    (r.deregisterNode nodeId).get? id = if id = nodeId then none else r.get? id :=
  Js.Map.get?_delete r nodeId id

lemma get?_updateHeartbeat (r : NodeRegistry) (nodeId id : NodeId) (load : ℚ) (connections : ℕ) :
    (r.updateHeartbeat now nodeId load connections).get? id =
      if id = nodeId then (r.get? nodeId).map (heard now load connections) else r.get? id :=
  Js.Map.get?_modify r nodeId id _

lemma mem_getActiveNodes_iff (r : NodeRegistry) (node : NodeInfo) :
    node ∈ r.getActiveNodes ↔ (∃ id, r.get? id = some node) ∧ node.status = .active := by
  rw [getActiveNodes, List.mem_filter, Js.Map.mem_values_iff, decide_eq_true_eq]

@[simp] lemma id_checkNode (node : NodeInfo) :
    (checkNode heartbeatTimeout now node).1.id = node.id := by
  unfold checkNode
  split_ifs <;> rfl

/-- The four things a health check can do to a node. -/
lemma checkNode_cases (heartbeatTimeout : ℕ) (now : Timestamp) (node : NodeInfo) :
    (node.lastHeartbeat + heartbeatTimeout < now ∧ node.status = .active ∧
      checkNode heartbeatTimeout now node =
        ({ node with status := .suspect }, [.nodeSuspect { node with status := .suspect }])) ∨
    (node.lastHeartbeat + heartbeatTimeout < now ∧ node.status = .suspect ∧
      checkNode heartbeatTimeout now node =
        ({ node with status := .offline }, [.nodeOffline { node with status := .offline }])) ∨
    (node.lastHeartbeat + heartbeatTimeout < now ∧ node.status ≠ .active ∧
      checkNode heartbeatTimeout now node = (node, [])) ∨
    (now ≤ node.lastHeartbeat + heartbeatTimeout ∧
      checkNode heartbeatTimeout now node = (node, [])) := by
  unfold checkNode
  by_cases hstale : node.lastHeartbeat + heartbeatTimeout < now
  · rw [if_pos hstale]
    by_cases hactive : node.status = .active
    · rw [if_pos hactive]
      exact .inl ⟨hstale, hactive, rfl⟩
    · rw [if_neg hactive]
      by_cases hoffline :
          node.status = .suspect ∧ node.lastHeartbeat + heartbeatTimeout * 2 < now
      · rw [if_pos hoffline]
        exact .inr (.inl ⟨hstale, hoffline.1, rfl⟩)
      · rw [if_neg hoffline]
        exact .inr (.inr (.inl ⟨hstale, hactive, rfl⟩))
  · rw [if_neg hstale]
    exact .inr (.inr (.inr ⟨not_lt.1 hstale, rfl⟩))

lemma get?_checkAt (s : NodeRegistry × L) (nodeId id : NodeId) :
    (checkAt localNodeId heartbeatTimeout listen now s nodeId).1.get? id =
      if id = nodeId ∧ id ≠ localNodeId then
        (s.1.get? id).map fun node => (checkNode heartbeatTimeout now node).1
      else s.1.get? id := by
  unfold checkAt
  by_cases hlocal : nodeId = localNodeId
  · rw [if_pos hlocal, if_neg (by rintro ⟨rfl, hne⟩; exact hne hlocal)]
  · rw [if_neg hlocal]
    split
    next hnone =>
      split
      next h => rw [h.1, hnone, Option.map_none]
      · rfl
    next node hnode =>
      rw [Js.Map.get?_set]
      by_cases hid : id = nodeId
      · subst hid
        rw [if_pos rfl, if_pos ⟨rfl, hlocal⟩, hnode, Option.map_some]
      · rw [if_neg hid, if_neg (by tauto)]

lemma get?_foldl_checkAt (nodeIds : List NodeId) (hnodup : nodeIds.Nodup) (s : NodeRegistry × L)
    (id : NodeId) :
    (nodeIds.foldl (checkAt localNodeId heartbeatTimeout listen now) s).1.get? id =
      if id ∈ nodeIds ∧ id ≠ localNodeId then
        (s.1.get? id).map fun node => (checkNode heartbeatTimeout now node).1
      else s.1.get? id := by
  induction nodeIds generalizing s with
  | nil => simp
  | cons nodeId nodeIds ih =>
    obtain ⟨hnot, hnodup⟩ := List.nodup_cons.1 hnodup
    rw [List.foldl_cons, ih hnodup, get?_checkAt]
    by_cases hid : id = nodeId
    · subst hid
      rw [if_neg (by tauto)]
      simp
    · simp [hid]

/-- Whatever listens, a health check goes through all remote nodes and does to each what
`checkNode` says. -/
lemma get?_checkNodeHealth (r : NodeRegistry) (l : L) (id : NodeId) :
    (checkNodeHealth localNodeId heartbeatTimeout listen now r l).1.get? id =
      if id = localNodeId then r.get? id
      else (r.get? id).map fun node => (checkNode heartbeatTimeout now node).1 := by
  unfold checkNodeHealth
  rw [get?_foldl_checkAt r.keys r.nodup]
  by_cases hlocal : id = localNodeId
  · rw [if_neg (by tauto), if_pos hlocal]
  · rw [if_neg hlocal]
    by_cases hmem : id ∈ r.keys
    · rw [if_pos ⟨hmem, hlocal⟩]
    · have hnone : r.get? id = none := (Js.Map.get?_eq_none_iff r id).2 hmem
      rw [if_neg (by tauto), hnone, Option.map_none]

/-- What every listener keeps of its own state, a health check keeps. -/
lemma checkNodeHealth_snd {P : L → Prop} (hlisten : ∀ r e l, P l → P (listen r e l))
    (r : NodeRegistry) {l : L} (hl : P l) :
    P (checkNodeHealth localNodeId heartbeatTimeout listen now r l).2 := by
  refine List.foldlRecOn (motive := fun s : NodeRegistry × L => P s.2) r.keys _ hl ?_
  intro s hs nodeId _
  unfold checkAt
  split
  · exact hs
  · split
    · exact hs
    · exact List.foldlRecOn (motive := P) _ _ hs fun l hl e _ => hlisten _ e l hl

/-! ## The nodes heard from lately -/

/-- A call that writes to the registry. -/
inductive Call
  | registerNode (info : NodeInfo)
  | updateHeartbeat (nodeId : NodeId) (load : ℚ) (connections : ℕ)
  | checkNodeHealth
  deriving DecidableEq

/-- A call at a time, in a registry that nothing listens to. -/
def step (localNodeId : NodeId) (heartbeatTimeout : ℕ) (r : NodeRegistry) :
    Timestamp × Call → NodeRegistry
  | (_, .registerNode info) => r.registerNode info
  | (now, .updateHeartbeat nodeId load connections) =>
    r.updateHeartbeat now nodeId load connections
  | (now, .checkNodeHealth) =>
    (checkNodeHealth localNodeId heartbeatTimeout (fun _ _ l => l) now r ()).1

/-- Only active nodes are registered. -/
def RegistersActive : Timestamp × Call → Prop
  | (_, .registerNode info) => info.status = .active
  | _ => True

/-- A heartbeat of a registered node finds it not offline. -/
def FindsOnline (r : NodeRegistry) : Timestamp × Call → Prop
  | (_, .updateHeartbeat nodeId _ _) =>
    ∀ node, r.get? nodeId = some node → node.status ≠ .offline
  | _ => True

/-- Every remote node heard from within the timeout is among the active ones. -/
def HeardActive (localNodeId : NodeId) (heartbeatTimeout : ℕ) (now : Timestamp)
    (r : NodeRegistry) : Prop :=
  ∀ id node, r.get? id = some node → id ≠ localNodeId →
    now ≤ node.lastHeartbeat + heartbeatTimeout → node ∈ r.getActiveNodes

/-- A remote node is active, or has timed out. -/
def Judged (localNodeId : NodeId) (heartbeatTimeout : ℕ) (now : Timestamp) (r : NodeRegistry) :
    Prop :=
  ∀ id node, r.get? id = some node → id ≠ localNodeId →
    node.status = .active ∨
      (node.status = .suspect ∨ node.status = .offline) ∧
        node.lastHeartbeat + heartbeatTimeout < now

lemma Judged.heardActive {r : NodeRegistry} (h : Judged localNodeId heartbeatTimeout now r) :
    HeardActive localNodeId heartbeatTimeout now r := by
  intro id node hnode hremote hfresh
  rw [mem_getActiveNodes_iff]
  refine ⟨⟨id, hnode⟩, ?_⟩
  obtain hactive | ⟨-, hstale⟩ := h id node hnode hremote
  · exact hactive
  · exact absurd hfresh (not_le.2 hstale)

lemma Judged.later {now' : Timestamp} (hle : now ≤ now') {r : NodeRegistry}
    (h : Judged localNodeId heartbeatTimeout now r) :
    Judged localNodeId heartbeatTimeout now' r := by
  intro id node hnode hremote
  obtain hactive | ⟨hstatus, hstale⟩ := h id node hnode hremote
  · exact .inl hactive
  · exact .inr ⟨hstatus, hstale.trans_le hle⟩

lemma Judged.registerNode {r : NodeRegistry} (h : Judged localNodeId heartbeatTimeout now r)
    {info : NodeInfo} (hinfo : info.status = .active) :
    Judged localNodeId heartbeatTimeout now (r.registerNode info) := by
  intro id node hnode hremote
  rw [get?_registerNode] at hnode
  split at hnode
  · obtain rfl := Option.some.inj hnode
    exact .inl hinfo
  · exact h id node hnode hremote

lemma Judged.updateHeartbeat {r : NodeRegistry} (h : Judged localNodeId heartbeatTimeout now r)
    {nodeId : NodeId} (honline : ∀ node, r.get? nodeId = some node → node.status ≠ .offline)
    (load : ℚ) (connections : ℕ) :
    Judged localNodeId heartbeatTimeout now (r.updateHeartbeat now nodeId load connections) := by
  intro id node hnode hremote
  rw [get?_updateHeartbeat] at hnode
  split at hnode
  next hid =>
    subst hid
    obtain ⟨node, hold, rfl⟩ := Option.map_eq_some_iff.1 hnode
    left
    obtain hactive | ⟨hsuspect | hoffline, -⟩ := h id node hold hremote
    · simp [heard, hactive]
    · simp [heard, hsuspect]
    · exact absurd hoffline (honline node hold)
  · exact h id node hnode hremote

lemma Judged.checkNodeHealth {r : NodeRegistry} (h : Judged localNodeId heartbeatTimeout now r)
    (l : L) :
    Judged localNodeId heartbeatTimeout now
      (checkNodeHealth localNodeId heartbeatTimeout listen now r l).1 := by
  intro id node hnode hremote
  rw [get?_checkNodeHealth, if_neg hremote] at hnode
  obtain ⟨node, hold, rfl⟩ := Option.map_eq_some_iff.1 hnode
  obtain ⟨hstale, -, heq⟩ | ⟨hstale, -, heq⟩ | ⟨hstale, -, heq⟩ | ⟨-, heq⟩ :=
    checkNode_cases heartbeatTimeout now node
  · rw [heq]
    exact .inr ⟨.inl rfl, hstale⟩
  · rw [heq]
    exact .inr ⟨.inr rfl, hstale⟩
  · rw [heq]
    exact h id node hold hremote
  · rw [heq]
    exact h id node hold hremote

lemma judged_step {r : NodeRegistry} {call : Timestamp × Call}
    (h : Judged localNodeId heartbeatTimeout call.1 r)
    (hcall : RegistersActive call ∧ FindsOnline r call) :
    Judged localNodeId heartbeatTimeout call.1 (step localNodeId heartbeatTimeout r call) := by
  match call with
  | (_, .registerNode info) => exact h.registerNode hcall.1
  | (_, .updateHeartbeat nodeId load connections) =>
    exact h.updateHeartbeat hcall.2 load connections
  | (_, .checkNodeHealth) => exact h.checkNodeHealth ()

/-- Where no heartbeat of an offline node arrives, the nodes heard from lately are active after
every health check. -/
theorem heard_nodes_active {calls : List (Timestamp × Call)}
    (horder : Machine.InOrder (calls ++ [(now, .checkNodeHealth)]))
    (hactive : ∀ call ∈ calls, RegistersActive call)
    (hrun : Machine.Along (step localNodeId heartbeatTimeout) FindsOnline .empty calls) :
    HeardActive localNodeId heartbeatTimeout now
      (Machine.run (step localNodeId heartbeatTimeout) .empty
        (calls ++ [(now, .checkNodeHealth)])) := by
  obtain ⟨hcalls, -, hto⟩ := Machine.inOrder_append.1 horder
  have hbefore : Judged localNodeId heartbeatTimeout now
      (Machine.run (step localNodeId heartbeatTimeout) .empty calls) := by
    refine Machine.invariant_at (fun _ _ _ hle h => h.later hle) (fun _ _ h => judged_step h)
      (t := 0) ?_ hcalls ?_ ?_ (Nat.zero_le now) (hrun.and_of_forall hactive)
    · intro id node hnode
      rw [Js.Map.get?_empty] at hnode
      cases hnode
    · exact fun call _ => Nat.zero_le call.1
    · exact fun call hmem => hto call hmem _ List.mem_cons_self
  rw [Machine.run_append]
  exact (hbefore.checkNodeHealth ()).heardActive

/-- A node called `b`, last heard from at time 0. -/
def nodeB : NodeInfo where
  id := "b"
  status := .active
  load := 0
  connections := 0
  startedAt := 0
  lastHeartbeat := 0

theorem heard_nodes_active_suspect :
    HeardActive "a" 60000 70001
      (Machine.run (step "a" 60000) .empty
        ([(0, .registerNode nodeB), (60001, .checkNodeHealth), (70000, .updateHeartbeat "b" 0 1)] ++
          [(70001, .checkNodeHealth)])) := by
  apply heard_nodes_active
  · decide
  · simp [RegistersActive, nodeB]
  · simp [Machine.Along, FindsOnline, step, get?_registerNode, get?_checkNodeHealth, nodeB,
      checkNode]

/-- A heartbeat does not bring an offline node back. -/
theorem heard_node_stays_offline {r : NodeRegistry} {id : NodeId} {node : NodeInfo}
    (hnode : r.get? id = some node) (hremote : id ≠ localNodeId)
    (hoffline : node.status = .offline) (load : ℚ) (connections : ℕ) :
    ¬ HeardActive localNodeId heartbeatTimeout now
      (Machine.run (step localNodeId heartbeatTimeout) r
        [(now, .updateHeartbeat id load connections), (now, .checkNodeHealth)]) := by
  have hheard : (heard now load connections node).status = .offline := by simp [heard, hoffline]
  have hcheck : checkNode heartbeatTimeout now (heard now load connections node) =
      (heard now load connections node, []) := by
    simp [checkNode, heard]
  have hget : (Machine.run (step localNodeId heartbeatTimeout) r
      [(now, .updateHeartbeat id load connections), (now, .checkNodeHealth)]).get? id =
        some (heard now load connections node) := by
    simp only [Machine.run_cons, Machine.run_nil, step]
    rw [get?_checkNodeHealth, if_neg hremote, get?_updateHeartbeat, if_pos rfl, hnode,
      Option.map_some, Option.map_some, hcheck]
  intro h
  have hmem := h id _ hget hremote (Nat.le_add_right now heartbeatTimeout)
  rw [mem_getActiveNodes_iff, hheard] at hmem
  exact absurd hmem.2 (by decide)

/-- Two health checks after its last heartbeat the node is offline, and it stays so when the next
heartbeat arrives. -/
theorem not_heard_nodes_active :
    ¬ ∀ (localNodeId : NodeId) (heartbeatTimeout : ℕ) (calls : List (Timestamp × Call))
        (now : Timestamp),
      Machine.InOrder (calls ++ [(now, .checkNodeHealth)]) →
      (∀ call ∈ calls, RegistersActive call) →
      HeardActive localNodeId heartbeatTimeout now
        (Machine.run (step localNodeId heartbeatTimeout) .empty
          (calls ++ [(now, .checkNodeHealth)])) := by
  intro h
  have hfinal := h "a" 60000
    [(0, .registerNode nodeB), (60001, .checkNodeHealth), (120001, .checkNodeHealth),
      (120002, .updateHeartbeat "b" 0 1)] 120002 (by decide) (by simp [RegistersActive, nodeB])
  have hmem := hfinal "b"
    { nodeB with status := .offline, lastHeartbeat := 120002, connections := 1 }
    (by decide +kernel) (by decide) (by decide)
  rw [mem_getActiveNodes_iff] at hmem
  exact absurd hmem.2 (by decide)

end NodeRegistry

end SyncEngine
