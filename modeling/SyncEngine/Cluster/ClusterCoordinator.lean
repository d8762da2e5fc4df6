import SyncEngine.Core.Types
import SyncEngine.Js.Collator

/-!
# The cluster coordinator

`src/cluster/node-registry.ts` and `src/cluster/cluster-coordinator.ts`: the registry of the nodes a
node has heard of, and the coordinator that keeps it up to date from what arrives on the cluster
channel and elects a leader from it.

A handler of the coordinator publishes at most on the cluster channel, so it returns what it
publishes there.  The fields of a node that no decision depends on (host, port, region, zone,
`maxConnections`, `metadata`) are left out, and `a.id.localeCompare(b.id)` is a `Collator`.
-/

namespace SyncEngine

open Js

inductive NodeStatus
  | initializing
  | active
  | draining
  | offline
  | suspect
  deriving DecidableEq

structure NodeInfo where
  id : NodeId
  status : NodeStatus
  load : ℚ
  connections : ℕ
  startedAt : Timestamp
  lastHeartbeat : Timestamp
  deriving DecidableEq

abbrev NodeRegistry := Js.Map NodeId NodeInfo

namespace NodeRegistry

def registerNode (r : NodeRegistry) (info : NodeInfo) : NodeRegistry := r.set info.id info

def deregisterNode (r : NodeRegistry) (nodeId : NodeId) : NodeRegistry := r.delete nodeId

/-- What `updateHeartbeat` writes to a node. -/
def heard (now : Timestamp) (load : ℚ) (connections : ℕ) (node : NodeInfo) : NodeInfo :=
  { node with
    lastHeartbeat := now
    load := load
    connections := connections
    status := if node.status = .suspect then .active else node.status }

def updateHeartbeat (r : NodeRegistry) (now : Timestamp) (nodeId : NodeId) (load : ℚ)
    (connections : ℕ) : NodeRegistry :=
  r.modify nodeId (heard now load connections)

def getActiveNodes (r : NodeRegistry) : List NodeInfo := r.values.filter fun n => n.status = .active

end NodeRegistry

/-- The type and the payload of a message on the cluster channel. -/
inductive ClusterMessage
  | nodeAnnounce (node : NodeInfo)
  | nodeGoodbye (nodeId : NodeId)
  | heartbeat (nodeId : NodeId) (load : ℚ) (connections : ℕ)
  deriving DecidableEq

structure ClusterCoordinator where
  nodeRegistry : NodeRegistry
  localNode : NodeInfo
  leaderId : Option NodeId
  term : ℕ

namespace ClusterCoordinator

/-- `new ClusterCoordinator(nodeRegistry, broker)` with a new registry. -/
def new (localNode : NodeInfo) : ClusterCoordinator := ⟨.empty, localNode, none, 0⟩

def isLeader (c : ClusterCoordinator) : Bool := c.leaderId = some c.localNode.id

/-- The order in which `startElection` sorts. -/
def Before (collator : Collator) (a b : NodeInfo) : Prop :=
  if a.startedAt ≠ b.startedAt then a.startedAt ≤ b.startedAt
  else collator.localeCompare a.id b.id ≤ 0

instance (collator : Collator) : DecidableRel (Before collator) := fun a b => by
  unfold Before
  infer_instance

def startElection (collator : Collator) (c : ClusterCoordinator) : ClusterCoordinator :=
  match (NodeRegistry.getActiveNodes c.nodeRegistry).insertionSort (Before collator) with
  | [] => { c with term := c.term + 1, leaderId := some c.localNode.id }
  | node :: _ => { c with term := c.term + 1, leaderId := some node.id }

/-- A leader answers every announcement with its own. -/
def handleNodeAnnounce (c : ClusterCoordinator) (node : NodeInfo) :
    ClusterCoordinator × List ClusterMessage :=
  let c' := { c with nodeRegistry := NodeRegistry.registerNode c.nodeRegistry node }
  (c', if c'.isLeader then [.nodeAnnounce c'.localNode] else [])

def handleNodeGoodbye (collator : Collator) (c : ClusterCoordinator) (nodeId : NodeId) :
    ClusterCoordinator :=
  let c' := { c with nodeRegistry := NodeRegistry.deregisterNode c.nodeRegistry nodeId }
  if some nodeId = c'.leaderId then c'.startElection collator else c'

def handleHeartbeat (now : Timestamp) (c : ClusterCoordinator) (nodeId : NodeId) (load : ℚ)
    (connections : ℕ) : ClusterCoordinator :=
  { c with nodeRegistry := NodeRegistry.updateHeartbeat c.nodeRegistry now nodeId load connections }

/-- The listener on the cluster channel. -/
def handle (collator : Collator) (now : Timestamp) (c : ClusterCoordinator) :
    ClusterMessage → ClusterCoordinator × List ClusterMessage
  | .nodeAnnounce node => c.handleNodeAnnounce node
  | .nodeGoodbye nodeId => (c.handleNodeGoodbye collator nodeId, [])
  | .heartbeat nodeId load connections => (c.handleHeartbeat now nodeId load connections, [])

/-- `start()`, up to its await. -/
def start (c : ClusterCoordinator) : ClusterCoordinator × List ClusterMessage :=
  ({ c with nodeRegistry := NodeRegistry.registerNode c.nodeRegistry c.localNode },
    [.nodeAnnounce c.localNode])

def sendHeartbeat (now : Timestamp) (load : ℚ) (c : ClusterCoordinator) :
    ClusterCoordinator × List ClusterMessage :=
  ({ c with
      localNode := { c.localNode with lastHeartbeat := now, load := load }
      nodeRegistry := NodeRegistry.updateHeartbeat c.nodeRegistry now c.localNode.id load
        c.localNode.connections },
    [.heartbeat c.localNode.id load c.localNode.connections])

/-! ## The election -/

variable {collator : Collator}

lemma before_iff {a b : NodeInfo} :
    Before collator a b ↔ a.startedAt < b.startedAt ∨
      a.startedAt = b.startedAt ∧ collator.localeCompare a.id b.id ≤ 0 := by
  unfold Before
  by_cases h : a.startedAt = b.startedAt
  · simp [h]
  · simp [h, lt_iff_le_and_ne]

lemma before_total (a b : NodeInfo) : Before collator a b ∨ Before collator b a := by
  rw [before_iff, before_iff]
  obtain h | h | h := lt_trichotomy a.startedAt b.startedAt
  · exact .inl (.inl h)
  · exact (collator.total a.id b.id).imp (fun hle => .inr ⟨h, hle⟩) fun hle => .inr ⟨h.symm, hle⟩
  · exact .inr (.inl h)

lemma before_trans {a b c : NodeInfo} (hab : Before collator a b) (hbc : Before collator b c) :
    Before collator a c := by
  rw [before_iff] at *
  obtain hab | ⟨hab, hle⟩ := hab <;> obtain hbc | ⟨hbc, hle'⟩ := hbc
  · exact .inl (hab.trans hbc)
  · exact .inl (hbc ▸ hab)
  · exact .inl (hab ▸ hbc)
  · exact .inr ⟨hab.trans hbc, collator.trans _ _ _ hle hle'⟩

/-- The leader is the first of the active nodes in their order, where there is one. -/
lemma exists_first {c : ClusterCoordinator}
    (hne : NodeRegistry.getActiveNodes c.nodeRegistry ≠ []) :
    ∃ node rest, (NodeRegistry.getActiveNodes c.nodeRegistry).insertionSort (Before collator) =
        node :: rest ∧
      node ∈ NodeRegistry.getActiveNodes c.nodeRegistry ∧
      (c.startElection collator).leaderId = some node.id := by
  have hperm := List.perm_insertionSort (Before collator)
    (NodeRegistry.getActiveNodes c.nodeRegistry)
  unfold startElection
  cases hsort : (NodeRegistry.getActiveNodes c.nodeRegistry).insertionSort (Before collator) with
  | nil =>
    rw [hsort] at hperm
    exact absurd hperm.nil_eq.symm hne
  | cons node rest =>
    rw [hsort] at hperm
    exact ⟨node, rest, rfl, hperm.mem_iff.1 List.mem_cons_self, rfl⟩

/-- The leader is the node that comes before every other active one. -/
lemma startElection_leaderId {c : ClusterCoordinator} {first : NodeInfo}
    (hmem : first ∈ NodeRegistry.getActiveNodes c.nodeRegistry)
    (hfirst : ∀ n ∈ NodeRegistry.getActiveNodes c.nodeRegistry, Before collator n first →
      n.id = first.id) :
    (c.startElection collator).leaderId = some first.id := by
  have : Std.Total (Before collator) := ⟨before_total⟩
  have : IsTrans NodeInfo (Before collator) := ⟨fun _ _ _ => before_trans⟩
  obtain ⟨node, rest, hsort, hnode, hleader⟩ := exists_first (List.ne_nil_of_mem hmem)
  have hsorted := List.pairwise_insertionSort (Before collator)
    (NodeRegistry.getActiveNodes c.nodeRegistry)
  have hperm := List.perm_insertionSort (Before collator)
    (NodeRegistry.getActiveNodes c.nodeRegistry)
  rw [hsort] at hsorted hperm
  rw [hleader]
  obtain rfl | hrest := List.mem_cons.1 (hperm.mem_iff.2 hmem)
  · rfl
  · rw [hfirst node hnode ((List.pairwise_cons.1 hsorted).1 first hrest)]

/-- The leader is an active node, where there is one. -/
lemma exists_leader {c : ClusterCoordinator}
    (hne : NodeRegistry.getActiveNodes c.nodeRegistry ≠ []) :
    ∃ n ∈ NodeRegistry.getActiveNodes c.nodeRegistry,
      (c.startElection collator).leaderId = some n.id := by
  obtain ⟨node, -, -, hnode, hleader⟩ := exists_first hne
  exact ⟨node, hnode, hleader⟩

@[simp] lemma localNode_startElection (c : ClusterCoordinator) :
    (c.startElection collator).localNode = c.localNode := by
  unfold startElection
  split <;> rfl

@[simp] lemma nodeRegistry_startElection (c : ClusterCoordinator) :
    (c.startElection collator).nodeRegistry = c.nodeRegistry := by
  unfold startElection
  split <;> rfl

/-- An announcement makes nobody a leader. -/
lemma isLeader_handleNodeAnnounce (c : ClusterCoordinator) (node : NodeInfo) :
    (c.handleNodeAnnounce node).1.isLeader = c.isLeader := rfl

lemma handleNodeAnnounce_snd (c : ClusterCoordinator) (node : NodeInfo) :
    (c.handleNodeAnnounce node).2 = if c.isLeader then [.nodeAnnounce c.localNode] else [] := rfl

end ClusterCoordinator

end SyncEngine
