import SyncEngine.Cluster.NodeHealth

/-!
# The leader is a live member

One coordinator from its `start()` on: announcements, goodbyes and heartbeats that arrive, its own
heartbeat timer and the health check of its registry.  The listener on `cluster:node_offline` elects
a leader while the health check is still going through the nodes.

The coordinator's own node is registered and active throughout, since a health check passes over it,
so every election finds an active node.  The node it elects may become suspect later in the same
health check, and no more than that: it was active when its turn came (`settled_checkAt`).  So the
leader is always registered and active or suspect, and the term counts the changes of leader
(`leader_live`).  Neither depends on what the clocks show.
-/

namespace SyncEngine

open Js

namespace ClusterCoordinator

section Definitions

variable (collator : Collator) (heartbeatTimeout : ℕ)

/-- The coordinator of a node, as its constructor makes it. -/
def construct (nodeId : NodeId) (now : Timestamp) : ClusterCoordinator :=
  new
    { id := nodeId
      status := .active
      load := 0
      connections := 0
      startedAt := now
      lastHeartbeat := now }

/-- The listener on `cluster:node_offline`. -/
def onNodeEvent (c : ClusterCoordinator) : NodeEvent → ClusterCoordinator
  | .nodeOffline node => if some node.id = c.leaderId then c.startElection collator else c
  | .nodeSuspect _ => c

/-- The coordinator as a listener of its registry. -/
def listen (r : NodeRegistry) (e : NodeEvent) (c : ClusterCoordinator) : ClusterCoordinator :=
  onNodeEvent collator { c with nodeRegistry := r } e

/-- A health check of the registry, with the coordinator listening. -/
def checkNodeHealth (now : Timestamp) (c : ClusterCoordinator) : ClusterCoordinator :=
  let (r, c') := NodeRegistry.checkNodeHealth c.localNode.id heartbeatTimeout (listen collator) now
    c.nodeRegistry c
  { c' with nodeRegistry := r }

inductive Event
  | message (m : ClusterMessage)
  /-- The timer of `sendHeartbeat`. -/
  | heartbeatTick (load : ℚ)
  | healthCheck

def step (c : ClusterCoordinator) : Timestamp × Event → ClusterCoordinator
  | (now, .message m) => (c.handle collator now m).1
  | (now, .heartbeatTick load) => (c.sendHeartbeat now load).1
  | (now, .healthCheck) => c.checkNodeHealth collator heartbeatTimeout now

/-- Announced nodes are active, and the node itself does not say goodbye. -/
def Admitted (nodeId : NodeId) : Timestamp × Event → Prop
  | (_, .message (.nodeAnnounce node)) => node.status = .active
  | (_, .message (.nodeGoodbye other)) => other ≠ nodeId
  | _ => True

/-- `start()`: what arrives before the announcement is published, and then the election. -/
def started (nodeId : NodeId) (now : Timestamp) (before : List (Timestamp × Event)) :
    ClusterCoordinator :=
  (Machine.run (step collator heartbeatTimeout) (construct nodeId now).start.1 before).startElection
    collator

/-- The leader is in the registry, and active or suspect. -/
def LeaderLive (c : ClusterCoordinator) : Prop :=
  ∃ node, c.leaderId = some node.id ∧ c.nodeRegistry.get? node.id = some node ∧
    (node.status = .active ∨ node.status = .suspect)

/-- From one state to the next the term grows by one with a change of leader, and only then. -/
def Counts (c c' : ClusterCoordinator) : Prop :=
  c'.term = if c'.leaderId = c.leaderId then c.term else c.term + 1

/-- Nodes stand under their ids, and the node itself is among the active ones. -/
structure Present (nodeId : NodeId) (c : ClusterCoordinator) : Prop where
  localNode : c.localNode.id = nodeId
  keyed : ∀ id node, c.nodeRegistry.get? id = some node → node.id = id
  self : ∃ node, c.nodeRegistry.get? nodeId = some node ∧ node.status = .active

end Definitions

variable {collator : Collator} {heartbeatTimeout : ℕ} {nodeId : NodeId} {now : Timestamp}

/-! ## An election -/

@[simp] lemma term_startElection (c : ClusterCoordinator) :
    (c.startElection collator).term = c.term + 1 := by
  unfold startElection
  split <;> rfl

lemma Present.startElection {c : ClusterCoordinator} (h : Present nodeId c) :
    Present nodeId (c.startElection collator) where
  localNode := by rw [localNode_startElection, h.localNode]
  keyed := by rw [nodeRegistry_startElection]; exact h.keyed
  self := by rw [nodeRegistry_startElection]; exact h.self

/-- An election finds an active node of the registry. -/
lemma Present.elected {c : ClusterCoordinator} (h : Present nodeId c) (collator : Collator) :
    ∃ node, (c.startElection collator).leaderId = some node.id ∧
      c.nodeRegistry.get? node.id = some node ∧ node.status = .active := by
  obtain ⟨self, hself, hactive⟩ := h.self
  have hne : NodeRegistry.getActiveNodes c.nodeRegistry ≠ [] :=
    List.ne_nil_of_mem ((NodeRegistry.mem_getActiveNodes_iff _ self).2 ⟨⟨_, hself⟩, hactive⟩)
  obtain ⟨node, hmem, hleader⟩ := @exists_leader collator c hne
  obtain ⟨⟨id, hnode⟩, hstatus⟩ := (NodeRegistry.mem_getActiveNodes_iff _ node).1 hmem
  have hid : node.id = id := h.keyed id node hnode
  exact ⟨node, hleader, by rw [hid, hnode], hstatus⟩

/-! ## One health check -/

lemma onNodeEvent_nodeOffline (c : ClusterCoordinator) (node : NodeInfo) :
    onNodeEvent collator c (.nodeOffline node) =
      if some node.id = c.leaderId then c.startElection collator else c := rfl

@[simp] lemma localNode_onNodeEvent (c : ClusterCoordinator) (e : NodeEvent) :
    (onNodeEvent collator c e).localNode = c.localNode := by
  cases e with
  | nodeSuspect node => rfl
  | nodeOffline node =>
    rw [onNodeEvent_nodeOffline]
    split
    · exact localNode_startElection c
    · rfl

@[simp] lemma nodeRegistry_onNodeEvent (c : ClusterCoordinator) (e : NodeEvent) :
    (onNodeEvent collator c e).nodeRegistry = c.nodeRegistry := by
  cases e with
  | nodeSuspect node => rfl
  | nodeOffline node =>
    rw [onNodeEvent_nodeOffline]
    split
    · exact nodeRegistry_startElection c
    · rfl

lemma withRegistry_onNodeEvent (c : ClusterCoordinator) (e : NodeEvent) :
    { onNodeEvent collator c e with nodeRegistry := c.nodeRegistry } =
      onNodeEvent collator c e := by
  have hsame : (onNodeEvent collator c e).nodeRegistry = c.nodeRegistry :=
    nodeRegistry_onNodeEvent c e
  rw [← hsame]

/-- `c` is what a health check that began at `c₀` and has still to visit `rest` can have come to:
the leader is as it was, or a new one that will not go offline in this check. -/
structure Settled (nodeId : NodeId) (c₀ : ClusterCoordinator) (rest : List NodeId)
    (c : ClusterCoordinator) : Prop where
  present : Present nodeId c
  leader : ∃ node, c.leaderId = some node.id ∧ c.nodeRegistry.get? node.id = some node ∧
    (c.leaderId = c₀.leaderId ∧ c.term = c₀.term ∧
        (node.status = .active ∨ node.status = .suspect) ∨
      c.leaderId ≠ c₀.leaderId ∧ c.term = c₀.term + 1 ∧
        (node.status = .active ∨ node.status = .suspect ∧ node.id ∉ rest))

lemma Settled.skip {c₀ c : ClusterCoordinator} {other : NodeId} {rest : List NodeId}
    (h : Settled nodeId c₀ (other :: rest) c) : Settled nodeId c₀ rest c := by
  refine ⟨h.present, ?_⟩
  obtain ⟨node, hleader, hnode, hold | ⟨hchange, hterm, hstatus⟩⟩ := h.leader
  · exact ⟨node, hleader, hnode, .inl hold⟩
  · refine ⟨node, hleader, hnode, .inr ⟨hchange, hterm, ?_⟩⟩
    exact hstatus.imp id fun hsuspect =>
      ⟨hsuspect.1, fun hmem => hsuspect.2 (List.mem_cons_of_mem other hmem)⟩

/-- Another node than the own one is rewritten under its id. -/
lemma Present.set {c : ClusterCoordinator} (h : Present nodeId c) {other : NodeId}
    (hother : other ≠ nodeId) {node : NodeInfo} (hid : node.id = other) :
    Present nodeId { c with nodeRegistry := c.nodeRegistry.set other node } where
  localNode := h.localNode
  keyed id n hn := by
    rw [Js.Map.get?_set] at hn
    split at hn
    next hk =>
      obtain rfl := Option.some.inj hn
      exact hid.trans hk.symm
    · exact h.keyed id n hn
  self := by
    rw [Js.Map.get?_set_of_ne _ _ hother.symm]
    exact h.self

/-- A node that was active becomes suspect. -/
lemma Settled.suspect {c₀ c : ClusterCoordinator} {other : NodeId} {rest : List NodeId}
    (hrest : other ∉ rest) (h : Settled nodeId c₀ (other :: rest) c) (hother : other ≠ nodeId)
    {node : NodeInfo} (hid : node.id = other) :
    Settled nodeId c₀ rest
      { c with nodeRegistry := c.nodeRegistry.set other { node with status := .suspect } } := by
  refine ⟨h.present.set hother hid, ?_⟩
  obtain ⟨leader, hleader, hnode, hcase⟩ := h.skip.leader
  by_cases hl : leader.id = other
  · refine ⟨{ node with status := .suspect }, ?_, ?_, ?_⟩
    · exact hleader.trans (congrArg some (hl.trans hid.symm))
    · exact hid ▸ Js.Map.get?_set_self _ _ _
    · obtain ⟨hsame, hterm, -⟩ | ⟨hchange, hterm, -⟩ := hcase
      · exact .inl ⟨hsame, hterm, .inr rfl⟩
      · exact .inr ⟨hchange, hterm, .inr ⟨rfl, hid ▸ hrest⟩⟩
  · exact ⟨leader, hleader, (Js.Map.get?_set_of_ne _ _ hl).trans hnode, hcase⟩

/-- A node that was suspect goes offline. -/
lemma Settled.offline {c₀ c : ClusterCoordinator} {other : NodeId} {rest : List NodeId}
    (h : Settled nodeId c₀ (other :: rest) c) (hother : other ≠ nodeId) {node : NodeInfo}
    (hget : c.nodeRegistry.get? other = some node) (hsuspect : node.status = .suspect)
    (collator : Collator) :
    Settled nodeId c₀ rest
      (onNodeEvent collator
        { c with nodeRegistry := c.nodeRegistry.set other { node with status := .offline } }
        (.nodeOffline { node with status := .offline })) := by
  have hid : node.id = other := h.present.keyed other node hget
  have hpresent : Present nodeId
      { c with nodeRegistry := c.nodeRegistry.set other { node with status := .offline } } :=
    h.present.set hother hid
  rw [onNodeEvent_nodeOffline]
  by_cases hl : some node.id = c.leaderId
  · -- the leader itself goes offline, so it is still the one the check began with
    have hbegan : c.leaderId = c₀.leaderId ∧ c.term = c₀.term := by
      obtain ⟨leader, hleader, hnode, ⟨hsame, hterm, -⟩ | ⟨-, -, hcase⟩⟩ := h.leader
      · exact ⟨hsame, hterm⟩
      · obtain rfl : other = leader.id := hid.symm.trans (Option.some.inj (hl.trans hleader))
        obtain rfl := Option.some.inj (hnode.symm.trans hget)
        obtain hactive | ⟨-, hnot⟩ := hcase
        · exact absurd (hsuspect.symm.trans hactive) (by decide)
        · exact absurd List.mem_cons_self hnot
    obtain ⟨next, hnext, hgetNext, hactive⟩ := hpresent.elected collator
    have hne : next.id ≠ node.id := by
      intro heq
      rw [heq, hid, Js.Map.get?_set_self, Option.some.injEq] at hgetNext
      rw [← hgetNext] at hactive
      cases hactive
    rw [if_pos hl]
    refine ⟨hpresent.startElection, next, hnext, ?_, .inr ⟨?_, ?_, .inl hactive⟩⟩
    · rw [nodeRegistry_startElection, hgetNext]
    · rw [hnext, ← hbegan.1, ← hl]
      exact fun heq => hne (Option.some.inj heq)
    · rw [term_startElection, hbegan.2]
  · rw [if_neg hl]
    obtain ⟨leader, hleader, hnode, hcase⟩ := h.skip.leader
    have hne : leader.id ≠ other := fun heq => hl (by rw [hleader, heq, hid])
    exact ⟨hpresent, leader, hleader, (Js.Map.get?_set_of_ne _ _ hne).trans hnode, hcase⟩

/-- What one node's turn in the health check keeps. -/
lemma settled_checkAt {c₀ : ClusterCoordinator} {other : NodeId} {rest : List NodeId}
    (hrest : other ∉ rest) {s : NodeRegistry × ClusterCoordinator}
    (h : Settled nodeId c₀ (other :: rest) { s.2 with nodeRegistry := s.1 }) :
    let s' := NodeRegistry.checkAt nodeId heartbeatTimeout (listen collator) now s other
    Settled nodeId c₀ rest { s'.2 with nodeRegistry := s'.1 } := by
  intro s'
  by_cases hother : other = nodeId
  · have hs' : s' = s := if_pos hother
    rw [hs']
    exact h.skip
  · cases hget : s.1.get? other with
    | none =>
      have hs' : s' = s := by
        simp only [s', NodeRegistry.checkAt, if_neg hother, hget]
      rw [hs']
      exact h.skip
    | some node =>
      have hid : node.id = other := h.present.keyed other node hget
      have hs' : s' = (s.1.set other (NodeRegistry.checkNode heartbeatTimeout now node).1,
          (NodeRegistry.checkNode heartbeatTimeout now node).2.foldl
            (fun c e => listen collator
              (s.1.set other (NodeRegistry.checkNode heartbeatTimeout now node).1) e c) s.2) := by
        simp only [s', NodeRegistry.checkAt, if_neg hother, hget]
      rw [hs']
      obtain ⟨-, -, heq⟩ | ⟨-, hsuspect, heq⟩ | ⟨-, -, heq⟩ | ⟨-, heq⟩ :=
        NodeRegistry.checkNode_cases heartbeatTimeout now node
      · rw [heq]
        exact h.suspect hrest hother hid
      · rw [heq]
        have hoffline := h.offline hother hget hsuspect collator
        rw [← withRegistry_onNodeEvent] at hoffline
        exact hoffline
      · rw [heq, Js.Map.set_eq_self hget]
        exact h.skip
      · rw [heq, Js.Map.set_eq_self hget]
        exact h.skip

lemma settled_foldl {c₀ : ClusterCoordinator} (ids : List NodeId) (hnodup : ids.Nodup)
    {s : NodeRegistry × ClusterCoordinator}
    (h : Settled nodeId c₀ ids { s.2 with nodeRegistry := s.1 }) :
    let s' := ids.foldl (NodeRegistry.checkAt nodeId heartbeatTimeout (listen collator) now) s
    Settled nodeId c₀ [] { s'.2 with nodeRegistry := s'.1 } := by
  induction ids generalizing s with
  | nil => exact h
  | cons other rest ih =>
    obtain ⟨hrest, hnodup⟩ := List.nodup_cons.1 hnodup
    exact ih hnodup (settled_checkAt hrest h)

/-- A health check elects at most once, and the leader it leaves is live. -/
lemma settled_checkNodeHealth {c : ClusterCoordinator} (hpresent : Present nodeId c)
    (hlive : LeaderLive c) :
    Settled nodeId c [] (c.checkNodeHealth collator heartbeatTimeout now) := by
  obtain ⟨node, hleader, hnode, hstatus⟩ := hlive
  have hstart : Settled nodeId c (Js.Map.keys c.nodeRegistry) c :=
    ⟨hpresent, node, hleader, hnode, .inl ⟨rfl, rfl, hstatus⟩⟩
  have hend := @settled_foldl collator heartbeatTimeout nodeId now c _ c.nodeRegistry.nodup
    (c.nodeRegistry, c) hstart
  unfold checkNodeHealth
  rw [hpresent.localNode]
  exact hend

/-! ## A run -/

lemma Settled.leaderLive {c₀ c : ClusterCoordinator} (h : Settled nodeId c₀ [] c) :
    LeaderLive c := by
  obtain ⟨node, hleader, hnode, ⟨-, -, hstatus⟩ | ⟨-, -, hstatus⟩⟩ := h.leader
  · exact ⟨node, hleader, hnode, hstatus⟩
  · exact ⟨node, hleader, hnode, hstatus.imp id And.left⟩

lemma Settled.counts {c₀ c : ClusterCoordinator} (h : Settled nodeId c₀ [] c) : Counts c₀ c := by
  unfold Counts
  obtain ⟨node, -, -, ⟨hsame, hterm, -⟩ | ⟨hchange, hterm, -⟩⟩ := h.leader
  · rw [if_pos hsame, hterm]
  · rw [if_neg hchange, hterm]

/-- What does not elect does not count. -/
lemma counts_of_eq {c c' : ClusterCoordinator} (hleader : c'.leaderId = c.leaderId)
    (hterm : c'.term = c.term) : Counts c c' := by
  rw [Counts, if_pos hleader, hterm]

lemma Present.announce {c : ClusterCoordinator} (h : Present nodeId c) {node : NodeInfo}
    (hactive : node.status = .active) : Present nodeId (c.handleNodeAnnounce node).1 where
  localNode := h.localNode
  keyed id n hn := by
    rw [handleNodeAnnounce, NodeRegistry.get?_registerNode] at hn
    split at hn
    next hk =>
      obtain rfl := Option.some.inj hn
      exact hk.symm
    · exact h.keyed id n hn
  self := by
    rw [handleNodeAnnounce, NodeRegistry.get?_registerNode]
    split
    · exact ⟨node, rfl, hactive⟩
    · exact h.self

/-- A node other than this one leaves the registry. -/
lemma Present.deregister {c : ClusterCoordinator} (h : Present nodeId c) {other : NodeId}
    (hother : other ≠ nodeId) :
    Present nodeId { c with nodeRegistry := NodeRegistry.deregisterNode c.nodeRegistry other } where
  localNode := h.localNode
  keyed id n hn := by
    rw [NodeRegistry.get?_deregisterNode] at hn
    split at hn
    · cases hn
    · exact h.keyed id n hn
  self := by
    rw [NodeRegistry.get?_deregisterNode, if_neg hother.symm]
    exact h.self

lemma Present.goodbye {c : ClusterCoordinator} (h : Present nodeId c) {other : NodeId}
    (hother : other ≠ nodeId) : Present nodeId (c.handleNodeGoodbye collator other) := by
  unfold handleNodeGoodbye
  dsimp only
  split
  · exact (h.deregister hother).startElection
  · exact h.deregister hother

lemma Present.heartbeat {c : ClusterCoordinator} (h : Present nodeId c) (other : NodeId) (load : ℚ)
    (connections : ℕ) : Present nodeId (c.handleHeartbeat now other load connections) where
  localNode := h.localNode
  keyed id n hn := by
    rw [handleHeartbeat, NodeRegistry.get?_updateHeartbeat] at hn
    split at hn
    next hk =>
      obtain ⟨node, hnode, rfl⟩ := Option.map_eq_some_iff.1 hn
      exact (h.keyed other node hnode).trans hk.symm
    · exact h.keyed id n hn
  self := by
    obtain ⟨node, hnode, hactive⟩ := h.self
    rw [handleHeartbeat, NodeRegistry.get?_updateHeartbeat]
    split
    next hk =>
      rw [← hk, hnode]
      exact ⟨_, rfl, by simp [NodeRegistry.heard, hactive]⟩
    · exact ⟨node, hnode, hactive⟩

/-- The heartbeat timer does to the registry what a heartbeat of its own does. -/
lemma Present.sendHeartbeat {c : ClusterCoordinator} (h : Present nodeId c) (load : ℚ) :
    Present nodeId (c.sendHeartbeat now load).1 :=
  have hheard : Present nodeId
      (c.handleHeartbeat now c.localNode.id load c.localNode.connections) := h.heartbeat _ _ _
  ⟨h.localNode, hheard.keyed, hheard.self⟩

lemma Present.checkNodeHealth {c : ClusterCoordinator} (h : Present nodeId c) :
    Present nodeId (c.checkNodeHealth collator heartbeatTimeout now) where
  localNode := by
    refine NodeRegistry.checkNodeHealth_snd
      (P := fun c : ClusterCoordinator => c.localNode.id = nodeId) ?_ _ h.localNode
    intro r e l hl
    rw [listen, localNode_onNodeEvent, hl]
  keyed id n hn := by
    have hn := (NodeRegistry.get?_checkNodeHealth _ _ id).symm.trans hn
    split at hn
    · exact h.keyed id n hn
    · obtain ⟨node, hnode, rfl⟩ := Option.map_eq_some_iff.1 hn
      exact (NodeRegistry.id_checkNode node).trans (h.keyed id node hnode)
  self := by
    obtain ⟨node, hnode, hactive⟩ := h.self
    refine ⟨node, ?_, hactive⟩
    refine (NodeRegistry.get?_checkNodeHealth _ _ nodeId).trans ?_
    rw [if_pos h.localNode.symm, hnode]

/-- Every step keeps the node itself registered and active. -/
lemma present_step {c : ClusterCoordinator} {i : Timestamp × Event} (h : Present nodeId c)
    (hi : Admitted nodeId i) : Present nodeId (step collator heartbeatTimeout c i) := by
  match i with
  | (_, .message (.nodeAnnounce node)) => exact h.announce hi
  | (_, .message (.nodeGoodbye other)) => exact h.goodbye hi
  | (_, .message (.heartbeat other load connections)) => exact h.heartbeat other load connections
  | (_, .heartbeatTick load) => exact h.sendHeartbeat load
  | (_, .healthCheck) => exact h.checkNodeHealth

lemma LeaderLive.announce {c : ClusterCoordinator} (h : LeaderLive c) {node : NodeInfo}
    (hactive : node.status = .active) : LeaderLive (c.handleNodeAnnounce node).1 := by
  obtain ⟨leader, hleader, hget, hstatus⟩ := h
  by_cases hid : leader.id = node.id
  · refine ⟨node, hleader.trans (congrArg some hid), ?_, .inl hactive⟩
    exact (NodeRegistry.get?_registerNode _ node node.id).trans (if_pos rfl)
  · refine ⟨leader, hleader, ?_, hstatus⟩
    exact ((NodeRegistry.get?_registerNode _ node leader.id).trans (if_neg hid)).trans hget

/-- A heartbeat makes nobody less live. -/
lemma LeaderLive.heartbeat {c : ClusterCoordinator} (h : LeaderLive c) (other : NodeId) (load : ℚ)
    (connections : ℕ) : LeaderLive (c.handleHeartbeat now other load connections) := by
  obtain ⟨leader, hleader, hget, hstatus⟩ := h
  by_cases hid : leader.id = other
  · refine ⟨NodeRegistry.heard now load connections leader, hleader, ?_, .inl ?_⟩
    · refine (NodeRegistry.get?_updateHeartbeat _ other leader.id load connections).trans ?_
      rw [if_pos hid, ← hid, hget, Option.map_some]
    · obtain hactive | hsuspect := hstatus
      · simp [NodeRegistry.heard, hactive]
      · simp [NodeRegistry.heard, hsuspect]
  · refine ⟨leader, hleader, ?_, hstatus⟩
    exact ((NodeRegistry.get?_updateHeartbeat _ other leader.id load connections).trans
      (if_neg hid)).trans hget

/-- A leader that says goodbye is followed by another one. -/
lemma goodbye_leader {c : ClusterCoordinator} (hpresent : Present nodeId c) (hlive : LeaderLive c)
    {other : NodeId} (hother : other ≠ nodeId) :
    LeaderLive (c.handleNodeGoodbye collator other) ∧
      Counts c (c.handleNodeGoodbye collator other) := by
  obtain ⟨leader, hleader, hget, hstatus⟩ := hlive
  unfold handleNodeGoodbye
  dsimp only
  split
  next hgone =>
    obtain ⟨next, hnext, hgetNext, hactive⟩ :=
      (hpresent.deregister hother).elected collator
    have hne : next.id ≠ other := by
      intro heq
      rw [heq, NodeRegistry.get?_deregisterNode, if_pos rfl] at hgetNext
      cases hgetNext
    constructor
    · refine ⟨next, hnext, ?_, .inl hactive⟩
      rw [nodeRegistry_startElection, hgetNext]
    · rw [Counts, term_startElection, hnext, if_neg]
      rw [← hgone]
      exact fun heq => hne (Option.some.inj heq)
  next hstays =>
    have hid : leader.id ≠ other := fun heq => hstays (by rw [hleader, heq])
    refine ⟨⟨leader, hleader, ?_, hstatus⟩, counts_of_eq rfl rfl⟩
    rw [NodeRegistry.get?_deregisterNode, if_neg hid, hget]

/-- Every step keeps the leader live and counts its changes. -/
lemma leaderLive_step {c : ClusterCoordinator} {i : Timestamp × Event} (hpresent : Present nodeId c)
    (hlive : LeaderLive c) (hi : Admitted nodeId i) :
    LeaderLive (step collator heartbeatTimeout c i) ∧
      Counts c (step collator heartbeatTimeout c i) := by
  match i with
  | (_, .message (.nodeAnnounce node)) => exact ⟨hlive.announce hi, counts_of_eq rfl rfl⟩
  | (_, .message (.nodeGoodbye other)) => exact goodbye_leader hpresent hlive hi
  | (_, .message (.heartbeat other load connections)) =>
    exact ⟨hlive.heartbeat other load connections, counts_of_eq rfl rfl⟩
  | (now, .heartbeatTick load) =>
    have hheard : LeaderLive
        (c.handleHeartbeat now c.localNode.id load c.localNode.connections) := hlive.heartbeat _ _ _
    exact ⟨hheard, counts_of_eq rfl rfl⟩
  | (now, .healthCheck) =>
    have hsettled : Settled nodeId c [] (c.checkNodeHealth collator heartbeatTimeout now) :=
      settled_checkNodeHealth hpresent hlive
    exact ⟨hsettled.leaderLive, hsettled.counts⟩

lemma present_start (now : Timestamp) : Present nodeId (construct nodeId now).start.1 := by
  have hget : (construct nodeId now).start.1.nodeRegistry.get? nodeId =
      some (construct nodeId now).localNode := Js.Map.get?_set_self _ _ _
  refine ⟨rfl, fun id n hn => ?_, _, hget, rfl⟩
  rw [start, NodeRegistry.get?_registerNode] at hn
  split at hn
  next hk =>
    obtain rfl := Option.some.inj hn
    exact hk.symm
  · cases hn

/-- The leader is a live member in every state after `start()`, and the term counts its changes. -/
theorem leader_live {before after : List (Timestamp × Event)}
    (hbefore : ∀ i ∈ before, Admitted nodeId i) (hafter : ∀ i ∈ after, Admitted nodeId i) :
    let c := Machine.run (step collator heartbeatTimeout)
      (started collator heartbeatTimeout nodeId now before) after
    LeaderLive c ∧
      ∀ i, Admitted nodeId i → Counts c (step collator heartbeatTimeout c i) := by
  intro c
  have hpresent : Present nodeId
      (Machine.run (step collator heartbeatTimeout) (construct nodeId now).start.1 before) :=
    Machine.invariant_of_forall (fun _ _ => present_step) (present_start now) hbefore
  have hstarted : LeaderLive (started collator heartbeatTimeout nodeId now before) := by
    obtain ⟨node, hleader, hget, hactive⟩ := hpresent.elected collator
    refine ⟨node, hleader, ?_, .inl hactive⟩
    rw [started, nodeRegistry_startElection, hget]
  have hrun : Present nodeId c ∧ LeaderLive c :=
    @Machine.invariant_of_forall _ _ (step collator heartbeatTimeout)
      (fun c => Present nodeId c ∧ LeaderLive c) (Admitted nodeId)
      (fun c i hc hi => ⟨present_step hc.1 hi, (leaderLive_step hc.1 hc.2 hi).1⟩) _ _
      ⟨hpresent.startElection, hstarted⟩ hafter
  exact ⟨hrun.2, fun i hi => (leaderLive_step hrun.1 hrun.2 hi).2⟩

/-- Node `a` learns of the older node `b` before it elects, and `b` is silent until it is
offline. -/
theorem leader_live_silent :
    let c := Machine.run (step .byCodePoint 60000)
      (started .byCodePoint 60000 "a" 5 [(6, .message (.nodeAnnounce NodeRegistry.nodeB))])
      [(60001, .healthCheck), (120001, .healthCheck)]
    LeaderLive c ∧ ∀ i, Admitted "a" i → Counts c (step .byCodePoint 60000 c i) :=
  leader_live
    (by
      intro i hi
      obtain rfl := List.mem_singleton.1 hi
      exact (rfl : NodeRegistry.nodeB.status = .active))
    (by simp [Admitted])

end ClusterCoordinator

end SyncEngine
