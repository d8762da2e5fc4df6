import SyncEngine.Cluster.Leadership

/-!
# Failover

When does a coordinator take another node for the leader than the one it has?  Elections are held
for two reasons, the goodbye of the leader and the health check that finds it offline.  `Deposes`
says so of one event, and a run keeps its leader exactly when none of its events does
(`leader_kept_iff`).

The health check needs two turns for a node that has fallen silent: it makes an active node suspect
and a suspect one offline.  `Fading` follows one node through these stages; everything but a message
of the node itself lets it fade on.  A silent leader is replaced by the second check after twice the
timeout (`silent_leader_replaced`).
-/

namespace SyncEngine

open Js

namespace ClusterCoordinator

section Definitions

variable (heartbeatTimeout : ℕ)

/-- The leader says goodbye, or the health check finds it suspect and silent for more than twice
the timeout. -/
def Deposes (c : ClusterCoordinator) : Timestamp × Event → Prop
  | (_, .message (.nodeGoodbye other)) => c.leaderId = some other
  | (now, .healthCheck) => ∃ node, c.leaderId = some node.id ∧
      c.nodeRegistry.get? node.id = some node ∧ node.id ≠ c.localNode.id ∧
      node.status = .suspect ∧ node.lastHeartbeat + heartbeatTimeout * 2 < now
  | _ => False

/-- Nothing of the node itself arrives but its goodbye. -/
def Silent (id : NodeId) : Timestamp × Event → Prop
  | (_, .message (.nodeAnnounce node)) => node.id ≠ id
  | (_, .message (.heartbeat other _ _)) => other ≠ id
  | _ => True

/-- What is registered under an id, if anything is. -/
def Fading (p : NodeInfo → Prop) (id : NodeId) (c : ClusterCoordinator) : Prop :=
  ∀ node, c.nodeRegistry.get? id = some node → p node

end Definitions

variable {collator : Collator} {heartbeatTimeout : ℕ} {nodeId : NodeId} {now : Timestamp}
  {c : ClusterCoordinator}

/-! ## The health check and the leader -/

/-- A node goes offline when it is suspect and has been silent for more than twice the timeout. -/
lemma nodeOffline_mem_checkNode {node node' : NodeInfo}
    (h : NodeEvent.nodeOffline node' ∈ (NodeRegistry.checkNode heartbeatTimeout now node).2) :
    node'.id = node.id ∧ node.status = .suspect ∧
      node.lastHeartbeat + heartbeatTimeout * 2 < now := by
  unfold NodeRegistry.checkNode at h
  split_ifs at h with hstale hactive hoffline
  · simp at h
  · simp only [List.mem_singleton, NodeEvent.nodeOffline.injEq] at h
    rw [h]
    exact ⟨rfl, hoffline⟩
  · simp at h
  · simp at h

lemma checkNode_offline {node : NodeInfo} (hsuspect : node.status = .suspect)
    (hsilent : node.lastHeartbeat + heartbeatTimeout * 2 < now) :
    (NodeRegistry.checkNode heartbeatTimeout now node).1.status = .offline := by
  have hstale : node.lastHeartbeat + heartbeatTimeout < now :=
    lt_of_le_of_lt (Nat.add_le_add_left (Nat.le_mul_of_pos_right _ Nat.two_pos) _) hsilent
  have hnot : node.status ≠ .active := by simp [hsuspect]
  have hoffline : node.status = .suspect ∧ node.lastHeartbeat + heartbeatTimeout * 2 < now :=
    ⟨hsuspect, hsilent⟩
  simp only [NodeRegistry.checkNode, if_pos hstale, if_neg hnot, if_pos hoffline]

/-- The turn of one node leaves a leader that does not go offline in it. -/
lemma leaderId_checkAt {leader other : NodeId} {s : NodeRegistry × ClusterCoordinator}
    (hl : s.2.leaderId = some leader)
    (hstays : ∀ node, s.1.get? other = some node → node.id = other ∧
      (other = leader → other ≠ nodeId →
        ¬ (node.status = .suspect ∧ node.lastHeartbeat + heartbeatTimeout * 2 < now))) :
    (NodeRegistry.checkAt nodeId heartbeatTimeout (listen collator) now s other).2.leaderId =
      some leader := by
  unfold NodeRegistry.checkAt
  by_cases hlocal : other = nodeId
  · rw [if_pos hlocal]
    exact hl
  · rw [if_neg hlocal]
    cases hget : s.1.get? other with
    | none => exact hl
    | some node =>
      obtain ⟨hid, hstays⟩ := hstays node hget
      refine List.foldlRecOn (motive := fun c : ClusterCoordinator => c.leaderId = some leader)
        _ _ hl fun c hc e he => ?_
      cases e with
      | nodeSuspect node' => exact hc
      | nodeOffline node' =>
        obtain ⟨hid', hoffline⟩ := nodeOffline_mem_checkNode he
        have hne : some node'.id ≠ c.leaderId := by
          rw [hc, hid', hid]
          exact fun heq => hstays (Option.some.inj heq) hlocal hoffline
        rw [listen, onNodeEvent_nodeOffline]
        dsimp only
        rw [if_neg hne]
        exact hc

lemma leaderId_foldl_checkAt {leader : NodeId} (ids : List NodeId) (hnodup : ids.Nodup)
    {s : NodeRegistry × ClusterCoordinator} (hl : s.2.leaderId = some leader)
    (hstays : ∀ other ∈ ids, ∀ node, s.1.get? other = some node → node.id = other ∧
      (other = leader → other ≠ nodeId →
        ¬ (node.status = .suspect ∧ node.lastHeartbeat + heartbeatTimeout * 2 < now))) :
    (ids.foldl (NodeRegistry.checkAt nodeId heartbeatTimeout (listen collator) now) s).2.leaderId =
      some leader := by
  induction ids generalizing s with
  | nil => exact hl
  | cons other rest ih =>
    obtain ⟨hrest, hnodup⟩ := List.nodup_cons.1 hnodup
    refine ih hnodup (leaderId_checkAt hl (hstays other List.mem_cons_self)) fun id hid node => ?_
    have hother : ¬ (id = other ∧ id ≠ nodeId) := fun h => hrest (h.1 ▸ hid)
    rw [NodeRegistry.get?_checkAt, if_neg hother]
    exact hstays id (List.mem_cons_of_mem other hid) node

lemma get?_nodeRegistry_checkNodeHealth (hpresent : Present nodeId c) (collator : Collator)
    (heartbeatTimeout : ℕ) (now : Timestamp) (id : NodeId) :
    (c.checkNodeHealth collator heartbeatTimeout now).nodeRegistry.get? id =
      if id = nodeId then c.nodeRegistry.get? id
      else (c.nodeRegistry.get? id).map fun node =>
        (NodeRegistry.checkNode heartbeatTimeout now node).1 := by
  rw [← hpresent.localNode]
  exact NodeRegistry.get?_checkNodeHealth c.nodeRegistry c id

/-- A health check changes the leader exactly when it deposes it. -/
lemma leaderId_checkNodeHealth (hpresent : Present nodeId c) (hlive : LeaderLive c) :
    (c.checkNodeHealth collator heartbeatTimeout now).leaderId = c.leaderId ↔
      ¬ Deposes heartbeatTimeout c (now, .healthCheck) := by
  constructor
  · rintro hsame ⟨node, hleader, hget, hremote, hsuspect, hsilent⟩
    have hsettled : Settled nodeId c [] (c.checkNodeHealth collator heartbeatTimeout now) :=
      settled_checkNodeHealth hpresent hlive
    obtain ⟨leader, hleader', hget', hstatus⟩ := hsettled.leaderLive
    -- the leader would be offline afterwards
    have hid : leader.id = node.id :=
      Option.some.inj (hleader'.symm.trans (hsame.trans hleader))
    rw [get?_nodeRegistry_checkNodeHealth hpresent, hid, if_neg (hpresent.localNode ▸ hremote),
      hget, Option.map_some, Option.some.injEq] at hget'
    rw [← hget', checkNode_offline hsuspect hsilent] at hstatus
    simp at hstatus
  · intro hstays
    obtain ⟨leader, hleader, hget, -⟩ := hlive
    rw [hleader]
    refine leaderId_foldl_checkAt (Js.Map.keys c.nodeRegistry) c.nodeRegistry.nodup hleader
      fun other _ node hnode => ?_
    have hid := hpresent.keyed other node hnode
    refine ⟨hid, fun heq hne hoffline => hstays ?_⟩
    subst hid
    exact ⟨node, by rw [hleader, heq], hnode, hne, hoffline⟩

lemma nodeRegistry_goodbye (c : ClusterCoordinator) (other : NodeId) :
    (c.handleNodeGoodbye collator other).nodeRegistry =
      NodeRegistry.deregisterNode c.nodeRegistry other := by
  unfold handleNodeGoodbye
  dsimp only
  split
  · exact nodeRegistry_startElection _
  · rfl

/-- The goodbye of the leader, and of no other node, leads to another leader. -/
lemma leaderId_goodbye (hpresent : Present nodeId c) (hlive : LeaderLive c) {other : NodeId}
    (hother : other ≠ nodeId) :
    (c.handleNodeGoodbye collator other).leaderId = c.leaderId ↔ ¬ c.leaderId = some other := by
  have hlive' : LeaderLive (c.handleNodeGoodbye collator other) :=
    (goodbye_leader hpresent hlive hother).1
  by_cases hgone : c.leaderId = some other
  · refine iff_of_false (fun hsame => ?_) (not_not.2 hgone)
    obtain ⟨leader, hleader, hget, -⟩ := hlive'
    have hid : leader.id = other := Option.some.inj (hleader.symm.trans (hsame.trans hgone))
    rw [nodeRegistry_goodbye, NodeRegistry.get?_deregisterNode, if_pos hid] at hget
    cases hget
  · refine iff_of_true ?_ hgone
    unfold handleNodeGoodbye
    dsimp only
    rw [if_neg (Ne.symm hgone)]

lemma leaderId_step (hpresent : Present nodeId c) (hlive : LeaderLive c) {i : Timestamp × Event}
    (hi : Admitted nodeId i) :
    (step collator heartbeatTimeout c i).leaderId = c.leaderId ↔
      ¬ Deposes heartbeatTimeout c i := by
  match i with
  | (_, .message (.nodeAnnounce node)) => exact iff_of_true rfl not_false
  | (_, .message (.nodeGoodbye other)) => exact leaderId_goodbye hpresent hlive hi
  | (_, .message (.heartbeat other load connections)) => exact iff_of_true rfl not_false
  | (_, .heartbeatTick load) => exact iff_of_true rfl not_false
  | (now, .healthCheck) => exact leaderId_checkNodeHealth hpresent hlive

/-! ## Runs -/

/-- The node itself is registered and active, and the leader live, in every state from the first
election on. -/
structure Led (nodeId : NodeId) (c : ClusterCoordinator) : Prop where
  present : Present nodeId c
  live : LeaderLive c

lemma led_step (h : Led nodeId c) {i : Timestamp × Event} (hi : Admitted nodeId i) :
    Led nodeId (step collator heartbeatTimeout c i) :=
  ⟨present_step h.present hi, (leaderLive_step h.present h.live hi).1⟩

lemma led_started {before : List (Timestamp × Event)} (hbefore : ∀ i ∈ before, Admitted nodeId i) :
    Led nodeId (started collator heartbeatTimeout nodeId now before) := by
  have hpresent : Present nodeId
      (Machine.run (step collator heartbeatTimeout) (construct nodeId now).start.1 before) :=
    Machine.invariant_of_forall (fun _ _ => present_step) (present_start now) hbefore
  obtain ⟨node, hleader, hget, hactive⟩ := hpresent.elected collator
  refine ⟨hpresent.startElection, node, hleader, ?_, .inl hactive⟩
  rw [started, nodeRegistry_startElection, hget]

lemma led_run (h : Led nodeId c) {events : List (Timestamp × Event)}
    (hevents : ∀ i ∈ events, Admitted nodeId i) :
    Led nodeId (Machine.run (step collator heartbeatTimeout) c events) :=
  @Machine.invariant_of_forall _ _ (step collator heartbeatTimeout) (Led nodeId) (Admitted nodeId)
    (fun _ _ h hi => led_step h hi) _ _ h hevents

/-- **Keeping the leader.**  From the first election on, the leader is the same in every state
exactly when it never says goodbye and no health check finds it suspect and silent for more than
twice the timeout. -/
theorem leader_kept_iff {before events : List (Timestamp × Event)}
    (hbefore : ∀ i ∈ before, Admitted nodeId i) (hevents : ∀ i ∈ events, Admitted nodeId i) :
    let c := started collator heartbeatTimeout nodeId now before
    (∀ first, first <+: events →
        (Machine.run (step collator heartbeatTimeout) c first).leaderId = c.leaderId) ↔
      Machine.Along (step collator heartbeatTimeout)
        (fun c i => ¬ Deposes heartbeatTimeout c i) c events := by
  intro c
  have hstep : ∀ c' i, Led nodeId c' → Admitted nodeId i ∧ True → c'.leaderId = c.leaderId →
      ((step collator heartbeatTimeout c' i).leaderId = c.leaderId ↔
        ¬ Deposes heartbeatTimeout c' i) := by
    intro c' i h hi hsame
    rw [← hsame]
    exact leaderId_step h.present h.live hi.1
  exact @Machine.forall_prefix_iff_along_of _ _ (step collator heartbeatTimeout)
    (fun c i => ¬ Deposes heartbeatTimeout c i) (Led nodeId) (fun c' => c'.leaderId = c.leaderId)
    (fun _ i => Admitted nodeId i ∧ True) (fun _ _ h hi => led_step h hi.1) hstep c events
    (led_started hbefore) rfl ((Machine.along_true c events).and_of_forall hevents)

/-- Node `a` hears of the older node `b` before it elects. -/
def bLeads : List (Timestamp × Event) := [(6, .message (.nodeAnnounce NodeRegistry.nodeB))]

lemma admitted_bLeads : ∀ i ∈ bLeads, Admitted "a" i := by
  intro i hi
  obtain rfl := List.mem_singleton.1 hi
  exact (rfl : NodeRegistry.nodeB.status = .active)

theorem leader_kept_heard :
    let c := started .byCodePoint 60000 "a" 5 bLeads
    (∀ first, first <+: [(60001, .healthCheck), (70000, .message (.heartbeat "b" 0 1)),
        (120001, .healthCheck)] →
      (Machine.run (step .byCodePoint 60000) c first).leaderId = c.leaderId) ↔
    Machine.Along (step .byCodePoint 60000) (fun c i => ¬ Deposes 60000 c i) c
      [(60001, .healthCheck), (70000, .message (.heartbeat "b" 0 1)), (120001, .healthCheck)] :=
  leader_kept_iff admitted_bLeads (by simp [Admitted])

/-! ## A silent node -/

section Silent

variable {p : NodeInfo → Prop} {id : NodeId}

/-- What a health check keeps of a node, everything keeps but a message of the node. -/
lemma fading_step (hp : ∀ now node, p node → p (NodeRegistry.checkNode heartbeatTimeout now node).1)
    (hpresent : Present nodeId c) (hid : id ≠ nodeId) {i : Timestamp × Event} (hi : Silent id i)
    (h : Fading p id c) : Fading p id (step collator heartbeatTimeout c i) := by
  intro node hnode
  match i with
  | (_, .message (.nodeAnnounce other)) =>
    have hget := (NodeRegistry.get?_registerNode c.nodeRegistry other id).symm.trans hnode
    rw [if_neg (Ne.symm hi)] at hget
    exact h node hget
  | (_, .message (.nodeGoodbye other)) =>
    have hget : (c.handleNodeGoodbye collator other).nodeRegistry.get? id = some node := hnode
    rw [nodeRegistry_goodbye, NodeRegistry.get?_deregisterNode] at hget
    split at hget
    · cases hget
    · exact h node hget
  | (now, .message (.heartbeat other load connections)) =>
    have hget : (NodeRegistry.updateHeartbeat c.nodeRegistry now other load connections).get? id =
        some node := hnode
    rw [NodeRegistry.get?_updateHeartbeat, if_neg (Ne.symm hi)] at hget
    exact h node hget
  | (now, .heartbeatTick load) =>
    have hget : (NodeRegistry.updateHeartbeat c.nodeRegistry now c.localNode.id load
        c.localNode.connections).get? id = some node := hnode
    rw [NodeRegistry.get?_updateHeartbeat, if_neg (hpresent.localNode ▸ hid)] at hget
    exact h node hget
  | (now, .healthCheck) =>
    have hget := (get?_nodeRegistry_checkNodeHealth hpresent collator heartbeatTimeout now
      id).symm.trans hnode
    rw [if_neg hid] at hget
    obtain ⟨old, hold, rfl⟩ := Option.map_eq_some_iff.1 hget
    exact hp now old (h old hold)

lemma fading_run (collator : Collator) (heartbeatTimeout : ℕ)
    (hp : ∀ now node, p node → p (NodeRegistry.checkNode heartbeatTimeout now node).1)
    (hid : id ≠ nodeId) {events : List (Timestamp × Event)}
    (hevents : ∀ i ∈ events, Admitted nodeId i ∧ Silent id i) (h : Led nodeId c ∧ Fading p id c) :
    Led nodeId (Machine.run (step collator heartbeatTimeout) c events) ∧
      Fading p id (Machine.run (step collator heartbeatTimeout) c events) :=
  @Machine.invariant_of_forall _ _ (step collator heartbeatTimeout)
    (fun c => Led nodeId c ∧ Fading p id c) (fun i => Admitted nodeId i ∧ Silent id i)
    (fun _ _ h hi => ⟨led_step h.1 hi.1, fading_step hp h.1.present hid hi.2 h.2⟩) _ _ h hevents

/-- A health check takes a node from one stage to the next. -/
lemma fading_check (collator : Collator) (heartbeatTimeout : ℕ) (now : Timestamp)
    {q : NodeInfo → Prop}
    (hpq : ∀ node, p node → q (NodeRegistry.checkNode heartbeatTimeout now node).1)
    (hid : id ≠ nodeId) (h : Led nodeId c ∧ Fading p id c) :
    Led nodeId (step collator heartbeatTimeout c (now, .healthCheck)) ∧
      Fading q id (step collator heartbeatTimeout c (now, .healthCheck)) := by
  refine ⟨led_step h.1 trivial, fun node hnode => ?_⟩
  have hget := (get?_nodeRegistry_checkNodeHealth h.1.present collator heartbeatTimeout now
    id).symm.trans hnode
  rw [if_neg hid] at hget
  obtain ⟨old, hold, rfl⟩ := Option.map_eq_some_iff.1 hget
  exact hpq old (h.2 old hold)

end Silent

@[simp] lemma lastHeartbeat_checkNode (node : NodeInfo) :
    (NodeRegistry.checkNode heartbeatTimeout now node).1.lastHeartbeat = node.lastHeartbeat := by
  unfold NodeRegistry.checkNode
  split_ifs <;> rfl

/-- A health check makes no node active. -/
lemma checkNode_ne_active {node : NodeInfo} (h : node.status ≠ .active) :
    (NodeRegistry.checkNode heartbeatTimeout now node).1.status ≠ .active := by
  obtain ⟨-, hactive, -⟩ | ⟨-, -, heq⟩ | ⟨-, -, heq⟩ | ⟨-, heq⟩ :=
    NodeRegistry.checkNode_cases heartbeatTimeout now node
  · exact absurd hactive h
  · rw [heq]
    exact NodeStatus.noConfusion
  · rw [heq]
    exact h
  · rw [heq]
    exact h

/-- Neither active nor suspect, so no leader. -/
def Out (node : NodeInfo) : Prop := node.status ≠ .active ∧ node.status ≠ .suspect

lemma Out.checkNode {node : NodeInfo} (h : Out node) :
    Out (NodeRegistry.checkNode heartbeatTimeout now node).1 := by
  obtain ⟨-, hactive, -⟩ | ⟨-, hsuspect, -⟩ | ⟨-, -, heq⟩ | ⟨-, heq⟩ :=
    NodeRegistry.checkNode_cases heartbeatTimeout now node
  · exact absurd hactive h.1
  · exact absurd hsuspect h.2
  · rwa [heq]
  · rwa [heq]

/-- The first check after twice the timeout: the node is no longer active. -/
lemma checkNode_first {node : NodeInfo}
    (hsilent : node.lastHeartbeat + heartbeatTimeout * 2 < now) :
    (NodeRegistry.checkNode heartbeatTimeout now node).1.status ≠ .active := by
  by_cases hactive : node.status = .active
  · have hstale : node.lastHeartbeat + heartbeatTimeout < now :=
      lt_of_le_of_lt (Nat.add_le_add_left (Nat.le_mul_of_pos_right _ Nat.two_pos) _) hsilent
    simp [NodeRegistry.checkNode, hstale, hactive]
  · exact checkNode_ne_active hactive

/-- The second check: it is out. -/
lemma checkNode_second {node : NodeInfo} (hactive : node.status ≠ .active)
    (hsilent : node.lastHeartbeat + heartbeatTimeout * 2 < now) :
    Out (NodeRegistry.checkNode heartbeatTimeout now node).1 := by
  by_cases hsuspect : node.status = .suspect
  · have hoffline := checkNode_offline hsuspect hsilent
    exact ⟨by rw [hoffline]; decide, by rw [hoffline]; decide⟩
  · exact Out.checkNode ⟨hactive, hsuspect⟩

/-- **Failover.**  In any state after the first election, let the leader be another node, and let
nothing of it arrive from there on but perhaps its goodbye.  After two health checks that come more
than twice the timeout after its last heartbeat, another node leads, which is registered and active
or suspect. -/
theorem silent_leader_replaced {before past first second third : List (Timestamp × Event)}
    (hbefore : ∀ i ∈ before, Admitted nodeId i) (hpast : ∀ i ∈ past, Admitted nodeId i)
    (hc : Machine.run (step collator heartbeatTimeout)
      (started collator heartbeatTimeout nodeId now before) past = c) {leader : NodeInfo}
    (hremote : leader.id ≠ nodeId) (hleader : c.leaderId = some leader.id)
    (hget : c.nodeRegistry.get? leader.id = some leader)
    (hsilent : ∀ i ∈ first ++ second ++ third, Admitted nodeId i ∧ Silent leader.id i)
    {t t' : Timestamp} (ht : leader.lastHeartbeat + heartbeatTimeout * 2 < t)
    (ht' : leader.lastHeartbeat + heartbeatTimeout * 2 < t') :
    let c' := Machine.run (step collator heartbeatTimeout) c
      (first ++ (t, .healthCheck) :: second ++ (t', .healthCheck) :: third)
    LeaderLive c' ∧ c'.leaderId ≠ c.leaderId := by
  intro c'
  have hled : Led nodeId c := hc ▸ led_run (led_started hbefore) hpast
  have hparts : ∀ i, i ∈ first ∨ i ∈ second ∨ i ∈ third → Admitted nodeId i ∧ Silent leader.id i :=
    fun i hi => hsilent i (by simpa [or_assoc] using hi)
  have hstart : Led nodeId c ∧
      Fading (fun node => node.lastHeartbeat = leader.lastHeartbeat) leader.id c := by
    refine ⟨hled, fun node hnode => ?_⟩
    rw [Option.some.inj (hnode.symm.trans hget)]
  have hfirst := fading_run collator heartbeatTimeout
    (fun now node h => (lastHeartbeat_checkNode node).trans h) hremote
    (fun i hi => hparts i (.inl hi)) hstart
  have hsuspect := fading_check collator heartbeatTimeout t
    (q := fun node => node.lastHeartbeat = leader.lastHeartbeat ∧ node.status ≠ .active)
    (fun node h => ⟨(lastHeartbeat_checkNode node).trans h, checkNode_first (h ▸ ht)⟩) hremote
    hfirst
  have hsecond := fading_run collator heartbeatTimeout
    (fun now node h => ⟨(lastHeartbeat_checkNode node).trans h.1, checkNode_ne_active h.2⟩) hremote
    (fun i hi => hparts i (.inr (.inl hi))) hsuspect
  have hcheck : ∀ node : NodeInfo,
      node.lastHeartbeat = leader.lastHeartbeat ∧ node.status ≠ .active →
        Out (NodeRegistry.checkNode heartbeatTimeout t' node).1 := fun node h =>
    checkNode_second h.2 (h.1 ▸ ht')
  have hout := fading_check collator heartbeatTimeout t' hcheck hremote hsecond
  have hthird := fading_run collator heartbeatTimeout (fun _ _ h => h.checkNode) hremote
    (fun i hi => hparts i (.inr (.inr hi))) hout
  have hend : Led nodeId c' ∧ Fading Out leader.id c' := by
    simpa only [c', Machine.run_append, Machine.run_cons] using hthird
  refine ⟨hend.1.live, fun hsame => ?_⟩
  obtain ⟨node, hnode, hregistered, hstatus⟩ := hend.1.live
  have hid : node.id = leader.id := Option.some.inj (hnode.symm.trans (hsame.trans hleader))
  rw [hid] at hregistered
  obtain ⟨hactive, hsuspect⟩ := hend.2 node hregistered
  exact hstatus.elim hactive hsuspect

/-- Node `b` is heard from for the last time at 0. -/
theorem silent_leader_replaced_b :
    let c := started .byCodePoint 60000 "a" 5 bLeads
    let c' := Machine.run (step .byCodePoint 60000) c
      ([(60001, .healthCheck)] ++ (120001, .healthCheck) :: [(120002, .heartbeatTick 0)] ++
        (130001, .healthCheck) :: [])
    LeaderLive c' ∧ c'.leaderId ≠ c.leaderId := by
  have hpast : ∀ i ∈ ([] : List (Timestamp × Event)), Admitted "a" i := by simp
  have hrun : Machine.run (step .byCodePoint 60000) (started .byCodePoint 60000 "a" 5 bLeads) [] =
      started .byCodePoint 60000 "a" 5 bLeads := rfl
  have hremote : NodeRegistry.nodeB.id ≠ "a" := by decide
  have hleader : (started .byCodePoint 60000 "a" 5 bLeads).leaderId =
      some NodeRegistry.nodeB.id := by decide +kernel
  have hget : (started .byCodePoint 60000 "a" 5 bLeads).nodeRegistry.get?
      NodeRegistry.nodeB.id = some NodeRegistry.nodeB := by decide +kernel
  have hsilent : ∀ i ∈ [(60001, .healthCheck)] ++ [(120002, .heartbeatTick 0)] ++ [],
      Admitted "a" i ∧ Silent NodeRegistry.nodeB.id i := by simp [Admitted, Silent]
  have ht : NodeRegistry.nodeB.lastHeartbeat + 60000 * 2 < 120001 := by decide
  have ht' : NodeRegistry.nodeB.lastHeartbeat + 60000 * 2 < 130001 := by decide
  exact silent_leader_replaced admitted_bLeads hpast hrun hremote hleader hget hsilent ht ht'

end ClusterCoordinator

end SyncEngine
