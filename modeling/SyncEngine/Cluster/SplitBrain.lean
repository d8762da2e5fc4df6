import SyncEngine.Cluster.ClusterCoordinator
import SyncEngine.Machine.Runs

/-!
# Agreement on a leader

Several nodes, each with a coordinator of its own, over a transport that brings every message
published on the cluster channel to every node after an arbitrary delay.  A node announces itself,
waits until its own broker has handed the announcement round, and elects a leader from the nodes it
has heard of by then.  Nothing makes it wait for the others, and hearing of an older node afterwards
does not make it elect again.

All nodes that elect with the oldest node in their registry elect that node (`elected_oldest_iff`).
So they agree exactly when every election of the run is held with the oldest node registered
(`leaders_agree_iff`).

A broker hands a message to its own node as well, so a node is one of the addressees of what it
publishes.  Nodes do not stop and do not miss heartbeats here, so there are no goodbyes in flight,
and the health check finds nothing.
-/

namespace SyncEngine

open Js

/-- The nodes of a cluster, as they describe themselves when they are constructed. -/
structure Cluster where
  members : List NodeId
  node : NodeId → NodeInfo
  collator : Collator
  id_node : ∀ i, (node i).id = i
  active : ∀ i, (node i).status = .active

namespace Cluster

inductive Phase
  | created
  /-- `start()` waits for its announcement to be published. -/
  | starting
  | started
  deriving DecidableEq

structure Envelope where
  sender : NodeId
  addressee : NodeId
  message : ClusterMessage
  deriving DecidableEq

structure Network where
  coordinator : NodeId → ClusterCoordinator
  phase : NodeId → Phase
  inFlight : List Envelope

inductive Input
  /-- A node calls `start()`. -/
  | start (i : NodeId)
  /-- `start()` goes on after its await. -/
  | elect (i : NodeId)
  /-- The `k`-th message in flight arrives. -/
  | arrive (k : ℕ) (now : Timestamp)
  /-- The heartbeat timer of a node. -/
  | heartbeat (i : NodeId) (now : Timestamp) (load : ℚ)

variable (cluster : Cluster)

/-- All nodes are constructed, and none has started. -/
def init : Network := ⟨fun i => .new (cluster.node i), fun _ => .created, []⟩

/-- A node goes over to a state of its coordinator and publishes messages. -/
def act (σ : Network) (i : NodeId) (result : ClusterCoordinator × List ClusterMessage) : Network :=
  { σ with
    coordinator := Function.update σ.coordinator i result.1
    inFlight := σ.inFlight ++ result.2.flatMap fun m => cluster.members.map fun j => ⟨i, j, m⟩ }

/-- `start()` can go on: everything the node has published has been handed to itself. -/
def Resumes (σ : Network) (i : NodeId) : Prop :=
  σ.phase i = .starting ∧ ∀ e ∈ σ.inFlight, ¬ (e.sender = i ∧ e.addressee = i)

instance (σ : Network) (i : NodeId) : Decidable (Resumes σ i) := by
  unfold Resumes
  infer_instance

def step (σ : Network) : Input → Network
  | .start i =>
    if i ∈ cluster.members ∧ σ.phase i = .created then
      cluster.act { σ with phase := Function.update σ.phase i .starting } i (σ.coordinator i).start
    else σ
  | .elect i =>
    if Resumes σ i then
      cluster.act { σ with phase := Function.update σ.phase i .started } i
        ((σ.coordinator i).startElection cluster.collator, [])
    else σ
  | .arrive k now =>
    match σ.inFlight[k]? with
    | none => σ
    | some e =>
      cluster.act { σ with inFlight := σ.inFlight.eraseIdx k } e.addressee
        ((σ.coordinator e.addressee).handle cluster.collator now e.message)
  | .heartbeat i now load =>
    if σ.phase i = .created then σ else cluster.act σ i ((σ.coordinator i).sendHeartbeat now load)

/-! ## What is to be shown -/

/-- Every node has finished `start()`. -/
def Finished (σ : Network) : Prop := ∀ i ∈ cluster.members, σ.phase i = .started

/-- All nodes report the same `getLeaderId()`. -/
def Agree (σ : Network) : Prop :=
  ∀ i ∈ cluster.members, ∀ j ∈ cluster.members,
    (σ.coordinator i).leaderId = (σ.coordinator j).leaderId

/-- The node comes before every other one in the order of the election. -/
def Oldest (g : NodeId) : Prop :=
  g ∈ cluster.members ∧ ∀ i ∈ cluster.members,
    ClusterCoordinator.Before cluster.collator (cluster.node i) (cluster.node g) → i = g

/-- An election is held by a node that has heard of `g`. -/
def Heard (g : NodeId) (σ : Network) : Input → Prop
  | .elect i => Resumes σ i → (σ.coordinator i).nodeRegistry.has g = true
  | _ => True

/-! ## The invariant -/

/-- A description of a member that is true of it. -/
structure Genuine (n : NodeInfo) : Prop where
  member : n.id ∈ cluster.members
  startedAt : n.startedAt = (cluster.node n.id).startedAt
  active : n.status = .active

/-- What a coordinator knows is true. -/
structure Knows (i : NodeId) (c : ClusterCoordinator) : Prop where
  id : c.localNode.id = i
  startedAt : c.localNode.startedAt = (cluster.node i).startedAt
  active : c.localNode.status = .active
  registry : ∀ j n, c.nodeRegistry.get? j = some n → n.id = j ∧ cluster.Genuine n

/-- What is published is true. -/
def Truthful : ClusterMessage → Prop
  | .nodeAnnounce n => cluster.Genuine n
  | .nodeGoodbye _ => False
  | .heartbeat _ _ _ => True

/-- What the nodes know and publish is true, and a node that has begun to start knows itself. -/
structure Sound (σ : Network) : Prop where
  knows : ∀ i, cluster.Knows i (σ.coordinator i)
  addressee : ∀ e ∈ σ.inFlight, e.addressee ∈ cluster.members
  truthful : ∀ e ∈ σ.inFlight, cluster.Truthful e.message
  itself : ∀ i, σ.phase i ≠ .created →
    i ∈ cluster.members ∧ (σ.coordinator i).nodeRegistry.has i = true

variable {cluster} {σ : Network}

lemma Knows.genuine {i : NodeId} {c : ClusterCoordinator} (h : cluster.Knows i c)
    (hi : i ∈ cluster.members) : cluster.Genuine c.localNode :=
  ⟨h.id ▸ hi, h.id ▸ h.startedAt, h.active⟩

/-- One node acts, and what it knows and publishes is true. -/
lemma Sound.act (h : cluster.Sound σ) {i : NodeId}
    {result : ClusterCoordinator × List ClusterMessage} (hknows : cluster.Knows i result.1)
    (htruthful : ∀ m ∈ result.2, cluster.Truthful m)
    (hitself : σ.phase i ≠ .created →
      i ∈ cluster.members ∧ result.1.nodeRegistry.has i = true) :
    cluster.Sound (cluster.act σ i result) where
  knows j := by
    by_cases hj : j = i
    · subst hj
      simpa [Cluster.act] using hknows
    · simpa [Cluster.act, hj] using h.knows j
  addressee e he := by
    obtain he | he := List.mem_append.1 he
    · exact h.addressee e he
    · obtain ⟨m, -, he⟩ := List.mem_flatMap.1 he
      obtain ⟨j, hj, rfl⟩ := List.mem_map.1 he
      exact hj
  truthful e he := by
    obtain he | he := List.mem_append.1 he
    · exact h.truthful e he
    · obtain ⟨m, hm, he⟩ := List.mem_flatMap.1 he
      obtain ⟨j, -, rfl⟩ := List.mem_map.1 he
      exact htruthful m hm
  itself j hj := by
    by_cases hji : j = i
    · subst hji
      simpa [Cluster.act] using hitself hj
    · simpa [Cluster.act, hji] using h.itself j hj

lemma knows_registerNode {i : NodeId} {c : ClusterCoordinator} (h : cluster.Knows i c)
    {n : NodeInfo} (hn : cluster.Genuine n) :
    cluster.Knows i { c with nodeRegistry := NodeRegistry.registerNode c.nodeRegistry n } where
  id := h.id
  startedAt := h.startedAt
  active := h.active
  registry j m hm := by
    simp only [NodeRegistry.registerNode, Js.Map.get?_set] at hm
    split at hm
    next hj =>
      obtain rfl := Option.some.inj hm
      exact ⟨hj.symm, hn⟩
    next => exact h.registry j m hm

/-- A heartbeat leaves what an election looks at. -/
lemma knows_updateHeartbeat {i : NodeId} {c : ClusterCoordinator} (h : cluster.Knows i c)
    (now : Timestamp) (nodeId : NodeId) (load : ℚ) (connections : ℕ) :
    cluster.Knows i (c.handleHeartbeat now nodeId load connections) where
  id := h.id
  startedAt := h.startedAt
  active := h.active
  registry j m hm := by
    simp only [ClusterCoordinator.handleHeartbeat, NodeRegistry.updateHeartbeat,
      Js.Map.get?_modify] at hm
    split at hm
    next hj =>
      obtain ⟨n, hn, rfl⟩ := Option.map_eq_some_iff.1 hm
      obtain ⟨hid, hgenuine⟩ := h.registry _ n hn
      refine ⟨hid.trans hj.symm, hgenuine.member, hgenuine.startedAt, ?_⟩
      simp [NodeRegistry.heard, hgenuine.active]
    next => exact h.registry j m hm

lemma has_registerNode (r : NodeRegistry) (n : NodeInfo) (j : NodeId) :
    (NodeRegistry.registerNode r n).has j = true ↔ j = n.id ∨ r.has j = true := by
  unfold NodeRegistry.registerNode Js.Map.has
  rw [Js.Map.get?_set]
  split
  next hj => simp [hj]
  next hj => simp [hj]

lemma has_updateHeartbeat (r : NodeRegistry) (now : Timestamp) (nodeId : NodeId) (load : ℚ)
    (connections : ℕ) (j : NodeId) :
    (NodeRegistry.updateHeartbeat r now nodeId load connections).has j = r.has j := by
  unfold NodeRegistry.updateHeartbeat Js.Map.has
  rw [Js.Map.get?_modify]
  split
  next hj => rw [hj, Option.isSome_map]
  next => rfl

/-- A node acts and goes over to another phase of `start()`, and then it knows itself. -/
lemma Sound.turn (h : cluster.Sound σ) {i : NodeId} (hi : i ∈ cluster.members) (p : Phase)
    {result : ClusterCoordinator × List ClusterMessage} (hknows : cluster.Knows i result.1)
    (htruthful : ∀ m ∈ result.2, cluster.Truthful m)
    (hself : result.1.nodeRegistry.has i = true) :
    cluster.Sound (cluster.act { σ with phase := Function.update σ.phase i p } i result) := by
  have hact := h.act hknows htruthful fun _ => ⟨hi, hself⟩
  refine ⟨hact.knows, hact.addressee, hact.truthful, fun j hj => ?_⟩
  by_cases hji : j = i
  · subst hji
    exact ⟨hi, by simpa [Cluster.act] using hself⟩
  · refine hact.itself j ?_
    simpa [Cluster.act, hji] using hj

lemma Sound.start (h : cluster.Sound σ) {i : NodeId} (hi : i ∈ cluster.members) :
    cluster.Sound (cluster.act { σ with phase := Function.update σ.phase i .starting } i
      (σ.coordinator i).start) := by
  have hgenuine := (h.knows i).genuine hi
  have hself : ((σ.coordinator i).start.1).nodeRegistry.has i = true := by
    refine (has_registerNode _ _ i).2 (.inl ?_)
    exact (h.knows i).id.symm
  refine h.turn hi .starting (knows_registerNode (h.knows i) hgenuine) ?_ hself
  intro m hm
  rw [List.mem_singleton.1 hm]
  exact hgenuine

lemma Sound.elect (h : cluster.Sound σ) {i : NodeId} (hi : σ.phase i = .starting) :
    cluster.Sound (cluster.act { σ with phase := Function.update σ.phase i .started } i
      ((σ.coordinator i).startElection cluster.collator, [])) := by
  obtain ⟨hmember, hself⟩ := h.itself i (by rw [hi]; decide)
  have hknows := h.knows i
  refine h.turn hmember .started ⟨?_, ?_, ?_, ?_⟩ (by simp) (by simpa using hself)
  · simpa using hknows.id
  · simpa using hknows.startedAt
  · simpa using hknows.active
  · simpa using hknows.registry

lemma Sound.eraseIdx (h : cluster.Sound σ) (k : ℕ) :
    cluster.Sound { σ with inFlight := σ.inFlight.eraseIdx k } :=
  ⟨h.knows, fun e he => h.addressee e (List.mem_of_mem_eraseIdx he),
    fun e he => h.truthful e (List.mem_of_mem_eraseIdx he), h.itself⟩

/-- A message that is true is handed over. -/
lemma Sound.handle (h : cluster.Sound σ) {i : NodeId} (hi : i ∈ cluster.members)
    (now : Timestamp) {m : ClusterMessage} (hm : cluster.Truthful m) :
    cluster.Sound (cluster.act σ i ((σ.coordinator i).handle cluster.collator now m)) := by
  have hknows := h.knows i
  cases m with
  | nodeAnnounce n =>
    refine h.act (knows_registerNode hknows hm) ?_ fun hphase => ?_
    · intro answer hanswer
      simp only [ClusterCoordinator.handle, ClusterCoordinator.handleNodeAnnounce] at hanswer
      split at hanswer
      · rw [List.mem_singleton.1 hanswer]
        exact (knows_registerNode hknows hm).genuine hi
      · cases hanswer
    · obtain ⟨hmember, hself⟩ := h.itself i hphase
      exact ⟨hmember, (has_registerNode _ _ _).2 (.inr hself)⟩
  | nodeGoodbye nodeId => exact hm.elim
  | heartbeat nodeId load connections =>
    refine h.act (knows_updateHeartbeat hknows now nodeId load connections)
      (by simp [ClusterCoordinator.handle]) fun hphase => ?_
    obtain ⟨hmember, hself⟩ := h.itself i hphase
    exact ⟨hmember, (has_updateHeartbeat _ _ _ _ _ _).trans hself⟩

lemma Sound.heartbeat (h : cluster.Sound σ) {i : NodeId} (now : Timestamp) (load : ℚ)
    (hphase : σ.phase i ≠ .created) :
    cluster.Sound (cluster.act σ i ((σ.coordinator i).sendHeartbeat now load)) := by
  obtain ⟨hmember, hself⟩ := h.itself i hphase
  have hbeat := knows_updateHeartbeat (h.knows i) now (σ.coordinator i).localNode.id load
    (σ.coordinator i).localNode.connections
  refine h.act ⟨hbeat.id, hbeat.startedAt, hbeat.active, hbeat.registry⟩ ?_ fun _ => ?_
  · intro m hm
    rw [List.mem_singleton.1 hm]
    trivial
  · exact ⟨hmember, (has_updateHeartbeat _ _ _ _ _ _).trans hself⟩

/-- **What a step leaves true.** -/
lemma Sound.step (h : cluster.Sound σ) (inp : Input) : cluster.Sound (cluster.step σ inp) := by
  cases inp with
  | start i =>
    simp only [Cluster.step]
    split
    next hi => exact h.start hi.1
    next => exact h
  | elect i =>
    simp only [Cluster.step]
    split
    next hi => exact h.elect hi.1
    next => exact h
  | arrive k now =>
    simp only [Cluster.step]
    cases hk : σ.inFlight[k]? with
    | none => exact h
    | some e =>
      have he : e ∈ σ.inFlight := List.mem_of_getElem? hk
      exact (h.eraseIdx k).handle (h.addressee e he) now (h.truthful e he)
  | heartbeat i now load =>
    simp only [Cluster.step]
    split
    next => exact h
    next hphase => exact h.heartbeat now load hphase

lemma sound_init : cluster.Sound cluster.init where
  knows i := ⟨cluster.id_node i, rfl, cluster.active i, by simp [init, ClusterCoordinator.new]⟩
  addressee := by simp [init]
  truthful := by simp [init]
  itself i hi := absurd rfl hi

/-! ## Elections -/

/-- **A node elects the oldest node exactly when it has heard of it.** -/
lemma elected_oldest_iff {g i : NodeId} (hg : cluster.Oldest g) {c : ClusterCoordinator}
    (h : cluster.Knows i c) (hself : c.nodeRegistry.has i = true) :
    (c.startElection cluster.collator).leaderId = some g ↔ c.nodeRegistry.has g = true := by
  have hactive : ∀ n, n ∈ NodeRegistry.getActiveNodes c.nodeRegistry ↔
      c.nodeRegistry.get? n.id = some n := by
    intro n
    rw [NodeRegistry.getActiveNodes, List.mem_filter, Js.Map.mem_values_iff]
    constructor
    · rintro ⟨⟨j, hj⟩, -⟩
      rw [(h.registry j n hj).1]
      exact hj
    · intro hn
      exact ⟨⟨n.id, hn⟩, by simpa using (h.registry n.id n hn).2.active⟩
  constructor
  · intro hleader
    obtain ⟨own, hown⟩ := Option.isSome_iff_exists.1 hself
    have hmem : own ∈ NodeRegistry.getActiveNodes c.nodeRegistry := by
      rw [hactive, (h.registry i own hown).1]
      exact hown
    obtain ⟨n, hn, hid⟩ := @ClusterCoordinator.exists_leader cluster.collator c
      (List.ne_nil_of_mem hmem)
    rw [hid, Option.some.injEq] at hleader
    rw [hactive, hleader] at hn
    exact Option.isSome_iff_exists.2 ⟨n, hn⟩
  · intro hhas
    obtain ⟨first, hfirst⟩ := Option.isSome_iff_exists.1 hhas
    obtain ⟨hid, hgenuine⟩ := h.registry g first hfirst
    have hmem : first ∈ NodeRegistry.getActiveNodes c.nodeRegistry := by
      rw [hactive, hid]
      exact hfirst
    rw [ClusterCoordinator.startElection_leaderId hmem, hid]
    intro n hn hbefore
    obtain ⟨-, hn'⟩ := h.registry n.id n ((hactive n).1 hn)
    -- What the registry says of the two nodes is what the cluster says of them.
    have hcluster : ClusterCoordinator.Before cluster.collator (cluster.node n.id)
        (cluster.node g) := by
      rw [ClusterCoordinator.before_iff] at hbefore ⊢
      rw [hn'.startedAt, hgenuine.startedAt, hid] at hbefore
      rwa [cluster.id_node, cluster.id_node]
    rw [hid]
    exact hg.2 n.id hn'.member hcluster

/-- If the node has finished `start()`, it has elected `g`. -/
def Elected (g i : NodeId) (σ : Network) : Prop :=
  σ.phase i = .started → (σ.coordinator i).leaderId = some g

lemma leaderId_handle {c : ClusterCoordinator} {m : ClusterMessage} (h : cluster.Truthful m)
    (now : Timestamp) : (c.handle cluster.collator now m).1.leaderId = c.leaderId := by
  cases m with
  | nodeGoodbye nodeId => exact h.elim
  | nodeAnnounce n => rfl
  | heartbeat nodeId load connections => rfl

lemma leaderId_act {i : NodeId} {result : ClusterCoordinator × List ClusterMessage}
    (h : result.1.leaderId = (σ.coordinator i).leaderId) (j : NodeId) :
    ((cluster.act σ i result).coordinator j).leaderId = (σ.coordinator j).leaderId := by
  by_cases hj : j = i
  · subst hj
    simpa [Cluster.act] using h
  · simp [Cluster.act, hj]

/-- Where a step is no election, the nodes that have finished and their leaders stay. -/
lemma elected_congr {g i : NodeId} {τ : Network}
    (hphase : τ.phase i = .started ↔ σ.phase i = .started)
    (hleader : (τ.coordinator i).leaderId = (σ.coordinator i).leaderId) :
    Elected g i τ ↔ Elected g i σ := by
  unfold Elected
  rw [hphase, hleader]

/-- **A step leaves a node with `g` for its leader exactly when an election of the node has heard
of `g`.** -/
lemma elected_step_iff {g : NodeId} (hg : cluster.Oldest g) (h : cluster.Sound σ) (i : NodeId)
    (inp : Input) :
    Elected g i (cluster.step σ inp) ↔ Elected g i σ ∧ (inp = .elect i → Heard g σ inp) := by
  cases inp with
  | start j =>
    refine Iff.trans ?_ (and_iff_left (by simp)).symm
    simp only [Cluster.step]
    split
    next hj =>
      refine elected_congr ?_ (leaderId_act rfl i)
      by_cases hij : i = j
      · subst hij
        simp [Cluster.act, hj.2]
      · simp [Cluster.act, hij]
    next => exact Iff.rfl
  | elect j =>
    simp only [Cluster.step]
    split
    next hj =>
      by_cases hij : i = j
      · subst hij
        obtain ⟨-, hself⟩ := h.itself i (by rw [hj.1]; decide)
        have helected := elected_oldest_iff hg (h.knows i) hself
        have hold : Elected g i σ := by
          intro hphase
          rw [hj.1] at hphase
          cases hphase
        rw [and_iff_right hold]
        simp [Elected, Cluster.act, helected, Heard, hj]
      · have hne : j ≠ i := fun heq => hij heq.symm
        simp [Elected, Cluster.act, hij, hne]
    next hj =>
      refine (and_iff_left ?_).symm
      intro _ hresumes
      exact absurd hresumes hj
  | arrive k now =>
    refine Iff.trans ?_ (and_iff_left (by simp)).symm
    simp only [Cluster.step]
    cases hk : σ.inFlight[k]? with
    | none => exact Iff.rfl
    | some e =>
      have htrue := h.truthful e (List.mem_of_getElem? hk)
      exact elected_congr Iff.rfl (leaderId_act (leaderId_handle htrue now) i)
  | heartbeat j now load =>
    refine Iff.trans ?_ (and_iff_left (by simp)).symm
    simp only [Cluster.step]
    split
    next => exact Iff.rfl
    next => exact elected_congr Iff.rfl (leaderId_act rfl i)

/-- A step leaves every node with `g` for its leader exactly when its election has heard of `g`. -/
lemma all_elected_step_iff {g : NodeId} (hg : cluster.Oldest g) (h : cluster.Sound σ)
    (inp : Input) :
    (∀ i, Elected g i (cluster.step σ inp)) ↔ (∀ i, Elected g i σ) ∧ Heard g σ inp := by
  simp only [elected_step_iff hg h, forall_and]
  refine and_congr_right fun _ => ⟨fun hall => ?_, fun hheard i _ => hheard⟩
  cases inp with
  | elect i => exact hall i rfl
  | _ => trivial

/-! ## Whole runs -/

lemma sound_run (inputs : List Input) :
    cluster.Sound (Machine.run cluster.step cluster.init inputs) :=
  Machine.always (fun _ inp h => h.step inp) inputs sound_init

/-- The oldest node elects itself. -/
lemma elected_self {g : NodeId} (hg : cluster.Oldest g) (inputs : List Input) :
    Elected g g (Machine.run cluster.step cluster.init inputs) := by
  have hrun : cluster.Sound (Machine.run cluster.step cluster.init inputs) ∧
      Elected g g (Machine.run cluster.step cluster.init inputs) := by
    apply @Machine.always _ _ _ fun σ => cluster.Sound σ ∧ Elected g g σ
    · rintro σ inp ⟨hsound, hself⟩
      refine ⟨hsound.step inp, (elected_step_iff hg hsound g inp).2 ⟨hself, ?_⟩⟩
      rintro rfl hresumes
      exact (hsound.itself g (by rw [hresumes.1]; decide)).2
    · exact ⟨sound_init, fun hphase => by cases hphase⟩
  exact hrun.2

/-- **When there is one leader.**  In every run, in a state in which all nodes have finished
`start()`, all of them report the same leader if and only if every election of the run was held by
a node that had heard of the oldest node. -/
theorem leaders_agree_iff (cluster : Cluster) {g : NodeId} (hg : cluster.Oldest g)
    (inputs : List Input)
    (hfinished : cluster.Finished (Machine.run cluster.step cluster.init inputs)) :
    cluster.Agree (Machine.run cluster.step cluster.init inputs) ↔
      Machine.Along cluster.step (Heard g) cluster.init inputs := by
  have hinit : ∀ i, Elected g i cluster.init := fun i hphase => by cases hphase
  have halong := @Machine.iff_along _ _ cluster.step (Heard g) cluster.Sound
    (fun σ => ∀ i, Elected g i σ) (fun _ inp h => h.step inp)
    (fun _ inp h => all_elected_step_iff hg h inp) cluster.init inputs sound_init
  rw [and_iff_right hinit] at halong
  rw [← halong]
  constructor
  · intro hagree i hphase
    have hmember := ((sound_run inputs).itself i (by rw [hphase]; decide)).1
    rw [hagree i hmember g hg.1]
    exact elected_self hg inputs (hfinished g hg.1)
  · intro hall i hi j hj
    rw [hall i (hfinished i hi), hall j (hfinished j hj)]

/-- Three nodes, of which `c` is the oldest and `a` the youngest. -/
def three : Cluster where
  members := ["a", "b", "c"]
  node i := ⟨i, .active, 0, 0, if i = "a" then 3 else if i = "b" then 2 else 1, 0⟩
  collator := .byCodePoint
  id_node _ := rfl
  active _ := rfl

lemma oldest_three : three.Oldest "c" := by
  refine ⟨by decide, fun i hi hbefore => ?_⟩
  simp only [three, List.mem_cons, List.not_mem_nil, or_false] at hi
  rw [ClusterCoordinator.before_iff] at hbefore
  obtain rfl | rfl | rfl := hi
  · simp [three] at hbefore
  · simp [three] at hbefore
  · rfl

/-- All nodes start, and every message arrives before the elections. -/
def patient : List Input :=
  [.start "a", .start "b", .start "c", .arrive 0 1, .arrive 0 1, .arrive 0 1, .arrive 0 1,
    .arrive 0 1, .arrive 0 1, .arrive 0 1, .arrive 0 1, .arrive 0 1, .elect "a", .elect "b",
    .elect "c"]

theorem leaders_agree_patient :
    three.Agree (Machine.run three.step three.init patient) := by
  have hfinished : three.Finished (Machine.run three.step three.init patient) := by
    unfold Finished
    decide
  refine (leaders_agree_iff three oldest_three patient hfinished).2 ?_
  simp only [patient, Machine.Along, Heard]
  decide

/-- All nodes start.  `a` elects when it has heard of `b` only, `b` and `c` when they have heard of
everybody. -/
def hasty : List Input :=
  [.start "a", .start "b", .start "c", .arrive 0 1, .arrive 2 1, .elect "a", .arrive 0 1,
    .arrive 1 1, .arrive 3 1, .elect "b", .arrive 0 1, .arrive 0 1, .arrive 1 1, .elect "c",
    .arrive 0 1]

/-- Nothing is in flight, all have finished `start()`, and two of them report different leaders. -/
theorem leaders_differ_hasty :
    three.Finished (Machine.run three.step three.init hasty) ∧
      (Machine.run three.step three.init hasty).inFlight = [] ∧
      ¬ three.Agree (Machine.run three.step three.init hasty) := by
  unfold Finished Agree
  decide

end Cluster

end SyncEngine
