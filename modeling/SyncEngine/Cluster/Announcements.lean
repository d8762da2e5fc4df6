import SyncEngine.Cluster.ClusterCoordinator
import SyncEngine.Core.DeliveryOrder

/-!
# Announcements that answer announcements

Several coordinators on one broker.  A leader answers every announcement with its own, on the
channel it is subscribed to, and the broker hands the answer to the leader as well, which answers
it.  A `Room` is the broker's process with a coordinator behind every subscription of the cluster
channel; nothing else runs, so a room takes its steps by itself.  Promises settle in the order in
which they were awaited, since the listener of a coordinator returns none of its own.

`Settles` says that the handlers are called only finitely often.  Where no subscribed coordinator is
the leader, there is one call for each of them (`settles_of_no_leader`).  Where one is, there is
always either an announcement that has not reached it, or an answer of it that is not yet published:
`Alive`, and between two calls of handlers only so much work is to be done (`unsettled_of_leader`).
The call stack is taken to be unbounded.
-/

namespace SyncEngine

open Js

/-- `clusterChannel` -/
def clusterChannel : ChannelId := "cluster:coordination"

def ClusterMessage.type : ClusterMessage → MessageType
  | .nodeAnnounce _ => .nodeAnnounce
  | .nodeGoodbye _ => .nodeGoodbye
  | .heartbeat _ _ _ => .heartbeat

structure Room where
  process : Process ClusterMessage
  /-- the coordinator behind a subscription -/
  coordinator : ℕ → ClusterCoordinator
  /-- what the handlers that are running have yet to publish, the innermost first -/
  toPublish : List (List ClusterMessage)

namespace Room

variable (collator : Collator) (now : Timestamp)

/-- `this.broker.publish(this.clusterChannel, …)` -/
def publish (σ : Process ClusterMessage) (m : ClusterMessage) : Process ClusterMessage :=
  σ.publish clusterChannel m.type m none now

/-- Where the broker is running, it takes its next turn, and if it calls a handler, the coordinator
handles the message.  Where a handler is running, it publishes what it has to, or returns.  With
nothing on the stack, the promise that was awaited first settles. -/
def step (σ : Room) : Room :=
  if σ.process.idle then
    match σ.process.stack, σ.toPublish with
    | [], _ => { σ with process := σ.process.settled 0 false }
    | _ :: _, (m :: ms) :: rest =>
      { σ with process := publish now σ.process m, toPublish := ms :: rest }
    | _ :: _, [] :: rest => { σ with process := σ.process.returned false, toPublish := rest }
    | _ :: _, [] => σ
  else
    let process := σ.process.advance now
    match process.handed.drop σ.process.handed.length with
    | [] => { σ with process := process }
    | (id, message) :: _ =>
      let (c, out) := (σ.coordinator id).handle collator now message.payload
      { process := process
        coordinator := Function.update σ.coordinator id c
        toPublish := out :: σ.toPublish }

/-- Somebody publishes the announcement of a node. -/
def announce (σ : Room) (node : NodeInfo) : Room :=
  { σ with process := publish now σ.process (.nodeAnnounce node) }

/-- The number of calls of handlers so far. -/
def calls (σ : Room) : ℕ := σ.process.handed.length

/-- Handlers are called only finitely often. -/
def Settles (σ : Room) : Prop := ∃ N, ∀ n, calls ((step collator now)^[n] σ) ≤ N

/-- Subscriptions of coordinators: at least one, in the order they were made in, without filters. -/
structure Audience (set : ChannelSubs ClusterMessage) : Prop where
  subscribed : set.subs ≠ []
  sorted : set.subs.Pairwise fun s s' => s.id < s'.id
  unfiltered : ∀ s ∈ set.subs, s.filter = none

/-- Nothing is going on, and the subscriptions of the cluster channel are `set`. -/
structure Ready (set : ChannelSubs ClusterMessage) (σ : Room) : Prop where
  audience : Audience set
  channels : σ.process.broker.channels.get? clusterChannel = some set
  stack : σ.process.stack = []
  suspended : σ.process.suspended = []
  toPublish : σ.toPublish = []

/-! ## The cascade -/

/-- A handler has been called from the frame. -/
def handling : Frame ClusterMessage → Bool
  | .delivery d => d.handling.isSome
  | .broadcast _ _ _ => false

/-- An announcement on its way through the subscriptions. -/
structure OnItsWay (set : ChannelSubs ClusterMessage) (d : Delivery ClusterMessage) : Prop where
  mode : d.mode = .publish
  channel : d.message.channel = clusterChannel
  payload : ∃ node, d.message.payload = .nodeAnnounce node
  set_eq : d.set = some set.id

/-- What goes on are announcements, and every handler that has been called is running or has
returned. -/
structure Cascade (leads : ℕ → Bool) (set : ChannelSubs ClusterMessage) (σ : Room) : Prop where
  channels : σ.process.broker.channels.get? clusterChannel = some set
  stack : ∀ f ∈ σ.process.stack, ∃ d, f = .delivery d ∧ OnItsWay set d
  suspended : ∀ d ∈ σ.process.suspended, OnItsWay set d ∧ d.handling = none
  outer : ∀ f ∈ σ.process.stack.tail, handling f = true
  running : σ.toPublish.length = (σ.process.stack.filter handling).length
  announcements : ∀ ms ∈ σ.toPublish, ∀ m ∈ ms, ∃ node, m = .nodeAnnounce node
  leaders : ∀ id, (σ.coordinator id).isLeader = leads id

variable {collator now} {leads : ℕ → Bool} {set : ChannelSubs ClusterMessage} {σ : Room}

/-! ### One step -/

lemma step_quiet (hstack : σ.process.stack = []) (hsuspended : σ.process.suspended = []) :
    step collator now σ = σ := by
  simp [step, Process.idle, Process.settled, hstack, hsuspended]

lemma step_resume {d : Delivery ClusterMessage} {ds : List (Delivery ClusterMessage)}
    (hstack : σ.process.stack = []) (hsuspended : σ.process.suspended = d :: ds) :
    step collator now σ = { σ with
      process := { σ.process with
        broker := σ.process.broker.deliver d.message.channel d.set
        stack := [.delivery d]
        suspended := ds } } := by
  simp [step, Process.idle, Process.settled, hstack, hsuspended]

lemma step_publish {d : Delivery ClusterMessage} {rest : List (Frame ClusterMessage)}
    {m : ClusterMessage} {ms : List ClusterMessage} {more : List (List ClusterMessage)}
    (hstack : σ.process.stack = .delivery d :: rest) (hd : d.handling.isSome = true)
    (hto : σ.toPublish = (m :: ms) :: more) :
    step collator now σ = { σ with
      process := publish now σ.process m
      toPublish := ms :: more } := by
  simp [step, Process.idle, hstack, hd, hto]

lemma step_return {d : Delivery ClusterMessage} {rest : List (Frame ClusterMessage)}
    {more : List (List ClusterMessage)} (hstack : σ.process.stack = .delivery d :: rest)
    (hd : d.handling.isSome = true) (hmode : d.mode = .publish) (hto : σ.toPublish = [] :: more) :
    step collator now σ = { σ with
      process := { σ.process with
        stack := rest
        suspended := σ.process.suspended ++ [{ d with handling := none }] }
      toPublish := more } := by
  simp [step, Process.idle, Process.returned, hstack, hd, hto, hmode]

lemma step_finish {d : Delivery ClusterMessage} {rest : List (Frame ClusterMessage)}
    (hstack : σ.process.stack = .delivery d :: rest) (hd : d.handling = none)
    (hnext : Process.nextSub σ.process.broker d = none) :
    step collator now σ = { σ with process := { σ.process with stack := rest } } := by
  simp [step, Process.idle, Process.advance, Process.turn, hstack, hd, hnext]

lemma step_hand {d : Delivery ClusterMessage} {rest : List (Frame ClusterMessage)}
    {s : Subscription ClusterMessage} (hstack : σ.process.stack = .delivery d :: rest)
    (hd : d.handling = none) (hnext : Process.nextSub σ.process.broker d = some s)
    (hfilter : s.filter = none) :
    step collator now σ =
      { process := { σ.process with
          handed := σ.process.handed ++ [(s.id, d.message)]
          stack := .delivery { d with cursor := s.id + 1, handling := some s.id } :: rest }
        coordinator := Function.update σ.coordinator s.id
          ((σ.coordinator s.id).handle collator now d.message.payload).1
        toPublish :=
          ((σ.coordinator s.id).handle collator now d.message.payload).2 :: σ.toPublish } := by
  simp [step, Process.idle, Process.advance, Process.turn, hstack, hd, hnext,
    Subscription.accepts, hfilter]

/-- What `publish` leaves, where the channel has subscriptions. -/
lemma publish_eq (now : Timestamp) (h : σ.process.broker.channels.get? clusterChannel = some set)
    (hsubs : set.subs ≠ []) (m : ClusterMessage) :
    ∃ message : SyncMessage ClusterMessage, message.channel = clusterChannel ∧
      message.payload = m ∧ publish now σ.process m =
        (σ.process.accept message).push (.delivery ⟨.publish, message, some set.id, 0, none⟩) := by
  refine ⟨σ.process.broker.nextMessage σ.process.drawn clusterChannel m.type m none now, rfl, rfl,
    ?_⟩
  have hget : (σ.process.accept (σ.process.broker.nextMessage σ.process.drawn clusterChannel
      m.type m none now)).broker.channels.get? clusterChannel = some set := h
  have hlength : set.subs.length ≠ 0 := by simpa using hsubs
  simp only [publish, Process.publish, hget, if_neg hlength]

/-- What a step of a cascade can be. -/
inductive Move (collator : Collator) (now : Timestamp) (set : ChannelSubs ClusterMessage)
    (σ : Room) : Prop
  | quiet (hstack : σ.process.stack = []) (hsuspended : σ.process.suspended = [])
      (hstep : step collator now σ = σ)
  | resume (d : Delivery ClusterMessage) (ds : List (Delivery ClusterMessage))
      (hstack : σ.process.stack = []) (hsuspended : σ.process.suspended = d :: ds)
      (hstep : step collator now σ = { σ with
        process := { σ.process with
          broker := σ.process.broker.deliver d.message.channel d.set
          stack := [.delivery d]
          suspended := ds } })
  | publish (d : Delivery ClusterMessage) (rest : List (Frame ClusterMessage)) (m : ClusterMessage)
      (ms : List ClusterMessage) (more : List (List ClusterMessage))
      (message : SyncMessage ClusterMessage) (hstack : σ.process.stack = .delivery d :: rest)
      (hhandling : d.handling.isSome = true) (hto : σ.toPublish = (m :: ms) :: more)
      (hchannel : message.channel = clusterChannel) (hpayload : message.payload = m)
      (hstep : step collator now σ = { σ with
        process := (σ.process.accept message).push
          (.delivery ⟨.publish, message, some set.id, 0, none⟩)
        toPublish := ms :: more })
  | comeBack (d : Delivery ClusterMessage) (rest : List (Frame ClusterMessage))
      (more : List (List ClusterMessage)) (hstack : σ.process.stack = .delivery d :: rest)
      (hhandling : d.handling.isSome = true) (hto : σ.toPublish = [] :: more)
      (hstep : step collator now σ = { σ with
        process := { σ.process with
          stack := rest
          suspended := σ.process.suspended ++ [{ d with handling := none }] }
        toPublish := more })
  | finish (d : Delivery ClusterMessage) (rest : List (Frame ClusterMessage))
      (hstack : σ.process.stack = .delivery d :: rest) (hhandling : d.handling = none)
      (hnext : ∀ s ∈ set.subs, s.id < d.cursor)
      (hstep : step collator now σ = { σ with process := { σ.process with stack := rest } })
  | hand (d : Delivery ClusterMessage) (rest : List (Frame ClusterMessage))
      (s : Subscription ClusterMessage) (node : NodeInfo)
      (hstack : σ.process.stack = .delivery d :: rest) (hhandling : d.handling = none)
      (hpayload : d.message.payload = .nodeAnnounce node) (hs : s ∈ set.subs)
      (hcursor : d.cursor ≤ s.id) (hfirst : ∀ s' ∈ set.subs, d.cursor ≤ s'.id → s.id ≤ s'.id)
      (hstep : step collator now σ =
        { process := { σ.process with
            handed := σ.process.handed ++ [(s.id, d.message)]
            stack := .delivery { d with cursor := s.id + 1, handling := some s.id } :: rest }
          coordinator := Function.update σ.coordinator s.id
            ((σ.coordinator s.id).handleNodeAnnounce node).1
          toPublish := ((σ.coordinator s.id).handleNodeAnnounce node).2 :: σ.toPublish })

/-- The loop is at the first subscription that is ahead of it. -/
lemma nextSub_cases (h : Cascade leads set σ) (haudience : Audience set)
    {d : Delivery ClusterMessage} (hd : OnItsWay set d) :
    (Process.nextSub σ.process.broker d = none ∧ ∀ s ∈ set.subs, s.id < d.cursor) ∨
      ∃ s ∈ set.subs, Process.nextSub σ.process.broker d = some s ∧ d.cursor ≤ s.id ∧
        ∀ s' ∈ set.subs, d.cursor ≤ s'.id → s.id ≤ s'.id := by
  have hnext : Process.nextSub σ.process.broker d =
      set.subs.find? fun s => d.cursor ≤ s.id := by
    rw [Process.nextSub, hd.channel, h.channels]
    simp only [hd.set_eq, if_true]
  rw [hnext]
  cases hfind : set.subs.find? fun s => d.cursor ≤ s.id with
  | none =>
    refine .inl ⟨rfl, fun s hs => ?_⟩
    have hnot := List.find?_eq_none.1 hfind s hs
    simpa using hnot
  | some s =>
    obtain ⟨hle, before, after, hsubs, hbefore⟩ := List.find?_eq_some_iff_append.1 hfind
    refine .inr ⟨s, List.mem_of_find?_eq_some hfind, rfl, by simpa using hle, fun s' hs' hle' => ?_⟩
    have hsorted := haudience.sorted
    rw [hsubs] at hs' hsorted
    obtain hs' | hs' := List.mem_append.1 hs'
    · have hnot := hbefore s' hs'
      simp only [Bool.not_eq_true', decide_eq_false_iff_not] at hnot
      exact absurd hle' hnot
    · obtain rfl | hs' := List.mem_cons.1 hs'
      · exact le_rfl
      · exact ((List.pairwise_cons.1 (List.pairwise_append.1 hsorted).2.1).1 s' hs').le

lemma Cascade.move (h : Cascade leads set σ) (collator : Collator) (now : Timestamp)
    (haudience : Audience set) :
    Move collator now set σ := by
  match hstack : σ.process.stack with
  | [] =>
    match hsuspended : σ.process.suspended with
    | [] => exact .quiet hstack hsuspended (step_quiet hstack hsuspended)
    | d :: ds => exact .resume d ds hstack hsuspended (step_resume hstack hsuspended)
  | f :: rest =>
    obtain ⟨d, rfl, hd⟩ := h.stack f (by rw [hstack]; exact List.mem_cons_self)
    cases hhandling : d.handling with
    | some id =>
      have hsome : d.handling.isSome = true := by rw [hhandling]; rfl
      have hhandler : handling (.delivery d) = true := hsome
      have hrunning := h.running
      rw [hstack, List.filter_cons_of_pos hhandler] at hrunning
      match hto : σ.toPublish with
      | [] =>
        rw [hto] at hrunning
        simp at hrunning
      | [] :: more =>
        exact .comeBack d rest more hstack hsome hto (step_return hstack hsome hd.mode hto)
      | (m :: ms) :: more =>
        obtain ⟨message, hchannel, hpayload, hpublish⟩ :=
          publish_eq now h.channels haudience.subscribed m
        refine .publish d rest m ms more message hstack hsome hto hchannel hpayload ?_
        rw [step_publish hstack hsome hto, hpublish]
    | none =>
      obtain ⟨hnext, hnone⟩ | ⟨s, hs, hnext, hcursor, hfirst⟩ := nextSub_cases h haudience hd
      · exact .finish d rest hstack hhandling hnone (step_finish hstack hhandling hnext)
      · obtain ⟨node, hnode⟩ := hd.payload
        refine .hand d rest s node hstack hhandling hnode hs hcursor hfirst ?_
        rw [step_hand hstack hhandling hnext (haudience.unfiltered s hs), hnode]
        rfl

/-- The delivery on top of the stack is on its way. -/
lemma Cascade.top (h : Cascade leads set σ) {d : Delivery ClusterMessage}
    {rest : List (Frame ClusterMessage)} (hstack : σ.process.stack = .delivery d :: rest) :
    OnItsWay set d := by
  obtain ⟨d₀, heq, hd⟩ := h.stack (.delivery d) (by rw [hstack]; exact List.mem_cons_self)
  obtain rfl : d = d₀ := by simpa using heq
  exact hd

/-- What is below the top of the stack is on its way. -/
lemma Cascade.below (h : Cascade leads set σ) {f : Frame ClusterMessage}
    {rest : List (Frame ClusterMessage)} (hstack : σ.process.stack = f :: rest) :
    ∀ g ∈ rest, ∃ d, g = .delivery d ∧ OnItsWay set d := by
  intro g hg
  apply h.stack
  rw [hstack]
  exact List.mem_cons_of_mem _ hg

/-- Below the top of the stack, every frame has called a handler. -/
lemma Cascade.called (h : Cascade leads set σ) {f : Frame ClusterMessage}
    {rest : List (Frame ClusterMessage)} (hstack : σ.process.stack = f :: rest) :
    ∀ g ∈ rest, handling g = true := by
  intro g hg
  apply h.outer
  rw [hstack]
  exact hg

/-- With no handler called by the top of the stack, those below are the ones that run. -/
lemma Cascade.running_below (h : Cascade leads set σ) {d : Delivery ClusterMessage}
    {rest : List (Frame ClusterMessage)} (hstack : σ.process.stack = .delivery d :: rest)
    (hhandling : d.handling = none) : σ.toPublish.length = (rest.filter handling).length := by
  have hrunning := h.running
  rwa [hstack, List.filter_cons_of_neg (by simp [handling, hhandling])] at hrunning

/-- The promise that was awaited first settles. -/
lemma Cascade.resume (h : Cascade leads set σ) {d : Delivery ClusterMessage}
    {ds : List (Delivery ClusterMessage)} (hstack : σ.process.stack = [])
    (hsuspended : σ.process.suspended = d :: ds) :
    Cascade leads set { σ with
      process := { σ.process with
        broker := σ.process.broker.deliver d.message.channel d.set
        stack := [.delivery d]
        suspended := ds } } := by
  obtain ⟨hd, hnone⟩ := h.suspended d (by rw [hsuspended]; exact List.mem_cons_self)
  have hrunning := h.running
  rw [hstack] at hrunning
  refine ⟨?_, ?_, ?_, by simp, ?_, h.announcements, h.leaders⟩
  · change (σ.process.broker.deliver d.message.channel d.set).channels.get? clusterChannel = _
    rw [MessageBroker.deliver, MessageBroker.channels_count]
    exact h.channels
  · intro f hf
    exact ⟨d, List.mem_singleton.1 hf, hd⟩
  · intro e he
    apply h.suspended
    rw [hsuspended]
    exact List.mem_cons_of_mem _ he
  · simpa [handling, hnone] using hrunning

/-- A handler that runs publishes an announcement. -/
lemma Cascade.publish (h : Cascade leads set σ) {d : Delivery ClusterMessage}
    {rest : List (Frame ClusterMessage)} {m : ClusterMessage} {ms : List ClusterMessage}
    {more : List (List ClusterMessage)} {message : SyncMessage ClusterMessage}
    (hstack : σ.process.stack = .delivery d :: rest) (hhandling : d.handling.isSome = true)
    (hto : σ.toPublish = (m :: ms) :: more) (hchannel : message.channel = clusterChannel)
    (hpayload : message.payload = m) :
    Cascade leads set { σ with
      process := (σ.process.accept message).push
        (.delivery ⟨.publish, message, some set.id, 0, none⟩)
      toPublish := ms :: more } := by
  obtain ⟨node, hnode⟩ := h.announcements _ (by rw [hto]; exact List.mem_cons_self) m
    List.mem_cons_self
  have hrunning := h.running
  rw [hto] at hrunning
  refine ⟨h.channels, ?_, h.suspended, ?_, hrunning, ?_, h.leaders⟩
  · intro f hf
    obtain rfl | hf := List.mem_cons.1 hf
    · exact ⟨_, rfl, rfl, hchannel, ⟨node, hpayload.trans hnode⟩, rfl⟩
    · exact h.stack f hf
  · intro f hf
    change f ∈ σ.process.stack at hf
    rw [hstack] at hf
    obtain rfl | hf := List.mem_cons.1 hf
    · exact hhandling
    · exact h.called hstack f hf
  · intro ms' hms' m' hm'
    obtain rfl | hms' := List.mem_cons.1 hms'
    · exact h.announcements (m :: ms') (by rw [hto]; exact List.mem_cons_self) m'
        (List.mem_cons_of_mem _ hm')
    · exact h.announcements ms' (by rw [hto]; exact List.mem_cons_of_mem _ hms') m' hm'

/-- A handler that has nothing more to publish returns, and its delivery is suspended. -/
lemma Cascade.comeBack (h : Cascade leads set σ) {d : Delivery ClusterMessage}
    {rest : List (Frame ClusterMessage)} {more : List (List ClusterMessage)}
    (hstack : σ.process.stack = .delivery d :: rest) (hhandling : d.handling.isSome = true)
    (hto : σ.toPublish = [] :: more) :
    Cascade leads set { σ with
      process := { σ.process with
        stack := rest
        suspended := σ.process.suspended ++ [{ d with handling := none }] }
      toPublish := more } := by
  have hd := h.top hstack
  have hhandler : handling (.delivery d) = true := hhandling
  have hrunning := h.running
  rw [hstack, hto, List.filter_cons_of_pos hhandler] at hrunning
  refine ⟨h.channels, h.below hstack, ?_, ?_, ?_, ?_, h.leaders⟩
  · intro e he
    obtain he | he := List.mem_append.1 he
    · exact h.suspended e he
    · rw [List.mem_singleton.1 he]
      exact ⟨⟨hd.mode, hd.channel, hd.payload, hd.set_eq⟩, rfl⟩
  · exact fun f hf => h.called hstack f (List.mem_of_mem_tail hf)
  · simpa using hrunning
  · exact fun ms hms => h.announcements ms (by rw [hto]; exact List.mem_cons_of_mem _ hms)

/-- A loop ends. -/
lemma Cascade.finish (h : Cascade leads set σ) {d : Delivery ClusterMessage}
    {rest : List (Frame ClusterMessage)} (hstack : σ.process.stack = .delivery d :: rest)
    (hhandling : d.handling = none) :
    Cascade leads set { σ with process := { σ.process with stack := rest } } :=
  ⟨h.channels, h.below hstack, h.suspended,
    fun f hf => h.called hstack f (List.mem_of_mem_tail hf), h.running_below hstack hhandling,
    h.announcements, h.leaders⟩

/-- A loop hands the announcement over, and a leader has an answer to publish. -/
lemma Cascade.hand (h : Cascade leads set σ) {d : Delivery ClusterMessage}
    {rest : List (Frame ClusterMessage)} (hstack : σ.process.stack = .delivery d :: rest)
    (hhandling : d.handling = none) (s : Subscription ClusterMessage) (node : NodeInfo) :
    Cascade leads set
      { process := { σ.process with
          handed := σ.process.handed ++ [(s.id, d.message)]
          stack := .delivery { d with cursor := s.id + 1, handling := some s.id } :: rest }
        coordinator := Function.update σ.coordinator s.id
          ((σ.coordinator s.id).handleNodeAnnounce node).1
        toPublish := ((σ.coordinator s.id).handleNodeAnnounce node).2 :: σ.toPublish } := by
  have hd := h.top hstack
  have hrunning := h.running_below hstack hhandling
  refine ⟨h.channels, ?_, h.suspended, h.called hstack, ?_, ?_, ?_⟩
  · intro f hf
    obtain rfl | hf := List.mem_cons.1 hf
    · exact ⟨_, rfl, hd.mode, hd.channel, hd.payload, hd.set_eq⟩
    · exact h.below hstack f hf
  · change (_ :: σ.toPublish).length = (_ : List (Frame ClusterMessage)).length
    rw [List.filter_cons_of_pos (by simp [handling]), List.length_cons, List.length_cons,
      hrunning]
  · intro ms hms m hm
    obtain rfl | hms := List.mem_cons.1 hms
    · rw [ClusterCoordinator.handleNodeAnnounce_snd] at hm
      split at hm
      · exact ⟨_, List.mem_singleton.1 hm⟩
      · cases hm
    · exact h.announcements ms hms m hm
  · intro id
    dsimp only
    by_cases hid : id = s.id
    · rw [hid, Function.update_self, ClusterCoordinator.isLeader_handleNodeAnnounce]
      exact h.leaders s.id
    · rw [Function.update_of_ne hid]
      exact h.leaders id

/-- A cascade goes on as a cascade. -/
lemma Cascade.step (h : Cascade leads set σ) (haudience : Audience set) :
    Cascade leads set (step collator now σ) := by
  cases h.move collator now haudience with
  | quiet hstack hsuspended hstep =>
    rw [hstep]
    exact h
  | resume d ds hstack hsuspended hstep =>
    rw [hstep]
    exact h.resume hstack hsuspended
  | publish d rest m ms more message hstack hhandling hto hchannel hpayload hstep =>
    rw [hstep]
    exact h.publish hstack hhandling hto hchannel hpayload
  | comeBack d rest more hstack hhandling hto hstep =>
    rw [hstep]
    exact h.comeBack hstack hhandling hto
  | finish d rest hstack hhandling hnext hstep =>
    rw [hstep]
    exact h.finish hstack hhandling
  | hand d rest s node hstack hhandling hpayload hs hcursor hfirst hstep =>
    rw [hstep]
    exact h.hand hstack hhandling s node

/-- An announcement begins a cascade. -/
lemma cascade_announce (now : Timestamp) (h : Ready set σ) (node : NodeInfo) :
    Cascade (fun id => (σ.coordinator id).isLeader) set (announce now σ node) ∧
      ∃ message : SyncMessage ClusterMessage, (announce now σ node).process.pending =
        [⟨.publish, message, some set.id, 0, none⟩] := by
  obtain ⟨message, hchannel, hpayload, hpublish⟩ :=
    publish_eq now h.channels h.audience.subscribed (.nodeAnnounce node)
  have hannounce : announce now σ node = { σ with
      process := (σ.process.accept message).push
        (.delivery ⟨.publish, message, some set.id, 0, none⟩) } := by
    rw [announce, hpublish]
  rw [hannounce]
  have hstack : (σ.process.accept message).stack = [] := h.stack
  have hsuspended : (σ.process.accept message).suspended = [] := h.suspended
  constructor
  · refine ⟨h.channels, ?_, ?_, ?_, ?_, ?_, fun _ => rfl⟩
    · intro f hf
      simp only [Process.push, hstack, List.mem_singleton] at hf
      exact ⟨_, hf, rfl, hchannel, ⟨node, hpayload⟩, rfl⟩
    · simp [Process.push, hsuspended]
    · simp [Process.push, hstack]
    · simp [Process.push, hstack, h.toPublish, handling]
    · simp [h.toPublish]
  · refine ⟨message, ?_⟩
    simp [Process.pending, Process.push, hstack, hsuspended, Frame.delivery?]

/-! ## Nobody leads -/

/-- The subscriptions that a loop has ahead of it. -/
def ahead (set : ChannelSubs ClusterMessage) (d : Delivery ClusterMessage) : ℕ :=
  set.subs.countP fun s => d.cursor ≤ s.id

/-- The calls there have been, and the calls that are ahead. -/
def potential (set : ChannelSubs ClusterMessage) (σ : Room) : ℕ :=
  calls σ + (σ.process.pending.map (ahead set)).sum

/-- A cascade in which nobody has anything to publish. -/
def Calm (set : ChannelSubs ClusterMessage) (σ : Room) : Prop :=
  (∃ leads, Cascade leads set σ ∧ ∀ s ∈ set.subs, leads s.id = false) ∧
    ∀ ms ∈ σ.toPublish, ms = []

lemma Calm.step (h : Calm set σ) (haudience : Audience set) :
    Calm set (Room.step collator now σ) := by
  obtain ⟨⟨leads, hcascade, hleads⟩, hto⟩ := h
  refine ⟨⟨leads, hcascade.step haudience, hleads⟩, ?_⟩
  cases hcascade.move collator now haudience with
  | quiet hstack hsuspended hstep =>
    rw [hstep]
    exact hto
  | resume d ds hstack hsuspended hstep =>
    rw [hstep]
    exact hto
  | publish d rest m ms more message hstack hhandling htop hchannel hpayload hstep =>
    have hnil := hto (m :: ms) (by rw [htop]; exact List.mem_cons_self)
    cases hnil
  | comeBack d rest more hstack hhandling htop hstep =>
    rw [hstep]
    exact fun ms hms => hto ms (by rw [htop]; exact List.mem_cons_of_mem _ hms)
  | finish d rest hstack hhandling hnext hstep =>
    rw [hstep]
    exact hto
  | hand d rest s node hstack hhandling hpayload hs hcursor hfirst hstep =>
    rw [hstep]
    intro ms hms
    obtain rfl | hms := List.mem_cons.1 hms
    · rw [ClusterCoordinator.handleNodeAnnounce_snd, hcascade.leaders, hleads s hs]
      rfl
    · exact hto ms hms

/-- Handing a message over takes one subscription off what is ahead. -/
lemma ahead_hand {d : Delivery ClusterMessage} {s : Subscription ClusterMessage}
    (hs : s ∈ set.subs) (hcursor : d.cursor ≤ s.id) :
    ahead set { d with cursor := s.id + 1, handling := some s.id } + 1 ≤ ahead set d := by
  unfold ahead
  have hdisjoint : set.subs.countP (fun s' => decide (s.id + 1 ≤ s'.id)) +
      set.subs.countP (fun s' => decide (s'.id = s.id)) ≤
        set.subs.countP fun s' => decide (d.cursor ≤ s'.id) := by
    induction set.subs with
    | nil => simp
    | cons t subs ih =>
      simp only [List.countP_cons, decide_eq_true_eq]
      split <;> split <;> split <;> omega
  have hone : 0 < set.subs.countP fun s' => decide (s'.id = s.id) :=
    List.countP_pos_iff.2 ⟨s, hs, by simp⟩
  dsimp only
  omega

lemma potential_step (h : Calm set σ) (haudience : Audience set) :
    potential set (Room.step collator now σ) ≤ potential set σ := by
  obtain ⟨⟨leads, hcascade, hleads⟩, hto⟩ := h
  cases hcascade.move collator now haudience with
  | quiet hstack hsuspended hstep => rw [hstep]
  | resume d ds hstack hsuspended hstep =>
    rw [hstep]
    simp [potential, calls, Process.pending, hstack, hsuspended, Frame.delivery?]
  | publish d rest m ms more message hstack hhandling htop hchannel hpayload hstep =>
    have hnil := hto (m :: ms) (by rw [htop]; exact List.mem_cons_self)
    cases hnil
  | comeBack d rest more hstack hhandling htop hstep =>
    rw [hstep]
    simp only [potential, calls, Process.pending, hstack, List.filterMap_cons, Frame.delivery?,
      List.map_append, List.sum_append, List.map_cons, List.sum_cons, List.map_nil, List.sum_nil,
      ahead]
    omega
  | finish d rest hstack hhandling hnext hstep =>
    rw [hstep]
    simp only [potential, calls, Process.pending, hstack, List.filterMap_cons, Frame.delivery?,
      List.map_append, List.sum_append, List.map_cons, List.sum_cons]
    omega
  | hand d rest s node hstack hhandling hpayload hs hcursor hfirst hstep =>
    rw [hstep]
    have hless := ahead_hand hs hcursor
    simp only [potential, calls, Process.pending, hstack, List.filterMap_cons, Frame.delivery?,
      List.map_append, List.sum_append, List.map_cons, List.sum_cons, List.length_append,
      List.length_singleton]
    omega

/-- Where nobody leads, the announcement is all there is to hand over. -/
lemma settles_of_no_leader (h : Ready set σ) (node : NodeInfo)
    (hleads : ∀ s ∈ set.subs, (σ.coordinator s.id).isLeader = false) :
    Settles collator now (announce now σ node) := by
  refine ⟨potential set (announce now σ node), fun n => ?_⟩
  have hstep : ∀ τ, Calm set τ → Calm set (step collator now τ) := fun _ hτ => hτ.step h.audience
  refine Machine.bounded_of_potential hstep (fun _ hτ => potential_step hτ h.audience)
    (fun _ => Nat.le_add_right _ _) ?_ n
  refine ⟨⟨_, (cascade_announce now h node).1, hleads⟩, ?_⟩
  have hnil : (announce now σ node).toPublish = [] := h.toPublish
  simp [hnil]

/-! ## Somebody leads -/

/-- An announcement has not yet reached the subscription, or one is about to be published. -/
def Alive (id : ℕ) (σ : Room) : Prop :=
  (∃ d ∈ σ.process.pending, d.cursor ≤ id) ∨ ∃ ms ∈ σ.toPublish, ms ≠ []

/-- What is to be done before the next handler is called, or nothing is left to be done. -/
def work (σ : Room) : ℕ :=
  (σ.process.stack.map fun f => if handling f then 3 else 1).sum +
    2 * σ.process.suspended.length + 2 * (σ.toPublish.map List.length).sum

/-- A cascade that has not yet died down at the leader `id`. -/
structure Fed (set : ChannelSubs ClusterMessage) (leads : ℕ → Bool) (id : ℕ) (σ : Room) : Prop where
  cascade : Cascade leads set σ
  alive : Alive id σ

/-- **A leader keeps a cascade alive.** -/
lemma Fed.step {id : ℕ} (h : Fed set leads id σ) (haudience : Audience set)
    (hid : id ∈ set.subs.map Subscription.id) (hleads : leads id = true) :
    Fed set leads id (Room.step collator now σ) := by
  refine ⟨h.cascade.step haudience, ?_⟩
  have halive := h.alive
  unfold Alive at halive ⊢
  cases h.cascade.move collator now haudience with
  | quiet hstack hsuspended hstep =>
    rw [hstep]
    exact halive
  | resume d ds hstack hsuspended hstep =>
    rw [hstep]
    simpa [Process.pending, hstack, hsuspended, Frame.delivery?] using halive
  | publish d rest m ms more message hstack hhandling hto hchannel hpayload hstep =>
    rw [hstep]
    exact .inl ⟨_, List.mem_cons_self, Nat.zero_le _⟩
  | comeBack d rest more hstack hhandling hto hstep =>
    rw [hstep]
    rw [hto] at halive
    obtain ⟨e, he, hle⟩ | ⟨ms, hms, hne⟩ := halive
    · left
      simp only [Process.pending, hstack, List.filterMap_cons, Frame.delivery?] at he ⊢
      obtain rfl | he := List.mem_cons.1 he
      · exact ⟨{ e with handling := none }, by simp, hle⟩
      · refine ⟨e, ?_, hle⟩
        rw [← List.append_assoc]
        exact List.mem_append_left _ he
    · obtain rfl | hms := List.mem_cons.1 hms
      · exact absurd rfl hne
      · exact .inr ⟨ms, hms, hne⟩
  | finish d rest hstack hhandling hnext hstep =>
    rw [hstep]
    refine halive.imp_left ?_
    rintro ⟨e, he, hle⟩
    simp only [Process.pending, hstack, List.filterMap_cons, Frame.delivery?] at he ⊢
    obtain rfl | he := List.mem_cons.1 he
    · -- The loop that ends has nothing ahead.
      obtain ⟨s, hs, rfl⟩ := List.mem_map.1 hid
      exact absurd (hnext s hs) (not_lt.2 hle)
    · exact ⟨e, he, hle⟩
  | hand d rest s node hstack hhandling hpayload hs hcursor hfirst hstep =>
    rw [hstep]
    by_cases hsid : s.id = id
    · right
      refine ⟨_, List.mem_cons_self, ?_⟩
      rw [ClusterCoordinator.handleNodeAnnounce_snd, h.cascade.leaders, hsid, hleads]
      simp
    · obtain ⟨e, he, hle⟩ | ⟨ms, hms, hne⟩ := halive
      · left
        simp only [Process.pending, hstack, List.filterMap_cons, Frame.delivery?] at he ⊢
        obtain rfl | he := List.mem_cons.1 he
        · obtain ⟨t, ht, rfl⟩ := List.mem_map.1 hid
          have hlt := hfirst t ht hle
          exact ⟨_, List.mem_cons_self, show s.id + 1 ≤ t.id by omega⟩
        · exact ⟨e, List.mem_cons_of_mem _ he, hle⟩
      · exact .inr ⟨ms, List.mem_cons_of_mem _ hms, hne⟩

/-- Every step calls a handler, or does some of the work before the next call. -/
lemma Fed.progress {id : ℕ} (h : Fed set leads id σ) (haudience : Audience set) :
    calls σ < calls (Room.step collator now σ) ∨
      calls (Room.step collator now σ) = calls σ ∧ work (Room.step collator now σ) < work σ := by
  cases h.cascade.move collator now haudience with
  | quiet hstack hsuspended hstep =>
    -- With nothing on the stack no handler is running, so nothing is alive.
    have hrunning := h.cascade.running
    rw [hstack] at hrunning
    have hnil : σ.toPublish = [] := List.length_eq_zero_iff.1 hrunning
    have halive := h.alive
    simp [Alive, Process.pending, hstack, hsuspended, hnil] at halive
  | resume d ds hstack hsuspended hstep =>
    right
    obtain ⟨-, hnone⟩ := h.cascade.suspended d (by rw [hsuspended]; exact List.mem_cons_self)
    rw [hstep]
    refine ⟨rfl, ?_⟩
    simp only [work, hstack, hsuspended, handling, hnone, List.map_cons, List.map_nil,
      List.sum_cons, List.sum_nil, List.length_cons, Option.isSome_none]
    simp only [Bool.false_eq_true, if_false]
    omega
  | publish d rest m ms more message hstack hhandling hto hchannel hpayload hstep =>
    right
    rw [hstep]
    refine ⟨rfl, ?_⟩
    simp only [work, Process.push, Process.accept, hto, List.map_cons, List.sum_cons,
      List.length_cons, handling, Option.isSome_none]
    simp only [Bool.false_eq_true, if_false]
    omega
  | comeBack d rest more hstack hhandling hto hstep =>
    right
    rw [hstep]
    refine ⟨rfl, ?_⟩
    simp only [work, hstack, hto, List.map_cons, List.sum_cons, List.length_nil, handling,
      hhandling, if_true, List.length_append, List.length_singleton]
    omega
  | finish d rest hstack hhandling hnext hstep =>
    right
    rw [hstep]
    refine ⟨rfl, ?_⟩
    simp only [work, hstack, List.map_cons, List.sum_cons, handling, hhandling,
      Option.isSome_none]
    simp only [Bool.false_eq_true, if_false]
    omega
  | hand d rest s node hstack hhandling hpayload hs hcursor hfirst hstep =>
    left
    rw [hstep]
    simp [calls]

/-- Where a subscribed coordinator leads, handlers are called without end. -/
lemma unsettled_of_leader (h : Ready set σ) (node : NodeInfo) {s : Subscription ClusterMessage}
    (hs : s ∈ set.subs) (hleads : (σ.coordinator s.id).isLeader = true) :
    ¬ Settles collator now (announce now σ node) := by
  rintro ⟨N, hN⟩
  obtain ⟨hcascade, message, hpending⟩ := cascade_announce now h node
  have hfed : Fed set (fun id => (σ.coordinator id).isLeader) s.id (announce now σ node) := by
    refine ⟨hcascade, .inl ⟨⟨.publish, message, some set.id, 0, none⟩, ?_, Nat.zero_le _⟩⟩
    rw [hpending]
    exact List.mem_cons_self
  have hid : s.id ∈ set.subs.map Subscription.id := List.mem_map_of_mem hs
  have hmore : ∃ n, N + 1 ≤ calls ((step collator now)^[n] (announce now σ node)) :=
    Machine.unbounded_of_progress (fun _ hσ => hσ.step h.audience hid hleads)
      (fun _ hσ => hσ.progress h.audience) hfed (N + 1)
  obtain ⟨n, hn⟩ := hmore
  have hle := hN n
  omega

/-- **When announcements settle.**  For any number of coordinators on the cluster channel, any
registries and any leaders: an announcement published there makes the broker call handlers only
finitely often if and only if no subscribed coordinator is the leader. -/
theorem settles_iff (collator : Collator) (now : Timestamp) (h : Ready set σ) (node : NodeInfo) :
    Settles collator now (announce now σ node) ↔
      ∀ s ∈ set.subs, (σ.coordinator s.id).isLeader = false := by
  constructor
  · intro hsettles s hs
    by_contra hleads
    exact unsettled_of_leader h node hs (by simpa using hleads) hsettles
  · exact settles_of_no_leader h node

/-- Two coordinators, `a` and `b`, which have subscribed to the cluster channel one after the other
and take `leader` for the leader. -/
def pair (leader : NodeId) : Room where
  process := Machine.run Process.step (.new "node" 10)
    [.subscribe clusterChannel none 0, .subscribe clusterChannel none 0]
  coordinator id :=
    { ClusterCoordinator.new ⟨if id = 1 then "a" else "b", .active, 0, 0, 0, 0⟩ with
      leaderId := some leader }
  toPublish := []

lemma ready_pair (leader : NodeId) :
    Ready ⟨0, [⟨1, clusterChannel, none⟩, ⟨3, clusterChannel, none⟩]⟩ (pair leader) where
  audience :=
    { subscribed := by simp
      sorted := by simp
      unfiltered := by simp }
  channels := rfl
  stack := rfl
  suspended := rfl
  toPublish := rfl

theorem settles_without_leader :
    Settles .byCodePoint 1 (announce 1 (pair "c") ⟨"c", .active, 0, 0, 0, 0⟩) := by
  apply (settles_iff .byCodePoint 1 (ready_pair "c") _).2
  decide

/-- `b` answers the announcement of `c`, its own answer, the answer to that, and so on. -/
theorem leader_answers_itself :
    ¬ Settles .byCodePoint 1 (announce 1 (pair "b") ⟨"c", .active, 0, 0, 0, 0⟩) := by
  apply unsettled_of_leader (ready_pair "b") (s := ⟨3, clusterChannel, none⟩)
  · simp
  · decide

end Room

end SyncEngine
