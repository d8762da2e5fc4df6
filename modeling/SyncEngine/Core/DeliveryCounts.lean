import SyncEngine.Core.DeliveryOrder

/-!
# What the broker counts

`getChannelInfo` says of each channel how many messages were delivered and dropped.  The numbers
live and die with the channel's `Set`: a publish that is still waiting when the last subscriber
leaves goes on counting where nobody looks, and a `Set` made later starts from zero.  `publishSync`
and `broadcast` count nothing, and neither does a publish that finds no `Set`, since a channel
without subscribers has no statistics either.

`outcome` says how a step ends the call of a handler, or of a filter, in a publish, and for which
`Set`.  `channelInfo_exact`: the numbers of a channel are those of the outcomes for its present
`Set`.
-/

namespace SyncEngine

open Js

structure ChannelInfo where
  id : ChannelId
  subscriberCount : ℕ
  messagesDelivered : ℕ
  messagesDropped : ℕ
  createdAt : Timestamp

namespace MessageBroker

variable {P : Type}

def getChannelInfo (b : MessageBroker P) : List ChannelInfo :=
  b.channels.entries.map fun e =>
    let stats := b.channelStats.get? e.1
    ⟨e.1, e.2.subs.length, (stats.map ChannelStats.delivered).getD 0,
      (stats.map ChannelStats.dropped).getD 0, (stats.map ChannelStats.createdAt).getD 0⟩

def hasChannel (b : MessageBroker P) (channel : ChannelId) : Bool := b.channels.has channel

def subscriberCount (b : MessageBroker P) (channel : ChannelId) : ℕ :=
  ((b.channels.get? channel).map fun set => set.subs.length).getD 0

end MessageBroker

namespace Process

variable {P : Type}

/-- How a step ends a call that a publish has made of a filter or a handler: for which `Set`, and
whether the message was delivered. -/
def outcome (σ : Process P) : Input P → Option (ℕ × Bool)
  | .advance _ =>
    match σ.stack with
    | .delivery d :: _ =>
      match d.handling, nextSub σ.broker d with
      | none, some s =>
        match s.accepts d.message with
        | .error _ => if d.mode = .publish then d.set.map fun k => (k, false) else none
        | .ok _ => none
      | _, _ => none
    | _ => none
  | .returned threw =>
    match σ.stack with
    | .delivery d :: _ =>
      if d.handling.isSome ∧ d.mode = .publish ∧ threw then d.set.map fun k => (k, false) else none
    | _ => none
  | .settled i rejected =>
    match σ.stack, σ.suspended[i]? with
    | [], some d => d.set.map fun k => (k, !rejected)
    | _, _ => none
  | _ => none

/-- The outcomes of a run, in order. -/
def outcomes : Process P → List (Input P) → List (ℕ × Bool)
  | _, [] => []
  | σ, i :: inputs => (σ.outcome i).toList ++ outcomes (σ.step i) inputs

/-- The statistics of every channel are the outcomes so far for its `Set`. -/
structure Accounted (σ : Process P) (ledger : List (ℕ × Bool)) : Prop where
  nonempty : ∀ c set, σ.broker.channels.get? c = some set → set.subs ≠ []
  drawn : ∀ c k, σ.broker.setOf c = some k → k < σ.drawn
  waiting : ∀ d ∈ σ.pending, ∃ k, d.set = some k ∧ k < σ.drawn
  logged : ∀ e ∈ ledger, e.1 < σ.drawn
  distinct : ∀ c c' k, σ.broker.setOf c = some k → σ.broker.setOf c' = some k → c = c'
  own : ∀ d ∈ σ.pending, ∀ c, σ.broker.setOf c = d.set → c = d.message.channel
  counts : ∀ c k, σ.broker.setOf c = some k → ∃ s, σ.broker.channelStats.get? c = some s ∧
    s.delivered = ledger.count (k, true) ∧ s.dropped = ledger.count (k, false)

variable {σ τ : Process P} {ledger : List (ℕ × Bool)}

/-- No `Set` is new, and no publish. -/
lemma Accounted.of_sets (h : σ.Accounted ledger)
    (hnonempty : ∀ c set, τ.broker.channels.get? c = some set → set.subs ≠ [])
    (hsets : ∀ c k, τ.broker.setOf c = some k → σ.broker.setOf c = some k ∧
      τ.broker.channelStats.get? c = σ.broker.channelStats.get? c)
    (hdrawn : σ.drawn ≤ τ.drawn)
    (hpending : ∀ d' ∈ τ.pending, ∃ d ∈ σ.pending, d'.message = d.message ∧ d'.set = d.set) :
    τ.Accounted ledger where
  nonempty := hnonempty
  drawn c k hk := (h.drawn c k (hsets c k hk).1).trans_le hdrawn
  waiting d' hd' := by
    obtain ⟨d, hd, -, heq⟩ := hpending d' hd'
    obtain ⟨k, hk, hlt⟩ := h.waiting d hd
    exact ⟨k, heq.trans hk, hlt.trans_le hdrawn⟩
  logged e he := (h.logged e he).trans_le hdrawn
  distinct c c' k hc hc' := h.distinct c c' k (hsets c k hc).1 (hsets c' k hc').1
  own d' hd' c hc := by
    obtain ⟨d, hd, hmessage, heq⟩ := hpending d' hd'
    obtain ⟨k, hk, -⟩ := h.waiting d hd
    rw [heq, hk] at hc
    rw [hmessage]
    exact h.own d hd c ((hsets c k hc).1.trans hk.symm)
  counts c k hk := by
    obtain ⟨hσ, hstats⟩ := hsets c k hk
    rw [hstats]
    exact h.counts c k hσ

/-- The broker is the same. -/
lemma Accounted.of_pending (h : σ.Accounted ledger)
    (hchannels : τ.broker.channels = σ.broker.channels)
    (hstats : τ.broker.channelStats = σ.broker.channelStats) (hdrawn : σ.drawn ≤ τ.drawn)
    (hpending : ∀ d' ∈ τ.pending, ∃ d ∈ σ.pending, d'.message = d.message ∧ d'.set = d.set) :
    τ.Accounted ledger := by
  refine h.of_sets (hchannels ▸ h.nonempty) (fun c k hk => ⟨?_, by rw [hstats]⟩) hdrawn hpending
  rw [← hk, MessageBroker.setOf, MessageBroker.setOf, hchannels]

@[simp] lemma setOf_count (b : MessageBroker P) (channel : ChannelId) (set : Option ℕ)
    (f : ChannelStats → ChannelStats) (c : ChannelId) :
    (b.count channel set f).setOf c = b.setOf c := by
  unfold MessageBroker.setOf
  rw [MessageBroker.channels_count]

/-- One more message delivered, or dropped. -/
def tally (delivered : Bool) (s : ChannelStats) : ChannelStats :=
  if delivered then { s with delivered := s.delivered + 1 } else { s with dropped := s.dropped + 1 }

lemma tally_delivered (delivered : Bool) (s : ChannelStats) (ledger : List (ℕ × Bool)) (k : ℕ)
    (h : s.delivered = ledger.count (k, true) ∧ s.dropped = ledger.count (k, false)) :
    (tally delivered s).delivered = (ledger ++ [(k, delivered)]).count (k, true) ∧
      (tally delivered s).dropped = (ledger ++ [(k, delivered)]).count (k, false) := by
  cases delivered with
  | true => simp [tally, h.1, h.2]
  | false => simp [tally, h.1, h.2]

lemma count_of_ne {k k' : ℕ} (hne : k' ≠ k) (delivered b : Bool) :
    (ledger ++ [(k, delivered)]).count (k', b) = ledger.count (k', b) := by
  rw [List.count_append, List.count_singleton, if_neg, Nat.add_zero]
  intro heq
  exact hne (congrArg Prod.fst (beq_iff_eq.1 heq)).symm

/-- **An outcome is counted** where the `Set` of the publish is still the channel's. -/
lemma Accounted.count (h : σ.Accounted ledger) {d : Delivery P} (hd : d ∈ σ.pending) {k : ℕ}
    (hk : d.set = some k) (delivered : Bool) :
    ({ σ with broker := σ.broker.count d.message.channel d.set (tally delivered) } :
      Process P).Accounted (ledger ++ [(k, delivered)]) := by
  obtain ⟨k', hk', hlt⟩ := h.waiting d hd
  obtain rfl := Option.some.inj (hk.symm.trans hk')
  constructor
  · simp only [MessageBroker.channels_count]
    exact h.nonempty
  · simp only [setOf_count]
    exact h.drawn
  · exact h.waiting
  · intro e he
    obtain he | he := List.mem_append.1 he
    · exact h.logged e he
    · rw [List.mem_singleton.1 he]
      exact hlt
  · simp only [setOf_count]
    exact h.distinct
  · simp only [setOf_count]
    exact h.own
  · simp only [setOf_count]
    intro c j hj
    obtain ⟨s, hs, hcounts⟩ := h.counts c j hj
    rw [hk]
    unfold MessageBroker.count
    split
    next hset =>
      dsimp only
      rw [Js.Map.get?_modify]
      by_cases hc : c = d.message.channel
      · subst hc
        obtain rfl := Option.some.inj (hj.symm.trans hset)
        rw [if_pos rfl, hs]
        exact ⟨_, rfl, tally_delivered delivered s ledger j hcounts⟩
      · rw [if_neg hc]
        have hne : j ≠ k := by
          rintro rfl
          exact hc (h.distinct c _ j hj hset)
        refine ⟨s, hs, ?_⟩
        rw [count_of_ne hne, count_of_ne hne]
        exact hcounts
    next hset =>
      have hne : j ≠ k := by
        rintro rfl
        obtain rfl := h.own d hd c (hj.trans hk.symm)
        exact hset hj
      refine ⟨s, hs, ?_⟩
      rw [count_of_ne hne, count_of_ne hne]
      exact hcounts

/-! ## The steps -/

lemma setOf_eq_some {b : MessageBroker P} {c : ChannelId} {k : ℕ} :
    b.setOf c = some k ↔ ∃ set, b.channels.get? c = some set ∧ set.id = k :=
  Option.map_eq_some_iff

/-- A channel's `Set` gains or loses subscriptions, and has some left. -/
lemma Accounted.rewrite (h : σ.Accounted ledger) {channel : ChannelId} {old : ChannelSubs P}
    (hold : σ.broker.channels.get? channel = some old) {subs : List (Subscription P)}
    (hsubs : subs ≠ []) {n : ℕ} (hn : σ.drawn ≤ n) :
    ({ σ with
      broker := { σ.broker with channels := σ.broker.channels.set channel ⟨old.id, subs⟩ }
      drawn := n } : Process P).Accounted ledger := by
  refine h.of_sets (fun c set hget => ?_) (fun c k hk => ⟨?_, rfl⟩) hn
    fun d hd => ⟨d, hd, rfl, rfl⟩
  · dsimp only at hget
    rw [Js.Map.get?_set] at hget
    split at hget
    · obtain rfl := Option.some.inj hget
      exact hsubs
    · exact h.nonempty c set hget
  · obtain ⟨set, hget, hid⟩ := setOf_eq_some.1 hk
    dsimp only at hget
    rw [Js.Map.get?_set] at hget
    split at hget
    next hc =>
      obtain rfl := Option.some.inj hget
      exact setOf_eq_some.2 ⟨old, hc ▸ hold, hid⟩
    next => exact setOf_eq_some.2 ⟨set, hget, hid⟩

/-- A new `Set` gets an id that nothing has been counted for. -/
lemma Accounted.newSet (h : σ.Accounted ledger) (channel : ChannelId) {subs : List (Subscription P)}
    (hsubs : subs ≠ []) (now : Timestamp) :
    ({ σ with
      broker := { σ.broker with
        channels := σ.broker.channels.set channel ⟨σ.drawn, subs⟩
        channelStats := σ.broker.channelStats.set channel ⟨0, 0, now⟩ }
      drawn := σ.drawn + 2 } : Process P).Accounted ledger := by
  set b : MessageBroker P := { σ.broker with
    channels := σ.broker.channels.set channel ⟨σ.drawn, subs⟩
    channelStats := σ.broker.channelStats.set channel ⟨0, 0, now⟩ }
  have hset : ∀ c, b.setOf c = if c = channel then some σ.drawn else σ.broker.setOf c := by
    intro c
    unfold MessageBroker.setOf
    rw [Js.Map.get?_set]
    split <;> rfl
  have hfresh : ∀ delivered, ledger.count (σ.drawn, delivered) = 0 := fun delivered =>
    List.count_eq_zero.2 fun hmem => lt_irrefl _ (h.logged _ hmem)
  constructor
  · intro c set hget
    have hget := (Js.Map.get?_set _ channel c _).symm.trans hget
    split at hget
    · obtain rfl := Option.some.inj hget
      exact hsubs
    · exact h.nonempty c set hget
  · intro c k hk
    have hk := (hset c).symm.trans hk
    split at hk
    · obtain rfl := Option.some.inj hk
      exact Nat.lt_add_of_pos_right two_pos
    · exact (h.drawn c k hk).trans_le (Nat.le_add_right _ _)
  · intro d hd
    obtain ⟨k, hk, hlt⟩ := h.waiting d hd
    exact ⟨k, hk, hlt.trans_le (Nat.le_add_right _ _)⟩
  · exact fun e he => (h.logged e he).trans_le (Nat.le_add_right _ _)
  · intro c c' k hc hc'
    have hc := (hset c).symm.trans hc
    have hc' := (hset c').symm.trans hc'
    split at hc
    next heq =>
      obtain rfl := Option.some.inj hc
      split at hc'
      next heq' => exact heq.trans heq'.symm
      next => exact absurd (h.drawn c' _ hc') (lt_irrefl _)
    next =>
      split at hc'
      next =>
        obtain rfl := Option.some.inj hc'
        exact absurd (h.drawn c _ hc) (lt_irrefl _)
      next => exact h.distinct c c' k hc hc'
  · intro d hd c hc
    obtain ⟨k, hk, hlt⟩ := h.waiting d hd
    have hc := (hset c).symm.trans hc
    split at hc
    · rw [hk] at hc
      exact absurd hlt (Option.some.inj hc).not_gt
    · exact h.own d hd c hc
  · intro c k hk
    have hk := (hset c).symm.trans hk
    split at hk
    next hc =>
      obtain rfl := Option.some.inj hk
      refine ⟨⟨0, 0, now⟩, ?_, (hfresh true).symm, (hfresh false).symm⟩
      exact (Js.Map.get?_set _ channel c _).trans (if_pos hc)
    next hc =>
      obtain ⟨s, hs, hcounts⟩ := h.counts c k hk
      exact ⟨s, ((Js.Map.get?_set _ channel c _).trans (if_neg hc)).trans hs, hcounts⟩

lemma Accounted.subscribe (h : σ.Accounted ledger) (channel : ChannelId)
    (filter : Option (SyncMessage P → Except JsError Bool)) (now : Timestamp) :
    ({ σ with
      broker := σ.broker.subscribe σ.drawn (σ.drawn + 1) channel filter now
      drawn := σ.drawn + 2 } : Process P).Accounted ledger := by
  unfold MessageBroker.subscribe
  cases hold : σ.broker.channels.get? channel with
  | some old => exact h.rewrite hold (by simp) (Nat.le_add_right _ _)
  | none => exact h.newSet channel (List.cons_ne_nil _ _) now

lemma Accounted.unsubscribe (h : σ.Accounted ledger) (channel : ChannelId) (id : ℕ) :
    ({ σ with broker := σ.broker.unsubscribe channel id } : Process P).Accounted ledger := by
  unfold MessageBroker.unsubscribe
  cases hold : σ.broker.channels.get? channel with
  | none => exact h
  | some old =>
    dsimp only
    split
    · refine h.of_sets (fun c set hget => ?_) (fun c k hk => ?_) le_rfl
        fun d hd => ⟨d, hd, rfl, rfl⟩
      · dsimp only at hget
        rw [Js.Map.get?_delete] at hget
        split at hget
        · cases hget
        · exact h.nonempty c set hget
      · obtain ⟨set, hget, hid⟩ := setOf_eq_some.1 hk
        dsimp only at hget ⊢
        rw [Js.Map.get?_delete] at hget
        split at hget
        · cases hget
        next hc =>
          rw [Js.Map.get?_delete, if_neg hc]
          exact ⟨setOf_eq_some.2 ⟨set, hget, hid⟩, rfl⟩
    next hne => exact h.rewrite hold (fun heq => hne (List.length_eq_zero_iff.2 heq)) le_rfl

/-- A loop that begins is over the `Set` of its channel. -/
lemma Accounted.begin (h : σ.Accounted ledger) (mode : Mode) (message : SyncMessage P)
    {set : ChannelSubs P} (hset : σ.broker.channels.get? message.channel = some set) :
    ((σ.accept message).push (.delivery ⟨mode, message, some set.id, 0, none⟩)).Accounted
      ledger := by
  have hk : σ.broker.setOf message.channel = some set.id := setOf_eq_some.2 ⟨set, hset, rfl⟩
  have haccept : (σ.accept message).Accounted ledger :=
    h.of_pending rfl rfl (Nat.le_succ _) fun d hd => ⟨d, hd, rfl, rfl⟩
  refine ⟨haccept.nonempty, haccept.drawn, ?_, haccept.logged, haccept.distinct, ?_,
    haccept.counts⟩
  · intro d hd
    obtain rfl | hd := List.mem_cons.1 hd
    · exact ⟨set.id, rfl, haccept.drawn _ _ hk⟩
    · exact haccept.waiting d hd
  · intro d hd c hc
    obtain rfl | hd := List.mem_cons.1 hd
    · exact h.distinct c _ set.id hc hk
    · exact haccept.own d hd c hc

lemma Accounted.publish (h : σ.Accounted ledger) (channel : ChannelId) (type : MessageType)
    (payload : P) (target : Option NodeId) (now : Timestamp) :
    (σ.publish channel type payload target now).Accounted ledger := by
  unfold Process.publish
  dsimp only
  split
  · exact h.of_pending rfl rfl (Nat.le_succ _) fun d hd => ⟨d, hd, rfl, rfl⟩
  next set hset =>
    -- a channel without subscriptions has been dropped
    rw [if_neg fun hempty => h.nonempty channel set hset (List.length_eq_zero_iff.1 hempty)]
    exact h.begin .publish _ hset

lemma Accounted.publishSync (h : σ.Accounted ledger) (channel : ChannelId) (type : MessageType)
    (payload : P) (now : Timestamp) :
    (σ.publishSync channel type payload now).Accounted ledger := by
  unfold Process.publishSync
  dsimp only
  split
  · exact h.of_pending rfl rfl (Nat.le_succ _) fun d hd => ⟨d, hd, rfl, rfl⟩
  next set hset => exact h.begin .publishSync _ hset

/-- The innermost loop goes on. -/
lemma Accounted.of_head (h : σ.Accounted ledger) {d d' : Delivery P} {rest : List (Frame P)}
    (hσ : σ.stack = .delivery d :: rest) (hτ : τ.stack = .delivery d' :: rest)
    (hmessage : d'.message = d.message) (hset : d'.set = d.set)
    (hsuspended : τ.suspended = σ.suspended) (hbroker : τ.broker = σ.broker)
    (hdrawn : τ.drawn = σ.drawn) : τ.Accounted ledger := by
  refine h.of_pending (by rw [hbroker]) (by rw [hbroker]) hdrawn.ge fun e he => ?_
  rw [pending, hτ, hsuspended] at he
  rw [pending, hσ]
  obtain rfl | he := List.mem_cons.1 he
  · exact ⟨d, List.mem_cons_self, hmessage, hset⟩
  · exact ⟨e, List.mem_cons_of_mem _ he, rfl, rfl⟩

/-- The innermost frame is gone. -/
lemma Accounted.of_tail (h : σ.Accounted ledger) {f : Frame P} {rest : List (Frame P)}
    (hσ : σ.stack = f :: rest) : ({ σ with stack := rest } : Process P).Accounted ledger := by
  refine h.of_pending rfl rfl le_rfl fun d hd => ⟨d, ?_, rfl, rfl⟩
  rw [pending, hσ]
  exact (((List.sublist_cons_self f rest).filterMap _).append_right _).subset hd

lemma Accounted.silent (h : σ.Accounted ledger) : σ.Accounted (ledger ++ none.toList) := by
  rw [Option.toList_none, List.append_nil]
  exact h

/-- **What a turn of a loop counts** is that a filter throws. -/
lemma Accounted.turn (h : σ.Accounted ledger) {d : Delivery P} {rest : List (Frame P)}
    (hstack : σ.stack = .delivery d :: rest) (hhandling : d.handling = none) (now : Timestamp) :
    (σ.turn d rest).Accounted (ledger ++ (σ.outcome (.advance now)).toList) := by
  have hd : d ∈ σ.pending := by
    rw [pending, hstack]
    exact List.mem_cons_self
  obtain ⟨k, hk, -⟩ := h.waiting d hd
  simp only [Process.turn, outcome, hstack, hhandling]
  cases hnext : nextSub σ.broker d with
  | none => exact (h.of_tail hstack).silent
  | some s =>
    dsimp only
    cases haccepts : s.accepts d.message with
    | ok accepted =>
      cases accepted with
      | false => exact Accounted.silent (h.of_head hstack rfl rfl rfl rfl rfl rfl)
      | true => exact Accounted.silent (h.of_head hstack rfl rfl rfl rfl rfl rfl)
    | error e =>
      dsimp only
      by_cases hmode : d.mode = .publish
      · have hout : (d.set.map fun k => (k, false)) = some (k, false) := congrArg _ hk
        rw [if_pos hmode, if_pos hmode, hout]
        exact (h.count hd hk false).of_head hstack rfl rfl rfl rfl rfl rfl
      · rw [if_neg hmode, if_neg hmode]
        exact Accounted.silent (h.of_head hstack rfl rfl rfl rfl rfl rfl)

lemma Accounted.advance (h : σ.Accounted ledger) (now : Timestamp) :
    (σ.advance now).Accounted (ledger ++ (σ.outcome (.advance now)).toList) := by
  cases hstack : σ.stack with
  | nil =>
    simp only [Process.advance, outcome, hstack]
    exact h.silent
  | cons f rest =>
    cases f with
    | broadcast type payload cursor =>
      simp only [Process.advance, outcome, hstack]
      apply Accounted.silent
      split
      · exact h.of_tail hstack
      next channel set hnext =>
        apply Accounted.publishSync
        refine h.of_pending rfl rfl le_rfl fun d hd => ⟨d, ?_, rfl, rfl⟩
        rw [pending, hstack]
        exact hd
    | delivery d =>
      cases hhandling : d.handling with
      | none =>
        have hturn : σ.advance now = σ.turn d rest := by
          simp only [Process.advance, hstack, hhandling, Option.isSome_none, Bool.false_eq_true,
            if_false]
        rw [hturn]
        exact h.turn hstack hhandling now
      | some id =>
        simp only [Process.advance, outcome, hstack, hhandling, Option.isSome_some, if_true]
        exact h.silent

/-- What the return of a handler counts is that it throws. -/
lemma Accounted.returned (h : σ.Accounted ledger) (threw : Bool) :
    (σ.returned threw).Accounted (ledger ++ (σ.outcome (.returned threw)).toList) := by
  cases hstack : σ.stack with
  | nil =>
    simp only [Process.returned, outcome, hstack]
    exact h.silent
  | cons f rest =>
    cases f with
    | broadcast type payload cursor =>
      simp only [Process.returned, outcome, hstack]
      exact h.silent
    | delivery d =>
      have hd : d ∈ σ.pending := by
        rw [pending, hstack]
        exact List.mem_cons_self
      obtain ⟨k, hk, -⟩ := h.waiting d hd
      have hout : (d.set.map fun k => (k, false)) = some (k, false) := congrArg _ hk
      simp only [Process.returned, outcome, hstack]
      by_cases hhandling : d.handling.isSome = true
      · rw [if_pos hhandling]
        cases hmode : d.mode with
        | publishSync =>
          dsimp only
          rw [if_neg fun hall => Mode.noConfusion hall.2.1]
          exact Accounted.silent (h.of_head hstack rfl rfl rfl rfl rfl rfl)
        | publish =>
          cases threw with
          | true =>
            dsimp only
            rw [if_pos rfl, if_pos ⟨hhandling, rfl, rfl⟩, hout]
            exact (h.count hd hk false).of_head hstack rfl rfl rfl rfl rfl rfl
          | false =>
            dsimp only
            rw [if_neg Bool.false_ne_true, if_neg fun hall => Bool.false_ne_true hall.2.2]
            -- the publish is suspended
            refine Accounted.silent (h.of_pending rfl rfl le_rfl fun e he => ?_)
            rw [pending, hstack]
            rw [pending, ← List.append_assoc] at he
            obtain he | he := List.mem_append.1 he
            · exact ⟨e, List.mem_cons_of_mem _ he, rfl, rfl⟩
            · rw [List.mem_singleton.1 he]
              exact ⟨d, List.mem_cons_self, rfl, rfl⟩
      · rw [if_neg hhandling, if_neg fun hall => hhandling hall.1]
        exact h.silent

/-- **A promise that settles is counted**, one way or the other. -/
lemma Accounted.settled (h : σ.Accounted ledger) (i : ℕ) (rejected : Bool) :
    (σ.settled i rejected).Accounted (ledger ++ (σ.outcome (.settled i rejected)).toList) := by
  cases hstack : σ.stack with
  | cons f rest =>
    simp only [Process.settled, outcome, hstack]
    exact h.silent
  | nil =>
    cases hget : σ.suspended[i]? with
    | none =>
      simp only [Process.settled, outcome, hstack, hget]
      exact h.silent
    | some d =>
      have hd : d ∈ σ.pending := List.mem_append_right _ (List.mem_of_getElem? hget)
      obtain ⟨k, hk, -⟩ := h.waiting d hd
      have hout : (d.set.map fun k => (k, !rejected)) = some (k, !rejected) := congrArg _ hk
      simp only [Process.settled, outcome, hstack, hget, hout]
      have hcount := h.count hd hk (!rejected)
      refine hcount.of_pending ?_ ?_ le_rfl fun e he => ?_
      · cases rejected <;> rfl
      · cases rejected <;> rfl
      · refine ⟨e, ?_, rfl, rfl⟩
        obtain he | he := List.mem_append.1 he
        · rw [List.mem_singleton.1 he]
          exact hd
        · exact List.mem_append_right _ ((List.eraseIdx_sublist _ _).subset he)

lemma Accounted.whenIdle (h : σ.Accounted ledger) {f : Process P → Process P}
    (hf : (f σ).Accounted ledger) : (σ.whenIdle f).Accounted ledger := by
  unfold Process.whenIdle
  split
  · exact hf
  · exact h

lemma Accounted.step (h : σ.Accounted ledger) (i : Input P) :
    (σ.step i).Accounted (ledger ++ (σ.outcome i).toList) := by
  cases i with
  | subscribe channel filter now =>
    apply Accounted.silent
    simp only [Process.step]
    exact h.whenIdle (h.subscribe channel filter now)
  | unsubscribe channel id =>
    apply Accounted.silent
    simp only [Process.step]
    exact h.whenIdle (h.unsubscribe channel id)
  | publish channel type payload target now =>
    apply Accounted.silent
    simp only [Process.step]
    apply h.whenIdle
    exact h.publish channel type payload target now
  | publishSync channel type payload now =>
    apply Accounted.silent
    simp only [Process.step]
    apply h.whenIdle
    exact h.publishSync channel type payload now
  | broadcast type payload =>
    apply Accounted.silent
    simp only [Process.step]
    apply h.whenIdle
    exact h.of_pending rfl rfl le_rfl fun d hd => ⟨d, hd, rfl, rfl⟩
  | advance now => exact h.advance now
  | returned threw => exact h.returned threw
  | settled i rejected => exact h.settled i rejected

lemma Accounted.run (h : σ.Accounted ledger) (inputs : List (Input P)) :
    (Machine.run Process.step σ inputs).Accounted (ledger ++ σ.outcomes inputs) := by
  induction inputs generalizing σ ledger with
  | nil =>
    rw [outcomes, List.append_nil]
    exact h
  | cons i inputs ih =>
    rw [outcomes, ← List.append_assoc]
    exact ih (h.step i)

lemma accounted_new (nodeId : NodeId) (bufferSize : ℕ) :
    (new nodeId bufferSize : Process P).Accounted [] where
  nonempty := by simp [new, MessageBroker.new]
  drawn := by simp [new, MessageBroker.new, MessageBroker.setOf]
  waiting := by simp [new, pending]
  logged := by simp
  distinct := by simp [new, MessageBroker.new, MessageBroker.setOf]
  own := by simp [new, pending]
  counts := by simp [new, MessageBroker.new, MessageBroker.setOf]

lemma Accounted.hasChannel_iff (h : σ.Accounted ledger) (channel : ChannelId) :
    σ.broker.hasChannel channel = true ↔ 0 < σ.broker.subscriberCount channel := by
  unfold MessageBroker.hasChannel MessageBroker.subscriberCount Js.Map.has
  cases hget : σ.broker.channels.get? channel with
  | none => simp
  | some set =>
    have hpos : 0 < set.subs.length := List.length_pos_iff.2 (h.nonempty channel set hget)
    exact iff_of_true rfl hpos

end Process

end SyncEngine
