import SyncEngine.Core.MessageBroker

/-!
# The order of delivery

A channel's messages are numbered in the order in which they are published.  Is every subscriber
handed them in that order?  `publish` stops at every subscriber to wait for its handler, and other
code runs meanwhile; a handler may publish before it returns.  A later message can therefore
overtake an earlier one that is still on its way through the subscribers.

`ToBeHanded` says that a publish in progress has a subscription still ahead of it, and `InTurn` is
the condition on the turn of a loop under which nothing is overtaken: no publish of the channel that
started earlier still has the subscription ahead.  `handed_in_order` is what follows for whole runs.

Most steps begin nothing: `Fewer` is the relation they keep, and only the start of a publish and the
call of a handler are looked at one by one.
-/

namespace SyncEngine

open Js

namespace MessageBroker

variable {P : Type}

@[simp] lemma counter_count (b : MessageBroker P) (channel : ChannelId) (set : Option ℕ)
    (f : ChannelStats → ChannelStats) (c : ChannelId) :
    (b.count channel set f).counter c = b.counter c := by
  unfold count
  split <;> rfl

@[simp] lemma channels_count (b : MessageBroker P) (channel : ChannelId) (set : Option ℕ)
    (f : ChannelStats → ChannelStats) : (b.count channel set f).channels = b.channels := by
  unfold count
  split <;> rfl

@[simp] lemma counter_subscribe (b : MessageBroker P) (setId id : ℕ) (channel : ChannelId)
    (filter : Option (SyncMessage P → Except JsError Bool)) (now : Timestamp) (c : ChannelId) :
    (b.subscribe setId id channel filter now).counter c = b.counter c := by
  unfold subscribe
  split <;> rfl

@[simp] lemma counter_unsubscribe (b : MessageBroker P) (channel : ChannelId) (id : ℕ)
    (c : ChannelId) : (b.unsubscribe channel id).counter c = b.counter c := by
  unfold unsubscribe
  split
  · rfl
  · dsimp only
    split <;> rfl

lemma counter_accept (b : MessageBroker P) (message : SyncMessage P) (c : ChannelId) :
    (b.accept message).counter c =
      if c = message.channel then b.counter message.channel + 1 else b.counter c := by
  unfold counter accept
  dsimp only
  rw [Js.Map.get?_set]
  split <;> rfl

/-- After `subscribe`, a channel has the subscriptions it had, under the same `Set`, and the new
one. -/
lemma get?_channels_subscribe {b : MessageBroker P} {setId id : ℕ} {channel c : ChannelId}
    {filter : Option (SyncMessage P → Except JsError Bool)} {now : Timestamp} {set : ChannelSubs P}
    (h : (b.subscribe setId id channel filter now).channels.get? c = some set)
    {s : Subscription P} (hs : s ∈ set.subs) :
    s.id = id ∨ ∃ set₀, b.channels.get? c = some set₀ ∧ set₀.id = set.id ∧ s ∈ set₀.subs := by
  unfold subscribe at h
  cases hget : b.channels.get? channel with
  | some old =>
    simp only [hget, Js.Map.get?_set] at h
    split at h
    next hc =>
      obtain rfl := Option.some.inj h
      obtain hs | hs := List.mem_append.1 hs
      · exact .inr ⟨old, hc ▸ hget, rfl, hs⟩
      · exact .inl (by rw [List.mem_singleton.1 hs])
    next => exact .inr ⟨set, h, rfl, hs⟩
  | none =>
    simp only [hget, Js.Map.get?_set] at h
    split at h
    next hc =>
      obtain rfl := Option.some.inj h
      exact .inl (by rw [List.mem_singleton.1 hs])
    next => exact .inr ⟨set, h, rfl, hs⟩

/-- After `unsubscribe`, a channel has none but the subscriptions it had, under the same `Set`. -/
lemma get?_channels_unsubscribe {b : MessageBroker P} {id : ℕ} {channel c : ChannelId}
    {set : ChannelSubs P} (h : (b.unsubscribe channel id).channels.get? c = some set)
    {s : Subscription P} (hs : s ∈ set.subs) :
    ∃ set₀, b.channels.get? c = some set₀ ∧ set₀.id = set.id ∧ s ∈ set₀.subs := by
  unfold unsubscribe at h
  cases hget : b.channels.get? channel with
  | none =>
    simp only [hget] at h
    exact ⟨set, h, rfl, hs⟩
  | some old =>
    simp only [hget] at h
    split at h
    · rw [Js.Map.get?_delete] at h
      split at h
      · cases h
      · exact ⟨set, h, rfl, hs⟩
    · rw [Js.Map.get?_set] at h
      split at h
      next hc =>
        obtain rfl := Option.some.inj h
        exact ⟨old, hc ▸ hget, rfl, List.mem_of_mem_filter hs⟩
      next => exact ⟨set, h, rfl, hs⟩

end MessageBroker

/-- The publish that a frame belongs to. -/
def Frame.delivery? {P : Type} : Frame P → Option (Delivery P)
  | .delivery d => some d
  | .broadcast _ _ _ => none

namespace Process

variable {P : Type}

/-- The publishes in progress. -/
def pending (σ : Process P) : List (Delivery P) :=
  σ.stack.filterMap Frame.delivery? ++ σ.suspended

/-- The loop of `d` is going to call the handler of the subscription `id`, if it goes on. -/
def ToBeHanded (b : MessageBroker P) (d : Delivery P) (id : ℕ) : Prop :=
  ∃ set s, b.channels.get? d.message.channel = some set ∧ d.set = some set.id ∧ s ∈ set.subs ∧
    d.cursor ≤ s.id ∧ s.accepts d.message = .ok true ∧ s.id = id

/-- When the innermost loop is about to call a handler, no earlier publish of the channel still has
the subscription ahead. -/
def InTurn (σ : Process P) : Input P → Prop
  | .advance _ =>
    ∀ d rest, σ.stack = .delivery d :: rest → d.handling = none →
      ∀ s, nextSub σ.broker d = some s → s.accepts d.message = .ok true →
        ∀ d' ∈ σ.pending, d'.message.channel = d.message.channel →
          d'.message.sequence < d.message.sequence → ¬ ToBeHanded σ.broker d' s.id
  | _ => True

/-- Of two messages of a channel that a subscription was handed, the later has the greater
sequence number. -/
def InOrder (σ : Process P) : Prop :=
  σ.handed.Pairwise fun h h' => h.1 = h'.1 → h.2.channel = h'.2.channel →
    h.2.sequence < h'.2.sequence

/-! ## The invariant -/

/-- Every subscription's id has been drawn. -/
def Live (σ : Process P) : Prop :=
  ∀ channel set, σ.broker.channels.get? channel = some set → ∀ s ∈ set.subs, s.id < σ.drawn

/-- What a subscription has been handed lies behind what it is going to be handed. -/
structure Orderly (σ : Process P) : Prop where
  live : σ.Live
  drawn : ∀ h ∈ σ.handed, h.1 < σ.drawn
  counted : ∀ h ∈ σ.handed, h.2.sequence ≤ σ.broker.counter h.2.channel
  waiting : ∀ d ∈ σ.pending, d.message.sequence ≤ σ.broker.counter d.message.channel
  distinct : (σ.pending.map Delivery.message).Pairwise fun m m' =>
    m.channel = m'.channel → m.sequence ≠ m'.sequence
  behind : ∀ d ∈ σ.pending, ∀ h ∈ σ.handed, h.2.channel = d.message.channel →
    ToBeHanded σ.broker d h.1 → h.2.sequence < d.message.sequence
  ordered : σ.InOrder

/-- Nothing is published and nothing handed over on the way from one state to the other. -/
structure Fewer (σ τ : Process P) : Prop where
  live : σ.Live → τ.Live
  handed : τ.handed = σ.handed
  drawn : σ.drawn ≤ τ.drawn
  counter : ∀ channel, τ.broker.counter channel = σ.broker.counter channel
  messages : (τ.pending.map Delivery.message).Subperm (σ.pending.map Delivery.message)
  ahead : ∀ d' ∈ τ.pending, ∃ d ∈ σ.pending, d'.message = d.message ∧
    ∀ id < σ.drawn, ToBeHanded τ.broker d' id → ToBeHanded σ.broker d id

variable {σ τ : Process P}

lemma Orderly.fewer (h : σ.Orderly) (hf : Fewer σ τ) : τ.Orderly where
  live := hf.live h.live
  drawn a ha := by
    rw [hf.handed] at ha
    exact (h.drawn a ha).trans_le hf.drawn
  counted a ha := by
    rw [hf.handed] at ha
    rw [hf.counter]
    exact h.counted a ha
  waiting d' hd' := by
    obtain ⟨d, hd, hmessage, -⟩ := hf.ahead d' hd'
    rw [hmessage, hf.counter]
    exact h.waiting d hd
  distinct := by
    obtain ⟨messages, hperm, hsub⟩ := hf.messages
    refine (hperm.pairwise_iff ?_).1 (h.distinct.sublist hsub)
    intro m m' hne hchannel heq
    exact hne hchannel.symm heq.symm
  behind d' hd' a ha hchannel hahead := by
    obtain ⟨d, hd, hmessage, hback⟩ := hf.ahead d' hd'
    rw [hf.handed] at ha
    rw [hmessage] at hchannel ⊢
    exact h.behind d hd a ha hchannel (hback a.1 (h.drawn a ha) hahead)
  ordered := by
    unfold InOrder
    rw [hf.handed]
    exact h.ordered

/-! ## Steps that begin nothing -/

lemma toBeHanded_of_channels {b b' : MessageBroker P} (h : b'.channels = b.channels)
    {d : Delivery P} {id : ℕ} : ToBeHanded b' d id ↔ ToBeHanded b d id := by
  unfold ToBeHanded
  rw [h]

/-- A loop that has gone on has no more ahead than before. -/
lemma ToBeHanded.of_later {b : MessageBroker P} {d d' : Delivery P} {id : ℕ}
    (h : ToBeHanded b d' id) (hmessage : d'.message = d.message) (hset : d'.set = d.set)
    (hcursor : d.cursor ≤ d'.cursor) : ToBeHanded b d id := by
  obtain ⟨set, s, hget, hid, hs, hle, haccepts, hsid⟩ := h
  rw [hmessage] at hget haccepts
  exact ⟨set, s, hget, hset ▸ hid, hs, hcursor.trans hle, haccepts, hsid⟩

/-- The same subscriptions and counters, and of the publishes in progress the same ones, gone on
or ended. -/
lemma Fewer.of_pending (hchannels : τ.broker.channels = σ.broker.channels)
    (hcounter : ∀ channel, τ.broker.counter channel = σ.broker.counter channel)
    (hhanded : τ.handed = σ.handed) (hdrawn : τ.drawn = σ.drawn)
    (hmessages : (τ.pending.map Delivery.message).Subperm (σ.pending.map Delivery.message))
    (hahead : ∀ d' ∈ τ.pending, ∃ d ∈ σ.pending, d'.message = d.message ∧ d'.set = d.set ∧
      d.cursor ≤ d'.cursor) : Fewer σ τ where
  live h channel set hget s hs := by
    rw [hdrawn]
    rw [hchannels] at hget
    exact h channel set hget s hs
  handed := hhanded
  drawn := hdrawn.ge
  counter := hcounter
  messages := hmessages
  ahead d' hd' := by
    obtain ⟨d, hd, hmessage, hset, hcursor⟩ := hahead d' hd'
    refine ⟨d, hd, hmessage, fun id _ h => ?_⟩
    exact ((toBeHanded_of_channels hchannels).1 h).of_later hmessage hset hcursor

lemma Fewer.refl (σ : Process P) : Fewer σ σ :=
  .of_pending rfl (fun _ => rfl) rfl rfl (List.Subperm.refl _)
    fun d hd => ⟨d, hd, rfl, rfl, le_rfl⟩

/-- The innermost publish goes on, with the rest as it is. -/
lemma Fewer.of_head {d d' : Delivery P} {rest : List (Frame P)} (hσ : σ.stack = .delivery d :: rest)
    (hτ : τ.stack = .delivery d' :: rest) (hmessage : d'.message = d.message)
    (hset : d'.set = d.set) (hcursor : d.cursor ≤ d'.cursor)
    (hsuspended : τ.suspended = σ.suspended)
    (hchannels : τ.broker.channels = σ.broker.channels)
    (hcounter : ∀ channel, τ.broker.counter channel = σ.broker.counter channel)
    (hhanded : τ.handed = σ.handed) (hdrawn : τ.drawn = σ.drawn) : Fewer σ τ := by
  have hpσ : σ.pending = d :: (rest.filterMap Frame.delivery? ++ σ.suspended) := by
    rw [pending, hσ]
    rfl
  have hpτ : τ.pending = d' :: (rest.filterMap Frame.delivery? ++ σ.suspended) := by
    rw [pending, hτ, hsuspended]
    rfl
  refine .of_pending hchannels hcounter hhanded hdrawn ?_ ?_
  · have hsame : τ.pending.map Delivery.message = σ.pending.map Delivery.message := by
      rw [hpσ, hpτ, List.map_cons, List.map_cons, hmessage]
    exact (List.Perm.of_eq hsame).subperm
  · rw [hpσ, hpτ]
    intro e he
    obtain rfl | he := List.mem_cons.1 he
    · exact ⟨d, List.mem_cons_self, hmessage, hset, hcursor⟩
    · exact ⟨e, List.mem_cons_of_mem _ he, rfl, rfl, le_rfl⟩

/-- The innermost frame is gone. -/
lemma Fewer.of_tail {f : Frame P} {rest : List (Frame P)} (hσ : σ.stack = f :: rest) :
    Fewer σ { σ with stack := rest } := by
  have hsub : ({ σ with stack := rest } : Process P).pending.Sublist σ.pending := by
    rw [pending, pending, hσ]
    exact ((List.sublist_cons_self f rest).filterMap _).append_right _
  refine .of_pending rfl (fun _ => rfl) rfl rfl (hsub.map _).subperm fun d hd => ?_
  exact ⟨d, hsub.subset hd, rfl, rfl, le_rfl⟩

lemma fewer_subscribe (channel : ChannelId)
    (filter : Option (SyncMessage P → Except JsError Bool)) (now : Timestamp) :
    Fewer σ { σ with
      broker := σ.broker.subscribe σ.drawn (σ.drawn + 1) channel filter now
      drawn := σ.drawn + 2 } where
  live h c set hget s hs := by
    show s.id < σ.drawn + 2
    obtain hid | ⟨set₀, hget₀, -, hs₀⟩ := MessageBroker.get?_channels_subscribe hget hs
    · omega
    · have hlt := h c set₀ hget₀ s hs₀
      omega
  handed := rfl
  drawn := Nat.le_add_right _ 2
  counter c := MessageBroker.counter_subscribe _ _ _ _ _ _ _
  messages := List.Subperm.refl _
  ahead d hd := by
    refine ⟨d, hd, rfl, fun id hlt h => ?_⟩
    obtain ⟨set, s, hget, hset, hs, hcursor, haccepts, hsid⟩ := h
    obtain hid | ⟨set₀, hget₀, hset₀, hs₀⟩ := MessageBroker.get?_channels_subscribe hget hs
    · omega
    · exact ⟨set₀, s, hget₀, hset₀ ▸ hset, hs₀, hcursor, haccepts, hsid⟩

lemma fewer_unsubscribe (channel : ChannelId) (id : ℕ) :
    Fewer σ { σ with broker := σ.broker.unsubscribe channel id } where
  live h c set hget s hs := by
    obtain ⟨set₀, hget₀, -, hs₀⟩ := MessageBroker.get?_channels_unsubscribe hget hs
    exact h c set₀ hget₀ s hs₀
  handed := rfl
  drawn := le_rfl
  counter c := MessageBroker.counter_unsubscribe _ _ _ _
  messages := List.Subperm.refl _
  ahead d hd := by
    refine ⟨d, hd, rfl, fun id _ h => ?_⟩
    obtain ⟨set, s, hget, hset, hs, hcursor, haccepts, hsid⟩ := h
    obtain ⟨set₀, hget₀, hset₀, hs₀⟩ := MessageBroker.get?_channels_unsubscribe hget hs
    exact ⟨set₀, s, hget₀, hset₀ ▸ hset, hs₀, hcursor, haccepts, hsid⟩

lemma fewer_returned (threw : Bool) : Fewer σ (σ.returned threw) := by
  unfold returned
  split
  next d rest hstack =>
    split
    next hhandling =>
      dsimp only
      split
      · exact .of_head hstack rfl rfl rfl le_rfl rfl rfl (fun _ => rfl) rfl rfl
      · split
        · exact .of_head hstack rfl rfl rfl le_rfl rfl (MessageBroker.channels_count _ _ _ _)
            (fun _ => MessageBroker.counter_count _ _ _ _ _) rfl rfl
        · -- The publish moves from the stack to the suspended ones.
          have hpσ : σ.pending = d :: (rest.filterMap Frame.delivery? ++ σ.suspended) := by
            rw [pending, hstack]
            rfl
          set d' : Delivery P := { d with handling := none }
          have hpτ : ({ σ with stack := rest, suspended := σ.suspended ++ [d'] } :
              Process P).pending = (rest.filterMap Frame.delivery? ++ σ.suspended) ++ [d'] := by
            rw [pending, List.append_assoc]
          refine .of_pending rfl (fun _ => rfl) rfl rfl ?_ ?_
          · rw [hpσ, hpτ, List.map_append, List.map_cons]
            exact (List.perm_append_singleton _ _).subperm
          · rw [hpσ, hpτ]
            intro e he
            obtain he | he := List.mem_append.1 he
            · exact ⟨e, List.mem_cons_of_mem _ he, rfl, rfl, le_rfl⟩
            · rw [List.mem_singleton.1 he]
              exact ⟨d, List.mem_cons_self, rfl, rfl, le_rfl⟩
    next => exact .refl σ
  next => exact .refl σ

lemma fewer_settled (i : ℕ) (rejected : Bool) : Fewer σ (σ.settled i rejected) := by
  unfold settled
  split
  next d hstack hd =>
    obtain ⟨hi, hget⟩ := List.getElem?_eq_some_iff.1 hd
    have hperm : (d :: σ.suspended.eraseIdx i).Perm σ.suspended := by
      rw [← hget]
      exact (List.getElem_cons_eraseIdx_perm hi)
    have hpending : σ.pending = σ.suspended := by
      rw [pending, hstack]
      rfl
    refine .of_pending ?_ (fun c => ?_) rfl rfl ?_ ?_
    · dsimp only
      split <;> exact MessageBroker.channels_count _ _ _ _
    · dsimp only
      split <;> exact MessageBroker.counter_count _ _ _ _ _
    · rw [hpending]
      exact (hperm.map _).subperm
    · rw [hpending]
      intro e he
      exact ⟨e, hperm.subset he, rfl, rfl, le_rfl⟩
  next => exact .refl σ

/-! ## The start of a publish -/

lemma Orderly.accept (h : σ.Orderly) (message : SyncMessage P)
    (hsequence : message.sequence = σ.broker.counter message.channel + 1) :
    (σ.accept message).Orderly ∧ (∀ d ∈ (σ.accept message).pending,
        message.channel = d.message.channel → message.sequence ≠ d.message.sequence) ∧
      ∀ a ∈ (σ.accept message).handed, a.2.channel = message.channel →
        a.2.sequence < message.sequence := by
  have hcounter : ∀ c, σ.broker.counter c ≤ (σ.accept message).broker.counter c := by
    intro c
    have haccept := MessageBroker.counter_accept σ.broker message c
    simp only [Process.accept, haccept]
    split
    next hc =>
      rw [hc]
      exact Nat.le_succ _
    next => exact le_rfl
  refine ⟨⟨?_, ?_, ?_, ?_, h.distinct, h.behind, h.ordered⟩, ?_, ?_⟩
  · intro c set hget s hs
    exact (h.live c set hget s hs).trans (Nat.lt_succ_self _)
  · exact fun a ha => (h.drawn a ha).trans (Nat.lt_succ_self _)
  · exact fun a ha => (h.counted a ha).trans (hcounter _)
  · exact fun d hd => (h.waiting d hd).trans (hcounter _)
  · intro d hd hchannel
    have hle := h.waiting d hd
    rw [← hchannel] at hle
    omega
  · intro a ha hchannel
    have hle := h.counted a ha
    rw [hchannel] at hle
    omega

/-- The loop of a publish that has just been numbered. -/
lemma Orderly.push (h : σ.Orderly) (d : Delivery P)
    (hwaiting : d.message.sequence ≤ σ.broker.counter d.message.channel)
    (hdistinct : ∀ d' ∈ σ.pending, d.message.channel = d'.message.channel →
      d.message.sequence ≠ d'.message.sequence)
    (hbehind : ∀ a ∈ σ.handed, a.2.channel = d.message.channel →
      a.2.sequence < d.message.sequence) : (σ.push (.delivery d)).Orderly where
  live := h.live
  drawn := h.drawn
  counted := h.counted
  waiting e he := by
    obtain rfl | he := List.mem_cons.1 he
    · exact hwaiting
    · exact h.waiting e he
  distinct := by
    have hpending : (σ.push (.delivery d)).pending = d :: σ.pending := rfl
    rw [hpending, List.map_cons, List.pairwise_cons]
    refine ⟨fun m hm => ?_, h.distinct⟩
    obtain ⟨d', hd', rfl⟩ := List.mem_map.1 hm
    exact hdistinct d' hd'
  behind e he a ha hchannel hahead := by
    obtain rfl | he := List.mem_cons.1 he
    · exact hbehind a ha hchannel
    · exact h.behind e he a ha hchannel hahead
  ordered := h.ordered

/-- Numbering a message and beginning its loop. -/
lemma Orderly.begin (h : σ.Orderly) (mode : Mode) (message : SyncMessage P)
    (hsequence : message.sequence = σ.broker.counter message.channel + 1) (set : Option ℕ) :
    ((σ.accept message).push (.delivery ⟨mode, message, set, 0, none⟩)).Orderly := by
  obtain ⟨haccept, hdistinct, hbehind⟩ := h.accept message hsequence
  refine haccept.push _ ?_ hdistinct hbehind
  have hcounter := MessageBroker.counter_accept σ.broker message message.channel
  rw [if_pos rfl] at hcounter
  exact (hsequence.trans hcounter.symm).le

lemma Orderly.publish (h : σ.Orderly) (channel : ChannelId) (type : MessageType) (payload : P)
    (target : Option NodeId) (now : Timestamp) :
    (σ.publish channel type payload target now).Orderly := by
  unfold Process.publish
  dsimp only
  split
  · exact (h.accept _ rfl).1
  · split
    · exact (h.accept _ rfl).1.fewer (.of_pending (MessageBroker.channels_count _ _ _ _)
        (fun _ => MessageBroker.counter_count _ _ _ _ _) rfl rfl (List.Subperm.refl _)
        fun d hd => ⟨d, hd, rfl, rfl, le_rfl⟩)
    · exact h.begin .publish _ rfl _

lemma Orderly.publishSync (h : σ.Orderly) (channel : ChannelId) (type : MessageType) (payload : P)
    (now : Timestamp) : (σ.publishSync channel type payload now).Orderly := by
  unfold Process.publishSync
  dsimp only
  split
  · exact (h.accept _ rfl).1
  · exact h.begin .publishSync _ rfl _

/-! ## The call of a handler -/

lemma nextSub_eq_some {b : MessageBroker P} {d : Delivery P} {s : Subscription P}
    (h : nextSub b d = some s) :
    ∃ set, b.channels.get? d.message.channel = some set ∧ d.set = some set.id ∧ s ∈ set.subs ∧
      d.cursor ≤ s.id := by
  unfold nextSub at h
  cases hget : b.channels.get? d.message.channel with
  | none =>
    rw [hget] at h
    cases h
  | some set =>
    simp only [hget] at h
    split at h
    next hset =>
      have hcursor : d.cursor ≤ s.id := by simpa using List.find?_some h
      exact ⟨set, rfl, hset, List.mem_of_find?_eq_some h, hcursor⟩
    next => cases h

/-- **Handing a message over in turn keeps the order.** -/
lemma Orderly.hand (h : σ.Orderly) {d : Delivery P} {rest : List (Frame P)}
    (hstack : σ.stack = .delivery d :: rest) {s : Subscription P}
    (hnext : nextSub σ.broker d = some s) (haccepts : s.accepts d.message = .ok true)
    (hturn : ∀ d' ∈ σ.pending, d'.message.channel = d.message.channel →
      d'.message.sequence < d.message.sequence → ¬ ToBeHanded σ.broker d' s.id) :
    ({ σ with
        handed := σ.handed ++ [(s.id, d.message)]
        stack := .delivery { d with cursor := s.id + 1, handling := some s.id } :: rest } :
      Process P).Orderly := by
  obtain ⟨subs, hsubs, hset, hs, hcursor⟩ := nextSub_eq_some hnext
  have hahead : ToBeHanded σ.broker d s.id := ⟨subs, s, hsubs, hset, hs, hcursor, haccepts, rfl⟩
  set e : Delivery P := { d with cursor := s.id + 1, handling := some s.id }
  have hpending : σ.pending = d :: (rest.filterMap Frame.delivery? ++ σ.suspended) := by
    rw [pending, hstack]
    rfl
  have hd : d ∈ σ.pending := by
    rw [hpending]
    exact List.mem_cons_self
  -- First the loop goes on, then the call is recorded.
  have hnext : ({ σ with stack := .delivery e :: rest } : Process P).Orderly :=
    h.fewer (.of_head hstack rfl rfl rfl (hcursor.trans (Nat.le_succ _)) rfl rfl (fun _ => rfl) rfl
      rfl)
  refine ⟨hnext.live, ?_, ?_, hnext.waiting, hnext.distinct, ?_, ?_⟩
  · intro a ha
    obtain ha | ha := List.mem_append.1 ha
    · exact h.drawn a ha
    · rw [List.mem_singleton.1 ha]
      exact h.live _ subs hsubs s hs
  · intro a ha
    obtain ha | ha := List.mem_append.1 ha
    · exact h.counted a ha
    · rw [List.mem_singleton.1 ha]
      exact h.waiting d hd
  · intro d' hd' a ha hchannel hahead'
    obtain ha | ha := List.mem_append.1 ha
    · exact hnext.behind d' hd' a ha hchannel hahead'
    · rw [List.mem_singleton.1 ha] at hchannel hahead' ⊢
      change d' ∈ e :: (rest.filterMap Frame.delivery? ++ σ.suspended) at hd'
      obtain rfl | hd' := List.mem_cons.1 hd'
      · -- The loop itself has gone past the subscription.
        obtain ⟨-, s', -, -, -, hle, -, hid⟩ := hahead'
        have hge : s.id + 1 ≤ s'.id := hle
        simp only at hid
        omega
      · have hmem : d' ∈ σ.pending := by
          rw [hpending]
          exact List.mem_cons_of_mem _ hd'
        have hne : d.message.sequence ≠ d'.message.sequence := by
          have hdistinct := h.distinct
          rw [hpending, List.map_cons, List.pairwise_cons] at hdistinct
          exact hdistinct.1 _ (List.mem_map_of_mem hd') hchannel
        have hnotbefore := hturn d' hmem hchannel.symm
        by_contra hnot
        exact hnotbefore (by simp only at hnot; omega) hahead'
  · refine List.pairwise_append.2 ⟨h.ordered, List.pairwise_singleton _ _, fun a ha a' ha' => ?_⟩
    rw [List.mem_singleton.1 ha']
    intro hid hchannel
    exact h.behind d hd a ha hchannel (hid ▸ hahead)

lemma Orderly.turn (h : σ.Orderly) {d : Delivery P} {rest : List (Frame P)}
    (hstack : σ.stack = .delivery d :: rest)
    (hturn : ∀ s, nextSub σ.broker d = some s → s.accepts d.message = .ok true →
      ∀ d' ∈ σ.pending, d'.message.channel = d.message.channel →
        d'.message.sequence < d.message.sequence → ¬ ToBeHanded σ.broker d' s.id) :
    (σ.turn d rest).Orderly := by
  unfold Process.turn
  cases hnext : nextSub σ.broker d with
  | none => exact h.fewer (.of_tail hstack)
  | some s =>
    obtain ⟨-, -, -, -, hle⟩ := nextSub_eq_some hnext
    have hcursor : d.cursor ≤ s.id + 1 := hle.trans (Nat.le_succ _)
    dsimp only
    cases haccepts : s.accepts d.message with
    | error e =>
      refine h.fewer (.of_head hstack rfl rfl rfl hcursor rfl ?_ (fun c => ?_) rfl rfl)
      · dsimp only
        split
        · exact MessageBroker.channels_count _ _ _ _
        · rfl
      · dsimp only
        split
        · exact MessageBroker.counter_count _ _ _ _ _
        · rfl
    | ok accepted =>
      cases accepted with
      | false => exact h.fewer (.of_head hstack rfl rfl rfl hcursor rfl rfl (fun _ => rfl) rfl rfl)
      | true => exact h.hand hstack hnext haccepts (hturn s hnext haccepts)

/-! ## Whole runs -/

lemma Orderly.advance (h : σ.Orderly) {now : Timestamp} (hturn : σ.InTurn (.advance now)) :
    (σ.advance now).Orderly := by
  unfold Process.advance
  split
  · exact h
  next d rest hstack =>
    split
    · exact h
    next hhandling =>
      refine h.turn hstack fun s hnext haccepts => hturn d rest hstack ?_ s hnext haccepts
      simpa using hhandling
  next type payload cursor rest hstack =>
    split
    · exact h.fewer (.of_tail hstack)
    next channel set hnext =>
      apply Orderly.publishSync
      refine h.fewer (.of_pending rfl (fun _ => rfl) rfl rfl ?_ fun d hd => ?_)
      · have hpending : ({ σ with stack := .broadcast type payload (set.id + 1) :: rest } :
            Process P).pending = σ.pending := by
          rw [pending, pending, hstack]
          rfl
        exact (List.Perm.of_eq (congrArg _ hpending)).subperm
      · refine ⟨d, ?_, rfl, rfl, le_rfl⟩
        rw [pending, hstack]
        exact hd

lemma Orderly.whenIdle (h : σ.Orderly) {f : Process P → Process P} (hf : (f σ).Orderly) :
    (σ.whenIdle f).Orderly := by
  unfold Process.whenIdle
  split
  · exact hf
  · exact h

lemma Orderly.step (h : σ.Orderly) {i : Input P} (hturn : σ.InTurn i) : (σ.step i).Orderly := by
  cases i with
  | subscribe channel filter now =>
    simp only [Process.step]
    exact h.whenIdle (h.fewer (fewer_subscribe channel filter now))
  | unsubscribe channel id =>
    simp only [Process.step]
    exact h.whenIdle (h.fewer (fewer_unsubscribe channel id))
  | publish channel type payload target now =>
    simp only [Process.step]
    apply h.whenIdle
    exact h.publish channel type payload target now
  | publishSync channel type payload now =>
    simp only [Process.step]
    apply h.whenIdle
    exact h.publishSync channel type payload now
  | broadcast type payload =>
    simp only [Process.step]
    apply h.whenIdle
    exact h.fewer (.of_pending rfl (fun _ => rfl) rfl rfl (List.Subperm.refl _)
      fun d hd => ⟨d, hd, rfl, rfl, le_rfl⟩)
  | advance now => exact h.advance hturn
  | returned threw => exact h.fewer (fewer_returned threw)
  | settled i rejected => exact h.fewer (fewer_settled i rejected)

lemma orderly_new (nodeId : NodeId) (bufferSize : ℕ) :
    (new nodeId bufferSize : Process P).Orderly where
  live := by simp [Live, new, MessageBroker.new]
  drawn := by simp [new]
  counted := by simp [new]
  waiting := by simp [pending, new]
  distinct := .nil
  behind := by simp [new]
  ordered := .nil

/-- **When messages arrive in order.**  In every run in which a handler is only called while no
earlier publish of the channel still has the subscription ahead, every subscription is handed the
messages of a channel in strictly increasing order of their sequence numbers. -/
theorem handed_in_order (nodeId : NodeId) (bufferSize : ℕ) (inputs : List (Input P))
    (h : Machine.Along step InTurn (new nodeId bufferSize) inputs) :
    (Machine.run step (new nodeId bufferSize) inputs).InOrder := by
  have hrun : (Machine.run step (new nodeId bufferSize) inputs).Orderly :=
    Machine.invariant (fun σ i (hs : σ.Orderly) hi => hs.step hi) (orderly_new nodeId bufferSize) h
  exact hrun.ordered

/-- A publish that is the only one in progress is in turn. -/
lemma inTurn_of_alone (h : σ.pending.length ≤ 1) (i : Input P) : σ.InTurn i := by
  cases i with
  | advance now =>
    intro d rest hstack _ s _ _ d' hd' _ hlt
    have hd : d ∈ σ.pending := by
      rw [pending, hstack]
      exact List.mem_append_left _ (List.mem_cons_self)
    have heq : d' = d := by
      match hσ : σ.pending with
      | [] =>
        rw [hσ] at hd
        cases hd
      | [e] =>
        rw [hσ, List.mem_singleton] at hd hd'
        rw [hd, hd']
      | _ :: _ :: _ =>
        rw [hσ] at h
        simp at h
    rw [heq] at hlt
    exact absurd hlt (lt_irrefl _)
  | _ => trivial

/-- Two subscribers, and two messages one after the other. -/
def oneAfterTheOther : List (Input Unit) :=
  [.subscribe "chat" none 0, .subscribe "chat" none 0,
    .publish "chat" .event () none 1, .advance 1, .returned false, .settled 0 false, .advance 1,
    .returned false, .settled 0 false, .advance 1,
    .publish "chat" .event () none 2, .advance 2, .returned false, .settled 0 false, .advance 2]

theorem handed_in_order_oneAfterTheOther :
    (Machine.run step (new "node" 10) oneAfterTheOther).InOrder := by
  apply handed_in_order
  refine ⟨?_, ?_, ?_, ?_, ?_, ?_, ?_, ?_, ?_, ?_, ?_, ?_, ?_, ?_, ?_, trivial⟩
  all_goals
    apply inTurn_of_alone
    decide

/-- Two subscribers, of which the first answers the first message with another one on the channel.
The answer has been handed to it, and waits, when its handler returns for the first message. -/
def answered : List (Input Unit) :=
  [.subscribe "chat" none 0, .subscribe "chat" none 0,
    .publish "chat" .event () none 1, .advance 1,
    .publish "chat" .event () none 2, .advance 2, .returned false, .returned false,
    .settled 0 false, .advance 3, .returned false, .settled 0 false, .advance 3]

/-- The second subscriber is handed the answer before what it answers. -/
theorem answer_overtakes : ¬ (Machine.run step (new "node" 10) answered).InOrder := by
  unfold InOrder
  decide

end Process

end SyncEngine
