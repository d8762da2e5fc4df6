import SyncEngine.Core.DeliveryOrder

/-!
# Delivery once

Is a message handed to every subscription exactly once?  Handlers publish, subscribe and unsubscribe
while a loop is under way, and a publish that waits for a promise goes on over a `Set` that has
changed meanwhile.

Ids are drawn from one counter, so a subscription was there when a message was published exactly
when its id is the smaller one.  A subscription that was there, is still there and accepts the
message has been handed it, or the loop of the message still has it ahead: that is `Exact.complete`.
And a loop has nothing ahead that was handed its message already (`Exact.behind`).  Hence
`handed_once`: nobody is ever handed a message twice, and when the loop of a message is over, nobody
has been left out.
-/

namespace SyncEngine

open Js

namespace Process

variable {P : Type} {σ τ : Process P}

/-- The subscriptions of a channel stand in the order of their ids. -/
def Sorted (b : MessageBroker P) : Prop :=
  ∀ channel set, b.channels.get? channel = some set → set.subs.Pairwise fun s s' => s.id < s'.id

/-- What is known of the messages handed over so far and those under way. -/
structure Exact (σ : Process P) : Prop where
  live : σ.Live
  sorted : Sorted σ.broker
  drawn : ∀ h ∈ σ.handed, h.1 < σ.drawn
  published : ∀ m ∈ σ.published, m.id < σ.drawn
  waiting : ∀ d ∈ σ.pending, d.message ∈ σ.published
  handed : ∀ h ∈ σ.handed, h.2 ∈ σ.published
  distinct : (σ.pending.map Delivery.message).Pairwise fun m m' => m.id ≠ m'.id
  behind : ∀ d ∈ σ.pending, ∀ h ∈ σ.handed, h.2.id = d.message.id →
    ¬ ToBeHanded σ.broker d h.1
  once : σ.handed.Pairwise fun h h' => h.2.id = h'.2.id → h.1 ≠ h'.1
  complete : ∀ m ∈ σ.published, ∀ set, σ.broker.channels.get? m.channel = some set →
    ∀ s ∈ set.subs, s.id < m.id → s.accepts m = .ok true →
      (s.id, m) ∈ σ.handed ∨ ∃ d ∈ σ.pending, d.message = m ∧ ToBeHanded σ.broker d s.id

/-- Nothing is published, nothing handed over, and no loop loses a subscription that stays. -/
structure Kept (σ τ : Process P) : Prop extends Fewer σ τ where
  published : τ.published = σ.published
  sorted : σ.Live → Sorted σ.broker → Sorted τ.broker
  subs : ∀ channel set, τ.broker.channels.get? channel = some set → ∀ s ∈ set.subs,
    σ.drawn ≤ s.id ∨ ∃ set₀, σ.broker.channels.get? channel = some set₀ ∧ s ∈ set₀.subs
  loops : Sorted σ.broker → ∀ d ∈ σ.pending, ∀ set,
    τ.broker.channels.get? d.message.channel = some set → ∀ s ∈ set.subs,
      ToBeHanded σ.broker d s.id →
        ∃ d' ∈ τ.pending, d'.message = d.message ∧ ToBeHanded τ.broker d' s.id

lemma Exact.kept (h : σ.Exact) (hk : Kept σ τ) : τ.Exact where
  live := hk.live h.live
  sorted := hk.sorted h.live h.sorted
  drawn a ha := by
    rw [hk.handed] at ha
    exact (h.drawn a ha).trans_le hk.drawn
  published m hm := by
    rw [hk.published] at hm
    exact (h.published m hm).trans_le hk.drawn
  waiting d' hd' := by
    obtain ⟨d, hd, hmessage, -⟩ := hk.ahead d' hd'
    rw [hmessage, hk.published]
    exact h.waiting d hd
  handed a ha := by
    rw [hk.handed] at ha
    rw [hk.published]
    exact h.handed a ha
  distinct := by
    obtain ⟨messages, hperm, hsub⟩ := hk.messages
    exact (hperm.pairwise_iff fun hne => Ne.symm hne).1 (h.distinct.sublist hsub)
  behind d' hd' a ha hid hahead := by
    obtain ⟨d, hd, hmessage, hback⟩ := hk.ahead d' hd'
    rw [hk.handed] at ha
    rw [hmessage] at hid
    exact h.behind d hd a ha hid (hback a.1 (h.drawn a ha) hahead)
  once := by
    rw [hk.handed]
    exact h.once
  complete m hm set hget s hs hlt haccepts := by
    rw [hk.published] at hm
    obtain hnew | ⟨set₀, hget₀, hs₀⟩ := hk.subs m.channel set hget s hs
    · exact absurd ((h.published m hm).trans_le hnew) (lt_asymm hlt)
    · rw [hk.handed]
      refine (h.complete m hm set₀ hget₀ s hs₀ hlt haccepts).imp_right ?_
      rintro ⟨d, hd, rfl, hahead⟩
      exact hk.loops h.sorted d hd set hget s hs hahead

/-! ## Steps that begin nothing -/

/-- The same subscriptions, and every loop has ahead what it had. -/
lemma Kept.of_channels (hf : Fewer σ τ) (hpublished : τ.published = σ.published)
    (hchannels : τ.broker.channels = σ.broker.channels)
    (hloops : Sorted σ.broker → ∀ d ∈ σ.pending, ∀ id, ToBeHanded σ.broker d id →
      ∃ d' ∈ τ.pending, d'.message = d.message ∧ ToBeHanded σ.broker d' id) : Kept σ τ where
  toFewer := hf
  published := hpublished
  sorted _ h channel set hget := h channel set (hchannels ▸ hget)
  subs channel set hget s hs := .inr ⟨set, hchannels ▸ hget, hs⟩
  loops hsorted d hd _ _ s _ hahead := by
    obtain ⟨d', hd', hmessage, hahead'⟩ := hloops hsorted d hd s.id hahead
    exact ⟨d', hd', hmessage, (toBeHanded_of_channels hchannels).2 hahead'⟩

lemma kept_subscribe (channel : ChannelId)
    (filter : Option (SyncMessage P → Except JsError Bool)) (now : Timestamp) :
    Kept σ { σ with
      broker := σ.broker.subscribe σ.drawn (σ.drawn + 1) channel filter now
      drawn := σ.drawn + 2 } where
  toFewer := fewer_subscribe channel filter now
  published := rfl
  sorted hlive hsorted c set hget := by
    dsimp only at hget
    unfold MessageBroker.subscribe at hget
    cases hold : σ.broker.channels.get? channel with
    | some old =>
      simp only [hold, Js.Map.get?_set] at hget
      split at hget
      · obtain rfl := Option.some.inj hget
        refine List.pairwise_append.2 ⟨hsorted channel old hold, List.pairwise_singleton _ _, ?_⟩
        intro s hs s' hs'
        rw [List.mem_singleton.1 hs']
        exact (hlive channel old hold s hs).trans (Nat.lt_succ_self _)
      · exact hsorted c set hget
    | none =>
      simp only [hold, Js.Map.get?_set] at hget
      split at hget
      · obtain rfl := Option.some.inj hget
        exact List.pairwise_singleton _ _
      · exact hsorted c set hget
  subs c set hget s hs := by
    obtain hid | ⟨set₀, hget₀, -, hs₀⟩ := MessageBroker.get?_channels_subscribe hget hs
    · exact .inl (hid ▸ Nat.le_succ _)
    · exact .inr ⟨set₀, hget₀, hs₀⟩
  loops _ d hd set hget s hs hahead := by
    refine ⟨d, hd, rfl, ?_⟩
    obtain ⟨set₀, s₀, hget₀, hset, hs₀, hcursor, haccepts, hid⟩ := hahead
    have hfound : ∃ set', (σ.broker.subscribe σ.drawn (σ.drawn + 1) channel filter
        now).channels.get? d.message.channel = some set' ∧ set'.id = set₀.id ∧
          ∀ s ∈ set₀.subs, s ∈ set'.subs := by
      unfold MessageBroker.subscribe
      cases hold : σ.broker.channels.get? channel with
      | some old =>
        simp only [Js.Map.get?_set]
        split
        next hc =>
          rw [hc, hold] at hget₀
          obtain rfl := Option.some.inj hget₀
          exact ⟨_, rfl, rfl, fun s hs => List.mem_append_left _ hs⟩
        next => exact ⟨set₀, hget₀, rfl, fun s hs => hs⟩
      | none =>
        have hne : d.message.channel ≠ channel := by
          intro hc
          rw [hc, hold] at hget₀
          cases hget₀
        simp only [Js.Map.get?_set, if_neg hne]
        exact ⟨set₀, hget₀, rfl, fun s hs => hs⟩
    obtain ⟨set', hget', hsame, hsubs⟩ := hfound
    exact ⟨set', s₀, hget', hsame ▸ hset, hsubs s₀ hs₀, hcursor, haccepts, hid⟩

/-- The subscriptions of a channel differ in their ids. -/
lemma eq_of_id {subs : List (Subscription P)} (h : subs.Pairwise fun s s' => s.id < s'.id)
    {s s' : Subscription P} (hs : s ∈ subs) (hs' : s' ∈ subs) (hid : s.id = s'.id) : s = s' := by
  have hnodup : (subs.map Subscription.id).Nodup :=
    List.pairwise_map.2 (h.imp fun hlt => Nat.ne_of_lt hlt)
  exact List.inj_on_of_nodup_map hnodup hs hs' hid

lemma kept_unsubscribe (channel : ChannelId) (id : ℕ) :
    Kept σ { σ with broker := σ.broker.unsubscribe channel id } where
  toFewer := fewer_unsubscribe channel id
  published := rfl
  sorted _ hsorted c set hget := by
    dsimp only at hget
    unfold MessageBroker.unsubscribe at hget
    cases hold : σ.broker.channels.get? channel with
    | none =>
      simp only [hold] at hget
      exact hsorted c set hget
    | some old =>
      simp only [hold] at hget
      split at hget
      · rw [Js.Map.get?_delete] at hget
        split at hget
        · cases hget
        · exact hsorted c set hget
      · rw [Js.Map.get?_set] at hget
        split at hget
        · obtain rfl := Option.some.inj hget
          exact (hsorted channel old hold).filter _
        · exact hsorted c set hget
  subs c set hget s hs := by
    obtain ⟨set₀, hget₀, -, hs₀⟩ := MessageBroker.get?_channels_unsubscribe hget hs
    exact .inr ⟨set₀, hget₀, hs₀⟩
  loops hsorted d hd set hget s hs hahead := by
    refine ⟨d, hd, rfl, ?_⟩
    obtain ⟨set₀, hget₀, hsame, hs₀⟩ := MessageBroker.get?_channels_unsubscribe hget hs
    obtain ⟨set₁, s₁, hget₁, hset, hs₁, hcursor, haccepts, hid⟩ := hahead
    obtain rfl := Option.some.inj (hget₀.symm.trans hget₁)
    -- the subscription with this id is the one that stays
    obtain rfl : s₁ = s := eq_of_id (hsorted _ set₀ hget₀) hs₁ hs₀ hid
    exact ⟨set, s₁, hget, hsame ▸ hset, hs, hcursor, haccepts, rfl⟩

/-- The innermost loop goes on, and has ahead what it had. -/
lemma Kept.of_head {d d' : Delivery P} {rest : List (Frame P)} (hf : Fewer σ τ)
    (hσ : σ.stack = .delivery d :: rest) (hτ : τ.stack = .delivery d' :: rest)
    (hmessage : d'.message = d.message) (hsuspended : τ.suspended = σ.suspended)
    (hpublished : τ.published = σ.published) (hchannels : τ.broker.channels = σ.broker.channels)
    (hahead : Sorted σ.broker → ∀ id, ToBeHanded σ.broker d id → ToBeHanded σ.broker d' id) :
    Kept σ τ := by
  have hpσ : σ.pending = d :: (rest.filterMap Frame.delivery? ++ σ.suspended) := by
    rw [pending, hσ]
    rfl
  have hpτ : τ.pending = d' :: (rest.filterMap Frame.delivery? ++ σ.suspended) := by
    rw [pending, hτ, hsuspended]
    rfl
  refine .of_channels hf hpublished hchannels fun hsorted e he id h => ?_
  rw [hpσ] at he
  rw [hpτ]
  obtain rfl | he := List.mem_cons.1 he
  · exact ⟨d', List.mem_cons_self, hmessage, hahead hsorted id h⟩
  · exact ⟨e, List.mem_cons_of_mem _ he, rfl, h⟩

/-- The innermost frame is gone, and had nothing ahead. -/
lemma Kept.of_tail {f : Frame P} {rest : List (Frame P)} (hσ : σ.stack = f :: rest)
    (hover : ∀ d, f.delivery? = some d → ∀ id, ¬ ToBeHanded σ.broker d id) :
    Kept σ { σ with stack := rest } := by
  refine .of_channels (.of_tail hσ) rfl rfl fun _ d hd id hahead => ⟨d, ?_, rfl, hahead⟩
  rw [pending, hσ] at hd
  obtain hd | hd := List.mem_append.1 hd
  · obtain ⟨g, hg, hgd⟩ := List.mem_filterMap.1 hd
    obtain rfl | hg := List.mem_cons.1 hg
    · exact absurd hahead (hover d hgd id)
    · exact List.mem_append_left _ (List.mem_filterMap.2 ⟨g, hg, hgd⟩)
  · exact List.mem_append_right _ hd

/-- Every loop stands where it stood. -/
lemma Kept.of_same (hf : Fewer σ τ) (hpublished : τ.published = σ.published)
    (hchannels : τ.broker.channels = σ.broker.channels)
    (hsame : ∀ d ∈ σ.pending, ∃ d' ∈ τ.pending, d'.message = d.message ∧ d'.set = d.set ∧
      d'.cursor = d.cursor) : Kept σ τ := by
  refine .of_channels hf hpublished hchannels fun _ d hd id h => ?_
  obtain ⟨d', hd', hmessage, hset, hcursor⟩ := hsame d hd
  exact ⟨d', hd', hmessage, h.of_later hmessage.symm hset.symm hcursor.le⟩

lemma Kept.refl (σ : Process P) : Kept σ σ :=
  .of_same (.refl σ) rfl rfl fun d hd => ⟨d, hd, rfl, rfl, rfl⟩

@[simp] lemma published_returned (threw : Bool) : (σ.returned threw).published = σ.published := by
  unfold returned
  split
  · split
    · dsimp only
      split
      · rfl
      · split <;> rfl
    · rfl
  · rfl

@[simp] lemma channels_returned (threw : Bool) :
    (σ.returned threw).broker.channels = σ.broker.channels := by
  unfold returned
  split
  · split
    · dsimp only
      split
      · rfl
      · split
        · exact MessageBroker.channels_count _ _ _ _
        · rfl
    · rfl
  · rfl

lemma kept_returned (threw : Bool) : Kept σ (σ.returned threw) := by
  refine .of_same (fewer_returned threw) (published_returned threw) (channels_returned threw) ?_
  unfold returned
  split
  next d rest hstack =>
    set d' : Delivery P := { d with handling := none }
    rw [pending, hstack]
    split
    next hhandling =>
      -- the loop is still the innermost one, or is suspended
      have hgoes (τ : Process P) (hd' : d' ∈ τ.pending)
          (hrest : ∀ e ∈ rest.filterMap Frame.delivery? ++ σ.suspended, e ∈ τ.pending) :
          ∀ e ∈ d :: (rest.filterMap Frame.delivery? ++ σ.suspended), ∃ e' ∈ τ.pending,
            e'.message = e.message ∧ e'.set = e.set ∧ e'.cursor = e.cursor := by
        intro e he
        obtain rfl | he := List.mem_cons.1 he
        · exact ⟨d', hd', rfl, rfl, rfl⟩
        · exact ⟨e, hrest e he, rfl, rfl, rfl⟩
      dsimp only
      split
      · exact hgoes _ List.mem_cons_self fun e he => List.mem_cons_of_mem _ he
      · split
        · exact hgoes _ List.mem_cons_self fun e he => List.mem_cons_of_mem _ he
        · refine hgoes _ ?_ fun e he => ?_
          · exact List.mem_append_right _ (List.mem_append_right _ List.mem_cons_self)
          · rw [pending, ← List.append_assoc]
            exact List.mem_append_left _ he
    next => exact fun e he => ⟨e, by rw [pending, hstack]; exact he, rfl, rfl, rfl⟩
  next => exact fun e he => ⟨e, he, rfl, rfl, rfl⟩

@[simp] lemma published_settled (i : ℕ) (rejected : Bool) :
    (σ.settled i rejected).published = σ.published := by
  unfold settled
  split <;> rfl

@[simp] lemma channels_settled (i : ℕ) (rejected : Bool) :
    (σ.settled i rejected).broker.channels = σ.broker.channels := by
  unfold settled
  split
  · dsimp only
    split <;> exact MessageBroker.channels_count _ _ _ _
  · rfl

lemma kept_settled (i : ℕ) (rejected : Bool) : Kept σ (σ.settled i rejected) := by
  refine .of_same (fewer_settled i rejected) (published_settled i rejected)
    (channels_settled i rejected) ?_
  unfold settled
  split
  next d hstack hd =>
    obtain ⟨hi, hget⟩ := List.getElem?_eq_some_iff.1 hd
    have hperm : (d :: σ.suspended.eraseIdx i).Perm σ.suspended := by
      rw [← hget]
      exact (List.getElem_cons_eraseIdx_perm hi)
    intro e he
    rw [pending, hstack] at he
    exact ⟨e, hperm.symm.subset he, rfl, rfl, rfl⟩
  next => exact fun e he => ⟨e, he, rfl, rfl, rfl⟩

/-! ## The loop -/

lemma not_toBeHanded_of_nextSub {b : MessageBroker P} {d : Delivery P}
    (h : nextSub b d = none) (id : ℕ) : ¬ ToBeHanded b d id := by
  rintro ⟨set, s, hget, hset, hs, hcursor, -, -⟩
  simp only [nextSub, hget, hset, if_true] at h
  exact absurd hcursor (by simpa using List.find?_eq_none.1 h s hs)

/-- A loop looks at the subscriptions it has ahead in the order of their ids. -/
lemma toBeHanded_nextSub {b : MessageBroker P} {d : Delivery P} {s : Subscription P}
    (hsorted : Sorted b) (hnext : nextSub b d = some s) {id : ℕ} (h : ToBeHanded b d id) :
    (id = s.id ∧ s.accepts d.message = .ok true) ∨
      ToBeHanded b { d with cursor := s.id + 1 } id := by
  obtain ⟨set, s', hget, hset, hs', hcursor, haccepts, rfl⟩ := h
  simp only [nextSub, hget, hset, if_true] at hnext
  obtain ⟨-, before, after, hsubs, hbefore⟩ := List.find?_eq_some_iff_append.1 hnext
  have hpairwise := hsorted _ set hget
  rw [hsubs] at hs' hpairwise
  obtain hs' | hs' := List.mem_append.1 hs'
  · exact absurd hcursor (by simpa using hbefore s' hs')
  · obtain rfl | hs' := List.mem_cons.1 hs'
    · exact .inl ⟨rfl, haccepts⟩
    · have hlt : s.id < s'.id :=
        (List.pairwise_cons.1 (List.pairwise_append.1 hpairwise).2.1).1 s' hs'
      have hmem : s' ∈ set.subs := by
        rw [hsubs]
        exact List.mem_append_right _ (List.mem_cons_of_mem _ hs')
      exact .inr ⟨set, s', hget, hset, hmem, hlt, haccepts, rfl⟩

/-- A loop passes over a subscription that does not accept the message. -/
lemma ToBeHanded.of_refused {b : MessageBroker P} {d : Delivery P} {s : Subscription P}
    (hsorted : Sorted b) (hnext : nextSub b d = some s) (hrefused : s.accepts d.message ≠ .ok true)
    {id : ℕ} (h : ToBeHanded b d id) : ToBeHanded b { d with cursor := s.id + 1 } id :=
  (toBeHanded_nextSub hsorted hnext h).resolve_left fun h => hrefused h.2

/-! ## The start of a publish -/

/-- A message is published, under the id drawn for it, and its loop begun if any subscription
accepts it. -/
lemma Exact.accept (h : σ.Exact) (message : SyncMessage P) (hid : message.id = σ.drawn)
    (begun : Option (Delivery P)) (hbegun : ∀ d ∈ begun, d.message = message)
    (hsubs : ∀ set, σ.broker.channels.get? message.channel = some set → ∀ s ∈ set.subs,
      s.accepts message = .ok true → ∃ d ∈ begun, ToBeHanded σ.broker d s.id) :
    ({ σ.accept message with stack := begun.toList.map .delivery ++ σ.stack } :
      Process P).Exact := by
  have hpending : ({ σ.accept message with stack := begun.toList.map .delivery ++ σ.stack } :
      Process P).pending = begun.toList ++ σ.pending := by
    cases begun <;> rfl
  refine ⟨?_, h.sorted, ?_, ?_, ?_, ?_, ?_, ?_, h.once, ?_⟩
  · intro c set hget s hs
    exact (h.live c set hget s hs).trans (Nat.lt_succ_self _)
  · exact fun a ha => (h.drawn a ha).trans (Nat.lt_succ_self _)
  · intro m hm
    obtain hm | hm := List.mem_append.1 hm
    · exact (h.published m hm).trans (Nat.lt_succ_self _)
    · rw [List.mem_singleton.1 hm, hid]
      exact Nat.lt_succ_self _
  · rw [hpending]
    intro d hd
    obtain hd | hd := List.mem_append.1 hd
    · rw [hbegun d (Option.mem_toList.1 hd)]
      exact List.mem_append_right _ (List.mem_singleton_self _)
    · exact List.mem_append_left _ (h.waiting d hd)
  · exact fun a ha => List.mem_append_left _ (h.handed a ha)
  · rw [hpending, List.map_append]
    refine List.pairwise_append.2 ⟨?_, h.distinct, ?_⟩
    · cases begun
      · exact .nil
      · exact List.pairwise_singleton _ _
    · intro m hm m' hm'
      obtain ⟨d, hd, rfl⟩ := List.mem_map.1 hm
      obtain ⟨d', hd', rfl⟩ := List.mem_map.1 hm'
      rw [hbegun d (Option.mem_toList.1 hd), hid]
      exact (h.published _ (h.waiting d' hd')).ne'
  · rw [hpending]
    intro d hd a ha heq
    obtain hd | hd := List.mem_append.1 hd
    · -- what was handed over has an older id
      rw [hbegun d (Option.mem_toList.1 hd), hid] at heq
      exact absurd heq (h.published _ (h.handed a ha)).ne
    · exact h.behind d hd a ha heq
  · rw [hpending]
    intro m hm set hget s hs hlt haccepts
    obtain hm | hm := List.mem_append.1 hm
    · refine (h.complete m hm set hget s hs hlt haccepts).imp_right ?_
      rintro ⟨d, hd, hmessage, hahead⟩
      exact ⟨d, List.mem_append_right _ hd, hmessage, hahead⟩
    · obtain rfl := List.mem_singleton.1 hm
      obtain ⟨d, hd, hahead⟩ := hsubs set hget s hs haccepts
      exact .inr ⟨d, List.mem_append_left _ (Option.mem_toList.2 hd), hbegun d hd, hahead⟩

/-- A loop that begins has every subscription ahead that accepts its message. -/
lemma Exact.begin (h : σ.Exact) (mode : Mode) (message : SyncMessage P)
    (hid : message.id = σ.drawn) {set : ChannelSubs P}
    (hset : σ.broker.channels.get? message.channel = some set) :
    ((σ.accept message).push (.delivery ⟨mode, message, some set.id, 0, none⟩)).Exact := by
  refine h.accept message hid (some ⟨mode, message, some set.id, 0, none⟩) ?_ ?_
  · intro d hd
    obtain rfl := Option.some.inj hd
    rfl
  · intro set' hset' s hs haccepts
    obtain rfl := Option.some.inj (hset.symm.trans hset')
    exact ⟨_, rfl, set, s, hset, rfl, hs, Nat.zero_le _, haccepts, rfl⟩

lemma Exact.publish (h : σ.Exact) (channel : ChannelId) (type : MessageType) (payload : P)
    (target : Option NodeId) (now : Timestamp) :
    (σ.publish channel type payload target now).Exact := by
  unfold Process.publish
  dsimp only
  split
  next hnone =>
    refine h.accept _ rfl none (by simp) fun set hset => ?_
    cases hnone.symm.trans hset
  next set hset =>
    split
    next hempty =>
      refine Exact.kept (h.accept _ rfl none (by simp) fun set' hset' s hs => ?_)
        (.of_same (.of_pending (MessageBroker.channels_count _ _ _ _)
          (fun _ => MessageBroker.counter_count _ _ _ _ _) rfl rfl (List.Subperm.refl _)
          fun d hd => ⟨d, hd, rfl, rfl, le_rfl⟩) rfl (MessageBroker.channels_count _ _ _ _)
          fun d hd => ⟨d, hd, rfl, rfl, rfl⟩)
      obtain rfl := Option.some.inj (hset.symm.trans hset')
      rw [List.length_eq_zero_iff.1 hempty] at hs
      cases hs
    next => exact h.begin .publish _ rfl hset

lemma Exact.publishSync (h : σ.Exact) (channel : ChannelId) (type : MessageType) (payload : P)
    (now : Timestamp) : (σ.publishSync channel type payload now).Exact := by
  unfold Process.publishSync
  dsimp only
  split
  next hnone =>
    refine h.accept _ rfl none (by simp) fun set hset => ?_
    cases hnone.symm.trans hset
  next set hset => exact h.begin .publishSync _ rfl hset

/-! ## The call of a handler -/

/-- **Handing a message over is the first time for its subscription.** -/
lemma Exact.hand (h : σ.Exact) {d : Delivery P} {rest : List (Frame P)}
    (hstack : σ.stack = .delivery d :: rest) {s : Subscription P}
    (hnext : nextSub σ.broker d = some s) (haccepts : s.accepts d.message = .ok true) :
    ({ σ with
        handed := σ.handed ++ [(s.id, d.message)]
        stack := .delivery { d with cursor := s.id + 1, handling := some s.id } :: rest } :
      Process P).Exact := by
  obtain ⟨subs, hsubs, hset, hs, hcursor⟩ := nextSub_eq_some hnext
  have hahead : ToBeHanded σ.broker d s.id := ⟨subs, s, hsubs, hset, hs, hcursor, haccepts, rfl⟩
  set e : Delivery P := { d with cursor := s.id + 1, handling := some s.id }
  set others := rest.filterMap Frame.delivery? ++ σ.suspended
  have hpending : σ.pending = d :: others := by
    rw [pending, hstack]
    rfl
  have hd : d ∈ σ.pending := by
    rw [hpending]
    exact List.mem_cons_self
  have hothers : ∀ d' ∈ others, d' ∈ σ.pending := by
    rw [hpending]
    exact fun d' hd' => List.mem_cons_of_mem _ hd'
  have hdistinct := h.distinct
  rw [hpending, List.map_cons] at hdistinct
  refine ⟨h.live, h.sorted, ?_, h.published, ?_, ?_, hdistinct, ?_, ?_, ?_⟩
  · intro a ha
    obtain ha | ha := List.mem_append.1 ha
    · exact h.drawn a ha
    · rw [List.mem_singleton.1 ha]
      exact h.live _ subs hsubs s hs
  · intro d' hd'
    obtain rfl | hd' := List.mem_cons.1 hd'
    · exact h.waiting d hd
    · exact h.waiting d' (hothers d' hd')
  · intro a ha
    obtain ha | ha := List.mem_append.1 ha
    · exact h.handed a ha
    · rw [List.mem_singleton.1 ha]
      exact h.waiting d hd
  · intro d' hd' a ha hid hahead'
    obtain ha | ha := List.mem_append.1 ha
    · obtain rfl | hd' := List.mem_cons.1 hd'
      · exact h.behind d hd a ha hid
          (hahead'.of_later rfl rfl (hcursor.trans (Nat.le_succ _)))
      · exact h.behind d' (hothers d' hd') a ha hid hahead'
    · rw [List.mem_singleton.1 ha] at hid hahead'
      obtain rfl | hd' := List.mem_cons.1 hd'
      · -- The loop itself has gone past the subscription.
        obtain ⟨-, s', -, -, -, hle, -, hsid⟩ := hahead'
        have hge : s.id + 1 ≤ s'.id := hle
        simp only at hsid
        omega
      · exact (List.pairwise_cons.1 hdistinct).1 _ (List.mem_map_of_mem hd') hid
  · refine List.pairwise_append.2 ⟨h.once, List.pairwise_singleton _ _, fun a ha a' ha' => ?_⟩
    rw [List.mem_singleton.1 ha']
    intro hid heq
    exact h.behind d hd a ha hid (heq ▸ hahead)
  · intro m hm set hget s' hs' hlt haccepts'
    obtain hmem | ⟨d', hd', hmessage, hahead'⟩ := h.complete m hm set hget s' hs' hlt haccepts'
    · exact .inl (List.mem_append_left _ hmem)
    · rw [hpending] at hd'
      obtain rfl | hd' := List.mem_cons.1 hd'
      · obtain ⟨hid, -⟩ | hlater := toBeHanded_nextSub h.sorted hnext hahead'
        · rw [hid, ← hmessage]
          exact .inl (List.mem_append_right _ (List.mem_singleton_self _))
        · exact .inr ⟨e, List.mem_cons_self, hmessage, hlater.of_later rfl rfl le_rfl⟩
      · exact .inr ⟨d', List.mem_cons_of_mem _ hd', hmessage, hahead'⟩

lemma Exact.turn (h : σ.Exact) {d : Delivery P} {rest : List (Frame P)}
    (hstack : σ.stack = .delivery d :: rest) : (σ.turn d rest).Exact := by
  unfold Process.turn
  cases hnext : nextSub σ.broker d with
  | none =>
    refine h.kept (.of_tail hstack fun d' hd' => ?_)
    obtain rfl := Option.some.inj hd'
    exact not_toBeHanded_of_nextSub hnext
  | some s =>
    obtain ⟨-, -, -, -, hle⟩ := nextSub_eq_some hnext
    have hcursor : d.cursor ≤ s.id + 1 := hle.trans (Nat.le_succ _)
    dsimp only
    cases haccepts : s.accepts d.message with
    | error e =>
      have hchannels : (if d.mode = .publish then σ.broker.drop d.message.channel d.set
          else σ.broker).channels = σ.broker.channels := by
        split
        · exact MessageBroker.channels_count _ _ _ _
        · rfl
      refine h.kept (.of_head (.of_head hstack rfl rfl rfl hcursor rfl hchannels (fun c => ?_) rfl
        rfl) hstack rfl rfl rfl rfl hchannels fun hsorted id hahead => ?_)
      · dsimp only
        split
        · exact MessageBroker.counter_count _ _ _ _ _
        · rfl
      · exact hahead.of_refused hsorted hnext (by rw [haccepts]; exact nofun)
    | ok accepted =>
      cases accepted with
      | false =>
        refine h.kept (.of_head (.of_head hstack rfl rfl rfl hcursor rfl rfl (fun _ => rfl) rfl
          rfl) hstack rfl rfl rfl rfl rfl fun hsorted id hahead => ?_)
        exact hahead.of_refused hsorted hnext (by rw [haccepts]; exact nofun)
      | true => exact h.hand hstack hnext haccepts

/-! ## Whole runs -/

lemma Exact.advance (h : σ.Exact) (now : Timestamp) : (σ.advance now).Exact := by
  unfold Process.advance
  split
  · exact h
  next d rest hstack =>
    split
    · exact h
    · exact h.turn hstack
  next type payload cursor rest hstack =>
    split
    · exact h.kept (.of_tail hstack fun d hd => nomatch hd)
    next channel set hnext =>
      have hpending : ({ σ with stack := .broadcast type payload (set.id + 1) :: rest } :
          Process P).pending = σ.pending := by
        rw [pending, pending, hstack]
        rfl
      apply Exact.publishSync
      have hmessages := (List.Perm.of_eq (congrArg (List.map Delivery.message) hpending)).subperm
      refine h.kept (.of_same (.of_pending rfl (fun _ => rfl) rfl rfl hmessages fun d hd => ?_) rfl
        rfl fun d hd => ?_)
      · exact ⟨d, hpending ▸ hd, rfl, rfl, le_rfl⟩
      · exact ⟨d, hpending.symm ▸ hd, rfl, rfl, rfl⟩

lemma Exact.whenIdle (h : σ.Exact) {f : Process P → Process P} (hf : (f σ).Exact) :
    (σ.whenIdle f).Exact := by
  unfold Process.whenIdle
  split
  · exact hf
  · exact h

lemma Exact.step (h : σ.Exact) (i : Input P) : (σ.step i).Exact := by
  cases i with
  | subscribe channel filter now =>
    simp only [Process.step]
    exact h.whenIdle (h.kept (kept_subscribe channel filter now))
  | unsubscribe channel id =>
    simp only [Process.step]
    exact h.whenIdle (h.kept (kept_unsubscribe channel id))
  | publish channel type payload target now =>
    simp only [Process.step]
    apply h.whenIdle
    exact h.publish channel type payload target now
  | publishSync channel type payload now =>
    simp only [Process.step]
    apply h.whenIdle
    exact h.publishSync channel type payload now
  | broadcast type payload =>
    simp only [Process.step]
    apply h.whenIdle
    have hf : Fewer σ (σ.push (.broadcast type payload 0)) :=
      .of_pending rfl (fun _ => rfl) rfl rfl (List.Subperm.refl _)
        fun d hd => ⟨d, hd, rfl, rfl, le_rfl⟩
    exact h.kept (.of_same hf rfl rfl fun d hd => ⟨d, hd, rfl, rfl, rfl⟩)
  | advance now => exact h.advance now
  | returned threw => exact h.kept (kept_returned threw)
  | settled i rejected => exact h.kept (kept_settled i rejected)

lemma exact_new (nodeId : NodeId) (bufferSize : ℕ) : (new nodeId bufferSize : Process P).Exact where
  live := by simp [Live, new, MessageBroker.new]
  sorted := by simp [Sorted, new, MessageBroker.new]
  drawn := by simp [new]
  published := by simp [new]
  waiting := by simp [pending, new]
  handed := by simp [new]
  distinct := .nil
  behind := by simp [new]
  once := .nil
  complete := by simp [new]

end Process

end SyncEngine
