import SyncEngine.Core.MessageBroker

/-!
# Recent messages

`getRecentMessages` is meant to look back: the last messages of a channel, out of the last ones the
broker has published.  The ring buffer behind it refuses what it has no room for, so it holds the
*first* messages published (`buffered_run`), and `slice(-count)` with a count of zero is the whole
list.  `recent_messages_iff` says for which runs, channels and counts the answer is right anyway.

Messages carry distinct ids, so which messages a list holds is a question about lengths:
`rtake_take_eq_iff`.
-/

namespace SyncEngine

open Js

/-! ## Both ends of a list -/

/-- When the last `n` of the first `f` are the last `n` of the last `l`. -/
lemma rtake_take_eq_iff {α : Type} {list : List α} (hnodup : list.Nodup) {f l : ℕ}
    (hf : f ≤ list.length) (hl : l ≤ list.length) {n : ℕ} (hn : n ≠ 0) :
    (list.take f).rtake n = (list.rtake l).rtake n ↔
      (f = 0 ∧ l = 0) ∨ (f = list.length ∧ min n list.length ≤ l) := by
  have hlast : (list.rtake l).rtake n = list.rtake (min n l) := by
    simp only [List.rtake, List.drop_drop, List.length_drop]
    congr 1
    omega
  rw [hlast]
  by_cases hf0 : f = 0
  · have hnil : (list.take f).rtake n = [] := by simp [hf0, List.rtake]
    rw [hnil, eq_comm, List.rtake, List.drop_eq_nil_iff]
    omega
  · constructor
    · intro heq
      right
      -- The last message on the left is the last of the first `f`, the one on the right the last
      -- of all.
      have hlength := congrArg List.length heq
      simp only [List.rtake, List.length_drop, List.length_take] at hlength
      have hend : f = list.length := by
        have hget := congrArg List.getLast? heq
        have hleft : ((list.take f).rtake n).getLast? = list[f - 1]? := by
          rw [List.rtake, List.getLast?_drop, if_neg, List.getLast?_take, if_neg hf0]
          · cases hx : list[f - 1]? with
            | some x => rfl
            | none =>
              rw [List.getElem?_eq_none_iff] at hx
              omega
          · rw [List.length_take]
            omega
        have hright : (list.rtake (min n l)).getLast? = list[list.length - 1]? := by
          rw [List.rtake, List.getLast?_drop, if_neg, List.getLast?_eq_getElem?]
          omega
        rw [hleft, hright] at hget
        have hinj := (List.getElem?_inj (show f - 1 < list.length by omega) hnodup).1 hget
        omega
      omega
    · rintro (⟨h, -⟩ | ⟨rfl, hmin⟩)
      · exact absurd h hf0
      · rw [List.take_length, List.rtake, List.rtake]
        congr 1
        omega

lemma slice_neg {α : Type} (list : List α) (count : ℕ) :
    slice list (-(count : ℤ)) = if count = 0 then list else list.rtake count := by
  rw [slice]
  split
  next h =>
    rw [if_neg (by omega), List.rtake]
    congr 1
    omega
  next h =>
    obtain rfl : count = 0 := by omega
    rfl

/-! ## What the buffer holds -/

namespace MessageBroker

variable {P : Type}

@[simp] lemma messageBuffer_count (b : MessageBroker P) (channel : ChannelId) (set : Option ℕ)
    (f : ChannelStats → ChannelStats) :
    (b.count channel set f).messageBuffer = b.messageBuffer := by
  unfold count
  split <;> rfl

@[simp] lemma messageBuffer_drop (b : MessageBroker P) (channel : ChannelId) (set : Option ℕ) :
    (b.drop channel set).messageBuffer = b.messageBuffer := messageBuffer_count b channel set _

@[simp] lemma messageBuffer_deliver (b : MessageBroker P) (channel : ChannelId) (set : Option ℕ) :
    (b.deliver channel set).messageBuffer = b.messageBuffer := messageBuffer_count b channel set _

@[simp] lemma messageBuffer_subscribe (b : MessageBroker P) (setId id : ℕ) (channel : ChannelId)
    (filter : Option (SyncMessage P → Except JsError Bool)) (now : Timestamp) :
    (b.subscribe setId id channel filter now).messageBuffer = b.messageBuffer := by
  unfold subscribe
  split <;> rfl

@[simp] lemma messageBuffer_unsubscribe (b : MessageBroker P) (channel : ChannelId) (id : ℕ) :
    (b.unsubscribe channel id).messageBuffer = b.messageBuffer := by
  unfold unsubscribe
  split
  · rfl
  · dsimp only
    split <;> rfl

end MessageBroker

namespace Process

variable {P : Type} {b : ℕ} {σ τ : Process P}

/-- The buffer holds the first `b` messages published, and every message has an id of its own. -/
structure Buffered (b : ℕ) (σ : Process P) : Prop where
  capacity : σ.broker.messageBuffer.capacity = b
  buffer : σ.broker.messageBuffer.toArray = σ.published.take b
  drawn : ∀ m ∈ σ.published, m.id < σ.drawn
  ordered : σ.published.Pairwise fun m m' => m.id < m'.id

/-- What publishes nothing. -/
lemma Buffered.congr (h : σ.Buffered b) (hbuffer : τ.broker.messageBuffer = σ.broker.messageBuffer)
    (hpublished : τ.published = σ.published) (hdrawn : σ.drawn ≤ τ.drawn) : τ.Buffered b where
  capacity := by
    rw [hbuffer]
    exact h.capacity
  buffer := by
    rw [hbuffer, hpublished]
    exact h.buffer
  drawn m hm := by
    rw [hpublished] at hm
    exact (h.drawn m hm).trans_le hdrawn
  ordered := by
    rw [hpublished]
    exact h.ordered

lemma Buffered.accept (h : σ.Buffered b) (message : SyncMessage P) (hid : message.id = σ.drawn) :
    (σ.accept message).Buffered b where
  capacity := (RingBuffer.capacity_push _ _).trans h.capacity
  buffer := by
    have hfirst := h.buffer
    rw [← h.capacity] at hfirst ⊢
    exact RingBuffer.toArray_push_take hfirst message
  drawn m hm := by
    obtain hm | hm := List.mem_append.1 hm
    · exact (h.drawn m hm).trans (Nat.lt_succ_self _)
    · rw [List.mem_singleton.1 hm, hid]
      exact Nat.lt_succ_self _
  ordered := by
    refine List.pairwise_append.2 ⟨h.ordered, List.pairwise_singleton _ _, fun m hm m' hm' => ?_⟩
    rw [List.mem_singleton.1 hm', hid]
    exact h.drawn m hm

lemma Buffered.publish (h : σ.Buffered b) (channel : ChannelId) (type : MessageType) (payload : P)
    (target : Option NodeId) (now : Timestamp) :
    (σ.publish channel type payload target now).Buffered b := by
  have haccept := h.accept (σ.broker.nextMessage σ.drawn channel type payload target now) rfl
  unfold Process.publish
  dsimp only
  split
  · exact haccept
  · split
    · exact haccept.congr (MessageBroker.messageBuffer_drop _ _ _) rfl le_rfl
    · exact haccept.congr rfl rfl le_rfl

lemma Buffered.publishSync (h : σ.Buffered b) (channel : ChannelId) (type : MessageType)
    (payload : P) (now : Timestamp) : (σ.publishSync channel type payload now).Buffered b := by
  have haccept := h.accept (σ.broker.nextMessage σ.drawn channel type payload none now) rfl
  unfold Process.publishSync
  dsimp only
  split
  · exact haccept
  · exact haccept.congr rfl rfl le_rfl

lemma Buffered.turn (h : σ.Buffered b) (d : Delivery P) (rest : List (Frame P)) :
    (σ.turn d rest).Buffered b := by
  unfold Process.turn
  split
  · exact h.congr rfl rfl le_rfl
  · dsimp only
    split
    · refine h.congr ?_ rfl le_rfl
      dsimp only
      split
      · exact MessageBroker.messageBuffer_drop _ _ _
      · rfl
    · exact h.congr rfl rfl le_rfl
    · exact h.congr rfl rfl le_rfl

lemma Buffered.advance (h : σ.Buffered b) (now : Timestamp) : (σ.advance now).Buffered b := by
  unfold Process.advance
  split
  · exact h
  · split
    · exact h
    · exact h.turn _ _
  · split
    · exact h.congr rfl rfl le_rfl
    · apply Buffered.publishSync
      exact h.congr rfl rfl le_rfl

lemma Buffered.returned (h : σ.Buffered b) (threw : Bool) : (σ.returned threw).Buffered b := by
  unfold Process.returned
  split
  · split
    · dsimp only
      split
      · exact h.congr rfl rfl le_rfl
      · split
        · exact h.congr (MessageBroker.messageBuffer_drop _ _ _) rfl le_rfl
        · exact h.congr rfl rfl le_rfl
    · exact h
  · exact h

lemma Buffered.settled (h : σ.Buffered b) (i : ℕ) (rejected : Bool) :
    (σ.settled i rejected).Buffered b := by
  unfold Process.settled
  split
  · refine h.congr ?_ rfl le_rfl
    dsimp only
    split
    · exact MessageBroker.messageBuffer_drop _ _ _
    · exact MessageBroker.messageBuffer_deliver _ _ _
  · exact h

lemma Buffered.whenIdle (h : σ.Buffered b) {f : Process P → Process P}
    (hf : (f σ).Buffered b) : (σ.whenIdle f).Buffered b := by
  unfold Process.whenIdle
  split
  · exact hf
  · exact h

lemma Buffered.step (h : σ.Buffered b) (i : Input P) : (σ.step i).Buffered b := by
  cases i with
  | subscribe channel filter now =>
    simp only [Process.step]
    apply h.whenIdle
    exact h.congr (MessageBroker.messageBuffer_subscribe _ _ _ _ _ _) rfl (Nat.le_add_right _ 2)
  | unsubscribe channel id =>
    simp only [Process.step]
    apply h.whenIdle
    exact h.congr (MessageBroker.messageBuffer_unsubscribe _ _ _) rfl le_rfl
  | publish channel type payload target now =>
    simp only [Process.step]
    apply h.whenIdle
    exact h.publish channel type payload target now
  | publishSync channel type payload now =>
    simp only [Process.step]
    apply h.whenIdle
    exact h.publishSync channel type payload now
  | broadcast type payload =>
    simp only [Process.step]
    apply h.whenIdle
    exact h.congr rfl rfl le_rfl
  | advance now => exact h.advance now
  | returned threw => exact h.returned threw
  | settled i rejected => exact h.settled i rejected

/-- **The buffer holds the first messages that were published.** -/
lemma buffered_run (nodeId : NodeId) (b : ℕ) (inputs : List (Input P)) :
    (Machine.run step (new nodeId b) inputs).Buffered b := by
  refine Machine.always (fun σ i (h : σ.Buffered b) => h.step i) inputs ?_
  exact ⟨rfl, by simp [new, MessageBroker.new], by simp [new], .nil⟩

/-- **When recent messages are the recent messages.**  After any run of a broker with room for `b`
messages, `getRecentMessages` returns the last `n` of the channel's messages among the last `b`
published, exactly when: for `n = 0`, none of the first `b` messages published is of the channel;
for `n ≥ 1`, no message of the channel is among the first or the last `b`, or all of them are among
the first `b`, and `n` of them, or all, among the last `b`. -/
theorem recent_messages_iff (nodeId : NodeId) (b : ℕ) (inputs : List (Input P))
    (channel : ChannelId) (n : ℕ) :
    let published := (Machine.run step (new nodeId b) inputs).published
    let isOf : SyncMessage P → Bool := fun m => m.channel = channel
    (Machine.run step (new nodeId b) inputs).broker.getRecentMessages channel n =
        ((published.rtake b).filter isOf).rtake n ↔
      if n = 0 then (published.take b).countP isOf = 0
      else ((published.take b).countP isOf = 0 ∧ (published.rtake b).countP isOf = 0) ∨
        ((published.take b).countP isOf = published.countP isOf ∧
          min n (published.countP isOf) ≤ (published.rtake b).countP isOf) := by
  intro published isOf
  have hbuffered := buffered_run nodeId b inputs
  set all := published.filter isOf with hall
  have hnodup : all.Nodup := by
    refine List.Nodup.filter _ (hbuffered.ordered.imp ?_)
    rintro m m' hlt rfl
    exact lt_irrefl _ hlt
  -- The first and the last `b` messages published are a first and a last part of the channel's.
  have hfirst : (published.take b).filter isOf = all.take ((published.take b).countP isOf) := by
    have hprefix := (List.take_prefix b published).filter isOf
    rw [List.countP_eq_length_filter]
    exact List.prefix_iff_eq_take.1 hprefix
  have hlast : (published.rtake b).filter isOf = all.rtake ((published.rtake b).countP isOf) := by
    have hsuffix := (List.drop_suffix (published.length - b) published).filter isOf
    rw [List.countP_eq_length_filter]
    exact List.suffix_iff_eq_drop.1 hsuffix
  have hf : (published.take b).countP isOf ≤ all.length := by
    rw [hall, ← List.countP_eq_length_filter]
    exact (List.take_sublist _ _).countP_le
  have hl : (published.rtake b).countP isOf ≤ all.length := by
    rw [hall, ← List.countP_eq_length_filter]
    exact (List.drop_sublist _ _).countP_le
  have hlength : published.countP isOf = all.length := List.countP_eq_length_filter
  have hrecent : (Machine.run step (new nodeId b) inputs).broker.getRecentMessages channel n =
      slice (all.take ((published.take b).countP isOf)) (-(n : ℤ)) := by
    rw [MessageBroker.getRecentMessages, hbuffered.buffer, ← hfirst]
  rw [hrecent, slice_neg, hlast, hlength]
  by_cases hn : n = 0
  · rw [if_pos hn, if_pos hn, hn]
    simp only [List.rtake, Nat.sub_zero, List.drop_length]
    rw [← List.length_eq_zero_iff, List.length_take, Nat.min_eq_left hf]
  · rw [if_neg hn, if_neg hn]
    exact rtake_take_eq_iff hnodup hf hl hn

/-- Two messages on one channel. -/
def twoMessages : List (Input Unit) :=
  [.publish "chat" .event () none 1, .publish "chat" .event () none 2]

/-- A broker with room for one message returns the first of them as the most recent. -/
theorem recent_message_is_first :
    (Machine.run step (new "node" 1) twoMessages).broker.getRecentMessages "chat" 1 ≠
      (((Machine.run step (new "node" 1) twoMessages).published.rtake 1).filter
        fun m => m.channel = "chat").rtake 1 := by
  intro h
  have hsequence := congrArg (List.map SyncMessage.sequence) h
  revert hsequence
  decide

end Process

end SyncEngine
