import SyncEngine.Network.ConnectionPool

/-!
# Races for the connection pool

`acquire` looks at the array of its host before it connects, and puts the connection into that array
afterwards.  In between other attempts may have filled the array, `remove` may have emptied it and
dropped it from the map, and `cleanup` may have put a filtered copy in its place.

The bound on the connections kept for a host is held exactly when every attempt that succeeds still
finds room in its array (`bounded_iff`).  No connection is lost, and none that `cleanup` closed
comes back, exactly when every attempt that succeeds finds in its array all live connections that
are kept then, and none that was closed (`none_lost_iff`).

All other steps can only take connections out of what is kept; `Quiet` is what they have in common.
-/

namespace SyncEngine

open Js

namespace ConnectionPool

namespace Recorded

variable {cfg : Config} {s s' : Recorded} {now : Timestamp} {owner : ArrayRef → String}

/-- Arrays belong to their keys, and only connections that were made are recorded. -/
structure Sound (owner : ArrayRef → String) (s : Recorded) : Prop where
  owned : s.pool.Owned owner
  returned : ∀ c ∈ s.returned, c < s.pool.created
  removed : ∀ c ∈ s.removed, c < s.pool.created
  closed : ∀ c ∈ s.closed, c < s.pool.created
  notOpen : ∀ c ∈ s.notOpen, c < s.pool.created

/-- Some way of giving the arrays to keys is sound. -/
def Inv (s : Recorded) : Prop := ∃ owner, Sound owner s

lemma inv_new : Inv new :=
  ⟨fun _ => "", Pool.owned_new _, by simp [new], by simp [new], by simp [new], by simp [new]⟩

/-- Returned by `acquire`, not removed, and neither closed nor found not open by `cleanup`. -/
def Live (s : Recorded) (c : ConnectionRef) : Prop :=
  c ∈ s.returned ∧ c ∉ s.removed ∧ c ∉ s.closed ∧ c ∉ s.notOpen

/-- A step that keeps for every key at most what was kept, and does not lose what is live. -/
structure Quiet (s s' : Recorded) : Prop where
  key : ∀ c, (s'.pool.connection c).key = (s.pool.connection c).key
  kept : ∀ key, (s'.pool.kept key).Sublist (s.pool.kept key)
  live : ∀ c, Live s' c → (Live s c → c ∈ s.pool.kept (s.pool.connection c).key) →
    c ∈ s'.pool.kept (s.pool.connection c).key
  closed : ∀ c ∈ s'.closed, c ∈ s.closed ∨ ∀ key, c ∉ s'.pool.kept key

namespace Quiet

lemma refl (s : Recorded) : Quiet s s :=
  ⟨fun _ => rfl, fun _ => .refl _, fun _ hlive h => h hlive, fun _ => .inl⟩

lemma trans {s'' : Recorded} (h : Quiet s s') (h' : Quiet s' s'') : Quiet s s'' where
  key c := (h'.key c).trans (h.key c)
  kept key := (h'.kept key).trans (h.kept key)
  live c hlive hc := by
    have hnext := h'.live c hlive
    rw [h.key c] at hnext
    exact hnext fun hlive' => h.live c hlive' hc
  closed c hc := by
    obtain hc | hnot := h'.closed c hc
    · obtain hc | hnot := h.closed c hc
      · exact .inl hc
      · exact .inr fun key hmem => hnot key ((h'.kept key).subset hmem)
    · exact .inr hnot

/-- Where nothing is taken out and nothing is recorded. -/
lemma of_kept_eq (hkey : ∀ c, (s'.pool.connection c).key = (s.pool.connection c).key)
    (hkept : ∀ key, s'.pool.kept key = s.pool.kept key) (hlive : ∀ c, Live s' c → Live s c)
    (hclosed : s'.closed = s.closed) : Quiet s s' where
  key := hkey
  kept key := by rw [hkept]
  live c hc h := by
    rw [hkept]
    exact h (hlive c hc)
  closed c hc := .inl (hclosed ▸ hc)

end Quiet

/-! ## The quiet steps -/

/-- The three things `acquire` can do. -/
lemma acquire_cases (cfg : Config) (now : Timestamp) (host : String) (port : ℕ) (s : Recorded) :
    (∃ c ∈ s.pool.kept (keyOf host port), s.acquire cfg now host port =
      { s with pool := s.pool.updateConnection c (Pool.use now), returned := c :: s.returned }) ∨
    s.acquire cfg now host port = { s with pool := (s.pool.arrayFor (keyOf host port)).2 } ∨
    s.acquire cfg now host port = { s with
      pool := { (s.pool.arrayFor (keyOf host port)).2 with
        attempts := s.pool.attempts ++
          [⟨host, port, (s.pool.arrayFor (keyOf host port)).1⟩] } } := by
  unfold Recorded.acquire
  obtain ⟨c, hc, heq⟩ | ⟨-, heq⟩ | ⟨-, heq⟩ := s.pool.acquire_cases cfg now host port
  · rw [heq]
    exact .inl ⟨c, hc, rfl⟩
  · rw [heq]
    exact .inr (.inl rfl)
  · rw [heq]
    exact .inr (.inr rfl)

lemma Sound.acquire (h : Sound owner s) (cfg : Config)
    (now : Timestamp) (host : String) (port : ℕ) :
    Inv (s.acquire cfg now host port) ∧ Quiet s (s.acquire cfg now host port) := by
  obtain ⟨owner', howned, hlt, hkey⟩ := h.owned.arrayFor (keyOf host port)
  have hkept := Pool.kept_arrayFor h.owned (keyOf host port)
  obtain ⟨c, hc, heq⟩ | heq | heq := s.acquire_cases cfg now host port
  · rw [heq]
    constructor
    · refine ⟨owner, h.owned.updateConnection (f := Pool.use now) (fun _ => rfl) c, fun d hd => ?_,
        h.removed, h.closed, h.notOpen⟩
      obtain rfl | hd := List.mem_cons.1 hd
      · exact (h.owned.mem_kept hc).1
      · exact h.returned d hd
    · refine ⟨Pool.key_updateConnection (f := Pool.use now) (fun _ => rfl) c, fun _ => .refl _,
        fun d hd hkept => ?_, fun _ => .inl⟩
      obtain ⟨hreturned, hrest⟩ := hd
      obtain rfl | hd := List.mem_cons.1 hreturned
      · rw [(h.owned.mem_kept hc).2]
        exact hc
      · exact hkept ⟨hd, hrest⟩
  · rw [heq]
    constructor
    · refine ⟨owner', howned, ?_, ?_, ?_, ?_⟩
      · simpa using h.returned
      · simpa using h.removed
      · simpa using h.closed
      · simpa using h.notOpen
    · exact .of_kept_eq (by simp) hkept (fun _ hc => hc) rfl
  · rw [heq]
    constructor
    · refine ⟨owner', ?_, ?_, ?_, ?_, ?_⟩
      · have hstart := howned.startAttempt
          (a := ⟨host, port, (s.pool.arrayFor (keyOf host port)).1⟩) hlt hkey
        rwa [Pool.attempts_arrayFor] at hstart
      · simpa using h.returned
      · simpa using h.removed
      · simpa using h.closed
      · simpa using h.notOpen
    · exact .of_kept_eq (by simp) hkept (fun _ hc => hc) rfl

lemma Sound.endAttempt (h : Sound owner s) (i : ℕ) :
    Inv (s.endAttempt i) ∧ Quiet s (s.endAttempt i) :=
  ⟨⟨owner, h.owned.eraseAttempt i, h.returned, h.removed, h.closed, h.notOpen⟩,
    .of_kept_eq (fun _ => rfl) (fun _ => rfl) (fun _ hc => hc) rfl⟩

/-- Writing to a connection, but not to its host or its port. -/
lemma Sound.write (h : Sound owner s) {f : PooledConnection → PooledConnection}
    (hf : ∀ c, (f c).key = c.key) (c : ConnectionRef) :
    Inv (s.write c f) ∧ Quiet s (s.write c f) := by
  unfold Recorded.write
  split
  · refine ⟨⟨owner, h.owned.updateConnection hf c, h.returned, h.removed, h.closed, h.notOpen⟩, ?_⟩
    exact .of_kept_eq (Pool.key_updateConnection hf c) (fun _ => rfl) (fun _ hc => hc) rfl
  · exact ⟨⟨owner, h⟩, .refl s⟩

lemma Sound.remove (h : Sound owner s) {c : ConnectionRef} (hc : c < s.pool.created) :
    Inv (s.remove c) ∧ Quiet s (s.remove c) := by
  have hkept : ∀ key, (s.remove c).pool.kept key =
      if key = (s.pool.connection c).key then (s.pool.kept key).erase c else s.pool.kept key :=
    Pool.kept_takeOut h.owned c
  have hcreated : (s.pool.remove c).created = s.pool.created := Pool.created_takeOut c
  constructor
  · refine ⟨owner, (h.owned.takeOut c).updateConnection Pool.key_closeIfOpen c, ?_, ?_, ?_, ?_⟩
    · exact fun d hd => hcreated ▸ h.returned d hd
    · intro d hd
      obtain rfl | hd := List.mem_cons.1 hd
      · exact hcreated ▸ hc
      · exact hcreated ▸ h.removed d hd
    · exact fun d hd => hcreated ▸ h.closed d hd
    · exact fun d hd => hcreated ▸ h.notOpen d hd
  · refine ⟨fun d => ?_, fun key => ?_, fun d hd hlive => ?_, fun _ => .inl⟩
    · refine (Pool.key_updateConnection Pool.key_closeIfOpen c d).trans ?_
      rw [Pool.connection_takeOut]
    · rw [hkept]
      split
      · exact List.erase_sublist
      · exact .refl _
    · obtain ⟨hreturned, hremoved, hrest⟩ := hd
      obtain ⟨hne, hremoved⟩ := not_or.1 (mt List.mem_cons.2 hremoved)
      have hmem := hlive ⟨hreturned, hremoved, hrest⟩
      rw [hkept]
      split
      · exact (List.mem_erase_of_ne hne).2 hmem
      · exact hmem

/-- What `cleanup` does at one key. -/
lemma Sound.cleanupAt (h : Sound owner s) (cfg : Config) (now : Timestamp) {key : String}
    {r : ArrayRef} (hr : s.pool.connections.get? key = some r) :
    Inv (s.cleanupAt cfg now (key, r)) ∧ Quiet s (s.cleanupAt cfg now (key, r)) := by
  have hkept : ∀ key', (s.cleanupAt cfg now (key, r)).pool.kept key' =
      if key' = key then s.pool.found cfg now .keep r else s.pool.kept key' :=
    Pool.kept_cleanupAt h.owned key r
  have hcreated : (s.cleanupAt cfg now (key, r)).pool.created = s.pool.created :=
    Pool.created_cleanupAt key r
  have harray : s.pool.kept key = s.pool.array r := Pool.kept_eq hr
  have hfound : ∀ v, ∀ c ∈ s.pool.found cfg now v r,
      c ∈ s.pool.kept key ∧ verdict cfg now (s.pool.connection c) = v := by
    intro v c hc
    obtain ⟨hmem, hv⟩ := List.mem_filter.1 hc
    exact ⟨harray ▸ hmem, of_decide_eq_true hv⟩
  have hmade : ∀ v, ∀ c ∈ s.pool.found cfg now v r, c < s.pool.created := fun v c hc =>
    (h.owned.mem_kept (hfound v c hc).1).1
  constructor
  · obtain ⟨owner', howned⟩ : ∃ owner', Pool.Owned owner' (s.pool.cleanupAt cfg now key r) :=
      h.owned.cleanupAt hr
    refine ⟨owner', howned, ?_, ?_, fun c hc => ?_, fun c hc => ?_⟩
    · exact fun c hc => hcreated ▸ h.returned c hc
    · exact fun c hc => hcreated ▸ h.removed c hc
    · rw [hcreated]
      exact (List.mem_append.1 hc).elim (h.closed c) (hmade _ c)
    · rw [hcreated]
      exact (List.mem_append.1 hc).elim (h.notOpen c) (hmade _ c)
  · refine ⟨Pool.key_cleanupAt key r, fun key' => ?_, fun c hc hlive => ?_, fun c hc => ?_⟩
    · rw [hkept]
      split
      next hk =>
        rw [hk, harray]
        exact List.filter_sublist
      · exact .refl _
    · obtain ⟨hreturned, hremoved, hclosed, hnotOpen⟩ := hc
      obtain ⟨hclosed, hnotClosed⟩ := not_or.1 (mt List.mem_append.2 hclosed)
      obtain ⟨hnotOpen, hnotFound⟩ := not_or.1 (mt List.mem_append.2 hnotOpen)
      have hmem := hlive ⟨hreturned, hremoved, hclosed, hnotOpen⟩
      rw [hkept]
      split
      next hk =>
        rw [hk, harray] at hmem
        cases hv : verdict cfg now (s.pool.connection c) with
        | keep => exact List.mem_filter.2 ⟨hmem, decide_eq_true hv⟩
        | close => exact absurd (List.mem_filter.2 ⟨hmem, decide_eq_true hv⟩) hnotClosed
        | notOpen => exact absurd (List.mem_filter.2 ⟨hmem, decide_eq_true hv⟩) hnotFound
      · exact hmem
    · obtain hc | hc := List.mem_append.1 hc
      · exact .inl hc
      · obtain ⟨hmem, hv⟩ := hfound _ c hc
        refine .inr fun key' hc' => ?_
        rw [hkept] at hc'
        split at hc'
        · rw [(hfound _ c hc').2] at hv
          cases hv
        next hk =>
          exact hk ((h.owned.mem_kept hc').2.symm.trans (h.owned.mem_kept hmem).2)

lemma quiet_cleanup (h : Inv s) (cfg : Config) (now : Timestamp) :
    Inv (s.cleanup cfg now) ∧ Quiet s (s.cleanup cfg now) := by
  -- the turn of a key finds the array that the map held for it when the loop began
  refine @Js.Map.foldl_invariant _ _ _ _ (fun t => Inv t ∧ Quiet s t)
    (fun t e => t.pool.connections.get? e.1 = some e.2) ?_ ?_ _ s.pool.connections.nodup s
    ⟨h, .refl s⟩ fun e he => (Js.Map.mem_entries_iff _ e.1 e.2).1 he
  · rintro t e ⟨⟨owner, hsound⟩, hquiet⟩ hget
    obtain ⟨hinv', hquiet'⟩ := hsound.cleanupAt cfg now hget
    exact ⟨hinv', hquiet.trans hquiet'⟩
  · intro t e e' _ _ hne hget
    exact (Pool.get?_cleanupAt_of_ne hne e.2).trans hget

/-- An attempt under way succeeds. -/
def Succeeds (s : Recorded) (i : Input) (a : Attempt) : Prop :=
  ∃ now n, i = .opened now n ∧ s.pool.attempts[n]? = some a

/-- Every step but the success of an attempt is quiet. -/
lemma quiet_step (h : Inv s) {i : Input} (hi : ∀ a, ¬ Succeeds s i a) :
    Inv (s.step cfg i) ∧ Quiet s (s.step cfg i) := by
  obtain ⟨owner, hsound⟩ := h
  match i with
  | .acquire now host port => exact hsound.acquire cfg now host port
  | .opened now n =>
    have hnone : s.pool.attempts[n]? = none :=
      Option.eq_none_iff_forall_ne_some.2 fun a ha => hi a ⟨now, n, rfl, ha⟩
    have hstep : s.step cfg (.opened now n) = s := by
      unfold step
      dsimp only
      rw [hnone]
    rw [hstep]
    exact ⟨⟨owner, hsound⟩, .refl s⟩
  | .failed n => exact hsound.endAttempt n
  | .release now c =>
    refine hsound.write ?_ c
    exact fun _ => rfl
  | .remove c =>
    unfold step
    dsimp only
    split
    next hc => exact hsound.remove hc
    · exact ⟨⟨owner, hsound⟩, .refl s⟩
  | .cleanup now => exact quiet_cleanup ⟨owner, hsound⟩ cfg now
  | .socketClosed c =>
    refine hsound.write ?_ c
    exact fun _ => rfl
  | .errored c =>
    refine hsound.write ?_ c
    exact fun _ => rfl

/-! ## The success of an attempt -/

/-- What the success of an attempt leads to. -/
structure Opened (s s' : Recorded) (a : Attempt) : Prop where
  inv : Inv s'
  returned : s'.returned = s.pool.created :: s.returned
  removed : s'.removed = s.removed
  closed : s'.closed = s.closed
  notOpen : s'.notOpen = s.notOpen
  key : ∀ c < s.pool.created, (s'.pool.connection c).key = (s.pool.connection c).key
  keyNew : (s'.pool.connection s.pool.created).key = a.key
  kept : ∀ key, s'.pool.kept key =
    if key = a.key then s.pool.array a.pool ++ [s.pool.created] else s.pool.kept key

lemma Sound.opened (h : Sound owner s) (cfg : Config) {i : Input} {a : Attempt}
    (hi : Succeeds s i a) : Opened s (s.step cfg i) a := by
  obtain ⟨now, n, rfl, hn⟩ := hi
  have hstep : s.step cfg (.opened now n) = (s.endAttempt n).opened now a := by
    unfold step
    dsimp only
    rw [hn]
  rw [hstep]
  obtain ⟨hlt, hkey⟩ := h.owned.held a (List.mem_of_getElem? hn)
  have howned := h.owned.eraseAttempt n
  refine ⟨⟨owner, howned.opened hlt hkey, ?_, ?_, ?_, ?_⟩, rfl, rfl, rfl, rfl, ?_, ?_, ?_⟩
  · intro c hc
    obtain rfl | hc := List.mem_cons.1 hc
    · exact Nat.lt_succ_self _
    · exact Nat.lt_succ_of_lt (h.returned c hc)
  · exact fun c hc => Nat.lt_succ_of_lt (h.removed c hc)
  · exact fun c hc => Nat.lt_succ_of_lt (h.closed c hc)
  · exact fun c hc => Nat.lt_succ_of_lt (h.notOpen c hc)
  · exact fun c hc => congrArg PooledConnection.key (Function.update_of_ne hc.ne _ _)
  · have hnew : ((s.endAttempt n).opened now a).pool.connection s.pool.created =
        ⟨a.host, a.port, .opened, now, true, 0⟩ := Function.update_self _ _ _
    rw [hnew]
    rfl
  · exact Pool.kept_opened howned hkey

/-! ## The bound -/

/-- At most `maxPerHost` connections are kept for every host and port. -/
def WithinBound (cfg : Config) (s : Recorded) : Prop :=
  ∀ key, (s.pool.kept key).length ≤ cfg.maxPerHost

/-- An attempt that succeeds finds room in its array. -/
def HasRoom (cfg : Config) (s : Recorded) (i : Input) : Prop :=
  ∀ a, Succeeds s i a → (s.pool.array a.pool).length < cfg.maxPerHost

lemma inv_step {i : Input} (h : Inv s) : Inv (s.step cfg i) := by
  by_cases hi : ∃ a, Succeeds s i a
  · obtain ⟨a, ha⟩ := hi
    obtain ⟨owner, hsound⟩ := h
    exact (hsound.opened cfg ha).inv
  · exact (quiet_step h (not_exists.1 hi)).1

lemma Succeeds.unique {i : Input} {a b : Attempt} (ha : Succeeds s i a) (hb : Succeeds s i b) :
    a = b := by
  obtain ⟨now, n, rfl, hn⟩ := ha
  obtain ⟨now', n', heq, hn'⟩ := hb
  obtain ⟨-, rfl⟩ := Input.opened.inj heq
  exact Option.some.inj (hn.symm.trans hn')

lemma withinBound_step {i : Input} (h : Inv s) (hbound : WithinBound cfg s) :
    WithinBound cfg (s.step cfg i) ↔ HasRoom cfg s i := by
  by_cases hi : ∃ a, Succeeds s i a
  · obtain ⟨a, ha⟩ := hi
    obtain ⟨owner, hsound⟩ := h
    have hopened := hsound.opened cfg ha
    constructor
    · intro hafter b hb
      obtain rfl := ha.unique hb
      have hkey := hafter a.key
      rw [hopened.kept, if_pos rfl, List.length_append, List.length_singleton] at hkey
      omega
    · intro hroom key
      rw [hopened.kept]
      split
      · have := hroom a ha
        rw [List.length_append, List.length_singleton]
        omega
      · exact hbound key
  · refine iff_of_true (fun key => ?_) fun a ha => absurd ⟨a, ha⟩ hi
    exact ((quiet_step h (not_exists.1 hi)).2.kept key).length_le.trans (hbound key)

/-- The bound holds in every state of a run exactly when every attempt that succeeds finds room in
its array. -/
theorem bounded_iff (cfg : Config) (inputs : List Input) :
    (∀ before, before <+: inputs → WithinBound cfg (Machine.run (step cfg) new before)) ↔
      Machine.Along (step cfg) (HasRoom cfg) new inputs :=
  Machine.forall_prefix_iff_along (fun _ _ => inv_step) (fun _ _ => withinBound_step) inv_new
    (fun _ => Nat.zero_le cfg.maxPerHost) inputs

/-- Three calls of `acquire` at a time for a host with room for two connections, of which one is
there and in use. -/
def threeAcquires : List Input :=
  [.acquire 0 "h" 1, .opened 1 0, .acquire 2 "h" 1, .acquire 2 "h" 1, .opened 3 0, .opened 3 0]

/-- The second and the third call look at the same array and both find room. -/
theorem not_bounded :
    ¬ ∀ (cfg : Config) (inputs before : List Input), before <+: inputs →
      WithinBound cfg (Machine.run (step cfg) new before) := by
  intro h
  have hkept := h ⟨2, 60000, 3⟩ threeAcquires threeAcquires List.prefix_rfl "h:1"
  exact absurd hkept (by decide +kernel)

/-! ## Nothing is lost -/

/-- Every live connection is in the array of its host and port, and none that was closed is in
one. -/
structure NoneLost (s : Recorded) : Prop where
  live : ∀ c, Live s c → c ∈ s.pool.kept (s.pool.connection c).key
  closed : ∀ c ∈ s.closed, ∀ key, c ∉ s.pool.kept key

/-- An attempt that succeeds finds in its array what is live and kept for its key, and nothing that
was closed. -/
def IsCurrent (s : Recorded) (i : Input) : Prop :=
  ∀ a, Succeeds s i a →
    (∀ c ∈ s.pool.kept a.key, Live s c → c ∈ s.pool.array a.pool) ∧
      ∀ c ∈ s.pool.array a.pool, c ∉ s.closed

lemma noneLost_step {i : Input} (h : Inv s) (hlost : NoneLost s) :
    NoneLost (s.step cfg i) ↔ IsCurrent s i := by
  by_cases hi : ∃ a, Succeeds s i a
  · obtain ⟨a, ha⟩ := hi
    obtain ⟨owner, hsound⟩ := h
    have hopened := hsound.opened cfg ha
    have hlive : ∀ c < s.pool.created, Live (s.step cfg i) c ↔ Live s c := by
      intro c hc
      unfold Live
      rw [hopened.returned, hopened.removed, hopened.closed, hopened.notOpen, List.mem_cons,
        or_iff_right hc.ne]
    constructor
    · intro hafter b hb
      obtain rfl := ha.unique hb
      constructor
      · intro c hc hclive
        obtain ⟨hlt, hkey⟩ := hsound.owned.mem_kept hc
        have hmem := hafter.live c ((hlive c hlt).2 hclive)
        rw [hopened.key c hlt, hkey, hopened.kept, if_pos rfl, List.mem_append,
          List.mem_singleton] at hmem
        exact hmem.resolve_right hlt.ne
      · intro c hc hclosed
        refine hafter.closed c (hopened.closed ▸ hclosed) a.key ?_
        rw [hopened.kept, if_pos rfl]
        exact List.mem_append_left _ hc
    · intro hcurrent
      obtain ⟨hkept, hnone⟩ := hcurrent a ha
      constructor
      · intro c hc
        by_cases hnew : c = s.pool.created
        · rw [hnew, hopened.keyNew, hopened.kept, if_pos rfl]
          exact List.mem_append_right _ List.mem_cons_self
        · have hreturned := hc.1
          rw [hopened.returned, List.mem_cons, or_iff_right hnew] at hreturned
          have hlt := hsound.returned c hreturned
          have hmem := hlost.live c ((hlive c hlt).1 hc)
          rw [hopened.key c hlt, hopened.kept]
          split
          next hk => exact List.mem_append_left _ (hkept c (hk ▸ hmem) ((hlive c hlt).1 hc))
          · exact hmem
      · intro c hc key hmem
        rw [hopened.closed] at hc
        rw [hopened.kept] at hmem
        split at hmem
        · obtain hmem | hmem := List.mem_append.1 hmem
          · exact hnone c hmem hc
          · exact (hsound.closed c hc).ne (List.mem_singleton.1 hmem)
        · exact hlost.closed c hc key hmem
  · refine iff_of_true ?_ fun a ha => absurd ⟨a, ha⟩ hi
    have hquiet : Quiet s (s.step cfg i) := (quiet_step h (not_exists.1 hi)).2
    constructor
    · intro c hc
      rw [hquiet.key]
      exact hquiet.live c hc (hlost.live c)
    · intro c hc key hmem
      obtain hc | hnot := hquiet.closed c hc
      · exact hlost.closed c hc key ((hquiet.kept key).subset hmem)
      · exact hnot key hmem

lemma noneLost_new : NoneLost new := by
  constructor
  · intro c hc
    cases hc.1
  · intro c hc
    cases hc

/-- No connection is lost and none that was closed comes back, in any state of a run, exactly when
every attempt that succeeds finds its array as it should be. -/
theorem none_lost_iff (cfg : Config) (inputs : List Input) :
    (∀ before, before <+: inputs → NoneLost (Machine.run (step cfg) new before)) ↔
      Machine.Along (step cfg) IsCurrent new inputs :=
  Machine.forall_prefix_iff_along (fun _ _ => inv_step) (fun _ _ => noneLost_step) inv_new
    noneLost_new inputs

/-- Two calls of `acquire` at a time for a host without connections. -/
def twoAcquires : List Input :=
  [.acquire 0 "h" 1, .acquire 0 "h" 1, .opened 1 0, .opened 1 0]

/-- Each call makes an array of its own, and the second array takes the place of the first. -/
theorem not_none_lost :
    ¬ ∀ (cfg : Config) (inputs before : List Input), before <+: inputs →
      NoneLost (Machine.run (step cfg) new before) := by
  intro h
  have hlive := (h ⟨5, 60000, 3⟩ twoAcquires twoAcquires List.prefix_rfl).live 0 (by
    unfold Live
    decide +kernel)
  exact absurd hlive (by decide +kernel)

end Recorded

end ConnectionPool

end SyncEngine
