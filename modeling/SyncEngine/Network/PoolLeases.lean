import SyncEngine.Network.ConnectionPool

/-!
# Leases of pooled connections

A caller has a connection to itself from the time `acquire` hands it out until it releases or
removes it; call that a lease.  The pool does not know of leases, it has only the flag `inUse`.  Are
two leases of one connection ever running at a time?  Not as long as callers end only leases that
are running: then the flag of a connection is set exactly where a lease of it is running or it was
removed (`lent_once`), whatever attempts to connect are under way, and whenever sockets close and
`cleanup` or `stop` runs.

What `cleanup` leaves is stated for any pool whose arrays belong to their keys (`kept_cleanup`,
`connection_cleanup`), so it holds over all runs (`cleanup_exact`).
-/

namespace SyncEngine

open Js

namespace ConnectionPool

namespace Pool

/-- `stop` closes the sockets of all connections and empties the map. -/
def stop (p : Pool) : Pool :=
  let closeAll := p.connections.values.foldl (fun p r =>
    (p.array r).foldl (fun p c => p.updateConnection c PooledConnection.close) p) p
  { closeAll with connections := .empty }

end Pool

/-! ## Leases -/

/-- A pool, and the leases of its connections. -/
structure Lending where
  pool : Pool
  /-- the connections handed out so far, one for each lease -/
  leases : List ConnectionRef
  /-- the leases that are running -/
  running : Finset ℕ
  /-- the connections passed to `remove` -/
  removed : List ConnectionRef

/-- What happens to a pool.  A release or a removal is by the caller that was given a lease. -/
inductive Use
  | acquire (now : Timestamp) (host : String) (port : ℕ)
  /-- The `i`-th attempt under way succeeds. -/
  | opened (now : Timestamp) (i : ℕ)
  /-- The `i`-th attempt under way fails. -/
  | failed (i : ℕ)
  | release (now : Timestamp) (lease : ℕ)
  | remove (lease : ℕ)
  | cleanup (now : Timestamp)
  | stop
  /-- A socket closes by itself. -/
  | socketClosed (c : ConnectionRef)
  /-- A caller counts an error on a connection. -/
  | errored (c : ConnectionRef)

namespace Lending

/-- A new pool, and no leases. -/
def new : Lending := ⟨.new, [], ∅, []⟩

/-- A connection is handed out. -/
def lend (s : Lending) (c : ConnectionRef) (p : Pool) : Lending :=
  { s with pool := p, leases := s.leases ++ [c], running := insert s.leases.length s.running }

def step (cfg : Config) (s : Lending) : Use → Lending
  | .acquire now host port =>
    match s.pool.acquire cfg now host port with
    | (.connection c, p) => s.lend c p
    | (.exhausted, p) => { s with pool := p }
    | (.waiting, p) => { s with pool := p }
  | .opened now i =>
    match s.pool.attempts[i]? with
    | none => s
    | some a =>
      let (c, p) := { s.pool with attempts := s.pool.attempts.eraseIdx i }.opened now a
      s.lend c p
  | .failed i => { s with pool := { s.pool with attempts := s.pool.attempts.eraseIdx i } }
  | .release now lease =>
    match s.leases[lease]? with
    | none => s
    | some c =>
      { s with
        pool := s.pool.updateConnection c (Pool.release now)
        running := s.running.erase lease }
  | .remove lease =>
    match s.leases[lease]? with
    | none => s
    | some c =>
      { s with
        pool := s.pool.remove c
        running := s.running.erase lease
        removed := c :: s.removed }
  | .cleanup now => { s with pool := s.pool.cleanup cfg now }
  | .stop => { s with pool := s.pool.stop }
  | .socketClosed c =>
    { s with pool := s.pool.updateConnection c fun c => { c with readyState := .closed } }
  | .errored c =>
    { s with pool := s.pool.updateConnection c fun c => { c with errorCount := c.errorCount + 1 } }

/-- A caller ends a lease only while it is running. -/
def Honest (s : Lending) : Use → Prop
  | .release _ lease | .remove lease => lease ∈ s.running
  | _ => True

/-- A lease of the connection is running. -/
def Lent (s : Lending) (c : ConnectionRef) : Prop := ∃ lease ∈ s.running, s.leases[lease]? = some c

end Lending

/-! ## Cleaning up and stopping -/

namespace Pool

variable {cfg : Config} {owner : ArrayRef → String} {p : Pool} {now : Timestamp}

/-- The loop of `cleanup` at one key closes what it finds to be closed, and writes to no other
connection. -/
lemma connection_cleanupAt (key : String) (r : ArrayRef) (c : ConnectionRef) :
    (p.cleanupAt cfg now key r).connection c =
      if c ∈ p.found cfg now .close r then (p.connection c).close else p.connection c := by
  unfold Pool.cleanupAt
  dsimp only
  split
  · rfl
  · rfl

/-- A connection of another key is left alone. -/
lemma connection_cleanupAt_of_ne (h : Owned owner p) {key : String} {r : ArrayRef}
    (hr : p.connections.get? key = some r) {c : ConnectionRef} (hc : (p.connection c).key ≠ key) :
    (p.cleanupAt cfg now key r).connection c = p.connection c := by
  obtain ⟨hlt, howner⟩ := h.kept key r hr
  rw [connection_cleanupAt, if_neg]
  intro hmem
  obtain ⟨-, hkey⟩ := h.member r c hlt (List.mem_of_mem_filter hmem)
  exact hc (hkey.trans howner)

/-- What the loop over some of the keys leaves. -/
structure CleanedUp (cfg : Config) (now : Timestamp) (keys : List String) (p p' : Pool) : Prop where
  owned : ∃ owner, Owned owner p'
  created : p'.created = p.created
  kept : ∀ key, p'.kept key =
    if key ∈ keys then (p.kept key).filter fun c => verdict cfg now (p.connection c) = .keep
    else p.kept key
  connection : ∀ c, p'.connection c =
    if (p.connection c).key ∈ keys ∧ c ∈ p.kept (p.connection c).key ∧
      verdict cfg now (p.connection c) = .close then (p.connection c).close
    else p.connection c

lemma cleanedUp_foldl {es : List (String × ArrayRef)} (hnodup : (es.map Prod.fst).Nodup)
    (howned : ∃ owner, Owned owner p) (hes : ∀ e ∈ es, p.connections.get? e.1 = some e.2) :
    CleanedUp cfg now (es.map Prod.fst) p
      (es.foldl (fun p e => p.cleanupAt cfg now e.1 e.2) p) := by
  induction es generalizing p with
  | nil => exact ⟨howned, rfl, fun _ => by simp, fun _ => by simp⟩
  | cons e es ih =>
    rw [List.map_cons, List.nodup_cons] at hnodup
    obtain ⟨owner, howned⟩ := howned
    have he := hes e List.mem_cons_self
    have hnext : ∀ e' ∈ es, (p.cleanupAt cfg now e.1 e.2).connections.get? e'.1 = some e'.2 := by
      intro e' he'
      have hne : e'.1 ≠ e.1 := fun heq => hnodup.1 (heq ▸ List.mem_map_of_mem he')
      rw [get?_cleanupAt_of_ne hne]
      exact hes e' (List.mem_cons_of_mem e he')
    have hlater := ih hnodup.2 (howned.cleanupAt he) hnext
    have hkept : ∀ key, (p.cleanupAt cfg now e.1 e.2).kept key =
        if key = e.1 then p.found cfg now .keep e.2 else p.kept key :=
      kept_cleanupAt howned e.1 e.2
    have hsame : ∀ c, (p.connection c).key ≠ e.1 →
        (p.cleanupAt cfg now e.1 e.2).connection c = p.connection c := fun c hne =>
      connection_cleanupAt_of_ne howned he hne
    refine ⟨hlater.owned, hlater.created.trans (created_cleanupAt e.1 e.2), fun key => ?_,
      fun c => ?_⟩
    · rw [List.foldl_cons, hlater.kept, List.map_cons]
      by_cases hkey : key = e.1
      · rw [if_neg (hkey ▸ hnodup.1), if_pos (List.mem_cons.2 (.inl hkey)), hkept, if_pos hkey,
          hkey, kept_eq he]
        rfl
      · simp only [hkept, List.mem_cons, hkey, false_or]
        split
        · refine List.filter_congr fun c hc => ?_
          rw [hsame c ((howned.mem_kept hc).2 ▸ hkey)]
        · rfl
    · rw [List.foldl_cons, hlater.connection, key_cleanupAt, List.map_cons]
      by_cases hkey : (p.connection c).key = e.1
      · have hfound : c ∈ p.found cfg now .close e.2 ↔
            c ∈ p.kept e.1 ∧ verdict cfg now (p.connection c) = .close := by
          rw [kept_eq he, found, List.mem_filter, decide_eq_true_eq]
        simp only [hkey, hnodup.1, false_and, if_false, connection_cleanupAt, hfound,
          List.mem_cons, true_or, true_and]
      · simp only [hkept, hsame c hkey, List.mem_cons, hkey, false_or, if_false]

/-- **What `cleanup` leaves.** -/
lemma cleanedUp_cleanup (howned : ∃ owner, Owned owner p) :
    CleanedUp cfg now p.connections.keys p (p.cleanup cfg now) :=
  cleanedUp_foldl p.connections.nodup howned fun e he => (Js.Map.mem_entries_iff _ e.1 e.2).1 he

/-- Nothing is kept for a key that has no array. -/
lemma mem_keys_of_mem_kept {key : String} {c : ConnectionRef} (hc : c ∈ p.kept key) :
    key ∈ p.connections.keys := by
  unfold Pool.kept at hc
  rw [Js.Map.mem_keys_iff]
  split at hc
  next r hr => rw [hr, Option.isSome_some]
  · cases hc

lemma kept_cleanup (howned : ∃ owner, Owned owner p) (key : String) :
    (p.cleanup cfg now).kept key =
      (p.kept key).filter fun c => verdict cfg now (p.connection c) = .keep := by
  rw [(cleanedUp_cleanup howned).kept]
  split
  · rfl
  next hkey =>
    rw [List.eq_nil_iff_forall_not_mem.2 fun c hc => hkey (mem_keys_of_mem_kept hc),
      List.filter_nil]

lemma connection_cleanup (howned : ∃ owner, Owned owner p) (c : ConnectionRef) :
    (p.cleanup cfg now).connection c =
      if c ∈ p.kept (p.connection c).key ∧ verdict cfg now (p.connection c) = .close then
        (p.connection c).close
      else p.connection c := by
  rw [(cleanedUp_cleanup howned).connection]
  refine if_congr (and_iff_right_of_imp fun h => mem_keys_of_mem_kept h.1) rfl rfl

lemma inUse_close (c : PooledConnection) : c.close.inUse = c.inUse := by
  unfold PooledConnection.close
  split <;> rfl

lemma inUse_closeIfOpen (c : PooledConnection) : (closeIfOpen c).inUse = c.inUse := by
  unfold closeIfOpen
  split
  · exact inUse_close c
  · rfl

lemma inUse_cleanup (howned : ∃ owner, Owned owner p) (c : ConnectionRef) :
    ((p.cleanup cfg now).connection c).inUse = (p.connection c).inUse := by
  rw [connection_cleanup howned]
  split
  · exact inUse_close _
  · rfl

lemma inUse_updateConnection {f : PooledConnection → PooledConnection}
    (hf : ∀ c, (f c).inUse = c.inUse) (c d : ConnectionRef) :
    ((p.updateConnection c f).connection d).inUse = (p.connection d).inUse := by
  unfold updateConnection
  dsimp only
  by_cases h : d = c
  · rw [h, Function.update_self, hf]
  · rw [Function.update_of_ne h]

/-- The same connections, in the same use. -/
structure SameUse (owner : ArrayRef → String) (p p' : Pool) : Prop where
  owned : Owned owner p'
  created : p'.created = p.created
  inUse : ∀ c, (p'.connection c).inUse = (p.connection c).inUse

lemma SameUse.close {q : Pool} (h : SameUse owner p q) (c : ConnectionRef) :
    SameUse owner p (q.updateConnection c PooledConnection.close) :=
  ⟨h.owned.updateConnection key_close c, h.created,
    fun d => (inUse_updateConnection inUse_close c d).trans (h.inUse d)⟩

lemma sameUse_stop (h : Owned owner p) : SameUse owner p p.stop := by
  have hclosed : SameUse owner p (p.connections.values.foldl (fun p r =>
      (p.array r).foldl (fun p c => p.updateConnection c PooledConnection.close) p) p) := by
    refine List.foldlRecOn p.connections.values _ ⟨h, rfl, fun _ => rfl⟩ fun q hq r _ => ?_
    exact List.foldlRecOn (q.array r) _ hq fun q' hq' c _ => hq'.close c
  refine ⟨⟨fun key r hr => ?_, hclosed.owned.held, hclosed.owned.member⟩, hclosed.created,
    hclosed.inUse⟩
  cases hr

/-- What `acquire` hands out is idle, open, and kept for the host and the port. -/
lemma acquire_eq_connection {host : String} {port : ℕ} {c : ConnectionRef} {p' : Pool}
    (h : p.acquire cfg now host port = (.connection c, p')) :
    c ∈ p.kept (keyOf host port) ∧ (p.connection c).inUse = false ∧
      (p.connection c).readyState = .opened ∧ p' = p.updateConnection c (use now) := by
  unfold acquire at h
  dsimp only at h
  rw [array_arrayFor] at h
  cases hfind : (p.kept (keyOf host port)).find? fun c =>
      !((p.arrayFor (keyOf host port)).2.connection c).inUse &&
        ((p.arrayFor (keyOf host port)).2.connection c).readyState = .opened with
  | none =>
    rw [hfind] at h
    dsimp only at h
    split at h
    · cases h
    · cases h
  | some d =>
    rw [hfind] at h
    obtain ⟨hc, rfl⟩ := Prod.mk.inj h
    obtain rfl := Acquired.connection.inj hc
    have hmem := List.mem_of_find?_eq_some hfind
    have hidle := List.find?_some hfind
    rw [connection_arrayFor, Bool.and_eq_true_iff, Bool.not_eq_true', decide_eq_true_eq] at hidle
    rw [arrayFor_of_mem hmem]
    exact ⟨hmem, hidle.1, hidle.2, rfl⟩

end Pool

/-! ## One lease at a time -/

namespace Lending

variable {cfg : Config} {s : Lending} {c : ConnectionRef}

/-- No two leases of one connection are running, and `inUse` says of a connection that a lease of it
is running or that it was removed. -/
structure Sound (s : Lending) : Prop where
  owned : ∃ owner, Pool.Owned owner s.pool
  leased : ∀ c ∈ s.leases, c < s.pool.created
  removed : ∀ c ∈ s.removed, c < s.pool.created
  running : ∀ lease ∈ s.running, lease < s.leases.length
  once : ∀ i ∈ s.running, ∀ j ∈ s.running, s.leases[i]? = s.leases[j]? → i = j
  gone : ∀ c ∈ s.removed, ¬ s.Lent c
  inUse : ∀ c < s.pool.created,
    (s.pool.connection c).inUse = true ↔ c ∈ s.removed ∨ s.Lent c

lemma sound_new : Sound new :=
  ⟨⟨fun _ => "", Pool.owned_new _⟩, by simp [new], by simp [new], by simp [new], by simp [new],
    by simp [new], fun c hc => absurd hc (Nat.not_lt_zero c)⟩

lemma Sound.lt_of_lent (h : s.Sound) (hc : s.Lent c) : c < s.pool.created := by
  obtain ⟨lease, -, hlease⟩ := hc
  exact h.leased c (List.mem_of_getElem? hlease)

/-- What leaves the leases and the use of connections alone. -/
lemma Sound.of_same (h : s.Sound) {p : Pool} (howned : ∃ owner, Pool.Owned owner p)
    (hcreated : p.created = s.pool.created)
    (hinUse : ∀ c, (p.connection c).inUse = (s.pool.connection c).inUse) :
    Sound { s with pool := p } where
  owned := howned
  leased c hc := hcreated ▸ h.leased c hc
  removed c hc := hcreated ▸ h.removed c hc
  running := h.running
  once := h.once
  gone := h.gone
  inUse c hc := by
    rw [hinUse]
    exact h.inUse c (hcreated ▸ hc)

lemma Sound.getElem?_lend (h : s.Sound) (p : Pool) {lease : ℕ} (hlease : lease ∈ s.running) :
    (s.lend c p).leases[lease]? = s.leases[lease]? :=
  List.getElem?_append_left (h.running lease hlease)

lemma getElem?_lend_self (p : Pool) : (s.lend c p).leases[s.leases.length]? = some c := by
  simp [lend]

lemma Sound.lent_lend (h : s.Sound) (p : Pool) {d : ConnectionRef} :
    (s.lend c p).Lent d ↔ d = c ∨ s.Lent d := by
  constructor
  · rintro ⟨lease, hrunning, hlease⟩
    obtain rfl | hrunning := Finset.mem_insert.1 hrunning
    · rw [getElem?_lend_self] at hlease
      exact .inl (Option.some.inj hlease).symm
    · rw [h.getElem?_lend p hrunning] at hlease
      exact .inr ⟨lease, hrunning, hlease⟩
  · rintro (rfl | ⟨lease, hrunning, hlease⟩)
    · exact ⟨_, Finset.mem_insert_self _ _, getElem?_lend_self p⟩
    · exact ⟨lease, Finset.mem_insert_of_mem hrunning, (h.getElem?_lend p hrunning).trans hlease⟩

/-- A connection that nobody has is handed out, and its flag set. -/
lemma Sound.lend (h : s.Sound) {p : Pool} (howned : ∃ owner, Pool.Owned owner p)
    (hle : s.pool.created ≤ p.created) (hc : c < p.created) (hgone : c ∉ s.removed)
    (hfree : ¬ s.Lent c) (hinUse : ∀ d < p.created, (p.connection d).inUse = true ↔
      d = c ∨ d < s.pool.created ∧ (s.pool.connection d).inUse = true) :
    (s.lend c p).Sound where
  owned := howned
  leased d hd := by
    obtain hd | hd := List.mem_append.1 hd
    · exact (h.leased d hd).trans_le hle
    · exact List.mem_singleton.1 hd ▸ hc
  removed d hd := (h.removed d hd).trans_le hle
  running lease hlease := by
    rw [show (s.lend c p).leases.length = s.leases.length + 1 from List.length_append]
    obtain rfl | hlease := Finset.mem_insert.1 hlease
    · exact Nat.lt_succ_self _
    · exact Nat.lt_succ_of_lt (h.running lease hlease)
  once i hi j hj heq := by
    -- a lease that was running is of another connection than the new one
    have hother : ∀ k ∈ s.running, (s.lend c p).leases[k]? ≠ some c := fun k hk hleased =>
      hfree ⟨k, hk, (h.getElem?_lend p hk).symm.trans hleased⟩
    obtain rfl | hi := Finset.mem_insert.1 hi <;> obtain rfl | hj := Finset.mem_insert.1 hj
    · rfl
    · exact absurd (heq.symm.trans (getElem?_lend_self p)) (hother j hj)
    · exact absurd (heq.trans (getElem?_lend_self p)) (hother i hi)
    · rw [h.getElem?_lend p hi, h.getElem?_lend p hj] at heq
      exact h.once i hi j hj heq
  gone d hd hlent := by
    obtain rfl | hlent := (h.lent_lend p).1 hlent
    · exact hgone hd
    · exact h.gone d hd hlent
  inUse d hd := by
    rw [h.lent_lend p]
    refine (hinUse d hd).trans ⟨?_, ?_⟩
    · rintro (rfl | ⟨hlt, huse⟩)
      · exact .inr (.inl rfl)
      · exact ((h.inUse d hlt).1 huse).imp_right .inr
    · rintro (hd | rfl | hlent)
      · exact .inr ⟨h.removed d hd, (h.inUse d (h.removed d hd)).2 (.inl hd)⟩
      · exact .inl rfl
      · exact .inr ⟨h.lt_of_lent hlent, (h.inUse d (h.lt_of_lent hlent)).2 (.inr hlent)⟩

/-- The leases that are running when one of them has ended. -/
lemma Sound.lent_erase (h : s.Sound) {lease : ℕ} (hrunning : lease ∈ s.running)
    (hlease : s.leases[lease]? = some c) {t : Lending} (hleases : t.leases = s.leases)
    (ht : t.running = s.running.erase lease) (d : ConnectionRef) :
    t.Lent d ↔ s.Lent d ∧ d ≠ c := by
  unfold Lent
  rw [hleases, ht]
  constructor
  · rintro ⟨i, hi, hd⟩
    obtain ⟨hne, hi⟩ := Finset.mem_erase.1 hi
    refine ⟨⟨i, hi, hd⟩, ?_⟩
    rintro rfl
    exact hne (h.once i hi lease hrunning (hd.trans hlease.symm))
  · rintro ⟨⟨i, hi, hd⟩, hne⟩
    refine ⟨i, Finset.mem_erase.2 ⟨?_, hi⟩, hd⟩
    rintro rfl
    exact hne (Option.some.inj (hd.symm.trans hlease))

lemma Sound.release (h : s.Sound) (now : Timestamp) {lease : ℕ} (hrunning : lease ∈ s.running)
    (hlease : s.leases[lease]? = some c) :
    Sound { s with
      pool := s.pool.updateConnection c (Pool.release now)
      running := s.running.erase lease } := by
  obtain ⟨owner, howned⟩ := h.owned
  have hlent := h.lent_erase hrunning hlease (t := { s with
      pool := s.pool.updateConnection c (Pool.release now)
      running := s.running.erase lease }) rfl rfl
  have hkept : c ∉ s.removed := fun hc => h.gone c hc ⟨lease, hrunning, hlease⟩
  refine ⟨⟨owner, howned.updateConnection (f := Pool.release now) (fun _ => rfl) c⟩, h.leased,
    h.removed, fun i hi => h.running i (Finset.mem_of_mem_erase hi), fun i hi j hj => h.once i
      (Finset.mem_of_mem_erase hi) j (Finset.mem_of_mem_erase hj), fun d hd hd' => ?_,
    fun d hd => ?_⟩
  · exact h.gone d hd ((hlent d).1 hd').1
  · rw [hlent d]
    unfold Pool.updateConnection
    dsimp only
    by_cases hdc : d = c
    · rw [hdc, Function.update_self]
      refine iff_of_false Bool.false_ne_true ?_
      rintro (hc | ⟨-, hne⟩)
      · exact hkept hc
      · exact hne rfl
    · rw [Function.update_of_ne hdc, and_iff_left hdc]
      exact h.inUse d hd

lemma Sound.remove (h : s.Sound) {lease : ℕ} (hrunning : lease ∈ s.running)
    (hlease : s.leases[lease]? = some c) :
    Sound { s with
      pool := s.pool.remove c
      running := s.running.erase lease
      removed := c :: s.removed } := by
  obtain ⟨owner, howned⟩ := h.owned
  have hlent := h.lent_erase hrunning hlease (t := { s with
      pool := s.pool.remove c
      running := s.running.erase lease
      removed := c :: s.removed }) rfl rfl
  have hcreated : (s.pool.remove c).created = s.pool.created := Pool.created_takeOut c
  have hinUse : ∀ d, ((s.pool.remove c).connection d).inUse = (s.pool.connection d).inUse := by
    intro d
    refine (Pool.inUse_updateConnection Pool.inUse_closeIfOpen c d).trans ?_
    rw [Pool.connection_takeOut]
  have hc : s.Lent c := ⟨lease, hrunning, hlease⟩
  refine ⟨⟨owner, (howned.takeOut c).updateConnection Pool.key_closeIfOpen c⟩, fun d hd => ?_,
    fun d hd => ?_, fun i hi => h.running i (Finset.mem_of_mem_erase hi), fun i hi j hj => h.once i
      (Finset.mem_of_mem_erase hi) j (Finset.mem_of_mem_erase hj), fun d hd hd' => ?_,
    fun d hd => ?_⟩
  · exact hcreated ▸ h.leased d hd
  · obtain rfl | hd := List.mem_cons.1 hd
    · exact hcreated ▸ h.lt_of_lent hc
    · exact hcreated ▸ h.removed d hd
  · obtain ⟨hlent', hne⟩ := (hlent d).1 hd'
    exact h.gone d ((List.mem_cons.1 hd).resolve_left hne) hlent'
  · dsimp only at hd ⊢
    rw [hinUse, hlent d, h.inUse d (hcreated ▸ hd), List.mem_cons]
    by_cases hdc : d = c
    · rw [hdc]
      exact iff_of_true (.inr hc) (.inl (.inl rfl))
    · simp only [hdc, false_or, ne_eq, not_false_eq_true, and_true]

lemma Sound.acquire (h : s.Sound) (cfg : Config) (now : Timestamp) (host : String) (port : ℕ) :
    (s.step cfg (.acquire now host port)).Sound := by
  obtain ⟨owner, howned⟩ := h.owned
  obtain ⟨owner', howned', hlt, hkey⟩ := howned.arrayFor (keyOf host port)
  unfold step
  dsimp only
  obtain ⟨c, hc, heq⟩ | ⟨-, heq⟩ | ⟨-, heq⟩ := s.pool.acquire_cases cfg now host port
  · rw [heq]
    obtain ⟨hkept, hidle, -, -⟩ := Pool.acquire_eq_connection heq
    have hmade := (howned.mem_kept hkept).1
    have hnobody : ¬ (c ∈ s.removed ∨ s.Lent c) := by
      rw [← h.inUse c hmade, hidle]
      exact Bool.false_ne_true
    obtain ⟨hgone, hfree⟩ := not_or.1 hnobody
    refine h.lend ⟨owner, howned.updateConnection (f := Pool.use now) (fun _ => rfl) c⟩ le_rfl hmade
      hgone hfree fun d hd => ?_
    unfold Pool.updateConnection
    dsimp only
    by_cases hdc : d = c
    · rw [hdc, Function.update_self]
      exact iff_of_true rfl (.inl rfl)
    · rw [Function.update_of_ne hdc, or_iff_right hdc]
      exact (and_iff_right hd).symm
  · rw [heq]
    exact h.of_same ⟨owner', howned'⟩ (by simp) (by simp)
  · rw [heq]
    have hstart := howned'.startAttempt
      (a := ⟨host, port, (s.pool.arrayFor (keyOf host port)).1⟩) hlt hkey
    rw [Pool.attempts_arrayFor] at hstart
    exact h.of_same ⟨owner', hstart⟩ (by simp) (by simp)

lemma Sound.opened (h : s.Sound) (cfg : Config) (now : Timestamp) (i : ℕ) :
    (s.step cfg (.opened now i)).Sound := by
  obtain ⟨owner, howned⟩ := h.owned
  unfold step
  dsimp only
  cases ha : s.pool.attempts[i]? with
  | none => exact h
  | some a =>
    obtain ⟨hlt, hkey⟩ := howned.held a (List.mem_of_getElem? ha)
    refine h.lend ⟨owner, (howned.eraseAttempt i).opened hlt hkey⟩ (Nat.le_succ _)
      (Nat.lt_succ_self _) (fun hc => (h.removed _ hc).false)
      (fun hc => (h.lt_of_lent hc).false) fun d hd => ?_
    unfold Pool.opened
    dsimp only
    by_cases hdc : d = s.pool.created
    · rw [hdc, Function.update_self]
      exact iff_of_true rfl (.inl rfl)
    · rw [Function.update_of_ne hdc, or_iff_right hdc]
      have hold : d < s.pool.created := lt_of_le_of_ne (Nat.le_of_lt_succ hd) hdc
      exact (and_iff_right hold).symm

/-- Every step of honest callers keeps the leases apart. -/
lemma sound_step (h : s.Sound) {use : Use} (hhonest : s.Honest use) :
    (s.step cfg use).Sound := by
  obtain ⟨owner, howned⟩ := h.owned
  match use with
  | .acquire now host port => exact h.acquire cfg now host port
  | .opened now i => exact h.opened cfg now i
  | .failed i => exact h.of_same ⟨owner, howned.eraseAttempt i⟩ rfl fun _ => rfl
  | .release now lease =>
    have hlease := List.getElem?_eq_getElem (h.running lease hhonest)
    unfold step
    dsimp only
    rw [hlease]
    exact h.release now hhonest hlease
  | .remove lease =>
    have hlease := List.getElem?_eq_getElem (h.running lease hhonest)
    unfold step
    dsimp only
    rw [hlease]
    exact h.remove hhonest hlease
  | .cleanup now =>
    have hcleaned : Pool.CleanedUp cfg now s.pool.connections.keys s.pool
        (s.pool.cleanup cfg now) := Pool.cleanedUp_cleanup h.owned
    exact h.of_same hcleaned.owned hcleaned.created (Pool.inUse_cleanup h.owned)
  | .stop =>
    have hstop := Pool.sameUse_stop howned
    exact h.of_same ⟨owner, hstop.owned⟩ hstop.created hstop.inUse
  | .socketClosed c =>
    refine h.of_same ⟨owner, howned.updateConnection ?_ c⟩ rfl (Pool.inUse_updateConnection ?_ c)
    · exact fun _ => rfl
    · exact fun _ => rfl
  | .errored c =>
    refine h.of_same ⟨owner, howned.updateConnection ?_ c⟩ rfl (Pool.inUse_updateConnection ?_ c)
    · exact fun _ => rfl
    · exact fun _ => rfl

lemma sound_run {uses : List Use} (hhonest : Machine.Along (step cfg) Honest new uses) :
    (Machine.run (step cfg) new uses).Sound :=
  @Machine.invariant _ _ (step cfg) Honest Sound (fun _ _ h hhonest => sound_step h hhonest) _ _
    sound_new hhonest

/-- **One lease at a time.**  Where callers end only leases that are running, no two leases of one
connection are running in any state, and `inUse` is set exactly on the connections of which one is
running and on those that were removed. -/
theorem lent_once {uses : List Use} (hhonest : Machine.Along (step cfg) Honest new uses) :
    let s := Machine.run (step cfg) new uses
    (∀ i ∈ s.running, ∀ j ∈ s.running, s.leases[i]? = s.leases[j]? → i = j) ∧
      ∀ c < s.pool.created,
        ((s.pool.connection c).inUse = true ↔ c ∈ s.removed ∨ s.Lent c) :=
  ⟨(sound_run hhonest).once, (sound_run hhonest).inUse⟩

/-- Two attempts at a time, a connection lent twice, and a cleanup. -/
def lendings : List Use :=
  [.acquire 0 "h" 1, .acquire 0 "h" 1, .opened 1 1, .opened 2 0, .release 3 0, .acquire 4 "h" 1,
    .cleanup 5, .remove 1]

theorem lent_once_lendings :
    let s := Machine.run (step ⟨5, 60000, 3⟩) new lendings
    (∀ i ∈ s.running, ∀ j ∈ s.running, s.leases[i]? = s.leases[j]? → i = j) ∧
      ∀ c < s.pool.created,
        ((s.pool.connection c).inUse = true ↔ c ∈ s.removed ∨ s.Lent c) := by
  apply lent_once
  refine ⟨trivial, trivial, trivial, trivial, ?_, trivial, trivial, ?_, trivial⟩
  · exact Finset.mem_def.2 (by decide +kernel)
  · exact Finset.mem_def.2 (by decide +kernel)

/-! ## What a cleanup leaves -/

lemma owned_step (h : ∃ owner, Pool.Owned owner s.pool) (use : Use) :
    ∃ owner, Pool.Owned owner (s.step cfg use).pool := by
  obtain ⟨owner, howned⟩ := h
  match use with
  | .acquire now host port =>
    obtain ⟨owner', howned', hlt, hkey⟩ := howned.arrayFor (keyOf host port)
    unfold step
    dsimp only
    obtain ⟨c, hc, heq⟩ | ⟨-, heq⟩ | ⟨-, heq⟩ := s.pool.acquire_cases cfg now host port
    · rw [heq]
      exact ⟨owner, howned.updateConnection (f := Pool.use now) (fun _ => rfl) c⟩
    · rw [heq]
      exact ⟨owner', howned'⟩
    · rw [heq]
      have hstart := howned'.startAttempt
        (a := ⟨host, port, (s.pool.arrayFor (keyOf host port)).1⟩) hlt hkey
      rw [Pool.attempts_arrayFor] at hstart
      exact ⟨owner', hstart⟩
  | .opened now i =>
    unfold step
    dsimp only
    cases ha : s.pool.attempts[i]? with
    | none => exact ⟨owner, howned⟩
    | some a =>
      obtain ⟨hlt, hkey⟩ := howned.held a (List.mem_of_getElem? ha)
      exact ⟨owner, (howned.eraseAttempt i).opened hlt hkey⟩
  | .failed i => exact ⟨owner, howned.eraseAttempt i⟩
  | .release now lease =>
    unfold step
    dsimp only
    cases s.leases[lease]? with
    | none => exact ⟨owner, howned⟩
    | some c => exact ⟨owner, howned.updateConnection (f := Pool.release now) (fun _ => rfl) c⟩
  | .remove lease =>
    unfold step
    dsimp only
    cases s.leases[lease]? with
    | none => exact ⟨owner, howned⟩
    | some c => exact ⟨owner, (howned.takeOut c).updateConnection Pool.key_closeIfOpen c⟩
  | .cleanup now => exact (Pool.cleanedUp_cleanup ⟨owner, howned⟩).owned
  | .stop => exact ⟨owner, (Pool.sameUse_stop howned).owned⟩
  | .socketClosed c =>
    exact ⟨owner, howned.updateConnection (f := fun c => { c with readyState := .closed })
      (fun _ => rfl) c⟩
  | .errored c =>
    exact ⟨owner, howned.updateConnection (f := fun c => { c with errorCount := c.errorCount + 1 })
      (fun _ => rfl) c⟩

/-- An idle connection that has failed too often, or was not used for too long. -/
def Stale (cfg : Config) (now : Timestamp) (c : PooledConnection) : Prop :=
  c.inUse = false ∧ (cfg.maxErrors ≤ c.errorCount ∨ c.lastUsed + cfg.idleTimeoutMs < now)

instance (cfg : Config) (now : Timestamp) (c : PooledConnection) : Decidable (Stale cfg now c) := by
  unfold Stale
  infer_instance

lemma verdict_eq_close {c : PooledConnection} {now : Timestamp} :
    verdict cfg now c = .close ↔ Stale cfg now c := by
  unfold verdict Stale
  cases c.inUse <;> grind

lemma verdict_eq_keep {c : PooledConnection} {now : Timestamp} :
    verdict cfg now c = .keep ↔
      c.inUse = true ∨ ¬ Stale cfg now c ∧ c.readyState = .opened := by
  unfold verdict Stale
  cases c.inUse <;> grind

/-- **Cleaning up.**  After any run, whoever released or removed what: `cleanup` keeps for every
host and port, in their order, the connections in use and the open ones that are not stale; it
closes the stale ones, and writes to no other connection. -/
theorem cleanup_exact (cfg : Config) (uses : List Use) (now : Timestamp) :
    let p := (Machine.run (step cfg) new uses).pool
    (∀ key, (p.cleanup cfg now).kept key = (p.kept key).filter fun c =>
      (p.connection c).inUse = true ∨
        ¬ Stale cfg now (p.connection c) ∧ (p.connection c).readyState = .opened) ∧
    ∀ c, (p.cleanup cfg now).connection c =
      if c ∈ p.kept (p.connection c).key ∧ Stale cfg now (p.connection c) then
        (p.connection c).close
      else p.connection c := by
  intro p
  have howned : ∃ owner, Pool.Owned owner p :=
    @Machine.always _ _ (step cfg) (fun s => ∃ owner, Pool.Owned owner s.pool)
      (fun _ use h => owned_step h use) new uses ⟨fun _ => "", Pool.owned_new _⟩
  refine ⟨fun key => ?_, fun c => ?_⟩
  · rw [Pool.kept_cleanup howned]
    exact List.filter_congr fun c _ => decide_eq_decide.2 verdict_eq_keep
  · rw [Pool.connection_cleanup howned]
    exact if_congr (and_congr_right fun _ => verdict_eq_close) rfl rfl

end Lending

end ConnectionPool

end SyncEngine
