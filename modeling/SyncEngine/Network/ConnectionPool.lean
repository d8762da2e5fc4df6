import SyncEngine.Core.Types
import SyncEngine.Machine.Runs

/-!
# The connection pool

`src/network/connection-pool.ts`: for each `host:port` an array of connections.  The arrays and the
connections are objects that several holders share, so the pool is modelled over a store of both: an
array stands at an `ArrayRef`, a connection at a `ConnectionRef`, and the map leads from a key to an
array.

`acquire` is cut at its await.  The part before it hands out an idle connection, or gives up, or
starts a connection attempt, which keeps the array that was found or made for the key; the part
after it runs when the attempt has succeeded (`opened`).  Any number of attempts are under way at a
time (`attempts`), and they end in any order.

Sockets close by themselves and callers count errors on a connection at any time (`Input`).  The
fields `id` and `createdAt` of a connection are left out, since nothing reads them.
-/

namespace SyncEngine

open Js

namespace ConnectionPool

abbrev ArrayRef := ℕ
abbrev ConnectionRef := ℕ

/-- `readyState` of a socket. -/
inductive ReadyState
  | connecting
  | opened
  | closing
  | closed
  deriving DecidableEq

structure PooledConnection where
  host : String
  port : ℕ
  readyState : ReadyState
  lastUsed : Timestamp
  inUse : Bool
  errorCount : ℕ
  deriving DecidableEq

/-- The key of a host and a port. -/
def keyOf (host : String) (port : ℕ) : String := host ++ ":" ++ toString port

def PooledConnection.key (c : PooledConnection) : String := keyOf c.host c.port

/-- `ws.close()` of the connection's socket. -/
def PooledConnection.close (c : PooledConnection) : PooledConnection :=
  if c.readyState = .connecting ∨ c.readyState = .opened then { c with readyState := .closing }
  else c

/-- A call of `acquire` in its await, with the array it holds. -/
structure Attempt where
  host : String
  port : ℕ
  pool : ArrayRef
  deriving DecidableEq

def Attempt.key (a : Attempt) : String := keyOf a.host a.port

structure Config where
  maxPerHost : ℕ
  idleTimeoutMs : ℕ
  maxErrors : ℕ

structure Pool where
  connections : Js.Map String ArrayRef
  array : ArrayRef → List ConnectionRef
  arrays : ℕ
  connection : ConnectionRef → PooledConnection
  created : ℕ
  attempts : List Attempt

/-- A new pool. -/
def Pool.new : Pool where
  connections := .empty
  array _ := []
  arrays := 0
  connection _ := ⟨"", 0, .closed, 0, false, 0⟩
  created := 0
  attempts := []

/-- What `acquire` has come to at its first await. -/
inductive Acquired
  | connection (c : ConnectionRef)
  | exhausted
  | waiting
  deriving DecidableEq

namespace Pool

def updateConnection (p : Pool) (c : ConnectionRef) (f : PooledConnection → PooledConnection) :
    Pool :=
  { p with connection := Function.update p.connection c (f (p.connection c)) }

/-- The connections kept for a key. -/
def kept (p : Pool) (key : String) : List ConnectionRef :=
  match p.connections.get? key with
  | some r => p.array r
  | none => []

/-- `this.connections.get(key) || []`. -/
def arrayFor (p : Pool) (key : String) : ArrayRef × Pool :=
  match p.connections.get? key with
  | some r => (r, p)
  | none => (p.arrays,
      { p with array := Function.update p.array p.arrays [], arrays := p.arrays + 1 })

/-- What `acquire` writes to an idle connection that it hands out. -/
def use (now : Timestamp) (c : PooledConnection) : PooledConnection :=
  { c with inUse := true, lastUsed := now }

/-- `acquire`, up to its await. -/
def acquire (cfg : Config) (p : Pool) (now : Timestamp) (host : String) (port : ℕ) :
    Acquired × Pool :=
  let (r, p) := p.arrayFor (keyOf host port)
  match (p.array r).find? fun c => !(p.connection c).inUse &&
      (p.connection c).readyState = .opened with
  | some c => (.connection c, p.updateConnection c (use now))
  | none =>
    if cfg.maxPerHost ≤ (p.array r).length then (.exhausted, p)
    else (.waiting, { p with attempts := p.attempts ++ [⟨host, port, r⟩] })

/-- `acquire` after its await, when the connection has been made. -/
def opened (p : Pool) (now : Timestamp) (a : Attempt) : ConnectionRef × Pool :=
  (p.created,
    { p with
      connection := Function.update p.connection p.created ⟨a.host, a.port, .opened, now, true, 0⟩
      created := p.created + 1
      array := Function.update p.array a.pool (p.array a.pool ++ [p.created])
      connections := p.connections.set a.key a.pool })

/-- `release` -/
def release (now : Timestamp) (c : PooledConnection) : PooledConnection :=
  { c with inUse := false, lastUsed := now }

/-- The last lines of `remove`: an open socket is closed. -/
def closeIfOpen (c : PooledConnection) : PooledConnection :=
  if c.readyState = .opened then c.close else c

/-- The part of `remove` that goes to the arrays: the connection is taken out of the one kept for
its key, which is dropped when nothing is left in it. -/
def takeOut (p : Pool) (c : ConnectionRef) : Pool :=
  match p.connections.get? (p.connection c).key with
  | none => p
  | some r =>
    let rest := (p.array r).erase c
    let p' := { p with array := Function.update p.array r rest }
    if rest.length = 0 then { p' with connections := p.connections.delete (p.connection c).key }
    else p'

def remove (p : Pool) (c : ConnectionRef) : Pool := (p.takeOut c).updateConnection c closeIfOpen

end Pool

/-- What the callback of the filter in `cleanup` finds about a connection. -/
inductive Verdict
  | keep
  | close
  | notOpen
  deriving DecidableEq

def verdict (cfg : Config) (now : Timestamp) (c : PooledConnection) : Verdict :=
  if c.inUse then .keep
  else if cfg.maxErrors ≤ c.errorCount then .close
  else if c.lastUsed + cfg.idleTimeoutMs < now then .close
  else if c.readyState ≠ .opened then .notOpen
  else .keep

namespace Pool

/-- The connections of an array about which `cleanup` finds `v`. -/
def found (cfg : Config) (p : Pool) (now : Timestamp) (v : Verdict) (r : ArrayRef) :
    List ConnectionRef :=
  (p.array r).filter fun c => verdict cfg now (p.connection c) = v

/-- The loop of `cleanup` at one key.  Closing one connection does not change what is found about
another one, so the callbacks of the filter can run at once. -/
def cleanupAt (cfg : Config) (now : Timestamp) (p : Pool) (key : String) (r : ArrayRef) : Pool :=
  let active := p.found cfg now .keep r
  let p' := { p with
    connection := fun c =>
      if c ∈ p.found cfg now .close r then (p.connection c).close else p.connection c }
  if active.length = 0 then { p' with connections := p.connections.delete key }
  else
    { p' with
      array := Function.update p.array p.arrays active
      arrays := p.arrays + 1
      connections := p.connections.set key p.arrays }

def cleanup (cfg : Config) (p : Pool) (now : Timestamp) : Pool :=
  p.connections.entries.foldl (fun p e => cleanupAt cfg now p e.1 e.2) p

end Pool

/-! ## Runs -/

/-- A pool, and what has happened to the connections that `acquire` returned. -/
structure Recorded where
  pool : Pool
  returned : List ConnectionRef
  /-- passed to `remove` -/
  removed : List ConnectionRef
  /-- closed by `cleanup` -/
  closed : List ConnectionRef
  /-- found not open by `cleanup` -/
  notOpen : List ConnectionRef

inductive Input
  | acquire (now : Timestamp) (host : String) (port : ℕ)
  /-- The `i`-th attempt under way succeeds. -/
  | opened (now : Timestamp) (i : ℕ)
  /-- The `i`-th attempt under way fails. -/
  | failed (i : ℕ)
  | release (now : Timestamp) (c : ConnectionRef)
  | remove (c : ConnectionRef)
  | cleanup (now : Timestamp)
  /-- A socket closes by itself. -/
  | socketClosed (c : ConnectionRef)
  /-- A caller counts an error on a connection. -/
  | errored (c : ConnectionRef)

namespace Recorded

/-- A new pool, of which nothing has been asked. -/
def new : Recorded := ⟨.new, [], [], [], []⟩

def cleanupAt (cfg : Config) (now : Timestamp) (s : Recorded) (e : String × ArrayRef) : Recorded :=
  { s with
    pool := s.pool.cleanupAt cfg now e.1 e.2
    closed := s.closed ++ s.pool.found cfg now .close e.2
    notOpen := s.notOpen ++ s.pool.found cfg now .notOpen e.2 }

/-- `cleanup`, recording what becomes of the connections. -/
def cleanup (cfg : Config) (now : Timestamp) (s : Recorded) : Recorded :=
  s.pool.connections.entries.foldl (cleanupAt cfg now) s

lemma pool_cleanup (cfg : Config) (now : Timestamp) (s : Recorded) :
    (s.cleanup cfg now).pool = s.pool.cleanup cfg now :=
  (List.foldl_hom Recorded.pool fun _ _ => rfl).symm

def acquire (cfg : Config) (now : Timestamp) (host : String) (port : ℕ) (s : Recorded) : Recorded :=
  match s.pool.acquire cfg now host port with
  | (.connection c, p) => { s with pool := p, returned := c :: s.returned }
  | (.exhausted, p) => { s with pool := p }
  | (.waiting, p) => { s with pool := p }

/-- The attempt is over. -/
def endAttempt (i : ℕ) (s : Recorded) : Recorded :=
  { s with pool := { s.pool with attempts := s.pool.attempts.eraseIdx i } }

/-- The attempt has succeeded, and `acquire` goes on. -/
def opened (now : Timestamp) (a : Attempt) (s : Recorded) : Recorded :=
  { s with pool := (s.pool.opened now a).2, returned := (s.pool.opened now a).1 :: s.returned }

def remove (c : ConnectionRef) (s : Recorded) : Recorded :=
  { s with pool := s.pool.remove c, removed := c :: s.removed }

/-- What happens to one connection, if there is such a connection. -/
def write (c : ConnectionRef) (f : PooledConnection → PooledConnection) (s : Recorded) : Recorded :=
  if c < s.pool.created then { s with pool := s.pool.updateConnection c f } else s

/-- One call, or the part of one on a side of its await. -/
def step (cfg : Config) (s : Recorded) : Input → Recorded
  | .acquire now host port => s.acquire cfg now host port
  | .opened now i =>
    match s.pool.attempts[i]? with
    | none => s
    | some a => (s.endAttempt i).opened now a
  | .failed i => s.endAttempt i
  | .release now c => s.write c (Pool.release now)
  | .remove c => if c < s.pool.created then s.remove c else s
  | .cleanup now => s.cleanup cfg now
  | .socketClosed c => s.write c fun c => { c with readyState := .closed }
  | .errored c => s.write c fun c => { c with errorCount := c.errorCount + 1 }

end Recorded

/-! ## Arrays and their keys -/

namespace Pool

/-- Every array belongs to one key, and holds connections of that key only. -/
structure Owned (owner : ArrayRef → String) (p : Pool) : Prop where
  kept : ∀ key r, p.connections.get? key = some r → r < p.arrays ∧ owner r = key
  held : ∀ a ∈ p.attempts, a.pool < p.arrays ∧ owner a.pool = a.key
  member : ∀ r c, r < p.arrays → c ∈ p.array r → c < p.created ∧ (p.connection c).key = owner r

variable {cfg : Config} {owner : ArrayRef → String} {p : Pool} {now : Timestamp}

lemma owned_new (owner : ArrayRef → String) : Owned owner new :=
  ⟨fun _ _ h => (by cases h), fun _ h => (by cases h), fun _ _ h => (by cases h)⟩

lemma kept_eq {key : String} {r : ArrayRef} (h : p.connections.get? key = some r) :
    p.kept key = p.array r := by
  rw [kept, h]

lemma Owned.mem_kept (h : Owned owner p) {key : String} {c : ConnectionRef} (hc : c ∈ p.kept key) :
    c < p.created ∧ (p.connection c).key = key := by
  unfold Pool.kept at hc
  split at hc
  next r hr =>
    obtain ⟨hlt, hkey⟩ := h.kept key r hr
    exact hkey ▸ h.member r c hlt hc
  · cases hc

/-! ### Writing to a connection -/

@[simp] lemma kept_updateConnection (c : ConnectionRef) (f : PooledConnection → PooledConnection)
    (key : String) : (p.updateConnection c f).kept key = p.kept key := rfl

lemma key_updateConnection {f : PooledConnection → PooledConnection} (hf : ∀ c, (f c).key = c.key)
    (c d : ConnectionRef) : ((p.updateConnection c f).connection d).key = (p.connection d).key := by
  unfold updateConnection
  dsimp only
  by_cases h : d = c
  · rw [h, Function.update_self, hf]
  · rw [Function.update_of_ne h]

lemma Owned.updateConnection (h : Owned owner p) {f : PooledConnection → PooledConnection}
    (hf : ∀ c, (f c).key = c.key) (c : ConnectionRef) : Owned owner (p.updateConnection c f) :=
  ⟨h.kept, h.held, fun r d hr hd => by
    rw [key_updateConnection hf]
    exact h.member r d hr hd⟩

/-! ### Acquiring -/

lemma kept_arrayFor (h : Owned owner p) (key key' : String) :
    (p.arrayFor key).2.kept key' = p.kept key' := by
  unfold arrayFor
  split
  · rfl
  · unfold Pool.kept
    dsimp only
    split
    next r hr =>
      exact Function.update_of_ne (h.kept key' r hr).1.ne _ _
    · rfl

/-- The array for a key holds what is kept for it. -/
lemma array_arrayFor (key : String) : (p.arrayFor key).2.array (p.arrayFor key).1 = p.kept key := by
  unfold arrayFor Pool.kept
  split
  · rfl
  · exact Function.update_self _ _ _

@[simp] lemma attempts_arrayFor (key : String) : (p.arrayFor key).2.attempts = p.attempts := by
  unfold arrayFor
  split <;> rfl

@[simp] lemma connection_arrayFor (key : String) :
    (p.arrayFor key).2.connection = p.connection := by
  unfold arrayFor
  split <;> rfl

@[simp] lemma created_arrayFor (key : String) : (p.arrayFor key).2.created = p.created := by
  unfold arrayFor
  split <;> rfl

/-- Where something is kept, there is an array. -/
lemma arrayFor_of_mem {key : String} {c : ConnectionRef} (hc : c ∈ p.kept key) :
    (p.arrayFor key).2 = p := by
  unfold Pool.kept at hc
  unfold arrayFor
  split
  · rfl
  next hnone =>
    rw [hnone] at hc
    cases hc

lemma Owned.arrayFor (h : Owned owner p) (key : String) :
    ∃ owner', Owned owner' (p.arrayFor key).2 ∧ (p.arrayFor key).1 < (p.arrayFor key).2.arrays ∧
      owner' (p.arrayFor key).1 = key := by
  unfold Pool.arrayFor
  split
  next r hr =>
    exact ⟨owner, h, h.kept key r hr⟩
  · refine ⟨Function.update owner p.arrays key, ⟨fun key' r hr => ?_, fun a ha => ?_, ?_⟩,
      Nat.lt_succ_self _, Function.update_self _ _ _⟩
    · obtain ⟨hlt, hkey⟩ := h.kept key' r hr
      exact ⟨Nat.lt_succ_of_lt hlt, (Function.update_of_ne hlt.ne _ _).trans hkey⟩
    · obtain ⟨hlt, hkey⟩ := h.held a ha
      exact ⟨Nat.lt_succ_of_lt hlt, (Function.update_of_ne hlt.ne _ _).trans hkey⟩
    · intro r c hr hc
      dsimp only at hr hc ⊢
      by_cases heq : r = p.arrays
      · rw [heq, Function.update_self] at hc
        cases hc
      · rw [Function.update_of_ne heq] at hc ⊢
        exact h.member r c (Nat.lt_of_le_of_ne (Nat.lt_succ_iff.1 hr) heq) hc

/-- What `acquire` can come to at its await. -/
lemma acquire_cases (cfg : Config) (p : Pool) (now : Timestamp) (host : String) (port : ℕ) :
    (∃ c ∈ p.kept (keyOf host port), p.acquire cfg now host port =
      (.connection c, p.updateConnection c (use now))) ∨
    (cfg.maxPerHost ≤ (p.kept (keyOf host port)).length ∧ p.acquire cfg now host port =
      (.exhausted, (p.arrayFor (keyOf host port)).2)) ∨
    ((p.kept (keyOf host port)).length < cfg.maxPerHost ∧ p.acquire cfg now host port =
      (.waiting, { (p.arrayFor (keyOf host port)).2 with
        attempts := p.attempts ++ [⟨host, port, (p.arrayFor (keyOf host port)).1⟩] })) := by
  have harray := array_arrayFor (p := p) (keyOf host port)
  have hattempts := attempts_arrayFor (p := p) (keyOf host port)
  unfold acquire
  dsimp only
  rw [harray, hattempts]
  split
  next c hfind =>
    have hc := List.mem_of_find?_eq_some hfind
    rw [arrayFor_of_mem hc]
    exact .inl ⟨c, hc, rfl⟩
  · split
    next hfull => exact .inr (.inl ⟨hfull, rfl⟩)
    next hroom => exact .inr (.inr ⟨not_le.1 hroom, rfl⟩)

/-- The attempt that `acquire` starts holds an array of its key. -/
lemma Owned.startAttempt (h : Owned owner p) {a : Attempt} (hlt : a.pool < p.arrays)
    (hkey : owner a.pool = a.key) : Owned owner { p with attempts := p.attempts ++ [a] } := by
  refine ⟨h.kept, fun b hb => ?_, h.member⟩
  obtain hb | hb := List.mem_append.1 hb
  · exact h.held b hb
  · obtain rfl := List.mem_singleton.1 hb
    exact ⟨hlt, hkey⟩

/-! ### After the await -/

/-- An attempt that is over leaves the others. -/
lemma Owned.eraseAttempt (h : Owned owner p) (i : ℕ) :
    Owned owner { p with attempts := p.attempts.eraseIdx i } :=
  ⟨h.kept, fun a ha => h.held a (List.mem_of_mem_eraseIdx ha), h.member⟩

lemma Owned.opened (h : Owned owner p) {a : Attempt} (hlt : a.pool < p.arrays)
    (hkey : owner a.pool = a.key) : Owned owner (p.opened now a).2 := by
  refine ⟨fun key r hr => ?_, h.held, fun r c hr hc => ?_⟩
  · have hr := (Js.Map.get?_set _ _ _ _).symm.trans hr
    split at hr
    next hk =>
      obtain rfl := Option.some.inj hr
      exact ⟨hlt, hkey.trans hk.symm⟩
    · exact h.kept key r hr
  · have hcase : c = p.created ∧ r = a.pool ∨ c ∈ p.array r := by
      unfold Pool.opened at hc
      dsimp only at hc
      by_cases heq : r = a.pool
      · rw [heq, Function.update_self, List.mem_append, List.mem_singleton] at hc
        exact hc.elim (fun hc => .inr (heq ▸ hc)) fun hc => .inl ⟨hc, heq⟩
      · rw [Function.update_of_ne heq] at hc
        exact .inr hc
    unfold Pool.opened
    dsimp only
    obtain ⟨rfl, rfl⟩ | hc := hcase
    · rw [Function.update_self]
      exact ⟨Nat.lt_succ_self _, hkey.symm⟩
    · obtain ⟨hlt', hkey'⟩ := h.member r c hr hc
      rw [Function.update_of_ne hlt'.ne]
      exact ⟨Nat.lt_succ_of_lt hlt', hkey'⟩

/-- The array of the attempt, with the new connection, becomes what is kept for its key. -/
lemma kept_opened (h : Owned owner p) {a : Attempt} (hkey : owner a.pool = a.key) (key : String) :
    (p.opened now a).2.kept key =
      if key = a.key then p.array a.pool ++ [p.created] else p.kept key := by
  unfold Pool.kept Pool.opened
  dsimp only
  rw [Js.Map.get?_set]
  by_cases hk : key = a.key
  · rw [if_pos hk, if_pos hk]
    exact Function.update_self _ _ _
  · rw [if_neg hk, if_neg hk]
    split
    next r hr =>
      refine Function.update_of_ne (fun heq => hk ?_) _ _
      rw [← (h.kept key r hr).2, heq, hkey]
    · rfl

/-! ### Removing and cleaning up -/

lemma key_close (c : PooledConnection) : c.close.key = c.key := by
  unfold PooledConnection.close
  split <;> rfl

lemma key_closeIfOpen (c : PooledConnection) : (closeIfOpen c).key = c.key := by
  unfold closeIfOpen
  split
  · exact key_close c
  · rfl

lemma kept_takeOut (h : Owned owner p) (c : ConnectionRef) (key : String) :
    (p.takeOut c).kept key =
      if key = (p.connection c).key then (p.kept key).erase c else p.kept key := by
  unfold takeOut
  split
  next hnone =>
    split
    next hk =>
      rw [hk, Pool.kept, hnone]
      rfl
    · rfl
  next r hr =>
    have hother : ∀ key', key' ≠ (p.connection c).key → ∀ r', p.connections.get? key' = some r' →
        Function.update p.array r ((p.array r).erase c) r' = p.array r' := by
      intro key' hne r' hr'
      refine Function.update_of_ne (fun heq => hne ?_) _ _
      rw [← (h.kept key' r' hr').2, heq, (h.kept _ r hr).2]
    dsimp only
    split
    next hempty =>
      unfold Pool.kept
      dsimp only
      rw [Js.Map.get?_delete]
      by_cases hk : key = (p.connection c).key
      · rw [if_pos hk, if_pos hk, hk, hr]
        exact (List.length_eq_zero_iff.1 hempty).symm
      · rw [if_neg hk, if_neg hk]
        split
        next r' hr' => exact hother key hk r' hr'
        · rfl
    · unfold Pool.kept
      dsimp only
      by_cases hk : key = (p.connection c).key
      · rw [if_pos hk, hk, hr]
        exact Function.update_self _ _ _
      · rw [if_neg hk]
        split
        next r' hr' => exact hother key hk r' hr'
        · rfl

lemma Owned.takeOut (h : Owned owner p) (c : ConnectionRef) : Owned owner (p.takeOut c) := by
  have hmember : ∀ r', ∀ r d, r < p.arrays →
      d ∈ Function.update p.array r' ((p.array r').erase c) r →
        d < p.created ∧ (p.connection d).key = owner r := by
    intro r' r d hr hd
    by_cases heq : r = r'
    · rw [heq, Function.update_self] at hd
      exact heq ▸ h.member r' d (heq ▸ hr) (List.mem_of_mem_erase hd)
    · rw [Function.update_of_ne heq] at hd
      exact h.member r d hr hd
  unfold Pool.takeOut
  split
  · exact h
  next r' _ =>
    dsimp only
    split
    · refine ⟨fun key r hr => ?_, h.held, hmember r'⟩
      rw [Js.Map.get?_delete] at hr
      split at hr
      · cases hr
      · exact h.kept key r hr
    · exact ⟨h.kept, h.held, hmember r'⟩

/-- The loop of `cleanup` keeps for its key what it finds in order. -/
lemma kept_cleanupAt (h : Owned owner p) (key : String) (r : ArrayRef) (key' : String) :
    (p.cleanupAt cfg now key r).kept key' =
      if key' = key then p.found cfg now .keep r else p.kept key' := by
  unfold cleanupAt
  dsimp only
  split
  next hempty =>
    unfold Pool.kept
    dsimp only
    rw [Js.Map.get?_delete]
    by_cases hk : key' = key
    · rw [if_pos hk, if_pos hk]
      exact (List.length_eq_zero_iff.1 hempty).symm
    · rw [if_neg hk, if_neg hk]
  · unfold Pool.kept
    dsimp only
    rw [Js.Map.get?_set]
    by_cases hk : key' = key
    · rw [if_pos hk, if_pos hk]
      exact Function.update_self _ _ _
    · rw [if_neg hk, if_neg hk]
      split
      next r' hr' => exact Function.update_of_ne (h.kept key' r' hr').1.ne _ _
      · rfl

lemma created_takeOut (c : ConnectionRef) : (p.takeOut c).created = p.created := by
  unfold Pool.takeOut
  split
  · rfl
  · dsimp only
    split <;> rfl

lemma connection_takeOut (c : ConnectionRef) : (p.takeOut c).connection = p.connection := by
  unfold Pool.takeOut
  split
  · rfl
  · dsimp only
    split <;> rfl

lemma created_cleanupAt (key : String) (r : ArrayRef) :
    (p.cleanupAt cfg now key r).created = p.created := by
  unfold Pool.cleanupAt
  dsimp only
  split <;> rfl

lemma key_cleanupAt (key : String) (r : ArrayRef) (c : ConnectionRef) :
    ((p.cleanupAt cfg now key r).connection c).key = (p.connection c).key := by
  have hkey : (if c ∈ p.found cfg now .close r then (p.connection c).close
      else p.connection c).key = (p.connection c).key := by
    split
    · exact key_close _
    · rfl
  unfold Pool.cleanupAt
  dsimp only
  split
  · exact hkey
  · exact hkey

lemma get?_cleanupAt_of_ne {key key' : String} (hne : key' ≠ key) (r : ArrayRef) :
    (p.cleanupAt cfg now key r).connections.get? key' = p.connections.get? key' := by
  unfold cleanupAt
  dsimp only
  split
  · exact Js.Map.get?_delete_of_ne _ hne
  · exact Js.Map.get?_set_of_ne _ _ hne

lemma Owned.cleanupAt (h : Owned owner p) {key : String} {r : ArrayRef}
    (hr : p.connections.get? key = some r) :
    ∃ owner', Owned owner' (p.cleanupAt cfg now key r) := by
  have hkey : ∀ c, (if c ∈ p.found cfg now .close r then (p.connection c).close
      else p.connection c).key = (p.connection c).key := by
    intro c
    split
    · exact key_close _
    · rfl
  obtain ⟨hlt, howner⟩ := h.kept key r hr
  unfold Pool.cleanupAt
  dsimp only
  split
  · refine ⟨owner, fun key' r' hr' => ?_, h.held, fun r' c hr' hc => ?_⟩
    · rw [Js.Map.get?_delete] at hr'
      split at hr'
      · cases hr'
      · exact h.kept key' r' hr'
    · dsimp only
      rw [hkey]
      exact h.member r' c hr' hc
  · refine ⟨Function.update owner p.arrays key, fun key' r' hr' => ?_, fun a ha => ?_, ?_⟩
    · rw [Js.Map.get?_set] at hr'
      split at hr'
      next hk =>
        obtain rfl := Option.some.inj hr'
        exact ⟨Nat.lt_succ_self _, (Function.update_self _ _ _).trans hk.symm⟩
      · obtain ⟨hlt, hkey⟩ := h.kept key' r' hr'
        exact ⟨Nat.lt_succ_of_lt hlt, (Function.update_of_ne hlt.ne _ _).trans hkey⟩
    · obtain ⟨hlt, hkey⟩ := h.held a ha
      exact ⟨Nat.lt_succ_of_lt hlt, (Function.update_of_ne hlt.ne _ _).trans hkey⟩
    · intro r' c hr' hc
      dsimp only at hr' hc ⊢
      rw [hkey]
      by_cases heq : r' = p.arrays
      · rw [heq, Function.update_self] at hc
        obtain ⟨hcreated, hc⟩ := h.member r c hlt (List.mem_of_mem_filter hc)
        rw [heq, Function.update_self]
        exact ⟨hcreated, hc.trans howner⟩
      · rw [Function.update_of_ne heq] at hc ⊢
        exact h.member r' c (Nat.lt_of_le_of_ne (Nat.lt_succ_iff.1 hr') heq) hc

end Pool

end ConnectionPool

end SyncEngine
