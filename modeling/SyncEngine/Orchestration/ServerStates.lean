import SyncEngine.Orchestration.GameServerManager
import SyncEngine.Machine.Runs

/-!
# The states of a game server

The calls of the game server manager and the timers they set, in any order.  What an operation
writes to a server keeps its counter and its status in step (`Consistent`), and none leads from
`DRAINING` or `STOPPED` to a status in which players are seated; the start timer looks at the status
before it writes it.  So both hold of every server in every run (`server_consistent`).
-/

namespace SyncEngine

open Js

namespace GameServerInfo

/-- What the status of a server says about its players. -/
structure Consistent (s : GameServerInfo) : Prop where
  capacity : 1 ≤ s.maxPlayers
  players : s.currentPlayers ≤ s.maxPlayers
  starting : s.status = .starting → s.currentPlayers = 0
  running : s.status = .running → s.currentPlayers < s.maxPlayers
  full : s.status = .full → s.currentPlayers = s.maxPlayers

/-- The server is being stopped, or is stopped. -/
def Halted (s : GameServerInfo) : Prop := s.status = .draining ∨ s.status = .stopped

/-- The callback of the start timer. -/
def started (s : GameServerInfo) : GameServerInfo :=
  if s.status = .starting then { s with status := .running } else s

variable {s : GameServerInfo}

lemma Consistent.halt (h : s.Consistent) {status : ServerStatus}
    (hstatus : status = .draining ∨ status = .stopped) :
    ({ s with status := status } : GameServerInfo).Consistent := by
  obtain rfl | rfl := hstatus
  · exact ⟨h.capacity, h.players, by simp, by simp, by simp⟩
  · exact ⟨h.capacity, h.players, by simp, by simp, by simp⟩

lemma Consistent.started (h : s.Consistent) : s.started.Consistent := by
  unfold GameServerInfo.started
  split
  next hstarting =>
    refine ⟨h.capacity, h.players, by simp, fun _ => ?_, by simp⟩
    dsimp only
    rw [h.starting hstarting]
    exact h.capacity
  · exact h

lemma Consistent.seat (h : s.Consistent) : (GameServerManager.seat s).Consistent := by
  unfold GameServerManager.seat
  split
  next hfree =>
    obtain ⟨hrunning, hlt⟩ := hfree
    by_cases hlast : s.currentPlayers + 1 ≥ s.maxPlayers
    · rw [if_pos hlast]
      refine ⟨h.capacity, hlt, by simp, by simp, fun _ => ?_⟩
      dsimp only
      omega
    · rw [if_neg hlast, hrunning]
      refine ⟨h.capacity, hlt, by simp, fun _ => ?_, by simp⟩
      dsimp only
      omega
  · exact h

lemma Consistent.unseat (h : s.Consistent) : (GameServerManager.unseat s).Consistent := by
  have hcapacity := h.capacity
  have hplayers := h.players
  unfold GameServerManager.unseat
  by_cases hfull : s.status = .full ∧ s.currentPlayers - 1 < s.maxPlayers
  · rw [if_pos hfull]
    refine ⟨h.capacity, ?_, by simp, fun _ => hfull.2, by simp⟩
    dsimp only
    omega
  · rw [if_neg hfull]
    refine ⟨h.capacity, ?_, fun hstarting => ?_, fun hrunning => ?_, fun hstatus => ?_⟩
    · dsimp only
      omega
    · have := h.starting hstarting
      dsimp only
      omega
    · have := h.running hrunning
      dsimp only
      omega
    · -- a full server has a seat left after this one is taken back
      exact absurd ⟨hstatus, by omega⟩ hfull

lemma Halted.started (h : s.Halted) : s.started.Halted := by
  unfold GameServerInfo.started
  split
  next hstarting =>
    rw [Halted, hstarting] at h
    simp at h
  · exact h

lemma Halted.seat (h : s.Halted) : (GameServerManager.seat s).Halted := by
  unfold GameServerManager.seat
  split
  next hfree =>
    rw [Halted, hfree.1] at h
    simp at h
  · exact h

lemma Halted.unseat (h : s.Halted) : (GameServerManager.unseat s).Halted := by
  unfold GameServerManager.unseat
  split
  next hfull =>
    rw [Halted, hfull.1] at h
    simp at h
  · exact h

end GameServerInfo

/-! ## Runs -/

namespace GameServerManager

/-- A manager, the timers that it has set, and the servers on which `stopServer` or `stop` was ever
called. -/
structure Timed where
  manager : GameServerManager
  starting : List ServerId
  stopping : List ServerId
  halted : List ServerId

inductive Call
  | createServer (cfg : GameServerConfig)
  | addPlayer (id : ServerId)
  | removePlayer (id : ServerId)
  | stopServer (id : ServerId)
  | removeServer (id : ServerId)
  | stop
  /-- The `i`-th start timer that is set runs. -/
  | startTimer (i : ℕ)
  /-- The `i`-th stop timer that is set runs. -/
  | stopTimer (i : ℕ)

namespace Timed

def new : Timed := ⟨.new, [], [], []⟩

def stopServer (id : ServerId) (σ : Timed) : Timed :=
  match σ.manager.servers.get? id with
  | none => σ
  | some _ =>
    { σ with
      manager := σ.manager.stopServer id
      stopping := σ.stopping ++ [id]
      halted := σ.halted ++ [id] }

/-- `removeServer`: a server that is not stopped is stopped first. -/
def removeServer (id : ServerId) (σ : Timed) : Timed :=
  match σ.manager.servers.get? id with
  | none => σ
  | some server =>
    let σ := if server.status ≠ .stopped then σ.stopServer id else σ
    { σ with manager := σ.manager.removeServer id }

def step (limits : ServerLimits) (σ : Timed) : Call → Timed
  | .createServer cfg =>
    match σ.manager.createServer limits cfg with
    | .error _ => σ
    | .ok (server, m) => { σ with manager := m, starting := σ.starting ++ [server.id] }
  | .addPlayer id => { σ with manager := (σ.manager.addPlayer id).2 }
  | .removePlayer id => { σ with manager := (σ.manager.removePlayer id).2 }
  | .stopServer id => σ.stopServer id
  | .removeServer id => σ.removeServer id
  | .stop =>
    { σ with manager := σ.manager.stop, halted := σ.halted ++ σ.manager.servers.keys }
  | .startTimer i =>
    match σ.starting[i]? with
    | none => σ
    | some id =>
      { σ with manager := σ.manager.serverStarted id, starting := σ.starting.eraseIdx i }
  | .stopTimer i =>
    match σ.stopping[i]? with
    | none => σ
    | some id =>
      { σ with manager := σ.manager.serverStopped id, stopping := σ.stopping.eraseIdx i }

/-- A server is created with room for a player. -/
def HasRoom (limits : ServerLimits) : Call → Prop
  | .createServer cfg => 1 ≤ maxPlayersOf limits cfg.maxPlayers
  | _ => True

/-- Servers are consistent, the ones that were stopped are halted, and ids are never given again. -/
structure Kept (σ : Timed) : Prop where
  consistent : ∀ id s, σ.manager.servers.get? id = some s → s.Consistent
  halted : ∀ id s, σ.manager.servers.get? id = some s → id ∈ σ.halted → s.Halted
  id_lt : ∀ id s, σ.manager.servers.get? id = some s → id < σ.manager.nextId
  halted_lt : ∀ id ∈ σ.halted, id < σ.manager.nextId

variable {limits : ServerLimits} {σ : Timed}

lemma kept_new : Kept new := by
  constructor
  · intro id s hs
    cases hs
  · intro id s hs
    cases hs
  · intro id s hs
    cases hs
  · intro id hid
    cases hid

/-- One server is rewritten. -/
lemma Kept.modify (h : Kept σ) {τ : Timed} {id : ServerId} {f : GameServerInfo → GameServerInfo}
    (hservers : τ.manager.servers = σ.manager.servers.modify id f)
    (hnext : τ.manager.nextId = σ.manager.nextId)
    (hhalted : ∀ j ∈ τ.halted, j ∈ σ.halted ∨ j = id ∧ j < σ.manager.nextId ∧ ∀ s, (f s).Halted)
    (hconsistent : ∀ s : GameServerInfo, s.Consistent → (f s).Consistent)
    (hkeep : ∀ s : GameServerInfo, s.Halted → (f s).Halted) : Kept τ := by
  have hget : ∀ j s, τ.manager.servers.get? j = some s →
      σ.manager.servers.get? j = some s ∧ j ≠ id ∨
      j = id ∧ ∃ t, σ.manager.servers.get? j = some t ∧ f t = s := by
    intro j s hs
    rw [hservers, Js.Map.get?_modify] at hs
    split at hs
    next hj => exact .inr ⟨hj, by rw [hj]; exact Option.map_eq_some_iff.1 hs⟩
    next hj => exact .inl ⟨hs, hj⟩
  constructor
  · intro j s hs
    obtain ⟨hs, -⟩ | ⟨-, t, ht, rfl⟩ := hget j s hs
    · exact h.consistent j s hs
    · exact hconsistent t (h.consistent j t ht)
  · intro j s hs hj
    obtain ⟨hs, hne⟩ | ⟨-, t, ht, rfl⟩ := hget j s hs
    · obtain hj | ⟨heq, -⟩ := hhalted j hj
      · exact h.halted j s hs hj
      · exact absurd heq hne
    · obtain hj | ⟨-, -, hf⟩ := hhalted j hj
      · exact hkeep t (h.halted j t ht hj)
      · exact hf t
  · intro j s hs
    rw [hnext]
    obtain ⟨hs, -⟩ | ⟨-, t, ht, -⟩ := hget j s hs
    · exact h.id_lt j s hs
    · exact h.id_lt j t ht
  · intro j hj
    rw [hnext]
    obtain hj | ⟨-, hlt, -⟩ := hhalted j hj
    · exact h.halted_lt j hj
    · exact hlt

lemma servers_addPlayer (m : GameServerManager) (id : ServerId) :
    (m.addPlayer id).2.servers = m.servers.modify id seat ∧
      (m.addPlayer id).2.nextId = m.nextId := by
  unfold GameServerManager.addPlayer Js.Map.modify
  cases m.servers.get? id with
  | none => exact ⟨rfl, rfl⟩
  | some s => exact ⟨rfl, rfl⟩

lemma servers_removePlayer (m : GameServerManager) (id : ServerId) :
    (m.removePlayer id).2.servers = m.servers.modify id unseat ∧
      (m.removePlayer id).2.nextId = m.nextId := by
  unfold GameServerManager.removePlayer Js.Map.modify
  cases m.servers.get? id with
  | none => exact ⟨rfl, rfl⟩
  | some s => exact ⟨rfl, rfl⟩

lemma Kept.stopServer (h : Kept σ) (id : ServerId) : Kept (σ.stopServer id) := by
  unfold Timed.stopServer
  split
  · exact h
  next s hs =>
    refine @Kept.modify _ h _ id (fun s => { s with status := .draining }) rfl rfl ?_
      (fun s hs => hs.halt (.inl rfl)) fun _ _ => .inl rfl
    intro j hj
    obtain hj | hj := List.mem_append.1 hj
    · exact .inl hj
    · obtain rfl := List.mem_singleton.1 hj
      exact .inr ⟨rfl, h.id_lt j s hs, fun _ => .inl rfl⟩

lemma Kept.delete (h : Kept σ) (id : ServerId) :
    Kept { σ with manager := σ.manager.removeServer id } := by
  have hget : ∀ j s, (σ.manager.removeServer id).servers.get? j = some s →
      σ.manager.servers.get? j = some s := by
    intro j s hs
    have hs := (Js.Map.get?_delete _ id j).symm.trans hs
    split at hs
    · cases hs
    · exact hs
  exact ⟨fun j s hs => h.consistent j s (hget j s hs), fun j s hs => h.halted j s (hget j s hs),
    fun j s hs => h.id_lt j s (hget j s hs), h.halted_lt⟩

lemma Kept.removeServer (h : Kept σ) (id : ServerId) : Kept (σ.removeServer id) := by
  unfold Timed.removeServer
  split
  · exact h
  · dsimp only
    split
    · exact (h.stopServer id).delete id
    · exact h.delete id

lemma Kept.createServer (h : Kept σ) {cfg : GameServerConfig}
    (hroom : 1 ≤ maxPlayersOf limits cfg.maxPlayers) :
    Kept (step limits σ (.createServer cfg)) := by
  unfold step GameServerManager.createServer
  dsimp only
  by_cases hsize : σ.manager.servers.size ≥ limits.maxServers
  · rw [if_pos hsize]
    exact h
  · rw [if_neg hsize]
    dsimp only
    constructor
    · intro id s hs
      rw [Js.Map.get?_set] at hs
      split at hs
      · obtain rfl := Option.some.inj hs
        exact ⟨hroom, Nat.zero_le _, fun _ => rfl, by simp, by simp⟩
      · exact h.consistent id s hs
    · intro id s hs hid
      rw [Js.Map.get?_set, if_neg (h.halted_lt id hid).ne] at hs
      exact h.halted id s hs hid
    · intro id s hs
      rw [Js.Map.get?_set] at hs
      split at hs
      next hid =>
        rw [hid]
        exact Nat.lt_succ_self _
      · exact Nat.lt_succ_of_lt (h.id_lt id s hs)
    · exact fun id hid => Nat.lt_succ_of_lt (h.halted_lt id hid)

lemma Kept.stop (h : Kept σ) : Kept (step limits σ .stop) := by
  have hget : ∀ id s, σ.manager.stop.servers.get? id = some s →
      ∃ t, σ.manager.servers.get? id = some t ∧ { t with status := .stopped } = s := by
    intro id s hs
    exact Option.map_eq_some_iff.1 ((Js.Map.get?_mapValues _ _ id).symm.trans hs)
  constructor
  · intro id s hs
    obtain ⟨t, ht, rfl⟩ := hget id s hs
    exact (h.consistent id t ht).halt (.inr rfl)
  · intro id s hs _
    obtain ⟨t, -, rfl⟩ := hget id s hs
    exact .inr rfl
  · intro id s hs
    obtain ⟨t, ht, -⟩ := hget id s hs
    exact h.id_lt id t ht
  · intro id hid
    obtain hid | hid := List.mem_append.1 hid
    · exact h.halted_lt id hid
    · obtain ⟨s, hs⟩ := Option.isSome_iff_exists.1 ((Js.Map.mem_keys_iff _ id).1 hid)
      exact h.id_lt id s hs

/-- Every call and every timer keeps the servers as they should be. -/
lemma kept_step (h : Kept σ) {call : Call} (hcall : HasRoom limits call) :
    Kept (step limits σ call) := by
  cases call with
  | createServer cfg => exact h.createServer hcall
  | addPlayer id =>
    obtain ⟨hservers, hnext⟩ := servers_addPlayer σ.manager id
    exact h.modify hservers hnext (fun _ => .inl) (fun _ hs => hs.seat) fun _ hs => hs.seat
  | removePlayer id =>
    obtain ⟨hservers, hnext⟩ := servers_removePlayer σ.manager id
    exact h.modify hservers hnext (fun _ => .inl) (fun _ hs => hs.unseat) fun _ hs => hs.unseat
  | stopServer id => exact h.stopServer id
  | removeServer id => exact h.removeServer id
  | stop => exact h.stop
  | startTimer i =>
    unfold step
    dsimp only
    split
    · exact h
    next id _ =>
      exact @Kept.modify _ h _ id GameServerInfo.started rfl rfl (fun _ => .inl)
        (fun _ hs => hs.started) fun _ hs => hs.started
  | stopTimer i =>
    unfold step
    dsimp only
    split
    · exact h
    next id _ =>
      exact @Kept.modify _ h _ id (fun s => { s with status := .stopped }) rfl rfl
        (fun _ => .inl) (fun _ hs => hs.halt (.inr rfl)) fun _ _ => .inr rfl

/-- In every run the counter and the status of every server agree, and a server that was ever
stopped is never running or full again. -/
theorem server_consistent (limits : ServerLimits) {calls : List Call}
    (h : ∀ call ∈ calls, HasRoom limits call) :
    let σ := Machine.run (step limits) new calls
    ∀ id s, σ.manager.servers.get? id = some s → s.Consistent ∧
      (id ∈ σ.halted → s.status ≠ .running ∧ s.status ≠ .full) := by
  intro σ id s hs
  have hkept : Kept σ :=
    @Machine.invariant_of_forall _ _ (step limits) Kept (HasRoom limits)
      (fun _ _ hs hi => kept_step hs hi) _ _ kept_new h
  refine ⟨hkept.consistent id s hs, fun hid => ?_⟩
  obtain hdraining | hstopped := hkept.halted id s hs hid
  · rw [hdraining]
    exact ⟨by decide, by decide⟩
  · rw [hstopped]
    exact ⟨by decide, by decide⟩

/-- A server for one player is stopped before its start timer runs, and its stop timer runs late. -/
theorem server_consistent_late :
    let σ := Machine.run (step ⟨10, 16⟩) new
      [.createServer ⟨"s", "m", "duel", some 1⟩, .createServer ⟨"t", "m", "duel", some 1⟩,
        .stopServer 0, .startTimer 0, .startTimer 0, .addPlayer 1, .addPlayer 0, .stop,
        .removePlayer 1, .stopTimer 0]
    ∀ id s, σ.manager.servers.get? id = some s → s.Consistent ∧
      (id ∈ σ.halted → s.status ≠ .running ∧ s.status ≠ .full) :=
  server_consistent ⟨10, 16⟩ (by simp [HasRoom, maxPlayersOf])

end Timed

end GameServerManager

end SyncEngine
