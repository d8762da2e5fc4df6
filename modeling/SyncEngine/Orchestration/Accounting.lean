import SyncEngine.Orchestration.Ticks

/-!
# Seats and players

Two laws about the matches that have not been ended: a server counts their players
(`Accounted`), and has room for them (`WithinCapacity`).  `createMatch` checks neither.  It takes
an available server for a group of any size and ignores what `addPlayer` answers, a server it
creates is still starting and refuses every player, and `endMatch` gives the seats back as often as
it is called.

Each law is an invariant of the runs whose steps meet its condition (`Counted`, `Fitting`).  Both
rest on `Indexed`: servers and matches are found under their ids, and the ids of the next ones are
new.  What the manager does to a server's record is iterated for a whole group
(`get?_addPlayers`, `get?_removePlayers`), and `Kept` is what it does otherwise.
-/

namespace SyncEngine

open Js

namespace GameServerManager

variable {m m' m'' : GameServerManager}

/-! ## Groups -/

@[simp] lemma seat_id (s : GameServerInfo) : (seat s).id = s.id := by
  unfold seat
  split <;> rfl

@[simp] lemma seat_maxPlayers (s : GameServerInfo) : (seat s).maxPlayers = s.maxPlayers := by
  unfold seat
  split <;> rfl

lemma seat_iterate (n : ℕ) (s : GameServerInfo) :
    (seat^[n] s).id = s.id ∧ (seat^[n] s).maxPlayers = s.maxPlayers := by
  induction n generalizing s with
  | zero => exact ⟨rfl, rfl⟩
  | succ n ih =>
    rw [Function.iterate_succ_apply, (ih (seat s)).1, (ih (seat s)).2]
    exact ⟨seat_id s, seat_maxPlayers s⟩

/-- A running server with enough room counts the whole group. -/
lemma seat_iterate_currentPlayers {n : ℕ} {s : GameServerInfo} (hrunning : s.status = .running)
    (hroom : s.currentPlayers + n ≤ s.maxPlayers) :
    (seat^[n] s).currentPlayers = s.currentPlayers + n := by
  induction n generalizing s with
  | zero => rfl
  | succ n ih =>
    have hseat : seat s = { s with
        currentPlayers := s.currentPlayers + 1
        status := if s.currentPlayers + 1 ≥ s.maxPlayers then .full else s.status } :=
      if_pos ⟨hrunning, by omega⟩
    rw [Function.iterate_succ_apply]
    by_cases hfull : s.currentPlayers + 1 ≥ s.maxPlayers
    · -- the server is full, and the player was the last one
      have hn : n = 0 := by omega
      subst hn
      rw [Function.iterate_zero_apply, hseat]
    · rw [ih (s := seat s) (by rw [hseat]; simp [hfull, hrunning]) (by rw [hseat]; simp; omega),
        hseat]
      show s.currentPlayers + 1 + n = s.currentPlayers + (n + 1)
      omega

lemma unseat_iterate (n : ℕ) (s : GameServerInfo) :
    (unseat^[n] s).id = s.id ∧ (unseat^[n] s).maxPlayers = s.maxPlayers ∧
      (unseat^[n] s).currentPlayers = s.currentPlayers - n := by
  induction n generalizing s with
  | zero => exact ⟨rfl, rfl, rfl⟩
  | succ n ih =>
    rw [Function.iterate_succ_apply]
    obtain ⟨hid, hmax, hcount⟩ := ih (unseat s)
    refine ⟨hid, hmax, hcount.trans ?_⟩
    show s.currentPlayers - 1 - n = s.currentPlayers - (n + 1)
    omega

/-- A group is seated one by one. -/
lemma addPlayers_eq (id : ServerId) (n : ℕ) (m : GameServerManager) :
    m.addPlayers id n =
      { m with servers := (fun servers => servers.modify id seat)^[n] m.servers } := by
  induction n generalizing m with
  | zero => rfl
  | succ n ih =>
    have hone : (m.addPlayer id).2 = { m with servers := m.servers.modify id seat } := by
      rcases h : m.servers.get? id with - | s <;> simp only [addPlayer, Js.Map.modify, h]
    rw [addPlayers, hone, ih, Function.iterate_succ_apply]

lemma removePlayers_eq (id : ServerId) (n : ℕ) (m : GameServerManager) :
    m.removePlayers id n =
      { m with servers := (fun servers => servers.modify id unseat)^[n] m.servers } := by
  induction n generalizing m with
  | zero => rfl
  | succ n ih =>
    have hone : (m.removePlayer id).2 = { m with servers := m.servers.modify id unseat } := by
      rcases h : m.servers.get? id with - | s <;> simp only [removePlayer, Js.Map.modify, h]
    rw [removePlayers, hone, ih, Function.iterate_succ_apply]

lemma get?_addPlayers (id : ServerId) (n : ℕ) (m : GameServerManager) (j : ServerId) :
    (m.addPlayers id n).servers.get? j =
      if j = id then (m.servers.get? id).map seat^[n] else m.servers.get? j := by
  rw [addPlayers_eq]
  exact Js.Map.get?_modify_iterate id j seat n m.servers

lemma get?_removePlayers (id : ServerId) (n : ℕ) (m : GameServerManager) (j : ServerId) :
    (m.removePlayers id n).servers.get? j =
      if j = id then (m.servers.get? id).map unseat^[n] else m.servers.get? j := by
  rw [removePlayers_eq]
  exact Js.Map.get?_modify_iterate id j unseat n m.servers

@[simp] lemma nextId_addPlayers (id : ServerId) (n : ℕ) (m : GameServerManager) :
    (m.addPlayers id n).nextId = m.nextId := by
  rw [addPlayers_eq]

@[simp] lemma nextId_removePlayers (id : ServerId) (n : ℕ) (m : GameServerManager) :
    (m.removePlayers id n).nextId = m.nextId := by
  rw [removePlayers_eq]

/-- Servers may go, and their status may change. -/
structure Kept (m m' : GameServerManager) : Prop where
  nextId : m'.nextId = m.nextId
  servers : ∀ j s', m'.servers.get? j = some s' → ∃ s, m.servers.get? j = some s ∧
    s'.id = s.id ∧ s'.maxPlayers = s.maxPlayers ∧ s'.currentPlayers = s.currentPlayers

namespace Kept

lemma refl (m : GameServerManager) : Kept m m := ⟨rfl, fun _ s h => ⟨s, h, rfl, rfl, rfl⟩⟩

lemma trans (h : Kept m m') (h' : Kept m' m'') : Kept m m'' := by
  refine ⟨h'.nextId.trans h.nextId, fun j s'' hs'' => ?_⟩
  obtain ⟨s', hs', hid', hmax', hcount'⟩ := h'.servers j s'' hs''
  obtain ⟨s, hs, hid, hmax, hcount⟩ := h.servers j s' hs'
  exact ⟨s, hs, hid'.trans hid, hmax'.trans hmax, hcount'.trans hcount⟩

lemma modify (id : ServerId) {f : GameServerInfo → GameServerInfo}
    (hf : ∀ s, ∃ status, f s = { s with status := status }) (m : GameServerManager) :
    Kept m { m with servers := m.servers.modify id f } := by
  refine ⟨rfl, fun j s' hs' => ?_⟩
  rw [Js.Map.get?_modify] at hs'
  split at hs'
  next hj =>
    obtain ⟨s, hs, rfl⟩ := Option.map_eq_some_iff.1 hs'
    obtain ⟨status, hstatus⟩ := hf s
    rw [hstatus]
    exact ⟨s, hj ▸ hs, rfl, rfl, rfl⟩
  · exact ⟨s', hs', rfl, rfl, rfl⟩

lemma serverStarted (id : ServerId) (m : GameServerManager) : Kept m (m.serverStarted id) := by
  refine modify id (fun s => ?_) m
  split
  · exact ⟨_, rfl⟩
  · exact ⟨s.status, rfl⟩

lemma stopServer (id : ServerId) (m : GameServerManager) : Kept m (m.stopServer id) :=
  modify id (fun _ => ⟨_, rfl⟩) m

lemma serverStopped (id : ServerId) (m : GameServerManager) : Kept m (m.serverStopped id) :=
  modify id (fun _ => ⟨_, rfl⟩) m

lemma removeServer (id : ServerId) (m : GameServerManager) : Kept m (m.removeServer id) := by
  refine ⟨rfl, fun j s hs => ?_⟩
  rw [GameServerManager.removeServer, Js.Map.get?_delete] at hs
  split at hs
  · simp at hs
  · exact ⟨s, hs, rfl, rfl, rfl⟩

lemma stop (m : GameServerManager) : Kept m m.stop := by
  refine ⟨rfl, fun j s' hs' => ?_⟩
  rw [GameServerManager.stop, Js.Map.get?_mapValues] at hs'
  obtain ⟨s, hs, rfl⟩ := Option.map_eq_some_iff.1 hs'
  exact ⟨s, hs, rfl, rfl, rfl⟩

end Kept

end GameServerManager

namespace Orchestrator

variable {limits : ServerLimits} {σ τ : Orchestrator}

/-- Every server counts the players of the matches on it that have not been ended. -/
def Accounted (σ : Orchestrator) : Prop :=
  ∀ id s, σ.manager.servers.get? id = some s → s.currentPlayers = σ.seats id

/-- Every server has room for them. -/
def WithinCapacity (σ : Orchestrator) : Prop :=
  ∀ id s, σ.manager.servers.get? id = some s → σ.seats id ≤ s.maxPlayers

/-- Every match of a tick goes to a server that is running and has seats for the whole group; and
a match is ended once, unless nobody is counted on its server, or it is gone. -/
def Counted (limits : ServerLimits) (σ : Orchestrator) : Input → Prop
  | .tick => ∀ p ∈ placementsByTick limits σ, ∃ s, p.chosen = some s ∧
      s.currentPlayers + p.requests.length ≤ s.maxPlayers
  | .endMatch id => ∀ m, σ.matchMap.get? id = some m → m.endedAt = none ∨
      ∀ s, σ.manager.servers.get? m.serverId = some s → s.currentPlayers = 0
  | _ => True

/-- A match of a tick that goes to a server which is there already finds seats for the whole
group beside the matches on it that have not been ended. -/
def Fitting (limits : ServerLimits) (σ : Orchestrator) : Input → Prop
  | .tick => ∀ p ∈ placementsByTick limits σ, ∀ s, p.chosen = some s →
      p.taken + p.requests.length ≤ s.maxPlayers
  | _ => True

/-! ## Ids -/

/-- Servers and matches are found under their ids, and the next ids are new. -/
structure Indexed (σ : Orchestrator) : Prop where
  server_id : ∀ id s, σ.manager.servers.get? id = some s → s.id = id
  server_lt : ∀ id s, σ.manager.servers.get? id = some s → id < σ.manager.nextId
  match_lt : ∀ id m, σ.matchMap.get? id = some m → id < σ.nextMatch
  match_server_lt : ∀ id m, σ.matchMap.get? id = some m → m.serverId < σ.manager.nextId

lemma chooseServer_spec {mode : String} {s : GameServerInfo} (h : σ.chooseServer mode = some s) :
    s.status = .running ∧ s.currentPlayers < s.maxPlayers ∧
      ∃ id, σ.manager.servers.get? id = some s := by
  have hmem : s ∈ sortOn (fun s => s.currentPlayers)
      (σ.manager.getAvailableServers.filter fun s => s.mode = mode) :=
    List.mem_of_mem_head? h
  rw [(sortOn_perm _ _).mem_iff] at hmem
  simp only [GameServerManager.getAvailableServers, GameServerManager.getRunningServers,
    List.mem_filter, Js.Map.mem_values_iff, decide_eq_true_eq] at hmem
  obtain ⟨⟨⟨hget, hrunning⟩, hroom⟩, -⟩ := hmem
  exact ⟨hrunning, hroom, hget⟩

/-- The id of a new match is not in use. -/
lemma Indexed.nextMatch_not_mem (h : Indexed σ) : σ.nextMatch ∉ σ.matchMap.keys := by
  rw [Js.Map.mem_keys_iff]
  intro hmem
  obtain ⟨m, hm⟩ := Option.isSome_iff_exists.1 hmem
  exact Nat.lt_irrefl _ (h.match_lt _ m hm)

/-- There is no match on a server that is still to come. -/
lemma Indexed.seats_nextId (h : Indexed σ) : σ.seats σ.manager.nextId = 0 := by
  refine List.sum_eq_zero fun n hn => ?_
  obtain ⟨m, hm, rfl⟩ := List.mem_map.1 hn
  obtain ⟨id, hid⟩ := (Js.Map.mem_values_iff _ _).1 hm
  have hlt := h.match_server_lt id m hid
  exact if_neg fun hon => absurd hon.1 (Nat.ne_of_lt hlt)

/-- A new match takes its seats. -/
lemma Indexed.seats_created (h : Indexed σ) {players : List MatchRequest}
    {chosen : Option GameServerInfo} {info : MatchInfo} (hc : MatchCreated σ τ players chosen info)
    (j : ServerId) :
    τ.seats j = σ.seats j + if info.serverId = j then players.length else 0 := by
  have hon : seatsOn j info = if info.serverId = j then players.length else 0 := by
    simp only [seatsOn, hc.info_endedAt, and_true, hc.info_players, List.length_map]
  rw [seats, hc.matchMap, Js.Map.sum_values_set_of_not_mem _ h.nextMatch_not_mem, hon, seats]

/-- An ended match has given its seats back. -/
lemma seats_endMatch {id : MatchId} {m : MatchInfo} (h : σ.matchMap.get? id = some m)
    (j : ServerId) : (σ.endMatch id).seats j + seatsOn j m = σ.seats j := by
  unfold endMatch
  simp only [h]
  simp only [seats, setTimeout]
  rw [Js.Map.sum_values_set (seatsOn j) h]
  simp [seatsOn]

/-! ## The creation of a match -/

/-- A match is created on an available server, or on a new one that has room for the group. -/
lemma createMatch_servers (hindexed : Indexed σ) {mode : String} {players : List MatchRequest}
    {cfg : MatchmakingConfig} (hsize : players.length ≤ cfg.maxPlayers)
    (h : σ.createMatch limits mode players cfg = .ok τ) :
    ∃ chosen info, MatchCreated σ τ players chosen info ∧
      ((∃ s, chosen = some s ∧ s.status = .running ∧
          σ.manager.servers.get? info.serverId = some s ∧
          τ.manager = σ.manager.addPlayers info.serverId players.length) ∨
        (chosen = none ∧ info.serverId = σ.manager.nextId ∧ ∃ s, s.id = σ.manager.nextId ∧
          players.length ≤ s.maxPlayers ∧
          τ.manager = (⟨σ.manager.servers.set σ.manager.nextId s, σ.manager.nextId + 1⟩ :
            GameServerManager).addPlayers σ.manager.nextId players.length)) := by
  obtain ⟨map, hne, ⟨server, hserver, rfl⟩ | ⟨-, server, σ', hserver, rfl⟩⟩ := createMatch_cases h
  · obtain ⟨hrunning, -, id, hid⟩ := chooseServer_spec hserver
    have hkey : server.id = id := hindexed.server_id id server hid
    exact ⟨_, _, placeMatch_created hne, .inl ⟨server, rfl, hrunning, hkey ▸ hid, rfl⟩⟩
  · obtain ⟨-, hnew, rfl⟩ := createServer_eq_ok hserver
    have hid : server.id = σ.manager.nextId := by rw [hnew]
    have hmax : server.maxPlayers = cfg.maxPlayers := by
      have hpos := List.length_pos_iff.2 hne
      rw [hnew]
      exact if_pos (by simp only [Option.getD_some]; omega)
    refine ⟨none, _, { placeMatch_created hne with }, .inr ⟨rfl, hid, server, hid, by omega, ?_⟩⟩
    rw [← hid]
    rfl

lemma Indexed.createMatch (h : Indexed σ) {mode : String} {players : List MatchRequest}
    {cfg : MatchmakingConfig} (hsize : players.length ≤ cfg.maxPlayers)
    (hcreate : σ.createMatch limits mode players cfg = .ok τ) : Indexed τ := by
  obtain ⟨chosen, info, hc, hservers⟩ := createMatch_servers h hsize hcreate
  -- the servers keep their ids, and a new one has the next
  have hkept : σ.manager.nextId ≤ τ.manager.nextId ∧ info.serverId < τ.manager.nextId ∧
      ∀ id s, τ.manager.servers.get? id = some s → s.id = id ∧ id < τ.manager.nextId := by
    rcases hservers with ⟨s, -, -, hs, hmanager⟩ | ⟨-, hnew, s, hs, -, hmanager⟩
    · rw [hmanager, GameServerManager.nextId_addPlayers]
      refine ⟨le_rfl, h.server_lt _ _ hs, fun id s' hs' => ?_⟩
      rw [GameServerManager.get?_addPlayers] at hs'
      split at hs'
      next hid =>
        obtain ⟨s'', hs'', rfl⟩ := Option.map_eq_some_iff.1 hs'
        rw [(GameServerManager.seat_iterate _ _).1, hid]
        exact ⟨h.server_id _ _ hs'', h.server_lt _ _ hs''⟩
      · exact ⟨h.server_id _ _ hs', h.server_lt _ _ hs'⟩
    · rw [hmanager, GameServerManager.nextId_addPlayers, hnew]
      refine ⟨Nat.le_succ _, Nat.lt_succ_self _, fun id s' hs' => ?_⟩
      rw [GameServerManager.get?_addPlayers, Js.Map.get?_set_self] at hs'
      split at hs'
      next hid =>
        obtain rfl := Option.some.inj hs'
        rw [(GameServerManager.seat_iterate _ _).1, hid]
        exact ⟨hs, Nat.lt_succ_self _⟩
      next hid =>
        rw [Js.Map.get?_set_of_ne _ _ hid] at hs'
        exact ⟨h.server_id _ _ hs', Nat.lt_succ_of_lt (h.server_lt _ _ hs')⟩
  obtain ⟨hle, hlt, hall⟩ := hkept
  refine ⟨fun id s hs => (hall id s hs).1, fun id s hs => (hall id s hs).2, fun id m hm => ?_,
    fun id m hm => ?_⟩
  · rw [hc.nextMatch]
    rcases hc.match_cases hm with ⟨rfl, -⟩ | ⟨-, hold⟩
    · exact Nat.lt_succ_self _
    · exact Nat.lt_succ_of_lt (h.match_lt id m hold)
  · rcases hc.match_cases hm with ⟨-, rfl⟩ | ⟨-, hold⟩
    · exact hlt
    · exact lt_of_lt_of_le (h.match_server_lt id m hold) hle

/-- The server of a new match counts the group, where it was running and had seats for it. -/
lemma Accounted.createMatch (h : Accounted σ) (hindexed : Indexed σ) {mode : String}
    {players : List MatchRequest} {cfg : MatchmakingConfig} {p : Placement}
    (hsize : players.length ≤ cfg.maxPlayers)
    (hcreate : σ.createMatch limits mode players cfg = .ok τ)
    (hp : τ.placements = σ.placements ++ [p])
    (hfits : ∃ s, p.chosen = some s ∧ s.currentPlayers + p.requests.length ≤ s.maxPlayers) :
    Accounted τ := by
  obtain ⟨chosen, info, hc, hservers⟩ := createMatch_servers hindexed hsize hcreate
  obtain rfl : _ = p := List.singleton_inj.1
    (List.append_cancel_left (hc.placements.symm.trans hp))
  obtain ⟨s, rfl, hroom⟩ := hfits
  rcases hservers with ⟨s', hs', hrunning, hget, hmanager⟩ | ⟨hnone, -⟩
  · obtain rfl := Option.some.inj hs'
    intro j s' hs'
    rw [hindexed.seats_created hc j]
    rw [hmanager, GameServerManager.get?_addPlayers] at hs'
    split at hs'
    next hj =>
      rw [hget] at hs'
      obtain rfl := Option.some.inj hs'
      rw [GameServerManager.seat_iterate_currentPlayers hrunning hroom, if_pos hj.symm,
        h _ _ hget, hj]
    next hj => rw [if_neg fun heq => hj heq.symm, h _ _ hs', Nat.add_zero]
  · simp at hnone

/-- The server of a new match has room for its group: an old one by assumption, and a new one
since the mode allows no larger groups. -/
lemma WithinCapacity.createMatch (h : WithinCapacity σ) (hindexed : Indexed σ) {mode : String}
    {players : List MatchRequest} {cfg : MatchmakingConfig} {p : Placement}
    (hsize : players.length ≤ cfg.maxPlayers)
    (hcreate : σ.createMatch limits mode players cfg = .ok τ)
    (hp : τ.placements = σ.placements ++ [p])
    (hfits : ∀ s, p.chosen = some s → p.taken + p.requests.length ≤ s.maxPlayers) :
    WithinCapacity τ := by
  obtain ⟨chosen, info, hc, hservers⟩ := createMatch_servers hindexed hsize hcreate
  obtain rfl : _ = p := List.singleton_inj.1
    (List.append_cancel_left (hc.placements.symm.trans hp))
  intro j s' hs'
  rw [hindexed.seats_created hc j]
  rcases hservers with ⟨s, rfl, -, hget, hmanager⟩ | ⟨-, hnew, s, -, hroom, hmanager⟩
  · have hroom := hfits s rfl
    rw [hmanager, GameServerManager.get?_addPlayers] at hs'
    split at hs'
    next hj =>
      rw [hget] at hs'
      obtain rfl := Option.some.inj hs'
      rw [(GameServerManager.seat_iterate _ _).2, if_pos hj.symm, hj]
      exact hroom
    next hj =>
      rw [if_neg fun heq => hj heq.symm, Nat.add_zero]
      exact h _ _ hs'
  · rw [hmanager, GameServerManager.get?_addPlayers, Js.Map.get?_set_self] at hs'
    rw [hnew]
    split at hs'
    next hj =>
      obtain rfl := Option.some.inj hs'
      rw [(GameServerManager.seat_iterate _ _).2, if_pos hj.symm, hj, hindexed.seats_nextId]
      omega
    next hj =>
      rw [Js.Map.get?_set_of_ne _ _ hj] at hs'
      rw [if_neg fun heq => hj heq.symm, Nat.add_zero]
      exact h _ _ hs'

/-! ## The other steps -/

/-- Servers are kept, and so are the seats of the matches on them. -/
structure Calm (σ τ : Orchestrator) : Prop where
  manager : σ.manager.Kept τ.manager
  nextMatch : τ.nextMatch = σ.nextMatch
  matchMap : ∀ id m, τ.matchMap.get? id = some m →
    ∃ m', σ.matchMap.get? id = some m' ∧ m'.serverId = m.serverId
  seats : ∀ j, τ.seats j = σ.seats j

namespace Calm

lemma of_manager (hmanager : σ.manager.Kept τ.manager) (hnext : τ.nextMatch = σ.nextMatch)
    (hmatches : τ.matchMap = σ.matchMap) : Calm σ τ :=
  ⟨hmanager, hnext, fun _ m hm => ⟨m, hmatches ▸ hm, rfl⟩, fun j => by
    rw [Orchestrator.seats, hmatches, Orchestrator.seats]⟩

lemma of_eq (hmanager : τ.manager = σ.manager) (hnext : τ.nextMatch = σ.nextMatch)
    (hmatches : τ.matchMap = σ.matchMap) : Calm σ τ :=
  of_manager (hmanager ▸ .refl _) hnext hmatches

/-- Only the status of a match is rewritten. -/
lemma of_modify {id : MatchId} {f : MatchInfo → MatchInfo}
    (hf : ∀ m, ∃ status, f m = { m with status := status }) (hmanager : τ.manager = σ.manager)
    (hnext : τ.nextMatch = σ.nextMatch) (hmatches : τ.matchMap = σ.matchMap.modify id f) :
    Calm σ τ := by
  refine ⟨hmanager ▸ .refl _, hnext, fun j m hm => ?_, fun j => ?_⟩
  · rw [hmatches, Js.Map.get?_modify] at hm
    split at hm
    next hj =>
      obtain ⟨m', hm', rfl⟩ := Option.map_eq_some_iff.1 hm
      obtain ⟨status, hstatus⟩ := hf m'
      exact ⟨m', hj ▸ hm', by rw [hstatus]⟩
    · exact ⟨m, hm, rfl⟩
  · rw [Orchestrator.seats, hmatches, Orchestrator.seats, Js.Map.modify]
    rcases hm : σ.matchMap.get? id with - | m
    · rfl
    · obtain ⟨status, hstatus⟩ := hf m
      have hon : seatsOn j (f m) = seatsOn j m := by rw [hstatus]; rfl
      have hsum := Js.Map.sum_values_set (seatsOn j) hm (f m)
      rw [hon] at hsum
      exact Nat.add_right_cancel hsum

lemma indexed (h : Calm σ τ) (hσ : Indexed σ) : Indexed τ := by
  refine ⟨fun id s hs => ?_, fun id s hs => ?_, fun id m hm => ?_, fun id m hm => ?_⟩
  · obtain ⟨s', hs', hid, -⟩ := h.manager.servers id s hs
    rw [hid]
    exact hσ.server_id id s' hs'
  · obtain ⟨s', hs', -⟩ := h.manager.servers id s hs
    rw [h.manager.nextId]
    exact hσ.server_lt id s' hs'
  · obtain ⟨m', hm', -⟩ := h.matchMap id m hm
    rw [h.nextMatch]
    exact hσ.match_lt id m' hm'
  · obtain ⟨m', hm', hserver⟩ := h.matchMap id m hm
    rw [h.manager.nextId, ← hserver]
    exact hσ.match_server_lt id m' hm'

lemma accounted (h : Calm σ τ) (hσ : Accounted σ) : Accounted τ := by
  intro id s hs
  obtain ⟨s', hs', -, -, hcount⟩ := h.manager.servers id s hs
  rw [hcount, h.seats]
  exact hσ id s' hs'

lemma withinCapacity (h : Calm σ τ) (hσ : WithinCapacity σ) : WithinCapacity τ := by
  intro id s hs
  obtain ⟨s', hs', -, hmax, -⟩ := h.manager.servers id s hs
  rw [hmax, h.seats]
  exact hσ id s' hs'

end Calm

/-- The inputs that neither place a match, nor end one, nor create a server. -/
lemma calm_step {i : Input} (htick : i ≠ .tick) (hend : ∀ id, i ≠ .endMatch id)
    (hcreate : ∀ cfg, i ≠ .createServer cfg) : Calm σ (step limits σ i) := by
  cases i with
  | tick => exact absurd rfl htick
  | endMatch id => exact absurd rfl (hend id)
  | createServer cfg => exact absurd rfl (hcreate cfg)
  | enqueue p mode map skill t => exact .of_eq rfl rfl rfl
  | dequeue p mode =>
    obtain ⟨_, heq⟩ := exists_dequeue p mode σ
    rw [step, heq]
    exact .of_eq rfl rfl rfl
  | setModeConfig mode cfg => exact .of_eq rfl rfl rfl
  | stopServer id =>
    obtain ⟨_, heq⟩ := exists_stopServer id σ
    rw [step, heq]
    exact .of_manager (.stopServer id _) rfl rfl
  | removeServer id =>
    obtain ⟨_, _, hmanager, heq⟩ := exists_removeServer id σ
    rw [step, heq]
    rcases hmanager with rfl | rfl | rfl
    · exact .of_eq rfl rfl rfl
    · exact .of_manager (.removeServer id _) rfl rfl
    · exact .of_manager (.trans (.stopServer id _) (.removeServer id _)) rfl rfl
  | stopServers => exact .of_manager (.stop _) rfl rfl
  | wait ms => exact .of_eq rfl rfl rfl
  | fire i =>
    rcases step_fire limits i σ with heq | ⟨timer, _, -, heq⟩ <;> rw [heq]
    · exact .of_eq rfl rfl rfl
    · cases timer.callback with
      | serverStarted id => exact .of_manager (.serverStarted id _) rfl rfl
      | serverStopped id => exact .of_manager (.serverStopped id _) rfl rfl
      | matchStarted id =>
        refine .of_modify (fun m => ?_) rfl rfl rfl
        split
        · exact ⟨_, rfl⟩
        · exact ⟨m.status, rfl⟩
      | matchCompleted id => exact .of_modify (fun _ => ⟨_, rfl⟩) rfl rfl rfl

/-- A server that was created through the API: nobody is on it. -/
lemma exists_of_createServer (hindexed : Indexed σ) (cfg : GameServerConfig) :
    Indexed (step limits σ (.createServer cfg)) ∧
      (∀ j, (step limits σ (.createServer cfg)).seats j = σ.seats j) ∧
      ∀ j s, (step limits σ (.createServer cfg)).manager.servers.get? j = some s →
        σ.manager.servers.get? j = some s ∨ (s.currentPlayers = 0 ∧ σ.seats j = 0) := by
  rcases step_createServer limits cfg σ with heq | ⟨server, timers, hid, hcount, heq⟩ <;> rw [heq]
  · exact ⟨hindexed, fun _ => rfl, fun _ _ hs => .inl hs⟩
  refine ⟨⟨fun id s hs => ?_, fun id s hs => ?_, hindexed.match_lt, fun id m hm =>
    Nat.lt_succ_of_lt (hindexed.match_server_lt id m hm)⟩, fun _ => rfl, fun j s hs => ?_⟩ <;>
    simp only [Js.Map.get?_set] at hs <;> split at hs
  next hj =>
    obtain rfl := Option.some.inj hs
    rw [hid, hj]
  next => exact hindexed.server_id id s hs
  next hj => exact hj ▸ Nat.lt_succ_self _
  next => exact Nat.lt_succ_of_lt (hindexed.server_lt id s hs)
  next hj =>
    obtain rfl := Option.some.inj hs
    exact .inr ⟨hcount, by rw [hj, hindexed.seats_nextId]⟩
  next => exact .inl hs

/-- The manager and the matches after `endMatch`. -/
lemma endMatch_spec {id : MatchId} {m : MatchInfo} (h : σ.matchMap.get? id = some m) :
    (σ.endMatch id).manager = σ.manager.removePlayers m.serverId m.players.length ∧
      (σ.endMatch id).nextMatch = σ.nextMatch ∧
      ∀ j m', (σ.endMatch id).matchMap.get? j = some m' →
        ∃ m'', σ.matchMap.get? j = some m'' ∧ m''.serverId = m'.serverId := by
  unfold endMatch
  simp only [h]
  refine ⟨rfl, rfl, fun j m' hm' => ?_⟩
  rw [setTimeout, Js.Map.get?_set] at hm'
  split at hm'
  next hj =>
    obtain rfl := Option.some.inj hm'
    exact ⟨m, hj ▸ h, rfl⟩
  · exact ⟨m', hm', rfl⟩

/-- A server behind the end of a match: that of the match loses its players. -/
lemma server_endMatch {id : MatchId} {m : MatchInfo} (h : σ.matchMap.get? id = some m)
    {j : ServerId} {s : GameServerInfo}
    (hs : (σ.endMatch id).manager.servers.get? j = some s) :
    (j = m.serverId ∧ ∃ s', σ.manager.servers.get? j = some s' ∧
        s = GameServerManager.unseat^[m.players.length] s') ∨
      (j ≠ m.serverId ∧ σ.manager.servers.get? j = some s) := by
  rw [(endMatch_spec h).1, GameServerManager.get?_removePlayers] at hs
  split at hs
  next hj =>
    obtain ⟨s', hs', rfl⟩ := Option.map_eq_some_iff.1 hs
    exact .inl ⟨hj, s', hj ▸ hs', rfl⟩
  next hj => exact .inr ⟨hj, hs⟩

lemma endMatch_of_none {id : MatchId} (h : σ.matchMap.get? id = none) : σ.endMatch id = σ := by
  unfold endMatch
  simp only [h]

lemma Indexed.endMatch (h : Indexed σ) (id : MatchId) : Indexed (σ.endMatch id) := by
  rcases hm : σ.matchMap.get? id with - | m
  · rwa [endMatch_of_none hm]
  obtain ⟨hmanager, hnext, hmatches⟩ := endMatch_spec hm
  have hservers : ∀ j s, (σ.endMatch id).manager.servers.get? j = some s →
      ∃ s', σ.manager.servers.get? j = some s' ∧ s.id = s'.id := by
    intro j s hs
    obtain ⟨-, s', hs', rfl⟩ | ⟨-, hs⟩ := server_endMatch hm hs
    · exact ⟨s', hs', (GameServerManager.unseat_iterate _ _).1⟩
    · exact ⟨s, hs, rfl⟩
  refine ⟨fun j s hs => ?_, fun j s hs => ?_, fun j m' hm' => ?_, fun j m' hm' => ?_⟩
  · obtain ⟨s', hs', heq⟩ := hservers j s hs
    rw [heq]
    exact h.server_id j s' hs'
  · obtain ⟨s', hs', -⟩ := hservers j s hs
    rw [hmanager, GameServerManager.nextId_removePlayers]
    exact h.server_lt j s' hs'
  · obtain ⟨m'', hm'', -⟩ := hmatches j m' hm'
    rw [hnext]
    exact h.match_lt j m'' hm''
  · obtain ⟨m'', hm'', heq⟩ := hmatches j m' hm'
    rw [hmanager, GameServerManager.nextId_removePlayers, ← heq]
    exact h.match_server_lt j m'' hm''

/-- A match that is ended the first time gives back the seats that are counted for it. -/
lemma Accounted.endMatch (h : Accounted σ) {id : MatchId}
    (hcounted : Counted limits σ (.endMatch id)) : Accounted (σ.endMatch id) := by
  rcases hm : σ.matchMap.get? id with - | m
  · rwa [endMatch_of_none hm]
  intro j s hs
  have hseats := seats_endMatch hm j
  obtain ⟨hj, s', hs', rfl⟩ | ⟨hj, hs⟩ := server_endMatch hm hs
  · rw [(GameServerManager.unseat_iterate _ _).2.2]
    have hcount := h j s' hs'
    rcases hcounted m hm with hlive | hnone
    · have hon : seatsOn j m = m.players.length := if_pos ⟨hj.symm, hlive⟩
      omega
    · have hzero := hnone s' (hj ▸ hs')
      omega
  · have hon : seatsOn j m = 0 := if_neg fun heq => hj heq.1.symm
    have hcount := h j s hs
    omega

lemma WithinCapacity.endMatch (h : WithinCapacity σ) (id : MatchId) :
    WithinCapacity (σ.endMatch id) := by
  rcases hm : σ.matchMap.get? id with - | m
  · rwa [endMatch_of_none hm]
  intro j s hs
  have hseats := seats_endMatch hm j
  obtain ⟨-, s', hs', rfl⟩ | ⟨-, hs⟩ := server_endMatch hm hs
  · rw [(GameServerManager.unseat_iterate _ _).2.1]
    have hroom := h j s' hs'
    omega
  · have hroom := h j s hs
    omega

/-! ## Every run -/

lemma indexed_new : Indexed new := by
  refine ⟨?_, ?_, ?_, ?_⟩ <;> simp [new, GameServerManager.new]

lemma Indexed.requeued (h : Indexed σ) (queue : Js.Map String (List MatchRequest)) :
    Indexed { σ with queue := queue } :=
  ⟨h.server_id, h.server_lt, h.match_lt, h.match_server_lt⟩

lemma indexed_step (h : Indexed σ) (i : Input) : Indexed (step limits σ i) := by
  cases i with
  | tick =>
    exact @tick_invariant limits σ Indexed (fun _ => True) (fun _ queue hτ => hτ.requeued queue)
      (fun _ _ _ _ _ _ hτ hsize hcreate _ _ => hτ.createMatch hsize hcreate) h
      fun _ _ => trivial
  | endMatch id => exact h.endMatch id
  | createServer cfg => exact (exists_of_createServer h cfg).1
  | _ => exact (calm_step (by simp) (by simp) (by simp)).indexed h

lemma accounted_step {i : Input} (hindexed : Indexed σ) (h : Accounted σ)
    (hi : Counted limits σ i) : Indexed (step limits σ i) ∧ Accounted (step limits σ i) := by
  refine ⟨indexed_step hindexed i, ?_⟩
  cases i with
  | tick =>
    exact (@tick_invariant limits σ (fun τ => Indexed τ ∧ Accounted τ) _
      (fun _ queue hτ => ⟨hτ.1.requeued queue, hτ.2⟩)
      (fun _ _ _ _ _ _ hτ hsize hcreate hp hfits => ⟨hτ.1.createMatch hsize hcreate,
        hτ.2.createMatch hτ.1 hsize hcreate hp hfits⟩) ⟨hindexed, h⟩ hi).2
  | endMatch id => exact h.endMatch hi
  | createServer cfg =>
    obtain ⟨-, hseats, hservers⟩ := @exists_of_createServer limits σ hindexed cfg
    intro j s hs
    rw [hseats]
    rcases hservers j s hs with hold | ⟨hcount, hnone⟩
    · exact h j s hold
    · rw [hcount, hnone]
  | _ => exact (calm_step (by simp) (by simp) (by simp)).accounted h

lemma withinCapacity_step {i : Input} (hindexed : Indexed σ) (h : WithinCapacity σ)
    (hi : Fitting limits σ i) :
    Indexed (step limits σ i) ∧ WithinCapacity (step limits σ i) := by
  refine ⟨indexed_step hindexed i, ?_⟩
  cases i with
  | tick =>
    exact (@tick_invariant limits σ (fun τ => Indexed τ ∧ WithinCapacity τ) _
      (fun _ queue hτ => ⟨hτ.1.requeued queue, hτ.2⟩)
      (fun _ _ _ _ _ _ hτ hsize hcreate hp hfits => ⟨hτ.1.createMatch hsize hcreate,
        hτ.2.createMatch hτ.1 hsize hcreate hp hfits⟩) ⟨hindexed, h⟩ hi).2
  | endMatch id => exact h.endMatch id
  | createServer cfg =>
    obtain ⟨-, hseats, hservers⟩ := @exists_of_createServer limits σ hindexed cfg
    intro j s hs
    rw [hseats]
    rcases hservers j s hs with hold | ⟨-, hnone⟩
    · exact h j s hold
    · omega
  | _ => exact (calm_step (by simp) (by simp) (by simp)).withinCapacity h

/-- **Players are accounted for** in every state of a run whose matches all go to running servers
with seats for the whole group, and are ended once. -/
theorem accounted_run (limits : ServerLimits) (inputs : List Input)
    (h : Machine.Along (step limits) (Counted limits) .new inputs) :
    Accounted (run limits inputs) :=
  (@Machine.invariant _ _ (step limits) (Counted limits) (fun σ => Indexed σ ∧ Accounted σ)
    (fun _ _ hσ hi => accounted_step hσ.1 hσ.2 hi) _ inputs
    ⟨indexed_new, by simp [Accounted, new, GameServerManager.new]⟩ h).2

/-- A server is created and starts, two players meet on it, and their match is ended. -/
def oneMatch : List Input :=
  [.createServer ⟨"first", "default", "arena", some 10⟩, .wait 100, .fire 0,
    .enqueue "a" "arena" none none 0, .enqueue "b" "arena" none none 0, .tick, .endMatch 0]

theorem accounted_oneMatch :
    Machine.Along (step ⟨1, 16⟩) (Counted ⟨1, 16⟩) .new oneMatch ∧
      Accounted (run ⟨1, 16⟩ oneMatch) := by
  have hplaced : placementsByTick ⟨1, 16⟩ (run ⟨1, 16⟩ (oneMatch.take 5)) =
      [⟨0, [⟨0, "a", "arena", none, none, 0⟩, ⟨1, "b", "arena", none, none, 0⟩],
        some ⟨0, "first", "default", "arena", .running, 0, 10⟩, 0⟩] := by
    decide +kernel
  have hlive : ((run ⟨1, 16⟩ (oneMatch.take 6)).matchMap.get? 0).map (fun m => m.endedAt) =
      some none := by
    decide +kernel
  have h : Machine.Along (step ⟨1, 16⟩) (Counted ⟨1, 16⟩) .new oneMatch := by
    refine ⟨trivial, trivial, trivial, trivial, trivial, fun p hp => ?_, fun m hm => .inl ?_,
      trivial⟩
    · rw [show p = _ from List.mem_singleton.1 (hplaced ▸ hp)]
      exact ⟨_, rfl, by decide⟩
    · rw [show (run ⟨1, 16⟩ (oneMatch.take 6)).matchMap.get? 0 = some m from hm] at hlive
      exact Option.some.inj hlive
  exact ⟨h, accounted_run ⟨1, 16⟩ oneMatch h⟩

/-- Two players meet on a server that is created for them. -/
def newServer : List Input :=
  [.enqueue "a" "arena" none none 0, .enqueue "b" "arena" none none 0, .tick]

/-- The server is still starting, and counts neither of them. -/
theorem starting_server_counts_nobody : ¬ Accounted (run ⟨1, 16⟩ newServer) := by
  intro h
  have hserver : (run ⟨1, 16⟩ newServer).manager.servers.get? 0 =
      some ⟨0, "arena-auto-0", "default", "arena", .starting, 0, 10⟩ := by
    decide +kernel
  have hseats : (run ⟨1, 16⟩ newServer).seats 0 = 2 := by
    decide +kernel
  have hcount := h 0 _ hserver
  rw [hseats] at hcount
  simp at hcount

/-- The server of two players has started, and two more find seats on it. -/
def fourPlayers : List Input :=
  newServer ++ [.wait 100, .fire 0, .enqueue "c" "arena" none none 0,
    .enqueue "d" "arena" none none 0, .tick]

/-- Two players meet on a new server for ten, and when it has started ten more are sent there. -/
def twelveOnTen : List Input :=
  newServer ++ [.wait 100, .fire 0] ++
    (["c", "d", "e", "f", "g", "h", "i", "j", "k", "l"].map fun p =>
      .enqueue p "arena" none none 0) ++ [.tick]

end Orchestrator

end SyncEngine
