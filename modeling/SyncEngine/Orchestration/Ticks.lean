import SyncEngine.Orchestration.Matchmaker

/-!
# What a tick does

The transitions of a tick, from the inside out.  `MatchCreated` is what the creation of one match
changes, and `Loop` is the run of the matching loop without its fuel (`matchLoop_spec`).  The loop
places the requests from the front of the sorted list and leaves a number that depends on the
length alone (`leftoverCount`, `Loop.placed_ok`).  `Processed` is then what becomes of one mode,
and `processModes` goes from mode to mode, each time with the others as they were.

`Ticks` forgets the queue: it is the relation that every invariant about matches and servers is
carried along.
-/

namespace SyncEngine

open Js

namespace Orchestrator

variable {limits : ServerLimits} {σ τ υ : Orchestrator}

/-- The requests that wait for a mode. -/
def queueAt (σ : Orchestrator) (mode : String) : List MatchRequest := (σ.queue.get? mode).getD []

/-! ## The creation of a match -/

/-- What changes when a match is created; the manager is left open. -/
structure MatchCreated (σ τ : Orchestrator) (players : List MatchRequest)
    (chosen : Option GameServerInfo) (info : MatchInfo) : Prop where
  players_ne_nil : players ≠ []
  queue : τ.queue = σ.queue
  configs : τ.configs = σ.configs
  clock : τ.clock = σ.clock
  nextTicket : τ.nextTicket = σ.nextTicket
  removals : τ.removals = σ.removals
  nextMatch : τ.nextMatch = σ.nextMatch + 1
  matchMap : τ.matchMap = σ.matchMap.set σ.nextMatch info
  placements : τ.placements =
    σ.placements ++ [⟨σ.nextMatch, players, chosen, σ.seats info.serverId⟩]
  info_players : info.players = players.map fun p => p.playerId
  info_status : info.status = .starting
  info_endedAt : info.endedAt = none

lemma placeMatch_created {mode map : String} {players : List MatchRequest}
    {cfg : MatchmakingConfig} {serverId : ServerId} {chosen : Option GameServerInfo}
    (h : players ≠ []) :
    MatchCreated σ (σ.placeMatch mode players map cfg serverId chosen) players chosen
      ⟨σ.nextMatch, serverId, mode, map, .starting, players.map fun p => p.playerId,
        cfg.maxPlayers, σ.clock, none, none⟩ :=
  ⟨h, rfl, rfl, rfl, rfl, rfl, rfl, rfl, rfl, rfl, rfl, rfl⟩

/-- A match is the new one, or was there before. -/
lemma MatchCreated.match_cases {players : List MatchRequest} {chosen : Option GameServerInfo}
    {info : MatchInfo} (hc : MatchCreated σ τ players chosen info) {id : MatchId} {m : MatchInfo}
    (hm : τ.matchMap.get? id = some m) :
    (id = σ.nextMatch ∧ m = info) ∨ (id ≠ σ.nextMatch ∧ σ.matchMap.get? id = some m) := by
  rw [hc.matchMap, Js.Map.get?_set] at hm
  split at hm
  next hid => exact .inl ⟨hid, (Option.some.inj hm).symm⟩
  next hid => exact .inr ⟨hid, hm⟩

/-- The state in which a new server has been created. -/
lemma createServer_eq_ok {cfg : GameServerConfig} {server : GameServerInfo}
    (h : σ.createServer limits cfg = .ok (server, τ)) :
    σ.manager.servers.size < limits.maxServers ∧
      server = ⟨σ.manager.nextId, cfg.name, cfg.map, cfg.mode, .starting, 0,
        GameServerManager.maxPlayersOf limits cfg.maxPlayers⟩ ∧
      τ = { σ with manager := ⟨σ.manager.servers.set σ.manager.nextId server,
        σ.manager.nextId + 1⟩ }.setTimeout (.serverStarted server.id) 100 := by
  unfold createServer GameServerManager.createServer at h
  split at h
  · simp [Except.map] at h
  next hroom =>
    obtain ⟨rfl, rfl⟩ := Prod.mk.inj (Except.ok.inj h)
    exact ⟨by omega, rfl, rfl⟩

/-- **What `createMatch` does.**  The match goes to the least loaded available server of the mode,
or to a new one. -/
lemma createMatch_cases {mode : String} {players : List MatchRequest} {cfg : MatchmakingConfig}
    (h : σ.createMatch limits mode players cfg = .ok τ) :
    ∃ map, players ≠ [] ∧
      ((∃ server, σ.chooseServer mode = some server ∧
          τ = σ.placeMatch mode players map cfg server.id (some server)) ∨
        (σ.chooseServer mode = none ∧ ∃ server σ', σ.createServer limits
            ⟨mode ++ "-auto-" ++ toString σ.clock, map, mode, some cfg.maxPlayers⟩ =
              .ok (server, σ') ∧
          τ = σ'.placeMatch mode players map cfg server.id none)) := by
  unfold createMatch at h
  split at h
  · simp at h
  next first others =>
    refine ⟨mapOf first, by simp, ?_⟩
    split at h
    next server hserver => exact .inl ⟨server, hserver, (Except.ok.inj h).symm⟩
    next hnone =>
      rcases hc : σ.createServer limits ⟨mode ++ "-auto-" ++ toString σ.clock, mapOf first, mode,
        some cfg.maxPlayers⟩ with e | ⟨server, σ'⟩
      · rw [hc] at h
        simp [Except.map] at h
      · rw [hc] at h
        exact .inr ⟨hnone, server, σ', rfl, (Except.ok.inj h).symm⟩

lemma createMatch_created {mode : String} {players : List MatchRequest} {cfg : MatchmakingConfig}
    (h : σ.createMatch limits mode players cfg = .ok τ) :
    ∃ chosen info, MatchCreated σ τ players chosen info := by
  obtain ⟨map, hne, ⟨server, -, rfl⟩ | ⟨-, server, σ', hserver, rfl⟩⟩ := createMatch_cases h
  · exact ⟨_, _, placeMatch_created hne⟩
  · obtain ⟨-, -, rfl⟩ := createServer_eq_ok hserver
    exact ⟨none, _, { placeMatch_created hne with }⟩

/-- One placement is recorded. -/
lemma createMatch_placements {mode : String} {players : List MatchRequest}
    {cfg : MatchmakingConfig} (h : σ.createMatch limits mode players cfg = .ok τ) :
    ∃ p : Placement, p.requests = players ∧ players ≠ [] ∧
      τ.placements = σ.placements ++ [p] := by
  obtain ⟨_, _, hc⟩ := createMatch_created h
  exact ⟨_, rfl, hc.players_ne_nil, hc.placements⟩

/-- The timers set are start timers. -/
lemma createMatch_timers {mode : String} {players : List MatchRequest} {cfg : MatchmakingConfig}
    (h : σ.createMatch limits mode players cfg = .ok τ) :
    ∀ t ∈ τ.timers, t ∈ σ.timers ∨ ∀ id, t.callback ≠ .matchCompleted id := by
  intro t ht
  obtain ⟨map, -, ⟨server, -, rfl⟩ | ⟨-, server, σ', hserver, rfl⟩⟩ := createMatch_cases h
  · simp only [placeMatch, setTimeout, List.mem_append, List.mem_singleton] at ht
    rcases ht with ht | rfl
    · exact .inl ht
    · exact .inr fun id => by simp
  · obtain ⟨-, -, rfl⟩ := createServer_eq_ok hserver
    simp only [placeMatch, setTimeout, List.mem_append, List.mem_singleton] at ht
    rcases ht with (ht | rfl) | rfl
    · exact .inl ht
    · exact .inr fun id => by simp
    · exact .inr fun id => by simp

/-- `createMatch` throws in this state: there is no one to match, or no server for them. -/
def Blocked (limits : ServerLimits) (mode : String) (players : List MatchRequest)
    (σ : Orchestrator) : Prop :=
  players = [] ∨ (σ.chooseServer mode = none ∧ limits.maxServers ≤ σ.manager.servers.size)

lemma createMatch_eq_error_iff {mode : String} {players : List MatchRequest}
    {cfg : MatchmakingConfig} :
    (∃ e, σ.createMatch limits mode players cfg = .error e) ↔
      Blocked limits mode players σ := by
  cases players with
  | nil => exact ⟨fun _ => .inl rfl, fun _ => ⟨.typeError, rfl⟩⟩
  | cons first others =>
    simp only [Blocked, reduceCtorEq, false_or]
    unfold createMatch
    simp only
    rcases hserver : σ.chooseServer mode with - | server
    · simp only [createServer, GameServerManager.createServer, true_and]
      by_cases hfull : limits.maxServers ≤ σ.manager.servers.size <;> simp [hfull, Except.map]
    · simp

/-! ## The loop -/

/-- The run of the matching loop from some requests in a state, to a state and a result. -/
inductive Loop (limits : ServerLimits) (mode : String) (cfg : MatchmakingConfig) :
    List MatchRequest → Orchestrator → Orchestrator →
      Except OrchestrationError (List MatchRequest) → Prop
  | few {sorted σ} : sorted.length < cfg.minPlayers → Loop limits mode cfg sorted σ σ (.ok sorted)
  | short {sorted σ} : cfg.minPlayers ≤ sorted.length → groupSize cfg sorted < cfg.minPlayers →
      Loop limits mode cfg sorted σ σ
        (.ok (sorted.drop (groupSize cfg sorted) ++ sorted.take (groupSize cfg sorted)))
  | thrown {sorted σ e} : cfg.minPlayers ≤ groupSize cfg sorted →
      σ.createMatch limits mode (sorted.take (groupSize cfg sorted)) cfg = .error e →
      Loop limits mode cfg sorted σ σ (.error e)
  | matched {sorted σ τ υ r} : cfg.minPlayers ≤ groupSize cfg sorted →
      σ.createMatch limits mode (sorted.take (groupSize cfg sorted)) cfg = .ok τ →
      Loop limits mode cfg (sorted.drop (groupSize cfg sorted)) τ υ r →
      Loop limits mode cfg sorted σ υ r

/-- One round for each request and one more is enough fuel: a round that goes on has matched
someone. -/
lemma matchLoop_spec (mode : String) (cfg : MatchmakingConfig) {fuel : ℕ}
    {sorted : List MatchRequest} (h : sorted.length < fuel) (σ : Orchestrator) :
    Loop limits mode cfg sorted σ (matchLoop limits mode cfg fuel sorted σ).1
      (matchLoop limits mode cfg fuel sorted σ).2 := by
  induction fuel generalizing sorted σ with
  | zero => omega
  | succ fuel ih =>
    have hle : groupSize cfg sorted ≤ sorted.length := Nat.min_le_right _ _
    have hsize : (sorted.take (groupSize cfg sorted)).length = groupSize cfg sorted := by
      rw [List.length_take]
      omega
    rw [matchLoop]
    by_cases hfew : sorted.length ≥ cfg.minPlayers
    · simp only [if_pos hfew, hsize]
      by_cases hshort : groupSize cfg sorted < cfg.minPlayers
      · rw [if_pos hshort]
        exact .short hfew hshort
      · rw [if_neg hshort]
        rcases hmatch : σ.createMatch limits mode (sorted.take (groupSize cfg sorted)) cfg with
          e | τ
        · exact .thrown (by omega) hmatch
        · have hne : sorted.take (groupSize cfg sorted) ≠ [] := by
            obtain ⟨_, _, hcreated⟩ := createMatch_created hmatch
            exact hcreated.players_ne_nil
          have hpos : 0 < groupSize cfg sorted := by
            rw [← hsize]
            exact List.length_pos_iff.2 hne
          refine .matched (by omega) hmatch (ih ?_ τ)
          rw [List.length_drop]
          omega
    · rw [if_neg hfew]
      exact .few (by omega)

/-- How many of `n` requests the loop leaves, when it runs to its end. -/
def leftoverCount (cfg : MatchmakingConfig) (n : ℕ) : ℕ :=
  if cfg.maxPlayers < cfg.minPlayers then n
  else if n % cfg.maxPlayers < cfg.minPlayers then n % cfg.maxPlayers
  else 0

lemma leftoverCount_le (cfg : MatchmakingConfig) (n : ℕ) : leftoverCount cfg n ≤ n := by
  unfold leftoverCount
  split
  · exact le_rfl
  · split
    · exact Nat.mod_le _ _
    · exact Nat.zero_le _

/-- A full group less leaves the same. -/
lemma leftoverCount_sub {cfg : MatchmakingConfig} {n : ℕ}
    (hmin : cfg.minPlayers ≤ min cfg.maxPlayers n) :
    leftoverCount cfg (n - min cfg.maxPlayers n) = leftoverCount cfg n := by
  have hmax : ¬ cfg.maxPlayers < cfg.minPlayers := by omega
  simp only [leftoverCount, if_neg hmax]
  rcases Nat.lt_or_ge n cfg.maxPlayers with hlt | hge
  · have hmod : n % cfg.maxPlayers = n := Nat.mod_eq_of_lt hlt
    have hsub : n - min cfg.maxPlayers n = 0 := by omega
    rw [hsub, hmod, Nat.zero_mod, if_neg (show ¬ n < cfg.minPlayers by omega)]
    split <;> rfl
  · have hsub : n - min cfg.maxPlayers n = n - cfg.maxPlayers := by omega
    rw [hsub, ← Nat.mod_eq_sub_mod hge]

/-- The requests placed in a list of matches. -/
def placedIn (placements : List Placement) : List MatchRequest :=
  placements.flatMap fun p => p.requests

@[simp] lemma placedIn_append (first later : List Placement) :
    placedIn (first ++ later) = placedIn first ++ placedIn later := List.flatMap_append

@[simp] lemma placedIn_cons (p : Placement) (ps : List Placement) :
    placedIn (p :: ps) = p.requests ++ placedIn ps := List.flatMap_cons

namespace Loop

variable {mode : String} {cfg : MatchmakingConfig} {sorted left : List MatchRequest}
  {r : Except OrchestrationError (List MatchRequest)}

/-- What the loop does not touch. -/
lemma queue_eq (h : Loop limits mode cfg sorted σ τ r) :
    τ.queue = σ.queue ∧ τ.configs = σ.configs ∧ τ.clock = σ.clock ∧
      τ.nextTicket = σ.nextTicket ∧ τ.removals = σ.removals := by
  induction h with
  | few _ | short _ _ | thrown _ _ => exact ⟨rfl, rfl, rfl, rfl, rfl⟩
  | matched _ hmatch _ ih =>
    obtain ⟨_, _, hc⟩ := createMatch_created hmatch
    obtain ⟨h₁, h₂, h₃, h₄, h₅⟩ := ih
    exact ⟨h₁.trans hc.queue, h₂.trans hc.configs, h₃.trans hc.clock, h₄.trans hc.nextTicket,
      h₅.trans hc.removals⟩

/-- The loop places requests from the front of the list. -/
lemma placed (h : Loop limits mode cfg sorted σ τ r) :
    ∃ ps n, τ.placements = σ.placements ++ ps ∧ placedIn ps = sorted.take n ∧
      ∀ p ∈ ps, p.requests ≠ [] := by
  induction h with
  | few _ | short _ _ | thrown _ _ => exact ⟨[], 0, (List.append_nil _).symm, rfl, by simp⟩
  | @matched sorted σ τ υ r _ hmatch _ ih =>
    obtain ⟨p, hp, hne, hone⟩ := createMatch_placements hmatch
    obtain ⟨ps, n, hps, hplaced, hsome⟩ := ih
    refine ⟨p :: ps, groupSize cfg sorted + n, ?_, ?_, ?_⟩
    · rw [hps, hone, List.append_assoc, List.singleton_append]
    · rw [placedIn_cons, hp, hplaced, List.take_add]
    · rintro p' (- | ⟨-, hp'⟩)
      · rwa [hp]
      · exact hsome p' hp'

/-- A loop that runs to its end leaves `leftoverCount` requests, those at the end of the list. -/
lemma placed_ok (h : Loop limits mode cfg sorted σ τ (.ok left)) :
    ∃ ps, τ.placements = σ.placements ++ ps ∧
      placedIn ps = sorted.take (sorted.length - leftoverCount cfg sorted.length) ∧
      left.Perm (sorted.drop (sorted.length - leftoverCount cfg sorted.length)) := by
  generalize hr : Except.ok (ε := OrchestrationError) left = r at h
  induction h with
  | @few sorted σ hfew =>
    obtain rfl := Except.ok.inj hr
    have hall : leftoverCount cfg left.length = left.length := by
      unfold leftoverCount
      split
      · rfl
      · rw [Nat.mod_eq_of_lt (by omega), if_pos hfew]
    rw [hall, Nat.sub_self]
    exact ⟨[], (List.append_nil _).symm, rfl, List.Perm.refl _⟩
  | @short sorted σ hmany hshort =>
    obtain rfl := Except.ok.inj hr
    have hall : leftoverCount cfg sorted.length = sorted.length :=
      if_pos (by rw [groupSize] at hshort; omega)
    rw [hall, Nat.sub_self]
    refine ⟨[], (List.append_nil _).symm, rfl, List.perm_append_comm.trans ?_⟩
    rw [List.take_append_drop]
    exact List.Perm.refl _
  | thrown _ _ => simp at hr
  | @matched sorted σ τ υ r hmin hmatch _ ih =>
    obtain ⟨p, hp, -, hone⟩ := createMatch_placements hmatch
    obtain ⟨ps, hps, hplaced, hleft⟩ := ih hr
    have hrest : leftoverCount cfg (sorted.length - groupSize cfg sorted) =
        leftoverCount cfg sorted.length := leftoverCount_sub hmin
    have hle := leftoverCount_le cfg (sorted.length - groupSize cfg sorted)
    have hsize : groupSize cfg sorted ≤ sorted.length := Nat.min_le_right _ _
    have hcut : sorted.length - leftoverCount cfg sorted.length = groupSize cfg sorted +
        (sorted.length - groupSize cfg sorted - leftoverCount cfg sorted.length) := by
      omega
    rw [List.length_drop, hrest] at hplaced hleft
    refine ⟨p :: ps, ?_, ?_, ?_⟩
    · rw [hps, hone, List.append_assoc, List.singleton_append]
    · rw [placedIn_cons, hp, hplaced, hcut, List.take_add]
    · rw [hcut, ← List.drop_drop]
      exact hleft

/-- A loop that throws has placed nobody exactly when its first match is blocked. -/
lemma placed_error {e : OrchestrationError} (h : Loop limits mode cfg sorted σ τ (.error e)) :
    τ.placements = σ.placements ↔
      Blocked limits mode (sorted.take (groupSize cfg sorted)) σ := by
  rw [← @createMatch_eq_error_iff limits _ mode _ cfg]
  cases h with
  | thrown _ hthrown => exact ⟨fun _ => ⟨e, hthrown⟩, fun _ => rfl⟩
  | matched _ hmatch hrest =>
    obtain ⟨p, -, -, hone⟩ := createMatch_placements hmatch
    obtain ⟨ps, -, hps, -⟩ := hrest.placed
    rw [hmatch, hps, hone]
    simp

end Loop

/-! ## One mode -/

lemma queueAt_set (mode m : String) (requests : List MatchRequest) :
    queueAt { σ with queue := σ.queue.set mode requests } m =
      if m = mode then requests else σ.queueAt m := by
  unfold queueAt
  rw [Js.Map.get?_set]
  split <;> rfl

lemma queueAt_delete (mode m : String) :
    queueAt { σ with queue := σ.queue.delete mode } m = if m = mode then [] else σ.queueAt m := by
  unfold queueAt
  rw [Js.Map.get?_delete]
  split <;> rfl

lemma queueAt_requeue (mode m : String) (requests : List MatchRequest) :
    (σ.requeue mode requests).queueAt m = if m = mode then requests else σ.queueAt m := by
  unfold requeue
  split
  next hempty => rw [queueAt_delete, List.length_eq_zero_iff.1 hempty]
  next => exact queueAt_set mode m requests

/-- The number of requests placed in a mode when the loop runs to its end. -/
def placedCount (cfg : MatchmakingConfig) (active : List MatchRequest) : ℕ :=
  active.length - leftoverCount cfg active.length

/-- The requests of a mode that are placed, and those that are left. -/
def placedOf (cfg : MatchmakingConfig) (active : List MatchRequest) : List MatchRequest :=
  (sortBySkill active).take (placedCount cfg active)

def leftOf (cfg : MatchmakingConfig) (active : List MatchRequest) : List MatchRequest :=
  (sortBySkill active).drop (placedCount cfg active)

/-- The first group of a mode. -/
def firstGroup (cfg : MatchmakingConfig) (active : List MatchRequest) : List MatchRequest :=
  (sortBySkill active).take (groupSize cfg active)

lemma sortBySkill_perm (active : List MatchRequest) : (sortBySkill active).Perm active :=
  List.perm_insertionSort _ _

lemma length_sortBySkill (active : List MatchRequest) :
    (sortBySkill active).length = active.length :=
  (sortBySkill_perm active).length_eq

lemma placedOf_append_leftOf (cfg : MatchmakingConfig) (active : List MatchRequest) :
    (placedOf cfg active ++ leftOf cfg active).Perm active := by
  rw [placedOf, leftOf, List.take_append_drop]
  exact sortBySkill_perm active

/-- What becomes of a mode with the active requests `active`. -/
structure Processed (limits : ServerLimits) (mode : String) (cfg : MatchmakingConfig)
    (active : List MatchRequest) (σ τ : Orchestrator) (r : Option OrchestrationError) : Prop where
  configs : τ.configs = σ.configs
  clock : τ.clock = σ.clock
  nextTicket : τ.nextTicket = σ.nextTicket
  removals : τ.removals = σ.removals
  others : ∀ m, m ≠ mode → τ.queueAt m = σ.queueAt m
  placed : ∃ ps, τ.placements = σ.placements ++ ps ∧ (∀ q ∈ placedIn ps, q ∈ active) ∧
    ∀ p ∈ ps, p.requests ≠ []
  ended : r = none → τ.queueAt mode = (active.filter fun q =>
      q.playerId ∈ (leftOf cfg active).map fun s => s.playerId) ∧
    ∃ ps, τ.placements = σ.placements ++ ps ∧ placedIn ps = placedOf cfg active
  thrown : r ≠ none → τ.queueAt mode = active ∧
    (τ.placements = σ.placements ↔ Blocked limits mode (firstGroup cfg active) σ)

lemma groupSize_sortBySkill (cfg : MatchmakingConfig) (active : List MatchRequest) :
    groupSize cfg (sortBySkill active) = groupSize cfg active := by
  rw [groupSize, length_sortBySkill, groupSize]

/-- **What `processQueue` does**: nothing but the removal of the mode where nobody is left to match,
and otherwise the loop over the sorted active requests, which throws or leaves some of them. -/
lemma processQueue_cases (limits : ServerLimits) (mode : String) (queue : List MatchRequest)
    (cfg : MatchmakingConfig) (σ : Orchestrator) {active : List MatchRequest} {σ₁ : Orchestrator}
    (hactive : activeOf σ.clock cfg queue = active)
    (hσ₁ : { σ with queue := σ.queue.set mode active } = σ₁) :
    (active = [] ∧ processQueue limits mode queue cfg σ =
        ({ σ₁ with queue := σ₁.queue.delete mode }, none)) ∨
      (∃ τ e, Loop limits mode cfg (sortBySkill active) σ₁ τ (.error e) ∧
        processQueue limits mode queue cfg σ = (τ, some e)) ∨
      ∃ τ left, Loop limits mode cfg (sortBySkill active) σ₁ τ (.ok left) ∧
        processQueue limits mode queue cfg σ = (τ.requeue mode
          (active.filter fun q => q.playerId ∈ left.map fun s => s.playerId), none) := by
  have hloop := @matchLoop_spec limits mode cfg (active.length + 1) (sortBySkill active)
    (by rw [length_sortBySkill]; omega) σ₁
  unfold processQueue
  simp only [hactive, hσ₁]
  by_cases hempty : active.length = 0
  · exact .inl ⟨List.length_eq_zero_iff.1 hempty, by rw [if_pos hempty, ← hσ₁]⟩
  · right
    rw [if_neg hempty]
    rcases hr : matchLoop limits mode cfg (active.length + 1) (sortBySkill active) σ₁ with
      ⟨τ, e | left⟩
    · rw [hr] at hloop
      exact .inl ⟨τ, e, hloop, rfl⟩
    · rw [hr] at hloop
      exact .inr ⟨τ, left, hloop, rfl⟩

/-- Only the queue is rewritten. -/
lemma exists_requeue (mode : String) (requests : List MatchRequest) (σ : Orchestrator) :
    ∃ queue, σ.requeue mode requests = { σ with queue := queue } := by
  unfold requeue
  split
  · exact ⟨_, rfl⟩
  · exact ⟨_, rfl⟩

/-- **What a tick does to one mode.** -/
lemma processQueue_processed (mode : String) (queue : List MatchRequest)
    (cfg : MatchmakingConfig) (σ : Orchestrator) :
    Processed limits mode cfg (activeOf σ.clock cfg queue) σ
      (processQueue limits mode queue cfg σ).1 (processQueue limits mode queue cfg σ).2 := by
  set active := activeOf σ.clock cfg queue with hactive
  set σ₁ : Orchestrator := { σ with queue := σ.queue.set mode active } with hσ₁
  have hqueue : ∀ m, σ₁.queueAt m = if m = mode then active else σ.queueAt m :=
    fun m => queueAt_set mode m active
  rcases processQueue_cases limits mode queue cfg σ hactive.symm hσ₁.symm with
    ⟨hnil, heq⟩ | ⟨τ, e, hloop, heq⟩ | ⟨τ, left, hloop, heq⟩
  · -- nobody is left to match, and the mode is removed
    rw [heq]
    refine ⟨rfl, rfl, rfl, rfl, fun m hm => ?_, ⟨[], (List.append_nil _).symm, by simp [placedIn],
      by simp⟩, fun _ => ⟨?_, [], (List.append_nil _).symm, ?_⟩, fun hne => absurd rfl hne⟩
    · exact (queueAt_delete (σ := σ₁) mode m).trans (by rw [if_neg hm, hqueue, if_neg hm])
    · exact (queueAt_delete (σ := σ₁) mode mode).trans (by rw [if_pos rfl, hnil]; rfl)
    · rw [hnil]
      simp [placedOf, sortBySkill, placedIn]
  all_goals
    obtain ⟨hq, hconfigs, hclock, hticket, hremovals⟩ := hloop.queue_eq
    obtain ⟨ps, n, hps, hplaced, hsome⟩ := hloop.placed
    have hmem : ∀ q ∈ placedIn ps, q ∈ active := by
      intro q hmem
      rw [hplaced] at hmem
      exact (sortBySkill_perm active).mem_iff.1 (List.mem_of_mem_take hmem)
    have hkept : ∀ m, τ.queueAt m = σ₁.queueAt m := fun m => by rw [queueAt, hq, queueAt]
    rw [heq]
  · -- the loop threw, and the mode keeps all its active requests
    have hfirst := hloop.placed_error
    rw [groupSize_sortBySkill] at hfirst
    refine ⟨hconfigs, hclock, hticket, hremovals, fun m hm => ?_, ⟨ps, hps, hmem, hsome⟩,
      fun hnone => absurd hnone (by simp), fun _ => ⟨?_, hfirst⟩⟩
    · rw [hkept, hqueue, if_neg hm]
    · rw [hkept, hqueue, if_pos rfl]
  · obtain ⟨ps', hps', hplaced', hleft⟩ := hloop.placed_ok
    rw [length_sortBySkill] at hplaced' hleft
    have hfilter : (active.filter fun q => q.playerId ∈ left.map fun s => s.playerId) =
        active.filter fun q => q.playerId ∈ (leftOf cfg active).map fun s => s.playerId := by
      refine List.filter_congr fun q _ => ?_
      have hiff : (q.playerId ∈ left.map fun s => s.playerId) ↔
          q.playerId ∈ (leftOf cfg active).map fun s => s.playerId :=
        (hleft.map _).mem_iff
      exact decide_eq_decide.2 hiff
    have hat := fun m => queueAt_requeue (σ := τ) mode m
      (active.filter fun q => q.playerId ∈ left.map fun s => s.playerId)
    obtain ⟨queue', hrequeue⟩ := exists_requeue mode
      (active.filter fun q => q.playerId ∈ left.map fun s => s.playerId) τ
    rw [hrequeue] at hat ⊢
    refine ⟨hconfigs, hclock, hticket, hremovals, fun m hm => ?_, ⟨ps, hps, hmem, hsome⟩,
      fun _ => ⟨?_, ps', hps', hplaced'⟩, fun hne => absurd rfl hne⟩
    · rw [hat, if_neg hm, hkept, hqueue, if_neg hm]
    · rw [hat, if_pos rfl, hfilter]

namespace Processed

variable {mode : String} {cfg : MatchmakingConfig} {active : List MatchRequest}
  {r : Option OrchestrationError}

/-- A mode loses requests, and gets none. -/
lemma sublist (h : Processed limits mode cfg active σ τ r) :
    (τ.queueAt mode).Sublist active := by
  cases r with
  | none =>
    rw [(h.ended rfl).1]
    exact List.filter_sublist
  | some e =>
    rw [(h.thrown (by simp)).1]

/-- A request that is not placed stays. -/
lemma mem_of_not_placed (h : Processed limits mode cfg active σ τ r) {ps : List Placement}
    (hps : τ.placements = σ.placements ++ ps) {q : MatchRequest} (hq : q ∈ active)
    (hnot : q ∉ placedIn ps) : q ∈ τ.queueAt mode := by
  cases r with
  | none =>
    obtain ⟨hqueue, ps', hps', hplaced⟩ := h.ended rfl
    obtain rfl : ps = ps' := List.append_cancel_left (hps.symm.trans hps')
    have hmem := (placedOf_append_leftOf cfg active).mem_iff.2 hq
    rw [hplaced] at hnot
    have hleft : q ∈ leftOf cfg active := (List.mem_append.1 hmem).resolve_left hnot
    rw [hqueue, List.mem_filter]
    exact ⟨hq, decide_eq_true (List.mem_map_of_mem hleft)⟩
  | some e =>
    rw [(h.thrown (by simp)).1]
    exact hq

end Processed

/-! ## All modes -/

lemma activeOf_sublist (now : Timestamp) (cfg : MatchmakingConfig) (queue : List MatchRequest) :
    (activeOf now cfg queue).Sublist queue := List.filter_sublist

lemma queueAt_of_mem_entries {mode : String} {queue : List MatchRequest}
    (h : (mode, queue) ∈ σ.queue.entries) : σ.queueAt mode = queue := by
  rw [queueAt, (Js.Map.mem_entries_iff _ _ _).1 h, Option.getD_some]

/-- `Ticks σ τ`: matches are created one after another, and the queue is rewritten at will. -/
inductive Ticks (limits : ServerLimits) (σ : Orchestrator) : Orchestrator → Prop
  | start : Ticks limits σ σ
  | requeued {τ : Orchestrator} (queue : Js.Map String (List MatchRequest)) :
      Ticks limits σ τ → Ticks limits σ { τ with queue := queue }
  | matched {τ υ : Orchestrator} {mode players cfg} : Ticks limits σ τ →
      players.length ≤ cfg.maxPlayers → τ.createMatch limits mode players cfg = .ok υ →
      Ticks limits σ υ

namespace Ticks

lemma loop {mode : String} {cfg : MatchmakingConfig} {sorted : List MatchRequest}
    {r : Except OrchestrationError (List MatchRequest)} (h : Ticks limits σ τ)
    (hloop : Loop limits mode cfg sorted τ υ r) : Ticks limits σ υ := by
  induction hloop with
  | few _ | short _ _ | thrown _ _ => exact h
  | @matched sorted τ τ' υ r _ hmatch _ ih =>
    refine ih (h.matched ?_ hmatch)
    rw [List.length_take]
    exact (Nat.min_le_left _ _).trans (Nat.min_le_left _ _)

lemma processQueue (h : Ticks limits σ τ) (mode : String) (queue : List MatchRequest)
    (cfg : MatchmakingConfig) : Ticks limits σ (processQueue limits mode queue cfg τ).1 := by
  have hset := h.requeued (τ.queue.set mode (activeOf τ.clock cfg queue))
  rcases processQueue_cases limits mode queue cfg τ rfl rfl with
    ⟨-, heq⟩ | ⟨υ, e, hloop, heq⟩ | ⟨υ, left, hloop, heq⟩ <;> rw [heq]
  · exact hset.requeued _
  · exact hset.loop hloop
  · obtain ⟨queue', hrequeue⟩ := exists_requeue mode ((activeOf τ.clock cfg queue).filter
      fun q => q.playerId ∈ left.map fun s => s.playerId) υ
    rw [hrequeue]
    exact (hset.loop hloop).requeued queue'

lemma processModes (modes : List (String × List MatchRequest)) (h : Ticks limits σ τ) :
    Ticks limits σ (processModes limits modes τ).1 := by
  induction modes generalizing τ with
  | nil => exact h
  | cons entry modes ih =>
    have hone := h.processQueue entry.1 entry.2 (τ.configOf entry.1)
    unfold Orchestrator.processModes
    split
    next heq =>
      rw [heq] at hone
      exact hone
    next heq =>
      rw [heq] at hone
      exact ih hone

end Ticks

/-- An invariant that the creation of a match keeps where the match fits holds after a tick whose
matches all fit. -/
lemma Ticks.induct {Inv : Orchestrator → Prop} {Fits : Placement → Prop}
    (hqueue : ∀ τ queue, Inv τ → Inv { τ with queue := queue })
    (hmatch : ∀ (τ υ : Orchestrator) mode players cfg p, Inv τ → players.length ≤ cfg.maxPlayers →
      τ.createMatch limits mode players cfg = .ok υ → υ.placements = τ.placements ++ [p] →
      Fits p → Inv υ)
    (h : Ticks limits σ τ) (hσ : Inv σ) :
    ∃ ps, τ.placements = σ.placements ++ ps ∧ ((∀ p ∈ ps, Fits p) → Inv τ) := by
  induction h with
  | start => exact ⟨[], (List.append_nil _).symm, fun _ => hσ⟩
  | requeued queue _ ih =>
    obtain ⟨ps, hps, hinv⟩ := ih
    exact ⟨ps, hps, fun hfits => hqueue _ queue (hinv hfits)⟩
  | matched _ hsize hcreate ih =>
    obtain ⟨ps, hps, hinv⟩ := ih
    obtain ⟨p, -, -, hp⟩ := createMatch_placements hcreate
    refine ⟨ps ++ [p], by rw [hp, hps, List.append_assoc], fun hfits => ?_⟩
    exact hmatch _ _ _ _ _ p (hinv fun p' hp' => hfits p' (List.mem_append_left _ hp'))
      hsize hcreate
      hp (hfits p (by simp))

/-- The placements of a tick. -/
def placementsByTick (limits : ServerLimits) (σ : Orchestrator) : List Placement :=
  (σ.processQueues limits).1.placements.drop σ.placements.length

lemma processQueues_ticks (σ : Orchestrator) : Ticks limits σ (σ.processQueues limits).1 :=
  Ticks.start.processModes _

/-- A tick keeps what the creation of a match keeps where it fits. -/
lemma tick_invariant {Inv : Orchestrator → Prop} {Fits : Placement → Prop}
    (hqueue : ∀ τ queue, Inv τ → Inv { τ with queue := queue })
    (hmatch : ∀ (τ υ : Orchestrator) mode players cfg p, Inv τ → players.length ≤ cfg.maxPlayers →
      τ.createMatch limits mode players cfg = .ok υ → υ.placements = τ.placements ++ [p] →
      Fits p → Inv υ)
    (hσ : Inv σ) (hfits : ∀ p ∈ placementsByTick limits σ, Fits p) :
    Inv (step limits σ .tick) := by
  obtain ⟨ps, hps, hinv⟩ := Ticks.induct hqueue hmatch (processQueues_ticks σ) hσ
  rw [placementsByTick, hps, List.drop_left] at hfits
  exact hinv hfits

/-! ## What the other inputs change -/

lemma exists_dequeue (p : PlayerId) (mode : String) (σ : Orchestrator) :
    ∃ queue, σ.dequeue p mode = { σ with queue := queue } := by
  unfold dequeue
  split
  · exact ⟨σ.queue, rfl⟩
  · split
    · exact ⟨σ.queue, rfl⟩
    · simp only
      split
      · exact ⟨_, rfl⟩
      · exact ⟨_, rfl⟩

/-- A server comes into being with nobody on it, or nothing happens. -/
lemma step_createServer (limits : ServerLimits) (cfg : GameServerConfig) (σ : Orchestrator) :
    step limits σ (.createServer cfg) = σ ∨
      ∃ server timers, server.id = σ.manager.nextId ∧ server.currentPlayers = 0 ∧
        step limits σ (.createServer cfg) = { σ with
          manager := ⟨σ.manager.servers.set σ.manager.nextId server, σ.manager.nextId + 1⟩
          timers := timers } := by
  rcases hc : σ.createServer limits cfg with e | ⟨server, τ⟩
  · left
    simp only [step, hc]
  · obtain ⟨-, hserver, rfl⟩ := createServer_eq_ok hc
    right
    refine ⟨server, σ.timers ++ [⟨σ.clock + 100, .serverStarted server.id⟩], by rw [hserver],
      by rw [hserver], ?_⟩
    simp only [step, hc]
    rfl

lemma exists_stopServer (id : ServerId) (σ : Orchestrator) :
    ∃ timers, σ.stopServer id =
      { σ with manager := σ.manager.stopServer id, timers := timers } := by
  unfold stopServer
  split
  next hnone =>
    refine ⟨σ.timers, ?_⟩
    simp only [GameServerManager.stopServer, Js.Map.modify, hnone]
  · exact ⟨_, rfl⟩

lemma exists_removeServer (id : ServerId) (σ : Orchestrator) :
    ∃ manager timers, (manager = σ.manager ∨ manager = σ.manager.removeServer id ∨
        manager = (σ.manager.stopServer id).removeServer id) ∧
      σ.removeServer id = { σ with manager := manager, timers := timers } := by
  unfold removeServer
  split
  · exact ⟨σ.manager, σ.timers, .inl rfl, rfl⟩
  · split
    · obtain ⟨timers, heq⟩ := exists_stopServer id σ
      exact ⟨_, timers, .inr (.inr rfl), by rw [heq]⟩
    · exact ⟨_, σ.timers, .inr (.inl rfl), rfl⟩

/-- A timer that is due is taken off the list and called, or nothing happens. -/
lemma step_fire (limits : ServerLimits) (i : ℕ) (σ : Orchestrator) :
    step limits σ (.fire i) = σ ∨ ∃ timer timers, timer ∈ σ.timers ∧
      step limits σ (.fire i) = { σ with timers := timers }.call timer.callback := by
  simp only [step]
  split
  · exact .inl rfl
  next timer htimer =>
    split
    · exact .inr ⟨timer, _, List.mem_of_getElem? htimer, rfl⟩
    · exact .inl rfl

end Orchestrator

end SyncEngine
