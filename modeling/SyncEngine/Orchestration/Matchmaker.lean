import SyncEngine.Js.Sort
import SyncEngine.Machine.Runs
import SyncEngine.Orchestration.GameServerManager

/-!
# The matchmaker

`src/orchestration/matchmaker.ts` together with the server manager it drives, the timers both
set, and the clock.  An input (`Input`) is a call of the API, a matchmaking tick, or a timer that
fires; `step` is what the process does with it.  A tick works through the modes of the queue and
stops where it throws (`IntervalTimer` catches and logs that).  A timer can fire whenever it is
due, in any order.

A request stands for one call of `enqueue`, so it carries the number of that call (`ticket`).
Two ghost fields record what happened: `placements`, one for each match with the requests that
were placed in it and the server as it stood when it was chosen, and `removals`, one for each time
`endMatch` gave back the seats of a match.  Nothing reads them but the statements.
-/

namespace SyncEngine

open Js

abbrev MatchId := ℕ
abbrev PlayerId := String

structure MatchRequest where
  ticket : ℕ
  playerId : PlayerId
  mode : String
  map : Option String
  skillRating : Option ℚ
  requestedAt : Timestamp
  deriving DecidableEq

structure MatchmakingConfig where
  minPlayers : ℕ
  maxPlayers : ℕ
  maxWaitTimeMs : ℕ
  deriving DecidableEq

/-- `DEFAULT_CONFIG` -/
def MatchmakingConfig.default : MatchmakingConfig := ⟨2, 10, 60000⟩

inductive MatchStatus
  | waiting
  | starting
  | inProgress
  | ending
  | completed
  | cancelled
  deriving DecidableEq

structure MatchInfo where
  id : MatchId
  serverId : ServerId
  mode : String
  map : String
  status : MatchStatus
  players : List PlayerId
  maxPlayers : ℕ
  startedAt : Timestamp
  endedAt : Option Timestamp
  duration : Option ℕ
  deriving DecidableEq

/-- The callbacks that wait for their time. -/
inductive Callback
  | serverStarted (id : ServerId)
  | serverStopped (id : ServerId)
  | matchStarted (id : MatchId)
  | matchCompleted (id : MatchId)
  deriving DecidableEq

structure Timer where
  due : Timestamp
  callback : Callback
  deriving DecidableEq

/-- A match and the requests placed in it.  `chosen` is the available server that was chosen, as
it stood, or `none` where a server was created; `taken` counts the players of the matches on it
that had not been ended. -/
structure Placement where
  matchId : MatchId
  requests : List MatchRequest
  chosen : Option GameServerInfo
  taken : ℕ
  deriving DecidableEq

structure Orchestrator where
  manager : GameServerManager
  queue : Js.Map String (List MatchRequest)
  /-- the source's `matches` -/
  matchMap : Js.Map MatchId MatchInfo
  configs : Js.Map String MatchmakingConfig
  timers : List Timer
  clock : Timestamp
  /-- the next id of `generateMatchId` -/
  nextMatch : MatchId
  /-- the number of calls of `enqueue` so far -/
  nextTicket : ℕ
  placements : List Placement
  removals : List MatchId

namespace Orchestrator

def new : Orchestrator :=
  ⟨.new, .empty, .empty, .empty, [], 0, 0, 0, [], []⟩

/-- `setTimeout(callback, delay)` -/
def setTimeout (σ : Orchestrator) (callback : Callback) (delay : ℕ) : Orchestrator :=
  { σ with timers := σ.timers ++ [⟨σ.clock + delay, callback⟩] }

variable (limits : ServerLimits)

/-- `serverManager.createServer(cfg)`, with its start timer. -/
def createServer (cfg : GameServerConfig) (σ : Orchestrator) :
    Except OrchestrationError (GameServerInfo × Orchestrator) :=
  (σ.manager.createServer limits cfg).map fun created =>
    (created.1, { σ with manager := created.2 }.setTimeout (.serverStarted created.1.id) 100)

/-- `serverManager.stopServer(id)`, with its stop timer. -/
def stopServer (id : ServerId) (σ : Orchestrator) : Orchestrator :=
  match σ.manager.servers.get? id with
  | none => σ
  | some _ => { σ with manager := σ.manager.stopServer id }.setTimeout (.serverStopped id) 1000

/-- `serverManager.removeServer(id)`: a server that is not stopped is stopped first. -/
def removeServer (id : ServerId) (σ : Orchestrator) : Orchestrator :=
  match σ.manager.servers.get? id with
  | none => σ
  | some server =>
    let σ := if server.status ≠ .stopped then σ.stopServer id else σ
    { σ with manager := σ.manager.removeServer id }

/-! ## The queue -/

def enqueue (playerId : PlayerId) (mode : String) (map : Option String) (skillRating : Option ℚ)
    (requestedAt : Timestamp) (σ : Orchestrator) : Orchestrator :=
  let request : MatchRequest := ⟨σ.nextTicket, playerId, mode, map, skillRating, requestedAt⟩
  { σ with
    queue := σ.queue.set mode ((σ.queue.get? mode).getD [] ++ [request])
    nextTicket := σ.nextTicket + 1 }

def dequeue (playerId : PlayerId) (mode : String) (σ : Orchestrator) : Orchestrator :=
  match σ.queue.get? mode with
  | none => σ
  | some modeQueue =>
    match modeQueue.findIdx? (fun r => r.playerId = playerId) with
    | none => σ
    | some idx =>
      let modeQueue := modeQueue.eraseIdx idx
      if modeQueue.length = 0 then { σ with queue := σ.queue.delete mode }
      else { σ with queue := σ.queue.set mode modeQueue }

/-! ## Matches -/

/-- The server that `createMatch` takes for a mode: the least loaded available one. -/
def chooseServer (mode : String) (σ : Orchestrator) : Option GameServerInfo :=
  (sortOn (fun s => s.currentPlayers)
    (σ.manager.getAvailableServers.filter fun s => s.mode = mode)).head?

/-- `players[0].map || 'default'` -/
def mapOf (request : MatchRequest) : String :=
  if request.map.getD "" ≠ "" then request.map.getD "" else "default"

/-- The seats a match takes on a server until it is ended. -/
def seatsOn (id : ServerId) (m : MatchInfo) : ℕ :=
  if m.serverId = id ∧ m.endedAt = none then m.players.length else 0

/-- The players of the matches on a server that have not been ended. -/
def seats (id : ServerId) (σ : Orchestrator) : ℕ := (σ.matchMap.values.map (seatsOn id)).sum

/-- The part of `createMatch` after the choice of the server. -/
def placeMatch (mode : String) (players : List MatchRequest) (map : String)
    (cfg : MatchmakingConfig) (serverId : ServerId) (chosen : Option GameServerInfo)
    (σ : Orchestrator) : Orchestrator :=
  let info : MatchInfo := ⟨σ.nextMatch, serverId, mode, map, .starting,
    players.map fun p => p.playerId, cfg.maxPlayers, σ.clock, none, none⟩
  let placement : Placement := ⟨σ.nextMatch, players, chosen, σ.seats serverId⟩
  { σ with
    matchMap := σ.matchMap.set σ.nextMatch info
    nextMatch := σ.nextMatch + 1
    manager := σ.manager.addPlayers serverId players.length
    placements := σ.placements ++ [placement] }.setTimeout
      (.matchStarted σ.nextMatch) 500

/-- `createMatch`.  With no players `players[0].map` throws, in either branch. -/
def createMatch (mode : String) (players : List MatchRequest) (cfg : MatchmakingConfig)
    (σ : Orchestrator) : Except OrchestrationError Orchestrator :=
  match players with
  | [] => .error .typeError
  | first :: _ =>
    match σ.chooseServer mode with
    | some server => .ok (σ.placeMatch mode players (mapOf first) cfg server.id (some server))
    | none =>
      (σ.createServer limits ⟨mode ++ "-auto-" ++ toString σ.clock, mapOf first, mode,
        some cfg.maxPlayers⟩).map fun created =>
          created.2.placeMatch mode players (mapOf first) cfg created.1.id none

/-- `Math.min(cfg.maxPlayers, sorted.length)` -/
def groupSize (cfg : MatchmakingConfig) (sorted : List MatchRequest) : ℕ :=
  min cfg.maxPlayers sorted.length

/-- The loop of `processQueue` over the sorted requests, with fuel for its rounds
(`matchLoop_spec` says how much is enough).  The result is what is left of the requests, or the
exception that ended the loop. -/
def matchLoop (mode : String) (cfg : MatchmakingConfig) :
    ℕ → List MatchRequest → Orchestrator →
      Orchestrator × Except OrchestrationError (List MatchRequest)
  | 0, sorted, σ => (σ, .ok sorted)
  | fuel + 1, sorted, σ =>
    if sorted.length ≥ cfg.minPlayers then
      let group := sorted.take (groupSize cfg sorted)
      let rest := sorted.drop (groupSize cfg sorted)
      if group.length < cfg.minPlayers then (σ, .ok (rest ++ group))
      else
        match σ.createMatch limits mode group cfg with
        | .error e => (σ, .error e)
        | .ok σ => matchLoop mode cfg fuel rest σ
    else (σ, .ok sorted)

/-- `[...active].sort((a, b) => (a.skillRating || 0) - (b.skillRating || 0))` -/
def sortBySkill (active : List MatchRequest) : List MatchRequest :=
  active.insertionSort fun a b => a.skillRating.getD 0 ≤ b.skillRating.getD 0

/-- The requests of a queue that have not waited too long. -/
def activeOf (now : Timestamp) (cfg : MatchmakingConfig) (queue : List MatchRequest) :
    List MatchRequest :=
  queue.filter fun r => now - r.requestedAt ≤ cfg.maxWaitTimeMs

/-- `this.queue.set(mode, requests)`, or the removal of the mode when there are none. -/
def requeue (mode : String) (requests : List MatchRequest) (σ : Orchestrator) : Orchestrator :=
  if requests.length = 0 then { σ with queue := σ.queue.delete mode }
  else { σ with queue := σ.queue.set mode requests }

def processQueue (mode : String) (queue : List MatchRequest) (cfg : MatchmakingConfig)
    (σ : Orchestrator) : Orchestrator × Option OrchestrationError :=
  let active := activeOf σ.clock cfg queue
  let σ := { σ with queue := σ.queue.set mode active }
  if active.length = 0 then ({ σ with queue := σ.queue.delete mode }, none)
  else
    match matchLoop limits mode cfg (active.length + 1) (sortBySkill active) σ with
    | (σ, .error e) => (σ, some e)
    | (σ, .ok sorted) =>
      let remaining := sorted.map fun s => s.playerId
      (σ.requeue mode (active.filter fun r => r.playerId ∈ remaining), none)

def configOf (mode : String) (σ : Orchestrator) : MatchmakingConfig :=
  (σ.configs.get? mode).getD .default

/-- The loop of `processQueues` over the modes.  While a mode is processed only its own entry
changes, so the entries that come after it are still those of the beginning. -/
def processModes : List (String × List MatchRequest) → Orchestrator →
    Orchestrator × Option OrchestrationError
  | [], σ => (σ, none)
  | (mode, modeQueue) :: modes, σ =>
    match processQueue limits mode modeQueue (σ.configOf mode) σ with
    | (σ, some e) => (σ, some e)
    | (σ, none) => processModes modes σ

def processQueues (σ : Orchestrator) : Orchestrator × Option OrchestrationError :=
  processModes limits σ.queue.entries σ

def endMatch (id : MatchId) (σ : Orchestrator) : Orchestrator :=
  match σ.matchMap.get? id with
  | none => σ
  | some m =>
    let startedAt := if m.startedAt ≠ 0 then m.startedAt else σ.clock
    let ended : MatchInfo :=
      { m with status := .ending, endedAt := some σ.clock, duration := some (σ.clock - startedAt) }
    { σ with
      matchMap := σ.matchMap.set id ended
      manager := σ.manager.removePlayers m.serverId m.players.length
      removals := σ.removals ++ [id] }.setTimeout (.matchCompleted id) 100

/-! ## The process -/

/-- What a timer does. -/
def call (callback : Callback) (σ : Orchestrator) : Orchestrator :=
  match callback with
  | .serverStarted id => { σ with manager := σ.manager.serverStarted id }
  | .serverStopped id => { σ with manager := σ.manager.serverStopped id }
  | .matchStarted id =>
    { σ with matchMap := σ.matchMap.modify id fun m =>
        if m.status = .starting then { m with status := .inProgress } else m }
  | .matchCompleted id =>
    { σ with matchMap := σ.matchMap.modify id fun m => { m with status := .completed } }

inductive Input
  | enqueue (playerId : PlayerId) (mode : String) (map : Option String)
      (skillRating : Option ℚ) (requestedAt : Timestamp)
  | dequeue (playerId : PlayerId) (mode : String)
  | setModeConfig (mode : String) (cfg : MatchmakingConfig)
  | tick
  | endMatch (id : MatchId)
  | createServer (cfg : GameServerConfig)
  | stopServer (id : ServerId)
  | removeServer (id : ServerId)
  | stopServers
  /-- Time goes by. -/
  | wait (ms : ℕ)
  /-- The `i`-th waiting timer fires, if it is due. -/
  | fire (i : ℕ)

/-- What the process does with an input.  An exception of a tick is caught by the interval timer,
one of `createServer` by the router. -/
def step (limits : ServerLimits) (σ : Orchestrator) : Input → Orchestrator
  | .enqueue playerId mode map skillRating requestedAt =>
    σ.enqueue playerId mode map skillRating requestedAt
  | .dequeue playerId mode => σ.dequeue playerId mode
  | .setModeConfig mode cfg => { σ with configs := σ.configs.set mode cfg }
  | .tick => (σ.processQueues limits).1
  | .endMatch id => σ.endMatch id
  | .createServer cfg =>
    match σ.createServer limits cfg with
    | .error _ => σ
    | .ok (_, σ) => σ
  | .stopServer id => σ.stopServer id
  | .removeServer id => σ.removeServer id
  | .stopServers => { σ with manager := σ.manager.stop }
  | .wait ms => { σ with clock := σ.clock + ms }
  | .fire i =>
    match σ.timers[i]? with
    | none => σ
    | some timer =>
      if timer.due ≤ σ.clock then { σ with timers := σ.timers.eraseIdx i }.call timer.callback
      else σ

/-- The process after a list of inputs. -/
abbrev run (limits : ServerLimits) (inputs : List Input) : Orchestrator :=
  Machine.run (step limits) .new inputs

end Orchestrator

end SyncEngine
