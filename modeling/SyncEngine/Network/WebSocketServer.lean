import SyncEngine.Machine.Runs
import SyncEngine.Network.Framing

/-!
# The WebSocket server

`src/network/websocket-server.ts`: the table of clients, the frames they send, and the promises
of the installed `onAuth` handler, which settle in any order.  An input is what the server reacts
to (`Input`), a step is one callback, and the log holds what the server did, the latest first:
frames and closings sent, and calls of the installed handlers.

Session ids are counted, since `generateSessionId` draws a new one for every connection.  What
`decodeJSON` and `encodeJSON` do is a parameter (`Config`), and outgoing packets are logged before
they are framed.  The statistics are left out, but for `totalConnections`, which counts the ids
drawn.

`authenticated` is written and never read, so whether a message reaches the `onMessage` handler
depends on the frame alone.  `handler_gated_iff` says for which runs the handler is nevertheless
called behind a successful authentication only.
-/

namespace SyncEngine

open Js

namespace WebSocketServer

abbrev SessionId := ℕ

structure ClientConnection where
  lastActivity : Timestamp
  authenticated : Bool
  /-- `ws.readyState === WebSocket.OPEN` -/
  isOpen : Bool
  deriving DecidableEq

/-- The configuration, the installed handlers, and the JSON codec of the protocol. -/
structure Config where
  maxConnections : ℕ
  heartbeatInterval : ℕ
  onMessageHandler : Bool
  onAuthHandler : Bool
  sessionName : SessionId → String
  decodeJSON : Buffer → Except JsError Doc
  encodeJSON : Doc → Buffer

inductive Event
  | connected (client : SessionId)
  | disconnected (client : SessionId) (reason : String)
  | sent (client : SessionId) (type : PacketType) (payload : Buffer)
  | closed (client : SessionId) (code : ℕ) (reason : String)
  | refused (code : ℕ) (reason : String)
  | pinged (client : SessionId)
  /-- `onMessageHandler(clientId, data)` -/
  | message (client : SessionId) (data : Buffer)
  /-- `onAuthHandler(clientId, token)` -/
  | auth (client : SessionId) (token : Doc)
  /-- the promise of `onAuthHandler(clientId, …)` resolved -/
  | resolved (client : SessionId) (authenticated : Bool)

structure Server where
  clients : Js.Map SessionId ClientConnection
  totalConnections : ℕ
  /-- the clients of the `onAuth` promises that have not settled -/
  pending : List SessionId
  log : List Event

/-- A new server. -/
def Server.new : Server := ⟨.empty, 0, [], []⟩

inductive Input
  | connection (now : Timestamp)
  | message (now : Timestamp) (client : SessionId) (data : Buffer)
  /-- The `i`-th pending promise resolves, or is rejected (`none`). -/
  | settled (i : ℕ) (result : Option Bool)
  | pong (now : Timestamp) (client : SessionId)
  | close (client : SessionId) (reason : String)
  | heartbeat (now : Timestamp)
  | stop

namespace Server

/-- Write to the connection object of a client. -/
def update (σ : Server) (client : SessionId) (f : ClientConnection → ClientConnection) : Server :=
  { σ with clients := σ.clients.modify client f }

def emit (σ : Server) (e : Event) : Server := { σ with log := e :: σ.log }

def sendToClient (σ : Server) (client : SessionId) (type : PacketType) (payload : Buffer) :
    Server :=
  match σ.clients.get? client with
  | some c => if c.isOpen then σ.emit (.sent client type payload) else σ
  | none => σ

/-- `client.ws.close(code, reason)` -/
def closeSocket (σ : Server) (client : SessionId) (code : ℕ) (reason : String) : Server :=
  (σ.update client fun c => { c with isOpen := false }).emit (.closed client code reason)

end Server

variable (cfg : Config)

def handleConnection (now : Timestamp) (σ : Server) : Server :=
  if σ.clients.size ≥ cfg.maxConnections then σ.emit (.refused 1013 "Server at capacity")
  else
    let sessionId := σ.totalConnections
    let σ := { σ with
      clients := σ.clients.set sessionId ⟨now, false, true⟩
      totalConnections := σ.totalConnections + 1 }
    let handshakePayload := cfg.encodeJSON (.obj
      (((Obj.empty.put "sessionId" (.prim (.str (cfg.sessionName sessionId)))).put "serverTime"
        (.prim (.num now))).put "heartbeatInterval" (.prim (.num cfg.heartbeatInterval))))
    (σ.emit (.sent sessionId PacketType.handshake handshakePayload)).emit (.connected sessionId)

/-- `data.authToken`, when it is truthy. -/
def authToken (data : Doc) : Except JsError (Option Doc) :=
  match data.view with
  | .prim .null | .prim .undefined | .prim .absent => .error .typeError
  | .prim _ => .ok none
  | .obj o =>
    match (o.get "authToken").view with
    | .prim .null | .prim .undefined | .prim .absent => .ok none
    | .prim (.bool b) => .ok (if b then some (o.get "authToken") else none)
    | .prim (.num q) => .ok (if q ≠ 0 then some (o.get "authToken") else none)
    | .prim (.str s) => .ok (if s ≠ "" then some (o.get "authToken") else none)
    | .obj _ => .ok (some (o.get "authToken"))

/-- `handleHandshakeAck`; what is thrown in it is logged and dropped. -/
def handleHandshakeAck (client : SessionId) (payload : Buffer) (σ : Server) : Server :=
  match cfg.decodeJSON payload >>= authToken with
  | .error _ => σ
  | .ok token =>
    match σ.clients.get? client with
    | none => σ
    | some _ =>
      match token, cfg.onAuthHandler with
      | some token, true =>
        { σ.emit (.auth client token) with pending := σ.pending ++ [client] }
      | _, _ => σ.update client fun c => { c with authenticated := true }

/-- The callback of an `onAuth` promise. -/
def handleAuthResult (client : SessionId) (authenticated : Bool) (σ : Server) : Server :=
  let σ := (σ.emit (.resolved client authenticated)).update client fun c =>
    { c with authenticated := authenticated }
  if authenticated then σ
  else
    let errPayload := cfg.encodeJSON (.obj
      (Obj.empty.put "error" (.prim (.str "Authentication failed"))))
    (σ.sendToClient client PacketType.error errPayload).closeSocket client 4001
      "Authentication failed"

/-- The call of the `onMessage` handler, when one is installed. -/
def deliver (client : SessionId) (σ : Server) (data : Buffer) : Server :=
  if cfg.onMessageHandler then σ.emit (.message client data) else σ

def handleBatch (now : Timestamp) (client : SessionId) (payload : Buffer) (σ : Server) : Server :=
  match BinaryProtocol.decodeBatch (fun _ => now) payload with
  | .error _ => σ
  | .ok packets => packets.foldl
      (fun σ packet => if packet.type = PacketType.data then deliver cfg client σ packet.payload
        else σ) σ

def handleMessage (now : Timestamp) (client : SessionId) (data : Buffer) (σ : Server) : Server :=
  match σ.clients.get? client with
  | none => σ
  | some _ =>
    let σ := σ.update client fun c => { c with lastActivity := now }
    match BinaryProtocol.decode now data with
    | .error _ | .ok none => σ
    | .ok (some packet) =>
      if packet.type = PacketType.handshakeAck then handleHandshakeAck cfg client packet.payload σ
      else if packet.type = PacketType.heartbeat then
        σ.sendToClient client PacketType.heartbeatAck []
      else if packet.type = PacketType.data then deliver cfg client σ packet.payload
      else if packet.type = PacketType.disconnect then
        σ.closeSocket client 1000 "Client disconnect"
      else if packet.type = PacketType.batch then handleBatch cfg now client packet.payload σ
      else σ

def handleDisconnect (client : SessionId) (reason : String) (σ : Server) : Server :=
  { σ with clients := σ.clients.delete client }.emit (.disconnected client reason)

def checkHeartbeats (now : Timestamp) (σ : Server) : Server :=
  σ.clients.entries.foldl (fun σ entry =>
    if now - entry.2.lastActivity > cfg.heartbeatInterval * 2 then
      handleDisconnect entry.1 "heartbeat timeout" σ
    else if entry.2.isOpen then σ.emit (.pinged entry.1)
    else σ) σ

/-- One callback of the server. -/
def step (σ : Server) : Input → Server
  | .connection now => handleConnection cfg now σ
  | .message now client data => handleMessage cfg now client data σ
  | .settled i result =>
    match σ.pending[i]? with
    | none => σ
    | some client =>
      let σ := { σ with pending := σ.pending.eraseIdx i }
      match result with
      | none => σ
      | some authenticated => handleAuthResult cfg client authenticated σ
  | .pong now client => σ.update client fun c => { c with lastActivity := now }
  | .close client reason => handleDisconnect client reason σ
  | .heartbeat now => checkHeartbeats cfg now σ
  | .stop =>
    { σ.clients.keys.foldl (fun σ client => σ.closeSocket client 1001 "Server shutting down") σ with
      clients := .empty }

/-- The server after a list of inputs. -/
abbrev run (inputs : List Input) : Server := Machine.run (step cfg) .new inputs

/-! ## What callbacks have in common -/

/-- A relation that holds across everything but a change to the table of clients and a call of
`onMessage` or `onDisconnect`. -/
structure Routine (R : Server → Server → Prop) : Prop where
  refl : ∀ σ, R σ σ
  trans : ∀ {σ τ υ}, R σ τ → R τ υ → R σ υ
  emit : ∀ {σ : Server} {e : Event}, (∀ id data, e ≠ .message id data) →
    (∀ id reason, e ≠ .disconnected id reason) → R σ (σ.emit e)
  update : ∀ (σ : Server) (id : SessionId) (f : ClientConnection → ClientConnection),
    R σ (σ.update id f)
  pending : ∀ (σ : Server) (pending : List SessionId), R σ { σ with pending := pending }

namespace Routine

variable {R : Server → Server → Prop} {cfg : Config} {σ : Server}

lemma sendToClient (h : Routine R) (id : SessionId) (type : PacketType) (payload : Buffer) :
    R σ (σ.sendToClient id type payload) := by
  unfold Server.sendToClient
  split
  · split
    · exact h.emit (by simp) (by simp)
    · exact h.refl σ
  · exact h.refl σ

lemma closeSocket (h : Routine R) (id : SessionId) (code : ℕ) (reason : String) :
    R σ (σ.closeSocket id code reason) :=
  h.trans (h.update σ id _) (h.emit (by simp) (by simp))

lemma handleHandshakeAck (h : Routine R) (id : SessionId) (payload : Buffer) :
    R σ (handleHandshakeAck cfg id payload σ) := by
  unfold WebSocketServer.handleHandshakeAck
  split
  · exact h.refl σ
  · split
    · exact h.refl σ
    · split
      · exact h.trans (h.emit (by simp) (by simp)) (h.pending _ _)
      · exact h.update σ id _

lemma handleAuthResult (h : Routine R) (id : SessionId) (authenticated : Bool) :
    R σ (handleAuthResult cfg id authenticated σ) := by
  have hwrite : R σ ((σ.emit (.resolved id authenticated)).update id fun c =>
      { c with authenticated := authenticated }) :=
    h.trans (h.emit (by simp) (by simp)) (h.update _ id _)
  unfold WebSocketServer.handleAuthResult
  cases authenticated with
  | true => exact hwrite
  | false => exact h.trans hwrite (h.trans (h.sendToClient _ _ _) (h.closeSocket _ _ _))

end Routine

end WebSocketServer

end SyncEngine
