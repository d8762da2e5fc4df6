import SyncEngine.Network.Disconnects

/-!
# Frames on the wire

The WebSocket server down to the bytes that its sockets are handed, with the statistics that it
keeps.  `Server` logs the packets that its callbacks send; here each of them is encoded, in the
order of the log, by the one encoder of the server, and so is what other code sends (`sendToClient`,
`broadcast`, `broadcastJSON`).  A handler that sends does so within a callback; no callback looks at
what was sent, so its packets are inputs of their own behind the callback.

A broadcast is encoded once for all its clients.  What an encoder that throws would have sent is not
sent, but it has spent a number.
-/

namespace SyncEngine

open Js

namespace WebSocketServer

structure WSServerStats where
  totalConnections : ℕ
  activeConnections : ℕ
  messagesReceived : ℕ
  messagesSent : ℕ
  bytesReceived : ℕ
  bytesSent : ℕ
  errors : ℕ

/-- A frame that a socket was handed.  What the frame was made from, and the how-manieth packet of
the encoder it is, is kept for the specification. -/
structure Handed where
  client : SessionId
  packet : Buffer
  number : ℕ
  type : PacketType
  payload : Buffer
  /-- The statistics count it. -/
  counted : Bool

/-- The packet that a frame was made from, and its client. -/
def Handed.source (f : Handed) : SessionId × PacketType × Buffer := (f.client, f.type, f.payload)

structure Wired where
  server : Server
  protocol : BinaryProtocol
  stats : WSServerStats
  /-- the calls of `ws.send(packet)` so far -/
  wire : List Handed
  /-- the number of calls of `encode` so far -/
  encoded : ℕ

inductive Action
  | callback (i : Input)
  | sendToClient (client : SessionId) (type : PacketType) (payload : Buffer)
  | broadcast (type : PacketType) (payload : Buffer) (exclude : Option (List SessionId))
  /-- an `error` event of the server or of a socket -/
  | error

namespace Wired

/-- A new server. -/
def new : Wired := ⟨.new, .new, ⟨0, 0, 0, 0, 0, 0, 0⟩, [], 0⟩

/-- `client.ws.send(packet)`, and the statistics where they count it. -/
def hand (σ : Wired) (frame : Handed) : Wired :=
  { σ with
    wire := σ.wire ++ [frame]
    stats :=
      if frame.counted then
        { σ.stats with
          messagesSent := σ.stats.messagesSent + 1
          bytesSent := σ.stats.bytesSent + frame.packet.length }
      else σ.stats }

/-- Encode a packet and send it to some clients. -/
def transmit (σ : Wired) (clients : List SessionId) (type : PacketType) (payload : Buffer)
    (counted : Bool) : Wired :=
  match σ.protocol.encode type payload with
  | (.error _, q) => { σ with protocol := q, encoded := σ.encoded + 1 }
  | (.ok packet, q) =>
    clients.foldl (fun τ client => τ.hand ⟨client, packet, σ.encoded + 1, type, payload, counted⟩)
      { σ with protocol := q, encoded := σ.encoded + 1 }

def sendToClient (σ : Wired) (client : SessionId) (type : PacketType) (payload : Buffer) : Wired :=
  match σ.server.clients.get? client with
  | some c => if c.isOpen then σ.transmit [client] type payload true else σ
  | none => σ

/-- The clients that the loop of `broadcast` sends to. -/
def recipients (σ : Wired) (exclude : Option (List SessionId)) : List SessionId :=
  (σ.server.clients.entries.filter fun e =>
    !(exclude.getD []).contains e.1 && e.2.isOpen).map Prod.fst

def broadcast (σ : Wired) (type : PacketType) (payload : Buffer)
    (exclude : Option (List SessionId)) : Wired :=
  σ.transmit (σ.recipients exclude) type payload true

def broadcastJSON (cfg : Config) (σ : Wired) (data : Doc) (exclude : Option (List SessionId)) :
    Wired :=
  σ.broadcast PacketType.data (cfg.encodeJSON data) exclude

/-- What an event of a callback does to the statistics and the wire.  The handshake is the one
packet that `handleConnection` sends past `sendToClient`. -/
def react (σ : Wired) : Event → Wired
  | .connected _ =>
    { σ with
      stats := { σ.stats with
        totalConnections := σ.stats.totalConnections + 1
        activeConnections := σ.server.clients.size } }
  | .disconnected _ _ =>
    { σ with stats := { σ.stats with activeConnections := σ.server.clients.size } }
  | .sent client type payload => σ.transmit [client] type payload (type ≠ PacketType.handshake)
  | _ => σ

/-- The events of a callback, the earliest first. -/
def newEvents (before after : Server) : List Event :=
  (after.log.take (after.log.length - before.log.length)).reverse

/-- A frame that comes in is counted if its client is in the table. -/
def receive (σ : Wired) : Input → Wired
  | .message _ client data =>
    if σ.server.clients.has client then
      { σ with
        stats := { σ.stats with
          messagesReceived := σ.stats.messagesReceived + 1
          bytesReceived := σ.stats.bytesReceived + data.length } }
    else σ
  | _ => σ

variable (cfg : Config)

def step (σ : Wired) : Action → Wired
  | .callback i =>
    let server := WebSocketServer.step cfg σ.server i
    (newEvents σ.server server).foldl react { σ.receive i with server := server }
  | .sendToClient client type payload => σ.sendToClient client type payload
  | .broadcast type payload exclude => σ.broadcast type payload exclude
  | .error => { σ with stats := { σ.stats with errors := σ.stats.errors + 1 } }

/-! ## Frames -/

variable {σ : Wired}

/-- The frames carry what they were made from, and no client is handed a packet twice. -/
structure Framed (σ : Wired) : Prop where
  protocol : σ.protocol.sequenceId = σ.encoded % 65536
  decodes : ∀ f ∈ σ.wire, ∀ now, BinaryProtocol.decode now f.packet =
    .ok (some ⟨f.type, f.number % 65536, now, f.payload⟩)
  numbered : ∀ f ∈ σ.wire, f.number ≤ σ.encoded
  ordered : σ.wire.Pairwise fun f g => f.client = g.client → f.number < g.number
  sent : σ.stats.messagesSent = σ.wire.countP Handed.counted
  bytes : σ.stats.bytesSent =
    ((σ.wire.filter Handed.counted).map fun f => f.packet.length).sum

/-- Sending to one client after another. -/
lemma foldl_hand (frames : List Handed) :
    frames.foldl hand σ = { σ with
      wire := σ.wire ++ frames
      stats := { σ.stats with
        messagesSent := σ.stats.messagesSent + frames.countP Handed.counted
        bytesSent := σ.stats.bytesSent +
          ((frames.filter Handed.counted).map fun f => f.packet.length).sum } } := by
  induction frames generalizing σ with
  | nil => simp
  | cons f frames ih =>
    rw [List.foldl_cons, ih]
    cases hcounted : f.counted <;> simp [hand, hcounted, Nat.add_assoc, Nat.add_comm]

/-- The frames of the next packet, for some clients. -/
def nextFrames (σ : Wired) (clients : List SessionId) (type : PacketType) (payload : Buffer)
    (counted : Bool) : List Handed :=
  clients.map fun client => ⟨client,
    BinaryProtocol.frame type σ.protocol.nextSequence.sequenceId payload, σ.encoded + 1, type,
    payload, counted⟩

lemma transmit_eq (clients : List SessionId) (type : PacketType) {payload : Buffer}
    (h : payload.length < 2 ^ 32) (counted : Bool) :
    σ.transmit clients type payload counted =
      (σ.nextFrames clients type payload counted).foldl hand
        { σ with protocol := σ.protocol.nextSequence, encoded := σ.encoded + 1 } := by
  unfold transmit nextFrames
  rw [BinaryProtocol.encode_eq _ _ h, List.foldl_map]

lemma transmit_of_le (clients : List SessionId) (type : PacketType) {payload : Buffer}
    (h : 2 ^ 32 ≤ payload.length) (counted : Bool) :
    σ.transmit clients type payload counted =
      { σ with protocol := σ.protocol.nextSequence, encoded := σ.encoded + 1 } := by
  unfold transmit
  rw [BinaryProtocol.encode_of_le _ _ h]

/-- **One packet for some clients keeps the frames in order.** -/
lemma Framed.transmit (h : σ.Framed) {clients : List SessionId} (hclients : clients.Nodup)
    (type : PacketType) (payload : Buffer) (counted : Bool) :
    (σ.transmit clients type payload counted).Framed := by
  have hprotocol : σ.protocol.nextSequence.sequenceId = (σ.encoded + 1) % 65536 := by
    rw [BinaryProtocol.nextSequence_sequenceId, h.protocol]
    omega
  by_cases hlength : payload.length < 2 ^ 32
  · rw [transmit_eq clients type hlength, foldl_hand]
    have hmem : ∀ f ∈ σ.nextFrames clients type payload counted, f.number = σ.encoded + 1 ∧
        f.packet =
          BinaryProtocol.frame f.type (f.number % 65536) f.payload ∧ f.payload = payload := by
      intro f hf
      obtain ⟨client, -, rfl⟩ := List.mem_map.1 hf
      exact ⟨rfl, by rw [hprotocol], rfl⟩
    constructor
    · exact hprotocol
    · intro f hf now
      obtain hf | hf := List.mem_append.1 hf
      · exact h.decodes f hf now
      · obtain ⟨-, hpacket, hpayload⟩ := hmem f hf
        have hdecode := BinaryProtocol.decode_frame now f.type []
          (Nat.mod_lt f.number (by decide)) (hpayload ▸ hlength)
        rwa [List.append_nil, ← hpacket] at hdecode
    · intro f hf
      obtain hf | hf := List.mem_append.1 hf
      · exact (h.numbered f hf).trans (Nat.le_succ _)
      · exact (hmem f hf).1.le
    · refine List.pairwise_append.2 ⟨h.ordered, ?_, fun f hf g hg _ => ?_⟩
      · -- the clients of one packet are different ones
        rw [nextFrames, List.pairwise_map]
        exact hclients.imp fun hne heq => absurd heq hne
      · rw [(hmem g hg).1]
        exact Nat.lt_succ_of_le (h.numbered f hf)
    · rw [List.countP_append, ← h.sent]
    · rw [List.filter_append, List.map_append, List.sum_append, ← h.bytes]
  · rw [transmit_of_le clients type (by omega)]
    exact ⟨hprotocol, h.decodes, fun f hf => (h.numbered f hf).trans (Nat.le_succ _), h.ordered,
      h.sent, h.bytes⟩

lemma Framed.react (h : σ.Framed) (e : Event) : (σ.react e).Framed := by
  cases e with
  | connected client =>
    exact ⟨h.protocol, h.decodes, h.numbered, h.ordered, h.sent, h.bytes⟩
  | disconnected client reason =>
    exact ⟨h.protocol, h.decodes, h.numbered, h.ordered, h.sent, h.bytes⟩
  | sent client type payload => exact h.transmit (List.nodup_singleton client) type payload _
  | _ => exact h

lemma Framed.receive (h : σ.Framed) (i : Input) : (σ.receive i).Framed := by
  unfold Wired.receive
  split
  · split
    · exact ⟨h.protocol, h.decodes, h.numbered, h.ordered, h.sent, h.bytes⟩
    · exact h
  · exact h

lemma nodup_recipients (exclude : Option (List SessionId)) : (σ.recipients exclude).Nodup :=
  σ.server.clients.nodup_keys.sublist (List.filter_sublist.map Prod.fst)

lemma mem_recipients {exclude : Option (List SessionId)} (client : SessionId) :
    client ∈ σ.recipients exclude ↔ client ∉ exclude.getD [] ∧
      ∃ connection, σ.server.clients.get? client = some connection ∧
        connection.isOpen = true := by
  simp only [recipients, List.mem_map, List.mem_filter, Bool.and_eq_true, Bool.not_eq_true',
    List.contains_eq_mem, decide_eq_false_iff_not]
  constructor
  · rintro ⟨⟨client, connection⟩, ⟨hmem, hexcluded, hopen⟩, rfl⟩
    exact ⟨hexcluded, connection, (Js.Map.mem_entries_iff _ _ _).1 hmem, hopen⟩
  · rintro ⟨hexcluded, connection, hget, hopen⟩
    exact ⟨(client, connection), ⟨(Js.Map.mem_entries_iff _ _ _).2 hget, hexcluded, hopen⟩, rfl⟩

lemma Framed.step (h : σ.Framed) (a : Action) : (σ.step cfg a).Framed := by
  cases a with
  | callback i =>
    refine List.foldlRecOn (motive := Framed) _ Wired.react ?_ fun τ hτ e _ => hτ.react e
    have hreceived := h.receive i
    exact ⟨hreceived.protocol, hreceived.decodes, hreceived.numbered, hreceived.ordered,
      hreceived.sent, hreceived.bytes⟩
  | sendToClient client type payload =>
    simp only [Wired.step, Wired.sendToClient]
    split
    · split
      · exact h.transmit (List.nodup_singleton client) type payload true
      · exact h
    · exact h
  | broadcast type payload exclude =>
    exact h.transmit (nodup_recipients exclude) type payload true
  | error => exact ⟨h.protocol, h.decodes, h.numbered, h.ordered, h.sent, h.bytes⟩

lemma framed_new : new.Framed where
  protocol := rfl
  decodes := by simp [new]
  numbered := by simp [new]
  ordered := .nil
  sent := rfl
  bytes := rfl

end Wired

/-! ## What a callback logs -/

/-- What `encodeJSON` writes can be encoded: it comes from a string, and strings are shorter. -/
def Config.Fits (cfg : Config) : Prop := ∀ data, (cfg.encodeJSON data).length < 2 ^ 32

namespace Event

def isConnected : Event → Bool
  | .connected _ => true
  | _ => false

def isDisconnected : Event → Bool
  | .disconnected _ _ => true
  | _ => false

/-- A packet that `handleConnection` sends past `sendToClient`. -/
def isHandshake : Event → Bool
  | .sent _ type _ => type = PacketType.handshake
  | _ => false

/-- What is sent can be encoded. -/
def Fits : Event → Prop
  | .sent _ _ payload => payload.length < 2 ^ 32
  | _ => True

/-- The packet that an event sends. -/
def packet? : Event → Option (SessionId × PacketType × Buffer)
  | .sent client type payload => some (client, type, payload)
  | _ => none

/-- An event that is neither the arrival of a client nor its departure. -/
structure Plain (cfg : Config) (e : Event) : Prop where
  connected : e.isConnected = false
  disconnected : e.isDisconnected = false
  handshake : e.isHandshake = false
  fits : cfg.Fits → e.Fits

end Event

/-- The log grows by events that tell of every client that comes or goes. -/
def Tracked (cfg : Config) (σ τ : Server) : Prop :=
  ∃ new, τ.log = new ++ σ.log ∧ (cfg.Fits → ∀ e ∈ new, e.Fits) ∧
    σ.totalConnections + new.countP Event.isConnected = τ.totalConnections ∧
    σ.totalConnections + new.countP Event.isHandshake = τ.totalConnections ∧
    ((∀ e ∈ new, e.isConnected = false ∧ e.isDisconnected = false) →
      τ.clients.size = σ.clients.size)

namespace Tracked

variable {σ τ υ : Server} {cfg : Config}

lemma refl (σ : Server) : Tracked cfg σ σ := ⟨[], by simp⟩

lemma trans (h : Tracked cfg σ τ) (h' : Tracked cfg τ υ) : Tracked cfg σ υ := by
  obtain ⟨new, hlog, hfits, htotal, hshaken, hsize⟩ := h
  obtain ⟨new', hlog', hfits', htotal', hshaken', hsize'⟩ := h'
  refine ⟨new' ++ new, ?_, ?_, ?_, ?_, fun hnone => ?_⟩
  · rw [hlog', hlog, List.append_assoc]
  · intro hcfg e he
    exact (List.mem_append.1 he).elim (hfits' hcfg e) (hfits hcfg e)
  · rw [List.countP_append]
    omega
  · rw [List.countP_append]
    omega
  · exact (hsize' fun e he => hnone e (List.mem_append_left _ he)).trans
      (hsize fun e he => hnone e (List.mem_append_right _ he))

/-- The log, the ids drawn and the number of clients are as they were. -/
lemma of_same (hlog : τ.log = σ.log) (htotal : τ.totalConnections = σ.totalConnections)
    (hsize : τ.clients.size = σ.clients.size) : Tracked cfg σ τ :=
  ⟨[], hlog, by simp, by simp [htotal], by simp [htotal], fun _ => hsize⟩

lemma emit {e : Event} (he : e.Plain cfg) : Tracked cfg σ (σ.emit e) :=
  ⟨[e], rfl, fun hcfg => by simpa using he.fits hcfg, by simp [he.connected, Server.emit],
    by simp [he.handshake, Server.emit], fun _ => rfl⟩

lemma update (client : SessionId) (f : ClientConnection → ClientConnection) :
    Tracked cfg σ (σ.update client f) := by
  refine of_same rfl rfl ?_
  rw [Js.Map.size_eq_length_keys, Js.Map.size_eq_length_keys]
  exact congrArg List.length (Js.Map.keys_modify _ _ _)

lemma sendToClient (client : SessionId) {type : PacketType} {payload : Buffer}
    (htype : type ≠ PacketType.handshake)
    (hpayload : cfg.Fits → payload.length < 2 ^ 32) :
    Tracked cfg σ (σ.sendToClient client type payload) := by
  unfold Server.sendToClient
  split
  · split
    · exact emit ⟨rfl, rfl, decide_eq_false htype, hpayload⟩
    · exact refl σ
  · exact refl σ

lemma closeSocket (client : SessionId) (code : ℕ) (reason : String) :
    Tracked cfg σ (σ.closeSocket client code reason) :=
  (update client _).trans
    (emit (e := .closed client code reason) ⟨rfl, rfl, rfl, fun _ => trivial⟩)

lemma deliver (client : SessionId) (data : Buffer) : Tracked cfg σ (deliver cfg client σ data) := by
  unfold WebSocketServer.deliver
  split
  · exact emit (e := .message client data) ⟨rfl, rfl, rfl, fun _ => trivial⟩
  · exact refl σ

lemma handleHandshakeAck (client : SessionId) (payload : Buffer) :
    Tracked cfg σ (handleHandshakeAck cfg client payload σ) := by
  unfold WebSocketServer.handleHandshakeAck
  split
  · exact refl σ
  · split
    · exact refl σ
    · split
      next token _ _ =>
        exact (emit (e := .auth client token) ⟨rfl, rfl, rfl, fun _ => trivial⟩).trans
          (of_same rfl rfl rfl)
      · exact update client _

lemma handleAuthResult (client : SessionId) (authenticated : Bool) :
    Tracked cfg σ (handleAuthResult cfg client authenticated σ) := by
  have hwrite : Tracked cfg σ ((σ.emit (.resolved client authenticated)).update client fun c =>
      { c with authenticated := authenticated }) :=
    (emit (e := .resolved client authenticated) ⟨rfl, rfl, rfl, fun _ => trivial⟩).trans
      (update client _)
  unfold WebSocketServer.handleAuthResult
  cases authenticated with
  | true => exact hwrite
  | false =>
    exact hwrite.trans
      ((sendToClient client (by decide) fun hcfg => hcfg _).trans (closeSocket _ _ _))

lemma handleBatch (now : Timestamp) (client : SessionId) (payload : Buffer) :
    Tracked cfg σ (handleBatch cfg now client payload σ) := by
  unfold WebSocketServer.handleBatch
  split
  · exact refl σ
  next packets _ =>
    refine List.foldlRecOn (motive := Tracked cfg σ) packets _ (refl σ) fun τ h packet _ => ?_
    split
    · exact h.trans (deliver client _)
    · exact h

lemma handleMessage (now : Timestamp) (client : SessionId) (data : Buffer) :
    Tracked cfg σ (handleMessage cfg now client data σ) := by
  unfold WebSocketServer.handleMessage
  split
  · exact refl σ
  · have hheard : Tracked cfg σ (σ.update client fun c => { c with lastActivity := now }) :=
      update client _
    refine hheard.trans ?_
    dsimp only
    split
    · exact refl _
    · exact refl _
    · split_ifs
      · exact handleHandshakeAck client _
      · exact sendToClient client (by decide) fun _ => by decide
      · exact deliver client _
      · exact closeSocket _ _ _
      · exact handleBatch now client _
      · exact refl _

lemma handleDisconnect (client : SessionId) (reason : String) :
    Tracked cfg σ (handleDisconnect client reason σ) :=
  ⟨[.disconnected client reason], rfl, fun _ => by simp [Event.Fits], rfl, rfl, fun hnone =>
    absurd (hnone _ (List.mem_singleton_self _)).2 (by simp [Event.isDisconnected])⟩

lemma handleConnection (now : Timestamp) :
    Tracked cfg σ (handleConnection cfg now σ) := by
  unfold WebSocketServer.handleConnection
  split
  · exact emit ⟨rfl, rfl, rfl, fun _ => trivial⟩
  · refine ⟨[.connected _, .sent _ _ _], rfl, ?_, rfl, rfl, fun hnone => ?_⟩
    · simp only [List.mem_cons, List.not_mem_nil, or_false, forall_eq_or_imp, forall_eq]
      exact fun hcfg => ⟨trivial, hcfg _⟩
    · exact absurd (hnone _ List.mem_cons_self).1 (by simp [Event.isConnected])

lemma checkHeartbeats (now : Timestamp) : Tracked cfg σ (checkHeartbeats cfg now σ) := by
  refine List.foldlRecOn (motive := Tracked cfg σ) σ.clients.entries _ (refl σ)
    fun τ h entry _ => ?_
  split
  · exact h.trans (handleDisconnect _ _)
  · split
    · exact h.trans (emit ⟨rfl, rfl, rfl, fun _ => trivial⟩)
    · exact h

/-- The sockets that `stop` closes, before it clears the table. -/
lemma closeSockets (clients : List SessionId) :
    Tracked cfg σ (clients.foldl (fun σ client => σ.closeSocket client 1001 "Server shutting down")
      σ) :=
  List.foldlRecOn (motive := Tracked cfg σ) clients _ (refl σ) fun _ h _ _ =>
    h.trans (closeSocket _ _ _)

end Tracked

lemma tracked_step (cfg : Config) (σ : Server) {i : Input} (hi : i ≠ .stop) :
    Tracked cfg σ (step cfg σ i) := by
  cases i with
  | connection now => exact .handleConnection now
  | message now client data => exact .handleMessage now client data
  | settled n result =>
    cases hclient : σ.pending[n]? with
    | none =>
      simp only [step, hclient]
      exact .refl σ
    | some client =>
      simp only [step, hclient]
      have hsettled : Tracked cfg σ { σ with pending := σ.pending.eraseIdx n } :=
        .of_same rfl rfl rfl
      cases result with
      | none => exact hsettled
      | some authenticated => exact hsettled.trans (.handleAuthResult _ _)
  | pong now client => exact .update client _
  | close client reason => exact .handleDisconnect client reason
  | heartbeat now => exact .checkHeartbeats now
  | stop => exact absurd rfl hi

/-- Every callback adds to the log what can be encoded. -/
lemma exists_log_step (cfg : Config) (σ : Server) (i : Input) :
    ∃ new, (step cfg σ i).log = new ++ σ.log ∧ (cfg.Fits → ∀ e ∈ new, e.Fits) := by
  by_cases hi : i = .stop
  · obtain ⟨new, hlog, hfits, -⟩ := @Tracked.closeSockets σ cfg σ.clients.keys
    rw [hi]
    exact ⟨new, hlog, hfits⟩
  · obtain ⟨new, hlog, hfits, -⟩ := tracked_step cfg σ hi
    exact ⟨new, hlog, hfits⟩

namespace Wired

variable {cfg : Config} {σ : Wired}

lemma newEvents_eq {before after : Server} {new : List Event} (h : after.log = new ++ before.log) :
    newEvents before after = new.reverse := by
  simp [newEvents, h]

/-! ## What reaches the wire -/

@[simp] lemma server_transmit (clients : List SessionId) (type : PacketType) (payload : Buffer)
    (counted : Bool) : (σ.transmit clients type payload counted).server = σ.server := by
  by_cases h : payload.length < 2 ^ 32
  · rw [transmit_eq clients type h, foldl_hand]
  · rw [transmit_of_le clients type (by omega)]

@[simp] lemma server_react (e : Event) : (σ.react e).server = σ.server := by
  cases e with
  | sent client type payload => exact server_transmit _ _ _ _
  | _ => rfl

@[simp] lemma server_foldl_react (events : List Event) :
    (events.foldl react σ).server = σ.server := by
  induction events generalizing σ with
  | nil => rfl
  | cons e events ih => rw [List.foldl_cons, ih, server_react]

/-- What is sent reaches the wire behind what is there. -/
lemma wire_transmit (clients : List SessionId) (type : PacketType) {payload : Buffer}
    (h : payload.length < 2 ^ 32) (counted : Bool) :
    (σ.transmit clients type payload counted).wire.map Handed.source =
      σ.wire.map Handed.source ++ clients.map fun client => (client, type, payload) := by
  rw [transmit_eq clients type h, foldl_hand, List.map_append, nextFrames, List.map_map]
  rfl

lemma wire_react (e : Event) (h : e.Fits) :
    (σ.react e).wire.map Handed.source = σ.wire.map Handed.source ++ e.packet?.toList := by
  cases e with
  | sent client type payload => exact wire_transmit [client] type h _
  | _ => exact (List.append_nil _).symm

lemma wire_foldl_react {events : List Event} (h : ∀ e ∈ events, e.Fits) :
    (events.foldl react σ).wire.map Handed.source =
      σ.wire.map Handed.source ++ events.filterMap Event.packet? := by
  induction events generalizing σ with
  | nil => simp
  | cons e events ih =>
    obtain ⟨he, hevents⟩ := List.forall_mem_cons.1 h
    rw [List.foldl_cons, ih hevents, wire_react e he, List.append_assoc]
    cases hpacket : e.packet? <;> simp [hpacket]

@[simp] lemma wire_receive (i : Input) : (σ.receive i).wire = σ.wire := by
  unfold receive
  split
  · split <;> rfl
  · rfl

@[simp] lemma server_receive (i : Input) : (σ.receive i).server = σ.server := by
  unfold receive
  split
  · split <;> rfl
  · rfl

/-- What the callbacks sent has reached the wire, in this order. -/
def Sends (σ : Wired) : Prop :=
  (σ.server.log.reverse.filterMap Event.packet?).Sublist (σ.wire.map Handed.source)

/-- A packet that no callback sends. -/
lemma Sends.transmit (h : σ.Sends) (clients : List SessionId) (type : PacketType)
    (payload : Buffer) : (σ.transmit clients type payload true).Sends := by
  unfold Sends
  rw [server_transmit]
  by_cases hlength : payload.length < 2 ^ 32
  · rw [wire_transmit clients type hlength]
    exact h.trans (List.sublist_append_left _ _)
  · rw [transmit_of_le clients type (by omega)]
    exact h

lemma Sends.step (hcfg : cfg.Fits) (h : σ.Sends) (a : Action) : (σ.step cfg a).Sends := by
  cases a with
  | callback i =>
    obtain ⟨new, hlog, hfits⟩ := exists_log_step cfg σ.server i
    have hfits' : ∀ e ∈ new.reverse, e.Fits := fun e he => hfits hcfg e (List.mem_reverse.1 he)
    simp only [Sends, Wired.step, newEvents_eq hlog, server_foldl_react, wire_foldl_react hfits',
      wire_receive]
    rw [hlog, List.reverse_append, List.filterMap_append]
    exact h.append (List.Sublist.refl _)
  | sendToClient client type payload =>
    simp only [Wired.step, sendToClient]
    split
    · split
      · exact h.transmit _ _ _
      · exact h
    · exact h
  | broadcast type payload exclude => exact h.transmit _ _ _
  | error => exact h

/-- **What is sent arrives.**  In every run, every frame that a socket was handed is decoded to the
packet it was made from, under the number of that packet modulo `2 ^ 16`; the numbers go up along
the frames of a client, so that none is sent twice; and what the callbacks sent is on the wire, in
the order in which they sent it.  A broadcast hands one frame to every client in the table whose
socket is open, those excluded apart. -/
theorem frames_arrive (hcfg : cfg.Fits) (actions : List Action) :
    let σ := Machine.run (step cfg) new actions
    (∀ f ∈ σ.wire, ∀ now, BinaryProtocol.decode now f.packet =
      .ok (some ⟨f.type, f.number % 65536, now, f.payload⟩)) ∧
    (σ.wire.Pairwise fun f g => f.client = g.client → f.number < g.number) ∧
    (σ.server.log.reverse.filterMap Event.packet?).Sublist (σ.wire.map Handed.source) ∧
    ∀ type payload exclude, payload.length < 2 ^ 32 → ∃ clients : List SessionId, clients.Nodup ∧
      (∀ c, c ∈ clients ↔ c ∉ exclude.getD [] ∧
        ∃ connection, σ.server.clients.get? c = some connection ∧ connection.isOpen = true) ∧
      (σ.broadcast type payload exclude).wire.map Handed.source =
        σ.wire.map Handed.source ++ clients.map fun c => (c, type, payload) := by
  intro σ
  have hframed : σ.Framed := Machine.always (fun σ a (h : σ.Framed) => h.step cfg a) actions
    framed_new
  have hsends : σ.Sends := Machine.always (fun σ a (h : σ.Sends) => h.step hcfg a) actions
    (List.Sublist.refl [])
  exact ⟨hframed.decodes, hframed.ordered, hsends, fun type payload exclude h =>
    ⟨σ.recipients exclude, nodup_recipients exclude, mem_recipients,
      wire_transmit _ type h true⟩⟩

/-- A client connects, and is sent a packet twice while it is connected. -/
def greeted : List Action :=
  [.callback (.connection 0), .sendToClient 0 PacketType.data [1, 2],
    .broadcast PacketType.data [3] none, .callback (.close 0 "1000: "),
    .sendToClient 0 PacketType.data [4]]

lemma bothHandlers_fits : bothHandlers.Fits := fun _ => Nat.two_pow_pos 32

theorem frames_arrive_greeted :
    let σ := Machine.run (step bothHandlers) new greeted
    (∀ f ∈ σ.wire, ∀ now, BinaryProtocol.decode now f.packet =
      .ok (some ⟨f.type, f.number % 65536, now, f.payload⟩)) ∧
    (σ.wire.Pairwise fun f g => f.client = g.client → f.number < g.number) ∧
    (σ.server.log.reverse.filterMap Event.packet?).Sublist (σ.wire.map Handed.source) ∧
    ∀ type payload exclude, payload.length < 2 ^ 32 → ∃ clients : List SessionId, clients.Nodup ∧
      (∀ c, c ∈ clients ↔ c ∉ exclude.getD [] ∧
        ∃ connection, σ.server.clients.get? c = some connection ∧ connection.isOpen = true) ∧
      (σ.broadcast type payload exclude).wire.map Handed.source =
        σ.wire.map Handed.source ++ clients.map fun c => (c, type, payload) :=
  frames_arrive bothHandlers_fits greeted

/-! ## The statistics -/

/-- The statistics tell of the wire and of the table of clients. -/
structure Told (σ : Wired) : Prop where
  framed : σ.Framed
  total : σ.stats.totalConnections = σ.server.totalConnections
  active : σ.stats.activeConnections = σ.server.clients.size
  handshakes : σ.wire.countP (fun f => !f.counted) = σ.server.totalConnections

lemma stats_transmit (clients : List SessionId) (type : PacketType) (payload : Buffer)
    (counted : Bool) :
    (σ.transmit clients type payload counted).stats.totalConnections = σ.stats.totalConnections ∧
      (σ.transmit clients type payload counted).stats.activeConnections =
        σ.stats.activeConnections := by
  by_cases h : payload.length < 2 ^ 32
  · rw [transmit_eq clients type h, foldl_hand]
    exact ⟨rfl, rfl⟩
  · rw [transmit_of_le clients type (by omega)]
    exact ⟨rfl, rfl⟩

/-- The frames of one packet that the statistics leave out. -/
lemma countP_transmit (clients : List SessionId) (type : PacketType) {payload : Buffer}
    (h : payload.length < 2 ^ 32) (counted : Bool) :
    (σ.transmit clients type payload counted).wire.countP (fun f => !f.counted) =
      σ.wire.countP (fun f => !f.counted) + if counted then 0 else clients.length := by
  rw [transmit_eq clients type h, foldl_hand, List.countP_append, nextFrames, List.countP_map]
  cases counted <;> simp [Function.comp_def]

/-- What the events of a callback do to the statistics. -/
lemma stats_foldl_react {events : List Event} (h : ∀ e ∈ events, e.Fits) :
    (events.foldl react σ).stats.totalConnections =
        σ.stats.totalConnections + events.countP Event.isConnected ∧
      (events.foldl react σ).wire.countP (fun f => !f.counted) =
        σ.wire.countP (fun f => !f.counted) + events.countP Event.isHandshake ∧
      (events.foldl react σ).stats.activeConnections =
        if events.any fun e => e.isConnected || e.isDisconnected then σ.server.clients.size
        else σ.stats.activeConnections := by
  induction events generalizing σ with
  | nil => simp
  | cons e events ih =>
    obtain ⟨he, hevents⟩ := List.forall_mem_cons.1 h
    obtain ⟨htotal, hhandshakes, hactive⟩ := @ih (σ.react e) hevents
    rw [List.foldl_cons, htotal, hhandshakes, hactive, server_react, List.countP_cons,
      List.countP_cons, List.any_cons]
    cases e with
    | connected client =>
      simp [react, Event.isConnected, Event.isHandshake, Nat.add_comm, Nat.add_left_comm]
    | disconnected client reason =>
      simp [react, Event.isConnected, Event.isDisconnected, Event.isHandshake]
    | sent client type payload =>
      obtain ⟨htotal', hactive'⟩ :=
        @stats_transmit σ [client] type payload (type ≠ PacketType.handshake)
      have hcount := @countP_transmit σ [client] type payload he (type ≠ PacketType.handshake)
      simp only [react, htotal', hactive', hcount]
      by_cases htype : type = PacketType.handshake <;>
        simp [htype, Event.isConnected, Event.isDisconnected, Event.isHandshake, Nat.add_assoc,
          Nat.add_comm]
    | _ => simp [react, Event.isConnected, Event.isDisconnected, Event.isHandshake]

lemma Told.transmit (h : σ.Told) {clients : List SessionId} (hclients : clients.Nodup)
    (type : PacketType) (payload : Buffer) : (σ.transmit clients type payload true).Told := by
  obtain ⟨htotal, hactive⟩ := @stats_transmit σ clients type payload true
  refine ⟨h.framed.transmit hclients type payload true, ?_, ?_, ?_⟩
  · rw [htotal, server_transmit]
    exact h.total
  · rw [hactive, server_transmit]
    exact h.active
  · rw [server_transmit, ← h.handshakes]
    by_cases hlength : payload.length < 2 ^ 32
    · rw [countP_transmit clients type hlength]
      rfl
    · rw [transmit_of_le clients type (by omega)]

lemma Told.step (hcfg : cfg.Fits) (h : σ.Told) {a : Action} (ha : a ≠ .callback .stop) :
    (σ.step cfg a).Told := by
  have hframed := h.framed.step cfg a
  cases a with
  | callback i =>
    have hi : i ≠ .stop := fun hi => ha (congrArg _ hi)
    obtain ⟨new, hlog, hfits, htotal, hshaken, hsize⟩ := tracked_step cfg σ.server hi
    have hfits' : ∀ e ∈ new.reverse, e.Fits := fun e he => hfits hcfg e (List.mem_reverse.1 he)
    obtain ⟨htotal', hhandshakes', hactive'⟩ := @stats_foldl_react
      { σ.receive i with server := WebSocketServer.step cfg σ.server i } _ hfits'
    have hreceive : (σ.receive i).stats.totalConnections = σ.stats.totalConnections ∧
        (σ.receive i).stats.activeConnections = σ.stats.activeConnections := by
      unfold receive
      split
      · split <;> exact ⟨rfl, rfl⟩
      · exact ⟨rfl, rfl⟩
    simp only [Wired.step, newEvents_eq hlog] at hframed ⊢
    refine ⟨hframed, ?_, ?_, ?_⟩
    · rw [htotal', server_foldl_react, List.countP_reverse, hreceive.1, h.total, htotal]
    · rw [hactive', server_foldl_react]
      split
      · rfl
      next hnone =>
        rw [hreceive.2, h.active]
        refine (hsize fun e he => ?_).symm
        simp only [List.any_eq_true, List.mem_reverse, not_exists, not_and, Bool.or_eq_true,
          not_or, Bool.not_eq_true] at hnone
        exact hnone e he
    · rw [hhandshakes', server_foldl_react, List.countP_reverse, wire_receive, h.handshakes,
        hshaken]
  | sendToClient client type payload =>
    simp only [Wired.step, sendToClient]
    split
    · split
      · exact h.transmit (List.nodup_singleton client) type payload
      · exact h
    · exact h
  | broadcast type payload exclude => exact h.transmit (nodup_recipients exclude) type payload
  | error => exact ⟨hframed, h.total, h.active, h.handshakes⟩

/-- **The statistics are exact.**  In every run without a stop, the connections that are counted are
those in the table, and those counted in total are the ids drawn; the packets and bytes counted as
sent are those on the wire, but for one handshake for every connection. -/
theorem wire_stats_exact (hcfg : cfg.Fits) {actions : List Action}
    (hactions : ∀ a ∈ actions, a ≠ .callback .stop) :
    let σ := Machine.run (step cfg) new actions
    σ.stats.activeConnections = σ.server.clients.size ∧
      σ.stats.totalConnections = σ.server.totalConnections ∧
      σ.stats.messagesSent + σ.stats.totalConnections = σ.wire.length ∧
      σ.stats.bytesSent = ((σ.wire.filter Handed.counted).map fun f => f.packet.length).sum := by
  intro σ
  have hnew : new.Told := ⟨framed_new, rfl, rfl, rfl⟩
  have htold : σ.Told :=
    Machine.invariant_of_forall (fun σ a (h : σ.Told) ha => h.step hcfg ha) hnew hactions
  refine ⟨htold.active, htold.total, ?_, htold.framed.bytes⟩
  rw [htold.framed.sent, htold.total, ← htold.handshakes]
  have hlength := List.length_eq_countP_add_countP Handed.counted (l := σ.wire)
  simpa using hlength.symm

theorem wire_stats_exact_greeted :
    let σ := Machine.run (step bothHandlers) new greeted
    σ.stats.activeConnections = σ.server.clients.size ∧
      σ.stats.totalConnections = σ.server.totalConnections ∧
      σ.stats.messagesSent + σ.stats.totalConnections = σ.wire.length ∧
      σ.stats.bytesSent = ((σ.wire.filter Handed.counted).map fun f => f.packet.length).sum :=
  wire_stats_exact bothHandlers_fits (by simp [greeted])

end Wired

end WebSocketServer

end SyncEngine
