import SyncEngine.Network.WebSocketServer

/-!
# The authentication gate

When is the `onMessage` handler called for a client only after an `onAuth` promise of that client
has resolved to `true`?  `Gated` says so of the log, and `Admitted` is the condition on one input:
a frame that carries data comes from a client whose authentication has succeeded.  The server
checks nothing of the kind, so a step keeps the gate exactly when its input is admitted
(`gated_step`), and a run keeps it exactly when all its inputs are (`handler_gated_iff`).

Most callbacks call the handler for nobody.  `Quiet` is the relation they keep, closed under
composition, and only the frames that carry data are looked at one by one.
-/

namespace SyncEngine

open Js

namespace WebSocketServer

/-- The handler was called for the client only after a promise of the client resolved to `true`.
The log has the latest event first. -/
def Gated (client : SessionId) (log : List Event) : Prop :=
  ∀ data before, Event.message client data :: before <:+ log → .resolved client true ∈ before

/-- The payloads a frame brings to the `onMessage` handler: its own, or those in its batch. -/
def dataPayloads (now : Timestamp) (data : Buffer) : List Buffer :=
  match BinaryProtocol.decode now data with
  | .error _ | .ok none => []
  | .ok (some packet) =>
    if packet.type = PacketType.data then [packet.payload]
    else if packet.type = PacketType.batch then
      match BinaryProtocol.decodeBatch (fun _ => now) packet.payload with
      | .error _ => []
      | .ok packets =>
        (packets.filter fun p => p.type = PacketType.data).map fun p => p.payload
    else []

/-- A frame that carries data comes from a client that `onAuth` has approved. -/
def Admitted (cfg : Config) (client : SessionId) (σ : Server) : Input → Prop
  | .message now sender data =>
    sender = client → cfg.onMessageHandler = true → σ.clients.has client = true →
      dataPayloads now data ≠ [] → .resolved client true ∈ σ.log
  | _ => True

/-! ## The gate and the log -/

lemma gated_nil (client : SessionId) : Gated client [] := by
  intro data before h
  simp at h

lemma gated_cons {client : SessionId} {e : Event} {log : List Event} :
    Gated client (e :: log) ↔ Gated client log ∧
      ∀ data, e = .message client data → .resolved client true ∈ log := by
  constructor
  · intro h
    refine ⟨fun data before hb => h data before (hb.trans (List.suffix_cons e log)), ?_⟩
    rintro data rfl
    exact h data log List.suffix_rfl
  · rintro ⟨hlog, he⟩ data before hb
    rcases List.suffix_cons_iff.1 hb with heq | hsuffix
    · obtain ⟨rfl, rfl⟩ := List.cons.inj heq
      exact he data rfl
    · exact hlog data before hsuffix

/-- Messages to one client. -/
lemma gated_messages {client id : SessionId} {log : List Event} (payloads : List Buffer) :
    Gated client ((payloads.map (Event.message id)).reverse ++ log) ↔
      Gated client log ∧ (id = client → payloads ≠ [] → .resolved client true ∈ log) := by
  induction payloads using List.reverseRecOn with
  | nil => simp
  | append_singleton payloads data ih =>
    have hcons : ((payloads ++ [data]).map (Event.message id)).reverse ++ log =
        Event.message id data :: ((payloads.map (Event.message id)).reverse ++ log) := by
      simp
    have hnew : Event.resolved client true ∈ (payloads.map (Event.message id)).reverse ++ log ↔
        .resolved client true ∈ log := by
      simp
    rw [hcons, gated_cons, ih, hnew]
    constructor
    · rintro ⟨⟨hlog, -⟩, hdata⟩
      exact ⟨hlog, fun hid _ => hdata data (by rw [hid])⟩
    · rintro ⟨hlog, hresolved⟩
      refine ⟨⟨hlog, fun hid _ => hresolved hid (by simp)⟩, fun data' heq => ?_⟩
      have hid : id = client := (Event.message.inj heq).1
      exact hresolved hid (by simp)

/-- Events that are no calls of the handler. -/
lemma gated_append {client : SessionId} {events log : List Event}
    (h : ∀ id data, .message id data ∉ events) :
    Gated client (events ++ log) ↔ Gated client log := by
  induction events with
  | nil => exact Iff.rfl
  | cons e events ih =>
    rw [List.cons_append, gated_cons,
      ih fun id data hmem => h id data (List.mem_cons_of_mem e hmem)]
    refine and_iff_left fun data he => absurd ?_ (h client data)
    rw [he]
    exact List.mem_cons_self

/-- The handler is called for nobody on the way from one state to the other. -/
def Quiet (σ τ : Server) : Prop :=
  ∃ events, τ.log = events ++ σ.log ∧ ∀ id data, .message id data ∉ events

namespace Quiet

variable {σ τ υ : Server}

lemma of_log_eq (h : τ.log = σ.log) : Quiet σ τ :=
  ⟨[], h, by simp⟩

lemma refl (σ : Server) : Quiet σ σ := of_log_eq rfl

lemma trans (h : Quiet σ τ) (h' : Quiet τ υ) : Quiet σ υ := by
  obtain ⟨events, hlog, hquiet⟩ := h
  obtain ⟨events', hlog', hquiet'⟩ := h'
  refine ⟨events' ++ events, by rw [hlog', hlog, List.append_assoc], fun id data hmem => ?_⟩
  rcases List.mem_append.1 hmem with h | h
  · exact hquiet' id data h
  · exact hquiet id data h

lemma emit {e : Event} (he : ∀ id data, e ≠ .message id data) : Quiet σ (σ.emit e) :=
  ⟨[e], rfl, fun id data hmem => he id data (List.mem_singleton.1 hmem).symm⟩

lemma update (id : SessionId) (f : ClientConnection → ClientConnection) :
    Quiet σ (σ.update id f) :=
  of_log_eq rfl

lemma routine : Routine Quiet where
  refl := refl
  trans := trans
  emit he _ := emit he
  update _ := update
  pending _ _ := of_log_eq rfl

lemma foldl {ι : Type} {f : Server → ι → Server} (hf : ∀ σ i, Quiet σ (f σ i))
    (inputs : List ι) (σ : Server) : Quiet σ (inputs.foldl f σ) := by
  induction inputs generalizing σ with
  | nil => exact refl σ
  | cons i inputs ih => exact (hf σ i).trans (ih _)

lemma gated_iff (h : Quiet σ τ) (client : SessionId) :
    Gated client τ.log ↔ Gated client σ.log := by
  obtain ⟨events, hlog, hquiet⟩ := h
  rw [hlog, gated_append hquiet]

end Quiet

/-! ## One callback -/

variable {cfg : Config} {σ : Server}

lemma quiet_handleConnection (now : Timestamp) : Quiet σ (handleConnection cfg now σ) := by
  unfold handleConnection
  split
  · exact .emit (by simp)
  · refine .trans ?_ (.emit (by simp))
    refine .trans ?_ (.emit (by simp))
    exact .of_log_eq rfl

lemma quiet_handleDisconnect (id : SessionId) (reason : String) :
    Quiet σ (handleDisconnect id reason σ) :=
  .trans (.of_log_eq rfl) (.emit (by simp))

lemma quiet_checkHeartbeats (now : Timestamp) : Quiet σ (checkHeartbeats cfg now σ) := by
  apply Quiet.foldl
  intro σ entry
  split
  · exact quiet_handleDisconnect _ _
  · split
    · exact .emit (by simp)
    · exact .refl σ

lemma log_deliver (id : SessionId) (data : Buffer) :
    (deliver cfg id σ data).log =
      ((if cfg.onMessageHandler then [data] else []).map (Event.message id)).reverse ++ σ.log := by
  unfold deliver
  split <;> rfl

/-- The loop of `handleBatch`. -/
lemma log_foldl_deliver (id : SessionId) (packets : List Packet) (σ : Server) :
    (packets.foldl (fun σ packet => if packet.type = PacketType.data then
        deliver cfg id σ packet.payload else σ) σ).log =
      ((if cfg.onMessageHandler then
          (packets.filter fun p => p.type = PacketType.data).map fun p => p.payload
        else []).map (Event.message id)).reverse ++ σ.log := by
  induction packets generalizing σ with
  | nil => simp
  | cons packet packets ih =>
    rw [List.foldl_cons, ih]
    by_cases hdata : packet.type = PacketType.data <;> cases h : cfg.onMessageHandler <;>
      simp [hdata, log_deliver, h]

/-- A frame of a connected client calls the handler once for every payload it carries, and does
nothing else that calls it. -/
lemma log_handleMessage {id : SessionId} (hid : σ.clients.has id = true) (now : Timestamp)
    (data : Buffer) :
    ∃ events, (∀ id data, .message id data ∉ events) ∧ (handleMessage cfg now id data σ).log =
      events ++ (((if cfg.onMessageHandler then dataPayloads now data else []).map
        (Event.message id)).reverse ++ σ.log) := by
  obtain ⟨c, hc⟩ := Option.isSome_iff_exists.1 hid
  obtain ⟨r, hr⟩ := BinaryProtocol.exists_decode now data
  set τ := σ.update id fun c => { c with lastActivity := now } with hτ
  have hlog : τ.log = σ.log := rfl
  have hquiet : ∀ {υ : Server}, Quiet τ υ → ∃ events, (∀ id data, .message id data ∉ events) ∧
      υ.log = events ++ (((if cfg.onMessageHandler then ([] : List Buffer) else []).map
        (Event.message id)).reverse ++ σ.log) := by
    rintro υ ⟨events, hevents, hmessage⟩
    exact ⟨events, hmessage, by simp [hevents, hlog]⟩
  simp only [handleMessage, dataPayloads, hc, hr, ← hτ]
  rcases r with - | packet
  · exact hquiet (.refl τ)
  by_cases hdata : packet.type = PacketType.data
  · have hack : packet.type ≠ PacketType.handshakeAck := by rw [hdata]; decide
    have hbeat : packet.type ≠ PacketType.heartbeat := by rw [hdata]; decide
    simp only [if_neg hack, if_neg hbeat, if_pos hdata]
    exact ⟨[], by simp, by rw [log_deliver, hlog]; rfl⟩
  by_cases hbatch : packet.type = PacketType.batch
  · have hack : packet.type ≠ PacketType.handshakeAck := by rw [hbatch]; decide
    have hbeat : packet.type ≠ PacketType.heartbeat := by rw [hbatch]; decide
    have hbye : packet.type ≠ PacketType.disconnect := by rw [hbatch]; decide
    simp only [if_neg hack, if_neg hbeat, if_neg hdata, if_neg hbye, if_pos hbatch, handleBatch]
    rcases BinaryProtocol.decodeBatch (fun _ => now) packet.payload with e | packets
    · exact hquiet (.refl τ)
    · exact ⟨[], by simp, by rw [log_foldl_deliver, hlog]; rfl⟩
  · simp only [if_neg hdata, if_neg hbatch]
    apply hquiet
    split
    · exact Quiet.routine.handleHandshakeAck id _
    · split
      · exact Quiet.routine.sendToClient _ _ _
      · split
        · exact Quiet.routine.closeSocket _ _ _
        · exact .refl τ

/-- Only a frame can call the handler. -/
lemma quiet_step {i : Input} (h : ∀ now id data, i ≠ .message now id data) :
    Quiet σ (step cfg σ i) := by
  cases i with
  | message now id data => exact absurd rfl (h now id data)
  | connection now => exact quiet_handleConnection now
  | settled i result =>
    rcases hclient : σ.pending[i]? with - | client
    · simp only [step, hclient]
      exact .refl σ
    · simp only [step, hclient]
      cases result with
      | none => exact .of_log_eq rfl
      | some authenticated => exact .trans (.of_log_eq rfl) (Quiet.routine.handleAuthResult _ _)
  | pong now id => exact .update id _
  | close id reason => exact quiet_handleDisconnect id reason
  | heartbeat now => exact quiet_checkHeartbeats now
  | stop =>
    refine .trans (.foldl (fun σ client => ?_) _ σ) (.of_log_eq rfl)
    exact Quiet.routine.closeSocket client _ _

/-- A step keeps the gate exactly when its input is admitted. -/
lemma gated_step (client : SessionId) (σ : Server) (i : Input) :
    Gated client (step cfg σ i).log ↔ Gated client σ.log ∧ Admitted cfg client σ i := by
  cases i with
  | message now id data =>
    cases hid : σ.clients.has id with
    | false =>
      have hnone : σ.clients.get? id = none := by
        simpa [Js.Map.has] using hid
      have hstep : step cfg σ (.message now id data) = σ := by
        simp only [step, handleMessage, hnone]
      rw [hstep]
      refine (and_iff_left ?_).symm
      rintro rfl - hconnected
      rw [hid] at hconnected
      contradiction
    | true =>
      obtain ⟨events, hevents, hlog⟩ := @log_handleMessage cfg _ _ hid now data
      rw [step, hlog, gated_append hevents, gated_messages]
      refine and_congr_right fun _ => ⟨fun h hclient hhandler _ hpayloads => ?_,
        fun h hclient hpayloads => ?_⟩
      · apply h hclient
        rwa [if_pos hhandler]
      · cases hhandler : cfg.onMessageHandler with
        | false => simp [hhandler] at hpayloads
        | true =>
          rw [hhandler, if_pos rfl] at hpayloads
          exact h hclient hhandler (hclient ▸ hid) hpayloads
  | _ =>
    rw [(quiet_step (by simp)).gated_iff client]
    exact (and_iff_left trivial).symm

/-- **When the gate holds.**  Over any inputs, the handler is called for a client only after a
promise of that client resolved to `true`, exactly when every frame with data that the server
handles for the client arrives after such a promise. -/
theorem handler_gated_iff (cfg : Config) (client : SessionId) (inputs : List Input) :
    Gated client (run cfg inputs).log ↔
      Machine.Along (step cfg) (Admitted cfg client) .new inputs := by
  have hrun := @Machine.iff_along _ _ (step cfg) (Admitted cfg client) (fun _ => True)
    (fun σ => Gated client σ.log) (fun _ _ _ => trivial) (fun σ i _ => gated_step client σ i) .new
    inputs trivial
  exact hrun.trans (and_iff_right (gated_nil client))

/-- A server with both handlers installed. -/
def bothHandlers : Config :=
  ⟨1000, 30000, true, true, fun _ => "", fun _ => .error .typeError, fun _ => []⟩

/-- A client connects and sends a data packet at once. -/
def unauthenticated : List Input :=
  [.connection 0, .message 1 0 (BinaryProtocol.frame PacketType.data 1 [42])]

/-- The packet reaches the handler, though no handshake was acknowledged. -/
theorem handler_called_unauthenticated :
    bothHandlers.onAuthHandler = true ∧ ¬ Gated 0 (run bothHandlers unauthenticated).log := by
  refine ⟨rfl, fun hgated => ?_⟩
  have hlog : (run bothHandlers unauthenticated).log =
      [.message 0 [42], .connected 0, .sent 0 PacketType.handshake []] := by
    rfl
  rw [hlog] at hgated
  have hmem := hgated [42] _ List.suffix_rfl
  simp at hmem

end WebSocketServer

end SyncEngine
