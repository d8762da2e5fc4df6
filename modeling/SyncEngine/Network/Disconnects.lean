import SyncEngine.Network.AuthGate

/-!
# Disconnects

How often is `onDisconnect` called for a client?  Its own close, a `DISCONNECT` packet and a failed
authentication all end in one close event of its socket.  A heartbeat timeout removes the client and
reports the disconnect at once, and terminates the socket, whose close event reports it again.  So
the reports balance exactly when every close event finds its client in the table
(`one_disconnect_iff`).
-/

namespace SyncEngine

open Js

namespace WebSocketServer

/-- The clients whose disconnects were reported, the latest first. -/
def reported (log : List Event) : List SessionId :=
  log.filterMap fun
    | .disconnected client _ => some client
    | _ => none

/-- At most one disconnect is reported for a client, and the accepted clients are those connected
and those reported. -/
def Balanced (σ : Server) : Prop :=
  (reported σ.log).Nodup ∧ (reported σ.log).length + σ.clients.size = σ.totalConnections

/-- A close event is one of an accepted socket, and the server is not stopped. -/
def Accepted (σ : Server) : Input → Prop
  | .close client _ => client < σ.totalConnections
  | .stop => False
  | _ => True

/-- A close event finds its client in the table. -/
def FindsClient (σ : Server) : Input → Prop
  | .close client _ => client ∈ σ.clients.keys
  | _ => True

/-- Ids are never given again, and a client whose disconnect was reported has left the table. -/
structure Counted (σ : Server) : Prop where
  connected : ∀ client ∈ σ.clients.keys, client < σ.totalConnections
  accepted : ∀ client ∈ reported σ.log, client < σ.totalConnections
  gone : ∀ client ∈ reported σ.log, client ∉ σ.clients.keys

/-- The same clients are connected and reported. -/
structure Still (σ τ : Server) : Prop where
  keys : τ.clients.keys = σ.clients.keys
  total : τ.totalConnections = σ.totalConnections
  reported : reported τ.log = reported σ.log

namespace Still

variable {σ τ υ : Server}

lemma refl (σ : Server) : Still σ σ := ⟨rfl, rfl, rfl⟩

lemma trans (h : Still σ τ) (h' : Still τ υ) : Still σ υ :=
  ⟨h'.keys.trans h.keys, h'.total.trans h.total, h'.reported.trans h.reported⟩

lemma emit {e : Event} (he : ∀ client reason, e ≠ .disconnected client reason) :
    Still σ (σ.emit e) := by
  refine ⟨rfl, rfl, List.filterMap_cons_none ?_⟩
  cases e with
  | disconnected client reason => exact absurd rfl (he client reason)
  | _ => rfl

lemma update (id : SessionId) (f : ClientConnection → ClientConnection) :
    Still σ (σ.update id f) :=
  ⟨Js.Map.keys_modify _ _ _, rfl, rfl⟩

lemma routine : Routine Still where
  refl := refl
  trans := trans
  emit _ he := emit he
  update _ := update
  pending _ _ := ⟨rfl, rfl, rfl⟩

lemma deliver (cfg : Config) (id : SessionId) (data : Buffer) :
    Still σ (deliver cfg id σ data) := by
  unfold WebSocketServer.deliver
  split
  · exact emit (by simp)
  · exact refl σ

lemma balanced_iff (h : Still σ τ) : Balanced τ ↔ Balanced σ := by
  rw [Balanced, Balanced, Js.Map.size_eq_length_keys, Js.Map.size_eq_length_keys, h.keys, h.total,
    h.reported]

lemma counted (h : Still σ τ) (hσ : Counted σ) : Counted τ := by
  constructor
  · rw [h.keys, h.total]
    exact hσ.connected
  · rw [h.reported, h.total]
    exact hσ.accepted
  · rw [h.reported, h.keys]
    exact hσ.gone

end Still

/-! ## One callback -/

variable {cfg : Config} {σ : Server}

lemma still_handleBatch (now : Timestamp) (id : SessionId) (payload : Buffer) :
    Still σ (handleBatch cfg now id payload σ) := by
  unfold handleBatch
  split
  · exact .refl σ
  next packets _ =>
    refine List.foldlRecOn (motive := Still σ) packets _ (.refl σ) fun τ h packet _ => ?_
    split
    · exact h.trans (.deliver cfg id _)
    · exact h

/-- A frame disconnects nobody: a socket that is closed on its behalf fires its event later. -/
lemma still_handleMessage (now : Timestamp) (id : SessionId) (data : Buffer) :
    Still σ (handleMessage cfg now id data σ) := by
  unfold handleMessage
  split
  · exact .refl σ
  · have hheard : Still σ (σ.update id fun c => { c with lastActivity := now }) := .update id _
    refine hheard.trans ?_
    dsimp only
    split
    · exact .refl _
    · exact .refl _
    · split_ifs
      · exact Still.routine.handleHandshakeAck id _
      · exact Still.routine.sendToClient _ _ _
      · exact .deliver cfg id _
      · exact Still.routine.closeSocket _ _ _
      · exact still_handleBatch now id _
      · exact .refl _

lemma reported_handleDisconnect (id : SessionId) (reason : String) :
    reported (handleDisconnect id reason σ).log = id :: reported σ.log := rfl

lemma counted_handleDisconnect (h : Counted σ) {id : SessionId} (hid : id < σ.totalConnections)
    (reason : String) : Counted (handleDisconnect id reason σ) := by
  have hkeys : (handleDisconnect id reason σ).clients.keys = σ.clients.keys.erase id :=
    Js.Map.keys_delete _ _
  constructor
  · intro client hclient
    rw [hkeys] at hclient
    exact h.connected client (List.mem_of_mem_erase hclient)
  · intro client hclient
    obtain rfl | hclient := List.mem_cons.1 hclient
    · exact hid
    · exact h.accepted client hclient
  · intro client hclient
    rw [hkeys]
    obtain rfl | hclient := List.mem_cons.1 hclient
    · exact σ.clients.nodup_keys.not_mem_erase
    · exact fun hmem => h.gone client hclient (List.mem_of_mem_erase hmem)

/-- A report keeps the balance exactly when the client is in the table. -/
lemma balanced_handleDisconnect (h : Counted σ) (hbalanced : Balanced σ) (id : SessionId)
    (reason : String) :
    Balanced (handleDisconnect id reason σ) ↔ id ∈ σ.clients.keys := by
  obtain ⟨hnodup, htotal⟩ := hbalanced
  rw [Js.Map.size_eq_length_keys] at htotal
  have hsize : (handleDisconnect id reason σ).clients.size = (σ.clients.keys.erase id).length := by
    rw [Js.Map.size_eq_length_keys, ← Js.Map.keys_delete]
    rfl
  have hkept : (handleDisconnect id reason σ).totalConnections = σ.totalConnections := rfl
  rw [Balanced, reported_handleDisconnect, hsize, hkept, List.length_cons, List.nodup_cons]
  constructor
  · rintro ⟨-, hafter⟩
    by_contra hid
    rw [List.erase_of_not_mem hid] at hafter
    omega
  · intro hid
    have hpos := List.length_pos_of_mem hid
    refine ⟨⟨fun hmem => h.gone id hmem hid, hnodup⟩, ?_⟩
    rw [List.length_erase_of_mem hid]
    omega

/-- The loop of `checkHeartbeats` at one client. -/
def checkClient (cfg : Config) (now : Timestamp) (σ : Server)
    (entry : SessionId × ClientConnection) : Server :=
  if now - entry.2.lastActivity > cfg.heartbeatInterval * 2 then
    handleDisconnect entry.1 "heartbeat timeout" σ
  else if entry.2.isOpen then σ.emit (.pinged entry.1)
  else σ

/-- A client in the table leaves it at its turn, with one report, or nothing changes. -/
lemma checkClient_cases (cfg : Config) (now : Timestamp) (σ : Server)
    (entry : SessionId × ClientConnection) :
    checkClient cfg now σ entry = handleDisconnect entry.1 "heartbeat timeout" σ ∨
      Still σ (checkClient cfg now σ entry) := by
  unfold checkClient
  split
  · exact .inl rfl
  · right
    split
    · exact .emit (by simp)
    · exact .refl σ

/-- A heartbeat check reports only clients that are in the table at their turn. -/
lemma balanced_checkHeartbeats (h : Counted σ) (now : Timestamp) :
    Counted (checkHeartbeats cfg now σ) ∧ (Balanced σ → Balanced (checkHeartbeats cfg now σ)) := by
  refine @Js.Map.foldl_invariant _ _ _ (checkClient cfg now)
    (fun τ => Counted τ ∧ (Balanced σ → Balanced τ)) (fun τ e => e.1 ∈ τ.clients.keys) ?_ ?_ _
    σ.clients.nodup σ ⟨h, id⟩ fun e he => List.mem_map_of_mem he
  · rintro τ e ⟨hτ, hbalanced⟩ he
    obtain heq | hstill := checkClient_cases cfg now τ e
    · rw [heq]
      exact ⟨counted_handleDisconnect hτ (hτ.connected _ he) _,
        fun hσ => (balanced_handleDisconnect hτ (hbalanced hσ) _ _).2 he⟩
    · exact ⟨hstill.counted hτ, fun hσ => hstill.balanced_iff.2 (hbalanced hσ)⟩
  · intro τ e e' _ _ hne he'
    obtain heq | hstill := checkClient_cases cfg now τ e
    · have hkeys : (handleDisconnect e.1 "heartbeat timeout" τ).clients.keys =
          τ.clients.keys.erase e.1 := Js.Map.keys_delete _ _
      rw [heq, hkeys, List.mem_erase_of_ne hne]
      exact he'
    · rw [hstill.keys]
      exact he'

/-- An accepted client gets an id that nobody has had. -/
lemma handleConnection_cases (cfg : Config) (now : Timestamp) (σ : Server) :
    Still σ (handleConnection cfg now σ) ∨
      ∃ client, Still { σ with
        clients := σ.clients.set σ.totalConnections client
        totalConnections := σ.totalConnections + 1 } (handleConnection cfg now σ) := by
  unfold handleConnection
  split
  · exact .inl (.emit (by simp))
  · exact .inr ⟨⟨now, false, true⟩, .trans (.emit (by simp)) (.emit (by simp))⟩

lemma counted_accept (h : Counted σ) (client : ClientConnection) :
    let τ : Server := { σ with
      clients := σ.clients.set σ.totalConnections client
      totalConnections := σ.totalConnections + 1 }
    Counted τ ∧ (Balanced σ → Balanced τ) := by
  intro τ
  have hnew : σ.totalConnections ∉ σ.clients.keys := fun hmem => (h.connected _ hmem).false
  have hkeys : τ.clients.keys = σ.clients.keys ++ [σ.totalConnections] :=
    Js.Map.keys_set_of_not_mem _ _ hnew
  refine ⟨⟨fun id hid => ?_, fun id hid => Nat.lt_succ_of_lt (h.accepted id hid), fun id hid => ?_⟩,
    fun hbalanced => ⟨hbalanced.1, ?_⟩⟩
  · rw [hkeys, List.mem_append, List.mem_singleton] at hid
    obtain hid | rfl := hid
    · exact Nat.lt_succ_of_lt (h.connected id hid)
    · exact Nat.lt_succ_self _
  · rw [hkeys, List.mem_append, List.mem_singleton, not_or]
    exact ⟨h.gone id hid, (h.accepted id hid).ne⟩
  · have htotal := hbalanced.2
    rw [Js.Map.size_eq_length_keys] at htotal
    rw [Js.Map.size_eq_length_keys, hkeys, List.length_append, List.length_singleton]
    dsimp only [τ]
    omega

/-- A step keeps the counts, and it keeps the balance exactly when a close event finds its
client. -/
lemma balanced_step (h : Counted σ) {i : Input} (hi : Accepted σ i) :
    Counted (step cfg σ i) ∧ (Balanced σ → (Balanced (step cfg σ i) ↔ FindsClient σ i)) := by
  have hquiet : ∀ {τ : Server}, Still σ τ → Counted τ ∧ (Balanced σ → (Balanced τ ↔ True)) :=
    fun hstill => ⟨hstill.counted h, fun hbalanced =>
      iff_of_true (hstill.balanced_iff.2 hbalanced) trivial⟩
  cases i with
  | connection now =>
    obtain hstill | ⟨client, hstill⟩ := handleConnection_cases cfg now σ
    · exact hquiet hstill
    · obtain ⟨hcounted, hbalance⟩ := counted_accept h client
      exact ⟨hstill.counted hcounted, fun hbalanced =>
        iff_of_true (hstill.balanced_iff.2 (hbalance hbalanced)) trivial⟩
  | message now id data => exact hquiet (still_handleMessage now id data)
  | settled n result =>
    cases hclient : σ.pending[n]? with
    | none =>
      simp only [step, hclient]
      exact hquiet (.refl σ)
    | some client =>
      simp only [step, hclient]
      have hsettled : Still σ { σ with pending := σ.pending.eraseIdx n } := ⟨rfl, rfl, rfl⟩
      cases result with
      | none => exact hquiet hsettled
      | some authenticated => exact hquiet (hsettled.trans (Still.routine.handleAuthResult _ _))
  | pong now id => exact hquiet (.update id _)
  | close id reason =>
    exact ⟨counted_handleDisconnect h hi reason, fun hbalanced =>
      balanced_handleDisconnect h hbalanced id reason⟩
  | heartbeat now =>
    obtain ⟨hcounted, hbalance⟩ : Counted (checkHeartbeats cfg now σ) ∧
        (Balanced σ → Balanced (checkHeartbeats cfg now σ)) := balanced_checkHeartbeats h now
    exact ⟨hcounted, fun hbalanced => iff_of_true (hbalance hbalanced) trivial⟩
  | stop => exact absurd hi id

lemma counted_new : Counted .new := by
  constructor
  · intro client hclient
    cases hclient
  · intro client hclient
    cases hclient
  · intro client hclient
    cases hclient

/-- In a run without a stop, in which sockets fire their own close events, every client is reported
once at most and the reports balance in every state, exactly when every close event finds its client
in the table. -/
theorem one_disconnect_iff (cfg : Config) {inputs : List Input}
    (h : Machine.Along (step cfg) Accepted .new inputs) :
    (∀ before, before <+: inputs → Balanced (run cfg before)) ↔
      Machine.Along (step cfg) FindsClient .new inputs :=
  Machine.forall_prefix_iff_along_of (fun _ _ hc hi => (balanced_step hc hi).1)
    (fun _ _ hc hi hb => (balanced_step hc hi).2 hb) counted_new ⟨.nil, rfl⟩ h

/-- A client connects, is silent until it is terminated, and its socket fires its close event. -/
def silent : List Input := [.connection 0, .heartbeat 60001, .close 0 "1006: "]

theorem one_disconnect_iff_silent :
    (∀ before, before <+: silent → Balanced (run bothHandlers before)) ↔
      Machine.Along (step bothHandlers) FindsClient .new silent :=
  one_disconnect_iff bothHandlers ⟨trivial, trivial, Nat.zero_lt_one, trivial⟩

/-- The sockets that fire close events, one after another. -/
def closes (inputs : List Input) : List SessionId :=
  inputs.filterMap fun
    | .close client _ => some client
    | _ => none

/-- The timeout and the close event that follows it are both reported. -/
theorem not_one_disconnect :
    ¬ ∀ (cfg : Config) (inputs : List Input), Machine.Along (step cfg) Accepted .new inputs →
      (closes inputs).Nodup → ∀ before, before <+: inputs → Balanced (run cfg before) := by
  intro h
  have hbalanced := h bothHandlers silent ⟨trivial, trivial, Nat.zero_lt_one, trivial⟩
    (List.nodup_singleton 0) silent List.prefix_rfl
  have hreported : reported (run bothHandlers silent).log = [0, 0] := rfl
  rw [Balanced, hreported] at hbalanced
  exact absurd hbalanced.1 (by decide)

end WebSocketServer

end SyncEngine
