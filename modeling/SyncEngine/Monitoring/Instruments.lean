import SyncEngine.Monitoring.MetricsCollector
import SyncEngine.Network.Wire

/-!
# Counters of the engine

`setupWebSocket` in `src/index.ts`: what the handlers of the WebSocket server tell the metrics
collector and the coordinator.  The counters count the calls of the handlers (`Counts`), and the
load that the node reports to the cluster is the size of the table.

An operator takes the difference of the two connection counters for the clients that are connected.
It is, exactly as long as every close event finds its client in the table (`difference_iff`): after
a heartbeat timeout the close event of the socket is counted a second time.
-/

namespace SyncEngine

open Js

namespace WebSocketServer

/-- The counter that the handlers increment on an event. -/
def Event.counter? : Event → Option String
  | .connected _ => some "ws_connections_total"
  | .disconnected _ _ => some "ws_disconnections_total"
  | .message _ _ => some "ws_messages_received_total"
  | _ => none

/-- The server, the collector, and `localNode.connections` of the coordinator. -/
structure Instruments where
  server : Server
  metricsCollector : MetricsCollector
  connections : ℕ

namespace Instruments

/-- The engine before its first client. -/
def new (collator : Collator) : Instruments := ⟨.new, .new collator, 0⟩

/-- `metricsCollector.incrementCounter(name)` -/
def increment (σ : Instruments) (name : String) : Instruments :=
  { σ with metricsCollector := σ.metricsCollector.incrementCounter name (.finite 1) .empty }

/-- `clusterCoordinator.updateConnectionCount(wsServer.connectionCount)` -/
def updateConnectionCount (σ : Instruments) : Instruments :=
  { σ with connections := σ.server.clients.size }

/-- The handlers that `setupWebSocket` installs. -/
def observe (σ : Instruments) : Event → Instruments
  | .connected _ => (σ.increment "ws_connections_total").updateConnectionCount
  | .disconnected _ _ => (σ.increment "ws_disconnections_total").updateConnectionCount
  | .message _ _ => σ.increment "ws_messages_received_total"
  | _ => σ

variable (cfg : Config)

def step (σ : Instruments) (i : Input) : Instruments :=
  let server := WebSocketServer.step cfg σ.server i
  (Wired.newEvents σ.server server).foldl observe { σ with server := server }

/-- `getCounter(name)` -/
def counter (σ : Instruments) (name : String) : Double :=
  σ.metricsCollector.getCounter name .empty

variable {cfg} {σ : Instruments}

/-! ## What is counted -/

lemma finite_add (p q : ℚ) : (Double.finite p).add (.finite q) = .finite (p + q) := rfl

lemma finite_injective : Function.Injective Double.finite := fun _ _ h =>
  WithTop.coe_injective (WithBot.coe_injective (Double.number.inj h))

/-- The counters of a metric without labels. -/
lemma counter_increment (name other : String) :
    (σ.increment name).counter other =
      if other = name then ((σ.counter name).add (.finite 1)).orZero else σ.counter other := by
  simp only [counter, increment, MetricsCollector.getCounter, MetricsCollector.incrementCounter,
    MetricsCollector.buildKey_empty, MetricsCollector.numberAt_set]

lemma counter_observe (e : Event) {name : String} {n : ℕ} (h : σ.counter name = .finite n) :
    (σ.observe e).counter name = .finite (n + if e.counter? = some name then 1 else 0 : ℕ) := by
  have hincrement : ∀ other, (σ.increment other).counter name =
      .finite (n + if some other = some name then 1 else 0 : ℕ) := by
    intro other
    rw [counter_increment]
    by_cases hname : name = other
    · rw [if_pos hname, ← hname, h, finite_add, if_pos rfl, Nat.cast_add, Nat.cast_one]
      rfl
    · rw [if_neg hname, if_neg fun heq => hname (Option.some.inj heq).symm, h, Nat.add_zero]
  cases e with
  | connected client => exact hincrement _
  | disconnected client reason => exact hincrement _
  | message client data => exact hincrement _
  | _ => exact h

lemma server_observe (e : Event) : (σ.observe e).server = σ.server := by
  cases e <;> rfl

lemma connections_observe (e : Event) : (σ.observe e).connections =
    if e.isConnected || e.isDisconnected then σ.server.clients.size else σ.connections := by
  cases e <;> rfl

/-- The handlers called for the events of a callback. -/
lemma foldl_observe (events : List Event) :
    (events.foldl observe σ).server = σ.server ∧
      (∀ (name : String) (n : ℕ), σ.counter name = .finite n →
        (events.foldl observe σ).counter name =
          .finite (n + events.countP (fun e => e.counter? = some name) : ℕ)) ∧
      (events.foldl observe σ).connections =
        if events.any fun e => e.isConnected || e.isDisconnected then σ.server.clients.size
        else σ.connections := by
  induction events generalizing σ with
  | nil => exact ⟨rfl, fun name n h => h, rfl⟩
  | cons e events ih =>
    obtain ⟨hserver, hcounter, hconnections⟩ := @ih (σ.observe e)
    rw [List.foldl_cons]
    refine ⟨hserver.trans (server_observe e), fun name n h => ?_, ?_⟩
    · rw [hcounter name _ (counter_observe e h), List.countP_cons]
      simp only [decide_eq_true_eq, Nat.add_assoc, Nat.add_comm]
    · rw [hconnections, server_observe, connections_observe, List.any_cons]
      cases e.isConnected || e.isDisconnected <;> simp

/-- The counters count the events of the log. -/
def Counts (σ : Instruments) : Prop := ∀ name, σ.counter name =
  .finite (σ.server.log.countP fun e => e.counter? = some name : ℕ)

lemma Counts.step (h : σ.Counts) (cfg : Config) (i : Input) : (σ.step cfg i).Counts := by
  obtain ⟨new, hlog, -⟩ := exists_log_step cfg σ.server i
  intro name
  obtain ⟨hserver, hcounter, -⟩ := @foldl_observe
    { σ with server := WebSocketServer.step cfg σ.server i } new.reverse
  simp only [Instruments.step, Wired.newEvents_eq hlog]
  rw [hcounter name _ (h name), hserver, hlog, List.countP_append, List.countP_reverse,
    Nat.add_comm]

/-- The node reports the size of the table, and every id drawn is that of a connected client. -/
structure Reports (σ : Instruments) : Prop where
  connections : σ.connections = σ.server.clients.size
  connected : σ.server.log.countP Event.isConnected = σ.server.totalConnections

lemma Reports.step (h : σ.Reports) (cfg : Config) {i : Input} (hi : i ≠ .stop) :
    (σ.step cfg i).Reports := by
  obtain ⟨new, hlog, -, htotal, -, hsize⟩ := tracked_step cfg σ.server hi
  obtain ⟨hserver, -, hconnections⟩ := @foldl_observe
    { σ with server := WebSocketServer.step cfg σ.server i } new.reverse
  simp only [Instruments.step, Wired.newEvents_eq hlog]
  constructor
  · rw [hconnections, hserver]
    split
    · rfl
    next hnone =>
      refine h.connections.trans (hsize fun e he => ?_).symm
      simp only [List.any_eq_true, List.mem_reverse, not_exists, not_and, Bool.or_eq_true,
        not_or, Bool.not_eq_true] at hnone
      exact hnone e he
  · rw [hserver, hlog, List.countP_append, h.connected, Nat.add_comm]
    exact htotal

/-! ## The difference of the counters -/

/-- The clients connected and those reported are all that were ever accepted. -/
def Even (σ : Server) : Prop := (reported σ.log).length + σ.clients.size = σ.totalConnections

lemma even_iff_of_still {σ τ : Server} (h : Still σ τ) : Even τ ↔ Even σ := by
  rw [Even, Even, Js.Map.size_eq_length_keys, Js.Map.size_eq_length_keys, h.keys, h.total,
    h.reported]

lemma even_handleDisconnect {σ : Server} (h : Even σ) (id : SessionId) (reason : String) :
    Even (handleDisconnect id reason σ) ↔ id ∈ σ.clients.keys := by
  have hkeys : (handleDisconnect id reason σ).clients.keys = σ.clients.keys.erase id :=
    Js.Map.keys_delete _ _
  have hkept : (handleDisconnect id reason σ).totalConnections = σ.totalConnections := rfl
  rw [Even, Js.Map.size_eq_length_keys] at h
  rw [Even, reported_handleDisconnect, Js.Map.size_eq_length_keys, hkeys, hkept, List.length_cons]
  constructor
  · intro hafter
    by_contra hid
    rw [List.erase_of_not_mem hid] at hafter
    omega
  · intro hid
    have hpos := List.length_pos_of_mem hid
    rw [List.length_erase_of_mem hid]
    omega

lemma even_checkHeartbeats {σ : Server} (h : Even σ) (cfg : Config) (now : Timestamp) :
    Even (checkHeartbeats cfg now σ) := by
  refine @Js.Map.foldl_invariant _ _ _ (checkClient cfg now) Even
    (fun τ e => e.1 ∈ τ.clients.keys) ?_ ?_ _ σ.clients.nodup σ h fun e he =>
      List.mem_map_of_mem he
  · intro τ e hτ he
    obtain heq | hstill := checkClient_cases cfg now τ e
    · rw [heq]
      exact (even_handleDisconnect hτ _ _).2 he
    · exact (even_iff_of_still hstill).2 hτ
  · intro τ e e' _ _ hne he'
    obtain heq | hstill := checkClient_cases cfg now τ e
    · have hkeys : (handleDisconnect e.1 "heartbeat timeout" τ).clients.keys =
          τ.clients.keys.erase e.1 := Js.Map.keys_delete _ _
      rw [heq, hkeys, List.mem_erase_of_ne hne]
      exact he'
    · rw [hstill.keys]
      exact he'

/-- A step keeps the sum exactly when a close event finds its client. -/
lemma even_step {σ : Server} (hcounted : Counted σ) (h : Even σ) (cfg : Config) {i : Input}
    (hi : i ≠ .stop) : Even (WebSocketServer.step cfg σ i) ↔ FindsClient σ i := by
  have hquiet : ∀ {τ : Server}, Still σ τ → (Even τ ↔ True) := fun hstill =>
    iff_of_true ((even_iff_of_still hstill).2 h) trivial
  cases i with
  | connection now =>
    obtain hstill | ⟨client, hstill⟩ := handleConnection_cases cfg now σ
    · exact hquiet hstill
    · refine iff_of_true ((even_iff_of_still hstill).2 ?_) trivial
      have hnew : σ.totalConnections ∉ σ.clients.keys := fun hmem =>
        (hcounted.connected _ hmem).false
      rw [Even, Js.Map.size_eq_length_keys] at h ⊢
      rw [Js.Map.keys_set_of_not_mem _ _ hnew, List.length_append, List.length_singleton,
        ← Nat.add_assoc, h]
  | message now id data => exact hquiet (still_handleMessage now id data)
  | settled n result =>
    cases hclient : σ.pending[n]? with
    | none =>
      simp only [WebSocketServer.step, hclient]
      exact hquiet (.refl σ)
    | some client =>
      simp only [WebSocketServer.step, hclient]
      have hsettled : Still σ { σ with pending := σ.pending.eraseIdx n } := ⟨rfl, rfl, rfl⟩
      cases result with
      | none => exact hquiet hsettled
      | some authenticated => exact hquiet (hsettled.trans (Still.routine.handleAuthResult _ _))
  | pong now id => exact hquiet (.update id _)
  | close id reason => exact even_handleDisconnect h id reason
  | heartbeat now => exact iff_of_true (even_checkHeartbeats h cfg now) trivial
  | stop => exact absurd rfl hi

lemma server_run (cfg : Config) (collator : Collator) (inputs : List Input) :
    (Machine.run (step cfg) (new collator) inputs).server = run cfg inputs := by
  induction inputs using List.reverseRecOn with
  | nil => rfl
  | append_singleton inputs i ih =>
    rw [Machine.run_append, WebSocketServer.run, Machine.run_append, ← WebSocketServer.run, ← ih]
    exact foldl_observe _ |>.1

/-- The two connection counters and the load, after a run without a stop. -/
lemma counters_run (cfg : Config) (collator : Collator) {inputs : List Input}
    (hinputs : ∀ i ∈ inputs, i ≠ .stop) :
    let σ := Machine.run (step cfg) (new collator) inputs
    σ.counter "ws_connections_total" = .finite σ.server.totalConnections ∧
      σ.counter "ws_disconnections_total" = .finite (reported σ.server.log).length ∧
      σ.connections = σ.server.clients.size := by
  intro σ
  have hcounts : σ.Counts :=
    Machine.always (fun σ i (h : σ.Counts) => h.step cfg i) inputs fun _ => rfl
  have hreports : σ.Reports := Machine.invariant_of_forall
    (fun σ i (h : σ.Reports) hi => h.step cfg hi) ⟨rfl, rfl⟩ hinputs
  refine ⟨?_, ?_, hreports.connections⟩
  · rw [hcounts, ← hreports.connected]
    refine congrArg (fun n : ℕ => Double.finite n) (List.countP_congr fun e _ => ?_)
    cases e <;> simp [Event.counter?, Event.isConnected]
  · rw [hcounts, reported, List.length_filterMap_eq_countP]
    refine congrArg (fun n : ℕ => Double.finite n) (List.countP_congr fun e _ => ?_)
    cases e <;> simp [Event.counter?]

/-- **The counters and the clients.**  In every run without a stop, in which sockets fire their own
close events, the counter of disconnections and the load that the node reports add up to the counter
of connections after every callback, exactly when every close event finds its client in the
table. -/
theorem difference_iff (cfg : Config) (collator : Collator) {inputs : List Input}
    (h : Machine.Along (WebSocketServer.step cfg) Accepted .new inputs) :
    (∀ before, before <+: inputs →
      let σ := Machine.run (step cfg) (new collator) before
      (σ.counter "ws_disconnections_total").add (.finite σ.connections) =
        σ.counter "ws_connections_total") ↔
      Machine.Along (WebSocketServer.step cfg) FindsClient .new inputs := by
  have hstop : ∀ (σ : Server) (i : Input), Accepted σ i → i ≠ .stop := by
    rintro σ i hi rfl
    exact hi
  have hnew : Even .new := rfl
  have hiff : (∀ before, before <+: inputs → Even (run cfg before)) ↔
      Machine.Along (WebSocketServer.step cfg) FindsClient .new inputs :=
    Machine.forall_prefix_iff_along_of (fun _ _ hc hi => (balanced_step hc hi).1)
      (fun σ i hc hi heven => even_step hc heven cfg (hstop σ i hi)) counted_new hnew h
  rw [← hiff]
  refine forall₂_congr fun before hbefore => ?_
  obtain ⟨hconnected, hdisconnected, hload⟩ :=
    counters_run cfg collator fun i hi => h.forall_mem hstop i (hbefore.subset hi)
  dsimp only
  rw [hconnected, hdisconnected, hload, server_run, finite_add, finite_injective.eq_iff, Even]
  exact_mod_cast Iff.rfl

theorem difference_iff_silent :
    (∀ before, before <+: silent →
      let σ := Machine.run (step bothHandlers) (new .byCodePoint) before
      (σ.counter "ws_disconnections_total").add (.finite σ.connections) =
        σ.counter "ws_connections_total") ↔
      Machine.Along (WebSocketServer.step bothHandlers) FindsClient .new silent :=
  difference_iff bothHandlers .byCodePoint ⟨trivial, trivial, Nat.zero_lt_one, trivial⟩

end Instruments

end WebSocketServer

end SyncEngine
