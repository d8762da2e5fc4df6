import SyncEngine.Monitoring.AlertManager

/-!
# What an evaluation does to the alerts

One turn of the loop over the rules does nothing, fires an alert of its rule or resolves the one
there is (`Turn`, `turn_evaluateRule`).  What every turn keeps and the other calls keep, every run
keeps (`always_of_turn`).

The first such property is `Keyed`: an active alert is kept under the id of its rule, and its own id
is longer.  So no alert is found under its own id, and what acknowledges an alert by that id
acknowledges another one or none (`not_acknowledged`).
-/

namespace SyncEngine.AlertManager

open Js

variable {numeral : Double → String} {now : Timestamp} {m m' : AlertManager} {rule : AlertRule}

/-- The condition of the rule holds for the current gauge of its metric. -/
def Holds (m : AlertManager) (rule : AlertRule) : Prop :=
  evaluateCondition (m.metricsCollector.getGauge rule.metric .empty) rule.condition
    rule.threshold = true

instance (m : AlertManager) : DecidablePred m.Holds := fun rule => by
  unfold Holds
  infer_instance

/-- What one turn of the loop of `evaluateRules` can do. -/
inductive Turn (numeral : Double → String) (now : Timestamp) (m : AlertManager)
    (rule : AlertRule) : AlertManager → Prop
  | quiet (h : m.Holds rule ∨
      ∀ alert, m.activeAlerts.get? rule.id = some alert → alert.status ≠ .active) :
    Turn numeral now m rule m
  | fires (hholds : m.Holds rule)
      (hcool : (Double.finite (now - (m.lastFired.get? rule.id).getD 0)).lt rule.cooldownMs = false)
      (habsent : m.activeAlerts.get? rule.id = none) :
    Turn numeral now m rule
      (m.fire numeral now rule (m.metricsCollector.getGauge rule.metric .empty))
  | resolves (hclear : ¬ m.Holds rule) (existing : Alert)
      (hget : m.activeAlerts.get? rule.id = some existing) (hstatus : existing.status = .active) :
    Turn numeral now m rule (m.resolve now rule existing)

lemma turn_evaluateRule (numeral : Double → String) (now : Timestamp) (m : AlertManager)
    (rule : AlertRule) : Turn numeral now m rule (m.evaluateRule numeral now rule) := by
  unfold evaluateRule
  by_cases hholds : m.Holds rule
  · rw [if_pos (show evaluateCondition _ _ _ = true from hholds)]
    by_cases hcool :
        (Double.finite (now - (m.lastFired.get? rule.id).getD 0)).lt rule.cooldownMs = true
    · rw [if_pos hcool]
      exact .quiet (.inl hholds)
    · rw [if_neg hcool]
      by_cases hhas : m.activeAlerts.has rule.id = true
      · rw [if_pos hhas]
        exact .quiet (.inl hholds)
      · rw [if_neg hhas]
        exact .fires hholds (by simpa using hcool) (by simpa [Js.Map.has] using hhas)
  · rw [if_neg (show ¬ evaluateCondition _ _ _ = true from hholds)]
    cases hget : m.activeAlerts.get? rule.id with
    | none => exact .quiet (.inr (by simp [hget]))
    | some existing =>
      by_cases hstatus : existing.status = .active
      · simp only [if_pos hstatus]
        exact .resolves hholds existing hget hstatus
      · simp only [if_neg hstatus]
        refine .quiet (.inr fun alert halert => ?_)
        rw [← Option.some.inj (hget.symm.trans halert)]
        exact hstatus

/-! ## What a turn leaves alone -/

lemma Turn.rules (h : Turn numeral now m rule m') : m'.rules = m.rules := by
  cases h <;> rfl

lemma Turn.metricsCollector (h : Turn numeral now m rule m') :
    m'.metricsCollector = m.metricsCollector := by
  cases h <;> rfl

/-- What every turn at a time keeps, an evaluation at that time keeps. -/
lemma evaluateRules_of_turn (Inv : AlertManager → Prop)
    (hturn : ∀ m rule m', Turn numeral now m rule m' → Inv m → Inv m') (h : Inv m) :
    Inv (m.evaluateRules numeral now) :=
  List.foldlRecOn m.rules _ h fun m hm rule _ => hturn m rule _ (turn_evaluateRule _ _ _ _) hm

/-- Neither the alerts nor the record of their events are touched. -/
def Quiet (m m' : AlertManager) : Prop :=
  m'.activeAlerts = m.activeAlerts ∧ m'.lastFired = m.lastFired ∧ m'.events = m.events

/-- The other calls write to the rules or the metrics only, or acknowledge an alert. -/
lemma step_cases (numeral : Double → String) (m : AlertManager) (i : Timestamp × AlertCall) :
    Quiet m (m.step numeral i) ∨
      (∃ key alert, m.activeAlerts.get? key = some alert ∧
        m.step numeral i = m.acknowledge i.1 key alert) ∨
      m.step numeral i = m.evaluateRules numeral i.1 := by
  obtain ⟨now, call⟩ := i
  cases call with
  | addRule rule => exact .inl ⟨rfl, rfl, rfl⟩
  | metrics collector => exact .inl ⟨rfl, rfl, rfl⟩
  | evaluateRules => exact .inr (.inr rfl)
  | removeRule ruleId =>
    left
    simp only [step, removeRule]
    cases m.rules.findIdx? fun r => r.id = ruleId <;> exact ⟨rfl, rfl, rfl⟩
  | acknowledgeAlert alertId =>
    simp only [step, acknowledgeAlert]
    cases hget : m.activeAlerts.get? alertId with
    | none => exact .inl ⟨rfl, rfl, rfl⟩
    | some alert => exact .inr (.inl ⟨alertId, alert, hget, rfl⟩)

/-- What quiet calls, acknowledgements and turns at a time keep, every step at that time keeps. -/
lemma step_of_turn {Inv : AlertManager → Prop} {i : Timestamp × AlertCall}
    (hquiet : ∀ m m', Quiet m m' → Inv m → Inv m')
    (hack : ∀ m key alert, m.activeAlerts.get? key = some alert → Inv m →
      Inv (m.acknowledge i.1 key alert))
    (hturn : ∀ m rule m', Turn numeral i.1 m rule m' → Inv m → Inv m') (h : Inv m) :
    Inv (m.step numeral i) := by
  obtain hq | ⟨key, alert, hget, heq⟩ | heq := step_cases numeral m i
  · exact hquiet m _ hq h
  · rw [heq]
    exact hack m key alert hget h
  · rw [heq]
    exact evaluateRules_of_turn Inv hturn h

/-! ## Ids -/

/-- An active alert is kept under the id of its rule, and has an id made from it. -/
def Keyed (m : AlertManager) : Prop :=
  ∀ key alert, m.activeAlerts.get? key = some alert →
    alert.ruleId = key ∧ ∃ t : Timestamp, alert.id = "alert-" ++ key ++ "-" ++ toString t

lemma Keyed.turn (hkeyed : m.Keyed) (h : Turn numeral now m rule m') : m'.Keyed := by
  intro key alert hget
  cases h with
  | quiet => exact hkeyed key alert hget
  | fires =>
    rw [fire_activeAlerts, Js.Map.get?_set] at hget
    split at hget
    next hkey =>
      obtain rfl := Option.some.inj hget
      exact ⟨hkey.symm, now, by rw [hkey]; rfl⟩
    next => exact hkeyed key alert hget
  | resolves =>
    rw [resolve_activeAlerts, Js.Map.get?_delete] at hget
    split at hget
    next => cases hget
    next => exact hkeyed key alert hget

lemma Keyed.acknowledge (hkeyed : m.Keyed) {key : String} {alert : Alert}
    (hget : m.activeAlerts.get? key = some alert) : (m.acknowledge now key alert).Keyed := by
  intro key' alert' hget'
  rw [acknowledge_activeAlerts, Js.Map.get?_set] at hget'
  split at hget'
  next hkey =>
    obtain rfl := Option.some.inj hget'
    rw [hkey]
    exact hkeyed key alert hget
  next => exact hkeyed key' alert' hget'

lemma Keyed.step (hkeyed : m.Keyed) (i : Timestamp × AlertCall) : (m.step numeral i).Keyed := by
  refine step_of_turn ?_ ?_ ?_ hkeyed
  · intro m m' hquiet hm key alert hget
    exact hm key alert (hquiet.1 ▸ hget)
  · intro m key alert hget hm
    exact hm.acknowledge hget
  · intro m rule m' hturn hm
    exact hm.turn hturn

lemma keyed_new (collector : MetricsCollector) (maxHistory : ℕ) :
    (new collector maxHistory).Keyed := by
  intro key alert hget
  cases hget

lemma keyed_run (numeral : Double → String) (collector : MetricsCollector) (maxHistory : ℕ)
    (inputs : List (Timestamp × AlertCall)) :
    (Machine.run (step numeral) (new collector maxHistory) inputs).Keyed :=
  Machine.always (fun m i (h : m.Keyed) => h.step i) inputs (keyed_new collector maxHistory)

/-- The id of an active alert is longer than the key it is kept under. -/
lemma Keyed.id_ne (hkeyed : m.Keyed) {key : String} {alert : Alert}
    (hget : m.activeAlerts.get? key = some alert) : alert.id ≠ key := by
  obtain ⟨-, t, hid⟩ := hkeyed key alert hget
  intro heq
  have hlength := congrArg String.length (hid.symm.trans heq)
  simp only [String.length_append] at hlength
  have hdash : "alert-".length = 6 := by decide
  omega

/-- `acknowledgeAlert` with an id returns `true` and marks the alert under the key and no other. -/
def Acknowledges (now : Timestamp) (m : AlertManager) (alertId key : String) (alert : Alert) :
    Prop :=
  (m.acknowledgeAlert now alertId).1 = true ∧
    (m.acknowledgeAlert now alertId).2.activeAlerts =
      m.activeAlerts.set key (alert.acknowledge now) ∧
    (m.acknowledgeAlert now alertId).2.events =
      m.events ++ [.acknowledged (alert.acknowledge now)]

lemma Keyed.not_acknowledges (hkeyed : m.Keyed) {key : String} {alert : Alert}
    (hget : m.activeAlerts.get? key = some alert) : ¬ Acknowledges now m alert.id key alert := by
  rintro ⟨htrue, -, hevents⟩
  unfold acknowledgeAlert at htrue hevents
  cases hfound : m.activeAlerts.get? alert.id with
  | none => simp [hfound] at htrue
  | some other =>
    simp only [hfound, acknowledge_events] at hevents
    have hmarked : other.acknowledge now = alert.acknowledge now := by
      simpa using List.append_cancel_left hevents
    have hrule : (other.acknowledge now).ruleId = (alert.acknowledge now).ruleId := by
      rw [hmarked]
    rw [acknowledge_ruleId, acknowledge_ruleId, (hkeyed _ _ hfound).1, (hkeyed _ _ hget).1] at hrule
    exact hkeyed.id_ne hget hrule

/-- **No alert is acknowledged through its id.** -/
theorem not_acknowledged (numeral : Double → String) (collector : MetricsCollector)
    (maxHistory : ℕ) (inputs : List (Timestamp × AlertCall)) (now : Timestamp) {key : String}
    {alert : Alert} (hget : (Machine.run (step numeral) (new collector maxHistory)
      inputs).activeAlerts.get? key = some alert) :
    ¬ Acknowledges now (Machine.run (step numeral) (new collector maxHistory) inputs) alert.id key
      alert :=
  (keyed_run numeral collector maxHistory inputs).not_acknowledges hget

/-- A rule of the server. -/
def noConnections : AlertRule where
  id := "no_connections"
  name := "No Active Connections"
  metric := "sync_active_connections"
  condition := .eq
  threshold := .finite 0
  severity := .info
  cooldownMs := .finite 60000
  message := "No active WebSocket connections"

/-- A server without connections evaluates its rules. -/
def firstAlert : List (Timestamp × AlertCall) :=
  [(1, .addRule noConnections), (60000, .evaluateRules)]

/-- The alert that is fired. -/
def firedAlert : Alert where
  id := "alert-no_connections-60000"
  ruleId := "no_connections"
  name := "No Active Connections"
  severity := .info
  status := .active
  message := "No active WebSocket connections"
  value := .finite 0
  threshold := .finite 0
  firedAt := 60000
  resolvedAt := none
  acknowledgedAt := none

lemma get?_firstAlert : (Machine.run (step fun _ => "0") (new (.new .byCodePoint) 1000)
    firstAlert).activeAlerts.get? "no_connections" = some firedAlert := by
  decide +kernel

theorem not_acknowledged_noConnections :
    ¬ Acknowledges 70000 (Machine.run (step fun _ => "0") (new (.new .byCodePoint) 1000) firstAlert)
      firedAlert.id "no_connections" firedAlert :=
  not_acknowledged _ _ _ firstAlert 70000 get?_firstAlert

/-- The server's own alert is not acknowledged through its id. -/
theorem id_not_found : ¬ ∀ (numeral : Double → String) (collector : MetricsCollector)
    (maxHistory : ℕ) (inputs : List (Timestamp × AlertCall)) (now : Timestamp) (key : String)
    (alert : Alert),
    (Machine.run (step numeral) (new collector maxHistory) inputs).activeAlerts.get? key =
      some alert →
    Acknowledges now (Machine.run (step numeral) (new collector maxHistory) inputs) alert.id key
      alert := by
  intro h
  have hfound := (h _ _ _ firstAlert 70000 _ _ get?_firstAlert).1
  exact absurd hfound (by decide +kernel)

end SyncEngine.AlertManager
