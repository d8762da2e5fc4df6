import SyncEngine.Core.Types
import SyncEngine.Machine.Clock
import SyncEngine.Monitoring.MetricsCollector

/-!
# The alert manager

`src/monitoring/alerting.ts`.  The gauges that the rules look at are written by other code, so the
metrics collector may be in another state at any step.  `String(value)` is the parameter `numeral`.
The history holds copies of the alerts, and what is emitted is an alert as it is then; nothing that
listens to these events touches the manager.

`events` is a record for the specification: what was emitted on the event bus, with the rule that
fired.
-/

namespace SyncEngine

open Js

inductive AlertSeverity
  | info
  | warning
  | critical
  deriving DecidableEq

inductive AlertStatus
  | active
  | resolved
  | acknowledged
  deriving DecidableEq

/-- The field `condition` of a rule; `other` is whatever is not one of the five names. -/
inductive AlertCondition
  | gt
  | lt
  | eq
  | gte
  | lte
  | other
  deriving DecidableEq

structure AlertRule where
  id : String
  name : String
  metric : String
  condition : AlertCondition
  threshold : Double
  severity : AlertSeverity
  cooldownMs : Double
  message : String
  deriving DecidableEq

structure Alert where
  id : String
  ruleId : String
  name : String
  severity : AlertSeverity
  status : AlertStatus
  message : String
  value : Double
  threshold : Double
  firedAt : Timestamp
  resolvedAt : Option Timestamp
  acknowledgedAt : Option Timestamp
  deriving DecidableEq

/-- What `acknowledgeAlert` writes to an alert. -/
def Alert.acknowledge (now : Timestamp) (alert : Alert) : Alert :=
  { alert with status := .acknowledged, acknowledgedAt := some now }

/-- What `evaluateRules` writes to an alert whose condition does not hold any more. -/
def Alert.resolve (now : Timestamp) (alert : Alert) : Alert :=
  { alert with status := .resolved, resolvedAt := some now }

inductive AlertEvent
  | fired (rule : AlertRule) (alert : Alert)
  | resolved (alert : Alert)
  | acknowledged (alert : Alert)
  deriving DecidableEq

/-- `text.replace(pattern, replacement)`: the first occurrence, for a replacement without `$`. -/
def replaceFirst (pattern replacement : List Char) : List Char → List Char
  | [] => if pattern = [] then replacement else []
  | c :: text =>
    if pattern.isPrefixOf (c :: text) then replacement ++ (c :: text).drop pattern.length
    else c :: replaceFirst pattern replacement text

structure AlertManager where
  rules : List AlertRule
  activeAlerts : Js.Map String Alert
  alertHistory : List Alert
  lastFired : Js.Map String Timestamp
  metricsCollector : MetricsCollector
  maxHistory : ℕ
  events : List AlertEvent

inductive AlertCall
  | addRule (rule : AlertRule)
  | removeRule (ruleId : String)
  | acknowledgeAlert (alertId : String)
  | evaluateRules
  /-- Other code has written to the metrics collector. -/
  | metrics (collector : MetricsCollector)

namespace AlertManager

/-- `new AlertManager(metricsCollector, checkIntervalMs, maxHistory)`. -/
def new (metricsCollector : MetricsCollector) (maxHistory : ℕ) : AlertManager :=
  ⟨[], .empty, [], .empty, metricsCollector, maxHistory, []⟩

def addRule (m : AlertManager) (rule : AlertRule) : AlertManager :=
  { m with rules := m.rules ++ [rule] }

/-- `removeRule`: whether there was such a rule, and the manager. -/
def removeRule (m : AlertManager) (ruleId : String) : Bool × AlertManager :=
  match m.rules.findIdx? fun r => r.id = ruleId with
  | none => (false, m)
  | some idx => (true, { m with rules := m.rules.eraseIdx idx })

def emit (m : AlertManager) (event : AlertEvent) : AlertManager :=
  { m with events := m.events ++ [event] }

/-- `acknowledgeAlert` where there is an alert under the key. -/
def acknowledge (now : Timestamp) (m : AlertManager) (key : String) (alert : Alert) :
    AlertManager :=
  { m with activeAlerts := m.activeAlerts.set key (alert.acknowledge now) }.emit
    (.acknowledged (alert.acknowledge now))

/-- `acknowledgeAlert`: whether there was such an alert, and the manager. -/
def acknowledgeAlert (now : Timestamp) (m : AlertManager) (alertId : String) :
    Bool × AlertManager :=
  match m.activeAlerts.get? alertId with
  | none => (false, m)
  | some alert => (true, m.acknowledge now alertId alert)

def getActiveAlerts (m : AlertManager) : List Alert := m.activeAlerts.values

def evaluateCondition (value : Double) (condition : AlertCondition) (threshold : Double) : Bool :=
  match condition with
  | .gt => threshold.lt value
  | .lt => value.lt threshold
  | .eq => value.eq threshold
  | .gte => threshold.le value
  | .lte => value.le threshold
  | .other => false

def addToHistory (m : AlertManager) (alert : Alert) : AlertManager :=
  let history := m.alertHistory ++ [alert]
  { m with alertHistory := if history.length > m.maxHistory then history.tail else history }

/-- The alert that a rule fires. -/
def alertOf (numeral : Double → String) (now : Timestamp) (rule : AlertRule) (value : Double) :
    Alert where
  id := "alert-" ++ rule.id ++ "-" ++ toString now
  ruleId := rule.id
  name := rule.name
  severity := rule.severity
  status := .active
  message := String.ofList
    (replaceFirst "\x7bthreshold\x7d".toList (numeral rule.threshold).toList
      (replaceFirst "\x7bvalue\x7d".toList (numeral value).toList rule.message.toList))
  value := value
  threshold := rule.threshold
  firedAt := now
  resolvedAt := none
  acknowledgedAt := none

def fire (numeral : Double → String) (now : Timestamp) (m : AlertManager) (rule : AlertRule)
    (value : Double) : AlertManager :=
  let alert := alertOf numeral now rule value
  ({ m with
    activeAlerts := m.activeAlerts.set rule.id alert
    lastFired := m.lastFired.set rule.id now }.addToHistory alert).emit (.fired rule alert)

def resolve (now : Timestamp) (m : AlertManager) (rule : AlertRule) (existing : Alert) :
    AlertManager :=
  let existing := existing.resolve now
  ({ m with activeAlerts := m.activeAlerts.delete rule.id }.addToHistory existing).emit
    (.resolved existing)

/-- One turn of the loop of `evaluateRules`. -/
def evaluateRule (numeral : Double → String) (now : Timestamp) (m : AlertManager)
    (rule : AlertRule) : AlertManager :=
  let value := m.metricsCollector.getGauge rule.metric .empty
  if evaluateCondition value rule.condition rule.threshold then
    let lastFiredAt := (m.lastFired.get? rule.id).getD 0
    if (Double.finite (now - lastFiredAt)).lt rule.cooldownMs then m
    else if m.activeAlerts.has rule.id then m
    else m.fire numeral now rule value
  else
    match m.activeAlerts.get? rule.id with
    | some existing => if existing.status = .active then m.resolve now rule existing else m
    | none => m

def evaluateRules (numeral : Double → String) (now : Timestamp) (m : AlertManager) :
    AlertManager :=
  m.rules.foldl (evaluateRule numeral now) m

def step (numeral : Double → String) (m : AlertManager) : Timestamp × AlertCall → AlertManager
  | (_, .addRule rule) => m.addRule rule
  | (_, .removeRule ruleId) => (m.removeRule ruleId).2
  | (now, .acknowledgeAlert alertId) => (m.acknowledgeAlert now alertId).2
  | (now, .evaluateRules) => m.evaluateRules numeral now
  | (_, .metrics collector) => { m with metricsCollector := collector }

/-! ## What the operations write -/

section Fields

variable (numeral : Double → String) (now : Timestamp) (m : AlertManager) (rule : AlertRule)
  (value : Double) (key : String) (alert : Alert)

@[simp] lemma fire_activeAlerts : (m.fire numeral now rule value).activeAlerts =
    m.activeAlerts.set rule.id (alertOf numeral now rule value) := rfl

@[simp] lemma fire_lastFired :
    (m.fire numeral now rule value).lastFired = m.lastFired.set rule.id now := rfl

@[simp] lemma fire_events : (m.fire numeral now rule value).events =
    m.events ++ [.fired rule (alertOf numeral now rule value)] := rfl

@[simp] lemma resolve_activeAlerts :
    (m.resolve now rule alert).activeAlerts = m.activeAlerts.delete rule.id := rfl

@[simp] lemma resolve_lastFired : (m.resolve now rule alert).lastFired = m.lastFired := rfl

@[simp] lemma resolve_events :
    (m.resolve now rule alert).events = m.events ++ [.resolved (alert.resolve now)] := rfl

@[simp] lemma acknowledge_activeAlerts : (m.acknowledge now key alert).activeAlerts =
    m.activeAlerts.set key (alert.acknowledge now) := rfl

@[simp] lemma acknowledge_lastFired : (m.acknowledge now key alert).lastFired = m.lastFired := rfl

@[simp] lemma acknowledge_events : (m.acknowledge now key alert).events =
    m.events ++ [.acknowledged (alert.acknowledge now)] := rfl

@[simp] lemma alertOf_ruleId : (alertOf numeral now rule value).ruleId = rule.id := rfl

@[simp] lemma resolve_ruleId : (alert.resolve now).ruleId = alert.ruleId := rfl

@[simp] lemma acknowledge_ruleId : (alert.acknowledge now).ruleId = alert.ruleId := rfl

end Fields

end AlertManager

end SyncEngine
