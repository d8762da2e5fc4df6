import SyncEngine.Monitoring.AlertTurns

/-!
# Which alerts are active

Right behind an evaluation, an active alert is to have a rule whose condition holds (`Reflects`).

For an id of which no rule holds, an evaluation does one thing: if there is a rule with that id, it
takes away the alert, unless that is acknowledged (`get?_evaluateRules`).  So the alerts reflect the
metrics afterwards exactly if before it none whose condition has cleared was acknowledged, or had
lost its rule (`reflects_evaluateRules`).
-/

namespace SyncEngine.AlertManager

open Js

variable {numeral : Double → String} {now : Timestamp} {m m' : AlertManager} {rule : AlertRule}
  {id : String}

/-- Some rule with the id holds. -/
def Raised (m : AlertManager) (id : String) : Prop := ∃ rule ∈ m.rules, rule.id = id ∧ m.Holds rule

instance (m : AlertManager) : DecidablePred m.Raised := fun id => by
  unfold Raised
  infer_instance

/-- Every active alert has a rule whose condition holds. -/
def Reflects (m : AlertManager) : Prop := ∀ alert ∈ m.getActiveAlerts, m.Raised alert.ruleId

/-- Every active alert either has a rule whose condition holds, or is not acknowledged and has a
rule. -/
def Clearable (m : AlertManager) : Prop :=
  ∀ alert ∈ m.getActiveAlerts, m.Raised alert.ruleId ∨
    alert.status = .active ∧ ∃ rule ∈ m.rules, rule.id = alert.ruleId

lemma Turn.holds_iff (h : Turn numeral now m rule m') (r : AlertRule) : m'.Holds r ↔ m.Holds r := by
  unfold Holds
  rw [h.metricsCollector]

/-- A turn touches the alert of its rule only. -/
lemma Turn.get?_of_ne (h : Turn numeral now m rule m') (hne : rule.id ≠ id) :
    m'.activeAlerts.get? id = m.activeAlerts.get? id := by
  cases h with
  | quiet => rfl
  | fires =>
    rw [fire_activeAlerts, Js.Map.get?_set, if_neg (Ne.symm hne)]
  | resolves =>
    rw [resolve_activeAlerts, Js.Map.get?_delete, if_neg (Ne.symm hne)]

/-- What an evaluation keeps of an alert whose condition does not hold. -/
def standing (alert : Option Alert) : Option Alert := alert.filter fun a => a.status ≠ .active

lemma standing_of_active {alert : Alert} (h : alert.status = .active) :
    standing (some alert) = none := by
  rw [standing, Option.filter_some, h]
  rfl

lemma standing_of_ne {alert : Alert} (h : alert.status ≠ .active) :
    standing (some alert) = some alert := by
  rw [standing, Option.filter_some, if_pos (decide_eq_true h)]

lemma standing_standing (alert : Option Alert) : standing (standing alert) = standing alert := by
  rw [standing, standing, Option.filter_filter]
  simp

/-- Where its rule does not hold, a turn takes an alert away that is not acknowledged. -/
lemma Turn.get?_of_not_holds (h : Turn numeral now m rule m') (hclear : ¬ m.Holds rule) :
    m'.activeAlerts.get? rule.id = standing (m.activeAlerts.get? rule.id) := by
  cases h with
  | quiet h =>
    have hstatus := h.resolve_left hclear
    cases hget : m.activeAlerts.get? rule.id with
    | none => rfl
    | some alert => exact (standing_of_ne (hstatus alert hget)).symm
  | fires hholds => exact absurd hholds hclear
  | resolves _ existing hget hstatus =>
    rw [hget, standing_of_active hstatus, resolve_activeAlerts, Js.Map.get?_delete, if_pos rfl]

/-- A loop over rules of which none with the id holds. -/
lemma get?_foldl {rules : List AlertRule} (hclear : ∀ rule ∈ rules, rule.id = id → ¬ m.Holds rule) :
    (rules.foldl (evaluateRule numeral now) m).activeAlerts.get? id =
      if ∃ rule ∈ rules, rule.id = id then standing (m.activeAlerts.get? id)
      else m.activeAlerts.get? id := by
  induction rules generalizing m with
  | nil => simp
  | cons rule rules ih =>
    have hturn := turn_evaluateRule numeral now m rule
    rw [List.foldl_cons, ih fun r hr hid => by
      rw [hturn.holds_iff]
      exact hclear r (List.mem_cons_of_mem _ hr) hid]
    by_cases hid : rule.id = id
    · subst hid
      rw [hturn.get?_of_not_holds (hclear rule List.mem_cons_self rfl), standing_standing, ite_self,
        if_pos ⟨rule, List.mem_cons_self, rfl⟩]
    · rw [hturn.get?_of_ne hid]
      simp [hid]

lemma evaluateRules_rules (numeral : Double → String) (now : Timestamp) (m : AlertManager) :
    (m.evaluateRules numeral now).rules = m.rules :=
  evaluateRules_of_turn (fun m' => m'.rules = m.rules) (fun _ _ _ h hm => h.rules.trans hm) rfl

lemma evaluateRules_metricsCollector (numeral : Double → String) (now : Timestamp)
    (m : AlertManager) : (m.evaluateRules numeral now).metricsCollector = m.metricsCollector :=
  evaluateRules_of_turn (fun m' => m'.metricsCollector = m.metricsCollector)
    (fun _ _ _ h hm => h.metricsCollector.trans hm) rfl

lemma raised_evaluateRules (id : String) :
    (m.evaluateRules numeral now).Raised id ↔ m.Raised id := by
  unfold Raised Holds
  rw [evaluateRules_rules, evaluateRules_metricsCollector]

/-- What an evaluation does to the alert of an id of which no rule holds. -/
lemma get?_evaluateRules (hclear : ¬ m.Raised id) :
    (m.evaluateRules numeral now).activeAlerts.get? id =
      if ∃ rule ∈ m.rules, rule.id = id then standing (m.activeAlerts.get? id)
      else m.activeAlerts.get? id :=
  get?_foldl fun rule hrule hid hholds => hclear ⟨rule, hrule, hid, hholds⟩

/-- Under its key, an alert is active. -/
lemma Keyed.mem_getActiveAlerts (hkeyed : m.Keyed) {alert : Alert} :
    alert ∈ m.getActiveAlerts ↔ m.activeAlerts.get? alert.ruleId = some alert := by
  rw [getActiveAlerts, Js.Map.mem_values_iff]
  constructor
  · rintro ⟨key, hget⟩
    rw [(hkeyed key alert hget).1]
    exact hget
  · exact fun hget => ⟨_, hget⟩

/-- An evaluation makes the alerts reflect the metrics exactly where they can be cleared. -/
lemma reflects_evaluateRules (hkeyed : m.Keyed) :
    (m.evaluateRules numeral now).Reflects ↔ m.Clearable := by
  have hkeyed' : (m.evaluateRules numeral now).Keyed :=
    evaluateRules_of_turn Keyed (fun _ _ _ hturn hm => hm.turn hturn) hkeyed
  constructor
  · intro h alert halert
    by_contra hstays
    obtain ⟨hclear, hkept⟩ := not_or.1 hstays
    rw [hkeyed.mem_getActiveAlerts] at halert
    have hget : (m.evaluateRules numeral now).activeAlerts.get? alert.ruleId = some alert := by
      rw [get?_evaluateRules hclear, halert]
      split
      next hrule => exact standing_of_ne fun hstatus => hkept ⟨hstatus, hrule⟩
      next => rfl
    exact hclear ((raised_evaluateRules _).1 (h alert (hkeyed'.mem_getActiveAlerts.2 hget)))
  · intro h alert halert
    rw [raised_evaluateRules]
    by_contra hclear
    rw [hkeyed'.mem_getActiveAlerts, get?_evaluateRules hclear] at halert
    have hcleared := fun hget => (h alert (hkeyed.mem_getActiveAlerts.2 hget)).resolve_left hclear
    split at halert
    next =>
      obtain ⟨hget, hstatus⟩ := Option.filter_eq_some_iff.1 halert
      simp [(hcleared hget).1] at hstatus
    next hnone => exact hnone (hcleared halert).2

/-- **Active alerts reflect the metrics.**  Behind every evaluation of a run every active alert has
a rule whose condition holds, exactly in the runs in which no evaluation finds an alert whose
condition has cleared and that is acknowledged or has lost its rule. -/
theorem reflects_iff_along (numeral : Double → String) (collector : MetricsCollector)
    (maxHistory : ℕ) (inputs : List (Timestamp × AlertCall)) :
    (∀ before now, before ++ [(now, .evaluateRules)] <+: inputs →
      (Machine.run (step numeral) (new collector maxHistory)
        (before ++ [(now, .evaluateRules)])).Reflects) ↔
    Machine.Along (step numeral) (fun m i => i.2 = .evaluateRules → m.Clearable)
      (new collector maxHistory) inputs := by
  rw [Machine.along_iff_forall]
  have hstep : ∀ before now, (Machine.run (step numeral) (new collector maxHistory)
      (before ++ [(now, .evaluateRules)])).Reflects ↔
      (Machine.run (step numeral) (new collector maxHistory) before).Clearable := by
    intro before now
    rw [Machine.run_append, Machine.run_cons, Machine.run_nil]
    exact reflects_evaluateRules (keyed_run numeral collector maxHistory before)
  constructor
  · rintro h before ⟨now, call⟩ hbefore rfl
    exact (hstep before now).1 (h before now hbefore)
  · intro h before now hbefore
    exact (hstep before now).2 (h before (now, .evaluateRules) hbefore rfl)

/-- An alert is acknowledged, and then players connect. -/
def acknowledgedAlert : List (Timestamp × AlertCall) :=
  firstAlert ++ [(61000, .acknowledgeAlert "no_connections"),
    (62000, .metrics ((MetricsCollector.new .byCodePoint).setGauge "sync_active_connections"
      (.finite 1) .empty))]

theorem acknowledged_stays : ¬ ∀ (numeral : Double → String) (collector : MetricsCollector)
    (maxHistory : ℕ) (inputs : List (Timestamp × AlertCall)), Machine.InOrder inputs →
    ∀ before now, before ++ [(now, .evaluateRules)] <+: inputs →
      (Machine.run (step numeral) (new collector maxHistory)
        (before ++ [(now, .evaluateRules)])).Reflects := by
  intro h
  have hreflects := h (fun _ => "0") (.new .byCodePoint) 1000
    (acknowledgedAlert ++ [(70000, .evaluateRules)]) (by decide) _ 70000 (List.prefix_refl _)
  have hmem := hreflects (firedAlert.acknowledge 61000) (by decide +kernel)
  exact absurd hmem (by decide +kernel)

end SyncEngine.AlertManager
