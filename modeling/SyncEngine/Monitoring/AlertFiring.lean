import SyncEngine.Monitoring.AlertTurns

/-!
# When alerts fire

Of each rule id, the record of a run reads: fired, resolved, fired, and so on, and it ends with the
former exactly while there is an alert under that id (`Alternates`).  A rule fires only when its
cooldown has passed since the id last fired, and `lastFired` is never before any of the alerts of
that id (`Cooled`).  Every step keeps both, so every run has them (`fires_in_turn`).
-/

namespace SyncEngine.AlertManager

open Js

variable {numeral : Double → String} {now : Timestamp} {m m' : AlertManager} {rule : AlertRule}

/-- What an event says about the alert of a rule id: it has come, or it has gone. -/
def turnOf (ruleId : String) : AlertEvent → Option Bool
  | .fired _ alert => if alert.ruleId = ruleId then some true else none
  | .resolved alert => if alert.ruleId = ruleId then some false else none
  | .acknowledged _ => none

/-- The fired (`true`) and resolved (`false`) events of a rule id. -/
def turnsOf (ruleId : String) (events : List AlertEvent) : List Bool :=
  events.filterMap (turnOf ruleId)

/-- Events come in turn, starting with a fired one. -/
def InTurn (turns : List Bool) : Prop := (false :: turns).IsChain (· ≠ ·)

/-- Where both fire the same rule id, the later comes behind the cooldown of its rule, if that is a
number. -/
def Apart : AlertEvent → AlertEvent → Prop
  | .fired _ earlier, .fired rule later =>
    earlier.ruleId = later.ruleId → rule.cooldownMs ≠ .nan →
      rule.cooldownMs.le (.finite (later.firedAt - earlier.firedAt)) = true
  | _, _ => True

/-- The events of every rule id come in turn, and the last is a fired one while it has an alert. -/
def Alternates (m : AlertManager) : Prop :=
  ∀ ruleId, InTurn (turnsOf ruleId m.events) ∧
    (false :: turnsOf ruleId m.events).getLast? = some (m.activeAlerts.has ruleId)

/-- Firings are apart, and none is behind what `lastFired` has for its rule id. -/
structure Cooled (now : Timestamp) (m : AlertManager) : Prop where
  apart : m.events.Pairwise Apart
  lastFired : ∀ rule alert, .fired rule alert ∈ m.events →
    alert.firedAt ≤ (m.lastFired.get? alert.ruleId).getD 0
  past : ∀ ruleId t, m.lastFired.get? ruleId = some t → t ≤ now

/-! ## One event more -/

lemma InTurn.concat {turns : List Bool} {b : Bool} (h : InTurn turns)
    (hlast : (false :: turns).getLast? = some !b) : InTurn (turns ++ [b]) := by
  unfold InTurn
  rw [← List.cons_append, List.isChain_append]
  refine ⟨h, List.isChain_singleton b, fun x hx y hy => ?_⟩
  rw [hlast] at hx
  obtain rfl := Option.some.inj hx
  obtain rfl := Option.some.inj hy
  cases b <;> decide

/-- An event of one rule id, which is the next in turn. -/
lemma Alternates.concat (h : m.Alternates) {event : AlertEvent} (id : String) (b : Bool)
    (hevents : m'.events = m.events ++ [event])
    (hturn : ∀ ruleId, turnOf ruleId event = if id = ruleId then some b else none)
    (hbefore : m.activeAlerts.has id = !b)
    (hhas : ∀ ruleId, m'.activeAlerts.has ruleId =
      if ruleId = id then b else m.activeAlerts.has ruleId) : m'.Alternates := by
  intro ruleId
  obtain ⟨hinturn, hlast⟩ := h ruleId
  unfold turnsOf at *
  rw [hevents, hhas, List.filterMap_append, List.filterMap_cons, hturn, List.filterMap_nil]
  by_cases hid : id = ruleId
  · subst hid
    rw [hbefore] at hlast
    simp only [if_true]
    refine ⟨hinturn.concat hlast, ?_⟩
    rw [← List.cons_append, List.getLast?_concat]
  · simp only [if_neg hid, if_neg (Ne.symm hid), List.append_nil]
    exact ⟨hinturn, hlast⟩

/-- An event that is no firing. -/
lemma Cooled.concat (h : m.Cooled now) {event : AlertEvent}
    (hevents : m'.events = m.events ++ [event]) (hlast : m'.lastFired = m.lastFired)
    (hnot : ∀ rule alert, event ≠ .fired rule alert) : m'.Cooled now where
  apart := by
    rw [hevents, List.pairwise_append]
    refine ⟨h.apart, List.pairwise_singleton _ _, fun earlier _ later hlater => ?_⟩
    obtain rfl := List.mem_singleton.1 hlater
    cases later with
    | fired rule alert => exact absurd rfl (hnot rule alert)
    | resolved => cases earlier <;> trivial
    | acknowledged => cases earlier <;> trivial
  lastFired := by
    intro rule alert hmem
    rw [hevents, List.mem_append, List.mem_singleton] at hmem
    rw [hlast]
    exact h.lastFired rule alert (hmem.resolve_right fun heq => hnot rule alert heq.symm)
  past := by
    rw [hlast]
    exact h.past

lemma Cooled.last_le (h : m.Cooled now) (ruleId : String) :
    (m.lastFired.get? ruleId).getD 0 ≤ now := by
  cases hget : m.lastFired.get? ruleId with
  | none => exact Nat.zero_le _
  | some t => exact h.past ruleId t hget

/-- An alert that fires behind the cooldown of its rule. -/
lemma Cooled.fire (h : m.Cooled now) (value : Double)
    (hcool : (Double.finite (now - (m.lastFired.get? rule.id).getD 0)).lt rule.cooldownMs = false) :
    (m.fire numeral now rule value).Cooled now where
  apart := by
    rw [fire_events, List.pairwise_append]
    refine ⟨h.apart, List.pairwise_singleton _ _, fun earlier hearlier later hlater => ?_⟩
    obtain rfl := List.mem_singleton.1 hlater
    cases earlier with
    | fired before alert =>
      intro hsame hnan
      have hlast : alert.firedAt ≤ (m.lastFired.get? rule.id).getD 0 := by
        rw [show rule.id = alert.ruleId from hsame.symm]
        exact h.lastFired before alert hearlier
      have hlast' : (alert.firedAt : ℚ) ≤ (m.lastFired.get? rule.id).getD 0 := by
        exact_mod_cast hlast
      have hle := Double.le_of_not_lt (Double.finite_ne_nan _) hnan hcool
      exact Double.le_finite_mono hle (sub_le_sub_left hlast' _)
    | resolved => trivial
    | acknowledged => trivial
  lastFired := by
    intro before alert hmem
    rw [fire_events, List.mem_append, List.mem_singleton] at hmem
    rw [fire_lastFired, Js.Map.get?_set]
    obtain hmem | heq := hmem
    · have hold := h.lastFired before alert hmem
      split
      next => exact hold.trans (h.last_le _)
      next => exact hold
    · obtain ⟨-, rfl⟩ := AlertEvent.fired.inj heq
      rw [alertOf_ruleId, if_pos rfl]
      exact le_rfl
  past := by
    intro ruleId t hget
    rw [fire_lastFired, Js.Map.get?_set] at hget
    split at hget
    next => exact (Option.some.inj hget).ge
    next => exact h.past ruleId t hget

/-! ## Runs -/

/-- What holds in every reachable state. -/
structure Disciplined (now : Timestamp) (m : AlertManager) : Prop where
  keyed : m.Keyed
  alternates : m.Alternates
  cooled : m.Cooled now

lemma Disciplined.later (h : m.Disciplined now) {t : Timestamp} (ht : now ≤ t) :
    m.Disciplined t where
  keyed := h.keyed
  alternates := h.alternates
  cooled := ⟨h.cooled.apart, h.cooled.lastFired, fun ruleId t' hget =>
    (h.cooled.past ruleId t' hget).trans ht⟩

lemma Alternates.turn (h : m.Alternates) (hkeyed : m.Keyed) (hturn : Turn numeral now m rule m') :
    m'.Alternates := by
  cases hturn with
  | quiet => exact h
  | fires _ _ habsent =>
    apply h.concat rule.id true (fire_events _ _ _ _ _) (fun ruleId => rfl)
    · rw [Js.Map.has, habsent]
      rfl
    · intro ruleId
      rw [fire_activeAlerts, Js.Map.has_set]
  | resolves _ existing hget hstatus =>
    have hrule := (hkeyed _ _ hget).1
    apply h.concat rule.id false (resolve_events _ _ _ _)
    · intro ruleId
      rw [turnOf, resolve_ruleId, hrule]
    · rw [Js.Map.has, hget]
      rfl
    · intro ruleId
      rw [resolve_activeAlerts, Js.Map.has_delete]

lemma Cooled.turn (h : m.Cooled now) (hturn : Turn numeral now m rule m') : m'.Cooled now := by
  cases hturn with
  | quiet => exact h
  | fires _ hcool => exact h.fire _ hcool
  | resolves =>
    exact h.concat (resolve_events _ _ _ _) (resolve_lastFired _ _ _ _) fun _ _ => nofun

lemma Alternates.acknowledge (h : m.Alternates) {key : String} {alert : Alert}
    (hget : m.activeAlerts.get? key = some alert) : (m.acknowledge now key alert).Alternates := by
  intro ruleId
  obtain ⟨hinturn, hlast⟩ := h ruleId
  have hturns : turnsOf ruleId (m.acknowledge now key alert).events = turnsOf ruleId m.events := by
    rw [acknowledge_events, turnsOf, List.filterMap_append]
    exact List.append_nil _
  have hhas : (m.acknowledge now key alert).activeAlerts.has ruleId =
      m.activeAlerts.has ruleId := by
    rw [acknowledge_activeAlerts, Js.Map.has_set]
    split
    next hkey =>
      rw [hkey, Js.Map.has, hget]
      rfl
    next => rfl
  rw [hturns, hhas]
  exact ⟨hinturn, hlast⟩

lemma Disciplined.step (h : m.Disciplined now) (call : AlertCall) :
    (m.step numeral (now, call)).Disciplined now := by
  refine step_of_turn ?_ ?_ ?_ h
  · rintro m m' ⟨hactive, hlast, hevents⟩ h
    refine ⟨?_, ?_, ?_, ?_, ?_⟩
    · unfold Keyed
      rw [hactive]
      exact h.keyed
    · unfold Alternates
      rw [hactive, hevents]
      exact h.alternates
    · rw [hevents]
      exact h.cooled.apart
    · rw [hevents, hlast]
      exact h.cooled.lastFired
    · rw [hlast]
      exact h.cooled.past
  · intro m key alert hget h
    refine ⟨h.keyed.acknowledge hget, h.alternates.acknowledge hget, ?_⟩
    exact h.cooled.concat (acknowledge_events _ _ _ _) (acknowledge_lastFired _ _ _ _)
      fun _ _ => nofun
  · intro m rule m' hturn h
    exact ⟨h.keyed.turn hturn, h.alternates.turn h.keyed hturn, h.cooled.turn hturn⟩

lemma disciplined_new (collector : MetricsCollector) (maxHistory : ℕ) :
    (new collector maxHistory).Disciplined 0 := by
  refine ⟨keyed_new collector maxHistory, fun ruleId => ⟨List.isChain_singleton _, rfl⟩, ?_, ?_, ?_⟩
  · exact List.Pairwise.nil
  · intro rule alert hmem
    exact absurd hmem List.not_mem_nil
  · intro ruleId t hget
    cases hget

/-- **Alerts fire in turn and apart.**  In every run in the order of time, the fired and resolved
events of each rule id alternate, starting with a fired one, and of two fired events of one id the
later comes at least the cooldown of its rule behind the earlier. -/
theorem fires_in_turn (numeral : Double → String) (collector : MetricsCollector) (maxHistory : ℕ)
    {inputs : List (Timestamp × AlertCall)} (horder : Machine.InOrder inputs) :
    (∀ ruleId, InTurn (turnsOf ruleId
      (Machine.run (step numeral) (new collector maxHistory) inputs).events)) ∧
    (Machine.run (step numeral) (new collector maxHistory) inputs).events.Pairwise Apart := by
  obtain ⟨now, hnow⟩ : ∃ now, ∀ i ∈ inputs, i.1 ≤ now :=
    ⟨(inputs.map Prod.fst).sum, fun i hi => List.le_sum_of_mem (List.mem_map_of_mem hi)⟩
  have h : (Machine.run (step numeral) (new collector maxHistory) inputs).Disciplined now :=
    Machine.invariant_at (fun t t' m ht (hm : m.Disciplined t) => hm.later ht)
      (fun m i hm _ => hm.step i.2) (disciplined_new collector maxHistory) horder
      (fun _ _ => Nat.zero_le _) hnow (Nat.zero_le _) (Machine.along_true _ _)
  exact ⟨fun ruleId => (h.alternates ruleId).1, h.cooled.apart⟩

/-- The first player connects and leaves again. -/
def flapping : List (Timestamp × AlertCall) :=
  firstAlert ++ [(61000, .metrics ((MetricsCollector.new .byCodePoint).setGauge
      "sync_active_connections" (.finite 1) .empty)), (70000, .evaluateRules),
    (71000, .metrics (.new .byCodePoint)), (80000, .evaluateRules), (120000, .evaluateRules)]

theorem fires_in_turn_flapping :
    (∀ ruleId, InTurn (turnsOf ruleId
      (Machine.run (step fun _ => "0") (new (.new .byCodePoint) 1000) flapping).events)) ∧
    (Machine.run (step fun _ => "0") (new (.new .byCodePoint) 1000)
      flapping).events.Pairwise Apart :=
  fires_in_turn _ _ _ (by decide)

end SyncEngine.AlertManager
