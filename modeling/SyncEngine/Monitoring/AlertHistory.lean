import SyncEngine.Machine.Recent
import SyncEngine.Monitoring.AlertTurns

/-!
# The history of the alerts

`getAlertHistory` and `getStats` of `src/monitoring/alerting.ts`, compared with everything that the
manager emitted.  Every alert is in the history as it was when it fired and when it was resolved; an
acknowledgement is not kept.  What a stretch of calls adds to the events, it adds to the history and
to the table of active alerts (`Books`).
-/

namespace SyncEngine

open Js Machine

/-- The copy that `addToHistory` keeps of an event. -/
def AlertEvent.record? : AlertEvent → Option Alert
  | .fired _ alert => some alert
  | .resolved alert => some alert
  | .acknowledged _ => none

def AlertEvent.isFired : AlertEvent → Bool
  | .fired _ _ => true
  | _ => false

def AlertEvent.isResolved : AlertEvent → Bool
  | .resolved _ => true
  | _ => false

structure AlertStats where
  activeAlerts : ℕ
  totalRules : ℕ
  historySize : ℕ

namespace AlertManager

def getAlertHistory (m : AlertManager) : List Alert := m.alertHistory

def getStats (m : AlertManager) : AlertStats :=
  ⟨m.activeAlerts.size, m.rules.length, m.alertHistory.length⟩

variable {numeral : Double → String} {now : Timestamp} {m m' m'' : AlertManager} {rule : AlertRule}

/-- The events of a stretch of calls are in the history, and in the number of active alerts. -/
def Books (m m' : AlertManager) : Prop :=
  ∃ new, m'.events = m.events ++ new ∧ m'.maxHistory = m.maxHistory ∧
    m'.alertHistory =
      (new.filterMap AlertEvent.record?).foldl (keepRecent m.maxHistory) m.alertHistory ∧
    m'.activeAlerts.size + new.countP AlertEvent.isResolved =
      m.activeAlerts.size + new.countP AlertEvent.isFired

lemma Books.refl (m : AlertManager) : Books m m := ⟨[], by simp⟩

lemma Books.trans (h : Books m m') (h' : Books m' m'') : Books m m'' := by
  obtain ⟨new, hevents, hmax, hhistory, hsize⟩ := h
  obtain ⟨new', hevents', hmax', hhistory', hsize'⟩ := h'
  refine ⟨new ++ new', ?_, hmax'.trans hmax, ?_, ?_⟩
  · rw [hevents', hevents, List.append_assoc]
  · rw [hhistory', hhistory, hmax, List.filterMap_append, List.foldl_append]
  · rw [List.countP_append, List.countP_append]
    omega

/-- A turn of the loop is in the books. -/
lemma Books.turn (h : Turn numeral now m rule m') : Books m m' := by
  cases h with
  | quiet => exact .refl m
  | fires _ _ habsent =>
    refine ⟨[.fired rule _], rfl, rfl, rfl, ?_⟩
    have hnew : rule.id ∉ m.activeAlerts.keys := by
      rw [Js.Map.mem_keys_iff, habsent]
      exact nofun
    rw [fire_activeAlerts, Js.Map.size_eq_length_keys, Js.Map.keys_set_of_not_mem _ _ hnew,
      List.length_append, ← Js.Map.size_eq_length_keys]
    rfl
  | resolves _ existing hget =>
    refine ⟨[.resolved _], rfl, rfl, rfl, ?_⟩
    have hmem : rule.id ∈ m.activeAlerts.keys := by
      rw [Js.Map.mem_keys_iff, hget]
      rfl
    have hpos := List.length_pos_of_mem hmem
    rw [resolve_activeAlerts, Js.Map.size_eq_length_keys, Js.Map.keys_delete,
      List.length_erase_of_mem hmem, Js.Map.size_eq_length_keys]
    exact Nat.sub_add_cancel hpos

lemma Books.step (m : AlertManager) (i : Timestamp × AlertCall) : Books m (m.step numeral i) := by
  obtain ⟨now, call⟩ := i
  cases call with
  | addRule rule => exact ⟨[], by simp [AlertManager.step, addRule]⟩
  | metrics collector => exact ⟨[], by simp [AlertManager.step]⟩
  | removeRule ruleId =>
    simp only [AlertManager.step, removeRule]
    split
    · exact .refl m
    · exact ⟨[], by simp⟩
  | acknowledgeAlert alertId =>
    simp only [AlertManager.step, acknowledgeAlert]
    cases hget : m.activeAlerts.get? alertId with
    | none => exact .refl m
    | some alert =>
      refine ⟨[.acknowledged _], rfl, rfl, rfl, ?_⟩
      have hmem : alertId ∈ m.activeAlerts.keys := by
        rw [Js.Map.mem_keys_iff, hget]
        rfl
      rw [acknowledge_activeAlerts, Js.Map.size_eq_length_keys, Js.Map.keys_set_of_mem _ _ hmem,
        ← Js.Map.size_eq_length_keys]
      rfl
  | evaluateRules =>
    exact evaluateRules_of_turn (Books m) (fun _ _ _ hturn h => h.trans (.turn hturn)) (.refl m)

/-! ## Where alerts come from -/

/-- An active alert was fired, and perhaps acknowledged; a resolved one was fired, and not
acknowledged. -/
structure Sourced (m : AlertManager) : Prop where
  active : ∀ key alert, m.activeAlerts.get? key = some alert → ∃ rule fired,
    .fired rule fired ∈ m.events ∧ fired.status = .active ∧
      (alert = fired ∨ ∃ t, alert = fired.acknowledge t)
  resolved : ∀ alert, .resolved alert ∈ m.events → ∃ rule fired t,
    .fired rule fired ∈ m.events ∧ alert = fired.resolve t

/-- The alerts are those there were, and the events are more. -/
lemma Sourced.of_events (h : m.Sourced) {new : List AlertEvent}
    (hevents : m'.events = m.events ++ new)
    (hactive : ∀ key alert, m'.activeAlerts.get? key = some alert →
      m.activeAlerts.get? key = some alert ∨ (∃ rule, .fired rule alert ∈ new ∧
        alert.status = .active) ∨ ∃ before t, m.activeAlerts.get? key = some before ∧
          alert = before.acknowledge t)
    (hresolved : ∀ alert, .resolved alert ∈ new → ∃ key before t,
      m.activeAlerts.get? key = some before ∧ before.status = .active ∧
        alert = before.resolve t) : m'.Sourced where
  active key alert hget := by
    rw [hevents]
    obtain hold | ⟨rule, hmem, hstatus⟩ | ⟨before, t, hold, rfl⟩ := hactive key alert hget
    · obtain ⟨rule, fired, hmem, hrest⟩ := h.active key alert hold
      exact ⟨rule, fired, List.mem_append_left _ hmem, hrest⟩
    · exact ⟨rule, alert, List.mem_append_right _ hmem, hstatus, .inl rfl⟩
    · obtain ⟨rule, fired, hmem, hstatus, hsource⟩ := h.active key before hold
      refine ⟨rule, fired, List.mem_append_left _ hmem, hstatus, .inr ⟨t, ?_⟩⟩
      obtain rfl | ⟨t', rfl⟩ := hsource
      · rfl
      · rfl
  resolved alert hmem := by
    rw [hevents] at hmem ⊢
    obtain hmem | hmem := List.mem_append.1 hmem
    · obtain ⟨rule, fired, t, hfired, halert⟩ := h.resolved alert hmem
      exact ⟨rule, fired, t, List.mem_append_left _ hfired, halert⟩
    · obtain ⟨key, before, t, hget, hstatus, rfl⟩ := hresolved alert hmem
      obtain ⟨rule, fired, hfired, -, hsource⟩ := h.active key before hget
      refine ⟨rule, fired, t, List.mem_append_left _ hfired, ?_⟩
      -- an acknowledged alert is not active, so this one is as it was fired
      obtain rfl | ⟨t', rfl⟩ := hsource
      · rfl
      · cases hstatus

lemma Sourced.turn (h : m.Sourced) (hturn : Turn numeral now m rule m') : m'.Sourced := by
  cases hturn with
  | quiet => exact h
  | fires =>
    refine h.of_events (fire_events _ _ _ _ _) (fun key alert hget => ?_) (by simp)
    rw [fire_activeAlerts, Js.Map.get?_set] at hget
    split at hget
    · obtain rfl := Option.some.inj hget
      exact .inr (.inl ⟨rule, List.mem_singleton_self _, rfl⟩)
    · exact .inl hget
  | resolves _ existing hexisting hstatus =>
    refine h.of_events (resolve_events _ _ _ _) (fun key alert hget => ?_) fun alert hmem => ?_
    · rw [resolve_activeAlerts, Js.Map.get?_delete] at hget
      split at hget
      · cases hget
      · exact .inl hget
    · obtain rfl := AlertEvent.resolved.inj (List.mem_singleton.1 hmem)
      exact ⟨rule.id, existing, now, hexisting, hstatus, rfl⟩

lemma Sourced.step (h : m.Sourced) (i : Timestamp × AlertCall) : (m.step numeral i).Sourced := by
  refine step_of_turn ?_ ?_ ?_ h
  · rintro m m' ⟨hactive, -, hevents⟩ h
    refine h.of_events (hevents.trans (List.append_nil _).symm) (fun key alert hget => ?_) (by simp)
    exact .inl (hactive ▸ hget)
  · intro m key alert hget h
    refine h.of_events (acknowledge_events _ _ _ _) (fun key' alert' hget' => ?_) (by simp)
    rw [acknowledge_activeAlerts, Js.Map.get?_set] at hget'
    split at hget'
    next hkey =>
      obtain rfl := Option.some.inj hget'
      exact .inr (.inr ⟨alert, i.1, hkey ▸ hget, rfl⟩)
    next => exact .inl hget'
  · intro m rule m' hturn h
    exact h.turn hturn

/-- **The history and the active alerts add up.**  In every run, the history is the end of the
record of all firings and resolutions; the alerts that are active are those fired and not resolved;
and each of them, and each that was resolved, is an alert that was fired, of which the latter were
never acknowledged. -/
theorem history_exact (numeral : Double → String) (collector : MetricsCollector) (maxHistory : ℕ)
    (inputs : List (Timestamp × AlertCall)) :
    let m := Machine.run (step numeral) (new collector maxHistory) inputs
    m.getAlertHistory = recent maxHistory (m.events.filterMap AlertEvent.record?) ∧
      m.getStats.activeAlerts + m.events.countP AlertEvent.isResolved =
        m.events.countP AlertEvent.isFired ∧
      (∀ alert ∈ m.getActiveAlerts, ∃ rule fired, .fired rule fired ∈ m.events ∧
        (alert = fired ∨ ∃ t, alert = fired.acknowledge t)) ∧
      ∀ alert, .resolved alert ∈ m.events → ∃ rule fired t,
        .fired rule fired ∈ m.events ∧ alert = fired.resolve t := by
  intro m
  have hstep : ∀ m' i, Books (new collector maxHistory) m' →
      Books (new collector maxHistory) (step numeral m' i) :=
    fun m' i h => h.trans (.step m' i)
  have hbooks : Books (new collector maxHistory) m := Machine.always hstep inputs (.refl _)
  have hsourced : m.Sourced := by
    refine Machine.always (fun m i (h : m.Sourced) => h.step i) inputs ⟨?_, ?_⟩
    · intro key alert hget
      cases hget
    · intro alert hmem
      cases hmem
  obtain ⟨new, hevents, -, hhistory, hsize⟩ := hbooks
  obtain rfl : m.events = new := hevents
  refine ⟨?_, ?_, ?_, hsourced.resolved⟩
  · rw [getAlertHistory, hhistory]
    exact foldl_keepRecent maxHistory _
  · rw [getStats, hsize]
    exact Nat.zero_add _
  · intro alert hmem
    obtain ⟨key, hget⟩ := (Js.Map.mem_values_iff _ _).1 hmem
    obtain ⟨rule, fired, hfired, -, hsource⟩ := hsourced.active key alert hget
    exact ⟨rule, fired, hfired, hsource⟩

end AlertManager

end SyncEngine
