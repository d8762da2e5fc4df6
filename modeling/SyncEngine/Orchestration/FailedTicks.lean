import SyncEngine.Orchestration.Ticks

/-!
# Ticks that fail

A tick overwrites the queue of a mode with all its active requests before it places the first of
them, and takes the placed ones out after the last.  An exception in between leaves the placed
requests queued; and where it does not strike, the requests are taken out by player, so that a
placed request stays when its player has another one that is left over.

`SafeMode` excludes both for one mode, and `SafeTick` for the modes a tick gets to.  A tick loses
and duplicates nobody exactly when it is safe (`nothingLost_iff`); over a run of safe ticks no
request is placed twice, for which `Ticketed` is the invariant.  Requests are told apart by their
tickets.
-/

namespace SyncEngine

open Js

namespace Orchestrator

variable {limits : ServerLimits} {σ τ : Orchestrator}

/-- The requests that wait, for any mode. -/
def queued (σ : Orchestrator) : List MatchRequest := σ.queue.values.flatten

lemma mem_queued {q : MatchRequest} : q ∈ σ.queued ↔ ∃ mode, q ∈ σ.queueAt mode := by
  simp only [queued, List.mem_flatten, Js.Map.mem_values_iff, queueAt]
  constructor
  · rintro ⟨queue, ⟨mode, hmode⟩, hq⟩
    exact ⟨mode, by rwa [hmode]⟩
  · rintro ⟨mode, hq⟩
    rcases hmode : σ.queue.get? mode with - | queue
    · simp [hmode] at hq
    · rw [hmode] at hq
      exact ⟨queue, ⟨mode, hmode⟩, hq⟩

/-- The requests that a tick places. -/
def placedByTick (limits : ServerLimits) (σ : Orchestrator) : List MatchRequest :=
  placedIn (placementsByTick limits σ)

/-- The request has waited too long, by the configuration of its mode. -/
def Expired (σ : Orchestrator) (q : MatchRequest) : Prop :=
  ¬ σ.clock - q.requestedAt ≤ (σ.configOf q.mode).maxWaitTimeMs

/-- No request that the tick placed is still queued, and every other one that has not expired
is. -/
def NothingLost (limits : ServerLimits) (σ : Orchestrator) : Prop :=
  (∀ q ∈ placedByTick limits σ, q ∉ (σ.processQueues limits).1.queued) ∧
    ∀ q ∈ σ.queued, ¬ σ.Expired q → q ∉ placedByTick limits σ →
      q ∈ (σ.processQueues limits).1.queued

/-- A mode is safe when no player has both a request that is placed and one that is left; or,
where a match cannot be created, when that is the first one. -/
def SafeMode (limits : ServerLimits) (mode : String) (cfg : MatchmakingConfig)
    (active : List MatchRequest) (σ : Orchestrator) : Option OrchestrationError → Prop
  | none => ∀ p ∈ placedOf cfg active, ∀ l ∈ leftOf cfg active, p.playerId ≠ l.playerId
  | some _ => Blocked limits mode (firstGroup cfg active) σ

/-- The modes that a tick gets to are safe, each in the state in which it is reached. -/
def SafeModes (limits : ServerLimits) : List (String × List MatchRequest) → Orchestrator → Prop
  | [], _ => True
  | (mode, queue) :: modes, σ =>
    let cfg := σ.configOf mode
    let processed := processQueue limits mode queue cfg σ
    SafeMode limits mode cfg (activeOf σ.clock cfg queue) σ processed.2 ∧
      (processed.2 = none → SafeModes limits modes processed.1)

def SafeTick (limits : ServerLimits) (σ : Orchestrator) : Prop :=
  SafeModes limits σ.queue.entries σ

/-! ## One tick -/

/-- A request waits under its own mode. -/
def Keyed (σ : Orchestrator) : Prop := ∀ mode, ∀ q ∈ σ.queueAt mode, q.mode = mode

namespace Processed

variable {mode : String} {cfg : MatchmakingConfig} {active : List MatchRequest}
  {r : Option OrchestrationError}

/-- The queues of all modes shrink. -/
lemma queueAt_sublist (h : Processed limits mode cfg active σ τ r)
    (hactive : active.Sublist (σ.queueAt mode)) (m : String) :
    (τ.queueAt m).Sublist (σ.queueAt m) := by
  by_cases hm : m = mode
  · subst hm
    exact h.sublist.trans hactive
  · rw [h.others m hm]

lemma keyed (h : Processed limits mode cfg active σ τ r)
    (hactive : active.Sublist (σ.queueAt mode)) (hkeyed : Keyed σ) : Keyed τ :=
  fun m q hq => hkeyed m q ((h.queueAt_sublist hactive m).subset hq)

/-- The placed requests of a mode have left its queue exactly when the mode is safe. -/
lemma placed_not_mem_iff (h : Processed limits mode cfg active σ τ r) {ps : List Placement}
    (hps : τ.placements = σ.placements ++ ps) :
    (∀ q ∈ placedIn ps, q ∉ τ.queueAt mode) ↔ SafeMode limits mode cfg active σ r := by
  cases r with
  | none =>
    obtain ⟨hqueue, ps', hps', hplaced⟩ := h.ended rfl
    obtain rfl : ps = ps' := List.append_cancel_left (hps.symm.trans hps')
    rw [hplaced, hqueue]
    have hactive : ∀ q ∈ placedOf cfg active, q ∈ active := fun q hq =>
      (placedOf_append_leftOf cfg active).mem_iff.1 (List.mem_append_left _ hq)
    constructor
    · intro hout p hp l hl heq
      refine hout p hp (List.mem_filter.2 ⟨hactive p hp, decide_eq_true ?_⟩)
      rw [heq]
      exact List.mem_map_of_mem hl
    · intro hsafe p hp hmem
      obtain ⟨l, hl, heq⟩ := List.mem_map.1 (of_decide_eq_true (List.mem_filter.1 hmem).2)
      exact hsafe p hp l hl heq.symm
  | some e =>
    obtain ⟨hqueue, hblocked⟩ := h.thrown (by simp)
    obtain ⟨ps', hps', hactive, hsome⟩ := h.placed
    obtain rfl : ps = ps' := List.append_cancel_left (hps.symm.trans hps')
    show _ ↔ Blocked limits mode (firstGroup cfg active) σ
    rw [← hblocked, hps, List.append_right_eq_self, hqueue]
    constructor
    · intro hout
      by_contra hne
      obtain ⟨p, rest, rfl⟩ := List.exists_cons_of_ne_nil hne
      obtain ⟨q, others, hq⟩ := List.exists_cons_of_ne_nil (hsome p List.mem_cons_self)
      have hmem : q ∈ placedIn (p :: rest) := by
        rw [placedIn_cons, hq]
        exact List.mem_append_left _ List.mem_cons_self
      exact hout q hmem (hactive q hmem)
    · rintro rfl q hq
      simp [placedIn] at hq

end Processed

/-- What a tick does to the queues of some modes: they shrink, by no request that is neither
expired nor placed, and by all that are placed exactly when it is safe. -/
structure Drains (keys : List String) (σ τ : Orchestrator) (safe : Prop) : Prop where
  configs : τ.configs = σ.configs
  clock : τ.clock = σ.clock
  others : ∀ m, m ∉ keys → τ.queueAt m = σ.queueAt m
  sublist : ∀ m, (τ.queueAt m).Sublist (σ.queueAt m)
  placed : ∃ ps, τ.placements = σ.placements ++ ps ∧ (∀ q ∈ placedIn ps, q.mode ∈ keys) ∧
    ((∀ q ∈ placedIn ps, ∀ m, q ∉ τ.queueAt m) ↔ safe) ∧
    ∀ m, ∀ q ∈ σ.queueAt m, ¬ σ.Expired q → q ∉ placedIn ps → q ∈ τ.queueAt m

namespace Drains

variable {keys : List String} {safe : Prop}

lemma refl (σ : Orchestrator) : Drains [] σ σ True :=
  ⟨rfl, rfl, fun _ _ => rfl, fun _ => List.Sublist.refl _, [], (List.append_nil _).symm,
    by simp [placedIn], by simp [placedIn], fun _ _ hq _ _ => hq⟩

lemma keyed (h : Drains keys σ τ safe) (hkeyed : Keyed σ) : Keyed τ :=
  fun m q hq => hkeyed m q ((h.sublist m).subset hq)

lemma expired_iff (h : Drains keys σ τ safe) (q : MatchRequest) : τ.Expired q ↔ σ.Expired q := by
  simp only [Expired, configOf, h.configs, h.clock]

/-- One mode. -/
lemma of_processed {mode : String} {queue : List MatchRequest} {r : Option OrchestrationError}
    (h : Processed limits mode (σ.configOf mode) (activeOf σ.clock (σ.configOf mode) queue) σ τ r)
    (hqueue : σ.queueAt mode = queue) (hkeyed : Keyed σ) :
    Drains [mode] σ τ (SafeMode limits mode (σ.configOf mode)
      (activeOf σ.clock (σ.configOf mode) queue) σ r) := by
  have hactive : (activeOf σ.clock (σ.configOf mode) queue).Sublist (σ.queueAt mode) := by
    rw [hqueue]
    exact activeOf_sublist _ _ _
  obtain ⟨ps, hps, hmem, -⟩ := h.placed
  have hmode : ∀ q ∈ placedIn ps, q.mode = mode := fun q hq =>
    hkeyed mode q (hactive.subset (hmem q hq))
  refine ⟨h.configs, h.clock, fun m hm => h.others m (by simpa using hm), h.queueAt_sublist hactive,
    ps, hps, fun q hq => by simp [hmode q hq], ?_, fun m q hq hfresh hnot => ?_⟩
  · rw [← h.placed_not_mem_iff hps]
    refine forall₂_congr fun q hq => ⟨fun hall => hall mode, fun hone m hm => ?_⟩
    have hkey : q.mode = m := h.keyed hactive hkeyed m q hm
    rw [hmode q hq] at hkey
    exact hone (hkey ▸ hm)
  · by_cases hm : m = mode
    · subst hm
      refine h.mem_of_not_placed hps ?_ hnot
      rw [hqueue] at hq
      refine List.mem_filter.2 ⟨hq, decide_eq_true ?_⟩
      have hkey : q.mode = m := hkeyed m q (hqueue ▸ hq)
      rw [Expired, not_not, hkey] at hfresh
      exact hfresh
    · rwa [h.others m hm]

/-- One mode after the others. -/
lemma trans {mode : String} {υ : Orchestrator} {safe' : Prop} (h : Drains [mode] σ τ safe)
    (h' : Drains keys τ υ safe') (hmode : mode ∉ keys) (hkeyed : Keyed σ) :
    Drains (mode :: keys) σ υ (safe ∧ safe') := by
  obtain ⟨ps, hps, hkeys, hsafe, hkeep⟩ := h.placed
  obtain ⟨ps', hps', hkeys', hsafe', hkeep'⟩ := h'.placed
  refine ⟨h'.configs.trans h.configs, h'.clock.trans h.clock, fun m hm => ?_,
    fun m => (h'.sublist m).trans (h.sublist m), ps ++ ps', by rw [hps', hps, List.append_assoc],
    fun q hq => ?_, ?_, fun m q hq hfresh hnot => ?_⟩
  · simp only [List.mem_cons, not_or] at hm
    rw [h'.others m hm.2, h.others m (by simpa using hm.1)]
  · rw [placedIn_append] at hq
    rcases List.mem_append.1 hq with hq | hq
    · have hone := hkeys q hq
      rw [List.mem_singleton] at hone
      simp [hone]
    · exact List.mem_cons_of_mem _ (hkeys' q hq)
  · rw [← hsafe, ← hsafe', placedIn_append]
    simp only [List.mem_append, or_imp, forall_and]
    refine and_congr_left fun _ => forall₂_congr fun q hq => ⟨fun hall m hm => ?_,
      fun hone m hm => hone m ((h'.sublist m).subset hm)⟩
    have hone := hkeys q hq
    rw [List.mem_singleton] at hone
    have hkey : q.mode = m := h.keyed hkeyed m q hm
    refine hall m ?_
    rwa [h'.others m (by rw [← hkey, hone]; exact hmode)]
  · rw [placedIn_append, List.mem_append, not_or] at hnot
    exact hkeep' m q (hkeep m q hq hfresh hnot.1) (by rwa [h.expired_iff]) hnot.2

end Drains

/-- **What a tick does to the queues**, mode by mode. -/
lemma processModes_drains (modes : List (String × List MatchRequest)) {σ : Orchestrator}
    (hkeys : (modes.map Prod.fst).Nodup) (hholds : ∀ entry ∈ modes, σ.queueAt entry.1 = entry.2)
    (hkeyed : Keyed σ) :
    ∃ keys, Drains keys σ (processModes limits modes σ).1 (SafeModes limits modes σ) ∧
      ∀ m ∈ keys, m ∈ modes.map Prod.fst := by
  induction modes generalizing σ with
  | nil => exact ⟨[], Drains.refl σ, by simp⟩
  | cons entry modes ih =>
    obtain ⟨mode, queue⟩ := entry
    rw [List.map_cons, List.nodup_cons] at hkeys
    have hone := Drains.of_processed
      (@processQueue_processed limits mode queue (σ.configOf mode) σ)
      (hholds (mode, queue) List.mem_cons_self) hkeyed
    rcases hp : processQueue limits mode queue (σ.configOf mode) σ with ⟨τ, - | e⟩
    · rw [hp] at hone
      have hholds' : ∀ entry ∈ modes, τ.queueAt entry.1 = entry.2 := fun entry hentry => by
        have hmem : entry.1 ∈ modes.map Prod.fst := List.mem_map_of_mem hentry
        have hne : entry.1 ≠ mode := fun heq => hkeys.1 (heq ▸ hmem)
        rw [hone.others entry.1 (by simpa using hne)]
        exact hholds entry (List.mem_cons_of_mem _ hentry)
      obtain ⟨keys, hrest, hsub⟩ := ih hkeys.2 hholds' (hone.keyed hkeyed)
      refine ⟨mode :: keys, ?_, ?_⟩
      · have hall := hone.trans hrest (fun hmem => hkeys.1 (hsub mode hmem)) hkeyed
        simpa only [processModes, SafeModes, hp, true_imp_iff] using hall
      · intro m hm
        rcases List.mem_cons.1 hm with rfl | hm
        · exact List.mem_cons_self
        · exact List.mem_cons_of_mem _ (hsub m hm)
    · rw [hp] at hone
      refine ⟨[mode], ?_, by simp⟩
      simpa only [processModes, SafeModes, hp, reduceCtorEq, false_imp_iff, and_true] using hone

/-- A tick as a whole. -/
lemma processQueues_drains (hkeyed : Keyed σ) :
    ∃ keys, Drains keys σ (σ.processQueues limits).1 (SafeTick limits σ) := by
  obtain ⟨keys, h, -⟩ := @processModes_drains limits σ.queue.entries σ σ.queue.nodup
    (fun entry hentry => queueAt_of_mem_entries hentry) hkeyed
  exact ⟨keys, h⟩

/-- A tick loses and duplicates nobody exactly when it is safe. -/
lemma nothingLost_iff (hkeyed : Keyed σ) : NothingLost limits σ ↔ SafeTick limits σ := by
  obtain ⟨keys, h⟩ := @processQueues_drains limits σ hkeyed
  obtain ⟨ps, hps, -, hsafe, hkeep⟩ := h.placed
  have hplaced : placedByTick limits σ = placedIn ps := by
    rw [placedByTick, placementsByTick, hps, List.drop_left]
  rw [NothingLost, hplaced, ← hsafe]
  simp only [mem_queued, not_exists]
  refine and_iff_left fun q hq hfresh hnot => ?_
  obtain ⟨m, hm⟩ := hq
  exact ⟨m, hkeep m q hm hfresh hnot⟩

/-! ## Every run -/

/-- The queue, the tickets and the placements are as they were. -/
structure Idle (σ τ : Orchestrator) : Prop where
  queue : τ.queue = σ.queue
  nextTicket : τ.nextTicket = σ.nextTicket
  placements : τ.placements = σ.placements

lemma Idle.queueAt (h : Idle σ τ) (m : String) : τ.queueAt m = σ.queueAt m := by
  rw [Orchestrator.queueAt, h.queue, Orchestrator.queueAt]

/-- The inputs that are neither calls of the queue nor ticks. -/
lemma idle_step {i : Input} (henqueue : ∀ p m map skill t, i ≠ .enqueue p m map skill t)
    (hdequeue : ∀ p m, i ≠ .dequeue p m) (htick : i ≠ .tick) : Idle σ (step limits σ i) := by
  cases i with
  | enqueue p m map skill t => exact absurd rfl (henqueue p m map skill t)
  | dequeue p m => exact absurd rfl (hdequeue p m)
  | tick => exact absurd rfl htick
  | setModeConfig mode cfg => exact ⟨rfl, rfl, rfl⟩
  | endMatch id =>
    simp only [step, endMatch]
    split <;> exact ⟨rfl, rfl, rfl⟩
  | createServer cfg =>
    rcases step_createServer limits cfg σ with heq | ⟨_, _, -, -, heq⟩ <;> rw [heq] <;>
      exact ⟨rfl, rfl, rfl⟩
  | stopServer id =>
    obtain ⟨_, heq⟩ := exists_stopServer id σ
    rw [step, heq]
    exact ⟨rfl, rfl, rfl⟩
  | removeServer id =>
    obtain ⟨_, _, -, heq⟩ := exists_removeServer id σ
    rw [step, heq]
    exact ⟨rfl, rfl, rfl⟩
  | stopServers => exact ⟨rfl, rfl, rfl⟩
  | wait ms => exact ⟨rfl, rfl, rfl⟩
  | fire i =>
    rcases step_fire limits i σ with heq | ⟨timer, _, -, heq⟩ <;> rw [heq]
    · exact ⟨rfl, rfl, rfl⟩
    · cases timer.callback <;> exact ⟨rfl, rfl, rfl⟩

lemma queueAt_enqueue (p : PlayerId) (mode : String) (map : Option String) (skill : Option ℚ)
    (t : Timestamp) (m : String) : (σ.enqueue p mode map skill t).queueAt m =
      if m = mode then σ.queueAt mode ++ [⟨σ.nextTicket, p, mode, map, skill, t⟩]
      else σ.queueAt m := by
  unfold enqueue queueAt
  rw [Js.Map.get?_set]
  split <;> rfl

/-- What is in a queue after `enqueue`: what was there, and the new request in its queue. -/
lemma mem_queueAt_enqueue {p : PlayerId} {mode m : String} {map : Option String}
    {skill : Option ℚ} {t : Timestamp} {q : MatchRequest}
    (hq : q ∈ (σ.enqueue p mode map skill t).queueAt m) :
    q ∈ σ.queueAt m ∨ (m = mode ∧ q = ⟨σ.nextTicket, p, mode, map, skill, t⟩) := by
  rw [queueAt_enqueue] at hq
  split at hq
  next hm =>
    subst hm
    rcases List.mem_append.1 hq with hq | hq
    · exact .inl hq
    · exact .inr ⟨rfl, List.mem_singleton.1 hq⟩
  · exact .inl hq

/-- `dequeue` takes requests out of one queue, and does nothing else. -/
lemma dequeue_spec (p : PlayerId) (mode : String) :
    (∀ m, ((σ.dequeue p mode).queueAt m).Sublist (σ.queueAt m)) ∧
      (σ.dequeue p mode).nextTicket = σ.nextTicket ∧
      (σ.dequeue p mode).placements = σ.placements := by
  unfold dequeue
  split
  · exact ⟨fun _ => List.Sublist.refl _, rfl, rfl⟩
  next modeQueue hqueue =>
    have hat : σ.queueAt mode = modeQueue := by rw [queueAt, hqueue, Option.getD_some]
    split
    · exact ⟨fun _ => List.Sublist.refl _, rfl, rfl⟩
    next idx hidx =>
      simp only
      split
      · refine ⟨fun m => ?_, rfl, rfl⟩
        rw [queueAt_delete]
        split
        · exact List.nil_sublist _
        · exact List.Sublist.refl _
      · refine ⟨fun m => ?_, rfl, rfl⟩
        rw [queueAt_set]
        split
        next hm =>
          rw [hm, hat]
          exact List.eraseIdx_sublist _ _
        · exact List.Sublist.refl _

lemma keyed_step (hkeyed : Keyed σ) (i : Input) : Keyed (step limits σ i) := by
  have hidle : ∀ {τ : Orchestrator}, Idle σ τ → Keyed τ := fun h m q hq =>
    hkeyed m q (h.queueAt m ▸ hq)
  cases i with
  | enqueue p mode map skill t =>
    intro m q hq
    obtain hq | ⟨rfl, rfl⟩ := mem_queueAt_enqueue hq
    · exact hkeyed m q hq
    · rfl
  | dequeue p mode => exact fun m q hq => hkeyed m q (((dequeue_spec p mode).1 m).subset hq)
  | tick =>
    obtain ⟨keys, h⟩ := @processQueues_drains limits σ hkeyed
    exact h.keyed hkeyed
  | _ => exact hidle (idle_step (by simp) (by simp) (by simp))

lemma keyed_new : Keyed new := by
  intro m q hq
  simp [queueAt, new] at hq

lemma keyed_run (inputs : List Input) : Keyed (run limits inputs) :=
  @Machine.always _ _ (step limits) Keyed (fun _ i h => keyed_step h i) _ inputs keyed_new

/-- The tickets of the requests that wait or were placed: each is used once. -/
structure Ticketed (σ : Orchestrator) : Prop where
  keyed : Keyed σ
  queued_lt : ∀ m, ∀ q ∈ σ.queueAt m, q.ticket < σ.nextTicket
  placed_lt : ∀ q ∈ placedIn σ.placements, q.ticket < σ.nextTicket
  queued_nodup : ∀ m, ((σ.queueAt m).map fun q => q.ticket).Nodup
  queued_inj : ∀ m m', ∀ q ∈ σ.queueAt m, ∀ q' ∈ σ.queueAt m', q.ticket = q'.ticket → q = q'
  placed_nodup : ((placedIn σ.placements).map fun q => q.ticket).Nodup
  apart : ∀ m, ∀ q ∈ σ.queueAt m, ∀ p ∈ placedIn σ.placements, q.ticket ≠ p.ticket

namespace Ticketed

lemma new : Ticketed new := by
  refine ⟨keyed_new, ?_, ?_, ?_, ?_, ?_, ?_⟩ <;> simp [queueAt, Orchestrator.new, placedIn]

/-- Queues that shrink, while nothing is placed. -/
lemma of_sublist (h : Ticketed σ) (hqueue : ∀ m, (τ.queueAt m).Sublist (σ.queueAt m))
    (hticket : τ.nextTicket = σ.nextTicket) (hplaced : τ.placements = σ.placements) :
    Ticketed τ where
  keyed := fun m q hq => h.keyed m q ((hqueue m).subset hq)
  queued_lt := fun m q hq => by
    rw [hticket]
    exact h.queued_lt m q ((hqueue m).subset hq)
  placed_lt := by
    rw [hplaced, hticket]
    exact h.placed_lt
  queued_nodup := fun m => (h.queued_nodup m).sublist ((hqueue m).map _)
  queued_inj := fun m m' q hq q' hq' =>
    h.queued_inj m m' q ((hqueue m).subset hq) q' ((hqueue m').subset hq')
  placed_nodup := by
    rw [hplaced]
    exact h.placed_nodup
  apart := fun m q hq => by
    rw [hplaced]
    exact h.apart m q ((hqueue m).subset hq)

lemma enqueue (h : Ticketed σ) (p : PlayerId) (mode : String) (map : Option String)
    (skill : Option ℚ) (t : Timestamp) : Ticketed (σ.enqueue p mode map skill t) := by
  have hplaced : (σ.enqueue p mode map skill t).placements = σ.placements := rfl
  have hticket : (σ.enqueue p mode map skill t).nextTicket = σ.nextTicket + 1 := rfl
  refine ⟨@keyed_step ⟨0, 0⟩ σ h.keyed (.enqueue p mode map skill t), fun m q hq => ?_,
    fun q hq => ?_, fun m => ?_, fun m m' q hq q' hq' heq => ?_, h.placed_nodup,
    fun m q hq x hx => ?_⟩
  · rw [hticket]
    rcases mem_queueAt_enqueue hq with hq | ⟨-, rfl⟩
    · exact Nat.lt_succ_of_lt (h.queued_lt m q hq)
    · exact Nat.lt_succ_self _
  · rw [hticket]
    exact Nat.lt_succ_of_lt (h.placed_lt q (hplaced ▸ hq))
  · rw [queueAt_enqueue]
    split
    · rw [List.map_append, List.nodup_append]
      refine ⟨h.queued_nodup mode, by simp, ?_⟩
      intro a ha b hb hab
      obtain ⟨q, hq, rfl⟩ := List.mem_map.1 ha
      simp only [List.map_cons, List.map_nil, List.mem_singleton] at hb
      have hlt := h.queued_lt mode q hq
      omega
    · exact h.queued_nodup m
  · rcases mem_queueAt_enqueue hq with hq | ⟨-, rfl⟩ <;>
      rcases mem_queueAt_enqueue hq' with hq' | ⟨-, rfl⟩
    · exact h.queued_inj m m' q hq q' hq' heq
    · have hlt := h.queued_lt m q hq
      exact absurd heq (Nat.ne_of_lt hlt)
    · have hlt := h.queued_lt m' q' hq'
      exact absurd heq.symm (Nat.ne_of_lt hlt)
    · rfl
  · rw [hplaced] at hx
    rcases mem_queueAt_enqueue hq with hq | ⟨-, rfl⟩
    · exact h.apart m q hq x hx
    · exact Nat.ne_of_gt (h.placed_lt x hx)

/-- A safe mode. -/
lemma processed {mode : String} {cfg : MatchmakingConfig} {active : List MatchRequest}
    {r : Option OrchestrationError} (h : Ticketed σ) (hp : Processed limits mode cfg active σ τ r)
    (hactive : active.Sublist (σ.queueAt mode))
    (hsafe : SafeMode limits mode cfg active σ r) : Ticketed τ := by
  have hqueue := hp.queueAt_sublist hactive
  have hnodup : (active.map fun q => q.ticket).Nodup :=
    (h.queued_nodup mode).sublist (hactive.map _)
  obtain ⟨ps, hps, hmem, hsome⟩ := hp.placed
  have hgone := (hp.placed_not_mem_iff hps).2 hsafe
  -- the placed requests have distinct tickets, since they are some of the active ones
  have hnew : ((placedIn ps).map fun q => q.ticket).Nodup := by
    cases r with
    | none =>
      obtain ⟨-, ps', hps', hplaced⟩ := hp.ended rfl
      obtain rfl : ps = ps' := List.append_cancel_left (hps.symm.trans hps')
      rw [hplaced]
      have hperm := ((sortBySkill_perm active).map fun q => q.ticket).nodup_iff.2 hnodup
      exact hperm.sublist ((List.take_sublist _ _).map _)
    | some e =>
      have hnone := ((hp.thrown (by simp)).2).2 hsafe
      rw [hps, List.append_right_eq_self] at hnone
      simp [hnone, placedIn]
  refine ⟨hp.keyed hactive h.keyed, fun m q hq => ?_, fun q hq => ?_,
    fun m => (h.queued_nodup m).sublist ((hqueue m).map _),
    fun m m' q hq q' hq' => h.queued_inj m m' q ((hqueue m).subset hq) q' ((hqueue m').subset hq'),
    ?_, fun m q hq p hp' heq => ?_⟩
  · rw [hp.nextTicket]
    exact h.queued_lt m q ((hqueue m).subset hq)
  · rw [hps, placedIn_append, List.mem_append] at hq
    rw [hp.nextTicket]
    rcases hq with hq | hq
    · exact h.placed_lt q hq
    · exact h.queued_lt mode q (hactive.subset (hmem q hq))
  · rw [hps, placedIn_append, List.map_append, List.nodup_append]
    refine ⟨h.placed_nodup, hnew, ?_⟩
    rintro a ha b hb rfl
    obtain ⟨p, hp', rfl⟩ := List.mem_map.1 ha
    obtain ⟨q, hq, heq⟩ := List.mem_map.1 hb
    exact h.apart mode q (hactive.subset (hmem q hq)) p hp' heq
  · rw [hps, placedIn_append, List.mem_append] at hp'
    rcases hp' with hp' | hp'
    · exact h.apart m q ((hqueue m).subset hq) p hp' heq
    · obtain rfl := h.queued_inj m mode q ((hqueue m).subset hq) p (hactive.subset (hmem p hp')) heq
      have hkey : q.mode = mode := h.keyed mode q (hactive.subset (hmem q hp'))
      have hkey' : q.mode = m := h.keyed m q ((hqueue m).subset hq)
      exact hgone q hp' (by rw [← hkey, hkey']; exact hq)

lemma processModes (modes : List (String × List MatchRequest)) {σ : Orchestrator}
    (h : Ticketed σ) (hkeys : (modes.map Prod.fst).Nodup)
    (hholds : ∀ entry ∈ modes, σ.queueAt entry.1 = entry.2)
    (hsafe : SafeModes limits modes σ) : Ticketed (processModes limits modes σ).1 := by
  induction modes generalizing σ with
  | nil => exact h
  | cons entry modes ih =>
    obtain ⟨mode, queue⟩ := entry
    rw [List.map_cons, List.nodup_cons] at hkeys
    obtain ⟨hmode, hrest⟩ := hsafe
    have hp := @processQueue_processed limits mode queue (σ.configOf mode) σ
    have hactive : (activeOf σ.clock (σ.configOf mode) queue).Sublist (σ.queueAt mode) := by
      rw [hholds (mode, queue) List.mem_cons_self]
      exact activeOf_sublist _ _ _
    have hone := h.processed hp hactive hmode
    rw [Orchestrator.processModes]
    rcases hr : processQueue limits mode queue (σ.configOf mode) σ with ⟨τ, - | e⟩
    · rw [hr] at hone hp hrest
      refine ih hone hkeys.2 (fun entry hentry => ?_) (hrest rfl)
      have hmem : entry.1 ∈ modes.map Prod.fst := List.mem_map_of_mem hentry
      have hne : entry.1 ≠ mode := fun heq => hkeys.1 (heq ▸ hmem)
      rw [hp.others entry.1 hne]
      exact hholds entry (List.mem_cons_of_mem _ hentry)
    · rw [hr] at hone
      exact hone

end Ticketed

/-- The guard of a run: its ticks are safe. -/
def TicksSafe (limits : ServerLimits) (σ : Orchestrator) : Input → Prop
  | .tick => SafeTick limits σ
  | _ => True

lemma ticketed_step (h : Ticketed σ) {i : Input} (hi : TicksSafe limits σ i) :
    Ticketed (step limits σ i) := by
  have hidle : ∀ {τ : Orchestrator}, Idle σ τ → Ticketed τ := fun hidle =>
    h.of_sublist (fun m => by rw [hidle.queueAt]) hidle.nextTicket hidle.placements
  cases i with
  | enqueue p mode map skill t => exact h.enqueue p mode map skill t
  | dequeue p mode =>
    obtain ⟨hqueue, hticket, hplaced⟩ := dequeue_spec (σ := σ) p mode
    exact h.of_sublist hqueue hticket hplaced
  | tick =>
    exact h.processModes σ.queue.entries σ.queue.nodup
      (fun entry hentry => queueAt_of_mem_entries hentry) hi
  | _ => exact hidle (idle_step (by simp) (by simp) (by simp))

/-- **Safe ticks lose and duplicate nobody.**  In every state the process reaches, a tick keeps
every request it does not place and takes out every one it does exactly when it is safe; this
covers the ticks that fail.  Over a run of safe ticks no request is placed in two matches. -/
theorem failed_tick_iff (limits : ServerLimits) :
    (∀ (inputs : List Input) (e : OrchestrationError),
      ((run limits inputs).processQueues limits).2 = some e →
        (NothingLost limits (run limits inputs) ↔ SafeTick limits (run limits inputs))) ∧
    ∀ inputs : List Input, Machine.Along (step limits) (TicksSafe limits) .new inputs →
      ((placedIn (run limits inputs).placements).map fun q => q.ticket).Nodup :=
  ⟨fun inputs _ _ => nothingLost_iff (keyed_run inputs), fun inputs h =>
    (@Machine.invariant _ _ (step limits) (TicksSafe limits) Ticketed
      (fun _ _ hσ hi => ticketed_step hσ hi) _ inputs Ticketed.new h).placed_nodup⟩

/-- Twelve players in one mode, with room for one server. -/
def twelvePlayers : List Input :=
  ["a", "b", "c", "d", "e", "f", "g", "h", "i", "j", "k", "l"].map fun p =>
    .enqueue p "arena" none none 0

/-- The first ten get the server, the match of the other two throws, and all twelve stay
queued. -/
theorem placed_and_queued :
    ((run ⟨1, 16⟩ twelvePlayers).processQueues ⟨1, 16⟩).2 = some .serverLimit ∧
      ¬ NothingLost ⟨1, 16⟩ (run ⟨1, 16⟩ twelvePlayers) := by
  refine ⟨by decide +kernel, fun h => ?_⟩
  have hplaced : (⟨0, "a", "arena", none, none, 0⟩ : MatchRequest) ∈
      placedByTick ⟨1, 16⟩ (run ⟨1, 16⟩ twelvePlayers) := by
    decide +kernel
  have hqueued : (⟨0, "a", "arena", none, none, 0⟩ : MatchRequest) ∈
      ((run ⟨1, 16⟩ twelvePlayers).processQueues ⟨1, 16⟩).1.queued := by
    decide +kernel
  exact h.1 _ hplaced hqueued

end Orchestrator

end SyncEngine
