import SyncEngine.Orchestration.Ticks

/-!
# The life of a match

The start timer of a match looks at the status before it writes it; `endMatch` and the completion
timer do not.  Since a completion timer is only set by `endMatch`, and matches are never removed,
it is `endMatch` alone that can take a match back (`COMPLETED` to `ENDING`) or give its seats back
a second time, namely by being called for a match that was ended before.

`Aged` is the invariant of every run: a match is `ENDING` or `COMPLETED` exactly when its seats
were given back.  With it, the life of every match is in order exactly when `endMatch` is called
for starting and running matches only (`lifecycle_iff`).
-/

namespace SyncEngine

open Js

namespace MatchStatus

/-- The place in the life of a match. -/
def rank : MatchStatus → ℕ
  | .waiting => 0
  | .starting => 1
  | .inProgress => 2
  | .ending => 3
  | .completed => 4
  | .cancelled => 5

/-- The match is on, or about to be. -/
def IsOn (s : MatchStatus) : Prop := s = .starting ∨ s = .inProgress

/-- The match is over. -/
def IsOver (s : MatchStatus) : Prop := s = .ending ∨ s = .completed

lemma IsOn.not_isOver {s : MatchStatus} (h : s.IsOn) : ¬ s.IsOver := by
  rcases h with rfl | rfl <;> simp [IsOver]

end MatchStatus

namespace Orchestrator

variable {limits : ServerLimits} {σ τ υ : Orchestrator}

/-- At every two moments of the run the status of a match has not gone back, and its seats are
given back at most once. -/
structure InOrder (limits : ServerLimits) (inputs : List Input) : Prop where
  forward : ∀ first later, first ++ later = inputs → ∀ id m m',
    (run limits first).matchMap.get? id = some m →
    (run limits inputs).matchMap.get? id = some m' → m.status.rank ≤ m'.status.rank
  removed_once : ∀ id, (run limits inputs).removals.count id ≤ 1

/-- A match is ended only while it is on. -/
def EndsOn (σ : Orchestrator) : Input → Prop
  | .endMatch id => ∀ m, σ.matchMap.get? id = some m → m.status.IsOn
  | _ => True

/-- The matches are on until their seats are given back, and over from then. -/
structure Aged (σ : Orchestrator) : Prop where
  id_lt : ∀ id m, σ.matchMap.get? id = some m → id < σ.nextMatch
  removal_lt : ∀ id ∈ σ.removals, id < σ.nextMatch
  completing : ∀ t ∈ σ.timers, ∀ id, t.callback = .matchCompleted id → id ∈ σ.removals
  isOn : ∀ id m, σ.matchMap.get? id = some m → id ∉ σ.removals → m.status.IsOn
  isOver : ∀ id m, σ.matchMap.get? id = some m → id ∈ σ.removals → m.status.IsOver

/-- Every match of the first state is in the second, with a status that has not gone back. -/
def Forward (σ τ : Orchestrator) : Prop :=
  ∀ id m, σ.matchMap.get? id = some m →
    ∃ m', τ.matchMap.get? id = some m' ∧ m.status.rank ≤ m'.status.rank

namespace Forward

lemma of_eq (h : τ.matchMap = σ.matchMap) : Forward σ τ := fun id m hm =>
  ⟨m, by rwa [h], le_rfl⟩

lemma trans (h : Forward σ τ) (h' : Forward τ υ) : Forward σ υ := by
  intro id m hm
  obtain ⟨m', hm', hle⟩ := h id m hm
  obtain ⟨m'', hm'', hle'⟩ := h' id m' hm'
  exact ⟨m'', hm'', hle.trans hle'⟩

/-- One match is rewritten. -/
lemma of_modify {id : MatchId} {f : MatchInfo → MatchInfo}
    (hτ : τ.matchMap = σ.matchMap.modify id f)
    (hf : ∀ m, σ.matchMap.get? id = some m → m.status.rank ≤ (f m).status.rank) :
    Forward σ τ := by
  intro j m hm
  rw [hτ, Js.Map.get?_modify]
  by_cases hj : j = id
  · subst hj
    exact ⟨f m, by rw [if_pos rfl, hm]; rfl, hf m hm⟩
  · exact ⟨m, by rwa [if_neg hj], le_rfl⟩

end Forward

/-! ## One step -/

namespace Aged

lemma new : Aged .new := by
  refine ⟨?_, ?_, ?_, ?_, ?_⟩ <;> simp [Orchestrator.new]

/-- Nothing happens to the matches. -/
lemma of_eq (h : Aged σ) (hmatches : τ.matchMap = σ.matchMap) (hnext : τ.nextMatch = σ.nextMatch)
    (hremovals : τ.removals = σ.removals)
    (htimers : ∀ t ∈ τ.timers, t ∈ σ.timers ∨ ∀ id, t.callback ≠ .matchCompleted id) : Aged τ := by
  refine ⟨?_, ?_, fun t ht id hid => ?_, ?_, ?_⟩
  · rw [hmatches, hnext]
    exact h.id_lt
  · rw [hremovals, hnext]
    exact h.removal_lt
  · rw [hremovals]
    rcases htimers t ht with hold | hnew
    · exact h.completing t hold id hid
    · exact absurd hid (hnew id)
  · rw [hmatches, hremovals]
    exact h.isOn
  · rw [hmatches, hremovals]
    exact h.isOver

/-- A timer has rewritten the status of one match. -/
lemma of_modify (h : Aged σ) {id : MatchId} {f : MatchInfo → MatchInfo} {timers : List Timer}
    (htimers : ∀ t ∈ timers, t ∈ σ.timers)
    (hon : ∀ m, id ∉ σ.removals → m.status.IsOn → (f m).status.IsOn)
    (hover : ∀ m, id ∈ σ.removals → m.status.IsOver → (f m).status.IsOver) :
    Aged { σ with timers := timers, matchMap := σ.matchMap.modify id f } := by
  have hget : ∀ j m', (σ.matchMap.modify id f).get? j = some m' →
      σ.matchMap.get? j = some m' ∨ (j = id ∧ ∃ m, σ.matchMap.get? id = some m ∧ f m = m') := by
    intro j m' hm'
    rw [Js.Map.get?_modify] at hm'
    split at hm'
    next hj => exact .inr ⟨hj, Option.map_eq_some_iff.1 hm'⟩
    · exact .inl hm'
  refine ⟨fun j m' hm' => ?_, h.removal_lt, fun t ht => h.completing t (htimers t ht),
    fun j m' hm' hout => ?_, fun j m' hm' hin => ?_⟩ <;>
    rcases hget j m' hm' with hold | ⟨rfl, m, hm, rfl⟩
  · exact h.id_lt j m' hold
  · exact h.id_lt j m hm
  · exact h.isOn j m' hold hout
  · exact hon m hout (h.isOn j m hm hout)
  · exact h.isOver j m' hold hin
  · exact hover m hin (h.isOver j m hm hin)

/-- A new match has a new id, and starts. -/
lemma createMatch (h : Aged σ) {mode : String} {players : List MatchRequest}
    {cfg : MatchmakingConfig} (hcreate : σ.createMatch limits mode players cfg = .ok τ) :
    Aged τ ∧ Forward σ τ := by
  have htimers := createMatch_timers hcreate
  obtain ⟨chosen, info, hc⟩ := createMatch_created hcreate
  have hnew : σ.nextMatch ∉ σ.removals := fun hmem => absurd (h.removal_lt _ hmem) (lt_irrefl _)
  refine ⟨⟨fun id m hm => ?_, fun id hid => ?_, fun t ht id hid => ?_, fun id m hm hout => ?_,
    fun id m hm hin => ?_⟩, fun id m hm => ⟨m, ?_, le_rfl⟩⟩
  · rw [hc.nextMatch]
    rcases hc.match_cases hm with ⟨rfl, -⟩ | ⟨-, hold⟩
    · exact Nat.lt_succ_self _
    · exact Nat.lt_succ_of_lt (h.id_lt id m hold)
  · rw [hc.removals] at hid
    rw [hc.nextMatch]
    exact Nat.lt_succ_of_lt (h.removal_lt id hid)
  · rw [hc.removals]
    rcases htimers t ht with hold | hfresh
    · exact h.completing t hold id hid
    · exact absurd hid (hfresh id)
  · rw [hc.removals] at hout
    rcases hc.match_cases hm with ⟨-, rfl⟩ | ⟨-, hold⟩
    · exact .inl hc.info_status
    · exact h.isOn id m hold hout
  · rw [hc.removals] at hin
    rcases hc.match_cases hm with ⟨rfl, -⟩ | ⟨-, hold⟩
    · exact absurd hin hnew
    · exact h.isOver id m hold hin
  · rw [hc.matchMap, Js.Map.get?_set, if_neg (h.id_lt id m hm).ne]
    exact hm

/-- A match that is ended is over, whatever it was before. -/
lemma endMatch (h : Aged σ) (id : MatchId) : Aged (σ.endMatch id) := by
  unfold Orchestrator.endMatch
  split
  · exact h
  next m hm =>
    refine ⟨fun j m' hm' => ?_, fun j hj => ?_, fun t ht j hj => ?_, fun j m' hm' hout => ?_,
      fun j m' hm' hin => ?_⟩
    · simp only [setTimeout, Js.Map.get?_set] at hm' ⊢
      split at hm'
      next hj => exact hj ▸ h.id_lt id m hm
      · exact h.id_lt j m' hm'
    · simp only [setTimeout, List.mem_append, List.mem_singleton] at hj ⊢
      rcases hj with hj | rfl
      · exact h.removal_lt j hj
      · exact h.id_lt j m hm
    · simp only [setTimeout, List.mem_append, List.mem_singleton] at ht ⊢
      rcases ht with ht | rfl
      · exact .inl (h.completing t ht j hj)
      · exact .inr (Callback.matchCompleted.inj hj).symm
    · simp only [setTimeout, Js.Map.get?_set, List.mem_append, List.mem_singleton, not_or]
        at hm' hout
      rw [if_neg hout.2] at hm'
      exact h.isOn j m' hm' hout.1
    · simp only [setTimeout, Js.Map.get?_set, List.mem_append, List.mem_singleton] at hm' hin
      by_cases hj : j = id
      · rw [if_pos hj] at hm'
        rw [← Option.some.inj hm']
        exact .inl rfl
      · rw [if_neg hj] at hm'
        exact h.isOver j m' hm' (hin.resolve_right hj)

end Aged

/-- `endMatch` takes a match forward if it is on. -/
lemma Forward.endMatch {id : MatchId}
    (hon : ∀ m, σ.matchMap.get? id = some m → m.status.IsOn) : Forward σ (σ.endMatch id) := by
  unfold Orchestrator.endMatch
  split
  · exact .of_eq rfl
  next m hm =>
    intro j m' hm'
    by_cases hj : j = id
    · subst hj
      refine ⟨_, by rw [setTimeout, Js.Map.get?_set, if_pos rfl], ?_⟩
      rcases hon m' hm' with hs | hs <;> simp [hs, MatchStatus.rank]
    · exact ⟨m', by rw [setTimeout, Js.Map.get?_set, if_neg hj, hm'], le_rfl⟩

/-- A timer takes a match forward: the start timer looks, and a completion timer runs only after
the match has ended. -/
lemma aged_call (h : Aged σ) {timer : Timer} {timers : List Timer} (hmem : timer ∈ σ.timers)
    (htimers : ∀ t ∈ timers, t ∈ σ.timers) :
    Aged ({ σ with timers := timers }.call timer.callback) ∧
      Forward σ ({ σ with timers := timers }.call timer.callback) := by
  have hold : ∀ t ∈ timers, t ∈ σ.timers ∨ ∀ id, t.callback ≠ .matchCompleted id :=
    fun t ht => .inl (htimers t ht)
  rcases hcallback : timer.callback with id | id | id | id
  · exact ⟨h.of_eq rfl rfl rfl hold, .of_eq rfl⟩
  · exact ⟨h.of_eq rfl rfl rfl hold, .of_eq rfl⟩
  · refine ⟨h.of_modify htimers (fun m _ hon => ?_) (fun m _ hover => ?_), .of_modify rfl ?_⟩
    · split
      · exact .inr rfl
      · exact hon
    · split
      next hs => rcases hover with hs' | hs' <;> simp [hs] at hs'
      · exact hover
    · intro m hm
      split
      next hs => simp [hs, MatchStatus.rank]
      · exact le_rfl
  · have hended : id ∈ σ.removals := h.completing timer hmem id hcallback
    refine ⟨h.of_modify htimers (fun m hout => absurd hended hout) (fun m _ _ => .inr rfl),
      .of_modify rfl fun m hm => ?_⟩
    rcases h.isOver id m hm hended with hs | hs <;> simp [hs, MatchStatus.rank]

lemma stopServer_timers (id : ServerId) (σ : Orchestrator) :
    ∀ t ∈ (σ.stopServer id).timers, t ∈ σ.timers ∨ ∀ id, t.callback ≠ .matchCompleted id := by
  intro t ht
  unfold stopServer at ht
  split at ht
  · exact .inl ht
  · rcases List.mem_append.1 ht with hold | hnew
    · exact .inl hold
    · exact .inr fun id => by simp [List.mem_singleton.1 hnew]

lemma removeServer_timers (id : ServerId) (σ : Orchestrator) :
    ∀ t ∈ (σ.removeServer id).timers, t ∈ σ.timers ∨ ∀ id, t.callback ≠ .matchCompleted id := by
  intro t ht
  unfold removeServer at ht
  split at ht
  · exact .inl ht
  · simp only at ht
    split at ht
    · exact stopServer_timers id σ t ht
    · exact .inl ht

/-- Every input but `endMatch` takes the matches forward. -/
lemma aged_step (h : Aged σ) (i : Input) :
    Aged (step limits σ i) ∧ (EndsOn σ i → Forward σ (step limits σ i)) := by
  have hsame : ∀ t ∈ σ.timers, t ∈ σ.timers ∨ ∀ id, t.callback ≠ .matchCompleted id :=
    fun _ ht => .inl ht
  cases i with
  | enqueue p mode map skill t | setModeConfig mode cfg | stopServers | wait ms =>
    exact ⟨h.of_eq rfl rfl rfl hsame, fun _ => .of_eq rfl⟩
  | dequeue p mode =>
    obtain ⟨_, heq⟩ := exists_dequeue p mode σ
    rw [step, heq]
    exact ⟨h.of_eq rfl rfl rfl hsame, fun _ => .of_eq rfl⟩
  | tick =>
    have htick := @tick_invariant limits σ (fun τ => Aged τ ∧ Forward σ τ) (fun _ => True)
      (fun τ queue hτ => ⟨hτ.1.of_eq rfl rfl rfl fun _ ht => .inl ht, hτ.2⟩)
      (fun τ υ _ _ _ _ hτ _ hcreate _ _ =>
        ⟨(hτ.1.createMatch hcreate).1, hτ.2.trans (hτ.1.createMatch hcreate).2⟩)
      ⟨h, .of_eq rfl⟩ fun _ _ => trivial
    exact ⟨htick.1, fun _ => htick.2⟩
  | endMatch id => exact ⟨h.endMatch id, fun hon => .endMatch hon⟩
  | createServer cfg =>
    rcases hc : σ.createServer limits cfg with e | ⟨server, τ⟩
    · simp only [step, hc]
      exact ⟨h, fun _ => .of_eq rfl⟩
    · obtain ⟨-, -, rfl⟩ := createServer_eq_ok hc
      simp only [step, hc]
      refine ⟨h.of_eq rfl rfl rfl fun t ht => ?_, fun _ => .of_eq rfl⟩
      rcases List.mem_append.1 ht with hold | hnew
      · exact .inl hold
      · exact .inr fun id => by simp [List.mem_singleton.1 hnew]
  | stopServer id =>
    have htimers := stopServer_timers id σ
    obtain ⟨_, heq⟩ := exists_stopServer id σ
    rw [heq] at htimers
    rw [step, heq]
    exact ⟨h.of_eq rfl rfl rfl htimers, fun _ => .of_eq rfl⟩
  | removeServer id =>
    have htimers := removeServer_timers id σ
    obtain ⟨_, _, -, heq⟩ := exists_removeServer id σ
    rw [heq] at htimers
    rw [step, heq]
    exact ⟨h.of_eq rfl rfl rfl htimers, fun _ => .of_eq rfl⟩
  | fire i =>
    simp only [step]
    split
    · exact ⟨h, fun _ => .of_eq rfl⟩
    next timer htimer =>
      split
      · have hcall := aged_call h (List.mem_of_getElem? htimer)
          fun t (ht : t ∈ σ.timers.eraseIdx i) => List.mem_of_mem_eraseIdx ht
        exact ⟨hcall.1, fun _ => hcall.2⟩
      · exact ⟨h, fun _ => .of_eq rfl⟩

/-! ## Every run -/

/-- Only `endMatch` gives seats back. -/
lemma removals_step (σ : Orchestrator) {i : Input} (hend : ∀ id, i ≠ .endMatch id) :
    (step limits σ i).removals = σ.removals := by
  cases i with
  | endMatch id => exact absurd rfl (hend id)
  | enqueue p mode map skill t | setModeConfig mode cfg | stopServers | wait ms => rfl
  | dequeue p mode =>
    obtain ⟨_, heq⟩ := exists_dequeue p mode σ
    rw [step, heq]
  | tick =>
    refine @tick_invariant limits σ (fun τ => τ.removals = σ.removals) (fun _ => True)
      (fun _ _ hτ => hτ) (fun τ υ _ _ _ _ hτ _ hcreate _ _ => ?_) rfl fun _ _ => trivial
    obtain ⟨_, _, hc⟩ := createMatch_created hcreate
    exact hc.removals.trans hτ
  | createServer cfg =>
    rcases step_createServer limits cfg σ with heq | ⟨_, _, -, -, heq⟩ <;> rw [heq]
  | stopServer id =>
    obtain ⟨_, heq⟩ := exists_stopServer id σ
    rw [step, heq]
  | removeServer id =>
    obtain ⟨_, _, -, heq⟩ := exists_removeServer id σ
    rw [step, heq]
  | fire i =>
    rcases step_fire limits i σ with heq | ⟨timer, _, -, heq⟩ <;> rw [heq]
    cases timer.callback <;> rfl

/-- The seats of no match are given back twice exactly when only matches that are on are ended. -/
lemma count_removals_step (h : Aged σ) (i : Input) :
    (∀ id, (step limits σ i).removals.count id ≤ 1) ↔
      (∀ id, σ.removals.count id ≤ 1) ∧ EndsOn σ i := by
  by_cases hend : ∃ id, i = .endMatch id
  · obtain ⟨id, rfl⟩ := hend
    simp only [step, Orchestrator.endMatch, EndsOn]
    split
    next hnone => simp [hnone]
    next m hm =>
      have hon : m.status.IsOn ↔ id ∉ σ.removals :=
        ⟨fun hon hin => hon.not_isOver (h.isOver id m hm hin), h.isOn id m hm⟩
      simp only [hm, Option.some.injEq, forall_eq', hon, setTimeout, List.count_append]
      refine ⟨fun hcount => ⟨fun j => ?_, fun hin => ?_⟩, fun h j => ?_⟩
      · have := hcount j
        omega
      · have hpos := List.count_pos_iff.2 hin
        have := hcount id
        rw [List.count_singleton_self] at this
        omega
      · by_cases hj : j = id
        · subst hj
          rw [List.count_eq_zero_of_not_mem h.2, List.count_singleton_self]
        · rw [List.count_singleton, if_neg (by simpa using Ne.symm hj)]
          exact h.1 j
  · have hno : ∀ id, i ≠ .endMatch id := fun id hi => hend ⟨id, hi⟩
    rw [removals_step σ hno]
    have htrue : EndsOn σ i := by
      cases i with
      | endMatch id => exact absurd rfl (hno id)
      | _ => trivial
    exact ⟨fun hcount => ⟨hcount, htrue⟩, fun hcount => hcount.1⟩

/-- A run that ends only matches that are on takes every match forward. -/
lemma forward_run {inputs : List Input} (hσ : Aged σ)
    (h : Machine.Along (step limits) EndsOn σ inputs) :
    Forward σ (Machine.run (step limits) σ inputs) := by
  induction inputs generalizing σ with
  | nil => exact .of_eq rfl
  | cons i inputs ih =>
    have hone := @aged_step limits σ hσ i
    exact (hone.2 h.1).trans (ih hone.1 h.2)

/-- **The life of every match is in order exactly when `endMatch` is called for starting and running
matches only.** -/
theorem lifecycle_iff (limits : ServerLimits) (inputs : List Input) :
    InOrder limits inputs ↔ Machine.Along (step limits) EndsOn .new inputs := by
  have hcount := @Machine.iff_along _ _ (step limits) EndsOn Aged
    (fun σ => ∀ id, σ.removals.count id ≤ 1) (fun σ i hσ => (aged_step hσ i).1)
    (fun σ i hσ => count_removals_step hσ i) .new inputs .new
  have hnew : ∀ id, Orchestrator.new.removals.count id ≤ 1 := fun id => Nat.zero_le 1
  refine ⟨fun h => (hcount.1 h.removed_once).2, fun h => ⟨?_, hcount.2 ⟨hnew, h⟩⟩⟩
  rintro first later rfl id m m' hm hm'
  rw [Machine.along_append] at h
  have haged : Aged (run limits first) :=
    @Machine.always _ _ (step limits) Aged (fun σ i hσ => (aged_step hσ i).1) .new first .new
  obtain ⟨m'', hm'', hle⟩ := forward_run haged h.2 id m hm
  rw [run, Machine.run_append] at hm'
  obtain rfl := Option.some.inj (hm'.symm.trans hm'')
  exact hle

/-- The match of two players is ended, and is ended again when it has been completed. -/
def endedTwice : List Input :=
  [.enqueue "a" "arena" none none 0, .enqueue "b" "arena" none none 0, .tick, .endMatch 0,
    .wait 100, .fire 2, .endMatch 0]

/-- The completed match goes back to `ENDING`, and its seats are given back again. -/
theorem completed_match_ends_again : ¬ InOrder ⟨1, 16⟩ endedTwice := by
  have hcompleted : ((run ⟨1, 16⟩ (endedTwice.take 6)).matchMap.get? 0).map (fun m => m.status) =
      some .completed := by
    decide +kernel
  have hending : ((run ⟨1, 16⟩ endedTwice).matchMap.get? 0).map (fun m => m.status) =
      some .ending := by
    decide +kernel
  intro h
  obtain ⟨m, hm, hstatus⟩ := Option.map_eq_some_iff.1 hcompleted
  obtain ⟨m', hm', hstatus'⟩ := Option.map_eq_some_iff.1 hending
  have hrank := h.forward (endedTwice.take 6) [.endMatch 0] rfl 0 m m' hm hm'
  rw [hstatus, hstatus'] at hrank
  exact absurd hrank (by decide)

end Orchestrator

end SyncEngine
