import SyncEngine.Security.TieredRateLimiter

/-!
# Fairness of the tiers

A tier refuses a check exactly when it is exhausted (`allowed_check`).  A check that one tier
refuses has been counted by the tiers before it, so it leaves every tier the quota it had exactly if
the first tier, or none, is exhausted (`kept_checkTiers`; a tier with a window of no length never
counts, and may stand before).  As long as that is so, what a tier has counted in its window was
allowed by all of them (`Backed`), and a tier is exhausted only by checks that were allowed.  Hence
a run is fair exactly if none of its checks finds a later tier exhausted and the first one not
(`fair_iff_along`).
-/

namespace SyncEngine

open Js

/-! ## One tier -/

namespace RateLimiter

open FixedWindow

variable {l : RateLimiter} {now t : ℕ} {key : String}

/-- How many checks the open window of a key has counted. -/
def used (now : ℕ) (key : String) (l : RateLimiter) : ℕ :=
  ((live now key l).map Window.count).getD 0

/-- How many more checks of a key are allowed in its window. -/
def left (now : ℕ) (key : String) (l : RateLimiter) : ℕ := l.maxRequests - used now key l

/-- A key has no quota left. -/
def Exhausted (now : ℕ) (key : String) (l : RateLimiter) : Prop :=
  l.maxRequests ≤ used now key l

instance (now : ℕ) (key : String) (l : RateLimiter) : Decidable (Exhausted now key l) := by
  unfold Exhausted
  infer_instance

lemma used_eq {entry : RateLimitEntry} (h : live now key l = some entry) :
    used now key l = entry.count := by
  rw [used, h]
  rfl

lemma allowed_check (l : RateLimiter) (now : ℕ) (key : String) :
    (l.check now key).1.allowed = decide (¬ Exhausted now key l) := by
  rw [(check_eq l now key).1, allowed_resultOf, count_hit]
  unfold Exhausted used live
  congr 1
  rw [not_le, Nat.succ_le_iff]

lemma check_windowMs (l : RateLimiter) (now : ℕ) (key : String) :
    (l.check now key).2.windowMs = l.windowMs :=
  step_windowMs l (now, .check key)

lemma check_maxRequests (l : RateLimiter) (now : ℕ) (key : String) :
    (l.check now key).2.maxRequests = l.maxRequests :=
  step_maxRequests l (now, .check key)

/-- The window of a key behind a check. -/
lemma live_check (l : RateLimiter) (now t : ℕ) (key other : String) :
    live t other (l.check now key).2 =
      if other = key then current t (some (hit l.windowMs now (l.limits.get? key)))
      else live t other l := by
  unfold live
  rw [(check_eq l now key).2, Js.Map.get?_set]
  split <;> rfl

/-- A window that is open was open before. -/
lemma live_earlier (hle : now ≤ t) {entry : RateLimitEntry} (h : live t key l = some entry) :
    live now key l = some entry := by
  unfold live at *
  obtain ⟨hget, hopen⟩ := Option.filter_eq_some_iff.1 h
  rw [hget, current_some, if_pos (hle.trans_lt (of_decide_eq_true hopen))]

/-- No window is open for longer than the tier's. -/
def Opened (now : ℕ) (l : RateLimiter) : Prop :=
  ∀ key entry, live now key l = some entry → entry.resetAt ≤ now + l.windowMs

/-- From `now` on, both limiters have the same quota left for every key. -/
def Kept (now : ℕ) (l l' : RateLimiter) : Prop :=
  ∀ t, now ≤ t → ∀ key, left t key l' = left t key l

lemma Kept.refl (now : ℕ) (l : RateLimiter) : Kept now l l := fun _ _ _ => rfl

lemma left_congr {l' : RateLimiter} (hmax : l'.maxRequests = l.maxRequests)
    (hlive : live t key l' = live t key l) : left t key l' = left t key l := by
  unfold left used
  rw [hmax, hlive]

lemma left_of_live {entry : RateLimitEntry} (h : live t key l = some entry) :
    left t key l = l.maxRequests - entry.count := by
  unfold left used
  rw [h]
  rfl

/-- A check of an exhausted key uses up nothing. -/
lemma left_check_of_exhausted (hexhausted : Exhausted now key l) (t : ℕ) :
    left t key (l.check now key).2 = left t key l := by
  unfold Exhausted at hexhausted
  have hafter := live_check l now t key key
  rw [if_pos rfl] at hafter
  obtain ⟨hnone, hhit⟩ | ⟨win, hsome, hopen, hhit⟩ :=
    hit_current_cases l.windowMs now (l.limits.get? key)
  · -- no window is open, so the tier allows nothing at all
    have hused : used now key l = 0 := by
      rw [used, live, hnone]
      rfl
    unfold left
    rw [check_maxRequests]
    omega
  · rw [used_eq hsome] at hexhausted
    have hbefore : live t key l = current t (some win) := by
      rw [live, (Option.filter_eq_some_iff.1 hsome).1]
    rw [hhit, current_some] at hafter
    rw [current_some] at hbefore
    by_cases hlater : t < win.resetAt
    · rw [if_pos hlater] at hafter hbefore
      rw [left_of_live hafter, left_of_live hbefore, check_maxRequests]
      dsimp only
      omega
    · rw [if_neg hlater] at hafter hbefore
      exact left_congr (check_maxRequests l now key) (hafter.trans hbefore.symm)

/-- A tier with a window of no length never has a window open. -/
lemma Opened.live_eq_none (h : Opened now l) (hw : l.windowMs = 0) (key : String) :
    live now key l = none := by
  cases hlive : live now key l with
  | none => rfl
  | some entry =>
    have hreset := h key entry hlive
    have hopen := of_decide_eq_true (Option.filter_eq_some_iff.1 hlive).2
    rw [hw] at hreset
    omega

lemma live_check_of_windowMs_eq_zero (h : Opened now l) (hw : l.windowMs = 0) (ht : now ≤ t) :
    live t key (l.check now key).2 = none := by
  rw [live_check, if_pos rfl]
  obtain ⟨-, hhit⟩ | ⟨win, hsome, -, -⟩ :=
    hit_current_cases l.windowMs now (l.limits.get? key)
  · rw [hhit, hw, Nat.add_zero, current_some]
    exact if_neg (not_lt.2 ht)
  · exact absurd (hsome.symm.trans (h.live_eq_none hw key)) (Option.some_ne_none win)

/-- A check of a key that is not exhausted uses up quota, if the tier has windows. -/
lemma left_check_of_not_exhausted (hnot : ¬ Exhausted now key l) (hw : l.windowMs ≠ 0) :
    left now key (l.check now key).2 ≠ left now key l := by
  have hopen : now < (hit l.windowMs now (l.limits.get? key)).resetAt :=
    lt_resetAt_hit (Nat.pos_of_ne_zero hw) _
  have hlive := live_check l now now key key
  rw [if_pos rfl, current_some, if_pos hopen] at hlive
  rw [left_of_live hlive, check_maxRequests, count_hit]
  unfold Exhausted used live at hnot
  unfold left used live
  omega

/-- Which checks leave a tier the quota it had. -/
lemma kept_check (h : Opened now l) :
    Kept now l (l.check now key).2 ↔ Exhausted now key l ∨ l.windowMs = 0 := by
  constructor
  · intro hkept
    by_contra hnot
    obtain ⟨hnot, hw⟩ := not_or.1 hnot
    exact left_check_of_not_exhausted hnot hw (hkept now le_rfl key)
  · intro hor t ht other
    by_cases hkey : other = key
    · subst hkey
      obtain hexhausted | hw := hor
      · exact left_check_of_exhausted hexhausted t
      · refine left_congr (check_maxRequests l now other) ?_
        rw [live_check_of_windowMs_eq_zero h hw ht]
        cases hlive : live t other l with
        | none => rfl
        | some entry => rw [← h.live_eq_none hw other, live_earlier ht hlive]
    · refine left_congr (check_maxRequests l now key) ?_
      rw [live_check, if_neg hkey]

/-! ## What a tier has counted -/

/-- A check of a key that all tiers allowed, in the window that is over at `resetAt`. -/
def CountsFor (key : String) (resetAt windowMs : ℕ) (c : TieredCheck) : Prop :=
  c.key = key ∧ c.result.allowed ∧ resetAt ≤ c.now + windowMs

instance (key : String) (resetAt windowMs : ℕ) : DecidablePred (CountsFor key resetAt windowMs) :=
  fun c => by
    unfold CountsFor
    infer_instance

/-- What a tier has counted in an open window, and has not refused, all tiers have allowed. -/
def Backed (now : ℕ) (checks : List TieredCheck) (l : RateLimiter) : Prop :=
  ∀ key entry, live now key l = some entry →
    min entry.count l.maxRequests ≤ checks.countP (CountsFor key entry.resetAt l.windowMs)

lemma Opened.later (h : Opened now l) (ht : now ≤ t) : Opened t l := fun key entry hlive =>
  (h key entry (live_earlier ht hlive)).trans (Nat.add_le_add_right ht _)

lemma Opened.check (h : Opened now l) (key : String) : Opened now (l.check now key).2 := by
  intro other entry hlive
  rw [live_check] at hlive
  rw [check_windowMs]
  split at hlive
  next =>
    obtain ⟨hentry, -⟩ := Option.filter_eq_some_iff.1 hlive
    obtain rfl := Option.some.inj hentry
    obtain ⟨-, hhit⟩ | ⟨win, hsome, -, hhit⟩ :=
      hit_current_cases l.windowMs now (l.limits.get? key)
    · rw [hhit]
    · rw [hhit]
      exact h key win hsome
  next => exact h other entry hlive

lemma Opened.cleanup (h : Opened now l) : Opened now (l.cleanup now) := fun key entry hlive =>
  h key entry ((live_cleanup l now key).symm.trans hlive)

variable {checks : List TieredCheck}

lemma Backed.later (h : Backed now checks l) (ht : now ≤ t) : Backed t checks l :=
  fun key entry hlive => h key entry (live_earlier ht hlive)

lemma Backed.append (h : Backed now checks l) (c : TieredCheck) : Backed now (checks ++ [c]) l := by
  intro key entry hlive
  rw [List.countP_append]
  exact (h key entry hlive).trans (Nat.le_add_right _ _)

lemma Backed.cleanup (h : Backed now checks l) : Backed now checks (l.cleanup now) :=
  fun key entry hlive => h key entry ((live_cleanup l now key).symm.trans hlive)

/-- What was used of the window in which a check falls. -/
lemma Backed.used_le (h : Backed now checks l) (key : String) :
    min (used now key l) l.maxRequests ≤ checks.countP
      (CountsFor key (hit l.windowMs now (l.limits.get? key)).resetAt l.windowMs) := by
  obtain ⟨hnone, -⟩ | ⟨win, hsome, -, hhit⟩ :=
    hit_current_cases l.windowMs now (l.limits.get? key)
  · rw [used, live, hnone]
    exact (Nat.zero_min _).trans_le (Nat.zero_le _)
  · rw [used_eq hsome, hhit]
    exact h key win hsome

/-- A check is counted that all tiers allow, or of which nothing is used up. -/
lemma Backed.check (h : Backed now checks l) (hopened : Opened now l) {c : TieredCheck}
    (hnow : c.now = now) (hkey : c.key = key)
    (hc : c.result.allowed = true ∨ Exhausted now key l ∨ l.windowMs = 0) :
    Backed now (checks ++ [c]) (l.check now key).2 := by
  intro other entry hlive
  have hreset := hopened.check key other entry hlive
  rw [live_check] at hlive
  rw [check_windowMs] at hreset
  rw [check_maxRequests, check_windowMs, List.countP_append]
  split at hlive
  next hother =>
    subst hother
    obtain ⟨hentry, hopen⟩ := Option.filter_eq_some_iff.1 hlive
    have hunexpired : now < entry.resetAt := of_decide_eq_true hopen
    have hused := h.used_le other
    have hcount : entry.count = used now other l + 1 := by
      rw [← Option.some.inj hentry]
      exact count_hit _ _ _
    rw [Option.some.inj hentry] at hused
    obtain hallowed | hexhausted | hw := hc
    · have hone : [c].countP (CountsFor other entry.resetAt l.windowMs) = 1 :=
        List.countP_eq_length.2 fun c' hc' => by
          rw [List.mem_singleton.1 hc']
          exact decide_eq_true ⟨hkey, hallowed, hnow ▸ hreset⟩
      omega
    · unfold Exhausted at hexhausted
      omega
    · omega
  next => exact (h other entry hlive).trans (Nat.le_add_right _ _)

end RateLimiter

/-! ## All tiers -/

open RateLimiter

section Tiers

variable {now : ℕ} {key : String} {tier : String × RateLimiter}
  {tiers : List (String × RateLimiter)}

/-- The tiers that count a check before one refuses it. -/
def passed (now : ℕ) (key : String) (tiers : List (String × RateLimiter)) :
    List (String × RateLimiter) :=
  tiers.takeWhile fun tier => ¬ Exhausted now key tier.2

lemma checkTiers_of_exhausted (h : Exhausted now key tier.2)
    (tiers : List (String × RateLimiter)) : checkTiers now key (tier :: tiers) =
      ((tier.2.check now key).1.tiered, (tier.1, (tier.2.check now key).2) :: tiers) := by
  have hrefused : (tier.2.check now key).1.allowed = false := by
    rw [allowed_check]
    simpa using h
  rw [checkTiers]
  simp [hrefused]

lemma checkTiers_of_not_exhausted (h : ¬ Exhausted now key tier.2)
    (tiers : List (String × RateLimiter)) : checkTiers now key (tier :: tiers) =
      ((checkTiers now key tiers).1,
        (tier.1, (tier.2.check now key).2) :: (checkTiers now key tiers).2) := by
  have hallowed : (tier.2.check now key).1.allowed = true := by
    rw [allowed_check]
    simpa using h
  rw [checkTiers]
  simp [hallowed]

lemma passed_of_exhausted (h : Exhausted now key tier.2) : passed now key (tier :: tiers) = [] :=
  List.takeWhile_cons_of_neg (by simpa using h)

lemma passed_of_not_exhausted (h : ¬ Exhausted now key tier.2) :
    passed now key (tier :: tiers) = tier :: passed now key tiers :=
  List.takeWhile_cons_of_pos (by simpa using h)

/-- A check is allowed if no tier is exhausted. -/
lemma allowed_checkTiers : (checkTiers now key tiers).1.allowed = false ↔
    ∃ tier ∈ tiers, Exhausted now key tier.2 := by
  induction tiers with
  | nil => simp [checkTiers]
  | cons tier tiers ih =>
    by_cases h : Exhausted now key tier.2
    · rw [checkTiers_of_exhausted h]
      refine iff_of_true ?_ ⟨tier, List.mem_cons_self, h⟩
      rw [RateLimitResult.tiered, allowed_check]
      simpa using h
    · rw [checkTiers_of_not_exhausted h, ih]
      simp [h]

/-- Which refused checks leave every tier the quota it had. -/
lemma kept_checkTiers (hopened : ∀ tier ∈ tiers, Opened now tier.2)
    (hsome : ∃ tier ∈ tiers, Exhausted now key tier.2) :
    List.Forall₂ (fun a b => a.1 = b.1 ∧ Kept now a.2 b.2) tiers (checkTiers now key tiers).2 ↔
      ∀ tier ∈ passed now key tiers, tier.2.windowMs = 0 := by
  induction tiers with
  | nil =>
    obtain ⟨tier, hmem, -⟩ := hsome
    cases hmem
  | cons tier tiers ih =>
    obtain ⟨hfirst, hrest⟩ := List.forall_mem_cons.1 hopened
    by_cases h : Exhausted now key tier.2
    · rw [checkTiers_of_exhausted h, passed_of_exhausted h, List.forall₂_cons]
      refine iff_of_true ⟨⟨rfl, (kept_check hfirst).2 (.inl h)⟩, ?_⟩ (List.forall_mem_nil _)
      exact List.forall₂_same.2 fun tier _ => ⟨rfl, Kept.refl now tier.2⟩
    · have hlater : ∃ tier ∈ tiers, Exhausted now key tier.2 := by simpa [h] using hsome
      rw [checkTiers_of_not_exhausted h, passed_of_not_exhausted h, List.forall₂_cons,
        kept_check hfirst, ih hrest hlater, List.forall_mem_cons, or_iff_right h]
      exact and_congr_left fun _ => and_iff_right rfl

/-- What becomes of a tier: it is not reached, or it counts the check. -/
lemma mem_checkTiers {after : String × RateLimiter} (h : after ∈ (checkTiers now key tiers).2) :
    ∃ tier ∈ tiers, after = tier ∨ after = (tier.1, (tier.2.check now key).2) ∧
      ((checkTiers now key tiers).1.allowed = true ∨ Exhausted now key tier.2 ∨
        tier ∈ passed now key tiers) := by
  induction tiers with
  | nil => cases h
  | cons tier tiers ih =>
    by_cases hexhausted : Exhausted now key tier.2
    · rw [checkTiers_of_exhausted hexhausted] at h
      obtain rfl | hmem := List.mem_cons.1 h
      · exact ⟨tier, List.mem_cons_self, .inr ⟨rfl, .inr (.inl hexhausted)⟩⟩
      · exact ⟨after, List.mem_cons_of_mem _ hmem, .inl rfl⟩
    · rw [checkTiers_of_not_exhausted hexhausted] at h ⊢
      rw [passed_of_not_exhausted hexhausted]
      obtain rfl | hmem := List.mem_cons.1 h
      · exact ⟨tier, List.mem_cons_self, .inr ⟨rfl, .inr (.inr List.mem_cons_self)⟩⟩
      · obtain ⟨before, hbefore, hcases⟩ := ih hmem
        refine ⟨before, List.mem_cons_of_mem _ hbefore, hcases.imp_right fun hcounted => ?_⟩
        exact ⟨hcounted.1, hcounted.2.imp_right (Or.imp_right (List.mem_cons_of_mem _))⟩

end Tiers

/-! ## Runs -/

namespace TieredProcess

variable {now : ℕ} {σ : TieredProcess}

/-- The tiers, in the order in which a check goes through them. -/
def tiers (σ : TieredProcess) : List (String × RateLimiter) := σ.limiter.tiers.entries

/-- A refused check finds a tier that has had its number of checks of the key allowed in its window,
and leaves every tier the quota it had. -/
def Fair (σ : TieredProcess) (now : ℕ) (key : String) : Prop :=
  (σ.limiter.check now key).1.allowed = false →
    (∃ tier ∈ σ.tiers, tier.2.maxRequests ≤ σ.checks.countP (CountsFor key
      (FixedWindow.hit tier.2.windowMs now (tier.2.limits.get? key)).resetAt tier.2.windowMs)) ∧
    List.Forall₂ (fun a b => a.1 = b.1 ∧ Kept now a.2 b.2) σ.tiers
      (σ.limiter.check now key).2.tiers.entries

/-- If a tier is exhausted, then none with windows stands before the first exhausted one. -/
def FirstRefuses (σ : TieredProcess) (now : ℕ) (key : String) : Prop :=
  (∃ tier ∈ σ.tiers, Exhausted now key tier.2) →
    ∀ tier ∈ passed now key σ.tiers, tier.2.windowMs = 0

/-- Every tier has windows of its length. -/
def Opened (now : ℕ) (σ : TieredProcess) : Prop := ∀ tier ∈ σ.tiers, RateLimiter.Opened now tier.2

/-- Every tier has counted what all tiers have allowed. -/
def Backed (now : ℕ) (σ : TieredProcess) : Prop :=
  ∀ tier ∈ σ.tiers, RateLimiter.Backed now σ.checks tier.2

/-- A cleanup of one tier. -/
lemma mem_tiers_cleanup {name : String} {after : String × RateLimiter}
    (h : after ∈ (σ.step (now, .cleanup name)).tiers) :
    ∃ tier ∈ σ.tiers, after = tier ∨ after = (tier.1, tier.2.cleanup now) := by
  obtain ⟨tierName, limiter⟩ := after
  unfold tiers at h ⊢
  rw [Js.Map.mem_entries_iff] at h
  simp only [step, TieredRateLimiter.cleanup, Js.Map.get?_modify] at h
  split at h
  next hname =>
    subst hname
    obtain ⟨before, hbefore, rfl⟩ := Option.map_eq_some_iff.1 h
    exact ⟨(tierName, before), (Js.Map.mem_entries_iff _ _ _).2 hbefore, .inr rfl⟩
  next => exact ⟨(tierName, limiter), (Js.Map.mem_entries_iff _ _ _).2 h, .inl rfl⟩

lemma Opened.step (h : σ.Opened now) (call : TieredCall) : (σ.step (now, call)).Opened now := by
  intro after hafter
  cases call with
  | check key =>
    obtain ⟨tier, htier, rfl | ⟨rfl, -⟩⟩ := mem_checkTiers hafter
    · exact h after htier
    · exact (h tier htier).check key
  | cleanup name =>
    obtain ⟨tier, htier, rfl | rfl⟩ := mem_tiers_cleanup hafter
    · exact h after htier
    · exact (h tier htier).cleanup

lemma Backed.step (h : σ.Backed now) (hopened : σ.Opened now) {call : TieredCall}
    (hfirst : ∀ key, call = .check key → σ.FirstRefuses now key) :
    (σ.step (now, call)).Backed now := by
  intro after hafter
  cases call with
  | check key =>
    obtain ⟨tier, htier, rfl | ⟨rfl, hcounted⟩⟩ := mem_checkTiers hafter
    · exact (h after htier).append _
    · refine (h tier htier).check (hopened tier htier) rfl rfl ?_
      obtain hallowed | hexhausted | hpassed := hcounted
      · exact .inl hallowed
      · exact .inr (.inl hexhausted)
      · cases hallowed : (checkTiers now key σ.tiers).1.allowed with
        | true => exact .inl hallowed
        | false =>
          exact .inr (.inr (hfirst key rfl (allowed_checkTiers.1 hallowed) tier hpassed))
  | cleanup name =>
    obtain ⟨tier, htier, rfl | rfl⟩ := mem_tiers_cleanup hafter
    · exact h after htier
    · exact (h tier htier).cleanup

lemma opened_later {t : ℕ} (ht : now ≤ t) (h : σ.Opened now) : σ.Opened t :=
  fun tier htier => (h tier htier).later ht

lemma backed_later {t : ℕ} (ht : now ≤ t) (h : σ.Backed now) : σ.Backed t :=
  fun tier htier => (h tier htier).later ht

/-- Where every tier has counted what was allowed, a check is fair if the first tier refuses. -/
lemma FirstRefuses.fair {key : String} (h : σ.FirstRefuses now key) (hopened : σ.Opened now)
    (hbacked : σ.Backed now) : σ.Fair now key := by
  intro hrefused
  have hsome : ∃ tier ∈ σ.tiers, Exhausted now key tier.2 := allowed_checkTiers.1 hrefused
  refine ⟨?_, (kept_checkTiers hopened hsome).2 (h hsome)⟩
  obtain ⟨tier, htier, hexhausted⟩ := hsome
  refine ⟨tier, htier, ?_⟩
  have hused := (hbacked tier htier).used_le key
  rwa [min_eq_right hexhausted] at hused

lemma Fair.firstRefuses {key : String} (h : σ.Fair now key) (hopened : σ.Opened now) :
    σ.FirstRefuses now key := fun hsome =>
  (kept_checkTiers hopened hsome).1 (h (allowed_checkTiers.2 hsome)).2

/-- A process with the tiers of a list, each with its name, window and number of requests. -/
def new (config : RateLimitConfig) (tiers : List (String × ℕ × ℕ)) : TieredProcess :=
  ⟨.ofTiers config tiers, []⟩

lemma limits_of_mem_new {config : RateLimitConfig} {list : List (String × ℕ × ℕ)}
    {tier : String × RateLimiter} (h : tier ∈ (new config list).tiers) :
    tier.2.limits = .empty := by
  have hall : ∀ name limiter, (TieredRateLimiter.ofTiers config list).tiers.get? name =
      some limiter → limiter.limits = .empty := by
    refine List.foldlRecOn (motive := fun l : TieredRateLimiter => ∀ name limiter,
      l.tiers.get? name = some limiter → limiter.limits = .empty) list _ ?_ ?_
    · intro name limiter hget
      cases hget
    · intro l hl added _ name limiter hget
      rw [TieredRateLimiter.addTier, Js.Map.get?_set] at hget
      split at hget
      next =>
        obtain rfl := Option.some.inj hget
        rfl
      next => exact hl name limiter hget
  exact hall tier.1 tier.2 ((Js.Map.mem_entries_iff _ _ _).1 h)

lemma live_of_mem_new {config : RateLimitConfig} {list : List (String × ℕ × ℕ)}
    {tier : String × RateLimiter} (h : tier ∈ (new config list).tiers) (now : ℕ) (key : String) :
    live now key tier.2 = none := by
  rw [live, limits_of_mem_new h]
  rfl

lemma opened_new (config : RateLimitConfig) (list : List (String × ℕ × ℕ)) (now : ℕ) :
    (new config list).Opened now := by
  intro tier htier key entry hlive
  rw [live_of_mem_new htier] at hlive
  cases hlive

lemma backed_new (config : RateLimitConfig) (list : List (String × ℕ × ℕ)) (now : ℕ) :
    (new config list).Backed now := by
  intro tier htier key entry hlive
  rw [live_of_mem_new htier] at hlive
  cases hlive

/-- A call finds the first tier refusing if it is a check at all. -/
def Guarded (σ : TieredProcess) (call : Timestamp × TieredCall) : Prop :=
  ∀ key, call.2 = .check key → σ.FirstRefuses call.1 key

section Runs

variable {config : RateLimitConfig} {list : List (String × ℕ × ℕ)}
  {inputs before : List (Timestamp × TieredCall)} {call : Timestamp × TieredCall}

lemma opened_before (horder : Machine.InOrder inputs) (hbefore : before ++ [call] <+: inputs) :
    (Machine.run step (new config list) before).Opened call.1 := by
  obtain ⟨hfirst, -, hto⟩ := Machine.inOrder_append.1 (horder.sublist hbefore.sublist)
  exact Machine.invariant_at (fun t t' (σ : TieredProcess) ht (h : σ.Opened t) => opened_later ht h)
    (fun σ i h _ => h.step i.2) (opened_new config list 0) hfirst (fun _ _ => Nat.zero_le _)
    (fun i hi => hto i hi call (List.mem_singleton_self call)) (Nat.zero_le _)
    (Machine.along_true _ _)

lemma backed_before (horder : Machine.InOrder inputs) (hbefore : before ++ [call] <+: inputs)
    (h : Machine.Along step Guarded (new config list) before) :
    (Machine.run step (new config list) before).Backed call.1 := by
  obtain ⟨hfirst, -, hto⟩ := Machine.inOrder_append.1 (horder.sublist hbefore.sublist)
  have hboth := Machine.invariant_at
    (fun t t' (σ : TieredProcess) ht (h : σ.Opened t ∧ σ.Backed t) =>
      ⟨opened_later ht h.1, backed_later ht h.2⟩)
    (fun σ i h hi => ⟨h.1.step i.2, h.2.step h.1 hi⟩)
    ⟨opened_new config list 0, backed_new config list 0⟩ hfirst (fun _ _ => Nat.zero_le _)
    (fun i hi => hto i hi call (List.mem_singleton_self call)) (Nat.zero_le _) h
  exact hboth.2

end Runs

/-- **Fairness of the tiers.**  In a run in the order of time every check is fair exactly if none
finds a tier exhausted and the first one not. -/
theorem fair_iff_along (config : RateLimitConfig) (list : List (String × ℕ × ℕ))
    {inputs : List (Timestamp × TieredCall)} (horder : Machine.InOrder inputs) :
    (∀ before now key, before ++ [(now, .check key)] <+: inputs →
      (Machine.run step (new config list) before).Fair now key) ↔
    Machine.Along step Guarded (new config list) inputs := by
  constructor
  · intro h
    rw [Machine.along_iff_forall]
    rintro before ⟨now, call⟩ hbefore key rfl
    exact (h before now key hbefore).firstRefuses (opened_before horder hbefore)
  · intro h before now key hbefore
    obtain ⟨later, rfl⟩ := hbefore
    obtain ⟨hrun, -⟩ := Machine.along_append.1 h
    obtain ⟨hrun, hcheck⟩ := Machine.along_append.1 hrun
    have hwhole : before ++ [(now, .check key)] <+: before ++ [(now, .check key)] ++ later :=
      List.prefix_append _ _
    exact (hcheck.1 key rfl).fair (opened_before horder hwhole)
      (backed_before horder hwhole hrun)

/-- Two checks in ten milliseconds, and one in every millisecond. -/
def twoTiers : List (String × ℕ × ℕ) := [("burst", 10, 2), ("steady", 1, 1)]

/-- The second check is refused by the second tier, and the third by the first one. -/
def threeChecks : List (Timestamp × TieredCall) :=
  [(0, .check "a"), (0, .check "a"), (1, .check "a")]

theorem fair_iff_along_threeChecks :
    (∀ before now key, before ++ [(now, .check key)] <+: threeChecks →
      (Machine.run step (new ⟨60000, 100⟩ twoTiers) before).Fair now key) ↔
    Machine.Along step Guarded (new ⟨60000, 100⟩ twoTiers) threeChecks :=
  fair_iff_along ⟨60000, 100⟩ twoTiers (by decide)

/-- The third check is refused although only one was allowed. -/
theorem refused_after_one : ¬ ∀ (config : RateLimitConfig) (list : List (String × ℕ × ℕ))
    (inputs : List (Timestamp × TieredCall)), Machine.InOrder inputs →
    ∀ before now key, before ++ [(now, .check key)] <+: inputs →
      (Machine.run step (new config list) before).Fair now key := by
  intro h
  have hfair := h ⟨60000, 100⟩ twoTiers threeChecks (by decide)
    [(0, .check "a"), (0, .check "a")] 1 "a" (List.prefix_refl _)
  have hcounted := (hfair (by decide +kernel)).1
  exact absurd hcounted (by decide +kernel)

end TieredProcess

end SyncEngine
