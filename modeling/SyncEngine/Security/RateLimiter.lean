import SyncEngine.Core.Types
import SyncEngine.Machine.Clock
import SyncEngine.Machine.FixedWindow

/-!
# The rate limiter

`RateLimiter` of `src/security/rate-limiter.ts`: a map from keys to the counters of their windows,
and a cleanup that deletes the counters of windows that are over.

What a check answers depends on the counter of its key, and on that only while its window is not
over (`live`).  A cleanup, and whatever is done to other keys, leaves it alone (`live_step`).  So
the answers a key is given are those of a counter of its own that is never cleaned up
(`answersTo_eq`), which is the fixed-window counter of the library.  The bound of the limiter
(`rate_bounded`) is the bound of that counter, and two runs that ask for a key at the same times
give it the same answers (`answers_isolated`).
-/

namespace SyncEngine

open Js

abbrev RateLimitEntry := FixedWindow.Window

structure RateLimitResult where
  allowed : Bool
  remaining : ℕ
  resetAt : Timestamp
  retryAfterMs : Option ℕ
  deriving DecidableEq

/-- The section `security.rateLimit` of the configuration. -/
structure RateLimitConfig where
  window : ℕ
  maxRequests : ℕ

structure RateLimiter where
  limits : Js.Map String RateLimitEntry
  windowMs : ℕ
  maxRequests : ℕ
  blocked : ℕ
  allowed : ℕ

namespace RateLimiter

/-- `x || y` of an optional number. -/
def orElse (x : Option ℕ) (y : ℕ) : ℕ :=
  match x with
  | none => y
  | some x => if x = 0 then y else x

/-- `new RateLimiter(windowMs, maxRequests)`. -/
def new (config : RateLimitConfig) (windowMs maxRequests : Option ℕ) : RateLimiter where
  limits := .empty
  windowMs := orElse windowMs config.window
  maxRequests := orElse maxRequests config.maxRequests
  blocked := 0
  allowed := 0

/-- The entry in which `check` counts: the one of the key, or a new one where there is none or its
window is over. -/
def entryAt (l : RateLimiter) (now : Timestamp) (key : String) : RateLimitEntry :=
  match l.limits.get? key with
  | none => ⟨0, now + l.windowMs⟩
  | some entry => if entry.resetAt ≤ now then ⟨0, now + l.windowMs⟩ else entry

def check (l : RateLimiter) (now : Timestamp) (key : String) : RateLimitResult × RateLimiter :=
  let entry := l.entryAt now key
  let entry := { entry with count := entry.count + 1 }
  let limits := l.limits.set key entry
  if l.maxRequests < entry.count then
    ({ allowed := false
       remaining := 0
       resetAt := entry.resetAt
       retryAfterMs := some (entry.resetAt - now) },
      { l with limits := limits, blocked := l.blocked + 1 })
  else
    ({ allowed := true
       remaining := l.maxRequests - entry.count
       resetAt := entry.resetAt
       retryAfterMs := none },
      { l with limits := limits, allowed := l.allowed + 1 })

def reset (l : RateLimiter) (key : String) : RateLimiter := { l with limits := l.limits.delete key }

/-- `cleanup` goes through the entries and deletes those whose window is over. -/
def cleanup (l : RateLimiter) (now : Timestamp) : RateLimiter :=
  { l with
    limits := l.limits.entries.foldl
      (fun limits e => if e.2.resetAt ≤ now then limits.delete e.1 else limits) l.limits }

/-! ## Runs -/

inductive Call
  | check (key : String)
  | reset (key : String)
  | cleanup
  deriving DecidableEq

def step (l : RateLimiter) : Timestamp × Call → RateLimiter
  | (now, .check key) => (l.check now key).2
  | (_, .reset key) => l.reset key
  | (now, .cleanup) => l.cleanup now

/-- A check of a run, and what it returned. -/
structure Answer where
  now : Timestamp
  key : String
  result : RateLimitResult
  deriving DecidableEq

/-- The checks of a run. -/
def answers (l : RateLimiter) : List (Timestamp × Call) → List Answer
  | [] => []
  | (now, .check key) :: calls =>
    ⟨now, key, (l.check now key).1⟩ :: answers (l.check now key).2 calls
  | (now, call) :: calls => answers (l.step (now, call)) calls

/-- What a run answers to one key. -/
def answersTo (key : String) (l : RateLimiter) (calls : List (Timestamp × Call)) : List Answer :=
  (l.answers calls).filter fun a => a.key = key

/-! ## The counter of a key -/

/-- The counter of a key, if its window is not over. -/
def live (now : Timestamp) (key : String) (l : RateLimiter) : Option RateLimitEntry :=
  FixedWindow.current now (l.limits.get? key)

/-- What a check returns when its window has come to the given count. -/
def resultOf (maxRequests : ℕ) (now : Timestamp) (entry : RateLimitEntry) : RateLimitResult :=
  if maxRequests < entry.count then ⟨false, 0, entry.resetAt, some (entry.resetAt - now)⟩
  else ⟨true, maxRequests - entry.count, entry.resetAt, none⟩

variable {l : RateLimiter} {now : Timestamp} {key : String}

/-- A check counts in the window of the library. -/
lemma check_eq (l : RateLimiter) (now : Timestamp) (key : String) :
    (l.check now key).1 =
        resultOf l.maxRequests now (FixedWindow.hit l.windowMs now (l.limits.get? key)) ∧
      (l.check now key).2.limits =
        l.limits.set key (FixedWindow.hit l.windowMs now (l.limits.get? key)) := by
  have hentry : { l.entryAt now key with count := (l.entryAt now key).count + 1 } =
      FixedWindow.hit l.windowMs now (l.limits.get? key) := by
    unfold entryAt
    cases l.limits.get? key with
    | none => rfl
    | some entry =>
      unfold FixedWindow.hit
      dsimp only
      split <;> rfl
  rw [← hentry]
  unfold check resultOf
  dsimp only
  split
  · exact ⟨rfl, rfl⟩
  · exact ⟨rfl, rfl⟩

@[simp] lemma get?_reset (l : RateLimiter) (key other : String) :
    (l.reset other).limits.get? key = if key = other then none else l.limits.get? key :=
  Js.Map.get?_delete l.limits other key

/-- A cleanup deletes what is over. -/
lemma live_cleanup (l : RateLimiter) (now : Timestamp) (key : String) :
    live now key (l.cleanup now) = live now key l := by
  refine List.foldlRecOn (motive := fun limits : Js.Map String RateLimitEntry =>
    FixedWindow.current now (limits.get? key) = live now key l) l.limits.entries _ rfl ?_
  intro limits hlimits e he
  split
  next hover =>
    rw [Js.Map.get?_delete]
    split
    next hkey =>
      have hget : l.limits.get? key = some e.2 := by
        rw [hkey, ← Js.Map.mem_entries_iff]
        exact he
      rw [live, hget, FixedWindow.current_some, if_neg (not_lt.2 hover)]
      rfl
    · exact hlimits
  · exact hlimits

/-- The calls that are about a key. -/
def About (key : String) (call : Timestamp × Call) : Bool :=
  call.2 = .check key ∨ call.2 = .reset key

/-- A call that is not about a key leaves its counter alone. -/
lemma live_step {call : Timestamp × Call} (h : About key call = false) (l : RateLimiter) :
    live call.1 key (l.step call) = live call.1 key l := by
  rw [About, decide_eq_false_iff_not, not_or] at h
  match call with
  | (now, .check other) =>
    have hne : key ≠ other := by
      rintro rfl
      exact h.1 rfl
    unfold live step
    dsimp only
    rw [(check_eq l now other).2, Js.Map.get?_set_of_ne _ _ hne]
  | (now, .reset other) =>
    have hne : key ≠ other := by
      rintro rfl
      exact h.2 rfl
    unfold live step
    dsimp only
    rw [get?_reset, if_neg hne]
  | (now, .cleanup) => exact live_cleanup l now key

@[simp] lemma step_windowMs (l : RateLimiter) (call : Timestamp × Call) :
    (l.step call).windowMs = l.windowMs := by
  match call with
  | (now, .check key) =>
    unfold step check
    dsimp only
    split <;> rfl
  | (_, .reset _) => rfl
  | (_, .cleanup) => rfl

@[simp] lemma step_maxRequests (l : RateLimiter) (call : Timestamp × Call) :
    (l.step call).maxRequests = l.maxRequests := by
  match call with
  | (now, .check key) =>
    unfold step check
    dsimp only
    split <;> rfl
  | (_, .reset _) => rfl
  | (_, .cleanup) => rfl

/-! ## The answers to one key -/

/-- The answers of a counter that is used for one key only and never cleaned up. -/
def ownAnswers (w m : ℕ) (key : String) :
    Option RateLimitEntry → List (Timestamp × Call) → List Answer
  | _, [] => []
  | s, (now, .check _) :: calls =>
    ⟨now, key, resultOf m now (FixedWindow.hit w now s)⟩ ::
      ownAnswers w m key (some (FixedWindow.hit w now s)) calls
  | _, (_, .reset _) :: calls => ownAnswers w m key none calls
  | s, (_, .cleanup) :: calls => ownAnswers w m key s calls

lemma answersTo_cons_of_not_about {call : Timestamp × Call} (h : About key call = false)
    (l : RateLimiter) (calls : List (Timestamp × Call)) :
    answersTo key l (call :: calls) = answersTo key (l.step call) calls := by
  rw [About, decide_eq_false_iff_not, not_or] at h
  match call with
  | (now, .check other) =>
    have hne : other ≠ key := by
      rintro rfl
      exact h.1 rfl
    exact List.filter_cons_of_neg (by simpa using hne)
  | (_, .reset _) => rfl
  | (_, .cleanup) => rfl

/-- What a run answers to a key is what a counter of the key's own answers. -/
theorem answersTo_eq {calls : List (Timestamp × Call)} {t : Timestamp} {s : Option RateLimitEntry}
    (horder : Machine.InOrder calls) (hfrom : ∀ call ∈ calls, t ≤ call.1)
    (hs : live t key l = FixedWindow.current t s) :
    answersTo key l calls =
      ownAnswers l.windowMs l.maxRequests key s (calls.filter (About key)) := by
  induction calls generalizing l t s with
  | nil => rfl
  | cons call calls ih =>
    obtain ⟨hhead, hrest⟩ := List.pairwise_cons.1 horder
    have hnow : live call.1 key l = FixedWindow.current call.1 s := by
      have hle := hfrom call List.mem_cons_self
      rw [live, ← FixedWindow.current_current hle, ← FixedWindow.current_current hle s]
      exact congrArg _ hs
    cases habout : About key call with
    | false =>
      rw [List.filter_cons_of_neg (by simp [habout]), answersTo_cons_of_not_about habout,
        ih hrest hhead ((live_step habout l).trans hnow), step_windowMs, step_maxRequests]
    | true =>
      rw [List.filter_cons_of_pos habout]
      match call with
      | (now, .check other) =>
        obtain rfl : other = key := by simpa [About] using habout
        have hhit : FixedWindow.hit l.windowMs now (l.limits.get? other) =
            FixedWindow.hit l.windowMs now s := by
          rw [← FixedWindow.hit_current, ← FixedWindow.hit_current l.windowMs now s]
          exact congrArg _ hnow
        have hnext : live now other (l.check now other).2 =
            FixedWindow.current now (some (FixedWindow.hit l.windowMs now s)) := by
          rw [live, (check_eq l now other).2, Js.Map.get?_set_self, hhit]
        have hlater := ih hrest hhead hnext
        rw [← step, step_windowMs, step_maxRequests] at hlater
        rw [ownAnswers, ← hlater, ← hhit, ← (check_eq l now other).1]
        exact List.filter_cons_of_pos (decide_eq_true rfl)
      | (now, .reset other) =>
        obtain rfl : other = key := by simpa [About] using habout
        have hnext : live now other (l.reset other) = FixedWindow.current now none := by
          rw [live, get?_reset, if_pos rfl]
        exact ih hrest hhead hnext
      | (now, .cleanup) => simp [About] at habout

/-- The answers to a key from a new limiter on. -/
lemma answersTo_new {calls : List (Timestamp × Call)} (horder : Machine.InOrder calls)
    (key : String)
    (config : RateLimitConfig) (windowMs maxRequests : Option ℕ) :
    answersTo key (new config windowMs maxRequests) calls =
      ownAnswers (orElse windowMs config.window) (orElse maxRequests config.maxRequests) key none
        (calls.filter (About key)) :=
  answersTo_eq horder (fun call _ => Nat.zero_le call.1) rfl

/-- Two runs with the same calls for a key, at the same times, give it the same answers. -/
theorem answers_isolated {calls calls' : List (Timestamp × Call)} {key : String}
    (horder : Machine.InOrder calls) (horder' : Machine.InOrder calls')
    (hsame : calls.filter (About key) = calls'.filter (About key)) (config : RateLimitConfig)
    (windowMs maxRequests : Option ℕ) :
    answersTo key (new config windowMs maxRequests) calls =
      answersTo key (new config windowMs maxRequests) calls' := by
  rw [answersTo_new horder, answersTo_new horder', hsame]

/-- The second run asks for another key and cleans up just as the window of `a` is over. -/
theorem answers_isolated_cleanup :
    answersTo "a" (new ⟨60000, 100⟩ (some 10) (some 1))
        [(0, .check "a"), (5, .check "a"), (10, .check "a")] =
      answersTo "a" (new ⟨60000, 100⟩ (some 10) (some 1))
        [(0, .check "a"), (1, .check "b"), (5, .check "a"), (7, .reset "b"), (10, .cleanup),
          (10, .check "a")] := by
  apply answers_isolated
  · decide
  · decide
  · decide

/-! ## The bound -/

/-- Without resets the counter of a key is the one of the library. -/
lemma ownAnswers_eq_hits (w m : ℕ) (key : String) (s : Option RateLimitEntry)
    {calls : List (Timestamp × Call)} (hchecks : ∀ call ∈ calls, ∃ other, call.2 = .check other) :
    ownAnswers w m key s calls =
      (FixedWindow.hits w s (calls.map Prod.fst)).map fun h =>
        ⟨h.time, key, resultOf m h.time h.window⟩ := by
  induction calls generalizing s with
  | nil => rfl
  | cons call calls ih =>
    obtain ⟨other, hother⟩ := hchecks call List.mem_cons_self
    obtain ⟨now, call⟩ := call
    obtain rfl : call = .check other := hother
    rw [ownAnswers, ih _ fun c hc => hchecks c (List.mem_cons_of_mem _ hc)]
    rfl

@[simp] lemma resetAt_resultOf (m : ℕ) (now : Timestamp) (entry : RateLimitEntry) :
    (resultOf m now entry).resetAt = entry.resetAt := by
  unfold resultOf
  split <;> rfl

@[simp] lemma allowed_resultOf (m : ℕ) (now : Timestamp) (entry : RateLimitEntry) :
    (resultOf m now entry).allowed = decide (entry.count ≤ m) := by
  unfold resultOf
  split
  next h => simpa using h
  next h => simpa using h

/-- Nothing but checks and cleanups. -/
def NoReset (call : Timestamp × Call) : Prop := ∀ key, call.2 ≠ .reset key

/-- What a run without resets answers to a key, through the counter of the library. -/
lemma exists_hits {calls : List (Timestamp × Call)} (horder : Machine.InOrder calls)
    (hcalls : ∀ call ∈ calls, NoReset call) (key : String) (config : RateLimitConfig)
    (windowMs maxRequests : Option ℕ) :
    ∃ times : List ℕ, times.Pairwise (· ≤ ·) ∧
      answersTo key (new config windowMs maxRequests) calls =
        (FixedWindow.hits (orElse windowMs config.window) none times).map fun h =>
          ⟨h.time, key, resultOf (orElse maxRequests config.maxRequests) h.time h.window⟩ := by
  refine ⟨(calls.filter (About key)).map Prod.fst, List.pairwise_map.2 (horder.filter _), ?_⟩
  rw [answersTo_new horder, ownAnswers_eq_hits]
  intro call hcall
  obtain ⟨hmem, habout⟩ := List.mem_filter.1 hcall
  obtain hcheck | hreset := of_decide_eq_true habout
  · exact ⟨key, hcheck⟩
  · exact absurd hreset (hcalls call hmem key)

/-- A key is allowed at most `m` checks in a window and `2 * m` in any interval of that length, and
it is refused one only after `m` in the same window. -/
theorem rate_bounded {calls : List (Timestamp × Call)} (horder : Machine.InOrder calls)
    (hcalls : ∀ call ∈ calls, NoReset call) (key : String) (config : RateLimitConfig)
    (windowMs maxRequests : Option ℕ) :
    let l := new config windowMs maxRequests
    let as := answersTo key l calls
    (∀ a ∈ as, (as.filter fun b => b.result.allowed ∧ a.result.resetAt ≤ b.now + l.windowMs ∧
      b.now < a.result.resetAt).length ≤ l.maxRequests) ∧
    (∀ t, (as.filter fun b => b.result.allowed ∧ t ≤ b.now ∧ b.now < t + l.windowMs).length ≤
      2 * l.maxRequests) ∧
    ∀ before a after, as = before ++ a :: after → a.result.allowed = false →
      l.maxRequests ≤ (before.filter fun b => b.result.allowed ∧
        b.result.resetAt = a.result.resetAt).length := by
  intro l as
  obtain ⟨times, hsorted, has⟩ := exists_hits horder hcalls key config windowMs maxRequests
  have has : as = (FixedWindow.hits l.windowMs none times).map fun h =>
    ⟨h.time, key, resultOf l.maxRequests h.time h.window⟩ := has
  refine ⟨fun a ha => ?_, fun t => ?_, fun before a after hsplit hrefused => ?_⟩
  · rw [has] at ha
    obtain ⟨h, hh, rfl⟩ := List.mem_map.1 ha
    rw [has, List.filter_map, List.length_map]
    simpa [Function.comp_def] using
      FixedWindow.admitted_in_window (m := l.maxRequests) hsorted hh
  · rw [has, List.filter_map, List.length_map]
    simpa [Function.comp_def] using
      FixedWindow.admitted_in_interval (m := l.maxRequests) hsorted t
  · rw [has] at hsplit
    obtain ⟨pre, rest, hhits, rfl, hrest⟩ := List.map_eq_append_iff.1 hsplit
    obtain ⟨x, post, rfl, rfl, rfl⟩ := List.map_eq_cons_iff.1 hrest
    have hx : l.maxRequests < x.window.count := by
      rw [allowed_resultOf, decide_eq_false_iff_not] at hrefused
      exact not_le.1 hrefused
    rw [List.filter_map, List.length_map]
    simpa [Function.comp_def] using FixedWindow.admitted_before hhits hx

/-- A limit of two checks in 10 ms, at the border of two windows. -/
theorem rate_bounded_border :
    let l := new ⟨60000, 100⟩ (some 10) (some 2)
    let as := answersTo "a" l [(0, .check "a"), (8, .check "a"), (9, .check "a"), (10, .cleanup),
      (10, .check "a"), (11, .check "a")]
    (∀ a ∈ as, (as.filter fun b => b.result.allowed ∧ a.result.resetAt ≤ b.now + l.windowMs ∧
      b.now < a.result.resetAt).length ≤ l.maxRequests) ∧
    (∀ t, (as.filter fun b => b.result.allowed ∧ t ≤ b.now ∧ b.now < t + l.windowMs).length ≤
      2 * l.maxRequests) ∧
    ∀ before a after, as = before ++ a :: after → a.result.allowed = false →
      l.maxRequests ≤ (before.filter fun b => b.result.allowed ∧
        b.result.resetAt = a.result.resetAt).length :=
  rate_bounded (by decide) (by simp [NoReset]) "a" ⟨60000, 100⟩ (some 10) (some 2)

end RateLimiter

end SyncEngine
