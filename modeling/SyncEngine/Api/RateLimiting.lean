import SyncEngine.Security.RateLimiter

/-!
# What the rate limiter tells its clients

`createRateLimitMiddleware` of `src/api/middleware.ts` puts the result of `RateLimiter.check` into
headers: how many more requests are passed on, when the window ends, and to a client that it turns
away after how many seconds to come back.

Is a client that believes the headers treated as they say?  What other clients do and when the
limiter cleans up has no part in it, since the answers to a key are those of a counter of its own
(`RateLimiter.answersTo_eq`).  So what follows an answer is what follows a request in the library's
fixed window, and the three headers are exact (`remaining_exact`, `retryAfter_exact`).

The counts of `getStats` are exact as well, and after a cleanup only the clients of the last window
are tracked (`stats_exact`).
-/

namespace SyncEngine

open Js

/-- What the middleware reads of a request: `req.ip` and `req.socket.remoteAddress`. -/
structure ClientAddress where
  ip : Option String
  remoteAddress : Option String
  deriving DecidableEq

/-- `x || y` of an optional string. -/
def orElseText (x : Option String) (y : String) : String :=
  match x with
  | none => y
  | some x => if x = "" then y else x

/-- `req.ip || req.socket.remoteAddress || 'unknown'`. -/
def ClientAddress.key (c : ClientAddress) : String :=
  orElseText c.ip (orElseText c.remoteAddress "unknown")

/-- The body of the answer 429. -/
structure TooManyRequests where
  error : String
  retryAfterMs : Option ℕ
  deriving DecidableEq

/-- What the middleware does to a response: the headers `X-RateLimit-Remaining`,
`X-RateLimit-Reset` and `Retry-After`, and the status and the body where it does not call `next`. -/
structure RateLimited where
  remaining : ℕ
  reset : Timestamp
  retryAfter : Option ℕ
  refusal : Option (ℕ × TooManyRequests)
  deriving DecidableEq

/-- `next()` is called. -/
def RateLimited.passed (r : RateLimited) : Bool := r.refusal.isNone

/-- `Math.ceil(ms / 1000)`.  The quotient of a safe integer is never rounded down to an integer. -/
def ceilSeconds (ms : ℕ) : ℕ := (ms + 999) / 1000

/-- The headers and the answer for a result. -/
def RateLimitResult.respond (result : RateLimitResult) : RateLimited where
  remaining := result.remaining
  reset := result.resetAt
  retryAfter :=
    if result.allowed then none
    else some (ceilSeconds (RateLimiter.orElse result.retryAfterMs 1000))
  refusal :=
    if result.allowed then none else some (429, ⟨"Too many requests", result.retryAfterMs⟩)

namespace RateLimiter

/-- `createRateLimitMiddleware` -/
def rateLimitMiddleware (l : RateLimiter) (now : Timestamp) (client : ClientAddress) :
    RateLimited × RateLimiter :=
  let (result, l) := l.check now client.key
  (result.respond, l)

structure Stats where
  trackedKeys : ℕ
  blocked : ℕ
  allowed : ℕ
  deriving DecidableEq

def getStats (l : RateLimiter) : Stats := ⟨l.limits.size, l.blocked, l.allowed⟩

/-! ## Requests and cleanups -/

inductive Traffic
  | request (client : ClientAddress)
  | cleanup
  deriving DecidableEq

/-- What the limiter is called for. -/
def Traffic.call : Traffic → Call
  | .request client => .check client.key
  | .cleanup => .cleanup

def serve (l : RateLimiter) : Timestamp × Traffic → RateLimiter
  | (now, .request client) => (l.rateLimitMiddleware now client).2
  | (now, .cleanup) => l.cleanup now

/-- A request of a run, by whom it was, and what was done to its response. -/
structure Served where
  now : Timestamp
  key : String
  response : RateLimited
  deriving DecidableEq

/-- The requests of a run. -/
def responses (l : RateLimiter) : List (Timestamp × Traffic) → List Served
  | [] => []
  | (now, .request client) :: traffic =>
    ⟨now, client.key, (l.rateLimitMiddleware now client).1⟩ ::
      responses (l.rateLimitMiddleware now client).2 traffic
  | (now, .cleanup) :: traffic => responses (l.cleanup now) traffic

/-- The requests of one client. -/
def responsesTo (key : String) (l : RateLimiter) (traffic : List (Timestamp × Traffic)) :
    List Served :=
  (l.responses traffic).filter fun s => s.key = key

/-- The calls of the limiter that the traffic comes to. -/
def calls (traffic : List (Timestamp × Traffic)) : List (Timestamp × Call) :=
  traffic.map fun t => (t.1, t.2.call)

variable {l : RateLimiter} {now : Timestamp} {key : String}

lemma responses_eq (l : RateLimiter) (traffic : List (Timestamp × Traffic)) :
    l.responses traffic =
      (l.answers (calls traffic)).map fun a => ⟨a.now, a.key, a.result.respond⟩ := by
  induction traffic generalizing l with
  | nil => rfl
  | cons t traffic ih =>
    obtain ⟨now, client | _⟩ := t
    · rw [responses, ih]
      rfl
    · exact ih (l.cleanup now)

/-- The requests of a client are the answers to its key. -/
lemma responsesTo_eq (key : String) (l : RateLimiter) (traffic : List (Timestamp × Traffic)) :
    responsesTo key l traffic =
      (answersTo key l (calls traffic)).map fun a => ⟨a.now, a.key, a.result.respond⟩ := by
  rw [responsesTo, responses_eq, List.filter_map, answersTo]
  rfl

lemma inOrder_calls {traffic : List (Timestamp × Traffic)} (h : Machine.InOrder traffic) :
    Machine.InOrder (calls traffic) :=
  List.pairwise_map.2 h

@[simp] lemma passed_respond (result : RateLimitResult) :
    result.respond.passed = result.allowed := by
  unfold RateLimitResult.respond RateLimited.passed
  cases result.allowed <;> rfl

/-! ## After an answer -/

/-- The window in which a request of the client is counted. -/
def windowOf (l : RateLimiter) (now : Timestamp) (key : String) : RateLimitEntry :=
  FixedWindow.hit l.windowMs now (l.limits.get? key)

lemma rateLimitMiddleware_eq (l : RateLimiter) (now : Timestamp) (client : ClientAddress) :
    (l.rateLimitMiddleware now client).1 =
      (resultOf l.maxRequests now (l.windowOf now client.key)).respond := by
  rw [windowOf, ← (check_eq l now client.key).1]
  rfl

/-- What a client is told after a request are the requests that its window counts from there on. -/
lemma exists_hits_after {client : ClientAddress} {later : List (Timestamp × Traffic)}
    (horder : Machine.InOrder ((now, .request client) :: later)) :
    ∃ times : List ℕ, times.Pairwise (· ≤ ·) ∧
      responsesTo client.key (l.rateLimitMiddleware now client).2 later =
        (FixedWindow.hits l.windowMs (some (l.windowOf now client.key)) times).map fun h =>
          ⟨h.time, client.key, (resultOf l.maxRequests h.time h.window).respond⟩ := by
  obtain ⟨hfrom, horder⟩ := List.pairwise_cons.1 horder
  have hwindow : (l.check now client.key).2.windowMs = l.windowMs :=
    step_windowMs l (now, .check client.key)
  have hmax : (l.check now client.key).2.maxRequests = l.maxRequests :=
    step_maxRequests l (now, .check client.key)
  have hlive : live now client.key (l.check now client.key).2 =
      FixedWindow.current now (some (l.windowOf now client.key)) := by
    rw [live, (check_eq l now client.key).2, Js.Map.get?_set_self, windowOf]
  refine ⟨((calls later).filter (About client.key)).map Prod.fst,
    List.pairwise_map.2 ((inOrder_calls horder).filter _), ?_⟩
  have hchecks : ∀ call ∈ (calls later).filter (About client.key),
      ∃ other, call.2 = .check other := by
    intro call hcall
    obtain ⟨hmem, habout⟩ := List.mem_filter.1 hcall
    obtain ⟨t, -, rfl⟩ := List.mem_map.1 hmem
    obtain ⟨now, other | _⟩ := t
    · exact ⟨other.key, rfl⟩
    · simp [About, Traffic.call] at habout
  have hanswers : answersTo client.key (l.check now client.key).2 (calls later) = _ :=
    answersTo_eq (inOrder_calls horder) (List.forall_mem_map.2 fun t ht => hfrom t ht) hlive
  rw [ownAnswers_eq_hits _ _ _ _ hchecks, hwindow, hmax] at hanswers
  have hserved : responsesTo client.key (l.rateLimitMiddleware now client).2 later = _ :=
    responsesTo_eq client.key (l.check now client.key).2 later
  rw [hserved, hanswers, List.map_map]
  rfl

/-- The request of the client that comes `i` requests after one. -/
lemma exists_hit_of_later {client : ClientAddress} {later : List (Timestamp × Traffic)}
    (horder : Machine.InOrder ((now, .request client) :: later)) :
    ∃ times : List ℕ, times.Pairwise (· ≤ ·) ∧ ∀ (i : ℕ) (s : Served),
      (responsesTo client.key (l.rateLimitMiddleware now client).2 later)[i]? = some s →
        ∃ h : FixedWindow.Hit,
          (FixedWindow.hits l.windowMs (some (l.windowOf now client.key)) times)[i]? = some h ∧
          s.now = h.time ∧ s.response = (resultOf l.maxRequests h.time h.window).respond := by
  obtain ⟨times, hsorted, hlater⟩ := exists_hits_after (l := l) horder
  refine ⟨times, hsorted, fun i s hs => ?_⟩
  rw [hlater, List.getElem?_map] at hs
  obtain ⟨h, hh, rfl⟩ := Option.map_eq_some_iff.1 hs
  exact ⟨h, hh, rfl, rfl⟩

lemma reset_respond (m : ℕ) (now : Timestamp) (entry : RateLimitEntry) :
    (resultOf m now entry).respond.reset = entry.resetAt :=
  resetAt_resultOf m now entry

lemma passed_resultOf {m : ℕ} {now : Timestamp} {entry : RateLimitEntry} :
    (resultOf m now entry).respond.passed = true ↔ entry.count ≤ m := by
  rw [passed_respond, allowed_resultOf, decide_eq_true_eq]

lemma remaining_respond (m : ℕ) (now : Timestamp) (entry : RateLimitEntry) :
    (resultOf m now entry).respond.remaining = m - entry.count := by
  unfold resultOf
  split
  next h => exact (Nat.sub_eq_zero_of_le h.le).symm
  · rfl

/-- **`X-RateLimit-Remaining` and `X-RateLimit-Reset`.**  Of the requests of a client that come
after one and before the announced time, the first ones are passed on, as many as were announced,
and no others; and they are told the same time. -/
theorem remaining_exact (l : RateLimiter) (now : Timestamp) (client : ClientAddress)
    {later : List (Timestamp × Traffic)}
    (horder : Machine.InOrder ((now, .request client) :: later)) :
    let told := (l.rateLimitMiddleware now client).1
    ∀ (i : ℕ) (s : Served),
      (responsesTo client.key (l.rateLimitMiddleware now client).2 later)[i]? = some s →
        s.now < told.reset →
          (s.response.passed = true ↔ i < told.remaining) ∧ s.response.reset = told.reset := by
  intro told i s hs hopen
  obtain ⟨times, hsorted, hlater⟩ := exists_hit_of_later (l := l) horder
  obtain ⟨h, hh, htime, hresponse⟩ := hlater i s hs
  have htold : told = (resultOf l.maxRequests now (l.windowOf now client.key)).respond :=
    rateLimitMiddleware_eq l now client
  rw [htime, htold, reset_respond] at hopen
  have hwindow := FixedWindow.window_of_open hsorted hh hopen
  rw [hresponse, htold, passed_resultOf, remaining_respond, reset_respond, reset_respond, hwindow]
  refine ⟨?_, rfl⟩
  dsimp only
  omega

/-- A limiter of two requests in 10 ms: another client and a cleanup come in between. -/
theorem remaining_exact_two :
    let l := new ⟨60000, 100⟩ (some 10) (some 2)
    let a : ClientAddress := ⟨some "a", none⟩
    let later := [(1, .request ⟨some "b", none⟩), (2, .cleanup), (3, .request a), (9, .request a)]
    let told := (l.rateLimitMiddleware 0 a).1
    ∀ (i : ℕ) (s : Served),
      (responsesTo a.key (l.rateLimitMiddleware 0 a).2 later)[i]? = some s →
        s.now < told.reset →
          (s.response.passed = true ↔ i < told.remaining) ∧ s.response.reset = told.reset :=
  remaining_exact (new ⟨60000, 100⟩ (some 10) (some 2)) 0 ⟨some "a", none⟩ (by decide)

/-- A client is turned away only while its window is open. -/
lemma lt_resetAt_of_refused (hmax : 0 < l.maxRequests)
    (hrefused : l.maxRequests < (l.windowOf now key).count) :
    now < (l.windowOf now key).resetAt := by
  obtain ⟨-, hhit⟩ | ⟨win, -, hopen, hhit⟩ :=
    FixedWindow.hit_current_cases l.windowMs now (l.limits.get? key)
  · rw [windowOf, hhit] at hrefused
    exact absurd hrefused (not_lt.2 hmax)
  · rw [windowOf, hhit]
    exact hopen

lemma retryAfter_eq_some {m s : ℕ} {entry : RateLimitEntry} (hopen : m < entry.count →
    now < entry.resetAt) (h : (resultOf m now entry).respond.retryAfter = some s) :
    m < entry.count ∧ s = ceilSeconds (entry.resetAt - now) := by
  unfold resultOf RateLimitResult.respond at h
  by_cases hcount : m < entry.count
  · have hpos : entry.resetAt - now ≠ 0 := Nat.sub_ne_zero_of_lt (hopen hcount)
    simp only [if_pos hcount, Bool.false_eq_true, if_false, orElse, if_neg hpos,
      Option.some.injEq] at h
    exact ⟨hcount, h.symm⟩
  · simp [if_neg hcount] at h

/-- The announced number of seconds is the least that reaches the end of the window. -/
lemma ceilSeconds_sub {now reset : ℕ} (hopen : now < reset) :
    reset ≤ now + 1000 * ceilSeconds (reset - now) ∧
      now + 1000 * ceilSeconds (reset - now) < reset + 1000 := by
  unfold ceilSeconds
  omega

/-- **`Retry-After`.**  A client that was turned away and whose next request comes after the
announced number of seconds is passed on, whatever others do meanwhile; and if it comes a second
or more too early, it is turned away again. -/
theorem retryAfter_exact {l : RateLimiter} (hmax : 0 < l.maxRequests) (now : Timestamp)
    (client : ClientAddress) {later : List (Timestamp × Traffic)}
    (horder : Machine.InOrder ((now, .request client) :: later)) {seconds : ℕ}
    (htold : (l.rateLimitMiddleware now client).1.retryAfter = some seconds) {s : Served}
    (hnext : (responsesTo client.key (l.rateLimitMiddleware now client).2 later).head? = some s) :
    (now + 1000 * seconds ≤ s.now → s.response.passed = true) ∧
      (s.now + 1000 ≤ now + 1000 * seconds → s.response.passed = false) := by
  obtain ⟨times, hsorted, hlater⟩ := exists_hit_of_later (l := l) horder
  rw [List.head?_eq_getElem?] at hnext
  obtain ⟨h, hh, htime, hresponse⟩ := hlater 0 s hnext
  rw [rateLimitMiddleware_eq] at htold
  obtain ⟨hcount, rfl⟩ := retryAfter_eq_some (lt_resetAt_of_refused hmax) htold
  obtain ⟨hreach, hleast⟩ := ceilSeconds_sub (lt_resetAt_of_refused hmax hcount)
  rw [htime, hresponse]
  constructor
  · intro hlate
    have hwindow := FixedWindow.window_of_over hh (fun j hj => absurd hj (Nat.not_lt_zero j))
      (hreach.trans hlate)
    rw [passed_resultOf, hwindow]
    exact hmax
  · intro hearly
    have hopen := Nat.lt_of_add_lt_add_right (hearly.trans_lt hleast)
    have hwindow := FixedWindow.window_of_open hsorted hh hopen
    rw [← Bool.not_eq_true, passed_resultOf, hwindow]
    dsimp only
    omega

/-- One request in 2500 ms: the client is told to come back after three seconds. -/
theorem retryAfter_exact_three :
    (3 + 1000 * 3 ≤ 3003 → RateLimited.passed ⟨0, 5503, none, none⟩ = true) ∧
      (3003 + 1000 ≤ 3 + 1000 * 3 → RateLimited.passed ⟨0, 5503, none, none⟩ = false) :=
  have horder : Machine.InOrder [(3, .request ⟨some "a", none⟩), (100, .request ⟨none, none⟩),
      (3003, Traffic.request ⟨none, some "a"⟩)] := by decide
  retryAfter_exact (l := (rateLimitMiddleware (new ⟨60000, 100⟩ (some 2500) (some 1)) 0
    ⟨some "a", none⟩).2) (by decide) 3 ⟨some "a", none⟩ horder (by decide)
    (s := ⟨3003, "a", ⟨0, 5503, none, none⟩⟩) (by decide)

/-! ## Statistics -/

/-- A cleanup leaves the windows that are not over, and nothing else. -/
lemma get?_cleanup (l : RateLimiter) (now : Timestamp) (key : String) :
    (l.cleanup now).limits.get? key = FixedWindow.current now (l.limits.get? key) := by
  have hdelete := Js.Map.get?_foldl_delete (fun e => decide (e.2.resetAt ≤ now)) l.limits key
  simp only [decide_eq_true_eq] at hdelete
  refine hdelete.trans (congrArg (Option.filter · _) (funext fun entry => ?_))
  rw [← decide_not]
  exact decide_eq_decide.2 not_le

/-- The counts are those of the requests served so far.  Every tracked window was announced to its
client, and every announced window that is not over is tracked. -/
structure Counted (now : Timestamp) (served : List Served) (l : RateLimiter) : Prop where
  allowed : l.allowed = (served.filter fun s => s.response.passed).length
  blocked : l.blocked = (served.filter fun s => !s.response.passed).length
  told : ∀ key entry, l.limits.get? key = some entry →
    ∃ s ∈ served, s.key = key ∧ s.response.reset = entry.resetAt
  tracked : ∀ s ∈ served, now < s.response.reset →
    ∃ entry, l.limits.get? s.key = some entry ∧ entry.resetAt = s.response.reset

variable {served : List Served}

lemma Counted.later (h : Counted now served l) {now' : Timestamp} (hle : now ≤ now') :
    Counted now' served l :=
  ⟨h.allowed, h.blocked, h.told, fun s hs hopen => h.tracked s hs (hle.trans_lt hopen)⟩

lemma Counted.cleanup (h : Counted now served l) : Counted now served (l.cleanup now) where
  allowed := h.allowed
  blocked := h.blocked
  told key entry hget := by
    rw [get?_cleanup, FixedWindow.current, Option.filter_eq_some_iff] at hget
    exact h.told key entry hget.1
  tracked s hs hopen := by
    obtain ⟨entry, hget, hreset⟩ := h.tracked s hs hopen
    refine ⟨entry, ?_, hreset⟩
    rw [get?_cleanup, hget, FixedWindow.current_some, if_pos (hreset ▸ hopen)]

/-- The window of a request is the one that was announced to its client before, if that is not
over. -/
lemma resetAt_windowOf {entry : RateLimitEntry} (hget : l.limits.get? key = some entry)
    (hopen : now < entry.resetAt) : (l.windowOf now key).resetAt = entry.resetAt := by
  rw [windowOf, hget]
  unfold FixedWindow.hit
  dsimp only
  rw [if_neg (not_le.2 hopen)]

lemma counts_check (l : RateLimiter) (now : Timestamp) (key : String) :
    (l.check now key).2.allowed = l.allowed + (if (l.check now key).1.allowed then 1 else 0) ∧
      (l.check now key).2.blocked = l.blocked + (if (l.check now key).1.allowed then 0 else 1) := by
  unfold check
  dsimp only
  split
  · exact ⟨rfl, rfl⟩
  · exact ⟨rfl, rfl⟩

lemma Counted.request (h : Counted now served l) (client : ClientAddress) :
    Counted now (served ++ [⟨now, client.key, (l.rateLimitMiddleware now client).1⟩])
      (l.rateLimitMiddleware now client).2 := by
  have hget : ∀ key, (l.rateLimitMiddleware now client).2.limits.get? key =
      if key = client.key then some (l.windowOf now client.key) else l.limits.get? key := by
    intro key
    have hlimits : (l.rateLimitMiddleware now client).2.limits = _ := (check_eq l now client.key).2
    rw [hlimits, Js.Map.get?_set, windowOf]
  have hreset : (l.rateLimitMiddleware now client).1.reset =
      (l.windowOf now client.key).resetAt := by
    rw [rateLimitMiddleware_eq, reset_respond]
  have hpassed : (l.rateLimitMiddleware now client).1.passed = (l.check now client.key).1.allowed :=
    passed_respond _
  obtain ⟨hallowed, hblocked⟩ := counts_check l now client.key
  refine ⟨?_, ?_, fun key entry hentry => ?_, fun s hs hopen => ?_⟩
  · rw [List.filter_append, List.length_append, ← h.allowed]
    refine hallowed.trans (congrArg _ ?_)
    rw [List.filter_singleton, hpassed]
    cases (l.check now client.key).1.allowed <;> rfl
  · rw [List.filter_append, List.length_append, ← h.blocked]
    refine hblocked.trans (congrArg _ ?_)
    rw [List.filter_singleton, hpassed]
    cases (l.check now client.key).1.allowed <;> rfl
  · rw [hget] at hentry
    split at hentry
    next hkey =>
      obtain rfl := Option.some.inj hentry
      exact ⟨_, List.mem_append_right _ (List.mem_singleton.2 rfl), hkey.symm, hreset⟩
    next =>
      obtain ⟨s, hs, htold⟩ := h.told key entry hentry
      exact ⟨s, List.mem_append_left _ hs, htold⟩
  · obtain hs | hs := List.mem_append.1 hs
    · obtain ⟨entry, hentry, hsame⟩ := h.tracked s hs hopen
      rw [hget]
      split
      next hkey =>
        rw [hkey] at hentry
        exact ⟨_, rfl, (resetAt_windowOf hentry (hsame ▸ hopen)).trans hsame⟩
      next => exact ⟨entry, hentry, hsame⟩
    · obtain rfl := List.mem_singleton.1 hs
      exact ⟨_, (hget client.key).trans (if_pos rfl), hreset.symm⟩

lemma responses_append (l : RateLimiter) (first later : List (Timestamp × Traffic)) :
    l.responses (first ++ later) =
      l.responses first ++ (Machine.run serve l first).responses later := by
  induction first generalizing l with
  | nil => rfl
  | cons t first ih =>
    obtain ⟨now, client | _⟩ := t
    · exact congrArg (_ :: ·) (ih _)
    · exact ih _

lemma counted_run {traffic : List (Timestamp × Traffic)} (horder : Machine.InOrder traffic)
    (hnow : ∀ t ∈ traffic, t.1 ≤ now) (config : RateLimitConfig)
    (windowMs maxRequests : Option ℕ) :
    Counted now ((new config windowMs maxRequests).responses traffic)
      (Machine.run serve (new config windowMs maxRequests) traffic) := by
  induction traffic using List.reverseRecOn generalizing now with
  | nil =>
    refine ⟨rfl, rfl, fun key entry hget => ?_, fun s hs => ?_⟩
    · cases hget
    · cases hs
  | append_singleton traffic t ih =>
    obtain ⟨horder, -, hlast⟩ := Machine.inOrder_append.1 horder
    have hbefore := ih horder fun t' ht' => hlast t' ht' t (List.mem_singleton.2 rfl)
    refine Counted.later ?_ (hnow t (by simp))
    rw [responses_append, Machine.run_append]
    obtain ⟨now, client | _⟩ := t
    · exact hbefore.request client
    · have hnone : ∀ l : RateLimiter, l.responses [(now, .cleanup)] = [] := fun _ => rfl
      rw [hnone, List.append_nil]
      exact hbefore.cleanup

/-- The clients that have been told of a window that is not over. -/
def openKeys (now : Timestamp) (served : List Served) : Finset String :=
  ((served.filter fun s => now < s.response.reset).map Served.key).toFinset

/-- **Statistics.**  Over any traffic, `allowed` and `blocked` count the requests that were passed
on and the ones that were not; and after a cleanup the limiter tracks as many keys as there are
clients whose announced window is not over. -/
theorem stats_exact {traffic : List (Timestamp × Traffic)}
    (horder : Machine.InOrder (traffic ++ [(now, .cleanup)])) (config : RateLimitConfig)
    (windowMs maxRequests : Option ℕ) :
    let l := new config windowMs maxRequests
    let served := l.responses traffic
    (Machine.run serve l (traffic ++ [(now, .cleanup)])).getStats =
      { trackedKeys := (openKeys now served).card
        blocked := (served.filter fun s => !s.response.passed).length
        allowed := (served.filter fun s => s.response.passed).length } := by
  intro l served
  obtain ⟨horder, -, hlast⟩ := Machine.inOrder_append.1 horder
  have hcounted : Counted now served (Machine.run serve l traffic) :=
    counted_run horder (fun t ht => hlast t ht _ (List.mem_singleton.2 rfl)) config windowMs
      maxRequests
  rw [Machine.run_append]
  set σ := Machine.run serve l traffic with hσ
  have hkeys : (σ.cleanup now).limits.keys.toFinset = openKeys now served := by
    ext key
    rw [List.mem_toFinset, Js.Map.mem_keys_iff, get?_cleanup, openKeys, List.mem_toFinset,
      List.mem_map]
    constructor
    · intro hsome
      obtain ⟨entry, hentry⟩ := Option.isSome_iff_exists.1 hsome
      rw [FixedWindow.current, Option.filter_eq_some_iff] at hentry
      obtain ⟨s, hs, hkey, hreset⟩ := hcounted.told key entry hentry.1
      refine ⟨s, List.mem_filter.2 ⟨hs, ?_⟩, hkey⟩
      rw [hreset]
      exact hentry.2
    · rintro ⟨s, hs, rfl⟩
      obtain ⟨hmem, hopen⟩ := List.mem_filter.1 hs
      obtain ⟨entry, hentry, hreset⟩ := hcounted.tracked s hmem (of_decide_eq_true hopen)
      rw [hentry, FixedWindow.current_some, if_pos (hreset ▸ of_decide_eq_true hopen)]
      rfl
  have hsize : (σ.cleanup now).limits.size = (openKeys now served).card := by
    rw [Js.Map.size_eq_length_keys, ← hkeys,
      List.toFinset_card_of_nodup (Js.Map.nodup_keys _)]
  have hstats : (Machine.run serve σ [(now, .cleanup)]).getStats =
      ⟨(σ.cleanup now).limits.size, σ.blocked, σ.allowed⟩ := rfl
  rw [hstats, hsize, hcounted.blocked, hcounted.allowed]

/-- Two clients, the window of one of which is over at the cleanup. -/
theorem stats_exact_two :
    let l := new ⟨60000, 100⟩ (some 10) (some 1)
    let traffic := [(0, .request ⟨some "a", none⟩), (5, .request ⟨some "b", none⟩),
      (6, .request ⟨some "b", none⟩)]
    let served := l.responses traffic
    (Machine.run serve l (traffic ++ [(12, .cleanup)])).getStats =
      { trackedKeys := (openKeys 12 served).card
        blocked := (served.filter fun s => !s.response.passed).length
        allowed := (served.filter fun s => s.response.passed).length } :=
  have horder : Machine.InOrder (([(0, .request ⟨some "a", none⟩), (5, .request ⟨some "b", none⟩),
    (6, .request ⟨some "b", none⟩)] : List (Timestamp × Traffic)) ++ [(12, .cleanup)]) := by decide
  stats_exact horder ⟨60000, 100⟩ (some 10) (some 1)

end RateLimiter

end SyncEngine
