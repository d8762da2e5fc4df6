import SyncEngine.Security.RateLimiter

/-!
# The tiered rate limiter

`TieredRateLimiter` of `src/security/rate-limiter.ts`: a check goes through the tiers in the order
in which they were added, until one refuses it.  Each tier counts and cleans up on its own.

`checks` is a record for the specification: the checks of the run and what they returned.
-/

namespace SyncEngine

open Js

/-- What `TieredRateLimiter.check` returns: the result of the tier that refuses, or one with
`remaining: -1`. -/
structure TieredResult where
  allowed : Bool
  remaining : ℤ
  resetAt : Timestamp
  retryAfterMs : Option ℕ
  deriving DecidableEq

def RateLimitResult.tiered (r : RateLimitResult) : TieredResult :=
  ⟨r.allowed, r.remaining, r.resetAt, r.retryAfterMs⟩

/-- The loop over the tiers: the result, and the tiers behind it. -/
def checkTiers (now : Timestamp) (key : String) :
    List (String × RateLimiter) → TieredResult × List (String × RateLimiter)
  | [] => (⟨true, -1, 0, none⟩, [])
  | (tierName, limiter) :: tiers =>
    let (result, limiter) := limiter.check now key
    if result.allowed then
      let (result, tiers) := checkTiers now key tiers
      (result, (tierName, limiter) :: tiers)
    else (result.tiered, (tierName, limiter) :: tiers)

lemma map_fst_checkTiers (now : Timestamp) (key : String) (tiers : List (String × RateLimiter)) :
    (checkTiers now key tiers).2.map Prod.fst = tiers.map Prod.fst := by
  induction tiers with
  | nil => rfl
  | cons tier tiers ih =>
    unfold checkTiers
    dsimp only
    split
    · rw [List.map_cons, List.map_cons, ih]
    · rfl

structure TieredRateLimiter where
  tiers : Js.Map String RateLimiter

namespace TieredRateLimiter

/-- `new TieredRateLimiter()`. -/
def new : TieredRateLimiter := ⟨.empty⟩

def addTier (config : RateLimitConfig) (l : TieredRateLimiter) (name : String)
    (windowMs maxRequests : ℕ) : TieredRateLimiter :=
  ⟨l.tiers.set name (RateLimiter.new config (some windowMs) (some maxRequests))⟩

def check (l : TieredRateLimiter) (now : Timestamp) (key : String) :
    TieredResult × TieredRateLimiter :=
  ((checkTiers now key l.tiers.entries).1,
    ⟨⟨(checkTiers now key l.tiers.entries).2, by
      rw [map_fst_checkTiers]
      exact l.tiers.nodup⟩⟩)

/-- The interval of a tier. -/
def cleanup (l : TieredRateLimiter) (now : Timestamp) (name : String) : TieredRateLimiter :=
  ⟨l.tiers.modify name fun limiter => limiter.cleanup now⟩

/-- A limiter to which tiers have been added. -/
def ofTiers (config : RateLimitConfig) (tiers : List (String × ℕ × ℕ)) : TieredRateLimiter :=
  tiers.foldl (fun l tier => l.addTier config tier.1 tier.2.1 tier.2.2) new

end TieredRateLimiter

inductive TieredCall
  | check (key : String)
  | cleanup (name : String)
  deriving DecidableEq

/-- A check of a run, and what it returned. -/
structure TieredCheck where
  now : Timestamp
  key : String
  result : TieredResult
  deriving DecidableEq

structure TieredProcess where
  limiter : TieredRateLimiter
  checks : List TieredCheck

namespace TieredProcess

def step (σ : TieredProcess) : Timestamp × TieredCall → TieredProcess
  | (now, .check key) =>
    ⟨(σ.limiter.check now key).2, σ.checks ++ [⟨now, key, (σ.limiter.check now key).1⟩]⟩
  | (now, .cleanup name) => { σ with limiter := σ.limiter.cleanup now name }

end TieredProcess

end SyncEngine
