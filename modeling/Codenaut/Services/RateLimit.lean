import Codenaut.Counters.Expiring
import Codenaut.Db.Models
import Codenaut.Indexing.CallGraph

/-!
# Question quotas

`RedisRateLimiter` (`app/services/rate_limit.py`): every check counts in the
minute key of its user and then in the day key, one pipeline after the other.
The pipelines of all checks interleave with the clock and with expiring keys.
Redis does not fail.
-/

set_option autoImplicit false

namespace Codenaut.Services

open Codenaut.Counters Codenaut.Db Codenaut.Indexing

/-- The settings of the limiter, as they pass their fields. -/
structure RateLimitSettings where
  questionRateLimitPerMinute : Nat := 10
  questionRateLimitPerDay : Nat := 300
  perMinute : 1 ≤ questionRateLimitPerMinute ∧ questionRateLimitPerMinute ≤ 600 := by decide
  perDay : 1 ≤ questionRateLimitPerDay ∧ questionRateLimitPerDay ≤ 100000 := by decide

structure RateLimitDecision where
  allowed : Bool
  retryAfterSeconds : Nat
  scope : String
  deriving DecidableEq, Repr

def minuteSeconds : Nat := 60

def daySeconds : Nat := 86400

def minuteKey (userId : UserId) : String := "codenaut:rl:q:m:" ++ uuidText userId

def dayKey (userId : UserId) : String := "codenaut:rl:q:d:" ++ uuidText userId

/-- How far a check has come, with the tickets of the pipelines it has run. -/
inductive CheckProgress where
  | asked
  | minuteCounted (minute : Ticket)
  | refused (minute : Ticket) (decision : RateLimitDecision)
  | decided (minute day : Ticket) (decision : RateLimitDecision)
  deriving DecidableEq, Repr

def CheckProgress.decision : CheckProgress → Option RateLimitDecision
  | .asked | .minuteCounted _ => none
  | .refused _ decision | .decided _ _ decision => some decision

def CheckProgress.tickets : CheckProgress → List Ticket
  | .asked => []
  | .minuteCounted minute | .refused minute _ => [minute]
  | .decided minute day _ => [minute, day]

/-- The part of `check_question` after the minute pipeline. -/
def minuteChecked (settings : RateLimitSettings) (minute : Ticket) : CheckProgress :=
  if settings.questionRateLimitPerMinute < minute.count then
    .refused minute { allowed := false, retryAfterSeconds := minuteSeconds, scope := "minute" }
  else .minuteCounted minute

/-- The part of `check_question` after the day pipeline. -/
def dayChecked (settings : RateLimitSettings) (minute day : Ticket) : CheckProgress :=
  if settings.questionRateLimitPerDay < day.count then
    .decided minute day { allowed := false, retryAfterSeconds := daySeconds, scope := "day" }
  else .decided minute day { allowed := true, retryAfterSeconds := 0, scope := "allowed" }

/-- The next pipeline of `check_question`, and what the check does with its result. -/
def checkQuestion (settings : RateLimitSettings) (userId : UserId) (progress : CheckProgress)
    (redis : Store String) : CheckProgress × Store String :=
  match progress with
  | .asked =>
      let (minute, stored) := redis.increment (1000 * minuteSeconds) (minuteKey userId)
      (minuteChecked settings minute, stored)
  | .minuteCounted minute =>
      let (day, stored) := redis.increment (1000 * daySeconds) (dayKey userId)
      (dayChecked settings minute day, stored)
  | finished => (finished, redis)

/-! ## Interleavings -/

structure QuestionCheck where
  userId : UserId
  progress : CheckProgress := .asked
  deriving DecidableEq, Repr

/-- The counters and all checks so far, in the order in which they were asked. -/
structure RateLimiter where
  redis : Store String := {}
  checks : List QuestionCheck := []

/-- The clock runs in milliseconds. A key may expire at any time, and is absent
from its deadline on. -/
inductive RateLimitAction where
  | ask (userId : UserId)
  | proceed (check : Nat)
  | pass (milliseconds : Nat)
  | expire (key : String)
  deriving DecidableEq, Repr

def RateLimiter.step (settings : RateLimitSettings) (limiter : RateLimiter) :
    RateLimitAction → RateLimiter
  | .ask userId => { limiter with checks := limiter.checks ++ [{ userId }] }
  | .proceed index =>
      match limiter.checks[index]? with
      | none => limiter
      | some check =>
          let (progress, redis) :=
            checkQuestion settings check.userId check.progress limiter.redis
          { redis, checks := limiter.checks.set index { check with progress } }
  | .pass milliseconds => { limiter with redis := limiter.redis.pass milliseconds }
  | .expire key => { limiter with redis := limiter.redis.drop key }

def RateLimiter.run (settings : RateLimitSettings) (limiter : RateLimiter)
    (actions : List RateLimitAction) : RateLimiter :=
  actions.foldl (RateLimiter.step settings) limiter

end Codenaut.Services
