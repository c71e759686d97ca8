import Codenaut.Services.RateLimit

/-!
# Exactness of the question quotas

Each check holds the tickets of its own pipelines, and no ticket is held twice.
So the checks that a limit let pass in one life of a key are at most as many as
the limit, however the pipelines interleave.
-/

set_option autoImplicit false

namespace Codenaut.Services

open Codenaut.Counters Codenaut.Db

/-! ## One check -/

/-- A check goes on only with counts that the limits admit. -/
def CheckProgress.Judged (settings : RateLimitSettings) : CheckProgress → Prop
  | .asked => True
  | .minuteCounted minute => minute.count ≤ settings.questionRateLimitPerMinute
  | .refused _ decision => decision.allowed = false
  | .decided minute day decision =>
      minute.count ≤ settings.questionRateLimitPerMinute ∧
        (decision.allowed = true → day.count ≤ settings.questionRateLimitPerDay)

section Checks

variable {settings : RateLimitSettings} {userId : UserId} {progress : CheckProgress}
  {redis : Store String}

theorem minuteChecked_judged (minute : Ticket) :
    (minuteChecked settings minute).Judged settings ∧
      (minuteChecked settings minute).tickets = [minute] := by
  unfold minuteChecked
  split
  case isTrue _ => exact ⟨rfl, rfl⟩
  case isFalse within => exact ⟨Nat.not_lt.mp within, rfl⟩

theorem dayChecked_judged {minute : Ticket} (day : Ticket)
    (judged : minute.count ≤ settings.questionRateLimitPerMinute) :
    (dayChecked settings minute day).Judged settings ∧
      (dayChecked settings minute day).tickets = [minute, day] := by
  unfold dayChecked
  split
  case isTrue _ => exact ⟨⟨judged, fun allowed => by cases allowed⟩, rfl⟩
  case isFalse within => exact ⟨⟨judged, fun _ => Nat.not_lt.mp within⟩, rfl⟩

/-- A check is over, or it runs one pipeline and holds one ticket more. -/
theorem checkQuestion_cases (settings : RateLimitSettings) (userId : UserId)
    (progress : CheckProgress) (redis : Store String) :
    checkQuestion settings userId progress redis = (progress, redis) ∨
    ∃ span key, span ≤ 1000 * daySeconds ∧
      (checkQuestion settings userId progress redis).2 = (redis.increment span key).2 ∧
      (checkQuestion settings userId progress redis).1.tickets.Perm
        ((redis.increment span key).1 :: progress.tickets) ∧
      (progress.Judged settings →
        (checkQuestion settings userId progress redis).1.Judged settings) := by
  cases progress with
  | asked =>
      refine .inr ⟨1000 * minuteSeconds, minuteKey userId, by decide, rfl, ?_, fun _ => ?_⟩
      · exact .of_eq (minuteChecked_judged _).2
      · exact (minuteChecked_judged _).1
  | minuteCounted minute =>
      refine .inr ⟨1000 * daySeconds, dayKey userId, Nat.le_refl _, rfl, ?_, fun judged => ?_⟩
      · have held : (dayChecked settings minute
            (redis.increment (1000 * daySeconds) (dayKey userId)).1).tickets =
              [minute, (redis.increment (1000 * daySeconds) (dayKey userId)).1] := by
          unfold dayChecked
          split <;> rfl
        exact (List.Perm.of_eq held).trans (.swap ..)
      · exact (dayChecked_judged _ judged).1
  | refused => exact .inl rfl
  | decided => exact .inl rfl

end Checks

/-! ## Every step -/

/-- The store is sound, every counter has a deadline, and the checks hold exactly
the tickets that were issued. -/
structure Limited (settings : RateLimitSettings) (limiter : RateLimiter) : Prop where
  sound : Sound limiter.redis
  timed : Timed (1000 * daySeconds) limiter.redis
  held : (limiter.checks.flatMap (·.progress.tickets)).Perm limiter.redis.issued
  judged : ∀ check ∈ limiter.checks, check.progress.Judged settings

section Steps

variable {settings : RateLimitSettings} {limiter : RateLimiter}

theorem Limited.start (settings : RateLimitSettings) : Limited settings {} :=
  ⟨.start, .start _, .nil, fun _ member => by cases member⟩

theorem flatMap_set_perm {checks : List QuestionCheck} {index : Nat} {check next : QuestionCheck}
    {ticket : Ticket} (present : checks[index]? = some check)
    (more : next.progress.tickets.Perm (ticket :: check.progress.tickets)) :
    ((checks.set index next).flatMap (·.progress.tickets)).Perm
      (ticket :: checks.flatMap (·.progress.tickets)) := by
  induction checks generalizing index with
  | nil => cases present
  | cons first rest ih =>
      cases index with
      | zero =>
          obtain rfl := Option.some.inj present
          exact (more.append_right _)
      | succ index =>
          have later := ih (by simpa using present)
          rw [List.set_cons_succ, List.flatMap_cons, List.flatMap_cons]
          exact (later.append_left _).trans List.perm_middle

theorem Limited.step (limited : Limited settings limiter) (action : RateLimitAction) :
    Limited settings (limiter.step settings action) := by
  cases action with
  | ask userId =>
      refine ⟨limited.sound, limited.timed, ?_, fun check member => ?_⟩
      · simpa [RateLimiter.step, CheckProgress.tickets] using limited.held
      · rcases List.mem_append.mp member with before | new
        · exact limited.judged check before
        · obtain rfl := List.mem_singleton.mp new
          trivial
  | pass milliseconds =>
      exact ⟨limited.sound.pass _, limited.timed.pass _, limited.held, limited.judged⟩
  | expire key => exact ⟨limited.sound.drop _, limited.timed.drop _, limited.held, limited.judged⟩
  | proceed index =>
      unfold RateLimiter.step
      dsimp only
      split
      case h_1 => exact limited
      case h_2 check present =>
        have member := List.mem_of_getElem? present
        rcases checkQuestion_cases settings check.userId check.progress limiter.redis with
          same | ⟨span, key, short, stored, tickets, judged⟩
        · rw [same]
          have unchanged : limiter.checks.set index check = limiter.checks := by
            obtain ⟨bound, rfl⟩ := List.getElem?_eq_some_iff.mp present
            exact List.set_getElem_self bound
          dsimp only
          rw [unchanged]
          exact limited
        · rw [stored]
          refine ⟨limited.sound.increment span key, limited.timed.increment short key, ?_, ?_⟩
          · rw [increment_issued]
            exact (flatMap_set_perm present tickets).trans (limited.held.cons _)
          · intro other otherMember
            rcases List.mem_or_eq_of_mem_set otherMember with before | rfl
            · exact limited.judged other before
            · exact judged (limited.judged check member)

theorem Limited.run (limited : Limited settings limiter) (actions : List RateLimitAction) :
    Limited settings (limiter.run settings actions) := by
  induction actions generalizing limiter with
  | nil => exact limited
  | cons action rest ih => exact ih (limited.step action)

theorem step_kept (settings : RateLimitSettings) (limiter : RateLimiter)
    (action : RateLimitAction) : Kept limiter.redis (limiter.step settings action).redis := by
  cases action with
  | ask userId => exact .refl _
  | pass milliseconds => exact .pass _
  | expire key => exact .drop _
  | proceed index =>
      unfold RateLimiter.step
      dsimp only
      split
      case h_1 => exact .refl _
      case h_2 check present =>
        rcases checkQuestion_cases settings check.userId check.progress limiter.redis with
          same | ⟨span, key, -, stored, -, -⟩
        · rw [same]
          exact .refl _
        · dsimp only
          rw [stored]
          exact .increment span key limiter.redis

theorem run_kept (settings : RateLimitSettings) (limiter : RateLimiter)
    (actions : List RateLimitAction) :
    Kept limiter.redis (limiter.run settings actions).redis := by
  induction actions generalizing limiter with
  | nil => exact .refl _
  | cons action rest ih => exact (step_kept settings limiter action).trans (ih _)

end Steps

/-! ## Limits -/

def CheckProgress.minuteTicket : CheckProgress → Option Ticket
  | .asked => none
  | .minuteCounted minute | .refused minute _ | .decided minute _ _ => some minute

def CheckProgress.dayTicket : CheckProgress → Option Ticket
  | .decided _ day _ => some day
  | _ => none

/-- The check of this user was allowed, and counted in this life of a key. -/
def QuestionCheck.allowedIn (ticket : CheckProgress → Option Ticket) (userId : UserId)
    (life : Nat) (check : QuestionCheck) : Bool :=
  check.userId == userId && check.progress.decision.any (·.allowed) &&
    (ticket check.progress).any (·.life == life)

/-- At most as many checks as the limits say are allowed in one life of a key.
Every key has a deadline, which no later check moves; and once a day has passed
without a check, the next one is allowed. -/
structure ExactlyLimited (settings : RateLimitSettings) (limiter : RateLimiter) : Prop where
  minute : ∀ userId life,
    limiter.checks.countP (·.allowedIn CheckProgress.minuteTicket userId life) ≤
      settings.questionRateLimitPerMinute
  day : ∀ userId life,
    limiter.checks.countP (·.allowedIn CheckProgress.dayTicket userId life) ≤
      settings.questionRateLimitPerDay
  mortal : ∀ key counter, limiter.redis.counters key = some counter →
    ∃ deadline, counter.deadline = some deadline ∧
      ∀ actions later, (limiter.run settings actions).redis.counters key = some later →
        later.life = counter.life → later.deadline = some deadline
  readmitted : ∀ userId,
    ((limiter.run settings [.pass (1000 * daySeconds), .ask userId,
      .proceed limiter.checks.length, .proceed limiter.checks.length]).checks[
        limiter.checks.length]?.bind (·.progress.decision)) =
      some { allowed := true, retryAfterSeconds := 0, scope := "allowed" }

section Limits

variable {settings : RateLimitSettings} {limiter : RateLimiter}

theorem filterMap_sublist {ticket : CheckProgress → Option Ticket}
    (among : ∀ progress, (ticket progress).toList.Sublist progress.tickets)
    (checks : List QuestionCheck) (select : QuestionCheck → Bool) :
    ((checks.filter select).filterMap fun check => ticket check.progress).Sublist
      (checks.flatMap (·.progress.tickets)) := by
  induction checks with
  | nil => exact .slnil
  | cons check rest ih =>
      rw [List.flatMap_cons, List.filter_cons]
      split
      case isTrue _ =>
        have here := among check.progress
        rw [List.filterMap_cons]
        split
        case h_1 => exact ih.trans (List.sublist_append_right _ _)
        case h_2 found present =>
          rw [present] at here
          exact here.append ih
      case isFalse _ => exact ih.trans (List.sublist_append_right _ _)

/-- One limit, for the key whose tickets it reads. -/
theorem Limited.within (limited : Limited settings limiter)
    {ticket : CheckProgress → Option Ticket} {limit : Nat}
    (among : ∀ progress, (ticket progress).toList.Sublist progress.tickets)
    (admitted : ∀ progress found, progress.Judged settings → ticket progress = some found →
      progress.decision.any (·.allowed) = true → found.count ≤ limit)
    (userId : UserId) (life : Nat) :
    limiter.checks.countP (·.allowedIn ticket userId life) ≤ limit := by
  have inside := filterMap_sublist among limiter.checks (·.allowedIn ticket userId life)
  have issued : ((limiter.checks.filter (·.allowedIn ticket userId life)).filterMap
      fun check => ticket check.progress) ⊆ limiter.redis.issued :=
    fun found member => limited.held.subset (inside.subset member)
  have distinct := inside.nodup (limited.held.symm.nodup limited.sound.distinct)
  have holds : ∀ check ∈ limiter.checks, check.allowedIn ticket userId life = true →
      ∃ found, ticket check.progress = some found ∧ found.life = life ∧ found.count ≤ limit := by
    intro check member allowed
    simp only [QuestionCheck.allowedIn, Bool.and_eq_true] at allowed
    obtain ⟨found, present, same⟩ := (Option.any_eq_true _ _).mp allowed.2
    exact ⟨found, present, beq_iff_eq.mp same,
      admitted check.progress found (limited.judged check member) present allowed.1.2⟩
  have every : (limiter.checks.filter (·.allowedIn ticket userId life)).length =
      ((limiter.checks.filter (·.allowedIn ticket userId life)).filterMap
        fun check => ticket check.progress).length := by
    refine (List.filterMap_length_eq_length.mpr fun check member => ?_).symm
    obtain ⟨listed, allowed⟩ := List.mem_filter.mp member
    obtain ⟨found, present, -⟩ := holds check listed allowed
    rw [present]
    rfl
  rw [List.countP_eq_length_filter, every]
  refine @tickets_within_limit _ life limit distinct (fun found member => ?_) fun found member => ?_
  · exact limited.sound.positive found (issued member)
  · obtain ⟨check, filtered, present⟩ := List.mem_filterMap.mp member
    obtain ⟨listed, allowed⟩ := List.mem_filter.mp filtered
    obtain ⟨other, same, lives, counted⟩ := holds check listed allowed
    obtain rfl := Option.some.inj (present.symm.trans same)
    exact ⟨lives, counted⟩

theorem dayKey_ne_minuteKey (userId other : UserId) : dayKey userId ≠ minuteKey other := by
  intro same
  have texts : "codenaut:rl:q:d:".toList ++ (Indexing.uuidText userId).toList =
      "codenaut:rl:q:m:".toList ++ (Indexing.uuidText other).toList := by
    rw [← String.toList_append, ← String.toList_append]
    exact congrArg String.toList same
  have fronts := (List.append_inj texts (by decide +kernel)).1
  exact absurd fronts (by decide +kernel)

/-- With both keys gone, the two pipelines of a check let it pass. -/
theorem expired_check_allowed (settings : RateLimitSettings) {redis : Store String}
    (expired : ∀ key, redis.live key = none) (userId : UserId) :
    ∃ minute day, (checkQuestion settings userId .asked redis).1 = .minuteCounted minute ∧
      (checkQuestion settings userId (.minuteCounted minute)
        (checkQuestion settings userId .asked redis).2).1 =
          .decided minute day { allowed := true, retryAfterSeconds := 0, scope := "allowed" } := by
  have minute : ¬settings.questionRateLimitPerMinute <
      (redis.increment (1000 * minuteSeconds) (minuteKey userId)).1.count := by
    rw [increment_fresh (expired _)]
    exact Nat.not_lt.mpr settings.perMinute.1
  have absent : (redis.increment (1000 * minuteSeconds) (minuteKey userId)).2.live
      (dayKey userId) = none :=
    (live_increment_other (dayKey_ne_minuteKey userId userId)).trans (expired _)
  have day : ¬settings.questionRateLimitPerDay <
      ((redis.increment (1000 * minuteSeconds) (minuteKey userId)).2.increment
        (1000 * daySeconds) (dayKey userId)).1.count := by
    rw [increment_fresh absent]
    exact Nat.not_lt.mpr settings.perDay.1
  exact ⟨_, _, if_neg minute, if_neg day⟩

theorem Limited.exactly (limited : Limited settings limiter) :
    ExactlyLimited settings limiter where
  minute := by
    refine limited.within (fun progress => ?_) fun progress found judged present allowed => ?_
    · cases progress <;> simp [CheckProgress.minuteTicket, CheckProgress.tickets]
    · cases progress with
      | asked => cases present
      | minuteCounted minute => cases allowed
      | refused minute decision => exact absurd (judged.symm.trans allowed) Bool.false_ne_true
      | decided minute day decision =>
          cases present
          exact judged.1
  day := by
    refine limited.within (fun progress => ?_) fun progress found judged present allowed => ?_
    · cases progress <;> simp [CheckProgress.dayTicket, CheckProgress.tickets]
    · cases progress with
      | decided minute day decision =>
          cases present
          exact judged.2 allowed
      | _ => cases present
  mortal key counter present := by
    obtain ⟨deadline, due, -⟩ := limited.timed key counter present
    refine ⟨deadline, due, fun actions later there life => ?_⟩
    have kept := run_kept settings limiter actions
    exact (kept.deadline limited.sound present (by simp [due]) there life).trans due
  readmitted userId := by
    have expired := live_pass_expired limited.timed (Nat.le_refl (1000 * daySeconds))
    obtain ⟨minute, day, first, second⟩ := expired_check_allowed settings expired userId
    simp only [RateLimiter.run, List.foldl_cons, List.foldl_nil, RateLimiter.step,
      List.getElem?_concat_length, List.set_append_right, Nat.le_refl, Nat.sub_self,
      List.set_cons_zero, first, second, Option.bind_some]
    rfl

end Limits

/-- In every interleaving of checks, clock and expiring keys the quotas are exact. -/
theorem rate_limits_exact (settings : RateLimitSettings) (actions : List RateLimitAction) :
    ExactlyLimited settings (RateLimiter.run settings {} actions) :=
  ((Limited.start settings).run actions).exactly

end Codenaut.Services
