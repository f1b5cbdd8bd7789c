/-
This file models how a row of durable jobs is decoded, and says exactly when the times of
an accepted job can be calculated.

A specification is checked before it is stored and a row is checked when it is loaded. Both
checks bound the interval, the initial delay and the multiplier from below only, so there
are accepted jobs whose retry or next due time leaves the range of the time library, which
then panics.
-/

import Dohflow.DbWorker.JobTable
import Dohflow.JobRuntime.JobClock

namespace Dohflow.DbWorker

open Fallible SyncCore JobRuntime
open PayDates (digitsFrom stripFront)

/-! ### Decoding a row -/

/-- An `i64` in decimal; a sign may stand before it. -/
def parseI64 (text : List Char) : Option Int :=
  let (sign, digits) : Int × List Char := match text with
    | '-' :: rest => (-1, rest)
    | '+' :: rest => (1, rest)
    | _ => (1, text)
  if digits.isEmpty then none
  else ((digitsFrom 0 digits).map fun value => sign * (value : Int)).filter fun value =>
    -2 ^ 63 ≤ value ∧ value < 2 ^ 63

/-- Why a schedule's token is refused. -/
inductive ScheduleError
  /-- `invalid job schedule {0:?}` -/
  | invalid (token : String)
  /-- `job interval must be positive` -/
  | nonPositiveInterval

/-- `Schedule::parse` -/
def parseSchedule (value : String) : Except ScheduleError Schedule :=
  if value = "once" then .ok .once
  else if value = "daily" then .ok .daily
  else if value = "weekly" then .ok .weekly
  else if value = "monthly" then .ok .monthly
  else do
    let text ← orFail (.invalid value) (stripFront "interval:".toList value.toList)
    let seconds ← orFail (.invalid value) (parseI64 text)
    if seconds ≤ 0 then .error .nonPositiveInterval else return .interval seconds

/-- Why a row is refused. -/
inductive JobRowError
  /-- `job kind is not a safe routing token` -/
  | kind
  | schedule (error : ScheduleError)
  /-- `invalid durable job state {0:?}` -/
  | state (token : String)
  | outcome (token : String)
  /-- `{field} is out of range` -/
  | outOfRange (field : String)
  /-- `invalid retry policy in durable job row` -/
  | retryPolicy
  /-- `{field}: {error}` -/
  | timestamp (field error : String)

def parseJobState (value : String) : Except JobRowError JobState :=
  if value = "queued" then .ok .queued
  else if value = "running" then .ok .running
  else if value = "succeeded" then .ok .succeeded
  else if value = "failed" then .ok .failed
  else if value = "cancelled" then .ok .cancelled
  else .error (.state value)

def parseJobOutcome (value : String) : Except JobRowError JobOutcome :=
  if value = "succeeded" then .ok .succeeded
  else if value = "failed" then .ok .failed
  else if value = "cancelled" then .ok .cancelled
  else if value = "skipped" then .ok .skipped
  else .error (.outcome value)

/-- The columns of a row. -/
structure JobColumns where
  id : Uuid
  kind : String
  cadence : String
  nextDueAt : Option String
  state : String
  attemptCount : Int
  maxAttempts : Int
  backoffInitialSeconds : Int
  backoffMultiplierBps : Int
  enabled : Int
  requiresExplicitOptIn : Int
  payloadJson : Option String
  lastRunAt : Option String
  lastOutcome : Option String
  lastError : Option String
  lastUnlockWindow : Option String
  cancelRequested : Int

/-- `u32::try_from`, with the name of what is out of range. -/
def toU32 (field : String) (value : Int) : Except JobRowError Nat :=
  if 0 ≤ value ∧ value < 2 ^ 32 then .ok value.toNat else .error (.outOfRange field)

variable (parseFromRfc3339 : String → Except String Timestamp)

def parseTimestamp (value : Option String) (field : String) :
    Except JobRowError (Option Timestamp) :=
  match value with
  | some raw => ((parseFromRfc3339 raw).map some).mapError (.timestamp field)
  | none => .ok none

def parseLastOutcome : Option String → Except JobRowError (Option JobOutcome)
  | some token => (parseJobOutcome token).map some
  | none => .ok none

/-- What is decoded of a row before its retry policy: the schedule, the state, the last outcome, the
attempts and the most attempts. -/
def decodeTokens (columns : JobColumns) :
    Except JobRowError (Schedule × JobState × Option JobOutcome × Nat × Nat) := do
  ensure (¬ columns.kind.toList.all JobRuntime.isWhitespace ∧ columns.kind.utf8ByteSize ≤ 64 ∧
    columns.kind.toList.all fun character =>
      character.isAlphanum || ['.', '_', '-'].contains character) .kind
  let schedule ← (parseSchedule columns.cadence).mapError .schedule
  let state ← parseJobState columns.state
  let lastOutcome ← parseLastOutcome columns.lastOutcome
  let attempts ← toU32 "attempt_count" columns.attemptCount
  let maxAttempts ← toU32 "max_attempts" columns.maxAttempts
  return (schedule, state, lastOutcome, attempts, maxAttempts)

/-- Decode a row; none where the initial delay makes the time library panic. -/
def rowFromParts (columns : JobColumns) : Option (Except JobRowError JobRecord) :=
  match decodeTokens columns with
  | .error failure => some (.error failure)
  | .ok (schedule, state, lastOutcome, attempts, maxAttempts) =>
    (checkedSeconds columns.backoffInitialSeconds).map fun initial => do
      ensure (¬ (columns.backoffInitialSeconds < 0 ∨ columns.backoffMultiplierBps < 10000 ∨
        maxAttempts = 0)) .retryPolicy
      let nextDueAt ← parseTimestamp parseFromRfc3339 columns.nextDueAt "next_due_at"
      let multiplierBps ← toU32 "backoff multiplier" columns.backoffMultiplierBps
      let lastRunAt ← parseTimestamp parseFromRfc3339 columns.lastRunAt "last_run_at"
      return {
        id := columns.id
        kind := columns.kind
        schedule
        nextDueAt
        state
        attempts
        maxAttempts
        backoff := ⟨initial, multiplierBps⟩
        enabled := columns.enabled ≠ 0
        requiresExplicitOptIn := columns.requiresExplicitOptIn ≠ 0
        payloadJson := columns.payloadJson
        lastRunAt
        lastOutcome
        lastError := columns.lastError.map sanitizeError
        lastUnlockWindow := columns.lastUnlockWindow
        cancelRequested := columns.cancelRequested ≠ 0 }

/-! ### What is accepted -/

theorem advances_of_parseSchedule {value : String} {schedule : Schedule}
    (parsed : parseSchedule value = .ok schedule) : schedule.advances = true := by
  unfold parseSchedule at parsed
  split_ifs at parsed
  · obtain rfl := Except.ok.inj parsed
    rfl
  · obtain rfl := Except.ok.inj parsed
    rfl
  · obtain rfl := Except.ok.inj parsed
    rfl
  · obtain rfl := Except.ok.inj parsed
    rfl
  · obtain ⟨text, -, parsed⟩ := bind_eq_ok.mp parsed
    obtain ⟨seconds, -, parsed⟩ := bind_eq_ok.mp parsed
    split_ifs at parsed with backward
    obtain rfl := Except.ok.inj parsed
    exact decide_eq_true (not_le.mp backward)

theorem advances_of_validate {spec : JobSpec} (valid : spec.validate = .ok ()) :
    spec.schedule.advances = true := by
  unfold JobSpec.validate at valid
  obtain ⟨-, valid⟩ := check_bind_eq_ok.mp valid
  obtain ⟨-, valid⟩ := ensure_bind_eq_ok.mp valid
  obtain ⟨-, valid⟩ := ensure_bind_eq_ok.mp valid
  obtain ⟨-, valid⟩ := ensure_bind_eq_ok.mp valid
  exact ensure_eq_ok.mp valid

theorem advances_of_rowFromParts {columns : JobColumns} {record : JobRecord}
    (decoded : rowFromParts parseFromRfc3339 columns = some (.ok record)) :
    record.schedule.advances = true := by
  unfold rowFromParts at decoded
  cases parts : decodeTokens columns with
  | error failure =>
    rw [parts] at decoded
    cases decoded
  | ok found =>
    obtain ⟨schedule, state, lastOutcome, attempts, maxAttempts⟩ := found
    rw [parts] at decoded
    obtain ⟨-, parts⟩ := ensure_bind_eq_ok.mp parts
    obtain ⟨parsed, scheduled, parts⟩ := bind_eq_ok.mp parts
    obtain ⟨_, -, parts⟩ := bind_eq_ok.mp parts
    obtain ⟨_, -, parts⟩ := bind_eq_ok.mp parts
    obtain ⟨_, -, parts⟩ := bind_eq_ok.mp parts
    obtain ⟨_, -, parts⟩ := bind_eq_ok.mp parts
    obtain rfl : parsed = schedule := (Prod.mk.inj (Except.ok.inj parts)).1
    obtain ⟨initial, -, decoded⟩ := Option.map_eq_some_iff.mp decoded
    obtain ⟨-, decoded⟩ := ensure_bind_eq_ok.mp decoded
    obtain ⟨_, -, decoded⟩ := bind_eq_ok.mp decoded
    obtain ⟨_, -, decoded⟩ := bind_eq_ok.mp decoded
    obtain ⟨_, -, decoded⟩ := bind_eq_ok.mp decoded
    obtain rfl := Except.ok.inj decoded
    exact advances_of_parseSchedule (mapError_eq_ok.mp scheduled)

/-- A schedule and a retry policy of a specification that passes its checks, or of a row that is
decoded. -/
def AcceptedJob (schedule : Schedule) (backoff : BackoffPolicy) : Prop :=
  (∃ spec : JobSpec, spec.validate = .ok () ∧ spec.schedule = schedule ∧ spec.backoff = backoff) ∨
    ∃ columns record, rowFromParts parseFromRfc3339 columns = some (.ok record) ∧
      record.schedule = schedule ∧ record.backoff = backoff

theorem AcceptedJob.advances {schedule : Schedule} {backoff : BackoffPolicy}
    (accepted : AcceptedJob parseFromRfc3339 schedule backoff) : schedule.advances = true := by
  rcases accepted with ⟨spec, valid, rfl, rfl⟩ | ⟨columns, record, decoded, rfl, rfl⟩
  · exact advances_of_validate valid
  · exact advances_of_rowFromParts parseFromRfc3339 decoded

/-! ### The times of a job -/

/-- The delay of an attempt, the time of its retry and the next due time can be calculated without
a panic, and delays do not shrink with the attempt. -/
structure CalculatesTimes (calendar : Calendar) (schedule : Schedule) (backoff : BackoffPolicy)
    (attempt : Nat) (completedAt : Timestamp) : Prop where
  delay : (backoff.checkedDelayForAttempt attempt).isSome = true
  retryAt : (backoff.checkedRetryAt attempt completedAt).isSome = true
  nextDue : (schedule.checkedNextDueAfter calendar completedAt).isSome = true
  monotone : ∀ earlier later delay longer, earlier ≤ later →
    backoff.checkedDelayForAttempt earlier = some delay →
    backoff.checkedDelayForAttempt later = some longer → delay ≤ longer

/-- The initial delay is within the limit that the attempt leaves of the time to the last instant,
and so is the interval of the schedule. -/
def FitsClock (schedule : Schedule) (backoff : BackoffPolicy) (attempt : Nat)
    (completedAt : Timestamp) : Prop :=
  backoff.initialSeconds ≤
      initialLimit backoff.multiplier (secondsLeft completedAt) (min attempt 31 - 1) ∧
    schedule.leastSeconds ≤ secondsLeft completedAt

instance decidableFitsClock (schedule : Schedule) (backoff : BackoffPolicy) (attempt : Nat)
    (completedAt : Timestamp) : Decidable (FitsClock schedule backoff attempt completedAt) :=
  inferInstanceAs (Decidable (_ ∧ _))

/-- The times of an accepted job can be calculated just if they fit the clock. -/
theorem calculatesTimes_iff (calendar : Calendar) {schedule : Schedule} {backoff : BackoffPolicy}
    (accepted : AcceptedJob parseFromRfc3339 schedule backoff) (attempt : Nat)
    {completedAt : Timestamp} (inside : InUtc completedAt) :
    CalculatesTimes calendar schedule backoff attempt completedAt ↔
      FitsClock schedule backoff attempt completedAt := by
  have retry := isSome_checkedRetryAt backoff attempt inside
  have due := isSome_checkedNextDueAfter calendar inside (accepted.advances parseFromRfc3339)
  constructor
  · intro calculates
    exact ⟨retry.mp ⟨calculates.delay, calculates.retryAt⟩, due.mp calculates.nextDue⟩
  · rintro ⟨within, ahead⟩
    obtain ⟨delay, retryAt⟩ := retry.mpr within
    exact ⟨delay, retryAt, due.mpr ahead, fun earlier later _ _ ordered first second =>
      checkedDelayForAttempt_mono backoff ordered first second⟩

/-! ### Accepted jobs that panic -/

/-- A job of every day that waits a minute, and then longer by a factor. -/
def retryingSpec (multiplierBps : Nat) : JobSpec where
  id := ⟨List.replicate 16 0, rfl⟩
  kind := "connector_refresh"
  schedule := .daily
  nextDueAt := 0
  maxAttempts := 12
  backoff := ⟨.seconds 60, multiplierBps⟩
  enabled := true
  requiresExplicitOptIn := false
  payloadJson := none

/-- A calendar whose months have thirty days. -/
def evenMonths : Calendar := ⟨fun instant months => some (instant + months * 30 * 86400000000000)⟩

theorem calculatesTimes_of_doubling :
    CalculatesTimes evenMonths (retryingSpec 20000).schedule (retryingSpec 20000).backoff 31 0 :=
  (calculatesTimes_iff (fun raw => .error raw) evenMonths
    (.inl ⟨retryingSpec 20000, by decide +kernel, rfl, rfl⟩) 31 (by decide +kernel)).mpr
      (by decide +kernel)

/-- Growing a hundredfold, the ninth attempt of an accepted job has no delay. -/
theorem hundredfold_delay_panics :
    (retryingSpec 1000000).validate = .ok () ∧
      ¬ CalculatesTimes evenMonths (retryingSpec 1000000).schedule (retryingSpec 1000000).backoff
        9 0 := by
  refine ⟨by decide +kernel, fun calculates => ?_⟩
  have delay := calculates.delay
  revert delay
  decide +kernel

end Dohflow.DbWorker
