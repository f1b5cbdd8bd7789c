/-
This file models the data of the durable job runtime: schedules and retry policies, the
specification of a job and its checks, the row a store loads, and what an execution and a
terminal write can say.

Instants and durations are whole nanoseconds. Calendar months are the time library's and
enter as `Calendar`.
-/

import Dohflow.SyncCore.Cbe

namespace Dohflow.JobRuntime

open Fallible SyncCore

/-- An instant, in nanoseconds since the Unix epoch. -/
abbrev Timestamp := Int

/-- A duration, in nanoseconds. -/
abbrev Duration := Int

def Duration.seconds (count : Int) : Duration := count * 1000000000

/-- What the source asks of its time library. -/
structure Calendar where
  /-- `DateTime::checked_add_months`. -/
  addMonths : Timestamp → Nat → Option Timestamp

/-! ### Schedules and retries -/

inductive Schedule
  | once
  | interval (seconds : Int)
  | daily
  | weekly
  | monthly
  deriving DecidableEq

/-- The next due time after a run that completed then. -/
def Schedule.nextDueAfter (calendar : Calendar) (completedAt : Timestamp) :
    Schedule → Option Timestamp
  | .once => none
  | .interval seconds => some (completedAt + Duration.seconds seconds)
  | .daily => some (completedAt + Duration.seconds 86400)
  | .weekly => some (completedAt + Duration.seconds 604800)
  | .monthly => calendar.addMonths completedAt 1

structure BackoffPolicy where
  initial : Duration
  multiplierBps : Nat
  deriving DecidableEq

/-- One step of the delay's growth, saturating as a 128-bit integer. -/
def BackoffPolicy.grow (policy : BackoffPolicy) (seconds : Int) : Int :=
  min (seconds * max policy.multiplierBps 10000) (2 ^ 127 - 1) / 10000

/-- The delay before the attempt after this one. -/
def BackoffPolicy.delayForAttempt (policy : BackoffPolicy) (attempt : Nat) : Duration :=
  let seconds := policy.grow^[min attempt 31 - 1] (max (policy.initial.tdiv 1000000000) 0)
  .seconds (min seconds (2 ^ 63 - 1))

/-! ### Specifications -/

/-- What is stored for a job. -/
structure JobSpec where
  id : Uuid
  kind : String
  schedule : Schedule
  nextDueAt : Timestamp
  maxAttempts : Nat
  backoff : BackoffPolicy
  enabled : Bool
  requiresExplicitOptIn : Bool
  payloadJson : Option String

inductive JobSpecError
  | emptyKind
  | invalidKind
  | zeroAttempts
  | negativeBackoff
  | backoffMultiplierTooSmall
  | nonPositiveInterval
  deriving DecidableEq

/-- Rust's `char::is_whitespace`. -/
def isWhitespace (character : Char) : Bool :=
  let code := character.toNat
  (0x9 ≤ code && code ≤ 0xd) || code = 0x20 || code = 0x85 || code = 0xa0 || code = 0x1680 ||
    (0x2000 ≤ code && code ≤ 0x200a) || code = 0x2028 || code = 0x2029 || code = 0x202f ||
    code = 0x205f || code = 0x3000

/-- Whether a job kind is a routing token. -/
def validateJobKind (kind : String) : Except JobSpecError Unit := do
  ensure (¬ kind.toList.all isWhitespace) .emptyKind
  ensure (kind.utf8ByteSize ≤ 64 ∧ kind.toList.all fun character =>
    character.isAlphanum || ['.', '_', '-'].contains character) .invalidKind

/-- The interval of a schedule that has one is positive. -/
def Schedule.advances : Schedule → Bool
  | .interval seconds => 0 < seconds
  | _ => true

def JobSpec.validate (spec : JobSpec) : Except JobSpecError Unit := do
  validateJobKind spec.kind
  ensure (spec.maxAttempts ≠ 0) .zeroAttempts
  ensure (0 ≤ spec.backoff.initial) .negativeBackoff
  ensure (10000 ≤ spec.backoff.multiplierBps) .backoffMultiplierTooSmall
  ensure spec.schedule.advances .nonPositiveInterval

/-! ### Rows -/

inductive JobState
  | queued
  | running
  | succeeded
  | failed
  | cancelled
  deriving DecidableEq

inductive JobOutcome
  | succeeded
  | failed
  | cancelled
  | skipped
  deriving DecidableEq

/-- A durable row as a store loads it. -/
structure JobRecord where
  id : Uuid
  kind : String
  schedule : Schedule
  nextDueAt : Option Timestamp
  state : JobState
  attempts : Nat
  maxAttempts : Nat
  backoff : BackoffPolicy
  enabled : Bool
  requiresExplicitOptIn : Bool
  payloadJson : Option String
  lastRunAt : Option Timestamp
  lastOutcome : Option JobOutcome
  lastError : Option String
  lastUnlockWindow : Option String
  cancelRequested : Bool
  deriving DecidableEq

/-! ### Executions -/

structure JobFailure where
  reason : String
  retryable : Bool
  deriving DecidableEq

/-- A terminal failure. -/
def JobFailure.permanent (reason : String) : JobFailure := ⟨reason, false⟩

/-- The result of one executor invocation. -/
inductive JobExecution
  | succeeded
  | committed
  | failed (failure : JobFailure)
  | cancelled
  | skipped
  deriving DecidableEq

/-- Whether a terminal write was applied, or a cancellation request won. -/
inductive JobFinishResult
  | applied
  | cancelled
  deriving DecidableEq

/-- What a sweep reports. -/
structure JobRunReport where
  recovered : Nat := 0
  attempted : Nat := 0
  succeeded : Nat := 0
  failed : Nat := 0
  cancelled : Nat := 0
  skipped : Nat := 0

/-- A job claimed for its host to run, with the attempt the claim recorded. -/
structure ClaimedJob where
  job : JobRecord
  attempt : Nat

end Dohflow.JobRuntime
