/-
This file models the job runner: its sweeps as programs over the store, the clock and
the executor.

`runDue` runs the due rows itself. `claimDueOfKind` only claims them, and
`finishClaimed` records the outcome once the host has run one; both end in
`applyExecution`. A handler is two requests, its start and its return, so that other
things can happen while it runs.
-/

import Dohflow.Foundation.Program
import Dohflow.JobRuntime.Jobs

namespace Dohflow.JobRuntime

open SyncCore Program

/-- What a runner asks of its store, its clock, its executor and its host. -/
inductive JobRequest
  | recoverRunning (now : Timestamp)
  | dueJobs (now : Timestamp) (unlockWindow : String)
  | claimJob (id : Uuid) (attempt : Nat) (startedAt : Timestamp) (unlockWindow : String)
  | cancellationRequested (id : Uuid)
  | committed (id : Uuid)
  | finishSuccess (job : JobRecord) (completedAt : Timestamp) (nextDueAt : Option Timestamp)
  | finishCommitted (job : JobRecord) (completedAt : Timestamp) (nextDueAt : Option Timestamp)
  | finishFailure (job : JobRecord) (failedAt : Timestamp) (failure : JobFailure)
      (retryAt : Option Timestamp)
  | finishCancelled (job : JobRecord) (cancelledAt : Timestamp) (reason : String)
  | finishSkipped (job : JobRecord) (skippedAt : Timestamp)
  /-- `Clock::now`. -/
  | now
  /-- Whether the sweep's own token is cancelled. -/
  | isCancelled
  | shouldRun (job : JobRecord)
  /-- The executor starts on a claimed job. -/
  | execute (job : JobRecord)
  /-- The executor returns, with whether the job's token was cancelled meanwhile. -/
  | executed (job : JobRecord)
  /-- A sweep waits for the runner gate. -/
  | enterGate
  | leaveGate

/-- The job whose run a request ends, if it is a terminal write. -/
def JobRequest.finishes : JobRequest → Option Uuid
  | .finishSuccess job _ _ => some job.id
  | .finishCommitted job _ _ => some job.id
  | .finishFailure job _ _ _ => some job.id
  | .finishCancelled job _ _ => some job.id
  | .finishSkipped job _ => some job.id
  | _ => none

/-- What each of them is answered with, for a store with these errors. -/
abbrev JobRequest.Response (StoreError : Type) : JobRequest → Type
  | .recoverRunning _ => Except StoreError Nat
  | .dueJobs _ _ => Except StoreError (List JobRecord)
  | .claimJob _ _ _ _ => Except StoreError Bool
  | .cancellationRequested _ => Except StoreError Bool
  | .committed _ => Except StoreError Bool
  | .finishSuccess _ _ _ => Except StoreError JobFinishResult
  | .finishCommitted _ _ _ => Except StoreError Unit
  | .finishFailure _ _ _ _ => Except StoreError JobFinishResult
  | .finishCancelled _ _ _ => Except StoreError Unit
  | .finishSkipped _ _ => Except StoreError JobFinishResult
  | .now => Timestamp
  | .isCancelled => Bool
  | .shouldRun _ => Bool
  | .execute _ => Unit
  | .executed _ => JobExecution × Bool
  | .enterGate => Unit
  | .leaveGate => Unit

/-- An error at the boundary of runner and store. -/
inductive JobRunnerError (StoreError : Type)
  | store (error : StoreError)

/-- A call of the runner. -/
abbrev RunnerCall (StoreError Value : Type) : Type :=
  Attempt JobRequest (JobRequest.Response StoreError) (JobRunnerError StoreError) Value

namespace JobRunner

variable {StoreError : Type}

/-- The clock's instant. -/
def clockNow : RunnerCall StoreError Timestamp := attempt .now .ok

/-- Record a cancellation, and count it. -/
def recordCancelled (job : JobRecord) (cancelledAt : Timestamp) (report : JobRunReport) :
    RunnerCall StoreError JobRunReport := do
  attempt (.finishCancelled job cancelledAt "job cancelled") (Except.mapError .store)
  return { report with cancelled := report.cancelled + 1 }

/-! ### Claims -/

/-- The attempt a claim of the row makes. -/
def nextAttempt (job : JobRecord) : Nat := min (job.attempts + 1) (2 ^ 32 - 1)

/-- What both sweeps do with a due row first: a row past its attempt budget fails permanently, a row
with a cancellation request is cancelled, and the attempt of any other claimed row is returned. -/
def claimDue (now : Timestamp) (unlockWindow : String) (job : JobRecord) (report : JobRunReport) :
    RunnerCall StoreError (Option Nat × JobRunReport) := do
  if nextAttempt job > job.maxAttempts then
    let finish ← attempt (.finishFailure job now (.permanent "maximum attempts reached") none)
      (Except.mapError .store)
    if finish = .cancelled then
      return (none, ← recordCancelled job (← clockNow) report)
    else return (none, { report with failed := report.failed + 1 })
  else
    let claimed ← attempt (.claimJob job.id (nextAttempt job) now unlockWindow)
      (Except.mapError .store)
    if claimed then
      let requested ← attempt (.cancellationRequested job.id) (Except.mapError .store)
      if requested then
        return (none, ← recordCancelled job (← clockNow) report)
      else return (some (nextAttempt job), report)
    else return (none, report)

/-- Claim one due row for its host to run. -/
def claimOne (now : Timestamp) (unlockWindow : String) (job : JobRecord)
    (claimed : List ClaimedJob) (report : JobRunReport) :
    RunnerCall StoreError (List ClaimedJob × JobRunReport) := do
  match ← claimDue now unlockWindow job report with
  | (none, report) => return (claimed, report)
  | (some attempts, report) =>
    return (claimed ++ [⟨job, attempts⟩], { report with attempted := report.attempted + 1 })

def claimEach (now : Timestamp) (unlockWindow : String) :
    List JobRecord → List ClaimedJob → JobRunReport →
      RunnerCall StoreError (List ClaimedJob × JobRunReport)
  | [], claimed, report => return (claimed, report)
  | job :: rest, claimed, report => do
    let (claimed, report) ← claimOne now unlockWindow job claimed report
    claimEach now unlockWindow rest claimed report

/-- Claim every due row of a kind. -/
def claimDueOfKind (now : Timestamp) (unlockWindow kind : String) :
    RunnerCall StoreError (List ClaimedJob × JobRunReport) := do
  let jobs ← attempt (.dueJobs now unlockWindow) (Except.mapError .store)
  claimEach now unlockWindow (jobs.filter fun job => job.kind = kind) [] {}

/-! ### Outcomes -/

/-- Persist one execution's terminal transition and count it. -/
def applyExecution (calendar : Calendar) (job : JobRecord) (attempts : Nat)
    (execution : JobExecution) (completedAt : Timestamp) (report : JobRunReport) :
    RunnerCall StoreError JobRunReport :=
  match execution with
  | .succeeded => do
    let finish ← attempt (.finishSuccess job completedAt
      (job.schedule.nextDueAfter calendar completedAt)) (Except.mapError .store)
    if finish = .cancelled then recordCancelled job completedAt report
    else return { report with succeeded := report.succeeded + 1 }
  | .committed => do
    attempt (.finishCommitted job completedAt (job.schedule.nextDueAfter calendar completedAt))
      (Except.mapError .store)
    return { report with succeeded := report.succeeded + 1 }
  | .failed failure => do
    let retryAt := if failure.retryable && attempts < job.maxAttempts then
      some (completedAt + job.backoff.delayForAttempt attempts) else none
    let finish ← attempt (.finishFailure job completedAt failure retryAt) (Except.mapError .store)
    if finish = .cancelled then recordCancelled job completedAt report
    else return { report with failed := report.failed + 1 }
  | .cancelled => recordCancelled job completedAt report
  | .skipped => do
    let finish ← attempt (.finishSkipped job completedAt) (Except.mapError .store)
    if finish = .cancelled then recordCancelled job completedAt report
    else return { report with skipped := report.skipped + 1 }

/-- Record a claimed job's outcome. -/
def finishClaimed (calendar : Calendar) (claimed : ClaimedJob) (execution : JobExecution) :
    RunnerCall StoreError JobRunReport := do
  applyExecution calendar claimed.job claimed.attempt execution (← clockNow) {}

/-! ### The main sweep -/

/-- What an execution counts as: a cancellation wins unless the work is known to be committed, and a
success that the store knows committed is a commit. -/
def settle (execution : JobExecution) (wasCancelled markedCommitted : Bool) : JobExecution :=
  if wasCancelled && execution ≠ .committed && !markedCommitted then .cancelled
  else if markedCommitted && execution = .succeeded then .committed
  else execution

/-- A failed read of the marker counts as not committed. -/
def readMarker : Except StoreError Bool → Except (JobRunnerError StoreError) Bool
  | .ok marked => .ok marked
  | .error _ => .ok false

/-- Run one due row. -/
def runOne (calendar : Calendar) (now : Timestamp) (unlockWindow : String) (job : JobRecord)
    (report : JobRunReport) : RunnerCall StoreError JobRunReport := do
  match ← claimDue now unlockWindow job report with
  | (none, report) => return report
  | (some attempts, report) =>
    if ← attempt (.shouldRun job) .ok then
      let report := { report with attempted := report.attempted + 1 }
      attempt (.execute job) .ok
      let (execution, wasCancelled) ← attempt (.executed job) .ok
      let markedCommitted ← attempt (.committed job.id) readMarker
      applyExecution calendar job attempts (settle execution wasCancelled markedCommitted)
        (← clockNow) report
    else
      let finish ← attempt (.finishSkipped job (← clockNow)) (Except.mapError .store)
      if finish = .cancelled then recordCancelled job (← clockNow) report
      else return { report with skipped := report.skipped + 1 }

/-- Run the due rows in turn, until the sweep is cancelled. -/
def runEach (calendar : Calendar) (now : Timestamp) (unlockWindow : String) :
    List JobRecord → JobRunReport → RunnerCall StoreError JobRunReport
  | [], report => return report
  | job :: rest, report => do
    if ← attempt .isCancelled .ok then return report
    else runEach calendar now unlockWindow rest (← runOne calendar now unlockWindow job report)

/-- Run all rows due in one unlock window, but those of the excluded kinds. -/
def runDue (calendar : Calendar) (excludedKinds : List String) (now : Timestamp)
    (unlockWindow : String) : RunnerCall StoreError JobRunReport := do
  let recovered ← attempt (.recoverRunning now) (Except.mapError .store)
  let jobs ← attempt (.dueJobs now unlockWindow) (Except.mapError .store)
  runEach calendar now unlockWindow (jobs.filter fun job => !excludedKinds.contains job.kind)
    { recovered }

end JobRunner

end Dohflow.JobRuntime
