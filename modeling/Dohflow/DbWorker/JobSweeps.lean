/-
This file puts the job runner over the table of durable jobs: the two sweeps a host
starts after an unlock, and everything they can meet.

The main sweep holds the runner gate throughout. The other one holds it only while it
claims, and runs each claimed job and records its outcome with the gate released. Beside
them jobs are scheduled and cancelled, and the handler of a call writes the commit
marker of its job, at any moment. A call can be cut off anywhere, and any request to the
store can fail.
-/

import Dohflow.DbWorker.JobTable
import Dohflow.Foundation.Interleaving
import Dohflow.JobRuntime.Runner

namespace Dohflow.DbWorker

open SyncCore JobRuntime Program Interleaving

inductive JobStoreError
  | invalidRow (message : String)
  | db
  | sqlite

/-! ### The sweeps -/

/-- A sweep of the worker. -/
abbrev SweepCall (Value : Type) : Type := RunnerCall JobStoreError Value

def connectorRefreshJobKind : String := "connector_refresh"

/-- The kinds whose handler must not hold the vault lock while it runs. -/
def lockReleasingJobKinds : List String := [connectorRefreshJobKind]

/-- A call made under the runner gate, which is released however it ends. -/
def gated {Value : Type} (call : SweepCall Value) : SweepCall Value :=
  ExceptT.mk (.ask .enterGate fun _ =>
    Program.bind call fun result => .ask .leaveGate fun _ => .done result)

/-- What one refresh sweep did. -/
structure RefreshSweepReport where
  refreshed : Nat := 0
  skipped : Nat := 0
  cancelled : Nat := 0
  failed : Nat := 0

def RefreshSweepReport.count (report : RefreshSweepReport) : JobExecution → RefreshSweepReport
  | .succeeded => { report with refreshed := report.refreshed + 1 }
  | .committed => { report with refreshed := report.refreshed + 1 }
  | .failed _ => { report with failed := report.failed + 1 }
  | .skipped => { report with skipped := report.skipped + 1 }
  | .cancelled => { report with cancelled := report.cancelled + 1 }

section

variable (calendar : Calendar)

/-- Run due jobs after unlock. -/
def runDueJobs (now : Timestamp) (unlockWindow : String) : SweepCall JobRunReport :=
  gated (JobRunner.runDue calendar lockReleasingJobKinds now unlockWindow)

/-- Claim the due rows of a lock-releasing kind. -/
def claimDueJobsOfKind (kind : String) (now : Timestamp) (unlockWindow : String) :
    SweepCall (List ClaimedJob × JobRunReport) :=
  gated (JobRunner.claimDueOfKind now unlockWindow kind)

/-- Run one claimed job with the gate released, and record its outcome. -/
def refreshOne (claimed : ClaimedJob) (report : RefreshSweepReport) :
    SweepCall RefreshSweepReport := do
  attempt (.execute claimed.job) .ok
  let (execution, _) ← attempt (.executed claimed.job) .ok
  let _ ← JobRunner.finishClaimed calendar claimed execution
  return report.count execution

/-- Run the claimed jobs in turn. -/
def refreshEach : List ClaimedJob → RefreshSweepReport → SweepCall RefreshSweepReport
  | [], report => return report
  | claimed :: rest, report => do refreshEach rest (← refreshOne calendar claimed report)

/-- Run the due jobs of a lock-releasing kind. -/
def runDueOfKind (kind : String) (now : Timestamp) (unlockWindow : String) :
    SweepCall RefreshSweepReport := do
  let (claimed, _) ← claimDueJobsOfKind kind now unlockWindow
  refreshEach calendar claimed {}

end

/-! ### The world they meet -/

/-- The table and the gate, and what no column says: the claims made, newest first, with the call
that made each; the job each call's handler is at work on; whether the token of a call's job was
cancelled when its handler last returned; what the latest run of each job has committed. -/
structure JobWorld where
  table : JobTable
  gate : Option Nat
  claims : List (Uuid × Nat)
  handling : Nat → Option Uuid
  stopped : Nat → Bool
  committed : Uuid → Option CommitOutcome

namespace JobWorld

/-- A process that finds this table. -/
def opened (table : JobTable) : JobWorld :=
  { table, gate := none, claims := [], handling := fun _ => none, stopped := fun _ => false
    committed := fun _ => none }

/-- The call that claimed the job last. -/
def latest (world : JobWorld) (id : Uuid) : Option Nat :=
  (world.claims.find? fun claim => claim.1 = id).map Prod.snd

/-- Whether the job's row is running. -/
def running (world : JobWorld) (id : Uuid) : Prop :=
  ∃ row, world.table.find id = some row ∧ row.state = .running

/-- A call leaves: the gate is no longer its, and its handler is at work no more. -/
def release (world : JobWorld) (owner : Nat) : JobWorld :=
  { world with
    gate := if world.gate = some owner then none else world.gate
    handling := Function.update world.handling owner none }

end JobWorld

/-- What the world leaves open when a request is served. -/
structure JobChoice where
  failure : Option JobStoreError
  now : Timestamp
  cancelled : Bool
  shouldRun : Bool
  execution : JobExecution

/-- The answer of a statement that may fail, and then has changed nothing. -/
def JobChoice.answer {Value : Type} (choice : JobChoice) (world : JobWorld)
    (done : Value × JobWorld) : Option (Except JobStoreError Value × JobWorld) :=
  match choice.failure with
  | some error => some (.error error, world)
  | none => some (.ok done.1, done.2)

/-- Serve a call's request. -/
def serveJob (calendar : Calendar) (owner : Nat) (choice : JobChoice) (request : JobRequest)
    (world : JobWorld) : Option (request.Response JobStoreError × JobWorld) :=
  match request with
  | .recoverRunning now =>
    let recovered := world.table.recoverRunning calendar now
    choice.answer world (recovered.2, { world with table := recovered.1 })
  | .dueJobs now unlockWindow =>
    choice.answer world (world.table.dueJobs now unlockWindow, world)
  | .claimJob id attempts startedAt unlockWindow =>
    let claimed := world.table.claimJob id attempts startedAt unlockWindow
    choice.answer world (claimed.2,
      if claimed.2 then
        { world with
          table := claimed.1, claims := (id, owner) :: world.claims
          committed := Function.update world.committed id none }
      else { world with table := claimed.1 })
  | .cancellationRequested id =>
    choice.answer world (world.table.jobCancellationRequested id, world)
  | .committed id => choice.answer world (world.table.jobCommitted id, world)
  | .finishSuccess job _ nextDueAt =>
    let finished := world.table.finishSuccess job nextDueAt
    choice.answer world (finished.2, { world with table := finished.1 })
  | .finishCommitted job _ nextDueAt =>
    choice.answer world ((), { world with table := world.table.finishCommitted job nextDueAt })
  | .finishFailure job _ failure retryAt =>
    let finished := world.table.finishFailure job failure retryAt
    choice.answer world (finished.2, { world with table := finished.1 })
  | .finishCancelled job _ reason =>
    choice.answer world ((), { world with table := world.table.finishCancelled job reason })
  | .finishSkipped job _ =>
    let finished := world.table.finishSkipped job
    choice.answer world (finished.2, { world with table := finished.1 })
  | .now => some (choice.now, world)
  | .isCancelled => some (choice.cancelled, world)
  | .shouldRun _ => some (choice.shouldRun, world)
  | .execute job =>
    some ((), { world with handling := Function.update world.handling owner (some job.id) })
  | .executed _ =>
    some ((choice.execution, choice.cancelled),
      { world with
        handling := Function.update world.handling owner none
        stopped := Function.update world.stopped owner choice.cancelled })
  | .enterGate =>
    match world.gate with
    | none => some ((), { world with gate := some owner })
    | some _ => none
  | .leaveGate => some ((), { world with gate := none })

/-- What happens beside the sweeps. -/
inductive JobMove
  | schedule (spec : JobSpec)
  | cancelJob (id : Uuid)
  /-- The handler of a call writes the commit marker of its job. -/
  | markCommitted (owner : Nat) (committedAt : Timestamp) (outcome : CommitOutcome)

def moveJob (world : JobWorld) : JobMove → Option JobWorld
  | .schedule spec =>
    match world.table.scheduleJob spec with
    | .ok table => some { world with table }
    | .error _ => none
  | .cancelJob id => some { world with table := (world.table.cancelJob id).1 }
  | .markCommitted owner committedAt outcome =>
    match world.handling owner with
    | none => none
    | some id =>
      let marked := world.table.markCommitted id committedAt outcome
      some { world with
        table := marked.1
        committed := if marked.2 = 0 then world.committed
          else Function.update world.committed id ((world.committed id).or (some outcome)) }

/-- What a host starts. -/
inductive SweepKind
  | due (now : Timestamp) (unlockWindow : String)
  | ofKind (kind : String) (now : Timestamp) (unlockWindow : String)

/-- What a sweep ends with. -/
inductive SweepResult
  | due (report : Except (JobRunnerError JobStoreError) JobRunReport)
  | ofKind (report : Except (JobRunnerError JobStoreError) RefreshSweepReport)

/-- The program of a sweep. -/
def SweepKind.program (calendar : Calendar) :
    SweepKind → Program JobRequest (JobRequest.Response JobStoreError) SweepResult
  | .due now unlockWindow =>
    Program.bind (runDueJobs calendar now unlockWindow) fun report => .done (.due report)
  | .ofKind kind now unlockWindow =>
    Program.bind (runDueOfKind calendar kind now unlockWindow) fun report =>
      .done (.ofKind report)

/-- The sweeps over one table, and what happens beside them. -/
def jobSetting (calendar : Calendar) :
    Setting JobRequest (JobRequest.Response JobStoreError) SweepResult where
  World := JobWorld
  Call := SweepKind
  Choice := JobChoice
  Move := JobMove
  program := SweepKind.program calendar
  serve := serveJob calendar
  finish owner _ world := world.release owner
  cut owner world := world.release owner
  move move world := moveJob world move

end Dohflow.DbWorker
