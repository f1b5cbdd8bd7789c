/-
This file models the table of durable jobs and the statements the database worker runs
on it.

A row is what a store loads and the commit marker of the run in flight. Every statement
is one `update`: the rows it selects, and what it sets in them. Recovery is three of
them in one transaction.
-/

import Dohflow.JobRuntime.Jobs

namespace Dohflow.DbWorker

open Fallible SyncCore JobRuntime

/-- What a job's durable effect committed. -/
inductive CommitOutcome
  | succeeded
  | failed (reason : String)
  deriving DecidableEq

/-- The columns `committed_at` and `committed_outcome`, which are null together. -/
structure CommitMarker where
  committedAt : Timestamp
  /-- Whether what committed was a failure record. -/
  failed : Bool
  deriving DecidableEq

/-- A row of the table. -/
structure JobRow extends JobRecord where
  marker : Option CommitMarker
  deriving DecidableEq

/-- The table; the id is its primary key. -/
structure JobTable where
  rows : List JobRow
  unique : (rows.map fun row => row.id).Nodup

/-! ### Error texts -/

/-- The characters a stored error text is stripped of. -/
def isStripped (character : Char) : Bool :=
  let code := character.toNat
  code ≤ 0x1f || (0x7f ≤ code && code ≤ 0x9f) || (0x200b ≤ code && code ≤ 0x200f) ||
    (0x202a ≤ code && code ≤ 0x202e) || (0x2066 ≤ code && code ≤ 0x2069) || code = 0xfeff

def sanitizeError (raw : String) : String :=
  let cleaned := String.ofList ((raw.toList.filter fun character => !isStripped character).take 300)
  if raw.length > 300 then cleaned ++ "…" else cleaned

/-- A failure outcome, with its reason as the runner's own failure write has it. -/
def CommitOutcome.ofFailure (reason : String) : CommitOutcome := .failed (sanitizeError reason)

def CommitOutcome.isFailed : CommitOutcome → Bool
  | .succeeded => false
  | .failed _ => true

def CommitOutcome.reason : CommitOutcome → Option String
  | .succeeded => none
  | .failed reason => some reason

namespace JobRow

/-- A retry policy as its columns hold it, in whole seconds. -/
def storedBackoff (backoff : BackoffPolicy) : BackoffPolicy :=
  { backoff with initial := .seconds (backoff.initial.tdiv 1000000000) }

/-- The row a specification is inserted as. -/
def scheduled (spec : JobSpec) : JobRow :=
  { id := spec.id, kind := spec.kind, schedule := spec.schedule, nextDueAt := some spec.nextDueAt
    state := .queued, attempts := 0, maxAttempts := spec.maxAttempts
    backoff := storedBackoff spec.backoff, enabled := spec.enabled
    requiresExplicitOptIn := spec.requiresExplicitOptIn, payloadJson := spec.payloadJson
    lastRunAt := none, lastOutcome := none, lastError := none, lastUnlockWindow := none
    cancelRequested := false, marker := none }

/-- The row after its specification is changed. -/
def rescheduled (row : JobRow) (spec : JobSpec) : JobRow :=
  { row with
    kind := spec.kind, schedule := spec.schedule, nextDueAt := some spec.nextDueAt
    maxAttempts := spec.maxAttempts, backoff := storedBackoff spec.backoff
    enabled := spec.enabled, requiresExplicitOptIn := spec.requiresExplicitOptIn
    payloadJson := spec.payloadJson }

/-- The row after a success, whether or not its work was committed. -/
def succeeded (row : JobRow) (nextDueAt : Option Timestamp) : JobRow :=
  { row with
    state := .succeeded, attempts := 0, nextDueAt, lastOutcome := some .succeeded
    lastError := none, cancelRequested := false, marker := none }

end JobRow

namespace JobTable

def empty : JobTable := ⟨[], List.nodup_nil⟩

/-- The row of an id. -/
def find (table : JobTable) (id : Uuid) : Option JobRow := table.rows.find? fun row => row.id = id

/-- `UPDATE ... SET ... WHERE ...`: the table after it, and how many rows it changed. -/
def update (table : JobTable) (selects : JobRow → Bool) (sets : JobRow → JobRow)
    (keepsId : ∀ row, (sets row).id = row.id) : JobTable × Nat :=
  ({ rows := table.rows.map fun row => if selects row then sets row else row
     unique := by
      have same : ((table.rows.map fun row => if selects row then sets row else row).map
          fun row => row.id) = table.rows.map fun row => row.id := by
        rw [List.map_map]
        refine List.map_congr_left fun row _ => ?_
        show (if selects row then sets row else row).id = row.id
        split
        · exact keepsId row
        · rfl
      rw [same]
      exact table.unique },
    table.rows.countP selects)

/-- `INSERT ...` of a row whose id the table does not hold. -/
def insert (table : JobTable) (row : JobRow) (absent : table.find row.id = none) : JobTable where
  rows := table.rows ++ [row]
  unique := by
    rw [List.map_append, List.map_singleton]
    refine List.nodup_append.mpr ⟨table.unique, List.nodup_singleton _, ?_⟩
    rintro id member other single rfl
    obtain ⟨held, inside, same⟩ := List.mem_map.mp member
    have fresh := List.find?_eq_none.mp absent held inside
    rw [decide_eq_true_eq, List.mem_singleton.mp single] at *
    exact fresh same

/-! ### Schedules and requests -/

/-- Insert a job's row, or update its schedule; what the row says of its runs is preserved. -/
def scheduleJob (table : JobTable) (spec : JobSpec) : Except JobSpecError JobTable := do
  spec.validate
  match absent : table.find spec.id with
  | none => return table.insert (.scheduled spec) absent
  | some _ => return (table.update (fun row => row.id = spec.id) (·.rescheduled spec) fun _ => rfl).1

/-- Request cancellation: a row that is not running becomes terminal at once. -/
def cancelJob (table : JobTable) (id : Uuid) : JobTable × Bool :=
  let updated := table.update
    (fun row => row.id = id && (row.state ≠ .failed && row.state ≠ .cancelled))
    (fun row =>
      if row.state = .running then { row with cancelRequested := true }
      else { row with
        state := .cancelled, lastOutcome := some .cancelled
        lastError := some "cancelled by user", cancelRequested := true })
    fun row => by split <;> rfl
  (updated.1, updated.2 ≠ 0)

def jobCancellationRequested (table : JobTable) (id : Uuid) : Bool :=
  match table.find id with
  | some row => row.cancelRequested
  | none => false

/-- Whether the job is running and carries the commit marker. -/
def jobCommitted (table : JobTable) (id : Uuid) : Bool :=
  match table.find id with
  | some row => row.state = .running && row.marker.isSome
  | none => false

/-- Write the commit marker of a running job; its first value stays. -/
def markCommitted (table : JobTable) (id : Uuid) (committedAt : Timestamp)
    (outcome : CommitOutcome) : JobTable × Nat :=
  table.update (fun row => row.id = id && row.state = .running)
    (fun row => { row with
      marker := row.marker.or (some ⟨committedAt, outcome.isFailed⟩)
      lastError := if row.marker.isNone then outcome.reason.or row.lastError else row.lastError })
    fun _ => rfl

/-! ### Recovery -/

/-- Recover the rows a crash left running: one with a cancellation request is recorded as what its
marker says, or as cancelled without one; the others are requeued. -/
def recoverRunning (calendar : Calendar) (table : JobTable) (now : Timestamp) : JobTable × Nat :=
  let recovered := table.update
    (fun row => row.state = .running && row.cancelRequested && row.marker.isSome)
    (fun row =>
      if row.marker.any CommitMarker.failed then
        { row with
          state := .failed, lastOutcome := some .failed
          lastError := row.lastError.or (some "the run failed before recovery")
          cancelRequested := false, marker := none }
      else row.succeeded (row.schedule.nextDueAfter calendar now))
    fun row => by split <;> rfl
  let cancelled := recovered.1.update
    (fun row => row.state = .running && row.cancelRequested && row.marker.isNone)
    (fun row => { row with
      state := .cancelled, lastOutcome := some .cancelled
      lastError := some "cancelled before recovery", cancelRequested := false, marker := none })
    fun _ => rfl
  let requeued := cancelled.1.update
    (fun row => row.state = .running && !row.cancelRequested)
    (fun row => { row with
      state := .queued
      nextDueAt := match row.nextDueAt with
        | none => some now
        | some due => if due > now then some now else some due
      cancelRequested := false, marker := none })
    fun _ => rfl
  (requeued.1, recovered.2 + cancelled.2 + requeued.2)

/-! ### Claims -/

/-- Whether a row is queued or has succeeded before, and can be claimed again. -/
def claimable (row : JobRow) : Bool := row.state = .queued || row.state = .succeeded

/-- Whether the row was last claimed in another unlock window. -/
def outsideWindow (unlockWindow : String) (row : JobRow) : Bool :=
  row.lastUnlockWindow ≠ some unlockWindow

/-- The order of due rows: by due time, then by id. -/
def dueBefore (first second : JobRow) : Bool :=
  match first.nextDueAt, second.nextDueAt with
  | some firstDue, some secondDue =>
    firstDue < secondDue || firstDue = secondDue && first.id.toList ≤ second.id.toList
  | _, _ => true

/-- The rows due at a time and not claimed in the unlock window. -/
def dueJobs (table : JobTable) (now : Timestamp) (unlockWindow : String) : List JobRecord :=
  ((table.rows.filter fun row =>
    row.enabled && claimable row && row.nextDueAt.any (· ≤ now) &&
      outsideWindow unlockWindow row).mergeSort dueBefore).map JobRow.toJobRecord

/-- Claim a row for an attempt in an unlock window; a claim starts with nothing committed. -/
def claimJob (table : JobTable) (id : Uuid) (attempt : Nat) (startedAt : Timestamp)
    (unlockWindow : String) : JobTable × Bool :=
  let updated := table.update
    (fun row => row.id = id && (claimable row && row.attempts + 1 = attempt &&
      outsideWindow unlockWindow row))
    (fun row => { row with
      state := .running, attempts := attempt, lastRunAt := some startedAt
      lastUnlockWindow := some unlockWindow, cancelRequested := false, marker := none })
    fun _ => rfl
  (updated.1, updated.2 ≠ 0)

/-! ### Terminal writes -/

/-- A terminal write that selected no row was beaten by a cancellation request. -/
def finishResult (changed : Nat) : JobFinishResult := if changed = 0 then .cancelled else .applied

def finishSuccess (table : JobTable) (job : JobRecord) (nextDueAt : Option Timestamp) :
    JobTable × JobFinishResult :=
  let updated := table.update
    (fun row => row.id = job.id && (row.state = .running && !row.cancelRequested))
    (·.succeeded nextDueAt) fun _ => rfl
  (updated.1, finishResult updated.2)

/-- No guard on a cancellation request: the work is already committed. -/
def finishCommitted (table : JobTable) (job : JobRecord) (nextDueAt : Option Timestamp) :
    JobTable :=
  (table.update (fun row => row.id = job.id && row.state = .running) (·.succeeded nextDueAt)
    fun _ => rfl).1

def finishFailure (table : JobTable) (job : JobRecord) (failure : JobFailure)
    (retryAt : Option Timestamp) : JobTable × JobFinishResult :=
  let updated := table.update
    (fun row => row.id = job.id && ((row.state = .running || claimable row) &&
      (!row.cancelRequested || row.marker.isSome)))
    (fun row => { row with
      state := if retryAt.isSome then .queued else .failed
      nextDueAt := retryAt.or row.nextDueAt, lastOutcome := some .failed
      lastError := some (sanitizeError failure.reason), cancelRequested := false, marker := none })
    fun _ => rfl
  (updated.1, finishResult updated.2)

def finishCancelled (table : JobTable) (job : JobRecord) (reason : String) : JobTable :=
  (table.update (fun row => row.id = job.id && row.state = .running)
    (fun row => { row with
      state := .cancelled, lastOutcome := some .cancelled
      lastError := some (sanitizeError reason), marker := none })
    fun _ => rfl).1

def finishSkipped (table : JobTable) (job : JobRecord) : JobTable × JobFinishResult :=
  let updated := table.update
    (fun row => row.id = job.id && (row.state = .running && !row.cancelRequested))
    (fun row => { row with
      state := .queued, lastOutcome := some .skipped, cancelRequested := false, marker := none })
    fun _ => rfl
  (updated.1, finishResult updated.2)

/-! ### What a statement does to the row of an id -/

variable {table : JobTable} {id : Uuid} {row : JobRow}

theorem find_eq_some : table.find id = some row ↔ row ∈ table.rows ∧ row.id = id := by
  constructor
  · intro found
    have selected := List.find?_some found
    rw [decide_eq_true_eq] at selected
    exact ⟨List.mem_of_find?_eq_some found, selected⟩
  · rintro ⟨inside, rfl⟩
    cases found : table.find row.id with
    | none =>
      have refused := List.find?_eq_none.mp found row inside
      simp at refused
    | some other =>
      have selected := List.find?_some found
      rw [decide_eq_true_eq] at selected
      rw [List.inj_on_of_nodup_map table.unique (List.mem_of_find?_eq_some found) inside selected]

theorem id_of_find (found : table.find id = some row) : row.id = id := (find_eq_some.mp found).2

section

variable {selects : JobRow → Bool} {sets : JobRow → JobRow}
  {keepsId : ∀ row, (sets row).id = row.id}

theorem find_update : (table.update selects sets keepsId).1.find id =
    (table.find id).map fun row => if selects row then sets row else row := by
  have sameId : ((fun row : JobRow => decide (row.id = id)) ∘
      fun row => if selects row then sets row else row) = fun row => decide (row.id = id) := by
    funext row
    simp only [Function.comp_apply]
    split
    · rw [keepsId]
    · rfl
  rw [find, update, List.find?_map, sameId]
  rfl

theorem update_of_unchanged (unchanged : (table.update selects sets keepsId).2 = 0) :
    (table.update selects sets keepsId).1 = table := by
  have skipped : ∀ row ∈ table.rows, ¬ selects row = true := List.countP_eq_zero.mp unchanged
  have same : (table.update selects sets keepsId).1.rows = table.rows := by
    refine (List.map_congr_left fun row inside => ?_).trans (List.map_id _)
    rw [if_neg (skipped row inside), id]
  cases table
  simp only [update, mk.injEq] at same ⊢
  exact same

theorem changed_ne_zero_iff {guards : JobRow → Bool} :
    (table.update (fun row => row.id = id && guards row) sets keepsId).2 ≠ 0 ↔
      ∃ row, table.find id = some row ∧ guards row = true := by
  rw [update, ← Nat.pos_iff_ne_zero, List.countP_pos_iff]
  simp only [Bool.and_eq_true, decide_eq_true_eq, find_eq_some]
  exact ⟨fun ⟨row, inside, named, guarded⟩ => ⟨row, ⟨inside, named⟩, guarded⟩,
    fun ⟨row, ⟨inside, named⟩, guarded⟩ => ⟨row, inside, named, guarded⟩⟩

end

variable {now : Timestamp} {calendar : Calendar}

theorem find_insert {absent : table.find row.id = none} :
    (table.insert row absent).find id = if row.id = id then some row else table.find id := by
  rw [find, insert, List.find?_append]
  by_cases named : row.id = id
  · subst named
    rw [if_pos rfl, show table.rows.find? (fun other => other.id = row.id) = none from absent]
    simp
  · rw [if_neg named]
    simp [named, find]

theorem find_scheduleJob {spec : JobSpec} {after : JobTable}
    (scheduled : table.scheduleJob spec = .ok after) :
    after.find id = if spec.id = id then
        some ((table.find id).elim (.scheduled spec) (·.rescheduled spec))
      else table.find id := by
  obtain ⟨_, -, scheduled⟩ := bind_eq_ok.mp scheduled
  split at scheduled
  · next absent =>
    obtain rfl := Except.ok.inj scheduled
    refine find_insert.trans ?_
    show (if spec.id = id then _ else _) = _
    split
    · next named =>
      subst named
      rw [absent, Option.elim_none]
    · rfl
  · next row found =>
    obtain rfl := Except.ok.inj scheduled
    refine find_update.trans ?_
    by_cases named : spec.id = id
    · subst named
      rw [found, if_pos rfl, Option.map_some, if_pos (decide_eq_true (id_of_find found)),
        Option.elim_some]
    · rw [if_neg named]
      cases other : table.find id with
      | none => rfl
      | some row => simp [id_of_find other, Ne.symm named]

/-- What recovery makes of a row. -/
def recoverRow (calendar : Calendar) (now : Timestamp) (row : JobRow) : JobRow :=
  if row.state ≠ .running then row
  else if row.cancelRequested then
    match row.marker with
    | some marker =>
      if marker.failed then
        { row with
          state := .failed, lastOutcome := some .failed
          lastError := row.lastError.or (some "the run failed before recovery")
          cancelRequested := false, marker := none }
      else row.succeeded (row.schedule.nextDueAfter calendar now)
    | none =>
      { row with
        state := .cancelled, lastOutcome := some .cancelled
        lastError := some "cancelled before recovery", cancelRequested := false, marker := none }
  else
    { row with
      state := .queued
      nextDueAt := match row.nextDueAt with
        | none => some now
        | some due => if due > now then some now else some due
      cancelRequested := false, marker := none }

theorem find_recoverRunning :
    (table.recoverRunning calendar now).1.find id =
      (table.find id).map (recoverRow calendar now) := by
  rw [recoverRunning, find_update, find_update, find_update, Option.map_map, Option.map_map]
  refine congrArg (fun sets => (table.find id).map sets) (funext fun row => ?_)
  simp only [Function.comp_apply, recoverRow]
  by_cases running : row.state = .running
  · cases requested : row.cancelRequested with
    | false => simp [running, requested]
    | true =>
      cases marked : row.marker with
      | none => simp [running, requested, marked]
      | some marker =>
        cases failed : marker.failed with
        | false => simp [running, failed, JobRow.succeeded]
        | true => simp [running, failed]
  · simp [running]

theorem recoverRow_stops : (recoverRow calendar now row).state ≠ .running := by
  unfold recoverRow
  split
  · assumption
  · split
    · split
      · split
        · exact nofun
        · exact nofun
      · exact nofun
    · exact nofun

theorem claimable_of_mem_dueJobs {unlockWindow : String} {job : JobRecord}
    (listed : job ∈ table.dueJobs now unlockWindow) :
    ∃ row, table.find job.id = some row ∧ claimable row = true := by
  obtain ⟨row, inside, rfl⟩ := List.mem_map.mp listed
  obtain ⟨inside, due⟩ := List.mem_filter.mp (List.mem_mergeSort.mp inside)
  simp only [Bool.and_eq_true] at due
  exact ⟨row, find_eq_some.mpr ⟨inside, rfl⟩, due.1.1.2⟩

theorem nodup_dueJobs (table : JobTable) (now : Timestamp) (unlockWindow : String) :
    ((table.dueJobs now unlockWindow).map JobRecord.id).Nodup := by
  rw [dueJobs, List.map_map]
  refine ((List.mergeSort_perm _ _).map _).nodup_iff.mpr ?_
  exact table.unique.sublist (List.filter_sublist.map _)

end JobTable

end Dohflow.DbWorker
