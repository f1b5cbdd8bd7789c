/-
This file says what every run of the job sweeps shows: whose run a terminal write ends,
and whether the recorded outcome is true.

Neither holds of all runs. Recovery requeues whatever it finds running, and so also a job
whose claiming call is at work on it with the gate released; that call's terminal write
then ends the run of whoever claimed the job again. And a cancellation is recorded for a
run that committed where the marker is not asked for: by the write that ends a job
claimed without the gate, and by a cancellation that comes after the end.
-/

import Dohflow.DbWorker.JobDiscipline

namespace Dohflow.DbWorker

open SyncCore JobRuntime Program Interleaving Fallible

variable {calendar : Calendar} {pool after : Pool (jobSetting calendar)}

theorem sound_of_opened {strict : Prop} {table : JobTable}
    (truthful : strict → ∀ id row, table.find id = some row → Truthful none row)
    (reached : Reaches (jobCondition calendar strict) (JobWorld.opened table) pool) :
    (jobDiscipline calendar strict).Sound (jobCondition calendar strict) pool :=
  sound_of_reaches (jobDiscipline_holds calendar strict) ⟨fun _ _ works => (by cases works), truthful⟩
    (fun _ => ⟨rfl, fun _ => List.not_mem_nil⟩) reached

/-! ### Sample runs -/

/-- A calendar whose months are all of one length. -/
def sampleCalendar : Calendar := ⟨fun instant months => some (instant + months * 2592000000000000)⟩

def sampleJobId : Uuid := ⟨List.replicate 16 1, rfl⟩

def sampleSpec : JobSpec where
  id := sampleJobId
  kind := connectorRefreshJobKind
  schedule := .daily
  nextDueAt := 0
  maxAttempts := 5
  backoff := ⟨0, 10000⟩
  enabled := true
  requiresExplicitOptIn := false
  payloadJson := none

/-- Nothing fails, and a handler returns that. -/
def returning (execution : JobExecution) : JobChoice := ⟨none, 0, false, true, execution⟩

/-- The job is scheduled, and a call claims it and starts its handler. -/
def handlerAtWork : List (Event (jobSetting sampleCalendar)) :=
  [.move (.schedule sampleSpec), .start (.ofKind connectorRefreshJobKind 0 "first")] ++
    List.replicate 6 (.serve 0 (returning .committed))

/-- Its handler returns, and the call is about to record the outcome. -/
def outcomeDue (execution : JobExecution) : List (Event (jobSetting sampleCalendar)) :=
  List.replicate 2 (.serve 0 (returning execution))

/-- The handler writes the commit marker. -/
def marks (outcome : CommitOutcome) : Event (jobSetting sampleCalendar) :=
  .move (.markCommitted 0 0 outcome)

def cancels : Event (jobSetting sampleCalendar) := .move (.cancelJob sampleJobId)

/-- The pool that events lead to. -/
def reachedBy (events : List (Event (jobSetting sampleCalendar))) :
    Pool (jobSetting sampleCalendar) :=
  ((Pool.quiet (JobWorld.opened .empty)).run events).getD (.quiet (.opened .empty))

/-- The request that a call of it has made. -/
def asked (events : List (Event (jobSetting sampleCalendar))) (owner : Nat) : JobRequest :=
  ((reachedBy events).asks owner).getD .now

theorem reaches_reachedBy {condition : Condition (jobSetting sampleCalendar)}
    (events : List (Event (jobSetting sampleCalendar)))
    (test : Pool (jobSetting sampleCalendar) → Event (jobSetting sampleCalendar) → Bool)
    (finds : ∀ pool event, test pool event = true → condition.Meets pool event)
    (passed : (Pool.quiet (JobWorld.opened .empty)).passes test events = true)
    (runs : ((Pool.quiet (JobWorld.opened .empty) : Pool (jobSetting sampleCalendar)).run
      events).isSome = true) : Reaches condition (JobWorld.opened .empty) (reachedBy events) :=
  reaches_of_run finds .refl passed (eq_some_getD runs _)

/-- A step that is no recovery. -/
def recoversNothing (pool : Pool (jobSetting calendar)) : Event (jobSetting calendar) → Bool
  | .serve owner _ =>
    match pool.asks owner with
    | some (.recoverRunning _) => false
    | _ => true
  | _ => true

theorem undisturbed_of_recoversNothing (pool : Pool (jobSetting calendar))
    (event : Event (jobSetting calendar)) (plain : recoversNothing pool event = true) :
    (undisturbed calendar).Meets pool event := by
  cases event with
  | serve owner choice =>
    intro request next running
    refine ⟨fun now recovers => ?_, False.elim⟩
    subst recovers
    simp [recoversNothing, Pool.asks, running] at plain
  | move move => exact False.elim
  | start call => trivial
  | finish owner => trivial
  | cut owner => trivial

/-! ### Whose run a terminal write ends -/

/-- A terminal write made on behalf of a claim changes the row only while that claim is the row's
latest and its run is unfinished, in every run in which recovery meets no run still in flight. -/
theorem terminal_write_ends_own_run {table : JobTable}
    (reached : Reaches (undisturbed calendar) (JobWorld.opened table) pool) {owner : Nat}
    {choice : JobChoice} {request : JobRequest} {id : Uuid}
    (asks : pool.asks owner = some request) (served : pool.step (.serve owner choice) = some after)
    (finishes : request.finishes = some id) (claimed : (id, owner) ∈ pool.world.claims)
    (changed : after.world.table.find id ≠ pool.world.table.find id) :
    pool.world.Holds owner id := by
  have sound := sound_of_opened False.elim reached
  have meets : (undisturbed calendar).Meets pool (.serve owner choice) := by
    intro other next running
    obtain rfl : other = request := by simpa [Pool.asks, running] using asks
    refine ⟨fun now recovers => ?_, False.elim⟩
    rw [recovers] at finishes
    cases finishes
  exact (sound.shows_step asks meets served).own id finishes claimed changed

/-- A call that claimed a job and is about to record its outcome. -/
theorem terminal_write_ends_own_run_sample :
    (reachedBy (handlerAtWork ++ outcomeDue .committed)).world.Holds 0 sampleJobId := by
  have reached := reaches_reachedBy (handlerAtWork ++ outcomeDue .committed) recoversNothing
    undisturbed_of_recoversNothing (by decide +kernel) (by decide +kernel)
  have asks : (reachedBy (handlerAtWork ++ outcomeDue .committed)).asks 0 =
      some (asked (handlerAtWork ++ outcomeDue .committed) 0) := eq_some_getD (by decide +kernel) _
  have served := eq_some_getD (by decide +kernel :
    ((reachedBy (handlerAtWork ++ outcomeDue .committed)).step
      (.serve 0 (returning .committed))).isSome = true)
  refine terminal_write_ends_own_run reached asks
    (served (reachedBy (handlerAtWork ++ outcomeDue .committed))) ?_ ?_ ?_
  · decide +kernel
  · decide +kernel
  · decide +kernel

/-- While a handler is at work without the gate, a sweep of the next unlock recovers its row and
another call claims it. -/
def claimedAgain : List (Event (jobSetting sampleCalendar)) :=
  handlerAtWork ++ [.start (.due 0 "second")] ++ List.replicate 4 (.serve 1 (returning .committed)) ++
    [.finish 1, .start (.ofKind connectorRefreshJobKind 0 "second")] ++
    List.replicate 6 (.serve 2 (returning .committed)) ++ outcomeDue .committed

/-- The first call's terminal write ends the other call's run. -/
theorem terminal_write_ends_other_run :
    ∃ (pool after : Pool (jobSetting sampleCalendar)) (choice : JobChoice) (request : JobRequest),
      Reaches .anything (JobWorld.opened .empty) pool ∧ pool.asks 0 = some request ∧
        pool.step (.serve 0 choice) = some after ∧ request.finishes = some sampleJobId ∧
        (sampleJobId, 0) ∈ pool.world.claims ∧
        after.world.table.find sampleJobId ≠ pool.world.table.find sampleJobId ∧
        ¬ pool.world.Holds 0 sampleJobId ∧ pool.world.Holds 2 sampleJobId := by
  have reached : Reaches .anything (JobWorld.opened .empty) (reachedBy claimedAgain) := by
    exact reaches_reachedBy claimedAgain (fun _ _ => true)
      (fun pool event _ => Condition.meets_anything pool event) (by decide +kernel)
      (by decide +kernel)
  have served := eq_some_getD (by decide +kernel :
    ((reachedBy claimedAgain).step (.serve 0 (returning .committed))).isSome = true)
  have held : (reachedBy claimedAgain).world.Holds 2 sampleJobId := by
    have runs : ((reachedBy claimedAgain).world.table.find sampleJobId).any
        (fun row => row.state = .running) = true := by decide +kernel
    obtain ⟨row, found, state⟩ := (Option.any_eq_true _ _).mp runs
    exact ⟨by decide +kernel, row, found, of_decide_eq_true state⟩
  refine ⟨reachedBy claimedAgain, _, returning .committed, asked claimedAgain 0, reached,
    eq_some_getD (by decide +kernel) _, served (reachedBy claimedAgain), ?_, ?_, ?_, ?_, held⟩
  · decide +kernel
  · decide +kernel
  · decide +kernel
  · exact fun own => absurd (own.unique held) (by decide)

/-! ### Whether the recorded outcome is true -/

theorem asks_of_ends {strict : Prop} {event : Event (jobSetting calendar)} {id : Uuid}
    {row ended : JobRow}
    (invariant : JobInvariant strict pool.world)
    (meets : (jobCondition calendar strict).Meets pool event) (taken : pool.step event = some after)
    (found : pool.world.table.find id = some row) (running : row.state = .running)
    (foundAfter : after.world.table.find id = some ended) (stopped : ended.state ≠ .running) :
    ∃ owner choice request, event = .serve owner choice ∧ pool.asks owner = some request := by
  have unchanged : after.world.table ≠ pool.world.table := by
    intro same
    rw [same, found] at foundAfter
    obtain rfl := Option.some.inj foundAfter
    exact stopped running
  cases event with
  | start call =>
    obtain rfl := Option.some.inj taken
    exact absurd rfl unchanged
  | serve owner choice =>
    cases calls : pool.calls owner with
    | none => simp [Pool.step, calls] at taken
    | some program =>
      cases program with
      | done value => simp [Pool.step, calls] at taken
      | ask request next => exact ⟨owner, choice, request, rfl, by simp [Pool.asks, calls]⟩
  | finish owner =>
    cases calls : pool.calls owner with
    | none => simp [Pool.step, calls] at taken
    | some program =>
      cases program with
      | ask request next => simp [Pool.step, calls] at taken
      | done value =>
        simp only [Pool.step, calls, Option.some.injEq] at taken
        subst taken
        exact absurd rfl unchanged
  | cut owner =>
    cases calls : pool.calls owner with
    | none => simp [Pool.step, calls] at taken
    | some program =>
      simp only [Pool.step, calls, Option.some.injEq] at taken
      subst taken
      exact absurd rfl unchanged
  | move move =>
    simp only [Pool.step, Option.map_eq_some_iff] at taken
    obtain ⟨world, moved, rfl⟩ := taken
    obtain ⟨other, foundOther, state⟩ :=
      (keptByAll_move invariant meets moved).runs id ⟨row, found, running⟩
    obtain rfl := Option.some.inj (foundAfter.symm.trans foundOther)
    exact absurd state stopped

/-- While the latest run of a job has committed something, the job is not recorded cancelled; and
the step that ends such a run records what committed, or is a recovery that requeues it with no
cancellation pending. This in every run in which recovery meets no run still in flight, handlers,
markers and cancellations are as `Honest` and `CancelsInTime` say. -/
theorem recorded_outcome_true
    (reached : Reaches (undisturbedAndHonest calendar) (JobWorld.opened .empty) pool) :
    (∀ id row, pool.world.table.find id = some row →
      row.state = .cancelled ∨ row.lastOutcome = some .cancelled →
      pool.world.committed id = none) ∧
    ∀ event after id row ended committed, (undisturbedAndHonest calendar).Meets pool event →
      pool.step event = some after → pool.world.table.find id = some row →
      row.state = .running → pool.world.committed id = some committed →
      after.world.table.find id = some ended → ended.state ≠ .running →
      ∃ owner request, pool.asks owner = some request ∧
        EndsTruly request committed row ended := by
  have sound := sound_of_opened (fun _ _ _ found => by cases found) reached
  refine ⟨fun id row found cancelled => ?_, ?_⟩
  · have truthful := sound.invariant.truthful trivial id row found
    exact truthful.uncommitted (cancelled.elim (fun state => state) truthful.recorded)
  · intro event after id row ended committed meets taken found running commits foundAfter stopped
    obtain ⟨owner, choice, request, rfl, asks⟩ :=
      asks_of_ends sound.invariant meets taken found running foundAfter stopped
    exact ⟨owner, request, asks, (sound.shows_step asks meets taken).truly trivial id row ended
      committed found running commits foundAfter stopped⟩

/-- No step but one that is as `Honest` and `CancelsInTime` say. -/
def passesHonestly (pool : Pool (jobSetting calendar)) (event : Event (jobSetting calendar)) :
    Bool :=
  recoversNothing pool event && match event with
    | .serve owner choice => choice.failure.isNone && match pool.asks owner with
      | some (.executed job) => choice.execution = .committed &&
          (pool.world.committed job.id).all fun outcome => !outcome.isFailed
      | some (.finishSuccess _ _ _) => false
      | _ => true
    | .move (.cancelJob id) => (pool.world.table.find id).all fun row => !JobTable.claimable row
    | _ => true

theorem undisturbedAndHonest_of_passesHonestly (pool : Pool (jobSetting calendar))
    (event : Event (jobSetting calendar)) (passes : passesHonestly pool event = true) :
    (undisturbedAndHonest calendar).Meets pool event := by
  obtain ⟨plain, honest⟩ := Bool.and_eq_true_iff.mp passes
  cases event with
  | serve owner choice =>
    intro request next running
    have undisturbed := (undisturbed_of_recoversNothing pool _ plain request next running).1
    refine ⟨undisturbed, fun _ => ?_⟩
    have asks : pool.asks owner = some request := by simp [Pool.asks, running]
    simp only [asks, Bool.and_eq_true, Option.isNone_iff_eq_none] at honest
    cases request with
    | executed job =>
      simp only [Bool.and_eq_true, decide_eq_true_eq] at honest
      show Agrees (pool.world.committed job.id) choice.execution
      rw [honest.2.1]
      intro outcome commits
      simpa [commits] using honest.2.2
    | committed id => exact .inl honest.1
    | finishSuccess job completedAt nextDueAt => exact absurd honest.2 Bool.false_ne_true
    | _ => trivial
  | move move =>
    intro _
    cases move with
    | cancelJob id =>
      intro row found claimable
      simp [found, claimable] at honest
    | _ => trivial
  | _ => trivial

/-- A cancellation is requested when the handler has committed and not yet returned. -/
def committedThenCancelled : List (Event (jobSetting sampleCalendar)) :=
  handlerAtWork ++ [marks .succeeded, cancels] ++ outcomeDue .committed

/-- A handler commits, a cancellation is requested, and the commit is what is recorded. -/
theorem recorded_outcome_true_sample :
    ∃ owner request row ended, (reachedBy committedThenCancelled).asks owner = some request ∧
      EndsTruly request .succeeded row ended := by
  have reached := reaches_reachedBy committedThenCancelled passesHonestly
    undisturbedAndHonest_of_passesHonestly (by decide +kernel) (by decide +kernel)
  have passes : passesHonestly (reachedBy committedThenCancelled)
      (.serve 0 (returning .committed)) = true := by decide +kernel
  have served := eq_some_getD (by decide +kernel :
    ((reachedBy committedThenCancelled).step (.serve 0 (returning .committed))).isSome = true)
    (reachedBy committedThenCancelled)
  obtain ⟨row, found, running⟩ := (Option.any_eq_true _ _).mp (by decide +kernel :
    ((reachedBy committedThenCancelled).world.table.find sampleJobId).any
      (fun row => row.state = .running) = true)
  obtain ⟨ended, foundAfter, stopped⟩ := (Option.any_eq_true _ _).mp (by decide +kernel :
    ((((reachedBy committedThenCancelled).step (.serve 0 (returning .committed))).getD
      (reachedBy committedThenCancelled)).world.table.find sampleJobId).any
        (fun row => row.state ≠ .running) = true)
  obtain ⟨owner, request, asks, truly⟩ := (recorded_outcome_true reached).2 _ _ sampleJobId row
    ended .succeeded (undisturbedAndHonest_of_passesHonestly _ _ passes) served found
    (of_decide_eq_true running) (by decide +kernel) foundAfter (of_decide_eq_true stopped)
  exact ⟨owner, request, row, ended, asks, truly⟩

/-- Handlers return a cancellation only when they have committed nothing. -/
def cancelsCleanly (calendar : Calendar) : Condition (jobSetting calendar) where
  serve _ _ choice request world := ∀ job, request = .executed job →
    choice.execution = .cancelled → world.committed job.id = none
  move _ _ _ := True

/-- A request is pending when a job claimed without the gate commits and reports its success. -/
def beatenAfterCommit : List (Event (jobSetting sampleCalendar)) :=
  handlerAtWork ++ [marks .succeeded, cancels] ++ outcomeDue .succeeded ++
    List.replicate 2 (.serve 0 (returning .succeeded))

/-- A request comes when the commit has been recorded. -/
def cancelledAfterEnd : List (Event (jobSetting sampleCalendar)) :=
  handlerAtWork ++ [marks .succeeded] ++ outcomeDue .committed ++
    [.serve 0 (returning .committed), cancels]

/-- A run that committed a success is recorded as cancelled. -/
def CancelsCommitted (pool : Pool (jobSetting sampleCalendar)) : Prop :=
  Reaches (cancelsCleanly sampleCalendar) (JobWorld.opened .empty) pool ∧
    pool.world.committed sampleJobId = some .succeeded ∧
    ∃ row, pool.world.table.find sampleJobId = some row ∧ row.state = .cancelled ∧
      row.lastOutcome = some .cancelled

theorem cancelsCommitted_reachedBy {events : List (Event (jobSetting sampleCalendar))}
    (clean : (Pool.quiet (JobWorld.opened .empty)).passes (fun _ event => match event with
      | .serve _ choice => decide (choice.execution ≠ .cancelled)
      | _ => true) events = true)
    (runs : ((Pool.quiet (JobWorld.opened .empty) : Pool (jobSetting sampleCalendar)).run
      events).isSome = true)
    (committed : (reachedBy events).world.committed sampleJobId = some .succeeded)
    (recorded : ((reachedBy events).world.table.find sampleJobId).any (fun row =>
      row.state = .cancelled ∧ row.lastOutcome = some .cancelled) = true) :
    CancelsCommitted (reachedBy events) := by
  obtain ⟨row, found, cancelled⟩ := (Option.any_eq_true _ _).mp recorded
  obtain ⟨state, outcome⟩ := of_decide_eq_true cancelled
  refine ⟨reaches_reachedBy events _ (fun pool event clean => ?_) clean runs, committed, row, found,
    state, outcome⟩
  cases event with
  | serve owner choice =>
    exact fun request next _ job _ cancelled => absurd cancelled (of_decide_eq_true clean)
  | _ => trivial

/-- Both commits are recorded as cancelled. -/
theorem committed_run_recorded_cancelled :
    CancelsCommitted (reachedBy beatenAfterCommit) ∧
      CancelsCommitted (reachedBy cancelledAfterEnd) := by
  constructor
  · exact cancelsCommitted_reachedBy (by decide +kernel) (by decide +kernel) (by decide +kernel)
      (by decide +kernel)
  · exact cancelsCommitted_reachedBy (by decide +kernel) (by decide +kernel) (by decide +kernel)
      (by decide +kernel)

end Dohflow.DbWorker
