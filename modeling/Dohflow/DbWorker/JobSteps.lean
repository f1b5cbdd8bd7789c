/-
This file says what every step of the job sweeps keeps.

`Holds` is the heart of it: a call holds a job while its claim is the job's latest and
the row is still running. A terminal write of a call that holds its job can end no other
run. The runs in question are those in which recovery meets no run still in flight
(`Undisturbed`); with `strict` they are also those in which handlers, cancellations and
reads of the marker do what the recorded outcome needs (`Honest`), and then a row says
the truth about its latest run (`Truthful`).
-/

import Dohflow.DbWorker.JobSweeps

namespace Dohflow.DbWorker

open SyncCore JobRuntime Program Interleaving

variable {calendar : Calendar} {strict : Prop} {owner : Nat} {before after world : JobWorld}
variable {request : JobRequest} {live : Nat → Prop}

/-! ### What is kept -/

/-- The call claimed the job last, and that claim is unfinished. -/
def JobWorld.Holds (world : JobWorld) (owner : Nat) (id : Uuid) : Prop :=
  world.latest id = some owner ∧ world.running id

/-- What a row says of a job whose latest run committed that, or nothing. -/
structure Truthful (committed : Option CommitOutcome) (row : JobRow) : Prop where
  recorded : row.lastOutcome = some .cancelled → row.state = .cancelled
  uncommitted : row.state = .cancelled → committed = none
  marked : row.state = .running →
    row.marker.map CommitMarker.failed = committed.map CommitOutcome.isFailed

structure JobInvariant (strict : Prop) (world : JobWorld) : Prop where
  handled : ∀ owner id, world.handling owner = some id → world.Holds owner id
  truthful : strict → ∀ id row, world.table.find id = some row →
    Truthful (world.committed id) row

/-- What a call relies on while others take steps. -/
structure Relies (owner : Nat) (before after : JobWorld) : Prop where
  /-- Nobody claims while the call has the gate. -/
  gate : before.gate = some owner →
    after.gate = some owner ∧ ∀ id, after.running id → before.running id
  handling : after.handling owner = before.handling owner
  stopped : after.stopped owner = before.stopped owner
  claims : ∀ id, (id, owner) ∈ after.claims ↔ (id, owner) ∈ before.claims
  /-- A held job stays held, and only its own handler commits for it. -/
  holds : ∀ id, before.Holds owner id → after.Holds owner id ∧
    (before.handling owner ≠ some id → after.committed id = before.committed id)

/-- What a call finds when it starts: no handler and no claim of its own. -/
structure Opening (owner : Nat) (world : JobWorld) : Prop where
  idle : world.handling owner = none
  unclaimed : ∀ id, (id, owner) ∉ world.claims

/-- A request that ends a run which committed something records what committed, or is recovery and
requeues a run without a pending cancellation. -/
inductive EndsTruly (request : JobRequest) (committed : CommitOutcome) (row ended : JobRow) : Prop
  | succeeded (commits : committed.isFailed = false) (state : ended.state = .succeeded)
      (recorded : ended.lastOutcome = some .succeeded)
  | failed (commits : committed.isFailed = true)
      (state : ended.state = .failed ∨ ended.state = .queued)
      (recorded : ended.lastOutcome = some .failed)
  | requeued (recovers : ∃ now, request = .recoverRunning now)
      (requested : row.cancelRequested = false) (state : ended.state = .queued)
      (recorded : ended.lastOutcome = row.lastOutcome)

/-- What is shown of every request: a terminal write made for a claim changes the row only while the
call holds the job, and a committed run ends truly. -/
structure JobShows (strict : Prop) (owner : Nat) (request : JobRequest)
    (before after : JobWorld) : Prop where
  own : ∀ id, request.finishes = some id → (id, owner) ∈ before.claims →
    after.table.find id ≠ before.table.find id → before.Holds owner id
  truly : strict → ∀ id row ended committed, before.table.find id = some row →
    row.state = .running → before.committed id = some committed →
    after.table.find id = some ended → ended.state ≠ .running →
    EndsTruly request committed row ended

def jobDiscipline (calendar : Calendar) (strict : Prop) : Discipline (jobSetting calendar) where
  invariant := JobInvariant strict
  relies := Relies
  opening := Opening
  shows := JobShows strict

/-! ### The runs in question -/

/-- What a handler returns agrees with what its run has committed. -/
def Agrees (committed : Option CommitOutcome) : JobExecution → Prop
  | .succeeded => ∀ outcome, committed = some outcome → outcome.isFailed = false
  | .committed => ∀ outcome, committed = some outcome → outcome.isFailed = false
  | .failed _ => ∀ outcome, committed = some outcome → outcome.isFailed = true
  | .cancelled => committed = none
  | .skipped => committed = none

/-- No row that recovery finds running belongs to a run whose call or handler is still at work. -/
def Undisturbed (live : Nat → Prop) (world : JobWorld) : Prop :=
  ∀ owner id, world.Holds owner id → ¬ live owner ∧ world.handling owner = none

/-- Handlers agree with what they committed, the marker of a committed run can be read once its token
was cancelled, and such a run is not reported as a plain success while a cancellation is pending. -/
def Honest (owner : Nat) (choice : JobChoice) (world : JobWorld) : JobRequest → Prop
  | .executed job => Agrees (world.committed job.id) choice.execution
  | .committed id =>
    choice.failure = none ∨ world.stopped owner = false ∨ world.committed id = none
  | .finishSuccess job _ _ => world.committed job.id = none ∨
      world.table.jobCancellationRequested job.id = false
  | _ => True

/-- A job whose run has ended is cancelled only if that run committed nothing. -/
def CancelsInTime (world : JobWorld) : JobMove → Prop
  | .cancelJob id => ∀ row, world.table.find id = some row → JobTable.claimable row = true →
      world.committed id = none
  | _ => True

def jobCondition (calendar : Calendar) (strict : Prop) : Condition (jobSetting calendar) where
  serve live owner choice request world :=
    (∀ now, request = .recoverRunning now → Undisturbed live world) ∧
      (strict → Honest owner choice world request)
  move _ move world := strict → CancelsInTime world move

/-- The runs in which recovery meets no run still in flight. -/
abbrev undisturbed (calendar : Calendar) : Condition (jobSetting calendar) :=
  jobCondition calendar False

/-- Those in which, besides, recorded outcomes can be true. -/
abbrev undisturbedAndHonest (calendar : Calendar) : Condition (jobSetting calendar) :=
  jobCondition calendar True

/-! ### What a step keeps -/

/-- What a call's request leaves: the invariant, what is to be shown, and what others rely on. -/
structure Kept (strict : Prop) (live : Nat → Prop) (owner : Nat) (request : JobRequest)
    (before after : JobWorld) : Prop where
  invariant : JobInvariant strict after
  shows : JobShows strict owner request before after
  relies : ∀ other, other ≠ owner → live other → Relies other before after
  opening : ∀ other, other ≠ owner → Opening other before → Opening other after

theorem Kept.and {fact : Prop} (kept : Kept strict live owner request before after) (holds : fact) :
    (jobDiscipline calendar strict).invariant after ∧
      (jobDiscipline calendar strict).shows owner request before after ∧
      (jobDiscipline calendar strict).Spares live (· ≠ owner) before after ∧ fact :=
  ⟨kept.invariant, kept.shows, fun other different =>
    ⟨kept.relies other different, kept.opening other different⟩, holds⟩

theorem Relies.refl (owner : Nat) (world : JobWorld) : Relies owner world world :=
  ⟨fun gate => ⟨gate, fun _ => id⟩, rfl, rfl, fun _ => Iff.rfl, fun _ held => ⟨held, fun _ => rfl⟩⟩

theorem jobShows_of_table (same : after.table = before.table) :
    JobShows strict owner request before after := by
  refine ⟨fun id _ _ changed => absurd (by rw [same]) changed, ?_⟩
  intro _ id row ended committed found running _ foundAfter stopped
  rw [same, found] at foundAfter
  obtain rfl := Option.some.inj foundAfter
  exact absurd running stopped

/-- Reading changes nothing. -/
theorem kept_read (invariant : JobInvariant strict world) :
    Kept strict live owner request world world :=
  ⟨invariant, jobShows_of_table rfl, fun other _ _ => .refl other world, fun _ _ opened => opened⟩

namespace JobWorld

/-- Two calls do not hold one job. -/
theorem Holds.unique {other : Nat} {id : Uuid} (held : world.Holds owner id)
    (heldToo : world.Holds other id) : owner = other :=
  Option.some.inj (held.1.symm.trans heldToo.1)

theorem running_congr {table : JobTable} {id : Uuid}
    (same : table.find id = world.table.find id) :
    ({ world with table } : JobWorld).running id ↔ world.running id := by
  unfold running
  rw [same]

end JobWorld

variable {table : JobTable} {id : Uuid} {sets : JobRow → JobRow} {startedAt : Timestamp}
  {unlockWindow : String} {keepsId : ∀ row, (sets row).id = row.id} {attempts : Nat}
  {selects : JobRow → Bool} {guards : JobRow → Bool} {now : Timestamp}

/-- The call may write the end of the job's run: it holds the job, or the row is not running and the
call has not claimed it. -/
def MayEnd (world : JobWorld) (owner : Nat) (id : Uuid) : Prop :=
  world.Holds owner id ∨ ¬ world.running id ∧ (id, owner) ∉ world.claims

/-- A statement on the row of one id that makes no row running. -/
structure Ends (id : Uuid) (before after : JobTable) : Prop where
  others : ∀ other, other ≠ id → after.find other = before.find other
  settles : ∀ row, after.find id = some row → row.state = .running → before.find id = some row

/-- After such a statement a row that is running was running. -/
theorem Ends.running {id other : Uuid} (ends : Ends id world.table table)
    (running : ({ world with table } : JobWorld).running other) : world.running other := by
  obtain ⟨row, found, state⟩ := running
  by_cases same : other = id
  · subst same
    exact ⟨row, ends.settles row found state, state⟩
  · exact ⟨row, (ends.others other same).symm.trans found, state⟩

/-- Such a statement is no harm when the call may end the run. -/
theorem kept_ends (invariant : JobInvariant strict world) (idle : world.handling owner = none)
    (may : MayEnd world owner id) (ends : Ends id world.table table)
    (finishes : request.finishes = some id)
    (truthful : strict → ∀ row ended, world.table.find id = some row →
      table.find id = some ended → Truthful (world.committed id) ended)
    (kept : ∀ ended, table.find id = some ended → ∃ row, world.table.find id = some row)
    (truly : strict → ∀ row ended committed, world.table.find id = some row →
      row.state = .running → world.committed id = some committed →
      table.find id = some ended → ended.state ≠ .running →
      EndsTruly request committed row ended) :
    Kept strict live owner request world { world with table } := by
  have untouched : ∀ other held, other ≠ owner → world.Holds other held → held ≠ id := by
    rintro other held different holds rfl
    obtain own | ⟨stopped, -⟩ := may
    · exact different (holds.unique own)
    · exact stopped holds.2
  have stays : ∀ other held, other ≠ owner → world.Holds other held →
      ({ world with table } : JobWorld).Holds other held := fun other held different holds =>
    ⟨holds.1, (JobWorld.running_congr (ends.others held (untouched other held different holds))).mpr
      holds.2⟩
  refine ⟨⟨?_, ?_⟩, ⟨?_, ?_⟩, ?_, ?_⟩
  · intro other held works
    refine stays other held ?_ (invariant.handled other held works)
    rintro rfl
    rw [show world.handling other = none from idle] at works
    cases works
  · intro strictly held row found
    by_cases same : held = id
    · subst same
      obtain ⟨earlier, foundBefore⟩ := kept row found
      exact truthful strictly earlier row foundBefore found
    · rw [ends.others held same] at found
      exact invariant.truthful strictly held row found
  · intro held same claimed _
    obtain rfl := Option.some.inj (finishes.symm.trans same)
    obtain own | ⟨-, unclaimed⟩ := may
    · exact own
    · exact absurd claimed unclaimed
  · intro strictly held row ended committed found running commits foundAfter stopped
    by_cases same : held = id
    · subst same
      exact truly strictly row ended committed found running commits foundAfter stopped
    · rw [ends.others held same, found] at foundAfter
      exact absurd (Option.some.inj foundAfter ▸ running) stopped
  · intro other different _
    exact ⟨fun gate => ⟨gate, fun held => ends.running⟩, rfl, rfl, fun _ => Iff.rfl,
      fun held holds => ⟨stays other held different holds, fun _ => rfl⟩⟩
  · intro other _ opened
    exact ⟨opened.idle, opened.unclaimed⟩

theorem ends_update (stops : ∀ row, (sets row).state ≠ .running) :
    Ends id table (table.update (fun row => row.id = id && guards row) sets keepsId).1 := by
  refine ⟨fun other different => ?_, fun row found running => ?_⟩
  · rw [JobTable.find_update]
    cases found : table.find other with
    | none => rfl
    | some row =>
      have named := JobTable.id_of_find found
      simp [named, different]
  · rw [JobTable.find_update, Option.map_eq_some_iff] at found
    obtain ⟨earlier, found, rfl⟩ := found
    split at running
    · exact absurd running (stops earlier)
    · next skipped => rw [if_neg skipped, found]

theorem kept_update (invariant : JobInvariant strict world) (idle : world.handling owner = none)
    (may : MayEnd world owner id) (finishes : request.finishes = some id)
    (stops : ∀ row, (sets row).state ≠ .running)
    (truthful : strict → ∀ row, world.table.find id = some row → guards row = true →
      Truthful (world.committed id) (sets row))
    (truly : strict → ∀ row committed, world.table.find id = some row → guards row = true →
      row.state = .running → world.committed id = some committed →
      EndsTruly request committed row (sets row)) :
    Kept strict live owner request world
      { world with
        table := (world.table.update (fun row => row.id = id && guards row) sets keepsId).1 } := by
  have changes : ∀ ended,
      (world.table.update (fun row => row.id = id && guards row) sets keepsId).1.find id =
        some ended → ∃ row, world.table.find id = some row ∧
          (guards row = true ∧ ended = sets row ∨ ended = row) := by
    intro ended found
    rw [JobTable.find_update, Option.map_eq_some_iff] at found
    obtain ⟨row, found, rfl⟩ := found
    refine ⟨row, found, ?_⟩
    split
    · next selected =>
      rw [Bool.and_eq_true] at selected
      exact .inl ⟨selected.2, rfl⟩
    · exact .inr rfl
  refine kept_ends invariant idle may (ends_update stops) finishes ?_
    (fun ended found => (changes ended found).imp fun _ holds => holds.1) ?_
  · intro strictly row ended found foundAfter
    obtain ⟨other, foundOther, step⟩ := changes ended foundAfter
    obtain rfl := Option.some.inj (found.symm.trans foundOther)
    obtain ⟨guarded, rfl⟩ | rfl := step
    · exact truthful strictly row found guarded
    · exact invariant.truthful strictly id ended found
  · intro strictly row ended committed found running commits foundAfter stopped
    obtain ⟨other, foundOther, step⟩ := changes ended foundAfter
    obtain rfl := Option.some.inj (found.symm.trans foundOther)
    obtain ⟨guarded, rfl⟩ | rfl := step
    · exact truly strictly row committed found guarded running commits
    · exact absurd running stopped

/-! ### Claims and recovery -/

theorem claimJob_of_claimed (claimed : (table.claimJob id attempts startedAt unlockWindow).2 = true) :
    ∃ row ended, table.find id = some row ∧ JobTable.claimable row = true ∧
      (table.claimJob id attempts startedAt unlockWindow).1.find id = some ended ∧
      ended.state = .running ∧ ended.lastOutcome = row.lastOutcome ∧ ended.marker = none := by
  obtain ⟨row, found, guarded⟩ :=
    JobTable.changed_ne_zero_iff.mp (of_decide_eq_true claimed)
  have claimable : JobTable.claimable row = true := by
    simp only [Bool.and_eq_true] at guarded
    exact guarded.1.1
  have foundAfter : (table.claimJob id attempts startedAt unlockWindow).1.find id = some { row with
      state := .running, attempts, lastRunAt := some startedAt
      lastUnlockWindow := some unlockWindow, cancelRequested := false, marker := none } := by
    rw [JobTable.claimJob, JobTable.find_update, found, Option.map_some, guarded, Bool.and_true,
      JobTable.id_of_find found, decide_eq_true rfl, if_pos rfl]
  exact ⟨row, _, found, claimable, foundAfter, rfl, rfl, rfl⟩

theorem find_claimJob {id other : Uuid} (different : other ≠ id) :
    (table.claimJob id attempts startedAt unlockWindow).1.find other = table.find other := by
  rw [JobTable.claimJob, JobTable.find_update]
  cases found : table.find other with
  | none => rfl
  | some row => simp [JobTable.id_of_find found, different]

theorem not_running_of_claimable {row : JobRow} (found : world.table.find id = some row)
    (claimable : JobTable.claimable row = true) : ¬ world.running id := by
  rintro ⟨other, foundOther, state⟩
  obtain rfl := Option.some.inj (found.symm.trans foundOther)
  simp [JobTable.claimable, state] at claimable

/-- The world after a claim that is made. -/
def JobWorld.claim (world : JobWorld) (owner : Nat) (id : Uuid) (table : JobTable) : JobWorld :=
  { world with
    table, claims := (id, owner) :: world.claims
    committed := Function.update world.committed id none }

theorem JobWorld.latest_claim : (world.claim owner id table).latest id = some owner := by
  simp [JobWorld.latest, JobWorld.claim]

theorem JobWorld.latest_claim_of_ne {id other : Uuid} (different : other ≠ id) :
    (world.claim owner id table).latest other = world.latest other := by
  simp [JobWorld.latest, JobWorld.claim, Ne.symm different]

/-- A claim made under the gate takes nothing from the other calls. -/
theorem kept_claim (invariant : JobInvariant strict world) (gate : world.gate = some owner)
    (claimed : (world.table.claimJob id attempts startedAt unlockWindow).2 = true) :
    let after := world.claim owner id (world.table.claimJob id attempts startedAt unlockWindow).1
    Kept strict live owner (.claimJob id attempts startedAt unlockWindow) world after ∧
      after.Holds owner id := by
  intro after
  obtain ⟨row, started, found, claimable, foundAfter, state, outcome, marker⟩ :=
    claimJob_of_claimed claimed
  have stopped : ¬ world.running id := not_running_of_claimable found claimable
  have others : ∀ other, other ≠ id → after.table.find other = world.table.find other :=
    fun other different => find_claimJob different
  have stays : ∀ other held, world.Holds other held → held ≠ id ∧ after.Holds other held := by
    intro other held holds
    have different : held ≠ id := by
      rintro rfl
      exact stopped holds.2
    exact ⟨different, (JobWorld.latest_claim_of_ne different).trans holds.1,
      (JobWorld.running_congr (others held different)).mpr holds.2⟩
  refine ⟨⟨⟨?_, ?_⟩, ⟨nofun, ?_⟩, ?_, ?_⟩, JobWorld.latest_claim, started, foundAfter, state⟩
  · exact fun other held works => (stays other held (invariant.handled other held works)).2
  · intro strictly held ended foundEnded
    by_cases same : held = id
    · subst same
      obtain rfl := Option.some.inj (foundAfter.symm.trans foundEnded)
      have recorded := (invariant.truthful strictly held row found).recorded
      refine ⟨fun cancelled => ?_, fun cancelled => ?_, fun _ => ?_⟩
      · rw [outcome] at cancelled
        rw [JobTable.claimable, recorded cancelled] at claimable
        cases claimable
      · rw [state] at cancelled
        cases cancelled
      · rw [marker]
        simp [after, JobWorld.claim]
    · rw [others held same] at foundEnded
      have truthful := invariant.truthful strictly held ended foundEnded
      rwa [show after.committed held = world.committed held from Function.update_of_ne same _ _]
  · intro _ held other ended committed foundOther running _ foundEnded ends
    have different : held ≠ id := by
      rintro rfl
      exact stopped ⟨other, foundOther, running⟩
    rw [others held different, foundOther] at foundEnded
    obtain rfl := Option.some.inj foundEnded
    exact absurd running ends
  · intro other different _
    refine ⟨fun entered => ?_, rfl, rfl, fun held => ?_, fun held holds => ?_⟩
    · exact absurd (Option.some.inj (entered.symm.trans gate)) different
    · show (held, other) ∈ (id, owner) :: world.claims ↔ _
      simp [different]
    · obtain ⟨apart, holding⟩ := stays other held holds
      exact ⟨holding, fun _ => Function.update_of_ne apart _ _⟩
  · intro other different opened
    refine ⟨opened.idle, fun held claimed => ?_⟩
    obtain made | earlier := List.mem_cons.mp claimed
    · exact different (Prod.mk.inj made).2
    · exact opened.unclaimed held earlier

/-- Recovery leaves a row that says the truth, and ends a committed run truly. -/
theorem recoverRow_truthful {committed : Option CommitOutcome} {row : JobRow}
    (truthful : Truthful committed row) :
    Truthful committed (JobTable.recoverRow calendar now row) ∧
      ∀ outcome, row.state = .running → committed = some outcome →
        EndsTruly (.recoverRunning now) outcome row (JobTable.recoverRow calendar now row) := by
  unfold JobTable.recoverRow
  split
  · next stopped => exact ⟨truthful, fun _ running => absurd running stopped⟩
  · next running =>
    rw [Decidable.not_not] at running
    have marked := truthful.marked running
    have unrecorded : row.lastOutcome ≠ some .cancelled := fun recorded => by
      have state := truthful.recorded recorded
      rw [running] at state
      cases state
    split
    · split
      · next marker found =>
        rw [found] at marked
        split
        · next failed =>
          refine ⟨⟨nofun, nofun, nofun⟩, fun outcome _ commits => .failed ?_ (.inl rfl) rfl⟩
          rw [commits] at marked
          exact (Option.some.inj marked).symm.trans failed
        · next failed =>
          refine ⟨⟨nofun, nofun, nofun⟩, fun outcome _ commits => .succeeded ?_ rfl rfl⟩
          rw [commits] at marked
          exact (Option.some.inj marked).symm.trans (Bool.not_eq_true _ ▸ failed)
      · next found =>
        rw [found] at marked
        have uncommitted : committed = none := Option.map_eq_none_iff.mp marked.symm
        refine ⟨⟨fun _ => rfl, fun _ => uncommitted, nofun⟩, fun outcome _ commits => ?_⟩
        rw [uncommitted] at commits
        cases commits
    · next unrequested =>
      refine ⟨⟨fun recorded => absurd recorded unrecorded, nofun, nofun⟩, fun _ _ _ => ?_⟩
      exact .requeued ⟨now, rfl⟩ (Bool.not_eq_true _ ▸ unrequested) rfl rfl

theorem kept_recover (invariant : JobInvariant strict world) (undisturbed : Undisturbed live world) :
    Kept strict live owner (.recoverRunning now) world
      { world with table := (world.table.recoverRunning calendar now).1 } := by
  have stops : ∀ id, ¬ ({ world with
      table := (world.table.recoverRunning calendar now).1 } : JobWorld).running id := by
    rintro id ⟨row, found, state⟩
    rw [JobTable.find_recoverRunning, Option.map_eq_some_iff] at found
    obtain ⟨earlier, -, rfl⟩ := found
    exact JobTable.recoverRow_stops state
  refine ⟨⟨?_, ?_⟩, ⟨nofun, ?_⟩, ?_, fun _ _ opened => ⟨opened.idle, opened.unclaimed⟩⟩
  · intro other held works
    have idle := (undisturbed other held (invariant.handled other held works)).2
    rw [show world.handling other = some held from works] at idle
    cases idle
  · intro strictly id row found
    rw [JobTable.find_recoverRunning, Option.map_eq_some_iff] at found
    obtain ⟨earlier, found, rfl⟩ := found
    exact (recoverRow_truthful (invariant.truthful strictly id earlier found)).1
  · intro strictly id row ended committed found running commits foundAfter _
    rw [JobTable.find_recoverRunning, found] at foundAfter
    obtain rfl := Option.some.inj foundAfter
    exact (recoverRow_truthful (invariant.truthful strictly id row found)).2 committed running
      commits
  · intro other _ lives
    exact ⟨fun gate => ⟨gate, fun id running => absurd running (stops id)⟩, rfl, rfl,
      fun _ => Iff.rfl, fun id holds => absurd lives (undisturbed other id holds).1⟩

/-! ### The gate and the handler -/

theorem relies_of_same {other : Nat} (table : after.table = before.table)
    (claims : after.claims = before.claims) (committed : after.committed = before.committed)
    (handling : after.handling other = before.handling other)
    (stopped : after.stopped other = before.stopped other)
    (gate : before.gate = some other → after.gate = some other) : Relies other before after := by
  refine ⟨fun entered => ⟨gate entered, fun id => ?_⟩, handling, stopped, fun id => ?_,
    fun id holds => ⟨?_, fun _ => ?_⟩⟩
  · rw [JobWorld.running, JobWorld.running, table]
    exact fun running => running
  · rw [claims]
  · unfold JobWorld.Holds JobWorld.latest JobWorld.running at holds ⊢
    rwa [claims, table]
  · rw [committed]

theorem kept_same (invariant : JobInvariant strict before) (table : after.table = before.table)
    (claims : after.claims = before.claims) (committed : after.committed = before.committed)
    (handling : ∀ other, other ≠ owner → after.handling other = before.handling other)
    (stopped : ∀ other, other ≠ owner → after.stopped other = before.stopped other)
    (gate : ∀ other, other ≠ owner → before.gate = some other → after.gate = some other)
    (handled : ∀ id, after.handling owner = some id → before.Holds owner id) :
    Kept strict live owner request before after := by
  have holds : ∀ other id, before.Holds other id → after.Holds other id := by
    intro other id held
    unfold JobWorld.Holds JobWorld.latest JobWorld.running at held ⊢
    rwa [claims, table]
  refine ⟨⟨fun other id works => holds other id ?_, fun strictly id row found => ?_⟩,
    jobShows_of_table table, fun other different _ => ?_, fun other different opened => ?_⟩
  · by_cases same : other = owner
    · subst same
      exact handled id works
    · rw [handling other same] at works
      exact invariant.handled other id works
  · rw [table] at found
    rw [committed]
    exact invariant.truthful strictly id row found
  · exact relies_of_same table claims committed (handling other different)
      (stopped other different) (gate other different)
  · exact ⟨(handling other different).trans opened.idle, fun id claimed =>
      opened.unclaimed id (claims ▸ claimed)⟩

theorem endsWell_release (invariant : JobInvariant strict world) :
    (jobDiscipline calendar strict).EndsWell owner world (world.release owner) := by
  have kept : ∀ live, Kept strict live owner .isCancelled world (world.release owner) := by
    intro live
    refine kept_same invariant rfl rfl rfl (fun other different => ?_) (fun _ _ => rfl)
      (fun other different entered => ?_) (fun id works => ?_)
    · exact Function.update_of_ne different _ _
    · show (if world.gate = some owner then none else world.gate) = _
      rw [if_neg ?_, entered]
      rw [entered]
      exact fun same => different (Option.some.inj same)
    · simp [JobWorld.release] at works
  exact ⟨(kept fun _ => False).invariant, fun live other different =>
    ⟨(kept live).relies other different, (kept live).opening other different⟩⟩

/-! ### What happens beside the sweeps -/

/-- What happens to a world beside the calls leaves all of them what they rely on. -/
structure KeptByAll (strict : Prop) (before after : JobWorld) : Prop where
  invariant : JobInvariant strict after
  relies : ∀ other, Relies other before after
  opening : ∀ other, Opening other before → Opening other after
  runs : ∀ id, before.running id → after.running id

theorem keptByAll_of_running (invariant : JobInvariant strict world)
    (running : ∀ id, ({ world with table } : JobWorld).running id ↔ world.running id)
    (truthful : strict → ∀ id row, table.find id = some row → Truthful (world.committed id) row) :
    KeptByAll strict world { world with table } := by
  have holds : ∀ other id, world.Holds other id →
      ({ world with table } : JobWorld).Holds other id := fun other id held =>
    ⟨held.1, (running id).mpr held.2⟩
  exact ⟨⟨fun other id works => holds other id (invariant.handled other id works), truthful⟩,
    fun other => ⟨fun gate => ⟨gate, fun id => (running id).mp⟩, rfl, rfl, fun _ => Iff.rfl,
      fun id held => ⟨holds other id held, fun _ => rfl⟩⟩,
    fun _ opened => ⟨opened.idle, opened.unclaimed⟩, fun id => (running id).mpr⟩

theorem running_update (keepsId : ∀ row, (sets row).id = row.id)
    (keeps : ∀ row, (sets row).state = .running ↔ row.state = .running) :
    ({ world with table := (world.table.update selects sets keepsId).1 } : JobWorld).running id ↔
      world.running id := by
  unfold JobWorld.running
  rw [JobTable.find_update]
  cases world.table.find id with
  | none => exact Iff.rfl
  | some row =>
    simp only [Option.map_some, Option.some.injEq, exists_eq_left']
    split
    · exact keeps row
    · exact Iff.rfl

theorem truthful_update (keepsId : ∀ row, (sets row).id = row.id)
    (invariant : JobInvariant strict world)
    (truthful : strict → ∀ id row, world.table.find id = some row → selects row = true →
      Truthful (world.committed id) (sets row)) :
    strict → ∀ id row, (world.table.update selects sets keepsId).1.find id = some row →
      Truthful (world.committed id) row := by
  intro strictly id row found
  rw [JobTable.find_update, Option.map_eq_some_iff] at found
  obtain ⟨earlier, found, rfl⟩ := found
  split
  · next selected => exact truthful strictly id earlier found selected
  · exact invariant.truthful strictly id earlier found

theorem keptByAll_schedule {spec : JobSpec} (invariant : JobInvariant strict world)
    (scheduled : world.table.scheduleJob spec = .ok table) :
    KeptByAll strict world { world with table } := by
  refine keptByAll_of_running invariant (fun id => ?_) fun strictly id row found => ?_
  · unfold JobWorld.running
    rw [JobTable.find_scheduleJob scheduled]
    split
    · cases world.table.find id with
      | none => simp [JobRow.scheduled]
      | some row => simp [JobRow.rescheduled]
    · exact Iff.rfl
  · rw [JobTable.find_scheduleJob scheduled] at found
    split at found
    · obtain rfl := Option.some.inj found
      cases earlier : world.table.find id with
      | none => exact ⟨nofun, nofun, nofun⟩
      | some row =>
        have truthful := invariant.truthful strictly id row earlier
        exact ⟨truthful.recorded, truthful.uncommitted, truthful.marked⟩
    · exact invariant.truthful strictly id row found

theorem keptByAll_cancelJob (invariant : JobInvariant strict world)
    (inTime : strict → CancelsInTime world (.cancelJob id)) :
    KeptByAll strict world { world with table := (world.table.cancelJob id).1 } := by
  have keepsId : ∀ row : JobRow, (if row.state = .running then { row with cancelRequested := true }
      else { row with
        state := .cancelled, lastOutcome := some .cancelled
        lastError := some "cancelled by user", cancelRequested := true } : JobRow).id = row.id := by
    intro row
    split <;> rfl
  refine keptByAll_of_running invariant (fun other => running_update keepsId fun row => ?_)
    (truthful_update keepsId invariant fun strictly other row found selected => ?_)
  · split
    · exact Iff.rfl
    · next stopped => exact ⟨nofun, fun running => absurd running stopped⟩
  · have truthful := invariant.truthful strictly other row found
    simp only [Bool.and_eq_true, decide_eq_true_eq] at selected
    obtain ⟨named, unfinished⟩ := selected
    obtain rfl : other = id := (JobTable.id_of_find found).symm.trans named
    split
    · exact ⟨truthful.recorded, truthful.uncommitted, truthful.marked⟩
    · next stopped =>
      -- Neither running nor failed nor cancelled: the row could be claimed.
      have claimable : JobTable.claimable row = true := by
        unfold JobTable.claimable
        cases state : row.state <;> simp_all
      exact ⟨fun _ => rfl, fun _ => inTime strictly row found claimable, nofun⟩

theorem keptByAll_markCommitted {other : Nat} {committedAt : Timestamp} {outcome : CommitOutcome}
    (invariant : JobInvariant strict world) (works : world.handling other = some id) :
    KeptByAll strict world { world with
      table := (world.table.markCommitted id committedAt outcome).1
      committed := Function.update world.committed id ((world.committed id).or (some outcome)) } := by
  have table : KeptByAll False world { world with
      table := (world.table.markCommitted id committedAt outcome).1 } :=
    keptByAll_of_running ⟨invariant.handled, False.elim⟩
      (fun held => running_update (by exact fun _ => rfl) fun _ => Iff.rfl) False.elim
  have worker := invariant.handled other id works
  refine ⟨⟨table.invariant.handled, fun strictly held row found => ?_⟩, fun call => ?_,
    fun _ opened => ⟨opened.idle, opened.unclaimed⟩, table.runs⟩
  · rw [JobTable.markCommitted, JobTable.find_update, Option.map_eq_some_iff] at found
    obtain ⟨earlier, found, rfl⟩ := found
    have truthful := invariant.truthful strictly held earlier found
    by_cases same : held = id
    · subst same
      obtain ⟨row, foundRow, running⟩ := worker.2
      obtain rfl := Option.some.inj (found.symm.trans foundRow)
      have marked := truthful.marked running
      have selected : (earlier.id = held && earlier.state = .running : Bool) = true := by
        simp [JobTable.id_of_find found, running]
      rw [if_pos selected]
      show Truthful (Function.update world.committed held _ held) _
      rw [Function.update_self]
      refine ⟨truthful.recorded, fun cancelled => ?_, fun _ => ?_⟩
      · rw [show earlier.state = _ from running] at cancelled
        cases cancelled
      · cases marker : earlier.marker <;> cases committed : world.committed held <;>
          simp_all
    · have skipped : ¬ (earlier.id = id && earlier.state = .running : Bool) = true := by
        simp [JobTable.id_of_find found, same]
      rw [if_neg skipped]
      show Truthful (Function.update world.committed id _ held) _
      rwa [Function.update_of_ne same]
  · have relies := table.relies call
    refine ⟨relies.gate, rfl, rfl, fun _ => Iff.rfl, fun held holds => ⟨(relies.holds held holds).1,
      fun elsewhere => ?_⟩⟩
    refine Function.update_of_ne ?_ _ _
    rintro rfl
    obtain rfl := worker.unique holds
    exact elsewhere works

theorem keptByAll_move {move : JobMove} (invariant : JobInvariant strict before)
    (meets : (jobCondition calendar strict).move live move before)
    (moved : moveJob before move = some after) : KeptByAll strict before after := by
  cases move with
  | schedule spec =>
    cases scheduled : before.table.scheduleJob spec with
    | error failure =>
      simp only [moveJob, scheduled] at moved
      cases moved
    | ok table =>
      simp only [moveJob, scheduled] at moved
      obtain rfl := Option.some.inj moved
      exact keptByAll_schedule invariant scheduled
  | cancelJob id =>
    obtain rfl := Option.some.inj moved
    exact keptByAll_cancelJob invariant meets
  | markCommitted other committedAt outcome =>
    cases works : before.handling other with
    | none =>
      simp only [moveJob, works] at moved
      cases moved
    | some id =>
      obtain ⟨row, found, running⟩ := (invariant.handled other id works).2
      have changed : (before.table.markCommitted id committedAt outcome).2 ≠ 0 :=
        JobTable.changed_ne_zero_iff.mpr ⟨row, found, decide_eq_true running⟩
      simp only [moveJob, works, if_neg changed] at moved
      obtain rfl := Option.some.inj moved
      exact keptByAll_markCommitted invariant works

end Dohflow.DbWorker
