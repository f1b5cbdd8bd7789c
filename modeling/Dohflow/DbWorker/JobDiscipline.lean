/-
This file puts the requests of a sweep together: each sweep secures the discipline from
its start to its end.

The proofs follow the programs. A listed row is claimed or ended; a claimed job is held
through its handler, which commits what it commits; and the end that is recorded for it
is one the call may write.
-/

import Dohflow.DbWorker.JobCalls

namespace Dohflow.DbWorker

open SyncCore JobRuntime Program Interleaving

variable {calendar : Calendar} {strict gated : Prop} {owner : Nat} {before after world : JobWorld}
  {rest : List Uuid} {held : List (Uuid × Knows)} {job : JobRecord} {report : JobRunReport}
variable {execution : JobExecution}

/-! ### Outcomes -/

theorem secured_unlessBeaten {Value : Type} {finish : JobFinishResult} {beaten : SweepCall Value}
    {applied : Value} {good : Value → JobWorld → Prop}
    (recorded : Secured calendar strict gated owner beaten
      (fun world => Own strict owner gated none rest held world ∧
        Turn strict owner job.id nothing world) good)
    (done : ∀ world, Own strict owner gated none rest held world → good applied world) :
    Secured calendar strict gated owner
      (if finish = .cancelled then beaten else return applied)
      (fun world => Own strict owner gated none rest held world ∧
        (finish = .cancelled → Turn strict owner job.id nothing world)) good := by
  split
  · next lost =>
    exact recorded.weaken (fun world _ own => ⟨own.1, own.2 lost⟩) fun _ _ _ ended => ended
  · exact secures_return fun world _ own => done world own.1

theorem secured_applyExecution {attempts : Nat} {completedAt : Timestamp} :
    Secured calendar strict gated owner
      (JobRunner.applyExecution calendar job attempts execution completedAt report)
      (Own strict owner gated none rest ((job.id, (Agrees · execution)) :: held))
      fun _ => Own strict owner gated none rest held := by
  refine secured_of_held fun apart => ?_
  cases execution with
  | succeeded =>
    exact secures_attempt_bind (secured_finishSuccess apart) fun finish =>
      secured_unlessBeaten (secured_recordCancelled apart) fun _ own => own
  | committed =>
    exact secures_attempt_bind (secured_finishCommitted apart) fun _ =>
      secures_return fun _ _ own => own
  | failed failure =>
    exact secures_attempt_bind (secured_finishFailure apart) fun finish =>
      secured_unlessBeaten (secured_recordCancelled apart) fun _ own => own
  | cancelled => exact secured_recordCancelled apart
  | skipped =>
    exact secures_attempt_bind (secured_finishSkipped apart) fun finish =>
      secured_unlessBeaten (secured_recordCancelled apart) fun _ own => own

/-! ### Claims -/

theorem secured_recordCancelledNow {Value : Type} {next : JobRunReport → Value}
    {good : Value → JobWorld → Prop} (apart : job.id ∉ held.map Prod.fst)
    (done : ∀ report world, Own strict owner gated none rest held world →
      good (next report) world) :
    Secured calendar strict gated owner
      (do return next (← JobRunner.recordCancelled job (← JobRunner.clockNow) report))
      (fun world => Own strict owner gated none rest held world ∧
        Turn strict owner job.id nothing world) good := by
  refine secures_attempt_bind (secured_clockNow (stable_and Own.stable Turn.stable)
    fun _ own => own.1.gate) fun cancelledAt => ?_
  exact secures_attempt_bind (secured_recordCancelled apart) fun report =>
    secures_return fun world _ own => done report world own

theorem secured_claimDue {now : Timestamp} {unlockWindow : String} :
    Secured calendar strict True owner (JobRunner.claimDue now unlockWindow job report)
      (Own strict owner True none (job.id :: rest) held)
      fun result => Own strict owner True none rest
        (if result.1.isSome then (job.id, nothing) :: held else held) := by
  unfold JobRunner.claimDue
  split
  · refine secured_of_waiting (Agrees · (.failed (.permanent "maximum attempts reached")))
      fun apart => ?_
    refine secures_attempt_bind (secured_finishFailure apart) fun finish => ?_
    exact secured_unlessBeaten (secured_recordCancelledNow apart fun _ _ own => own)
      fun _ own => own
  · refine secures_attempt_bind secured_claimJob fun claimed => ?_
    cases claimed with
    | false => exact secures_return fun _ _ own => own
    | true =>
      refine secures_attempt_bind (secured_cancellationRequested Own.stable fun _ own => own.gate)
        fun requested => ?_
      cases requested with
      | false => exact secures_return fun _ _ own => own
      | true =>
        refine secured_of_held fun apart => ?_
        exact secured_recordCancelledNow apart fun _ _ own => own

/-! ### The handler -/

theorem secured_execute {knows : Knows} :
    Secured calendar strict gated owner (attempt (.execute job) .ok)
      (Own strict owner gated none rest ((job.id, knows) :: held))
      fun _ => Own strict owner gated (some job.id) rest ((job.id, knows) :: held) := by
  refine secures_attempt (fun _ => Own.stable) stable_gated ?_
  intro live choice before response after invariant own _ served
  obtain ⟨rfl, rfl⟩ := Prod.mk.inj (Option.some.inj served)
  have holds := (own.holds (job.id, knows) List.mem_cons_self).1
  have kept : Kept strict live owner (.execute job) before { before with
      handling := Function.update before.handling owner (some job.id) } := by
    refine kept_same invariant rfl rfl rfl (fun other different => ?_) (fun _ _ => rfl)
      (fun _ _ entered => entered) (fun id works => ?_)
    · exact Function.update_of_ne different _ _
    · have same : some job.id = some id := (Function.update_self owner _ _).symm.trans works
      rwa [← Option.some.inj same]
  refine kept.and ⟨own.gate, Function.update_self _ _ _, own.restDistinct, own.waits,
    own.heldDistinct, fun claim member => ⟨(own.holds claim member).1, fun _ => ?_⟩⟩
  exact (own.holds claim member).2 nofun

theorem secured_executed {knows : Knows} :
    Secured calendar strict gated owner (attempt (.executed job) .ok)
      (Own strict owner gated (some job.id) rest ((job.id, knows) :: held))
      fun returned world =>
        Own strict owner gated none rest ((job.id, (Agrees · returned.1)) :: held) world ∧
          world.stopped owner = returned.2 := by
  have stableStopped : ∀ stopped, (jobDiscipline calendar strict).Stable owner
      fun world => world.stopped owner = stopped :=
    fun stopped before after _ _ relies was => relies.stopped.trans was
  refine secures_attempt (fun returned => stable_and Own.stable (stableStopped returned.2))
    stable_gated ?_
  rintro live choice before response after invariant own ⟨-, honest⟩ served
  obtain ⟨rfl, rfl⟩ := Prod.mk.inj (Option.some.inj served)
  have kept : Kept strict live owner (.executed job) before { before with
      handling := Function.update before.handling owner none
      stopped := Function.update before.stopped owner choice.cancelled } := by
    refine kept_same invariant rfl rfl rfl (fun other different => ?_) (fun other different => ?_)
      (fun _ _ entered => entered) (fun id works => ?_)
    · exact Function.update_of_ne different _ _
    · exact Function.update_of_ne different _ _
    · have idle : none = some id := (Function.update_self owner _ _).symm.trans works
      cases idle
  refine kept.and ⟨⟨own.gate, Function.update_self _ _ _, own.restDistinct, own.waits,
    own.heldDistinct, fun claim member => ?_⟩, Function.update_self _ _ _⟩
  obtain rfl | inside := List.mem_cons.mp member
  · exact ⟨(own.holds (job.id, knows) List.mem_cons_self).1, fun _ strictly => honest strictly⟩
  · obtain ⟨holds, known⟩ := own.holds claim (List.mem_cons_of_mem _ inside)
    refine ⟨holds, fun _ => known fun same => ?_⟩
    have again : job.id ∈ held.map Prod.fst :=
      Option.some.inj same ▸ List.mem_map_of_mem inside
    exact (List.nodup_cons.mp own.heldDistinct).1 again

theorem agrees_settle {committed : Option CommitOutcome} {wasCancelled marked : Bool}
    (agrees : Agrees committed execution)
    (read : marked = committed.isSome ∨ wasCancelled = false ∧ marked = false) :
    Agrees committed (JobRunner.settle execution wasCancelled marked) := by
  cases committed with
  | none => cases JobRunner.settle execution wasCancelled marked <;> first | rfl | nofun
  | some outcome =>
    obtain rfl | ⟨rfl, rfl⟩ := read
    · cases wasCancelled <;> cases execution <;> exact agrees
    · simpa [JobRunner.settle] using agrees

theorem secured_readMarker {wasCancelled : Bool} :
    Secured calendar strict gated owner (attempt (.committed job.id) JobRunner.readMarker)
      (fun world =>
        Own strict owner gated none rest ((job.id, (Agrees · execution)) :: held) world ∧
          world.stopped owner = wasCancelled)
      fun marked => Own strict owner gated none rest
        ((job.id, (Agrees · (JobRunner.settle execution wasCancelled marked))) :: held) := by
  refine secured_reading (fun _ => Own.stable) (fun world own => own.1.gate) ?_
  rintro live choice world response after invariant ⟨own, stopped⟩ ⟨-, honest⟩ served
  obtain ⟨holds, agrees⟩ := own.holds (job.id, _) List.mem_cons_self
  -- The rest is as it was: only what is known of this run can change.
  have settled : ∀ marked : Bool, (strict → marked = (world.committed job.id).isSome ∨
      wasCancelled = false ∧ marked = false) → Own strict owner gated none rest
        ((job.id, (Agrees · (JobRunner.settle execution wasCancelled marked))) :: held) world := by
    intro marked read
    refine ⟨own.gate, own.handling, own.restDistinct, own.waits, own.heldDistinct,
      fun claim member => ?_⟩
    obtain rfl | inside := List.mem_cons.mp member
    · exact ⟨holds, fun _ strictly => agrees_settle (agrees nofun strictly) (read strictly)⟩
    · exact own.holds claim (List.mem_cons_of_mem _ inside)
  obtain ⟨error, failed, rfl, rfl⟩ | ⟨-, rfl, rfl⟩ := answer_eq_some served
  · refine ⟨rfl, fun marked found => settled marked fun strictly => ?_⟩
    obtain rfl : false = marked := Except.ok.inj found
    obtain unfailed | uncancelled | uncommitted := honest strictly
    · rw [failed] at unfailed
      cases unfailed
    · exact .inr ⟨stopped.symm.trans uncancelled, rfl⟩
    · rw [uncommitted]
      exact .inl rfl
  · refine ⟨rfl, fun marked found => settled marked fun strictly => .inl ?_⟩
    obtain rfl : after.table.jobCommitted job.id = marked := Except.ok.inj found
    obtain ⟨row, foundRow, running⟩ := holds.2
    have recorded := (invariant.truthful strictly job.id row foundRow).marked running
    rw [JobTable.jobCommitted, foundRow]
    simp only [running, decide_true, Bool.true_and]
    rw [← Option.isSome_map, recorded, Option.isSome_map]

/-! ### The main sweep -/

variable {now : Timestamp} {unlockWindow : String}
variable {jobs : List JobRecord} {kind : String} {claimed : List ClaimedJob} {live : Nat → Prop}

theorem secured_runOne :
    Secured calendar strict True owner (JobRunner.runOne calendar now unlockWindow job report)
      (Own strict owner True none (job.id :: rest) held)
      fun _ => Own strict owner True none rest held := by
  refine secures_attempt_bind secured_claimDue fun result => ?_
  obtain ⟨_ | attempts, report⟩ := result
  · exact secures_return fun _ _ own => own
  refine secures_attempt_bind (secured_shouldRun Own.stable fun _ own => own.gate) fun runs => ?_
  cases runs with
  | false =>
    refine secures_attempt_bind (secured_clockNow Own.stable fun _ own => own.gate)
      fun skippedAt => secured_of_held fun apart => ?_
    refine secures_attempt_bind (secured_finishSkipped apart) fun finish => ?_
    refine secured_unlessBeaten ?_ fun _ own => own
    refine secures_attempt_bind (secured_clockNow (stable_and Own.stable Turn.stable)
      fun _ own => own.1.gate) fun cancelledAt => ?_
    exact secured_recordCancelled apart
  | true =>
    refine secures_attempt_bind secured_execute fun _ => ?_
    refine secures_attempt_bind secured_executed fun returned => ?_
    refine secures_attempt_bind secured_readMarker fun marked => ?_
    refine secures_attempt_bind (secured_clockNow Own.stable fun _ own => own.gate)
      fun completedAt => ?_
    exact secured_applyExecution

theorem secured_runEach :
    Secured calendar strict True owner (JobRunner.runEach calendar now unlockWindow jobs report)
      (Own strict owner True none (jobs.map JobRecord.id) [])
      fun _ world => world.gate = some owner := by
  induction jobs generalizing report with
  | nil => exact secures_return fun _ _ own => own.gate trivial
  | cons job rest inductionHypothesis =>
    refine secures_attempt_bind (secured_isCancelled Own.stable fun _ own => own.gate)
      fun cancelled => ?_
    cases cancelled with
    | true => exact secures_return fun _ _ own => own.gate trivial
    | false => exact secures_attempt_bind secured_runOne fun _ => inductionHypothesis

/-- The rows of some of the listed kinds wait as all of them do. -/
theorem Own.filter {selects : JobRecord → Bool}
    (own : Own strict owner True none (jobs.map JobRecord.id) [] world) :
    Own strict owner True none ((jobs.filter selects).map JobRecord.id) [] world :=
  own.sublist (List.filter_sublist.map _) (List.Sublist.refl _)

theorem stable_opened : (jobDiscipline calendar strict).Stable owner
    fun world => world.gate = some owner ∧ Opening owner world :=
  fun _ _ _ _ relies opened => ⟨(relies.gate opened.1).1, relies.handling.trans opened.2.idle,
    fun id claimed => opened.2.unclaimed id ((relies.claims id).mp claimed)⟩

theorem secured_recoverRunning :
    Secured calendar strict True owner
      (attempt (.recoverRunning now) (Except.mapError .store))
      (fun world => world.gate = some owner ∧ Opening owner world)
      fun _ world => world.gate = some owner ∧ Opening owner world := by
  refine secures_attempt (fun _ => stable_opened) stable_gated ?_
  rintro live choice before response after invariant ⟨gate, opening⟩ ⟨undisturbed, -⟩ served
  obtain ⟨error, -, rfl, rfl⟩ | ⟨-, rfl, rfl⟩ := answer_eq_some served
  · exact (kept_read invariant).and fun _ => gate
  · exact (kept_recover invariant (undisturbed now rfl)).and
      ⟨gate, opening.idle, opening.unclaimed⟩

theorem secured_runDue {excludedKinds : List String} :
    Secured calendar strict True owner
      (JobRunner.runDue calendar excludedKinds now unlockWindow)
      (fun world => world.gate = some owner ∧ Opening owner world)
      fun _ world => world.gate = some owner := by
  refine secures_attempt_bind secured_recoverRunning fun recovered => ?_
  refine secures_attempt_bind secured_dueJobs fun jobs => ?_
  exact secured_runEach.weaken (fun _ _ own => own.filter) fun _ _ _ ended => ended

/-! ### Claims without the gate -/

/-- What a call that claimed these jobs holds. -/
def heldBy (claimed : List ClaimedJob) : List (Uuid × Knows) :=
  claimed.map fun claim => (claim.job.id, nothing)

theorem secured_claimEach :
    Secured calendar strict True owner
      (JobRunner.claimEach now unlockWindow jobs claimed report)
      (Own strict owner True none (jobs.map JobRecord.id) (heldBy claimed))
      fun result => Own strict owner True none [] (heldBy result.1) := by
  induction jobs generalizing claimed report with
  | nil => exact secures_return fun _ _ own => own
  | cons job rest inductionHypothesis =>
    have claimOne : Secured calendar strict True owner
        (JobRunner.claimOne now unlockWindow job claimed report)
        (Own strict owner True none (job.id :: rest.map JobRecord.id) (heldBy claimed))
        fun result => Own strict owner True none (rest.map JobRecord.id) (heldBy result.1) := by
      refine secures_attempt_bind secured_claimDue fun result => ?_
      obtain ⟨_ | attempts, report⟩ := result
      · exact secures_return fun _ _ own => own
      · refine secures_return fun _ _ own => own.perm ?_
        simp only [heldBy, List.map_append, List.map_singleton]
        exact (List.perm_append_singleton _ _).symm
    exact secures_attempt_bind claimOne fun _ => inductionHypothesis

theorem secured_claimDueOfKind :
    Secured calendar strict True owner
      (JobRunner.claimDueOfKind now unlockWindow kind)
      (fun world => world.gate = some owner ∧ Opening owner world)
      fun result => Own strict owner True none [] (heldBy result.1) := by
  refine secures_attempt_bind secured_dueJobs fun jobs => ?_
  exact secured_claimEach.weaken (fun _ _ own => own.filter) fun _ _ _ ended => ended

theorem secured_refreshOne {claimed : ClaimedJob} {report : RefreshSweepReport} :
    Secured calendar strict False owner (refreshOne calendar claimed report)
      (Own strict owner False none [] ((claimed.job.id, nothing) :: held))
      fun _ => Own strict owner False none [] held := by
  refine secures_attempt_bind secured_execute fun _ => ?_
  refine secures_attempt_bind secured_executed fun returned => ?_
  have finish : Secured calendar strict False owner
      (JobRunner.finishClaimed calendar claimed returned.1)
      (Own strict owner False none [] ((claimed.job.id, (Agrees · returned.1)) :: held))
      fun _ => Own strict owner False none [] held :=
    secures_attempt_bind (secured_clockNow Own.stable fun _ own => own.gate)
      fun completedAt => secured_applyExecution
  exact secures_attempt_bind (finish.weaken (fun _ _ own => own.1) fun _ _ _ ended => ended)
    fun _ => secures_return fun _ _ own => own

theorem secured_refreshEach {report : RefreshSweepReport} :
    Secured calendar strict False owner (refreshEach calendar claimed report)
      (Own strict owner False none [] (heldBy claimed)) fun _ _ => True := by
  induction claimed generalizing report with
  | nil => exact secures_return fun _ _ _ => trivial
  | cons claimed rest inductionHypothesis =>
    exact secures_attempt_bind secured_refreshOne fun _ => inductionHypothesis

/-! ### The gate -/

theorem kept_enterGate (invariant : JobInvariant strict world) (free : world.gate = none) :
    Kept strict live owner .enterGate world { world with gate := some owner } := by
  refine kept_same invariant rfl rfl rfl (fun _ _ => rfl) (fun _ _ => rfl)
    (fun other _ entered => ?_) (fun id works => invariant.handled owner id works)
  rw [free] at entered
  cases entered

theorem kept_leaveGate (invariant : JobInvariant strict world) (gate : world.gate = some owner) :
    Kept strict live owner .leaveGate world { world with gate := none } := by
  refine kept_same invariant rfl rfl rfl (fun _ _ => rfl) (fun _ _ => rfl)
    (fun other different entered => ?_) (fun id works => invariant.handled owner id works)
  exact absurd (Option.some.inj (entered.symm.trans gate)) different

theorem secured_leaveGate {Value : Type} {result : Except (JobRunnerError JobStoreError) Value}
    {good released : Value → JobWorld → Prop}
    (stable : ∀ value, (jobDiscipline calendar strict).Stable owner (released value))
    (leaves : ∀ value world, good value world →
      world.gate = some owner ∧ released value { world with gate := none }) :
    (jobDiscipline calendar strict).Secures (jobCondition calendar strict) owner
      (.ask .leaveGate fun _ => .done result) (outcome good (Gated True owner) result)
      (outcome released (Gated False owner)) := by
  intro live choice before response after invariant held _ served
  obtain ⟨-, rfl⟩ := Prod.mk.inj (Option.some.inj served)
  cases result with
  | ok value =>
    obtain ⟨gate, left⟩ := leaves value before held
    have kept : Kept strict live owner .leaveGate _ _ := kept_leaveGate invariant gate
    obtain ⟨invariantAfter, shown, spared, left⟩ := kept.and left
    exact ⟨invariantAfter, shown, spared, _, stable value, left, fun _ _ ended => ended⟩
  | error failure =>
    have kept : Kept strict live owner .leaveGate _ _ := kept_leaveGate invariant (held trivial)
    obtain ⟨invariantAfter, shown, spared, left⟩ := kept.and trivial
    exact ⟨invariantAfter, shown, spared, Gated False owner, stable_gated, False.elim,
      fun _ _ ended => ended⟩

theorem secured_gated {Value : Type} {call : SweepCall Value}
    {good released : Value → JobWorld → Prop}
    (stable : ∀ value, (jobDiscipline calendar strict).Stable owner (released value))
    (leaves : ∀ value world, good value world →
      world.gate = some owner ∧ released value { world with gate := none })
    (secured : Secured calendar strict True owner call
      (fun world => world.gate = some owner ∧ Opening owner world) good) :
    Secured calendar strict False owner (DbWorker.gated call) (Opening owner) released := by
  intro live choice before response after invariant opening _ served
  cases gate : before.gate with
  | some other => simp [jobSetting, serveJob, gate] at served
  | none =>
    simp only [jobSetting, serveJob, gate, Option.some.injEq] at served
    obtain ⟨-, rfl⟩ := Prod.mk.inj served
    obtain ⟨invariantAfter, shown, spared, -⟩ := (kept_enterGate invariant gate).and trivial
    exact ⟨invariantAfter, shown, spared, _, stable_opened,
      ⟨rfl, opening.idle, opening.unclaimed⟩,
      secures_bind secured fun result => secured_leaveGate stable leaves⟩

/-! ### Both sweeps -/

theorem secured_runDueJobs :
    Secured calendar strict False owner (runDueJobs calendar now unlockWindow) (Opening owner)
      fun _ _ => True :=
  secured_gated (fun _ _ _ _ _ _ _ => trivial) (fun _ _ gate => ⟨gate, trivial⟩) secured_runDue

theorem secured_claimDueJobsOfKind :
    Secured calendar strict False owner (claimDueJobsOfKind kind now unlockWindow) (Opening owner)
      fun result => Own strict owner False none [] (heldBy result.1) := by
  refine secured_gated (fun _ => Own.stable) (fun result world own => ⟨own.gate trivial, ?_⟩)
    secured_claimDueOfKind
  exact ⟨False.elim, own.handling, own.restDistinct, nofun, own.heldDistinct, own.holds⟩

theorem secured_runDueOfKind :
    Secured calendar strict False owner (runDueOfKind calendar kind now unlockWindow)
      (Opening owner) fun _ _ => True :=
  secures_attempt_bind secured_claimDueJobsOfKind fun _ => secured_refreshEach

theorem jobDiscipline_holds (calendar : Calendar) (strict : Prop) :
    (jobDiscipline calendar strict).Holds (jobCondition calendar strict) where
  secures kind owner := by
    cases kind with
    | due now unlockWindow =>
      exact secures_bind secured_runDueJobs fun _ =>
        secures_pure fun _ invariant _ => endsWell_release invariant
    | ofKind kind now unlockWindow =>
      exact secures_bind secured_runDueOfKind fun _ =>
        secures_pure fun _ invariant _ => endsWell_release invariant
  opening owner _ _ _ _ relies opened := ⟨relies.handling.trans opened.idle,
    fun id claimed => opened.unclaimed id ((relies.claims id).mp claimed)⟩
  cut _ _ invariant := endsWell_release invariant
  move live move before after invariant meets moved := by
    have kept := keptByAll_move invariant meets moved
    exact ⟨kept.invariant, fun other _ => ⟨fun _ => kept.relies other, kept.opening other⟩⟩

end Dohflow.DbWorker
