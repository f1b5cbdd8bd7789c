/-
This file proves each sweep on its own, request by request.

`Own` is what a sweep knows between its requests: whether it has the gate, the job its
handler is at work on, the listed rows it has still to come to, and the jobs it holds
with what their runs have committed. `Turn` is the moment before a terminal write: the
call holds the job, or it found the row past its budget and has the gate.
-/

import Dohflow.DbWorker.JobSteps

namespace Dohflow.DbWorker

open SyncCore JobRuntime Program Interleaving

variable {calendar : Calendar} {strict : Prop} {owner : Nat} {before after world : JobWorld}

/-! ### What a call knows -/

/-- What a run is known to have committed. -/
abbrev Knows : Type := Option CommitOutcome → Prop

/-- Nothing. -/
def nothing : Knows := (· = none)

structure Own (strict : Prop) (owner : Nat) (gated : Prop) (work : Option Uuid) (rest : List Uuid)
    (held : List (Uuid × Knows)) (world : JobWorld) : Prop where
  gate : gated → world.gate = some owner
  handling : world.handling owner = work
  restDistinct : rest.Nodup
  waits : ∀ id ∈ rest, gated ∧ ¬ world.running id ∧ (id, owner) ∉ world.claims
  heldDistinct : (held.map Prod.fst).Nodup
  holds : ∀ claim ∈ held, world.Holds owner claim.1 ∧
    (work ≠ some claim.1 → strict → claim.2 (world.committed claim.1))

/-- The call may write the end of the job's run, and knows what the run has committed. -/
structure Turn (strict : Prop) (owner : Nat) (id : Uuid) (knows : Knows) (world : JobWorld) :
    Prop where
  idle : world.handling owner = none
  may : (world.Holds owner id ∧ (strict → knows (world.committed id))) ∨
    (world.gate = some owner ∧ ¬ world.running id ∧ (id, owner) ∉ world.claims)

namespace Own

variable {gated : Prop} {work : Option Uuid} {rest : List Uuid} {held : List (Uuid × Knows)}

theorem stable : (jobDiscipline calendar strict).Stable owner
    (Own strict owner gated work rest held) := by
  intro before after _ _ relies own
  refine ⟨fun inside => (relies.gate (own.gate inside)).1, relies.handling.trans own.handling,
    own.restDistinct, fun id waiting => ?_, own.heldDistinct, fun claim member => ?_⟩
  · obtain ⟨inside, stopped, unclaimed⟩ := own.waits id waiting
    exact ⟨inside, fun running => stopped ((relies.gate (own.gate inside)).2 id running),
      fun claimed => unclaimed ((relies.claims id).mp claimed)⟩
  · obtain ⟨holds, knows⟩ := own.holds claim member
    obtain ⟨stays, same⟩ := relies.holds claim.1 holds
    refine ⟨stays, fun other strictly => ?_⟩
    rw [same (own.handling ▸ other)]
    exact knows other strictly

/-- The call need not come to all the rows, nor hold all the jobs. -/
theorem sublist {fewer : List Uuid} {less : List (Uuid × Knows)}
    (own : Own strict owner gated work rest held world) (sub : fewer.Sublist rest)
    (subHeld : less.Sublist held) : Own strict owner gated work fewer less world :=
  ⟨own.gate, own.handling, own.restDistinct.sublist sub, fun id member =>
    own.waits id (sub.subset member), own.heldDistinct.sublist (subHeld.map _),
    fun claim member => own.holds claim (subHeld.subset member)⟩

/-- A row the call has still to come to is no job it holds. -/
theorem apart {id : Uuid} (own : Own strict owner gated work rest held world)
    (waits : id ∈ rest) : id ∉ held.map Prod.fst := by
  intro member
  obtain ⟨claim, inside, rfl⟩ := List.mem_map.mp member
  exact (own.waits _ waits).2.1 (own.holds claim inside).1.2

theorem perm {same : List (Uuid × Knows)} (own : Own strict owner gated work rest held world)
    (perm : held.Perm same) : Own strict owner gated work rest same world :=
  ⟨own.gate, own.handling, own.restDistinct, own.waits,
    (perm.map Prod.fst).nodup_iff.mp own.heldDistinct,
    fun claim member => own.holds claim (perm.mem_iff.mpr member)⟩

/-- A row the call came to and claimed is a job it holds. -/
theorem claim {id : Uuid} {table : JobTable}
    (own : Own strict owner True none (id :: rest) held world)
    (holds : (world.claim owner id table).Holds owner id)
    (others : ∀ other, other ≠ id → table.find other = world.table.find other) :
    Own strict owner True none rest ((id, nothing) :: held) (world.claim owner id table) := by
  have running : ∀ other, other ≠ id →
      ((world.claim owner id table).running other ↔ world.running other) :=
    fun other different => JobWorld.running_congr (others other different)
  obtain ⟨fresh, distinct⟩ := List.nodup_cons.mp own.restDistinct
  refine ⟨own.gate, own.handling, distinct, fun other waiting => ?_,
    List.nodup_cons.mpr ⟨own.apart List.mem_cons_self, own.heldDistinct⟩, fun claim member => ?_⟩
  · have different : other ≠ id := by
      rintro rfl
      exact fresh waiting
    obtain ⟨-, stopped, unclaimed⟩ := own.waits other (List.mem_cons_of_mem _ waiting)
    refine ⟨trivial, fun runs => stopped ((running other different).mp runs), fun claimed => ?_⟩
    obtain made | earlier := List.mem_cons.mp claimed
    · exact different (Prod.mk.inj made).1
    · exact unclaimed earlier
  · obtain rfl | inside := List.mem_cons.mp member
    · exact ⟨holds, fun _ _ => Function.update_self _ _ _⟩
    · have different : claim.1 ≠ id := by
        rintro rfl
        exact own.apart List.mem_cons_self (List.mem_map_of_mem inside)
      obtain ⟨⟨latest, runs⟩, knows⟩ := own.holds claim inside
      refine ⟨⟨(JobWorld.latest_claim_of_ne different).trans latest,
        (running claim.1 different).mpr runs⟩, fun elsewhere strictly => ?_⟩
      rw [show (world.claim owner id table).committed claim.1 = world.committed claim.1 from
        Function.update_of_ne different _ _]
      exact knows elsewhere strictly

/-- A terminal statement on another job leaves what the call knows. -/
theorem ends {id : Uuid} {table : JobTable}
    (own : Own strict owner gated work rest held world) (ends : Ends id world.table table)
    (apart : id ∉ held.map Prod.fst) :
    Own strict owner gated work rest held { world with table } := by
  refine ⟨own.gate, own.handling, own.restDistinct, fun other waiting => ?_, own.heldDistinct,
    fun claim member => ?_⟩
  · obtain ⟨inside, stopped, unclaimed⟩ := own.waits other waiting
    exact ⟨inside, fun running => stopped (ends.running running), unclaimed⟩
  · have different : claim.1 ≠ id := by
      rintro rfl
      exact apart (List.mem_map_of_mem member)
    obtain ⟨⟨latest, running⟩, knows⟩ := own.holds claim member
    exact ⟨⟨latest, (JobWorld.running_congr (ends.others claim.1 different)).mpr running⟩, knows⟩

end Own

namespace Turn

variable {id : Uuid} {knows : Knows}

theorem stable : (jobDiscipline calendar strict).Stable owner (Turn strict owner id knows) := by
  intro before after _ _ relies turn
  refine ⟨relies.handling.trans turn.idle, ?_⟩
  obtain ⟨holds, known⟩ | ⟨gate, stopped, unclaimed⟩ := turn.may
  · obtain ⟨stays, same⟩ := relies.holds id holds
    refine .inl ⟨stays, fun strictly => ?_⟩
    rw [same (by simp [turn.idle])]
    exact known strictly
  · obtain ⟨kept, quiet⟩ := relies.gate gate
    exact .inr ⟨kept, fun running => stopped (quiet id running),
      fun claimed => unclaimed ((relies.claims id).mp claimed)⟩

theorem mayEnd (turn : Turn strict owner id knows world) : MayEnd world owner id :=
  turn.may.imp (fun holds => holds.1) fun waits => waits.2

/-- While the row runs, the call knows what it committed. -/
theorem known (turn : Turn strict owner id knows world) (strictly : strict)
    (running : world.running id) : knows (world.committed id) :=
  turn.may.elim (fun holds => holds.2 strictly) fun waits => absurd running waits.2.1

theorem weaken {weaker : Knows} (turn : Turn strict owner id knows world)
    (implies : strict → world.running id → knows (world.committed id) →
      weaker (world.committed id)) : Turn strict owner id weaker world :=
  ⟨turn.idle, turn.may.imp (fun holds => ⟨holds.1, fun strictly =>
    implies strictly holds.1.2 (holds.2 strictly)⟩) fun waits => waits⟩

end Turn

/-! ### Requests -/

/-- The call, whatever fails in it, has the gate if it entered it. -/
def Gated (gated : Prop) (owner : Nat) (world : JobWorld) : Prop :=
  gated → world.gate = some owner

theorem stable_gated {gated : Prop} :
    (jobDiscipline calendar strict).Stable owner (Gated gated owner) :=
  fun _ _ _ _ relies has inside => (relies.gate (has inside)).1

theorem stable_and {first second : JobWorld → Prop}
    (one : (jobDiscipline calendar strict).Stable owner first)
    (other : (jobDiscipline calendar strict).Stable owner second) :
    (jobDiscipline calendar strict).Stable owner fun world => first world ∧ second world :=
  fun before after invariant invariantAfter relies both =>
    ⟨one before after invariant invariantAfter relies both.1,
      other before after invariant invariantAfter relies both.2⟩

theorem stable_imp {condition : Prop} {fact : JobWorld → Prop}
    (stable : (jobDiscipline calendar strict).Stable owner fact) :
    (jobDiscipline calendar strict).Stable owner fun world => condition → fact world :=
  fun before after invariant invariantAfter relies implied holds =>
    stable before after invariant invariantAfter relies (implied holds)

/-- The call secures the discipline from what it knows to what it will know. -/
abbrev Secured (calendar : Calendar) (strict gated : Prop) (owner : Nat) {Value : Type}
    (call : SweepCall Value) (own : JobWorld → Prop) (good : Value → JobWorld → Prop) : Prop :=
  (jobDiscipline calendar strict).Secures (jobCondition calendar strict) owner call own
    (outcome good (Gated gated owner))

/-- A statement fails and changes nothing, or is done. -/
theorem answer_eq_some {Value : Type} {choice : JobChoice} {done : Value × JobWorld}
    {response : Except JobStoreError Value}
    (answered : choice.answer world done = some (response, after)) :
    (∃ error, choice.failure = some error ∧ response = .error error ∧ after = world) ∨
      choice.failure = none ∧ response = .ok done.1 ∧ after = done.2 := by
  unfold JobChoice.answer at answered
  cases failure : choice.failure with
  | none =>
    rw [failure] at answered
    obtain ⟨rfl, rfl⟩ := Prod.mk.inj (Option.some.inj answered)
    exact .inr ⟨rfl, rfl, rfl⟩
  | some error =>
    rw [failure] at answered
    obtain ⟨rfl, rfl⟩ := Prod.mk.inj (Option.some.inj answered)
    exact .inl ⟨error, rfl, rfl, rfl⟩

section

variable {gated : Prop} {rest : List Uuid} {held : List (Uuid × Knows)} {job : JobRecord}
variable {guards : JobRow → Bool} {Value : Type} {good : Value → JobWorld → Prop} {id : Uuid}
  {knows : Knows} {nextDueAt : Option Timestamp} {sets : JobRow → JobRow} {completedAt : Timestamp}
  {cancelledAt : Timestamp} {call : SweepCall Value} {unlockWindow : String} {request : JobRequest}
  {read : request.Response JobStoreError → Except (JobRunnerError JobStoreError) Value}
variable {own : JobWorld → Prop}

/-- A terminal write is done, and the call goes on without the job. -/
theorem ended (request : JobRequest) {live : Nat → Prop} (keepsId : ∀ row, (sets row).id = row.id)
    (invariant : JobInvariant strict world) (own : Own strict owner gated none rest held world)
    (apart : job.id ∉ held.map Prod.fst) (turn : Turn strict owner job.id knows world)
    (finishes : request.finishes = some job.id) (stops : ∀ row, (sets row).state ≠ .running)
    (truthful : strict → ∀ row, world.table.find job.id = some row → guards row = true →
      Truthful (world.committed job.id) (sets row))
    (truly : strict → ∀ row committed, guards row = true → row.state = .running →
      knows (world.committed job.id) → world.committed job.id = some committed →
      EndsTruly request committed row (sets row)) : let after := { world with
      table := (world.table.update (fun row => row.id = job.id && guards row) sets keepsId).1 }
    Kept strict live owner request world after ∧
      Own strict owner gated none rest held after := by
  refine ⟨kept_update invariant turn.idle turn.mayEnd finishes stops truthful ?_,
    own.ends (ends_update stops) apart⟩
  intro strictly row committed found guarded running commits
  exact truly strictly row committed guarded running
    (turn.known strictly ⟨row, found, running⟩) commits

theorem unchanged_of_cancelled {keepsId : ∀ row, (sets row).id = row.id}
    (beaten : JobTable.finishResult (world.table.update (fun row => row.id = job.id && guards row)
      sets keepsId).2 = .cancelled) :
    { world with
      table := (world.table.update (fun row => row.id = job.id && guards row) sets keepsId).1 } =
        world ∧ ∀ row, world.table.find job.id = some row → guards row = false := by
  have unselected : (world.table.update (fun row => row.id = job.id && guards row) sets keepsId).2 =
      0 := by
    by_contra changed
    rw [JobTable.finishResult, if_neg changed] at beaten
    cases beaten
  refine ⟨by rw [JobTable.update_of_unchanged unselected], fun row found => ?_⟩
  by_contra guarded
  rw [Bool.not_eq_false] at guarded
  exact JobTable.changed_ne_zero_iff.mpr ⟨row, found, guarded⟩ unselected

theorem turn_of_beaten {table : JobTable} (turn : Turn strict owner job.id knows world)
    (same : { world with table } = world)
    (beatenBy : ∀ row, world.table.find job.id = some row → guards row = false)
    (uncommitted : strict → ∀ row, world.table.find job.id = some row → row.state = .running →
      guards row = false → knows (world.committed job.id) → world.committed job.id = none) :
    Turn strict owner job.id nothing { world with table } := by
  rw [same]
  refine turn.weaken fun strictly running known => ?_
  obtain ⟨row, found, state⟩ := running
  exact uncommitted strictly row found state (beatenBy row found) known

theorem secured_finishSuccess (apart : job.id ∉ held.map Prod.fst) :
    Secured calendar strict gated owner
      (attempt (.finishSuccess job completedAt nextDueAt) (Except.mapError .store))
      (fun world => Own strict owner gated none rest held world ∧
        Turn strict owner job.id (Agrees · .succeeded) world)
      fun finish world => Own strict owner gated none rest held world ∧
        (finish = .cancelled → Turn strict owner job.id nothing world) := by
  refine secures_attempt (fun _ => stable_and Own.stable (stable_imp Turn.stable)) stable_gated ?_
  rintro live choice before response after invariant ⟨own, turn⟩ ⟨-, honest⟩ served
  obtain ⟨error, -, rfl, rfl⟩ | ⟨-, rfl, rfl⟩ := answer_eq_some served
  · exact (kept_read invariant).and own.gate
  · obtain ⟨kept, standing⟩ : Kept strict live owner (.finishSuccess job completedAt nextDueAt)
          before { before with table := (before.table.finishSuccess job nextDueAt).1 } ∧
        Own strict owner gated none rest held
          { before with table := (before.table.finishSuccess job nextDueAt).1 } := by
      refine ended (.finishSuccess job completedAt nextDueAt) (by exact fun _ => rfl) invariant own
        apart turn rfl ?_ ?_ ?_
      · exact fun row => nofun
      · exact fun _ row _ _ => ⟨nofun, nofun, nofun⟩
      · exact fun _ row committed _ _ agrees commits => .succeeded (agrees committed commits) rfl rfl
    refine kept.and ⟨standing, fun beaten => ?_⟩
    obtain ⟨same, beatenBy⟩ := unchanged_of_cancelled beaten
    refine turn_of_beaten turn same beatenBy fun strictly row found state skipped _ => ?_
    refine (honest strictly).resolve_right fun unrequested => ?_
    simp only [JobTable.jobCancellationRequested, found] at unrequested
    simp [state, unrequested] at skipped

theorem secured_finishCommitted (apart : job.id ∉ held.map Prod.fst) :
    Secured calendar strict gated owner
      (attempt (.finishCommitted job completedAt nextDueAt) (Except.mapError .store))
      (fun world => Own strict owner gated none rest held world ∧
        Turn strict owner job.id (Agrees · .committed) world)
      fun _ => Own strict owner gated none rest held := by
  refine secures_attempt (fun _ => Own.stable) stable_gated ?_
  rintro live choice before response after invariant ⟨own, turn⟩ - served
  obtain ⟨error, -, rfl, rfl⟩ | ⟨-, rfl, rfl⟩ := answer_eq_some served
  · exact (kept_read invariant).and own.gate
  · obtain ⟨kept, standing⟩ : Kept strict live owner (.finishCommitted job completedAt nextDueAt)
          before { before with table := before.table.finishCommitted job nextDueAt } ∧
        Own strict owner gated none rest held
          { before with table := before.table.finishCommitted job nextDueAt } := by
      refine ended (.finishCommitted job completedAt nextDueAt) (by exact fun _ => rfl) invariant own
        apart turn rfl ?_ ?_ ?_
      · exact fun row => nofun
      · exact fun _ row _ _ => ⟨nofun, nofun, nofun⟩
      · exact fun _ row committed _ _ agrees commits => .succeeded (agrees committed commits) rfl rfl
    exact kept.and standing

theorem secured_finishFailure {failedAt : Timestamp} {failure : JobFailure}
    {retryAt : Option Timestamp} (apart : job.id ∉ held.map Prod.fst) :
    Secured calendar strict gated owner
      (attempt (.finishFailure job failedAt failure retryAt) (Except.mapError .store))
      (fun world => Own strict owner gated none rest held world ∧
        Turn strict owner job.id (Agrees · (.failed failure)) world)
      fun finish world => Own strict owner gated none rest held world ∧
        (finish = .cancelled → Turn strict owner job.id nothing world) := by
  refine secures_attempt (fun _ => stable_and Own.stable (stable_imp Turn.stable)) stable_gated ?_
  rintro live choice before response after invariant ⟨own, turn⟩ - served
  obtain ⟨error, -, rfl, rfl⟩ | ⟨-, rfl, rfl⟩ := answer_eq_some served
  · exact (kept_read invariant).and own.gate
  · obtain ⟨kept, standing⟩ : Kept strict live owner (.finishFailure job failedAt failure retryAt)
          before { before with table := (before.table.finishFailure job failure retryAt).1 } ∧
        Own strict owner gated none rest held
          { before with table := (before.table.finishFailure job failure retryAt).1 } := by
      have stops : (if retryAt.isSome then JobState.queued else .failed) ≠ .running ∧
          (if retryAt.isSome then JobState.queued else .failed) ≠ .cancelled := by
        split <;> exact ⟨nofun, nofun⟩
      refine ended (.finishFailure job failedAt failure retryAt) (by exact fun _ => rfl) invariant own
        apart turn rfl ?_ ?_ ?_
      · exact fun row => stops.1
      · exact fun _ row _ _ => ⟨nofun, fun state => absurd state stops.2,
          fun state => absurd state stops.1⟩
      · refine fun _ row committed _ _ agrees commits => .failed (agrees committed commits) ?_ rfl
        show (if retryAt.isSome then JobState.queued else .failed) = _ ∨ _
        split
        · exact .inr rfl
        · exact .inl rfl
    refine kept.and ⟨standing, fun beaten => ?_⟩
    obtain ⟨same, beatenBy⟩ := unchanged_of_cancelled beaten
    refine turn_of_beaten turn same beatenBy fun strictly row found state skipped _ => ?_
    -- A running row that this write does not select carries no marker.
    have marked := (invariant.truthful strictly job.id row found).marked state
    have unmarked : row.cancelRequested = true ∧ row.marker = none := by simpa [state] using skipped
    rw [unmarked.2] at marked
    simpa using marked.symm

theorem secured_finishCancelled {reason : String} (apart : job.id ∉ held.map Prod.fst) :
    Secured calendar strict gated owner
      (attempt (.finishCancelled job cancelledAt reason) (Except.mapError .store))
      (fun world => Own strict owner gated none rest held world ∧
        Turn strict owner job.id nothing world)
      fun _ => Own strict owner gated none rest held := by
  refine secures_attempt (fun _ => Own.stable) stable_gated ?_
  rintro live choice before response after invariant ⟨own, turn⟩ - served
  obtain ⟨error, -, rfl, rfl⟩ | ⟨-, rfl, rfl⟩ := answer_eq_some served
  · exact (kept_read invariant).and own.gate
  · obtain ⟨kept, standing⟩ : Kept strict live owner (.finishCancelled job cancelledAt reason)
          before { before with table := before.table.finishCancelled job reason } ∧
        Own strict owner gated none rest held
          { before with table := before.table.finishCancelled job reason } := by
      refine ended (.finishCancelled job cancelledAt reason) (by exact fun _ => rfl) invariant own
        apart turn rfl ?_ ?_ ?_
      · exact fun row => nofun
      · refine fun strictly row found guarded => ⟨fun _ => rfl, fun _ => ?_, nofun⟩
        exact turn.known strictly ⟨row, found, of_decide_eq_true guarded⟩
      · intro _ row committed _ _ uncommitted commits
        rw [uncommitted] at commits
        cases commits
    exact kept.and standing

theorem secured_finishSkipped {skippedAt : Timestamp} (apart : job.id ∉ held.map Prod.fst) :
    Secured calendar strict gated owner
      (attempt (.finishSkipped job skippedAt) (Except.mapError .store))
      (fun world => Own strict owner gated none rest held world ∧
        Turn strict owner job.id nothing world)
      fun finish world => Own strict owner gated none rest held world ∧
        (finish = .cancelled → Turn strict owner job.id nothing world) := by
  refine secures_attempt (fun _ => stable_and Own.stable (stable_imp Turn.stable)) stable_gated ?_
  rintro live choice before response after invariant ⟨own, turn⟩ - served
  obtain ⟨error, -, rfl, rfl⟩ | ⟨-, rfl, rfl⟩ := answer_eq_some served
  · exact (kept_read invariant).and own.gate
  · obtain ⟨kept, standing⟩ : Kept strict live owner (.finishSkipped job skippedAt)
          before { before with table := (before.table.finishSkipped job).1 } ∧
        Own strict owner gated none rest held
          { before with table := (before.table.finishSkipped job).1 } := by
      refine ended (.finishSkipped job skippedAt) (by exact fun _ => rfl) invariant own
        apart turn rfl ?_ ?_ ?_
      · exact fun row => nofun
      · exact fun _ row _ _ => ⟨nofun, nofun, nofun⟩
      · intro _ row committed _ _ uncommitted commits
        rw [uncommitted] at commits
        cases commits
    refine kept.and ⟨standing, fun beaten => ?_⟩
    obtain ⟨same, beatenBy⟩ := unchanged_of_cancelled beaten
    exact turn_of_beaten turn same beatenBy fun _ _ _ _ _ known => known

/-! ### Reads -/

theorem secured_reading
    (stable : ∀ value, (jobDiscipline calendar strict).Stable owner (good value))
    (gate : ∀ world, own world → Gated gated owner world)
    (reads : ∀ live choice world response after, JobInvariant strict world → own world →
      (jobCondition calendar strict).serve live owner choice request world →
      serveJob calendar owner choice request world = some (response, after) →
      after = world ∧ ∀ value, read response = .ok value → good value world) :
    Secured calendar strict gated owner (attempt request read) own good := by
  refine secures_attempt stable stable_gated ?_
  intro live choice before response after invariant held meets served
  obtain ⟨rfl, found⟩ := reads live choice before response after invariant held meets served
  refine (kept_read invariant).and ?_
  cases outcome : read response with
  | ok value => exact found value outcome
  | error failure => exact gate after held

theorem secured_asking (stable : (jobDiscipline calendar strict).Stable owner own)
    (gate : ∀ world, own world → Gated gated owner world) (reads : ∀ choice world response after,
      serveJob calendar owner choice request world = some (response, after) → after = world) :
    Secured calendar strict gated owner (attempt request read) own fun _ => own :=
  secured_reading (fun _ => stable) gate fun _ choice world response after _ held _ served =>
    ⟨reads choice world response after served, fun _ _ => held⟩

theorem secured_clockNow (stable : (jobDiscipline calendar strict).Stable owner own)
    (gate : ∀ world, own world → Gated gated owner world) :
    Secured calendar strict gated owner JobRunner.clockNow own fun _ => own := by
  refine secured_asking stable gate fun choice world response after served => ?_
  exact (Prod.mk.inj (Option.some.inj served)).2.symm

theorem secured_isCancelled (stable : (jobDiscipline calendar strict).Stable owner own)
    (gate : ∀ world, own world → Gated gated owner world) :
    Secured calendar strict gated owner (attempt .isCancelled .ok) own fun _ => own := by
  refine secured_asking stable gate fun choice world response after served => ?_
  exact (Prod.mk.inj (Option.some.inj served)).2.symm

theorem secured_shouldRun (stable : (jobDiscipline calendar strict).Stable owner own)
    (gate : ∀ world, own world → Gated gated owner world) :
    Secured calendar strict gated owner (attempt (.shouldRun job) .ok) own fun _ => own := by
  refine secured_asking stable gate fun choice world response after served => ?_
  exact (Prod.mk.inj (Option.some.inj served)).2.symm

theorem secured_cancellationRequested (stable : (jobDiscipline calendar strict).Stable owner own)
    (gate : ∀ world, own world → Gated gated owner world) :
    Secured calendar strict gated owner
      (attempt (.cancellationRequested id) (Except.mapError .store)) own fun _ => own := by
  refine secured_asking stable gate fun choice world response after served => ?_
  obtain ⟨-, -, -, same⟩ | ⟨-, -, same⟩ := answer_eq_some served
  · exact same
  · exact same

theorem secured_dueJobs {now : Timestamp} :
    Secured calendar strict True owner
      (attempt (.dueJobs now unlockWindow) (Except.mapError .store))
      (fun world => world.gate = some owner ∧ Opening owner world)
      fun jobs => Own strict owner True none (jobs.map JobRecord.id) [] := by
  refine secured_reading (fun _ => Own.stable) (fun world held _ => held.1) ?_
  rintro live choice world response after invariant ⟨gate, opening⟩ - served
  obtain ⟨error, -, rfl, rfl⟩ | ⟨-, rfl, rfl⟩ := answer_eq_some served
  · exact ⟨rfl, nofun⟩
  · refine ⟨rfl, fun jobs listed => ?_⟩
    obtain rfl := Except.ok.inj listed
    refine ⟨fun _ => gate, opening.idle, JobTable.nodup_dueJobs _ _ _, fun id waiting => ?_,
      List.nodup_nil, nofun⟩
    obtain ⟨job, listed, rfl⟩ := List.mem_map.mp waiting
    obtain ⟨row, found, claimable⟩ := JobTable.claimable_of_mem_dueJobs listed
    exact ⟨trivial, not_running_of_claimable found claimable, opening.unclaimed job.id⟩

/-! ### Claims -/

theorem secured_of_held (secured : id ∉ held.map Prod.fst → Secured calendar strict gated owner call
      (fun world => Own strict owner gated none rest held world ∧
        Turn strict owner id knows world) good) :
    Secured calendar strict gated owner call
      (Own strict owner gated none rest ((id, knows) :: held)) good := by
  refine secures_of_fact (id ∉ held.map Prod.fst)
    (fun world own => (List.nodup_cons.mp own.heldDistinct).1) fun apart => ?_
  refine (secured apart).weaken (fun world _ own => ?_) fun _ _ _ ended => ended
  obtain ⟨holds, known⟩ := own.holds (id, knows) List.mem_cons_self
  exact ⟨own.sublist (List.Sublist.refl _) (List.sublist_cons_self _ _), own.handling,
    .inl ⟨holds, known nofun⟩⟩

theorem secured_of_waiting (knows : Knows)
    (secured : id ∉ held.map Prod.fst → Secured calendar strict True owner call
      (fun world => Own strict owner True none rest held world ∧
        Turn strict owner id knows world) good) :
    Secured calendar strict True owner call
      (Own strict owner True none (id :: rest) held) good := by
  refine secures_of_fact (id ∉ held.map Prod.fst)
    (fun world own => own.apart List.mem_cons_self) fun apart => ?_
  refine (secured apart).weaken (fun world _ own => ?_) fun _ _ _ ended => ended
  obtain ⟨-, stopped, unclaimed⟩ := own.waits id List.mem_cons_self
  exact ⟨own.sublist (List.sublist_cons_self _ _) (List.Sublist.refl _), own.handling,
    .inr ⟨own.gate trivial, stopped, unclaimed⟩⟩

theorem secured_recordCancelled {report : JobRunReport} (apart : job.id ∉ held.map Prod.fst) :
    Secured calendar strict gated owner (JobRunner.recordCancelled job cancelledAt report)
      (fun world => Own strict owner gated none rest held world ∧
        Turn strict owner job.id nothing world)
      fun _ => Own strict owner gated none rest held :=
  secures_attempt_bind (secured_finishCancelled apart)
    fun _ => secures_return fun _ _ own => own

theorem secured_claimJob {attempts : Nat} {startedAt : Timestamp} :
    Secured calendar strict True owner
      (attempt (.claimJob id attempts startedAt unlockWindow) (Except.mapError .store))
      (Own strict owner True none (id :: rest) held)
      fun claimed => Own strict owner True none rest
        (if claimed then (id, nothing) :: held else held) := by
  refine secures_attempt (fun _ => Own.stable) stable_gated ?_
  rintro live choice before response after invariant own - served
  have others := own.sublist (List.sublist_cons_self id rest) (List.Sublist.refl held)
  obtain ⟨error, -, rfl, rfl⟩ | ⟨-, rfl, rfl⟩ := answer_eq_some served
  · exact (kept_read invariant).and own.gate
  · cases claimed : (before.table.claimJob id attempts startedAt unlockWindow).2 with
    | false =>
      have unchanged : (before.table.claimJob id attempts startedAt unlockWindow).1 =
          before.table := JobTable.update_of_unchanged (by simpa [JobTable.claimJob] using claimed)
      rw [if_neg Bool.false_ne_true, unchanged]
      exact (kept_read invariant).and others
    | true =>
      obtain ⟨kept, holds⟩ : Kept strict live owner
            (.claimJob id attempts startedAt unlockWindow) before _ ∧ _ :=
        kept_claim invariant (own.gate trivial) claimed
      exact kept.and (own.claim holds fun other different => find_claimJob different)

end

end Dohflow.DbWorker
