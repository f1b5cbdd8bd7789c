/-
This file gives the rule by which something holds in every run of calls that decide staged
rows, skip them and void transactions (`Preserved.holds`).

An invariant of the tables need only be kept by each request of a call, given what the
call knows when it makes it: that its row may be marked, or what its planned commit will
make (`PlannedFor`). Whatever the invariant, no step takes anything back.
-/

import Dohflow.DbWorker.StagedImportPlans

namespace Dohflow.DbWorker

open SyncCore CoreLedger Fallible KeyedTable Program Interleaving

variable {libraries : ImportLibraries} {store before after : ImportStore}
variable {stagedId : Uuid} {commandMeta : ImportMeta} {command : CommitImported} {outcome : Outcome}
  {operations : List OperationRow}

/-! ### What a planned commit will make -/

/-- The command makes the transaction of its row, from the row's record. -/
def PlannedFor (store : ImportStore) (planned : PlannedCommit) : Prop :=
  planned.command.transactionId = planned.transactionId ∧
    ∃ row batch, store.staged.find planned.stagedId = some row ∧
      store.transactionIdOf row = .ok (batch, planned.transactionId) ∧
      planned.command.sourceRecordId = row.sourceRecordId

theorem sourceRecordId_of_undecided {row other : StagedTransaction}
    (same : row.undecided = other.undecided) : row.sourceRecordId = other.sourceRecordId := by
  have record := congrArg StagedTransaction.sourceRecordId same
  exact record

theorem PlannedFor.keeps {planned : PlannedCommit} (plannedFor : PlannedFor before planned)
    (keeps : Keeps before after) : PlannedFor after planned := by
  obtain ⟨named, row, batch, found, derived, record⟩ := plannedFor
  obtain ⟨now, foundAfter, same⟩ := keeps.row found
  refine ⟨named, now, batch, foundAfter, (keeps.transactionIdOf same).trans derived, ?_⟩
  rw [record, sourceRecordId_of_undecided same]

theorem plannedFor_of_plan {force : Bool} {planned : PlannedCommit}
    (plan : store.planStaged libraries stagedId force = .ok (.commit planned)) :
    PlannedFor store planned := by
  obtain ⟨row, batch, transaction, target, planning, -, committing⟩ := planStaged_eq_commit plan
  obtain rfl := committing.planned
  obtain ⟨-, named⟩ := Table.find_eq_some_iff.mp planning.found
  exact ⟨rfl, row, batch, named ▸ planning.found, planning.derived, rfl⟩

/-- The row is marked committed, with the transaction. -/
def MarkedWith (store : ImportStore) (stagedId : Uuid) (transaction : TransactionId) : Prop :=
  ∃ row, store.staged.find stagedId = some row ∧ row.commitStatus = .committed ∧
    row.committedTransactionId = some transaction

/-! ### Planning and dispatching -/

theorem planUnderLock_eq {key : String} {force : Bool} {answer : Except ImportError Planned}
    (served : store.planUnderLock libraries key stagedId force = (answer, after)) :
    after = store ∧ (∀ plan, answer = .ok (.planned plan) →
        store.planStaged libraries stagedId force = .ok plan) ∨
      (∃ opSeq, answer = .ok (.replayed opSeq)) ∧ ∃ transaction,
        store.planStaged libraries stagedId force = .ok (.alreadyCommitted stagedId transaction) ∧
          after = store.markStagedCommitted stagedId transaction := by
  unfold ImportStore.planUnderLock at served
  split at served
  · next opSeq remembered =>
    split at served
    · next marked transaction planned =>
      obtain ⟨rfl, rfl⟩ := Prod.mk.inj served
      obtain ⟨rfl, -⟩ := planStaged_eq_alreadyCommitted planned
      exact Or.inr ⟨⟨opSeq, rfl⟩, transaction, planned, rfl⟩
    · obtain ⟨rfl, rfl⟩ := Prod.mk.inj served
      exact Or.inl ⟨rfl, fun plan same => nomatch same⟩
  · obtain ⟨rfl, rfl⟩ := Prod.mk.inj served
    refine Or.inl ⟨rfl, fun plan same => ?_⟩
    cases planned : store.planStaged libraries stagedId force with
    | error error => rw [planned] at same; cases same
    | ok found =>
      rw [planned] at same
      rw [Planned.planned.inj (Except.ok.inj same)]

theorem keeps_operations (store : ImportStore) (operations : List OperationRow) :
    Keeps store { store with operations } :=
  ⟨rfl, rfl, rfl, fun _ => id, fun _ => id, fun _ => id, fun _ => rfl⟩

theorem dispatch_eq_ok {command : ImportCommand}
    (done : store.dispatch libraries commandMeta command = .ok (outcome, after)) :
    (store.findByIdempotencyKey commandMeta.idempotencyKey).isSome ∧ after = store ∨
      ∃ written operations, store.apply libraries commandMeta command = .ok written ∧
        after = { written with operations } := by
  unfold ImportStore.dispatch at done
  split at done
  · next opSeq remembered =>
    obtain ⟨-, rfl⟩ := Prod.mk.inj (Except.ok.inj done)
    exact Or.inl ⟨by rw [remembered]; rfl, rfl⟩
  · obtain ⟨written, applied, done⟩ := bind_eq_ok.mp done
    obtain ⟨-, done⟩ := ensure_bind_eq_ok.mp done
    obtain ⟨-, rfl⟩ := Prod.mk.inj (Except.ok.inj done)
    exact Or.inr ⟨written, _, applied, rfl⟩

theorem dispatch_commit_eq_ok
    (done : store.dispatch libraries commandMeta (.commitImported command) = .ok (outcome, after)) :
    ∃ operations, ((store.findByIdempotencyKey commandMeta.idempotencyKey).isSome ∨
          store.exists? command.transactionId) ∧ after = { store with operations } ∨
      ∃ written, Makes store written command ∧ after = { written with operations } := by
  obtain ⟨remembered, rfl⟩ | ⟨written, operations, applied, rfl⟩ := dispatch_eq_ok done
  · exact ⟨after.operations, Or.inl ⟨Or.inl remembered, rfl⟩⟩
  · obtain ⟨present, rfl⟩ | makes := applyCommitImportedTransaction_eq_ok applied
    · exact ⟨operations, Or.inl ⟨Or.inr present, rfl⟩⟩
    · exact ⟨operations, Or.inr ⟨written, makes, rfl⟩⟩

theorem makes_of_same :
    makes store { store with operations } (.commitImported command) (some stagedId) = [] :=
  if_neg fun changed => changed.1 changed.2

theorem makes_of_made {written : ImportStore} (made : Makes store written command) :
    makes store { written with operations } (.commitImported command) (some stagedId) =
      [(stagedId, command.transactionId)] :=
  if_pos ⟨made.absent, (made.exists_iff _).mpr (Or.inl rfl)⟩

theorem keeps_dispatch {command : ImportCommand}
    (done : store.dispatch libraries commandMeta command = .ok (outcome, after)) :
    Keeps store after := by
  obtain ⟨-, rfl⟩ | ⟨written, operations, applied, rfl⟩ := dispatch_eq_ok done
  · exact .refl _
  · refine Keeps.trans ?_ (keeps_operations written operations)
    cases command with
    | commitImported command =>
      obtain ⟨-, rfl⟩ | makes := applyCommitImportedTransaction_eq_ok applied
      · exact .refl _
      · exact makes.keeps
    | voidTransaction transaction => exact keeps_applyVoidTransaction applied

theorem mem_assign_other {planned : List (Nat × Uuid)} {owner other : Nat} {row : Option Uuid}
    (different : other ≠ owner) :
    (other, stagedId) ∈ assign planned owner row ↔ (other, stagedId) ∈ planned := by
  rw [mem_assign]
  exact ⟨fun held => held.elim (fun own => absurd own.1 different) And.right,
    fun held => Or.inr ⟨different, held⟩⟩

theorem serve_keeps {world : ImportWorld} {owner : Nat} {choice : ImportChoice}
    (request : ImportRequest) :
    Keeps world.store (world.serve libraries owner choice request).2.store ∧
      ∀ other, other ≠ owner → ∀ stagedId,
        (other, stagedId) ∈ (world.serve libraries owner choice request).2.planned ↔
          (other, stagedId) ∈ world.planned := by
  cases request with
  | plan key stagedId force =>
    cases planned : world.store.planUnderLock libraries key stagedId force with
    | mk answer store =>
      simp only [ImportWorld.serve, planned]
      refine ⟨?_, fun other different _ => mem_assign_other different⟩
      obtain ⟨rfl, -⟩ | ⟨-, transaction, -, rfl⟩ := planUnderLock_eq planned
      · exact .refl _
      · exact keeps_markStagedCommitted _ _ _
  | dispatch commandMeta command stagedId =>
    have others : ∀ other, other ≠ owner → ∀ stagedId,
        (other, stagedId) ∈ assign world.planned owner none ↔ (other, stagedId) ∈ world.planned :=
      fun other different _ => mem_assign_other different
    simp only [ImportWorld.serve]
    split
    · exact ⟨.refl _, others⟩
    · split
      · next outcome store done => exact ⟨keeps_dispatch done, others⟩
      · exact ⟨.refl _, others⟩
  | mark stagedId transaction => exact ⟨keeps_markStagedCommitted _ _ _, fun _ _ _ => .rfl⟩
  | recordFlag commandMeta flag =>
    simp only [ImportWorld.serve, ImportWorld.write]
    split
    · next store done => exact ⟨keeps_recordFlag done, fun _ _ _ => .rfl⟩
    · exact ⟨.refl _, fun _ _ _ => .rfl⟩
  | skip stagedId =>
    simp only [ImportWorld.serve, ImportWorld.write]
    split
    · next store done => exact ⟨keeps_skipStaged done, fun _ _ _ => .rfl⟩
    · exact ⟨.refl _, fun _ _ _ => .rfl⟩

/-! ### The rule -/

/-- The invariant holds, and nothing is taken back. -/
def importDiscipline (libraries : ImportLibraries) (invariant : ImportWorld → Prop) :
    Discipline (importing libraries) where
  invariant := invariant
  relies owner before after :=
    Keeps before.store after.store ∧
      ∀ stagedId, (owner, stagedId) ∈ after.planned ↔ (owner, stagedId) ∈ before.planned
  opening _ _ := True
  shows _ _ before after := Keeps before.store after.store

/-- Each request of a call keeps the invariant, given what the call knows: that its row is ready to
be marked, or what its planned commit will make. -/
structure Preserved (libraries : ImportLibraries) (condition : Condition (importing libraries))
    (invariant : ImportWorld → Prop) (ready : ImportStore → Uuid → TransactionId → Prop) :
    Prop where
  keeps : ∀ before after stagedId transaction, Keeps before after →
    ready before stagedId transaction → ready after stagedId transaction
  ofPlan : ∀ store stagedId force transaction,
    store.planStaged libraries stagedId force = .ok (.alreadyCommitted stagedId transaction) →
      ready store stagedId transaction
  plan : ∀ live owner choice key stagedId force world, invariant world →
    condition.serve live owner choice (.plan key stagedId force) world →
    invariant (world.serve libraries owner choice (.plan key stagedId force)).2
  dispatch : ∀ live owner choice commandMeta planned world, invariant world →
    PlannedFor world.store planned → (owner, planned.stagedId) ∈ world.planned →
    condition.serve live owner choice
      (.dispatch commandMeta (.commitImported planned.command) (some planned.stagedId)) world →
    ∀ outcome after, world.store.dispatch libraries commandMeta (.commitImported planned.command) =
        .ok (outcome, after) →
      ready after planned.stagedId planned.transactionId ∧
        invariant { world with
          store := after, planned := assign world.planned owner none
          made := world.made ++ makes world.store after (.commitImported planned.command)
            (some planned.stagedId) }
  mark : ∀ world stagedId transaction, invariant world → ready world.store stagedId transaction →
    invariant { world with store := world.store.markStagedCommitted stagedId transaction }
  recordFlag : ∀ world commandMeta flag after, invariant world →
    world.store.recordFlag commandMeta flag = .ok after → invariant { world with store := after }
  skip : ∀ world stagedId now after, invariant world →
    world.store.skipStaged stagedId now = .ok after → invariant { world with store := after }
  void : ∀ world commandMeta transaction written operations, invariant world →
    world.store.applyVoidTransaction libraries commandMeta transaction = .ok written →
    invariant { world with store := { written with operations } }
  drop : ∀ world owner, invariant world → invariant (world.drop owner)

variable {condition : Condition (importing libraries)} {invariant : ImportWorld → Prop}
  {ready : ImportStore → Uuid → TransactionId → Prop} {owner : Nat}

theorem spares_drop {live : Nat → Prop} {world : ImportWorld} :
    (importDiscipline libraries invariant).Spares live (· ≠ owner) world (world.drop owner) :=
  fun _ different => ⟨fun _ => ⟨.refl _, fun _ => mem_assign_other different⟩, fun _ => trivial⟩

/-- What a call knows of the world once its row is planned. -/
def Known (ready : ImportStore → Uuid → TransactionId → Prop) (owner : Nat) (world : ImportWorld) :
    StagedPlan → Prop
  | .alreadyCommitted stagedId transaction => ready world.store stagedId transaction
  | .commit planned =>
    PlannedFor world.store planned ∧ (owner, planned.stagedId) ∈ world.planned
  | .flag _ => True

namespace Preserved

variable (preserved : Preserved libraries condition invariant ready)
variable {plan : StagedPlan} (request : ImportRequest) (own : ImportWorld → Prop)
  {world : ImportWorld} {value : ImportValue}

include preserved

theorem endsWell (holds : invariant world) :
    (importDiscipline libraries invariant).EndsWell owner world (world.drop owner) :=
  ⟨preserved.drop world owner holds, fun _ => spares_drop⟩

omit preserved in
theorem secures_request {Result : Type} (kept : request.Response → ImportWorld → Prop)
    {next : request.Response → ImportProgram Result} {ends : Result → ImportWorld → Prop}
    (stable : ∀ response before after, Keeps before.store after.store →
      (∀ stagedId, (owner, stagedId) ∈ after.planned ↔ (owner, stagedId) ∈ before.planned) →
      kept response before → kept response after)
    (served : ∀ live choice world, invariant world → own world →
      condition.serve live owner choice request world →
      invariant (world.serve libraries owner choice request).2 ∧
        kept (world.serve libraries owner choice request).1
          (world.serve libraries owner choice request).2)
    (rest : ∀ response, (importDiscipline libraries invariant).Secures condition owner
      (next response) (kept response) ends) :
    (importDiscipline libraries invariant).Secures condition owner (.ask request next) own ends := by
  intro live choice world response world' holds held meets answered
  obtain ⟨rfl, rfl⟩ := Prod.mk.inj (Option.some.inj answered)
  obtain ⟨holdsAfter, known⟩ := served live choice world holds held meets
  obtain ⟨keeps, others⟩ := @serve_keeps libraries world owner choice request
  exact ⟨holdsAfter, keeps,
    fun other different => ⟨fun _ => ⟨keeps, others other different⟩, fun _ => trivial⟩, kept _,
    fun _ _ _ _ relies known => stable _ _ _ relies.1 relies.2 known, known, rest _⟩

theorem secures_done {own : ImportWorld → Prop} :
    (importDiscipline libraries invariant).Secures condition owner (.done value) own
      fun value world => (importDiscipline libraries invariant).EndsWell owner world
        ((importing libraries).finish owner value world) :=
  fun _ holds _ => preserved.endsWell holds

theorem secures_last {next : request.Response → ImportProgram ImportValue}
    (served : ∀ live choice world, invariant world → own world →
      condition.serve live owner choice request world →
      invariant (world.serve libraries owner choice request).2)
    (done : ∀ response, ∃ value, next response = .done value) :
    (importDiscipline libraries invariant).Secures condition owner (.ask request next) own
      fun value world => (importDiscipline libraries invariant).EndsWell owner world
        ((importing libraries).finish owner value world) := by
  refine secures_request request own (fun _ _ => True) (fun _ _ _ _ _ known => known)
    (fun live choice world holds held meets =>
      ⟨served live choice world holds held meets, trivial⟩) fun response => ?_
  obtain ⟨value, same⟩ := done response
  rw [same]
  exact preserved.secures_done

theorem secures_mark {transaction : TransactionId} :
    (importDiscipline libraries invariant).Secures condition owner
      (.ask (.mark stagedId transaction) fun _ => .done value)
      (fun world => ready world.store stagedId transaction)
      fun value world => (importDiscipline libraries invariant).EndsWell owner world
        ((importing libraries).finish owner value world) :=
  preserved.secures_last (.mark stagedId transaction) _
    (fun _ _ world holds held _ => preserved.mark world stagedId transaction holds held)
    fun _ => ⟨value, rfl⟩

theorem secures_dispatch {planned : PlannedCommit} :
    (importDiscipline libraries invariant).Secures condition owner
      (Program.bind (carryOut commandMeta (.commit planned)) fun result => .done (.decided result))
      (fun world => Known ready owner world (.commit planned))
      fun value world => (importDiscipline libraries invariant).EndsWell owner world
        ((importing libraries).finish owner value world) := by
  refine secures_request
    (.dispatch commandMeta (.commitImported planned.command) (some planned.stagedId))
    (fun world => Known ready owner world (.commit planned))
    (fun response world => ∀ outcome, response = .ok outcome →
      ready world.store planned.stagedId planned.transactionId)
    (fun response _ _ keeps _ known outcome same =>
      preserved.keeps _ _ _ _ keeps (known outcome same))
    (fun live choice world holds known meets => ?_) fun response => ?_
  · obtain ⟨plannedFor, own⟩ := known
    simp only [ImportWorld.serve]
    split
    · exact ⟨preserved.drop world owner holds, fun outcome same => nomatch same⟩
    · split
      · next outcome store done =>
        obtain ⟨marks, holdsAfter⟩ := preserved.dispatch live owner choice commandMeta planned world
          holds plannedFor own meets outcome store done
        exact ⟨holdsAfter, fun _ _ => marks⟩
      · exact ⟨preserved.drop world owner holds, fun outcome same => nomatch same⟩
  · cases response with
    | error error => exact preserved.secures_done
    | ok outcome =>
      exact preserved.secures_mark.weaken (fun world _ known => known outcome rfl)
        fun _ _ _ ended => ended

theorem secures_carryOut :
    (importDiscipline libraries invariant).Secures condition owner
      (Program.bind (carryOut commandMeta plan) fun result => .done (.decided result))
      (fun world => Known ready owner world plan)
      fun value world => (importDiscipline libraries invariant).EndsWell owner world
        ((importing libraries).finish owner value world) := by
  cases plan with
  | alreadyCommitted stagedId transaction => exact preserved.secures_mark
  | commit planned => exact preserved.secures_dispatch
  | flag flag =>
    rw [carryOut]
    split
    · exact preserved.secures_done
    · refine preserved.secures_last (.recordFlag commandMeta flag) _
        (fun _ _ world holds _ _ => ?_) fun response => ?_
      · simp only [ImportWorld.serve, ImportWorld.write]
        split
        · next store done => exact preserved.recordFlag world commandMeta flag store holds done
        · exact holds
      · cases response <;> exact ⟨_, rfl⟩

theorem known_of_plan {choice : ImportChoice} {key : String} {force : Bool}
    (answered : (world.serve libraries owner choice (.plan key stagedId force)).1 =
      .ok (.planned plan)) :
    Known ready owner (world.serve libraries owner choice (.plan key stagedId force)).2 plan := by
  cases planned : world.store.planUnderLock libraries key stagedId force with
  | mk answer store =>
    simp only [ImportWorld.serve, planned] at answered ⊢
    subst answered
    obtain ⟨rfl, found⟩ | ⟨⟨opSeq, replayed⟩, -⟩ := planUnderLock_eq planned
    · have found := found plan rfl
      cases plan with
      | alreadyCommitted marked transaction =>
        obtain ⟨rfl, -⟩ := planStaged_eq_alreadyCommitted found
        exact preserved.ofPlan _ _ force _ found
      | commit planned => exact ⟨plannedFor_of_plan found, mem_assign.mpr (Or.inl ⟨rfl, rfl⟩)⟩
      | flag flag => trivial
    · cases Except.ok.inj replayed

theorem known_stable {before after : ImportWorld} (keeps : Keeps before.store after.store)
    (same : ∀ stagedId, (owner, stagedId) ∈ after.planned ↔ (owner, stagedId) ∈ before.planned)
    (known : Known ready owner before plan) : Known ready owner after plan := by
  cases plan with
  | alreadyCommitted stagedId transaction => exact preserved.keeps _ _ _ _ keeps known
  | commit planned => exact ⟨known.1.keeps keeps, (same _).mpr known.2⟩
  | flag flag => trivial

theorem secures_call (call : ImportCall) :
    (importDiscipline libraries invariant).Secures condition owner call.program
      ((importDiscipline libraries invariant).opening owner)
      fun value world => (importDiscipline libraries invariant).EndsWell owner world
        ((importing libraries).finish owner value world) := by
  cases call with
  | commitStaged commandMeta stagedId force =>
    refine secures_request (.plan commandMeta.idempotencyKey stagedId force) _
      (fun response world => ∀ plan, response = .ok (.planned plan) → Known ready owner world plan)
      (fun response _ _ keeps same known plan answered =>
        preserved.known_stable keeps same (known plan answered))
      (fun live choice world holds _ meets =>
        ⟨preserved.plan live owner choice _ _ _ world holds meets,
          fun plan answered => preserved.known_of_plan answered⟩) fun response => ?_
    cases response with
    | error error => exact preserved.secures_done
    | ok answer =>
      cases answer with
      | replayed opSeq => exact preserved.secures_done
      | planned plan =>
        exact preserved.secures_carryOut.weaken (fun _ _ known => known plan rfl)
          fun _ _ _ ended => ended
  | skipStaged stagedId =>
    refine preserved.secures_last (.skip stagedId) _ (fun _ choice world holds _ _ => ?_)
      fun response => ⟨_, rfl⟩
    simp only [ImportWorld.serve, ImportWorld.write]
    split
    · next store done => exact preserved.skip world stagedId choice.now store holds done
    · exact holds
  | voidTransaction commandMeta transaction =>
    refine preserved.secures_last (.dispatch commandMeta (.voidTransaction transaction) none) _
      (fun _ _ world holds _ _ => ?_) fun response => ⟨_, rfl⟩
    have dropped := preserved.drop world owner holds
    simp only [ImportWorld.serve]
    split
    · exact dropped
    · split
      · next outcome store done =>
        have nothing : makes world.store store (.voidTransaction transaction) none = [] := rfl
        rw [nothing, List.append_nil]
        obtain ⟨-, rfl⟩ | ⟨written, operations, applied, rfl⟩ := dispatch_eq_ok done
        · exact dropped
        · exact preserved.void _ commandMeta transaction written operations dropped applied
      · exact dropped

theorem holds : (importDiscipline libraries invariant).Holds condition where
  secures call _ := preserved.secures_call call
  opening _ _ _ _ _ _ _ := trivial
  cut _ _ holds := preserved.endsWell holds
  move _ move := move.elim

end Preserved

theorem Preserved.keeps_of_run (preserved : Preserved libraries condition invariant ready)
    {before after : Pool (importing libraries)}
    (sound : (importDiscipline libraries invariant).Sound condition before)
    (run : Relation.ReflTransGen (Follows condition) before after) :
    Keeps before.world.store after.world.store :=
  (relates_of_run (fun before after : ImportWorld => Keeps before.store after.store)
    preserved.holds (fun _ => .refl _) (fun _ _ _ => .trans) (fun _ _ _ _ shown => shown)
    (fun _ _ _ => .refl _) (fun _ _ => .refl _) (fun move _ _ _ => move.elim) sound run).2

end Dohflow.DbWorker
