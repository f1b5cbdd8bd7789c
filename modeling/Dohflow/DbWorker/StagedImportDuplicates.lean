/-
This file proves when unforced imports make no second transaction of a known one.

The planner looks for a committed twin of its row: a staged row with the same fingerprint
and the same proposed account. It sees only rows that are marked, while a transaction
exists before its row is marked. So a run makes no duplicate as long as a row is planned
only when every live transaction of a twin is marked on the twin, and when no twin is
planned by a call in flight (`PlannedAlone`).

A row that is not decided is read by no call, so all rows are staged from the start.
-/

import Dohflow.DbWorker.StagedImportRuns

namespace Dohflow.DbWorker

open SyncCore CoreLedger Fallible KeyedTable Program Interleaving

variable {libraries : ImportLibraries} {store before after : ImportStore}

/-! ### Twins -/

/-- Staged rows with one fingerprint and one proposed account. -/
def Twins (store : ImportStore) (first second : Uuid) : Prop :=
  ∃ row other, store.staged.find first = some row ∧ store.staged.find second = some other ∧
    other.txnFingerprint = row.txnFingerprint ∧ other.proposedAccountId = row.proposedAccountId

namespace Twins

variable {first second : Uuid}

theorem symm (twins : Twins store first second) : Twins store second first := by
  obtain ⟨row, other, found, foundOther, fingerprint, account⟩ := twins
  exact ⟨other, row, foundOther, found, fingerprint.symm, account.symm⟩

/-- Rows are twins from the start. -/
theorem earlier (twins : Twins after first second) (keeps : Keeps before after) :
    Twins before first second := by
  obtain ⟨row, other, found, foundOther, fingerprint, account⟩ := twins
  obtain ⟨old, foundOld, same⟩ := keeps.row_before found
  obtain ⟨oldOther, foundOldOther, sameOther⟩ := keeps.row_before foundOther
  have prints := congrArg StagedTransaction.txnFingerprint same
  have otherPrints := congrArg StagedTransaction.txnFingerprint sameOther
  have accounts := congrArg StagedTransaction.proposedAccountId same
  have otherAccounts := congrArg StagedTransaction.proposedAccountId sameOther
  exact ⟨old, oldOther, foundOld, foundOldOther,
    otherPrints.trans (fingerprint.trans prints.symm),
    otherAccounts.trans (account.trans accounts.symm)⟩

end Twins

theorem no_committed_twin {stagedId twin : Uuid} {planned : PlannedCommit} {row : StagedTransaction}
    (plan : store.planStaged libraries stagedId false = .ok (.commit planned))
    (different : twin ≠ stagedId) (twins : Twins store stagedId twin)
    (found : store.staged.find twin = some row) : store.countsCommitted row = false := by
  obtain ⟨own, batch, transaction, target, planning, -, committing⟩ := planStaged_eq_commit plan
  obtain ⟨first, second, foundFirst, foundSecond, fingerprint, account⟩ := twins
  obtain rfl := Option.some.inj (foundFirst.symm.trans planning.found)
  obtain rfl := Option.some.inj (foundSecond.symm.trans found)
  obtain ⟨member, named⟩ := Table.find_eq_some_iff.mp found
  obtain ⟨-, namedOwn⟩ := Table.find_eq_some_iff.mp planning.found
  have fresh := committing.fresh
  rw [ImportStore.duplicateReason, if_neg Bool.false_ne_true] at fresh
  cases matched : store.committedFingerprintMatch first.txnFingerprint first.proposedAccountId
      first.id with
  | some transaction =>
    simp only [matched] at fresh
    cases Except.ok.inj fresh
  | none =>
    exact committedFingerprintMatch_eq_none matched member
      (fun same => different (named.symm.trans (same.trans namedOwn))) fingerprint account

/-! ### Runs without force -/

/-- Whatever was made of the row's twins is voided or marked on the twin, and no twin is planned by
a call in flight. -/
def PlannedAlone (world : ImportWorld) (stagedId : Uuid) : Prop :=
  (∀ pair ∈ world.made, pair.1 ≠ stagedId → Twins world.store stagedId pair.1 →
    world.store.voided pair.2 = false → MarkedWith world.store pair.1 pair.2) ∧
  ∀ pair ∈ world.planned, Twins world.store stagedId pair.2 → pair.2 = stagedId

/-- Every row is planned without force. -/
def unforced (libraries : ImportLibraries) : Condition (importing libraries) where
  serve _ _ _ request _ := ∀ key stagedId force, request = .plan key stagedId force → force = false
  move _ _ _ := True

/-- Every row is planned without force, and alone. -/
def unforcedAlone (libraries : ImportLibraries) : Condition (importing libraries) where
  serve _ _ _ request world := ∀ key stagedId force, request = .plan key stagedId force →
    force = false ∧ PlannedAlone world stagedId
  move _ _ _ := True

/-- Of twins at most one has a transaction that is not voided; a row that is planned has no twin that
has one, or that is planned itself. -/
structure Apart (world : ImportWorld) : Prop where
  derived : ∀ pair ∈ world.made, ∃ row batch, world.store.staged.find pair.1 = some row ∧
    world.store.transactionIdOf row = .ok (batch, pair.2)
  quiet : ∀ call ∈ world.planned, ∀ pair ∈ world.made, pair.1 ≠ call.2 →
    Twins world.store call.2 pair.1 → world.store.voided pair.2 = true
  alone : ∀ call ∈ world.planned, ∀ other ∈ world.planned, Twins world.store call.2 other.2 →
    other.2 = call.2
  once : ∀ first ∈ world.made, ∀ second ∈ world.made, first.1 ≠ second.1 →
    Twins world.store first.1 second.1 →
    world.store.voided first.2 = true ∨ world.store.voided second.2 = true

namespace Apart

variable {world : ImportWorld} {planned : List (Nat × Uuid)} {owner : Nat}

theorem opened : Apart (.opened store) where
  derived _ member := by cases member
  quiet _ member := by cases member
  alone _ member := by cases member
  once _ member := by cases member

/-- A step that makes nothing and plans nothing. -/
theorem keep (apart : Apart world) (keeps : Keeps world.store after)
    (fewer : ∀ call ∈ planned, call ∈ world.planned) :
    Apart { world with store := after, planned } where
  derived pair member := by
    obtain ⟨row, batch, found, derived⟩ := apart.derived pair member
    obtain ⟨now, foundAfter, same⟩ := keeps.row found
    exact ⟨now, batch, foundAfter, (keeps.transactionIdOf same).trans derived⟩
  quiet call named pair member different twins := keeps.voided _
    (apart.quiet call (fewer call named) pair member different (twins.earlier keeps))
  alone call named other namedOther twins := apart.alone call (fewer call named) other
    (fewer other namedOther) (twins.earlier keeps)
  once first member second memberSecond different twins :=
    (apart.once first member second memberSecond different (twins.earlier keeps)).imp
      (keeps.voided _) (keeps.voided _)

theorem fewer_assign_none : ∀ call ∈ assign world.planned owner none, call ∈ world.planned := by
  rintro ⟨other, stagedId⟩ member
  obtain ⟨-, missing⟩ | ⟨-, held⟩ := mem_assign.mp member
  · cases missing
  · exact held

theorem mem_assign_some {stagedId : Uuid} {call : Nat × Uuid}
    (member : call ∈ assign world.planned owner (some stagedId)) :
    call.2 = stagedId ∨ call ∈ world.planned := by
  obtain ⟨other, otherId⟩ := call
  obtain ⟨-, own⟩ | ⟨-, held⟩ := mem_assign.mp member
  · exact Or.inl (Option.some.inj own).symm
  · exact Or.inr held

/-- A row is planned, alone. -/
theorem plan {stagedId : Uuid} {plannedRow : PlannedCommit} (apart : Apart world)
    (alone : PlannedAlone world stagedId)
    (plan : world.store.planStaged libraries stagedId false = .ok (.commit plannedRow)) :
    Apart { world with planned := assign world.planned owner (some stagedId) } where
  derived := apart.derived
  once := apart.once
  quiet call named pair member different twins := by
    obtain own | held := mem_assign_some named
    · rw [own] at different twins
      by_contra live
      rw [Bool.not_eq_true] at live
      obtain ⟨row, found, committed, marked⟩ := alone.1 pair member different twins live
      have counts := no_committed_twin plan different twins found
      have counted : world.store.countsCommitted row = true := by
        rw [ImportStore.countsCommitted, committed, marked]
        simp only [Option.any_some, live, Bool.not_false, and_self, decide_true]
      rw [counts] at counted
      cases counted
    · exact apart.quiet call held pair member different twins
  alone call named other namedOther twins := by
    obtain own | held := mem_assign_some named
    · rw [own] at twins ⊢
      obtain ownOther | heldOther := mem_assign_some namedOther
      · exact ownOther
      · exact alone.2 other heldOther twins
    · obtain ownOther | heldOther := mem_assign_some namedOther
      · rw [ownOther] at twins ⊢
        exact (alone.2 call held twins.symm).symm
      · exact apart.alone call held other heldOther twins

theorem make {plannedRow : PlannedCommit} (apart : Apart world)
    (keeps : Keeps world.store after) (plannedFor : PlannedFor world.store plannedRow)
    (own : (owner, plannedRow.stagedId) ∈ world.planned) :
    Apart { world with
      store := after, planned := assign world.planned owner none
      made := world.made ++ [(plannedRow.stagedId, plannedRow.transactionId)] } := by
  have rest : Apart { world with store := after, planned := assign world.planned owner none } :=
    apart.keep keeps fewer_assign_none
  -- What was made of a twin of the row is voided.
  have voided : ∀ pair ∈ world.made, pair.1 ≠ plannedRow.stagedId →
      Twins after plannedRow.stagedId pair.1 → after.voided pair.2 = true :=
    fun pair member different twins => keeps.voided _
      (apart.quiet _ own pair member different (twins.earlier keeps))
  refine ⟨fun pair member => ?_, fun call named pair member different twins => ?_,
    rest.alone, fun first member second memberSecond different twins => ?_⟩
  · obtain old | new := List.mem_append.mp member
    · exact rest.derived pair old
    · obtain rfl := List.mem_singleton.mp new
      obtain ⟨-, row, batch, found, derived, -⟩ := plannedFor.keeps keeps
      exact ⟨row, batch, found, derived⟩
  · obtain old | new := List.mem_append.mp member
    · exact rest.quiet call named pair old different twins
    · obtain rfl := List.mem_singleton.mp new
      exact absurd (apart.alone call (fewer_assign_none call named) _ own (twins.earlier keeps))
        different
  · obtain old | new := List.mem_append.mp member
    · obtain oldSecond | newSecond := List.mem_append.mp memberSecond
      · exact rest.once first old second oldSecond different twins
      · obtain rfl := List.mem_singleton.mp newSecond
        exact Or.inl (voided first old different twins.symm)
    · obtain rfl := List.mem_singleton.mp new
      obtain oldSecond | newSecond := List.mem_append.mp memberSecond
      · exact Or.inr (voided second oldSecond (Ne.symm different) twins)
      · obtain rfl := List.mem_singleton.mp newSecond
        exact absurd rfl different

end Apart

variable (pool : Pool (importing importLibraries)) (event : Event (importing importLibraries))
  {stagedId : Uuid}

theorem toCommit_of_plan {key : String} {force : Bool} {answer : Except ImportError Planned}
    (served : store.planUnderLock libraries key stagedId force = (answer, after)) :
    toCommit answer = none ∨ toCommit answer = some stagedId ∧ after = store ∧
      ∃ planned, store.planStaged libraries stagedId force = .ok (.commit planned) := by
  obtain ⟨rfl, found⟩ | ⟨⟨opSeq, rfl⟩, -⟩ := planUnderLock_eq served
  · unfold toCommit
    split
    · next planned =>
      obtain ⟨row, batch, transaction, target, planning, -, committing⟩ :=
        planStaged_eq_commit (found _ rfl)
      refine Or.inr ⟨?_, rfl, planned, found _ rfl⟩
      rw [committing.planned, (Table.find_eq_some_iff.mp planning.found).2]
    · exact Or.inl rfl
  · exact Or.inl rfl

theorem preserved_unforcedAlone :
    Preserved libraries (unforcedAlone libraries) Apart fun _ _ _ => True where
  keeps _ _ _ _ _ ready := ready
  ofPlan _ _ _ _ _ := trivial
  plan live owner choice key stagedId force world apart meets := by
    obtain ⟨rfl, alone⟩ := meets key stagedId force rfl
    cases planned : world.store.planUnderLock libraries key stagedId false with
    | mk answer store =>
      simp only [ImportWorld.serve, planned]
      obtain none | ⟨some, rfl, plannedRow, found⟩ := toCommit_of_plan planned
      · rw [none]
        refine apart.keep ?_ Apart.fewer_assign_none
        obtain ⟨rfl, -⟩ | ⟨-, transaction, -, rfl⟩ := planUnderLock_eq planned
        · exact .refl _
        · exact keeps_markStagedCommitted _ _ _
      · rw [some]
        exact apart.plan alone found
  dispatch live owner choice commandMeta planned world apart plannedFor own meets outcome after
      done := by
    refine ⟨trivial, ?_⟩
    obtain ⟨operations, ⟨-, rfl⟩ | ⟨written, made, rfl⟩⟩ := dispatch_commit_eq_ok done
    · rw [makes_of_same, List.append_nil]
      exact apart.keep (keeps_operations _ _) Apart.fewer_assign_none
    · rw [makes_of_made made, plannedFor.1]
      exact apart.make (made.keeps.trans (keeps_operations _ _)) plannedFor own
  mark _ _ _ apart _ := apart.keep (keeps_markStagedCommitted _ _ _) fun _ => id
  recordFlag _ _ _ _ apart done := apart.keep (keeps_recordFlag done) fun _ => id
  skip _ _ _ _ apart done := apart.keep (keeps_skipStaged done) fun _ => id
  void _ _ _ _ operations apart done := apart.keep
    ((keeps_applyVoidTransaction done).trans (keeps_operations _ operations)) fun _ => id
  drop _ _ apart := apart.keep (.refl _) Apart.fewer_assign_none

/-- Two rows of one purchase, in two batches. -/
def onePurchaseTwice : ImportStore :=
  importStore (sampleRow 7 5 (-1250) "coffee" 1) (sampleRow 8 6 (-1250) "coffee" 1) (by decide)

instance (store : ImportStore) (first second : Uuid) : Decidable (Twins store first second) :=
  decidable_of_iff
    ((store.staged.find first).any fun row => (store.staged.find second).any fun other =>
      other.txnFingerprint = row.txnFingerprint ∧
        other.proposedAccountId = row.proposedAccountId) <| by
    simp [Twins, Option.any_eq_true]

instance (store : ImportStore) (stagedId : Uuid) (transaction : TransactionId) :
    Decidable (MarkedWith store stagedId transaction) :=
  decidable_of_iff
    ((store.staged.find stagedId).any fun row =>
      row.commitStatus = .committed ∧ row.committedTransactionId = some transaction) <| by
    simp [MarkedWith, Option.any_eq_true]

instance (world : ImportWorld) (stagedId : Uuid) : Decidable (PlannedAlone world stagedId) := by
  unfold PlannedAlone
  infer_instance

/-- Whether the row is planned alone. -/
def isAlone (world : ImportWorld) (stagedId : Uuid) : Bool := decide (PlannedAlone world stagedId)

theorem plannedAlone_of_isAlone {world : ImportWorld} (alone : isAlone world stagedId = true) :
    PlannedAlone world stagedId :=
  of_decide_eq_true alone

/-- Every row of the run is planned without force, and alone. -/
def passesAlone (pool : Pool (importing importLibraries)) :
    Event (importing importLibraries) → Bool
  | .serve owner _ =>
    match pool.asks owner with
    | some (.plan _ stagedId force) => !force && isAlone pool.world stagedId
    | _ => true
  | _ => true

theorem alone_of_passesAlone (passes : passesAlone pool event = true) :
    (unforcedAlone importLibraries).Meets pool event := by
  cases event with
  | serve owner choice =>
    rintro request next running key stagedId force rfl
    rw [passesAlone, Pool.asks, running, Bool.and_eq_true, Bool.not_eq_true'] at passes
    exact ⟨passes.1, plannedAlone_of_isAlone passes.2⟩
  | move move => exact move.elim
  | _ => trivial

/-- The first row is committed and marked before the second is decided. -/
def oneAfterTheOther : List (Event (importing importLibraries)) :=
  [commits 10 "first" 7, serves 0, serves 0, serves 0, commits 11 "second" 8, serves 1, serves 1]

/-- Every row of the run is planned without force. -/
def passesUnforced (pool : Pool (importing importLibraries)) :
    Event (importing importLibraries) → Bool
  | .serve owner _ =>
    match pool.asks owner with
    | some (.plan _ _ force) => !force
    | _ => true
  | _ => true

theorem unforced_of_passesUnforced (passes : passesUnforced pool event = true) :
    (unforced importLibraries).Meets pool event := by
  cases event with
  | serve owner choice =>
    rintro request next running key stagedId force rfl
    rw [passesUnforced, Pool.asks, running, Bool.not_eq_true'] at passes
    exact passes
  | move move => exact move.elim
  | _ => trivial

/-- The first call is cut off before it marks its row. -/
def cutBeforeMark : List (Event (importing importLibraries)) :=
  [commits 10 "first" 7, serves 0, serves 0, .cut 0,
    commits 11 "second" 8, serves 1, serves 1, serves 1]

end Dohflow.DbWorker
