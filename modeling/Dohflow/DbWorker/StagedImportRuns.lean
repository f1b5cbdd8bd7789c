/-
This file proves that a staged row reaches the ledger at most once, in every run of calls
that decide staged rows, skip them and void transactions.

A planned commit keeps that as long as it is dispatched well, that is, unless the dispatch
does nothing although the row's transaction was not made: because the key ran for something
else, or because another row made a transaction of the same id.
-/

import Dohflow.DbWorker.StagedImportSound

namespace Dohflow.DbWorker

open SyncCore CoreLedger Fallible KeyedTable Program Interleaving

variable {libraries : ImportLibraries}

/-! ### What is left of a call -/

/-- The program dispatches no command. -/
def NeverDispatches {Value : Type} : ImportProgram Value → Prop
  | .done _ => True
  | .ask request next =>
    (∀ commandMeta command stagedId, request ≠ .dispatch commandMeta command stagedId) ∧
      ∀ response, NeverDispatches (next response)

/-- A call that finds its key remembered, or its row's transaction made, goes on without a dispatch,
and marks the row where it found the transaction. -/
def GoesOnMarking : (request : ImportRequest) → (request.Response → ImportProgram ImportValue) → Prop
  | .plan _ _ _, next =>
    (∀ error, NeverDispatches (next (.error error))) ∧
    (∀ opSeq, NeverDispatches (next (.ok (.replayed opSeq)))) ∧
      ∀ stagedId transaction,
        NeverDispatches (next (.ok (.planned (.alreadyCommitted stagedId transaction)))) ∧
          ∃ rest, next (.ok (.planned (.alreadyCommitted stagedId transaction))) =
            .ask (.mark stagedId transaction) rest
  | _, _ => True

def MarksAlone : ImportProgram ImportValue → Prop
  | .done _ => True
  | .ask request next => GoesOnMarking request next ∧ ∀ response, MarksAlone (next response)

theorem marksAlone_carryOut (commandMeta : ImportMeta) (plan : StagedPlan) :
    MarksAlone (Program.bind (carryOut commandMeta plan) fun result => .done (.decided result)) := by
  cases plan with
  | alreadyCommitted stagedId transaction => exact ⟨trivial, fun _ => trivial⟩
  | commit planned =>
    refine ⟨trivial, fun response => ?_⟩
    cases response with
    | error error => trivial
    | ok outcome => exact ⟨trivial, fun _ => trivial⟩
  | flag flag =>
    rw [carryOut]
    split
    · trivial
    · refine ⟨trivial, fun response => ?_⟩
      cases response <;> trivial

theorem marksAlone_program (call : ImportCall) : MarksAlone call.program := by
  cases call with
  | commitStaged commandMeta stagedId force =>
    refine ⟨⟨fun _ => trivial, fun _ => trivial, fun stagedId transaction => ?_⟩, fun response => ?_⟩
    · exact ⟨⟨fun _ _ _ => nofun, fun _ => trivial⟩, _, rfl⟩
    · cases response with
      | error error => trivial
      | ok answer =>
        cases answer with
        | replayed opSeq => trivial
        | planned plan => exact marksAlone_carryOut commandMeta plan
  | skipStaged stagedId => exact ⟨trivial, fun _ => trivial⟩
  | voidTransaction commandMeta transaction => exact ⟨trivial, fun _ => trivial⟩

/-! ### At most once -/

/-- What is asked of the state that a run reaches. -/
structure ImportsOnce (libraries : ImportLibraries) (pool : Pool (importing libraries)) : Prop where
  /-- At most one transaction was ever made from a staged row. -/
  once : (pool.world.made.map Prod.fst).Nodup
  /-- A transaction that is voided stays voided. -/
  staysVoided : ∀ later, Relation.ReflTransGen (Follows (careful libraries)) pool later →
    ∀ transaction, pool.world.store.voided transaction = true →
      later.world.store.voided transaction = true
  /-- A row is marked committed only when a transaction made from its own record exists. -/
  marked : ∀ row ∈ pool.world.store.staged.rows, row.commitStatus = .committed →
    Marked pool.world.store row
  /-- Deciding a row whose transaction exists finishes its marking and dispatches nothing. -/
  finishes : ∀ owner key stagedId force row batch transaction choice after,
    pool.asks owner = some (.plan key stagedId force) →
    Planning pool.world.store stagedId row batch transaction →
    pool.world.store.madeFrom transaction row.sourceRecordId = true →
    pool.step (.serve owner choice) = some after →
    (∀ program, after.calls owner = some program → NeverDispatches program) ∧
      (after.asks owner = some (.mark stagedId transaction) ∨
        MarkedWith after.world.store stagedId transaction)
  /-- A planned commit is accepted on the tables it was planned on, unless the row's amount is the
  one that has no negation. -/
  accepted : ∀ stagedId force planned row commandMeta,
    pool.world.store.planStaged libraries stagedId force = .ok (.commit planned) →
    pool.world.store.staged.find stagedId = some row →
    ((∃ after, pool.world.store.applyCommitImportedTransaction libraries commandMeta
      planned.command = .ok after) ↔ row.amountMinor ≠ Int64.minValue)

theorem finishes_plan {pool after : Pool (importing libraries)} {owner : Nat} {key : String}
    {stagedId batch : Uuid} {force : Bool} {row : StagedTransaction} {transaction : TransactionId}
    {choice : ImportChoice} (sound : ImportSound pool.world)
    (programs : ∀ owner program, pool.calls owner = some program → MarksAlone program)
    (asks : pool.asks owner = some (.plan key stagedId force))
    (planning : Planning pool.world.store stagedId row batch transaction)
    (made : pool.world.store.madeFrom transaction row.sourceRecordId = true)
    (taken : pool.step (.serve owner choice) = some after) :
    (∀ program, after.calls owner = some program → NeverDispatches program) ∧
      (after.asks owner = some (.mark stagedId transaction) ∨
        MarkedWith after.world.store stagedId transaction) := by
  have present := sound.consistent.exists_of_madeFrom made
  have plan : pool.world.store.planStaged libraries stagedId force =
      .ok (.alreadyCommitted stagedId transaction) := planStaged_of_made planning present made
  cases running : pool.calls owner with
  | none => simp [Pool.asks, running] at asks
  | some program =>
    cases program with
    | done value => simp [Pool.asks, running] at asks
    | ask request next =>
      simp only [Pool.asks, running, Option.some.injEq] at asks
      subst asks
      obtain ⟨-, replaying, marking⟩ := (programs owner _ running).1
      obtain ⟨alone, rest, marks⟩ := marking stagedId transaction
      simp only [Pool.step, running, Option.map_eq_some_iff] at taken
      obtain ⟨served, answered, rfl⟩ := taken
      obtain rfl := Option.some.inj answered
      simp only [ImportWorld.serve, ImportStore.planUnderLock, plan]
      cases pool.world.store.findByIdempotencyKey key with
      | none =>
        refine ⟨fun program same => ?_, Or.inl ?_⟩
        · rw [Function.update_self] at same
          rw [← Option.some.inj same]
          exact alone
        · simp only [Pool.asks, Function.update_self, Except.map, marks]
      | some opSeq =>
        refine ⟨fun program same => ?_, Or.inr ?_⟩
        · rw [Function.update_self] at same
          rw [← Option.some.inj same]
          exact replaying opSeq
        · obtain ⟨-, named⟩ := Table.find_eq_some_iff.mp planning.found
          refine ⟨{ row with
            commitStatus := .committed, dedupeStatus := .unique
            committedTransactionId := some transaction }, ?_, rfl, rfl⟩
          dsimp only
          rw [ImportStore.markStagedCommitted, find_setStaged, planning.found, Option.map_some,
            if_pos named]

/-- A staged row reaches the ledger at most once, in every run that dispatches its commits well. -/
theorem staged_rows_import_once {store : ImportStore} {pool : Pool (importing libraries)}
    (consistent : Consistent store)
    (reached : Reaches (careful libraries) (.opened store) pool) : ImportsOnce libraries pool := by
  have sound := sound_of_reaches preserved_careful.holds (ImportSound.opened consistent)
    (fun _ => trivial) reached
  have programs := calls_of_reaches MarksAlone marksAlone_program
    (fun _ _ response alone => alone.2 response) reached
  exact {
    once := sound.invariant.once
    staysVoided := fun later run transaction => (preserved_careful.keeps_of_run sound run).voided transaction
    marked := sound.invariant.consistent.marked
    finishes := fun owner key stagedId force row batch transaction choice after asks planning made =>
      finishes_plan sound.invariant programs asks planning made
    accepted := fun stagedId force planned row commandMeta plan found => by
      obtain ⟨other, batch, transaction, target, planning, absent, committing⟩ :=
        planStaged_eq_commit plan
      obtain rfl := Option.some.inj (planning.found.symm.trans found)
      exact planned_accepted_iff planning committing
        (sound.invariant.consistent.unwritten absent) }

/-! ### Runs on one day -/

def sampleId (byte : UInt8) : Uuid := .replicate 16 byte

/-- Dates as the code reads and writes them, around noon of one day. -/
def importLibraries : ImportLibraries where
  parseRfc3339 _ := none
  noonOf _ := 1767614400
  parseDate text := if text = "2026-01-05" then some ⟨2026, 1, 5⟩ else none
  yearOf instant := 1970 + instant / 31556952
  dateText _ := "2026-01-05"
  systemAccountId role _ := sampleId (if role = "unmatched_income" then 101 else 102)

/-- A row that spends an amount of an account. -/
def sampleRow (id record : UInt8) (amount : Int64) (fingerprint : String) (ordinal : Int64) :
    StagedTransaction where
  id := sampleId id
  sourceRecordId := sampleId record
  proposedAccountId := some (sampleId 1)
  postedAt := "2026-01-05"
  transactionDate := none
  amountMinor := amount
  currency := "USD"
  normalizedMerchant := some "Market"
  description := none
  importedCategory := none
  txnFingerprint := fingerprint
  dedupeStatus := .pending
  commitStatus := .staged
  committedTransactionId := none
  createdAt := "2026-01-06T09:00:00Z"
  rowOrdinal := some ordinal

/-- One account, two batches of one source with a record each, and two staged rows. -/
def importStore (first second : StagedTransaction) (distinct : [first.id, second.id].Nodup) :
    ImportStore where
  accounts := ⟨[⟨sampleId 1, sampleId 2, "USD"⟩], by decide⟩
  categories := .empty
  systemAccounts := []
  batches := ⟨[⟨sampleId 3, "csv", none⟩, ⟨sampleId 4, "csv", none⟩], by decide⟩
  records := ⟨[⟨sampleId 5, sampleId 3⟩, ⟨sampleId 6, sampleId 4⟩], by decide⟩
  staged := ⟨[first, second], distinct⟩
  transactions := .empty
  provenance := .empty
  details := []
  categorizations := .empty
  decisions := .empty
  operations := []

theorem consistent_importStore {first second : StagedTransaction}
    {distinct : [first.id, second.id].Nodup} (firstOpen : first.commitStatus = .staged)
    (secondOpen : second.commitStatus = .staged) :
    Consistent (importStore first second distinct) where
  linked _ member := by cases member
  decided _ member := by cases member
  marked row member committed := by
    obtain rfl | member := List.mem_cons.mp member
    · rw [firstOpen] at committed
      cases committed
    · obtain rfl := List.mem_singleton.mp member
      rw [secondOpen] at committed
      cases committed

/-- Two purchases, in a batch each. -/
def twoPurchases : ImportStore :=
  importStore (sampleRow 7 5 (-1250) "coffee" 1) (sampleRow 8 6 (-300) "bread" 1) (by decide)

def importMeta (command : UInt8) (key : String) : ImportMeta :=
  ⟨sampleId command, key, "2026-01-06T10:00:00Z"⟩

def commits (command : UInt8) (key : String) (row : UInt8) : Event (importing importLibraries) :=
  .start (.commitStaged (importMeta command key) (sampleId row) false)

def serves (owner : Nat) : Event (importing importLibraries) :=
  .serve owner ⟨false, "2026-01-06T10:00:00Z"⟩

/-- Every commit of the run is dispatched well. -/
def passesCarefully (pool : Pool (importing importLibraries)) :
    Event (importing importLibraries) → Bool
  | .serve owner _ =>
    match pool.asks owner with
    | some (.dispatch commandMeta (.commitImported command) _) =>
      decide (DispatchedWell pool.world.store commandMeta command)
    | _ => true
  | _ => true

theorem careful_of_passesCarefully (pool : Pool (importing importLibraries))
    (event : Event (importing importLibraries)) (passes : passesCarefully pool event = true) :
    (careful importLibraries).Meets pool event := by
  cases event with
  | serve owner choice =>
    rintro request next running commandMeta command stagedId rfl
    rw [passesCarefully, Pool.asks, running] at passes
    exact of_decide_eq_true passes
  | move move => exact move.elim
  | _ => trivial

/-- What a run from the tables reaches. -/
def importedBy (store : ImportStore) (events : List (Event (importing importLibraries))) :
    Pool (importing importLibraries) :=
  ((Pool.quiet (ImportWorld.opened store)).run events).getD (.quiet (ImportWorld.opened store))

/-- Each of the two purchases is decided, marked, and decided once more. -/
def bothImported : List (Event (importing importLibraries)) :=
  [commits 10 "first" 7, serves 0, serves 0, serves 0,
    commits 11 "second" 8, serves 1, serves 1, serves 1, commits 12 "third" 7, serves 2]

theorem staged_rows_import_once_sample :
    ∃ pool, ImportsOnce importLibraries pool ∧ pool.world.made.length = 2 := by
  have ran := eq_some_getD (by decide +kernel :
    ((Pool.quiet (ImportWorld.opened twoPurchases)).run bothImported).isSome = true)
    (.quiet (ImportWorld.opened twoPurchases))
  exact ⟨importedBy twoPurchases bothImported, staged_rows_import_once
    (consistent_importStore rfl rfl)
    (reaches_of_run careful_of_passesCarefully .refl (by decide +kernel) ran), by decide +kernel⟩

/-- The commit that was planned, if one was. -/
def plannedCommit : Except ImportError StagedPlan → Option PlannedCommit
  | .ok (.commit planned) => some planned
  | _ => none

theorem plannedCommit_eq_some {plan : Except ImportError StagedPlan} {planned : PlannedCommit}
    (found : plannedCommit plan = some planned) : plan = .ok (.commit planned) := by
  unfold plannedCommit at found
  split at found
  · rw [Option.some.inj found]
  · cases found

/-- Two rows of which one spends the least amount. -/
def leastPurchase : ImportStore :=
  importStore (sampleRow 7 5 Int64.minValue "coffee" 1) (sampleRow 8 6 (-300) "bread" 1)
    (by decide)

/-- Both rows are planned before either is dispatched, with one key: the second is marked. -/
def oneKeyTwice : List (Event (importing importLibraries)) :=
  [commits 10 "first" 7, commits 11 "first" 8, serves 0, serves 1, serves 0, serves 1, serves 1]

/-- A planned commit is refused, and a row is marked whose transaction was never made. -/
theorem least_amount_refused_and_unmade_row_marked :
    (∃ planned, leastPurchase.planStaged importLibraries (sampleId 7) false =
        .ok (.commit planned) ∧
      leastPurchase.applyCommitImportedTransaction importLibraries (importMeta 10 "first")
        planned.command = .error (.money .overflow)) ∧
    ∃ pool : Pool (importing importLibraries),
      Reaches Condition.anything (ImportWorld.opened twoPurchases) pool ∧
      ∃ row ∈ pool.world.store.staged.rows, row.commitStatus = .committed ∧
        ¬ Marked pool.world.store row := by
  have ran := eq_some_getD (by decide +kernel :
    ((Pool.quiet (ImportWorld.opened twoPurchases)).run oneKeyTwice).isSome = true)
    (.quiet (ImportWorld.opened twoPurchases))
  refine ⟨?_, importedBy twoPurchases oneKeyTwice, ?_, ?_⟩
  · obtain ⟨planned, found, refused⟩ := (Option.any_eq_true _ _).mp (by decide +kernel :
      (plannedCommit (leastPurchase.planStaged importLibraries (sampleId 7) false)).any
        (fun planned => leastPurchase.applyCommitImportedTransaction importLibraries
          (importMeta 10 "first") planned.command = .error (.money .overflow)) = true)
    exact ⟨planned, plannedCommit_eq_some found, of_decide_eq_true refused⟩
  · have passes : (Pool.quiet (ImportWorld.opened twoPurchases)).passes (fun _ _ => true)
        oneKeyTwice = true := by decide +kernel
    exact reaches_of_run (fun _ _ _ => Condition.meets_anything _ _) .refl passes ran
  · obtain ⟨row, found, wrong⟩ := (Option.any_eq_true _ _).mp (by decide +kernel :
      ((importedBy twoPurchases oneKeyTwice).world.store.staged.find (sampleId 8)).any (fun row =>
        row.commitStatus = .committed ∧ row.committedTransactionId.any fun transaction =>
          ¬ (importedBy twoPurchases oneKeyTwice).world.store.exists? transaction) = true)
    obtain ⟨committed, missing⟩ := of_decide_eq_true wrong
    refine ⟨row, (Table.find_eq_some_iff.mp found).1, committed, ?_⟩
    rintro ⟨transaction, named, present, -⟩
    rw [named, Option.any_some, decide_eq_true_eq] at missing
    exact missing present

end Dohflow.DbWorker
