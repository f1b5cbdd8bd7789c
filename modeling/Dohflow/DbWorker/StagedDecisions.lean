/-
This file proves when a staged row can be decided again.

Each decision is recorded under an id made of the row and the verdict, so a verdict is
recorded once. A row that is flagged already is not flagged again, nor is a skipped one
skipped again; but a row may be flagged, skipped and then found to be a duplicate once more,
or skipped, flagged and then skipped once more. Then the record of the earlier verdict is in
the way. Every other call goes through or fails as documented, and a call that fails leaves
the row and its decisions as they were.
-/

import Dohflow.DbWorker.StagedImportRuns

namespace Dohflow.DbWorker

open SyncCore CoreLedger Fallible KeyedTable Program Interleaving

variable {libraries : ImportLibraries} {store after : ImportStore} {id : Uuid}
variable (commandMeta : ImportMeta)

/-! ### Calls on one row -/

/-- A call on a staged row. -/
inductive RowCall
  | commit (commandMeta : ImportMeta) (force : Bool)
  | skip

def RowCall.on (id : Uuid) : RowCall → ImportCall
  | .commit commandMeta force => .commitStaged commandMeta id force
  | .skip => .skipStaged id

/-- A call with no other in between, from its first request to its end. -/
def ImportWorld.alone (libraries : ImportLibraries) (world : ImportWorld) (choice : ImportChoice)
    (call : ImportCall) : ImportValue × ImportWorld :=
  call.program.runWith (fun request world => world.serve libraries 0 choice request) world

/-- The error that a call ends with. -/
def ImportValue.failure : ImportValue → Option ImportError
  | .decided (.error error) => some error
  | .skipped (.error error) => some error
  | .voided (.error error) => some error
  | _ => none

/-- How a commit of a row ends: with an error or none, and the tables after it. -/
inductive CommitEnds (libraries : ImportLibraries) (store : ImportStore) (choice : ImportChoice)
    (commandMeta : ImportMeta) (id : Uuid) (force : Bool) :
    Option ImportError → ImportStore → Prop
  | replayed (remembered : (store.findByIdempotencyKey commandMeta.idempotencyKey).isSome) :
    CommitEnds libraries store choice commandMeta id force none store
  | marked {transaction : TransactionId}
    (planned : store.planStaged libraries id force = .ok (.alreadyCommitted id transaction)) :
    CommitEnds libraries store choice commandMeta id force none
      (store.markStagedCommitted id transaction)
  | refused {error : ImportError} (planned : store.planStaged libraries id force = .error error) :
    CommitEnds libraries store choice commandMeta id force (some error) store
  | unavailable {commit : PlannedCommit}
    (planned : store.planStaged libraries id force = .ok (.commit commit))
    (refuses : choice.refuses = true) :
    CommitEnds libraries store choice commandMeta id force (some .unavailable) store
  | failed {commit : PlannedCommit} {error : ImportError}
    (planned : store.planStaged libraries id force = .ok (.commit commit))
    (failed : store.dispatch libraries commandMeta (.commitImported commit.command) =
      .error error) :
    CommitEnds libraries store choice commandMeta id force (some error) store
  | committed {commit : PlannedCommit} {outcome : Outcome} {written : ImportStore}
    (planned : store.planStaged libraries id force = .ok (.commit commit))
    (done : store.dispatch libraries commandMeta (.commitImported commit.command) =
      .ok (outcome, written)) :
    CommitEnds libraries store choice commandMeta id force none
      (written.markStagedCommitted commit.stagedId commit.transactionId)
  | standing {flag : PlannedFlag}
    (planned : store.planStaged libraries id force = .ok (.flag flag))
    (already : flag.alreadyFlagged = true) :
    CommitEnds libraries store choice commandMeta id force none store
  | flagged {flag : PlannedFlag} {written : ImportStore}
    (fresh : store.findByIdempotencyKey commandMeta.idempotencyKey = none)
    (planned : store.planStaged libraries id force = .ok (.flag flag))
    (new : flag.alreadyFlagged = false)
    (done : store.recordFlag commandMeta flag = .ok written) :
    CommitEnds libraries store choice commandMeta id force none written
  | conflicted {flag : PlannedFlag} {error : ImportError}
    (fresh : store.findByIdempotencyKey commandMeta.idempotencyKey = none)
    (planned : store.planStaged libraries id force = .ok (.flag flag))
    (new : flag.alreadyFlagged = false)
    (conflict : store.recordFlag commandMeta flag = .error error) :
    CommitEnds libraries store choice commandMeta id force (some error) store

theorem runWith_ask {world : ImportWorld} {choice : ImportChoice} {request : ImportRequest}
    {next : request.Response → ImportProgram ImportValue} {response : request.Response}
    {served : ImportWorld} (serves : world.serve libraries 0 choice request = (response, served)) :
    (Program.ask request next).runWith
        (fun request world => world.serve libraries 0 choice request) world =
      (next response).runWith (fun request world => world.serve libraries 0 choice request)
        served := by
  rw [Program.runWith, serves]

/-- What a commit goes on with when its row is planned. -/
def goOn (commandMeta : ImportMeta) : Except ImportError Planned → ImportProgram ImportValue
  | .error error => .done (.decided (.error error))
  | .ok (.replayed opSeq) => .done (.decided (.ok (.committed (.replayed opSeq))))
  | .ok (.planned plan) =>
    Program.bind (carryOut commandMeta plan) fun result => .done (.decided result)

theorem program_commitStaged (id : Uuid) (force : Bool) :
    (ImportCall.commitStaged commandMeta id force).program =
      .ask (.plan commandMeta.idempotencyKey id force) (goOn commandMeta) := by
  refine congrArg (Program.ask _) (funext fun answer => ?_)
  rcases answer with error | opSeq | plan
  · rfl
  · rfl
  · rfl

/-- What a commit goes on with when its command is dispatched. -/
def afterDispatch (commit : PlannedCommit) : Except ImportError Outcome → ImportProgram ImportValue
  | .error error => .done (.decided (.error error))
  | .ok outcome =>
    .ask (.mark commit.stagedId commit.transactionId) fun _ =>
      .done (.decided (.ok (.committed outcome)))

theorem goOn_commit (commit : PlannedCommit) :
    goOn commandMeta (.ok (.planned (.commit commit))) =
      .ask (.dispatch commandMeta (.commitImported commit.command) (some commit.stagedId))
        (afterDispatch commit) := by
  refine congrArg (Program.ask _) (funext fun answer => ?_)
  rcases answer with error | outcome
  · rfl
  · rfl

/-- What a commit goes on with when its row is flagged. -/
def afterFlag (answer : Except ImportError Unit) : ImportProgram ImportValue :=
  .done (.decided (answer.map fun _ => .flagged))

theorem goOn_flag (flag : PlannedFlag) :
    goOn commandMeta (.ok (.planned (.flag flag))) =
      if flag.alreadyFlagged then .done (.decided (.ok .flagged))
      else .ask (.recordFlag commandMeta flag) afterFlag := by
  unfold goOn carryOut
  dsimp only
  split
  · rfl
  · refine congrArg (Program.ask _) (funext fun answer => ?_)
    rcases answer with error | done
    · rfl
    · rfl

section Serving

variable {store : ImportStore} {made : List (Uuid × TransactionId)} {planned : List (Nat × Uuid)}
  {choice : ImportChoice} {commandMeta : ImportMeta}
variable {command : ImportCommand} {stagedId : Option Uuid} {written : ImportStore}
  {error : ImportError} {flag : PlannedFlag}

theorem serve_refuses (refuses : choice.refuses = true) :
    ImportWorld.serve libraries ⟨store, made, planned⟩ 0 choice (.dispatch commandMeta command stagedId) =
      (.error .unavailable, ⟨store, made, assign planned 0 none⟩) := if_pos refuses

theorem serve_dispatch_error (refuses : choice.refuses = false)
    (failed : store.dispatch libraries commandMeta command = .error error) :
    ImportWorld.serve libraries ⟨store, made, planned⟩ 0 choice (.dispatch commandMeta command stagedId) =
      (.error error, ⟨store, made, assign planned 0 none⟩) := by
  unfold ImportWorld.serve
  dsimp only
  rw [if_neg (by rw [refuses]; decide), failed]

theorem serve_dispatch_ok {outcome : Outcome} (refuses : choice.refuses = false)
    (done : store.dispatch libraries commandMeta command = .ok (outcome, written)) :
    ImportWorld.serve libraries ⟨store, made, planned⟩ 0 choice (.dispatch commandMeta command stagedId) =
      (.ok outcome,
        ⟨written, made ++ makes store written command stagedId, assign planned 0 none⟩) := by
  unfold ImportWorld.serve
  dsimp only
  rw [if_neg (by rw [refuses]; decide), done]

theorem serve_flag_error (failed : store.recordFlag commandMeta flag = .error error) :
    ImportWorld.serve libraries ⟨store, made, planned⟩ 0 choice (.recordFlag commandMeta flag) = (.error error, ⟨store, made, planned⟩) := by
  unfold ImportWorld.serve
  dsimp only
  rw [failed]
  rfl

theorem serve_flag_ok (done : store.recordFlag commandMeta flag = .ok written) :
    ImportWorld.serve libraries ⟨store, made, planned⟩ 0 choice (.recordFlag commandMeta flag) =
      (.ok (), ⟨written, made, planned⟩) := by
  unfold ImportWorld.serve
  dsimp only
  rw [done]
  rfl

end Serving

variable {statuses : List CommitStatus} {latest : Option PlannedFlag} {force : Bool}
  {flag : PlannedFlag} {row : StagedTransaction} {choice : ImportChoice} (world : ImportWorld)
  {error : ImportError} {failure : Option ImportError}

theorem alone_commit (choice : ImportChoice) (commandMeta : ImportMeta) (id : Uuid) (force : Bool)
    {answer : Except ImportError Planned} {store : ImportStore}
    (served : world.store.planUnderLock libraries commandMeta.idempotencyKey id force =
      (answer, store)) :
    world.alone libraries choice (.commitStaged commandMeta id force) =
      (goOn commandMeta answer).runWith
        (fun request world => world.serve libraries 0 choice request)
        { world with store, planned := assign world.planned 0 (toCommit answer) } := by
  have serves : world.serve libraries 0 choice (.plan commandMeta.idempotencyKey id force) =
      (answer, { world with store, planned := assign world.planned 0 (toCommit answer) }) := by
    unfold ImportWorld.serve
    dsimp only
    rw [served]
  unfold ImportWorld.alone
  rw [program_commitStaged, runWith_ask serves]

theorem map_planned (plan : StagedPlan) :
    (Except.ok plan : Except ImportError StagedPlan).map Planned.planned = .ok (.planned plan) := rfl

theorem commitEnds_alone (choice : ImportChoice) (commandMeta : ImportMeta) (id : Uuid)
    (force : Bool) :
    CommitEnds libraries world.store choice commandMeta id force
      (world.alone libraries choice (.commitStaged commandMeta id force)).1.failure
      (world.alone libraries choice (.commitStaged commandMeta id force)).2.store := by
  cases remembered : world.store.findByIdempotencyKey commandMeta.idempotencyKey with
  | some opSeq =>
    have present : (world.store.findByIdempotencyKey commandMeta.idempotencyKey).isSome := by
      rw [remembered]
      rfl
    rcases served : world.store.planUnderLock libraries commandMeta.idempotencyKey id force with
      ⟨answer, store⟩
    have replays : answer = .ok (.replayed opSeq) := by
      unfold ImportStore.planUnderLock at served
      rw [remembered] at served
      dsimp only at served
      split at served
      · exact (Prod.mk.inj served).1.symm
      · exact (Prod.mk.inj served).1.symm
    rw [alone_commit world choice commandMeta id force served, replays]
    rcases planUnderLock_eq served with ⟨rfl, -⟩ | ⟨-, transaction, planned, rfl⟩
    · exact .replayed present
    · exact .marked planned
  | none =>
    have served : world.store.planUnderLock libraries commandMeta.idempotencyKey id force =
        ((world.store.planStaged libraries id force).map .planned, world.store) := by
      unfold ImportStore.planUnderLock
      rw [remembered]
    rw [alone_commit world choice commandMeta id force served]
    cases planned : world.store.planStaged libraries id force with
    | error error => exact .refused planned
    | ok plan =>
      cases plan with
      | alreadyCommitted stagedId transaction =>
        obtain ⟨rfl, -⟩ := planStaged_eq_alreadyCommitted planned
        exact .marked planned
      | commit commit =>
        rw [map_planned, goOn_commit]
        cases refuses : choice.refuses with
        | true =>
          rw [runWith_ask (serve_refuses refuses)]
          exact .unavailable planned refuses
        | false =>
          cases done : world.store.dispatch libraries commandMeta (.commitImported commit.command) with
          | error error =>
            rw [runWith_ask (serve_dispatch_error refuses done)]
            exact .failed planned done
          | ok reached =>
            obtain ⟨outcome, written⟩ := reached
            rw [runWith_ask (serve_dispatch_ok refuses done)]
            exact .committed planned done
      | flag flag =>
        rw [map_planned, goOn_flag]
        cases new : flag.alreadyFlagged with
        | true =>
          rw [if_pos rfl]
          exact .standing planned new
        | false =>
          rw [if_neg Bool.false_ne_true]
          cases done : world.store.recordFlag commandMeta flag with
          | error error =>
            rw [runWith_ask (serve_flag_error done)]
            exact .conflicted remembered planned new done
          | ok written =>
            rw [runWith_ask (serve_flag_ok done)]
            exact .flagged remembered planned new done

theorem skipEnds_alone (choice : ImportChoice) (id : Uuid) :
    (∃ written, world.store.skipStaged id choice.now = .ok written ∧
      (world.alone libraries choice (.skipStaged id)).1.failure = none ∧
      (world.alone libraries choice (.skipStaged id)).2.store = written) ∨
    ∃ error, world.store.skipStaged id choice.now = .error error ∧
      (world.alone libraries choice (.skipStaged id)).1.failure = some error ∧
      (world.alone libraries choice (.skipStaged id)).2.store = world.store := by
  have written : world.alone libraries choice (.skipStaged id) =
      (.skipped (world.write (world.store.skipStaged id choice.now)).1,
        (world.write (world.store.skipStaged id choice.now)).2) := rfl
  rw [written]
  cases done : world.store.skipStaged id choice.now with
  | ok written => exact .inl ⟨written, rfl, rfl, rfl⟩
  | error error => exact .inr ⟨error, rfl, rfl, rfl⟩

/-! ### What the planner finds -/

/-- What the tables promise of a row: its record has its batch, and accounts have known
currencies. -/
structure RowSound (store : ImportStore) (id : Uuid) : Prop where
  recorded : ∀ row, store.staged.find id = some row → (store.batchOf row.sourceRecordId).isSome
  coded : ∀ account ∈ store.accounts.rows, ∃ currency : Currency, currency.code = account.currency

theorem RowSound.keeps (sound : RowSound store id) (keeps : Keeps store after) :
    RowSound after id := by
  refine ⟨fun row found => ?_, fun account member => ?_⟩
  · obtain ⟨before, foundBefore, same⟩ := keeps.row_before found
    have record := congrArg StagedTransaction.sourceRecordId same
    change before.sourceRecordId = row.sourceRecordId at record
    have batch := sound.recorded before foundBefore
    unfold ImportStore.batchOf at batch ⊢
    rw [keeps.records, keeps.batches, ← record]
    exact batch
  · rw [keeps.accounts] at member
    exact sound.coded account member

theorem RowSound.exists_record (sound : RowSound store id) (found : store.staged.find id = some row) :
    ∃ record, store.records.find row.sourceRecordId = some record := by
  have batch := sound.recorded row found
  unfold ImportStore.batchOf at batch
  cases held : store.records.find row.sourceRecordId with
  | none =>
    rw [held] at batch
    cases batch
  | some record => exact ⟨record, rfl⟩

/-- The errors of a row that cannot be decided any more, or never. -/
def IsDocumented (error : ImportError) : Prop :=
  error ∈ [stagedMissing, stagedAlreadyCommitted, stagedCannotBeSkipped, stagedOrdinalUnusable]

theorem currencyFromCode_code (currency : Currency) : currencyFromCode currency.code = .ok currency := by
  cases currency <;> rfl

theorem failsOnly_orMissing {Row : Type} {allowed : ImportError → Prop} {failure : ImportError}
    {found : Option Row} (present : found = none → allowed failure) :
    FailsOnly allowed (orMissing failure found) := by
  cases found with
  | none => exact failsOnly_error (present rfl)
  | some row => exact failsOnly_ok row

theorem failsOnly_commitTarget (sound : RowSound store id) (row : StagedTransaction) :
    FailsOnly IsDocumented (store.commitTarget libraries row) := by
  unfold ImportStore.commitTarget
  split
  · exact failsOnly_ok _
  · split
    · exact failsOnly_ok _
    · rename_i account found
      split
      · exact failsOnly_ok _
      · obtain ⟨currency, code⟩ := sound.coded account (Table.find_eq_some_iff.mp found).1
        rw [← code, currencyFromCode_code]
        refine (failsOnly_ok currency).bind fun _ _ => ?_
        dsimp only
        split
        · exact failsOnly_ok _
        · split
          · exact failsOnly_ok _
          · exact failsOnly_ok _

/-- A row that is planned without force is decided, or refused as documented. -/
theorem failsOnly_planStaged (sound : RowSound store id) :
    FailsOnly IsDocumented (store.planStaged libraries id false) := by
  have missing : IsDocumented stagedMissing := List.mem_cons_self
  have committed : IsDocumented stagedAlreadyCommitted := .tail _ (.head _)
  have ordinal : IsDocumented stagedOrdinalUnusable := .tail _ (.tail _ (.tail _ (.head _)))
  unfold ImportStore.planStaged
  refine (failsOnly_orMissing fun _ => missing).bind fun row found => ?_
  have batch := sound.recorded row (orMissing_eq_ok.mp found)
  refine failsOnly_ensure_bind committed fun _ => ?_
  obtain ⟨held, heldAt⟩ := sound.exists_record (orMissing_eq_ok.mp found)
  have derived : FailsOnly IsDocumented (store.transactionIdOf row) := by
    unfold ImportStore.transactionIdOf
    rw [heldAt]
    refine (failsOnly_ok held).bind fun _ _ => ?_
    exact (failsOnly_orMissing fun _ => ordinal).bind fun _ _ => failsOnly_ok _
  refine derived.bind fun placed _ => ?_
  dsimp only
  split
  · exact failsOnly_ensure_bind ordinal fun _ => failsOnly_ok _
  · have duplicate : FailsOnly IsDocumented (store.duplicateReason row false) := by
      unfold ImportStore.duplicateReason ImportStore.crossSourceReason
      rw [if_neg Bool.false_ne_true]
      split
      · exact failsOnly_ok _
      · split
        · exact failsOnly_ok _
        · split
          · exact failsOnly_ok _
          · refine (failsOnly_orMissing fun absent => ?_).bind fun _ _ => failsOnly_ok _
            rw [absent] at batch
            cases batch
    unfold ImportStore.planNew
    refine duplicate.bind fun found _ => ?_
    split
    · exact failsOnly_ok _
    · refine (failsOnly_commitTarget sound row).bind fun target _ => ?_
      split
      · exact failsOnly_ok _
      · rw [if_neg Bool.false_ne_true]
        exact failsOnly_ok _

theorem planStaged_eq_flag (planned : store.planStaged libraries id force = .ok (.flag flag)) :
    ∃ row, store.staged.find id = some row ∧ row.commitStatus ≠ .committed ∧ flag.stagedId = id ∧
      flag.alreadyFlagged = decide (row.commitStatus = .flagged) := by
  obtain ⟨row, batch, transaction, planning, ⟨-, -, same⟩ | ⟨absent, new⟩⟩ := planStaged_eq_ok planned
  · cases same
  refine ⟨row, planning.found, planning.open', ?_⟩
  have own := (Table.find_eq_some_iff.mp planning.found).2
  obtain ⟨duplicate, -, new⟩ := bind_eq_ok.mp new
  cases duplicate with
  | some found =>
    obtain rfl := StagedPlan.flag.inj (Except.ok.inj new)
    exact ⟨own, rfl⟩
  | none =>
    obtain ⟨target, -, new⟩ := bind_eq_ok.mp new
    split at new
    · cases Except.ok.inj new
    · split at new
      · cases new
      · obtain rfl := StagedPlan.flag.inj (Except.ok.inj new)
        exact ⟨own, rfl⟩

/-! ### A row and its decisions -/

/-- A staged row, and the decisions recorded of it. -/
structure RowState where
  row : Option StagedTransaction
  flagged : Option DecisionRow
  skipped : Option DecisionRow

def ImportStore.rowState (store : ImportStore) (id : Uuid) : RowState where
  row := store.staged.find id
  flagged := store.decisions.find (.flagged id)
  skipped := store.decisions.find (.skipped id)

/-- The status of a row, where there is one. -/
def RowState.status (state : RowState) : Option CommitStatus := state.row.map (·.commitStatus)

/-- The decision that a flag records. -/
def flagDecision (commandMeta : ImportMeta) (flag : PlannedFlag) : DecisionRow where
  id := .flagged flag.stagedId
  sourceBatchId := flag.batchId
  layer := "transaction"
  stagedTransactionId := some flag.stagedId
  matchedEntityType := flag.matched.map fun _ => "ledger_transaction"
  matchedEntityId := flag.matched
  decision := "flagged"
  reason := flag.reason
  decidedAt := commandMeta.issuedAt

theorem rowState_setStaged {sets : StagedTransaction → StagedTransaction}
    {keeps : ∀ row, (sets row).id = row.id} :
    (store.setStaged id sets keeps).rowState id =
      { store.rowState id with row := (store.staged.find id).map sets } := by
  have own : (store.setStaged id sets keeps).staged.find id = (store.staged.find id).map sets := by
    rw [find_setStaged]
    cases found : store.staged.find id with
    | none => rfl
    | some row =>
      rw [Option.map_some, Option.map_some, if_pos (Table.find_eq_some_iff.mp found).2]
  unfold ImportStore.rowState
  rw [own]
  rfl

theorem recordFlag_ok {commandMeta : ImportMeta} (own : flag.stagedId = id)
    (done : store.recordFlag commandMeta flag = .ok after) :
    (store.rowState id).flagged = none ∧ after.rowState id =
      { row := (store.staged.find id).map fun row => { row with
          commitStatus := .flagged
          dedupeStatus := if flag.suspectedDuplicate then .suspectedDuplicate else row.dedupeStatus }
        flagged := some (flagDecision commandMeta flag)
        skipped := (store.rowState id).skipped } := by
  subst own
  obtain ⟨decisions, inserted, written⟩ := bind_eq_ok.mp done
  have inserts : store.decisions.insert (flagDecision commandMeta flag) = some decisions :=
    orMissing_eq_ok.mp inserted
  obtain rfl := Except.ok.inj written
  refine ⟨(Table.insert_eq_some_iff.mp inserts).1, ?_⟩
  refine rowState_setStaged.trans ?_
  have named : (flagDecision commandMeta flag).id = .flagged flag.stagedId := rfl
  unfold ImportStore.rowState
  dsimp only
  rw [Table.find_insert inserts, Table.find_insert inserts, named, if_pos rfl,
    if_neg fun same => DecisionId.noConfusion same]

theorem insertInto_error {Row Key : Type} {key : Row → Key} [DecidableEq Key] {table : Table key}
    {row : Row} (failed : insertInto table row = .error error) :
    table.find (key row) ≠ none ∧ error = .sqlite := by
  refine ⟨fun vacant => ?_, ?_⟩
  · obtain ⟨inserted, done⟩ := exists_insertInto vacant
    rw [done] at failed
    cases failed
  · unfold insertInto at failed
    cases refused : table.insert row with
    | some after =>
      rw [refused] at failed
      cases failed
    | none =>
      rw [refused] at failed
      exact (Except.error.inj failed).symm

theorem recordFlag_error {commandMeta : ImportMeta} (own : flag.stagedId = id)
    (failed : store.recordFlag commandMeta flag = .error error) :
    (store.rowState id).flagged ≠ none ∧ error = .sqlite := by
  subst own
  rcases bind_eq_error.mp failed with refused | ⟨decisions, -, written⟩
  · exact insertInto_error refused
  · cases written

/-- The decision that a skip records. -/
def skipDecision (id batch : Uuid) (now : String) : DecisionRow where
  id := .skipped id
  sourceBatchId := batch
  layer := "transaction"
  stagedTransactionId := some id
  matchedEntityType := none
  matchedEntityId := none
  decision := "skipped"
  reason := "user skipped"
  decidedAt := now

/-- A skip of a row that is neither committed nor skipped leaves its decision, unless an earlier one
is recorded. -/
theorem skipStaged_open (sound : RowSound store id) (now : String)
    (found : store.staged.find id = some row) (pending : row.commitStatus ≠ .committed)
    (unskipped : row.commitStatus ≠ .skipped) :
    (store.rowState id).skipped = none ∧ (∃ batch written,
      store.skipStaged id now = .ok written ∧ written.rowState id =
        { row := some { row with commitStatus := .skipped }
          flagged := (store.rowState id).flagged
          skipped := some (skipDecision id batch now) }) ∨
    (store.rowState id).skipped ≠ none ∧ store.skipStaged id now = .error .sqlite := by
  have own := (Table.find_eq_some_iff.mp found).2
  obtain ⟨record, held⟩ := sound.exists_record found
  have opened : ensure (row.commitStatus ≠ .committed) stagedCannotBeSkipped = .ok () :=
    ensure_of pending _
  have written : store.skipStaged id now =
      (insertInto store.decisions (skipDecision id record.sourceBatchId now) >>= fun decisions =>
        .ok (({ store with decisions }).markStagedSkipped id)) := by
    unfold ImportStore.skipStaged
    rw [found]
    simp only [orMissing, ok_bind, opened, if_neg unskipped, held, own]
    rfl
  rw [written]
  cases taken : (store.rowState id).skipped with
  | none =>
    have vacant : store.decisions.find (skipDecision id record.sourceBatchId now).id = none := taken
    obtain ⟨decisions, inserted⟩ := exists_insertInto vacant
    have inserts := orMissing_eq_ok.mp inserted
    have named : (skipDecision id record.sourceBatchId now).id = .skipped id := rfl
    refine .inl ⟨rfl, record.sourceBatchId, _, by rw [inserted]; rfl, ?_⟩
    refine rowState_setStaged.trans ?_
    unfold ImportStore.rowState
    dsimp only
    rw [found, Table.find_insert inserts, Table.find_insert inserts, named, if_pos rfl,
      if_neg fun same => DecisionId.noConfusion same]
    rfl
  | some earlier =>
    refine .inr ⟨Option.some_ne_none earlier, ?_⟩
    cases inserted : insertInto store.decisions (skipDecision id record.sourceBatchId now) with
    | ok decisions =>
      have vacant := (Table.insert_eq_some_iff.mp (orMissing_eq_ok.mp inserted)).1
      exact absurd (taken.symm.trans vacant) (Option.some_ne_none earlier)
    | error error =>
      obtain ⟨-, rfl⟩ := insertInto_error inserted
      rfl

theorem rowState_markStagedCommitted (transaction : TransactionId) :
    (store.markStagedCommitted id transaction).rowState id =
      { store.rowState id with
        row := (store.staged.find id).map fun row => { row with
          commitStatus := .committed, dedupeStatus := .unique
          committedTransactionId := some transaction } } := rowState_setStaged

theorem rowState_dispatch {commandMeta : ImportMeta} {command : CommitImported} {outcome : Outcome}
    (done : store.dispatch libraries commandMeta (.commitImported command) = .ok (outcome, after)) :
    after.rowState id = store.rowState id := by
  obtain ⟨operations, ⟨-, rfl⟩ | ⟨written, makes, rfl⟩⟩ := dispatch_commit_eq_ok done
  · rfl
  · obtain ⟨decision, named, inserted⟩ := makes.decides
    have staged := makes.staged
    unfold ImportStore.rowState
    dsimp only
    rw [staged, Table.find_insert inserted, Table.find_insert inserted, named,
      if_neg fun same => DecisionId.noConfusion same, if_neg fun same => DecisionId.noConfusion same]

/-! ### Runs of a row -/

/-- The flag that a call gives a row that is not flagged. -/
def flagOf (libraries : ImportLibraries) (store : ImportStore) (id : Uuid) :
    RowCall → Option PlannedFlag
  | .commit commandMeta force =>
    match (store.planUnderLock libraries commandMeta.idempotencyKey id force).1 with
    | .ok (.planned (.flag flag)) => if flag.alreadyFlagged then none else some flag
    | _ => none
  | .skip => none

/-- The flag that a row was given last. -/
def latestFlag (libraries : ImportLibraries) (world : ImportWorld) (choice : ImportChoice)
    (id : Uuid) (call : RowCall) (latest : Option PlannedFlag) : Option PlannedFlag :=
  if (world.alone libraries choice (call.on id)).1.failure = none then
    (flagOf libraries world.store id call).or latest
  else latest

/-- The runs of a row, from its staging on: calls on it, and whatever else happens that leaves it and
its decisions. A run has the statuses that the row has had, the last one first, and the flag that it
was given last. -/
inductive RowRun (libraries : ImportLibraries) (id : Uuid) :
    List CommitStatus → Option PlannedFlag → ImportWorld → Prop
  | staged {world : ImportWorld} {row : StagedTransaction} (sound : RowSound world.store id)
    (found : world.store.staged.find id = some row) (fresh : row.commitStatus = .staged)
    (unflagged : (world.store.rowState id).flagged = none)
    (unskipped : (world.store.rowState id).skipped = none) :
    RowRun libraries id [.staged] none world
  | call {statuses : List CommitStatus} {latest : Option PlannedFlag} {world : ImportWorld}
    (run : RowRun libraries id statuses latest world) (choice : ImportChoice) (call : RowCall)
    {status : CommitStatus}
    (now : ((world.alone libraries choice (call.on id)).2.store.rowState id).status = some status) :
    RowRun libraries id (status :: statuses) (latestFlag libraries world choice id call latest)
      (world.alone libraries choice (call.on id)).2
  | elsewhere {statuses : List CommitStatus} {latest : Option PlannedFlag}
    {world other : ImportWorld} (run : RowRun libraries id statuses latest world)
    (same : other.store.rowState id = world.store.rowState id)
    (sound : RowSound other.store id) : RowRun libraries id statuses latest other

/-- What holds of a row in every run: a verdict is recorded just where the row has had it, and a
flagged row has the decision of its latest flag. -/
structure RowFollows (id : Uuid) (statuses : List CommitStatus) (latest : Option PlannedFlag)
    (store : ImportStore) : Prop where
  sound : RowSound store id
  present : ∃ status ∈ statuses, (store.rowState id).status = some status
  flagged : (store.rowState id).flagged ≠ none ↔ .flagged ∈ statuses
  skipped : (store.rowState id).skipped ≠ none ↔ .skipped ∈ statuses
  named : (store.rowState id).status = some .flagged → ∃ commandMeta flag, latest = some flag ∧
    (store.rowState id).flagged = some (flagDecision commandMeta flag)

/-- What a call does with a row and its decisions: the error it ends with, and the flag it gives. -/
inductive RowMoves (before : RowState) : Option ImportError → Option PlannedFlag → RowState → Prop
  | kept : RowMoves before none none before
  | committed {row : StagedTransaction} (status : row.commitStatus = .committed) :
    RowMoves before none none { before with row := some row }
  | flagged {row : StagedTransaction} {commandMeta : ImportMeta} {flag : PlannedFlag}
    (status : row.commitStatus = .flagged) (vacant : before.flagged = none) :
    RowMoves before none (some flag)
      { before with row := some row, flagged := some (flagDecision commandMeta flag) }
  | skipped {row : StagedTransaction} {decision : DecisionRow} (status : row.commitStatus = .skipped)
    (vacant : before.skipped = none) :
    RowMoves before none none { before with row := some row, skipped := some decision }
  | failed (error : ImportError) (flag : Option PlannedFlag) :
    RowMoves before (some error) flag before

theorem planUnderLock_fresh {key : String} (fresh : store.findByIdempotencyKey key = none) :
    store.planUnderLock libraries key id force =
      ((store.planStaged libraries id force).map .planned, store) := by
  unfold ImportStore.planUnderLock
  rw [fresh]

theorem flagOf_eq_some {commandMeta : ImportMeta}
    (given : flagOf libraries store id (.commit commandMeta force) = some flag) :
    store.planStaged libraries id force = .ok (.flag flag) ∧ flag.alreadyFlagged = false ∧
      store.findByIdempotencyKey commandMeta.idempotencyKey = none := by
  unfold flagOf at given
  dsimp only at given
  cases remembered : store.findByIdempotencyKey commandMeta.idempotencyKey with
  | some opSeq =>
    have replays : (store.planUnderLock libraries commandMeta.idempotencyKey id force).1 =
        .ok (.replayed opSeq) := by
      unfold ImportStore.planUnderLock
      rw [remembered]
      dsimp only
      split
      · rfl
      · rfl
    rw [replays] at given
    cases given
  | none =>
    rw [planUnderLock_fresh remembered] at given
    cases planned : store.planStaged libraries id force with
    | error error =>
      rw [planned] at given
      cases given
    | ok plan =>
      rw [planned] at given
      cases plan with
      | alreadyCommitted stagedId transaction => cases given
      | commit commit => cases given
      | flag planned =>
        dsimp only [map_planned] at given
        split_ifs at given with already
        obtain rfl := Option.some.inj given
        exact ⟨rfl, Bool.eq_false_iff.mpr already, rfl⟩

theorem flagOf_eq_none {commandMeta : ImportMeta}
    (unplanned : ∀ flag, store.planStaged libraries id force = .ok (.flag flag) →
      flag.alreadyFlagged = true ∨
        (store.findByIdempotencyKey commandMeta.idempotencyKey).isSome) :
    flagOf libraries store id (.commit commandMeta force) = none := by
  cases given : flagOf libraries store id (.commit commandMeta force) with
  | none => rfl
  | some flag =>
    obtain ⟨planned, new, fresh⟩ := flagOf_eq_some given
    rcases unplanned flag planned with already | remembered
    · rw [already] at new
      cases new
    · rw [fresh] at remembered
      cases remembered

theorem rowMoves_commit {commandMeta : ImportMeta} (found : store.staged.find id = some row)
    (ends : CommitEnds libraries store choice commandMeta id force failure after) :
    RowMoves (store.rowState id) failure
      (flagOf libraries store id (.commit commandMeta force)) (after.rowState id) := by
  cases ends with
  | replayed remembered =>
    rw [flagOf_eq_none fun _ _ => .inr remembered]
    exact .kept
  | marked planned =>
    rw [flagOf_eq_none fun flag other => (by rw [planned] at other; cases other),
      rowState_markStagedCommitted, found]
    exact .committed rfl
  | refused planned => exact .failed _ _
  | unavailable planned refuses => exact .failed _ _
  | failed planned failed => exact .failed _ _
  | @committed commit outcome written planned done =>
    rw [flagOf_eq_none fun flag other => (by rw [planned] at other; cases other)]
    obtain ⟨own, batch, transaction, target, planning, -, committing⟩ := planStaged_eq_commit planned
    have named : commit.stagedId = id := by
      rw [committing.planned]
      exact (Table.find_eq_some_iff.mp planning.found).2
    have same : written.rowState id = store.rowState id := rowState_dispatch done
    have rowSame : written.staged.find id = store.staged.find id := congrArg RowState.row same
    rw [named, rowState_markStagedCommitted, same, rowSame, found]
    exact .committed rfl
  | standing planned already =>
    rw [flagOf_eq_none fun flag other => .inl (by rw [planned] at other; cases other; exact already)]
    exact .kept
  | @flagged flag written fresh planned new done =>
    obtain ⟨-, -, -, own, -⟩ := planStaged_eq_flag planned
    obtain ⟨vacant, moved⟩ := recordFlag_ok own done
    have given : flagOf libraries store id (.commit commandMeta force) = some flag := by
      unfold flagOf
      dsimp only
      rw [planUnderLock_fresh fresh, planned, map_planned]
      dsimp only
      rw [new, if_neg Bool.false_ne_true]
    rw [given, moved, found]
    exact .flagged rfl vacant
  | conflicted fresh planned new conflict => exact .failed _ _

theorem skipStaged_cases (now : String) (found : store.staged.find id = some row) :
    row.commitStatus = .committed ∧ store.skipStaged id now = .error stagedCannotBeSkipped ∨
    row.commitStatus = .skipped ∧ store.skipStaged id now = .ok store ∨
    row.commitStatus ≠ .committed ∧ row.commitStatus ≠ .skipped := by
  by_cases committed : row.commitStatus = .committed
  · refine .inl ⟨committed, ?_⟩
    unfold ImportStore.skipStaged
    rw [found]
    simp only [orMissing, ok_bind, ensure_of_not (not_not.mpr committed)]
    rfl
  · by_cases skipped : row.commitStatus = .skipped
    · refine .inr (.inl ⟨skipped, ?_⟩)
      unfold ImportStore.skipStaged
      rw [found]
      simp only [orMissing, ok_bind, ensure_of committed, if_pos skipped]
      rfl
    · exact .inr (.inr ⟨committed, skipped⟩)

theorem rowMoves_skip {world : ImportWorld} (sound : RowSound world.store id)
    (found : world.store.staged.find id = some row) :
    RowMoves (world.store.rowState id)
      (world.alone libraries choice (.skipStaged id)).1.failure none
      ((world.alone libraries choice (.skipStaged id)).2.store.rowState id) := by
  rcases skipEnds_alone world choice id with
    ⟨written, done, none, same⟩ | ⟨error, failed, some, same⟩
  · rw [none, same]
    rcases skipStaged_cases choice.now found with ⟨-, failed⟩ | ⟨-, kept⟩ |
      ⟨pending, unskipped⟩
    · rw [failed] at done
      cases done
    · rw [kept] at done
      obtain rfl := Except.ok.inj done
      exact .kept
    · rcases skipStaged_open sound choice.now found pending unskipped with
        ⟨vacant, batch, other, wrote, moved⟩ | ⟨-, failed⟩
      · rw [wrote] at done
        obtain rfl := Except.ok.inj done
        rw [moved]
        exact .skipped rfl vacant
      · rw [failed] at done
        cases done
  · rw [some, same]
    exact .failed error _

/-- A call keeps what holds of its row. -/
theorem RowFollows.moves {latest flag : Option PlannedFlag} {status : CommitStatus}
    (kept : RowFollows id statuses latest store) (sound : RowSound after id)
    (moves : RowMoves (store.rowState id) failure flag (after.rowState id))
    (now : (after.rowState id).status = some status) :
    RowFollows id (status :: statuses) (if failure = none then flag.or latest else latest) after := by
  obtain ⟨-, ⟨earlier, earlierIn, was⟩, flagged, skipped, named⟩ := kept
  have other {verdict : CommitStatus} (apart : verdict ≠ status) :
      verdict ∈ status :: statuses ↔ verdict ∈ statuses := by
    rw [List.mem_cons, or_iff_right apart]
  -- A call that leaves the row leaves a status that it has had.
  have again {verdict : CommitStatus} (same : (store.rowState id).status = some status) :
      verdict ∈ status :: statuses ↔ verdict ∈ statuses := by
    rw [List.mem_cons, or_iff_right_of_imp]
    rintro rfl
    rw [same] at was
    rw [Option.some.inj was]
    exact earlierIn
  have here := now
  generalize same : after.rowState id = state at moves here
  cases moves with
  | kept =>
    refine ⟨sound, ⟨status, List.mem_cons_self, now⟩, ?_, ?_, ?_⟩
    · rw [same, flagged, again here]
    · rw [same, skipped, again here]
    · rw [same, if_pos rfl, Option.none_or]
      exact named
  | failed error flag =>
    refine ⟨sound, ⟨status, List.mem_cons_self, now⟩, ?_, ?_, ?_⟩
    · rw [same, flagged, again here]
    · rw [same, skipped, again here]
    · rw [same, if_neg (Option.some_ne_none error)]
      exact named
  | committed is =>
    obtain rfl : CommitStatus.committed = status := is.symm.trans (Option.some.inj here)
    refine ⟨sound, ⟨_, List.mem_cons_self, now⟩, ?_, ?_, fun flaggedNow => ?_⟩
    · rw [same, other (by decide)]
      exact flagged
    · rw [same, other (by decide)]
      exact skipped
    · rw [now] at flaggedNow
      cases flaggedNow
  | @flagged row commandMeta flag is vacant =>
    obtain rfl : CommitStatus.flagged = status := is.symm.trans (Option.some.inj here)
    refine ⟨sound, ⟨_, List.mem_cons_self, now⟩, ?_, ?_, fun _ => ⟨commandMeta, flag, ?_, ?_⟩⟩
    · rw [same]
      exact iff_of_true (Option.some_ne_none _) List.mem_cons_self
    · rw [same, other (by decide)]
      exact skipped
    · rw [if_pos rfl, Option.some_or]
    · rw [same]
  | skipped is vacant =>
    obtain rfl : CommitStatus.skipped = status := is.symm.trans (Option.some.inj here)
    refine ⟨sound, ⟨_, List.mem_cons_self, now⟩, ?_, ?_, fun flaggedNow => ?_⟩
    · rw [same, other (by decide)]
      exact flagged
    · rw [same]
      exact iff_of_true (Option.some_ne_none _) List.mem_cons_self
    · rw [now] at flaggedNow
      cases flaggedNow

theorem keeps_alone (choice : ImportChoice) (call : RowCall) :
    Keeps world.store (world.alone libraries choice (call.on id)).2.store := by
  cases call with
  | commit commandMeta force =>
    have ends := @commitEnds_alone libraries world choice commandMeta id force
    show Keeps world.store (world.alone libraries choice (.commitStaged commandMeta id force)).2.store
    generalize (world.alone libraries choice (.commitStaged commandMeta id force)).2.store = after
      at ends ⊢
    generalize (world.alone libraries choice (.commitStaged commandMeta id force)).1.failure =
      failure at ends
    cases ends with
    | replayed remembered => exact .refl _
    | marked planned => exact keeps_markStagedCommitted _ _ _
    | refused planned => exact .refl _
    | unavailable planned refuses => exact .refl _
    | failed planned failed => exact .refl _
    | committed planned done => exact (keeps_dispatch done).trans (keeps_markStagedCommitted _ _ _)
    | standing planned already => exact .refl _
    | flagged fresh planned new done => exact keeps_recordFlag done
    | conflicted fresh planned new conflict => exact .refl _
  | skip =>
    rcases skipEnds_alone world choice id with ⟨written, done, -, same⟩ | ⟨error, -, -, same⟩
    · exact same ▸ keeps_skipStaged done
    · exact same ▸ .refl _

theorem rowMoves_alone {world : ImportWorld} {statuses : List CommitStatus}
    {latest : Option PlannedFlag} (kept : RowFollows id statuses latest world.store)
    (choice : ImportChoice) (call : RowCall) :
    RowMoves (world.store.rowState id) (world.alone libraries choice (call.on id)).1.failure
      (flagOf libraries world.store id call)
      ((world.alone libraries choice (call.on id)).2.store.rowState id) := by
  obtain ⟨status, -, was⟩ := kept.present
  obtain ⟨row, found, -⟩ := Option.map_eq_some_iff.mp was
  cases call with
  | commit commandMeta force =>
    exact rowMoves_commit found (commitEnds_alone world choice commandMeta id force)
  | skip => exact rowMoves_skip kept.sound found

theorem rowKept_of_run {world : ImportWorld} (run : RowRun libraries id statuses latest world) :
    RowFollows id statuses latest world.store := by
  induction run with
  | @staged world row sound found fresh unflagged unskipped =>
    have status : (world.store.rowState id).status = some .staged := by
      unfold RowState.status ImportStore.rowState
      rw [found, Option.map_some, fresh]
    refine ⟨sound, ⟨.staged, List.mem_cons_self, status⟩, ?_, ?_, fun flagged => ?_⟩
    · exact iff_of_false (not_not.mpr unflagged) (by decide)
    · exact iff_of_false (not_not.mpr unskipped) (by decide)
    · rw [status] at flagged
      cases flagged
  | call run choice call now inductionHypothesis =>
    exact inductionHypothesis.moves (inductionHypothesis.sound.keeps (keeps_alone _ _ _))
      (rowMoves_alone inductionHypothesis choice call) now
  | elsewhere run same sound inductionHypothesis =>
    obtain ⟨-, present, flagged, skipped, named⟩ := inductionHypothesis
    exact ⟨sound, same ▸ present, same ▸ flagged, same ▸ skipped, same ▸ named⟩

/-! ### When a row is decided again -/

/-- The command that a commit dispatched was refused, or failed. -/
def CommandFails (libraries : ImportLibraries) (store : ImportStore) (choice : ImportChoice)
    (id : Uuid) (call : RowCall) (error : ImportError) : Prop :=
  ∃ commandMeta force commit, call = .commit commandMeta force ∧
    store.planStaged libraries id force = .ok (.commit commit) ∧
    (choice.refuses = true ∧ error = .unavailable ∨
      store.dispatch libraries commandMeta (.commitImported commit.command) = .error error)

/-- A call that is not an "import anyway". -/
def RowCall.Unforced : RowCall → Prop
  | .commit _ force => force = false
  | .skip => True

/-- A row can be decided again: a call that is not forced fails only as documented or with its
command; a call that fails leaves the row and its decisions; and a flagged row has the decision of
its latest flag. -/
structure DecidesAgain (libraries : ImportLibraries) (world : ImportWorld) (choice : ImportChoice)
    (id : Uuid) (call : RowCall) (latest : Option PlannedFlag) : Prop where
  documented : call.Unforced → ∀ error,
    (world.alone libraries choice (call.on id)).1.failure = some error →
      IsDocumented error ∨ CommandFails libraries world.store choice id call error
  unchanged : (world.alone libraries choice (call.on id)).1.failure ≠ none →
    (world.alone libraries choice (call.on id)).2.store.rowState id = world.store.rowState id
  named : ((world.alone libraries choice (call.on id)).2.store.rowState id).status = some .flagged →
    ∃ decision flag, latestFlag libraries world choice id call latest = some flag ∧
      ((world.alone libraries choice (call.on id)).2.store.rowState id).flagged = some decision ∧
      decision.decision = "flagged" ∧ decision.reason = flag.reason ∧
      decision.matchedEntityId = flag.matched

/-- A call returns to a verdict that the row has had and left: the planner flags a row that was
flagged before and is not flagged now, or a row is skipped that was skipped before and is neither
skipped nor committed now. -/
def ReturnsTo (libraries : ImportLibraries) (store : ImportStore) (id : Uuid)
    (statuses : List CommitStatus) : RowCall → Prop
  | .commit commandMeta force =>
    store.findByIdempotencyKey commandMeta.idempotencyKey = none ∧
      (∃ flag, store.planStaged libraries id force = .ok (.flag flag)) ∧
      (store.rowState id).status ≠ some .flagged ∧ .flagged ∈ statuses
  | .skip => (store.rowState id).status ≠ some .committed ∧
      (store.rowState id).status ≠ some .skipped ∧ .skipped ∈ statuses

theorem not_isDocumented_sqlite : ¬IsDocumented .sqlite := by
  unfold IsDocumented stagedMissing stagedAlreadyCommitted stagedCannotBeSkipped
    stagedOrdinalUnusable
  simp

theorem alreadyFlagged_iff (planned : store.planStaged libraries id force = .ok (.flag flag)) :
    flag.alreadyFlagged = true ↔ (store.rowState id).status = some .flagged := by
  obtain ⟨row, found, -, -, already⟩ := planStaged_eq_flag planned
  unfold RowState.status ImportStore.rowState
  rw [already, decide_eq_true_eq, found, Option.map_some, Option.some_inj]

theorem commit_documented {commandMeta : ImportMeta} (kept : RowFollows id statuses latest store)
    (ends : CommitEnds libraries store choice commandMeta id false (some error) after) :
    IsDocumented error ∨
      CommandFails libraries store choice id (.commit commandMeta false) error ∨
      ReturnsTo libraries store id statuses (.commit commandMeta false) := by
  cases ends with
  | refused planned => exact .inl (failsOnly_planStaged kept.sound error planned)
  | unavailable planned refuses =>
    exact .inr (.inl ⟨commandMeta, false, _, rfl, planned, .inl ⟨refuses, rfl⟩⟩)
  | failed planned failed => exact .inr (.inl ⟨commandMeta, false, _, rfl, planned, .inr failed⟩)
  | @conflicted flag _ fresh planned new conflict =>
    obtain ⟨-, -, -, own, -⟩ := planStaged_eq_flag planned
    refine .inr (.inr ⟨fresh, ⟨flag, planned⟩, fun flagged => ?_,
      kept.flagged.mp (recordFlag_error own conflict).1⟩)
    rw [(alreadyFlagged_iff planned).mpr flagged] at new
    cases new

theorem commit_conflicts {commandMeta : ImportMeta} (kept : RowFollows id statuses latest store)
    (returns : ReturnsTo libraries store id statuses (.commit commandMeta force))
    (ends : CommitEnds libraries store choice commandMeta id force failure after) :
    failure = some .sqlite := by
  obtain ⟨fresh, ⟨flag, flags⟩, unflagged, before⟩ := returns
  have other {plan : StagedPlan} (planned : store.planStaged libraries id force = .ok plan) :
      plan = .flag flag := Except.ok.inj (planned.symm.trans flags)
  cases ends with
  | replayed remembered =>
    rw [fresh] at remembered
    cases remembered
  | marked planned => cases other planned
  | refused planned =>
    rw [flags] at planned
    cases planned
  | unavailable planned refuses => cases other planned
  | failed planned failed => cases other planned
  | committed planned done => cases other planned
  | standing planned already => exact absurd ((alreadyFlagged_iff planned).mp already) unflagged
  | flagged fresh planned new done =>
    obtain ⟨-, -, -, own, -⟩ := planStaged_eq_flag planned
    exact absurd (recordFlag_ok own done).1 (kept.flagged.mpr before)
  | conflicted fresh planned new conflict =>
    obtain ⟨-, -, -, own, -⟩ := planStaged_eq_flag planned
    rw [(recordFlag_error own conflict).2]

theorem skip_documented {now : String} (kept : RowFollows id statuses latest store)
    (failed : store.skipStaged id now = .error error) :
    IsDocumented error ∨ ReturnsTo libraries store id statuses .skip := by
  obtain ⟨status, -, was⟩ := kept.present
  obtain ⟨row, found, -⟩ := Option.map_eq_some_iff.mp was
  have here : (store.rowState id).status = some row.commitStatus := by
    unfold RowState.status
    rw [found, Option.map_some]
  rcases skipStaged_cases now found with ⟨-, refused⟩ | ⟨-, done⟩ | ⟨pending, unskipped⟩
  · rw [refused] at failed
    obtain rfl := Except.error.inj failed
    exact .inl (.tail _ (.tail _ (.head _)))
  · rw [done] at failed
    cases failed
  · rcases skipStaged_open kept.sound now found pending unskipped with
      ⟨-, batch, written, done, -⟩ | ⟨taken, -⟩
    · rw [done] at failed
      cases failed
    · refine .inr ⟨?_, ?_, kept.skipped.mp taken⟩
      · rw [here]
        exact fun same => pending (Option.some.inj same)
      · rw [here]
        exact fun same => unskipped (Option.some.inj same)

theorem skip_conflicts (kept : RowFollows id statuses latest store)
    (returns : ReturnsTo libraries store id statuses .skip) (now : String) :
    store.skipStaged id now = .error .sqlite := by
  obtain ⟨pending, unskipped, before⟩ := returns
  obtain ⟨status, -, was⟩ := kept.present
  obtain ⟨row, found, rfl⟩ := Option.map_eq_some_iff.mp was
  rw [was] at pending unskipped
  rcases skipStaged_open kept.sound now found (fun same => pending (congrArg some same))
    (fun same => unskipped (congrArg some same)) with ⟨vacant, -⟩ | ⟨-, conflict⟩
  · exact absurd vacant (kept.skipped.mpr before)
  · exact conflict

theorem force_of_flag (planned : store.planStaged libraries id force = .ok (.flag flag)) :
    force = false := by
  cases force with
  | false => rfl
  | true =>
    exfalso
    obtain ⟨row, batch, transaction, -, ⟨-, -, same⟩ | ⟨-, new⟩⟩ := planStaged_eq_ok planned
    · cases same
    obtain ⟨duplicate, none, new⟩ := bind_eq_ok.mp new
    unfold ImportStore.duplicateReason at none
    rw [if_pos rfl] at none
    obtain rfl := Except.ok.inj none
    obtain ⟨target, -, new⟩ := bind_eq_ok.mp new
    split at new
    · cases Except.ok.inj new
    · rw [if_pos rfl] at new
      cases new

/-- In every run of a row, a further call decides it again just where it does not return to a
verdict. -/
theorem decided_again_iff {statuses : List CommitStatus} {latest : Option PlannedFlag}
    {world : ImportWorld} (run : RowRun libraries id statuses latest world) (choice : ImportChoice)
    (call : RowCall) :
    DecidesAgain libraries world choice id call latest ↔
      ¬ReturnsTo libraries world.store id statuses call := by
  have kept := rowKept_of_run run
  constructor
  · intro decides returns
    have conflict : (world.alone libraries choice (call.on id)).1.failure = some .sqlite := by
      cases call with
      | commit commandMeta force =>
        exact commit_conflicts kept returns (commitEnds_alone world choice commandMeta id force)
      | skip =>
        have conflicts := skip_conflicts kept returns choice.now
        rcases skipEnds_alone world choice id with ⟨written, done, -⟩ | ⟨error, failed, ended, -⟩
        · rw [conflicts] at done
          cases done
        · rw [conflicts] at failed
          exact ended.trans (congrArg some (Except.error.inj failed).symm)
    have unforced : call.Unforced := by
      cases call with
      | commit commandMeta force =>
        obtain ⟨-, ⟨flag, flags⟩, -⟩ := returns
        exact force_of_flag flags
      | skip => trivial
    rcases decides.documented unforced .sqlite conflict with documented | fails
    · exact not_isDocumented_sqlite documented
    · -- A call that returns to a verdict dispatches no command.
      obtain ⟨commandMeta, force, commit, rfl, planned, -⟩ := fails
      obtain ⟨-, ⟨flag, flags⟩, -⟩ := returns
      cases (planned.symm.trans flags)
  · intro apart
    refine ⟨fun unforced error failed => ?_, fun failed => ?_, fun flagged => ?_⟩
    · cases call with
      | commit commandMeta force =>
        obtain rfl : force = false := unforced
        have ends := @commitEnds_alone libraries world choice commandMeta id false
        have ended : (world.alone libraries choice (.commitStaged commandMeta id false)).1.failure =
            some error := failed
        rw [ended] at ends
        rcases commit_documented kept ends with documented | fails | returns
        · exact .inl documented
        · exact .inr fails
        · exact absurd returns apart
      | skip =>
        rcases skipEnds_alone world choice id with ⟨written, -, none, -⟩ | ⟨other, refused, ended, -⟩
        · exact absurd (none.symm.trans failed).symm (Option.some_ne_none error)
        · obtain rfl := Option.some.inj (ended.symm.trans failed)
          exact .inl ((skip_documented kept refused).resolve_right apart)
    · have moves := @rowMoves_alone libraries _ _ _ _ kept choice call
      generalize (world.alone libraries choice (call.on id)).1.failure = failure at failed moves
      generalize flagOf libraries world.store id call = flag at moves
      generalize (world.alone libraries choice (call.on id)).2.store.rowState id = state at moves ⊢
      cases moves with
      | failed error flag => rfl
      | kept => rfl
      | committed status => exact absurd rfl failed
      | flagged status vacant => exact absurd rfl failed
      | skipped status vacant => exact absurd rfl failed
    · obtain ⟨commandMeta, flag, latest, recorded⟩ :=
        (rowKept_of_run (.call run choice call flagged)).named flagged
      exact ⟨_, flag, latest, recorded, rfl, rfl, rfl⟩

/-! ### A row without an account -/

/-- A row that no account was matched to. -/
def unmatchedRow : ImportStore :=
  importStore { sampleRow 7 5 (-1250) "coffee" 1 with proposedAccountId := none }
    (sampleRow 8 6 (-300) "bread" 1) (by decide)

def unmatched : ImportWorld := .opened unmatchedRow

def daytime : ImportChoice := ⟨false, "2026-01-06T10:00:00Z"⟩

def decideUnmatched (key : String) : RowCall := .commit (importMeta 20 key) false

theorem find_unmatchedRow : unmatchedRow.staged.find (sampleId 7) =
    some { sampleRow 7 5 (-1250) "coffee" 1 with proposedAccountId := none } := by decide

theorem rowSound_unmatchedRow : RowSound unmatchedRow (sampleId 7) := by
  refine ⟨fun row found => ?_, fun account member => ?_⟩
  · rw [find_unmatchedRow] at found
    obtain rfl := Option.some.inj found
    decide
  · obtain rfl := List.mem_singleton.mp member
    exact ⟨.usd, rfl⟩

/-- The row is flagged. -/
def unmatchedFlagged : ImportWorld :=
  (unmatched.alone importLibraries daytime ((decideUnmatched "first").on (sampleId 7))).2

/-- And then skipped. -/
def unmatchedSkipped : ImportWorld :=
  (unmatchedFlagged.alone importLibraries daytime (RowCall.skip.on (sampleId 7))).2

theorem rowRun_unmatched : RowRun importLibraries (sampleId 7) [.staged] none unmatched :=
  .staged rowSound_unmatchedRow find_unmatchedRow rfl rfl rfl

theorem rowRun_unmatchedFlagged :
    RowRun importLibraries (sampleId 7) [.flagged, .staged]
      (latestFlag importLibraries unmatched daytime (sampleId 7) (decideUnmatched "first") none)
      unmatchedFlagged :=
  .call rowRun_unmatched daytime (decideUnmatched "first") (by decide +kernel)

/-- The flagged row can be skipped. -/
theorem flagged_row_is_skipped :
    DecidesAgain importLibraries unmatchedFlagged daytime (sampleId 7) .skip
      (latestFlag importLibraries unmatched daytime (sampleId 7) (decideUnmatched "first") none) :=
  (decided_again_iff rowRun_unmatchedFlagged daytime .skip).mpr fun returns =>
    absurd returns.2.2 (by decide)

def StagedPlan.isFlag : StagedPlan → Bool
  | .flag _ => true
  | _ => false

/-- Once it is skipped, it cannot be decided again: its flag is recorded already. -/
theorem skipped_row_is_not_flagged_again :
    ∃ (libraries : ImportLibraries) (id : Uuid) (statuses : List CommitStatus)
      (latest : Option PlannedFlag) (world : ImportWorld) (choice : ImportChoice) (call : RowCall),
      RowRun libraries id statuses latest world ∧ call.Unforced ∧
      (world.store.rowState id).status = some .skipped ∧
      (world.alone libraries choice (call.on id)).1.failure = some .sqlite ∧
      ¬DecidesAgain libraries world choice id call latest := by
  have skipped : (unmatchedSkipped.store.rowState (sampleId 7)).status = some .skipped := by
    decide +kernel
  have fails : (unmatchedSkipped.alone importLibraries daytime
      ((decideUnmatched "second").on (sampleId 7))).1.failure = some .sqlite := by decide +kernel
  have unplanned : ∀ commit : PlannedCommit,
      unmatchedSkipped.store.planStaged importLibraries (sampleId 7) false ≠ .ok (.commit commit) := by
    have flags : (unmatchedSkipped.store.planStaged importLibraries (sampleId 7) false).toOption.all
        StagedPlan.isFlag = true := by decide +kernel
    intro commit planned
    rw [planned] at flags
    cases flags
  refine ⟨importLibraries, sampleId 7, _, _, unmatchedSkipped, daytime, decideUnmatched "second",
    .call rowRun_unmatchedFlagged daytime .skip skipped, rfl, skipped, fails, fun decides => ?_⟩
  rcases decides.documented rfl .sqlite fails with documented | command
  · exact not_isDocumented_sqlite documented
  · obtain ⟨commandMeta, force, commit, same, planned, -⟩ := command
    obtain ⟨-, rfl⟩ := RowCall.commit.inj same
    exact unplanned commit planned

end Dohflow.DbWorker
