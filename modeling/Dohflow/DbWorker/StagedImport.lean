/-
This file models how one staged import row is decided, and committed as a command.

The planner reads the staging rows and decides: the row's transaction exists and only its
marking is left, or it is committed, or it is flagged for review. Three steps are made
under a lock of their own each, and other calls come in between: planning, dispatching the
command, and marking the row. A retry whose key ran already marks its row while it plans.

Skipping a row and voiding a transaction are one step each.
-/

import Dohflow.DbWorker.ImportTables
import Dohflow.Foundation.Interleaving

namespace Dohflow.DbWorker

open SyncCore CoreLedger Fallible KeyedTable Program Interleaving

/-! ### What the planner reads -/

/-- `trim` -/
def trimmed (text : String) : String :=
  String.ofList ((text.toList.dropWhile isWhitespace).reverse.dropWhile isWhitespace).reverse

/-- `COLLATE NOCASE` -/
def sameIgnoringCase (left right : String) : Bool :=
  let lower (char : Char) := if 'A' ≤ char ∧ char ≤ 'Z' then Char.ofNat (char.toNat + 32) else char
  left.toList.map lower = right.toList.map lower

/-- `substr(text, 1, 10)` -/
def dayOf (text : String) : String := String.ofList (text.toList.take 10)

/-- `ORDER BY created_at, id` -/
def stagedBefore (first second : StagedTransaction) : Prop :=
  first.createdAt < second.createdAt ∨
    first.createdAt = second.createdAt ∧ first.id.toList ≤ second.id.toList

instance (first second : StagedTransaction) : Decidable (stagedBefore first second) :=
  inferInstanceAs (Decidable (_ ∨ _ ∧ _))

/-- `ORDER BY created_at, id LIMIT 1` -/
def earliest (rows : List StagedTransaction) : Option StagedTransaction :=
  (rows.insertionSort stagedBefore).head?

theorem mem_of_earliest {rows : List StagedTransaction} {row : StagedTransaction}
    (first : earliest rows = some row) : row ∈ rows := by
  have member := List.mem_of_head? first
  rwa [List.mem_insertionSort] at member

theorem earliest_eq_none_iff {rows : List StagedTransaction} :
    earliest rows = none ↔ rows = [] := by
  rw [earliest, List.head?_eq_none_iff, ← List.length_eq_zero_iff, List.length_insertionSort,
    List.length_eq_zero_iff]

namespace ImportStore

/-- The transaction is voided. -/
def voided (store : ImportStore) (id : TransactionId) : Bool :=
  (store.transactions.find id).any fun row => row.voidedAt.isSome

/-- The transaction was made from the source record. -/
def madeFrom (store : ImportStore) (id : TransactionId) (record : Uuid) : Bool :=
  store.provenance.rows.any fun link => link.entityId = id ∧ link.sourceRecordId = record

/-- `find_id_by_name` -/
def findCategoryByName (store : ImportStore) (name : String) : Option Uuid :=
  let name := trimmed name
  if name = "" then none
  else
    match store.categories.rows.filter fun row =>
        sameIgnoringCase row.name name ∧ row.archivedAt = none with
    | [row] => some row.id
    | _ => none

/-- The staged row counts as committed: it is marked, and its transaction is not voided. -/
def countsCommitted (store : ImportStore) (row : StagedTransaction) : Bool :=
  row.commitStatus = .committed ∧
    row.committedTransactionId.any fun transaction => !store.voided transaction

/-- `committed_fingerprint_match` -/
def committedFingerprintMatch (store : ImportStore) (txnFingerprint : String)
    (account : Option Uuid) (excluding : Uuid) : Option TransactionId :=
  (earliest (store.staged.rows.filter fun row =>
    row.txnFingerprint = txnFingerprint ∧ row.id ≠ excluding ∧ row.proposedAccountId = account ∧
      store.countsCommitted row)).bind (·.committedTransactionId)

/-- The batch of a source record. -/
def batchOf (store : ImportStore) (record : Uuid) : Option BatchRow :=
  (store.records.find record).bind fun row => store.batches.find row.sourceBatchId

/-- A batch of another source type, or of another connection of the same type. -/
def otherSource (batch : BatchRow) (ownSourceType : String) (ownConnection : Option Uuid) : Bool :=
  batch.sourceType ≠ ownSourceType ∨
    (ownConnection.isSome ∧ batch.connectorConnectionId.isSome ∧
      batch.connectorConnectionId ≠ ownConnection)

/-- A transaction that no import made, on the account, date and amount. -/
def manualMatch (store : ImportStore) (ledgerAccountId : Uuid) (amountMinor : Int64)
    (postedDate : String) : Option TransactionId :=
  (store.transactions.rows.find? fun row =>
    row.voidedAt = none ∧ (store.provenance.find row.id).isNone ∧
      row.postings.any fun posting => posting.ledgerAccountId = ledgerAccountId ∧
        posting.minorUnits = amountMinor ∧ posting.postingDate = postedDate).map (·.id)

/-- `cross_source_duplicate_reason` -/
def crossSourceDuplicateReason (store : ImportStore) (accountId ledgerAccountId : Uuid)
    (amountMinor : Int64) (postedDate ownSourceType : String) (ownConnection : Option Uuid)
    (excludingStaged : Uuid) : Option (String × TransactionId) :=
  let stagedMatch := earliest (store.staged.rows.filter fun row =>
    row.id ≠ excludingStaged ∧ row.proposedAccountId = some accountId ∧
      row.amountMinor = amountMinor ∧ dayOf row.postedAt = postedDate ∧
      (store.batchOf row.sourceRecordId).any (otherSource · ownSourceType ownConnection) ∧
      store.countsCommitted row)
  match stagedMatch.bind fun row => row.committedTransactionId.bind fun transaction =>
      (store.batchOf row.sourceRecordId).map fun batch => (batch.sourceType, transaction) with
  | some (matchedType, transaction) =>
    some
      (if matchedType = ownSourceType then
        "same date and amount already recorded by another connection"
      else "same date and amount already recorded from another source", transaction)
  | none =>
    (store.manualMatch ledgerAccountId amountMinor postedDate).map fun transaction =>
      ("same date and amount already in this account's ledger", transaction)

/-- `cross_source_reason`, for a commit that is not forced. -/
def crossSourceReason (store : ImportStore) (staged : StagedTransaction) :
    Except ImportError (Option (String × TransactionId)) :=
  match staged.proposedAccountId with
  | none => .ok none
  | some accountId =>
    match store.accounts.find accountId with
    | none => .ok none
    | some account => do
      let own ← orMissing .sqlite (store.batchOf staged.sourceRecordId)
      return store.crossSourceDuplicateReason accountId account.ledgerAccountId
        staged.amountMinor (dayOf staged.postedAt) own.sourceType own.connectorConnectionId staged.id

end ImportStore

/-! ### Where a row posts -/

/-- Why a staged row cannot become a ledger transaction. -/
inductive RowProblem
  | noAccount
  | unknownAccount
  | currencyMismatch
  | zeroAmount
  | unreadableDate

/-- What the person is told. -/
def RowProblem.reason : RowProblem → String
  | .noAccount => "not imported: no account was matched for this row"
  | .unknownAccount => "not imported: the matched account no longer exists"
  | .currencyMismatch => "not imported: its currency differs from the account's currency"
  | .zeroAmount => "not imported: the amount is zero"
  | .unreadableDate => "not imported: its date could not be read"

/-- The error that a forced commit of the row returns. -/
def RowProblem.error : RowProblem → ImportError
  | .noAccount => .invalidCommand "staged transaction has no matched account to commit to"
  | .unknownAccount => .invalidCommand "staged transaction references an unknown account"
  | .currencyMismatch => .invalidCommand "staged transaction currency does not match its account"
  | .zeroAmount => .invalidCommand "staged transaction amount must be non-zero"
  | .unreadableDate => .invalidCommand "staged transaction has an unparseable posted_at"

/-- Where and how a valid staged row posts. -/
structure CommitTarget where
  accountId : Uuid
  ledgerUuid : Uuid
  amount : Money
  occurredAt : Int

variable (libraries : ImportLibraries)

/-- An instant, or noon of a date. -/
def readPostedAt (postedAt : String) : Option Int :=
  match libraries.parseRfc3339 postedAt with
  | some instant => some instant
  | none => (libraries.parseDate postedAt).map libraries.noonOf

/-- Where the row posts, or the check it fails; the failure of the whole is an error of the
store. -/
def ImportStore.commitTarget (store : ImportStore) (staged : StagedTransaction) :
    Except ImportError (Except RowProblem CommitTarget) :=
  match staged.proposedAccountId with
  | none => .ok (.error .noAccount)
  | some accountId =>
    match store.accounts.find accountId with
    | none => .ok (.error .unknownAccount)
    | some account =>
      if staged.currency ≠ account.currency then .ok (.error .currencyMismatch)
      else do
        let currency ← currencyFromCode account.currency
        let amount : Money := ⟨staged.amountMinor, currency⟩
        if amount.isZero then return .error .zeroAmount
        match readPostedAt libraries staged.postedAt with
        | none => return .error .unreadableDate
        | some occurredAt => return .ok ⟨accountId, account.ledgerAccountId, amount, occurredAt⟩

/-- A date outside the years the ledger accepts reads as unreadable. -/
def withinYears (target : Except RowProblem CommitTarget) : Except RowProblem CommitTarget :=
  match target with
  | .ok target =>
    if importDateIsValid libraries target.occurredAt then .ok target else .error .unreadableDate
  | .error problem => .error problem

/-! ### The planner -/

/-- A row to commit. -/
structure PlannedCommit where
  stagedId : Uuid
  transactionId : TransactionId
  command : CommitImported

/-- A row to flag for review. -/
structure PlannedFlag where
  stagedId : Uuid
  batchId : Uuid
  reason : String
  matched : Option TransactionId
  /-- The row is a suspected duplicate, and not one that the ledger cannot accept. -/
  suspectedDuplicate : Bool
  alreadyFlagged : Bool

inductive StagedPlan
  /-- The row's transaction exists already: only the bookkeeping is left. -/
  | alreadyCommitted (stagedId : Uuid) (transactionId : TransactionId)
  | commit (planned : PlannedCommit)
  | flag (planned : PlannedFlag)

def stagedMissing : ImportError := .invalidCommand "staged transaction does not exist"

def stagedAlreadyCommitted : ImportError :=
  .invalidCommand "staged transaction is already committed"

def stagedCannotBeSkipped : ImportError :=
  .invalidCommand "a committed staged transaction cannot be skipped"

def stagedOrdinalUnusable : ImportError :=
  .invalidCommand "staged transaction's row ordinal is missing or already used by another row"

/-- The id of the transaction that the row becomes, if it has a record and an ordinal. -/
def ImportStore.transactionIdOf (store : ImportStore) (staged : StagedTransaction) :
    Except ImportError (Uuid × TransactionId) := do
  let record ← orMissing .sqlite (store.records.find staged.sourceRecordId)
  let ordinal ← orMissing stagedOrdinalUnusable staged.rowOrdinal
  return (record.sourceBatchId, .imported record.sourceBatchId ordinal)

/-- The two duplicate layers, which a forced commit skips: the reason to flag, and the transaction
that was matched. -/
def ImportStore.duplicateReason (store : ImportStore) (staged : StagedTransaction)
    (force : Bool) : Except ImportError (Option (String × TransactionId)) :=
  if force then .ok none
  else
    match store.committedFingerprintMatch staged.txnFingerprint staged.proposedAccountId
        staged.id with
    | some matched => .ok (some ("duplicate of an already-committed transaction", matched))
    | none => store.crossSourceReason staged

/-- The command that commits the row. -/
def ImportStore.commitOf (store : ImportStore) (staged : StagedTransaction)
    (transactionId : TransactionId) (target : CommitTarget) (force : Bool) : CommitImported where
  transactionId := transactionId
  accountId := target.accountId
  sourceRecordId := staged.sourceRecordId
  occurredAt := target.occurredAt
  amount := target.amount
  counterparty := staged.normalizedMerchant.map fitImportText
  memo := staged.description.map fitImportText
  transactionDate := staged.transactionDate.bind libraries.parseDate
  categoryId := staged.importedCategory.bind store.findCategoryByName
  forced := force

/-- The plan for a row whose transaction does not exist yet. -/
def ImportStore.planNew (store : ImportStore) (staged : StagedTransaction) (batchId : Uuid)
    (transactionId : TransactionId) (force : Bool) : Except ImportError StagedPlan := do
  let flag (reason : String) (matched : Option TransactionId) (suspectedDuplicate : Bool) :=
    StagedPlan.flag
      ⟨staged.id, batchId, reason, matched, suspectedDuplicate, staged.commitStatus = .flagged⟩
  match ← store.duplicateReason staged force with
  | some (reason, matched) => return flag reason (some matched) true
  | none =>
    match withinYears libraries (← store.commitTarget libraries staged) with
    | .ok target =>
      return .commit
        ⟨staged.id, transactionId, store.commitOf libraries staged transactionId target force⟩
    | .error problem => if force then .error problem.error else return flag problem.reason none false

/-- Plan the commit of a staged row. -/
def ImportStore.planStaged (store : ImportStore) (stagedId : Uuid) (force : Bool) :
    Except ImportError StagedPlan := do
  let staged ← orMissing stagedMissing (store.staged.find stagedId)
  ensure (staged.commitStatus ≠ .committed) stagedAlreadyCommitted
  let (batchId, transactionId) ← store.transactionIdOf staged
  if store.exists? transactionId then do
    ensure (store.madeFrom transactionId staged.sourceRecordId = true) stagedOrdinalUnusable
    return .alreadyCommitted staged.id transactionId
  else store.planNew libraries staged batchId transactionId force

/-! ### Marking, flagging and skipping -/

/-- `UPDATE staged_transactions SET ... WHERE id = ?` -/
def ImportStore.setStaged (store : ImportStore) (id : Uuid)
    (sets : StagedTransaction → StagedTransaction) (keeps : ∀ row, (sets row).id = row.id) :
    ImportStore :=
  { store with staged := store.staged.update (fun row => row.id = id) sets keeps }

def ImportStore.markStagedCommitted (store : ImportStore) (stagedId : Uuid)
    (transactionId : TransactionId) : ImportStore :=
  store.setStaged stagedId (fun row => { row with
    commitStatus := .committed, dedupeStatus := .unique
    committedTransactionId := some transactionId }) fun _ => rfl

/-- Flag the row as a suspected duplicate, or as one that cannot be committed as it stands. -/
def ImportStore.flagStaged (store : ImportStore) (stagedId : Uuid) (suspectedDuplicate : Bool) :
    ImportStore :=
  store.setStaged stagedId (fun row => { row with
    commitStatus := .flagged
    dedupeStatus := if suspectedDuplicate then .suspectedDuplicate else row.dedupeStatus })
    fun _ => rfl

def ImportStore.markStagedSkipped (store : ImportStore) (stagedId : Uuid) : ImportStore :=
  store.setStaged stagedId (fun row => { row with commitStatus := .skipped }) fun _ => rfl

/-- `record_flag`: the decision that says why, and the flag. -/
def ImportStore.recordFlag (store : ImportStore) (commandMeta : ImportMeta) (flag : PlannedFlag) :
    Except ImportError ImportStore := do
  let decisions ← insertInto store.decisions
    { id := .flagged flag.stagedId
      sourceBatchId := flag.batchId
      layer := "transaction"
      stagedTransactionId := some flag.stagedId
      matchedEntityType := flag.matched.map fun _ => "ledger_transaction"
      matchedEntityId := flag.matched
      decision := "flagged"
      reason := flag.reason
      decidedAt := commandMeta.issuedAt }
  return ({ store with decisions }).flagStaged flag.stagedId flag.suspectedDuplicate

/-- `skip_staged` -/
def ImportStore.skipStaged (store : ImportStore) (stagedId : Uuid) (now : String) :
    Except ImportError ImportStore := do
  let staged ← orMissing stagedMissing (store.staged.find stagedId)
  ensure (staged.commitStatus ≠ .committed) stagedCannotBeSkipped
  if staged.commitStatus = .skipped then return store
  let record ← orMissing .sqlite (store.records.find staged.sourceRecordId)
  let decisions ← insertInto store.decisions
    { id := .skipped staged.id
      sourceBatchId := record.sourceBatchId
      layer := "transaction"
      stagedTransactionId := some staged.id
      matchedEntityType := none
      matchedEntityId := none
      decision := "skipped"
      reason := "user skipped"
      decidedAt := now }
  return ({ store with decisions }).markStagedSkipped staged.id

/-! ### Dispatching a command -/

inductive ImportCommand
  | commitImported (command : CommitImported)
  | voidTransaction (transaction : TransactionId)

/-- What dispatching a command did, with the sequence number of the operation. -/
inductive Outcome
  | applied (opSeq : Nat)
  | replayed (opSeq : Nat)

def ImportStore.apply (store : ImportStore) (commandMeta : ImportMeta) :
    ImportCommand → Except ImportError ImportStore
  | .commitImported command => store.applyCommitImportedTransaction libraries commandMeta command
  | .voidTransaction transaction => store.applyVoidTransaction libraries commandMeta transaction

/-- The operation that ran under the key, while the key is remembered. -/
def ImportStore.findByIdempotencyKey (store : ImportStore) (key : String) : Option Nat :=
  store.operations.findIdx? fun row => row.idempotencyKey = some key

/-- `DbWorker::dispatch`. The command and its entry in the operation log are written together. -/
def ImportStore.dispatch (store : ImportStore) (commandMeta : ImportMeta)
    (command : ImportCommand) : Except ImportError (Outcome × ImportStore) :=
  match store.findByIdempotencyKey commandMeta.idempotencyKey with
  | some opSeq => .ok (.replayed opSeq, store)
  | none => do
    let store ← store.apply libraries commandMeta command
    ensure (∀ row ∈ store.operations, row.commandId ≠ commandMeta.commandId) .sqlite
    return (.applied store.operations.length,
      { store with
        operations :=
          store.operations ++ [⟨commandMeta.commandId, some commandMeta.idempotencyKey⟩] })

/-! ### Calls -/

/-- What planning under the lock finds: the key ran already, or a plan. -/
inductive Planned
  | replayed (opSeq : Nat)
  | planned (plan : StagedPlan)

/-- What a call asks of the worker, each under the lock. -/
inductive ImportRequest
  | plan (key : String) (stagedId : Uuid) (force : Bool)
  /-- A command, and the staged row it is dispatched for. -/
  | dispatch (commandMeta : ImportMeta) (command : ImportCommand) (stagedId : Option Uuid)
  | mark (stagedId : Uuid) (transactionId : TransactionId)
  | recordFlag (commandMeta : ImportMeta) (flag : PlannedFlag)
  | skip (stagedId : Uuid)

abbrev ImportRequest.Response : ImportRequest → Type
  | .plan _ _ _ => Except ImportError Planned
  | .dispatch _ _ _ => Except ImportError Outcome
  | .mark _ _ => Unit
  | .recordFlag _ _ => Except ImportError Unit
  | .skip _ => Except ImportError Unit

/-- What deciding one staged row did. -/
inductive StagedDecision
  | committed (outcome : Outcome)
  | alreadyCommitted
  | flagged

/-- What a call ends with. -/
inductive ImportValue
  | decided (result : Except ImportError StagedDecision)
  | skipped (result : Except ImportError Unit)
  | voided (result : Except ImportError Outcome)

abbrev ImportProgram (Value : Type) : Type := Program ImportRequest ImportRequest.Response Value

abbrev ImportAttempt (Value : Type) : Type :=
  Attempt ImportRequest ImportRequest.Response ImportError Value

/-- Mark the row, and say what was done. -/
def markThen (stagedId : Uuid) (transactionId : TransactionId) (decision : StagedDecision) :
    ImportAttempt StagedDecision :=
  attempt (.mark stagedId transactionId) fun _ => .ok decision

/-- Carry out the plan for one staged row. -/
def carryOut (commandMeta : ImportMeta) : StagedPlan → ImportAttempt StagedDecision
  | .alreadyCommitted stagedId transactionId => markThen stagedId transactionId .alreadyCommitted
  | .commit planned => do
    let outcome ← attempt
      (.dispatch commandMeta (.commitImported planned.command) (some planned.stagedId)) id
    markThen planned.stagedId planned.transactionId (.committed outcome)
  | .flag flag =>
    if flag.alreadyFlagged then pure .flagged
    else attempt (.recordFlag commandMeta flag) fun answer => answer.map fun _ => .flagged

/-- Decide one staged row: commit it to the ledger, or flag it. -/
def commitStaged (commandMeta : ImportMeta) (stagedId : Uuid) (force : Bool) :
    ImportAttempt StagedDecision := do
  match ← attempt (.plan commandMeta.idempotencyKey stagedId force) id with
  | .replayed opSeq => pure (.committed (.replayed opSeq))
  | .planned plan => carryOut commandMeta plan

inductive ImportCall
  | commitStaged (commandMeta : ImportMeta) (stagedId : Uuid) (force : Bool)
  | skipStaged (stagedId : Uuid)
  | voidTransaction (commandMeta : ImportMeta) (transactionId : TransactionId)

def ImportCall.program : ImportCall → ImportProgram ImportValue
  | .commitStaged commandMeta stagedId force =>
    Program.bind (DbWorker.commitStaged commandMeta stagedId force) fun result => .done (.decided result)
  | .skipStaged stagedId => .ask (.skip stagedId) fun answer => .done (.skipped answer)
  | .voidTransaction commandMeta transactionId =>
    .ask (.dispatch commandMeta (.voidTransaction transactionId) none) fun answer =>
      .done (.voided answer)

/-! ### The world -/

/-- The tables, which transaction was ever made from which staged row, and the staged rows that calls
have planned to commit and not yet dispatched. -/
structure ImportWorld where
  store : ImportStore
  made : List (Uuid × TransactionId)
  planned : List (Nat × Uuid)

/-- What is open about an answer: whether the worker refuses a command, and what the clock reads. -/
structure ImportChoice where
  refuses : Bool
  now : String

/-- Plan under the lock. A retry of a commit that ran finishes its marking here. -/
def ImportStore.planUnderLock (store : ImportStore) (key : String) (stagedId : Uuid)
    (force : Bool) : Except ImportError Planned × ImportStore :=
  match store.findByIdempotencyKey key with
  | some opSeq =>
    match store.planStaged libraries stagedId force with
    | .ok (.alreadyCommitted stagedId transactionId) =>
      (.ok (.replayed opSeq), store.markStagedCommitted stagedId transactionId)
    | _ => (.ok (.replayed opSeq), store)
  | none => ((store.planStaged libraries stagedId force).map .planned, store)

/-- A call now has this row planned, or none. -/
def assign (planned : List (Nat × Uuid)) (owner : Nat) (stagedId : Option Uuid) :
    List (Nat × Uuid) :=
  planned.filter (·.1 ≠ owner) ++ stagedId.toList.map (owner, ·)

theorem mem_assign {planned : List (Nat × Uuid)} {owner other : Nat} {stagedId : Option Uuid}
    {id : Uuid} : (other, id) ∈ assign planned owner stagedId ↔
      other = owner ∧ stagedId = some id ∨ other ≠ owner ∧ (other, id) ∈ planned := by
  cases stagedId with
  | none => simp [assign, and_comm]
  | some row =>
    simp only [assign, Option.toList_some, List.map_cons, List.map_nil, List.mem_append,
      List.mem_filter, List.mem_singleton, Prod.mk.injEq, decide_eq_true_eq, Option.some.injEq]
    rw [and_comm, or_comm, @eq_comm _ id]

/-- The staged row that an answer of the planner tells to commit. -/
def toCommit : Except ImportError Planned → Option Uuid
  | .ok (.planned (.commit planned)) => some planned.stagedId
  | _ => none

/-- The transactions that a dispatched command has made from a staged row. -/
def makes (before after : ImportStore) (command : ImportCommand) (stagedId : Option Uuid) :
    List (Uuid × TransactionId) :=
  match command, stagedId with
  | .commitImported command, some stagedId =>
    if ¬ before.exists? command.transactionId ∧ after.exists? command.transactionId then
      [(stagedId, command.transactionId)]
    else []
  | _, _ => []

/-- Write what an attempt leaves behind, if it succeeds. -/
def ImportWorld.write (world : ImportWorld) (attempted : Except ImportError ImportStore) :
    Except ImportError Unit × ImportWorld :=
  match attempted with
  | .ok store => (.ok (), { world with store })
  | .error error => (.error error, world)

def ImportWorld.serve (world : ImportWorld) (owner : Nat) (choice : ImportChoice) :
    (request : ImportRequest) → request.Response × ImportWorld
  | .plan key stagedId force =>
    let (answer, store) := world.store.planUnderLock libraries key stagedId force
    (answer, { world with
      store, planned := assign world.planned owner (toCommit answer) })
  | .dispatch commandMeta command stagedId =>
    let world := { world with planned := assign world.planned owner none }
    if choice.refuses then (.error .unavailable, world)
    else
      match world.store.dispatch libraries commandMeta command with
      | .ok (outcome, store) =>
        (.ok outcome, { world with
          store, made := world.made ++ makes world.store store command stagedId })
      | .error error => (.error error, world)
  | .mark stagedId transactionId =>
    ((), { world with store := world.store.markStagedCommitted stagedId transactionId })
  | .recordFlag commandMeta flag => world.write (world.store.recordFlag commandMeta flag)
  | .skip stagedId => world.write (world.store.skipStaged stagedId choice.now)

/-- A call is gone, and has nothing planned. -/
def ImportWorld.drop (world : ImportWorld) (owner : Nat) : ImportWorld :=
  { world with planned := assign world.planned owner none }

/-- Calls that decide staged rows, skip them and void transactions. -/
def importing : Setting ImportRequest ImportRequest.Response ImportValue where
  World := ImportWorld
  Call := ImportCall
  Choice := ImportChoice
  Move := Empty
  program := ImportCall.program
  serve owner choice request world := some (world.serve libraries owner choice request)
  finish owner _ world := world.drop owner
  cut owner world := world.drop owner
  move move _ := move.elim

end Dohflow.DbWorker
