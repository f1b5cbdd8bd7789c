/-
This file models the display rows of transactions, which are derived from the ledger, and the two
calls that write them.

A row is made of a posting on an account's ledger account, its transaction, and the operation
that made it. A rebuild clears the rows and makes all of them. An incremental call makes those of
the operations after the cursor. Both leave the cursor at the head of the log and record a
checksum of the rows. A call that fails writes nothing.

The log gives every operation a number above those before it, and a command and its operation are
written together.
-/

import Dohflow.DbWorker.LedgerGrowth
import Dohflow.Foundation.MaterializedView

namespace Dohflow.DbWorker

open SyncCore CoreLedger Fallible KeyedTable CanonicalOrder MachineIntegers MaterializedView

/-! ### Rows -/

inductive CategorySource
  | uncategorized
  | manual
  | rule
  | model

namespace CategorySource

def asStr : CategorySource → String
  | .uncategorized => "uncategorized"
  | .manual => "manual"
  | .rule => "rule"
  | .model => "model"

def fromToken (token : String) : Except ImportError CategorySource :=
  if token = "uncategorized" then .ok .uncategorized
  else if token = "manual" then .ok .manual
  else if token = "rule" then .ok .rule
  else if token = "model" then .ok .model
  else .error (.invalidCommand ("unknown category_source " ++ token))

end CategorySource

inductive ReviewStatus
  | needsReview
  | reviewed
  | autoCleared

namespace ReviewStatus

def asStr : ReviewStatus → String
  | .needsReview => "needs_review"
  | .reviewed => "reviewed"
  | .autoCleared => "auto_cleared"

def fromToken (token : String) : Except ImportError ReviewStatus :=
  if token = "needs_review" then .ok .needsReview
  else if token = "reviewed" then .ok .reviewed
  else if token = "auto_cleared" then .ok .autoCleared
  else .error (.invalidCommand ("unknown review_status " ++ token))

end ReviewStatus

/-- A posting on an account, with the number of the operation that made it. -/
structure TransactionDisplayInput where
  transactionId : TransactionId
  accountId : Uuid
  occurredAt : Int
  amount : Money
  opSeq : Int

structure TransactionDisplayRow where
  transactionId : TransactionId
  accountId : Uuid
  occurredAt : Int
  amount : Money
  merchantIdentityId : Option String
  primaryCategoryId : Option String
  categoryConfidenceBps : Int
  categorySource : CategorySource
  recurringEventId : Option String
  reviewStatus : ReviewStatus
  lastProjectedOpSeq : Int

/-- The row of an input. Its category and its review are left empty. -/
def TransactionDisplayInput.display (input : TransactionDisplayInput) : TransactionDisplayRow where
  transactionId := input.transactionId
  accountId := input.accountId
  occurredAt := input.occurredAt
  amount := input.amount
  merchantIdentityId := none
  primaryCategoryId := none
  categoryConfidenceBps := 0
  categorySource := .uncategorized
  recurringEventId := none
  reviewStatus := .needsReview
  lastProjectedOpSeq := input.opSeq

def projectTransactionDisplay (inputs : List TransactionDisplayInput) :
    List TransactionDisplayRow := inputs.map TransactionDisplayInput.display

/-- A row of `transaction_display_rows_read_model`. -/
structure DisplayRowRecord where
  transactionId : TransactionId
  accountId : Uuid
  occurredAt : String
  minorUnits : Int64
  currency : String
  merchantIdentityId : Option String
  primaryCategoryId : Option String
  categoryConfidenceBps : Int
  categorySource : String
  recurringEventId : Option String
  reviewStatus : String
  lastProjectedOpSeq : Int

/-- `PRIMARY KEY (transaction_id, account_id)` -/
def DisplayRowRecord.key (record : DisplayRowRecord) : TransactionId × Uuid :=
  (record.transactionId, record.accountId)

/-- What the projection takes from outside besides: the text of an instant, the bytes that order
the ids of transactions, and the text of a row that its checksum is made of. -/
structure ProjectionLibraries extends CommandLibraries where
  toRfc3339 : Int → String
  idBytes : TransactionId → List ℕ
  idBytes_injective : Function.Injective idBytes
  debugBytes : TransactionDisplayRow → List UInt8

/-! ### The vault with its read model -/

/-- A row of `operation_log`. -/
structure LoggedOperation where
  opSeq : Int
  commandId : Uuid

/-- A row of `projection_cursors`. -/
structure ProjectionCursor where
  lastAppliedOpSeq : Int
  lastRebuildAt : String
  contentChecksum : Int64

/-- A row of `read_model_checksums`. -/
structure ReadModelChecksum where
  currentChecksum : Int64
  computedAt : String

structure ProjectedVault where
  vault : LedgerVault
  operationLog : List LoggedOperation
  displayRows : Table DisplayRowRecord.key
  cursorRow : Option ProjectionCursor
  checksumRow : Option ReadModelChecksum

/-- What the projection selects of a posting on an account. -/
structure JoinedPosting where
  transactionId : TransactionId
  accountId : Uuid
  occurredAt : String
  minorUnits : Int64
  currency : String
  opSeq : Int

variable (libraries : ProjectionLibraries)

/-- `ORDER BY ol.op_seq, lt.id, a.id` -/
def JoinedPosting.rank (row : JoinedPosting) : Int ×ₗ List ℕ ×ₗ List ℕ :=
  toLex (row.opSeq, toLex (libraries.idBytes row.transactionId, byteKey row.accountId.toList))

/-- `ORDER BY transaction_id, account_id` -/
def DisplayRowRecord.rank (record : DisplayRowRecord) : List ℕ ×ₗ List ℕ :=
  toLex (libraries.idBytes record.transactionId, byteKey record.accountId.toList)

def ProjectionLibraries.parseTimestamp (value : String) : Except ImportError Int :=
  orMissing (.invalidCommand "invalid timestamp") (libraries.parseRfc3339 value)

/-- What is read of a joined row. -/
def JoinedPosting.input (row : JoinedPosting) : Except ImportError TransactionDisplayInput := do
  let occurredAt ← libraries.parseTimestamp row.occurredAt
  let currency ← currencyFromCode row.currency
  return ⟨row.transactionId, row.accountId, occurredAt, ⟨row.minorUnits, currency⟩, row.opSeq⟩

/-- The row as it is stored. -/
def TransactionDisplayRow.record (row : TransactionDisplayRow) : DisplayRowRecord where
  transactionId := row.transactionId
  accountId := row.accountId
  occurredAt := libraries.toRfc3339 row.occurredAt
  minorUnits := row.amount.minorUnits
  currency := row.amount.currency.code
  merchantIdentityId := row.merchantIdentityId
  primaryCategoryId := row.primaryCategoryId
  categoryConfidenceBps := row.categoryConfidenceBps
  categorySource := row.categorySource.asStr
  recurringEventId := row.recurringEventId
  reviewStatus := row.reviewStatus.asStr
  lastProjectedOpSeq := row.lastProjectedOpSeq

/-- The row as it is read back. -/
def DisplayRowRecord.row (record : DisplayRowRecord) :
    Except ImportError TransactionDisplayRow := do
  let occurredAt ← libraries.parseTimestamp record.occurredAt
  let currency ← currencyFromCode record.currency
  let categorySource ← CategorySource.fromToken record.categorySource
  let reviewStatus ← ReviewStatus.fromToken record.reviewStatus
  return {
    transactionId := record.transactionId
    accountId := record.accountId
    occurredAt
    amount := ⟨record.minorUnits, currency⟩
    merchantIdentityId := record.merchantIdentityId
    primaryCategoryId := record.primaryCategoryId
    categoryConfidenceBps := record.categoryConfidenceBps
    categorySource
    recurringEventId := record.recurringEventId
    reviewStatus
    lastProjectedOpSeq := record.lastProjectedOpSeq }

namespace ProjectedVault

variable (state : ProjectedVault)

/-- The postings on accounts, with their transactions and operations. A posting has the currency of
its transaction. -/
def joined : List JoinedPosting :=
  state.vault.book.store.transactions.rows.flatMap fun transaction =>
    transaction.postings.flatMap fun posting =>
      (state.vault.book.ledgerAccounts.rows.filter
          fun id => id = posting.ledgerAccountId).flatMap fun id =>
        (state.vault.book.store.accounts.rows.filter
            fun account => account.ledgerAccountId = id).flatMap fun account =>
          (state.operationLog.filter
              fun operation => operation.commandId = transaction.operationId).map fun operation =>
            ⟨transaction.id, account.id, libraries.toRfc3339 transaction.occurredAt,
              posting.minorUnits, transaction.currency.code, operation.opSeq⟩

/-- The joined rows of the operations after one, in order. -/
def joinedSince (sinceOpSeq : Option Int) : List JoinedPosting :=
  sortBy (JoinedPosting.rank libraries)
    ((state.joined libraries).filter fun row => sinceOpSeq.getD minI64 < row.opSeq)

def readInputs (sinceOpSeq : Option Int) : Except ImportError (List TransactionDisplayInput) :=
  (state.joinedSince libraries sinceOpSeq).mapM (JoinedPosting.input libraries)

def writeRow (row : TransactionDisplayRow) : ProjectedVault :=
  { state with displayRows := put state.displayRows (row.record libraries) }

/-- `SELECT COALESCE(MAX(op_seq), 0) FROM operation_log` -/
def maxOpSeq : Int := ((state.operationLog.map LoggedOperation.opSeq).max?).getD 0

def setCursor (opSeq : Int) (contentChecksum : UInt64) (now : String) : ProjectedVault :=
  { state with
    cursorRow := some ⟨opSeq, now, contentChecksum.toInt64⟩
    checksumRow := some ⟨contentChecksum.toInt64, now⟩ }

def cursor : Int := (state.cursorRow.map ProjectionCursor.lastAppliedOpSeq).getD 0

/-- The display rows, in a fixed order. -/
def readRows : Except ImportError (List TransactionDisplayRow) :=
  (sortBy (DisplayRowRecord.rank libraries) state.displayRows.rows).mapM
    (DisplayRowRecord.row libraries)

/-- FNV-1a over the texts of the rows. -/
def checksum : Except ImportError UInt64 := do
  let rows ← state.readRows libraries
  return (rows.flatMap libraries.debugBytes).foldl
    (fun hash byte => (hash ^^^ byte.toUInt64) * 0x100000001b3) 0xcbf29ce484222325

/-- What both calls do with the inputs: write their rows, and move the cursor to the head. -/
def project (inputs : List TransactionDisplayInput) (now : String) :
    Except ImportError (ℕ × ProjectedVault) := do
  let rows := projectTransactionDisplay inputs
  let state := rows.foldl (writeRow libraries) state
  let watermark := state.maxOpSeq
  let contentChecksum ← state.checksum libraries
  return (rows.length, state.setCursor watermark contentChecksum now)

def rebuild (now : String) : Except ImportError (ℕ × ProjectedVault) := do
  let state := { state with displayRows := .empty }
  let inputs ← state.readInputs libraries none
  state.project libraries inputs now

def incremental (now : String) : Except ImportError (ℕ × ProjectedVault) := do
  let inputs ← state.readInputs libraries (some state.cursor)
  state.project libraries inputs now

/-! ### Runs -/

/-- Write the operation of a command. A number is above those before it. -/
def logOperation (commandId : Uuid) (gap : ℕ) : Except ImportError ProjectedVault := do
  ensure (∀ operation ∈ state.operationLog, operation.commandId ≠ commandId) .sqlite
  return { state with
    operationLog := state.operationLog ++ [⟨state.maxOpSeq + 1 + gap, commandId⟩] }

/-- A command and its operation. -/
def execute (commandMeta : ImportMeta) (command : LedgerCommand) (gap : ℕ) :
    Except ImportError ProjectedVault := do
  let vault ← state.vault.apply libraries.toCommandLibraries commandMeta command
  ({ state with vault }).logOperation commandMeta.commandId gap

end ProjectedVault

/-- What happens to a vault. Numbers may be left out of the log. -/
inductive VaultEvent
  | command (commandMeta : ImportMeta) (command : LedgerCommand) (gap : ℕ)
  /-- A command that does not write the ledger. -/
  | otherCommand (commandId : Uuid) (gap : ℕ)
  /-- What is written of other tables: what is staged, imported or observed, and categories. -/
  | otherTables (store : ImportStore) (observations : ObservationTable)
  | incremental (now : String)
  | rebuild (now : String)

namespace ProjectedVault

variable (state : ProjectedVault)

/-- What is written of the tables that the ledger is not in. -/
def setOtherTables (store : ImportStore) (observations : ObservationTable) : ProjectedVault :=
  let held := state.vault.book.store
  let store := { store with
    accounts := held.accounts
    systemAccounts := held.systemAccounts
    transactions := held.transactions }
  { state with vault := { state.vault with book := { state.vault.book with store, observations } } }

/-- What an event leaves. One that is refused leaves everything as it is. -/
def step : VaultEvent → ProjectedVault
  | .command commandMeta command gap =>
    (state.execute libraries commandMeta command gap).toOption.getD state
  | .otherCommand commandId gap => (state.logOperation commandId gap).toOption.getD state
  | .otherTables store observations => state.setOtherTables store observations
  | .incremental now => ((state.incremental libraries now).toOption.map Prod.snd).getD state
  | .rebuild now => ((state.rebuild libraries now).toOption.map Prod.snd).getD state

def run (events : List VaultEvent) : ProjectedVault := events.foldl (step libraries) state

end ProjectedVault

/-- `ensure_system_accounts` -/
def LedgerBook.ensureSystemAccounts (libraries : BookLibraries) (book : LedgerBook) :
    Except ImportError LedgerBook := do
  let (_, book) ← book.ensureSystemLedgerAccount libraries "opening_balance_equity" .usd
  let (_, book) ← book.ensureSystemLedgerAccount libraries "unmatched_income" .usd
  let (_, book) ← book.ensureSystemLedgerAccount libraries "unmatched_expense" .usd
  return book

/-- A book without any row. -/
def LedgerBook.empty : LedgerBook where
  store :=
    { accounts := .empty
      categories := .empty
      systemAccounts := []
      batches := .empty
      records := .empty
      staged := .empty
      transactions := .empty
      provenance := .empty
      details := []
      categorizations := .empty
      decisions := .empty
      operations := [] }
  ledgerAccounts := .empty
  observations := .empty

/-- A vault as it is created: with the accounts of the system, and no operation. -/
def ProjectedVault.created : ProjectedVault where
  vault :=
    { book :=
        (LedgerBook.empty.ensureSystemAccounts libraries.toBookLibraries).toOption.getD .empty
      cashflowRoles := []
      confirmed := .empty }
  operationLog := []
  displayRows := .empty
  cursorRow := none
  checksumRow := none

end Dohflow.DbWorker
