/-
This file models the tables that an import reads and writes, and the two commands that
write the ledger: the commit of an imported transaction, and the void that reverses a
transaction and hides it with its reversal.

The commit is refused before it writes, or writes everything: the transaction, the link to
the source record it was made from, its detail, its category and the decision. A
transaction that exists already is left as it is, whatever it was made from.

Derived ids are kept as what they are derived from. The details and categories of other
commands are left out.
-/

import Dohflow.CoreLedger.Transactions
import Dohflow.DbWorker.Assumptions
import Mathlib.Data.List.Sort

namespace Dohflow.DbWorker

open SyncCore CoreLedger Fallible KeyedTable

/-! ### Rows -/

/-- A row of `accounts`. -/
structure AccountRow where
  id : Uuid
  ledgerAccountId : Uuid
  currency : String
  deriving DecidableEq

/-- A row of `categories`. -/
structure CategoryRow where
  id : Uuid
  name : String
  archivedAt : Option String
  deriving DecidableEq

/-- A row of `system_ledger_accounts`, with the ledger account it names. -/
structure SystemAccountRow where
  role : String
  currency : Currency
  ledgerAccountId : Uuid
  deriving DecidableEq

/-- A row of `source_batches`. -/
structure BatchRow where
  id : Uuid
  sourceType : String
  connectorConnectionId : Option Uuid
  deriving DecidableEq

/-- A row of `source_records`. -/
structure RecordRow where
  id : Uuid
  sourceBatchId : Uuid
  deriving DecidableEq

inductive DedupeStatus
  | pending
  | unique
  | suspectedDuplicate
  deriving DecidableEq

inductive CommitStatus
  | staged
  | committed
  | skipped
  | flagged
  deriving DecidableEq

/-- A row of `staged_transactions`. -/
structure StagedTransaction where
  id : Uuid
  sourceRecordId : Uuid
  proposedAccountId : Option Uuid
  postedAt : String
  transactionDate : Option String
  amountMinor : Int64
  currency : String
  normalizedMerchant : Option String
  description : Option String
  importedCategory : Option String
  txnFingerprint : String
  dedupeStatus : DedupeStatus
  commitStatus : CommitStatus
  committedTransactionId : Option TransactionId
  createdAt : String
  rowOrdinal : Option Int64
  deriving DecidableEq

/-- A row of `ledger_postings`. -/
structure PostingRow where
  ledgerAccountId : Uuid
  minorUnits : Int64
  postingDate : String
  deriving DecidableEq

/-- A row of `ledger_transactions`, with its postings. -/
structure TransactionRow where
  id : TransactionId
  operationId : Uuid
  /-- In seconds. -/
  occurredAt : Int
  currency : Currency
  voidedAt : Option String
  postings : List PostingRow
  deriving DecidableEq

/-- A row of `source_provenance_links` that pins a ledger transaction. Its id is the content id of
the transaction. -/
structure ProvenanceLink where
  entityId : TransactionId
  sourceRecordId : Uuid
  relationship : String
  createdAt : String
  deriving DecidableEq

/-- A row of `transaction_details`. -/
structure DetailRow where
  transactionId : TransactionId
  memo : Option String
  counterparty : Option String
  transactionDate : Option NaiveDate
  createdAt : String
  deriving DecidableEq

/-- A row of `transaction_categorizations`. -/
structure CategorizationRow where
  transactionId : TransactionId
  categoryId : Uuid
  source : String
  confidenceBps : Nat
  assignedAt : String
  deriving DecidableEq

/-- The content id of a dedupe decision. -/
inductive DecisionId
  | flagged (staged : Uuid)
  | skipped (staged : Uuid)
  | committed (transaction : TransactionId)
  deriving DecidableEq

/-- A row of `dedupe_decisions`. -/
structure DecisionRow where
  id : DecisionId
  sourceBatchId : Uuid
  layer : String
  stagedTransactionId : Option Uuid
  matchedEntityType : Option String
  matchedEntityId : Option TransactionId
  decision : String
  reason : String
  decidedAt : String
  deriving DecidableEq

/-- A command that ran, with its key as long as it is remembered. -/
structure OperationRow where
  commandId : Uuid
  idempotencyKey : Option String
  deriving DecidableEq

/-- The tables of the vault. The position of an operation is its sequence number. -/
structure ImportStore where
  accounts : Table AccountRow.id
  categories : Table CategoryRow.id
  systemAccounts : List SystemAccountRow
  batches : Table BatchRow.id
  records : Table RecordRow.id
  staged : Table StagedTransaction.id
  transactions : Table TransactionRow.id
  provenance : Table ProvenanceLink.entityId
  details : List DetailRow
  categorizations : Table CategorizationRow.transactionId
  decisions : Table DecisionRow.id
  operations : List OperationRow
  deriving DecidableEq

/-- What the code takes from outside: reading and writing dates, and ids derived by name. -/
structure ImportLibraries where
  /-- An RFC 3339 instant, in seconds. -/
  parseRfc3339 : String → Option Int
  /-- Noon of a calendar date, in seconds. -/
  noonOf : NaiveDate → Int
  parseDate : String → Option NaiveDate
  yearOf : Int → Int
  /-- The text of the calendar date of an instant. -/
  dateText : Int → String
  /-- The content id of the system account for a role and a currency. -/
  systemAccountId : String → Currency → Uuid

/-! ### Refusals -/

/-- `DbError` -/
inductive ImportError
  | rejected (code : RejectCode) (message : String)
  | invalidCommand (message : String)
  /-- An invalid command, with the text of the error. -/
  | ledger (error : LedgerError)
  | money (error : MoneyError)
  | sqlite
  /-- The worker refuses the command for a reason of its own: its metadata or its key is invalid,
  the worker is not healthy, or the command waits for the person's decision. -/
  | unavailable
  deriving DecidableEq

/-- What a command carries besides its payload. -/
structure ImportMeta where
  commandId : Uuid
  idempotencyKey : String
  /-- The text of the time it was issued at. -/
  issuedAt : String

/-- The row, or the failure to find it. -/
def orMissing {Row : Type} (failure : ImportError) : Option Row → Except ImportError Row
  | some row => .ok row
  | none => .error failure

@[simp] theorem orMissing_eq_ok {Row : Type} {failure : ImportError} {found : Option Row}
    {row : Row} : orMissing failure found = .ok row ↔ found = some row := by
  cases found <;> simp [orMissing]

/-- `INSERT`, refused when the primary key is taken. -/
def insertInto {Row Key : Type} {key : Row → Key} [DecidableEq Key] (table : Table key)
    (row : Row) : Except ImportError (Table key) :=
  orMissing .sqlite (table.insert row)

/-! ### Texts -/

/-- The longest memo or counterparty of an imported transaction, in bytes. -/
def maxImportTextBytes : Nat := 4096

def firstImportYear : Int := 1900

def lastImportYear : Int := 2999

/-- The length of a text in bytes. -/
def textBytes (chars : List Char) : Nat := (chars.map Char.utf8Size).sum

def importTextIsValid (text : String) : Bool := textBytes text.toList ≤ maxImportTextBytes

/-- The characters that end within so many bytes. -/
def cutWithin : Nat → List Char → List Char
  | _, [] => []
  | bytes, char :: rest =>
    if char.utf8Size ≤ bytes then char :: cutWithin (bytes - char.utf8Size) rest else []

/-- A text cut at a character boundary. -/
def fitImportText (text : String) : String :=
  String.ofList (cutWithin maxImportTextBytes text.toList)

theorem textBytes_cutWithin (bytes : Nat) (chars : List Char) :
    textBytes (cutWithin bytes chars) ≤ bytes := by
  induction chars generalizing bytes with
  | nil => exact Nat.zero_le bytes
  | cons char rest inductionHypothesis =>
    rw [cutWithin]
    split
    · next fits =>
      have within := inductionHypothesis (bytes - char.utf8Size)
      simp only [textBytes, List.map_cons, List.sum_cons] at within ⊢
      omega
    · exact Nat.zero_le bytes

theorem importTextIsValid_fit (text : String) : importTextIsValid (fitImportText text) = true := by
  rw [importTextIsValid, fitImportText, String.toList_ofList, decide_eq_true_eq]
  exact textBytes_cutWithin maxImportTextBytes text.toList

variable (libraries : ImportLibraries)

def importDateIsValid (instant : Int) : Bool :=
  firstImportYear ≤ libraries.yearOf instant ∧ libraries.yearOf instant ≤ lastImportYear

/-! ### Writing the ledger -/

def currencyFromCode (code : String) : Except ImportError Currency :=
  if code = "USD" then .ok .usd
  else if code = "EUR" then .ok .eur
  else .error (.invalidCommand ("unknown currency " ++ code))

namespace ImportStore

/-- `SELECT EXISTS(SELECT 1 FROM ledger_transactions WHERE id = ?)` -/
def exists? (store : ImportStore) (id : TransactionId) : Prop :=
  (store.transactions.find id).isSome

instance (store : ImportStore) (id : TransactionId) : Decidable (store.exists? id) :=
  inferInstanceAs (Decidable ((store.transactions.find id).isSome = true))

/-- The account of the system for a role and a currency, which is made when it is not there. -/
def ensureSystemLedgerAccount (store : ImportStore) (role : String) (currency : Currency) :
    Uuid × ImportStore :=
  match store.systemAccounts.find? fun row => row.role = role ∧ row.currency = currency with
  | some row => (row.ledgerAccountId, store)
  | none =>
    let id := libraries.systemAccountId role currency
    (id, { store with systemAccounts := store.systemAccounts ++ [⟨role, currency, id⟩] })

def persistTransaction (store : ImportStore) (transaction : LedgerTransaction) :
    Except ImportError ImportStore := do
  let postingDate := libraries.dateText transaction.occurredAt
  let transactions ← insertInto store.transactions
    { id := transaction.id
      operationId := transaction.operationId
      occurredAt := transaction.occurredAt
      currency := transaction.currency
      voidedAt := none
      postings := transaction.postings.map fun posting =>
        ⟨posting.account, posting.amount.minorUnits, postingDate⟩ }
  return { store with transactions }

/-- Set what says that the transaction is voided. -/
def markVoided (store : ImportStore) (ids : List TransactionId) (voidedAt : String) :
    ImportStore :=
  { store with
    transactions := store.transactions.update (fun row => row.id ∈ ids)
      (fun row => { row with voidedAt := some voidedAt }) fun _ => rfl }

/-- `ORDER BY ledger_account_id, minor_units` -/
def postingBefore (first second : PostingRow) : Prop :=
  first.ledgerAccountId.toList < second.ledgerAccountId.toList ∨
    first.ledgerAccountId = second.ledgerAccountId ∧ first.minorUnits ≤ second.minorUnits

instance (first second : PostingRow) : Decidable (postingBefore first second) :=
  inferInstanceAs (Decidable (_ ∨ _ ∧ _))

/-- The postings of a reversal. -/
def reversalPostings (currency : Currency) (legs : List PostingRow) :
    Except ImportError (List Posting) :=
  (legs.insertionSort postingBefore).mapM fun leg =>
    match Money.checkedNeg ⟨leg.minorUnits, currency⟩ with
    | .ok amount => .ok ⟨leg.ledgerAccountId, amount⟩
    | .error error => .error (.money error)

/-- Reverse a transaction, and hide it and its reversal from every view. -/
def reverseAndHideTransaction (store : ImportStore) (original : TransactionRow)
    (commandId : Uuid) (voidedAt : String) : Except ImportError ImportStore := do
  let postings ← reversalPostings original.currency original.postings
  let reversalId := TransactionId.reversal commandId original.id
  let reversal ← (LedgerTransaction.new reversalId commandId original.occurredAt postings).mapError
    .ledger
  let store ← store.persistTransaction libraries reversal
  return store.markVoided [original.id, reversalId] voidedAt

/-- `apply_void_transaction` -/
def applyVoidTransaction (store : ImportStore) (commandMeta : ImportMeta)
    (transactionId : TransactionId) : Except ImportError ImportStore := do
  let original ← orMissing (.invalidCommand "transaction does not exist")
    (store.transactions.find transactionId)
  ensure (original.voidedAt = none) (.invalidCommand "transaction is already deleted")
  store.reverseAndHideTransaction libraries original commandMeta.commandId commandMeta.issuedAt

end ImportStore

variable {account counter : Uuid} {id : TransactionId} {operationId : Uuid} {occurredAt : Int}
  {amount : Money}

/-! ### The commit of an imported transaction -/

/-- `WriteCommand::CommitImportedTransaction` -/
structure CommitImported where
  transactionId : TransactionId
  accountId : Uuid
  sourceRecordId : Uuid
  occurredAt : Int
  amount : Money
  counterparty : Option String
  memo : Option String
  transactionDate : Option NaiveDate
  categoryId : Option Uuid
  forced : Bool

/-- Confidence in a category that the import names. -/
def importAliasConfidenceBps : Nat := 5000

/-- The transaction of an amount on one account and its negation on another. -/
def balancedTransaction (id : TransactionId) (operationId : Uuid) (occurredAt : Int)
    (account counter : Uuid) (amount : Money) : Except ImportError LedgerTransaction := do
  let negated ← amount.checkedNeg.mapError .money
  (LedgerTransaction.new id operationId occurredAt
    [⟨account, amount⟩, ⟨counter, negated⟩]).mapError .ledger

theorem exists_balancedTransaction_iff :
    (∃ transaction, balancedTransaction id operationId occurredAt account counter amount =
      .ok transaction) ↔ amount.minorUnits ≠ Int64.minValue := by
  constructor
  · rintro ⟨transaction, built⟩ least
    rw [balancedTransaction, Money.checkedNeg, CoreLedger.checkedNeg, if_pos least] at built
    cases built
  · intro negatable
    have negated : amount.checkedNeg = .ok ⟨-amount.minorUnits, amount.currency⟩ := by
      rw [Money.checkedNeg, CoreLedger.checkedNeg, if_neg negatable]
    obtain ⟨transaction, built⟩ := LedgerTransaction.exists_new id operationId occurredAt
      (@sumPostings_negation account counter amount negatable)
    exact ⟨transaction, bind_eq_ok.mpr ⟨_, by rw [negated]; rfl, by rw [built]; rfl⟩⟩

theorem of_balancedTransaction {transaction : LedgerTransaction}
    (built : balancedTransaction id operationId occurredAt account counter amount =
      .ok transaction) : transaction.id = id := by
  obtain ⟨negated, -, built⟩ := bind_eq_ok.mp built
  exact (LedgerTransaction.of_new (mapError_eq_ok.mp built)).1

namespace ImportStore

def recordTransactionDetail (store : ImportStore) (detail : DetailRow) : ImportStore :=
  if detail.memo = none ∧ detail.counterparty = none ∧ detail.transactionDate = none then store
  else { store with
    details := store.details.filter (·.transactionId ≠ detail.transactionId) ++ [detail] }

/-- `INSERT OR IGNORE` -/
def categorize (store : ImportStore) (row : CategorizationRow) : ImportStore :=
  match store.categorizations.insert row with
  | some categorizations => { store with categorizations }
  | none => store

/-- The detail and the category of the transaction that a commit makes. -/
def annotate (store : ImportStore) (commandMeta : ImportMeta) (command : CommitImported) :
    ImportStore :=
  let store := store.recordTransactionDetail
    ⟨command.transactionId, command.memo, command.counterparty, command.transactionDate,
      commandMeta.issuedAt⟩
  match command.categoryId with
  | some category => store.categorize
      ⟨command.transactionId, category, "import_alias", importAliasConfidenceBps,
        commandMeta.issuedAt⟩
  | none => store

/-- What a commit checks before it looks for the transaction: where it posts, and its batch. -/
def checkCommit (store : ImportStore) (command : CommitImported) :
    Except ImportError (AccountRow × RecordRow) := do
  ensure (command.amount.isZero = false)
    (.rejected .payloadInvalid "an imported transaction amount must be non-zero")
  ensure (∀ text ∈ command.counterparty.toList ++ command.memo.toList, importTextIsValid text)
    (.rejected .payloadInvalid "an imported transaction memo or counterparty is too long")
  ensure (importDateIsValid libraries command.occurredAt = true)
    (.rejected .payloadInvalid "an imported transaction date is outside the supported years")
  let account ← orMissing
    (.rejected .referenceMissing "an imported transaction names an account that does not exist")
    (store.accounts.find command.accountId)
  ensure (command.amount.currency.code = account.currency)
    (.rejected .payloadInvalid "an imported transaction currency differs from its account's")
  ensure (∀ category ∈ command.categoryId, (store.categories.find category).isSome)
    (.rejected .referenceMissing "an imported transaction names a category that does not exist")
  let record ← orMissing
    (.rejected .referenceMissing
      "an imported transaction names a source record that does not exist")
    (store.records.find command.sourceRecordId)
  return (account, record)

/-- The decision that a commit records. -/
def commitDecision (command : CommitImported) (batch : Uuid) (issuedAt : String) : DecisionRow where
  id := .committed command.transactionId
  sourceBatchId := batch
  layer := "transaction"
  stagedTransactionId := none
  matchedEntityType := none
  matchedEntityId := none
  decision := "committed"
  reason := if command.forced then "user import-anyway override" else "unique"
  decidedAt := issuedAt

/-- What a commit writes: the transaction, what it was made from, and the decision. -/
def postCommit (store : ImportStore) (commandMeta : ImportMeta) (command : CommitImported)
    (batch : Uuid) (transaction : LedgerTransaction) : Except ImportError ImportStore := do
  let store ← store.persistTransaction libraries transaction
  let provenance ← insertInto store.provenance
    ⟨command.transactionId, command.sourceRecordId, "created_from", commandMeta.issuedAt⟩
  let store := ({ store with provenance }).annotate commandMeta command
  let decisions ← insertInto store.decisions
    (commitDecision command batch commandMeta.issuedAt)
  return { store with decisions }

/-- The commit when its transaction does not exist yet. -/
def writeCommit (store : ImportStore) (commandMeta : ImportMeta) (command : CommitImported)
    (account : AccountRow) (batch : Uuid) : Except ImportError ImportStore := do
  let role := if 0 < command.amount.minorUnits then "unmatched_income" else "unmatched_expense"
  let counter := store.ensureSystemLedgerAccount libraries role command.amount.currency
  let transaction ← balancedTransaction command.transactionId commandMeta.commandId
    command.occurredAt account.ledgerAccountId counter.1 command.amount
  counter.2.postCommit libraries commandMeta command batch transaction

/-- `apply_commit_imported_transaction` -/
def applyCommitImportedTransaction (store : ImportStore) (commandMeta : ImportMeta)
    (command : CommitImported) : Except ImportError ImportStore := do
  let (account, record) ← store.checkCommit libraries command
  if store.exists? command.transactionId then return store
  store.writeCommit libraries commandMeta command account record.sourceBatchId

end ImportStore

end Dohflow.DbWorker
