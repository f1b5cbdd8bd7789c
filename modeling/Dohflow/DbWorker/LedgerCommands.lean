/-
This file models the commands that write the ledger.

Each of them posts at most one transaction, in the name of the command. Most post an amount on
the ledger account of an account and its negation on one of the system's; a transfer posts on two
accounts, and a void or an unconfirmation reverses a transaction and hides both.

Ids that a command derives are taken from outside. The decisions that the older commit of a staged
row records are left out, and what is stored of a bill is given with its confirmation.
-/

import Dohflow.DbWorker.BalanceAnchors
import Dohflow.DbWorker.StagedImport

namespace Dohflow.DbWorker

open SyncCore CoreLedger Fallible KeyedTable

/-! ### The vault -/

/-- A row of `confirmed_obligations`. -/
structure ConfirmedObligation where
  recurringEventId : Uuid
  scheduledDate : NaiveDate
  transactionId : TransactionId
  payingAccountId : Uuid
  actualDate : Int
  actualAmount : Money
  createdAt : String

/-- `UNIQUE (recurring_event_id, scheduled_date)` -/
def ConfirmedObligation.key (row : ConfirmedObligation) : Uuid × NaiveDate :=
  (row.recurringEventId, row.scheduledDate)

/-- The tables that the commands read and write. -/
structure LedgerVault where
  book : LedgerBook
  /-- The role of each account. -/
  cashflowRoles : List (Uuid × String)
  confirmed : Table ConfirmedObligation.key

/-- What the commands take from outside besides: ids that they derive, the instant and the
household's day they are issued at, and the day of an instant. -/
structure CommandLibraries extends BookLibraries where
  openingId : Uuid → Uuid
  transferId : Uuid → Uuid
  confirmId : Uuid → Uuid × NaiveDate → Uuid
  stagedCommitId : Uuid → Uuid → Uuid
  issuedAt : ImportMeta → Int
  householdTodayAt : ImportMeta → Except ImportError NaiveDate
  dateOf : Int → NaiveDate

/-- What a confirmation reads of a recurring event: its currency, and whether it is paid with a
card that has a billing cycle. -/
structure ConfirmedBill where
  currency : String
  cardCharged : Bool

/-- The commands that write the ledger. -/
inductive LedgerCommand
  | createAccount (account : AccountRow) (cashflowRole : String) (openingBalance : Option Money)
  | recordTransaction (transactionId accountId : Uuid) (amount : Money) (occurredAt : Int)
  | transfer (sourceAccountId destAccountId : Uuid) (amount : Money) (occurredAt : Int)
  | commitImportedTransaction (command : CommitImported)
  | commitStaged (stagedTransactionId : Uuid) (force : Bool)
  | convertUnexplainedToTransaction (accountId : Uuid)
  | confirmObligationEarly (recurringEventId : Uuid) (scheduledDate : NaiveDate)
      (actualAmount : Money) (actualDate : Int) (payingAccountId : Uuid)
      (bill : Option ConfirmedBill)
  | unconfirmObligation (recurringEventId : Uuid) (scheduledDate : NaiveDate)
  | voidTransaction (transactionId : TransactionId)

/-! ### The commands -/

namespace LedgerBook

variable (libraries : CommandLibraries) (book : LedgerBook) (commandMeta : ImportMeta)

/-- The role of the system's account for an amount: money in is income, money out is expense. -/
def counterRole (amount : Money) : String :=
  if 0 < amount.minorUnits then "unmatched_income" else "unmatched_expense"

/-- Post an amount on a ledger account and its negation on the system's account for a role. -/
def postAgainst (role : String) (id : TransactionId) (occurredAt : Int) (ledgerAccountId : Uuid)
    (amount : Money) : Except ImportError LedgerBook := do
  let (counter, book) ← book.ensureSystemLedgerAccount libraries.toBookLibraries role
    amount.currency
  let transaction ← balancedTransaction id commandMeta.commandId occurredAt ledgerAccountId counter
    amount
  book.post libraries.toBookLibraries transaction

def applyCreateAccount (account : AccountRow) (openingBalance : Option Money) :
    Except ImportError LedgerBook := do
  ensure (∀ opening ∈ openingBalance, opening.currency.code = account.currency)
    (.rejected .payloadInvalid "opening balance currency does not match account currency")
  let book ← book.insertAccount account
  match openingBalance with
  | none => return book
  | some opening =>
    if opening.isZero then return book
    else
      book.postAgainst libraries commandMeta "opening_balance_equity"
        (.given (libraries.openingId commandMeta.commandId)) (libraries.issuedAt commandMeta)
        account.ledgerAccountId opening

def applyRecordTransaction (transactionId accountId : Uuid) (amount : Money) (occurredAt : Int) :
    Except ImportError LedgerBook := do
  ensure (amount.isZero = false) (.invalidCommand "transaction amount must be non-zero")
  let account ← orMissing (.invalidCommand "transaction references an unknown account")
    (book.store.accounts.find accountId)
  let currency ← currencyFromCode account.currency
  ensure (amount.currency = currency)
    (.invalidCommand "transaction currency does not match account currency")
  book.postAgainst libraries commandMeta (counterRole amount) (.given transactionId) occurredAt
    account.ledgerAccountId amount

def applyCommitImportedTransaction (command : CommitImported) : Except ImportError LedgerBook := do
  let (account, record) ← book.store.checkCommit libraries.toImportLibraries command
  if book.store.exists? command.transactionId then return book
  let (counter, book) ← book.ensureSystemLedgerAccount libraries.toBookLibraries
    (counterRole command.amount) command.amount.currency
  let transaction ← balancedTransaction command.transactionId commandMeta.commandId
    command.occurredAt account.ledgerAccountId counter command.amount
  let store ← book.store.postCommit libraries.toImportLibraries commandMeta command
    record.sourceBatchId transaction
  return { book with store }

/-- What is written of a staged row beside its transaction. -/
def settleStaged (staged : StagedTransaction) (id : TransactionId) :
    Except ImportError LedgerBook := do
  let provenance ← insertInto book.store.provenance
    ⟨id, staged.sourceRecordId, "created_from", commandMeta.issuedAt⟩
  let store := ({ book.store with provenance }).markStagedCommitted staged.id id
  let store := store.recordTransactionDetail
    ⟨id, staged.description, staged.normalizedMerchant,
      staged.transactionDate.bind libraries.parseDate, commandMeta.issuedAt⟩
  match staged.importedCategory.bind store.findCategoryByName with
  | some category =>
    return { book with
      store := store.categorize
        ⟨id, category, "import_alias", importAliasConfidenceBps, commandMeta.issuedAt⟩ }
  | none => return { book with store }

def applyCommitStaged (stagedTransactionId : Uuid) (force : Bool) :
    Except ImportError LedgerBook := do
  let staged ← orMissing stagedMissing (book.store.staged.find stagedTransactionId)
  ensure (staged.commitStatus ≠ .committed) stagedAlreadyCommitted
  let _ ← orMissing .sqlite (book.store.records.find staged.sourceRecordId)
  match ← book.store.duplicateReason staged force with
  | some _ => return { book with store := book.store.flagStaged staged.id true }
  | none =>
    match ← book.store.commitTarget libraries.toImportLibraries staged with
    | .error problem =>
      if force then .error problem.error
      else return { book with store := book.store.flagStaged staged.id false }
    | .ok target =>
      let id := TransactionId.given (libraries.stagedCommitId commandMeta.commandId staged.id)
      let book ← book.postAgainst libraries commandMeta (counterRole target.amount) id
        target.occurredAt target.ledgerUuid target.amount
      book.settleStaged libraries commandMeta staged id

def applyVoidTransaction (transactionId : TransactionId) : Except ImportError LedgerBook := do
  let original ← orMissing (.invalidCommand "transaction does not exist")
    (book.store.transactions.find transactionId)
  ensure (original.voidedAt = none) (.invalidCommand "transaction is already deleted")
  book.reverseAndHide libraries.toBookLibraries original commandMeta.commandId commandMeta.issuedAt

end LedgerBook

namespace LedgerVault

variable (libraries : CommandLibraries) (vault : LedgerVault) (commandMeta : ImportMeta)

/-- The role of an account. -/
def cashflowRole (accountId : Uuid) : Option String :=
  (vault.cashflowRoles.find? fun entry => entry.1 = accountId).map Prod.snd

/-- An account of a transfer, with its role. -/
def transferLeg (accountId : Uuid) : Except ImportError (AccountRow × String) :=
  orMissing (.invalidCommand "transfer references an unknown account")
    ((vault.book.store.accounts.find accountId).bind fun account =>
      (vault.cashflowRole accountId).map fun role => (account, role))

/-- The roles that an account may pay into. -/
def paysInto (sourceRole destRole : String) : Prop :=
  if sourceRole = "investment_asset" then destRole = "liquid_cash"
  else destRole ∈ ["liquid_cash", "credit_facility", "loan_liability", "investment_asset"]

instance decidablePaysInto (sourceRole destRole : String) :
    Decidable (paysInto sourceRole destRole) := by
  unfold paysInto
  infer_instance

def applyTransfer (sourceAccountId destAccountId : Uuid) (amount : Money) (occurredAt : Int) :
    Except ImportError LedgerVault := do
  ensure (sourceAccountId ≠ destAccountId)
    (.invalidCommand "a transfer needs two different accounts")
  ensure (0 < amount.minorUnits) (.invalidCommand "transfer amount must be positive")
  let (source, sourceRole) ← vault.transferLeg sourceAccountId
  let (dest, destRole) ← vault.transferLeg destAccountId
  ensure (sourceRole = "liquid_cash" ∨ sourceRole = "investment_asset")
    (.invalidCommand "a transfer must be paid from a liquid or investment account")
  ensure (paysInto sourceRole destRole) (.invalidCommand
    (if sourceRole = "investment_asset" then
      "an investment can only be withdrawn to a liquid account"
    else "a transfer destination must be a liquid, liability, or investment account"))
  let sourceCurrency ← currencyFromCode source.currency
  ensure (amount.currency = sourceCurrency)
    (.invalidCommand "transfer currency must match both accounts")
  let destCurrency ← currencyFromCode dest.currency
  ensure (amount.currency = destCurrency)
    (.invalidCommand "transfer currency must match both accounts")
  let negated ← amount.checkedNeg.mapError .money
  let transaction ← (LedgerTransaction.new (.given (libraries.transferId commandMeta.commandId))
    commandMeta.commandId occurredAt
    [⟨source.ledgerAccountId, negated⟩, ⟨dest.ledgerAccountId, amount⟩]).mapError .ledger
  let book ← vault.book.post libraries.toBookLibraries transaction
  return { vault with book }

def NaiveDate.after (first second : NaiveDate) : Prop :=
  second.year < first.year ∨ second.year = first.year ∧
    (second.month < first.month ∨ second.month = first.month ∧ second.day < first.day)

instance decidableAfter (first second : NaiveDate) : Decidable (NaiveDate.after first second) :=
  inferInstanceAs (Decidable (_ ∨ _ ∧ (_ ∨ _ ∧ _)))

/-- Post the outflow of a confirmed payment. -/
def postPayment (occurrence : Uuid × NaiveDate) (account : AccountRow) (actualAmount : Money)
    (actualDate : Int) : Except ImportError LedgerVault := do
  let outflow ← actualAmount.checkedNeg.mapError .money
  let (counter, book) ← vault.book.ensureSystemLedgerAccount libraries.toBookLibraries
    "unmatched_expense" actualAmount.currency
  let id := TransactionId.given (libraries.confirmId commandMeta.commandId occurrence)
  let transaction ← (LedgerTransaction.new id commandMeta.commandId actualDate
    [⟨account.ledgerAccountId, outflow⟩, ⟨counter, actualAmount⟩]).mapError .ledger
  let book ← book.post libraries.toBookLibraries transaction
  let confirmed ← insertInto vault.confirmed
    ⟨occurrence.1, occurrence.2, id, account.id, actualDate, actualAmount, commandMeta.issuedAt⟩
  return { vault with book, confirmed }

def applyConfirmObligationEarly (recurringEventId : Uuid) (scheduledDate : NaiveDate)
    (actualAmount : Money) (actualDate : Int) (payingAccountId : Uuid)
    (bill : Option ConfirmedBill) : Except ImportError LedgerVault := do
  ensure (¬ actualAmount.minorUnits < 0)
    (.invalidCommand "confirmed amount can't be negative")
  let today ← libraries.householdTodayAt commandMeta
  ensure (¬ NaiveDate.after (libraries.dateOf actualDate) today)
    (.invalidCommand "cannot confirm a payment dated in the future")
  -- A second confirmation of an occurrence posts nothing.
  if (vault.confirmed.find (recurringEventId, scheduledDate)).isSome then return vault
  let bill ← orMissing (.invalidCommand "confirm references an unknown recurring bill") bill
  let billCurrency ← currencyFromCode bill.currency
  ensure (actualAmount.currency = billCurrency)
    (.invalidCommand "payment currency does not match the bill")
  ensure (bill.cardCharged = false) (.invalidCommand
    "this bill is paid via its card's payment; confirming it early isn't supported yet")
  let account ← orMissing (.invalidCommand "confirm references an unknown paying account")
    (vault.book.store.accounts.find payingAccountId)
  ensure (vault.cashflowRole payingAccountId = some "liquid_cash")
    (.invalidCommand "an early-confirmed bill must be paid from a liquid account")
  let currency ← currencyFromCode account.currency
  ensure (actualAmount.currency = currency)
    (.invalidCommand "payment currency does not match the paying account")
  vault.postPayment libraries commandMeta (recurringEventId, scheduledDate) account actualAmount
    actualDate

def applyUnconfirmObligation (recurringEventId : Uuid) (scheduledDate : NaiveDate) :
    Except ImportError LedgerVault :=
  match vault.confirmed.find (recurringEventId, scheduledDate) with
  | none => .ok vault
  | some obligation => do
    let confirmed := vault.confirmed.delete fun row =>
      row.key = (recurringEventId, scheduledDate)
    match vault.book.store.transactions.find obligation.transactionId with
    | none => return { vault with confirmed }
    | some original =>
      if original.voidedAt = none then do
        let book ← vault.book.reverseAndHide libraries.toBookLibraries original
          commandMeta.commandId commandMeta.issuedAt
        return { vault with book, confirmed }
      else return { vault with confirmed }

/-- `apply_command`, for the commands that write the ledger. -/
def apply : LedgerCommand → Except ImportError LedgerVault
  | .createAccount account cashflowRole openingBalance => do
    let book ← vault.book.applyCreateAccount libraries commandMeta account openingBalance
    return { vault with book, cashflowRoles := (account.id, cashflowRole) :: vault.cashflowRoles }
  | .recordTransaction transactionId accountId amount occurredAt => do
    let book ← vault.book.applyRecordTransaction libraries commandMeta transactionId accountId
      amount occurredAt
    return { vault with book }
  | .transfer sourceAccountId destAccountId amount occurredAt =>
    vault.applyTransfer libraries commandMeta sourceAccountId destAccountId amount occurredAt
  | .commitImportedTransaction command => do
    let book ← vault.book.applyCommitImportedTransaction libraries commandMeta command
    return { vault with book }
  | .commitStaged stagedTransactionId force => do
    let book ← vault.book.applyCommitStaged libraries commandMeta stagedTransactionId force
    return { vault with book }
  | .convertUnexplainedToTransaction accountId => do
    let book ← vault.book.applyConvertUnexplainedToTransaction libraries.toBookLibraries
      commandMeta accountId
    return { vault with book }
  | .confirmObligationEarly recurringEventId scheduledDate actualAmount actualDate
      payingAccountId bill =>
    vault.applyConfirmObligationEarly libraries commandMeta recurringEventId scheduledDate
      actualAmount actualDate payingAccountId bill
  | .unconfirmObligation recurringEventId scheduledDate =>
    vault.applyUnconfirmObligation libraries commandMeta recurringEventId scheduledDate
  | .voidTransaction transactionId => do
    let book ← vault.book.applyVoidTransaction libraries commandMeta transactionId
    return { vault with book }

end LedgerVault

end Dohflow.DbWorker
