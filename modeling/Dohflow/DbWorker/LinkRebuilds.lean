/-
This file models the rebuild of the links from expectations to ledger transactions, and says
what it promises of a transaction.

The occurrences of the recurring schedules are linked first, each to a posting of its own.
Then every manual entry takes the nearest transaction on its account with its exact amount
that no occurrence and no entry before it is linked to. An occurrence claims a posting and an
entry claims a transaction: so a transaction that posts to two accounts of the household can
be linked by two occurrences, but never by two entries, nor by an occurrence and an entry.
-/

import Dohflow.DbWorker.BillEvents
import Dohflow.DbWorker.IssuedAtText

namespace Dohflow.DbWorker

open SyncCore CoreLedger Fallible KeyedTable CanonicalOrder
open PayDates (PaySchedule checkedAddDays checkedSubDays)

/-! ### Tables -/

/-- A row of `accounts`, with its role. -/
structure HouseholdAccount extends AccountRow where
  cashflowRole : String

/-- A row of `ledger_transactions`, with its postings and its detail. -/
structure LedgerEntry where
  id : Uuid
  /-- An RFC 3339 text. -/
  occurredAt : String
  voidedAt : Option String
  counterparty : Option String
  memo : Option String
  postings : List PostingRow

/-- What the readers of the schedules return of one of them. -/
structure ActiveSchedule extends ScheduleSource where
  kind : ScheduleKind
  autopayAccountId : Option Uuid

inductive InstanceStatus
  | scheduled
  | paid

/-- A row of `recurring_event_instances`. -/
structure InstanceRow where
  id : Uuid
  recurringEventId : Uuid
  scheduledDate : String
  expectedAmountMinor : Int
  currency : String
  status : InstanceStatus
  linkedTransactionId : Option Uuid
  createdAt : String

/-- A row of `manual_entry_links`. -/
structure EntryLink where
  assumptionEventId : Uuid
  linkedTransactionId : Uuid
  matchedOn : String
  createdAt : String

/-- The tables that the rebuild reads, and the two that it writes. -/
structure LinkVault where
  accounts : Table (fun row : HouseholdAccount => row.id)
  transactions : Table LedgerEntry.id
  incomeSchedules : List ActiveSchedule
  obligationSchedules : List ActiveSchedule
  events : EventTable
  instances : Table InstanceRow.id
  entryLinks : Table EntryLink.assumptionEventId

/-- What the code takes from outside: the parsers, the text of a day, the name hash of an instance,
whether a text is blank, and the normal form of a merchant. -/
structure LinkLibraries extends OverrideLibraries where
  dayText : PayDates.NaiveDate → String
  instanceId : Uuid → String → Uuid
  parseUuid : String → Option Uuid
  isBlank : String → Bool
  normalizeMerchant : String → String

inductive RebuildError
  | db (error : ImportError)
  /-- `bad manual-entry params: {e}` -/
  | badParams (error : String)
  /-- `bad manual-entry date {date_str:?}: {e}` -/
  | badDate (raw error : String)
  /-- An amount or a date leaves its range, and the run stops. -/
  | overflow

variable (libraries : LinkLibraries)

/-! ### The occurrences -/

/-- An occurrence with what only its row tells of its schedule. -/
structure PlannedInstance where
  recurringEventId : Uuid
  currency : String
  occurrence : Occurrence

def defaultLookbackDays : Nat := 365

def forwardHorizonDays : Nat := 365

/-- The calendar day that an RFC 3339 text begins with. -/
def dayPart (occurredAt : String) : String := String.ofList (occurredAt.toList.take 10)

def windowStart (vault : LinkVault) (today : PayDates.NaiveDate) :
    Except RebuildError PayDates.NaiveDate := do
  let fallback ← orFail .overflow (checkedSubDays today defaultLookbackDays)
  let live := vault.transactions.rows.filter fun row => row.voidedAt = none
  match (live.map LedgerEntry.occurredAt).min? with
  | some earliest =>
    if 10 ≤ textBytes earliest.toList then
      match libraries.parseFromStr (dayPart earliest) with
      | .ok date => return min date fallback
      | .error _ => return fallback
    else return fallback
  | none => return fallback

/-- A merchant key, unless nothing is left of the name. -/
def normalizeKey (raw : String) : Option String :=
  let key := libraries.normalizeMerchant raw
  if key = "" then none else some key

/-- The occurrences of one schedule; none where it has no anchor. -/
def occurrencesOf (start stop : PayDates.NaiveDate) (source : ActiveSchedule) :
    Except ImportError (List PlannedInstance) := do
  let currency ← currencyFromCode source.currencyCode
  let frequency ← parseFrequency source.freqToken "schedule"
  match source.anchor with
  | none => return []
  | some anchorText => do
    let anchor ← parseDate libraries.toOverrideLibraries anchorText
    return ((⟨frequency, anchor⟩ : PaySchedule).payDates start stop).map fun date =>
      { recurringEventId := source.id
        currency := currency.code
        occurrence :=
          { scheduledDate := date
            expectedAmountMinor := source.amountMinor.toInt
            kind := source.kind
            merchantKey := normalizeKey libraries source.name
            autopayAccountId := source.autopayAccountId } }

def expandOccurrences (vault : LinkVault) (start stop : PayDates.NaiveDate) :
    Except ImportError (List PlannedInstance) := do
  let expanded ← (vault.incomeSchedules ++ vault.obligationSchedules).mapM
    (occurrencesOf libraries start stop)
  return expanded.flatten

/-! ### The postings -/

/-- The payee: the counterparty, or else the memo. -/
def payeeOf (entry : LedgerEntry) : Option String :=
  (entry.counterparty.filter fun text => !libraries.isBlank text).or
    (entry.memo.filter fun text => !libraries.isBlank text)

/-- `cashflow_role IN ('liquid_cash', 'credit_facility')` -/
def HouseholdAccount.Realizes (account : HouseholdAccount) : Prop :=
  account.cashflowRole = "liquid_cash" ∨ account.cashflowRole = "credit_facility"

instance decidableRealizes (account : HouseholdAccount) : Decidable account.Realizes :=
  inferInstanceAs (Decidable (_ ∨ _))

/-- The transactions that are live and of a window, by time and then by id. -/
def liveEntries (vault : LinkVault) (start stop : String) : List LedgerEntry :=
  sortBy (fun row : LedgerEntry => toLex (row.occurredAt, byteKey row.id.toList))
    (vault.transactions.rows.filter fun row =>
      row.voidedAt = none ∧ start ≤ dayPart row.occurredAt ∧ dayPart row.occurredAt ≤ stop)

/-- The postings of a transaction, each with every account whose ledger account it is of. -/
def accountPostings (vault : LinkVault) (entry : LedgerEntry) :
    List (PostingRow × HouseholdAccount) :=
  entry.postings.flatMap fun posting =>
    (vault.accounts.rows.filter fun account =>
      account.ledgerAccountId = posting.ledgerAccountId).map fun account => (posting, account)

def realizedPosting (entry : LedgerEntry) (posting : PostingRow) (account : HouseholdAccount) :
    Except ImportError RealizedPosting := do
  let occurredOn ← parseDate libraries.toOverrideLibraries (dayPart entry.occurredAt)
  return {
    transactionId := entry.id
    occurredOn
    minorUnits := posting.minorUnits.toInt
    merchantKey := (payeeOf libraries entry).bind (normalizeKey libraries)
    accountId := account.id
    isLiquid := account.cashflowRole = "liquid_cash" }

def realizedPostings (vault : LinkVault) (start stop : PayDates.NaiveDate) :
    Except ImportError (List RealizedPosting) :=
  let joined := (liveEntries vault (libraries.dayText start) (libraries.dayText stop)).flatMap
    fun entry => ((accountPostings vault entry).filter fun side => side.2.Realizes).map
      fun side => (entry, side)
  (joined.filter fun row => 10 ≤ textBytes row.1.occurredAt.toList).mapM fun row =>
    realizedPosting libraries row.1 row.2.1 row.2.2

/-! ### The rebuild of the instances -/

/-- The transaction that the occurrence in a place is linked to. -/
def linkedAt (links : List (Nat × Uuid)) (index : Nat) : Option Uuid :=
  (links.find? fun link => link.1 = index).map Prod.snd

def instanceRow (today : PayDates.NaiveDate) (links : List (Nat × Uuid))
    (planned : PlannedInstance) (index : Nat) : InstanceRow :=
  let linked := linkedAt links index
  let scheduled := libraries.dayText planned.occurrence.scheduledDate
  { id := libraries.instanceId planned.recurringEventId scheduled
    recurringEventId := planned.recurringEventId
    scheduledDate := scheduled
    expectedAmountMinor := planned.occurrence.expectedAmountMinor
    currency := planned.currency
    status := if linked.isSome then .paid else .scheduled
    linkedTransactionId := linked
    createdAt := libraries.dayText today }

/-- Insert rows one after another. -/
def insertAll {Row Key : Type} {key : Row → Key} [DecidableEq Key] (table : Table key)
    (rows : List Row) : Except ImportError (Table key) := rows.foldlM insertInto table

/-- `rebuild_in`: the table of the instances is deleted and written again. -/
def rebuildInstances (vault : LinkVault) (today : PayDates.NaiveDate) :
    Except RebuildError LinkVault := do
  let start ← windowStart libraries vault today
  let stop ← orFail .overflow (checkedAddDays today forwardHorizonDays)
  let planned ← (expandOccurrences libraries vault start stop).mapError .db
  let postings ← (realizedPostings libraries vault start stop).mapError .db
  let links ← orFail .overflow (assignLinks (planned.map PlannedInstance.occurrence) postings)
  let instances ← (insertAll .empty (planned.zipIdx.map fun planned =>
    instanceRow libraries today links planned.1 planned.2)).mapError .db
  return { vault with instances }

/-! ### The rebuild of the links of the manual entries -/

/-- A manual entry, as far as it is matched. -/
structure ManualEntry where
  id : Uuid
  amount : Money
  occursOn : PayDates.NaiveDate
  accountId : Option Uuid

/-- `from_params` -/
def fromParams (id : Uuid) (paramsJson : String) : Except RebuildError ManualEntry := do
  let value ← (libraries.fromStr paramsJson).mapError .badParams
  let amountMinor ← orFail (.db (.invalidCommand "manual entry missing amount_minor"))
    (value.asI64 "amount_minor")
  let currencyCode ← orFail (.db (.invalidCommand "manual entry missing currency"))
    (value.asStr "currency")
  let dateText ← orFail (.db (.invalidCommand "manual entry missing date")) (value.asStr "date")
  let currency ← (currencyFromCode currencyCode).mapError .db
  let occursOn ← (libraries.parseFromStr dateText).mapError (.badDate dateText)
  return {
    id
    amount := ⟨Int64.ofInt amountMinor, currency⟩
    occursOn
    accountId := (value.asStr "account_id").bind libraries.parseUuid }

/-- The active entries outside all scenarios, oldest first. -/
def activeManualEntries (vault : LinkVault) : Except RebuildError (List ManualEntry) :=
  (sortBy (fun row : EventRow => toLex (row.createdAt, byteKey row.id.toList))
    (vault.events.rows.filter fun row =>
      row.status = .active ∧ row.key.kind = .oneTimeEvent ∧ row.scenarioId = none)).mapM fun row =>
        fromParams libraries row.id row.paramsJson

/-- A transaction that an entry may take, and the date of its posting. -/
structure Candidate where
  transactionId : Uuid
  postingDate : String

/-- A recurring instance is linked to the transaction. -/
def InstanceLinked (vault : LinkVault) (transaction : Uuid) : Prop :=
  ∃ row ∈ vault.instances.rows, row.linkedTransactionId = some transaction

instance decidableInstanceLinked (vault : LinkVault) (transaction : Uuid) :
    Decidable (InstanceLinked vault transaction) :=
  inferInstanceAs (Decidable (∃ row ∈ vault.instances.rows, _))

/-- The postings that an entry may be matched with, by date and then by id. -/
def candidatesOf (vault : LinkVault) (entry : ManualEntry) (accountId : Uuid) (low high : String) :
    List Candidate :=
  let live := vault.transactions.rows.filter fun row =>
    row.voidedAt = none ∧ ¬InstanceLinked vault row.id
  let matching := live.flatMap fun row =>
    ((accountPostings vault row).filter fun side =>
      side.2.id = accountId ∧ side.1.minorUnits = entry.amount.minorUnits ∧
      side.2.currency = entry.amount.currency.code ∧
      low ≤ side.1.postingDate ∧ side.1.postingDate ≤ high).map
        fun side => (⟨row.id, side.1.postingDate⟩ : Candidate)
  sortBy (fun candidate : Candidate =>
    toLex (candidate.postingDate, byteKey candidate.transactionId.toList)) matching

/-- How far a date is from an entry's; the greatest number where it is no date. -/
def diffOf (entry : ManualEntry) (date : String) : Nat :=
  match libraries.parseFromStr date with
  | .ok day => daysBetween day entry.occursOn
  | .error _ => MachineIntegers.maxI64.toNat

/-- What candidates are compared by. -/
def Candidate.key (entry : ManualEntry) (candidate : Candidate) : ℕ ×ₗ List ℕ :=
  toLex (diffOf libraries entry candidate.postingDate, byteKey candidate.transactionId.toList)

/-- The nearest of the candidates that no link so far has claimed. -/
def bestCandidate (entry : ManualEntry) (candidates : List Candidate)
    (links : Table EntryLink.assumptionEventId) : Option Candidate :=
  (candidates.filter fun candidate =>
    candidate.transactionId ∉ links.rows.map EntryLink.linkedTransactionId).argmin
      (Candidate.key libraries entry)

/-- Link an entry. What is claimed is what the links so far are linked to. -/
def linkEntry (vault : LinkVault) (today : PayDates.NaiveDate)
    (links : Table EntryLink.assumptionEventId) (entry : ManualEntry) :
    Except RebuildError (Table EntryLink.assumptionEventId) :=
  match entry.accountId with
  | none => .ok links
  | some accountId => do
    let low ← orFail .overflow (checkedSubDays entry.occursOn recurringMatchWindowDays.toNat)
    let high ← orFail .overflow (checkedAddDays entry.occursOn recurringMatchWindowDays.toNat)
    let candidates := candidatesOf vault entry accountId (libraries.dayText low)
      (libraries.dayText high)
    match bestCandidate libraries entry candidates links with
    | none => return links
    | some best => (insertInto links
        ⟨entry.id, best.transactionId, best.postingDate, libraries.dayText today⟩).mapError .db

/-- `rebuild_links`: the table of the links is deleted and written again. -/
def rebuildLinks (vault : LinkVault) (today : PayDates.NaiveDate) :
    Except RebuildError LinkVault := do
  let entries ← activeManualEntries libraries vault
  let entryLinks ← entries.foldlM (linkEntry libraries vault today) .empty
  return { vault with entryLinks }

/-- `rebuild`: both rebuilds in one transaction. -/
def rebuild (vault : LinkVault) (today : PayDates.NaiveDate) : Except RebuildError LinkVault := do
  let vault ← rebuildInstances libraries vault today
  rebuildLinks libraries vault today

end Dohflow.DbWorker
