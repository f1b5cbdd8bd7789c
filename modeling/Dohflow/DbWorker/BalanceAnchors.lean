/-
This file models the balance of an account and the part of it that no posting explains.

The latest observation of an account, by its day, then by its creation, anchors the balance,
and only the postings dated after it move it. What the observation leaves unexplained is its
difference from the newest observation of an earlier day and the postings since. It can be
converted into a transaction on the day of the observation.

A book holds the ledger, the ids of the ledger accounts, and the observations. It is kept in
order by every step: an account has a ledger account of its own, a posting is dated as its
transaction, and an observation is dated by the text of a day.
-/

import Dohflow.DbWorker.ConnectorBalances
import Dohflow.Foundation.MachineIntegers

namespace Dohflow.DbWorker

open SyncCore CoreLedger Fallible KeyedTable CanonicalOrder Calendar MachineIntegers

/-! ### Observations of an account -/

/-- `account_id = ? AND source IN ('manual', 'connector_sync')` -/
def BalanceObservation.Anchors (account : Uuid) (row : BalanceObservation) : Prop :=
  row.accountId = account ∧ (row.source = .manual ∨ row.source = .connectorSync)

instance decidableAnchors (account : Uuid) (row : BalanceObservation) :
    Decidable (row.Anchors account) := inferInstanceAs (Decidable (_ ∧ _))

/-- `ORDER BY observed_at, created_at, id` -/
def BalanceObservation.anchorRank (row : BalanceObservation) : String ×ₗ String ×ₗ List ℕ :=
  toLex (row.observedAt, row.rank)

/-- The last of the account's observations among those dated within some days. -/
def newestObservation (observations : ObservationTable) (account : Uuid) (within : String → Prop)
    [DecidablePred within] : Option BalanceObservation :=
  (sortBy BalanceObservation.anchorRank
    (observations.rows.filter fun row => row.Anchors account ∧ within row.observedAt)).getLast?

def latestObservation (observations : ObservationTable) (account : Uuid) :
    Option BalanceObservation :=
  newestObservation observations account fun _ => True

def priorObservation (observations : ObservationTable) (account : Uuid) (observedAt : String) :
    Option BalanceObservation :=
  newestObservation observations account fun day => day < observedAt

/-! ### The book -/

/-- The ledger, and what is observed of its balances. -/
structure LedgerBook where
  store : ImportStore
  ledgerAccounts : Table (@id Uuid)
  observations : ObservationTable

/-- What the code takes from outside besides: the text of a day, its midnight, and the id that a
command derives for the transaction it makes. -/
structure BookLibraries extends ImportLibraries where
  dayText : NaiveDate → String
  midnightOf : NaiveDate → Int
  convertId : Uuid → Uuid

def ImportStore.postings (store : ImportStore) : List PostingRow :=
  store.transactions.rows.flatMap TransactionRow.postings

/-- The amounts that some postings add to a ledger account within some days. -/
def amountsOf (postings : List PostingRow) (ledgerAccount : Uuid) (within : String → Prop)
    [DecidablePred within] : List Int :=
  (postings.filter fun posting =>
    posting.ledgerAccountId = ledgerAccount ∧ within posting.postingDate).map
      fun posting => posting.minorUnits.toInt

/-- The amounts posted to a ledger account within some days. -/
def ImportStore.amounts (store : ImportStore) (ledgerAccount : Uuid) (within : String → Prop)
    [DecidablePred within] : List Int := amountsOf store.postings ledgerAccount within

/-- `SELECT COALESCE(SUM(minor_units), 0) FROM ledger_postings WHERE ledger_account_id = ? AND ...`,
which fails where a sum leaves 64 bits on the way. -/
def ImportStore.sumMinorUnits (store : ImportStore) (ledgerAccount : Uuid) (within : String → Prop)
    [DecidablePred within] : Except ImportError Int :=
  orMissing .sqlite (checkedSum 0 (store.amounts ledgerAccount within))

namespace LedgerBook

def assertionAnchoredBalance (book : LedgerBook) (account ledgerAccount : Uuid) :
    Except ImportError Int :=
  match latestObservation book.observations account with
  | some latest => do
    let after ← book.store.sumMinorUnits ledgerAccount fun day => latest.observedAt < day
    orMissing (.invalidCommand "balance overflow")
      (checkedI64 (latest.balance.minorUnits.toInt + after))
  | none => book.store.sumMinorUnits ledgerAccount fun _ => True

/-- The days of the postings that may explain an observation. -/
def Window (prior : Option BalanceObservation) (observedAt day : String) : Prop :=
  (∀ row ∈ prior, row.observedAt < day) ∧ day ≤ observedAt

instance decidableWindow (prior : Option BalanceObservation) (observedAt : String) :
    DecidablePred (Window prior observedAt) := fun day =>
  match prior with
  | some row => decidable_of_iff (row.observedAt < day ∧ day ≤ observedAt) (by simp [Window])
  | none => decidable_of_iff (day ≤ observedAt) (by simp [Window])

/-- The balance that an observation starts from. -/
def priorMinor (prior : Option BalanceObservation) : Int :=
  prior.elim 0 fun row => row.balance.minorUnits.toInt

def unexplainedAdjustment (book : LedgerBook) (account ledgerAccount : Uuid) :
    Except ImportError (Option Int) :=
  match latestObservation book.observations account with
  | none => .ok none
  | some latest =>
    let prior := priorObservation book.observations account latest.observedAt
    if prior = none ∧ latest.source = .connectorSync then .ok none
    else do
      let inWindow ← book.store.sumMinorUnits ledgerAccount (Window prior latest.observedAt)
      let explained ← orMissing (.invalidCommand "adjustment overflow")
        (checkedI64 (priorMinor prior + inWindow))
      let unexplained ← orMissing (.invalidCommand "adjustment overflow")
        (checkedI64 (latest.balance.minorUnits.toInt - explained))
      return some unexplained

variable (libraries : BookLibraries)

/-- The account of the system for a role and a currency, which is made when it is not there. -/
def ensureSystemLedgerAccount (book : LedgerBook) (role : String) (currency : Currency) :
    Except ImportError (Uuid × LedgerBook) :=
  match book.store.systemAccounts.find? fun row => row.role = role ∧ row.currency = currency with
  | some row => .ok (row.ledgerAccountId, book)
  | none => do
    let id := libraries.systemAccountId role currency
    let ledgerAccounts ← insertInto book.ledgerAccounts id
    let systemAccounts := book.store.systemAccounts ++ [⟨role, currency, id⟩]
    return (id, { book with ledgerAccounts, store := { book.store with systemAccounts } })

/-- `persist_transaction` -/
def post (book : LedgerBook) (transaction : LedgerTransaction) : Except ImportError LedgerBook := do
  let store ← book.store.persistTransaction libraries.toImportLibraries transaction
  return { book with store }

def applyConvertUnexplainedToTransaction (book : LedgerBook) (commandMeta : ImportMeta)
    (accountId : Uuid) : Except ImportError LedgerBook := do
  let account ← orMissing (.invalidCommand "convert references an unknown account")
    (book.store.accounts.find accountId)
  let currency ← currencyFromCode account.currency
  let residual := (← book.unexplainedAdjustment accountId account.ledgerAccountId).getD 0
  ensure (residual ≠ 0)
    (.invalidCommand "nothing to convert — the balance is already explained")
  let latest ← orMissing .sqlite (latestObservation book.observations accountId)
  let day ← orMissing (.invalidCommand "invalid assertion date")
    (libraries.parseDate latest.observedAt)
  let role := if 0 < residual then "unmatched_income" else "unmatched_expense"
  let (counter, book) ← book.ensureSystemLedgerAccount libraries role currency
  let transaction ← balancedTransaction (.given (libraries.convertId commandMeta.commandId))
    commandMeta.commandId (libraries.midnightOf day) account.ledgerAccountId counter
    ⟨Int64.ofInt residual, currency⟩
  book.post libraries transaction

/-- `reverse_and_hide_transaction` -/
def reverseAndHide (book : LedgerBook) (original : TransactionRow) (commandId : Uuid)
    (voidedAt : String) : Except ImportError LedgerBook := do
  let store ← book.store.reverseAndHideTransaction libraries.toImportLibraries original commandId
    voidedAt
  return { book with store }

/-- What creating an account writes, without its opening balance. -/
def insertAccount (book : LedgerBook) (account : AccountRow) : Except ImportError LedgerBook := do
  let ledgerAccounts ← insertInto book.ledgerAccounts account.ledgerAccountId
  let accounts ← insertInto book.store.accounts account
  return { book with ledgerAccounts, store := { book.store with accounts } }

/-- What recording an observation writes. -/
def insertObservation (book : LedgerBook) (row : BalanceObservation) :
    Except ImportError LedgerBook := do
  let observations ← insertInto book.observations row
  return { book with observations }

end LedgerBook

/-! ### The newest observation -/

variable {observations : ObservationTable} {account ledgerAccount : Uuid} {within : String → Prop}
  [DecidablePred within] {row other : BalanceObservation}

theorem BalanceObservation.anchorRank_le : row.anchorRank ≤ other.anchorRank ↔
    row.observedAt < other.observedAt ∨
      row.observedAt = other.observedAt ∧ row.rank ≤ other.rank := Prod.Lex.le_iff

theorem newestObservation_eq_some : newestObservation observations account within = some row ↔
    (row ∈ observations.rows ∧ row.Anchors account ∧ within row.observedAt) ∧
      ∀ other ∈ observations.rows, other.Anchors account → within other.observedAt →
        other.anchorRank ≤ row.anchorRank := by
  have ranked : ∀ first ∈ observations.rows.filter
      (fun row => row.Anchors account ∧ within row.observedAt), ∀ second ∈ observations.rows.filter
        (fun row => row.Anchors account ∧ within row.observedAt),
      first.anchorRank = second.anchorRank → first = second := by
    intro first firstIn second secondIn same
    refine Table.eq_of_key_eq (List.mem_filter.mp firstIn).1 (List.mem_filter.mp secondIn).1 ?_
    -- The last part of the rank is the id.
    have ranks := (Prod.mk.inj (toLex.injective same)).2
    have ids := byteKey_injective (Prod.mk.inj (toLex.injective ranks)).2
    exact Subtype.ext ids
  rw [newestObservation, getLast?_sortBy ranked]
  simp only [List.mem_filter, decide_eq_true_eq, and_imp]

theorem newestObservation_eq_none : newestObservation observations account within = none ↔
    ∀ row ∈ observations.rows, row.Anchors account → ¬within row.observedAt := by
  rw [newestObservation, List.getLast?_eq_none_iff, ← List.length_eq_zero_iff, length_sortBy,
    List.length_eq_zero_iff, List.filter_eq_nil_iff]
  simp only [decide_eq_true_eq, not_and]

/-! ### Sums of postings -/

variable {store : ImportStore} {sum : Int}

theorem amountsOf_append (first second : List PostingRow) :
    amountsOf (first ++ second) ledgerAccount within =
      amountsOf first ledgerAccount within ++ amountsOf second ledgerAccount within := by
  rw [amountsOf, List.filter_append, List.map_append]
  rfl

theorem eq_of_sumMinorUnits (summed : store.sumMinorUnits ledgerAccount within = .ok sum) :
    sum = (store.amounts ledgerAccount within).sum := by
  rw [eq_of_checkedSum (orMissing_eq_ok.mp summed), Int.zero_add]

theorem sumMinorUnits_of_fits (fits : MachineIntegers.Fits 0 (store.amounts ledgerAccount within)) :
    store.sumMinorUnits ledgerAccount within = .ok (store.amounts ledgerAccount within).sum := by
  rw [ImportStore.sumMinorUnits, checkedSum_of_fits fits, Int.zero_add]
  rfl

end Dohflow.DbWorker
