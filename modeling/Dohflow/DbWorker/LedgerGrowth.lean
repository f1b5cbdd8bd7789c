/-
This file proves what the commands that write the ledger do to it.

A transaction that is there keeps its operation, its instant and its postings; only its mark of
being voided may change. New transactions are made in the name of the command, and the ledger
account of a new account is a new one. A transaction never posts twice on an account: its other
side is an account of the system or another account, and a reversal posts where its original did.
-/

import Dohflow.DbWorker.LedgerCommands
import Dohflow.Foundation.PrefixFree

namespace Dohflow.DbWorker

open SyncCore CoreLedger Fallible KeyedTable

variable {libraries : CommandLibraries} {book middle after : LedgerBook}
  {commandMeta : ImportMeta} {operationId : Uuid}

/-! ### What stays of the ledger -/

/-- A transaction without its mark of being voided. -/
def TransactionRow.unvoided (row : TransactionRow) : TransactionRow := { row with voidedAt := none }

/-- The postings of a transaction, two at least, are of one day and sum to zero. -/
structure TransactionRow.Balanced (row : TransactionRow) : Prop where
  twoOrMore : 2 ≤ row.postings.length
  oneDay : ∃ day, ∀ posting ∈ row.postings, posting.postingDate = day
  balances : (row.postings.map fun posting => posting.minorUnits.toInt).sum = 0

/-- Another state of the tables has the same ledger, but for what is voided. -/
structure ImportStore.SameLedger (before after : ImportStore) : Prop where
  accounts : after.accounts = before.accounts
  systemAccounts : after.systemAccounts = before.systemAccounts
  transactions : after.transactions.rows.map TransactionRow.unvoided =
    before.transactions.rows.map TransactionRow.unvoided

namespace ImportStore.SameLedger

variable {first second third : ImportStore}
variable (store : ImportStore)

theorem refl : SameLedger store store := ⟨rfl, rfl, rfl⟩

theorem trans (early : SameLedger first second) (late : SameLedger second third) :
    SameLedger first third where
  accounts := late.accounts.trans early.accounts
  systemAccounts := late.systemAccounts.trans early.systemAccounts
  transactions := late.transactions.trans early.transactions

theorem markVoided (ids : List TransactionId) (voidedAt : String) :
    SameLedger store (store.markVoided ids voidedAt) := by
  refine ⟨rfl, rfl, ?_⟩
  show List.map _ (List.map _ _) = _
  rw [List.map_map]
  refine List.map_congr_left fun row _ => ?_
  rw [Function.comp_apply]
  split
  · rfl
  · rfl

theorem recordTransactionDetail (detail : DetailRow) :
    SameLedger store (store.recordTransactionDetail detail) := by
  rw [ImportStore.recordTransactionDetail]
  split
  · exact refl store
  · exact ⟨rfl, rfl, rfl⟩

theorem categorize (row : CategorizationRow) : SameLedger store (store.categorize row) := by
  rw [ImportStore.categorize]
  split
  · exact ⟨rfl, rfl, rfl⟩
  · exact refl store

theorem annotate (command : CommitImported) :
    SameLedger store (store.annotate commandMeta command) := by
  rw [ImportStore.annotate]
  split
  · exact (recordTransactionDetail store _).trans (categorize _ _)
  · exact recordTransactionDetail store _

end ImportStore.SameLedger

namespace LedgerBook

variable {store : ImportStore} {currency : Currency} {transaction : LedgerTransaction}
  {staged : StagedTransaction} {command : CommitImported} {account : AccountRow}
  {id : TransactionId} {posting : Posting} {occurredAt : Int}

/-- What a command adds to the book in its name. -/
structure Grows (operationId : Uuid) (before after : LedgerBook) : Prop where
  kept : ∀ account ∈ before.store.accounts.rows, account ∈ after.store.accounts.rows
  opened : ∀ account ∈ after.store.accounts.rows, account ∈ before.store.accounts.rows ∨
    account.ledgerAccountId ∉ before.ledgerAccounts.rows
  ledgerAccounts : ∀ id ∈ before.ledgerAccounts.rows, id ∈ after.ledgerAccounts.rows
  transactions : ∃ added, after.store.transactions.rows.map TransactionRow.unvoided =
    before.store.transactions.rows.map TransactionRow.unvoided ++ added ∧
      ∀ row ∈ added, row.operationId = operationId ∧ row.Balanced

theorem Grows.refl (book : LedgerBook) : Grows operationId book book :=
  ⟨fun _ => id, fun _ => .inl, fun _ => id, [], (List.append_nil _).symm, List.forall_mem_nil _⟩

theorem Grows.trans (early : Grows operationId book middle)
    (late : Grows operationId middle after) : Grows operationId book after := by
  obtain ⟨first, firstRows, firstMade⟩ := early.transactions
  obtain ⟨second, secondRows, secondMade⟩ := late.transactions
  refine ⟨fun account member => late.kept account (early.kept account member),
    fun account member => ?_, fun id member => late.ledgerAccounts id
      (early.ledgerAccounts id member), first ++ second, ?_, ?_⟩
  · rcases late.opened account member with held | fresh
    · exact early.opened account held
    · exact .inr fun taken => fresh (early.ledgerAccounts _ taken)
  · rw [secondRows, firstRows, List.append_assoc]
  · exact List.forall_mem_append.mpr ⟨firstMade, secondMade⟩

theorem Grows.of_same (same : book.store.SameLedger store) :
    Grows operationId book { book with store } := by
  refine ⟨fun account member => same.accounts ▸ member,
    fun account member => .inl (same.accounts ▸ member), fun _ => id, [], ?_,
    List.forall_mem_nil _⟩
  rw [List.append_nil]
  exact same.transactions

/-! ### Where transactions post -/

/-- An account has a ledger account of its own, and a transaction posts on it once. -/
structure Placed (book : LedgerBook) : Prop where
  owned : ∀ account ∈ book.store.accounts.rows,
    account.ledgerAccountId ∈ book.ledgerAccounts.rows
  systemOwned : ∀ system ∈ book.store.systemAccounts,
    system.ledgerAccountId ∈ book.ledgerAccounts.rows
  single : ∀ first ∈ book.store.accounts.rows, ∀ second ∈ book.store.accounts.rows,
    first.ledgerAccountId = second.ledgerAccountId → first = second
  apart : ∀ account ∈ book.store.accounts.rows, ∀ system ∈ book.store.systemAccounts,
    account.ledgerAccountId ≠ system.ledgerAccountId
  posted : ∀ row ∈ book.store.transactions.rows.map TransactionRow.unvoided,
    ∀ posting ∈ row.postings, posting.ledgerAccountId ∈ book.ledgerAccounts.rows
  once : ∀ row ∈ book.store.transactions.rows.map TransactionRow.unvoided,
    ∀ first ∈ row.postings, ∀ second ∈ row.postings,
      first.ledgerAccountId = second.ledgerAccountId → first = second

/-- What a command leaves of a book in order: one in order, that has grown. -/
structure Writes (operationId : Uuid) (before after : LedgerBook) : Prop where
  placed : after.Placed
  grows : Grows operationId before after

theorem Placed.of_same (placed : book.Placed) (same : book.store.SameLedger store) :
    ({ book with store }).Placed := by
  obtain ⟨owned, systemOwned, single, apart, posted, once⟩ := placed
  constructor
  · rwa [same.accounts]
  · rwa [same.systemAccounts]
  · rwa [same.accounts]
  · rwa [same.accounts, same.systemAccounts]
  · rwa [same.transactions]
  · rwa [same.transactions]

theorem Writes.refl (placed : book.Placed) : Writes operationId book book := ⟨placed, .refl book⟩

theorem Writes.of_same (placed : book.Placed) (same : book.store.SameLedger store) :
    Writes operationId book { book with store } :=
  ⟨placed.of_same same, .of_same same⟩

theorem Writes.trans (early : Writes operationId book middle)
    (late : Writes operationId middle after) : Writes operationId book after :=
  ⟨late.placed, early.grows.trans late.grows⟩

theorem writes_post (placed : book.Placed) (named : transaction.operationId = operationId)
    (posted : ∀ posting ∈ transaction.postings, posting.account ∈ book.ledgerAccounts.rows)
    (once : ∀ first ∈ transaction.postings, ∀ second ∈ transaction.postings,
      first.account = second.account → first = second)
    (done : book.post libraries.toBookLibraries transaction = .ok after) :
    Writes operationId book after := by
  obtain ⟨store, persisted, same⟩ := bind_eq_ok.mp done
  obtain rfl := Except.ok.inj same
  obtain ⟨transactions, inserted, same⟩ := bind_eq_ok.mp persisted
  obtain rfl := Except.ok.inj same
  obtain ⟨-, rows⟩ := Table.insert_eq_some_iff.mp (orMissing_eq_ok.mp inserted)
  have added := congrArg (List.map TransactionRow.unvoided) rows
  rw [List.map_append, List.map_singleton] at added
  constructor
  · refine ⟨placed.owned, placed.systemOwned, placed.single, placed.apart, ?_, ?_⟩
    · dsimp only
      rw [added]
      refine List.forall_mem_append.mpr ⟨placed.posted, List.forall_mem_singleton.mpr ?_⟩
      rintro _ inside
      obtain ⟨posting, member, rfl⟩ := List.mem_map.mp inside
      exact posted posting member
    · dsimp only
      rw [added]
      refine List.forall_mem_append.mpr ⟨placed.once, List.forall_mem_singleton.mpr ?_⟩
      rintro _ firstInside _ secondInside equal
      obtain ⟨first, firstIn, rfl⟩ := List.mem_map.mp firstInside
      obtain ⟨second, secondIn, rfl⟩ := List.mem_map.mp secondInside
      rw [once first firstIn second secondIn equal]
  · refine ⟨fun _ => id, fun _ => .inl, fun _ => id, _, added, List.forall_mem_singleton.mpr
      ⟨named, ?_, ⟨libraries.dateText transaction.occurredAt, ?_⟩, ?_⟩⟩
    · exact (List.length_map _).symm ▸ transaction.twoOrMore
    · exact List.forall_mem_map.mpr fun _ _ => rfl
    · exact (congrArg List.sum List.map_map).trans transaction.sum_postings

theorem writes_post_two {id : TransactionId} {occurredAt : Int} {first second : Uuid}
    {amount other : Money} {transaction : LedgerTransaction} (placed : book.Placed)
    (firstIn : first ∈ book.ledgerAccounts.rows) (secondIn : second ∈ book.ledgerAccounts.rows)
    (apart : first ≠ second)
    (built : LedgerTransaction.new id operationId occurredAt [⟨first, amount⟩, ⟨second, other⟩] =
      .ok transaction)
    (done : book.post libraries.toBookLibraries transaction = .ok after) :
    Writes operationId book after := by
  obtain ⟨-, named, -, postings⟩ := LedgerTransaction.of_new built
  refine writes_post placed named ?_ ?_ done
  · rw [postings]
    exact List.forall_mem_cons.mpr ⟨firstIn, List.forall_mem_singleton.mpr secondIn⟩
  · rw [postings]
    intro one oneIn two twoIn same
    rcases List.mem_pair.mp oneIn with rfl | rfl
    · rcases List.mem_pair.mp twoIn with rfl | rfl
      · rfl
      · exact absurd same apart
    · rcases List.mem_pair.mp twoIn with rfl | rfl
      · exact absurd same.symm apart
      · rfl

/-! ### The accounts of the system -/

theorem writes_ensureSystemLedgerAccount {role : String} {currency : Currency} {counter : Uuid}
    (placed : book.Placed)
    (ensured : book.ensureSystemLedgerAccount libraries.toBookLibraries role currency =
      .ok (counter, middle)) :
    Writes operationId book middle ∧ middle.store.accounts = book.store.accounts ∧
      counter ∈ middle.ledgerAccounts.rows ∧
      ∀ account ∈ book.store.accounts.rows, account.ledgerAccountId ≠ counter := by
  rw [LedgerBook.ensureSystemLedgerAccount] at ensured
  split at ensured
  · next system found =>
    obtain ⟨rfl, rfl⟩ := Prod.mk.inj (Except.ok.inj ensured)
    have member := List.mem_of_find?_eq_some found
    exact ⟨.refl placed, rfl, placed.systemOwned system member,
      fun account inside => placed.apart account inside system member⟩
  · obtain ⟨ledgerAccounts, inserted, same⟩ := bind_eq_ok.mp ensured
    obtain ⟨free, rows⟩ := Table.insert_eq_some_iff.mp (orMissing_eq_ok.mp inserted)
    obtain ⟨rfl, rfl⟩ := Prod.mk.inj (Except.ok.inj same)
    have fresh := Table.find_eq_none_iff.mp free
    have apart : ∀ account ∈ book.store.accounts.rows,
        account.ledgerAccountId ≠ libraries.systemAccountId role currency :=
      fun account member => fresh _ (placed.owned account member)
    have wider : ∀ id ∈ book.ledgerAccounts.rows, id ∈ ledgerAccounts.rows := by
      intro id member
      rw [rows]
      exact List.mem_append_left _ member
    have made : libraries.systemAccountId role currency ∈ ledgerAccounts.rows := by
      rw [rows]
      exact List.mem_append_right _ List.mem_cons_self
    refine ⟨⟨⟨fun account member => wider _ (placed.owned account member), ?_, placed.single, ?_,
      fun row member posting inside => wider _ (placed.posted row member posting inside),
      placed.once⟩, ⟨fun _ => id, fun _ => .inl, wider, [], (List.append_nil _).symm,
        List.forall_mem_nil _⟩⟩, rfl, made, apart⟩
    · exact List.forall_mem_append.mpr ⟨fun system member => wider _
        (placed.systemOwned system member), List.forall_mem_singleton.mpr made⟩
    · intro account member
      exact List.forall_mem_append.mpr ⟨placed.apart account member,
        List.forall_mem_singleton.mpr (apart account member)⟩

theorem Placed.ensureSystemLedgerAccount {role : String} {counter : Uuid} (placed : book.Placed)
    (ensured : book.ensureSystemLedgerAccount libraries.toBookLibraries role currency =
      .ok (counter, middle)) : middle.Placed :=
  (@writes_ensureSystemLedgerAccount libraries book middle (.replicate 16 0) _ _ _ placed
    ensured).1.placed

theorem writes_postAgainst {role : String} {id : TransactionId} {occurredAt : Int}
    {account : AccountRow} {amount : Money} (placed : book.Placed)
    (member : account ∈ book.store.accounts.rows)
    (done : book.postAgainst libraries commandMeta role id occurredAt account.ledgerAccountId
      amount = .ok after) : Writes commandMeta.commandId book after := by
  obtain ⟨⟨counter, middle⟩, ensured, done⟩ := bind_eq_ok.mp done
  obtain ⟨transaction, built, done⟩ := bind_eq_ok.mp done
  obtain ⟨negated, -, built⟩ := bind_eq_ok.mp built
  obtain ⟨writes, accounts, counterIn, apart⟩ := writes_ensureSystemLedgerAccount placed ensured
  refine writes.trans (writes_post_two writes.placed ?_ counterIn (apart account member)
    (mapError_eq_ok.mp built) done)
  exact writes.placed.owned account (accounts ▸ member)

/-! ### Every command -/

theorem writes_insertAccount (placed : book.Placed)
    (inserted : book.insertAccount account = .ok after) :
    Writes operationId book after ∧ account ∈ after.store.accounts.rows := by
  obtain ⟨ledgerAccounts, taken, rest⟩ := bind_eq_ok.mp inserted
  obtain ⟨accounts, added, same⟩ := bind_eq_ok.mp rest
  obtain rfl := Except.ok.inj same
  obtain ⟨free, ids⟩ := Table.insert_eq_some_iff.mp (orMissing_eq_ok.mp taken)
  obtain ⟨-, rows⟩ := Table.insert_eq_some_iff.mp (orMissing_eq_ok.mp added)
  have fresh := Table.find_eq_none_iff.mp free
  have unused : account.ledgerAccountId ∉ book.ledgerAccounts.rows :=
    fun member => fresh _ member rfl
  have wider : ∀ id ∈ book.ledgerAccounts.rows, id ∈ ledgerAccounts.rows := by
    intro id member
    rw [ids]
    exact List.mem_append_left _ member
  have last : account ∈ accounts.rows := by
    rw [rows]
    exact List.mem_append_right _ List.mem_cons_self
  have either {other : AccountRow} (member : other ∈ accounts.rows) :
      other ∈ book.store.accounts.rows ∨ other = account := by
    rwa [rows, List.mem_append, List.mem_singleton] at member
  refine ⟨⟨⟨fun other member => ?_,
    fun system member => wider _ (placed.systemOwned system member),
    fun first firstIn second secondIn same => ?_, fun other member system inside => ?_,
    fun row member posting inside => wider _ (placed.posted row member posting inside),
    placed.once⟩, ⟨fun other member => ?_, fun other member => ?_, wider, [],
      (List.append_nil _).symm, List.forall_mem_nil _⟩⟩, last⟩
  · rcases either member with held | rfl
    · exact wider _ (placed.owned other held)
    · show _ ∈ ledgerAccounts.rows
      rw [ids]
      exact List.mem_append_right _ List.mem_cons_self
  · rcases either firstIn with firstOld | rfl
    · rcases either secondIn with secondOld | rfl
      · exact placed.single first firstOld second secondOld same
      · exact absurd (same ▸ placed.owned first firstOld) unused
    · rcases either secondIn with secondOld | rfl
      · exact absurd (same ▸ placed.owned second secondOld) unused
      · rfl
  · rcases either member with held | rfl
    · exact placed.apart other held system inside
    · exact fun same => unused (same ▸ placed.systemOwned system inside)
  · show _ ∈ accounts.rows
    rw [rows]
    exact List.mem_append_left _ member
  · rcases either member with held | rfl
    · exact .inl held
    · exact .inr unused

/-- The posting that takes a leg back. -/
def takenBack (currency : Currency) (leg : PostingRow) : Except ImportError Posting :=
  match Money.checkedNeg ⟨leg.minorUnits, currency⟩ with
  | .ok amount => .ok ⟨leg.ledgerAccountId, amount⟩
  | .error error => .error (.money error)

theorem account_of_leg {leg : PostingRow} (made : takenBack currency leg = .ok posting) :
    leg.ledgerAccountId = posting.account := by
  unfold takenBack at made
  split at made
  · obtain rfl := Except.ok.inj made
    rfl
  · cases made

theorem exists_leg {legs : List PostingRow} {postings : List Posting}
    (taken : ImportStore.reversalPostings currency legs = .ok postings)
    (member : posting ∈ postings) : ∃ leg ∈ legs, takenBack currency leg = .ok posting := by
  obtain ⟨leg, sorted, made⟩ := PrefixFree.exists_of_mem_mapM taken member
  exact ⟨leg, (List.mem_insertionSort _).mp sorted, made⟩

theorem writes_reverseAndHide {original : TransactionRow} {voidedAt : String}
    (placed : book.Placed) (member : original ∈ book.store.transactions.rows)
    (reversed : book.reverseAndHide libraries.toBookLibraries original operationId voidedAt =
      .ok after) : Writes operationId book after := by
  obtain ⟨stored, done, same⟩ := bind_eq_ok.mp reversed
  obtain rfl := Except.ok.inj same
  obtain ⟨postings, taken, done⟩ := bind_eq_ok.mp done
  obtain ⟨reversal, built, done⟩ := bind_eq_ok.mp done
  obtain ⟨posted, persisted, same⟩ := bind_eq_ok.mp done
  obtain rfl := Except.ok.inj same
  obtain ⟨-, named, -, same⟩ := LedgerTransaction.of_new (mapError_eq_ok.mp built)
  have inside : original.unvoided ∈ book.store.transactions.rows.map TransactionRow.unvoided :=
    List.mem_map_of_mem member
  have writes : Writes operationId book { book with store := posted } := by
    refine writes_post placed named ?_ ?_ (bind_eq_ok.mpr ⟨posted, persisted, rfl⟩)
    · rw [same]
      intro posting member
      obtain ⟨leg, legIn, made⟩ := exists_leg taken member
      exact (account_of_leg made) ▸ placed.posted _ inside leg legIn
    · rw [same]
      intro first firstIn second secondIn equal
      obtain ⟨leg, legIn, made⟩ := exists_leg taken firstIn
      obtain ⟨other, otherIn, madeToo⟩ := exists_leg taken secondIn
      rw [← account_of_leg made, ← account_of_leg madeToo] at equal
      rw [placed.once _ inside leg legIn other otherIn equal, madeToo] at made
      exact (Except.ok.inj made).symm
  exact writes.trans (.of_same writes.placed (.markVoided posted _ _))

theorem writes_of_createAccount {openingBalance : Option Money} (placed : book.Placed)
    (done : book.applyCreateAccount libraries commandMeta account openingBalance = .ok after) :
    Writes commandMeta.commandId book after := by
  obtain ⟨-, done⟩ := ensure_bind_eq_ok.mp done
  obtain ⟨opened, inserted, done⟩ := bind_eq_ok.mp done
  obtain ⟨writes, member⟩ := writes_insertAccount placed inserted
  cases openingBalance with
  | none => exact Except.ok.inj done ▸ writes
  | some opening =>
    dsimp only at done
    split at done
    · exact Except.ok.inj done ▸ writes
    · exact writes.trans (writes_postAgainst writes.placed member done)

theorem writes_of_recordTransaction {transactionId accountId : Uuid} {amount : Money}
    (placed : book.Placed)
    (done : book.applyRecordTransaction libraries commandMeta transactionId accountId amount
      occurredAt = .ok after) : Writes commandMeta.commandId book after := by
  obtain ⟨-, done⟩ := ensure_bind_eq_ok.mp done
  obtain ⟨account, found, done⟩ := bind_eq_ok.mp done
  obtain ⟨currency, -, done⟩ := bind_eq_ok.mp done
  obtain ⟨-, done⟩ := ensure_bind_eq_ok.mp done
  exact writes_postAgainst placed
    (Table.find_eq_some_iff.mp (orMissing_eq_ok.mp found)).1 done

theorem writes_of_convert {accountId : Uuid} (placed : book.Placed)
    (done : book.applyConvertUnexplainedToTransaction libraries.toBookLibraries commandMeta
      accountId = .ok after) : Writes commandMeta.commandId book after := by
  obtain ⟨account, found, done⟩ := bind_eq_ok.mp done
  obtain ⟨currency, -, done⟩ := bind_eq_ok.mp done
  obtain ⟨residual, -, done⟩ := bind_eq_ok.mp done
  obtain ⟨-, done⟩ := ensure_bind_eq_ok.mp done
  obtain ⟨latest, -, done⟩ := bind_eq_ok.mp done
  obtain ⟨day, -, done⟩ := bind_eq_ok.mp done
  -- What is left is the posting of the residual against the system's account.
  exact @writes_postAgainst libraries book after commandMeta _ _ _ account
    ⟨Int64.ofInt (residual.getD 0), currency⟩ placed
    (Table.find_eq_some_iff.mp (orMissing_eq_ok.mp found)).1 done

theorem writes_of_postCommit {batch : Uuid} {first second : Uuid} {amount other : Money}
    (placed : book.Placed) (firstIn : first ∈ book.ledgerAccounts.rows)
    (secondIn : second ∈ book.ledgerAccounts.rows) (apart : first ≠ second)
    (built : LedgerTransaction.new id commandMeta.commandId occurredAt
      [⟨first, amount⟩, ⟨second, other⟩] = .ok transaction)
    (done : book.store.postCommit libraries.toImportLibraries commandMeta command batch
      transaction = .ok store) : Writes commandMeta.commandId book { book with store } := by
  obtain ⟨persisted, posted, done⟩ := bind_eq_ok.mp done
  obtain ⟨provenance, -, done⟩ := bind_eq_ok.mp done
  obtain ⟨decisions, -, done⟩ := bind_eq_ok.mp done
  obtain rfl := Except.ok.inj done
  have writes : Writes commandMeta.commandId book { book with store := persisted } :=
    @writes_post_two libraries book _ _ _ _ _ _ _ _ _ placed firstIn secondIn apart built
      (bind_eq_ok.mpr ⟨persisted, posted, rfl⟩)
  have annotated := @ImportStore.SameLedger.annotate commandMeta { persisted with provenance }
    command
  exact writes.trans (.of_same writes.placed ⟨annotated.accounts, annotated.systemAccounts,
    annotated.transactions⟩)

theorem writes_of_commitImported (placed : book.Placed)
    (done : book.applyCommitImportedTransaction libraries commandMeta command = .ok after) :
    Writes commandMeta.commandId book after := by
  obtain ⟨⟨account, record⟩, checked, done⟩ := bind_eq_ok.mp done
  have member : account ∈ book.store.accounts.rows := by
    obtain ⟨-, checked⟩ := ensure_bind_eq_ok.mp checked
    obtain ⟨-, checked⟩ := ensure_bind_eq_ok.mp checked
    obtain ⟨-, checked⟩ := ensure_bind_eq_ok.mp checked
    obtain ⟨row, found, checked⟩ := bind_eq_ok.mp checked
    obtain ⟨-, checked⟩ := ensure_bind_eq_ok.mp checked
    obtain ⟨-, checked⟩ := ensure_bind_eq_ok.mp checked
    obtain ⟨_, -, same⟩ := bind_eq_ok.mp checked
    obtain ⟨rfl, -⟩ := Prod.mk.inj (Except.ok.inj same)
    exact (Table.find_eq_some_iff.mp (orMissing_eq_ok.mp found)).1
  dsimp only at done
  split at done
  · obtain rfl := Except.ok.inj done
    exact .refl placed
  · obtain ⟨⟨counter, middle⟩, ensured, done⟩ := bind_eq_ok.mp done
    obtain ⟨transaction, built, done⟩ := bind_eq_ok.mp done
    obtain ⟨store, posted, same⟩ := bind_eq_ok.mp done
    obtain rfl := Except.ok.inj same
    obtain ⟨negated, -, built⟩ := bind_eq_ok.mp built
    obtain ⟨writes, accounts, counterIn, apart⟩ := writes_ensureSystemLedgerAccount placed ensured
    refine writes.trans (writes_of_postCommit writes.placed
      (writes.placed.owned account (accounts ▸ member)) counterIn (apart account member)
      (mapError_eq_ok.mp built) posted)

theorem writes_of_settleStaged (placed : book.Placed)
    (done : book.settleStaged libraries commandMeta staged id = .ok after) :
    Writes operationId book after := by
  obtain ⟨provenance, -, done⟩ := bind_eq_ok.mp done
  have marked : book.store.SameLedger
      (({ book.store with provenance }).markStagedCommitted staged.id id) := ⟨rfl, rfl, rfl⟩
  have detailed := marked.trans (.recordTransactionDetail _ ⟨id, staged.description,
    staged.normalizedMerchant, staged.transactionDate.bind libraries.parseDate,
      commandMeta.issuedAt⟩)
  dsimp only at done
  split at done
  · exact Except.ok.inj done ▸ .of_same placed (detailed.trans (.categorize _ _))
  · exact Except.ok.inj done ▸ .of_same placed detailed

theorem exists_account_of_commitTarget {target : CommitTarget}
    (aimed : book.store.commitTarget libraries.toImportLibraries staged = .ok (.ok target)) :
    ∃ account ∈ book.store.accounts.rows, account.ledgerAccountId = target.ledgerUuid := by
  unfold ImportStore.commitTarget at aimed
  split at aimed
  · cases aimed
  · split at aimed
    · cases aimed
    · next account found =>
      split at aimed
      · cases aimed
      · obtain ⟨currency, -, aimed⟩ := bind_eq_ok.mp aimed
        dsimp only at aimed
        split at aimed
        · cases aimed
        · split at aimed
          · cases aimed
          · obtain rfl := Except.ok.inj (Except.ok.inj aimed)
            exact ⟨account, (Table.find_eq_some_iff.mp found).1, rfl⟩

theorem writes_of_commitStaged {stagedTransactionId : Uuid} {force : Bool} (placed : book.Placed)
    (done : book.applyCommitStaged libraries commandMeta stagedTransactionId force = .ok after) :
    Writes commandMeta.commandId book after := by
  obtain ⟨staged, -, done⟩ := bind_eq_ok.mp done
  obtain ⟨-, done⟩ := ensure_bind_eq_ok.mp done
  obtain ⟨_, -, done⟩ := bind_eq_ok.mp done
  obtain ⟨reason, -, done⟩ := bind_eq_ok.mp done
  cases reason with
  | some matched =>
    obtain rfl := Except.ok.inj done
    exact .of_same placed ⟨rfl, rfl, rfl⟩
  | none =>
    obtain ⟨target, aimed, done⟩ := bind_eq_ok.mp done
    cases target with
    | error problem =>
      dsimp only at done
      split at done
      · cases done
      · obtain rfl := Except.ok.inj done
        exact .of_same placed ⟨rfl, rfl, rfl⟩
    | ok target =>
      obtain ⟨posted, against, done⟩ := bind_eq_ok.mp done
      obtain ⟨account, member, own⟩ := exists_account_of_commitTarget aimed
      rw [← own] at against
      have writes := writes_postAgainst placed member against
      exact writes.trans (writes_of_settleStaged writes.placed done)

theorem writes_of_void {transactionId : TransactionId} (placed : book.Placed)
    (done : book.applyVoidTransaction libraries commandMeta transactionId = .ok after) :
    Writes commandMeta.commandId book after := by
  obtain ⟨original, found, done⟩ := bind_eq_ok.mp done
  obtain ⟨-, done⟩ := ensure_bind_eq_ok.mp done
  exact writes_reverseAndHide placed
    (Table.find_eq_some_iff.mp (orMissing_eq_ok.mp found)).1 done

end LedgerBook

namespace LedgerVault

open LedgerBook

variable {vault done : LedgerVault}
variable {scheduledDate : NaiveDate} {account : AccountRow} {actualAmount : Money}
  {actualDate : Int}

theorem mem_of_transferLeg {accountId : Uuid} {role : String}
    (found : vault.transferLeg accountId = .ok (account, role)) :
    account ∈ vault.book.store.accounts.rows ∧ account.id = accountId := by
  obtain ⟨row, stored, rest⟩ := Option.bind_eq_some_iff.mp (orMissing_eq_ok.mp found)
  obtain ⟨_, -, same⟩ := Option.map_eq_some_iff.mp rest
  obtain ⟨rfl, -⟩ := Prod.mk.inj same
  exact Table.find_eq_some_iff.mp stored

theorem writes_of_transfer {sourceAccountId destAccountId : Uuid} {amount : Money}
    {occurredAt : Int} (placed : vault.book.Placed)
    (applied : vault.applyTransfer libraries commandMeta sourceAccountId destAccountId amount
      occurredAt = .ok done) : Writes commandMeta.commandId vault.book done.book := by
  obtain ⟨different, applied⟩ := ensure_bind_eq_ok.mp applied
  obtain ⟨-, applied⟩ := ensure_bind_eq_ok.mp applied
  obtain ⟨⟨source, sourceRole⟩, sourceFound, applied⟩ := bind_eq_ok.mp applied
  obtain ⟨⟨dest, destRole⟩, destFound, applied⟩ := bind_eq_ok.mp applied
  obtain ⟨-, applied⟩ := ensure_bind_eq_ok.mp applied
  obtain ⟨-, applied⟩ := ensure_bind_eq_ok.mp applied
  obtain ⟨_, -, applied⟩ := bind_eq_ok.mp applied
  obtain ⟨-, applied⟩ := ensure_bind_eq_ok.mp applied
  obtain ⟨_, -, applied⟩ := bind_eq_ok.mp applied
  obtain ⟨-, applied⟩ := ensure_bind_eq_ok.mp applied
  obtain ⟨negated, -, applied⟩ := bind_eq_ok.mp applied
  obtain ⟨transaction, built, applied⟩ := bind_eq_ok.mp applied
  obtain ⟨book, posted, same⟩ := bind_eq_ok.mp applied
  obtain rfl := Except.ok.inj same
  obtain ⟨sourceIn, sourceId⟩ := mem_of_transferLeg sourceFound
  obtain ⟨destIn, destId⟩ := mem_of_transferLeg destFound
  refine writes_post_two placed (placed.owned source sourceIn) (placed.owned dest destIn) ?_
    (mapError_eq_ok.mp built) posted
  intro same
  rw [← sourceId, ← destId, placed.single source sourceIn dest destIn same] at different
  exact different rfl

theorem writes_of_postPayment {occurrence : Uuid × NaiveDate} (placed : vault.book.Placed)
    (member : account ∈ vault.book.store.accounts.rows)
    (applied : vault.postPayment libraries commandMeta occurrence account actualAmount actualDate =
      .ok done) : Writes commandMeta.commandId vault.book done.book := by
  obtain ⟨outflow, -, applied⟩ := bind_eq_ok.mp applied
  obtain ⟨⟨counter, middle⟩, ensured, applied⟩ := bind_eq_ok.mp applied
  obtain ⟨transaction, built, applied⟩ := bind_eq_ok.mp applied
  obtain ⟨book, posted, applied⟩ := bind_eq_ok.mp applied
  obtain ⟨confirmed, -, same⟩ := bind_eq_ok.mp applied
  obtain rfl := Except.ok.inj same
  obtain ⟨writes, accounts, counterIn, apart⟩ := writes_ensureSystemLedgerAccount placed ensured
  exact writes.trans (writes_post_two writes.placed
    (writes.placed.owned account (accounts ▸ member)) counterIn (apart account member)
    (mapError_eq_ok.mp built) posted)

theorem writes_of_confirm {recurringEventId payingAccountId : Uuid} {bill : Option ConfirmedBill}
    (placed : vault.book.Placed)
    (applied : vault.applyConfirmObligationEarly libraries commandMeta recurringEventId
      scheduledDate actualAmount actualDate payingAccountId bill = .ok done) :
    Writes commandMeta.commandId vault.book done.book := by
  obtain ⟨-, applied⟩ := ensure_bind_eq_ok.mp applied
  obtain ⟨today, -, applied⟩ := bind_eq_ok.mp applied
  obtain ⟨-, applied⟩ := ensure_bind_eq_ok.mp applied
  split at applied
  · obtain rfl := Except.ok.inj applied
    exact .refl placed
  · obtain ⟨_, -, applied⟩ := bind_eq_ok.mp applied
    obtain ⟨_, -, applied⟩ := bind_eq_ok.mp applied
    obtain ⟨-, applied⟩ := ensure_bind_eq_ok.mp applied
    obtain ⟨-, applied⟩ := ensure_bind_eq_ok.mp applied
    obtain ⟨account, found, applied⟩ := bind_eq_ok.mp applied
    obtain ⟨-, applied⟩ := ensure_bind_eq_ok.mp applied
    obtain ⟨_, -, applied⟩ := bind_eq_ok.mp applied
    obtain ⟨-, applied⟩ := ensure_bind_eq_ok.mp applied
    exact writes_of_postPayment placed
      (Table.find_eq_some_iff.mp (orMissing_eq_ok.mp found)).1 applied

theorem writes_of_unconfirm {recurringEventId : Uuid} (placed : vault.book.Placed)
    (applied : vault.applyUnconfirmObligation libraries commandMeta recurringEventId
      scheduledDate = .ok done) : Writes commandMeta.commandId vault.book done.book := by
  unfold applyUnconfirmObligation at applied
  split at applied
  · obtain rfl := Except.ok.inj applied
    exact .refl placed
  · next obligation _ =>
    dsimp only at applied
    split at applied
    · obtain rfl := Except.ok.inj applied
      exact .refl placed
    · next original found =>
      split at applied
      · obtain ⟨book, reversed, same⟩ := bind_eq_ok.mp applied
        obtain rfl := Except.ok.inj same
        exact writes_reverseAndHide placed (Table.find_eq_some_iff.mp found).1 reversed
      · obtain rfl := Except.ok.inj applied
        exact .refl placed

theorem writes_of_apply {command : LedgerCommand} (placed : vault.book.Placed)
    (applied : vault.apply libraries commandMeta command = .ok done) :
    Writes commandMeta.commandId vault.book done.book := by
  cases command with
  | transfer source dest amount occurredAt => exact writes_of_transfer placed applied
  | confirmObligationEarly event date amount actualDate paying bill =>
    exact writes_of_confirm placed applied
  | unconfirmObligation event date => exact writes_of_unconfirm placed applied
  | createAccount account role opening =>
    obtain ⟨book, written, same⟩ := bind_eq_ok.mp applied
    obtain rfl := Except.ok.inj same
    exact writes_of_createAccount placed written
  | recordTransaction id account amount occurredAt =>
    obtain ⟨book, written, same⟩ := bind_eq_ok.mp applied
    obtain rfl := Except.ok.inj same
    exact writes_of_recordTransaction placed written
  | commitImportedTransaction command =>
    obtain ⟨book, written, same⟩ := bind_eq_ok.mp applied
    obtain rfl := Except.ok.inj same
    exact writes_of_commitImported placed written
  | commitStaged staged force =>
    obtain ⟨book, written, same⟩ := bind_eq_ok.mp applied
    obtain rfl := Except.ok.inj same
    exact writes_of_commitStaged placed written
  | convertUnexplainedToTransaction account =>
    obtain ⟨book, written, same⟩ := bind_eq_ok.mp applied
    obtain rfl := Except.ok.inj same
    exact writes_of_convert placed written
  | voidTransaction id =>
    obtain ⟨book, written, same⟩ := bind_eq_ok.mp applied
    obtain rfl := Except.ok.inj same
    exact writes_of_void placed written

end LedgerVault

end Dohflow.DbWorker
