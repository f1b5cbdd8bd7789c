/-
This file describes what each step of an import does to the tables.

Nothing is ever taken back (`Keeps`): a transaction stays, and stays voided once it is; a
link to a source record stays; and of a staged row only its two statuses and the
transaction it is marked with change. A dispatched commit leaves everything as it is or
makes exactly one transaction, which did not exist, with the link to its record
(`Makes`).
-/

import Dohflow.DbWorker.StagedImport

namespace Dohflow.DbWorker

open SyncCore CoreLedger Fallible KeyedTable

/-! ### What stays -/

/-- A staged row as it was before anything was decided about it. -/
def StagedTransaction.undecided (row : StagedTransaction) : StagedTransaction :=
  { row with dedupeStatus := .pending, commitStatus := .staged, committedTransactionId := none }

/-- What no step takes back. -/
structure Keeps (before after : ImportStore) : Prop where
  accounts : after.accounts = before.accounts
  records : after.records = before.records
  batches : after.batches = before.batches
  transactions : ∀ id, before.exists? id → after.exists? id
  voided : ∀ id, before.voided id = true → after.voided id = true
  provenance : ∀ link ∈ before.provenance.rows, link ∈ after.provenance.rows
  staged : ∀ id, (after.staged.find id).map (·.undecided) =
    (before.staged.find id).map (·.undecided)

namespace Keeps

variable {first second third : ImportStore}

theorem refl (store : ImportStore) : Keeps store store :=
  ⟨rfl, rfl, rfl, fun _ => id, fun _ => id, fun _ => id, fun _ => rfl⟩

theorem trans (early : Keeps first second) (late : Keeps second third) : Keeps first third where
  accounts := late.accounts.trans early.accounts
  records := late.records.trans early.records
  batches := late.batches.trans early.batches
  transactions id present := late.transactions id (early.transactions id present)
  voided id hidden := late.voided id (early.voided id hidden)
  provenance link member := late.provenance link (early.provenance link member)
  staged id := (late.staged id).trans (early.staged id)

theorem madeFrom (keeps : Keeps first second) {id : TransactionId} {record : Uuid}
    (made : first.madeFrom id record = true) : second.madeFrom id record = true := by
  obtain ⟨link, member, same⟩ := List.any_eq_true.mp made
  exact List.any_eq_true.mpr ⟨link, keeps.provenance link member, same⟩

/-- A staged row is still there, and what was staged of it is the same. -/
theorem row (keeps : Keeps first second) {id : Uuid} {row : StagedTransaction}
    (found : first.staged.find id = some row) :
    ∃ after, second.staged.find id = some after ∧ after.undecided = row.undecided := by
  have same := keeps.staged id
  rw [found, Option.map_some, Option.map_eq_some_iff] at same
  exact same

theorem row_before (keeps : Keeps first second) {id : Uuid} {row : StagedTransaction}
    (found : second.staged.find id = some row) :
    ∃ before, first.staged.find id = some before ∧ before.undecided = row.undecided := by
  have same := keeps.staged id
  rw [found, Option.map_some] at same
  exact Option.map_eq_some_iff.mp same.symm

/-- The transaction that a row becomes does not change. -/
theorem transactionIdOf (keeps : Keeps first second) {row after : StagedTransaction}
    (same : after.undecided = row.undecided) :
    second.transactionIdOf after = first.transactionIdOf row := by
  have record := congrArg StagedTransaction.sourceRecordId same
  have ordinal := congrArg StagedTransaction.rowOrdinal same
  change after.sourceRecordId = row.sourceRecordId at record
  change after.rowOrdinal = row.rowOrdinal at ordinal
  rw [ImportStore.transactionIdOf, ImportStore.transactionIdOf, keeps.records, record, ordinal]

end Keeps

/-! ### Marks on staged rows -/

section Marks

variable {store : ImportStore} {id : Uuid} {sets : StagedTransaction → StagedTransaction}
  {keeps : ∀ row, (sets row).id = row.id}

theorem keeps_setStaged (same : ∀ row, (sets row).undecided = row.undecided) :
    Keeps store (store.setStaged id sets keeps) where
  accounts := rfl
  records := rfl
  batches := rfl
  transactions _ present := present
  voided _ hidden := hidden
  provenance _ member := member
  staged sought := by
    show ((store.staged.update _ sets keeps).find sought).map _ = _
    rw [Table.find_update, Option.map_map]
    refine Option.map_congr fun row _ => ?_
    show (if decide (row.id = id) = true then sets row else row).undecided = row.undecided
    split
    · exact same row
    · rfl

theorem find_setStaged (sought : Uuid) :
    (store.setStaged id sets keeps).staged.find sought =
      (store.staged.find sought).map fun row => if row.id = id then sets row else row := by
  show (store.staged.update _ sets keeps).find sought = _
  rw [Table.find_update]
  simp

theorem mem_setStaged {row : StagedTransaction} :
    row ∈ (store.setStaged id sets keeps).staged.rows ↔
      ∃ before ∈ store.staged.rows, (if before.id = id then sets before else before) = row := by
  show row ∈ (store.staged.update _ sets keeps).rows ↔ _
  rw [Table.mem_update]
  simp

end Marks

theorem keeps_markStagedCommitted (store : ImportStore) (stagedId : Uuid)
    (transactionId : TransactionId) :
    Keeps store (store.markStagedCommitted stagedId transactionId) :=
  keeps_setStaged fun _ => rfl

theorem keeps_decisions (store : ImportStore) (decisions : Table DecisionRow.id) :
    Keeps store { store with decisions } :=
  ⟨rfl, rfl, rfl, fun _ => id, fun _ => id, fun _ => id, fun _ => rfl⟩

variable {libraries : ImportLibraries} {store after : ImportStore} {commandMeta : ImportMeta}

theorem recordFlag_eq_ok {flag : PlannedFlag} (done : store.recordFlag commandMeta flag = .ok after) :
    ∃ decisions row, row.id = .flagged flag.stagedId ∧
      store.decisions.insert row = some decisions ∧
      after = ({ store with decisions }).flagStaged flag.stagedId flag.suspectedDuplicate := by
  obtain ⟨decisions, inserted, done⟩ := bind_eq_ok.mp done
  exact ⟨decisions, _, rfl, orMissing_eq_ok.mp inserted, (Except.ok.inj done).symm⟩

theorem skipStaged_eq_ok {stagedId : Uuid} {now : String}
    (done : store.skipStaged stagedId now = .ok after) :
    after = store ∨ ∃ decisions row, row.id = .skipped stagedId ∧
      store.decisions.insert row = some decisions ∧
      after = ({ store with decisions }).markStagedSkipped stagedId := by
  obtain ⟨staged, found, checked⟩ := bind_eq_ok.mp done
  obtain ⟨-, written⟩ := ensure_bind_eq_ok.mp checked
  obtain ⟨-, same⟩ := Table.find_eq_some_iff.mp (orMissing_eq_ok.mp found)
  rw [← same]
  split at written
  · exact Or.inl (Except.ok.inj written).symm
  · obtain ⟨record, -, written⟩ := bind_eq_ok.mp written
    obtain ⟨decisions, inserted, written⟩ := bind_eq_ok.mp written
    exact Or.inr ⟨decisions, _, rfl, orMissing_eq_ok.mp inserted, (Except.ok.inj written).symm⟩

theorem keeps_recordFlag {flag : PlannedFlag}
    (done : store.recordFlag commandMeta flag = .ok after) : Keeps store after := by
  obtain ⟨decisions, row, -, -, rfl⟩ := recordFlag_eq_ok done
  exact (keeps_decisions store decisions).trans (keeps_setStaged fun _ => rfl)

theorem keeps_skipStaged {stagedId : Uuid} {now : String}
    (done : store.skipStaged stagedId now = .ok after) : Keeps store after := by
  obtain rfl | ⟨decisions, row, -, -, rfl⟩ := skipStaged_eq_ok done
  · exact .refl _
  · exact (keeps_decisions store decisions).trans (keeps_setStaged fun _ => rfl)

/-! ### Writes to the ledger -/

/-- A transaction was added to the ledger. -/
structure Adds (before after : ImportStore) (row : TransactionRow) : Prop where
  absent : before.transactions.find row.id = none
  transactions : after.transactions.rows = before.transactions.rows ++ [row]

namespace Adds

variable {row : TransactionRow}

theorem insert (adds : Adds store after row) :
    store.transactions.insert row = some after.transactions :=
  Table.insert_eq_some_iff.mpr ⟨adds.absent, adds.transactions⟩

theorem find (adds : Adds store after row) (id : TransactionId) :
    after.transactions.find id = if id = row.id then some row else store.transactions.find id :=
  Table.find_insert adds.insert

theorem exists_iff (adds : Adds store after row) (id : TransactionId) :
    after.exists? id ↔ id = row.id ∨ store.exists? id := by
  rw [ImportStore.exists?, adds.find]
  split
  · next same => simp [same]
  · next other => simp [other, ImportStore.exists?]

theorem voided (adds : Adds store after row) {id : TransactionId}
    (hidden : store.voided id = true) : after.voided id = true := by
  rw [ImportStore.voided, adds.find]
  split
  · next same =>
    rw [ImportStore.voided, same, adds.absent] at hidden
    cases hidden
  · exact hidden

end Adds

variable {ids : List TransactionId} {voidedAt : String} {transactionId : TransactionId}

theorem persistTransaction_eq_ok {transaction : LedgerTransaction}
    (done : store.persistTransaction libraries transaction = .ok after) :
    ∃ row transactions, row.id = transaction.id ∧ row.voidedAt = none ∧
      after = { store with transactions } ∧ Adds store after row := by
  obtain ⟨transactions, inserted, done⟩ := bind_eq_ok.mp done
  obtain ⟨absent, rows⟩ := Table.insert_eq_some_iff.mp (orMissing_eq_ok.mp inserted)
  obtain rfl := Except.ok.inj done
  exact ⟨_, transactions, rfl, rfl, rfl, absent, rows⟩

theorem keeps_adds {row : TransactionRow} {transactions : Table TransactionRow.id}
    (adds : Adds store { store with transactions } row) : Keeps store { store with transactions } :=
  ⟨rfl, rfl, rfl, fun id present => (adds.exists_iff id).mpr (Or.inr present),
    fun _ => adds.voided, fun _ => id, fun _ => rfl⟩

theorem voided_markVoided {id : TransactionId} :
    (store.markVoided ids voidedAt).voided id = true ↔
      store.voided id = true ∨ id ∈ ids ∧ store.exists? id := by
  rw [ImportStore.voided, ImportStore.voided, ImportStore.exists?]
  rw [ImportStore.markVoided, Table.find_update]
  cases found : store.transactions.find id with
  | none => simp
  | some row =>
    obtain ⟨-, rfl⟩ := Table.find_eq_some_iff.mp found
    by_cases named : row.id ∈ ids <;> simp [named]

theorem exists_markVoided {id : TransactionId} :
    (store.markVoided ids voidedAt).exists? id ↔ store.exists? id := by
  rw [ImportStore.exists?, ImportStore.exists?]
  rw [ImportStore.markVoided, Table.find_update, Option.isSome_map]

theorem keeps_markVoided : Keeps store (store.markVoided ids voidedAt) :=
  ⟨rfl, rfl, rfl, fun _ present => exists_markVoided.mpr present,
    fun _ hidden => voided_markVoided.mpr (Or.inl hidden), fun _ => id, fun _ => rfl⟩

theorem applyVoidTransaction_eq_ok
    (done : store.applyVoidTransaction libraries commandMeta transactionId = .ok after) :
    ∃ row transactions, row.id = .reversal commandMeta.commandId transactionId ∧
      Adds store { store with transactions } row ∧
      after = ({ store with transactions }).markVoided [transactionId, row.id]
        commandMeta.issuedAt := by
  obtain ⟨original, found, checked⟩ := bind_eq_ok.mp done
  obtain ⟨-, hidden⟩ := ensure_bind_eq_ok.mp checked
  obtain ⟨-, same⟩ := Table.find_eq_some_iff.mp (orMissing_eq_ok.mp found)
  rw [← same]
  obtain ⟨postings, -, reversed⟩ := bind_eq_ok.mp hidden
  obtain ⟨reversal, built, reversed⟩ := bind_eq_ok.mp reversed
  obtain ⟨between, persisted, marked⟩ := bind_eq_ok.mp reversed
  obtain ⟨row, transactions, named, -, rfl, adds⟩ := persistTransaction_eq_ok persisted
  replace named := named.trans (LedgerTransaction.of_new (mapError_eq_ok.mp built)).1
  refine ⟨row, transactions, named, adds, ?_⟩
  rw [named]
  exact (Except.ok.inj marked).symm

theorem keeps_applyVoidTransaction
    (done : store.applyVoidTransaction libraries commandMeta transactionId = .ok after) :
    Keeps store after := by
  obtain ⟨row, transactions, -, adds, rfl⟩ := applyVoidTransaction_eq_ok done
  exact (keeps_adds adds).trans keeps_markVoided

/-! ### The commit -/

/-- A commit made its transaction, with the link to the source record and the decision. -/
structure Makes (before after : ImportStore) (command : CommitImported) : Prop where
  accounts : after.accounts = before.accounts
  records : after.records = before.records
  batches : after.batches = before.batches
  staged : after.staged = before.staged
  operations : after.operations = before.operations
  adds : ∃ row, row.id = command.transactionId ∧ row.voidedAt = none ∧ Adds before after row
  links : ∃ link, link.entityId = command.transactionId ∧
    link.sourceRecordId = command.sourceRecordId ∧
    before.provenance.insert link = some after.provenance
  decides : ∃ row, row.id = .committed command.transactionId ∧
    before.decisions.insert row = some after.decisions

namespace Makes

variable {command : CommitImported}

theorem absent (makes : Makes store after command) : ¬ store.exists? command.transactionId := by
  obtain ⟨row, same, -, adds⟩ := makes.adds
  rw [ImportStore.exists?, ← same, adds.absent]
  exact Bool.false_ne_true

theorem exists_iff (makes : Makes store after command) (id : TransactionId) :
    after.exists? id ↔ id = command.transactionId ∨ store.exists? id := by
  obtain ⟨row, same, -, adds⟩ := makes.adds
  rw [adds.exists_iff, same]

theorem mem_provenance (makes : Makes store after command) {link : ProvenanceLink} :
    link ∈ after.provenance.rows ↔ link ∈ store.provenance.rows ∨
      link ∈ after.provenance.rows ∧ link.entityId = command.transactionId := by
  obtain ⟨added, same, -, inserted⟩ := makes.links
  obtain ⟨-, rows⟩ := Table.insert_eq_some_iff.mp inserted
  rw [rows, List.mem_append, List.mem_singleton]
  constructor
  · rintro (old | rfl)
    · exact Or.inl old
    · exact Or.inr ⟨Or.inr rfl, same⟩
  · rintro (old | ⟨member, -⟩)
    · exact Or.inl old
    · exact member

theorem keeps (makes : Makes store after command) : Keeps store after where
  accounts := makes.accounts
  records := makes.records
  batches := makes.batches
  transactions id present := (makes.exists_iff id).mpr (Or.inr present)
  voided id hidden := by
    obtain ⟨row, -, -, adds⟩ := makes.adds
    exact adds.voided hidden
  provenance link member := makes.mem_provenance.mpr (Or.inl member)
  staged id := by rw [makes.staged]

/-- The transaction that was made is from the command's record, and is not voided. -/
theorem made (makes : Makes store after command) :
    after.madeFrom command.transactionId command.sourceRecordId = true := by
  obtain ⟨link, entity, record, inserted⟩ := makes.links
  obtain ⟨-, rows⟩ := Table.insert_eq_some_iff.mp inserted
  refine List.any_eq_true.mpr ⟨link, ?_, decide_eq_true ⟨entity, record⟩⟩
  rw [rows]
  exact List.mem_append_right _ List.mem_cons_self

end Makes

/-- The parts of a store that a commit's trimmings leave alone. -/
structure SameRest (before after : ImportStore) : Prop where
  accounts : after.accounts = before.accounts
  records : after.records = before.records
  batches : after.batches = before.batches
  staged : after.staged = before.staged
  operations : after.operations = before.operations
  transactions : after.transactions = before.transactions
  provenance : after.provenance = before.provenance
  decisions : after.decisions = before.decisions

theorem SameRest.refl (store : ImportStore) : SameRest store store :=
  ⟨rfl, rfl, rfl, rfl, rfl, rfl, rfl, rfl⟩

theorem sameRest_ensureSystemLedgerAccount (role : String) (currency : Currency) :
    SameRest store (store.ensureSystemLedgerAccount libraries role currency).2 := by
  rw [ImportStore.ensureSystemLedgerAccount]
  split
  · exact .refl store
  · exact ⟨rfl, rfl, rfl, rfl, rfl, rfl, rfl, rfl⟩

theorem sameRest_recordTransactionDetail (detail : DetailRow) :
    SameRest store (store.recordTransactionDetail detail) := by
  rw [ImportStore.recordTransactionDetail]
  split
  · exact .refl store
  · exact ⟨rfl, rfl, rfl, rfl, rfl, rfl, rfl, rfl⟩

theorem sameRest_categorize (row : CategorizationRow) : SameRest store (store.categorize row) := by
  rw [ImportStore.categorize]
  split
  · exact ⟨rfl, rfl, rfl, rfl, rfl, rfl, rfl, rfl⟩
  · exact .refl store

theorem SameRest.trans {first second third : ImportStore} (early : SameRest first second)
    (late : SameRest second third) : SameRest first third where
  accounts := late.accounts.trans early.accounts
  records := late.records.trans early.records
  batches := late.batches.trans early.batches
  staged := late.staged.trans early.staged
  operations := late.operations.trans early.operations
  transactions := late.transactions.trans early.transactions
  provenance := late.provenance.trans early.provenance
  decisions := late.decisions.trans early.decisions

theorem sameRest_annotate (commandMeta : ImportMeta) (command : CommitImported) :
    SameRest store (store.annotate commandMeta command) := by
  rw [ImportStore.annotate]
  split
  · exact (sameRest_recordTransactionDetail _).trans (sameRest_categorize _)
  · exact sameRest_recordTransactionDetail _

/-- The transaction, its link and its decision have not been written yet. -/
structure Unwritten (store : ImportStore) (id : TransactionId) : Prop where
  transaction : ¬ store.exists? id
  provenance : store.provenance.find id = none
  decision : store.decisions.find (.committed id) = none

variable {command : CommitImported} {account : AccountRow} {batch : Uuid}

theorem postCommit_eq_ok {transaction : LedgerTransaction}
    (named : transaction.id = command.transactionId)
    (done : store.postCommit libraries commandMeta command batch transaction = .ok after) :
    Makes store after command := by
  obtain ⟨persisted, posted, done⟩ := bind_eq_ok.mp done
  obtain ⟨row, transactions, same, live, rfl, adds⟩ := persistTransaction_eq_ok posted
  obtain ⟨provenance, linked, done⟩ := bind_eq_ok.mp done
  obtain ⟨decisions, decided, done⟩ := bind_eq_ok.mp done
  have rest := @sameRest_annotate { store with transactions, provenance } commandMeta command
  obtain rfl := Except.ok.inj done
  exact {
    accounts := rest.accounts
    records := rest.records
    batches := rest.batches
    staged := rest.staged
    operations := rest.operations
    adds := ⟨row, same.trans named, live, adds.absent,
      (congrArg Table.rows rest.transactions).trans adds.transactions⟩
    links := ⟨_, rfl, rfl,
      (orMissing_eq_ok.mp linked).trans (congrArg some rest.provenance.symm)⟩
    decides := ⟨_, rfl, by rw [← rest.decisions]; exact orMissing_eq_ok.mp decided⟩ }

theorem exists_insertInto {Row Key : Type} {key : Row → Key} [DecidableEq Key] {table : Table key}
    {row : Row} (vacant : table.find (key row) = none) :
    ∃ inserted, insertInto table row = .ok inserted := by
  obtain ⟨after, inserted⟩ := Table.exists_insert vacant
  exact ⟨after, orMissing_eq_ok.mpr inserted⟩

theorem exists_postCommit {transaction : LedgerTransaction}
    (named : transaction.id = command.transactionId)
    (unwritten : Unwritten store command.transactionId) :
    ∃ after, store.postCommit libraries commandMeta command batch transaction = .ok after := by
  have vacant : store.transactions.find transaction.id = none := by
    rw [named]
    exact Option.not_isSome_iff_eq_none.mp unwritten.transaction
  obtain ⟨transactions, posted⟩ := @exists_insertInto TransactionRow _ _ _ store.transactions
    { id := transaction.id
      operationId := transaction.operationId
      occurredAt := transaction.occurredAt
      currency := transaction.currency
      voidedAt := none
      postings := transaction.postings.map fun posting =>
        ⟨posting.account, posting.amount.minorUnits, libraries.dateText transaction.occurredAt⟩ }
    vacant
  obtain ⟨provenance, linked⟩ := @exists_insertInto ProvenanceLink _ _ _ store.provenance
    ⟨command.transactionId, command.sourceRecordId, "created_from", commandMeta.issuedAt⟩
    unwritten.provenance
  have rest := @sameRest_annotate { store with transactions, provenance } commandMeta command
  obtain ⟨decisions, decided⟩ := @exists_insertInto DecisionRow _ _ _
    (({ store with transactions, provenance }).annotate commandMeta command).decisions
    (ImportStore.commitDecision command batch commandMeta.issuedAt)
    (by rw [rest.decisions]; exact unwritten.decision)
  exact ⟨_, bind_eq_ok.mpr ⟨_, bind_eq_ok.mpr ⟨transactions, posted, rfl⟩,
    bind_eq_ok.mpr ⟨provenance, linked, bind_eq_ok.mpr ⟨decisions, decided, rfl⟩⟩⟩⟩

theorem Unwritten.of_sameRest {id : TransactionId} (unwritten : Unwritten store id)
    (rest : SameRest store after) : Unwritten after id where
  transaction := by
    rw [ImportStore.exists?, rest.transactions]
    exact unwritten.transaction
  provenance := by
    rw [rest.provenance]
    exact unwritten.provenance
  decision := by
    rw [rest.decisions]
    exact unwritten.decision

theorem Makes.of_sameRest {between : ImportStore} (rest : SameRest store between)
    (makes : Makes between after command) : Makes store after command where
  accounts := makes.accounts.trans rest.accounts
  records := makes.records.trans rest.records
  batches := makes.batches.trans rest.batches
  staged := makes.staged.trans rest.staged
  operations := makes.operations.trans rest.operations
  adds := by
    obtain ⟨row, same, live, adds⟩ := makes.adds
    exact ⟨row, same, live, rest.transactions ▸ adds.absent, rest.transactions ▸ adds.transactions⟩
  links := rest.provenance ▸ makes.links
  decides := rest.decisions ▸ makes.decides

theorem writeCommit_eq_ok
    (done : store.writeCommit libraries commandMeta command account batch = .ok after) :
    Makes store after command := by
  obtain ⟨transaction, built, done⟩ := bind_eq_ok.mp done
  exact (postCommit_eq_ok (of_balancedTransaction built) done).of_sameRest
    (sameRest_ensureSystemLedgerAccount _ _)

theorem exists_writeCommit_iff (unwritten : Unwritten store command.transactionId) :
    (∃ after, store.writeCommit libraries commandMeta command account batch = .ok after) ↔
      command.amount.minorUnits ≠ Int64.minValue := by
  constructor
  · rintro ⟨after, done⟩
    obtain ⟨transaction, built, -⟩ := bind_eq_ok.mp done
    exact exists_balancedTransaction_iff.mp ⟨transaction, built⟩
  · intro negatable
    obtain ⟨transaction, built⟩ := exists_balancedTransaction_iff.mpr negatable
    obtain ⟨after, posted⟩ := exists_postCommit (of_balancedTransaction built)
      (unwritten.of_sameRest (sameRest_ensureSystemLedgerAccount _ _))
    exact ⟨after, bind_eq_ok.mpr ⟨transaction, built, posted⟩⟩

theorem applyCommitImportedTransaction_eq_ok
    (done : store.applyCommitImportedTransaction libraries commandMeta command = .ok after) :
    store.exists? command.transactionId ∧ after = store ∨ Makes store after command := by
  obtain ⟨⟨account, record⟩, -, done⟩ := bind_eq_ok.mp done
  dsimp only at done
  split at done
  · next present => exact Or.inl ⟨present, (Except.ok.inj done).symm⟩
  · exact Or.inr (writeCommit_eq_ok done)

end Dohflow.DbWorker
