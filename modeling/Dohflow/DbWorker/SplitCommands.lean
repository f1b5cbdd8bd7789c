/-
This file models the commands that categorize and split a transaction, and what a run of them
and of the commands that write the ledger keeps.

Split lines must add up to what the transaction posts on the person's accounts, in its
currency. The postings of a transaction never change, and the accounts of a run are those it
starts with, so the lines of a transaction add up to its legs in every state of a run
(`Sound.reaches`).
-/

import Dohflow.DbWorker.ExplainedBalances
import Dohflow.DbWorker.SpendByCategory

namespace Dohflow.DbWorker

open SyncCore CoreLedger Fallible KeyedTable MachineIntegers Forests

/-! ### The commands -/

structure SplitLineInput where
  amount : Money
  categoryId : Option Uuid
  note : Option String
  tagIds : List Uuid

namespace SpendTables

variable (tables : SpendTables)

def applyRecategorizeTransaction (commandMeta : ImportMeta) (transactionId : TransactionId)
    (categoryId : Option Uuid) : Except ImportError SpendTables := do
  let store := tables.book.store
  ensure (store.exists? transactionId)
    (.rejected .referenceMissing "transaction does not exist")
  ensure (∀ category ∈ categoryId, (tables.taxonomy.find category).isSome)
    (.rejected .referenceMissing "category does not exist")
  let others := store.categorizations.delete fun row => row.transactionId = transactionId
  let categorizations ← match categoryId with
    | some category =>
      insertInto others ⟨transactionId, category, "user", 10000, commandMeta.issuedAt⟩
    | none => .ok others
  return { tables with book := { tables.book with store := { store with categorizations } } }

/-- Insert a line with its tags. -/
def insertLine (commandId : Uuid) (transactionId : TransactionId) (tables : SpendTables)
    (indexed : SplitLineInput × Nat) : Except ImportError SpendTables := do
  let (line, index) := indexed
  ensure (∀ category ∈ line.categoryId, (tables.taxonomy.find category).isSome)
    (.invalidCommand "split line category does not exist")
  let id : SplitLineId := ⟨commandId, index⟩
  let splitLines ← insertInto tables.splitLines
    ⟨id, transactionId, line.amount.minorUnits, line.amount.currency.code, line.categoryId,
      line.note, index⟩
  ensure (∀ tag ∈ line.tagIds, tag ∈ tables.tags)
    (.invalidCommand "split line tag does not exist")
  let splitLineTags := tables.splitLineTags ++ line.tagIds.dedup.map fun tag => (id, tag)
  return { tables with splitLines, splitLineTags }

/-- What the lines of a split must add up to. -/
def checkLines (row : TransactionRow) (lines : List SplitLineInput) : Except ImportError Unit := do
  let legs := tables.legs row
  ensure (legs ≠ []) .sqlite
  let txnMinor ← sumOf (legs.map fun leg => leg.1.minorUnits.toInt)
  let linesSum ← orMissing (.money .overflow)
    (checkedSum 0 (lines.map fun line => line.amount.minorUnits.toInt))
  ensure (linesSum = txnMinor) (.invalidCommand
    ("split lines sum to " ++ toString linesSum ++ " but the transaction amount is " ++
      toString txnMinor))
  ensure (∀ line ∈ lines, line.amount.currency.code = row.currency.code)
    (.invalidCommand "split line currency must match the transaction")

/-- The tables without the lines of a transaction, and without their tags. -/
def clearLines (transactionId : TransactionId) : SpendTables :=
  let cleared := (tables.linesOf transactionId).map SplitLine.id
  { tables with
    splitLines := tables.splitLines.delete fun line => line.transactionId = transactionId
    splitLineTags := tables.splitLineTags.filter fun tagged => tagged.1 ∉ cleared }

def applySetSplits (commandMeta : ImportMeta) (transactionId : TransactionId)
    (lines : List SplitLineInput) : Except ImportError SpendTables := do
  let row ← orMissing (.invalidCommand "transaction does not exist or is voided")
    ((tables.book.store.transactions.find transactionId).filter fun row => row.voidedAt.isNone)
  if lines ≠ [] then tables.checkLines row lines
  lines.zipIdx.foldlM (insertLine commandMeta.commandId transactionId)
    (tables.clearLines transactionId)

/-! ### Runs -/

/-- What a command may do to the tables: post a transaction, void one, write who assigns a
category, split a transaction, or edit the tree of categories. -/
inductive Step (libraries : SpendLibraries) : SpendTables → SpendTables → Prop
  | system {before : SpendTables} {book : LedgerBook} (role : String) (currency : Currency)
      (counter : Uuid) (ensured : before.book.ensureSystemLedgerAccount libraries.toBookLibraries
        role currency = .ok (counter, book)) : Step libraries before { before with book }
  | post {before : SpendTables} {book : LedgerBook} (transaction : LedgerTransaction)
      (posted : before.book.post libraries.toBookLibraries transaction = .ok book) :
      Step libraries before { before with book }
  | void {before : SpendTables} {book : LedgerBook} (original : TransactionRow) (commandId : Uuid)
      (voidedAt : String) (member : original ∈ before.book.store.transactions.rows)
      (reversed : before.book.reverseAndHide libraries.toBookLibraries original commandId
        voidedAt = .ok book) : Step libraries before { before with book }
  | recategorize {before after : SpendTables} (commandMeta : ImportMeta)
      (transactionId : TransactionId) (categoryId : Option Uuid)
      (done : before.applyRecategorizeTransaction commandMeta transactionId categoryId =
        .ok after) : Step libraries before after
  | split {before after : SpendTables} (commandMeta : ImportMeta) (transactionId : TransactionId)
      (lines : List SplitLineInput)
      (done : before.applySetSplits commandMeta transactionId lines = .ok after) :
      Step libraries before after
  | category {before : SpendTables} {taxonomy : Taxonomy} (command : ImportMeta × CategoryCommand)
      (done : before.taxonomy.step command = some taxonomy) :
      Step libraries before { before with taxonomy }

/-- The lines of a transaction add up to its legs in its currency, and what lines and
categorizations name is there. -/
structure Sound (libraries : SpendLibraries) (tables : SpendTables) : Prop where
  book : tables.book.Sound libraries.toBookLibraries
  forest : tables.taxonomy.IsForest
  adds : ∀ row ∈ tables.book.store.transactions.rows, tables.linesOf row.id ≠ [] →
    ((tables.linesOf row.id).map fun line => line.amountMinor.toInt).sum =
      ((tables.legs row).map fun leg => leg.1.minorUnits.toInt).sum ∧
    ∀ line ∈ tables.linesOf row.id, line.currency = row.currency.code
  posted : ∀ line ∈ tables.splitLines.rows,
    (tables.book.store.transactions.find line.transactionId).isSome
  categorized : ∀ row ∈ tables.book.store.categorizations.rows,
    (tables.taxonomy.find row.categoryId).isSome
  lined : ∀ line ∈ tables.splitLines.rows, ∀ category ∈ line.categoryId,
    (tables.taxonomy.find category).isSome

variable {libraries : SpendLibraries} {tables after : SpendTables} {row : TransactionRow}
  {book : LedgerBook} {transactionId : TransactionId} {commandMeta : ImportMeta}
  {lines : List SplitLineInput}

theorem legs_eq (sound : tables.book.Sound libraries.toBookLibraries) (row : TransactionRow) :
    tables.legs row = row.postings.flatMap fun posting =>
      (tables.book.store.accounts.rows.filter fun account =>
        account.ledgerAccountId = posting.ledgerAccountId).map fun account => (posting, account) := by
  refine List.flatMap_congr fun posting _ => congrArg (List.map _) ?_
  refine List.filter_congr fun account member => ?_
  by_cases same : account.ledgerAccountId = posting.ledgerAccountId
  · have held := sound.owned account member
    rw [same] at held
    simp [same, held]
  · simp [same]

theorem legs_congr (sound : tables.book.Sound libraries.toBookLibraries)
    (soundToo : after.book.Sound libraries.toBookLibraries)
    (accounts : after.book.store.accounts = tables.book.store.accounts) {other : TransactionRow}
    (postings : other.postings = row.postings) : after.legs other = tables.legs row := by
  rw [legs_eq sound, legs_eq soundToo, accounts, postings]

end SpendTables

/-! ### What writing the ledger keeps -/

/-- Another state of the ledger has the same accounts and categorizations, and every transaction
in it is there with its postings already, or is new. -/
structure ImportStore.KeepsRows (before after : ImportStore) : Prop where
  accounts : after.accounts = before.accounts
  categorizations : after.categorizations = before.categorizations
  kept : ∀ id, (before.transactions.find id).isSome → (after.transactions.find id).isSome
  rows : ∀ row ∈ after.transactions.rows, before.transactions.find row.id = none ∨
    ∃ held ∈ before.transactions.rows, held.id = row.id ∧ held.postings = row.postings ∧
      held.currency = row.currency

namespace ImportStore.KeepsRows

variable {libraries : ImportLibraries} {before middle after : ImportStore}

theorem of_same (accounts : after.accounts = before.accounts)
    (categorizations : after.categorizations = before.categorizations)
    (transactions : after.transactions = before.transactions) : before.KeepsRows after := by
  refine ⟨accounts, categorizations, fun id held => transactions ▸ held, fun row member => ?_⟩
  rw [transactions] at member
  exact .inr ⟨row, member, rfl, rfl, rfl⟩

theorem trans (first : before.KeepsRows middle) (second : middle.KeepsRows after) :
    before.KeepsRows after := by
  refine ⟨second.accounts.trans first.accounts,
    second.categorizations.trans first.categorizations,
    fun id held => second.kept id (first.kept id held), fun row member => ?_⟩
  rcases second.rows row member with fresh | ⟨held, inside, id, postings, currency⟩
  · refine .inl ?_
    cases found : before.transactions.find row.id with
    | none => rfl
    | some other =>
      have present := first.kept row.id (by rw [found]; rfl)
      rw [fresh] at present
      cases present
  · rw [← id, ← postings, ← currency]
    exact first.rows held inside

theorem of_persistTransaction {transaction : LedgerTransaction}
    (done : before.persistTransaction libraries transaction = .ok after) :
    before.KeepsRows after := by
  obtain ⟨transactions, inserted, same⟩ := bind_eq_ok.mp done
  obtain rfl := Except.ok.inj same
  obtain ⟨fresh, rows⟩ := Table.insert_eq_some_iff.mp (orMissing_eq_ok.mp inserted)
  refine ⟨rfl, rfl, fun id held => ?_, fun row member => ?_⟩
  · show (transactions.find id).isSome
    rw [Table.find_insert (orMissing_eq_ok.mp inserted)]
    split
    · rfl
    · exact held
  · change row ∈ transactions.rows at member
    rw [rows] at member
    rcases List.mem_append.mp member with earlier | last
    · exact .inr ⟨row, earlier, rfl, rfl, rfl⟩
    · rw [List.mem_singleton.mp last]
      exact .inl fresh

theorem of_markVoided (ids : List TransactionId) (voidedAt : String) :
    before.KeepsRows (before.markVoided ids voidedAt) := by
  refine ⟨rfl, rfl, fun id held => ?_, fun row member => ?_⟩
  · unfold ImportStore.markVoided
    dsimp only
    rw [Table.find_update, Option.isSome_map]
    exact held
  · obtain ⟨held, inside, rfl⟩ := List.mem_map.mp member
    refine .inr ⟨held, inside, ?_⟩
    split <;> exact ⟨rfl, rfl, rfl⟩

end ImportStore.KeepsRows

namespace SpendTables

variable {libraries : SpendLibraries} {tables after : SpendTables} {row : TransactionRow}
  {book : LedgerBook} {transactionId : TransactionId} {commandMeta : ImportMeta}
  {lines : List SplitLineInput}

/-- What writes the ledger keeps the lines added up. -/
theorem Sound.ledger (sound : tables.Sound libraries)
    (bookSound : book.Sound libraries.toBookLibraries)
    (keeps : tables.book.store.KeepsRows book.store) : Sound libraries { tables with book } := by
  refine ⟨bookSound, sound.forest, fun row member split => ?_, fun line inside =>
    keeps.kept _ (sound.posted line inside), fun assigned inside => ?_, sound.lined⟩
  · rcases keeps.rows row member with fresh | ⟨before, held, id, postings, currency⟩
    · obtain ⟨line, inside⟩ := List.exists_mem_of_ne_nil _ split
      obtain ⟨stored, same⟩ := List.mem_filter.mp inside
      have present := sound.posted line stored
      rw [of_decide_eq_true same, fresh] at present
      cases present
    · have added := sound.adds before held (id ▸ split)
      rw [id, currency] at added
      rw [legs_congr sound.book bookSound keeps.accounts postings.symm]
      exact added
  · exact sound.categorized assigned (keeps.categorizations ▸ inside)

theorem Sound.system {role : String} {currency : Currency} {counter : Uuid}
    (sound : tables.Sound libraries)
    (ensured : tables.book.ensureSystemLedgerAccount libraries.toBookLibraries role currency =
      .ok (counter, book)) : Sound libraries { tables with book } := by
  obtain ⟨bookSound, -, transactions, accounts, -⟩ := sound.book.ensureSystemLedgerAccount ensured
  refine sound.ledger bookSound (.of_same accounts ?_ transactions)
  unfold LedgerBook.ensureSystemLedgerAccount at ensured
  split at ensured
  · obtain ⟨-, rfl⟩ := Prod.mk.inj (Except.ok.inj ensured)
    rfl
  · obtain ⟨ledgerAccounts, -, same⟩ := bind_eq_ok.mp ensured
    obtain ⟨-, rfl⟩ := Prod.mk.inj (Except.ok.inj same)
    rfl

theorem Sound.post {transaction : LedgerTransaction} (sound : tables.Sound libraries)
    (posted : tables.book.post libraries.toBookLibraries transaction = .ok book) :
    Sound libraries { tables with book } := by
  obtain ⟨stored, persisted, same⟩ := bind_eq_ok.mp posted
  obtain rfl := Except.ok.inj same
  exact sound.ledger (sound.book.persistTransaction persisted) (.of_persistTransaction persisted)

theorem Sound.void {original : TransactionRow} {commandId : Uuid} {voidedAt : String}
    (sound : tables.Sound libraries) (member : original ∈ tables.book.store.transactions.rows)
    (reversed : tables.book.reverseAndHide libraries.toBookLibraries original commandId voidedAt =
      .ok book) : Sound libraries { tables with book } := by
  have bookSound := (LedgerBook.sum_amounts_reverseAndHide sound.book member reversed).1
  obtain ⟨stored, hidden, same⟩ := bind_eq_ok.mp reversed
  obtain rfl := Except.ok.inj same
  obtain ⟨postings, -, hidden⟩ := bind_eq_ok.mp hidden
  obtain ⟨reversal, -, hidden⟩ := bind_eq_ok.mp hidden
  obtain ⟨middle, persisted, same⟩ := bind_eq_ok.mp hidden
  obtain rfl := Except.ok.inj same
  refine sound.ledger bookSound (.trans (.of_persistTransaction persisted) ?_)
  exact .of_markVoided _ _

/-- Whatever else changes, the ledger, its lines and the tree are in order with other
categorizations of categories that are there. -/
theorem Sound.categorizations (sound : tables.Sound libraries)
    {categorizations : Table CategorizationRow.transactionId}
    (named : ∀ row ∈ categorizations.rows, (tables.taxonomy.find row.categoryId).isSome) :
    Sound libraries { tables with
      book := { tables.book with store := { tables.book.store with categorizations } } } :=
  ⟨⟨sound.book.owned, sound.book.systemOwned, sound.book.single, sound.book.apart,
    sound.book.dated, sound.book.days⟩, sound.forest, sound.adds, sound.posted, named, sound.lined⟩

theorem Sound.recategorize {categoryId : Option Uuid} (sound : tables.Sound libraries)
    (done : tables.applyRecategorizeTransaction commandMeta transactionId categoryId = .ok after) :
    after.Sound libraries := by
  unfold applyRecategorizeTransaction at done
  obtain ⟨-, done⟩ := ensure_bind_eq_ok.mp done
  obtain ⟨known, done⟩ := ensure_bind_eq_ok.mp done
  have others : ∀ row ∈ (tables.book.store.categorizations.delete
      fun row => row.transactionId = transactionId).rows,
      (tables.taxonomy.find row.categoryId).isSome :=
    fun row member => sound.categorized row (List.mem_filter.mp member).1
  cases categoryId with
  | none =>
    obtain rfl := Except.ok.inj done
    exact sound.categorizations others
  | some category =>
    obtain ⟨categorizations, inserted, same⟩ := bind_eq_ok.mp done
    obtain rfl := Except.ok.inj same
    refine sound.categorizations fun row member => ?_
    rw [(Table.insert_eq_some_iff.mp (orMissing_eq_ok.mp inserted)).2] at member
    rcases List.mem_append.mp member with earlier | last
    · exact others row earlier
    · rw [List.mem_singleton.mp last]
      exact known category rfl

theorem Sound.category {taxonomy : Taxonomy} {command : ImportMeta × CategoryCommand}
    (sound : tables.Sound libraries) (done : tables.taxonomy.step command = some taxonomy) :
    Sound libraries { tables with taxonomy } := by
  obtain ⟨reached, stepped, forest⟩ := sound.forest.step command
  obtain rfl := Option.some.inj (stepped.symm.trans done)
  have kept := Taxonomy.isSome_find_step done
  exact ⟨sound.book, forest, sound.adds, sound.posted,
    fun row member => kept _ (sound.categorized row member),
    fun line member category named => kept _ (sound.lined line member category named)⟩

/-! ### Splits -/

/-- The line of an input. -/
def lineOf (commandId : Uuid) (transactionId : TransactionId) (indexed : SplitLineInput × Nat) :
    SplitLine :=
  ⟨⟨commandId, indexed.2⟩, transactionId, indexed.1.amount.minorUnits,
    indexed.1.amount.currency.code, indexed.1.categoryId, indexed.1.note, indexed.2⟩

theorem insertLine_eq_ok {commandId : Uuid} {indexed : SplitLineInput × Nat}
    (done : insertLine commandId transactionId tables indexed = .ok after) :
    after.book = tables.book ∧ after.taxonomy = tables.taxonomy ∧
      after.splitLines.rows = tables.splitLines.rows ++ [lineOf commandId transactionId indexed] ∧
      ∀ category ∈ indexed.1.categoryId, (tables.taxonomy.find category).isSome := by
  obtain ⟨known, done⟩ := ensure_bind_eq_ok.mp done
  obtain ⟨splitLines, inserted, done⟩ := bind_eq_ok.mp done
  obtain ⟨-, same⟩ := ensure_bind_eq_ok.mp done
  obtain rfl := Except.ok.inj same
  exact ⟨rfl, rfl, (Table.insert_eq_some_iff.mp (orMissing_eq_ok.mp inserted)).2, known⟩

theorem foldlM_insertLine {commandId : Uuid} {indexed : List (SplitLineInput × Nat)}
    (done : indexed.foldlM (insertLine commandId transactionId) tables = .ok after) :
    after.book = tables.book ∧ after.taxonomy = tables.taxonomy ∧
      after.splitLines.rows =
        tables.splitLines.rows ++ indexed.map (lineOf commandId transactionId) ∧
      ∀ line ∈ indexed, ∀ category ∈ line.1.categoryId,
        (tables.taxonomy.find category).isSome := by
  induction indexed generalizing tables with
  | nil =>
    obtain rfl := Except.ok.inj done
    exact ⟨rfl, rfl, (List.append_nil _).symm, fun _ member => absurd member List.not_mem_nil⟩
  | cons first rest inductionHypothesis =>
    rw [List.foldlM_cons] at done
    obtain ⟨middle, inserted, later⟩ := bind_eq_ok.mp done
    obtain ⟨book, taxonomy, rows, known⟩ := insertLine_eq_ok inserted
    obtain ⟨bookToo, taxonomyToo, rowsToo, knownToo⟩ := inductionHypothesis later
    refine ⟨bookToo.trans book, taxonomyToo.trans taxonomy, ?_, fun line member => ?_⟩
    · rw [rowsToo, rows, List.append_assoc, List.map_cons]
      rfl
    · rcases List.mem_cons.mp member with rfl | member
      · exact known
      · rw [← taxonomy]
        exact knownToo line member

theorem applySetSplits_eq_ok
    (done : tables.applySetSplits commandMeta transactionId lines = .ok after) :
    ∃ row, tables.book.store.transactions.find transactionId = some row ∧
      (lines ≠ [] → tables.checkLines row lines = .ok ()) ∧
      after.book = tables.book ∧ after.taxonomy = tables.taxonomy ∧
      after.splitLines.rows =
        (tables.splitLines.rows.filter fun line => line.transactionId ≠ transactionId) ++
          lines.zipIdx.map (lineOf commandMeta.commandId transactionId) ∧
      ∀ line ∈ lines, ∀ category ∈ line.categoryId,
        (tables.taxonomy.find category).isSome := by
  obtain ⟨row, found, done⟩ := bind_eq_ok.mp done
  have held := (Option.filter_eq_some_iff.mp (orMissing_eq_ok.mp found)).1
  have written : ∀ {tables : SpendTables}, lines.zipIdx.foldlM
      (insertLine commandMeta.commandId transactionId) (tables.clearLines transactionId) =
        .ok after → after.book = tables.book ∧ after.taxonomy = tables.taxonomy ∧
      after.splitLines.rows =
        (tables.splitLines.rows.filter fun line => line.transactionId ≠ transactionId) ++
          lines.zipIdx.map (lineOf commandMeta.commandId transactionId) ∧
      ∀ line ∈ lines, ∀ category ∈ line.categoryId,
        (tables.taxonomy.find category).isSome := by
    intro tables inserted
    obtain ⟨book, taxonomy, rows, known⟩ := foldlM_insertLine inserted
    refine ⟨book, taxonomy, rows.trans ?_, fun line member => ?_⟩
    · refine congrArg (· ++ _) (List.filter_congr fun line _ => ?_)
      rw [decide_not]
    · obtain ⟨index, inside⟩ : ∃ index, (line, index) ∈ lines.zipIdx := by
        obtain ⟨place, bound, rfl⟩ := List.getElem_of_mem member
        exact ⟨place, List.mem_zipIdx_iff_getElem?.mpr (List.getElem?_eq_getElem bound)⟩
      exact known (line, index) inside
  split at done
  · obtain ⟨⟨⟩, checked, done⟩ := bind_eq_ok.mp done
    exact ⟨row, held, fun _ => checked, written done⟩
  · next empty => exact ⟨row, held, fun nonempty => absurd nonempty empty, written done⟩

theorem checkLines_eq_ok (checked : tables.checkLines row lines = .ok ()) :
    (lines.map fun line => line.amount.minorUnits.toInt).sum =
        ((tables.legs row).map fun leg => leg.1.minorUnits.toInt).sum ∧
      ∀ line ∈ lines, line.amount.currency.code = row.currency.code := by
  obtain ⟨-, checked⟩ := ensure_bind_eq_ok.mp checked
  obtain ⟨txnMinor, summed, checked⟩ := bind_eq_ok.mp checked
  obtain ⟨linesSum, added, checked⟩ := bind_eq_ok.mp checked
  obtain ⟨same, checked⟩ := ensure_bind_eq_ok.mp checked
  have total := eq_of_checkedSum (orMissing_eq_ok.mp summed)
  have lineTotal := eq_of_checkedSum (orMissing_eq_ok.mp added)
  rw [Int.zero_add] at total lineTotal
  rw [← total, ← lineTotal, same]
  exact ⟨rfl, ensure_eq_ok.mp checked⟩

theorem Sound.split (sound : tables.Sound libraries)
    (done : tables.applySetSplits commandMeta transactionId lines = .ok after) :
    after.Sound libraries := by
  obtain ⟨row, found, checked, book, taxonomy, rows, known⟩ := applySetSplits_eq_ok done
  obtain ⟨held, rfl⟩ := Table.find_eq_some_iff.mp found
  have ofInput : ∀ line ∈ lines.zipIdx.map (lineOf commandMeta.commandId row.id),
      line.transactionId = row.id := by
    intro line member
    obtain ⟨indexed, -, rfl⟩ := List.mem_map.mp member
    rfl
  have own : after.linesOf row.id = lines.zipIdx.map (lineOf commandMeta.commandId row.id) := by
    rw [linesOf, rows, List.filter_append, List.filter_filter]
    have cleared : (tables.splitLines.rows.filter fun line =>
        decide (line.transactionId = row.id) && decide (line.transactionId ≠ row.id)) = [] :=
      List.filter_eq_nil_iff.mpr fun line _ => by simp
    rw [cleared, List.nil_append]
    exact List.filter_eq_self.mpr fun line member => decide_eq_true (ofInput line member)
  have others {id : TransactionId} (other : id ≠ row.id) :
      after.linesOf id = tables.linesOf id := by
    rw [linesOf, rows, List.filter_append, List.filter_filter]
    have none : (lines.zipIdx.map (lineOf commandMeta.commandId row.id)).filter
        (fun line => line.transactionId = id) = [] := by
      refine List.filter_eq_nil_iff.mpr fun line member => ?_
      rw [ofInput line member, decide_eq_true_eq]
      exact other.symm
    rw [none, List.append_nil]
    refine List.filter_congr fun line _ => ?_
    by_cases same : line.transactionId = id
    · simp [same, other]
    · simp [same]
  have sameLegs (other : TransactionRow) : after.legs other = tables.legs other := by
    unfold legs
    rw [book]
  have stored {line : SplitLine} (member : line ∈ after.splitLines.rows) :
      line ∈ tables.splitLines.rows ∨
        ∃ indexed ∈ lines.zipIdx, lineOf commandMeta.commandId row.id indexed = line := by
    rw [rows] at member
    rcases List.mem_append.mp member with earlier | new
    · exact .inl (List.mem_filter.mp earlier).1
    · exact .inr (List.mem_map.mp new)
  refine ⟨book ▸ sound.book, taxonomy ▸ sound.forest, fun other member split => ?_,
    fun line member => ?_, fun assigned member => ?_, fun line member category named => ?_⟩
  · rw [book] at member
    rw [sameLegs]
    by_cases same : other.id = row.id
    · obtain rfl := Table.eq_of_key_eq member held same
      have nonempty : lines ≠ [] := by
        rintro rfl
        exact split own
      obtain ⟨adds, currencies⟩ := checkLines_eq_ok (checked nonempty)
      rw [own]
      refine ⟨?_, fun line inside => ?_⟩
      · rw [← adds, List.map_map]
        have inputs : lines = lines.zipIdx.map Prod.fst := by
          rw [List.zipIdx_map_fst]
        conv_rhs => rw [inputs, List.map_map]
        rfl
      · obtain ⟨indexed, inputs, rfl⟩ := List.mem_map.mp inside
        exact currencies indexed.1 (List.fst_mem_of_mem_zipIdx inputs)
    · rw [others same] at split ⊢
      exact sound.adds other member split
  · rw [book]
    rcases stored member with earlier | ⟨indexed, -, rfl⟩
    · exact sound.posted line earlier
    · show (tables.book.store.transactions.find row.id).isSome
      rw [found]
      rfl
  · rw [book] at member
    rw [taxonomy]
    exact sound.categorized assigned member
  · rw [taxonomy]
    rcases stored member with earlier | ⟨indexed, inputs, rfl⟩
    · exact sound.lined line earlier category named
    · exact known indexed.1 (List.fst_mem_of_mem_zipIdx inputs) category named

/-! ### Every run -/

theorem Sound.step (sound : tables.Sound libraries) (step : Step libraries tables after) :
    after.Sound libraries := by
  cases step with
  | system role currency counter ensured => exact sound.system ensured
  | post transaction posted => exact sound.post posted
  | void original commandId voidedAt member reversed => exact sound.void member reversed
  | recategorize commandMeta transactionId categoryId done => exact sound.recategorize done
  | split commandMeta transactionId lines done => exact sound.split done
  | category command done => exact sound.category done

/-- Lines stay added up, whatever commands run. -/
theorem Sound.reaches (sound : tables.Sound libraries)
    (reached : Relation.ReflTransGen (Step libraries) tables after) : after.Sound libraries := by
  induction reached with
  | refl => exact sound
  | tail _ step inductionHypothesis => exact inductionHypothesis.step step

end SpendTables

end Dohflow.DbWorker
