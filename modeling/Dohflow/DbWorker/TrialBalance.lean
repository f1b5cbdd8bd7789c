/-
This file proves that the ledger only grows and that the books balance, over every run of commands
and calls.

No command edits a transaction, and the one way to post is to persist a `LedgerTransaction`, whose
postings sum to zero. So every transaction there is balances, and since all it posts is on ledger
accounts of the book, so does a trial balance over them: of the transactions that are not voided,
of those in one currency, or of all of them, and over any choice of days.
-/

import Dohflow.DbWorker.ProjectionRuns
import Dohflow.Foundation.ListSums

namespace Dohflow.DbWorker

open SyncCore CoreLedger Fallible KeyedTable

namespace LedgerBook

variable {book middle after : LedgerBook} {operationId : Uuid}

/-- The transactions there stay as they are, but for what is voided, and those that come after them
balance. -/
def Appends (before after : LedgerBook) : Prop :=
  ∃ added, after.store.transactions.rows.map TransactionRow.unvoided =
    before.store.transactions.rows.map TransactionRow.unvoided ++ added ∧
      ∀ row ∈ added, row.Balanced

theorem Appends.refl (book : LedgerBook) : Appends book book :=
  ⟨[], (List.append_nil _).symm, List.forall_mem_nil _⟩

theorem Appends.trans (early : Appends book middle) (late : Appends middle after) :
    Appends book after := by
  obtain ⟨first, firstRows, firstBalance⟩ := early
  obtain ⟨second, secondRows, secondBalance⟩ := late
  exact ⟨first ++ second, by rw [secondRows, firstRows, List.append_assoc],
    List.forall_mem_append.mpr ⟨firstBalance, secondBalance⟩⟩

theorem Grows.appends (grows : Grows operationId book after) : Appends book after := by
  obtain ⟨added, rows, made⟩ := grows.transactions
  exact ⟨added, rows, fun row member => (made row member).2⟩

/-- Every transaction balances. -/
def InBalance (book : LedgerBook) : Prop :=
  ∀ row ∈ book.store.transactions.rows.map TransactionRow.unvoided, row.Balanced

theorem InBalance.append (balanced : book.InBalance) (appends : Appends book after) :
    after.InBalance := by
  obtain ⟨added, rows, addedBalance⟩ := appends
  rw [InBalance, rows]
  exact List.forall_mem_append.mpr ⟨balanced, addedBalance⟩

theorem appends_ensureSystemLedgerAccount {libraries : CommandLibraries} {role : String}
    {currency : Currency} {counter : Uuid} (placed : book.Placed)
    (ensured : book.ensureSystemLedgerAccount libraries.toBookLibraries role currency =
      .ok (counter, after)) : Appends book after :=
  (@writes_ensureSystemLedgerAccount libraries book after (.replicate 16 0) _ _ _ placed
    ensured).1.grows.appends

/-- What a choice of transactions posts on a ledger account within some days. -/
def balanceOf (book : LedgerBook) (selects : TransactionRow → Prop) [DecidablePred selects]
    (within : String → Prop) [DecidablePred within] (ledgerAccount : Uuid) : Int :=
  (amountsOf ((book.store.transactions.rows.filter (selects ·)).flatMap TransactionRow.postings)
    ledgerAccount within).sum

end LedgerBook

theorem TransactionRow.Balanced.sum_within {row : TransactionRow} (balanced : row.Balanced)
    (within : String → Prop) [DecidablePred within] :
    ((row.postings.filter fun posting => within posting.postingDate).map
      fun posting => posting.minorUnits.toInt).sum = 0 := by
  obtain ⟨day, ofDay⟩ := balanced.oneDay
  by_cases inside : within day
  · rw [List.filter_eq_self.mpr fun posting member => by simpa [ofDay posting member] using inside]
    exact balanced.balances
  · rw [List.filter_eq_nil_iff.mpr fun posting member => by
      simpa [ofDay posting member] using inside]
    rfl

theorem LedgerBook.sum_balanceOf {book : LedgerBook} (balanced : book.InBalance)
    (placed : book.Placed) (selects : TransactionRow → Prop) [DecidablePred selects]
    (within : String → Prop) [DecidablePred within] :
    (book.ledgerAccounts.rows.map (book.balanceOf selects within)).sum = 0 := by
  have distinct : book.ledgerAccounts.rows.Nodup := book.ledgerAccounts.unique.of_map _
  have mem_unvoided {row : TransactionRow} (member : row ∈ book.store.transactions.rows) :
      row.unvoided ∈ book.store.transactions.rows.map TransactionRow.unvoided :=
    List.mem_map_of_mem member
  let chosen := book.store.transactions.rows.filter (selects ·)
  let postings := (chosen.flatMap TransactionRow.postings).filter (within ·.postingDate)
  have fibers := @ListSums.sum_fibers _ _ _ _ _
    (fun posting : PostingRow => some posting.ledgerAccountId) _ distinct
    (fun posting => posting.minorUnits.toInt) postings
  have account (id : Uuid) : book.balanceOf selects within id =
      ((postings.filter fun posting => some posting.ledgerAccountId = some id).map
        fun posting => posting.minorUnits.toInt).sum := by
    rw [balanceOf, amountsOf, List.filter_filter]
    simp only [Option.some_inj, Bool.decide_and]
    rfl
  have all : (postings.filter fun posting =>
      ∃ id ∈ book.ledgerAccounts.rows, some posting.ledgerAccountId = some id) = postings := by
    refine List.filter_eq_self.mpr fun posting member => decide_eq_true ?_
    obtain ⟨row, inside, posted⟩ := List.mem_flatMap.mp (List.mem_filter.mp member).1
    exact ⟨_, placed.posted _ (mem_unvoided (List.mem_filter.mp inside).1) posting posted, rfl⟩
  rw [List.map_congr_left fun id _ => account id, fibers, all]
  show (List.map _ (List.filter _ (List.flatMap _ chosen))).sum = 0
  rw [List.filter_flatMap, List.map_flatMap, ListSums.sum_flatMap]
  refine List.sum_eq_zero fun total member => ?_
  obtain ⟨row, inside, rfl⟩ := List.mem_map.mp member
  exact (balanced _ (mem_unvoided (List.mem_filter.mp inside).1)).sum_within within

namespace ProjectedVault

open LedgerBook

variable {libraries : ProjectionLibraries} {state : ProjectedVault}

theorem inBalance_created : (created libraries).vault.book.InBalance := by
  have empty : LedgerBook.empty.Placed :=
    ⟨List.forall_mem_nil _, List.forall_mem_nil _, List.forall_mem_nil _, List.forall_mem_nil _,
      List.forall_mem_nil _, List.forall_mem_nil _⟩
  have balanced : LedgerBook.empty.InBalance := List.forall_mem_nil _
  show (Except.toOption _ |>.getD LedgerBook.empty).InBalance
  cases done : LedgerBook.empty.ensureSystemAccounts libraries.toBookLibraries with
  | error failure => exact balanced
  | ok book =>
    obtain ⟨⟨_, first⟩, ensured, done⟩ := bind_eq_ok.mp done
    obtain ⟨⟨_, second⟩, ensuredNext, done⟩ := bind_eq_ok.mp done
    obtain ⟨⟨_, third⟩, ensuredLast, same⟩ := bind_eq_ok.mp done
    obtain rfl := Except.ok.inj same
    have placed := empty.ensureSystemLedgerAccount ensured
    exact ((balanced.append (appends_ensureSystemLedgerAccount empty ensured)).append
      (appends_ensureSystemLedgerAccount placed ensuredNext)).append
        (appends_ensureSystemLedgerAccount (placed.ensureSystemLedgerAccount ensuredNext)
          ensuredLast)

theorem vault_of_project {inputs : List TransactionDisplayInput} {now : String}
    {result : ℕ × ProjectedVault} (done : state.project libraries inputs now = .ok result) :
    result.2.vault = state.vault := by
  obtain ⟨_, -, -, same⟩ := project_eq_ok.mp done
  exact same ▸ rfl

theorem appends_step (placed : state.vault.book.Placed) (event : VaultEvent) :
    Appends state.vault.book (state.step libraries event).vault.book := by
  have same {after : ProjectedVault} (equal : after.vault = state.vault) :
      Appends state.vault.book after.vault.book := equal ▸ .refl _
  cases event with
  | command commandMeta command gap =>
    show Appends _ (Except.toOption _ |>.getD state).vault.book
    cases done : state.execute libraries commandMeta command gap with
    | error failure => exact .refl _
    | ok after =>
      obtain ⟨vault, applied, logged⟩ := bind_eq_ok.mp done
      obtain ⟨-, rest⟩ := ensure_bind_eq_ok.mp logged
      obtain rfl := Except.ok.inj rest
      exact (LedgerVault.writes_of_apply placed applied).grows.appends
  | otherCommand commandId gap =>
    show Appends _ (Except.toOption _ |>.getD state).vault.book
    cases done : state.logOperation commandId gap with
    | error failure => exact .refl _
    | ok after =>
      obtain ⟨-, rest⟩ := ensure_bind_eq_ok.mp done
      exact same (Except.ok.inj rest ▸ rfl)
  | otherTables store observations => exact .refl _
  | incremental now =>
    show Appends _ ((Except.toOption _ |>.map Prod.snd).getD state).vault.book
    cases done : state.incremental libraries now with
    | error failure => exact .refl _
    | ok result =>
      obtain ⟨inputs, -, done⟩ := incremental_eq_ok.mp done
      exact same (vault_of_project done)
  | rebuild now =>
    show Appends _ ((Except.toOption _ |>.map Prod.snd).getD state).vault.book
    cases done : state.rebuild libraries now with
    | error failure => exact .refl _
    | ok result =>
      obtain ⟨inputs, -, done⟩ := rebuild_eq_ok.mp done
      exact same (@vault_of_project _ { state with displayRows := .empty } _ _ _ done)

theorem appends_run (projects : state.Projects libraries) (events : List VaultEvent) :
    Appends state.vault.book (state.run libraries events).vault.book := by
  induction events generalizing state with
  | nil => exact .refl _
  | cons event rest inductionHypothesis =>
    exact (appends_step projects.placed event).trans (inductionHypothesis (projects.step event))

/-- However a run goes on, no transaction is edited, moved or taken out: each keeps its id, its
operation, its instant and its postings, and what is posted later comes after it. -/
theorem ledger_only_grows (libraries : ProjectionLibraries) (events more : List VaultEvent) :
    Appends ((created libraries).run libraries events).vault.book
      ((created libraries).run libraries (events ++ more)).vault.book := by
  have goesOn : (created libraries).run libraries (events ++ more) =
      ((created libraries).run libraries events).run libraries more := List.foldl_append
  rw [goesOn]
  exact appends_run ((@projects_created libraries).run events) more

/-- In every state of every run, each transaction balances, and whichever transactions and days
are chosen, what they post on all ledger accounts together is zero. -/
theorem books_balance (libraries : ProjectionLibraries) (events : List VaultEvent) :
    let book := ((created libraries).run libraries events).vault.book
    (∀ row ∈ book.store.transactions.rows, row.Balanced) ∧
      ∀ (selects : TransactionRow → Prop) [DecidablePred selects] (within : String → Prop)
        [DecidablePred within],
        (book.ledgerAccounts.rows.map (book.balanceOf selects within)).sum = 0 := by
  have projects := (@projects_created libraries).run events
  have balanced := inBalance_created.append (appends_run (@projects_created libraries) events)
  refine ⟨fun row member => ?_, fun selects _ within _ => ?_⟩
  · obtain ⟨twoOrMore, oneDay, balances⟩ := balanced _ (List.mem_map_of_mem member)
    exact ⟨twoOrMore, oneDay, balances⟩
  · exact sum_balanceOf balanced projects.placed selects within

end ProjectedVault

end Dohflow.DbWorker
