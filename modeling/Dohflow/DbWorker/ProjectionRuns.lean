/-
This file proves that an incremental call leaves the display rows that a rebuild would write,
over every run of commands and calls.

The display rows reflect the joined postings up to the cursor. A command adds postings whose
operation is above the cursor and leaves those below as they are, since no transaction is edited
and no ledger account changes hands. No two operations make rows of one transaction and account.
-/

import Dohflow.DbWorker.DisplayProjection
import Dohflow.DbWorker.ExplainedBalances

namespace Dohflow.DbWorker

open SyncCore CoreLedger Fallible KeyedTable CanonicalOrder MachineIntegers MaterializedView

variable {libraries : ProjectionLibraries} {state after : ProjectedVault}

namespace ProjectedVault

variable {inputs : List TransactionDisplayInput} {row : JoinedPosting} {written : ℕ} {now : String}
  {since : Option Int} {table : Table DisplayRowRecord.key} {operation : LoggedOperation}
  {record : DisplayRowRecord} {other : ProjectedVault} {vault : LedgerVault}

/-! ### The joined postings -/

theorem mem_joined : row ∈ state.joined libraries ↔
    ∃ transaction ∈ state.vault.book.store.transactions.rows.map TransactionRow.unvoided,
      ∃ posting ∈ transaction.postings, ∃ account ∈ state.vault.book.store.accounts.rows,
        ∃ operation ∈ state.operationLog,
          posting.ledgerAccountId ∈ state.vault.book.ledgerAccounts.rows ∧
          account.ledgerAccountId = posting.ledgerAccountId ∧
          operation.commandId = transaction.operationId ∧
          row = ⟨transaction.id, account.id, libraries.toRfc3339 transaction.occurredAt,
            posting.minorUnits, transaction.currency.code, operation.opSeq⟩ := by
  simp only [joined, List.mem_flatMap, List.mem_map, List.mem_filter, decide_eq_true_eq]
  constructor
  · rintro ⟨transaction, member, posting, inside, id, ⟨owned, rfl⟩, account, ⟨accountIn, own⟩,
      operation, ⟨operationIn, made⟩, rfl⟩
    exact ⟨transaction.unvoided, ⟨transaction, member, rfl⟩, posting, inside, account, accountIn,
      operation, operationIn, owned, own, made, rfl⟩
  · rintro ⟨_, ⟨transaction, member, rfl⟩, posting, inside, account, accountIn, operation,
      operationIn, owned, own, made, rfl⟩
    exact ⟨transaction, member, posting, inside, posting.ledgerAccountId, ⟨owned, rfl⟩, account,
      ⟨accountIn, own⟩, operation, ⟨operationIn, made⟩, rfl⟩

theorem mem_joinedSince :
    row ∈ state.joinedSince libraries since ↔
      row ∈ state.joined libraries ∧ since.getD minI64 < row.opSeq := by
  rw [joinedSince, mem_sortBy, List.mem_filter, decide_eq_true_eq]

/-- The stored row that a joined posting makes. -/
def display (libraries : ProjectionLibraries) (row : JoinedPosting) :
    Except ImportError DisplayRowRecord :=
  (row.input libraries).map fun input => input.display.record libraries

theorem display_eq_ok :
    display libraries row = .ok record ↔
      ∃ input, row.input libraries = .ok input ∧ input.display.record libraries = record := by
  rw [display]
  cases row.input libraries with
  | error failure =>
    refine iff_of_false (fun same => by cases same) ?_
    rintro ⟨_, same, -⟩
    cases same
  | ok input =>
    constructor
    · exact fun same => ⟨input, rfl, Except.ok.inj same⟩
    · rintro ⟨_, same, rfl⟩
      rw [← Except.ok.inj same]
      rfl

theorem key_of_display (made : display libraries row = .ok record) :
    record.key = (row.transactionId, row.accountId) := by
  obtain ⟨input, read, rfl⟩ := display_eq_ok.mp made
  obtain ⟨occurredAt, -, read⟩ := bind_eq_ok.mp read
  obtain ⟨currency, -, same⟩ := bind_eq_ok.mp read
  obtain rfl := Except.ok.inj same
  rfl

theorem exists_readInputs_iff {records : List DisplayRowRecord} :
    (∃ inputs, state.readInputs libraries since = .ok inputs ∧
      (projectTransactionDisplay inputs).map (TransactionDisplayRow.record libraries) = records) ↔
        (state.joinedSince libraries since).mapM (display libraries) = .ok records := by
  unfold readInputs
  induction state.joinedSince libraries since generalizing records with
  | nil =>
    constructor
    · rintro ⟨_, same, rfl⟩
      obtain rfl := Except.ok.inj same
      rfl
    · exact fun same => ⟨[], rfl, Except.ok.inj same⟩
  | cons row rest inductionHypothesis =>
    rw [List.mapM_cons, List.mapM_cons]
    constructor
    · rintro ⟨inputs, read, rfl⟩
      obtain ⟨input, readFirst, read⟩ := bind_eq_ok.mp read
      obtain ⟨others, readRest, same⟩ := bind_eq_ok.mp read
      obtain rfl := Except.ok.inj same
      exact bind_eq_ok.mpr ⟨_, display_eq_ok.mpr ⟨input, readFirst, rfl⟩, bind_eq_ok.mpr
        ⟨_, inductionHypothesis.mp ⟨others, readRest, rfl⟩, rfl⟩⟩
    · intro made
      obtain ⟨record, madeFirst, made⟩ := bind_eq_ok.mp made
      obtain ⟨others, madeRest, same⟩ := bind_eq_ok.mp made
      obtain rfl := Except.ok.inj same
      obtain ⟨input, readFirst, rfl⟩ := display_eq_ok.mp madeFirst
      obtain ⟨inputs, readRest, rfl⟩ := inductionHypothesis.mpr madeRest
      exact ⟨input :: inputs, bind_eq_ok.mpr ⟨input, readFirst, bind_eq_ok.mpr
        ⟨inputs, readRest, rfl⟩⟩, rfl⟩

theorem foldl_writeRow (rows : List TransactionDisplayRow) (state : ProjectedVault) :
    rows.foldl (writeRow libraries) state = { state with
      displayRows := putAll state.displayRows
        (rows.map (TransactionDisplayRow.record libraries)) } := by
  induction rows generalizing state with
  | nil => rfl
  | cons row rest inductionHypothesis =>
    rw [List.foldl_cons, inductionHypothesis]
    rfl

/-! ### The head of the log -/

theorem le_maxOpSeq (member : operation ∈ state.operationLog) :
    operation.opSeq ≤ state.maxOpSeq := by
  have inside : operation.opSeq ∈ state.operationLog.map LoggedOperation.opSeq :=
    List.mem_map_of_mem member
  unfold maxOpSeq
  cases found : (state.operationLog.map LoggedOperation.opSeq).max? with
  | none => exact absurd inside (List.max?_eq_none_iff.mp found ▸ List.not_mem_nil)
  | some top => exact (List.max?_eq_some_iff.mp found).2 _ inside

/-! ### What holds in every state of a run -/

/-- Some display rows are those of the joined postings that a call from an operation on leaves
out. -/
def Reflected (libraries : ProjectionLibraries) (state : ProjectedVault) (since : Option Int)
    (table : Table DisplayRowRecord.key) : Prop :=
  Reflects (· ∈ state.joined libraries) JoinedPosting.opSeq (display libraries)
    (since.getD minI64) table

/-- The display rows reflect the joined postings up to the cursor. -/
structure Projects (libraries : ProjectionLibraries) (state : ProjectedVault) : Prop where
  placed : state.vault.book.Placed
  positive : ∀ operation ∈ state.operationLog, 0 < operation.opSeq
  single : ∀ first ∈ state.operationLog, ∀ second ∈ state.operationLog,
    first.commandId = second.commandId → first = second
  behind : state.cursor ≤ state.maxOpSeq
  reflects : Reflected libraries state (some state.cursor) state.displayRows

/-- A transaction and an account have one joined posting at most. -/
theorem Projects.apart (projects : state.Projects libraries) :
    Apart DisplayRowRecord.key (· ∈ state.joined libraries) JoinedPosting.opSeq
      (display libraries) := by
  intro first second firstIn secondIn record other made madeToo same
  rw [key_of_display made, key_of_display madeToo] at same
  obtain ⟨transaction, member, posting, inside, account, accountIn, operation, operationIn, -, own,
    logged, rfl⟩ := mem_joined.mp firstIn
  obtain ⟨otherTransaction, otherMember, otherPosting, otherInside, otherAccount, otherAccountIn,
    otherOperation, otherOperationIn, -, otherOwn, otherLogged, rfl⟩ := mem_joined.mp secondIn
  obtain ⟨sameTransaction, sameAccount⟩ := Prod.mk.inj same
  dsimp only at sameTransaction sameAccount
  obtain rfl : transaction = otherTransaction := by
    obtain ⟨row, stored, rfl⟩ := List.mem_map.mp member
    obtain ⟨otherRow, otherStored, rfl⟩ := List.mem_map.mp otherMember
    rw [Table.eq_of_key_eq stored otherStored sameTransaction]
  obtain rfl := Table.eq_of_key_eq accountIn otherAccountIn sameAccount
  obtain rfl := projects.placed.once transaction member posting inside otherPosting otherInside
    (own.symm.trans otherOwn)
  obtain rfl := projects.single operation operationIn otherOperation otherOperationIn
    (logged.trans otherLogged.symm)
  exact ⟨rfl, Except.ok.inj (made.symm.trans madeToo)⟩

theorem Projects.top (projects : state.Projects libraries) (member : row ∈ state.joined libraries) :
    0 < row.opSeq ∧ row.opSeq ≤ state.maxOpSeq := by
  obtain ⟨-, -, -, -, -, -, operation, operationIn, -, -, -, rfl⟩ := mem_joined.mp member
  exact ⟨projects.positive operation operationIn, le_maxOpSeq operationIn⟩

theorem Projects.joinedSince_eq_nil (projects : state.Projects libraries)
    (head : state.cursor = state.maxOpSeq) :
    state.joinedSince libraries (some state.cursor) = [] := by
  refine List.eq_nil_iff_forall_not_mem.mpr fun row member => ?_
  obtain ⟨joined, above⟩ := mem_joinedSince.mp member
  rw [Option.getD_some, head] at above
  exact absurd (projects.top joined).2 above.not_ge

/-! ### Commands -/

/-- A command leaves the joined postings up to the cursor as they are. -/
theorem Projects.mem_joined_iff (projects : state.Projects libraries)
    (grows : LedgerBook.Grows operation.commandId state.vault.book vault.book)
    (fresh : ∀ held ∈ state.operationLog, held.commandId ≠ operation.commandId)
    (above : state.cursor < operation.opSeq) (low : row.opSeq ≤ state.cursor) :
    row ∈ joined libraries { state with
        vault, operationLog := state.operationLog ++ [operation] } ↔
      row ∈ state.joined libraries := by
  obtain ⟨added, transactions, made⟩ := grows.transactions
  constructor
  · intro member
    obtain ⟨transaction, transactionIn, posting, inside, account, accountIn, logged, loggedIn, -,
      own, named, rfl⟩ := mem_joined.mp member
    have loggedIn : logged ∈ state.operationLog := by
      rcases List.mem_append.mp loggedIn with held | last
      · exact held
      · rw [List.mem_singleton.mp last] at low
        exact absurd above low.not_gt
    have transactionIn : transaction ∈
        state.vault.book.store.transactions.rows.map TransactionRow.unvoided := by
      dsimp only at transactionIn
      rw [transactions] at transactionIn
      rcases List.mem_append.mp transactionIn with held | new
      · exact held
      · exact absurd (named.trans (made transaction new).1) (fresh logged loggedIn)
    -- It posted on a ledger account that was there, so the account was there too.
    have posted := projects.placed.posted transaction transactionIn posting inside
    have accountIn : account ∈ state.vault.book.store.accounts.rows := by
      rcases grows.opened account accountIn with held | unused
      · exact held
      · exact absurd (own ▸ posted) unused
    exact mem_joined.mpr ⟨transaction, transactionIn, posting, inside, account, accountIn, logged,
      loggedIn, posted, own, named, rfl⟩
  · intro member
    obtain ⟨transaction, transactionIn, posting, inside, account, accountIn, logged, loggedIn,
      posted, own, named, rfl⟩ := mem_joined.mp member
    refine mem_joined.mpr ⟨transaction, ?_, posting, inside, account, grows.kept account accountIn,
      logged, List.mem_append_left _ loggedIn, grows.ledgerAccounts _ posted, own, named, rfl⟩
    dsimp only
    rw [transactions]
    exact List.mem_append_left _ transactionIn

/-- A command that is accepted, with its operation. -/
theorem Projects.logged {commandId : Uuid} {gap : ℕ} (projects : state.Projects libraries)
    (writes : LedgerBook.Writes commandId state.vault.book vault.book)
    (done : ({ state with vault }).logOperation commandId gap = .ok after) :
    after.Projects libraries := by
  obtain ⟨fresh, same⟩ := ensure_bind_eq_ok.mp done
  obtain rfl := Except.ok.inj same
  have atHead : 0 ≤ state.maxOpSeq := by
    unfold maxOpSeq
    cases found : (state.operationLog.map LoggedOperation.opSeq).max? with
    | none => exact le_refl _
    | some top =>
      obtain ⟨operation, member, rfl⟩ := List.mem_map.mp (List.max?_eq_some_iff.mp found).1
      exact (projects.positive operation member).le
  have above : state.cursor < state.maxOpSeq + 1 + gap := by
    have := projects.behind
    omega
  refine ⟨writes.placed, ?_, ?_, ?_, ?_⟩
  · refine List.forall_mem_append.mpr ⟨projects.positive, List.forall_mem_singleton.mpr ?_⟩
    show 0 < state.maxOpSeq + 1 + gap
    omega
  · intro first firstIn second secondIn same
    rcases List.mem_append.mp firstIn with firstHeld | firstNew
    · rcases List.mem_append.mp secondIn with secondHeld | secondNew
      · exact projects.single first firstHeld second secondHeld same
      · rw [List.mem_singleton.mp secondNew] at same
        exact absurd same (fresh first firstHeld)
    · rcases List.mem_append.mp secondIn with secondHeld | secondNew
      · rw [List.mem_singleton.mp firstNew] at same
        exact absurd same.symm (fresh second secondHeld)
      · rw [List.mem_singleton.mp firstNew, List.mem_singleton.mp secondNew]
  · refine le_trans ?_ (le_maxOpSeq (List.mem_append_right _ List.mem_cons_self))
    exact above.le
  · exact projects.reflects.grow fun row low =>
      projects.mem_joined_iff writes.grows fresh above low

/-! ### Calls -/

theorem Projects.reflects_putAll (projects : state.Projects libraries)
    (reflects : Reflected libraries state since table)
    (read : state.readInputs libraries since = .ok inputs) :
    Reflected libraries state (some state.maxOpSeq)
      (putAll table ((projectTransactionDisplay inputs).map
        (TransactionDisplayRow.record libraries))) :=
  reflects.catchUp projects.apart (fun _ => mem_joinedSince)
    (fun _ member => (projects.top member).2) (exists_readInputs_iff.mp ⟨inputs, read, rfl⟩)

theorem Projects.reflects_empty (projects : state.Projects libraries) :
    Reflected libraries state none .empty := by
  refine MaterializedView.reflects_empty fun row member => ?_
  exact lt_trans (by decide) (projects.top member).1

theorem project_eq_ok :
    state.project libraries inputs now = .ok (written, after) ↔
      let stored := { state with
        displayRows := putAll state.displayRows ((projectTransactionDisplay inputs).map
          (TransactionDisplayRow.record libraries)) }
      ∃ contentChecksum, stored.checksum libraries = .ok contentChecksum ∧
        inputs.length = written ∧ stored.setCursor state.maxOpSeq contentChecksum now = after := by
  rw [project]
  dsimp only
  rw [foldl_writeRow, bind_eq_ok]
  refine exists_congr fun contentChecksum => and_congr_right fun _ => ?_
  rw [projectTransactionDisplay, List.length_map]
  constructor
  · exact fun same => Prod.mk.inj (Except.ok.inj same)
  · rintro ⟨rfl, rfl⟩
    rfl

theorem readRows_congr
    (same : ∀ record, record ∈ state.displayRows.rows ↔ record ∈ other.displayRows.rows) :
    state.readRows libraries = other.readRows libraries := by
  have nodup (table : Table DisplayRowRecord.key) : table.rows.Nodup := table.unique.of_map _
  have perm := (List.perm_ext_iff_of_nodup (nodup state.displayRows) (nodup other.displayRows)).mpr
    same
  rw [readRows, readRows, (sortBy_eq_iff_perm fun first firstIn second secondIn equal => ?_).mpr
    perm]
  obtain ⟨ids, accounts⟩ := Prod.mk.inj (toLex.injective equal)
  refine Table.eq_of_key_eq firstIn ((same second).mpr secondIn) (Prod.ext ?_ ?_)
  · exact libraries.idBytes_injective ids
  · exact Subtype.ext (byteKey_injective accounts)

theorem checksum_congr
    (same : ∀ record, record ∈ state.displayRows.rows ↔ record ∈ other.displayRows.rows) :
    state.checksum libraries = other.checksum libraries := by
  rw [checksum, checksum, readRows_congr same]

theorem Projects.reflects_project (projects : state.Projects libraries)
    (reflects : Reflected libraries state since table)
    (read : state.readInputs libraries since = .ok inputs)
    (done : ({ state with displayRows := table }).project libraries inputs now =
      .ok (written, after)) : after.Projects libraries := by
  obtain ⟨contentChecksum, -, -, rfl⟩ := project_eq_ok.mp done
  exact ⟨projects.placed, projects.positive, projects.single, le_refl _,
    projects.reflects_putAll reflects read⟩

/-- Where one of two calls succeeds, so does the other, and it leaves the same rows, the same
cursor and the same checksum. -/
theorem Projects.agrees {since otherSince : Option Int}
    {table otherTable : Table DisplayRowRecord.key} (projects : state.Projects libraries)
    (reflects : Reflected libraries state since table)
    (otherReflects : Reflected libraries state otherSince otherTable)
    (read : state.readInputs libraries since = .ok inputs)
    (done : ({ state with displayRows := table }).project libraries inputs now =
      .ok (written, after)) :
    ∃ otherInputs count other, state.readInputs libraries otherSince = .ok otherInputs ∧
      ({ state with displayRows := otherTable }).project libraries otherInputs now =
        .ok (count, other) ∧
      (∀ record, record ∈ after.displayRows.rows ↔ record ∈ other.displayRows.rows) ∧
      after.cursorRow = other.cursorRow ∧ after.checksumRow = other.checksumRow := by
  have all (since : Option Int) (row : JoinedPosting) : row ∈ state.joinedSince libraries since ↔
      row ∈ state.joined libraries ∧ since.getD minI64 < row.opSeq := mem_joinedSince
  have readable := (reflects.exists_mapM_iff (all since)).mp
    ⟨_, exists_readInputs_iff.mp ⟨inputs, read, rfl⟩⟩
  obtain ⟨records, made⟩ := (otherReflects.exists_mapM_iff (all otherSince)).mpr readable
  obtain ⟨otherInputs, otherRead, -⟩ := exists_readInputs_iff.mpr made
  obtain ⟨contentChecksum, summed, -, rfl⟩ := project_eq_ok.mp done
  have same := (projects.reflects_putAll reflects read).mem_iff
    (projects.reflects_putAll otherReflects otherRead)
  refine ⟨otherInputs, _, _, otherRead, project_eq_ok.mpr ⟨contentChecksum, ?_, rfl, rfl⟩, same,
    rfl, rfl⟩
  rw [← summed]
  exact checksum_congr fun record => (same record).symm

theorem incremental_eq_ok :
    state.incremental libraries now = .ok (written, after) ↔
      ∃ inputs, state.readInputs libraries (some state.cursor) = .ok inputs ∧
        state.project libraries inputs now = .ok (written, after) := bind_eq_ok

theorem rebuild_eq_ok :
    state.rebuild libraries now = .ok (written, after) ↔
      ∃ inputs, state.readInputs libraries none = .ok inputs ∧
        ({ state with displayRows := .empty }).project libraries inputs now =
          .ok (written, after) := bind_eq_ok

/-! ### Runs -/

theorem Projects.step (projects : state.Projects libraries) (event : VaultEvent) :
    (state.step libraries event).Projects libraries := by
  cases event with
  | command commandMeta command gap =>
    show (Except.toOption _ |>.getD state).Projects libraries
    cases done : state.execute libraries commandMeta command gap with
    | error failure => exact projects
    | ok after =>
      obtain ⟨vault, applied, logged⟩ := bind_eq_ok.mp done
      exact projects.logged (LedgerVault.writes_of_apply projects.placed applied) logged
  | otherCommand commandId gap =>
    show (Except.toOption _ |>.getD state).Projects libraries
    cases done : state.logOperation commandId gap with
    | error failure => exact projects
    | ok after => exact projects.logged (.refl projects.placed) done
  | otherTables store observations =>
    obtain ⟨⟨owned, systemOwned, single, apart, posted, once⟩, positive, logged, behind,
      reflects⟩ := projects
    exact ⟨⟨owned, systemOwned, single, apart, posted, once⟩, positive, logged, behind, reflects⟩
  | incremental now =>
    show ((Except.toOption _ |>.map Prod.snd).getD state).Projects libraries
    cases done : state.incremental libraries now with
    | error failure => exact projects
    | ok result =>
      obtain ⟨inputs, read, done⟩ := incremental_eq_ok.mp done
      exact projects.reflects_project projects.reflects read done
  | rebuild now =>
    show ((Except.toOption _ |>.map Prod.snd).getD state).Projects libraries
    cases done : state.rebuild libraries now with
    | error failure => exact projects
    | ok result =>
      obtain ⟨inputs, read, done⟩ := rebuild_eq_ok.mp done
      exact projects.reflects_project projects.reflects_empty read done

theorem Projects.run (projects : state.Projects libraries) (events : List VaultEvent) :
    (state.run libraries events).Projects libraries := by
  induction events generalizing state with
  | nil => exact projects
  | cons event rest inductionHypothesis => exact inductionHypothesis (projects.step event)

theorem projects_created : (created libraries).Projects libraries := by
  have empty : LedgerBook.empty.Placed :=
    ⟨List.forall_mem_nil _, List.forall_mem_nil _, List.forall_mem_nil _, List.forall_mem_nil _,
      List.forall_mem_nil _, List.forall_mem_nil _⟩
  refine ⟨?_, List.forall_mem_nil _, List.forall_mem_nil _, le_refl _, ?_⟩
  · show (Except.toOption _ |>.getD LedgerBook.empty).Placed
    cases done : LedgerBook.empty.ensureSystemAccounts libraries.toBookLibraries with
    | error failure => exact empty
    | ok book =>
      obtain ⟨⟨_, first⟩, ensured, done⟩ := bind_eq_ok.mp done
      obtain ⟨⟨_, second⟩, ensuredNext, done⟩ := bind_eq_ok.mp done
      obtain ⟨⟨_, third⟩, ensuredLast, same⟩ := bind_eq_ok.mp done
      obtain rfl := Except.ok.inj same
      exact ((empty.ensureSystemLedgerAccount ensured).ensureSystemLedgerAccount
        ensuredNext).ensureSystemLedgerAccount ensuredLast
  · refine MaterializedView.reflects_empty fun row member => ?_
    obtain ⟨-, -, -, -, -, -, operation, operationIn, -⟩ := mem_joined.mp member
    exact absurd operationIn List.not_mem_nil

/-! ### An incremental call and a rebuild -/

/-- An incremental call leaves the rows that a rebuild would write, it succeeds where a rebuild
does, and a further one writes none. -/
structure FollowsRebuild (libraries : ProjectionLibraries) (state : ProjectedVault)
    (now later : String) : Prop where
  rows : ∀ record, record ∈ (state.step libraries (.incremental now)).displayRows.rows ↔
    record ∈ (state.step libraries (.rebuild now)).displayRows.rows
  succeeds : (∃ result, state.incremental libraries now = .ok result) ↔
    ∃ result, state.rebuild libraries now = .ok result
  leaves : ∀ written after, state.incremental libraries now = .ok (written, after) →
    ∃ count rebuilt, state.rebuild libraries now = .ok (count, rebuilt) ∧
      after.readRows libraries = rebuilt.readRows libraries ∧
      after.cursorRow = rebuilt.cursorRow ∧ after.checksumRow = rebuilt.checksumRow
  settles : ∀ written after, state.incremental libraries now = .ok (written, after) →
    ∃ again, after.incremental libraries later = .ok (0, again) ∧
      again.displayRows = after.displayRows ∧
      again.checksumRow.map ReadModelChecksum.currentChecksum =
        after.checksumRow.map ReadModelChecksum.currentChecksum

theorem Projects.settles (projects : state.Projects libraries)
    (done : state.incremental libraries now = .ok (written, after)) (later : String) :
    ∃ again, after.incremental libraries later = .ok (0, again) ∧
      again.displayRows = after.displayRows ∧
      again.checksumRow.map ReadModelChecksum.currentChecksum =
        after.checksumRow.map ReadModelChecksum.currentChecksum := by
  obtain ⟨inputs, read, done⟩ := incremental_eq_ok.mp done
  have projected := projects.reflects_project projects.reflects read done
  obtain ⟨contentChecksum, summed, -, rfl⟩ := project_eq_ok.mp done
  refine ⟨_, incremental_eq_ok.mpr ⟨[], ?_, project_eq_ok.mpr ⟨contentChecksum, summed, rfl, rfl⟩⟩,
    rfl, rfl⟩
  rw [readInputs, projected.joinedSince_eq_nil rfl]
  rfl

/-- In every state of every run of commands and calls, an incremental call follows a rebuild. -/
theorem incremental_follows_rebuild (libraries : ProjectionLibraries) (events : List VaultEvent)
    (now later : String) : FollowsRebuild libraries ((created libraries).run libraries events) now
      later := by
  have projects := (@projects_created libraries).run events
  generalize (created libraries).run libraries events = state at projects
  have forth {written : ℕ} {after : ProjectedVault}
      (done : state.incremental libraries now = .ok (written, after)) :
      ∃ count rebuilt, state.rebuild libraries now = .ok (count, rebuilt) ∧
        (∀ record, record ∈ after.displayRows.rows ↔ record ∈ rebuilt.displayRows.rows) ∧
        after.cursorRow = rebuilt.cursorRow ∧ after.checksumRow = rebuilt.checksumRow := by
    obtain ⟨inputs, read, done⟩ := incremental_eq_ok.mp done
    obtain ⟨others, count, rebuilt, readAll, rebuilds, same⟩ :=
      projects.agrees projects.reflects projects.reflects_empty read done
    exact ⟨count, rebuilt, rebuild_eq_ok.mpr ⟨others, readAll, rebuilds⟩, same⟩
  have back {count : ℕ} {rebuilt : ProjectedVault}
      (done : state.rebuild libraries now = .ok (count, rebuilt)) :
      ∃ written after, state.incremental libraries now = .ok (written, after) := by
    obtain ⟨inputs, read, done⟩ := rebuild_eq_ok.mp done
    obtain ⟨others, written, after, readNew, projected, -⟩ :=
      projects.agrees projects.reflects_empty projects.reflects read done
    exact ⟨written, after, incremental_eq_ok.mpr ⟨others, readNew, projected⟩⟩
  refine ⟨?_, ?_, fun written after done => ?_, fun written after done =>
    projects.settles done later⟩
  · rw [ProjectedVault.step, ProjectedVault.step]
    cases done : state.incremental libraries now with
    | ok result =>
      obtain ⟨count, rebuilt, rebuilds, same, -⟩ := forth done
      rw [rebuilds]
      exact same
    | error failure =>
      cases rebuilds : state.rebuild libraries now with
      | error failure => exact fun record => Iff.rfl
      | ok result =>
        obtain ⟨written, after, projected⟩ := back rebuilds
        cases done.symm.trans projected
  · constructor
    · rintro ⟨result, done⟩
      obtain ⟨count, rebuilt, rebuilds, -⟩ := forth done
      exact ⟨_, rebuilds⟩
    · rintro ⟨result, done⟩
      obtain ⟨written, after, projected⟩ := back done
      exact ⟨_, projected⟩
  · obtain ⟨count, rebuilt, rebuilds, same, cursors, checksums⟩ := forth done
    exact ⟨count, rebuilt, rebuilds, readRows_congr same, cursors, checksums⟩

/-! ### A run -/

/-- Bytes that tell the ids of transactions apart. -/
def bytesOf : TransactionId → List ℕ
  | .imported batch ordinal => 0 :: ordinal.toBitVec.toNat :: byteKey batch.toList
  | .reversal command original => 1 :: (byteKey command.toList ++ bytesOf original)
  | .given id => 2 :: byteKey id.toList

theorem bytesOf_injective : Function.Injective bytesOf := by
  have uuid {first second : Uuid} (same : byteKey first.toList = byteKey second.toList) :
      first = second := Subtype.ext (byteKey_injective same)
  intro first
  induction first with
  | imported batch ordinal =>
    intro second same
    cases second with
    | imported otherBatch otherOrdinal =>
      obtain ⟨-, rest⟩ := List.cons.inj same
      obtain ⟨ordinals, batches⟩ := List.cons.inj rest
      rw [uuid batches, Int64.toBitVec_inj.mp (BitVec.eq_of_toNat_eq ordinals)]
    | reversal command original => cases (List.cons.inj same).1
    | given id => cases (List.cons.inj same).1
  | reversal command original inductionHypothesis =>
    intro second same
    cases second with
    | imported otherBatch otherOrdinal => cases (List.cons.inj same).1
    | reversal otherCommand otherOriginal =>
      have widths : (byteKey command.toList).length = (byteKey otherCommand.toList).length := by
        simp [byteKey]
      obtain ⟨commands, originals⟩ := List.append_inj (List.cons.inj same).2 widths
      rw [uuid commands, inductionHypothesis originals]
    | given id => cases (List.cons.inj same).1
  | given id =>
    intro second same
    cases second with
    | imported otherBatch otherOrdinal => cases (List.cons.inj same).1
    | reversal command original => cases (List.cons.inj same).1
    | given other => rw [uuid (List.cons.inj same).2]

def projectionLibraries : ProjectionLibraries where
  toBookLibraries := { bookLibraries with
    parseRfc3339 := fun text => some text.length
    systemAccountId := fun role _ => .replicate 16 role.length.toUInt8 }
  openingId command := command
  transferId command := command
  confirmId command _ := command
  stagedCommitId command _ := command
  issuedAt _ := 0
  householdTodayAt _ := .ok ⟨1970, 1, 1⟩
  dateOf _ := ⟨1970, 1, 1⟩
  toRfc3339 instant := String.ofList (List.replicate instant.toNat 'x')
  idBytes := bytesOf
  idBytes_injective := bytesOf_injective
  debugBytes row := [row.amount.minorUnits.toUInt64.toUInt8]

/-- An account is opened with 100, and 30 of them are spent. -/
example :
    ((created projectionLibraries).run projectionLibraries
      [.command ⟨.replicate 16 1, "", ""⟩
          (.createAccount ⟨.replicate 16 2, .replicate 16 3, "USD"⟩ "liquid_cash"
            (some ⟨100, .usd⟩)) 0,
        .incremental "", .command ⟨.replicate 16 4, "", ""⟩
          (.recordTransaction (.replicate 16 5) (.replicate 16 2) ⟨-30, .usd⟩ 5) 2,
        .incremental ""]).displayRows.rows.map
      (fun record => (record.minorUnits, record.lastProjectedOpSeq)) = [(100, 1), (-30, 4)] := by
  rfl

end ProjectedVault

end Dohflow.DbWorker
