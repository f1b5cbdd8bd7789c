/-
This file models how a connector's balances are recorded, and proves that they converge.

There is one connector row for an account and a day, and a command moves it only where the
text of the command's instant is greater than the row's. So after any commands the row is
what the latest of them wrote, or what it was before where none of them is later. As the
texts compare as the instants do, the rows do not depend on the order of the commands, nor
on how often one is applied.
-/

import Dohflow.DbWorker.ImportTables
import Dohflow.DbWorker.IssuedAtText
import Dohflow.Foundation.CanonicalOrder
import Mathlib.Data.List.Induction
import Mathlib.Data.List.MinMax

namespace Dohflow.DbWorker

open SyncCore CoreLedger Fallible KeyedTable CanonicalOrder Calendar

/-! ### Observations -/

inductive ObservationSource
  | manual
  | csvImport
  | ofxImport
  | connectorSync
  | reconciliationSession
  deriving DecidableEq

/-- A row of `balance_observations`. -/
structure BalanceObservation where
  id : Uuid
  accountId : Uuid
  observedAt : String
  balance : Money
  source : ObservationSource
  sourceRecordId : Option Uuid
  reconciliationSessionId : Option Uuid
  createdAt : String

abbrev ObservationTable : Type := Table BalanceObservation.id

/-- The tables that a balance command reads and writes. -/
structure BalanceVault where
  accounts : Table AccountRow.id
  observations : ObservationTable

/-- `WriteCommand::RecordConnectorBalance`, with the instant it was issued at in microseconds. -/
structure RecordConnectorBalance where
  issuedAt : Int
  accountId : Uuid
  observedAt : Date
  amount : Money

/-- What the code takes from outside: the texts of instants and days, the household's day at an
instant, and the content id of the connector's row for an account and a day. -/
structure BalanceLibraries where
  toRfc3339 : Int → String
  dayText : Date → String
  householdTodayAt : Int → Except ImportError Date
  connectorId : Uuid → String → Uuid

/-! ### Recording a balance -/

variable (libraries : BalanceLibraries)

/-- `require_issued_at` -/
def requireIssuedAt (micros : Int) : Except ImportError Unit :=
  ensure (Supported micros)
    (.rejected .issuedAtOutOfRange "issued_at is outside the supported date range")

/-- The account's currency, or the refusal. -/
def accountCurrency (accounts : Table AccountRow.id) (account : Uuid) (amount : Money) :
    Except ImportError Unit := do
  let row ← orMissing (.rejected .referenceMissing "no such account") (accounts.find account)
  let currency ← currencyFromCode row.currency
  ensure (amount.currency = currency)
    (.rejected .stateConflict "assertion currency must match the account currency")

/-- The account and the day that a command names. -/
def RecordConnectorBalance.key (command : RecordConnectorBalance) : Uuid × String :=
  (command.accountId, libraries.dayText command.observedAt)

/-- A connector's row for an account and a day. -/
def BalanceObservation.IsConnectorOf (key : Uuid × String) (row : BalanceObservation) : Prop :=
  row.source = .connectorSync ∧ (row.accountId, row.observedAt) = key

instance decidableIsConnectorOf (key : Uuid × String) (row : BalanceObservation) :
    Decidable (row.IsConnectorOf key) := inferInstanceAs (Decidable (_ ∧ _))

/-- `ORDER BY created_at, id` -/
def BalanceObservation.rank (row : BalanceObservation) : String ×ₗ List ℕ :=
  toLex (row.createdAt, byteKey row.id.toList)

/-- The connector's newest row for an account and a day. -/
def existingRow (observations : ObservationTable) (key : Uuid × String) :
    Option BalanceObservation :=
  (sortBy BalanceObservation.rank
    (observations.rows.filter fun row => row.IsConnectorOf key)).getLast?

/-- The row a command writes under an id. -/
def writtenRow (id : Uuid) (command : RecordConnectorBalance) : BalanceObservation where
  id
  accountId := command.accountId
  observedAt := libraries.dayText command.observedAt
  balance := command.amount
  source := .connectorSync
  sourceRecordId := none
  reconciliationSessionId := none
  createdAt := libraries.toRfc3339 command.issuedAt

/-- The upsert of the natural key; `none` where the content id is taken. -/
def upsertBalance (observations : ObservationTable) (command : RecordConnectorBalance) :
    Option ObservationTable :=
  let issuedAtText := libraries.toRfc3339 command.issuedAt
  match existingRow observations (command.key libraries) with
  | some existing =>
    if existing.createdAt < issuedAtText then
      some (observations.update (fun row => row.id = existing.id)
        (fun row => { row with
          balance := command.amount
          createdAt := issuedAtText
          sourceRecordId := none
          reconciliationSessionId := none }) fun _ => rfl)
    else some observations
  | none =>
    observations.insert (writtenRow libraries
      (libraries.connectorId command.accountId (libraries.dayText command.observedAt)) command)

/-- The checks of a command, which read nothing that it writes. -/
def checkBalance (accounts : Table AccountRow.id) (command : RecordConnectorBalance) :
    Except ImportError Unit := do
  requireIssuedAt command.issuedAt
  accountCurrency accounts command.accountId command.amount
  let today ← libraries.householdTodayAt command.issuedAt
  ensure (command.observedAt ≤ today)
    (.rejected .stateConflict "a balance cannot be observed in the future")

def applyRecordConnectorBalance (vault : BalanceVault) (command : RecordConnectorBalance) :
    Except ImportError BalanceVault := do
  checkBalance libraries vault.accounts command
  let observations ← orMissing .sqlite (upsertBalance libraries vault.observations command)
  return { vault with observations }

/-- Apply commands one after another. -/
def applyBalances (vault : BalanceVault) (commands : List RecordConnectorBalance) :
    Except ImportError BalanceVault :=
  commands.foldlM (applyRecordConnectorBalance libraries) vault

/-! ### One row for an account and a day -/

/-- A connector has at most one row for an account and a day. -/
def OneConnectorRow (observations : ObservationTable) : Prop :=
  ∀ key, ∀ first ∈ observations.rows, ∀ second ∈ observations.rows,
    first.IsConnectorOf key → second.IsConnectorOf key → first = second

variable {libraries} {observations after : ObservationTable} {command : RecordConnectorBalance}
  {key : Uuid × String} {row : BalanceObservation}

theorem mem_of_existingRow (found : existingRow observations key = some row) :
    row ∈ observations.rows ∧ row.IsConnectorOf key := by
  have member := mem_sortBy.mp (List.mem_of_getLast? found)
  rw [List.mem_filter, decide_eq_true_eq] at member
  exact member

theorem existingRow_eq_none :
    existingRow observations key = none ↔ ∀ row ∈ observations.rows, ¬row.IsConnectorOf key := by
  rw [existingRow, List.getLast?_eq_none_iff, ← List.length_eq_zero_iff, length_sortBy,
    List.length_eq_zero_iff, List.filter_eq_nil_iff]
  simp only [decide_eq_true_eq]

theorem existingRow_eq_some (one : OneConnectorRow observations) :
    existingRow observations key = some row ↔ row ∈ observations.rows ∧ row.IsConnectorOf key := by
  refine ⟨mem_of_existingRow, fun ⟨member, own⟩ => ?_⟩
  cases found : existingRow observations key with
  | none => exact absurd own (existingRow_eq_none.mp found row member)
  | some other =>
    obtain ⟨inside, alike⟩ := mem_of_existingRow found
    rw [one key other inside row member alike own]

/-- What a command makes of the row that is there. -/
def settleRow (libraries : BalanceLibraries) (held : Option BalanceObservation)
    (command : RecordConnectorBalance) : BalanceObservation :=
  match held with
  | some row =>
    if row.createdAt < libraries.toRfc3339 command.issuedAt then writtenRow libraries row.id command
    else row
  | none => writtenRow libraries
      (libraries.connectorId command.accountId (libraries.dayText command.observedAt)) command

theorem isConnectorOf_writtenRow (id : Uuid) (command : RecordConnectorBalance) :
    (writtenRow libraries id command).IsConnectorOf (command.key libraries) := ⟨rfl, rfl⟩

theorem eq_of_isConnectorOf {other : Uuid × String} (own : row.IsConnectorOf key)
    (shared : row.IsConnectorOf other) : key = other := own.2.symm.trans shared.2

/-- What an upsert does: it settles the row of its key, and leaves all others as they are. -/
structure Upserted (libraries : BalanceLibraries) (observations : ObservationTable)
    (command : RecordConnectorBalance) (after : ObservationTable) : Prop where
  one : OneConnectorRow after
  settled : existingRow after (command.key libraries) =
    some (settleRow libraries (existingRow observations (command.key libraries)) command)
  others : ∀ row, ¬row.IsConnectorOf (command.key libraries) →
    (row ∈ after.rows ↔ row ∈ observations.rows)

theorem one_of_replaced (one : OneConnectorRow observations) (own : row.IsConnectorOf key)
    (members : ∀ other, other ∈ after.rows ↔
      other = row ∨ other ∈ observations.rows ∧ ¬other.IsConnectorOf key) :
    OneConnectorRow after ∧ existingRow after key = some row ∧
      ∀ other, ¬other.IsConnectorOf key → (other ∈ after.rows ↔ other ∈ observations.rows) := by
  have only : OneConnectorRow after := by
    intro shared first firstIn second secondIn firstOwn secondOwn
    rcases (members first).mp firstIn with rfl | ⟨firstOld, firstApart⟩
    · obtain rfl := eq_of_isConnectorOf own firstOwn
      rcases (members second).mp secondIn with rfl | ⟨-, secondApart⟩
      · rfl
      · exact absurd secondOwn secondApart
    · rcases (members second).mp secondIn with rfl | ⟨secondOld, -⟩
      · obtain rfl := eq_of_isConnectorOf own secondOwn
        exact absurd firstOwn firstApart
      · exact one shared first firstOld second secondOld firstOwn secondOwn
  refine ⟨only, (existingRow_eq_some only).mpr ⟨(members row).mpr (.inl rfl), own⟩, ?_⟩
  intro other apart
  rw [members]
  refine ⟨fun member => (member.resolve_left ?_).1, fun member => .inr ⟨member, apart⟩⟩
  rintro rfl
  exact apart own

theorem upserted_of_upsertBalance (one : OneConnectorRow observations)
    (upserted : upsertBalance libraries observations command = some after) :
    Upserted libraries observations command after := by
  unfold upsertBalance at upserted
  dsimp only at upserted
  cases found : existingRow observations (command.key libraries) with
  | some existing =>
    obtain ⟨member, own⟩ := mem_of_existingRow found
    rw [found] at upserted
    dsimp only at upserted
    split_ifs at upserted with older
    · obtain rfl := Option.some.inj upserted
      -- The update turns the row into what the command would write under its id.
      have moved : { existing with
          balance := command.amount
          createdAt := libraries.toRfc3339 command.issuedAt
          sourceRecordId := none
          reconciliationSessionId := none } = writtenRow libraries existing.id command := by
        obtain ⟨source, same⟩ := own
        obtain ⟨account, day⟩ := Prod.mk.inj same
        rw [writtenRow, ← source, ← account, ← day]
      have members : ∀ other, other ∈ (observations.update (fun row => row.id = existing.id)
          (fun row => { row with
            balance := command.amount
            createdAt := libraries.toRfc3339 command.issuedAt
            sourceRecordId := none
            reconciliationSessionId := none }) fun _ => rfl).rows ↔
          other = writtenRow libraries existing.id command ∨
            other ∈ observations.rows ∧ ¬other.IsConnectorOf (command.key libraries) := by
        intro other
        rw [Table.mem_update]
        simp only [decide_eq_true_eq]
        constructor
        · rintro ⟨before, inside, rfl⟩
          by_cases same : before.id = existing.id
          · rw [if_pos same, Table.eq_of_key_eq inside member same]
            exact .inl moved
          · rw [if_neg same]
            refine .inr ⟨inside, fun alike => same ?_⟩
            rw [one _ before inside existing member alike own]
        · rintro (rfl | ⟨inside, apart⟩)
          · exact ⟨existing, member, by rw [if_pos rfl, moved]⟩
          · refine ⟨other, inside, if_neg fun same => apart ?_⟩
            rw [Table.eq_of_key_eq inside member same]
            exact own
      obtain ⟨only, settled, others⟩ := one_of_replaced one
        (isConnectorOf_writtenRow existing.id command) members
      refine ⟨only, ?_, others⟩
      rw [found, settleRow, if_pos older]
      exact settled
    · obtain rfl := Option.some.inj upserted
      refine ⟨one, found.trans ?_, fun _ _ => Iff.rfl⟩
      rw [found, settleRow, if_neg older]
  | none =>
    have free := existingRow_eq_none.mp found
    rw [found] at upserted
    obtain ⟨-, rows⟩ := Table.insert_eq_some_iff.mp upserted
    obtain ⟨only, settled, others⟩ := one_of_replaced one (isConnectorOf_writtenRow _ command)
      fun other => by
        rw [rows, List.mem_append, List.mem_singleton, or_comm]
        exact or_congr_right (and_iff_left_of_imp fun inside => free other inside).symm
    refine ⟨only, ?_, others⟩
    rw [found, settleRow]
    exact settled

/-! ### Runs of commands -/

/-- What commands make of the row of an account and a day. -/
def settleRun (libraries : BalanceLibraries) (key : Uuid × String)
    (held : Option BalanceObservation) (commands : List RecordConnectorBalance) :
    Option BalanceObservation :=
  commands.foldl
    (fun held command => if command.key libraries = key then some (settleRow libraries held command)
      else held) held

@[simp] theorem settleRun_concat (key : Uuid × String) (held : Option BalanceObservation)
    (commands : List RecordConnectorBalance) (last : RecordConnectorBalance) :
    settleRun libraries key held (commands ++ [last]) =
      if last.key libraries = key then
        some (settleRow libraries (settleRun libraries key held commands) last)
      else settleRun libraries key held commands := by
  unfold settleRun
  rw [List.foldl_append]
  rfl

/-- The id of the row that a key has or gets. -/
def rowId (libraries : BalanceLibraries) (key : Uuid × String) : Option BalanceObservation → Uuid
  | some row => row.id
  | none => libraries.connectorId key.1 key.2

/-- What a row of a key is after some commands: it is not older than any of them, and it is what it
was, or what one of them wrote that is later than that. -/
structure Newest (libraries : BalanceLibraries) (key : Uuid × String)
    (held : Option BalanceObservation) (commands : List RecordConnectorBalance)
    (row : BalanceObservation) : Prop where
  current : ∀ command ∈ commands, command.key libraries = key →
    ¬row.createdAt < libraries.toRfc3339 command.issuedAt
  origin : held = some row ∨ ∃ command ∈ commands, command.key libraries = key ∧
    row = writtenRow libraries (rowId libraries key held) command ∧
    ∀ stored ∈ held, stored.createdAt < libraries.toRfc3339 command.issuedAt

theorem Newest.id {held : Option BalanceObservation} {commands : List RecordConnectorBalance}
    (newest : Newest libraries key held commands row) : row.id = rowId libraries key held := by
  rcases newest.origin with rfl | ⟨command, -, -, rfl, -⟩
  · rfl
  · rfl

theorem settleRun_eq_none {held : Option BalanceObservation} {commands : List RecordConnectorBalance}
    (none : settleRun libraries key held commands = .none) :
    held = .none ∧ ∀ command ∈ commands, command.key libraries ≠ key := by
  induction commands using List.reverseRecOn with
  | nil => exact ⟨none, List.forall_mem_nil _⟩
  | append_singleton commands last inductionHypothesis =>
    rw [settleRun_concat] at none
    split_ifs at none with own
    obtain ⟨absent, apart⟩ := inductionHypothesis none
    refine ⟨absent, fun command member => ?_⟩
    rcases List.mem_append.mp member with earlier | single
    · exact apart command earlier
    · rw [List.mem_singleton.mp single]
      exact own

/-- A command leaves the newest row newest. -/
theorem Newest.step {held : Option BalanceObservation} {commands : List RecordConnectorBalance}
    {last : RecordConnectorBalance} (newest : Newest libraries key held commands row)
    (own : last.key libraries = key) :
    Newest libraries key held (commands ++ [last]) (settleRow libraries (some row) last) := by
  unfold settleRow
  dsimp only
  split_ifs with later
  · refine ⟨fun command member shared => ?_, .inr ⟨last, ?_, own, ?_, fun stored here => ?_⟩⟩
    · rcases List.mem_append.mp member with earlier | single
      · exact not_lt.mpr ((not_lt.mp (newest.current command earlier shared)).trans later.le)
      · rw [List.mem_singleton.mp single]
        exact lt_irrefl _
    · exact List.mem_append_right _ (List.mem_singleton_self last)
    · rw [newest.id]
    · rcases newest.origin with kept | ⟨command, -, -, rfl, before⟩
      · rw [here] at kept
        obtain rfl := Option.some.inj kept
        exact later
      · exact (before stored here).trans later
  · refine ⟨fun command member shared => ?_, ?_⟩
    · rcases List.mem_append.mp member with earlier | single
      · exact newest.current command earlier shared
      · rw [List.mem_singleton.mp single]
        exact later
    · rcases newest.origin with kept | ⟨command, member, shared, made, before⟩
      · exact .inl kept
      · exact .inr ⟨command, List.mem_append_left _ member, shared, made, before⟩

theorem newest_settleRun {held : Option BalanceObservation} {commands : List RecordConnectorBalance}
    (settled : settleRun libraries key held commands = some row) :
    Newest libraries key held commands row := by
  induction commands using List.reverseRecOn generalizing row with
  | nil => exact ⟨List.forall_mem_nil _, .inl settled⟩
  | append_singleton commands last inductionHypothesis =>
    rw [settleRun_concat] at settled
    by_cases own : last.key libraries = key
    · rw [if_pos own] at settled
      obtain rfl := Option.some.inj settled
      cases before : settleRun libraries key held commands with
      | some row => exact (inductionHypothesis before).step own
      | none =>
        obtain ⟨rfl, apart⟩ := settleRun_eq_none before
        have named : libraries.connectorId last.accountId (libraries.dayText last.observedAt) =
            rowId libraries key none := by
          rw [← own]
          rfl
        refine ⟨fun command member shared => ?_, .inr ⟨last, ?_, own, by rw [← named]; rfl, ?_⟩⟩
        · rcases List.mem_append.mp member with earlier | single
          · exact absurd shared (apart command earlier)
          · rw [List.mem_singleton.mp single]
            exact lt_irrefl _
        · exact List.mem_append_right _ (List.mem_singleton_self last)
        · exact fun stored here => absurd here (Option.not_mem_none stored)
    · rw [if_neg own] at settled
      obtain ⟨current, origin⟩ := inductionHypothesis settled
      refine ⟨fun command member shared => ?_, ?_⟩
      · rcases List.mem_append.mp member with earlier | single
        · exact current command earlier shared
        · rw [List.mem_singleton.mp single] at shared
          exact absurd shared own
      · rcases origin with kept | ⟨command, member, shared, made, later⟩
        · exact .inl kept
        · exact .inr ⟨command, List.mem_append_left _ member, shared, made, later⟩

/-- There is one newest row for a set of commands whose instants differ. -/
theorem Newest.unique {held : Option BalanceObservation}
    {commands others : List RecordConnectorBalance} {other : BalanceObservation}
    (newest : Newest libraries key held commands row)
    (newest' : Newest libraries key held others other)
    (same : ∀ command, command ∈ others ↔ command ∈ commands)
    (distinct : ∀ first ∈ commands, ∀ second ∈ commands,
      libraries.toRfc3339 first.issuedAt = libraries.toRfc3339 second.issuedAt → first = second) :
    row = other := by
  rcases newest.origin with here | ⟨first, firstIn, firstOwn, rfl, firstLater⟩
  · rcases newest'.origin with there | ⟨second, secondIn, secondOwn, -, secondLater⟩
    · exact Option.some.inj (here.symm.trans there)
    · exact absurd (secondLater row here)
        (newest.current second ((same second).mp secondIn) secondOwn)
  · rcases newest'.origin with there | ⟨second, secondIn, secondOwn, rfl, -⟩
    · exact absurd (firstLater other there)
        (newest'.current first ((same first).mpr firstIn) firstOwn)
    · have before := newest.current second ((same second).mp secondIn) secondOwn
      have after := newest'.current first ((same first).mpr firstIn) firstOwn
      rw [distinct first firstIn second ((same second).mp secondIn)
        (le_antisymm (not_lt.mp after) (not_lt.mp before))]

/-- What a run of accepted commands does. -/
structure Ran (libraries : BalanceLibraries) (before : BalanceVault)
    (commands : List RecordConnectorBalance) (after : BalanceVault) : Prop where
  checked : ∀ command ∈ commands, checkBalance libraries before.accounts command = .ok ()
  accounts : after.accounts = before.accounts
  one : OneConnectorRow after.observations
  settled : ∀ key, existingRow after.observations key =
    settleRun libraries key (existingRow before.observations key) commands
  others : ∀ row, (∀ command ∈ commands, ¬row.IsConnectorOf (command.key libraries)) →
    (row ∈ after.observations.rows ↔ row ∈ before.observations.rows)

variable {before final : BalanceVault} {commands : List RecordConnectorBalance}

theorem applyRecordConnectorBalance_eq_ok :
    applyRecordConnectorBalance libraries before command = .ok final ↔
      checkBalance libraries before.accounts command = .ok () ∧
        ∃ observations, upsertBalance libraries before.observations command = some observations ∧
          { before with observations } = final := by
  unfold applyRecordConnectorBalance
  rw [check_bind_eq_ok, bind_eq_ok]
  simp only [orMissing_eq_ok]
  refine and_congr_right fun _ => exists_congr fun observations => and_congr_right fun _ => ?_
  exact ⟨fun same => Except.ok.inj same, fun same => congrArg _ same⟩

theorem Ran.step {middle : BalanceVault} (ran : Ran libraries before commands middle)
    (applied : applyRecordConnectorBalance libraries middle command = .ok final) :
    Ran libraries before (commands ++ [command]) final := by
  obtain ⟨checked, observations, upserted, rfl⟩ := applyRecordConnectorBalance_eq_ok.mp applied
  obtain ⟨one, settled, others⟩ := upserted_of_upsertBalance ran.one upserted
  rw [ran.accounts] at checked
  refine ⟨fun other member => ?_, ran.accounts, one, fun key => ?_, fun row apart => ?_⟩
  · rcases List.mem_append.mp member with earlier | single
    · exact ran.checked other earlier
    · rw [List.mem_singleton.mp single]
      exact checked
  · rw [settleRun_concat, ← ran.settled key]
    by_cases own : command.key libraries = key
    · rw [if_pos own, ← own]
      exact settled
    · rw [if_neg own]
      -- The row of another account or day is as it was.
      have kept (row : BalanceObservation) (shown : row.IsConnectorOf key) :
          row ∈ observations.rows ↔ row ∈ middle.observations.rows :=
        others row fun alike => own (eq_of_isConnectorOf alike shown)
      cases found : existingRow middle.observations key with
      | some row =>
        obtain ⟨member, shown⟩ := mem_of_existingRow found
        exact (existingRow_eq_some one).mpr ⟨(kept row shown).mpr member, shown⟩
      | none =>
        refine existingRow_eq_none.mpr fun row member shown => ?_
        exact existingRow_eq_none.mp found row ((kept row shown).mp member) shown
  · rw [others row (apart command (List.mem_append_right _ (List.mem_singleton_self command)))]
    exact ran.others row fun other member => apart other (List.mem_append_left _ member)

theorem ran_of_applyBalances (one : OneConnectorRow before.observations)
    (applied : applyBalances libraries before commands = .ok final) :
    Ran libraries before commands final := by
  induction commands using List.reverseRecOn generalizing final with
  | nil =>
    obtain rfl := Except.ok.inj applied
    exact ⟨List.forall_mem_nil _, rfl, one, fun _ => rfl, fun _ _ => Iff.rfl⟩
  | append_singleton commands last inductionHypothesis =>
    unfold applyBalances at applied inductionHypothesis
    rw [List.foldlM_append] at applied
    obtain ⟨middle, earlier, applied⟩ := bind_eq_ok.mp applied
    rw [List.foldlM_cons] at applied
    obtain ⟨reached, stepped, ended⟩ := bind_eq_ok.mp applied
    obtain rfl := Except.ok.inj ended
    exact (inductionHypothesis earlier).step stepped

theorem Ran.exists_row (ran : Ran libraries before commands final) (member : command ∈ commands) :
    ∃ row, existingRow final.observations (command.key libraries) = some row ∧
      Newest libraries (command.key libraries)
        (existingRow before.observations (command.key libraries)) commands row := by
  have settled := ran.settled (command.key libraries)
  cases made : settleRun libraries (command.key libraries)
      (existingRow before.observations (command.key libraries)) commands with
  | none => exact absurd rfl ((settleRun_eq_none made).2 command member)
  | some row =>
    rw [made] at settled
    exact ⟨row, settled, newest_settleRun made⟩

/-- No row of a run stands under the id of a row that another order of the commands inserts. -/
theorem Ran.vacant {others : List RecordConnectorBalance} {middle : BalanceVault}
    (ran : Ran libraries before commands final) (ranOther : Ran libraries before others middle)
    (among : ∀ other ∈ others, other ∈ commands) (member : command ∈ commands)
    (absent : existingRow middle.observations (command.key libraries) = none) :
    middle.observations.find
      (libraries.connectorId command.accountId (libraries.dayText command.observedAt)) = none := by
  have unheld := (settleRun_eq_none ((ranOther.settled _).symm.trans absent)).1
  obtain ⟨own, found, newest⟩ := ran.exists_row member
  obtain ⟨ownIn, ownShown⟩ := mem_of_existingRow found
  have ownId := newest.id
  rw [unheld] at ownId
  refine Table.find_eq_none_iff.mpr fun row inside sameId => ?_
  -- Whatever row has the id, the first run has it too, so it is the row of the key.
  have alike {kept : BalanceObservation} (keptIn : kept ∈ final.observations.rows)
      (keptId : kept.id = row.id) : kept = own :=
    Table.eq_of_key_eq keptIn ownIn (keptId.trans (sameId.trans ownId.symm))
  by_cases source : row.source = .connectorSync
  · have shown : row.IsConnectorOf (row.accountId, row.observedAt) := ⟨source, rfl⟩
    generalize (row.accountId, row.observedAt) = key at shown
    have here := (existingRow_eq_some ranOther.one).mpr ⟨inside, shown⟩
    rw [ranOther.settled] at here
    have origin := newest_settleRun here
    have settled := ran.settled key
    cases made : settleRun libraries key (existingRow before.observations key) commands with
    | none =>
      obtain ⟨none, apart⟩ := settleRun_eq_none made
      rcases origin.origin with kept | ⟨other, otherIn, otherOwn, -⟩
      · exact Option.some_ne_none row (kept.symm.trans none)
      · exact apart other (among other otherIn) otherOwn
    | some kept =>
      rw [made] at settled
      obtain ⟨keptIn, keptShown⟩ := mem_of_existingRow settled
      have same := alike keptIn ((newest_settleRun made).id.trans origin.id.symm)
      rw [same] at keptShown
      rw [eq_of_isConnectorOf ownShown keptShown,
        (existingRow_eq_some ranOther.one).mpr ⟨inside, shown⟩] at absent
      cases absent
  · have apart (key : Uuid × String) : ¬row.IsConnectorOf key := fun shown => source shown.1
    have old := (ranOther.others row fun other _ => apart _).mp inside
    have same := alike ((ran.others row fun other _ => apart _).mpr old) rfl
    rw [same] at apart
    exact apart _ ownShown

theorem Ran.exists_applyBalances {others : List RecordConnectorBalance}
    (ran : Ran libraries before commands final) (one : OneConnectorRow before.observations)
    (among : ∀ other ∈ others, other ∈ commands) :
    ∃ after, applyBalances libraries before others = .ok after := by
  induction others using List.reverseRecOn with
  | nil => exact ⟨before, rfl⟩
  | append_singleton others last inductionHypothesis =>
    have earlier : ∀ other ∈ others, other ∈ commands := fun other member =>
      among other (List.mem_append_left _ member)
    have lastIn := among last (List.mem_append_right _ (List.mem_singleton_self last))
    obtain ⟨middle, applied⟩ := inductionHypothesis earlier
    have ranOther := ran_of_applyBalances one applied
    have upserts : ∃ observations,
        upsertBalance libraries middle.observations last = some observations := by
      unfold upsertBalance
      dsimp only
      cases found : existingRow middle.observations (last.key libraries) with
      | some existing =>
        dsimp only
        split_ifs
        · exact ⟨_, rfl⟩
        · exact ⟨_, rfl⟩
      | none =>
        exact Table.exists_insert (ran.vacant ranOther earlier lastIn found)
    obtain ⟨observations, upserted⟩ := upserts
    have checked := ran.checked last lastIn
    rw [← ranOther.accounts] at checked
    refine ⟨{ middle with observations }, ?_⟩
    unfold applyBalances at applied ⊢
    rw [List.foldlM_append, applied, ok_bind, List.foldlM_cons,
      applyRecordConnectorBalance_eq_ok.mpr ⟨checked, observations, upserted, rfl⟩]
    rfl

/-- Commands with the same members leave the same rows. -/
theorem Ran.mem_iff {others : List RecordConnectorBalance} {after : BalanceVault}
    (ran : Ran libraries before commands final) (ranOther : Ran libraries before others after)
    (same : ∀ command, command ∈ others ↔ command ∈ commands)
    (distinct : ∀ first ∈ commands, ∀ second ∈ commands,
      libraries.toRfc3339 first.issuedAt = libraries.toRfc3339 second.issuedAt → first = second) :
    row ∈ after.observations.rows ↔ row ∈ final.observations.rows := by
  by_cases named : ∃ command ∈ commands, row.IsConnectorOf (command.key libraries)
  · obtain ⟨command, member, own⟩ := named
    obtain ⟨first, found, newest⟩ := ran.exists_row member
    obtain ⟨second, found', newest'⟩ := ranOther.exists_row ((same command).mpr member)
    rw [newest.unique newest' same distinct] at found
    have here : existingRow final.observations (command.key libraries) = some row ↔ _ :=
      existingRow_eq_some ran.one
    have there : existingRow after.observations (command.key libraries) = some row ↔ _ :=
      existingRow_eq_some ranOther.one
    rw [found] at here
    rw [found'] at there
    exact ⟨fun inside => (here.mp (there.mpr ⟨inside, own⟩)).1,
      fun inside => (there.mp (here.mpr ⟨inside, own⟩)).1⟩
  · have apart : ∀ command ∈ commands, ¬row.IsConnectorOf (command.key libraries) :=
      fun command member own => named ⟨command, member, own⟩
    rw [ran.others row apart, ranOther.others row fun command member =>
      apart command ((same command).mp member)]

/-! ### Convergence -/

/-- The latest of the commands that name a key. -/
def Latest (libraries : BalanceLibraries) (commands : List RecordConnectorBalance)
    (key : Uuid × String) (latest : RecordConnectorBalance) : Prop :=
  latest ∈ commands ∧ latest.key libraries = key ∧
    ∀ other ∈ commands, other.key libraries = key → other.issuedAt ≤ latest.issuedAt

/-- What a key's row holds: the amount and the instant of the latest command where the stored row is
older, and else the stored row. -/
def HoldsLatest (libraries : BalanceLibraries) (stored : Option BalanceObservation)
    (latest : RecordConnectorBalance) (row : BalanceObservation) : Prop :=
  if ∀ held ∈ stored, held.createdAt < libraries.toRfc3339 latest.issuedAt then
    row.balance = latest.amount ∧ row.createdAt = libraries.toRfc3339 latest.issuedAt
  else stored = some row

theorem exists_latest (libraries : BalanceLibraries) {commands : List RecordConnectorBalance}
    (member : command ∈ commands) :
    ∃ latest, Latest libraries commands (command.key libraries) latest := by
  have own : command ∈ commands.filter fun other => other.key libraries = command.key libraries := by
    rw [List.mem_filter, decide_eq_true_eq]
    exact ⟨member, rfl⟩
  cases greatest : (commands.filter fun other =>
      other.key libraries = command.key libraries).argmax RecordConnectorBalance.issuedAt with
  | none =>
    rw [List.argmax_eq_none.mp greatest] at own
    exact absurd own List.not_mem_nil
  | some latest =>
    have inside := List.argmax_mem greatest
    rw [List.mem_filter, decide_eq_true_eq] at inside
    refine ⟨latest, inside.1, inside.2, fun other otherIn otherOwn => ?_⟩
    refine List.le_of_mem_argmax ?_ greatest
    rw [List.mem_filter, decide_eq_true_eq]
    exact ⟨otherIn, otherOwn⟩

theorem Ran.supported (ran : Ran libraries before commands final) (member : command ∈ commands) :
    Supported command.issuedAt := by
  have checked := ran.checked command member
  rw [checkBalance, check_bind_eq_ok, requireIssuedAt, ensure_eq_ok] at checked
  exact checked.1

theorem Newest.holdsLatest {held : Option BalanceObservation} {latest : RecordConnectorBalance}
    (newest : Newest libraries key held commands row)
    (writes : WritesRfc3339 libraries.toRfc3339)
    (supported : ∀ command ∈ commands, Supported command.issuedAt)
    (distinct : ∀ first ∈ commands, ∀ second ∈ commands,
      first.issuedAt = second.issuedAt → first = second)
    (greatest : Latest libraries commands key latest) : HoldsLatest libraries held latest row := by
  obtain ⟨member, own, bound⟩ := greatest
  unfold HoldsLatest
  rcases newest.origin with rfl | ⟨command, commandIn, commandOwn, rfl, later⟩
  · rw [if_neg fun older => newest.current latest member own (older row rfl)]
  · have notAfter := newest.current latest member own
    rw [writtenRow, toRfc3339_lt_iff writes (supported command commandIn)
      (supported latest member), not_lt] at notAfter
    obtain rfl := distinct command commandIn latest member
      (le_antisymm (bound command commandIn commandOwn) notAfter)
    rw [if_pos later]
    exact ⟨rfl, rfl⟩

/-- Commands of distinct instants that are accepted in one order are accepted in every order and
however often each is given, and leave the same rows. Each account and day they name has one
connector row, the latest command's or the stored one that is not older, and no other row is
touched. The texts of instants compare as the instants do. -/
theorem connector_balances_converge (writes : WritesRfc3339 libraries.toRfc3339)
    (one : OneConnectorRow before.observations)
    (distinct : ∀ first ∈ commands, ∀ second ∈ commands,
      first.issuedAt = second.issuedAt → first = second)
    (applied : applyBalances libraries before commands = .ok final) :
    (∀ others : List RecordConnectorBalance, (∀ command, command ∈ others ↔ command ∈ commands) →
      ∃ after, applyBalances libraries before others = .ok after ∧
        after.accounts = final.accounts ∧
        ∀ row, row ∈ after.observations.rows ↔ row ∈ final.observations.rows) ∧
    (∀ command ∈ commands, ∃ row latest,
      (∀ other, other ∈ final.observations.rows ∧ other.IsConnectorOf (command.key libraries) ↔
        other = row) ∧
      Latest libraries commands (command.key libraries) latest ∧
      HoldsLatest libraries (existingRow before.observations (command.key libraries)) latest row) ∧
    (∀ row, (∀ command ∈ commands, ¬row.IsConnectorOf (command.key libraries)) →
      (row ∈ final.observations.rows ↔ row ∈ before.observations.rows)) ∧
    ∀ first second, Supported first → Supported second →
      (libraries.toRfc3339 first < libraries.toRfc3339 second ↔ first < second) := by
  have ran := ran_of_applyBalances one applied
  have supported : ∀ command ∈ commands, Supported command.issuedAt := fun command member =>
    ran.supported member
  refine ⟨fun others same => ?_, fun command member => ?_, ran.others, fun first second start stop =>
    toRfc3339_lt_iff writes start stop⟩
  · obtain ⟨after, reached⟩ := ran.exists_applyBalances one fun other member => (same other).mp member
    have ranOther := ran_of_applyBalances one reached
    refine ⟨after, reached, ranOther.accounts.trans ran.accounts.symm, fun row => ?_⟩
    refine ran.mem_iff ranOther same fun first firstIn second secondIn sameText => ?_
    -- Equal texts are texts of equal instants.
    refine distinct first firstIn second secondIn (le_antisymm ?_ ?_)
    · rw [← not_lt, ← toRfc3339_lt_iff writes (supported second secondIn) (supported first firstIn),
        sameText]
      exact lt_irrefl _
    · rw [← not_lt, ← toRfc3339_lt_iff writes (supported first firstIn) (supported second secondIn),
        sameText]
      exact lt_irrefl _
  · obtain ⟨row, found, newest⟩ := ran.exists_row member
    obtain ⟨latest, greatest⟩ := exists_latest libraries member
    refine ⟨row, latest, fun other => ?_, greatest,
      newest.holdsLatest writes supported distinct greatest⟩
    rw [← existingRow_eq_some ran.one, found, Option.some_inj, eq_comm]

/-! ### Two refreshes of an account -/

def balanceLibraries : BalanceLibraries where
  toRfc3339 := rfc3339
  dayText date := String.ofList (dateChars date)
  householdTodayAt micros := .ok (dateOfMicros micros)
  connectorId account _ := account

/-- A balance of an account on the first day of 1970. -/
def refresh (issuedAt : Int) (amount : Int64) : RecordConnectorBalance where
  issuedAt
  accountId := .replicate 16 1
  observedAt := Date.firstOf (12 * 1970)
  amount := ⟨amount, .usd⟩

/-- A row of the account on that day. -/
def observed (id : UInt8) (source : ObservationSource) (amount : Int64) (issuedAt : Int) :
    BalanceObservation where
  id := .replicate 16 id
  accountId := .replicate 16 1
  observedAt := "1970-01-01"
  balance := ⟨amount, .usd⟩
  source
  sourceRecordId := none
  reconciliationSessionId := none
  createdAt := rfc3339 issuedAt

/-- A vault with the account and one row of it. -/
def vaultWith (row : BalanceObservation) : BalanceVault where
  accounts := ⟨[⟨.replicate 16 1, .replicate 16 2, "USD"⟩], List.nodup_singleton _⟩
  observations := ⟨[row], List.nodup_singleton _⟩

theorem oneConnectorRow_vaultWith (row : BalanceObservation) :
    OneConnectorRow (vaultWith row).observations := fun _ _ firstIn _ secondIn _ _ =>
  (List.mem_singleton.mp firstIn).trans (List.mem_singleton.mp secondIn).symm

/-- The refresh that is later by half a second stays, beside the manual assertion. -/
theorem refreshes_converge :
    ∃ after, applyBalances balanceLibraries (vaultWith (observed 9 .manual 5 0))
        [refresh 1500000 20, refresh 1000000 10, refresh 1500000 20] = .ok after ∧
      ∀ row, row ∈ after.observations.rows ↔
        row ∈ [observed 9 .manual 5 0, observed 1 .connectorSync 20 1500000] := by
  have rows : ([observed 9 .manual 5 0, observed 1 .connectorSync 20 1500000].map
      BalanceObservation.id).Nodup := by decide
  have applied : applyBalances balanceLibraries (vaultWith (observed 9 .manual 5 0))
      [refresh 1000000 10, refresh 1500000 20] =
        .ok { vaultWith (observed 9 .manual 5 0) with observations := ⟨_, rows⟩ } := rfl
  have distinct : ∀ first ∈ [refresh 1000000 10, refresh 1500000 20],
      ∀ second ∈ [refresh 1000000 10, refresh 1500000 20],
        first.issuedAt = second.issuedAt → first = second := by
    simp [refresh]
  obtain ⟨after, reached, -, same⟩ := (connector_balances_converge (fun _ _ => rfl)
    (oneConnectorRow_vaultWith _) distinct applied).1
    [refresh 1500000 20, refresh 1000000 10, refresh 1500000 20] (by simp [or_comm])
  exact ⟨after, reached, same⟩

/-- The row of the latest command, or the stored row where that is newer. -/
def HoldsLatestOrNewer (libraries : BalanceLibraries) (stored : Option BalanceObservation)
    (latest : RecordConnectorBalance) (row : BalanceObservation) : Prop :=
  if ∃ held ∈ stored, libraries.toRfc3339 latest.issuedAt < held.createdAt then stored = some row
  else row.balance = latest.amount ∧ row.createdAt = libraries.toRfc3339 latest.issuedAt

/-- A stored row of the very instant of a command is not newer than it and stays all the same. -/
theorem tied_refresh_is_dropped :
    ∃ (libraries : BalanceLibraries) (before final : BalanceVault)
      (commands : List RecordConnectorBalance),
      WritesRfc3339 libraries.toRfc3339 ∧ OneConnectorRow before.observations ∧
      (∀ first ∈ commands, ∀ second ∈ commands,
        first.issuedAt = second.issuedAt → first = second) ∧
      applyBalances libraries before commands = .ok final ∧
      ¬∀ command ∈ commands, ∃ row latest, row ∈ final.observations.rows ∧
        row.IsConnectorOf (command.key libraries) ∧
        Latest libraries commands (command.key libraries) latest ∧
        HoldsLatestOrNewer libraries (existingRow before.observations (command.key libraries))
          latest row := by
  refine ⟨balanceLibraries, vaultWith (observed 1 .connectorSync 5 1000000),
    vaultWith (observed 1 .connectorSync 5 1000000), [refresh 1000000 10], fun _ _ => rfl,
    oneConnectorRow_vaultWith _, ?_, rfl, fun converges => ?_⟩
  · intro first firstIn second secondIn _
    exact (List.mem_singleton.mp firstIn).trans (List.mem_singleton.mp secondIn).symm
  · obtain ⟨row, latest, inside, -, ⟨member, -⟩, holds⟩ := converges _ (List.mem_singleton_self _)
    obtain rfl := List.mem_singleton.mp inside
    obtain rfl := List.mem_singleton.mp member
    have stored : existingRow (vaultWith (observed 1 .connectorSync 5 1000000)).observations
        ((refresh 1000000 10).key balanceLibraries) = some (observed 1 .connectorSync 5 1000000) := rfl
    rw [HoldsLatestOrNewer, stored, if_neg] at holds
    · exact absurd holds.1 (by decide)
    · rintro ⟨held, here, newer⟩
      obtain rfl := Option.some.inj here
      exact lt_irrefl _ newer

end Dohflow.DbWorker
