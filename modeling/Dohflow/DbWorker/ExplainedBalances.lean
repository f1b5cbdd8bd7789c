/-
This file proves that explaining a balance changes what is unexplained of it, and not the
balance.

A transaction that is made of what is unexplained is dated on the day of the observation, so
it falls into the window that ends there and not among the postings after it. Its other side
is an account of the system, which is no account's ledger account. A reversal posts the
negated amounts on the same day, so every sum over days is what it is without both.
-/

import Dohflow.DbWorker.BalanceAnchors
import Dohflow.DbWorker.StagedImportSteps

namespace Dohflow.DbWorker

open SyncCore CoreLedger Fallible KeyedTable CanonicalOrder MachineIntegers

/-! ### What is computed -/

variable {libraries : BookLibraries} {book middle after : LedgerBook}
  {account ledgerAccount : Uuid} {latest row : BalanceObservation} {value : Int}

namespace LedgerBook

/-- What is unexplained of the latest observation, and when it is computed. -/
theorem unexplainedAdjustment_eq_some (found : latestObservation book.observations account =
      some latest) :
    let prior := priorObservation book.observations account latest.observedAt
    let amounts := book.store.amounts ledgerAccount (Window prior latest.observedAt)
    book.unexplainedAdjustment account ledgerAccount = .ok (some value) ↔
      ¬(prior = none ∧ latest.source = .connectorSync) ∧ MachineIntegers.Fits 0 amounts ∧
      InI64 (priorMinor prior + amounts.sum) ∧
      InI64 (latest.balance.minorUnits.toInt - (priorMinor prior + amounts.sum)) ∧
      latest.balance.minorUnits.toInt - (priorMinor prior + amounts.sum) = value := by
  intro prior amounts
  rw [unexplainedAdjustment, found]
  show (if prior = none ∧ latest.source = .connectorSync then _ else _) = _ ↔ _
  split_ifs with exempt
  · refine iff_of_false (fun same => ?_) fun both => both.1 exempt
    cases Except.ok.inj same
  · rw [bind_eq_ok]
    constructor
    · rintro ⟨inWindow, summed, rest⟩
      obtain ⟨explained, added, rest⟩ := bind_eq_ok.mp rest
      obtain ⟨unexplained, left, same⟩ := bind_eq_ok.mp rest
      obtain rfl := Option.some.inj (Except.ok.inj same)
      have fits := fits_of_checkedSum (orMissing_eq_ok.mp summed)
      rw [eq_of_sumMinorUnits summed] at added
      obtain ⟨insideSum, rfl⟩ := checkedI64_eq_some.mp (orMissing_eq_ok.mp added)
      obtain ⟨inside, same⟩ := checkedI64_eq_some.mp (orMissing_eq_ok.mp left)
      exact ⟨exempt, fits, insideSum, inside, same⟩
    · rintro ⟨-, fits, insideSum, inside, rfl⟩
      refine ⟨_, sumMinorUnits_of_fits fits, bind_eq_ok.mpr ⟨_, orMissing_eq_ok.mpr
        (checkedI64_eq_some.mpr ⟨insideSum, rfl⟩), bind_eq_ok.mpr ⟨_, orMissing_eq_ok.mpr
          (checkedI64_eq_some.mpr ⟨inside, rfl⟩), rfl⟩⟩⟩

theorem unexplainedAdjustment_eq_none :
    book.unexplainedAdjustment account ledgerAccount = .ok none ↔
      ∀ latest, latestObservation book.observations account = some latest →
        priorObservation book.observations account latest.observedAt = none ∧
          latest.source = .connectorSync := by
  rw [unexplainedAdjustment]
  cases found : latestObservation book.observations account with
  | none => exact iff_of_true rfl fun latest same => absurd same.symm (Option.some_ne_none latest)
  | some latest =>
    have only (holds : BalanceObservation → Prop) :
        (∀ other, some latest = some other → holds other) ↔ holds latest :=
      ⟨fun all => all latest rfl, fun held other same => Option.some.inj same ▸ held⟩
    rw [only]
    dsimp only
    split_ifs with exempt
    · exact iff_of_true rfl exempt
    · refine iff_of_false (fun computed => ?_) exempt
      obtain ⟨inWindow, -, rest⟩ := bind_eq_ok.mp computed
      obtain ⟨explained, -, rest⟩ := bind_eq_ok.mp rest
      obtain ⟨unexplained, -, same⟩ := bind_eq_ok.mp rest
      cases Except.ok.inj same

theorem exists_latest_of_unexplained
    (computed : book.unexplainedAdjustment account ledgerAccount = .ok (some value)) :
    ∃ latest, latestObservation book.observations account = some latest := by
  cases found : latestObservation book.observations account with
  | some latest => exact ⟨latest, rfl⟩
  | none =>
    rw [unexplainedAdjustment, found] at computed
    cases Except.ok.inj computed

theorem unexplainedAdjustment_congr {other : LedgerBook} {first second : Option Int}
    (observations : other.observations = book.observations)
    (sums : ∀ (within : String → Prop) [DecidablePred within],
      (other.store.amounts ledgerAccount within).sum =
        (book.store.amounts ledgerAccount within).sum)
    (computed : other.unexplainedAdjustment account ledgerAccount = .ok first)
    (computedToo : book.unexplainedAdjustment account ledgerAccount = .ok second) :
    first = second := by
  cases found : latestObservation book.observations account with
  | none =>
    have none (other : LedgerBook) (same : other.observations = book.observations) :
        other.unexplainedAdjustment account ledgerAccount = .ok none := by
      rw [unexplainedAdjustment, same, found]
    rw [none other observations] at computed
    rw [none book rfl] at computedToo
    exact (Except.ok.inj computed).symm.trans (Except.ok.inj computedToo)
  | some latest =>
    have foundToo : latestObservation other.observations account = some latest := by
      rw [observations, found]
    cases first with
    | none =>
      have exempt := unexplainedAdjustment_eq_none.mp computed latest foundToo
      rw [observations] at exempt
      cases second with
      | none => rfl
      | some value => exact absurd exempt ((unexplainedAdjustment_eq_some found).mp computedToo).1
    | some left =>
      obtain ⟨counts, -, -, -, rfl⟩ := (unexplainedAdjustment_eq_some foundToo).mp computed
      cases second with
      | none =>
        rw [observations] at counts
        exact absurd (unexplainedAdjustment_eq_none.mp computedToo latest found) counts
      | some right =>
        obtain ⟨-, -, -, -, rfl⟩ := (unexplainedAdjustment_eq_some found).mp computedToo
        rw [sums, observations]

theorem eq_of_assertionAnchoredBalance
    (computed : book.assertionAnchoredBalance account ledgerAccount = .ok value) :
    value = match latestObservation book.observations account with
      | some latest => latest.balance.minorUnits.toInt +
          (book.store.amounts ledgerAccount fun day => latest.observedAt < day).sum
      | none => (book.store.amounts ledgerAccount fun _ => True).sum := by
  rw [assertionAnchoredBalance] at computed
  cases found : latestObservation book.observations account with
  | none =>
    rw [found] at computed
    exact eq_of_sumMinorUnits computed
  | some latest =>
    rw [found] at computed
    obtain ⟨sum, summed, rest⟩ := bind_eq_ok.mp computed
    dsimp only
    rw [← eq_of_sumMinorUnits summed]
    exact (checkedI64_eq_some.mp (orMissing_eq_ok.mp rest)).2.symm

theorem assertionAnchoredBalance_congr {other : LedgerBook} {first second : Int}
    (observations : other.observations = book.observations)
    (sums : ∀ (within : String → Prop) [DecidablePred within],
      (other.store.amounts ledgerAccount within).sum =
        (book.store.amounts ledgerAccount within).sum)
    (computed : other.assertionAnchoredBalance account ledgerAccount = .ok first)
    (computedToo : book.assertionAnchoredBalance account ledgerAccount = .ok second) :
    first = second := by
  rw [eq_of_assertionAnchoredBalance computed, eq_of_assertionAnchoredBalance computedToo,
    observations]
  cases latestObservation book.observations account with
  | none => exact sums _
  | some latest =>
    dsimp only
    rw [sums]

end LedgerBook

/-- No sum over days of what is posted to a ledger account leaves 64 bits. -/
def ImportStore.SumsFit (store : ImportStore) (ledgerAccount : Uuid) : Prop :=
  ∀ (within : String → Prop) [DecidablePred within], MachineIntegers.Fits 0 (store.amounts ledgerAccount within)

/-- A balance is computed as expected: to the same value, and it is computed where the sums fit. -/
def ComputesAs {Value : Type} (fits : Prop) (computed expected : Except ImportError Value) : Prop :=
  ∀ value, expected = .ok value →
    (fits → computed = .ok value) ∧ ∀ other, computed = .ok other → other = value

namespace LedgerBook

variable {other : LedgerBook}

theorem assertionAnchoredBalance_computesAs (observations : other.observations = book.observations)
    (sums : ∀ (within : String → Prop) [DecidablePred within],
      (other.store.amounts ledgerAccount within).sum =
        (book.store.amounts ledgerAccount within).sum) :
    ComputesAs (other.store.SumsFit ledgerAccount)
      (other.assertionAnchoredBalance account ledgerAccount)
      (book.assertionAnchoredBalance account ledgerAccount) := by
  intro value computed
  refine ⟨fun fits => ?_, fun found computedToo =>
    assertionAnchoredBalance_congr observations sums computedToo computed⟩
  unfold assertionAnchoredBalance at computed ⊢
  rw [observations]
  cases found : latestObservation book.observations account with
  | none =>
    rw [found] at computed
    dsimp only
    rw [sumMinorUnits_of_fits (fits _), sums, ← eq_of_sumMinorUnits computed]
  | some latest =>
    rw [found] at computed
    obtain ⟨sum, summed, rest⟩ := bind_eq_ok.mp computed
    refine bind_eq_ok.mpr ⟨sum, ?_, rest⟩
    rw [sumMinorUnits_of_fits (fits _), sums, ← eq_of_sumMinorUnits summed]

theorem unexplainedAdjustment_computesAs (observations : other.observations = book.observations)
    (sums : ∀ (within : String → Prop) [DecidablePred within],
      (other.store.amounts ledgerAccount within).sum =
        (book.store.amounts ledgerAccount within).sum) :
    ComputesAs (other.store.SumsFit ledgerAccount)
      (other.unexplainedAdjustment account ledgerAccount)
      (book.unexplainedAdjustment account ledgerAccount) := by
  intro value computed
  refine ⟨fun fits => ?_, fun found computedToo =>
    unexplainedAdjustment_congr observations sums computedToo computed⟩
  cases value with
  | none =>
    rw [unexplainedAdjustment_eq_none] at computed ⊢
    rw [observations]
    exact computed
  | some value =>
    obtain ⟨latest, found⟩ := exists_latest_of_unexplained computed
    have foundToo : latestObservation other.observations account = some latest := by
      rw [observations, found]
    obtain ⟨counts, -, rest⟩ := (unexplainedAdjustment_eq_some found).mp computed
    refine (unexplainedAdjustment_eq_some foundToo).mpr ?_
    rw [observations, sums]
    exact ⟨counts, fits _, rest⟩

end LedgerBook

/-! ### A book in order -/

/-- A day that is read back from its text, and whose midnight falls on it. -/
def BookLibraries.RoundTrips (libraries : BookLibraries) (day : NaiveDate) : Prop :=
  libraries.parseDate (libraries.dayText day) = some day ∧
    libraries.dateText (libraries.midnightOf day) = libraries.dayText day

namespace LedgerBook

variable {transaction : LedgerTransaction} {original : TransactionRow} {within : String → Prop}
  {voidedAt : String}

/-- An account has a ledger account of its own, a posting is dated as its transaction, and an
observation is dated by the text of a day. -/
structure Sound (libraries : BookLibraries) (book : LedgerBook) : Prop where
  owned : ∀ account ∈ book.store.accounts.rows,
    account.ledgerAccountId ∈ book.ledgerAccounts.rows
  systemOwned : ∀ system ∈ book.store.systemAccounts,
    system.ledgerAccountId ∈ book.ledgerAccounts.rows
  single : ∀ first ∈ book.store.accounts.rows, ∀ second ∈ book.store.accounts.rows,
    first.ledgerAccountId = second.ledgerAccountId → first = second
  apart : ∀ account ∈ book.store.accounts.rows, ∀ system ∈ book.store.systemAccounts,
    account.ledgerAccountId ≠ system.ledgerAccountId
  dated : ∀ transaction ∈ book.store.transactions.rows, ∀ posting ∈ transaction.postings,
    posting.postingDate = libraries.dateText transaction.occurredAt
  days : ∀ row ∈ book.observations.rows, ∃ day, libraries.RoundTrips day ∧
    row.observedAt = libraries.dayText day

/-- The row of a transaction that is posted. -/
def postedRow (libraries : BookLibraries) (transaction : LedgerTransaction) : TransactionRow where
  id := transaction.id
  operationId := transaction.operationId
  occurredAt := transaction.occurredAt
  currency := transaction.currency
  voidedAt := none
  postings := transaction.postings.map fun posting =>
    ⟨posting.account, posting.amount.minorUnits, libraries.dateText transaction.occurredAt⟩

theorem persistTransaction_rows {store stored : ImportStore}
    (done : store.persistTransaction libraries.toImportLibraries transaction = .ok stored) :
    ∃ transactions : Table TransactionRow.id, stored = { store with transactions } ∧
      transactions.rows = store.transactions.rows ++ [postedRow libraries transaction] := by
  obtain ⟨transactions, inserted, same⟩ := bind_eq_ok.mp done
  obtain ⟨-, rows⟩ := Table.insert_eq_some_iff.mp (orMissing_eq_ok.mp inserted)
  exact ⟨transactions, (Except.ok.inj same).symm, rows⟩

theorem Sound.persistTransaction {stored : ImportStore} (sound : book.Sound libraries)
    (done : book.store.persistTransaction libraries.toImportLibraries transaction = .ok stored) :
    ({ book with store := stored }).Sound libraries := by
  obtain ⟨transactions, rfl, rows⟩ := persistTransaction_rows done
  refine ⟨sound.owned, sound.systemOwned, sound.single, sound.apart, ?_, sound.days⟩
  intro posted member posting inside
  rw [rows] at member
  rcases List.mem_append.mp member with earlier | last
  · exact sound.dated posted earlier posting inside
  · obtain rfl := List.mem_singleton.mp last
    obtain ⟨leg, -, rfl⟩ := List.mem_map.mp inside
    rfl

theorem postings_markVoided (store : ImportStore) (ids : List TransactionId) (voidedAt : String) :
    (store.markVoided ids voidedAt).postings = store.postings := by
  show List.flatMap _ (List.map _ _) = _
  rw [List.flatMap_map]
  refine List.flatMap_congr fun row _ => ?_
  dsimp only
  split <;> rfl

theorem Sound.markVoided {ids : List TransactionId} (sound : book.Sound libraries) :
    ({ book with store := book.store.markVoided ids voidedAt }).Sound libraries := by
  refine ⟨sound.owned, sound.systemOwned, sound.single, sound.apart, ?_, sound.days⟩
  intro hidden member
  obtain ⟨row, stored, rfl⟩ := List.mem_map.mp member
  have dated := sound.dated row stored
  dsimp only
  split
  · exact dated
  · exact dated

/-- The account of the system is no account's ledger account, and making it keeps the book in
order. -/
theorem Sound.ensureSystemLedgerAccount {role : String} {currency : Currency} {counter : Uuid}
    (sound : book.Sound libraries)
    (ensured : book.ensureSystemLedgerAccount libraries role currency = .ok (counter, middle)) :
    middle.Sound libraries ∧ middle.observations = book.observations ∧
      middle.store.transactions = book.store.transactions ∧
      middle.store.accounts = book.store.accounts ∧
      ∀ account ∈ book.store.accounts.rows, account.ledgerAccountId ≠ counter := by
  rw [LedgerBook.ensureSystemLedgerAccount] at ensured
  split at ensured
  · next system found =>
    obtain ⟨rfl, rfl⟩ := Prod.mk.inj (Except.ok.inj ensured)
    exact ⟨sound, rfl, rfl, rfl, fun account member =>
      sound.apart account member system (List.mem_of_find?_eq_some found)⟩
  · obtain ⟨ledgerAccounts, inserted, same⟩ := bind_eq_ok.mp ensured
    obtain ⟨free, rows⟩ := Table.insert_eq_some_iff.mp (orMissing_eq_ok.mp inserted)
    obtain ⟨rfl, rfl⟩ := Prod.mk.inj (Except.ok.inj same)
    have fresh := Table.find_eq_none_iff.mp free
    have apart : ∀ account ∈ book.store.accounts.rows,
        account.ledgerAccountId ≠ libraries.systemAccountId role currency :=
      fun account member => fresh _ (sound.owned account member)
    refine ⟨⟨?_, ?_, sound.single, ?_, sound.dated, sound.days⟩, rfl, rfl, rfl, apart⟩
    · intro account member
      rw [rows]
      exact List.mem_append_left _ (sound.owned account member)
    · intro system member
      rw [rows]
      rcases List.mem_append.mp member with earlier | last
      · exact List.mem_append_left _ (sound.systemOwned system earlier)
      · rw [List.mem_singleton.mp last]
        exact List.mem_append_right _ List.mem_cons_self
    · intro account member system inside
      rcases List.mem_append.mp inside with earlier | last
      · exact sound.apart account member system earlier
      · rw [List.mem_singleton.mp last]
        exact apart account member

/-! ### Reversals -/

theorem sum_amountsOf_cons [DecidablePred within] (posting : PostingRow) (rest : List PostingRow) :
    (amountsOf (posting :: rest) ledgerAccount within).sum =
      (if posting.ledgerAccountId = ledgerAccount ∧ within posting.postingDate then
        posting.minorUnits.toInt else 0) + (amountsOf rest ledgerAccount within).sum := by
  unfold amountsOf
  rw [List.filter_cons]
  simp only [decide_eq_true_eq]
  split_ifs
  · rw [List.map_cons, List.sum_cons]
  · rw [Int.zero_add]

theorem sum_amountsOf_perm [DecidablePred within] {first second : List PostingRow}
    (perm : first.Perm second) :
    (amountsOf first ledgerAccount within).sum = (amountsOf second ledgerAccount within).sum :=
  ((perm.filter _).map _).sum_eq

/-- The postings of a reversal take the legs back, over any days. -/
theorem sum_reversalPostings {currency : Currency} {legs : List PostingRow}
    {postings : List Posting} {date : String} {within : String → Prop} [DecidablePred within]
    (reversed : ImportStore.reversalPostings currency legs = .ok postings)
    (dated : ∀ leg ∈ legs, leg.postingDate = date) :
    (amountsOf (postings.map fun posting =>
      ⟨posting.account, posting.amount.minorUnits, date⟩) ledgerAccount within).sum =
        -(amountsOf legs ledgerAccount within).sum := by
  have sorted := List.perm_insertionSort ImportStore.postingBefore legs
  rw [← sum_amountsOf_perm sorted]
  replace dated : ∀ leg ∈ legs.insertionSort ImportStore.postingBefore, leg.postingDate = date :=
    fun leg member => dated leg (sorted.mem_iff.mp member)
  unfold ImportStore.reversalPostings at reversed
  -- Leg by leg, whatever their order is.
  generalize legs.insertionSort ImportStore.postingBefore = ordered at reversed dated
  induction ordered generalizing postings with
  | nil =>
    obtain rfl := Except.ok.inj reversed
    rfl
  | cons leg rest inductionHypothesis =>
    rw [List.mapM_cons] at reversed
    obtain ⟨posting, taken, reversed⟩ := bind_eq_ok.mp reversed
    obtain ⟨others, takenRest, same⟩ := bind_eq_ok.mp reversed
    obtain rfl := Except.ok.inj same
    obtain ⟨legDated, datedRest⟩ := List.forall_mem_cons.mp dated
    have negated : posting.account = leg.ledgerAccountId ∧
        posting.amount.minorUnits.toInt = -leg.minorUnits.toInt := by
      rw [Money.checkedNeg] at taken
      cases negated : checkedNeg leg.minorUnits with
      | none =>
        rw [negated] at taken
        cases taken
      | some amount =>
        rw [negated] at taken
        obtain rfl := Except.ok.inj taken
        obtain ⟨negatable, rfl⟩ := checkedNeg_eq_some.mp negated
        exact ⟨rfl, toInt_neg negatable⟩
    rw [List.map_cons, sum_amountsOf_cons, sum_amountsOf_cons,
      inductionHypothesis takenRest datedRest]
    dsimp only
    rw [negated.1, negated.2, legDated]
    split_ifs <;> omega

/-- The book as it would be without a transaction. -/
def without (book : LedgerBook) (id : TransactionId) : LedgerBook :=
  let transactions := book.store.transactions.delete fun row => row.id = id
  { book with store := { book.store with transactions } }

theorem sum_amounts_without (member : original ∈ book.store.transactions.rows)
    (within : String → Prop) [DecidablePred within] :
    (book.store.amounts ledgerAccount within).sum =
      ((book.without original.id).store.amounts ledgerAccount within).sum +
        (amountsOf original.postings ledgerAccount within).sum := by
  have unique := book.store.transactions.unique
  show (amountsOf (book.store.transactions.rows.flatMap _) _ _).sum = (amountsOf
    ((book.store.transactions.rows.filter fun row => !decide (row.id = original.id)).flatMap _)
      _ _).sum + _
  obtain ⟨front, back, split⟩ := List.append_of_mem member
  rw [split] at unique ⊢
  -- No other transaction has the id.
  rw [List.map_append, List.map_cons, List.nodup_append, List.nodup_cons] at unique
  obtain ⟨-, ⟨apartBack, -⟩, apartFront⟩ := unique
  have keepsFront : front.filter (fun row => !decide (row.id = original.id)) = front :=
    List.filter_eq_self.mpr fun row inside => by
      simpa using apartFront _ (List.mem_map_of_mem inside) _ List.mem_cons_self
  have keepsBack : back.filter (fun row => !decide (row.id = original.id)) = back :=
    List.filter_eq_self.mpr fun row inside => by
      have other : row.id ≠ original.id := fun same => apartBack (List.mem_map.mpr ⟨row, inside, same⟩)
      simpa using other
  rw [List.filter_append, List.filter_cons_of_neg (by simp), keepsFront, keepsBack]
  simp only [List.flatMap_append, List.flatMap_cons, amountsOf_append, List.sum_append]
  omega

theorem sum_amounts_reverseAndHide {commandId : Uuid} (sound : book.Sound libraries)
    (member : original ∈ book.store.transactions.rows)
    (reversed : book.reverseAndHide libraries original commandId voidedAt = .ok after) :
    after.Sound libraries ∧ after.observations = book.observations ∧
    after.store.accounts = book.store.accounts ∧
    ∀ (ledgerAccount : Uuid) (within : String → Prop) [DecidablePred within],
      (after.store.amounts ledgerAccount within).sum =
        ((book.without original.id).store.amounts ledgerAccount within).sum := by
  obtain ⟨stored, done, same⟩ := bind_eq_ok.mp reversed
  obtain rfl := Except.ok.inj same
  obtain ⟨postings, taken, done⟩ := bind_eq_ok.mp done
  obtain ⟨reversal, built, done⟩ := bind_eq_ok.mp done
  obtain ⟨posted, persisted, same⟩ := bind_eq_ok.mp done
  obtain rfl := Except.ok.inj same
  have soundPosted := sound.persistTransaction persisted
  obtain ⟨transactions, rfl, rows⟩ := persistTransaction_rows persisted
  refine ⟨soundPosted.markVoided, rfl, rfl, fun ledgerAccount within _ => ?_⟩
  obtain ⟨-, -, occurredAt, same⟩ := LedgerTransaction.of_new (mapError_eq_ok.mp built)
  rw [ImportStore.amounts, postings_markVoided]
  have appended : ({ book.store with transactions }).postings =
      book.store.postings ++ (postedRow libraries reversal).postings := by
    show transactions.rows.flatMap _ = _
    rw [rows, List.flatMap_append, List.flatMap_singleton]
    rfl
  rw [appended, amountsOf_append, List.sum_append, ← ImportStore.amounts,
    sum_amounts_without member]
  have negated := @sum_reversalPostings ledgerAccount _ _ _ _ within _ taken
    (sound.dated original member)
  show _ + (amountsOf (reversal.postings.map _) _ _).sum = _
  rw [same, occurredAt, negated]
  omega

/-! ### The conversion -/

/-- What a conversion reads of an account, and what it posts. -/
structure Converts (libraries : BookLibraries) (book : LedgerBook) (accountId : Uuid)
    (after : LedgerBook) (account : AccountRow) (latest : BalanceObservation) (residual : Int) :
    Prop where
  found : book.store.accounts.find accountId = some account
  unexplained : book.unexplainedAdjustment accountId account.ledgerAccountId = .ok (some residual)
  nonzero : residual ≠ 0
  observes : latestObservation book.observations accountId = some latest
  sound : after.Sound libraries
  observations : after.observations = book.observations
  accounts : after.store.accounts = book.store.accounts
  posts : ∃ (counter : Uuid) (negated : Int64),
    (∀ other ∈ book.store.accounts.rows, other.ledgerAccountId ≠ counter) ∧
    after.store.postings = book.store.postings ++
      [⟨account.ledgerAccountId, Int64.ofInt residual, latest.observedAt⟩,
        ⟨counter, negated, latest.observedAt⟩]

theorem converts_of_apply {commandMeta : ImportMeta} {accountId : Uuid}
    (sound : book.Sound libraries)
    (converted : book.applyConvertUnexplainedToTransaction libraries commandMeta accountId =
      .ok after) :
    ∃ account latest residual, Converts libraries book accountId after account latest residual := by
  obtain ⟨account, found, rest⟩ := bind_eq_ok.mp converted
  obtain ⟨currency, -, rest⟩ := bind_eq_ok.mp rest
  obtain ⟨adjustment, computed, rest⟩ := bind_eq_ok.mp rest
  obtain ⟨nonzero, rest⟩ := ensure_bind_eq_ok.mp rest
  obtain ⟨latest, observed, rest⟩ := bind_eq_ok.mp rest
  obtain ⟨day, read, rest⟩ := bind_eq_ok.mp rest
  obtain ⟨⟨counter, middle⟩, ensured, rest⟩ := bind_eq_ok.mp rest
  obtain ⟨transaction, built, rest⟩ := bind_eq_ok.mp rest
  obtain ⟨stored, persisted, same⟩ := bind_eq_ok.mp rest
  obtain rfl := Except.ok.inj same
  obtain ⟨residual, rfl⟩ : ∃ residual, adjustment = some residual := by
    cases adjustment with
    | none => exact absurd rfl nonzero
    | some residual => exact ⟨residual, rfl⟩
  obtain ⟨soundMiddle, observations, transactions, accounts, apart⟩ :=
    sound.ensureSystemLedgerAccount ensured
  have soundAfter := soundMiddle.persistTransaction persisted
  obtain ⟨table, rfl, rows⟩ := persistTransaction_rows persisted
  replace observed := orMissing_eq_ok.mp observed
  -- The day is read from the text that it is written as.
  have dated : libraries.dateText (libraries.midnightOf day) = latest.observedAt := by
    obtain ⟨written, ⟨reads, falls⟩, text⟩ :=
      sound.days latest (newestObservation_eq_some.mp observed).1.1
    rw [text, reads] at read
    obtain rfl := Option.some.inj (orMissing_eq_ok.mp read)
    exact falls.trans text.symm
  obtain ⟨negated, -, built⟩ := bind_eq_ok.mp built
  obtain ⟨-, -, occurredAt, postings⟩ := LedgerTransaction.of_new (mapError_eq_ok.mp built)
  refine ⟨account, latest, residual, orMissing_eq_ok.mp found, computed, nonzero, observed,
    soundAfter, observations, accounts, counter, negated.minorUnits, apart, ?_⟩
  show table.rows.flatMap _ = book.store.transactions.rows.flatMap _ ++ _
  rw [rows, transactions, List.flatMap_append, List.flatMap_singleton]
  refine congrArg _ ?_
  rw [postedRow, postings, occurredAt]
  show [_, _] = [_, _]
  rw [dated]
  rfl

variable {accountId : Uuid} {converted : AccountRow} {residual : Int} {within : String → Prop}
  [DecidablePred within]

theorem Converts.amounts_eq (converts : Converts libraries book accountId after converted latest
      residual) (account : AccountRow) (member : account ∈ book.store.accounts.rows) :
    after.store.amounts account.ledgerAccountId within =
      book.store.amounts account.ledgerAccountId within ++
        if converted.ledgerAccountId = account.ledgerAccountId ∧ within latest.observedAt then
          [(Int64.ofInt residual).toInt] else [] := by
  obtain ⟨counter, negated, apart, posted⟩ := converts.posts
  rw [ImportStore.amounts, posted, amountsOf_append]
  refine congrArg _ ?_
  have other : ¬(counter = account.ledgerAccountId ∧ within latest.observedAt) := fun both =>
    apart account member both.1.symm
  by_cases own : converted.ledgerAccountId = account.ledgerAccountId ∧ within latest.observedAt
  · rw [if_pos own, amountsOf, List.filter_cons_of_pos (by simpa using own),
      List.filter_cons_of_neg (by simpa using other)]
    rfl
  · rw [if_neg own, amountsOf, List.filter_cons_of_neg (by simpa using own),
      List.filter_cons_of_neg (by simpa using other)]
    rfl

theorem Converts.member (converts : Converts libraries book accountId after converted latest
    residual) : converted ∈ book.store.accounts.rows ∧ converted.id = accountId :=
  Table.find_eq_some_iff.mp converts.found

theorem Converts.anchored_eq (sound : book.Sound libraries)
    (converts : Converts libraries book accountId after converted latest residual)
    (account : AccountRow) (member : account ∈ book.store.accounts.rows) :
    after.assertionAnchoredBalance account.id account.ledgerAccountId =
      book.assertionAnchoredBalance account.id account.ledgerAccountId := by
  have kept (within : String → Prop) [DecidablePred within]
      (outside : converted = account → ¬within latest.observedAt) :
      after.store.sumMinorUnits account.ledgerAccountId within =
        book.store.sumMinorUnits account.ledgerAccountId within := by
    rw [ImportStore.sumMinorUnits, converts.amounts_eq account member, if_neg, List.append_nil]
    · rfl
    · rintro ⟨same, inside⟩
      exact outside (sound.single converted converts.member.1 account member same) inside
  unfold assertionAnchoredBalance
  rw [converts.observations]
  cases found : latestObservation book.observations account.id with
  | none =>
    refine kept _ fun own _ => ?_
    rw [← own, converts.member.2, converts.observes] at found
    cases found
  | some newest =>
    dsimp only
    rw [kept]
    rintro rfl
    rw [converts.member.2, converts.observes] at found
    obtain rfl := Option.some.inj found
    exact lt_irrefl _

theorem Converts.sum_window (converts : Converts libraries book accountId after converted latest
      residual) :
    let prior := priorObservation book.observations accountId latest.observedAt
    ∃ sum, MachineIntegers.Fits 0 (book.store.amounts converted.ledgerAccountId (Window prior latest.observedAt)) ∧
      (book.store.amounts converted.ledgerAccountId (Window prior latest.observedAt)).sum = sum ∧
      ¬(prior = none ∧ latest.source = .connectorSync) ∧
      latest.balance.minorUnits.toInt - (priorMinor prior + sum) = residual ∧
      after.store.amounts converted.ledgerAccountId (Window prior latest.observedAt) =
        book.store.amounts converted.ledgerAccountId (Window prior latest.observedAt) ++
          [residual] := by
  intro prior
  obtain ⟨counts, fits, -, inside, same⟩ :=
    (unexplainedAdjustment_eq_some converts.observes).mp converts.unexplained
  refine ⟨_, fits, rfl, counts, same, ?_⟩
  rw [same] at inside
  have within : Window prior latest.observedAt latest.observedAt := by
    refine ⟨fun row here => ?_, le_refl _⟩
    exact (newestObservation_eq_some.mp here).1.2.2
  rw [converts.amounts_eq converted converts.member.1, if_pos ⟨rfl, within⟩]
  unfold InI64 minI64 maxI64 at inside
  rw [Int64.toInt_ofInt_of_le inside.1 (by omega)]

/-- After a conversion nothing is unexplained, where the change since the prior observation fits
in 64 bits. -/
theorem Converts.explained (converts : Converts libraries book accountId after converted latest
      residual)
    (fits : ∀ prior, priorObservation book.observations accountId latest.observedAt = some prior →
      InI64 (latest.balance.minorUnits.toInt - prior.balance.minorUnits.toInt)) :
    after.unexplainedAdjustment accountId converted.ledgerAccountId = .ok (some 0) := by
  have observes : latestObservation after.observations accountId = some latest := by
    rw [converts.observations, converts.observes]
  obtain ⟨sum, fitsBefore, summed, counts, same, posted⟩ := converts.sum_window
  have inside : InI64 latest.balance.minorUnits.toInt :=
    ⟨Int64.le_toInt _, Int.le_of_lt_add_one (Int64.toInt_lt _)⟩
  have change : InI64 (latest.balance.minorUnits.toInt -
      priorMinor (priorObservation book.observations accountId latest.observedAt)) := by
    cases found : priorObservation book.observations accountId latest.observedAt with
    | none =>
      rw [priorMinor, Option.elim_none, Int.sub_zero]
      exact inside
    | some prior => exact fits prior found
  refine (unexplainedAdjustment_eq_some observes).mpr ?_
  rw [converts.observations, posted, List.sum_append, List.sum_singleton, summed, fits_append,
    summed]
  have whole : priorMinor (priorObservation book.observations accountId latest.observedAt) +
      (sum + residual) = latest.balance.minorUnits.toInt := by omega
  rw [whole, Int.sub_self]
  refine ⟨counts, ⟨fitsBefore, ?_, trivial⟩, inside, by decide, rfl⟩
  have added : 0 + sum + residual = latest.balance.minorUnits.toInt -
      priorMinor (priorObservation book.observations accountId latest.observedAt) := by omega
  rw [added]
  exact change

theorem Converts.eq_zero (converts : Converts libraries book accountId after converted latest
      residual)
    (computed : after.unexplainedAdjustment accountId converted.ledgerAccountId =
      .ok (some value)) : value = 0 := by
  have observes : latestObservation after.observations accountId = some latest := by
    rw [converts.observations, converts.observes]
  obtain ⟨sum, -, summed, -, same, posted⟩ := converts.sum_window
  obtain ⟨-, -, -, -, rfl⟩ := (unexplainedAdjustment_eq_some observes).mp computed
  rw [converts.observations, posted, List.sum_append, List.sum_singleton, summed]
  omega

theorem Converts.not_again
    (converts : Converts libraries book accountId after converted latest residual)
    (again : ImportMeta) :
    ∃ refusal, after.applyConvertUnexplainedToTransaction libraries again accountId =
      .error refusal := by
  cases applied : after.applyConvertUnexplainedToTransaction libraries again accountId with
  | error refusal => exact ⟨refusal, rfl⟩
  | ok later =>
    obtain ⟨account, newest, left, repeated⟩ := converts_of_apply converts.sound applied
    have same := repeated.found
    rw [converts.accounts, converts.found] at same
    obtain rfl := Option.some.inj same
    exact absurd (converts.eq_zero repeated.unexplained) repeated.nonzero

/-! ### Two days of observation -/

/-- What is asserted of an account on a day. -/
def assertedOn (observations : ObservationTable) (account : Uuid) (day : String) :
    Option BalanceObservation :=
  newestObservation observations account fun other => other = day

/-- The book as it was when no later day was observed yet. -/
def observedBy (book : LedgerBook) (day : String) : LedgerBook :=
  { book with observations := book.observations.delete fun row => day < row.observedAt }

theorem mem_observedBy {day : String} :
    row ∈ (book.observedBy day).observations.rows ↔
      row ∈ book.observations.rows ∧ row.observedAt ≤ day := by
  show row ∈ List.filter _ _ ↔ _
  rw [List.mem_filter, Bool.not_eq_true', decide_eq_false_iff_not, not_lt]

theorem latestObservation_observedBy {day : String}
    (asserted : assertedOn book.observations account day = some row) :
    latestObservation (book.observedBy day).observations account = some row := by
  obtain ⟨⟨member, anchors, rfl⟩, newest⟩ := newestObservation_eq_some.mp asserted
  refine newestObservation_eq_some.mpr ⟨⟨mem_observedBy.mpr ⟨member, le_refl _⟩, anchors, trivial⟩,
    fun other inside own _ => ?_⟩
  obtain ⟨stored, before⟩ := mem_observedBy.mp inside
  rcases before.lt_or_eq with earlier | same
  · exact BalanceObservation.anchorRank_le.mpr (.inl earlier)
  · exact newest other stored own same

theorem priorObservation_observedBy {earlier later : String}
    (asserted : assertedOn book.observations account earlier = some row) (before : earlier < later)
    (consecutive : ∀ other ∈ book.observations.rows, other.Anchors account →
      ¬(earlier < other.observedAt ∧ other.observedAt < later)) :
    priorObservation (book.observedBy later).observations account later = some row := by
  obtain ⟨⟨member, anchors, rfl⟩, newest⟩ := newestObservation_eq_some.mp asserted
  refine newestObservation_eq_some.mpr ⟨⟨mem_observedBy.mpr ⟨member, before.le⟩, anchors, before⟩,
    fun other inside own less => ?_⟩
  obtain ⟨stored, -⟩ := mem_observedBy.mp inside
  rcases lt_trichotomy other.observedAt row.observedAt with less | same | greater
  · exact BalanceObservation.anchorRank_le.mpr (.inl less)
  · exact newest other stored own same
  · exact absurd ⟨greater, less⟩ (consecutive other stored own)

theorem priorObservation_observedBy_eq_none {day : String}
    (first : ∀ other ∈ book.observations.rows, other.Anchors account → ¬other.observedAt < day) :
    priorObservation (book.observedBy day).observations account day = none :=
  newestObservation_eq_none.mpr fun other inside own =>
    first other (mem_observedBy.mp inside).1 own

/-! ### The explanation of a balance -/

/-- A conversion explains the balance and does not move it. -/
def ConversionExplains (libraries : BookLibraries) (book : LedgerBook) : Prop :=
  ∀ commandMeta accountId after,
    book.applyConvertUnexplainedToTransaction libraries commandMeta accountId = .ok after →
    (∃ account ∈ book.store.accounts.rows, account.id = accountId ∧
      ∃ latest, latestObservation book.observations accountId = some latest ∧
        ((∀ prior, priorObservation book.observations accountId latest.observedAt = some prior →
            InI64 (latest.balance.minorUnits.toInt - prior.balance.minorUnits.toInt)) →
          after.unexplainedAdjustment accountId account.ledgerAccountId = .ok (some 0))) ∧
    (∀ account ∈ book.store.accounts.rows,
      after.assertionAnchoredBalance account.id account.ledgerAccountId =
        book.assertionAnchoredBalance account.id account.ledgerAccountId) ∧
    ∀ again, ∃ refusal, after.applyConvertUnexplainedToTransaction libraries again accountId =
      .error refusal

/-- A reversal leaves every balance as it is without the transaction and without the reversal. -/
def ReversalUndoes (libraries : BookLibraries) (book : LedgerBook) : Prop :=
  ∀ original ∈ book.store.transactions.rows, ∀ commandId voidedAt after,
    book.reverseAndHide libraries original commandId voidedAt = .ok after →
    ∀ account ledgerAccount,
      ComputesAs (after.store.SumsFit ledgerAccount)
        (after.assertionAnchoredBalance account ledgerAccount)
        ((book.without original.id).assertionAnchoredBalance account ledgerAccount) ∧
      ComputesAs (after.store.SumsFit ledgerAccount)
        (after.unexplainedAdjustment account ledgerAccount)
        ((book.without original.id).unexplainedAdjustment account ledgerAccount)

/-- What is unexplained on a day is what its balance differs by from the balance of the day observed
before and the postings since, where neither leaves 64 bits. -/
def DaysAddUp (book : LedgerBook) : Prop :=
  ∀ (account ledgerAccount : Uuid) (earlierDay laterDay : String)
    (earlier later : BalanceObservation),
    assertedOn book.observations account earlierDay = some earlier →
    assertedOn book.observations account laterDay = some later → earlierDay < laterDay →
    (∀ other ∈ book.observations.rows, other.Anchors account →
      ¬(earlierDay < other.observedAt ∧ other.observedAt < laterDay)) →
    let between := book.store.amounts ledgerAccount fun day => earlierDay < day ∧ day ≤ laterDay
    let explained := earlier.balance.minorUnits.toInt + between.sum
    MachineIntegers.Fits 0 between → InI64 explained → InI64 (later.balance.minorUnits.toInt - explained) →
    ∃ adjustment, (book.observedBy laterDay).unexplainedAdjustment account ledgerAccount =
        .ok (some adjustment) ∧
      adjustment + earlier.balance.minorUnits.toInt + between.sum = later.balance.minorUnits.toInt

/-- The first observation has nothing unexplained when it comes from a connector. -/
def FirstIsBaseline (book : LedgerBook) : Prop :=
  ∀ (account ledgerAccount : Uuid) (day : String) (first : BalanceObservation),
    assertedOn book.observations account day = some first → first.source = .connectorSync →
    (∀ other ∈ book.observations.rows, other.Anchors account → ¬other.observedAt < day) →
    (book.observedBy day).unexplainedAdjustment account ledgerAccount = .ok none

theorem daysAddUp (book : LedgerBook) : book.DaysAddUp := by
  intro account ledgerAccount earlierDay laterDay earlier later before after less consecutive
    between explained fits inside insideToo
  have latest := latestObservation_observedBy after
  obtain ⟨⟨-, -, rfl⟩, -⟩ := newestObservation_eq_some.mp after
  have prior := priorObservation_observedBy before less consecutive
  obtain ⟨⟨-, -, rfl⟩, -⟩ := newestObservation_eq_some.mp before
  have window : (book.observedBy later.observedAt).store.amounts ledgerAccount
      (Window (some earlier) later.observedAt) = between := by
    have same : ∀ day, Window (some earlier) later.observedAt day ↔
        earlier.observedAt < day ∧ day ≤ later.observedAt := by simp [Window]
    simp only [ImportStore.amounts, amountsOf, same]
    rfl
  refine ⟨later.balance.minorUnits.toInt - explained,
    (unexplainedAdjustment_eq_some latest).mpr ?_, by omega⟩
  rw [prior, window]
  exact ⟨fun exempt => absurd exempt.1 (Option.some_ne_none _), fits, inside, insideToo, rfl⟩

theorem firstIsBaseline (book : LedgerBook) : book.FirstIsBaseline := by
  intro account ledgerAccount day first asserted connector earliest
  have latest := latestObservation_observedBy asserted
  obtain ⟨⟨-, -, rfl⟩, -⟩ := newestObservation_eq_some.mp asserted
  refine unexplainedAdjustment_eq_none.mpr fun other found => ?_
  rw [latest] at found
  obtain rfl := Option.some.inj found
  exact ⟨priorObservation_observedBy_eq_none earliest, connector⟩

/-- Explaining a balance changes its explanation and not the balance: after a conversion nothing is
unexplained, no account's balance has moved, and there is nothing to convert again; a reversal
undoes a transaction; and what is unexplained on a day is its difference from the day observed
before and the postings since, but for a first observation by a connector. -/
theorem explaining_keeps_balances (sound : book.Sound libraries) :
    book.ConversionExplains libraries ∧ book.ReversalUndoes libraries ∧ book.DaysAddUp ∧
      book.FirstIsBaseline := by
  refine ⟨fun commandMeta accountId after applied => ?_, ?_, daysAddUp book, firstIsBaseline book⟩
  · obtain ⟨account, latest, residual, converts⟩ := converts_of_apply sound applied
    refine ⟨⟨account, converts.member.1, converts.member.2, latest, converts.observes, ?_⟩, ?_, ?_⟩
    · exact converts.explained
    · exact converts.anchored_eq sound
    · exact converts.not_again
  · intro original member commandId voidedAt after reversed account ledgerAccount
    obtain ⟨-, observations, -, sums⟩ := sum_amounts_reverseAndHide sound member reversed
    exact ⟨assertionAnchoredBalance_computesAs observations (sums ledgerAccount),
      unexplainedAdjustment_computesAs observations (sums ledgerAccount)⟩

end LedgerBook

/-! ### A conversion -/

def digitsOf (digits : List Char) : Nat :=
  digits.foldl (fun value digit => 10 * value + (digit.toNat - '0'.toNat)) 0

def bookLibraries : BookLibraries where
  parseRfc3339 _ := none
  noonOf _ := 0
  parseDate text :=
    match text.toList with
    | [y1, y2, y3, y4, '-', m1, m2, '-', d1, d2] =>
      some ⟨digitsOf [y1, y2, y3, y4], digitsOf [m1, m2], digitsOf [d1, d2]⟩
    | _ => none
  yearOf _ := 1970
  dateText instant := String.ofList (dateChars (dateOfMicros (1000000 * instant)))
  systemAccountId role _ := .replicate 16 (if role = "unmatched_income" then 3 else 4)
  dayText day := String.ofList (FixedDigits.fixed 4 day.year.toNat ++ '-' ::
    (FixedDigits.fixed 2 day.month ++ '-' :: FixedDigits.fixed 2 day.day))
  midnightOf day := 86400 * ((Calendar.Date.ofYmd day.year day.month day.day).elim 0 fun date =>
    date.dayNumber - (Calendar.Date.firstOf (12 * 1970)).dayNumber)
  convertId command := command

/-- An observation of the account on a day of 1970. -/
def observedOn (id : UInt8) (source : ObservationSource) (amount : Int64) (day : String) :
    BalanceObservation := { observed id source amount 0 with observedAt := day }

theorem nodup_observedAccounts :
    ([⟨.replicate 16 1, .replicate 16 2, "USD"⟩].map AccountRow.id).Nodup := List.nodup_singleton _

theorem nodup_observedLedgerAccounts :
    ([.replicate 16 2, .replicate 16 5].map (@id Uuid)).Nodup := by decide

/-- A book with an account, a balance of 100, a posting of 20 after it, and a balance of 150 that a
connector reports. -/
def observedBook : LedgerBook where
  store :=
    { accounts := ⟨[⟨.replicate 16 1, .replicate 16 2, "USD"⟩], nodup_observedAccounts⟩
      categories := .empty
      systemAccounts := []
      batches := .empty
      records := .empty
      staged := .empty
      transactions := ⟨[⟨.given (.replicate 16 7), .replicate 16 7, 86400, .usd, none,
        [⟨.replicate 16 2, 20, "1970-01-02"⟩, ⟨.replicate 16 5, -20, "1970-01-02"⟩]⟩],
        List.nodup_singleton _⟩
      provenance := .empty
      details := []
      categorizations := .empty
      decisions := .empty
      operations := [] }
  ledgerAccounts := ⟨[.replicate 16 2, .replicate 16 5], nodup_observedLedgerAccounts⟩
  observations := ⟨[observedOn 1 .manual 100 "1970-01-01", observedOn 2 .connectorSync 150
    "1970-01-03"], by decide⟩

/-- The 30 that nothing explained are converted, and the balance is 150 before and after. -/
theorem conversion_explains :
    ∃ after, observedBook.applyConvertUnexplainedToTransaction bookLibraries
        ⟨.replicate 16 9, "", ""⟩ (.replicate 16 1) = .ok after ∧
      after.unexplainedAdjustment (.replicate 16 1) (.replicate 16 2) = .ok (some 0) ∧
      after.assertionAnchoredBalance (.replicate 16 1) (.replicate 16 2) = .ok 150 := by
  have readBack (day : Nat) (inside : day = 1 ∨ day = 3) :
      bookLibraries.RoundTrips ⟨1970, 1, day⟩ := by
    rcases inside with rfl | rfl
    · exact ⟨by decide +kernel, by decide +kernel⟩
    · exact ⟨by decide +kernel, by decide +kernel⟩
  have sound : observedBook.Sound bookLibraries := by
    refine ⟨?_, List.forall_mem_nil _, ?_, fun _ _ => List.forall_mem_nil _, ?_, ?_⟩
    · intro account member
      obtain rfl := List.mem_singleton.mp member
      exact List.mem_cons_self
    · intro first firstIn second secondIn _
      exact (List.mem_singleton.mp firstIn).trans (List.mem_singleton.mp secondIn).symm
    · intro transaction member
      obtain rfl := List.mem_singleton.mp member
      exact List.forall_mem_cons.mpr ⟨by decide +kernel, List.forall_mem_singleton.mpr
        (by decide +kernel)⟩
    · exact List.forall_mem_cons.mpr ⟨⟨_, readBack 1 (.inl rfl), by decide +kernel⟩,
        List.forall_mem_singleton.mpr ⟨_, readBack 3 (.inr rfl), by decide +kernel⟩⟩
  obtain ⟨after, applied⟩ := exists_ok_of_isOk (observedBook.applyConvertUnexplainedToTransaction
    bookLibraries ⟨.replicate 16 9, "", ""⟩ (.replicate 16 1)) rfl
  obtain ⟨⟨account, member, -, latest, found, explains⟩, keeps, -⟩ :=
    (LedgerBook.explaining_keeps_balances sound).1 _ _ _ applied
  obtain rfl := List.mem_singleton.mp member
  refine ⟨after, applied, explains fun prior before => ?_, ?_⟩
  · obtain rfl := Option.some.inj (found.symm.trans rfl)
    obtain rfl := Option.some.inj (before.symm.trans rfl)
    decide
  · refine (keeps _ member).trans ?_
    rfl

end Dohflow.DbWorker
