/-
This file says when the planner commits a staged row, and that the ledger then takes the
commit.

The planner checks what the command checks: the account, the currency, the amount, the
date, the texts and the category (`checkCommit_of_plan`). What it does not check is that
the amount has a negation, so a planned commit is refused for the least amount of 64 bits
and for no other (`planned_accepted_iff`).
-/

import Dohflow.DbWorker.StagedImportSteps

namespace Dohflow.DbWorker

open SyncCore CoreLedger Fallible KeyedTable

variable {libraries : ImportLibraries} {store : ImportStore} {row : StagedTransaction}
  {id batch : Uuid} {transaction : TransactionId} {force : Bool}

/-! ### What is planned -/

theorem transactionIdOf_eq_ok (derived : store.transactionIdOf row = .ok (batch, transaction)) :
    ∃ record ordinal, store.records.find row.sourceRecordId = some record ∧
      row.rowOrdinal = some ordinal ∧ record.sourceBatchId = batch ∧
      transaction = .imported batch ordinal := by
  obtain ⟨record, found, derived⟩ := bind_eq_ok.mp derived
  obtain ⟨ordinal, numbered, derived⟩ := bind_eq_ok.mp derived
  obtain ⟨rfl, rfl⟩ := Prod.mk.inj (Except.ok.inj derived)
  exact ⟨record, ordinal, orMissing_eq_ok.mp found, orMissing_eq_ok.mp numbered, rfl, rfl⟩

/-- The row that is planned, which is not committed, and what it becomes. -/
structure Planning (store : ImportStore) (id : Uuid) (row : StagedTransaction) (batch : Uuid)
    (transaction : TransactionId) : Prop where
  found : store.staged.find id = some row
  open' : row.commitStatus ≠ .committed
  derived : store.transactionIdOf row = .ok (batch, transaction)

theorem planStaged_eq_ok {plan : StagedPlan}
    (done : store.planStaged libraries id force = .ok plan) :
    ∃ row batch transaction, Planning store id row batch transaction ∧
      (store.exists? transaction ∧ store.madeFrom transaction row.sourceRecordId = true ∧
          plan = .alreadyCommitted id transaction ∨
        ¬ store.exists? transaction ∧
          store.planNew libraries row batch transaction force = .ok plan) := by
  obtain ⟨row, found, done⟩ := bind_eq_ok.mp done
  obtain ⟨pending, done⟩ := ensure_bind_eq_ok.mp done
  obtain ⟨⟨batch, transaction⟩, derived, done⟩ := bind_eq_ok.mp done
  have found := orMissing_eq_ok.mp found
  refine ⟨row, batch, transaction, ⟨found, pending, derived⟩, ?_⟩
  dsimp only at done
  split at done
  · next present =>
    obtain ⟨made, done⟩ := ensure_bind_eq_ok.mp done
    rw [← (Table.find_eq_some_iff.mp found).2]
    exact Or.inl ⟨present, made, (Except.ok.inj done).symm⟩
  · next absent => exact Or.inr ⟨absent, done⟩

theorem planStaged_of_made (planning : Planning store id row batch transaction)
    (present : store.exists? transaction)
    (made : store.madeFrom transaction row.sourceRecordId = true) :
    store.planStaged libraries id force = .ok (.alreadyCommitted id transaction) := by
  refine bind_eq_ok.mpr ⟨row, orMissing_eq_ok.mpr planning.found, ?_⟩
  refine ensure_bind_eq_ok.mpr ⟨planning.open', ?_⟩
  refine bind_eq_ok.mpr ⟨(batch, transaction), planning.derived, ?_⟩
  dsimp only
  rw [if_pos present]
  refine ensure_bind_eq_ok.mpr ⟨made, ?_⟩
  rw [(Table.find_eq_some_iff.mp planning.found).2]
  rfl

/-- A row that is planned to be committed: no duplicate was found, and where it posts. -/
structure Committing (libraries : ImportLibraries) (store : ImportStore)
    (row : StagedTransaction) (transaction : TransactionId) (force : Bool) (target : CommitTarget)
    (planned : PlannedCommit) : Prop where
  fresh : store.duplicateReason row force = .ok none
  targeted : store.commitTarget libraries row = .ok (.ok target)
  year : importDateIsValid libraries target.occurredAt = true
  planned : planned = ⟨row.id, transaction,
    store.commitOf libraries row transaction target force⟩

theorem planNew_eq_commit {planned : PlannedCommit}
    (done : store.planNew libraries row batch transaction force = .ok (.commit planned)) :
    ∃ target, Committing libraries store row transaction force target planned := by
  obtain ⟨duplicate, fresh, done⟩ := bind_eq_ok.mp done
  cases duplicate with
  | some found => cases Except.ok.inj done
  | none =>
    obtain ⟨target, targeted, done⟩ := bind_eq_ok.mp done
    cases target with
    | error problem =>
      simp only [withinYears] at done
      split at done
      · cases done
      · cases Except.ok.inj done
    | ok target =>
      by_cases year : importDateIsValid libraries target.occurredAt = true
      · simp only [withinYears, if_pos year] at done
        exact ⟨target, fresh, targeted, year, (StagedPlan.commit.inj (Except.ok.inj done)).symm⟩
      · simp only [withinYears, if_neg year] at done
        split at done
        · cases done
        · cases Except.ok.inj done

theorem planStaged_eq_alreadyCommitted {stagedId : Uuid}
    (done : store.planStaged libraries id force = .ok (.alreadyCommitted stagedId transaction)) :
    stagedId = id ∧ ∃ row batch, Planning store id row batch transaction ∧
      store.exists? transaction ∧ store.madeFrom transaction row.sourceRecordId = true := by
  obtain ⟨row, batch, derived, planning, ⟨present, made, same⟩ | ⟨-, new⟩⟩ := planStaged_eq_ok done
  · obtain ⟨rfl, rfl⟩ := StagedPlan.alreadyCommitted.inj same
    exact ⟨rfl, row, batch, planning, present, made⟩
  · exfalso
    obtain ⟨duplicate, -, new⟩ := bind_eq_ok.mp new
    cases duplicate with
    | some found => cases Except.ok.inj new
    | none =>
      obtain ⟨target, -, new⟩ := bind_eq_ok.mp new
      split at new
      · cases Except.ok.inj new
      · split at new
        · cases new
        · cases Except.ok.inj new

theorem planStaged_eq_commit {planned : PlannedCommit}
    (done : store.planStaged libraries id force = .ok (.commit planned)) :
    ∃ row batch transaction target, Planning store id row batch transaction ∧
      ¬ store.exists? transaction ∧
      Committing libraries store row transaction force target planned := by
  obtain ⟨row, batch, transaction, planning, ⟨-, -, same⟩ | ⟨absent, new⟩⟩ := planStaged_eq_ok done
  · cases same
  · obtain ⟨target, committing⟩ := planNew_eq_commit new
    exact ⟨row, batch, transaction, target, planning, absent, committing⟩

theorem committedFingerprintMatch_eq_none {txnFingerprint : String} {account : Option Uuid}
    (missed : store.committedFingerprintMatch txnFingerprint account id = none)
    (member : row ∈ store.staged.rows) (other : row.id ≠ id)
    (fingerprint : row.txnFingerprint = txnFingerprint) (proposed : row.proposedAccountId = account) :
    store.countsCommitted row = false := by
  rw [Bool.eq_false_iff]
  intro counts
  have among : row ∈ store.staged.rows.filter fun row =>
      row.txnFingerprint = txnFingerprint ∧ row.id ≠ id ∧ row.proposedAccountId = account ∧
        store.countsCommitted row :=
    List.mem_filter.mpr ⟨member, decide_eq_true ⟨fingerprint, other, proposed, counts⟩⟩
  rw [ImportStore.committedFingerprintMatch] at missed
  cases chosen : earliest (store.staged.rows.filter fun row =>
      row.txnFingerprint = txnFingerprint ∧ row.id ≠ id ∧ row.proposedAccountId = account ∧
        store.countsCommitted row) with
  | none =>
    rw [earliest_eq_none_iff.mp chosen] at among
    cases among
  | some first =>
    obtain ⟨-, -, -, counts⟩ := of_decide_eq_true (List.mem_filter.mp (mem_of_earliest chosen)).2
    obtain ⟨-, named⟩ := of_decide_eq_true counts
    rw [chosen, Option.bind_some] at missed
    rw [missed] at named
    cases named

/-! ### What the ledger takes -/

theorem commitTarget_eq_ok {target : CommitTarget}
    (targeted : store.commitTarget libraries row = .ok (.ok target)) :
    ∃ account, row.proposedAccountId = some target.accountId ∧
      store.accounts.find target.accountId = some account ∧
      target.amount.currency.code = account.currency ∧ target.amount.isZero = false ∧
      target.amount.minorUnits = row.amountMinor := by
  unfold ImportStore.commitTarget at targeted
  split at targeted
  · cases targeted
  · next accountId proposed =>
    split at targeted
    · cases targeted
    · next account found =>
      split at targeted
      · cases targeted
      · obtain ⟨currency, coded, targeted⟩ := bind_eq_ok.mp targeted
        have code : currency.code = account.currency := by
          unfold currencyFromCode at coded
          split at coded
          · next usd => rw [← Except.ok.inj coded, usd]; rfl
          · split at coded
            · next eur => rw [← Except.ok.inj coded, eur]; rfl
            · cases coded
        dsimp only at targeted
        split at targeted
        · cases Except.ok.inj targeted
        · next nonzero =>
          split at targeted
          · cases Except.ok.inj targeted
          · obtain rfl := Except.ok.inj (Except.ok.inj targeted)
            exact ⟨account, proposed, found, code, Bool.eq_false_iff.mpr nonzero, rfl⟩

theorem exists_of_findCategoryByName {name : String} {category : Uuid}
    (found : store.findCategoryByName name = some category) :
    (store.categories.find category).isSome := by
  unfold ImportStore.findCategoryByName at found
  dsimp only at found
  split at found
  · cases found
  · split at found
    · next row only =>
      obtain rfl := Option.some.inj found
      have member : row ∈ store.categories.rows :=
        List.mem_of_mem_filter (by rw [only]; exact List.mem_cons_self)
      rw [Table.find_key member]
      rfl
    · cases found

theorem importTextIsValid_of_fit {text : Option String} {fitted : String}
    (member : fitted ∈ (text.map fitImportText).toList) : importTextIsValid fitted = true := by
  cases text with
  | none => cases member
  | some text =>
    obtain rfl := List.mem_singleton.mp member
    exact importTextIsValid_fit text

variable {target : CommitTarget} {planned : PlannedCommit}

theorem checkCommit_of_plan (planning : Planning store id row batch transaction)
    (committing : Committing libraries store row transaction force target planned) :
    ∃ account record, store.checkCommit libraries planned.command = .ok (account, record) := by
  obtain ⟨account, -, found, currency, nonzero, -⟩ := commitTarget_eq_ok committing.targeted
  obtain ⟨record, -, recorded, -, -, -⟩ := transactionIdOf_eq_ok planning.derived
  obtain rfl := committing.planned
  refine ⟨account, record, ?_⟩
  refine ensure_bind_eq_ok.mpr ⟨nonzero, ensure_bind_eq_ok.mpr ⟨?_, ?_⟩⟩
  · intro text member
    obtain member | member := List.mem_append.mp member
    · exact importTextIsValid_of_fit member
    · exact importTextIsValid_of_fit member
  · refine ensure_bind_eq_ok.mpr ⟨committing.year, ?_⟩
    refine bind_eq_ok.mpr ⟨account, orMissing_eq_ok.mpr found, ?_⟩
    refine ensure_bind_eq_ok.mpr ⟨currency, ensure_bind_eq_ok.mpr ⟨?_, ?_⟩⟩
    · intro category named
      obtain ⟨name, -, found⟩ := Option.bind_eq_some_iff.mp named
      exact exists_of_findCategoryByName found
    · exact bind_eq_ok.mpr ⟨record, orMissing_eq_ok.mpr recorded, rfl⟩

theorem planned_accepted_iff {commandMeta : ImportMeta}
    (planning : Planning store id row batch transaction)
    (committing : Committing libraries store row transaction force target planned)
    (unwritten : Unwritten store transaction) :
    (∃ after, store.applyCommitImportedTransaction libraries commandMeta planned.command =
      .ok after) ↔ row.amountMinor ≠ Int64.minValue := by
  obtain ⟨account, record, checked⟩ := checkCommit_of_plan planning committing
  obtain ⟨-, -, -, -, -, amount⟩ := commitTarget_eq_ok committing.targeted
  have named : planned.command.transactionId = transaction := by rw [committing.planned]; rfl
  have posts : planned.command.amount = target.amount := by rw [committing.planned]; rfl
  rw [← named] at unwritten
  have written := @exists_writeCommit_iff libraries store commandMeta planned.command account
    record.sourceBatchId unwritten
  rw [posts, amount] at written
  rw [← written]
  refine exists_congr fun after => ?_
  rw [ImportStore.applyCommitImportedTransaction, checked]
  show (if _ then _ else _) = _ ↔ _
  rw [if_neg unwritten.transaction]

end Dohflow.DbWorker
