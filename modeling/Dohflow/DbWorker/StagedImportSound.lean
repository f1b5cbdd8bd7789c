/-
This file proves that every call that decides a staged row, skips one or voids a
transaction keeps the tables consistent, whatever comes between its steps.

What is linked or decided of a transaction is about one that exists, and a row that is
marked committed has a transaction made from its own record (`Consistent`). Between its
steps a call knows that its row may be marked (`Ready`), or what its planned commit will
make (`PlannedFor`); both stay true whatever others do.
-/

import Dohflow.DbWorker.StagedImportCalls

namespace Dohflow.DbWorker

open SyncCore CoreLedger Fallible KeyedTable Program Interleaving

variable {libraries : ImportLibraries} {store before after : ImportStore}

/-! ### Consistent tables -/

/-- The row's mark names a transaction made from the row's own record. -/
def Marked (store : ImportStore) (row : StagedTransaction) : Prop :=
  ∃ transaction, row.committedTransactionId = some transaction ∧ store.exists? transaction ∧
    store.madeFrom transaction row.sourceRecordId = true

structure Consistent (store : ImportStore) : Prop where
  linked : ∀ link ∈ store.provenance.rows, store.exists? link.entityId
  decided : ∀ row ∈ store.decisions.rows, ∀ transaction, row.id = .committed transaction →
    store.exists? transaction
  marked : ∀ row ∈ store.staged.rows, row.commitStatus = .committed → Marked store row

namespace Consistent

theorem exists_of_madeFrom (consistent : Consistent store) {transaction : TransactionId}
    {record : Uuid} (made : store.madeFrom transaction record = true) :
    store.exists? transaction := by
  obtain ⟨link, member, same⟩ := List.any_eq_true.mp made
  obtain ⟨rfl, -⟩ := of_decide_eq_true same
  exact consistent.linked link member

theorem unwritten (consistent : Consistent store) {transaction : TransactionId}
    (absent : ¬ store.exists? transaction) : Unwritten store transaction where
  transaction := absent
  provenance := Table.find_eq_none_iff.mpr fun link member same =>
    absent (same ▸ consistent.linked link member)
  decision := Table.find_eq_none_iff.mpr fun row member same =>
    absent (consistent.decided row member transaction same)

/-- What a step adds is consistent with what it keeps. -/
theorem step (consistent : Consistent before) (keeps : Keeps before after)
    (links : ∀ link ∈ after.provenance.rows,
      link ∈ before.provenance.rows ∨ after.exists? link.entityId)
    (decisions : ∀ row ∈ after.decisions.rows, row ∈ before.decisions.rows ∨
      ∀ transaction, row.id = .committed transaction → after.exists? transaction)
    (marks : ∀ row ∈ after.staged.rows, row.commitStatus = .committed →
      row ∈ before.staged.rows ∨ Marked after row) : Consistent after where
  linked link member := by
    obtain old | added := links link member
    · exact keeps.transactions _ (consistent.linked link old)
    · exact added
  decided row member transaction same := by
    obtain old | added := decisions row member
    · exact keeps.transactions _ (consistent.decided row old transaction same)
    · exact added transaction same
  marked row member committed := by
    obtain old | added := marks row member committed
    · obtain ⟨transaction, named, present, made⟩ := consistent.marked row old committed
      exact ⟨transaction, named, keeps.transactions _ present, keeps.madeFrom made⟩
    · exact added

end Consistent

variable {transaction : TransactionId} {commandMeta : ImportMeta} {stagedId : Uuid}

theorem mem_insert {Row Key : Type} {key : Row → Key} [DecidableEq Key] {table after : Table key}
    {row other : Row} (inserted : table.insert row = some after) :
    other ∈ after.rows ↔ other ∈ table.rows ∨ other = row := by
  rw [(Table.insert_eq_some_iff.mp inserted).2, List.mem_append, List.mem_singleton]

theorem consistent_setStaged {id : Uuid} {sets : StagedTransaction → StagedTransaction}
    {keeps : ∀ row, (sets row).id = row.id} {decisions : Table DecisionRow.id}
    (consistent : Consistent store) (same : ∀ row, (sets row).undecided = row.undecided)
    (decided : ∀ row ∈ decisions.rows, row ∈ store.decisions.rows ∨
      ∀ transaction, row.id ≠ .committed transaction)
    (marks : ∀ row, store.staged.find id = some row → (sets row).commitStatus = .committed →
      Marked store (sets row)) :
    Consistent (({ store with decisions }).setStaged id sets keeps) := by
  refine consistent.step ((keeps_decisions store decisions).trans (keeps_setStaged same))
    (fun link member => Or.inl member) (fun row member => ?_) fun row member committed => ?_
  · obtain old | other := decided row member
    · exact Or.inl old
    · exact Or.inr fun transaction named => absurd named (other transaction)
  · obtain ⟨old, present, rfl⟩ := mem_setStaged.mp member
    by_cases chosen : old.id = id
    · subst chosen
      rw [if_pos rfl] at committed ⊢
      exact Or.inr (marks old (Table.find_key present) committed)
    · rw [if_neg chosen]
      exact Or.inl present

theorem consistent_makes {command : CommitImported} (consistent : Consistent store)
    (makes : Makes store after command) : Consistent after := by
  refine consistent.step makes.keeps (fun link member => ?_) (fun row member => ?_)
    fun row member _ => Or.inl (makes.staged ▸ member)
  · obtain old | ⟨-, same⟩ := makes.mem_provenance.mp member
    · exact Or.inl old
    · exact Or.inr ((makes.exists_iff _).mpr (Or.inl same))
  · obtain ⟨added, same, inserted⟩ := makes.decides
    obtain old | rfl := (mem_insert inserted).mp member
    · exact Or.inl old
    · refine Or.inr fun transaction named => (makes.exists_iff _).mpr (Or.inl ?_)
      exact DecisionId.committed.inj (named.symm.trans same)

theorem consistent_applyVoidTransaction (consistent : Consistent store)
    (done : store.applyVoidTransaction libraries commandMeta transaction = .ok after) :
    Consistent after := by
  have keeps := keeps_applyVoidTransaction done
  obtain ⟨row, transactions, -, -, rfl⟩ := applyVoidTransaction_eq_ok done
  exact consistent.step keeps (fun _ member => Or.inl member) (fun _ member => Or.inl member)
    fun _ member _ => Or.inl member

theorem consistent_recordFlag {flag : PlannedFlag} (consistent : Consistent store)
    (done : store.recordFlag commandMeta flag = .ok after) : Consistent after := by
  obtain ⟨decisions, added, same, inserted, rfl⟩ := recordFlag_eq_ok done
  refine consistent_setStaged consistent (fun _ => rfl) (fun row member => ?_)
    fun _ _ committed => nomatch committed
  obtain old | rfl := (mem_insert inserted).mp member
  · exact Or.inl old
  · exact Or.inr fun transaction named => nomatch same.symm.trans named

theorem consistent_skipStaged {now : String} (consistent : Consistent store)
    (done : store.skipStaged stagedId now = .ok after) : Consistent after := by
  obtain rfl | ⟨decisions, added, same, inserted, rfl⟩ := skipStaged_eq_ok done
  · exact consistent
  · refine consistent_setStaged consistent (fun _ => rfl) (fun row member => ?_)
      fun _ _ committed => nomatch committed
    obtain old | rfl := (mem_insert inserted).mp member
    · exact Or.inl old
    · exact Or.inr fun transaction named => nomatch same.symm.trans named

/-! ### What a call knows -/

/-- The row's transaction was made, from the row's own record: the row may be marked. -/
def Ready (store : ImportStore) (stagedId : Uuid) (transaction : TransactionId) : Prop :=
  ∀ row, store.staged.find stagedId = some row →
    store.madeFrom transaction row.sourceRecordId = true

theorem Ready.keeps {stagedId : Uuid} {transaction : TransactionId}
    (ready : Ready before stagedId transaction) (keeps : Keeps before after) :
    Ready after stagedId transaction := by
  intro row found
  obtain ⟨old, foundBefore, same⟩ := keeps.row_before found
  rw [← sourceRecordId_of_undecided same]
  exact keeps.madeFrom (ready old foundBefore)

theorem consistent_markStagedCommitted (consistent : Consistent store)
    (ready : Ready store stagedId transaction) :
    Consistent (store.markStagedCommitted stagedId transaction) := by
  refine @consistent_setStaged store stagedId _ _ store.decisions consistent (fun _ => rfl)
    (fun _ member => Or.inl member) fun row found _ => ?_
  have made := ready row found
  exact ⟨transaction, rfl, consistent.exists_of_madeFrom made, made⟩

/-! ### Planning and dispatching -/

theorem Consistent.operations (consistent : Consistent store) (operations : List OperationRow) :
    Consistent { store with operations } :=
  ⟨consistent.linked, consistent.decided, consistent.marked⟩

/-! ### The world -/

/-- No row has made two transactions, and what a row has made is the transaction derived from
it. -/
structure ImportSound (world : ImportWorld) : Prop where
  consistent : Consistent world.store
  madeOf : ∀ pair ∈ world.made, world.store.exists? pair.2 ∧
    ∃ row batch, world.store.staged.find pair.1 = some row ∧
      world.store.transactionIdOf row = .ok (batch, pair.2)
  once : (world.made.map Prod.fst).Nodup

/-- Tables in which nothing has been made yet by the calls to come. -/
def ImportWorld.opened (store : ImportStore) : ImportWorld := ⟨store, [], []⟩

namespace ImportSound

variable {world : ImportWorld} {planned : List (Nat × Uuid)}

theorem opened (consistent : Consistent store) : ImportSound (.opened store) :=
  ⟨consistent, fun _ member => (by cases member), List.nodup_nil⟩

theorem madeOf_keeps (sound : ImportSound world) (keeps : Keeps world.store after)
    {pair : Uuid × TransactionId} (member : pair ∈ world.made) : after.exists? pair.2 ∧
      ∃ row batch, after.staged.find pair.1 = some row ∧
        after.transactionIdOf row = .ok (batch, pair.2) := by
  obtain ⟨present, row, batch, found, derived⟩ := sound.madeOf pair member
  obtain ⟨now, foundAfter, same⟩ := keeps.row found
  exact ⟨keeps.transactions _ present, now, batch, foundAfter,
    (keeps.transactionIdOf same).trans derived⟩

/-- A step that makes nothing. -/
theorem keep (sound : ImportSound world) (keeps : Keeps world.store after)
    (consistent : Consistent after) : ImportSound { world with store := after, planned } :=
  ⟨consistent, fun _ member => sound.madeOf_keeps keeps member, sound.once⟩

theorem make (sound : ImportSound world) (keeps : Keeps world.store after)
    (consistent : Consistent after) {planned' : PlannedCommit}
    (plannedFor : PlannedFor world.store planned')
    (absent : ¬ world.store.exists? planned'.transactionId)
    (present : after.exists? planned'.transactionId) :
    ImportSound { world with
      store := after, planned
      made := world.made ++ [(planned'.stagedId, planned'.transactionId)] } := by
  obtain ⟨-, row, batch, found, derived, -⟩ := id plannedFor
  refine ⟨consistent, fun pair member => ?_, ?_⟩
  · obtain old | new := List.mem_append.mp member
    · exact sound.madeOf_keeps keeps old
    · obtain rfl := List.mem_singleton.mp new
      obtain ⟨-, now, batch, foundAfter, derived, -⟩ := plannedFor.keeps keeps
      exact ⟨present, now, batch, foundAfter, derived⟩
  · rw [List.map_append, List.map_singleton]
    refine List.nodup_append.mpr ⟨sound.once, List.nodup_singleton _, ?_⟩
    rintro made member other single rfl
    rw [List.mem_singleton.mp single] at member
    obtain ⟨pair, inside, same⟩ := List.mem_map.mp member
    obtain ⟨there, other, otherBatch, foundOther, derivedOther⟩ := sound.madeOf pair inside
    rw [same] at foundOther
    obtain rfl := Option.some.inj (foundOther.symm.trans found)
    obtain ⟨-, named⟩ := Prod.mk.inj (Except.ok.inj (derivedOther.symm.trans derived))
    exact absent (named ▸ there)

end ImportSound

/-- The dispatch of a commit does not pass over a transaction that was not made from the command's
own record: because the key ran already, or because the transaction exists already. -/
def DispatchedWell (store : ImportStore) (commandMeta : ImportMeta) (command : CommitImported) :
    Prop :=
  (store.findByIdempotencyKey commandMeta.idempotencyKey).isSome ∨
      store.exists? command.transactionId →
    store.madeFrom command.transactionId command.sourceRecordId = true

instance (store : ImportStore) (commandMeta : ImportMeta) (command : CommitImported) :
    Decidable (DispatchedWell store commandMeta command) :=
  inferInstanceAs (Decidable (_ ∨ _ → _))

/-- Every commit is dispatched well. -/
def careful (libraries : ImportLibraries) : Condition (importing libraries) where
  serve _ _ _ request world := ∀ commandMeta command stagedId,
    request = .dispatch commandMeta (.commitImported command) stagedId →
      DispatchedWell world.store commandMeta command
  move _ _ _ := True

theorem keep_unchanged {world : ImportWorld} (sound : ImportSound world)
    (planned : List (Nat × Uuid)) : ImportSound { world with planned } :=
  ⟨sound.consistent, sound.madeOf, sound.once⟩

theorem ready_of_plan {force : Bool} (planned : store.planStaged libraries stagedId force =
      .ok (.alreadyCommitted stagedId transaction)) : Ready store stagedId transaction := by
  obtain ⟨-, row, batch, planning, -, made⟩ := planStaged_eq_alreadyCommitted planned
  intro other found
  obtain rfl := Option.some.inj (planning.found.symm.trans found)
  exact made

theorem plan_sound {world : ImportWorld} {owner : Nat} {key : String} {force : Bool}
    (sound : ImportSound world) (choice : ImportChoice) :
    ImportSound (world.serve libraries owner choice (.plan key stagedId force)).2 := by
  cases planned : world.store.planUnderLock libraries key stagedId force with
  | mk answer store =>
    simp only [ImportWorld.serve, planned]
    obtain ⟨rfl, -⟩ | ⟨-, transaction, marking, rfl⟩ := planUnderLock_eq planned
    · exact keep_unchanged sound _
    · exact sound.keep (keeps_markStagedCommitted _ _ _)
        (consistent_markStagedCommitted sound.consistent (ready_of_plan marking))

theorem dispatch_sound {world : ImportWorld} {planned : PlannedCommit} {outcome : Outcome}
    (sound : ImportSound world) (plannedFor : PlannedFor world.store planned)
    (well : DispatchedWell world.store commandMeta planned.command)
    (done : world.store.dispatch libraries commandMeta (.commitImported planned.command) =
      .ok (outcome, after)) (others : List (Nat × Uuid)) :
    Ready after planned.stagedId planned.transactionId ∧
      ImportSound { world with
        store := after, planned := others
        made := world.made ++ makes world.store after (.commitImported planned.command)
          (some planned.stagedId) } := by
  obtain ⟨named, row, batch, found, derived, record⟩ := id plannedFor
  have ready : ∀ {store}, Keeps world.store store →
      store.madeFrom planned.transactionId row.sourceRecordId = true →
      Ready store planned.stagedId planned.transactionId := by
    intro store keeps made other foundOther
    obtain ⟨now, foundNow, same⟩ := keeps.row found
    obtain rfl := Option.some.inj (foundNow.symm.trans foundOther)
    rwa [sourceRecordId_of_undecided same]
  obtain ⟨operations, ⟨passed, rfl⟩ | ⟨written, made, rfl⟩⟩ := dispatch_commit_eq_ok done
  · have keeps := keeps_operations world.store operations
    have madeBefore := well passed
    rw [named, record] at madeBefore
    rw [makes_of_same, List.append_nil]
    exact ⟨ready keeps madeBefore,
      sound.keep keeps (sound.consistent.operations operations)⟩
  · have keeps := made.keeps.trans (keeps_operations written operations)
    have absent : ¬ world.store.exists? planned.command.transactionId := made.absent
    have present : written.exists? planned.command.transactionId :=
      (made.exists_iff _).mpr (Or.inl rfl)
    have madeFrom := made.made
    rw [makes_of_made made, named]
    rw [named] at absent present madeFrom
    rw [record] at madeFrom
    exact ⟨ready keeps madeFrom,
      sound.make keeps ((consistent_makes sound.consistent made).operations operations)
        plannedFor absent present⟩

theorem preserved_careful : Preserved libraries (careful libraries) ImportSound Ready where
  keeps _ _ _ _ keeps ready := ready.keeps keeps
  ofPlan _ _ _ _ planned := ready_of_plan planned
  plan _ _ choice _ _ _ _ sound _ := plan_sound sound choice
  dispatch _ _ _ commandMeta planned _ sound plannedFor _ meets _ _ done :=
    dispatch_sound sound plannedFor (meets commandMeta planned.command _ rfl) done _
  mark _ _ _ sound ready := sound.keep (keeps_markStagedCommitted _ _ _)
    (consistent_markStagedCommitted sound.consistent ready)
  recordFlag _ _ _ _ sound done := sound.keep (keeps_recordFlag done)
    (consistent_recordFlag sound.consistent done)
  skip _ _ _ _ sound done := sound.keep (keeps_skipStaged done)
    (consistent_skipStaged sound.consistent done)
  void _ _ _ _ operations sound done :=
    sound.keep ((keeps_applyVoidTransaction done).trans (keeps_operations _ operations))
      ((consistent_applyVoidTransaction sound.consistent done).operations operations)
  drop _ _ sound := keep_unchanged sound _

end Dohflow.DbWorker
