/-
This file is about what a sync returns where the provider answers every window with just the
transactions of its accounts that fall into it.

The windows overlap, so a transaction may arrive more than once, and in any order. What a sync
keeps of them is the first of every account and id (`Collects.addTransaction`), and as a provider
lists a transaction under its id only, this is every transaction of some window, once. With what
the windows cover, `exists_fullSync` says what the records of a sync are, and
`once_each_iff` when they are all that they should be.
-/

import Dohflow.Connectors.TransactionSync
import Dohflow.Foundation.FirstSeen

namespace Dohflow.Connectors

open Fallible FirstSeen

variable {limits : DateLimits} {libraries : SyncLibraries limits}

/-! ### The provider -/

/-- The transactions of an account, each with it. -/
def FullAccount.entries (account : FullAccount) : List (WireAccount × WireTransaction) :=
  account.transactions.map fun transaction => (account.toWireAccount, transaction)

/-- What tells transactions apart. -/
def entryKey (entry : WireAccount × WireTransaction) : String × String :=
  (accountKey entry.1, entry.2.id)

variable (limits) in
/-- The balance of an account, with its key. -/
def balanceEntry (account : FullAccount) : Option (String × ParsedBalance limits) :=
  match mapBalance limits account with
  | .ok balance => some (accountKey account.toWireAccount, balance)
  | .error _ => none

/-- The accounts of a provider with all their transactions, which can be staged. -/
structure SyncProvider (libraries : SyncLibraries limits) where
  accounts : List FullAccount
  distinctAccounts : (accounts.map fun account => accountKey account.toWireAccount).Nodup
  distinctIds : ∀ account ∈ accounts, (account.transactions.map WireTransaction.id).Nodup
  mapped : ∀ account ∈ accounts, ∀ transaction ∈ account.transactions,
    ∃ record, mapTransaction libraries account.toWireAccount transaction 0 = .ok record
  balanced : ∀ account ∈ accounts, ∃ balance, mapBalance limits account = .ok balance

/-- A moment lies in a window. -/
def Within (window : Int × Int) (seconds : Int) : Prop := window.1 ≤ seconds ∧ seconds < window.2

instance decidableWithin (window : Int × Int) (seconds : Int) : Decidable (Within window seconds) :=
  inferInstanceAs (Decidable (_ ∧ _))

/-- An account in the response to a window lists its transactions of the window, in any order. -/
structure AnswersAccount (window : Int × Int) (account given : FullAccount) : Prop where
  same : given.toWireAccount = account.toWireAccount
  balance : given.balance = account.balance
  balanceDate : given.balanceDate = account.balanceDate
  transactions : given.transactions.Perm
    (account.transactions.filter fun transaction => Within window transaction.posted)

/-- A response to a window reports no error and has all accounts, in any order. -/
structure Answers (provider : SyncProvider libraries) (window : Int × Int) (set : FullSet) :
    Prop where
  noErrors : set.errors = []
  noErrlist : set.errlist = []
  accounts : ∃ listed, set.accounts.Perm listed ∧
    List.Forall₂ (AnswersAccount window) provider.accounts listed

namespace SyncProvider

variable (provider : SyncProvider libraries)

def entries : List (WireAccount × WireTransaction) := provider.accounts.flatMap FullAccount.entries

def balances : List (String × ParsedBalance limits) :=
  provider.accounts.filterMap (balanceEntry limits)

/-- The transactions of a span. -/
def entriesWithin (window : Int × Int) : List (WireAccount × WireTransaction) :=
  provider.entries.filter fun entry => Within window entry.2.posted

variable {provider} {entry : WireAccount × WireTransaction}

theorem mem_entries : entry ∈ provider.entries ↔ ∃ account ∈ provider.accounts,
    ∃ transaction ∈ account.transactions, (account.toWireAccount, transaction) = entry := by
  simp only [entries, FullAccount.entries, List.mem_flatMap, List.mem_map]

theorem mem_entriesWithin {window : Int × Int} :
    entry ∈ provider.entriesWithin window ↔
      entry ∈ provider.entries ∧ Within window entry.2.posted := by
  rw [entriesWithin, List.mem_filter, decide_eq_true_iff]

theorem mapped_of_mem (member : entry ∈ provider.entries) :
    ∃ record, mapTransaction libraries entry.1 entry.2 0 = .ok record := by
  obtain ⟨account, listed, transaction, inside, rfl⟩ := mem_entries.mp member
  exact provider.mapped account listed transaction inside

theorem nodup_entries (provider : SyncProvider libraries) :
    (provider.entries.map entryKey).Nodup := by
  rw [entries, List.map_flatMap, List.nodup_flatMap]
  constructor
  · intro account listed
    rw [FullAccount.entries, List.map_map]
    exact List.Nodup.of_map Prod.snd (by
      rw [List.map_map]
      exact provider.distinctIds account listed)
  · refine (List.pairwise_map.mp provider.distinctAccounts).imp fun {account other} apart => ?_
    refine List.disjoint_left.mpr ?_
    rintro key inside otherInside
    simp only [FullAccount.entries, List.map_map, List.mem_map, Function.comp_apply, entryKey]
      at inside otherInside
    obtain ⟨transaction, -, rfl⟩ := inside
    obtain ⟨otherTransaction, -, same⟩ := otherInside
    exact apart (Prod.mk.inj same).1.symm

theorem balanceEntry_eq_some {account : FullAccount} {entry : String × ParsedBalance limits} :
    balanceEntry limits account = some entry ↔
      accountKey account.toWireAccount = entry.1 ∧ mapBalance limits account = .ok entry.2 := by
  unfold balanceEntry
  cases mapBalance limits account with
  | ok balance => simp only [Option.some.injEq, Prod.ext_iff, Except.ok.injEq]
  | error reason => simp only [reduceCtorEq, and_false]

theorem balances_eq (provider : SyncProvider libraries) :
    provider.balances.map Prod.fst =
        (provider.accounts.map fun account => accountKey account.toWireAccount) ∧
      provider.balances.map (fun entry => Except.ok entry.2) =
        provider.accounts.map (mapBalance limits) := by
  have found : ∀ account ∈ provider.accounts, ∃ balance, mapBalance limits account = .ok balance :=
    provider.balanced
  rw [balances]
  generalize provider.accounts = accounts at found
  induction accounts with
  | nil => exact ⟨rfl, rfl⟩
  | cons account rest inductionHypothesis =>
    obtain ⟨balance, mapped⟩ := found account List.mem_cons_self
    obtain ⟨keys, values⟩ :=
      inductionHypothesis fun other member => found other (List.mem_cons_of_mem _ member)
    have entry : balanceEntry limits account = some (accountKey account.toWireAccount, balance) :=
      balanceEntry_eq_some.mpr ⟨rfl, mapped⟩
    rw [List.filterMap_cons_some entry]
    simp only [List.map_cons, keys, values, mapped, and_self]

end SyncProvider

/-! ### What a response lists -/

section Response

variable {provider : SyncProvider libraries} {window : Int × Int} {set : FullSet}

theorem Answers.mem_accounts (answers : Answers provider window set) {given : FullAccount}
    (member : given ∈ set.accounts) :
    ∃ account ∈ provider.accounts, AnswersAccount window account given := by
  obtain ⟨listed, same, answered⟩ := answers.accounts
  obtain ⟨index, inside, rfl⟩ := List.mem_iff_getElem.mp (same.mem_iff.mp member)
  have listedIn : index < provider.accounts.length := answered.length_eq ▸ inside
  exact ⟨_, List.getElem_mem listedIn, (List.forall₂_iff_get.mp answered).2 index listedIn inside⟩

theorem Answers.exists_given (answers : Answers provider window set) {account : FullAccount}
    (member : account ∈ provider.accounts) :
    ∃ given ∈ set.accounts, AnswersAccount window account given := by
  obtain ⟨listed, same, answered⟩ := answers.accounts
  obtain ⟨index, inside, rfl⟩ := List.mem_iff_getElem.mp member
  have listedIn : index < listed.length := answered.length_eq ▸ inside
  exact ⟨_, same.mem_iff.mpr (List.getElem_mem listedIn),
    (List.forall₂_iff_get.mp answered).2 index inside listedIn⟩

theorem Answers.mem_entries (answers : Answers provider window set)
    {entry : WireAccount × WireTransaction} :
    entry ∈ set.accounts.flatMap FullAccount.entries ↔ entry ∈ provider.entriesWithin window := by
  simp only [SyncProvider.mem_entriesWithin, SyncProvider.mem_entries, List.mem_flatMap,
    FullAccount.entries, List.mem_map]
  constructor
  · rintro ⟨given, member, transaction, inside, rfl⟩
    obtain ⟨account, listed, answered⟩ := answers.mem_accounts member
    rw [answered.transactions.mem_iff, List.mem_filter, decide_eq_true_iff] at inside
    exact ⟨⟨account, listed, transaction, inside.1, by rw [answered.same]⟩, inside.2⟩
  · rintro ⟨⟨account, listed, transaction, inside, rfl⟩, within⟩
    obtain ⟨given, member, answered⟩ := answers.exists_given listed
    refine ⟨given, member, transaction, ?_, by rw [answered.same]⟩
    rw [answered.transactions.mem_iff, List.mem_filter, decide_eq_true_iff]
    exact ⟨inside, within⟩

theorem AnswersAccount.balanceEntry_eq {account given : FullAccount}
    (answered : AnswersAccount window account given) :
    balanceEntry limits given = balanceEntry limits account := by
  unfold balanceEntry mapBalance
  rw [answered.same, answered.balance, answered.balanceDate]

theorem Answers.mem_balances (answers : Answers provider window set)
    {entry : String × ParsedBalance limits} :
    entry ∈ set.accounts.filterMap (balanceEntry limits) ↔ entry ∈ provider.balances := by
  rw [SyncProvider.balances, List.mem_filterMap, List.mem_filterMap]
  constructor
  · rintro ⟨given, member, found⟩
    obtain ⟨account, listed, answered⟩ := answers.mem_accounts member
    exact ⟨account, listed, answered.balanceEntry_eq.symm.trans found⟩
  · rintro ⟨account, listed, found⟩
    obtain ⟨given, member, answered⟩ := answers.exists_given listed
    exact ⟨given, member, answered.balanceEntry_eq.trans found⟩

end Response

/-! ### What a walk collects -/

variable {state : FullWalk limits} {kept : List (WireAccount × WireTransaction)}

variable (libraries) in
/-- A walk has a record for each of the transactions that it keeps, in their order. -/
structure Collects (state : FullWalk limits) (kept : List (WireAccount × WireTransaction)) :
    Prop where
  records : state.records.map Except.ok =
    kept.zipIdx.map fun placed => mapTransaction libraries placed.1.1 placed.1.2 placed.2
  seen : state.seen = kept.map entryKey
  txnIndex : state.txnIndex = kept.length

theorem Collects.addTransaction {account : WireAccount} {transaction : WireTransaction}
    (collects : Collects libraries state kept)
    (mapped : ∃ record, mapTransaction libraries account transaction 0 = .ok record) :
    Collects libraries (state.addTransaction libraries account transaction)
      (keep entryKey kept (account, transaction)) := by
  unfold FullWalk.addTransaction keep
  dsimp only
  rw [collects.seen]
  by_cases met : entryKey (account, transaction) ∈ kept.map entryKey
  · rw [if_pos met, if_pos (show (accountKey account, transaction.id) ∈ _ from met)]
    exact collects
  · rw [if_neg met, if_neg (show (accountKey account, transaction.id) ∉ _ from met)]
    obtain ⟨record, staged⟩ := exists_mapTransaction mapped kept.length
    rw [collects.txnIndex, staged]
    dsimp only
    refine ⟨?_, ?_, ?_⟩
    · rw [List.map_append, collects.records, List.zipIdx_append, List.map_append]
      simp only [List.zipIdx_cons, List.zipIdx_nil, List.map_cons, List.map_nil, zero_add, staged]
    · rw [List.map_append]
      rfl
    · rw [List.length_append]
      rfl

theorem Collects.addBalance (collects : Collects libraries state kept) (account : FullAccount) :
    Collects libraries (state.addBalance account) kept := by
  unfold FullWalk.addBalance
  split
  · exact ⟨collects.records, collects.seen, collects.txnIndex⟩
  · exact ⟨collects.records, collects.seen, collects.txnIndex⟩

theorem Collects.addTransactions {account : WireAccount} {transactions : List WireTransaction}
    (collects : Collects libraries state kept)
    (mapped : ∀ transaction ∈ transactions,
      ∃ record, mapTransaction libraries account transaction 0 = .ok record) :
    Collects libraries (transactions.foldl (FullWalk.addTransaction libraries account) state)
      ((transactions.map fun transaction => (account, transaction)).foldl (keep entryKey) kept) := by
  induction transactions generalizing state kept with
  | nil => exact collects
  | cons first rest inductionHypothesis =>
    exact inductionHypothesis (collects.addTransaction (mapped first List.mem_cons_self))
      fun other member => mapped other (List.mem_cons_of_mem _ member)

theorem Collects.addAccount {account : FullAccount} (collects : Collects libraries state kept)
    (mapped : ∀ entry ∈ account.entries,
      ∃ record, mapTransaction libraries entry.1 entry.2 0 = .ok record) (set : AccountSet) :
    Collects libraries (state.addAccount libraries set account)
      (account.entries.foldl (keep entryKey) kept) := by
  rw [FullAccount.entries, List.forall_mem_map] at mapped
  refine Collects.addTransactions ?_ mapped
  refine Collects.addBalance ?_ account
  exact ⟨collects.records, collects.seen, collects.txnIndex⟩

theorem Collects.addAccounts {accounts : List FullAccount}
    (collects : Collects libraries state kept)
    (mapped : ∀ entry ∈ accounts.flatMap FullAccount.entries,
      ∃ record, mapTransaction libraries entry.1 entry.2 0 = .ok record) (set : AccountSet) :
    Collects libraries (accounts.foldl (FullWalk.addAccount libraries set) state)
      ((accounts.flatMap FullAccount.entries).foldl (keep entryKey) kept) := by
  induction accounts generalizing state kept with
  | nil => exact collects
  | cons first rest inductionHypothesis =>
    rw [List.flatMap_cons] at mapped
    rw [List.flatMap_cons, List.foldl_append]
    exact inductionHypothesis
      (collects.addAccount (fun entry member => mapped entry (List.mem_append_left _ member)) set)
      fun entry member => mapped entry (List.mem_append_right _ member)

/-- Insert a balance with its key. -/
def insertEntry (latest : List (String × ParsedBalance limits))
    (entry : String × ParsedBalance limits) : List (String × ParsedBalance limits) :=
  FullWalk.insertBalance latest entry.1 entry.2

theorem latestBalance_addTransactions (account : WireAccount)
    (transactions : List WireTransaction) (state : FullWalk limits) :
    (transactions.foldl (FullWalk.addTransaction libraries account) state).latestBalance =
      state.latestBalance := by
  induction transactions generalizing state with
  | nil => rfl
  | cons first rest inductionHypothesis =>
    rw [List.foldl_cons, inductionHypothesis, FullWalk.addTransaction]
    dsimp only
    split_ifs
    · rfl
    · split
      · rfl
      · rfl

theorem latestBalance_addAccounts (set : AccountSet) (accounts : List FullAccount)
    (state : FullWalk limits) :
    (accounts.foldl (FullWalk.addAccount libraries set) state).latestBalance =
      (accounts.filterMap (balanceEntry limits)).foldl insertEntry state.latestBalance := by
  induction accounts generalizing state with
  | nil => rfl
  | cons account rest inductionHypothesis =>
    rw [List.foldl_cons, inductionHypothesis, FullWalk.addAccount, latestBalance_addTransactions,
      FullWalk.addBalance]
    cases mapped : mapBalance limits account with
    | ok balance =>
      have entry : balanceEntry limits account =
          some (accountKey account.toWireAccount, balance) :=
        SyncProvider.balanceEntry_eq_some.mpr ⟨rfl, mapped⟩
      rw [List.filterMap_cons_some entry]
      rfl
    | error reason =>
      have noEntry : balanceEntry limits account = none := by rw [balanceEntry, mapped]
      rw [List.filterMap_cons_none noEntry]
      rfl

theorem insertEntry_eq_keep {latest : List (String × ParsedBalance limits)}
    {entry : String × ParsedBalance limits}
    (single : ∀ other ∈ latest, other.1 = entry.1 → other = entry) :
    insertEntry latest entry = keep Prod.fst latest entry := by
  unfold insertEntry FullWalk.insertBalance keep
  split_ifs with held
  · refine (List.map_congr_left fun other member => ?_).trans (List.map_id _)
    split_ifs with same
    · exact (single other member same).symm
    · rfl
  · rfl

theorem foldl_insertEntry {latest received : List (String × ParsedBalance limits)}
    (single : ∀ first ∈ latest ++ received, ∀ second ∈ latest ++ received,
      first.1 = second.1 → first = second) :
    received.foldl insertEntry latest = received.foldl (keep Prod.fst) latest := by
  induction received generalizing latest with
  | nil => rfl
  | cons first rest inductionHypothesis =>
    rw [List.foldl_cons, List.foldl_cons, insertEntry_eq_keep fun other member =>
      single other (List.mem_append_left _ member) first
        (List.mem_append_right _ List.mem_cons_self)]
    refine inductionHypothesis fun one oneIn other otherIn => ?_
    exact single one (mem_of_mem_keep_append oneIn) other (mem_of_mem_keep_append otherIn)

section Run

variable {provider : SyncProvider libraries} {window : Int × Int} {set : FullSet}
  {fetch : Int × Int → Except ConnectorError FullSet} {windows : List (Int × Int)}

theorem take_answered (answers : Answers provider window set) (state : FullWalk limits) :
    state.take libraries set = .ok (set.accounts.foldl
      (FullWalk.addAccount libraries set.accountSet)
      { state with walk := state.walk.addErrors set.accountSet (splitErrors set.accountSet) }) := by
  have noErrors : (splitErrors set.accountSet).fatal = none := by
    rw [splitErrors, FullSet.accountSet, answers.noErrlist]
    rfl
  rw [FullWalk.take]
  dsimp only
  rw [noErrors]

theorem exists_walk
    (answered : ∀ window ∈ windows, ∃ set, fetch window = .ok set ∧ Answers provider window set)
    (collects : Collects libraries state kept) :
    ∃ (final : FullWalk limits) (met : List (WireAccount × WireTransaction))
      (balances : List (String × ParsedBalance limits)),
      windows.foldlM (walkWindow libraries fetch) state = .ok final ∧
      Collects libraries final (met.foldl (keep entryKey) kept) ∧
      final.latestBalance = balances.foldl insertEntry state.latestBalance ∧
      (∀ entry, entry ∈ met ↔ ∃ window ∈ windows, entry ∈ provider.entriesWithin window) ∧
      ∀ entry, entry ∈ balances ↔ windows ≠ [] ∧ entry ∈ provider.balances := by
  induction windows generalizing state kept with
  | nil =>
    refine ⟨state, [], [], rfl, collects, rfl, fun entry => ?_, fun entry => ?_⟩
    · simp only [List.not_mem_nil, false_and, exists_false]
    · simp only [List.not_mem_nil, ne_eq, not_true_eq_false, false_and]
  | cons window rest inductionHypothesis =>
    obtain ⟨set, fetched, answers⟩ := answered window List.mem_cons_self
    have mapped : ∀ entry ∈ set.accounts.flatMap FullAccount.entries,
        ∃ record, mapTransaction libraries entry.1 entry.2 0 = .ok record := fun entry member =>
      SyncProvider.mapped_of_mem
        (SyncProvider.mem_entriesWithin.mp (answers.mem_entries.mp member)).1
    have start : Collects libraries { state with
        walk := state.walk.addErrors set.accountSet (splitErrors set.accountSet) } kept :=
      ⟨collects.records, collects.seen, collects.txnIndex⟩
    have first := start.addAccounts mapped set.accountSet
    obtain ⟨final, met, balances, ran, keeps, latest, among, balancesAmong⟩ :=
      inductionHypothesis (fun other member => answered other (List.mem_cons_of_mem _ member)) first
    refine ⟨final, set.accounts.flatMap FullAccount.entries ++ met,
      set.accounts.filterMap (balanceEntry limits) ++ balances, ?_, ?_, ?_, fun entry => ?_,
      fun entry => ?_⟩
    · rw [List.foldlM_cons, walkWindow, fetched, ok_bind, take_answered answers, ok_bind]
      exact ran
    · rw [List.foldl_append]
      exact keeps
    · rw [latest, latestBalance_addAccounts, List.foldl_append]
    · rw [List.mem_append, answers.mem_entries, among, List.exists_mem_cons_iff]
    · rw [List.mem_append, answers.mem_balances, balancesAmong]
      have goesOn : window :: rest ≠ [] := List.cons_ne_nil _ _
      tauto

end Run

/-! ### What a sync returns -/

/-- Records of the transactions of a span, one for each, in some order. -/
def TransactionsOnce (provider : SyncProvider libraries) (span : Int × Int)
    (records : List (ParsedRecord limits)) : Prop :=
  ∃ order : List (WireAccount × WireTransaction), order.Perm (provider.entriesWithin span) ∧
    records.map Except.ok =
      order.zipIdx.map fun placed => mapTransaction libraries placed.1.1 placed.1.2 placed.2

/-- Records of the balances, one for each account. -/
def BalancesOnce (provider : SyncProvider libraries) (records : List (ParsedRecord limits)) :
    Prop :=
  ∃ observed : List (ParsedBalance limits),
    (observed.map Except.ok).Perm (provider.accounts.map (mapBalance limits)) ∧
    records = observed.zipIdx.map fun placed => balanceRecord libraries placed.2 placed.1

/-- The windows are short and leave out no date, the records are those of the transactions from the
first window to the end of today and of the balances, each once, and no two have one hash. -/
structure OnceEach (provider : SyncProvider libraries) (since : Option (ChronoDate limits))
    (today : ChronoDate limits) (records : List (ParsedRecord limits)) : Prop where
  narrow : ∀ window ∈ chunkWindows since today, window.2 - window.1 ≤ 45 * 86400
  covers : CoversDates since today
  once : ∃ first ∈ (chunkWindows since today).head?, ∃ transactions balances,
    records = transactions ++ balances ∧
    TransactionsOnce provider (first.1, epochAtMidnight (today.day + 1)) transactions ∧
    BalancesOnce provider balances
  hashes : (records.map ParsedRecord.sourceHash).Nodup

section Sync

variable {provider : SyncProvider libraries}
  {fetch : Int × Int → Except ConnectorError FullSet} {since : Option (ChronoDate limits)}
  {today : ChronoDate limits}

theorem perm_entriesWithin {met : List (WireAccount × WireTransaction)}
    (among : ∀ entry, entry ∈ met ↔
      ∃ window ∈ chunkWindows since today, entry ∈ provider.entriesWithin window) :
    (met.foldl (keep entryKey) []).Perm (provider.entriesWithin
      (epochAtMidnight (startDay since today), epochAtMidnight (endDay today).day)) := by
  have known {entry : WireAccount × WireTransaction} (member : entry ∈ [] ++ met) :
      entry ∈ provider.entries := by
    obtain ⟨window, -, inside⟩ := (among entry).mp member
    exact (SyncProvider.mem_entriesWithin.mp inside).1
  have keptOnce : (met.foldl (keep entryKey) []).Nodup :=
    List.Nodup.of_map entryKey (nodup_kept met)
  have listedOnce := List.Nodup.of_map entryKey provider.nodup_entries
  refine (List.perm_ext_iff_of_nodup keptOnce (listedOnce.filter _)).mpr fun entry => ?_
  rw [mem_foldl_keep fun first firstIn second secondIn => List.inj_on_of_nodup_map
    provider.nodup_entries (known firstIn) (known secondIn), among]
  have covered := @exists_mem_chunkWindows limits since today entry.2.posted
  simp only [List.not_mem_nil, false_or, SyncProvider.mem_entriesWithin]
  constructor
  · rintro ⟨window, member, listed, within⟩
    exact SyncProvider.mem_entriesWithin.mpr ⟨listed, covered.mp ⟨window, member, within⟩⟩
  · intro inside
    obtain ⟨listed, within⟩ := SyncProvider.mem_entriesWithin.mp inside
    obtain ⟨window, member, inWindow⟩ := covered.mpr within
    exact ⟨window, member, listed, inWindow⟩

theorem perm_balances {received : List (String × ParsedBalance limits)}
    (among : ∀ entry, entry ∈ received ↔ entry ∈ provider.balances) :
    (received.foldl insertEntry []).Perm provider.balances := by
  have keys : (provider.balances.map Prod.fst).Nodup :=
    provider.balances_eq.1 ▸ provider.distinctAccounts
  have single : ∀ first ∈ [] ++ received, ∀ second ∈ [] ++ received,
      first.1 = second.1 → first = second := fun first firstIn second secondIn =>
    List.inj_on_of_nodup_map keys ((among first).mp firstIn) ((among second).mp secondIn)
  rw [foldl_insertEntry single]
  have keptOnce : (received.foldl (keep Prod.fst) []).Nodup :=
    List.Nodup.of_map Prod.fst (nodup_kept received)
  refine (List.perm_ext_iff_of_nodup keptOnce (List.Nodup.of_map Prod.fst keys)).mpr fun entry => ?_
  rw [mem_foldl_keep single, among]
  simp only [List.not_mem_nil, false_or]

theorem exists_fullSync (provider : SyncProvider libraries)
    (answered : ∀ window ∈ chunkWindows since today,
      ∃ set, fetch window = .ok set ∧ Answers provider window set) :
    ∃ batch transactions balances, fullSync libraries fetch since today = .ok batch ∧
      batch.records = transactions ++ balances ∧
      TransactionsOnce provider
        (epochAtMidnight (startDay since today), epochAtMidnight (endDay today).day)
        transactions ∧ BalancesOnce provider balances := by
  have start : Collects libraries (FullWalk.empty : FullWalk limits) [] := ⟨rfl, rfl, rfl⟩
  obtain ⟨final, met, received, ran, collects, latest, among, receivedAmong⟩ :=
    exists_walk answered start
  have goesOn : chunkWindows since today ≠ [] := by
    obtain ⟨stop, rest, windows⟩ := head_chunkWindows since today
    rw [windows]
    exact List.cons_ne_nil _ _
  have balances := perm_balances fun entry => (receivedAmong entry).trans (and_iff_right goesOn)
  have synced : fullSync libraries fetch since today = .ok { final.walk.batch with
      since, records := final.records ++
        final.balances.zipIdx.map fun placed => balanceRecord libraries placed.2 placed.1 } := by
    rw [fullSync, ran]
    rfl
  refine ⟨_, final.records, _, synced, rfl, ⟨_, perm_entriesWithin among, collects.records⟩,
    ⟨final.balances, ?_, rfl⟩⟩
  rw [FullWalk.balances, List.map_map, latest, ← provider.balances_eq.2]
  exact ((List.perm_insertionSort _ _).trans balances).map _

end Sync

variable {provider : SyncProvider libraries} {records : List (ParsedRecord limits)}
  {window : Int × Int} {span : Int × Int}

/-! ### Hashes -/

/-- The texts that the records of a provider may be hashed from. -/
inductive SourceText (provider : SyncProvider libraries) : String → Prop
  | transaction {entry : WireAccount × WireTransaction} {index : Nat}
    (listed : entry ∈ provider.entries) (within : index < provider.entries.length) :
    SourceText provider (sourceText index (transactionJson libraries (accountKey entry.1) entry.2))
  | balance {account : FullAccount} {balance : ParsedBalance limits} {index : Nat}
    (listed : account ∈ provider.accounts) (mapped : mapBalance limits account = .ok balance)
    (within : index < provider.accounts.length) :
    SourceText provider (sourceText index (balanceJson libraries balance))

/-- The fingerprint tells the texts of a provider's records apart. -/
def FingerprintsApart (provider : SyncProvider libraries) : Prop :=
  ∀ first second, SourceText provider first → SourceText provider second →
    libraries.contentFingerprint first = libraries.contentFingerprint second → first = second

theorem nodup_sourceTexts {Item : Type} (items : List Item) (json : Item → String) :
    (items.zipIdx.map fun placed => sourceText placed.2 (json placed.1)).Nodup := by
  have places : (items.zipIdx.map Prod.snd).Nodup := by
    rw [List.zipIdx_map_snd]
    exact List.nodup_range'
  exact List.pairwise_map.mpr ((List.pairwise_map.mp places).imp
    fun apart same => apart (sourceText_inj same).1)

theorem map_eq_of_map_ok {Item Failure Record Value : Type} {items : List Item}
    {records : List Record} {stage : Item → Except Failure Record} {view : Record → Value}
    {value : Item → Value} (staged : records.map Except.ok = items.map stage)
    (same : ∀ item record, stage item = .ok record → view record = value item) :
    records.map view = items.map value := by
  induction items generalizing records with
  | nil =>
    rw [List.map_eq_nil_iff.mp staged]
    rfl
  | cons item rest inductionHypothesis =>
    obtain ⟨record, others, rfl, first, later⟩ := List.map_eq_cons_iff.mp staged
    rw [List.map_cons, List.map_cons, same item record first.symm, inductionHypothesis later]

theorem TransactionsOnce.exists_texts (once : TransactionsOnce provider span records) :
    ∃ texts : List String, texts.Nodup ∧
      records.map ParsedRecord.sourceHash = texts.map libraries.contentFingerprint ∧
      ∀ text ∈ texts, SourceText provider text ∧ ∃ index key transaction,
        text = sourceText index (transactionJson libraries key transaction) := by
  obtain ⟨order, same, staged⟩ := once
  have hashes := map_eq_of_map_ok staged fun _ _ mapped => hash_of_mapTransaction mapped
  have distinct := nodup_sourceTexts order fun entry =>
    transactionJson libraries (accountKey entry.1) entry.2
  refine ⟨_, distinct, ?_, ?_⟩
  · rw [hashes, List.map_map]
    rfl
  · intro text member
    obtain ⟨⟨entry, index⟩, placed, rfl⟩ := List.mem_map.mp member
    obtain ⟨within, found⟩ := List.mem_zipIdx' placed
    have listed : entry ∈ provider.entriesWithin span :=
      same.mem_iff.mp (found ▸ List.getElem_mem within)
    have fits : index < provider.entries.length :=
      lt_of_lt_of_le (same.length_eq ▸ within) (List.length_filter_le ..)
    have source := SourceText.transaction (SyncProvider.mem_entriesWithin.mp listed).1 fits
    exact ⟨source, index, _, _, rfl⟩

theorem BalancesOnce.exists_texts (once : BalancesOnce provider records) :
    ∃ texts : List String, texts.Nodup ∧
      records.map ParsedRecord.sourceHash = texts.map libraries.contentFingerprint ∧
      ∀ text ∈ texts, SourceText provider text ∧ ∃ index balance,
        text = sourceText index (balanceJson libraries balance) := by
  obtain ⟨observed, same, rfl⟩ := once
  have distinct := nodup_sourceTexts observed (balanceJson libraries)
  refine ⟨_, distinct, ?_, ?_⟩
  · rw [List.map_map, List.map_map]
    rfl
  · intro text member
    obtain ⟨⟨balance, index⟩, placed, rfl⟩ := List.mem_map.mp member
    obtain ⟨within, found⟩ := List.mem_zipIdx' placed
    have among : balance ∈ observed := found ▸ List.getElem_mem within
    obtain ⟨account, listed, mapped⟩ := List.mem_map.mp
      (same.mem_iff.mp (List.mem_map_of_mem among))
    have lengths := same.length_eq
    rw [List.length_map, List.length_map] at lengths
    have source := SourceText.balance listed mapped (lengths ▸ within)
    exact ⟨source, index, balance, rfl⟩

theorem nodup_hashes (apart : FingerprintsApart provider)
    {transactions balances : List (ParsedRecord limits)}
    (transactionsOnce : TransactionsOnce provider span transactions)
    (balancesOnce : BalancesOnce provider balances) :
    ((transactions ++ balances).map ParsedRecord.sourceHash).Nodup := by
  obtain ⟨texts, distinct, hashes, sources⟩ := transactionsOnce.exists_texts
  obtain ⟨others, othersDistinct, otherHashes, otherSources⟩ := balancesOnce.exists_texts
  rw [List.map_append, hashes, otherHashes, ← List.map_append]
  have source (text : String) (member : text ∈ texts ++ others) : SourceText provider text := by
    rcases List.mem_append.mp member with inside | inside
    · exact (sources text inside).1
    · exact (otherSources text inside).1
  refine List.Nodup.map_on (fun first firstIn second secondIn =>
    apart first second (source first firstIn) (source second secondIn))
    (List.nodup_append.mpr ⟨distinct, othersDistinct, fun text inside other otherInside same => ?_⟩)
  obtain ⟨index, key, transaction, spelled⟩ := (sources text inside).2
  obtain ⟨otherIndex, balance, otherSpelled⟩ := (otherSources other otherInside).2
  have json := (sourceText_inj (spelled.symm.trans (same.trans otherSpelled))).2
  exact transactionJson_ne_balanceJson json

/-! ### When all is seen once -/

/-- A sync that is answered returns, and sees every date and every transaction once just where
today is not the last date and the first day that it should cover is a date. -/
theorem once_each_iff {limits : DateLimits} {libraries : SyncLibraries limits}
    (provider : SyncProvider libraries) (since : Option (ChronoDate limits))
    (today : ChronoDate limits) (fetch : Int × Int → Except ConnectorError FullSet)
    (answered : ∀ window ∈ chunkWindows since today,
      ∃ set, fetch window = .ok set ∧ Answers provider window set)
    (apart : FingerprintsApart provider) :
    ∃ batch, fullSync libraries fetch since today = .ok batch ∧
      (OnceEach provider since today batch.records ↔ WithinCalendar since today) := by
  obtain ⟨batch, transactions, balances, synced, records, transactionsOnce, balancesOnce⟩ :=
    exists_fullSync provider answered
  refine ⟨batch, synced, fun once => covers_chunkWindows_iff.mp once.covers, fun within => ?_⟩
  obtain ⟨stop, rest, windows⟩ := head_chunkWindows since today
  have tomorrow : (endDay today).day = today.day + 1 := by rw [day_endDay, if_pos within.1]
  rw [tomorrow] at transactionsOnce
  refine ⟨fun window member => (mem_chunkWindows member).2.2.2,
    covers_chunkWindows_iff.mpr within, ⟨(epochAtMidnight (startDay since today), stop), ?_,
      transactions, balances, records, transactionsOnce, balancesOnce⟩, ?_⟩
  · rw [windows]
    rfl
  · rw [records]
    exact nodup_hashes apart transactionsOnce balancesOnce

/-! ### Samples -/

/-- The dates of the library go from the year -262143 to the year 262142. -/
def chronoLimits : DateLimits := ⟨-96465292, 95026236⟩

def lastDate : ChronoDate chronoLimits := ⟨95026236, by decide⟩

def sampleBalanceText : String :=
  "0:\x7b\"observed_at\":\"2026-08-21\",\"amount\":\x7b\"minor_" ++
  "units\":10023,\"currency\":\"USD\",\"currency_exponent\":2" ++
  "\x7d,\"external_account\":\"CON-1/ACT-1\"\x7d"

def sampleTransactionText : String :=
  "0:\x7b\"account_key\":\"CON-1/ACT-1\",\"txn_id\":\"TXN-1\"," ++
  "\"posted\":1787313600,\"amount\":\"-5.00\",\"description\":" ++
  "\"Coffee\",\"transacted_at\":null\x7d"

/-- The fingerprint as it is on the texts of the samples. -/
def sampleFingerprint (text : String) : String :=
  if text = sampleBalanceText then
    "sha256:e38877292a0f092bd4f9114086efb4b6cab7d063bb970075061a9ebb53d77ccf"
  else if text = sampleTransactionText then
    "sha256:a2832db1f0df10f3c7e31d2092a0fa300564694b55a09d463eee848a8d891356"
  else "sha256:1c7260b4d28b1b48cfa29f897d7c40fac2ad45131594cb87be2fd7f966e94833"

theorem sampleFingerprint_ne {text : String} (other : text ≠ sampleBalanceText) :
    sampleFingerprint text ≠ sampleFingerprint sampleBalanceText := by
  unfold sampleFingerprint
  rw [if_neg other, if_pos rfl]
  split_ifs
  · decide
  · decide

def sampleLibraries : SyncLibraries chronoLimits where
  dayText date := if date.day = 20686 then "2026-08-21" else "+262142-12-31"
  jsonString text := "\"" ++ text ++ "\""
  contentFingerprint := sampleFingerprint

def sampleTransaction (posted : Int) : WireTransaction :=
  ⟨"TXN-1", posted, "-5.00", "Coffee", false, none⟩

def sampleAccount (transactions : List WireTransaction) : FullAccount where
  id := "ACT-1"
  name := "Checking"
  currency := "USD"
  org := none
  connId := some "CON-1"
  balance := "100.23"
  balanceDate := 1787313600
  transactions

def sampleBalance : ParsedBalance chronoLimits :=
  ⟨⟨20686, by decide⟩, ⟨10023, .usd⟩, some "CON-1/ACT-1"⟩

theorem mapBalance_sampleAccount (transactions : List WireTransaction) :
    mapBalance chronoLimits (sampleAccount transactions) = .ok sampleBalance := by
  have same : mapBalance chronoLimits (sampleAccount transactions) =
    mapBalance chronoLimits (sampleAccount []) := rfl
  rw [same]
  decide +kernel

/-- One account with one transaction. -/
def singleProvider (posted : Int) (dated : (usableDate chronoLimits posted).isSome) :
    SyncProvider sampleLibraries where
  accounts := [sampleAccount [sampleTransaction posted]]
  distinctAccounts := List.nodup_singleton _
  distinctIds := List.forall_mem_singleton.mpr (List.nodup_singleton _)
  mapped := List.forall_mem_singleton.mpr (List.forall_mem_singleton.mpr
    ⟨_, mapTransaction_eq_ok.mpr ⟨rfl, _, (Option.some_get dated).symm, .usd,
      (by decide +kernel : currencyFromCode "USD" = some .usd),
      -500, (by decide +kernel : parseAmountMinor "-5.00" 2 = some (-500)), by decide, rfl⟩⟩)
  balanced := List.forall_mem_singleton.mpr ⟨_, mapBalance_sampleAccount _⟩

/-- The response that lists some transactions of the account. -/
def sampleSet (transactions : List WireTransaction) : FullSet :=
  ⟨[], [], [], [sampleAccount transactions]⟩

theorem answers_sampleSet {posted : Int} {dated : (usableDate chronoLimits posted).isSome}
    {transactions : List WireTransaction}
    (listed : transactions = [sampleTransaction posted].filter fun transaction =>
      Within window transaction.posted) :
    Answers (singleProvider posted dated) window (sampleSet transactions) :=
  ⟨rfl, rfl, _, List.Perm.refl _, .cons ⟨rfl, rfl, rfl, listed ▸ List.Perm.refl _⟩ .nil⟩

theorem fingerprintsApart_single (posted : Int)
    (dated : (usableDate chronoLimits posted).isSome) :
    FingerprintsApart (singleProvider posted dated) := by
  have texts {text : String} (source : SourceText (singleProvider posted dated) text) :
      text = sourceText 0 (transactionJson sampleLibraries "CON-1/ACT-1"
        (sampleTransaction posted)) ∨
      text = sourceText 0 (balanceJson sampleLibraries sampleBalance) := by
    cases source with
    | transaction listed within =>
      obtain rfl := List.mem_singleton.mp listed
      obtain rfl := Nat.lt_one_iff.mp within
      exact .inl rfl
    | balance listed mapped within =>
      obtain rfl := List.mem_singleton.mp listed
      obtain rfl := Nat.lt_one_iff.mp within
      rw [mapBalance_sampleAccount] at mapped
      obtain rfl := Except.ok.inj mapped
      exact .inr rfl
  have balance : sourceText 0 (balanceJson sampleLibraries sampleBalance) = sampleBalanceText := by
    decide +kernel
  have other : sourceText 0 (transactionJson sampleLibraries "CON-1/ACT-1"
      (sampleTransaction posted)) ≠ sampleBalanceText := by
    intro same
    have json := (sourceText_inj (same.trans balance.symm)).2
    exact transactionJson_ne_balanceJson json
  rw [balance] at texts
  generalize sourceText 0 (transactionJson sampleLibraries "CON-1/ACT-1"
    (sampleTransaction posted)) = transactionText at texts other
  have apart := sampleFingerprint_ne other
  intro first second firstSource secondSource same
  rcases texts firstSource with rfl | rfl <;> rcases texts secondSource with rfl | rfl
  · rfl
  · exact absurd same apart
  · exact absurd same.symm apart
  · rfl

/-- A provider with a transaction of the last date, for which no window asks. -/
def lastProvider : SyncProvider sampleLibraries := singleProvider 8210266790400 (by decide)

theorem answers_lastProvider (member : window ∈ chunkWindows none lastDate) :
    Answers lastProvider window (sampleSet []) := by
  refine answers_sampleSet ?_
  have early : window.2 ≤ 8210266790400 := (mem_chunkWindows member).2.2.1
  have outside : ¬ Within window 8210266790400 := fun within => absurd within.2 (by omega)
  rw [List.filter_singleton, sampleTransaction, decide_eq_false outside]
  rfl

/-- A sync on the last date does not see the transactions of that day. -/
theorem last_date_missed :
    (∀ window ∈ chunkWindows none lastDate, ∃ set,
      (Except.ok (sampleSet []) : Except ConnectorError FullSet) = .ok set ∧
        Answers lastProvider window set) ∧
    FingerprintsApart lastProvider ∧
    ∃ batch, fullSync sampleLibraries (fun _ => .ok (sampleSet [])) none lastDate = .ok batch ∧
      ¬ OnceEach lastProvider none lastDate batch.records := by
  have answered : ∀ window ∈ chunkWindows none lastDate, ∃ set,
      (Except.ok (sampleSet []) : Except ConnectorError FullSet) = .ok set ∧
        Answers lastProvider window set := fun window member =>
    ⟨_, rfl, answers_lastProvider member⟩
  obtain ⟨batch, _, _, synced, -⟩ := exists_fullSync lastProvider answered
  refine ⟨answered, fingerprintsApart_single _ _, batch, synced, fun once => ?_⟩
  have within := covers_chunkWindows_iff.mp once.covers
  exact absurd within.1 (by decide)

def sampleToday : ChronoDate chronoLimits := ⟨20687, by decide⟩

def sampleSince : ChronoDate chronoLimits := ⟨20685, by decide⟩

theorem chunkWindows_sample : chunkWindows (some sampleSince) sampleToday =
    [(epochAtMidnight 20680, epochAtMidnight 20688)] := by
  rw [chunkWindows, chunkLoop]
  rfl

/-- A provider answers the one window of a short walk with its transaction of the day before. -/
theorem sample_once_each :
    ∃ batch, fullSync sampleLibraries (fun _ => .ok (sampleSet [sampleTransaction 1787313600]))
        (some sampleSince) sampleToday = .ok batch ∧
      (OnceEach (singleProvider 1787313600 (by decide)) (some sampleSince) sampleToday
        batch.records ↔ WithinCalendar (some sampleSince) sampleToday) := by
  refine once_each_iff _ _ _ _ (fun window member => ⟨_, rfl, answers_sampleSet ?_⟩)
    (fingerprintsApart_single _ _)
  rw [chunkWindows_sample] at member
  obtain rfl := List.mem_singleton.mp member
  decide

end Dohflow.Connectors
