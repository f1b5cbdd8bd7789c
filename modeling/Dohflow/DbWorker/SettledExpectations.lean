/-
This file proves what a ledger transaction settles after the links are rebuilt.

Two occurrences are never linked by one posting, two entries never to one transaction, and no
entry to the transaction of an occurrence. What is linked is live and matches. An entry takes
the nearest candidate that is free in its turn, and since both tables are written anew from
the others, a second rebuild changes nothing. Only a transaction with two postings on accounts
of the household can be linked by two occurrences.
-/

import Dohflow.DbWorker.LinkRebuilds

namespace Dohflow.DbWorker

open SyncCore CoreLedger Fallible KeyedTable CanonicalOrder GreedyMatching
open PayDates (checkedAddDays checkedSubDays)

variable {libraries : LinkLibraries} {vault after : LinkVault} {today : PayDates.NaiveDate}
variable {entry : ManualEntry} {low high : String} {entries : List ManualEntry} {accountId : Uuid}

/-! ### The instances -/

theorem rows_of_insertAll {Row Key : Type} {key : Row → Key} [DecidableEq Key]
    {table filled : Table key} {rows : List Row} (inserted : insertAll table rows = .ok filled) :
    filled.rows = table.rows ++ rows := by
  induction rows generalizing table with
  | nil =>
    obtain rfl := Except.ok.inj inserted
    exact (List.append_nil _).symm
  | cons row rest inductionHypothesis =>
    obtain ⟨next, added, inserted⟩ := bind_eq_ok.mp inserted
    rw [inductionHypothesis inserted, (Table.insert_eq_some_iff.mp (orMissing_eq_ok.mp added)).2,
      List.append_assoc]
    rfl

/-- A posting of a live transaction on an account of the household. -/
def IsRealized (libraries : LinkLibraries) (vault : LinkVault) (posting : RealizedPosting) : Prop :=
  ∃ entry ∈ vault.transactions.rows, entry.voidedAt = none ∧ entry.id = posting.transactionId ∧
    ∃ side ∈ accountPostings vault entry, side.2.Realizes ∧
      realizedPosting libraries entry side.1 side.2 = .ok posting

theorem isRealized_of_mem {start stop : PayDates.NaiveDate} {postings : List RealizedPosting}
    (read : realizedPostings libraries vault start stop = .ok postings) {posting : RealizedPosting}
    (member : posting ∈ postings) : IsRealized libraries vault posting := by
  obtain ⟨⟨entry, side⟩, joined, made⟩ := PrefixFree.exists_of_mem_mapM read member
  obtain ⟨live, liveIn, sides⟩ := List.mem_flatMap.mp (List.mem_filter.mp joined).1
  obtain ⟨found, sideIn, same⟩ := List.mem_map.mp sides
  obtain ⟨rfl, rfl⟩ := Prod.mk.inj same
  obtain ⟨inside, realizes⟩ := List.mem_filter.mp sideIn
  obtain ⟨stored, current⟩ := List.mem_filter.mp (mem_sortBy.mp liveIn)
  refine ⟨live, stored, (of_decide_eq_true current).1, ?_, found, inside,
    of_decide_eq_true realizes, made⟩
  obtain ⟨date, -, same⟩ := bind_eq_ok.mp made
  rw [← Except.ok.inj same]

/-- An occurrence of an active schedule. -/
def IsPlanned (libraries : LinkLibraries) (vault : LinkVault) (planned : PlannedInstance) : Prop :=
  ∃ start stop, ∃ source ∈ vault.incomeSchedules ++ vault.obligationSchedules,
    ∃ occurrences, occurrencesOf libraries start stop source = .ok occurrences ∧
      planned ∈ occurrences

/-- An instance is linked to a posting of its own that may be linked to its occurrence. -/
structure LinksPostings (libraries : LinkLibraries) (vault after : LinkVault)
    (realized : List RealizedPosting) (place : Nat → Nat) : Prop where
  live : ∀ posting ∈ realized, IsRealized libraries vault posting
  matched : ∀ (index : Nat) (row : InstanceRow) (transaction : Uuid),
    after.instances.rows[index]? = some row → row.linkedTransactionId = some transaction →
    ∃ planned posting, IsPlanned libraries vault planned ∧
      row.recurringEventId = planned.recurringEventId ∧
      row.scheduledDate = libraries.dayText planned.occurrence.scheduledDate ∧
      realized[place index]? = some posting ∧ posting.transactionId = transaction ∧
      Viable planned.occurrence posting
  apart : ∀ (first second : Nat) (row other : InstanceRow),
    after.instances.rows[first]? = some row → after.instances.rows[second]? = some other →
    row.linkedTransactionId.isSome = true → other.linkedTransactionId.isSome = true →
    place first = place second → first = second

theorem linkedAt_eq_some {chosen : List LinkPair} {index : Nat} {transaction : Uuid}
    (linked : linkedAt (chosen.map LinkPair.link) index = some transaction) :
    ∃ pair ∈ chosen, pair.occurrence = index ∧ pair.transactionId = transaction := by
  obtain ⟨link, found, rfl⟩ := Option.map_eq_some_iff.mp linked
  obtain ⟨pair, member, rfl⟩ := List.mem_map.mp (List.mem_of_find?_eq_some found)
  have same := List.find?_some found
  rw [decide_eq_true_eq] at same
  exact ⟨pair, member, same, rfl⟩

theorem linksPostings_of_rebuildInstances
    (rebuilt : rebuildInstances libraries vault today = .ok after) :
    (∃ instances, after = { vault with instances }) ∧
      ∃ realized place, LinksPostings libraries vault after realized place := by
  obtain ⟨start, -, rest⟩ := bind_eq_ok.mp rebuilt
  obtain ⟨stop, -, rest⟩ := bind_eq_ok.mp rest
  obtain ⟨planned, expanded, rest⟩ := bind_eq_ok.mp rest
  obtain ⟨postings, read, rest⟩ := bind_eq_ok.mp rest
  obtain ⟨links, assigned, rest⟩ := bind_eq_ok.mp rest
  obtain ⟨instances, inserted, same⟩ := bind_eq_ok.mp rest
  obtain rfl := Except.ok.inj same
  replace read := mapError_eq_ok.mp read
  have rows := rows_of_insertAll (mapError_eq_ok.mp inserted)
  rw [assignLinks_eq_some (orFail_eq_ok.mp assigned)] at rows
  -- The posting that is chosen for the occurrence in a place.
  let chosen := chosenPairs (planned.map PlannedInstance.occurrence) postings
  let place (index : Nat) : Nat :=
    ((chosen.find? fun pair => pair.occurrence = index).map LinkPair.posting).getD 0
  have possible : ∀ pair ∈ chosen,
      Possible (planned.map PlannedInstance.occurrence) postings pair := fun pair member =>
    mem_possiblePairs.mp (mem_sortBy.mp (mem_of_mem_greedy _ _ member))
  have single : ∀ first ∈ chosen, ∀ second ∈ chosen,
      Meets LinkPair.occurrence LinkPair.posting first second → first = second :=
    fun first firstIn second secondIn => eq_of_meets _ _ firstIn secondIn
  have placed : ∀ pair ∈ chosen, place pair.occurrence = pair.posting := by
    intro pair member
    cases found : chosen.find? fun other => other.occurrence = pair.occurrence with
    | none => simpa using List.find?_eq_none.mp found pair member
    | some other =>
      have same : other.occurrence = pair.occurrence := by simpa using List.find?_some found
      show ((chosen.find? fun other => other.occurrence = pair.occurrence).map _).getD 0 = _
      rw [found, single other (List.mem_of_find?_eq_some found) pair member (.inl same)]
      rfl
  have rowAt : ∀ (index : Nat) (row : InstanceRow), instances.rows[index]? = some row →
      ∃ plan, planned[index]? = some plan ∧
        row = instanceRow libraries today (chosen.map LinkPair.link) plan index := by
    intro index row found
    have all : instances.rows = planned.zipIdx.map fun planned =>
        instanceRow libraries today (chosen.map LinkPair.link) planned.1 planned.2 := rows
    rw [all, List.getElem?_map, List.getElem?_zipIdx] at found
    obtain ⟨indexed, placedAt, made⟩ := Option.map_eq_some_iff.mp found
    obtain ⟨plan, here, rfl⟩ := Option.map_eq_some_iff.mp placedAt
    exact ⟨plan, here, by rw [← made, Nat.zero_add]⟩
  refine ⟨⟨instances, rfl⟩, postings, place, fun posting => isRealized_of_mem read, ?_, ?_⟩
  · intro index row transaction found linked
    obtain ⟨plan, here, rfl⟩ := rowAt index row found
    obtain ⟨pair, member, rfl, rfl⟩ := linkedAt_eq_some linked
    obtain ⟨occurrence, posting, occurrenceAt, postingAt, viable, made⟩ := possible pair member
    rw [List.getElem?_map, here] at occurrenceAt
    obtain rfl := Option.some.inj occurrenceAt
    refine ⟨plan, posting, ?_, rfl, rfl, ?_, ?_, viable⟩
    · obtain ⟨expansions, expand, same⟩ := bind_eq_ok.mp (mapError_eq_ok.mp expanded)
      obtain rfl := Except.ok.inj same
      obtain ⟨occurrences, listed, inside⟩ := List.mem_flatten.mp (List.mem_of_getElem? here)
      obtain ⟨source, active, made⟩ := PrefixFree.exists_of_mem_mapM expand listed
      exact ⟨start, stop, source, active, occurrences, made, inside⟩
    · rw [placed pair member]
      exact postingAt
    · rw [made]
      rfl
  · intro first second row other firstAt secondAt firstLinked secondLinked same
    obtain ⟨plan, -, rfl⟩ := rowAt first row firstAt
    obtain ⟨otherPlan, -, rfl⟩ := rowAt second other secondAt
    obtain ⟨transaction, linked⟩ := Option.isSome_iff_exists.mp firstLinked
    obtain ⟨otherTransaction, otherLinked⟩ := Option.isSome_iff_exists.mp secondLinked
    obtain ⟨pair, member, rfl, -⟩ := linkedAt_eq_some linked
    obtain ⟨otherPair, otherMember, rfl, -⟩ := linkedAt_eq_some otherLinked
    rw [placed pair member, placed otherPair otherMember] at same
    rw [single pair member otherPair otherMember (.inr same)]

/-! ### The entries -/

/-- A transaction that matches an entry: it is live, posts the exact amount to the account of the
entry, and no instance is linked to it. -/
def MatchesEntry (vault : LinkVault) (entry : ManualEntry) (accountId : Uuid)
    (candidate : Candidate) : Prop :=
  ∃ row ∈ vault.transactions.rows, row.id = candidate.transactionId ∧ row.voidedAt = none ∧
    ¬InstanceLinked vault row.id ∧ ∃ side ∈ accountPostings vault row,
      side.2.id = accountId ∧ side.1.minorUnits = entry.amount.minorUnits ∧
      side.2.currency = entry.amount.currency.code ∧ side.1.postingDate = candidate.postingDate

theorem mem_candidatesOf {candidate : Candidate} :
    candidate ∈ candidatesOf vault entry accountId low high ↔
      MatchesEntry vault entry accountId candidate ∧
        low ≤ candidate.postingDate ∧ candidate.postingDate ≤ high := by
  unfold candidatesOf MatchesEntry
  rw [mem_sortBy]
  simp only [List.mem_flatMap, List.mem_map, List.mem_filter, decide_eq_true_eq]
  constructor
  · rintro ⟨row, ⟨stored, live, unlinked⟩, side, ⟨inside, account, amount, currency, after, before⟩,
      rfl⟩
    exact ⟨⟨row, stored, rfl, live, unlinked, side, inside, account, amount, currency, rfl⟩, after,
      before⟩
  · rintro ⟨⟨row, stored, same, live, unlinked, side, inside, account, amount, currency, date⟩,
      after, before⟩
    obtain ⟨transaction, postingDate⟩ := candidate
    obtain rfl := same
    obtain rfl := date
    exact ⟨row, ⟨stored, live, unlinked⟩, side,
      ⟨inside, account, amount, currency, after, before⟩, rfl⟩

/-- The days around an entry within which it is matched, as texts. -/
def WindowOf (libraries : LinkLibraries) (entry : ManualEntry) (low high : String) : Prop :=
  ∃ first last, checkedSubDays entry.occursOn recurringMatchWindowDays.toNat = some first ∧
    checkedAddDays entry.occursOn recurringMatchWindowDays.toNat = some last ∧
    low = libraries.dayText first ∧ high = libraries.dayText last

/-- A candidate that is free: no link so far is to its transaction. -/
def FreeAmong (vault : LinkVault) (links : List EntryLink) (entry : ManualEntry) (accountId : Uuid)
    (low high : String) (candidate : Candidate) : Prop :=
  candidate ∈ candidatesOf vault entry accountId low high ∧
    ∀ link ∈ links, link.linkedTransactionId ≠ candidate.transactionId

theorem linkEntry_eq_ok {links next : Table EntryLink.assumptionEventId}
    (linked : linkEntry libraries vault today links entry = .ok next) :
    (entry.accountId = none ∧ next = links) ∨
    ∃ accountId low high, entry.accountId = some accountId ∧ WindowOf libraries entry low high ∧
      ((next = links ∧ ∀ candidate, ¬FreeAmong vault links.rows entry accountId low high candidate) ∨
      ∃ best, FreeAmong vault links.rows entry accountId low high best ∧
        (∀ other, FreeAmong vault links.rows entry accountId low high other →
          best.key libraries entry ≤ other.key libraries entry) ∧
        next.rows = links.rows ++
          [⟨entry.id, best.transactionId, best.postingDate, libraries.dayText today⟩]) := by
  rw [linkEntry] at linked
  cases account : entry.accountId with
  | none =>
    rw [account] at linked
    exact .inl ⟨rfl, (Except.ok.inj linked).symm⟩
  | some accountId =>
    rw [account] at linked
    obtain ⟨first, low, rest⟩ := bind_eq_ok.mp linked
    obtain ⟨last, high, rest⟩ := bind_eq_ok.mp rest
    refine .inr ⟨accountId, _, _, rfl, ⟨first, last, orFail_eq_ok.mp low, orFail_eq_ok.mp high, rfl,
      rfl⟩, ?_⟩
    have free (candidate : Candidate) :
        candidate ∈ (candidatesOf vault entry accountId (libraries.dayText first)
            (libraries.dayText last)).filter
          (fun candidate => candidate.transactionId ∉ links.rows.map EntryLink.linkedTransactionId) ↔
        FreeAmong vault links.rows entry accountId (libraries.dayText first)
          (libraries.dayText last) candidate := by
      rw [List.mem_filter, decide_eq_true_eq, FreeAmong, List.mem_map]
      simp only [not_exists, not_and]
    dsimp only at rest
    cases found : bestCandidate libraries entry (candidatesOf vault entry accountId
        (libraries.dayText first) (libraries.dayText last)) links with
    | none =>
      rw [found] at rest
      refine .inl ⟨(Except.ok.inj rest).symm, fun candidate isFree => ?_⟩
      have empty := List.argmin_eq_none.mp found
      have member := (free candidate).mpr isFree
      rw [empty] at member
      cases member
    | some best =>
      rw [found] at rest
      refine .inr ⟨best, (free best).mp (List.argmin_mem found), fun other isFree => ?_, ?_⟩
      · exact List.le_of_mem_argmin ((free other).mpr isFree) found
      · exact (Table.insert_eq_some_iff.mp (orMissing_eq_ok.mp (mapError_eq_ok.mp rest))).2

/-- What an entry gets in its turn: where it names an account, the nearest candidate that no entry
before it has taken, if there is one. -/
def TakesTurn (libraries : LinkLibraries) (vault : LinkVault) (links : List EntryLink)
    (before : List ManualEntry) (entry : ManualEntry) : Prop :=
  match entry.accountId with
  | none => ∀ link ∈ links, link.assumptionEventId ≠ entry.id
  | some accountId => ∃ low high, WindowOf libraries entry low high ∧
      let earlier := links.filter fun link => link.assumptionEventId ∈ before.map ManualEntry.id
      (((∀ candidate, ¬FreeAmong vault earlier entry accountId low high candidate) ∧
          ∀ link ∈ links, link.assumptionEventId ≠ entry.id) ∨
        ∃ best, FreeAmong vault earlier entry accountId low high best ∧
          (∀ other, FreeAmong vault earlier entry accountId low high other →
            best.key libraries entry ≤ other.key libraries entry) ∧
          ∃ link ∈ links, link.assumptionEventId = entry.id ∧
            link.linkedTransactionId = best.transactionId ∧ link.matchedOn = best.postingDate)

/-- What the links of some entries are: each is of an entry to a transaction that matches it, no
transaction is linked twice, and every entry got what was free in its turn. -/
structure LinksEntries (libraries : LinkLibraries) (vault : LinkVault) (entries : List ManualEntry)
    (links : List EntryLink) : Prop where
  matched : ∀ link ∈ links, ∃ entry ∈ entries, entry.id = link.assumptionEventId ∧
    ∃ accountId low high, entry.accountId = some accountId ∧ WindowOf libraries entry low high ∧
      (⟨link.linkedTransactionId, link.matchedOn⟩ : Candidate) ∈
        candidatesOf vault entry accountId low high
  apart : (links.map EntryLink.linkedTransactionId).Nodup
  turns : ∀ before entry later, entries = before ++ entry :: later →
    TakesTurn libraries vault links before entry

theorem TakesTurn.concat {links : List EntryLink} {before : List ManualEntry} {added : EntryLink}
    (taken : TakesTurn libraries vault links before entry)
    (other : added.assumptionEventId ≠ entry.id)
    (later : added.assumptionEventId ∉ before.map ManualEntry.id) :
    TakesTurn libraries vault (links ++ [added]) before entry := by
  have absent (free : ∀ link ∈ links, link.assumptionEventId ≠ entry.id) :
      ∀ link ∈ links ++ [added], link.assumptionEventId ≠ entry.id := by
    intro link member
    rcases List.mem_append.mp member with held | last
    · exact free link held
    · rw [List.mem_singleton.mp last]
      exact other
  have same : ((links ++ [added]).filter fun link =>
      link.assumptionEventId ∈ before.map ManualEntry.id) =
        links.filter fun link => link.assumptionEventId ∈ before.map ManualEntry.id := by
    rw [List.filter_append, List.filter_cons_of_neg (by simpa using later), List.filter_nil,
      List.append_nil]
  unfold TakesTurn at taken ⊢
  cases account : entry.accountId with
  | none =>
    rw [account] at taken
    exact absent taken
  | some accountId =>
    rw [account] at taken
    obtain ⟨low, high, window, turn⟩ := taken
    refine ⟨low, high, window, ?_⟩
    dsimp only at turn ⊢
    rw [same]
    rcases turn with ⟨none, free⟩ | ⟨best, free, least, link, member, own⟩
    · exact .inl ⟨none, absent free⟩
    · exact .inr ⟨best, free, least, link, List.mem_append_left _ member, own⟩

theorem split_concat {entries before later : List ManualEntry} {entry last : ManualEntry}
    (same : entries ++ [last] = before ++ entry :: later) :
    (before = entries ∧ entry = last) ∨ ∃ rest, entries = before ++ entry :: rest := by
  rcases List.eq_nil_or_concat later with rfl | ⟨rest, final, rfl⟩
  · obtain ⟨rfl, single⟩ := List.append_inj' same rfl
    exact .inl ⟨rfl, (List.cons.inj single).1.symm⟩
  · rw [List.concat_eq_append, ← List.cons_append, ← List.append_assoc] at same
    exact .inr ⟨rest, (List.append_inj' same rfl).1⟩

/-- Entries whose ids differ get their links one after another. -/
theorem linksEntries_of_foldlM {links : Table EntryLink.assumptionEventId}
    (linked : entries.foldlM (linkEntry libraries vault today) .empty = .ok links)
    (distinct : (entries.map ManualEntry.id).Nodup) :
    LinksEntries libraries vault entries links.rows := by
  induction entries using List.reverseRecOn generalizing links with
  | nil =>
    obtain rfl := Except.ok.inj linked
    exact ⟨List.forall_mem_nil _, List.nodup_nil, fun before entry later same => by simp at same⟩
  | append_singleton entries last inductionHypothesis =>
    rw [List.foldlM_append] at linked
    obtain ⟨held, linkedBefore, rest⟩ := bind_eq_ok.mp linked
    obtain ⟨next, linkedLast, same⟩ := bind_eq_ok.mp rest
    obtain rfl := Except.ok.inj same
    rw [List.map_append, List.nodup_append] at distinct
    obtain ⟨distinctBefore, -, apart⟩ := distinct
    have fresh : last.id ∉ entries.map ManualEntry.id := fun member =>
      apart _ member _ List.mem_cons_self rfl
    obtain ⟨matched, once, turns⟩ := inductionHypothesis linkedBefore distinctBefore
    have earlier : (held.rows.filter fun link =>
        link.assumptionEventId ∈ entries.map ManualEntry.id) = held.rows := by
      refine List.filter_eq_self.mpr fun link member => decide_eq_true ?_
      obtain ⟨entry, inside, own, -⟩ := matched link member
      exact own ▸ List.mem_map_of_mem inside
    have unlinked : ∀ link ∈ held.rows, link.assumptionEventId ≠ last.id := by
      intro link member own
      obtain ⟨entry, inside, same, -⟩ := matched link member
      exact fresh (own ▸ same ▸ List.mem_map_of_mem inside)
    have kept : ∀ link ∈ held.rows, ∃ entry ∈ entries ++ [last], entry.id = link.assumptionEventId ∧
        ∃ accountId low high, entry.accountId = some accountId ∧ WindowOf libraries entry low high ∧
          (⟨link.linkedTransactionId, link.matchedOn⟩ : Candidate) ∈
            candidatesOf vault entry accountId low high := by
      intro link member
      obtain ⟨entry, inside, rest⟩ := matched link member
      exact ⟨entry, List.mem_append_left _ inside, rest⟩
    -- The turns before the last are over, and the last is taken among what is held.
    have idle (turn : TakesTurn libraries vault held.rows entries last) :
        LinksEntries libraries vault (entries ++ [last]) held.rows := by
      refine ⟨kept, once, fun before entry later split => ?_⟩
      rcases split_concat split with ⟨rfl, rfl⟩ | ⟨rest, split⟩
      · exact turn
      · exact turns before entry rest split
    rcases linkEntry_eq_ok linkedLast with ⟨account, rfl⟩ |
        ⟨accountId, low, high, account, window, ⟨rfl, none⟩ | ⟨best, free, least, rows⟩⟩
    · refine idle ?_
      unfold TakesTurn
      rw [account]
      exact unlinked
    · refine idle ?_
      unfold TakesTurn
      rw [account]
      refine ⟨low, high, window, .inl ⟨fun candidate => ?_, unlinked⟩⟩
      rw [earlier]
      exact none candidate
    · rw [rows]
      refine ⟨fun link member => ?_, ?_, fun before entry later split => ?_⟩
      · rcases List.mem_append.mp member with before | added
        · exact kept link before
        · rw [List.mem_singleton.mp added]
          exact ⟨last, List.mem_append_right _ List.mem_cons_self, rfl, accountId, low, high,
            account, window, free.1⟩
      · rw [List.map_append, List.nodup_append]
        refine ⟨once, List.nodup_singleton _, ?_⟩
        rintro transaction member other single rfl
        obtain ⟨link, inside, rfl⟩ := List.mem_map.mp member
        exact free.2 link inside (List.mem_singleton.mp single)
      · rcases split_concat split with ⟨rfl, rfl⟩ | ⟨rest, split⟩
        · have before : ((held.rows ++ [(⟨entry.id, best.transactionId, best.postingDate,
              libraries.dayText today⟩ : EntryLink)]).filter fun link =>
                link.assumptionEventId ∈ before.map ManualEntry.id) = held.rows := by
            rw [List.filter_append, earlier, List.filter_cons_of_neg (by simpa using fresh),
              List.filter_nil, List.append_nil]
          unfold TakesTurn
          rw [account]
          refine ⟨low, high, window, .inr ⟨best, ?_, ?_, (⟨entry.id, best.transactionId,
            best.postingDate, libraries.dayText today⟩ : EntryLink),
              List.mem_append_right _ List.mem_cons_self, rfl, rfl, rfl⟩⟩
          · rw [before]
            exact free
          · rw [before]
            exact least
        · refine (turns before entry rest split).concat (fun own => ?_) fun member => ?_
          · have inside : entry ∈ entries := by
              rw [split]
              exact List.mem_append_right _ List.mem_cons_self
            exact fresh (List.mem_map.mpr ⟨entry, inside, own.symm⟩)
          · rw [split, List.map_append] at fresh
            exact fresh (List.mem_append_left _ member)

theorem id_of_fromParams {id : Uuid} {paramsJson : String}
    (read : fromParams libraries id paramsJson = .ok entry) : entry.id = id := by
  obtain ⟨value, -, rest⟩ := bind_eq_ok.mp read
  obtain ⟨amount, -, rest⟩ := bind_eq_ok.mp rest
  obtain ⟨code, -, rest⟩ := bind_eq_ok.mp rest
  obtain ⟨text, -, rest⟩ := bind_eq_ok.mp rest
  obtain ⟨currency, -, rest⟩ := bind_eq_ok.mp rest
  obtain ⟨day, -, rest⟩ := bind_eq_ok.mp rest
  rw [← Except.ok.inj rest]

theorem nodup_activeManualEntries (read : activeManualEntries libraries vault = .ok entries) :
    (entries.map ManualEntry.id).Nodup := by
  have ids := @PrefixFree.map_view_of_mapM _ _ _ _ _ ManualEntry.id EventRow.id
    (fun row entry made => id_of_fromParams made) _ _ read
  rw [ids]
  refine ((sortBy_perm _).map _).nodup_iff.mpr ?_
  exact vault.events.unique.sublist (List.filter_sublist.map _)

/-! ### Days as texts -/

/-- How the date type writes a day: a year of four digits as four digits, any other with a sign. -/
structure WritesDays (dayText : PayDates.NaiveDate → String) : Prop where
  fourDigits : ∀ day, 0 ≤ day.val.year → day.val.year ≤ 9999 →
    dayText day = String.ofList (dateChars day.val)
  signed : ∀ day, ¬(0 ≤ day.val.year ∧ day.val.year ≤ 9999) →
    ∃ sign rest, (sign = '+' ∨ sign = '-') ∧ dayText day = String.ofList (sign :: rest)

theorem dateChars_cons (date : Calendar.Date) :
    ∃ digit < 10, ∃ rest, dateChars date = Nat.digitChar digit :: rest :=
  ⟨_, Nat.mod_lt _ (by decide), _, rfl⟩

theorem sign_lt_digitChar {sign : Char} (signed : sign = '+' ∨ sign = '-') {digit : Nat}
    (digits : digit < 10) : sign < Nat.digitChar digit := by
  have below : ∀ digit < 10, '+' < Nat.digitChar digit ∧ '-' < Nat.digitChar digit := by decide
  rcases signed with rfl | rfl
  · exact (below digit digits).1
  · exact (below digit digits).2

theorem year_iff {date : Calendar.Date} :
    0 ≤ date.year ∧ date.year ≤ 9999 ↔ 0 ≤ date.month ∧ date.month ≤ 12 * 9999 + 11 := by
  unfold Calendar.Date.year Calendar.yearOf
  omega

/-- Between two days with years of four digits, the texts of days compare as the days. -/
theorem texts_between_iff {dayText : PayDates.NaiveDate → String} (writes : WritesDays dayText)
    {low high : PayDates.NaiveDate} (lowYear : 0 ≤ low.val.year ∧ low.val.year ≤ 9999)
    (highYear : 0 ≤ high.val.year ∧ high.val.year ≤ 9999) (day : PayDates.NaiveDate) :
    dayText low ≤ dayText day ∧ dayText day ≤ dayText high ↔ low ≤ day ∧ day ≤ high := by
  have lowText := writes.fourDigits low lowYear.1 lowYear.2
  have highText := writes.fourDigits high highYear.1 highYear.2
  have lowMonth := year_iff.mp lowYear
  have highMonth := year_iff.mp highYear
  by_cases dayYear : 0 ≤ day.val.year ∧ day.val.year ≤ 9999
  · have dayMonth := year_iff.mp dayYear
    have ordered {first second : PayDates.NaiveDate}
        (start : 0 ≤ first.val.month ∧ first.val.month ≤ 12 * 9999 + 11)
        (stop : 0 ≤ second.val.month ∧ second.val.month ≤ 12 * 9999 + 11) :
        String.ofList (dateChars first.val) ≤ String.ofList (dateChars second.val) ↔
          first ≤ second := by
      rw [← not_lt, string_lt_iff]
      refine ⟨fun ascends => not_lt.mp fun less => ascends ?_, fun ascends less => ?_⟩
      · exact dateChars_lt less stop.1 start.2
      · rcases ascends.lt_or_eq with before | same
        · exact lt_asymm (dateChars_lt before start.1 stop.2) less
        · rw [same] at less
          exact lt_irrefl _ less
    rw [lowText, highText, writes.fourDigits day dayYear.1 dayYear.2, ordered lowMonth dayMonth,
      ordered dayMonth highMonth]
  · obtain ⟨sign, rest, signed, text⟩ := writes.signed day dayYear
    refine iff_of_false (fun both => ?_) fun both => dayYear ?_
    · -- A text that begins with a sign is less than one that begins with a digit.
      obtain ⟨digit, digits, others, front⟩ := dateChars_cons low.val
      rw [text, lowText, front] at both
      refine absurd both.1 (not_le.mpr (string_lt_iff.mpr ?_))
      exact List.cons_lt_cons_iff.mpr (.inl (sign_lt_digitChar signed digits))
    · rw [year_iff]
      have after := Calendar.Date.le_iff.mp both.1
      have before := Calendar.Date.le_iff.mp both.2
      omega

/-- All days within the window of an entry have years of four digits. -/
def FourDigitWindow (entry : ManualEntry) : Prop :=
  ∀ day : PayDates.NaiveDate, daysBetween day entry.occursOn ≤ recurringMatchWindowDays.toNat →
    0 ≤ day.val.year ∧ day.val.year ≤ 9999

theorem WindowOf.between_iff (writes : WritesDays libraries.dayText)
    (window : WindowOf libraries entry low high) (years : FourDigitWindow entry)
    (day : PayDates.NaiveDate) :
    low ≤ libraries.dayText day ∧ libraries.dayText day ≤ high ↔
      daysBetween day entry.occursOn ≤ recurringMatchWindowDays.toNat := by
  obtain ⟨first, last, subtracted, added, rfl, rfl⟩ := window
  have firstDay : first.val.dayNumber = entry.occursOn.val.dayNumber - 7 := by
    rw [PayDates.eq_of_checked subtracted, Calendar.Date.dayNumber_addDays]
    rfl
  have lastDay : last.val.dayNumber = entry.occursOn.val.dayNumber + 7 := by
    rw [PayDates.eq_of_checked added, Calendar.Date.dayNumber_addDays]
    rfl
  have span : recurringMatchWindowDays.toNat = 7 := rfl
  have inside {edge : PayDates.NaiveDate}
      (near : edge.val.dayNumber = entry.occursOn.val.dayNumber - 7 ∨
        edge.val.dayNumber = entry.occursOn.val.dayNumber + 7) :
      0 ≤ edge.val.year ∧ edge.val.year ≤ 9999 := by
    refine years edge ?_
    unfold daysBetween
    omega
  rw [texts_between_iff writes (inside (.inl firstDay)) (inside (.inr lastDay))]
  have compare (one other : PayDates.NaiveDate) :
      one ≤ other ↔ one.val.dayNumber ≤ other.val.dayNumber := Calendar.Date.dayNumber_le_iff.symm
  rw [compare, compare, firstDay, lastDay, span]
  unfold daysBetween
  omega

/-! ### Both rebuilds -/

/-- Every posting is dated by the text of a day, which is read back. -/
def PostingsDated (libraries : LinkLibraries) (vault : LinkVault) : Prop :=
  ∀ row ∈ vault.transactions.rows, ∀ posting ∈ row.postings, ∃ day,
    posting.postingDate = libraries.dayText day ∧
      libraries.parseFromStr posting.postingDate = .ok day

/-- A transaction is on the account of an entry, with its exact amount, within seven days. -/
def SettlesEntry (libraries : LinkLibraries) (vault : LinkVault) (entry : ManualEntry)
    (accountId : Uuid) (candidate : Candidate) (distance : Nat) : Prop :=
  MatchesEntry vault entry accountId candidate ∧ ∃ day,
    candidate.postingDate = libraries.dayText day ∧ distance = daysBetween day entry.occursOn ∧
      distance ≤ recurringMatchWindowDays.toNat

theorem mem_candidatesOf_iff (writes : WritesDays libraries.dayText)
    (dated : PostingsDated libraries vault) (window : WindowOf libraries entry low high)
    (years : FourDigitWindow entry) (candidate : Candidate) :
    candidate ∈ candidatesOf vault entry accountId low high ↔
      SettlesEntry libraries vault entry accountId candidate
        (diffOf libraries entry candidate.postingDate) := by
  rw [mem_candidatesOf]
  refine and_congr_right fun matching => ?_
  obtain ⟨row, stored, -, -, -, side, inside, -, -, -, date⟩ := matching
  obtain ⟨posting, posted, same⟩ := List.mem_flatMap.mp inside
  obtain ⟨account, -, rfl⟩ := List.mem_map.mp same
  obtain ⟨day, text, read⟩ := dated row stored posting posted
  rw [← date, text, window.between_iff writes years]
  have distance : diffOf libraries entry (libraries.dayText day) =
      daysBetween day entry.occursOn := by
    rw [diffOf, ← text, read]
  rw [distance]
  refine ⟨fun near => ⟨day, rfl, rfl, near⟩, ?_⟩
  rintro ⟨other, -, -, near⟩
  exact near

theorem rebuild_eq_ok (rebuilt : rebuild libraries vault today = .ok after) :
    (∃ instances entryLinks, after = { vault with instances, entryLinks }) ∧
    (∃ realized place, LinksPostings libraries vault after realized place) ∧
    ∃ entries, activeManualEntries libraries vault = .ok entries ∧
      LinksEntries libraries after entries after.entryLinks.rows := by
  obtain ⟨middle, instancesBuilt, rest⟩ := bind_eq_ok.mp rebuilt
  obtain ⟨⟨instances, rfl⟩, realized, place, linked⟩ :=
    linksPostings_of_rebuildInstances instancesBuilt
  obtain ⟨entries, read, rest⟩ := bind_eq_ok.mp rest
  obtain ⟨entryLinks, matched, same⟩ := bind_eq_ok.mp rest
  obtain rfl := Except.ok.inj same
  refine ⟨⟨instances, entryLinks, rfl⟩, ⟨realized, place, linked.live, linked.matched,
    linked.apart⟩, entries, read, ?_⟩
  obtain ⟨matching, apart, turns⟩ :=
    linksEntries_of_foldlM matched (nodup_activeManualEntries read)
  exact ⟨matching, apart, turns⟩

theorem rebuild_again (rebuilt : rebuild libraries vault today = .ok after) :
    rebuild libraries after today = .ok after := by
  obtain ⟨middle, instancesBuilt, rest⟩ := bind_eq_ok.mp rebuilt
  obtain ⟨start, begins, instancesRest⟩ := bind_eq_ok.mp instancesBuilt
  obtain ⟨stop, ends, instancesRest⟩ := bind_eq_ok.mp instancesRest
  obtain ⟨planned, expanded, instancesRest⟩ := bind_eq_ok.mp instancesRest
  obtain ⟨postings, read, instancesRest⟩ := bind_eq_ok.mp instancesRest
  obtain ⟨links, assigned, instancesRest⟩ := bind_eq_ok.mp instancesRest
  obtain ⟨instances, inserted, same⟩ := bind_eq_ok.mp instancesRest
  obtain rfl := Except.ok.inj same
  obtain ⟨entries, active, rest⟩ := bind_eq_ok.mp rest
  obtain ⟨entryLinks, matched, same⟩ := bind_eq_ok.mp rest
  obtain rfl := Except.ok.inj same
  refine bind_eq_ok.mpr ⟨{ vault with instances, entryLinks }, ?_, ?_⟩
  · exact bind_eq_ok.mpr ⟨start, begins, bind_eq_ok.mpr ⟨stop, ends, bind_eq_ok.mpr ⟨planned,
      expanded, bind_eq_ok.mpr ⟨postings, read, bind_eq_ok.mpr ⟨links, assigned,
        bind_eq_ok.mpr ⟨instances, inserted, rfl⟩⟩⟩⟩⟩⟩
  · exact bind_eq_ok.mpr ⟨entries, active, bind_eq_ok.mpr ⟨entryLinks, matched, rfl⟩⟩

/-- A day as the date type writes it. -/
def writtenDay (day : PayDates.NaiveDate) : String :=
  if 0 ≤ day.val.year ∧ day.val.year ≤ 9999 then String.ofList (dateChars day.val)
  else String.ofList ((if day.val.year < 0 then '-' else '+') ::
    (Nat.toDigits 10 day.val.year.natAbs ++ (dateChars day.val).drop 4))

theorem writesDays_writtenDay : WritesDays writtenDay := by
  refine ⟨fun day first last => if_pos ⟨first, last⟩, fun day outside => ?_⟩
  refine ⟨if day.val.year < 0 then '-' else '+', _, ?_, if_neg outside⟩
  split_ifs
  · exact .inr rfl
  · exact .inl rfl

def linkLibraries : LinkLibraries where
  fromStr _ := .error "no parameters"
  parseFromStr text :=
    match text.toList with
    | [y1, y2, y3, y4, '-', m1, m2, '-', d1, d2] =>
      orFail "no date" do
        let year ← PayDates.digitsFrom 0 [y1, y2, y3, y4]
        let month ← PayDates.digitsFrom 0 [m1, m2]
        let day ← PayDates.digitsFrom 0 [d1, d2]
        PayDates.fromYmd year month day
    | _ => .error "no date"
  dayText := writtenDay
  instanceId event day := if day < "1971" then event else event.map fun byte => byte + 100
  parseUuid _ := none
  isBlank text := text = ""
  normalizeMerchant text := text

/-- A yearly schedule of 500 from the fifth day of 1970. -/
def yearly (id : UInt8) (kind : ScheduleKind) : ActiveSchedule where
  id := .replicate 16 id
  name := ""
  amountMinor := 500
  currencyCode := "USD"
  freqToken := "annual"
  anchor := some "1970-01-05"
  billType := none
  kind
  autopayAccountId := none

/-- Two accounts that hold cash, and a transfer of 500 from the one to the other. -/
def transferVault : LinkVault where
  accounts := ⟨[⟨⟨.replicate 16 1, .replicate 16 3, "USD"⟩, "liquid_cash"⟩,
    ⟨⟨.replicate 16 2, .replicate 16 4, "USD"⟩, "liquid_cash"⟩], by decide⟩
  transactions := ⟨[⟨.replicate 16 9, "1970-01-05T00:00:00+00:00", none, none, none,
    [⟨.replicate 16 3, 500, "1970-01-05"⟩, ⟨.replicate 16 4, -500, "1970-01-05"⟩]⟩],
    List.nodup_singleton _⟩
  incomeSchedules := [yearly 5 .income]
  obligationSchedules := [yearly 6 .obligation]
  events := .empty
  instances := .empty
  entryLinks := .empty

/-- The fifth day of 1970, of the transfer. -/
def transferDay : PayDates.NaiveDate := ⟨⟨12 * 1970, 5, by decide⟩, by decide⟩

/-- The ninth day of 1970, of the rebuild. -/
def rebuildDay : PayDates.NaiveDate := ⟨⟨12 * 1970, 9, by decide⟩, by decide⟩

theorem transferVault_links :
    ((rebuild linkLibraries transferVault rebuildDay).toOption.map fun after =>
      after.instances.rows.map fun row => (row.id, row.linkedTransactionId)) =
    some [(.replicate 16 5, some (.replicate 16 9)), (.replicate 16 105, none),
      (.replicate 16 6, some (.replicate 16 9)), (.replicate 16 106, none)] := by
  decide +kernel

end Dohflow.DbWorker
