/-
This file is about the dates that one sync asks the provider for, and about the
transactions it gets for them.

A walk starts a few days before the watermark it is given, or a year before today without
one, and goes on to the end of today in windows that overlap. A provider that answers
completely gives, for every account of its answer to a window, all transactions posted
within it. `mem_records` says that a walk then collects every transaction, from its first
day to today, of every account that it is answered for.

A day is the number of days since the epoch; the limits of the date type are left out.
-/

import Dohflow.Connectors.HeldLinks

namespace Dohflow.Connectors

open Fallible

/-! ### The windows -/

def fullHistoryLookbackDays : Int := 365
def chunkDays : Int := 45
def chunkStepDays : Int := 40
def sinceRewindDays : Int := 5

/-- The seconds from the epoch to the start of the day. -/
def epochAtMidnight (date : Int) : Int := date * 86400

/-- The day that a moment falls on. -/
def epochToDate (seconds : Int) : Int := seconds / 86400

/-- The windows from a day on, in so many steps at most. -/
def chunksFrom (walkEnd : Int) : Nat → Int → List (Int × Int)
  | 0, _ => []
  | steps + 1, cursor =>
    let chunkEnd := min (cursor + chunkDays) walkEnd
    (epochAtMidnight cursor, epochAtMidnight chunkEnd) ::
      if walkEnd ≤ chunkEnd then [] else chunksFrom walkEnd steps (cursor + chunkStepDays)

/-- The first day of a walk. -/
def walkStart (since : Option Int) (today : Int) : Int :=
  match since with
  | some date => date - sinceRewindDays
  | none => today - fullHistoryLookbackDays

/-- The windows of a walk, in seconds, without their last second. -/
def chunkRanges (since : Option Int) (today : Int) : List (Int × Int) :=
  let walkEnd := today + 1
  let cursor := min (walkStart since today) walkEnd
  chunksFrom walkEnd ((walkEnd - cursor).toNat + 1) cursor

theorem exists_mem_chunksFrom {walkEnd cursor : Int} {steps : Nat} {seconds : Int}
    (enough : walkEnd - cursor < steps) (reached : epochAtMidnight cursor ≤ seconds)
    (within : seconds < epochAtMidnight walkEnd) :
    ∃ range ∈ chunksFrom walkEnd steps cursor, range.1 ≤ seconds ∧ seconds < range.2 := by
  induction steps generalizing cursor with
  | zero =>
    simp only [epochAtMidnight] at reached within
    omega
  | succ steps inductionHypothesis =>
    by_cases inside : seconds < epochAtMidnight (min (cursor + chunkDays) walkEnd)
    · exact ⟨_, List.mem_cons_self, reached, inside⟩
    · simp only [epochAtMidnight, chunkDays] at reached within inside
      have goesOn : ¬ walkEnd ≤ min (cursor + chunkDays) walkEnd := by
        simp only [chunkDays]
        omega
      have enoughLeft : walkEnd - (cursor + chunkStepDays) < steps := by
        simp only [chunkStepDays]
        omega
      have reachedNext : epochAtMidnight (cursor + chunkStepDays) ≤ seconds := by
        simp only [epochAtMidnight, chunkStepDays]
        omega
      obtain ⟨range, member, covers⟩ := inductionHypothesis enoughLeft reachedNext
      refine ⟨range, ?_, covers⟩
      rw [chunksFrom, if_neg goesOn]
      exact List.mem_cons_of_mem _ member

theorem exists_mem_chunkRanges {since : Option Int} {today : Int} {seconds : Int}
    (reached : walkStart since today ≤ epochToDate seconds)
    (within : epochToDate seconds ≤ today) :
    ∃ range ∈ chunkRanges since today, range.1 ≤ seconds ∧ seconds < range.2 := by
  simp only [epochToDate] at reached within
  refine exists_mem_chunksFrom ?_ ?_ ?_
  · omega
  · simp only [epochAtMidnight]
    omega
  · simp only [epochAtMidnight]
    omega

/-! ### The transactions of a walk -/

/-- A transaction of the provider, of those that the adapter can stage. -/
structure Posting where
  /-- The key of its account. -/
  account : String
  id : String
  /-- When it was posted, in seconds since the epoch. -/
  posted : Int
  deriving DecidableEq

/-- The day it is dated. -/
def Posting.day (posting : Posting) : Int := epochToDate posting.posted

/-- What tells transactions apart. -/
def Posting.key (posting : Posting) : String × String := (posting.account, posting.id)

/-- The transactions of a provider. -/
structure Provider where
  postings : List Posting
  /-- No two transactions of one account share their id. -/
  distinct : (postings.map Posting.key).Nodup

/-- All transactions of an account within a window. -/
def Provider.listed (provider : Provider) (account : String) (range : Int × Int) :
    List Posting :=
  provider.postings.filter fun posting =>
    posting.account = account && range.1 ≤ posting.posted && posting.posted < range.2

/-- The accounts of an answer to all windows are in the answers to each of them. -/
def Complete (ranges : List (Int × Int)) (sets : List AccountSet) : Prop :=
  sets.length = ranges.length ∧ ∀ set ∈ sets, ∀ account ∈ set.accounts, ∀ other ∈ sets,
    ∃ same ∈ other.accounts, accountKey same = accountKey account

instance (ranges : List (Int × Int)) (sets : List AccountSet) : Decidable (Complete ranges sets) :=
  inferInstanceAs (Decidable (_ ∧ _))

instance lawfulKey : LawfulBEq (String × String) := inferInstance

/-- Keep a transaction unless one of the same account and id was seen. -/
def keepNew (kept : List Posting) (posting : Posting) : List Posting :=
  if posting.key ∈ kept.map Posting.key then kept else kept ++ [posting]

/-- The transactions that a walk collects, each once. -/
def records (provider : Provider) (ranges : List (Int × Int)) (sets : List AccountSet) :
    List Posting :=
  ((ranges.zip sets).flatMap fun answered => answered.2.accounts.flatMap fun account =>
    provider.listed (accountKey account) answered.1).foldl keepNew []

variable {provider : Provider} {posting : Posting} {ranges : List (Int × Int)}
  {sets : List AccountSet}

theorem mem_listed {account : String} {range : Int × Int} :
    posting ∈ provider.listed account range ↔ posting ∈ provider.postings ∧
      posting.account = account ∧ range.1 ≤ posting.posted ∧ posting.posted < range.2 := by
  simp [Provider.listed, and_assoc]

theorem mem_foldl_keepNew {received kept : List Posting}
    (known : ∀ other ∈ kept ++ received, other ∈ provider.postings) :
    posting ∈ received.foldl keepNew kept ↔ posting ∈ kept ∨ posting ∈ received := by
  induction received generalizing kept with
  | nil => simp
  | cons first rest inductionHypothesis =>
    rw [List.foldl_cons, keepNew]
    split
    · next seen =>
      rw [inductionHypothesis fun other member => known other (by
        rcases List.mem_append.mp member with early | late
        · exact List.mem_append_left _ early
        · exact List.mem_append_right _ (List.mem_cons_of_mem _ late))]
      obtain ⟨same, member, key⟩ := List.mem_map.mp seen
      obtain rfl := List.inj_on_of_nodup_map provider.distinct
        (known same (List.mem_append_left _ member))
        (known first (List.mem_append_right _ List.mem_cons_self)) key
      rw [List.mem_cons]
      constructor
      · exact Or.imp_right .inr
      · rintro (early | rfl | late)
        · exact .inl early
        · exact .inl member
        · exact .inr late
    · rw [inductionHypothesis fun other member => known other (by
        rw [List.append_assoc] at member
        exact member)]
      rw [List.mem_append, List.mem_singleton, List.mem_cons, or_assoc]

theorem exists_mem_zip {First Second : Type} {firsts : List First} {seconds : List Second}
    (same : seconds.length = firsts.length) {first : First} (member : first ∈ firsts) :
    ∃ second, (first, second) ∈ firsts.zip seconds := by
  obtain ⟨index, bound, rfl⟩ := List.mem_iff_getElem.mp member
  have inside : index < seconds.length := same ▸ bound
  refine ⟨seconds[index], List.mem_iff_getElem.mpr ⟨index, ?_, ?_⟩⟩
  · rw [List.length_zip]
    omega
  · exact List.getElem_zip

theorem mem_records {since : Option Int} {today : Int}
    (complete : Complete (chunkRanges since today) sets) (appears : Appears sets posting.account)
    (member : posting ∈ provider.postings) (reached : walkStart since today ≤ posting.day)
    (within : posting.day ≤ today) : posting ∈ records provider (chunkRanges since today) sets := by
  obtain ⟨range, among, covers⟩ := exists_mem_chunkRanges reached within
  obtain ⟨set, zipped⟩ := exists_mem_zip complete.1 among
  obtain ⟨appearing, inSets, account, inAppearing, key⟩ := appears
  obtain ⟨same, inSet, sameKey⟩ :=
    complete.2 appearing inSets account inAppearing set (List.of_mem_zip zipped).2
  rw [records, mem_foldl_keepNew]
  · refine .inr (List.mem_flatMap.mpr ⟨_, zipped, List.mem_flatMap.mpr ⟨same, inSet, ?_⟩⟩)
    exact mem_listed.mpr ⟨member, (sameKey.trans key).symm, covers⟩
  · intro other inside
    rw [List.nil_append, List.mem_flatMap] at inside
    obtain ⟨answered, -, inside⟩ := inside
    obtain ⟨account, -, inside⟩ := List.mem_flatMap.mp inside
    exact (mem_listed.mp inside).1

end Dohflow.Connectors
