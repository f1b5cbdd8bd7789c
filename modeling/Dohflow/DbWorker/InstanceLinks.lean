/-
This file models how realized postings are linked to the occurrences of recurring
schedules, and proves that the links are stable.

Every pair of an occurrence and a posting that may be linked is ranked: by whether the
payees match, by the distance of the dates, by the distance of the amounts, and then by
ids. The pairs are taken greedily in that order, each unless its occurrence or its posting
is taken. So no pair that may be linked ranks before both links that its ends have, and
where no two postings are of one transaction, the rank leaves no tie and the links do not
depend on the order of the postings.
-/

import Dohflow.Foundation.CanonicalOrder
import Dohflow.Foundation.GreedyMatching
import Dohflow.Foundation.MachineIntegers
import Dohflow.PaySchedule.Schedule
import Dohflow.SyncCore.Cbe
import Mathlib.Data.List.ReduceOption

namespace Dohflow.DbWorker

open SyncCore MachineIntegers CanonicalOrder GreedyMatching

/-! ### Occurrences and postings -/

inductive ScheduleKind
  | income
  | obligation

/-- An occurrence of a schedule. -/
structure Occurrence where
  scheduledDate : PayDates.NaiveDate
  expectedAmountMinor : Int
  kind : ScheduleKind
  merchantKey : Option String
  /-- The account that an obligation is paid from, if it has one. -/
  autopayAccountId : Option Uuid

/-- A posting of a transaction, its amount as the account sees it. -/
structure RealizedPosting where
  transactionId : Uuid
  occurredOn : PayDates.NaiveDate
  minorUnits : Int
  merchantKey : Option String
  accountId : Uuid
  isLiquid : Bool

def recurringMatchWindowDays : Int := 7

def amountToleranceBps : Int := 500

def amountToleranceFloorMinor : Int := 500

/-- A pair that may be linked, with what it is ranked by. -/
structure LinkPair where
  payeeRank : Nat
  dateDiff : Int
  amountDiff : Int
  transactionId : Uuid
  /-- The place of the posting. -/
  posting : Nat
  /-- The place of the occurrence. -/
  occurrence : Nat

/-- `i64::abs`; `none` where it overflows. -/
def absI64 (value : Int) : Option Int := checkedI64 value.natAbs

/-- How far an amount may be off the expected one; `none` where the product overflows. -/
def toleranceOf (occurrence : Occurrence) : Option Int := do
  let size ← absI64 occurrence.expectedAmountMinor
  let product ← checkedI64 (size * amountToleranceBps)
  return max (product.tdiv 10000) amountToleranceFloorMinor

def signOk (occurrence : Occurrence) (posting : RealizedPosting) : Bool :=
  match occurrence.kind with
  | .income => 0 < posting.minorUnits
  | .obligation => posting.minorUnits < 0

/-- The account gate: the account an occurrence is paid from, or else any liquid one. -/
def accountOk (occurrence : Occurrence) (posting : RealizedPosting) : Bool :=
  match occurrence.autopayAccountId with
  | some gate => posting.accountId = gate
  | none => posting.isLiquid

def dateDiffOf (occurrence : Occurrence) (posting : RealizedPosting) : Int :=
  (posting.occurredOn.val.dayNumber - occurrence.scheduledDate.val.dayNumber).natAbs

/-- How far the amount of a posting is off; `none` where a difference overflows. -/
def amountDiffOf (occurrence : Occurrence) (posting : RealizedPosting) : Option Int := do
  let size ← absI64 posting.minorUnits
  let diff ← checkedI64 (size - occurrence.expectedAmountMinor)
  absI64 diff

/-- Both sides have a payee, and it is the same. -/
def payeeMatch (occurrence : Occurrence) (posting : RealizedPosting) : Bool :=
  match occurrence.merchantKey, posting.merchantKey with
  | some own, some other => own = other
  | _, _ => false

/-- The pair of an occurrence and a posting, if it may be linked; `none` where an amount
overflows. -/
def pairOf (tolerance : Int) (occurrence : Occurrence) (occurrenceIndex : Nat)
    (posting : RealizedPosting) (postingIndex : Nat) : Option (Option LinkPair) :=
  if signOk occurrence posting = false then some none
  else if accountOk occurrence posting = false then some none
  else if recurringMatchWindowDays < dateDiffOf occurrence posting then some none
  else do
    let amountDiff ← amountDiffOf occurrence posting
    if amountDiff ≤ tolerance ∨ payeeMatch occurrence posting = true then
      return some
        { payeeRank := if payeeMatch occurrence posting then 0 else 1
          dateDiff := dateDiffOf occurrence posting
          amountDiff
          transactionId := posting.transactionId
          posting := postingIndex
          occurrence := occurrenceIndex }
    else return none

/-- All pairs of one occurrence that may be linked. -/
def pairsOf (postings : List RealizedPosting) (occurrence : Occurrence) (index : Nat) :
    Option (List LinkPair) := do
  let tolerance ← toleranceOf occurrence
  let pairs ← postings.zipIdx.mapM fun posting =>
    pairOf tolerance occurrence index posting.1 posting.2
  return pairs.reduceOption

/-- The order of the pairs: payee match, nearest date, nearest amount, transaction, occurrence. -/
def LinkPair.rank (pair : LinkPair) : ℕ ×ₗ ℤ ×ₗ ℤ ×ₗ List ℕ ×ₗ ℕ :=
  toLex (pair.payeeRank, toLex (pair.dateDiff, toLex (pair.amountDiff,
    toLex (byteKey pair.transactionId.toList, pair.occurrence))))

/-- What is taken so far, and the links from occurrences to transactions. -/
structure LinkState where
  occTaken : List Nat
  postingTaken : List Nat
  links : List (Nat × Uuid)

/-- Link a pair, unless its occurrence or its posting is taken. -/
def linkPair (state : LinkState) (pair : LinkPair) : LinkState :=
  if pair.occurrence ∈ state.occTaken ∨ pair.posting ∈ state.postingTaken then state
  else
    { occTaken := pair.occurrence :: state.occTaken
      postingTaken := pair.posting :: state.postingTaken
      links := state.links ++ [(pair.occurrence, pair.transactionId)] }

/-- The links of postings to occurrences, each an occurrence's place with the transaction it is
linked to; `none` where an amount overflows. -/
def assignLinks (occurrences : List Occurrence) (postings : List RealizedPosting) :
    Option (List (Nat × Uuid)) := do
  let pairs ← occurrences.zipIdx.mapM fun occurrence =>
    pairsOf postings occurrence.1 occurrence.2
  return ((sortBy LinkPair.rank pairs.flatten).foldl linkPair ⟨[], [], []⟩).links

/-! ### What may be linked -/

/-- How far the amount of a posting is off the expected one. -/
def amountDistance (occurrence : Occurrence) (posting : RealizedPosting) : Int :=
  ((posting.minorUnits.natAbs : Int) - occurrence.expectedAmountMinor).natAbs

/-- A twentieth of the expected amount, and at least the floor. -/
def toleratedDistance (occurrence : Occurrence) : Int :=
  max ((occurrence.expectedAmountMinor.natAbs * amountToleranceBps).tdiv 10000)
    amountToleranceFloorMinor

/-- A pair may be linked when the sign, the account and the window fit, and the amount does or the
payees match. -/
def Viable (occurrence : Occurrence) (posting : RealizedPosting) : Prop :=
  signOk occurrence posting = true ∧ accountOk occurrence posting = true ∧
    dateDiffOf occurrence posting ≤ recurringMatchWindowDays ∧
    (amountDistance occurrence posting ≤ toleratedDistance occurrence ∨
      payeeMatch occurrence posting = true)

instance decidableViable (occurrence : Occurrence) (posting : RealizedPosting) :
    Decidable (Viable occurrence posting) := inferInstanceAs (Decidable (_ ∧ _))

/-- The pair of an occurrence and a posting, with what it is ranked by. -/
def rankedPair (occurrence : Occurrence) (occurrenceIndex : Nat) (posting : RealizedPosting)
    (postingIndex : Nat) : LinkPair where
  payeeRank := if payeeMatch occurrence posting then 0 else 1
  dateDiff := dateDiffOf occurrence posting
  amountDiff := amountDistance occurrence posting
  transactionId := posting.transactionId
  posting := postingIndex
  occurrence := occurrenceIndex

/-- A pair of an occurrence and a posting of the lists that may be linked. -/
def Possible (occurrences : List Occurrence) (postings : List RealizedPosting) (pair : LinkPair) :
    Prop :=
  ∃ occurrence posting, occurrences[pair.occurrence]? = some occurrence ∧
    postings[pair.posting]? = some posting ∧ Viable occurrence posting ∧
    pair = rankedPair occurrence pair.occurrence posting pair.posting

theorem absI64_eq_some {value found : Int} (read : absI64 value = some found) :
    found = value.natAbs := (checkedI64_eq_some.mp read).2.symm

theorem toleranceOf_eq_some {occurrence : Occurrence} {tolerance : Int}
    (read : toleranceOf occurrence = some tolerance) :
    tolerance = toleratedDistance occurrence := by
  obtain ⟨size, sized, read⟩ := Option.bind_eq_some_iff.mp read
  obtain ⟨product, multiplied, read⟩ := Option.bind_eq_some_iff.mp read
  obtain ⟨-, rfl⟩ := checkedI64_eq_some.mp multiplied
  rw [absI64_eq_some sized] at read
  exact (Option.some.inj read).symm

theorem amountDiffOf_eq_some {occurrence : Occurrence} {posting : RealizedPosting} {diff : Int}
    (read : amountDiffOf occurrence posting = some diff) :
    diff = amountDistance occurrence posting := by
  obtain ⟨size, sized, read⟩ := Option.bind_eq_some_iff.mp read
  obtain ⟨signed, subtracted, read⟩ := Option.bind_eq_some_iff.mp read
  obtain ⟨-, rfl⟩ := checkedI64_eq_some.mp subtracted
  rw [absI64_eq_some sized] at read
  exact absI64_eq_some read

theorem pairOf_eq_some {tolerance : Int} {occurrence : Occurrence} {occurrenceIndex : Nat}
    {posting : RealizedPosting} {postingIndex : Nat} {found : Option LinkPair}
    (tolerated : tolerance = toleratedDistance occurrence)
    (read : pairOf tolerance occurrence occurrenceIndex posting postingIndex = some found) :
    found = if Viable occurrence posting then
      some (rankedPair occurrence occurrenceIndex posting postingIndex) else none := by
  unfold pairOf at read
  by_cases sign : signOk occurrence posting = false
  · rw [if_pos sign] at read
    rw [if_neg fun viable => by rw [viable.1] at sign; cases sign]
    exact (Option.some.inj read).symm
  rw [if_neg sign] at read
  by_cases account : accountOk occurrence posting = false
  · rw [if_pos account] at read
    rw [if_neg fun viable => by rw [viable.2.1] at account; cases account]
    exact (Option.some.inj read).symm
  rw [if_neg account] at read
  by_cases near : recurringMatchWindowDays < dateDiffOf occurrence posting
  · rw [if_pos near] at read
    rw [if_neg fun viable => absurd viable.2.2.1 (not_le.mpr near)]
    exact (Option.some.inj read).symm
  rw [if_neg near] at read
  rw [Bool.not_eq_false] at sign account
  obtain ⟨diff, measured, read⟩ := Option.bind_eq_some_iff.mp read
  rw [amountDiffOf_eq_some measured, tolerated] at read
  by_cases fits : amountDistance occurrence posting ≤ toleratedDistance occurrence ∨
      payeeMatch occurrence posting = true
  · rw [if_pos fits] at read
    rw [if_pos ⟨sign, account, not_lt.mp near, fits⟩]
    exact (Option.some.inj read).symm
  · rw [if_neg fits] at read
    rw [if_neg fun viable => fits viable.2.2.2]
    exact (Option.some.inj read).symm

/-! ### The pairs of a run -/

/-- All pairs that may be linked, by occurrence and then by posting. -/
def possiblePairs (occurrences : List Occurrence) (postings : List RealizedPosting) :
    List LinkPair :=
  occurrences.zipIdx.flatMap fun occurrence =>
    (postings.zipIdx.map fun posting =>
      if Viable occurrence.1 posting.1 then
        some (rankedPair occurrence.1 occurrence.2 posting.1 posting.2) else none).reduceOption

theorem mem_possiblePairs {occurrences : List Occurrence} {postings : List RealizedPosting}
    {pair : LinkPair} :
    pair ∈ possiblePairs occurrences postings ↔ Possible occurrences postings pair := by
  unfold possiblePairs Possible
  simp only [List.mem_flatMap, List.reduceOption_mem_iff, List.mem_map, Prod.exists,
    List.mk_mem_zipIdx_iff_getElem?]
  constructor
  · rintro ⟨occurrence, occurrenceIndex, occurrenceAt, posting, postingIndex, postingAt, made⟩
    split_ifs at made with viable
    obtain rfl := Option.some.inj made
    exact ⟨occurrence, posting, occurrenceAt, postingAt, viable, rfl⟩
  · rintro ⟨occurrence, posting, occurrenceAt, postingAt, viable, made⟩
    refine ⟨occurrence, pair.occurrence, occurrenceAt, posting, pair.posting, postingAt, ?_⟩
    rw [if_pos viable, ← made]

/-- The link that a pair makes. -/
def LinkPair.link (pair : LinkPair) : Nat × Uuid := (pair.occurrence, pair.transactionId)

theorem foldl_linkPair (pairs : List LinkPair) :
    let chosen := greedy LinkPair.occurrence LinkPair.posting pairs
    let state := pairs.foldl linkPair ⟨[], [], []⟩
    (∀ place, place ∈ state.occTaken ↔ ∃ pair ∈ chosen, pair.occurrence = place) ∧
      (∀ place, place ∈ state.postingTaken ↔ ∃ pair ∈ chosen, pair.posting = place) ∧
      state.links = chosen.map LinkPair.link := by
  intro chosen state
  subst chosen state
  induction pairs using List.reverseRecOn with
  | nil =>
    rw [greedy_nil]
    refine ⟨fun place => iff_of_false List.not_mem_nil ?_,
      fun place => iff_of_false List.not_mem_nil ?_, rfl⟩
    · rintro ⟨pair, member, -⟩
      cases member
    · rintro ⟨pair, member, -⟩
      cases member
  | append_singleton pairs last inductionHypothesis =>
    obtain ⟨occurrencesTaken, postingsTaken, linked⟩ := inductionHypothesis
    rw [List.foldl_append, List.foldl_cons, List.foldl_nil, greedy_concat]
    have met : (last.occurrence ∈ (pairs.foldl linkPair ⟨[], [], []⟩).occTaken ∨
        last.posting ∈ (pairs.foldl linkPair ⟨[], [], []⟩).postingTaken) ↔
        ∃ other ∈ greedy LinkPair.occurrence LinkPair.posting pairs,
          Meets LinkPair.occurrence LinkPair.posting other last := by
      rw [occurrencesTaken, postingsTaken]
      simp only [Meets, and_or_left, exists_or]
    by_cases taken : ∃ other ∈ greedy LinkPair.occurrence LinkPair.posting pairs,
        Meets LinkPair.occurrence LinkPair.posting other last
    · rw [take, if_pos taken, linkPair, if_pos (met.mpr taken)]
      exact ⟨occurrencesTaken, postingsTaken, linked⟩
    · rw [take, if_neg taken, linkPair, if_neg (mt met.mp taken)]
      simp only [List.mem_cons, occurrencesTaken, postingsTaken, linked, List.mem_append,
        List.not_mem_nil, or_false, or_and_right, exists_or, exists_eq_left, List.map_append,
        List.map_cons, List.map_nil, LinkPair.link, and_true]
      exact ⟨fun place => by rw [or_comm, eq_comm], fun place => by rw [or_comm, eq_comm]⟩

/-- The pairs that are linked. -/
def chosenPairs (occurrences : List Occurrence) (postings : List RealizedPosting) :
    List LinkPair :=
  greedy LinkPair.occurrence LinkPair.posting
    (sortBy LinkPair.rank (possiblePairs occurrences postings))

theorem assignLinks_eq_some {occurrences : List Occurrence} {postings : List RealizedPosting}
    {links : List (Nat × Uuid)} (assigned : assignLinks occurrences postings = some links) :
    links = (chosenPairs occurrences postings).map LinkPair.link := by
  obtain ⟨pairs, paired, assigned⟩ := Option.bind_eq_some_iff.mp assigned
  have known := @Fallible.map_eq_of_mapM_option _ _ _
    (fun occurrence : Occurrence × Nat =>
      (postings.zipIdx.map fun posting =>
        if Viable occurrence.1 posting.1 then
          some (rankedPair occurrence.1 occurrence.2 posting.1 posting.2) else none).reduceOption)
    (fun occurrence found read => by
      obtain ⟨tolerance, tolerated, read⟩ := Option.bind_eq_some_iff.mp read
      obtain ⟨each, made, read⟩ := Option.bind_eq_some_iff.mp read
      rw [Fallible.map_eq_of_mapM_option (fun posting word pairing =>
        (pairOf_eq_some (toleranceOf_eq_some tolerated) pairing).symm) made]
      exact Option.some.inj read) _ _ paired
  have flat : pairs.flatten = possiblePairs occurrences postings := by
    rw [← known, ← List.flatMap_def]
    rfl
  rw [flat] at assigned
  rw [← Option.some.inj assigned]
  exact (foldl_linkPair _).2.2

/-! ### Where no amount overflows -/

/-- Where the other rules fit, how far the amount is off is in range. -/
def Measured (occurrence : Occurrence) (posting : RealizedPosting) : Prop :=
  signOk occurrence posting = true → accountOk occurrence posting = true →
    dateDiffOf occurrence posting ≤ recurringMatchWindowDays →
      (amountDiffOf occurrence posting).isSome = true

theorem isSome_pairOf {tolerance : Int} {occurrence : Occurrence} {occurrenceIndex : Nat}
    {posting : RealizedPosting} {postingIndex : Nat} :
    (pairOf tolerance occurrence occurrenceIndex posting postingIndex).isSome = true ↔
      Measured occurrence posting := by
  unfold pairOf
  by_cases sign : signOk occurrence posting = false
  · rw [if_pos sign]
    refine iff_of_true rfl fun fits => ?_
    rw [sign] at fits
    cases fits
  rw [if_neg sign]
  by_cases account : accountOk occurrence posting = false
  · rw [if_pos account]
    refine iff_of_true rfl fun _ fits => ?_
    rw [account] at fits
    cases fits
  rw [if_neg account]
  by_cases near : recurringMatchWindowDays < dateDiffOf occurrence posting
  · rw [if_pos near]
    exact iff_of_true rfl fun _ _ fits => absurd fits (not_le.mpr near)
  rw [if_neg near]
  rw [Bool.not_eq_false] at sign account
  have rest : Measured occurrence posting ↔ (amountDiffOf occurrence posting).isSome = true :=
    ⟨fun measured => measured sign account (not_lt.mp near), fun found _ _ _ => found⟩
  rw [rest]
  cases amountDiffOf occurrence posting with
  | none => rfl
  | some diff =>
    refine iff_of_true ?_ rfl
    rw [Option.bind_eq_bind, Option.bind_some]
    by_cases fits : diff ≤ tolerance ∨ payeeMatch occurrence posting = true
    · rw [if_pos fits]
      rfl
    · rw [if_neg fits]
      rfl

theorem forall_zipIdx {Item : Type} {items : List Item} (holds : Item → Prop) :
    (∀ item ∈ items.zipIdx, holds item.1) ↔ ∀ item ∈ items, holds item := by
  have firsts := List.zipIdx_map_fst 0 items
  constructor
  · intro held item member
    rw [← firsts] at member
    obtain ⟨placed, placedIn, rfl⟩ := List.mem_map.mp member
    exact held placed placedIn
  · intro held item member
    exact held item.1 (firsts ▸ List.mem_map_of_mem member)

theorem isSome_return {Value Result : Type} {attempt : Option Value} {next : Value → Result} :
    (attempt >>= fun value => pure (next value)).isSome = attempt.isSome := by
  cases attempt with
  | none => rfl
  | some value => rfl

theorem isSome_pairsOf {postings : List RealizedPosting} {occurrence : Occurrence} {index : Nat} :
    (pairsOf postings occurrence index).isSome = true ↔
      (toleranceOf occurrence).isSome = true ∧
        ∀ posting ∈ postings, Measured occurrence posting := by
  unfold pairsOf
  cases toleranceOf occurrence with
  | none => exact iff_of_false Bool.false_ne_true fun both => Bool.false_ne_true both.1
  | some tolerance =>
    rw [Option.bind_eq_bind, Option.bind_some, isSome_return, Fallible.isSome_mapM]
    simp only [isSome_pairOf]
    rw [forall_zipIdx (Measured occurrence)]
    exact (and_iff_right rfl).symm

theorem isSome_assignLinks {occurrences : List Occurrence} {postings : List RealizedPosting} :
    (assignLinks occurrences postings).isSome = true ↔
      ∀ occurrence ∈ occurrences, (toleranceOf occurrence).isSome = true ∧
        ∀ posting ∈ postings, Measured occurrence posting := by
  unfold assignLinks
  rw [isSome_return, Fallible.isSome_mapM]
  simp only [isSome_pairsOf]
  exact forall_zipIdx fun occurrence : Occurrence =>
    (toleranceOf occurrence).isSome = true ∧ ∀ posting ∈ postings, Measured occurrence posting

/-- The product that the tolerance of an amount is made from stays in range. -/
def ProductFits (amount : Int) : Prop := InI64 (amount.natAbs * amountToleranceBps)

theorem isSome_toleranceOf {occurrence : Occurrence}
    (fits : ProductFits occurrence.expectedAmountMinor) :
    (toleranceOf occurrence).isSome = true := by
  have size : InI64 occurrence.expectedAmountMinor.natAbs := by
    unfold ProductFits amountToleranceBps InI64 at fits
    unfold InI64 minI64
    omega
  unfold toleranceOf absI64
  rw [checkedI64_eq_some.mpr ⟨size, rfl⟩, Option.bind_eq_bind, Option.bind_some,
    checkedI64_eq_some.mpr ⟨fits, rfl⟩]
  rfl

theorem isSome_amountDiffOf {occurrence : Occurrence} {posting : RealizedPosting}
    (size : InI64 posting.minorUnits.natAbs)
    (distance : InI64 (amountDistance occurrence posting)) :
    (amountDiffOf occurrence posting).isSome = true := by
  have signed : InI64 (posting.minorUnits.natAbs - occurrence.expectedAmountMinor) := by
    unfold amountDistance InI64 at distance
    unfold InI64
    unfold minI64 maxI64 at *
    omega
  unfold amountDiffOf absI64
  rw [checkedI64_eq_some.mpr ⟨size, rfl⟩, Option.bind_eq_bind, Option.bind_some,
    checkedI64_eq_some.mpr ⟨signed, rfl⟩, Option.bind_some]
  exact congrArg Option.isSome (checkedI64_eq_some.mpr ⟨distance, rfl⟩)

/-! ### The order of the postings -/

/-- A pair without the place of its posting. -/
def unplaced (pair : LinkPair) : LinkPair := { pair with posting := 0 }

theorem map_unplaced {occurrences : List Occurrence} {postings : List RealizedPosting} :
    (possiblePairs occurrences postings).map unplaced = occurrences.zipIdx.flatMap fun occurrence =>
      postings.filterMap fun posting =>
        if Viable occurrence.1 posting then
          some (rankedPair occurrence.1 occurrence.2 posting 0) else none := by
  unfold possiblePairs
  rw [List.map_flatMap]
  refine List.flatMap_congr fun occurrence _ => ?_
  conv_rhs => rw [← List.zipIdx_map_fst 0 postings, List.filterMap_map]
  rw [List.reduceOption, List.filterMap_map, List.map_filterMap]
  refine List.filterMap_congr fun posting _ => ?_
  simp only [Function.comp_apply, id_eq]
  split_ifs
  · rfl
  · rfl

theorem map_unplaced_perm {occurrences : List Occurrence} {postings others : List RealizedPosting}
    (perm : others.Perm postings) :
    ((possiblePairs occurrences others).map unplaced).Perm
      ((possiblePairs occurrences postings).map unplaced) := by
  rw [map_unplaced, map_unplaced]
  exact List.Perm.flatMap_left _ fun occurrence _ => perm.filterMap _

theorem unplaced_eq_of_rank {first second : LinkPair} (same : first.rank = second.rank) :
    unplaced first = unplaced second := by
  obtain ⟨payee, rest⟩ := Prod.mk.inj (toLex_inj.mp same)
  obtain ⟨date, rest⟩ := Prod.mk.inj (toLex_inj.mp rest)
  obtain ⟨amount, rest⟩ := Prod.mk.inj (toLex_inj.mp rest)
  obtain ⟨transaction, occurrence⟩ := Prod.mk.inj (toLex_inj.mp rest)
  have transaction : first.transactionId = second.transactionId :=
    List.Vector.toList_injective (byteKey_injective transaction)
  unfold unplaced
  rw [payee, date, amount, transaction, occurrence]

theorem sortBy_map_unplaced (pairs : List LinkPair) :
    sortBy LinkPair.rank (pairs.map unplaced) = (sortBy LinkPair.rank pairs).map unplaced :=
  (List.map_insertionSort _ _ unplaced pairs fun _ _ _ _ => Iff.rfl).symm

theorem map_unplaced_chosenPairs {occurrences : List Occurrence} {postings : List RealizedPosting}
    (distinct : (postings.map RealizedPosting.transactionId).Nodup) :
    (chosenPairs occurrences postings).map unplaced =
      greedy LinkPair.occurrence LinkPair.transactionId
        (sortBy LinkPair.rank ((possiblePairs occurrences postings).map unplaced)) := by
  rw [sortBy_map_unplaced, chosenPairs]
  refine (greedy_map LinkPair.occurrence LinkPair.posting ?_).symm
  intro first firstIn second secondIn
  obtain ⟨_, posting, -, postingAt, -, made⟩ := mem_possiblePairs.mp (mem_sortBy.mp firstIn)
  obtain ⟨_, other, -, otherAt, -, otherMade⟩ := mem_possiblePairs.mp (mem_sortBy.mp secondIn)
  have transaction : first.transactionId = posting.transactionId := congrArg _ made
  have otherTransaction : second.transactionId = other.transactionId := congrArg _ otherMade
  refine or_congr_right ?_
  show first.transactionId = second.transactionId ↔ first.posting = second.posting
  constructor
  · intro same
    obtain ⟨inside, -⟩ := List.getElem?_eq_some_iff.mp postingAt
    have inRange : first.posting < (postings.map RealizedPosting.transactionId).length := by
      rwa [List.length_map]
    refine (List.getElem?_inj inRange distinct).mp ?_
    rw [List.getElem?_map, List.getElem?_map, postingAt, otherAt, Option.map_some, Option.map_some,
      ← transaction, ← otherTransaction, same]
  · intro same
    rw [same, otherAt] at postingAt
    rw [transaction, otherTransaction, Option.some.inj postingAt]

theorem map_link_eq (pairs : List LinkPair) :
    pairs.map LinkPair.link = (pairs.map unplaced).map LinkPair.link := by
  rw [List.map_map]
  rfl

theorem assignLinks_perm {occurrences : List Occurrence} {postings others : List RealizedPosting}
    (distinct : (postings.map RealizedPosting.transactionId).Nodup) (perm : others.Perm postings) :
    assignLinks occurrences others = assignLinks occurrences postings := by
  have measured : (assignLinks occurrences others).isSome = true ↔
      (assignLinks occurrences postings).isSome = true := by
    rw [isSome_assignLinks, isSome_assignLinks]
    simp only [perm.mem_iff]
  have pairs : (chosenPairs occurrences others).map unplaced =
      (chosenPairs occurrences postings).map unplaced := by
    rw [map_unplaced_chosenPairs distinct,
      map_unplaced_chosenPairs ((perm.map _).nodup_iff.mpr distinct)]
    refine congrArg _ ((sortBy_eq_iff_perm ?_).mpr (map_unplaced_perm perm))
    intro first firstIn second secondIn same
    obtain ⟨pair, -, rfl⟩ := List.mem_map.mp firstIn
    obtain ⟨other, -, rfl⟩ := List.mem_map.mp secondIn
    exact unplaced_eq_of_rank same
  cases assigned : assignLinks occurrences postings with
  | none =>
    rw [assigned] at measured
    exact Option.not_isSome_iff_eq_none.mp fun found => Bool.false_ne_true (measured.mp found)
  | some links =>
    rw [assigned] at measured
    obtain ⟨otherLinks, otherAssigned⟩ := Option.isSome_iff_exists.mp (measured.mpr rfl)
    rw [otherAssigned, assignLinks_eq_some otherAssigned, assignLinks_eq_some assigned, map_link_eq,
      pairs, ← map_link_eq]

/-! ### Stability -/

/-- A pair ranks before the link of its occurrence and before the link of its posting, as far as
they have links. -/
def Blocking (chosen : List LinkPair) (pair : LinkPair) : Prop :=
  (∀ link ∈ chosen, link.occurrence = pair.occurrence → pair.rank < link.rank) ∧
    ∀ link ∈ chosen, link.posting = pair.posting → pair.rank < link.rank

/-- The links are those of pairs that may be linked, each occurrence and each posting is in at
most one, and no pair that may be linked is left out that ranks before the links of both its ends
or finds them free. They are made where the tolerance products and the distances of the amounts
stay in range, and where no two postings are of one transaction, they are the same for every
order of the postings. -/
theorem links_stable (occurrences : List Occurrence) (postings : List RealizedPosting) :
    (∀ links, assignLinks occurrences postings = some links →
      ∃ chosen : List LinkPair, links = chosen.map LinkPair.link ∧
        (∀ pair ∈ chosen, Possible occurrences postings pair) ∧
        (chosen.Pairwise fun first second =>
          first.occurrence ≠ second.occurrence ∧ first.posting ≠ second.posting) ∧
        ∀ pair, Possible occurrences postings pair → ¬ Blocking chosen pair) ∧
    ((∀ occurrence ∈ occurrences, ProductFits occurrence.expectedAmountMinor ∧
        ∀ posting ∈ postings, InI64 posting.minorUnits.natAbs ∧
          InI64 (amountDistance occurrence posting)) →
      ∃ links, assignLinks occurrences postings = some links) ∧
    ((postings.map RealizedPosting.transactionId).Nodup → ∀ others, others.Perm postings →
      assignLinks occurrences others = assignLinks occurrences postings) := by
  refine ⟨fun links assigned => ?_, fun fits => ?_, fun distinct others perm =>
    assignLinks_perm distinct perm⟩
  · refine ⟨chosenPairs occurrences postings, assignLinks_eq_some assigned, fun pair member => ?_,
      ?_, fun pair possible blocking => ?_⟩
    · exact mem_possiblePairs.mp (mem_sortBy.mp (mem_of_mem_greedy _ _ member))
    · exact (greedy_apart _ _ _).imp fun apart => not_or.mp apart
    · have ascending : (sortBy LinkPair.rank (possiblePairs occurrences postings)).Pairwise
          fun first second => first.rank ≤ second.rank := sortBy_ascends _
      obtain ⟨link, linked, meets, below⟩ := exists_meets_greedy LinkPair.occurrence
        LinkPair.posting ascending (mem_sortBy.mpr (mem_possiblePairs.mpr possible))
      rcases meets with sameOccurrence | samePosting
      · exact absurd below (not_le.mpr (blocking.1 link linked sameOccurrence))
      · exact absurd below (not_le.mpr (blocking.2 link linked samePosting))
  · refine Option.isSome_iff_exists.mp (isSome_assignLinks.mpr fun occurrence member => ?_)
    obtain ⟨product, distances⟩ := fits occurrence member
    refine ⟨isSome_toleranceOf product, fun posting postingIn _ _ _ => ?_⟩
    obtain ⟨size, distance⟩ := distances posting postingIn
    exact isSome_amountDiffOf size distance

end Dohflow.DbWorker
