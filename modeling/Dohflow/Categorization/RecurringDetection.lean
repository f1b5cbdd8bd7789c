/-
This file models the detection of recurring charges, and proves what its suggestions
say and when they do not depend on the order of the history.

The observations of one merchant and currency are sorted by date and then by amount.
The lower median of their gaps picks a cadence, and the group is suggested when it has
three observations and half of its gaps keep that cadence. Everything in a suggestion
but its label is told by the dates and amounts of the group. The label is the last
observation's, so it is settled just where the observations that tie for the last place
share it.
-/

import Dohflow.Foundation.Calendar
import Dohflow.Foundation.Grouping
import Dohflow.Foundation.MachineIntegers
import Mathlib.Data.String.Basic

namespace Dohflow.Categorization

open Calendar CanonicalOrder Grouping MachineIntegers

variable {key : String × String} {today : Date}

/-! ### Observations and suggestions -/

def minOccurrences : Nat := 3

def minCadenceRegularityBps : Nat := 5000

def amountBandBps : Int := 1000

def amountBandFloorMinor : Int := 500

/-- The half-width of the band around an amount. The scaled amount is back in range, as it is at
most a tenth. -/
def amountBandMinor (referenceMinor : Int) : Int :=
  let scaled := (referenceMinor.natAbs * amountBandBps).tdiv 10000
  max (if scaled ≤ maxI64 then scaled else maxI64) amountBandFloorMinor

/-- A realized outflow of a merchant, its amount the positive magnitude. -/
structure Observation where
  merchantKey : String
  display : String
  date : Date
  amountMinor : Int
  currency : String
  positive : 0 < amountMinor
  fits : amountMinor ≤ maxI64
  deriving DecidableEq

/-- A candidate that the user confirms before anything is made of it. -/
structure RecurringCandidate where
  merchantKey : String
  /-- The label of the last observation. -/
  display : String
  /-- The median charge. -/
  amountMinor : Int
  amountMinMinor : Int
  amountMaxMinor : Int
  currency : String
  frequency : String
  lastSeen : Date
  nextDate : Date
  occurrenceCount : Nat
  confidenceBps : Nat

/-- A cadence: its token, the band that a median gap falls in, and the interval of its projection. -/
structure Cadence where
  token : String
  lo : Int
  hi : Int
  intervalDays : Int

def cadences : List Cadence :=
  [⟨"weekly", 6, 8, 7⟩, ⟨"biweekly", 12, 16, 14⟩, ⟨"monthly", 26, 35, 30⟩,
    ⟨"quarterly", 82, 100, 91⟩, ⟨"annual", 350, 380, 365⟩]

/-- A gap that the band of a cadence holds. -/
def Cadence.Holds (cadence : Cadence) (gap : Int) : Prop := cadence.lo ≤ gap ∧ gap ≤ cadence.hi

instance decidableHolds (cadence : Cadence) (gap : Int) : Decidable (cadence.Holds gap) :=
  inferInstanceAs (Decidable (_ ∧ _))

/-! ### Detection -/

/-- The lower median of a sorted list; `none` where it is empty. -/
def medianI64 (sorted : List Int) : Option Int := sorted[(sorted.length - 1) / 2]?

/-- The days between neighbours. -/
def gaps (dates : List Date) : List Int :=
  (dates.zip dates.tail).map fun dates => dates.2.dayNumber - dates.1.dayNumber

/-- The share of some items among all, in basis points. -/
def shareBps (part whole : Nat) : Nat := part * 10000 / whole

/-- The cadence of some gaps, with the share of them that keep it, if it is recognized and enough
keep it. -/
def cadenceOf (intervals : List Int) : Option (Cadence × Nat) := do
  let medianInterval ← medianI64 (sortBy id intervals)
  let cadence ← cadences.find? fun cadence => cadence.Holds medianInterval
  let cadenceBps := shareBps (intervals.countP fun gap => cadence.Holds gap) intervals.length
  if cadenceBps < minCadenceRegularityBps then none
  else return (cadence, cadenceBps)

/-- The share of the amounts, in basis points, that are in the band around an amount. -/
def amountBps (medianAmount : Int) (amounts : List Int) : Nat :=
  shareBps
    (amounts.countP fun amount =>
      ((amount - medianAmount).natAbs : Int) ≤ amountBandMinor medianAmount)
    amounts.length

/-- Confidence grows with the occurrences, the regularity and the amounts that agree. -/
def confidence (count cadenceBps amountBps : Nat) : Nat :=
  let countBps := min ((count - 2) * 2500) 10000
  countBps * cadenceBps / 10000 * (5000 + amountBps / 2) / 10000

/-- Advance a date by whole intervals until it is not before today. -/
def rollForward (date today : Date) (intervalDays : Int) : Date :=
  if today ≤ date ∨ intervalDays ≤ 0 then date
  else
    let gap := today.dayNumber - date.dayNumber
    let steps := (gap + intervalDays - 1).tdiv intervalDays
    date.addDays (steps * intervalDays)

/-- What a group is sorted by. -/
def Observation.chronology (observation : Observation) : Date ×ₗ Int :=
  toLex (observation.date, observation.amountMinor)

/-- What is suggested of the dates and amounts of a group in their order, under a label. -/
def suggest (today : Date) (key : String × String) (history : List (Date × Int)) (display : String) :
    Option RecurringCandidate := do
  let (cadence, cadenceBps) ← cadenceOf (gaps (history.map Prod.fst))
  let amounts := sortBy id (history.map Prod.snd)
  let medianAmount ← medianI64 amounts
  let lastSeen := (← history.getLast?).1
  return {
    merchantKey := key.1
    display
    amountMinor := medianAmount
    amountMinMinor := amounts.head?.getD medianAmount
    amountMaxMinor := amounts.getLast?.getD medianAmount
    currency := key.2
    frequency := cadence.token
    lastSeen
    nextDate := rollForward (lastSeen.addDays cadence.intervalDays) today cadence.intervalDays
    occurrenceCount := history.length
    confidenceBps := confidence history.length cadenceBps (amountBps medianAmount amounts) }

/-- The candidate of a group, if it recurs. A group of three has a gap, an amount and a last
observation. -/
def candidateOf (today : Date) (key : String × String) (observations : List Observation) :
    Option RecurringCandidate :=
  if observations.length < minOccurrences then none
  else do
    let group := sortBy Observation.chronology observations
    let last ← group.getLast?
    suggest today key (group.map fun observation => (observation.date, observation.amountMinor))
      last.display

/-- The merchant and the currency that an observation is grouped by. -/
def groupEntry (observation : Observation) : Option ((String × String) × Observation) :=
  some ((observation.merchantKey, observation.currency), observation)

/-- The order of the candidates: the highest confidence first, then by merchant and currency. -/
def RecurringCandidate.rank (candidate : RecurringCandidate) : ℤ ×ₗ String ×ₗ String :=
  toLex (-candidate.confidenceBps, toLex (candidate.merchantKey, candidate.currency))

def detectRecurring (observations : List Observation) (today : Date) : List RecurringCandidate :=
  sortBy RecurringCandidate.rank
    ((groups (toLex : String × String → String ×ₗ String) groupEntry observations).filterMap
      fun group => candidateOf today group.key group.values)

/-! ### Shares and medians -/

theorem shareBps_le {part whole : Nat} (among : part ≤ whole) : shareBps part whole ≤ 10000 := by
  refine Nat.div_le_of_le_mul ?_
  rw [Nat.mul_comm whole]
  exact (Nat.mul_comm part 10000).le.trans (Nat.mul_le_mul_left _ among)

theorem confidence_le {count cadenceBps amountBps : Nat} (cadence : cadenceBps ≤ 10000)
    (amount : amountBps ≤ 10000) : confidence count cadenceBps amountBps ≤ 10000 := by
  have counted : min ((count - 2) * 2500) 10000 ≤ 10000 := min_le_right _ _
  have backbone : min ((count - 2) * 2500) 10000 * cadenceBps / 10000 ≤ 10000 :=
    Nat.div_le_of_le_mul (Nat.mul_le_mul counted cadence)
  have scale : 5000 + amountBps / 2 ≤ 10000 := by omega
  exact Nat.div_le_of_le_mul (Nat.mul_le_mul backbone scale)

theorem exists_medianI64 {sorted : List Int} (some : sorted ≠ []) :
    ∃ median, medianI64 sorted = .some median := by
  have inside : (sorted.length - 1) / 2 < sorted.length := by
    have := List.length_pos_iff.mpr some
    omega
  exact ⟨_, List.getElem?_eq_getElem inside⟩

theorem medianI64_spec {values : List Int} {median : Int}
    (found : medianI64 (sortBy id values) = some median) :
    median ∈ values ∧ (sortBy id values).head?.getD median ≤ median ∧
      median ≤ (sortBy id values).getLast?.getD median := by
  have member := List.mem_of_getElem? found
  have ascends := @sortBy_ascends _ _ _ id values
  refine ⟨mem_sortBy.mp member, ?_, ?_⟩
  · cases sorted : sortBy id values with
    | nil => exact le_rfl
    | cons first rest =>
      rw [sorted] at member ascends
      rcases List.mem_cons.mp member with rfl | behind
      · exact le_rfl
      · exact (List.pairwise_cons.mp ascends).1 median behind
  · rcases List.eq_nil_or_concat (sortBy id values) with sorted | ⟨before, last, sorted⟩
    · rw [sorted] at member
      cases member
    · rw [sorted, List.concat_eq_append] at member ascends ⊢
      rw [List.getLast?_concat, Option.getD_some]
      rcases List.mem_append.mp member with earlier | single
      · exact (List.pairwise_append.mp ascends).2.2 median earlier last (List.mem_singleton_self _)
      · exact (List.mem_singleton.mp single).le

variable {cadence : Cadence}

theorem cadenceOf_spec {intervals : List Int} {cadenceBps : Nat}
    (found : cadenceOf intervals = some (cadence, cadenceBps)) :
    cadence ∈ cadences ∧ cadenceBps ≤ 10000 := by
  obtain ⟨median, -, found⟩ := Option.bind_eq_some_iff.mp found
  obtain ⟨picked, matched, found⟩ := Option.bind_eq_some_iff.mp found
  dsimp only at found
  split_ifs at found with few
  obtain ⟨rfl, rfl⟩ := Prod.mk.inj (Option.some.inj found)
  exact ⟨List.mem_of_find?_eq_some matched, shareBps_le List.countP_le_length⟩

/-! ### The projection -/

theorem intervalDays_pos (member : cadence ∈ cadences) : 0 < cadence.intervalDays := by
  have all : ∀ cadence ∈ cadences, 0 < cadence.intervalDays := by decide
  exact all cadence member

/-- The first date of a cadence behind one it was seen on that is not before today. -/
def IsNext (lastSeen today : Date) (intervalDays : Int) (next : Date) : Prop :=
  ∃ count : Int, 1 ≤ count ∧ next = lastSeen.addDays (count * intervalDays) ∧ today ≤ next ∧
    ∀ other : Int, 1 ≤ other → today ≤ lastSeen.addDays (other * intervalDays) → count ≤ other

theorem le_addDays_iff {date today : Date} {days : Int} :
    today ≤ date.addDays days ↔ today.dayNumber - date.dayNumber ≤ days := by
  rw [← Date.dayNumber_le_iff, Date.dayNumber_addDays]
  omega

theorem isNext_rollForward (lastSeen today : Date) {intervalDays : Int} (positive : 0 < intervalDays) :
    IsNext lastSeen today intervalDays
      (rollForward (lastSeen.addDays intervalDays) today intervalDays) := by
  unfold rollForward
  by_cases current : today ≤ lastSeen.addDays intervalDays
  · rw [if_pos (.inl current)]
    exact ⟨1, le_rfl, by rw [Int.one_mul], current, fun other first _ => first⟩
  rw [if_neg (not_or.mpr ⟨current, Int.not_le.mpr positive⟩)]
  rw [le_addDays_iff, Int.not_le] at current
  have gap : today.dayNumber - (lastSeen.addDays intervalDays).dayNumber =
      today.dayNumber - lastSeen.dayNumber - intervalDays := by
    rw [Date.dayNumber_addDays]
    omega
  dsimp only
  rw [gap]
  generalize measured : today.dayNumber - lastSeen.dayNumber = behind at current
  have steps : (behind - intervalDays + intervalDays - 1).tdiv intervalDays =
      (behind - 1) / intervalDays := by
    rw [Int.tdiv_eq_ediv_of_nonneg (by omega), Int.sub_add_cancel]
  have reached : behind - 1 < ((behind - 1) / intervalDays + 1) * intervalDays :=
    Int.lt_ediv_add_one_mul_self _ positive
  have some : 0 ≤ (behind - 1) / intervalDays := Int.ediv_nonneg (by omega) positive.le
  have same : (lastSeen.addDays intervalDays).addDays ((behind - 1) / intervalDays * intervalDays) =
      lastSeen.addDays (((behind - 1) / intervalDays + 1) * intervalDays) := by
    rw [Date.addDays_addDays, Int.add_mul, Int.one_mul, Int.add_comm]
  rw [steps, same]
  refine ⟨_, Int.le_add_of_nonneg_left some, rfl, ?_, fun other _ later => ?_⟩
  · rw [le_addDays_iff, measured]
    exact Int.le_of_sub_one_lt reached
  · rw [le_addDays_iff, measured] at later
    exact Int.ediv_lt_of_lt_mul positive (Int.sub_one_lt_of_le later)

/-! ### One group -/

/-- The observations of a merchant and currency. -/
def groupOf (key : String × String) (observations : List Observation) : List Observation :=
  observations.filter fun observation => (observation.merchantKey, observation.currency) = key

variable {observations : List Observation} {observation : Observation}

theorem mem_groupOf :
    observation ∈ groupOf key observations ↔
      observation ∈ observations ∧ (observation.merchantKey, observation.currency) = key := by
  rw [groupOf, List.mem_filter, decide_eq_true_eq]

theorem valuesAt_groupEntry (key : String × String) (observations : List Observation) :
    valuesAt groupEntry key observations = groupOf key observations := by
  rw [valuesAt, groupOf, ← List.filterMap_eq_filter]
  refine List.filterMap_congr fun observation _ => ?_
  unfold groupEntry Option.guard
  rw [Option.bind_some]
  simp only [decide_eq_true_eq]

/-- The dates and amounts of a group, in their order. -/
def historyOf (group : List Observation) : List (Date × Int) :=
  (sortBy Observation.chronology group).map fun observation =>
    (observation.date, observation.amountMinor)

/-- The label of the last observation of a group. -/
def lastLabel (group : List Observation) : Option String :=
  (sortBy Observation.chronology group).getLast?.map Observation.display

/-- An observation of a group behind which none of it stands. -/
def Latest (group : List Observation) (observation : Observation) : Prop :=
  observation ∈ group ∧ ∀ other ∈ group, other.chronology ≤ observation.chronology

variable {last : Observation}

theorem latest_of_getLast? {group : List Observation}
    (behind : (sortBy Observation.chronology group).getLast? = some last) : Latest group last := by
  refine ⟨mem_sortBy.mp (List.mem_of_getLast? behind), fun other member => ?_⟩
  obtain ⟨before, sorted⟩ := List.getLast?_eq_some_iff.mp behind
  have ascends := @sortBy_ascends _ _ _ Observation.chronology group
  rw [← @mem_sortBy _ _ _ Observation.chronology, sorted] at member
  rw [sorted] at ascends
  rcases List.mem_append.mp member with earlier | single
  · exact (List.pairwise_append.mp ascends).2.2 other earlier last (List.mem_singleton_self _)
  · exact (congrArg Observation.chronology (List.mem_singleton.mp single)).le

theorem date_le_of_chronology_le {first second : Observation}
    (before : first.chronology ≤ second.chronology) : first.date ≤ second.date := by
  rcases Prod.Lex.toLex_le_toLex.mp before with earlier | ⟨same, -⟩
  · exact earlier.le
  · exact same.le

/-- A group recurs when it has three observations whose gaps keep a recognized cadence. -/
def Recurs (group : List Observation) : Prop :=
  minOccurrences ≤ group.length ∧ (cadenceOf (gaps ((historyOf group).map Prod.fst))).isSome = true

theorem candidateOf_eq (today : Date) (key : String × String) (group : List Observation) :
    candidateOf today key group =
      if group.length < minOccurrences then none
      else (lastLabel group).bind (suggest today key (historyOf group)) := by
  unfold candidateOf lastLabel historyOf
  rw [Option.bind_map]
  rfl

variable {group others : List Observation}

theorem historyOf_perm (perm : group.Perm others) : historyOf group = historyOf others := by
  have same := congrArg (List.map ofLex) (@map_sortBy_perm _ _ _ Observation.chronology _ _ perm)
  rw [List.map_map, List.map_map] at same
  exact same

theorem mem_historyOf {group : List Observation} {charge : Date × Int} :
    charge ∈ historyOf group ↔
      ∃ observation ∈ group, (observation.date, observation.amountMinor) = charge := by
  unfold historyOf
  simp only [List.mem_map, mem_sortBy]

theorem length_historyOf (group : List Observation) : (historyOf group).length = group.length := by
  rw [historyOf, List.length_map, length_sortBy]

theorem Recurs.perm (perm : group.Perm others) : Recurs group ↔ Recurs others := by
  unfold Recurs
  rw [perm.length_eq, historyOf_perm perm]

variable {candidate : RecurringCandidate}

theorem suggest_eq_some {history : List (Date × Int)} {display : String}
    (made : suggest today key history display = some candidate) :
    ∃ cadence cadenceBps median last,
      cadenceOf (gaps (history.map Prod.fst)) = some (cadence, cadenceBps) ∧
      medianI64 (sortBy id (history.map Prod.snd)) = some median ∧
      history.getLast? = some last ∧
      candidate =
        { merchantKey := key.1
          display
          amountMinor := median
          amountMinMinor := (sortBy id (history.map Prod.snd)).head?.getD median
          amountMaxMinor := (sortBy id (history.map Prod.snd)).getLast?.getD median
          currency := key.2
          frequency := cadence.token
          lastSeen := last.1
          nextDate := rollForward (last.1.addDays cadence.intervalDays) today cadence.intervalDays
          occurrenceCount := history.length
          confidenceBps := confidence history.length cadenceBps
            (amountBps median (sortBy id (history.map Prod.snd))) } := by
  obtain ⟨⟨cadence, cadenceBps⟩, kept, made⟩ := Option.bind_eq_some_iff.mp made
  obtain ⟨median, middle, made⟩ := Option.bind_eq_some_iff.mp made
  obtain ⟨last, behind, made⟩ := Option.bind_eq_some_iff.mp made
  exact ⟨cadence, cadenceBps, median, last, kept, middle, behind, (Option.some.inj made).symm⟩

theorem exists_candidateOf (today : Date) (key : String × String) {group : List Observation}
    (recurs : Recurs group) : ∃ candidate, candidateOf today key group = some candidate := by
  obtain ⟨enough, recognized⟩ := recurs
  have some : historyOf group ≠ [] := by
    rw [← List.length_pos_iff, length_historyOf]
    exact Nat.lt_of_lt_of_le (by decide) enough
  obtain ⟨before, last, sorted⟩ := (List.eq_nil_or_concat (sortBy Observation.chronology group)).resolve_left
    fun none => some (by rw [historyOf, none, List.map_nil])
  rw [List.concat_eq_append] at sorted
  obtain ⟨⟨cadence, cadenceBps⟩, kept⟩ := Option.isSome_iff_exists.mp recognized
  have amounts : sortBy id ((historyOf group).map Prod.snd) ≠ [] := by
    rw [← List.length_pos_iff, length_sortBy, List.length_map, List.length_pos_iff]
    exact some
  obtain ⟨median, middle⟩ := exists_medianI64 amounts
  have behind : (historyOf group).getLast? = .some (last.date, last.amountMinor) := by
    rw [historyOf, sorted, List.map_append, List.map_singleton, List.getLast?_concat]
  rw [candidateOf_eq, if_neg (Nat.not_lt.mpr enough), lastLabel, sorted, List.getLast?_concat]
  unfold suggest
  simp only [Option.map_some, Option.bind_some, Option.bind_eq_bind, kept, middle, behind]
  exact ⟨_, rfl⟩

theorem candidateOf_eq_some {group : List Observation}
    (made : candidateOf today key group = some candidate) :
    Recurs group ∧ suggest today key (historyOf group) candidate.display = some candidate ∧
      lastLabel group = some candidate.display ∧ (candidate.merchantKey, candidate.currency) = key := by
  rw [candidateOf_eq] at made
  split_ifs at made with few
  obtain ⟨label, labelled, made⟩ := Option.bind_eq_some_iff.mp made
  obtain ⟨cadence, cadenceBps, median, last, kept, -, -, same⟩ := suggest_eq_some made
  have shown : candidate.display = label := by rw [same]
  refine ⟨⟨Nat.not_lt.mp few, by rw [kept]; rfl⟩, by rw [shown]; exact made, by rw [shown]; exact labelled,
    ?_⟩
  rw [same]

/-! ### All groups -/

/-- The merchants and currencies of some observations, in their order. -/
def groupKeys (observations : List Observation) : List (String × String) :=
  sortBy (toLex : String × String → String ×ₗ String)
    (observations.map fun observation => (observation.merchantKey, observation.currency)).dedup

theorem groupKeys_perm {observations others : List Observation} (perm : observations.Perm others) :
    groupKeys observations = groupKeys others :=
  (sortBy_eq_iff_perm fun _ _ _ _ same => toLex.injective same).mpr (perm.map _).dedup

theorem nodup_groupKeys (observations : List Observation) : (groupKeys observations).Nodup :=
  (sortBy_perm _).nodup_iff.mpr (List.nodup_dedup _)

theorem detectRecurring_eq (observations : List Observation) (today : Date) :
    detectRecurring observations today = sortBy RecurringCandidate.rank
      ((groupKeys observations).filterMap fun key =>
        candidateOf today key (groupOf key observations)) := by
  have keys : (observations.filterMap fun observation => (groupEntry observation).map Prod.fst) =
      observations.map fun observation => (observation.merchantKey, observation.currency) :=
    congrFun List.filterMap_eq_map' observations
  unfold detectRecurring groups groupKeys
  rw [keys, List.filterMap_filterMap]
  refine congrArg _ (List.filterMap_congr fun key _ => ?_)
  rw [valuesAt_groupEntry]
  cases held : groupOf key observations with
  | nil => rfl
  | cons first rest => rfl

theorem mem_detectRecurring :
    candidate ∈ detectRecurring observations today ↔
      ∃ key, candidateOf today key (groupOf key observations) = some candidate := by
  rw [detectRecurring_eq, mem_sortBy, List.mem_filterMap]
  refine exists_congr fun key => and_iff_right_of_imp fun made => ?_
  obtain ⟨⟨enough, -⟩, -⟩ := candidateOf_eq_some made
  obtain ⟨first, member⟩ := List.exists_mem_of_length_pos (Nat.lt_of_lt_of_le (by decide) enough)
  obtain ⟨inside, same⟩ := mem_groupOf.mp member
  exact mem_sortBy.mpr (List.mem_dedup.mpr (List.mem_map.mpr ⟨first, inside, same⟩))

theorem nodup_detectRecurring (observations : List Observation) (today : Date) :
    ((detectRecurring observations today).map fun candidate =>
      (candidate.merchantKey, candidate.currency)).Nodup := by
  rw [detectRecurring_eq, ((sortBy_perm _).map _).nodup_iff, List.map_filterMap]
  refine (nodup_groupKeys observations).filterMap fun first second shown here there => ?_
  obtain ⟨candidate, made, rfl⟩ := Option.map_eq_some_iff.mp here
  obtain ⟨other, made', same⟩ := Option.map_eq_some_iff.mp there
  rw [← (candidateOf_eq_some made).2.2.2, ← (candidateOf_eq_some made').2.2.2, same]

/-- What a suggestion says of the observations it is drawn from. -/
structure Sound (observations : List Observation) (today : Date) (candidate : RecurringCandidate) :
    Prop where
  bounded : candidate.amountMinMinor ≤ candidate.amountMinor ∧
    candidate.amountMinor ≤ candidate.amountMaxMinor
  charged : ∃ observation ∈ groupOf (candidate.merchantKey, candidate.currency) observations,
    observation.amountMinor = candidate.amountMinor
  confident : candidate.confidenceBps ≤ 10000
  seen : ∃ observation ∈ groupOf (candidate.merchantKey, candidate.currency) observations,
    observation.date = candidate.lastSeen
  latest : ∀ observation ∈ groupOf (candidate.merchantKey, candidate.currency) observations,
    observation.date ≤ candidate.lastSeen
  next : ∃ cadence ∈ cadences, candidate.frequency = cadence.token ∧
    IsNext candidate.lastSeen today cadence.intervalDays candidate.nextDate

theorem sound_of_mem (member : candidate ∈ detectRecurring observations today) :
    Sound observations today candidate := by
  obtain ⟨key, made⟩ := mem_detectRecurring.mp member
  obtain ⟨-, made, -, own⟩ := candidateOf_eq_some made
  generalize candidate.display = label at made
  obtain ⟨cadence, cadenceBps, median, last, kept, middle, behind, same⟩ := suggest_eq_some made
  obtain ⟨known, regular⟩ := cadenceOf_spec kept
  obtain ⟨among, above, below⟩ := medianI64_spec middle
  obtain ⟨charge, charged, rfl⟩ := List.mem_map.mp among
  obtain ⟨observation, inside, rfl⟩ := mem_historyOf.mp charged
  rw [historyOf, List.getLast?_map] at behind
  obtain ⟨newest, found, rfl⟩ := Option.map_eq_some_iff.mp behind
  obtain ⟨newestIn, upper⟩ := latest_of_getLast? found
  subst same
  exact
    { bounded := ⟨above, below⟩
      charged := ⟨observation, inside, rfl⟩
      confident := confidence_le regular (shareBps_le List.countP_le_length)
      seen := ⟨newest, newestIn, rfl⟩
      latest := fun other member => date_le_of_chronology_le (upper other member)
      next := ⟨cadence, known, rfl, isNext_rollForward _ _ (intervalDays_pos known)⟩ }

/-! ### The order of the history -/

/-- The observations that tie for the last place of a group that recurs share their label. -/
def LabelsAgree (observations : List Observation) : Prop :=
  ∀ key, Recurs (groupOf key observations) →
    ∀ first second, Latest (groupOf key observations) first →
      Latest (groupOf key observations) second → first.display = second.display

theorem groupOf_perm {observations others : List Observation} (perm : observations.Perm others)
    (key : String × String) : (groupOf key observations).Perm (groupOf key others) := perm.filter _

theorem Latest.perm (perm : group.Perm others) :
    Latest group observation ↔ Latest others observation := by
  unfold Latest
  simp only [perm.mem_iff]

theorem candidateOf_perm (perm : group.Perm others)
    (agree : Recurs group → ∀ first second, Latest group first → Latest group second →
      first.display = second.display) :
    candidateOf today key group = candidateOf today key others := by
  by_cases recurs : Recurs group
  · have labels : lastLabel group = lastLabel others := by
      unfold lastLabel
      cases here : (sortBy Observation.chronology group).getLast? with
      | none =>
        rw [List.getLast?_eq_none_iff, ← List.length_eq_zero_iff, length_sortBy] at here
        exact absurd recurs.1 (by rw [here]; decide)
      | some first =>
        cases there : (sortBy Observation.chronology others).getLast? with
        | none =>
          rw [List.getLast?_eq_none_iff, ← List.length_eq_zero_iff, length_sortBy] at there
          exact absurd ((Recurs.perm perm).mp recurs).1 (by rw [there]; decide)
        | some second =>
          exact congrArg some (agree recurs first second (latest_of_getLast? here)
            ((Latest.perm perm).mpr (latest_of_getLast? there)))
    rw [candidateOf_eq, candidateOf_eq, perm.length_eq, labels, historyOf_perm perm]
  · have none {list : List Observation} (not : ¬Recurs list) : candidateOf today key list = .none := by
      cases made : candidateOf today key list with
      | none => rfl
      | some candidate => exact absurd (candidateOf_eq_some made).1 not
    rw [none recurs, none (mt (Recurs.perm perm).mpr recurs)]

theorem exists_candidate_labelled (today : Date) (recurs : Recurs (groupOf key observations))
    (latest : Latest (groupOf key observations) last) :
    ∃ others, observations.Perm others ∧ ∃ candidate ∈ detectRecurring others today,
      (candidate.merchantKey, candidate.currency) = key ∧ candidate.display = last.display := by
  obtain ⟨member, own⟩ := mem_groupOf.mp latest.1
  have perm : observations.Perm (observations.erase last ++ [last]) :=
    (List.perm_cons_erase member).trans (List.perm_append_singleton _ _).symm
  have moved := groupOf_perm perm key
  have grouped : groupOf key (observations.erase last ++ [last]) =
      groupOf key (observations.erase last) ++ [last] := by
    rw [groupOf, List.filter_append, List.filter_singleton, decide_eq_true own]
    rfl
  have upper : ∀ other ∈ groupOf key (observations.erase last),
      other.chronology ≤ last.chronology := by
    intro other inside
    refine latest.2 other (moved.mem_iff.mpr ?_)
    rw [grouped]
    exact List.mem_append_left _ inside
  obtain ⟨candidate, made⟩ := exists_candidateOf today key ((Recurs.perm moved).mp recurs)
  refine ⟨_, perm, candidate, mem_detectRecurring.mpr ⟨key, made⟩, ?_⟩
  obtain ⟨-, -, labelled, own'⟩ := candidateOf_eq_some made
  refine ⟨own', ?_⟩
  rw [lastLabel, grouped, sortBy_concat upper, List.getLast?_concat] at labelled
  exact (Option.some.inj labelled).symm

/-- The suggestions are sound, at most one for a merchant and currency, and do not depend on the
order of the history, just where the labels that could come last agree. -/
theorem suggestions_settled_iff (observations : List Observation) (today : Date) :
    ((∀ others, observations.Perm others →
        detectRecurring others today = detectRecurring observations today) ∧
      ((detectRecurring observations today).map fun candidate =>
        (candidate.merchantKey, candidate.currency)).Nodup ∧
      ∀ candidate ∈ detectRecurring observations today, Sound observations today candidate) ↔
    LabelsAgree observations := by
  constructor
  · rintro ⟨settled, -, -⟩ key recurs first second here there
    obtain ⟨others, perm, candidate, member, own, label⟩ :=
      exists_candidate_labelled today recurs here
    obtain ⟨others', perm', candidate', member', own', label'⟩ :=
      exists_candidate_labelled today recurs there
    rw [settled others perm] at member
    rw [settled others' perm'] at member'
    have same := List.inj_on_of_nodup_map (nodup_detectRecurring observations today) member member'
      (own.trans own'.symm)
    rw [← label, ← label', same]
  · intro agree
    refine ⟨fun others perm => ?_, nodup_detectRecurring observations today, fun _ => sound_of_mem⟩
    rw [detectRecurring_eq, detectRecurring_eq, groupKeys_perm perm]
    refine congrArg _ (List.filterMap_congr fun key _ => ?_)
    exact (candidateOf_perm (groupOf_perm perm key) (agree key)).symm

/-- A charge of ten dollars in January 2026. -/
def januaryCharge (day : Nat) (first : 1 ≤ day) (last : day ≤ 28) (display : String) : Observation where
  merchantKey := "GYM"
  display
  date := ⟨12 * 2026, day, first, last.trans (le_daysInMonth _)⟩
  amountMinor := 1000
  currency := "USD"
  positive := by decide
  fits := by decide

/-- Four charges, the last two alike in everything but the label. -/
def tiedCharges (third fourth : String) : List Observation :=
  [januaryCharge 1 (by decide) (by decide) "Gym", januaryCharge 8 (by decide) (by decide) "Gym",
    januaryCharge 15 (by decide) (by decide) third, januaryCharge 15 (by decide) (by decide) fourth]

/-- The same charges in another order are suggested under another label. -/
theorem tied_charges_relabelled :
    (tiedCharges "GYM #1" "GYM #2").Perm (tiedCharges "GYM #2" "GYM #1") ∧
      detectRecurring (tiedCharges "GYM #1" "GYM #2") (Date.firstOf (12 * 2026 + 1)) ≠
        detectRecurring (tiedCharges "GYM #2" "GYM #1") (Date.firstOf (12 * 2026 + 1)) := by
  refine ⟨((List.Perm.swap _ _ _).cons _).cons _, fun same => ?_⟩
  have labels := congrArg (List.map RecurringCandidate.display) same
  exact absurd labels (by decide +kernel)

end Dohflow.Categorization
