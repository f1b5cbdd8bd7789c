/-
This file models how the recurring bills are expanded into outflows of a forecast, and says
exactly when the suppression of what is paid already is right.

A projected date of a bill is dropped when an instance of that date is linked. Then every
confirmed occurrence that no linked date covers drops the nearest projected date that is
left, if it is within the tolerance. The confirmed occurrences come in no order of their
own. In every order a confirmed occurrence drops one date at most, within the tolerance, and
no date is dropped twice; but which dates are dropped, and how many, depends on the order,
unless the dates that every order drops are as many as can be dropped at all.
-/

import Dohflow.DbWorker.ForecastOverrides
import Dohflow.DbWorker.ImportTables
import Dohflow.DbWorker.InstanceLinks
import Dohflow.ForecastEngine.Layer1
import Dohflow.Foundation.NearestPlaces
import Dohflow.Foundation.PrefixFree
import Dohflow.PaySchedule.Anchors
import Mathlib.Data.List.MinMax

namespace Dohflow.DbWorker

open SyncCore CoreLedger ForecastEngine Fallible NearestPlaces
open PayDates (Frequency PaySchedule)

/-! ### What is paid already -/

def suppressionToleranceDays : Nat := recurringMatchWindowDays.toNat

/-- `(first - second).num_days().abs()` -/
def daysBetween (first second : PayDates.NaiveDate) : Nat :=
  (first.val.dayNumber - second.val.dayNumber).natAbs

/-- A linked date is within the tolerance of a confirmed one. -/
def coveredByLink (linkedDates : Option (List PayDates.NaiveDate))
    (confirmedOn : PayDates.NaiveDate) : Bool :=
  linkedDates.any fun dates =>
    dates.any fun date => daysBetween date confirmedOn ≤ suppressionToleranceDays

/-- `min_by_key`: the first of the nearest dates that are left, if it is within the tolerance. -/
def nearestLeft (chargeDates suppressed : List PayDates.NaiveDate)
    (confirmedOn : PayDates.NaiveDate) : Option PayDates.NaiveDate :=
  ((chargeDates.filter fun date => date ∉ suppressed).argmin fun date =>
    daysBetween date confirmedOn).filter fun date =>
      daysBetween date confirmedOn ≤ suppressionToleranceDays

/-- Drop the date that a confirmed occurrence stands for. -/
def suppressConfirmed (chargeDates : List PayDates.NaiveDate)
    (linkedDates : Option (List PayDates.NaiveDate)) (suppressed : List PayDates.NaiveDate)
    (confirmedOn : PayDates.NaiveDate) : List PayDates.NaiveDate :=
  if coveredByLink linkedDates confirmedOn = true then suppressed
  else match nearestLeft chargeDates suppressed confirmedOn with
    | some best => best :: suppressed
    | none => suppressed

/-- The projected dates that are linked. -/
def linkedAmong (chargeDates : List PayDates.NaiveDate)
    (linkedDates : Option (List PayDates.NaiveDate)) : List PayDates.NaiveDate :=
  match linkedDates with
  | some dates => chargeDates.filter fun date => date ∈ dates
  | none => []

/-- The projected dates that are dropped, the confirmed occurrences in the order in which they are
read. -/
def suppressedDates (chargeDates : List PayDates.NaiveDate)
    (linkedDates : Option (List PayDates.NaiveDate)) (confirmed : List PayDates.NaiveDate) :
    List PayDates.NaiveDate :=
  confirmed.foldl (suppressConfirmed chargeDates linkedDates) (linkedAmong chargeDates linkedDates)

/-! ### The events of the bills -/

/-- A schedule of an obligation, as its row has it. -/
structure ScheduleSource where
  id : Uuid
  name : String
  amountMinor : Int64
  currencyCode : String
  freqToken : String
  anchor : Option String
  billType : Option String

/-- What the tables say of the bills: which are charged to a card, and the dates that are confirmed
and linked. -/
structure BillTables where
  cardCharged : List Uuid
  confirmed : Uuid → Option (List PayDates.NaiveDate)
  linked : Uuid → Option (List PayDates.NaiveDate)
  overrides : OverrideMap

/-- The events so far, and the names of their sources. -/
structure BillEvents where
  events : List ForecastEvent
  names : List (Uuid × String)

def parseFrequency (token what : String) : Except ImportError Frequency :=
  orFail (.invalidCommand ("unknown " ++ what ++ " frequency token: " ++ token))
    (Frequency.fromToken token)

variable (libraries : OverrideLibraries)
variable {linkedDates : Option (List PayDates.NaiveDate)}
  {chargeDates suppressed : List PayDates.NaiveDate} {date : PayDates.NaiveDate}
  {source : ScheduleSource}

def parseDate (raw : String) : Except ImportError PayDates.NaiveDate :=
  (libraries.parseFromStr raw).mapError .invalidCommand

/-- The amount of an occurrence; none when it is excluded. -/
def expectedOn (ov : Option EntityOverride) (amountMinor : Int64) (date : PayDates.NaiveDate) :
    Option Int64 :=
  match ov with
  | some entry => (entry.amountFor date amountMinor.toInt).map Int64.ofInt
  | none => some amountMinor

def kindOf (billType : Option String) : EventKind :=
  if billType = some "loan_payment" then .loanPayment else .recurringBill

/-- The outflow of an occurrence, unless it is dropped or excluded. -/
def billEvent (source : ScheduleSource) (ov : Option EntityOverride) (currency : Currency)
    (frequency : Frequency) (suppressed : List PayDates.NaiveDate)
    (chargeDate : PayDates.NaiveDate) : Except ImportError (Option ForecastEvent) :=
  if chargeDate ∈ suppressed then .ok none
  else match expectedOn ov source.amountMinor chargeDate with
    | none => .ok none
    | some expected =>
      match checkedNeg expected with
      | none => .error (.invalidCommand "recurring bill amount overflow")
      | some outflow => .ok (some
        { occursOn := chargeDate
          kind := kindOf source.billType
          amount := ⟨outflow, currency⟩
          sourceEventId := source.id
          assumptionBasis := .recurringSchedule frequency })

/-- The schedule that a bill is expanded by. -/
def scheduleOf (source : ScheduleSource) (ov : Option EntityOverride) :
    Except ImportError PaySchedule := do
  let frequency ← parseFrequency source.freqToken "bill"
  let anchorText ← orFail
    (.invalidCommand "recurring obligation is missing its anchor date") source.anchor
  let baseAnchor ← parseDate libraries anchorText
  return ⟨frequency, ov.elim baseAnchor fun entry => entry.anchorOr baseAnchor⟩

/-- The dropped dates of a bill. -/
def BillTables.suppressedOf (tables : BillTables) (id : Uuid)
    (chargeDates : List PayDates.NaiveDate) : List PayDates.NaiveDate :=
  suppressedDates chargeDates (tables.linked id) ((tables.confirmed id).getD [])

/-- Fold the outflows of a bill into the events. -/
def collectBill (tables : BillTables) (start stop : PayDates.NaiveDate) (sofar : BillEvents)
    (source : ScheduleSource) : Except ImportError BillEvents := do
  let ov := tables.overrides source.id
  if ov.any EntityOverride.fullyExcluded = true then return sofar
  else if source.id ∈ tables.cardCharged then
    return { sofar with names := sofar.names ++ [(source.id, source.name)] }
  else do
    let currency ← currencyFromCode source.currencyCode
    let schedule ← scheduleOf libraries source ov
    let chargeDates := schedule.payDates start stop
    let suppressed := tables.suppressedOf source.id chargeDates
    let events ← chargeDates.mapM (billEvent source ov currency schedule.frequency suppressed)
    return ⟨sofar.events ++ events.reduceOption, sofar.names ++ [(source.id, source.name)]⟩

/-- The outflows of all recurring bills in a window. -/
def collectBillEvents (tables : BillTables) (sources : List ScheduleSource)
    (start stop : PayDates.NaiveDate) : Except ImportError BillEvents :=
  sources.foldlM (collectBill libraries tables start stop) ⟨[], []⟩

/-! ### Dropping as settling -/

/-- The day a date is. -/
def dayNumberOf (date : PayDates.NaiveDate) : ℤ := date.val.dayNumber

theorem dayNumberOf_injective : Function.Injective dayNumberOf :=
  fun _ _ same => Subtype.ext (Calendar.Date.dayNumber_injective same)

/-- The projected dates that are left. -/
def datesLeft (chargeDates suppressed : List PayDates.NaiveDate) : Finset PayDates.NaiveDate :=
  (chargeDates.filter fun date => date ∉ suppressed).toFinset

/-- The confirmed occurrences that no linked date covers. -/
def uncovered (linkedDates : Option (List PayDates.NaiveDate))
    (confirmed : List PayDates.NaiveDate) : List PayDates.NaiveDate :=
  confirmed.filter fun confirmedOn => coveredByLink linkedDates confirmedOn = false

theorem mem_datesLeft :
    date ∈ datesLeft chargeDates suppressed ↔ date ∈ chargeDates ∧ date ∉ suppressed := by
  rw [datesLeft, List.mem_toFinset, List.mem_filter, decide_eq_true_eq]

theorem datesLeft_cons (chargeDates suppressed : List PayDates.NaiveDate)
    (best : PayDates.NaiveDate) :
    datesLeft chargeDates (best :: suppressed) = (datesLeft chargeDates suppressed).erase best := by
  refine Finset.ext fun date => ?_
  rw [Finset.mem_erase, mem_datesLeft, mem_datesLeft, List.mem_cons, not_or]
  exact and_left_comm

theorem le_of_idxOf_le {Date : Type} [PartialOrder Date] [DecidableEq Date]
    {dates : List Date} (ascending : dates.Pairwise (· < ·)) {first second : Date}
    (firstIn : first ∈ dates) (secondIn : second ∈ dates)
    (before : dates.idxOf first ≤ dates.idxOf second) : first ≤ second := by
  rcases before.lt_or_eq with less | same
  · have inside := List.idxOf_lt_length_of_mem secondIn
    have ordered := List.pairwise_iff_getElem.mp ascending _ _ (less.trans inside) inside less
    rw [List.getElem_idxOf, List.getElem_idxOf] at ordered
    exact ordered.le
  · exact ((List.idxOf_inj firstIn).mp same).le

theorem nearestLeft_eq_some (ascending : chargeDates.Pairwise (· < ·))
    {confirmedOn best : PayDates.NaiveDate}
    (found : nearestLeft chargeDates suppressed confirmedOn = some best) :
    best ∈ datesLeft chargeDates suppressed ∧
      distance dayNumberOf best confirmedOn ≤ suppressionToleranceDays ∧
      ∀ date ∈ datesLeft chargeDates suppressed, ¬ Nearer dayNumberOf confirmedOn date best := by
  obtain ⟨least, within⟩ := Option.filter_eq_some_iff.mp found
  obtain ⟨member, nearest, first⟩ := List.mem_argmin_iff.mp least
  refine ⟨List.mem_toFinset.mpr member, of_decide_eq_true within, fun date dateIn nearer => ?_⟩
  have dateIn := List.mem_toFinset.mp dateIn
  have atLeast := nearest date dateIn
  rcases nearer with closer | ⟨same, earlier⟩
  · exact absurd atLeast (not_le.mpr closer)
  · have ordered := le_of_idxOf_le (ascending.filter _) member dateIn (first date dateIn same.le)
    exact absurd earlier (not_lt.mpr (Calendar.Date.dayNumber_le_iff.mpr ordered))

theorem nearestLeft_eq_none {confirmedOn : PayDates.NaiveDate}
    (nothing : nearestLeft chargeDates suppressed confirmedOn = none) :
    ∀ date ∈ datesLeft chargeDates suppressed,
      suppressionToleranceDays < distance dayNumberOf date confirmedOn := by
  intro date dateIn
  have dateIn := List.mem_toFinset.mp dateIn
  have listed := List.ne_nil_of_mem dateIn
  obtain ⟨best, least⟩ := Option.ne_none_iff_exists'.mp fun empty =>
    listed (List.argmin_eq_none (f := fun date => daysBetween date confirmedOn) |>.mp empty)
  have away := Option.filter_eq_none_iff.mp nothing best least
  have far : suppressionToleranceDays < daysBetween best confirmedOn :=
    not_le.mp fun near => away (decide_eq_true near)
  exact far.trans_le ((List.mem_argmin_iff.mp least).2.1 date dateIn)

theorem settles_suppressConfirmed {chargeDates : List PayDates.NaiveDate}
    (ascending : chargeDates.Pairwise (· < ·)) (linkedDates : Option (List PayDates.NaiveDate))
    (confirmed suppressed : List PayDates.NaiveDate) :
    Settles dayNumberOf suppressionToleranceDays (datesLeft chargeDates suppressed)
      (uncovered linkedDates confirmed)
      (datesLeft chargeDates
        (confirmed.foldl (suppressConfirmed chargeDates linkedDates) suppressed)) := by
  induction confirmed generalizing suppressed with
  | nil => exact .done _
  | cons confirmedOn rest inductionHypothesis =>
    have later := inductionHypothesis
      (suppressConfirmed chargeDates linkedDates suppressed confirmedOn)
    rw [List.foldl_cons]
    cases covered : coveredByLink linkedDates confirmedOn with
    | true =>
      rw [uncovered, List.filter_cons_of_neg (by rw [covered]; decide)]
      have kept : suppressConfirmed chargeDates linkedDates suppressed confirmedOn = suppressed :=
        if_pos covered
      rw [kept] at later ⊢
      exact later
    | false =>
      rw [uncovered, List.filter_cons_of_pos (by rw [covered]; decide)]
      have stepped : suppressConfirmed chargeDates linkedDates suppressed confirmedOn =
          match nearestLeft chargeDates suppressed confirmedOn with
          | some best => best :: suppressed
          | none => suppressed := if_neg (by rw [covered]; decide)
      cases found : nearestLeft chargeDates suppressed confirmedOn with
      | none =>
        rw [found] at stepped
        rw [stepped] at later ⊢
        exact .passed (nearestLeft_eq_none found) later
      | some best =>
        rw [found] at stepped
        rw [stepped] at later ⊢
        obtain ⟨member, near, nearest⟩ := nearestLeft_eq_some ascending found
        rw [datesLeft_cons] at later
        exact .taken member near nearest later

/-! ### What suppression is for -/

/-- The projected dates that are not linked. -/
def unlinked (chargeDates : List PayDates.NaiveDate)
    (linkedDates : Option (List PayDates.NaiveDate)) : Finset PayDates.NaiveDate :=
  datesLeft chargeDates (linkedAmong chargeDates linkedDates)

/-- Confirmed occurrences that no linked date covers, each with a projected date of its own that is
not linked and within the tolerance. -/
abbrev Consumes (chargeDates : List PayDates.NaiveDate)
    (linkedDates : Option (List PayDates.NaiveDate)) (confirmed : List PayDates.NaiveDate)
    (pairs : List (PayDates.NaiveDate × PayDates.NaiveDate)) : Prop :=
  Assigned dayNumberOf suppressionToleranceDays (unlinked chargeDates linkedDates)
    (uncovered linkedDates confirmed) pairs

/-- In every order of the confirmed occurrences, the linked dates are dropped, and further dates
that are consumed by confirmed occurrences; they are as many as can be consumed, and the same in
every order. -/
structure SuppressesExactly (chargeDates : List PayDates.NaiveDate)
    (linkedDates : Option (List PayDates.NaiveDate)) (confirmed : List PayDates.NaiveDate) :
    Prop where
  consumed : ∀ read, read.Perm confirmed →
    ∃ pairs, Consumes chargeDates linkedDates read pairs ∧
      ∀ date, date ∈ suppressedDates chargeDates linkedDates read ↔
        date ∈ linkedAmong chargeDates linkedDates ∨ date ∈ pairs.map Prod.snd
  largest : ∀ read, read.Perm confirmed →
    ∀ pairs, Consumes chargeDates linkedDates confirmed pairs →
      pairs.length ≤ ((unlinked chargeDates linkedDates).filter fun date =>
        date ∈ suppressedDates chargeDates linkedDates read).card
  orderFree : ∀ read, read.Perm confirmed → ∀ date,
    date ∈ suppressedDates chargeDates linkedDates read ↔
      date ∈ suppressedDates chargeDates linkedDates confirmed

/-- No confirmed occurrences consume more dates than are forced. -/
def ForcedSuffice (chargeDates : List PayDates.NaiveDate)
    (linkedDates : Option (List PayDates.NaiveDate)) (confirmed : List PayDates.NaiveDate) : Prop :=
  ∀ pairs, Consumes chargeDates linkedDates confirmed pairs →
    pairs.length ≤ ((unlinked chargeDates linkedDates).filter
      (Forced dayNumberOf suppressionToleranceDays (unlinked chargeDates linkedDates)
        (uncovered linkedDates confirmed))).card

theorem mem_suppressConfirmed_of_mem {confirmedOn date : PayDates.NaiveDate}
    (member : date ∈ suppressed) :
    date ∈ suppressConfirmed chargeDates linkedDates suppressed confirmedOn := by
  unfold suppressConfirmed
  split_ifs
  · exact member
  · split
    · exact List.mem_cons_of_mem _ member
    · exact member

theorem mem_of_mem_suppressConfirmed {confirmedOn date : PayDates.NaiveDate}
    (member : date ∈ suppressConfirmed chargeDates linkedDates suppressed confirmedOn) :
    date ∈ suppressed ∨ date ∈ chargeDates := by
  unfold suppressConfirmed at member
  split_ifs at member
  · exact .inl member
  · split at member
    · next best found =>
      rcases List.mem_cons.mp member with rfl | earlier
      · have least := (Option.filter_eq_some_iff.mp found).1
        exact .inr (List.mem_of_mem_filter (List.argmin_mem least))
      · exact .inl earlier
    · exact .inl member

theorem mem_suppressedDates {chargeDates confirmed : List PayDates.NaiveDate} :
    (date ∈ suppressedDates chargeDates linkedDates confirmed → date ∈ chargeDates) ∧
      (date ∈ linkedAmong chargeDates linkedDates →
        date ∈ suppressedDates chargeDates linkedDates confirmed) := by
  unfold suppressedDates
  have linkedIn : date ∈ linkedAmong chargeDates linkedDates → date ∈ chargeDates := by
    intro member
    unfold linkedAmong at member
    split at member
    · exact List.mem_of_mem_filter member
    · cases member
  induction confirmed using List.reverseRecOn with
  | nil => exact ⟨linkedIn, id⟩
  | append_singleton confirmed last inductionHypothesis =>
    rw [List.foldl_append, List.foldl_cons, List.foldl_nil]
    refine ⟨fun member => ?_, fun member =>
      mem_suppressConfirmed_of_mem (inductionHypothesis.2 member)⟩
    rcases mem_of_mem_suppressConfirmed member with earlier | projected
    · exact inductionHypothesis.1 earlier
    · exact projected

/-- What is left of the dates that are not linked when the confirmed occurrences are read. -/
def leftAfter (chargeDates : List PayDates.NaiveDate)
    (linkedDates : Option (List PayDates.NaiveDate)) (read : List PayDates.NaiveDate) :
    Finset PayDates.NaiveDate :=
  datesLeft chargeDates (suppressedDates chargeDates linkedDates read)

theorem unlinked_sdiff_leftAfter {chargeDates read : List PayDates.NaiveDate} :
    unlinked chargeDates linkedDates \ leftAfter chargeDates linkedDates read =
      (unlinked chargeDates linkedDates).filter fun date =>
        date ∈ suppressedDates chargeDates linkedDates read := by
  refine Finset.ext fun date => ?_
  rw [Finset.mem_sdiff, Finset.mem_filter]
  refine and_congr_right fun member => ?_
  rw [leftAfter, mem_datesLeft, not_and, not_not]
  exact forall_prop_of_true (mem_datesLeft.mp member).1

theorem mem_suppressedDates_iff {chargeDates read : List PayDates.NaiveDate} :
    date ∈ suppressedDates chargeDates linkedDates read ↔
      date ∈ linkedAmong chargeDates linkedDates ∨
        date ∈ unlinked chargeDates linkedDates \ leftAfter chargeDates linkedDates read := by
  rw [unlinked_sdiff_leftAfter, Finset.mem_filter, unlinked, mem_datesLeft]
  constructor
  · intro dropped
    by_cases linked : date ∈ linkedAmong chargeDates linkedDates
    · exact .inl linked
    · exact .inr ⟨⟨mem_suppressedDates.1 dropped, linked⟩, dropped⟩
  · rintro (linked | ⟨-, dropped⟩)
    · exact mem_suppressedDates.2 linked
    · exact dropped

theorem uncovered_perm {read confirmed : List PayDates.NaiveDate} (perm : read.Perm confirmed) :
    (uncovered linkedDates read).Perm (uncovered linkedDates confirmed) := perm.filter _

theorem suppressedDates_uncovered (chargeDates : List PayDates.NaiveDate)
    (linkedDates : Option (List PayDates.NaiveDate)) (read : List PayDates.NaiveDate) :
    suppressedDates chargeDates linkedDates (uncovered linkedDates read) =
      suppressedDates chargeDates linkedDates read := by
  unfold suppressedDates
  induction read using List.reverseRecOn with
  | nil => rfl
  | append_singleton read last inductionHypothesis =>
    have split : uncovered linkedDates (read ++ [last]) =
        uncovered linkedDates read ++ uncovered linkedDates [last] := List.filter_append _ _
    rw [split, List.foldl_append, List.foldl_append, inductionHypothesis]
    cases covered : coveredByLink linkedDates last with
    | true =>
      rw [uncovered, List.filter_cons_of_neg (by rw [covered]; decide), List.foldl_cons,
        suppressConfirmed, if_pos covered]
      rfl
    | false =>
      rw [uncovered, List.filter_cons_of_pos (by rw [covered]; decide)]
      rfl

theorem settles_leftAfter {chargeDates : List PayDates.NaiveDate}
    (ascending : chargeDates.Pairwise (· < ·)) (linkedDates : Option (List PayDates.NaiveDate))
    (read : List PayDates.NaiveDate) :
    Settles dayNumberOf suppressionToleranceDays (unlinked chargeDates linkedDates)
      (uncovered linkedDates read)
      (leftAfter chargeDates linkedDates (uncovered linkedDates read)) := by
  rw [leftAfter, suppressedDates_uncovered]
  exact settles_suppressConfirmed ascending linkedDates read _

theorem exists_read {order confirmed : List PayDates.NaiveDate}
    (perm : order.Perm (uncovered linkedDates confirmed)) :
    ∃ read, read.Perm confirmed ∧ uncovered linkedDates read = order := by
  refine ⟨order ++ confirmed.filter fun confirmedOn =>
    !decide (coveredByLink linkedDates confirmedOn = false),
    (perm.append_right _).trans (List.filter_append_perm _ confirmed), ?_⟩
  have own : uncovered linkedDates order = order :=
    List.filter_eq_self.mpr fun confirmedOn member =>
      (List.mem_filter.mp (perm.mem_iff.mp member)).2
  rw [uncovered, List.filter_append, ← uncovered, own]
  refine List.append_right_eq_self.mpr (List.filter_eq_nil_iff.mpr fun confirmedOn member => ?_)
  have covered := (List.mem_filter.mp member).2
  rwa [Bool.not_eq_true', ← Bool.not_eq_true] at covered

theorem suppressesExactly_iff {chargeDates : List PayDates.NaiveDate}
    (ascending : chargeDates.Pairwise (· < ·)) (linkedDates : Option (List PayDates.NaiveDate))
    (confirmed : List PayDates.NaiveDate) :
    SuppressesExactly chargeDates linkedDates confirmed ↔
      ForcedSuffice chargeDates linkedDates confirmed := by
  have settles (order : List PayDates.NaiveDate)
      (perm : order.Perm (uncovered linkedDates confirmed)) :
      Settles dayNumberOf suppressionToleranceDays (unlinked chargeDates linkedDates) order
        (leftAfter chargeDates linkedDates order) := by
    obtain ⟨read, -, rfl⟩ := exists_read perm
    exact settles_leftAfter ascending linkedDates read
  rw [ForcedSuffice, ← alike_and_largest_iff dayNumberOf_injective settles]
  constructor
  · intro exact' order perm
    obtain ⟨read, readPerm, rfl⟩ := exists_read perm
    refine ⟨Finset.ext fun date => ?_, fun pairs consumes => ?_⟩
    · rw [leftAfter, leftAfter, mem_datesLeft, mem_datesLeft, suppressedDates_uncovered,
        suppressedDates_uncovered, exact'.orderFree read readPerm]
    · rw [unlinked_sdiff_leftAfter, suppressedDates_uncovered]
      exact exact'.largest read readPerm pairs consumes
  · intro alike
    have same (read : List PayDates.NaiveDate) (perm : read.Perm confirmed) :
        leftAfter chargeDates linkedDates read = leftAfter chargeDates linkedDates confirmed := by
      have here := (alike _ (uncovered_perm perm)).1
      rwa [leftAfter, leftAfter, suppressedDates_uncovered, suppressedDates_uncovered] at here
    refine ⟨fun read perm => ?_, fun read perm pairs consumes => ?_, fun read perm date => ?_⟩
    · obtain ⟨pairs, consumes, taken⟩ :=
        (settles_leftAfter ascending linkedDates read).exists_assigned
      refine ⟨pairs, consumes, fun date => ?_⟩
      rw [taken, mem_suppressedDates_iff, leftAfter, leftAfter, suppressedDates_uncovered]
    · have most := (alike _ (uncovered_perm perm)).2 pairs consumes
      rwa [unlinked_sdiff_leftAfter, suppressedDates_uncovered] at most
    · rw [mem_suppressedDates_iff, mem_suppressedDates_iff, same read perm]

/-! ### What is projected -/

theorem occursOn_billEvents {ov : Option EntityOverride} {currency : Currency}
    {frequency : Frequency} {suppressed chargeDates : List PayDates.NaiveDate}
    {events : List (Option ForecastEvent)}
    (made : chargeDates.mapM (billEvent source ov currency frequency suppressed) = .ok events) :
    events.reduceOption.map ForecastEvent.occursOn = chargeDates.filter fun date =>
      date ∉ suppressed ∧ (expectedOn ov source.amountMinor date).isSome = true := by
  have pairs := PrefixFree.mapM_eq_ok.mp made
  clear made
  induction pairs with
  | nil => rfl
  | @cons date event dates events here _ inductionHypothesis =>
    unfold billEvent at here
    by_cases dropped : date ∈ suppressed
    · rw [if_pos dropped] at here
      obtain rfl := Except.ok.inj here
      rw [List.reduceOption_cons_of_none, inductionHypothesis,
        List.filter_cons_of_neg (by simp [dropped])]
    rw [if_neg dropped] at here
    cases amount : expectedOn ov source.amountMinor date with
    | none =>
      rw [amount] at here
      obtain rfl := Except.ok.inj here
      rw [List.reduceOption_cons_of_none, inductionHypothesis,
        List.filter_cons_of_neg (by simp [amount])]
    | some expected =>
      rw [amount] at here
      dsimp only at here
      cases negated : checkedNeg expected with
      | none =>
        rw [negated] at here
        cases here
      | some outflow =>
        rw [negated] at here
        obtain rfl := Except.ok.inj here
        rw [List.reduceOption_cons_of_some, List.map_cons, inductionHypothesis,
          List.filter_cons_of_pos (by simp [amount, dropped])]

/-- The bill is expanded: it is neither excluded nor charged to a card. -/
def Expanded (tables : BillTables) (source : ScheduleSource) : Prop :=
  (tables.overrides source.id).any EntityOverride.fullyExcluded = false ∧
    source.id ∉ tables.cardCharged

theorem collectBill_eq_ok {tables : BillTables} {start stop : PayDates.NaiveDate}
    {sofar after : BillEvents} (expanded : Expanded tables source)
    (collected : collectBill libraries tables start stop sofar source = .ok after) :
    ∃ schedule, scheduleOf libraries source (tables.overrides source.id) = .ok schedule ∧
      after.events.map ForecastEvent.occursOn = sofar.events.map ForecastEvent.occursOn ++
        (schedule.payDates start stop).filter fun date =>
          date ∉ tables.suppressedOf source.id (schedule.payDates start stop) ∧
            (expectedOn (tables.overrides source.id) source.amountMinor date).isSome = true := by
  unfold collectBill at collected
  rw [if_neg (by rw [expanded.1]; decide), if_neg expanded.2] at collected
  obtain ⟨currency, -, collected⟩ := bind_eq_ok.mp collected
  obtain ⟨schedule, scheduled, collected⟩ := bind_eq_ok.mp collected
  obtain ⟨events, made, collected⟩ := bind_eq_ok.mp collected
  obtain rfl := Except.ok.inj collected
  refine ⟨schedule, scheduled, ?_⟩
  rw [List.map_append, occursOn_billEvents made]

/-- A day of March 2026. -/
def march (day : Nat) (valid : 1 ≤ day ∧ day ≤ Calendar.daysInMonth (12 * 2026 + 2)) :
    PayDates.NaiveDate :=
  ⟨⟨12 * 2026 + 2, day, valid⟩,
    (by decide : PayDates.minYear ≤ Calendar.yearOf (12 * 2026 + 2) ∧
      Calendar.yearOf (12 * 2026 + 2) ≤ PayDates.maxYear)⟩

end Dohflow.DbWorker
