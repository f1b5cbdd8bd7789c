/-
This file proves that the expansion of a pay schedule is exactly its lattice.

The lattice of a schedule is the set of dates its cadence pays on, over the whole
calendar and in both directions from the anchor. Between the ends of a horizon the
expansion lists all of it, in order and once, wherever the anchor lies, as long as
the dates it shifts to are dates the date type holds.
-/

import Dohflow.PaySchedule.Schedule

namespace Dohflow.PayDates

open Calendar AscendingWalk

/-! ### The lattice -/

/-- What a frequency comes to: a number of days, a number of months, or two days a month. -/
inductive Cadence
  | days (interval : Nat)
  | months (step : Nat)
  | semiMonthly

def Frequency.cadence : Frequency → Cadence
  | .weekly => .days 7
  | .biweekly => .days 14
  | .semiMonthly => .semiMonthly
  | .monthly => .months 1
  | .quarterly => .months 3
  | .annual => .months 12
  | .everyNDays count => .days count
  | .everyNWeeks count => .days (7 * count)
  | .everyNMonths count => .months count

namespace Cadence

/-- The dates a cadence pays on. -/
def Pays (anchor : Date) : Cadence → Date → Prop
  | .days interval, date => ∃ multiple : Int, date = anchor.addDays (multiple * interval)
  | .months step, date => ∃ multiple : Int, date = anchor.addMonths (multiple * step)
  | .semiMonthly, date => date.day = 15 ∨ date.day = daysInMonth date.month

/-- The date type holds every date an expansion shifts to: those from the last of the lattice
before the horizon, or the second last for months, to the first after it. -/
def Representable (anchor start stop : Date) : Cadence → Prop
  | .days interval => ∀ multiple : Int,
    start.addDays (-interval) ≤ anchor.addDays (multiple * interval) →
    anchor.addDays (multiple * interval) ≤ stop.addDays interval →
    InRange (anchor.addDays (multiple * interval))
  | .months step => ∀ multiple : Int,
    start.month - 2 * step ≤ anchor.month + multiple * step →
    anchor.month + multiple * step ≤ stop.month + step →
    InRange (anchor.addMonths (multiple * step))
  | .semiMonthly => InRange (Date.firstOf (stop.month + 1))

end Cadence

variable {start stop : NaiveDate} {month : Int} {schedule : PaySchedule} {frequency : Frequency}

/-- The dates in a horizon that a schedule pays on. -/
def PaySchedule.Pays (schedule : PaySchedule) (date : NaiveDate) : Prop :=
  schedule.frequency.cadence.Pays schedule.anchor.val date.val

def PaySchedule.Representable (schedule : PaySchedule) (start stop : NaiveDate) : Prop :=
  schedule.frequency.cadence.Representable schedule.anchor.val start.val stop.val

/-- The counts a token can have. -/
def Frequency.Bounded : Frequency → Prop
  | .everyNDays count => 1 ≤ count ∧ count ≤ maxEveryNDays
  | .everyNWeeks count => 1 ≤ count ∧ count ≤ maxEveryNWeeks
  | .everyNMonths count => 1 ≤ count ∧ count ≤ maxEveryNMonths
  | _ => True

theorem Frequency.bounded_of_ofCount {unit : List Char} {count : Nat}
    (made : ofCount unit count = some frequency) : frequency.Bounded := by
  unfold ofCount at made
  split_ifs at made with days weeks months
  · obtain rfl := Option.some.inj made
    exact days.2
  · obtain rfl := Option.some.inj made
    exact weeks.2
  · obtain rfl := Option.some.inj made
    exact months.2

theorem Frequency.bounded_of_fromToken {token : String} (parsed : fromToken token = some frequency) :
    frequency.Bounded := by
  unfold fromToken at parsed
  split_ifs at parsed
  all_goals try
    obtain rfl := Option.some.inj parsed
    trivial
  simp only [Option.bind_eq_bind, Option.bind_eq_some_iff] at parsed
  obtain ⟨rest, -, ⟨count, unit⟩, -, number, -, made⟩ := parsed
  exact bounded_of_ofCount made

/-! ### Shifts that stay in range -/

theorem checked_eq {date : Date} (inside : InRange date) :
    checked date = some ⟨date, inside⟩ := dif_pos inside

theorem shiftDays_eq (date : NaiveDate) (days : Int) :
    shiftDays date days = checked (date.val.addDays days) := by
  unfold shiftDays checkedAddDays checkedSubDays
  by_cases later : 0 ≤ days
  · rw [if_pos later, Int.toNat_of_nonneg later]
  · rw [if_neg later, show (-(days.natAbs : Int)) = days by omega]

theorem shiftMonths_eq {date : NaiveDate} {months : Int}
    (inside : InRange (date.val.addMonths months)) :
    shiftMonths date months = some ⟨date.val.addMonths months, inside⟩ := by
  have first := date.property
  have second := inside
  unfold InRange Date.year yearOf minYear maxYear at first second
  rw [Date.month_addMonths] at second
  have few : months.natAbs < 2 ^ 32 := by omega
  unfold shiftMonths checkedAddMonths checkedSubMonths
  rw [if_pos few]
  by_cases later : 0 ≤ months
  · rw [if_pos later, show (months.natAbs : Int) = months by omega, checked_eq inside]
  · rw [if_neg later, show (-(months.natAbs : Int)) = months by omega, checked_eq inside]

theorem fromYmd_eq {date : Date} (inside : InRange date) :
    fromYmd date.year date.monthOfYear date.day = some ⟨date, inside⟩ := by
  have month : 12 * date.year + (date.monthOfYear - 1 : Nat) = date.month := by
    unfold Date.year Date.monthOfYear yearOf
    omega
  have position : 1 ≤ date.monthOfYear ∧ date.monthOfYear ≤ 12 := by
    unfold Date.monthOfYear
    omega
  have valid : 1 ≤ date.day ∧ date.day ≤ daysInMonth (12 * date.year +
      (date.monthOfYear - 1 : Nat)) := by
    rw [month]
    exact date.valid
  have same : (⟨12 * date.year + (date.monthOfYear - 1 : Nat), date.day, valid⟩ : Date) = date :=
    Date.ext month rfl
  unfold fromYmd Date.ofYmd
  rw [if_pos position, dif_pos valid, same]
  exact checked_eq inside

/-! ### A walk over an ascending family of dates -/

theorem dayNumber_add_le {family : Int → Date} (ascending : StrictMono family) (first : Int)
    (distance : Nat) :
    (family first).dayNumber + distance ≤ (family (first + distance)).dayNumber := by
  induction distance with
  | zero => simp
  | succ distance inductionHypothesis =>
    have step : family (first + distance) < family (first + (distance + 1 : Nat)) :=
      ascending (by omega)
    have later := Date.dayNumber_lt_iff.mpr step
    omega

/-- The loops of an expansion over an ascending family of dates, from one on or before the horizon,
list the family inside the horizon. -/
theorem walk_family {State : Type} {point : State → NaiveDate} {next : State → Option State}
    {family : Int → Date} {states : Int → State} {first : Int} {start stop : NaiveDate}
    {count : Nat} (ascending : StrictMono family) (before : family first ≤ start.val)
    (ordered : start ≤ stop)
    (held : ∀ multiple, first ≤ multiple → (multiple = first ∨ family (multiple - 1) ≤ stop.val) →
      (point (states multiple)).val = family multiple)
    (steps : ∀ multiple, first ≤ multiple → family multiple ≤ stop.val →
      next (states multiple) = some (states (multiple + 1)))
    (enough : (stop.val.dayNumber - (family first).dayNumber).toNat + 1 ≤ count) :
    (walk point next start stop count (states first)).Pairwise (· < ·) ∧
      ∀ date, date ∈ walk point next start stop count (states first) ↔
        start ≤ date ∧ date ≤ stop ∧ ∃ multiple, date.val = family multiple := by
  have leaves : ∃ index : Nat, stop.val < family (first + index) := by
    refine ⟨(stop.val.dayNumber - (family first).dayNumber).toNat + 1, ?_⟩
    rw [← Date.dayNumber_lt_iff]
    have grown := dayNumber_add_le ascending first
      ((stop.val.dayNumber - (family first).dayNumber).toNat + 1)
    omega
  have bounded : Nat.find leaves ≤ count := by
    refine (Nat.find_min' leaves ?_).trans enough
    rw [← Date.dayNumber_lt_iff]
    have grown := dayNumber_add_le ascending first
      ((stop.val.dayNumber - (family first).dayNumber).toNat + 1)
    omega
  have upTo (index : Nat) (early : index < Nat.find leaves) : family (first + index) ≤ stop.val :=
    not_lt.mp (Nat.find_min leaves early)
  have value (index : Nat) (early : index ≤ Nat.find leaves) :
      (point (states (first + index))).val = family (first + index) := by
    refine held _ (by omega) ?_
    cases index with
    | zero => exact .inl (by simp)
    | succ index =>
      refine .inr ?_
      have earlier := upTo index early
      rwa [Nat.cast_succ, ← Int.add_assoc, Int.add_sub_cancel]
  have walked := @walk_spec State NaiveDate _ point next (fun index : Nat => states (first + index))
    start stop (Nat.find leaves) ?_ ?_ ?_ ?_ ordered count bounded
  · simp only [Nat.cast_zero, Int.add_zero] at walked
    refine ⟨walked.1, fun date => ?_⟩
    rw [walked.2]
    constructor
    · rintro ⟨index, early, rfl, atLeast⟩
      refine ⟨atLeast, ?_, _, value index early.le⟩
      rw [← Subtype.coe_le_coe, value index early.le]
      exact upTo index early
    · rintro ⟨atLeast, atMost, multiple, same⟩
      have later : first ≤ multiple := by
        rw [← ascending.le_iff_le, ← same]
        exact before.trans atLeast
      obtain ⟨index, rfl⟩ : ∃ index : Nat, multiple = first + index :=
        ⟨(multiple - first).toNat, by omega⟩
      have early : index < Nat.find leaves := by
        by_contra late
        have past : family (first + Nat.find leaves) ≤ family (first + index) :=
          ascending.monotone (by omega)
        rw [← same] at past
        exact absurd ((Nat.find_spec leaves).trans_le past) (not_lt.mpr atMost)
      exact ⟨index, early, Subtype.ext ((value index early.le).trans same.symm), atLeast⟩
  · intro index early
    have step := steps (first + index) (by omega) (upTo index early)
    rwa [Int.add_assoc] at step
  · intro index later less early
    rw [← Subtype.coe_lt_coe, value index (by omega), value later early.le]
    exact ascending (by omega)
  · intro index early
    rw [← Subtype.coe_le_coe, value index early.le]
    exact upTo index early
  · rw [← Subtype.coe_lt_coe, value _ le_rfl]
    exact Nat.find_spec leaves

/-- A list of dates is the lattice between the ends of a horizon. -/
def Expands (pays : Date → Prop) (start stop : NaiveDate) (dates : List NaiveDate) : Prop :=
  dates.Pairwise (· < ·) ∧
    ∀ date : NaiveDate, date ∈ dates ↔ start ≤ date ∧ date ≤ stop ∧ pays date.val

theorem fixedIntervalDates_expands {schedule : PaySchedule} {interval : Nat}
    {start stop : NaiveDate} (positive : 1 ≤ interval) (ordered : start ≤ stop)
    (representable : (Cadence.days interval).Representable schedule.anchor.val start.val stop.val) :
    Expands ((Cadence.days interval).Pays schedule.anchor.val) start stop
      (schedule.fixedIntervalDates interval start stop) := by
  let family (multiple : Int) : Date := schedule.anchor.val.addDays (multiple * interval)
  let states (multiple : Int) : NaiveDate := (checked (family multiple)).getD start
  let first : Int :=
    (start.val.dayNumber - schedule.anchor.val.dayNumber) / (interval : Int)
  have number (multiple : Int) : (family multiple).dayNumber =
      schedule.anchor.val.dayNumber + multiple * interval := Date.dayNumber_addDays _ _
  have ascending : StrictMono family := fun earlier later less =>
    Date.addDays_lt_iff.mpr (Int.mul_lt_mul_of_pos_right less (by omega))
  -- The first multiple is of the last occurrence on or before the horizon.
  have low : first * interval ≤ start.val.dayNumber - schedule.anchor.val.dayNumber :=
    Int.ediv_mul_le _ (by omega)
  have high : start.val.dayNumber - schedule.anchor.val.dayNumber < (first + 1) * interval :=
    Int.lt_ediv_add_one_mul_self _ (by omega)
  rw [Int.add_mul, Int.one_mul] at high
  have before : family first ≤ start.val := by
    rw [← Date.dayNumber_le_iff, number]
    omega
  have reachable (multiple : Int) (later : first ≤ multiple)
      (near : multiple = first ∨ family (multiple - 1) ≤ stop.val) : InRange (family multiple) := by
    have after : family first ≤ family multiple := ascending.monotone later
    rw [← Date.dayNumber_le_iff, number] at after
    refine representable multiple ?_ ?_
    · rw [← Date.dayNumber_le_iff, Date.dayNumber_addDays]
      show _ ≤ (family multiple).dayNumber
      omega
    · rw [← Date.dayNumber_le_iff, Date.dayNumber_addDays stop.val]
      show (family multiple).dayNumber ≤ _
      have ends : start.val.dayNumber ≤ stop.val.dayNumber := Date.dayNumber_le_iff.mpr ordered
      obtain rfl | previous := near
      · rw [number]
        omega
      · rw [← Date.dayNumber_le_iff, number, Int.sub_mul, Int.one_mul] at previous
        rw [number]
        omega
  have value (multiple : Int) (inside : InRange (family multiple)) :
      (states multiple).val = family multiple := by
    show ((checked (family multiple)).getD start).val = _
    rw [checked_eq inside]
    rfl
  have firstInside := reachable first le_rfl (.inl rfl)
  have walked := @walk_family NaiveDate id (fun date => shiftDays date interval) family states first
    start stop (rounds ⟨family first, firstInside⟩ stop) ascending before ordered
    (fun multiple later near => value multiple (reachable multiple later near)) ?_ le_rfl
  · have starts : states first = ⟨family first, firstInside⟩ := Subtype.ext (value first firstInside)
    rw [starts] at walked
    have expanded : schedule.fixedIntervalDates interval start stop =
        walk id (fun date => shiftDays date interval) start stop
          (rounds ⟨family first, firstInside⟩ stop) ⟨family first, firstInside⟩ := by
      have shifted : shiftDays schedule.anchor (first * interval) =
          some ⟨family first, firstInside⟩ := (shiftDays_eq _ _).trans (checked_eq firstInside)
      unfold PaySchedule.fixedIntervalDates
      dsimp only
      rw [shifted]
    rw [expanded]
    exact walked
  · intro multiple later inside
    have here := reachable multiple later
      (.inr ((ascending.monotone (by omega)).trans inside))
    have there := reachable (multiple + 1) (by omega)
      (.inr (by rw [Int.add_sub_cancel]; exact inside))
    have next : (family multiple).addDays interval = family (multiple + 1) := by
      refine Date.dayNumber_injective ?_
      rw [Date.dayNumber_addDays, number, number]
      ring
    rw [shiftDays_eq, value multiple here, next, checked_eq there]
    exact congrArg some (Subtype.ext (value (multiple + 1) there).symm)

theorem months_between (first second : Date) :
    (second.year - first.year) * 12 + (second.monthOfYear - first.monthOfYear : Int) =
      second.month - first.month := by
  unfold Date.year Date.monthOfYear yearOf
  omega

theorem month_le_of_le {earlier later : Date} (atMost : earlier ≤ later) :
    earlier.month ≤ later.month := by
  obtain months | ⟨months, -⟩ := Date.le_iff.mp atMost
  · exact months.le
  · exact months.le

theorem monthlyStepDates_expands {step : Nat} (positive : 1 ≤ step) (ordered : start ≤ stop)
    (representable : (Cadence.months step).Representable schedule.anchor.val start.val stop.val) :
    Expands ((Cadence.months step).Pays schedule.anchor.val) start stop
      (schedule.monthlyStepDates step start stop) := by
  let family (multiple : Int) : Date := schedule.anchor.val.addMonths (multiple * step)
  let states (multiple : Int) : Int × NaiveDate :=
    (multiple, (checked (family multiple)).getD start)
  let first : Int := (start.val.month - schedule.anchor.val.month) / (step : Int) - 1
  have month (multiple : Int) : (family multiple).month =
      schedule.anchor.val.month + multiple * step := rfl
  have ascending : StrictMono family := fun earlier later less =>
    Date.addMonths_lt_iff.mpr (Int.mul_lt_mul_of_pos_right less (by omega))
  -- The first multiple is of an occurrence at least a step before the horizon's month.
  have low : (first + 1) * step ≤ start.val.month - schedule.anchor.val.month := by
    rw [show first + 1 = (start.val.month - schedule.anchor.val.month) / (step : Int) by omega]
    exact Int.ediv_mul_le _ (by omega)
  have high : start.val.month - schedule.anchor.val.month < (first + 2) * step := by
    rw [show first + 2 = (start.val.month - schedule.anchor.val.month) / (step : Int) + 1 by omega]
    exact Int.lt_ediv_add_one_mul_self _ (by omega)
  rw [Int.add_mul, Int.one_mul] at low
  rw [Int.add_mul] at high
  have before : family first ≤ start.val := by
    refine (Date.lt_iff.mpr (.inl ?_)).le
    rw [month]
    omega
  have reachable (multiple : Int) (later : first ≤ multiple)
      (near : multiple = first ∨ family (multiple - 1) ≤ stop.val) : InRange (family multiple) := by
    have after := month_le_of_le (ascending.monotone later)
    rw [month, month] at after
    refine representable multiple (by omega) ?_
    have ends := month_le_of_le ordered
    obtain rfl | previous := near
    · omega
    · have reached := month_le_of_le previous
      rw [month, Int.sub_mul, Int.one_mul] at reached
      omega
  have value (multiple : Int) (inside : InRange (family multiple)) :
      (states multiple).2.val = family multiple := by
    show ((checked (family multiple)).getD start).val = _
    rw [checked_eq inside]
    rfl
  have occurs (multiple : Int) (inside : InRange (family multiple)) :
      schedule.occurrence step multiple = some (states multiple) := by
    unfold PaySchedule.occurrence
    rw [shiftMonths_eq inside]
    exact congrArg some (Prod.ext rfl (Subtype.ext (value multiple inside).symm))
  have firstInside := reachable first le_rfl (.inl rfl)
  have walked := @walk_family (Int × NaiveDate) Prod.snd
    (fun reached => schedule.occurrence step (reached.1 + 1)) family states first start stop
    (rounds (states first).2 stop) ascending before ordered
    (fun multiple later near => value multiple (reachable multiple later near)) ?_ ?_
  · have expanded : schedule.monthlyStepDates step start stop =
        walk Prod.snd (fun reached => schedule.occurrence step (reached.1 + 1)) start stop
          (rounds (states first).2 stop) (states first) := by
      unfold PaySchedule.monthlyStepDates
      rw [months_between]
      dsimp only
      rw [occurs first firstInside]
    rw [expanded]
    exact walked
  · intro multiple later inside
    have there := reachable (multiple + 1) (by omega)
      (.inr (by rw [Int.add_sub_cancel]; exact inside))
    exact occurs (multiple + 1) there
  · rw [rounds, value first firstInside]

/-! ### Two days a month -/

theorem inRange_between {low middle high : Date} (lowInside : InRange low)
    (highInside : InRange high) (atLeast : low.month ≤ middle.month)
    (atMost : middle.month ≤ high.month) : InRange middle := by
  unfold InRange Date.year yearOf at *
  omega

theorem firstOf_le_iff {date : Date} : Date.firstOf month ≤ date ↔ month ≤ date.month := by
  constructor
  · exact month_le_of_le
  · intro months
    rcases months.lt_or_eq with earlier | same
    · exact Date.le_iff.mpr (.inl earlier)
    · exact Date.le_iff.mpr (.inr ⟨same, date.valid.1⟩)

theorem addMonths_firstOf (month : Int) :
    (Date.firstOf month).addMonths 1 = Date.firstOf (month + 1) := by
  have long := le_daysInMonth (month + 1)
  refine Date.ext rfl ?_
  show min 1 (daysInMonth (month + 1)) = 1
  omega

theorem addDays_firstOf (month : Int) :
    (Date.firstOf (month + 1)).addDays (-1) = Date.lastOf month := by
  refine Date.dayNumber_injective ?_
  have next := monthStart_succ month
  rw [Date.dayNumber_addDays, Date.dayNumber, Date.dayNumber]
  simp only [Date.firstOf, Date.lastOf]
  push_cast
  omega

theorem lastDayOfMonth_eq (inside : InRange (Date.firstOf month))
    (nextInside : InRange (Date.firstOf (month + 1))) :
    lastDayOfMonth (Date.firstOf month).year (Date.firstOf month).monthOfYear =
      some (daysInMonth month) := by
  have lastInside : InRange (Date.lastOf month) := inside
  have first : fromYmd (Date.firstOf month).year (Date.firstOf month).monthOfYear 1 =
      some ⟨Date.firstOf month, inside⟩ := fromYmd_eq inside
  have next : checkedAddMonths ⟨Date.firstOf month, inside⟩ 1 =
      some ⟨Date.firstOf (month + 1), nextInside⟩ := by
    unfold checkedAddMonths
    rw [Nat.cast_one, addMonths_firstOf, checked_eq nextInside]
  have last : checkedSubDays ⟨Date.firstOf (month + 1), nextInside⟩ 1 =
      some ⟨Date.lastOf month, lastInside⟩ := by
    unfold checkedSubDays
    rw [Nat.cast_one, addDays_firstOf, checked_eq lastInside]
  unfold lastDayOfMonth
  rw [first]
  show (checkedAddMonths _ 1).bind _ = _
  rw [next]
  show (checkedSubDays _ 1).bind _ = _
  rw [last]
  rfl

/-- The fifteenth of a month. -/
def midOf (month : Int) : Date :=
  ⟨month, 15, by decide, (by decide : 15 ≤ 28).trans (le_daysInMonth _)⟩

theorem semimonthlyIn_eq (inside : InRange (Date.firstOf month)) (start stop : NaiveDate) :
    PaySchedule.semimonthlyIn (Date.firstOf month).year (Date.firstOf month).monthOfYear
        (daysInMonth month) start stop =
      ([⟨midOf month, inside⟩, ⟨Date.lastOf month, inside⟩] : List NaiveDate).filter
        fun date => start ≤ date ∧ date ≤ stop := by
  have mid : fromYmd (Date.firstOf month).year (Date.firstOf month).monthOfYear 15 =
      some ⟨midOf month, inside⟩ := @fromYmd_eq (midOf month) inside
  have last : fromYmd (Date.firstOf month).year (Date.firstOf month).monthOfYear
      (daysInMonth month) = some ⟨Date.lastOf month, inside⟩ := @fromYmd_eq (Date.lastOf month) inside
  unfold PaySchedule.semimonthlyIn
  simp only [List.filterMap_cons, List.filterMap_nil, List.filter_cons, List.filter_nil, mid, last,
    Option.filter_some]
  split_ifs <;> rfl

theorem semimonthlyIn_expands (inside : InRange (Date.firstOf month)) (start stop : NaiveDate) :
    Expands (fun date => date.month = month ∧ Cadence.semiMonthly.Pays date date) start stop
      (PaySchedule.semimonthlyIn (Date.firstOf month).year (Date.firstOf month).monthOfYear
        (daysInMonth month) start stop) := by
  have long := le_daysInMonth month
  rw [semimonthlyIn_eq inside]
  constructor
  · refine List.Pairwise.sublist List.filter_sublist ?_
    refine List.pairwise_pair.mpr (Date.lt_iff.mpr (.inr ⟨rfl, ?_⟩))
    show 15 < daysInMonth month
    omega
  · intro date
    rw [List.mem_filter, List.mem_pair, decide_eq_true_eq]
    constructor
    · rintro ⟨rfl | rfl, atLeast, atMost⟩
      · exact ⟨atLeast, atMost, rfl, .inl rfl⟩
      · exact ⟨atLeast, atMost, rfl, .inr rfl⟩
    · rintro ⟨atLeast, atMost, same, mid | last⟩
      · exact ⟨.inl (Subtype.ext (Date.ext same mid)), atLeast, atMost⟩
      · refine ⟨.inr (Subtype.ext (Date.ext same ?_)), atLeast, atMost⟩
        rw [last, same]
        rfl

theorem semimonthlyFrom_expands {start stop : NaiveDate} {month : Int} {months : Nat}
    (inside : InRange (Date.firstOf month)) (past : InRange (Date.firstOf (stop.val.month + 1)))
    (enough : stop.val.month + 1 ≤ month + months) :
    Expands (fun date => month ≤ date.month ∧ Cadence.semiMonthly.Pays date date) start stop
      (PaySchedule.semimonthlyFrom start stop months ⟨Date.firstOf month, inside⟩) := by
  have nothing (late : stop.val.month < month) : Expands (fun date =>
      month ≤ date.month ∧ Cadence.semiMonthly.Pays date date) start stop [] := by
    refine ⟨.nil, fun date => iff_of_false List.not_mem_nil ?_⟩
    rintro ⟨-, atMost, months, -⟩
    have ends := month_le_of_le (Subtype.coe_le_coe.mpr atMost)
    omega
  induction months generalizing month with
  | zero => exact nothing (by omega)
  | succ months inductionHypothesis =>
    rw [PaySchedule.semimonthlyFrom]
    by_cases early : month ≤ stop.val.month
    · have nextInside : InRange (Date.firstOf (month + 1)) := by
        refine inRange_between inside past ?_ ?_
        · show month ≤ month + 1
          omega
        · show month + 1 ≤ stop.val.month + 1
          omega
      have next : checkedAddMonths ⟨Date.firstOf month, inside⟩ 1 =
          some ⟨Date.firstOf (month + 1), nextInside⟩ := by
        unfold checkedAddMonths
        rw [Nat.cast_one, addMonths_firstOf, checked_eq nextInside]
      rw [if_pos (Subtype.coe_le_coe.mp (firstOf_le_iff.mpr early)),
        lastDayOfMonth_eq inside nextInside, next]
      have here := semimonthlyIn_expands inside start stop
      have later := inductionHypothesis nextInside (by omega) fun late => by
        refine ⟨.nil, fun date => iff_of_false List.not_mem_nil ?_⟩
        rintro ⟨-, atMost, months, -⟩
        have ends := month_le_of_le (Subtype.coe_le_coe.mpr atMost)
        omega
      constructor
      · refine List.pairwise_append.mpr ⟨here.1, later.1, fun first firstIn second secondIn => ?_⟩
        obtain ⟨-, -, same, -⟩ := (here.2 first).mp firstIn
        obtain ⟨-, -, after, -⟩ := (later.2 second).mp secondIn
        exact Date.lt_iff.mpr (.inl (by omega))
      · intro date
        rw [List.mem_append, here.2, later.2]
        constructor
        · rintro (⟨atLeast, atMost, same, pays⟩ | ⟨atLeast, atMost, after, pays⟩)
          · exact ⟨atLeast, atMost, same.ge, pays⟩
          · exact ⟨atLeast, atMost, by omega, pays⟩
        · rintro ⟨atLeast, atMost, after, pays⟩
          by_cases same : date.val.month = month
          · exact .inl ⟨atLeast, atMost, same, pays⟩
          · exact .inr ⟨atLeast, atMost, by omega, pays⟩
    · rw [if_neg fun before => early (firstOf_le_iff.mp (Subtype.coe_le_coe.mpr before))]
      exact nothing (not_le.mp early)

theorem dedup_of_ascending {dates : List NaiveDate} (ascending : dates.Pairwise (· < ·)) :
    PaySchedule.dedup dates = dates := by
  induction dates with
  | nil => rw [PaySchedule.dedup]
  | cons first rest inductionHypothesis =>
    obtain ⟨before, later⟩ := List.pairwise_cons.mp ascending
    cases rest with
    | nil => rw [PaySchedule.dedup]
    | cons second rest =>
      have apart : first ≠ second := (before second List.mem_cons_self).ne
      rw [PaySchedule.dedup, if_neg apart, inductionHypothesis later]

theorem semimonthlyDates_expands {anchor : Date} (ordered : start ≤ stop)
    (past : InRange (Date.firstOf (stop.val.month + 1))) :
    Expands (Cadence.semiMonthly.Pays anchor) start stop
      (PaySchedule.semimonthlyDates start stop) := by
  have inside : InRange (Date.firstOf start.val.month) := start.property
  have monthStart : fromYmd start.val.year start.val.monthOfYear 1 =
      some ⟨Date.firstOf start.val.month, inside⟩ := fromYmd_eq inside
  have months := month_le_of_le (Subtype.coe_le_coe.mpr ordered)
  have ascending : StrictMono Date.firstOf := fun _ _ less => Date.lt_iff.mpr (.inl less)
  have enough : stop.val.month + 1 ≤ start.val.month +
      (rounds ⟨Date.firstOf start.val.month, inside⟩ stop : Nat) := by
    have grown := dayNumber_add_le ascending start.val.month
      (stop.val.month - start.val.month).toNat
    rw [Int.toNat_of_nonneg (by omega),
      show start.val.month + (stop.val.month - start.val.month) = stop.val.month by omega] at grown
    have ends : (Date.firstOf stop.val.month).dayNumber ≤ stop.val.dayNumber :=
      Date.dayNumber_le_iff.mpr (firstOf_le_iff.mpr le_rfl)
    rw [rounds]
    dsimp only
    omega
  have expands := @semimonthlyFrom_expands start stop _ _ inside past enough
  have sorted := List.Pairwise.insertionSort_eq (expands.1.imp fun less => le_of_lt less)
  unfold PaySchedule.semimonthlyDates
  rw [monthStart]
  dsimp only
  rw [sorted, dedup_of_ascending expands.1]
  refine ⟨expands.1, fun date => ?_⟩
  rw [expands.2]
  constructor
  · rintro ⟨atLeast, atMost, -, pays⟩
    exact ⟨atLeast, atMost, pays⟩
  · rintro ⟨atLeast, atMost, pays⟩
    exact ⟨atLeast, atMost, month_le_of_le (Subtype.coe_le_coe.mpr atLeast), pays⟩

/-! ### All cadences -/

theorem payDates_expands (bounded : schedule.frequency.Bounded) (ordered : start ≤ stop)
    (representable : schedule.Representable start stop) :
    Expands (schedule.frequency.cadence.Pays schedule.anchor.val) start stop
      (schedule.payDates start stop) := by
  obtain ⟨frequency, anchor⟩ := schedule
  unfold PaySchedule.payDates
  rw [if_neg (not_lt.mpr ordered)]
  cases frequency with
  | weekly => exact fixedIntervalDates_expands (by decide) ordered representable
  | biweekly => exact fixedIntervalDates_expands (by decide) ordered representable
  | semiMonthly => exact semimonthlyDates_expands ordered representable
  | monthly => exact monthlyStepDates_expands (by decide) ordered representable
  | quarterly => exact monthlyStepDates_expands (by decide) ordered representable
  | annual => exact monthlyStepDates_expands (by decide) ordered representable
  | everyNDays count =>
    have atLeast : 1 ≤ count := bounded.1
    dsimp only
    rw [max_eq_left atLeast]
    exact fixedIntervalDates_expands atLeast ordered representable
  | everyNWeeks count =>
    have atLeast : 1 ≤ count := bounded.1
    dsimp only
    rw [max_eq_left atLeast]
    exact @fixedIntervalDates_expands _ (7 * count) _ _ (by omega) ordered representable
  | everyNMonths count =>
    have atLeast : 1 ≤ count := bounded.1
    dsimp only
    rw [max_eq_left atLeast]
    exact monthlyStepDates_expands atLeast ordered representable

/-- The pay dates of a schedule whose frequency a token names are exactly the dates of its lattice
inside the horizon, in order and each once, wherever the anchor lies. -/
theorem pay_dates_are_the_lattice {token : String} {frequency : Frequency}
    (parsed : Frequency.fromToken token = some frequency) (anchor : NaiveDate)
    {start stop : NaiveDate} (ordered : start ≤ stop)
    (representable : PaySchedule.Representable ⟨frequency, anchor⟩ start stop) :
    (PaySchedule.payDates ⟨frequency, anchor⟩ start stop).Pairwise (· < ·) ∧
      ∀ date, date ∈ PaySchedule.payDates ⟨frequency, anchor⟩ start stop ↔
        start ≤ date ∧ date ≤ stop ∧ PaySchedule.Pays ⟨frequency, anchor⟩ date :=
  payDates_expands (Frequency.bounded_of_fromToken parsed) ordered representable

/-- Every other month, anchored on a 31st after the horizon. -/
theorem pay_dates_are_the_lattice_from_a_later_anchor :
    ∃ anchor start stop : NaiveDate, start ≤ stop ∧ stop < anchor ∧
      (PaySchedule.payDates ⟨.everyNMonths 2, anchor⟩ start stop).Pairwise (· < ·) ∧
      ∀ date, date ∈ PaySchedule.payDates ⟨.everyNMonths 2, anchor⟩ start stop ↔
        start ≤ date ∧ date ≤ stop ∧ PaySchedule.Pays ⟨.everyNMonths 2, anchor⟩ date := by
  let anchor : NaiveDate := ⟨⟨12 * 2024 + 11, 31, by decide⟩, by decide⟩
  let start : NaiveDate := ⟨⟨12 * 2024, 1, by decide⟩, by decide⟩
  let stop : NaiveDate := ⟨⟨12 * 2024 + 5, 30, by decide⟩, by decide⟩
  have ordered : start ≤ stop := Subtype.coe_le_coe.mp (Date.lt_iff.mpr (.inl (by decide))).le
  have before : stop < anchor := Subtype.coe_lt_coe.mp (Date.lt_iff.mpr (.inl (by decide)))
  refine ⟨anchor, start, stop, ordered, before,
    @pay_dates_are_the_lattice "every_2_months" _ (by decide) anchor start stop ordered ?_⟩
  intro multiple atLeast atMost
  unfold InRange Date.year yearOf minYear maxYear
  rw [Date.month_addMonths]
  dsimp only [anchor, start, stop] at *
  omega

end Dohflow.PayDates
