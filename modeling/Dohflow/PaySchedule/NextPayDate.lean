/-
This file settles when a schedule's next pay date is found.

The next pay date is the first of the expansion from a date to thirteen months after
it. Where the lattice of the schedule has a date in that window its least one is
found. Cadences of days or weeks, and the semi-monthly one, always have one there. A
cadence of months may step over the window, since its step may be longer.
-/

import Dohflow.PaySchedule.Lattice
import Mathlib.Order.Bounds.Basic

namespace Dohflow.PayDates

open Calendar

variable {date : NaiveDate} {frequency : Frequency}

/-! ### Months and days -/

theorem monthStart_add_mul_le (month : Int) (count : Nat) :
    monthStart month + 28 * count ≤ monthStart (month + count) := by
  induction count with
  | zero => simp
  | succ count inductionHypothesis =>
    have next := monthStart_succ (month + count)
    have long := le_daysInMonth (month + count)
    rw [Nat.cast_succ, ← Int.add_assoc, next]
    omega

theorem monthStart_add_two (month : Int) : monthStart month + 59 ≤ monthStart (month + 2) := by
  have first := monthStart_succ month
  have second := monthStart_succ (month + 1)
  have long : 59 ≤ daysInMonth month + daysInMonth (month + 1) := by
    unfold daysInMonth
    split_ifs <;> omega
  rw [show month + 1 + 1 = month + 2 by omega] at second
  omega

theorem dayNumber_addMonths (date : Date) :
    date.dayNumber + 366 ≤ (date.addMonths PaySchedule.lookAhead).dayNumber := by
  have first := monthStart_add_two date.month
  have second := monthStart_add_two (date.month + 2)
  have third := monthStart_add_two (date.month + 2 + 2)
  have fourth := monthStart_add_two (date.month + 2 + 2 + 2)
  have fifth := monthStart_add_two (date.month + 2 + 2 + 2 + 2)
  have sixth := monthStart_add_two (date.month + 2 + 2 + 2 + 2 + 2)
  have last := monthStart_succ (date.month + 2 + 2 + 2 + 2 + 2 + 2)
  rw [show date.month + 2 + 2 + 2 + 2 + 2 + 2 + 1 = date.month + 13 by omega] at last
  have long := le_daysInMonth (date.month + 13)
  have short := le_daysInMonth (date.month + 2 + 2 + 2 + 2 + 2 + 2)
  have days := daysInMonth_le date.month
  have valid := date.valid
  unfold Date.dayNumber
  simp only [Date.month_addMonths, Date.day_addMonths, PaySchedule.lookAhead, Nat.cast_ofNat]
  omega

theorem month_le_add {earlier later : Date} {days months : Nat}
    (near : later.dayNumber ≤ earlier.dayNumber + days) (enough : days + 31 ≤ 28 * months) :
    later.month ≤ earlier.month + months := by
  by_contra far
  obtain ⟨count, atLeast, same⟩ : ∃ count : Nat, months < count ∧
      later.month = earlier.month + count :=
    ⟨(later.month - earlier.month).toNat, by omega, by omega⟩
  have start := monthStart_add_mul_le earlier.month count
  have days := daysInMonth_le earlier.month
  have earlierValid := earlier.valid
  have laterValid := later.valid
  rw [Date.dayNumber, Date.dayNumber, same] at near
  omega

/-! ### Dates well inside the range -/

/-- Ten years lie between the date and either end of the range. -/
def WellInside (date : NaiveDate) : Prop :=
  minYear + 10 ≤ date.val.year ∧ date.val.year ≤ maxYear - 10

instance (date : NaiveDate) : Decidable (WellInside date) := inferInstanceAs (Decidable (_ ∧ _))

theorem WellInside.inRange (inside : WellInside date) {other : Date}
    (low : date.val.month - 108 ≤ other.month) (high : other.month ≤ date.val.month + 108) :
    InRange other := by
  unfold WellInside Date.year yearOf at inside
  unfold InRange Date.year yearOf
  omega

/-- The end of the look-ahead from a date. -/
def WellInside.stop {date : NaiveDate} (inside : WellInside date) : NaiveDate :=
  ⟨date.val.addMonths PaySchedule.lookAhead, inside.inRange
    (by rw [Date.month_addMonths, PaySchedule.lookAhead]; omega)
    (by rw [Date.month_addMonths, PaySchedule.lookAhead]; omega)⟩

theorem WellInside.month_stop (inside : WellInside date) :
    inside.stop.val.month = date.val.month + 13 := rfl

theorem WellInside.day_stop (inside : WellInside date) :
    inside.stop.val.day = min date.val.day (daysInMonth (date.val.month + 13)) := rfl

theorem WellInside.le_stop (inside : WellInside date) : date ≤ inside.stop := by
  refine Subtype.coe_le_coe.mp (Date.lt_iff.mpr (.inl ?_)).le
  rw [inside.month_stop]
  omega

/-- A cadence of days goes at most a leap year's days, one of months at most three years. -/
def Cadence.Bounded : Cadence → Prop
  | .days interval => 1 ≤ interval ∧ interval ≤ 366
  | .months step => 1 ≤ step ∧ step ≤ 36
  | .semiMonthly => True

theorem Frequency.Bounded.cadence (bounded : frequency.Bounded) : frequency.cadence.Bounded := by
  cases frequency with
  | everyNDays count => exact bounded
  | everyNWeeks count =>
    have weeks : count ≤ 52 := bounded.2
    have atLeast : 1 ≤ count := bounded.1
    exact ⟨by omega, by omega⟩
  | everyNMonths count => exact bounded
  | _ => simp [Frequency.cadence, Cadence.Bounded]

/-- Around a date well inside the range, the date type holds all that an expansion shifts to. -/
theorem WellInside.representable (inside : WellInside date) (bounded : frequency.Bounded)
    (anchor : NaiveDate) : PaySchedule.Representable ⟨frequency, anchor⟩ date inside.stop := by
  have bounds := bounded.cadence
  unfold PaySchedule.Representable
  dsimp only
  generalize frequency.cadence = cadence at bounds ⊢
  cases cadence with
  | days interval =>
    intro multiple atLeast atMost
    obtain ⟨-, few⟩ := bounds
    rw [← Date.dayNumber_le_iff, Date.dayNumber_addDays] at atLeast
    rw [← Date.dayNumber_le_iff, Date.dayNumber_addDays inside.stop.val] at atMost
    have low := @month_le_add (anchor.val.addDays (multiple * interval)) date.val 366 15
      (by omega) (by omega)
    have high := @month_le_add inside.stop.val (anchor.val.addDays (multiple * interval)) 366 15
      (by omega) (by omega)
    rw [inside.month_stop] at high
    exact inside.inRange (by omega) (by omega)
  | months step =>
    intro multiple atLeast atMost
    obtain ⟨-, few⟩ := bounds
    rw [inside.month_stop] at atMost
    exact inside.inRange (by rw [Date.month_addMonths]; omega) (by rw [Date.month_addMonths]; omega)
  | semiMonthly =>
    refine inside.inRange ?_ ?_
    · show date.val.month - 108 ≤ inside.stop.val.month + 1
      rw [inside.month_stop]
      omega
    · show inside.stop.val.month + 1 ≤ date.val.month + 108
      rw [inside.month_stop]
      omega

/-! ### The head of an expansion -/

theorem Expands.head_isLeast {dates : List NaiveDate} {pays : Date → Prop}
    {start stop : NaiveDate} (expands : Expands pays start stop dates) :
    (∃ found, dates.head? = some found ∧ IsLeast {date | start ≤ date ∧ pays date.val} found) ↔
      ∃ date : NaiveDate, start ≤ date ∧ date ≤ stop ∧ pays date.val := by
  constructor
  · rintro ⟨found, head, -⟩
    exact ⟨found, (expands.2 found).mp (List.mem_of_mem_head? head)⟩
  · rintro ⟨date, inside⟩
    have listed := (expands.2 date).mpr inside
    cases dates with
    | nil => exact absurd listed List.not_mem_nil
    | cons found rest =>
      obtain ⟨atLeast, atMost, pays⟩ := (expands.2 found).mp List.mem_cons_self
      refine ⟨found, rfl, ⟨atLeast, pays⟩, fun other ⟨later, otherPays⟩ => ?_⟩
      by_cases near : other ≤ stop
      · rcases List.mem_cons.mp ((expands.2 other).mpr ⟨later, near, otherPays⟩) with rfl | behind
        · exact le_rfl
        · exact ((List.pairwise_cons.mp expands.1).1 other behind).le
      · exact atMost.trans (not_le.mp near).le

/-! ### What the look-ahead reaches -/

/-- Whether the lattice of a cadence has a date between one and thirteen months after it. For
months, `left` is how many go by before the next month of the lattice after the date's own. -/
def Cadence.Reaches (anchor date : Date) : Cadence → Prop
  | .months step =>
    let left : Int := step - (date.month - anchor.month) % step
    left = step ∧ date.day ≤ min anchor.day (daysInMonth date.month) ∨
      left < 13 ∨
      left = 13 ∧ min anchor.day (daysInMonth (date.month + 13)) ≤ date.day
  | _ => True

theorem days_reach (inside : WellInside date) (anchor : Date) {interval : Nat}
    (bounded : (Cadence.days interval).Bounded) :
    ∃ other : NaiveDate, date ≤ other ∧ other ≤ inside.stop ∧
      (Cadence.days interval).Pays anchor other.val := by
  obtain ⟨positive, few⟩ := bounded
  -- The least multiple that is not before the date.
  let multiple : Int := (date.val.dayNumber - anchor.dayNumber + (interval - 1)) / (interval : Int)
  have low : multiple * interval ≤ date.val.dayNumber - anchor.dayNumber + (interval - 1) :=
    Int.ediv_mul_le _ (by omega)
  have high : date.val.dayNumber - anchor.dayNumber + (interval - 1) < (multiple + 1) * interval :=
    Int.lt_ediv_add_one_mul_self _ (by omega)
  rw [Int.add_mul, Int.one_mul] at high
  have window := dayNumber_addMonths date.val
  have atLeast : date.val ≤ anchor.addDays (multiple * interval) := by
    rw [← Date.dayNumber_le_iff, Date.dayNumber_addDays]
    omega
  have atMost : anchor.addDays (multiple * interval) ≤ inside.stop.val := by
    rw [← Date.dayNumber_le_iff, Date.dayNumber_addDays]
    show _ ≤ (date.val.addMonths PaySchedule.lookAhead).dayNumber
    omega
  have held := inRange_between date.property inside.stop.property (month_le_of_le atLeast)
    (month_le_of_le atMost)
  exact ⟨⟨_, held⟩, atLeast, atMost, multiple, rfl⟩

theorem semiMonthly_reaches (inside : WellInside date) (anchor : Date) :
    ∃ other : NaiveDate, date ≤ other ∧ other ≤ inside.stop ∧
      Cadence.semiMonthly.Pays anchor other.val := by
  refine ⟨⟨Date.lastOf date.val.month, date.property⟩, ?_, ?_, .inr rfl⟩
  · exact Subtype.coe_le_coe.mp (Date.le_iff.mpr (.inr ⟨rfl, date.val.valid.2⟩))
  · refine Subtype.coe_le_coe.mp (Date.lt_iff.mpr (.inl ?_)).le
    rw [inside.month_stop]
    show date.val.month < date.val.month + 13
    omega

theorem left_le {step : Nat} (positive : 1 ≤ step) {distance multiple : Int}
    (later : distance < multiple * step) :
    step - distance % step ≤ multiple * step - distance := by
  have parts := Int.emod_add_mul_ediv distance step
  have low := Int.emod_nonneg distance (show (step : Int) ≠ 0 by omega)
  have quotient : distance / step < multiple := by
    refine Int.ediv_lt_of_lt_mul (by omega) later
  have next : (distance / step + 1) * step ≤ multiple * step :=
    Int.mul_le_mul_of_nonneg_right quotient (by omega)
  rw [Int.add_mul, Int.one_mul, Int.mul_comm] at next
  omega

theorem months_reach_iff (inside : WellInside date) (anchor : Date) {step : Nat}
    (positive : 1 ≤ step) :
    (∃ other : NaiveDate, date ≤ other ∧ other ≤ inside.stop ∧
      (Cadence.months step).Pays anchor other.val) ↔
      (Cadence.months step).Reaches anchor date.val := by
  generalize spans : date.val.month - anchor.month = distance
  have parts := Int.emod_add_mul_ediv distance step
  have below := Int.emod_lt_of_pos distance (show (0 : Int) < step by omega)
  unfold Cadence.Reaches
  dsimp only
  rw [spans]
  constructor
  · rintro ⟨⟨_, held⟩, atLeast, atMost, multiple, rfl⟩
    obtain later | ⟨here, days⟩ := Date.le_iff.mp (Subtype.coe_le_coe.mpr atLeast)
    · have left := @left_le step positive distance multiple (by
        rw [Date.month_addMonths] at later
        omega)
      obtain near | ⟨atEnd, days⟩ := Date.le_iff.mp (Subtype.coe_le_coe.mpr atMost)
      · rw [Date.month_addMonths, inside.month_stop] at near
        exact .inr (.inl (by omega))
      · rw [Date.month_addMonths, inside.month_stop] at atEnd
        rw [Date.day_addMonths, atEnd, inside.day_stop] at days
        by_cases near : step - distance % step < 13
        · exact .inr (.inl near)
        · exact .inr (.inr ⟨by omega, days.trans (min_le_left _ _)⟩)
    · rw [Date.month_addMonths] at here
      rw [Date.day_addMonths, ← here] at days
      have whole : distance = multiple * step := by omega
      rw [whole, Int.mul_emod_left, Int.sub_zero]
      exact .inl ⟨rfl, days⟩
  · -- The multiple of the date's own month, or of the next one.
    have next : (distance / step + 1) * step = distance + (step - distance % step) := by
      rw [Int.add_mul, Int.one_mul, Int.mul_comm]
      omega
    have reach (multiple : Int) (later : date.val ≤ anchor.addMonths (multiple * step))
        (near : anchor.addMonths (multiple * step) ≤ inside.stop.val) :
        ∃ other : NaiveDate, date ≤ other ∧ other ≤ inside.stop ∧
          (Cadence.months step).Pays anchor other.val :=
      ⟨⟨_, inRange_between date.property inside.stop.property (month_le_of_le later)
        (month_le_of_le near)⟩, later, near, multiple, rfl⟩
    rintro (⟨same, days⟩ | near | ⟨atEnd, days⟩)
    · have whole : distance / step * step = distance := by
        rw [Int.mul_comm]
        omega
      have month : anchor.month + distance / step * step = date.val.month := by omega
      refine reach (distance / step) (Date.le_iff.mpr (.inr ⟨month.symm, ?_⟩))
        (Date.le_iff.mpr (.inl ?_))
      · rw [Date.day_addMonths, month]
        exact days
      · rw [Date.month_addMonths, month, inside.month_stop]
        omega
    · refine reach (distance / step + 1) (Date.le_iff.mpr (.inl ?_)) (Date.le_iff.mpr (.inl ?_))
      · rw [Date.month_addMonths, next]
        omega
      · rw [Date.month_addMonths, next, inside.month_stop]
        omega
    · have month : anchor.month + (distance / step + 1) * step = date.val.month + 13 := by omega
      refine reach (distance / step + 1) (Date.le_iff.mpr (.inl ?_))
        (Date.le_iff.mpr (.inr ⟨month, ?_⟩))
      · rw [Date.month_addMonths, month]
        omega
      · rw [Date.day_addMonths, month, inside.day_stop]
        exact le_min days (min_le_right _ _)

/-! ### The next pay date -/

theorem reaches_iff (inside : WellInside date) (anchor : Date) {cadence : Cadence}
    (bounded : cadence.Bounded) :
    (∃ other : NaiveDate, date ≤ other ∧ other ≤ inside.stop ∧ cadence.Pays anchor other.val) ↔
      cadence.Reaches anchor date.val := by
  cases cadence with
  | days interval => exact iff_of_true (days_reach inside anchor bounded) trivial
  | months step => exact months_reach_iff inside anchor bounded.1
  | semiMonthly => exact iff_of_true (semiMonthly_reaches inside anchor) trivial

theorem nextPayDate_eq (inside : WellInside date) (schedule : PaySchedule) :
    schedule.nextPayDate date = (schedule.payDates date inside.stop).head? := by
  have window : checkedAddMonths date PaySchedule.lookAhead = some inside.stop :=
    checked_eq inside.stop.property
  unfold PaySchedule.nextPayDate
  rw [window]
  rfl

theorem Cadence.reaches_of_le {step : Nat} (positive : 1 ≤ step) (few : step ≤ 13)
    (anchor date : Date) : (Cadence.months step).Reaches anchor date := by
  have behind := Int.emod_nonneg (date.month - anchor.month) (show (step : Int) ≠ 0 by omega)
  have short := date.valid.2
  by_cases days : date.day ≤ min anchor.day (daysInMonth date.month)
  · by_cases same : (date.month - anchor.month) % step = 0
    · exact .inl ⟨by rw [same, Int.sub_zero], days⟩
    · exact .inr (.inl (by omega))
  · -- The date is past the anchor's day, so the day after the step is not past the date's.
    have past : anchor.day < date.day := by omega
    by_cases near : step - (date.month - anchor.month) % (step : Int) < 13
    · exact .inr (.inl near)
    · exact .inr (.inr ⟨by omega, (min_le_left _ _).trans past.le⟩)

/-- The next pay date from a date well inside the range is the least date of the lattice not before
it just where the cadence reaches into the look-ahead. -/
theorem next_pay_date_is_the_least_iff {token : String} {frequency : Frequency}
    (parsed : Frequency.fromToken token = some frequency) (anchor : NaiveDate) {date : NaiveDate}
    (inside : WellInside date) :
    (∃ found, PaySchedule.nextPayDate ⟨frequency, anchor⟩ date = some found ∧
      IsLeast {other | date ≤ other ∧ PaySchedule.Pays ⟨frequency, anchor⟩ other} found) ↔
      frequency.cadence.Reaches anchor.val date.val := by
  have bounded := Frequency.bounded_of_fromToken parsed
  have expands := payDates_expands bounded inside.le_stop (inside.representable bounded anchor)
  rw [nextPayDate_eq inside]
  exact expands.head_isLeast.trans (reaches_iff inside anchor.val bounded.cadence)

/-- Three years apart, and looked for on the second day. -/
theorem next_pay_date_misses_the_least :
    ∃ anchor date later : NaiveDate,
      Frequency.fromToken "every_36_months" = some (.everyNMonths 36) ∧ WellInside date ∧
      PaySchedule.nextPayDate ⟨.everyNMonths 36, anchor⟩ date = none ∧ date ≤ later ∧
      PaySchedule.Pays ⟨.everyNMonths 36, anchor⟩ later :=
  ⟨⟨⟨12 * 2024, 1, by decide⟩, by decide⟩, ⟨⟨12 * 2024, 2, by decide⟩, by decide⟩,
    ⟨⟨12 * 2027, 1, by decide⟩, by decide⟩, by decide, by decide, by decide +kernel,
    Subtype.coe_le_coe.mp (Date.le_iff.mpr (.inl (by decide))), 1, by decide⟩

/-- Every quarter the next pay date is found. -/
theorem next_pay_date_is_the_least_each_quarter :
    ∃ anchor date found : NaiveDate, WellInside date ∧
      PaySchedule.nextPayDate ⟨.quarterly, anchor⟩ date = some found ∧
      IsLeast {other | date ≤ other ∧ PaySchedule.Pays ⟨.quarterly, anchor⟩ other} found := by
  let anchor : NaiveDate := ⟨⟨12 * 2024, 31, by decide⟩, by decide⟩
  let date : NaiveDate := ⟨⟨12 * 2024 + 1, 1, by decide⟩, by decide⟩
  have inside : WellInside date := by decide
  obtain ⟨found, asked, least⟩ := (@next_pay_date_is_the_least_iff "quarterly" .quarterly
    (by decide) anchor date inside).mpr
    (@Cadence.reaches_of_le 3 (by decide) (by decide) anchor.val date.val)
  exact ⟨anchor, date, found, inside, asked, least⟩

end Dohflow.PayDates
