/-
This file is a small theory of the proleptic Gregorian calendar.

A date is a month, counted from January of year zero, and a day inside it, so a day
its month does not have cannot be written. Dates are ordered by month and then by
day. `dayNumber` counts days; it puts the dates in one line, `nextDay` and `prevDay`
walk along it, and `addDays` goes any distance. `addMonths` keeps the day, or takes
the last one of a month that is too short.
-/

import Mathlib.Order.Basic
import Mathlib.Data.Int.Basic
import Mathlib.Data.Int.Order.Basic
import Mathlib.Data.Prod.Lex
import Mathlib.Tactic.Ring
import Mathlib.Data.Int.ConditionallyCompleteOrder
import Mathlib.Order.ConditionallyCompleteLattice.Basic

namespace Calendar

/-! ### Months and years -/

def isLeap (year : Int) : Bool := year % 4 = 0 && (year % 100 ≠ 0 || year % 400 = 0)

/-- The year of a month counted from January of year zero. -/
def yearOf (month : Int) : Int := month / 12

/-- How many days a month has; `0` of the remainders is January. -/
def daysInMonth (month : Int) : Nat :=
  if month % 12 = 1 then if isLeap (yearOf month) then 29 else 28
  else if month % 12 = 3 ∨ month % 12 = 5 ∨ month % 12 = 8 ∨ month % 12 = 10 then 30
  else 31

theorem daysInMonth_le (month : Int) : daysInMonth month ≤ 31 := by
  unfold daysInMonth
  split_ifs <;> omega

theorem le_daysInMonth (month : Int) : 28 ≤ daysInMonth month := by
  unfold daysInMonth
  split_ifs <;> omega

/-- The days before the first of January of a year, from that of year zero on. -/
def yearStart (year : Int) : Int :=
  365 * year + (year + 3) / 4 - (year + 99) / 100 + (year + 399) / 400

/-- The days before a month in its year. -/
def daysBefore (leap : Bool) (month : Int) : Int :=
  let extra : Int := if leap then 1 else 0
  if month = 0 then 0
  else if month = 1 then 31
  else if month = 2 then 59 + extra
  else if month = 3 then 90 + extra
  else if month = 4 then 120 + extra
  else if month = 5 then 151 + extra
  else if month = 6 then 181 + extra
  else if month = 7 then 212 + extra
  else if month = 8 then 243 + extra
  else if month = 9 then 273 + extra
  else if month = 10 then 304 + extra
  else 334 + extra

/-- The number of a month's first day. -/
def monthStart (month : Int) : Int :=
  yearStart (yearOf month) + daysBefore (isLeap (yearOf month)) (month % 12)

theorem yearStart_succ (year : Int) :
    yearStart (year + 1) = yearStart year + if isLeap year then 366 else 365 := by
  have leap : isLeap year = true ↔ year % 4 = 0 ∧ (year % 100 ≠ 0 ∨ year % 400 = 0) := by
    simp [isLeap]
  unfold yearStart
  by_cases isLeapYear : isLeap year = true
  · rw [if_pos isLeapYear]
    have rule := leap.mp isLeapYear
    omega
  · rw [if_neg isLeapYear]
    have rule := mt leap.mpr isLeapYear
    omega

/-- The next month starts after this one's days. -/
theorem monthStart_succ (month : Int) :
    monthStart (month + 1) = monthStart month + daysInMonth month := by
  unfold monthStart daysInMonth
  by_cases december : month % 12 = 11
  · have year : yearOf (month + 1) = yearOf month + 1 := by
      unfold yearOf
      omega
    have january : (month + 1) % 12 = 0 := by omega
    rw [year, january, yearStart_succ, december]
    cases isLeap (yearOf month) <;> simp [daysBefore] <;> ring
  · have year : yearOf (month + 1) = yearOf month := by
      unfold yearOf
      omega
    have later : (month + 1) % 12 = month % 12 + 1 := by omega
    have low : 0 ≤ month % 12 := Int.emod_nonneg _ (by decide)
    have high : month % 12 < 11 := by omega
    rw [year, later]
    generalize month % 12 = position at low high
    have positions : position = 0 ∨ position = 1 ∨ position = 2 ∨ position = 3 ∨ position = 4 ∨
        position = 5 ∨ position = 6 ∨ position = 7 ∨ position = 8 ∨ position = 9 ∨
        position = 10 := by omega
    rcases positions with rfl | rfl | rfl | rfl | rfl | rfl | rfl | rfl | rfl | rfl | rfl <;>
      cases isLeap (yearOf month) <;> simp [daysBefore] <;> ring

theorem monthStart_add_le {first second : Int} (before : first < second) :
    monthStart first + daysInMonth first ≤ monthStart second := by
  obtain ⟨distance, rfl⟩ : ∃ distance : Nat, second = first + 1 + distance :=
    ⟨(second - (first + 1)).toNat, by omega⟩
  induction distance with
  | zero =>
    have next := monthStart_succ first
    simp only [Nat.cast_zero, Int.add_zero]
    omega
  | succ distance inductionHypothesis =>
    have next := monthStart_succ (first + 1 + distance)
    have reached := inductionHypothesis (by omega)
    rw [Nat.cast_succ, ← Int.add_assoc, next]
    omega

/-! ### Dates -/

/-- A day of the calendar. -/
@[ext] structure Date where
  month : Int
  day : Nat
  valid : 1 ≤ day ∧ day ≤ daysInMonth month
  deriving DecidableEq

namespace Date

variable {first second : Date} (date : Date)

/-- The date of a year, a month from `1` to `12` and a day. -/
def ofYmd (year : Int) (month day : Nat) : Option Date :=
  if 1 ≤ month ∧ month ≤ 12 then
    if inside : 1 ≤ day ∧ day ≤ daysInMonth (12 * year + (month - 1 : Nat)) then
      some ⟨12 * year + (month - 1 : Nat), day, inside⟩
    else none
  else none

def year (date : Date) : Int := yearOf date.month

/-- The month in its year, from `1` to `12`. -/
def monthOfYear (date : Date) : Nat := (date.month % 12).toNat + 1

theorem toLex_injective :
    Function.Injective fun date : Date => toLex (date.month, date.day) := by
  intro first second same
  have parts := Prod.mk.inj (toLex.injective same)
  exact Date.ext parts.1 parts.2

instance : LinearOrder Date :=
  LinearOrder.lift' (fun date => toLex (date.month, date.day)) toLex_injective

theorem lt_iff : first < second ↔
    first.month < second.month ∨ first.month = second.month ∧ first.day < second.day :=
  Prod.Lex.lt_iff

theorem le_iff : first ≤ second ↔
    first.month < second.month ∨ first.month = second.month ∧ first.day ≤ second.day :=
  Prod.Lex.le_iff

/-- The number of a date's day. -/
def dayNumber (date : Date) : Int := monthStart date.month + (date.day - 1 : Int)

theorem dayNumber_lt_dayNumber (before : first < second) : first.dayNumber < second.dayNumber := by
  have firstValid := first.valid
  have secondValid := second.valid
  unfold dayNumber
  obtain months | ⟨months, days⟩ := lt_iff.mp before
  · have starts := monthStart_add_le months
    omega
  · rw [months]
    omega

theorem dayNumber_strictMono : StrictMono dayNumber := fun _ _ => dayNumber_lt_dayNumber

theorem dayNumber_lt_iff :
    first.dayNumber < second.dayNumber ↔ first < second := dayNumber_strictMono.lt_iff_lt

theorem dayNumber_le_iff :
    first.dayNumber ≤ second.dayNumber ↔ first ≤ second := dayNumber_strictMono.le_iff_le

theorem dayNumber_injective : Function.Injective dayNumber := dayNumber_strictMono.injective

/-! ### Going by days -/

/-- The first day of a month. -/
def firstOf (month : Int) : Date := ⟨month, 1, le_rfl, (by decide : 1 ≤ 28).trans (le_daysInMonth _)⟩

/-- The last day of a month. -/
def lastOf (month : Int) : Date :=
  ⟨month, daysInMonth month, (by decide : 1 ≤ 28).trans (le_daysInMonth _), le_rfl⟩

def nextDay (date : Date) : Date :=
  if inside : date.day + 1 ≤ daysInMonth date.month then
    ⟨date.month, date.day + 1, Nat.le_add_left _ _, inside⟩
  else firstOf (date.month + 1)

def prevDay (date : Date) : Date :=
  if inside : 1 ≤ date.day - 1 then
    ⟨date.month, date.day - 1, inside, (Nat.sub_le _ _).trans date.valid.2⟩
  else lastOf (date.month - 1)

theorem dayNumber_nextDay : date.nextDay.dayNumber = date.dayNumber + 1 := by
  have valid := date.valid
  unfold nextDay
  by_cases inside : date.day + 1 ≤ daysInMonth date.month
  · rw [dif_pos inside, dayNumber, dayNumber]
    push_cast
    ring
  · rw [dif_neg inside, dayNumber, dayNumber]
    have next := monthStart_succ date.month
    simp only [firstOf]
    push_cast
    omega

theorem dayNumber_prevDay : date.prevDay.dayNumber = date.dayNumber - 1 := by
  have valid := date.valid
  unfold prevDay
  by_cases inside : 1 ≤ date.day - 1
  · rw [dif_pos inside, dayNumber, dayNumber]
    simp only
    omega
  · rw [dif_neg inside, dayNumber, dayNumber]
    have next := monthStart_succ (date.month - 1)
    rw [Int.sub_add_cancel] at next
    simp only [lastOf]
    omega

/-- A date a number of days later, or earlier. -/
def addDays (date : Date) (days : Int) : Date :=
  if 0 ≤ days then nextDay^[days.toNat] date else prevDay^[(-days).toNat] date

theorem dayNumber_iterate_nextDay (count : Nat) (date : Date) :
    (nextDay^[count] date).dayNumber = date.dayNumber + count := by
  induction count generalizing date with
  | zero => simp
  | succ count inductionHypothesis =>
    rw [Function.iterate_succ_apply, inductionHypothesis, dayNumber_nextDay]
    push_cast
    ring

theorem dayNumber_iterate_prevDay (count : Nat) (date : Date) :
    (prevDay^[count] date).dayNumber = date.dayNumber - count := by
  induction count generalizing date with
  | zero => simp
  | succ count inductionHypothesis =>
    rw [Function.iterate_succ_apply, inductionHypothesis, dayNumber_prevDay]
    push_cast
    ring

theorem dayNumber_addDays (days : Int) : (date.addDays days).dayNumber = date.dayNumber + days := by
  unfold addDays
  by_cases later : 0 ≤ days
  · rw [if_pos later, dayNumber_iterate_nextDay, Int.toNat_of_nonneg later]
  · rw [if_neg later, dayNumber_iterate_prevDay, Int.toNat_of_nonneg (by omega)]
    ring

theorem addDays_addDays (first second : Int) :
    (date.addDays first).addDays second = date.addDays (first + second) := by
  refine dayNumber_injective ?_
  rw [dayNumber_addDays, dayNumber_addDays, dayNumber_addDays]
  ring

theorem addDays_lt_iff {date : Date} {first second : Int} :
    date.addDays first < date.addDays second ↔ first < second := by
  rw [← dayNumber_lt_iff, dayNumber_addDays, dayNumber_addDays]
  exact Int.add_lt_add_iff_left _

/-! ### Going by months -/

/-- A date a number of months later, or earlier, on the same day or the month's last. -/
def addMonths (date : Date) (months : Int) : Date :=
  ⟨date.month + months, min date.day (daysInMonth (date.month + months)),
    le_min date.valid.1 ((by decide : 1 ≤ 28).trans (le_daysInMonth _)), min_le_right _ _⟩

@[simp] theorem month_addMonths (months : Int) :
    (date.addMonths months).month = date.month + months := rfl

@[simp] theorem day_addMonths (months : Int) :
    (date.addMonths months).day = min date.day (daysInMonth (date.month + months)) := rfl

theorem addMonths_lt_iff {date : Date} {first second : Int} :
    date.addMonths first < date.addMonths second ↔ first < second := by
  rw [lt_iff]
  simp only [month_addMonths]
  constructor
  · rintro (before | ⟨same, days⟩)
    · omega
    · obtain rfl : first = second := by omega
      exact absurd days (lt_irrefl _)
  · intro before
    exact .inl (by omega)

end Date

end Calendar
