/-
This file models the expansion of a pay schedule into its pay dates.

A schedule is a frequency anchored on a known pay date. A date here is a day of the
calendar inside the range the date type can hold, so a shift that leaves the range
has no value. Day cadences start at the last occurrence on or before the horizon
and go on by days; month cadences estimate the starting multiple, and recompute
every occurrence from the anchor, so that a schedule on the 31st keeps trying it.
-/

import Dohflow.Foundation.AscendingWalk
import Dohflow.Foundation.Calendar
import Mathlib.Data.List.Sort

namespace Dohflow.PayDates

open Calendar AscendingWalk

/-! ### Dates a schedule may name -/

/-- The first year the date type holds. -/
def minYear : Int := -262143

/-- The last year the date type holds. -/
def maxYear : Int := 262142

def InRange (date : Date) : Prop := minYear ≤ date.year ∧ date.year ≤ maxYear

instance (date : Date) : Decidable (InRange date) := inferInstanceAs (Decidable (_ ∧ _))

/-- A date the date type holds. -/
abbrev NaiveDate := { date : Date // InRange date }

/-- The date, when the date type holds it. -/
def checked (date : Date) : Option NaiveDate :=
  if inside : InRange date then some ⟨date, inside⟩ else none

def fromYmd (year : Int) (month day : Nat) : Option NaiveDate :=
  (Date.ofYmd year month day).bind checked

def checkedAddDays (date : NaiveDate) (days : Nat) : Option NaiveDate :=
  checked (date.val.addDays days)

def checkedSubDays (date : NaiveDate) (days : Nat) : Option NaiveDate :=
  checked (date.val.addDays (-days))

def checkedAddMonths (date : NaiveDate) (months : Nat) : Option NaiveDate :=
  checked (date.val.addMonths months)

def checkedSubMonths (date : NaiveDate) (months : Nat) : Option NaiveDate :=
  checked (date.val.addMonths (-months))

/-- Shift a date by a signed number of days. -/
def shiftDays (date : NaiveDate) (days : Int) : Option NaiveDate :=
  if 0 ≤ days then checkedAddDays date days.toNat else checkedSubDays date days.natAbs

/-- Shift a date by a signed number of months, held to the month's length. -/
def shiftMonths (date : NaiveDate) (months : Int) : Option NaiveDate :=
  if months.natAbs < 2 ^ 32 then
    if 0 ≤ months then checkedAddMonths date months.natAbs
    else checkedSubMonths date months.natAbs
  else none

/-- The last day of a month. -/
def lastDayOfMonth (year : Int) (month : Nat) : Option Nat := do
  let first ← fromYmd year month 1
  let next ← checkedAddMonths first 1
  let last ← checkedSubDays next 1
  return last.val.day

/-! ### Frequencies -/

def maxEveryNDays : Nat := 366

def maxEveryNWeeks : Nat := 52

def maxEveryNMonths : Nat := 36

/-- How often a pay schedule recurs. -/
inductive Frequency
  | weekly
  | biweekly
  | semiMonthly
  | monthly
  | quarterly
  | annual
  | everyNDays (count : Nat)
  | everyNWeeks (count : Nat)
  | everyNMonths (count : Nat)
  deriving DecidableEq

/-- What follows a text's beginning, if it begins so. -/
def stripFront : List Char → List Char → Option (List Char)
  | [], text => some text
  | wanted :: front, found :: text => if wanted = found then stripFront front text else none
  | _ :: _, [] => none

/-- What stands before and after the first occurrence of a character. -/
def splitOnce (separator : Char) : List Char → Option (List Char × List Char)
  | [] => none
  | found :: text =>
    if found = separator then some ([], text)
    else (splitOnce separator text).map fun (before, after) => (found :: before, after)

/-- The number some decimal digits spell, read on from what stands before them. -/
def digitsFrom (value : Nat) : List Char → Option Nat
  | [] => some value
  | digit :: rest =>
    if '0' ≤ digit ∧ digit ≤ '9' then digitsFrom (10 * value + (digit.toNat - '0'.toNat)) rest
    else none

/-- A `u32` in decimal; a plus sign may stand before it. -/
def parseU32 (text : List Char) : Option Nat := do
  let digits := match text with
    | '+' :: rest => rest
    | _ => text
  if digits.isEmpty then none
  else (digitsFrom 0 digits).filter fun value => value < 2 ^ 32

namespace Frequency

/-- A frequency of a counted unit, when the count is within the unit's bound. -/
def ofCount (unit : List Char) (count : Nat) : Option Frequency :=
  if unit = "days".toList ∧ 1 ≤ count ∧ count ≤ maxEveryNDays then some (.everyNDays count)
  else if unit = "weeks".toList ∧ 1 ≤ count ∧ count ≤ maxEveryNWeeks then
    some (.everyNWeeks count)
  else if unit = "months".toList ∧ 1 ≤ count ∧ count ≤ maxEveryNMonths then
    some (.everyNMonths count)
  else none

/-- Parse a token. -/
def fromToken (token : String) : Option Frequency :=
  if token = "weekly" then some .weekly
  else if token = "biweekly" then some .biweekly
  else if token = "semi_monthly" then some .semiMonthly
  else if token = "monthly" then some .monthly
  else if token = "quarterly" then some .quarterly
  else if token = "annual" then some .annual
  else do
    let rest ← stripFront "every_".toList token.toList
    let (count, unit) ← splitOnce '_' rest
    ofCount unit (← parseU32 count)

end Frequency

/-! ### The schedule -/

/-- A cadence anchored on a known pay date. -/
structure PaySchedule where
  frequency : Frequency
  anchor : NaiveDate

/-- As many rounds as there are days from one date past another; each round of a loop here moves its
date on, so no loop takes more. -/
def rounds (start last : NaiveDate) : Nat :=
  (last.val.dayNumber - start.val.dayNumber).toNat + 1

namespace PaySchedule

/-- Cadences of a fixed number of days. -/
def fixedIntervalDates (schedule : PaySchedule) (interval : Int) (start stop : NaiveDate) :
    List NaiveDate :=
  let multiple := (start.val.dayNumber - schedule.anchor.val.dayNumber) / interval
  match shiftDays schedule.anchor (multiple * interval) with
  | none => []
  | some date => walk id (fun date => shiftDays date interval) start stop (rounds date stop) date

/-- The date a number of steps of months from the anchor, with its multiple. -/
def occurrence (schedule : PaySchedule) (step multiple : Int) : Option (Int × NaiveDate) :=
  (shiftMonths schedule.anchor (multiple * step)).map fun date => (multiple, date)

/-- Cadences of a fixed number of months. -/
def monthlyStepDates (schedule : PaySchedule) (step : Int) (start stop : NaiveDate) :
    List NaiveDate :=
  let monthsFromAnchor : Int := (start.val.year - schedule.anchor.val.year) * 12 +
    (start.val.monthOfYear - schedule.anchor.val.monthOfYear)
  match schedule.occurrence step (monthsFromAnchor / step - 1) with
  | none => []
  | some reached =>
    walk Prod.snd (fun reached => schedule.occurrence step (reached.1 + 1)) start stop
      (rounds reached.2 stop) reached

/-- The pay days of one month inside the horizon. -/
def semimonthlyIn (year : Int) (month last : Nat) (start stop : NaiveDate) :
    List NaiveDate :=
  [15, last].filterMap fun day =>
    (fromYmd year month day).filter fun date => start ≤ date ∧ date ≤ stop

/-- Month by month from a month's first day on, for so many months at most. -/
def semimonthlyFrom (start stop : NaiveDate) : Nat → NaiveDate → List NaiveDate
  | 0, _ => []
  | months + 1, monthStart =>
    if monthStart ≤ stop then
      match lastDayOfMonth monthStart.val.year monthStart.val.monthOfYear with
      | none => []
      | some last =>
        semimonthlyIn monthStart.val.year monthStart.val.monthOfYear last start stop ++
          match checkedAddMonths monthStart 1 with
          | some next => semimonthlyFrom start stop months next
          | none => []
    else []

/-- Leave out a date that repeats the one before it. -/
def dedup : List NaiveDate → List NaiveDate
  | [] => []
  | [date] => [date]
  | first :: second :: rest =>
    if first = second then dedup (first :: rest) else first :: dedup (second :: rest)

/-- The 15th and the last day of each month. -/
def semimonthlyDates (start stop : NaiveDate) : List NaiveDate :=
  match fromYmd start.val.year start.val.monthOfYear 1 with
  | none => []
  | some monthStart =>
    let out := semimonthlyFrom start stop (rounds monthStart stop) monthStart
    dedup (out.insertionSort (· ≤ ·))

/-- All pay dates in the horizon, its ends included. -/
def payDates (schedule : PaySchedule) (start stop : NaiveDate) : List NaiveDate :=
  if stop < start then []
  else match schedule.frequency with
    | .weekly => schedule.fixedIntervalDates 7 start stop
    | .biweekly => schedule.fixedIntervalDates 14 start stop
    | .semiMonthly => semimonthlyDates start stop
    | .monthly => schedule.monthlyStepDates 1 start stop
    | .quarterly => schedule.monthlyStepDates 3 start stop
    | .annual => schedule.monthlyStepDates 12 start stop
    | .everyNDays count => schedule.fixedIntervalDates (max count 1 : Nat) start stop
    | .everyNWeeks count => schedule.fixedIntervalDates (7 * (max count 1 : Nat)) start stop
    | .everyNMonths count => schedule.monthlyStepDates (max count 1 : Nat) start stop

/-- How far ahead the next pay date is looked for, in months. -/
def lookAhead : Nat := 13

/-- The first pay date on or after a date, if there is one within the look-ahead. -/
def nextPayDate (schedule : PaySchedule) (onOrAfter : NaiveDate) : Option NaiveDate := do
  let stop ← checkedAddMonths onOrAfter lookAhead
  (schedule.payDates onOrAfter stop).head?

end PaySchedule

end Dohflow.PayDates
