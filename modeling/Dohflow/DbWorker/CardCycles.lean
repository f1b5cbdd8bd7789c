/-
This file models how the billing cycles of a card are derived from its close day and its
due day.

A cycle is a window from one statement close up to the next and the date its payment is due.
The closes go from month to month. The first is the first on or after today, or the one
before it when that statement is not due yet and is due before the current one. A payment is
due on the first due day after its close, but always after the payment before it. A card
without a close day closes and falls due on its due day.

A date out of the range of the date type makes the code panic, which is no value here.
-/

import Dohflow.DbWorker.BillEvents
import Dohflow.Foundation.MonthDays

namespace Dohflow.DbWorker

open SyncCore Fallible Calendar
open PayDates (InRange fromYmd checkedSubDays rounds PaySchedule)

/-! ### Days of a month -/

def nextMonth (year : Int) (month : Nat) : Int × Nat :=
  if month = 12 then (year + 1, 1) else (year, month + 1)

def prevMonth (year : Int) (month : Nat) : Int × Nat :=
  if month = 1 then (year - 1, 12) else (year, month - 1)

/-- The last day of a month, or 28 where the date type does not hold the next month. -/
def lastDayOfMonth (year : Int) (month : Nat) : Nat :=
  let (nextYear, nextMonth) := nextMonth year month
  match (fromYmd nextYear nextMonth 1).bind fun first => checkedSubDays first 1 with
  | some last => last.val.day
  | none => 28

/-- A day in a month, held to the month's days. -/
def clampedDay (year : Int) (month day : Nat) : Option PayDates.NaiveDate :=
  fromYmd year month (max 1 (min day (lastDayOfMonth year month)))

/-- The day in the month after that of a date. -/
def inNextMonth (date : PayDates.NaiveDate) (day : Nat) : Option PayDates.NaiveDate :=
  let (year, month) := nextMonth date.val.year date.val.monthOfYear
  clampedDay year month day

/-- The day in the month before that of a date. -/
def inPrevMonth (date : PayDates.NaiveDate) (day : Nat) : Option PayDates.NaiveDate :=
  let (year, month) := prevMonth date.val.year date.val.monthOfYear
  clampedDay year month day

/-- The first date on or after a date that falls on a day. -/
def dayOfMonthOnOrAfter (start : PayDates.NaiveDate) (day : Nat) : Option PayDates.NaiveDate := do
  let candidate ← clampedDay start.val.year start.val.monthOfYear day
  if start ≤ candidate then return candidate else inNextMonth start day

/-- The first date after a date that falls on a day. -/
def dayOfMonthAfter (start : PayDates.NaiveDate) (day : Nat) : Option PayDates.NaiveDate := do
  let candidate ← clampedDay start.val.year start.val.monthOfYear day
  if start < candidate then return candidate else inNextMonth start day

/-! ### Cycles -/

/-- A window of charges, `[opens, close)`, and the date its payment is due. -/
structure CardCycle where
  opens : PayDates.NaiveDate
  close : PayDates.NaiveDate
  due : PayDates.NaiveDate
  deriving DecidableEq

/-- `while due <= prev`, the next due day, for so many rounds at most. -/
def advancePast (prev : PayDates.NaiveDate) (dueDay : Nat) :
    Nat → PayDates.NaiveDate → Option PayDates.NaiveDate
  | 0, due => some due
  | count + 1, due =>
    if due ≤ prev then (dayOfMonthAfter due dueDay).bind (advancePast prev dueDay count)
    else some due

/-- The due date of a close, after the one before. Each round of the loop moves the date on, so it
takes no more rounds than there are days between. -/
def dueAfter (dueDay : Nat) (close : PayDates.NaiveDate) (lastDue : Option PayDates.NaiveDate) :
    Option PayDates.NaiveDate := do
  let due ← dayOfMonthAfter close dueDay
  match lastDue with
  | some prev => advancePast prev dueDay (rounds due prev) due
  | none => some due

/-- So many cycles from a close on. -/
def cyclesFrom (closeDay dueDay : Nat) :
    Nat → PayDates.NaiveDate → PayDates.NaiveDate → Option PayDates.NaiveDate →
      Option (List CardCycle)
  | 0, _, _, _ => some []
  | count + 1, opens, close, lastDue => do
    let due ← dueAfter dueDay close lastDue
    let next ← dayOfMonthAfter close closeDay
    let rest ← cyclesFrom closeDay dueDay count close next (some due)
    return ⟨opens, close, due⟩ :: rest

/-- The close that leads: the one before the first on or after today, when its statement is still to
be paid, and before the current one. -/
def leadingClose (today : PayDates.NaiveDate) (closeDay dueDay : Nat) :
    Option PayDates.NaiveDate := do
  let close ← dayOfMonthOnOrAfter today closeDay
  let prevClose ← inPrevMonth close closeDay
  let prevDue ← dayOfMonthAfter prevClose dueDay
  if today ≤ prevDue then
    let due ← dayOfMonthAfter close dueDay
    return if prevDue < due then prevClose else close
  else return close

def deriveCardCycles (today : PayDates.NaiveDate) (closeDay dueDay count : Nat) :
    Option (List CardCycle) := do
  let close ← leadingClose today closeDay dueDay
  let opens ← inPrevMonth close closeDay
  cyclesFrom closeDay dueDay count opens close none

/-- So many cycles that close and fall due on one day, from a close on. -/
def pseudoCyclesFrom (dueDay : Nat) :
    Nat → PayDates.NaiveDate → PayDates.NaiveDate → Option (List CardCycle)
  | 0, _, _ => some []
  | count + 1, opens, close => do
    let next ← dayOfMonthAfter close dueDay
    let rest ← pseudoCyclesFrom dueDay count close next
    return ⟨opens, close, close⟩ :: rest

/-- The cycles of a card that has no close day. -/
def derivePseudoCycles (today : PayDates.NaiveDate) (dueDay count : Nat) :
    Option (List CardCycle) := do
  let close ← dayOfMonthOnOrAfter today dueDay
  let opens ← inPrevMonth close dueDay
  pseudoCyclesFrom dueDay count opens close

/-! ### Charges -/

/-- A charge falls into the window. -/
def CardCycle.holds (cycle : CardCycle) (charge : PayDates.NaiveDate) : Bool :=
  cycle.opens ≤ charge ∧ charge < cycle.close

/-- The first cycle whose window a charge falls into. -/
def cycleOf (cycles : List CardCycle) (charge : PayDates.NaiveDate) : Option Nat :=
  cycles.findIdx? fun cycle => cycle.holds charge

/-! ### Days that the date type holds -/

variable {month : Int} {start : PayDates.NaiveDate} {date : PayDates.NaiveDate}

/-- A month whose dates the date type holds. -/
abbrev MonthInRange (month : Int) : Prop := InRange (Date.firstOf month)

theorem monthInRange_between {low month high : Int} (lowIn : MonthInRange low)
    (highIn : MonthInRange high) (atLeast : low ≤ month) (atMost : month ≤ high) :
    MonthInRange month := PayDates.inRange_between lowIn highIn atLeast atMost

theorem nextMonth_eq (month : Int) :
    nextMonth (Date.firstOf month).year (Date.firstOf month).monthOfYear =
      ((Date.firstOf (month + 1)).year, (Date.firstOf (month + 1)).monthOfYear) := by
  show (if (month % 12).toNat + 1 = 12 then (month / 12 + 1, 1)
    else (month / 12, (month % 12).toNat + 1 + 1)) = ((month + 1) / 12, ((month + 1) % 12).toNat + 1)
  split_ifs with last
  · exact Prod.ext (by dsimp only; omega) (by dsimp only; omega)
  · exact Prod.ext (by dsimp only; omega) (by dsimp only; omega)

theorem prevMonth_eq (month : Int) :
    prevMonth (Date.firstOf month).year (Date.firstOf month).monthOfYear =
      ((Date.firstOf (month - 1)).year, (Date.firstOf (month - 1)).monthOfYear) := by
  show (if (month % 12).toNat + 1 = 1 then (month / 12 - 1, 12)
    else (month / 12, (month % 12).toNat + 1 - 1)) = ((month - 1) / 12, ((month - 1) % 12).toNat + 1)
  split_ifs with first
  · exact Prod.ext (by dsimp only; omega) (by dsimp only; omega)
  · exact Prod.ext (by dsimp only; omega) (by dsimp only; omega)

theorem lastDayOfMonth_eq (inside : MonthInRange month) (nextIn : MonthInRange (month + 1)) :
    lastDayOfMonth (Date.firstOf month).year (Date.firstOf month).monthOfYear =
      daysInMonth month := by
  have first : fromYmd (Date.firstOf (month + 1)).year (Date.firstOf (month + 1)).monthOfYear 1 =
      some ⟨Date.firstOf (month + 1), nextIn⟩ := PayDates.fromYmd_eq nextIn
  have last : checkedSubDays ⟨Date.firstOf (month + 1), nextIn⟩ 1 =
      some ⟨Date.lastOf month, inside⟩ := by
    unfold checkedSubDays
    rw [Nat.cast_one, PayDates.addDays_firstOf]
    exact PayDates.checked_eq _
  unfold lastDayOfMonth
  rw [nextMonth_eq]
  dsimp only
  rw [first, Option.bind_some, last]
  rfl

theorem clampedDay_eq (inside : MonthInRange month) (nextIn : MonthInRange (month + 1)) (day : Nat) :
    clampedDay (Date.firstOf month).year (Date.firstOf month).monthOfYear day =
      some ⟨onDay day month, inside⟩ := by
  unfold clampedDay
  rw [lastDayOfMonth_eq inside nextIn]
  exact @PayDates.fromYmd_eq (onDay day month) inside

theorem inNextMonth_eq (nextIn : MonthInRange (date.val.month + 1))
    (afterIn : MonthInRange (date.val.month + 2)) (day : Nat) :
    inNextMonth date day = some ⟨onDay day (date.val.month + 1), nextIn⟩ := by
  have next : nextMonth date.val.year date.val.monthOfYear = _ := nextMonth_eq date.val.month
  unfold inNextMonth
  rw [next]
  exact clampedDay_eq nextIn (by rwa [Int.add_assoc]) day

theorem inPrevMonth_eq (prevIn : MonthInRange (date.val.month - 1)) (day : Nat) :
    inPrevMonth date day = some ⟨onDay day (date.val.month - 1), prevIn⟩ := by
  have prev : prevMonth date.val.year date.val.monthOfYear = _ := prevMonth_eq date.val.month
  unfold inPrevMonth
  rw [prev]
  exact clampedDay_eq prevIn (by rw [Int.sub_add_cancel]; exact date.property) day

/-- A day of a month, as a date that the date type holds. -/
def dayIn (day : Nat) {month : Int} (inside : MonthInRange month) : PayDates.NaiveDate :=
  ⟨onDay day month, inside⟩

theorem dayOfMonthOnOrAfter_eq {day : Nat} (found : monthOnOrAfter day start.val = month)
    (inside : MonthInRange month) (nextIn : MonthInRange (month + 1)) :
    dayOfMonthOnOrAfter start day = some (dayIn day inside) := by
  have bounds := monthOnOrAfter_bounds day start.val
  have startNext := @monthInRange_between _ (start.val.month + 1) _ start.property nextIn
    (by show start.val.month ≤ _; omega) (by omega)
  have candidate : clampedDay start.val.year start.val.monthOfYear day =
      some ⟨onDay day start.val.month, start.property⟩ := clampedDay_eq start.property startNext day
  unfold dayOfMonthOnOrAfter
  rw [candidate, Option.bind_eq_bind, Option.bind_some]
  unfold monthOnOrAfter at found
  by_cases here : start.val ≤ onDay day start.val.month
  · rw [if_pos here] at found
    subst found
    exact if_pos here
  · rw [if_neg here] at found
    subst found
    rw [Int.add_assoc] at nextIn
    exact (if_neg here).trans (inNextMonth_eq inside nextIn day)

theorem dayOfMonthAfter_eq {day : Nat} (found : monthAfter day start.val = month)
    (inside : MonthInRange month) (nextIn : MonthInRange (month + 1)) :
    dayOfMonthAfter start day = some (dayIn day inside) := by
  have bounds := monthAfter_bounds day start.val
  have startNext := @monthInRange_between _ (start.val.month + 1) _ start.property nextIn
    (by show start.val.month ≤ _; omega) (by omega)
  have candidate : clampedDay start.val.year start.val.monthOfYear day =
      some ⟨onDay day start.val.month, start.property⟩ := clampedDay_eq start.property startNext day
  unfold dayOfMonthAfter
  rw [candidate, Option.bind_eq_bind, Option.bind_some]
  unfold monthAfter at found
  by_cases here : start.val < onDay day start.val.month
  · rw [if_pos here] at found
    subst found
    exact if_pos here
  · rw [if_neg here] at found
    subst found
    rw [Int.add_assoc] at nextIn
    exact (if_neg here).trans (inNextMonth_eq inside nextIn day)

end Dohflow.DbWorker
