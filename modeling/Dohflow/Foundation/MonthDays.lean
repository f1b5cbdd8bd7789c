/-
This file is a small theory of the dates that fall on one day of the month.

In a month that is too short the date is the last day. There is one such date in every
month, they ascend, and from any date the next one, or the first that is not before it, is
in the same month or in the next. What lies from one of them up to another that comes later
lies in one window between neighbours.
-/

import Dohflow.Foundation.Calendar

namespace Calendar

variable (day : Nat) {start : Date} {month : Int}

/-- The date on a day of the month, or on the month's last. -/
def onDay (day : Nat) (month : Int) : Date :=
  ⟨month, max 1 (min day (daysInMonth month)), le_max_left _ _,
    max_le ((by decide : 1 ≤ 28).trans (le_daysInMonth _)) (min_le_right _ _)⟩

@[simp] theorem month_onDay (month : Int) : (onDay day month).month = month := rfl

theorem onDay_lt_onDay {day other : Nat} {first second : Int} (before : first < second) :
    onDay day first < onDay other second := Date.lt_iff.mpr (.inl before)

theorem onDay_strictMono : StrictMono (onDay day) := fun _ _ => onDay_lt_onDay

theorem onDay_injective : Function.Injective (onDay day) :=
  (onDay_strictMono day).injective

theorem month_le_month {first second : Date} (ordered : first ≤ second) :
    first.month ≤ second.month := by
  rcases Date.le_iff.mp ordered with earlier | ⟨same, -⟩
  · exact earlier.le
  · exact same.le

/-- The month of the first such date that is not before a date. -/
def monthOnOrAfter (day : Nat) (start : Date) : Int :=
  if start ≤ onDay day start.month then start.month else start.month + 1

/-- The month of the first such date after a date. -/
def monthAfter (day : Nat) (start : Date) : Int :=
  if start < onDay day start.month then start.month else start.month + 1

theorem le_onDay_iff {day : Nat} : start ≤ onDay day month ↔ monthOnOrAfter day start ≤ month := by
  unfold monthOnOrAfter
  split_ifs with here
  · constructor
    · intro ordered
      exact month_le_month ordered
    · intro later
      exact here.trans ((onDay_strictMono day).monotone later)
  · constructor
    · intro ordered
      rcases (month_le_month ordered).lt_or_eq with later | same
      · exact later
      · rw [month_onDay] at same
        exact absurd (same ▸ ordered) here
    · intro later
      exact (Date.lt_iff.mpr (.inl (by rw [month_onDay]; omega))).le

theorem lt_onDay_iff {day : Nat} : start < onDay day month ↔ monthAfter day start ≤ month := by
  unfold monthAfter
  split_ifs with here
  · constructor
    · intro ordered
      exact month_le_month ordered.le
    · intro later
      exact here.trans_le ((onDay_strictMono day).monotone later)
  · constructor
    · intro ordered
      rcases (month_le_month ordered.le).lt_or_eq with later | same
      · exact later
      · rw [month_onDay] at same
        exact absurd (same ▸ ordered) here
    · intro later
      exact Date.lt_iff.mpr (.inl (by rw [month_onDay]; omega))

theorem onDay_lt_iff {day : Nat} : onDay day month < start ↔ month < monthOnOrAfter day start := by
  rw [← not_le, le_onDay_iff, not_le]

theorem onDay_le_iff {day : Nat} : onDay day month ≤ start ↔ month < monthAfter day start := by
  rw [← not_lt, lt_onDay_iff, not_le]

theorem monthOnOrAfter_bounds (start : Date) :
    start.month ≤ monthOnOrAfter day start ∧ monthOnOrAfter day start ≤ start.month + 1 := by
  unfold monthOnOrAfter
  split_ifs
  · omega
  · omega

theorem monthAfter_bounds (start : Date) :
    start.month ≤ monthAfter day start ∧ monthAfter day start ≤ start.month + 1 := by
  unfold monthAfter
  split_ifs
  · omega
  · omega

theorem monthAfter_onDay (month : Int) :
    monthAfter day (onDay day month) = month + 1 := if_neg (lt_irrefl _)

theorem monthAfter_onDay_of {day other : Nat} (positive : 1 ≤ day) (month : Int) :
    monthAfter other (onDay day month) =
      if day < other ∧ day < daysInMonth month then month else month + 1 := by
  have long := le_daysInMonth month
  unfold monthAfter
  refine if_congr ?_ rfl rfl
  rw [month_onDay, Date.lt_iff]
  simp only [onDay, lt_irrefl, false_or, true_and]
  omega

theorem exists_window {day : Nat} {first : Int} {count : Nat} {date : Date}
    (atLeast : onDay day first ≤ date) (before : date < onDay day (first + count)) :
    ∃ index, index < count ∧ onDay day (first + index) ≤ date ∧
      date < onDay day (first + index + 1) ∧
      ∀ other : Nat, onDay day (first + other) ≤ date → date < onDay day (first + other + 1) →
        other = index := by
  rw [onDay_le_iff] at atLeast
  rw [lt_onDay_iff] at before
  refine ⟨(monthAfter day date - 1 - first).toNat, by omega, ?_, ?_, fun other low high => ?_⟩
  · rw [onDay_le_iff]
    omega
  · rw [lt_onDay_iff]
    omega
  · rw [onDay_le_iff] at low
    rw [lt_onDay_iff] at high
    omega

end Calendar
