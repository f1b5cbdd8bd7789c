/-
This file proves that any occurrence of a schedule serves as its anchor.

The expansion finds its first date from the anchor by a floor division. An anchor
that is a whole number of intervals away moves that quotient by this number, so the
two expansions start at one date; they then step through the same dates, or leave
the range of the date type at the same step. Going by months this needs the day of
the anchor to be kept: an occurrence that a short month has clamped begins a series
of its own.
-/

import Dohflow.PaySchedule.Lattice

namespace Dohflow.PayDates

open Calendar AscendingWalk

variable {anchor occurrence : NaiveDate} {frequency : Frequency} {dates : List NaiveDate}
  {step multiple : Int}

/-! ### Occurrences -/

/-- The frequency the expansion goes by, where a count of zero is read as one. -/
def Frequency.counted : Frequency → Frequency
  | .everyNDays count => .everyNDays (max count 1)
  | .everyNWeeks count => .everyNWeeks (max count 1)
  | .everyNMonths count => .everyNMonths (max count 1)
  | frequency => frequency

/-- A date of the schedule, before or after its anchor. -/
def PaySchedule.Occurs (schedule : PaySchedule) (date : NaiveDate) : Prop :=
  schedule.frequency.counted.cadence.Pays schedule.anchor.val date.val

/-- An occurrence that no short month has clamped: going by months, the day is the anchor's. -/
def Cadence.Unclamped (anchor date : Date) : Cadence → Prop
  | .months _ => date.day = anchor.day
  | .days _ | .semiMonthly => True

def PaySchedule.Unclamped (schedule : PaySchedule) (date : NaiveDate) : Prop :=
  schedule.frequency.counted.cadence.Unclamped schedule.anchor.val date.val

theorem sub_mul_ediv {difference multiple step : Int} (positive : 0 < step) :
    (difference - multiple * step) / step = difference / step - multiple := by
  rw [Int.sub_ediv_of_dvd _ (Int.dvd_mul_left _ _), Int.mul_ediv_cancel _ positive.ne']

/-! ### Going by days -/

theorem fixedIntervalDates_of_occurrence {interval multiple : Int} (positive : 0 < interval)
    (occurs : occurrence.val = anchor.val.addDays (multiple * interval)) (start stop : NaiveDate) :
    PaySchedule.fixedIntervalDates ⟨frequency, occurrence⟩ interval start stop =
      PaySchedule.fixedIntervalDates ⟨frequency, anchor⟩ interval start stop := by
  have quotient : (start.val.dayNumber - occurrence.val.dayNumber) / interval =
      (start.val.dayNumber - anchor.val.dayNumber) / interval - multiple := by
    rw [occurs, Date.dayNumber_addDays, ← Int.sub_sub, sub_mul_ediv positive]
  have first (found : Int) : shiftDays occurrence ((found - multiple) * interval) =
      shiftDays anchor (found * interval) := by
    rw [shiftDays_eq, shiftDays_eq, occurs, Date.addDays_addDays, ← Int.add_mul,
      show multiple + (found - multiple) = found by omega]
  unfold PaySchedule.fixedIntervalDates
  simp only [quotient, first]

/-! ### Going by months -/

theorem addMonths_addMonths {date reached : Date} {first : Int}
    (shifted : reached = date.addMonths first) (kept : reached.day = date.day) (second : Int) :
    reached.addMonths second = date.addMonths (first + second) := by
  have months : reached.month = date.month + first := congrArg Date.month shifted
  refine Date.ext ?_ ?_
  · rw [Date.month_addMonths, Date.month_addMonths, months, Int.add_assoc]
  · rw [Date.day_addMonths, Date.day_addMonths, kept, months, Int.add_assoc]

theorem shiftMonths_eq_checked (date : NaiveDate) (months : Int) :
    shiftMonths date months = checked (date.val.addMonths months) := by
  by_cases inside : InRange (date.val.addMonths months)
  · rw [shiftMonths_eq inside, checked_eq inside]
  · have outside : checked (date.val.addMonths months) = none := dif_neg inside
    rw [outside]
    unfold shiftMonths checkedAddMonths checkedSubMonths
    split_ifs with few later
    · rw [show (months.natAbs : Int) = months by omega, outside]
    · rw [show (-(months.natAbs : Int)) = months by omega, outside]
    · rfl

theorem occurrence_of_occurrence (occurs : occurrence.val = anchor.val.addMonths (multiple * step))
    (unclamped : occurrence.val.day = anchor.val.day) (found : Int) :
    PaySchedule.occurrence ⟨frequency, occurrence⟩ step (found - multiple) =
      (PaySchedule.occurrence ⟨frequency, anchor⟩ step found).map fun reached =>
        (reached.1 - multiple, reached.2) := by
  unfold PaySchedule.occurrence
  rw [shiftMonths_eq_checked, shiftMonths_eq_checked, addMonths_addMonths occurs unclamped,
    ← Int.add_mul, show multiple + (found - multiple) = found by omega, Option.map_map]
  rfl

theorem monthlyStepDates_of_occurrence (positive : 0 < step)
    (occurs : occurrence.val = anchor.val.addMonths (multiple * step))
    (unclamped : occurrence.val.day = anchor.val.day) (start stop : NaiveDate) :
    PaySchedule.monthlyStepDates ⟨frequency, occurrence⟩ step start stop =
      PaySchedule.monthlyStepDates ⟨frequency, anchor⟩ step start stop := by
  let rename (reached : Int × NaiveDate) : Int × NaiveDate := (reached.1 - multiple, reached.2)
  have quotient : (start.val.month - occurrence.val.month) / step =
      (start.val.month - anchor.val.month) / step - multiple := by
    rw [occurs, Date.month_addMonths, ← Int.sub_sub, sub_mul_ediv positive]
  have steps (reached : Int × NaiveDate) :
      PaySchedule.occurrence ⟨frequency, occurrence⟩ step ((rename reached).1 + 1) =
        (PaySchedule.occurrence ⟨frequency, anchor⟩ step (reached.1 + 1)).map rename := by
    rw [show (rename reached).1 + 1 = reached.1 + 1 - multiple by
      show reached.1 - multiple + 1 = _
      omega]
    exact occurrence_of_occurrence occurs unclamped _
  unfold PaySchedule.monthlyStepDates
  simp only [months_between]
  rw [quotient, show (start.val.month - anchor.val.month) / step - multiple - 1 =
      (start.val.month - anchor.val.month) / step - 1 - multiple by omega,
    occurrence_of_occurrence occurs unclamped]
  cases PaySchedule.occurrence ⟨frequency, anchor⟩ step
      ((start.val.month - anchor.val.month) / step - 1) with
  | none => rfl
  | some reached =>
    exact @walk_map _ _ _ Prod.snd
      (fun reached => PaySchedule.occurrence ⟨frequency, anchor⟩ step (reached.1 + 1)) start stop _
      Prod.snd
      (fun reached => PaySchedule.occurrence ⟨frequency, occurrence⟩ step (reached.1 + 1)) rename
      (fun _ => rfl) steps (rounds reached.2 stop) reached

/-! ### What is listed occurs -/

theorem eq_of_checked {date : Date} {found : NaiveDate} (inside : checked date = some found) :
    found.val = date := by
  unfold checked at inside
  split_ifs at inside
  obtain rfl := Option.some.inj inside
  rfl

theorem mem_of_mem_dedup {date : NaiveDate} (kept : date ∈ PaySchedule.dedup dates) :
    date ∈ dates := by
  induction dates using PaySchedule.dedup.induct with
  | case1 => rwa [PaySchedule.dedup] at kept
  | case2 single => rwa [PaySchedule.dedup] at kept
  | case3 first rest inductionHypothesis =>
    rw [PaySchedule.dedup, if_pos rfl] at kept
    exact List.mem_cons_of_mem _ (inductionHypothesis kept)
  | case4 first second rest apart inductionHypothesis =>
    rw [PaySchedule.dedup, if_neg apart] at kept
    rcases List.mem_cons.mp kept with rfl | later
    · exact List.mem_cons_self
    · exact List.mem_cons_of_mem _ (inductionHypothesis later)

/-! ### Every expansion ascends -/

theorem fixedIntervalDates_ascends {schedule : PaySchedule} {interval : Nat}
    (positive : 0 < interval) (start stop : NaiveDate) :
    (schedule.fixedIntervalDates interval start stop).Pairwise (· < ·) := by
  unfold PaySchedule.fixedIntervalDates
  simp only
  split
  · exact .nil
  · refine walk_ascends (fun _ => True) (fun earlier later next _ => ⟨trivial, ?_⟩) trivial
    rw [shiftDays_eq] at next
    refine Subtype.coe_lt_coe.mp (Date.dayNumber_lt_iff.mp ?_)
    rw [id, id, eq_of_checked next, Date.dayNumber_addDays]
    omega

theorem monthlyStepDates_ascends {schedule : PaySchedule} {step : Nat} (positive : 0 < step)
    (start stop : NaiveDate) : (schedule.monthlyStepDates step start stop).Pairwise (· < ·) := by
  -- A date is the occurrence of the multiple it is held with.
  have held {multiple : Int} {reached : Int × NaiveDate}
      (occurs : schedule.occurrence step multiple = some reached) :
      reached.1 = multiple ∧ reached.2.val = schedule.anchor.val.addMonths (reached.1 * step) := by
    unfold PaySchedule.occurrence at occurs
    rw [shiftMonths_eq_checked, Option.map_eq_some_iff] at occurs
    obtain ⟨date, shifted, rfl⟩ := occurs
    exact ⟨rfl, eq_of_checked shifted⟩
  unfold PaySchedule.monthlyStepDates
  simp only
  split
  · exact .nil
  · next first occurs =>
    refine walk_ascends (fun reached : Int × NaiveDate =>
      reached.2.val = schedule.anchor.val.addMonths (reached.1 * step))
      (fun earlier later next here => ?_) (held occurs).2
    obtain ⟨following, there⟩ := held next
    refine ⟨there, Subtype.coe_lt_coe.mp ?_⟩
    rw [here, there, Date.addMonths_lt_iff, following]
    exact Int.mul_lt_mul_of_pos_right (by omega) (by omega)

theorem dedup_ascends (sorted : dates.Pairwise (· ≤ ·)) :
    (PaySchedule.dedup dates).Pairwise (· < ·) := by
  induction dates using PaySchedule.dedup.induct with
  | case1 =>
    rw [PaySchedule.dedup]
    exact .nil
  | case2 single =>
    rw [PaySchedule.dedup]
    exact List.pairwise_singleton _ _
  | case3 first rest inductionHypothesis =>
    rw [PaySchedule.dedup, if_pos rfl]
    exact inductionHypothesis (List.pairwise_cons.mp sorted).2
  | case4 first second rest apart inductionHypothesis =>
    obtain ⟨before, later⟩ := List.pairwise_cons.mp sorted
    rw [PaySchedule.dedup, if_neg apart]
    refine List.pairwise_cons.mpr ⟨fun date kept => ?_, inductionHypothesis later⟩
    have less := (before second List.mem_cons_self).lt_of_ne apart
    rcases List.mem_cons.mp (mem_of_mem_dedup kept) with rfl | behind
    · exact less
    · exact less.trans_le ((List.pairwise_cons.mp later).1 date behind)

theorem semimonthlyDates_ascends (start stop : NaiveDate) :
    (PaySchedule.semimonthlyDates start stop).Pairwise (· < ·) := by
  unfold PaySchedule.semimonthlyDates
  split
  · exact .nil
  · exact dedup_ascends (List.pairwise_insertionSort _ _)

theorem payDates_ascends (schedule : PaySchedule) (start stop : NaiveDate) :
    (schedule.payDates start stop).Pairwise (· < ·) := by
  obtain ⟨frequency, anchor⟩ := schedule
  unfold PaySchedule.payDates
  split_ifs
  · exact .nil
  · cases frequency with
    | weekly => exact fixedIntervalDates_ascends (by decide) start stop
    | biweekly => exact fixedIntervalDates_ascends (by decide) start stop
    | semiMonthly => exact semimonthlyDates_ascends start stop
    | monthly => exact monthlyStepDates_ascends (by decide) start stop
    | quarterly => exact monthlyStepDates_ascends (by decide) start stop
    | annual => exact monthlyStepDates_ascends (by decide) start stop
    | everyNDays count => exact fixedIntervalDates_ascends (by omega) start stop
    | everyNWeeks count =>
      exact @fixedIntervalDates_ascends _ (7 * max count 1) (by omega) start stop
    | everyNMonths count => exact monthlyStepDates_ascends (by omega) start stop

/-! ### All cadences -/

/-- Any occurrence of a schedule that no short month has clamped, before its anchor or after it, is
an anchor of the same schedule: the expansions over every horizon are equal. -/
theorem any_occurrence_is_an_equivalent_anchor {schedule : PaySchedule} {occurrence : NaiveDate}
    (occurs : schedule.Occurs occurrence) (unclamped : schedule.Unclamped occurrence)
    (start stop : NaiveDate) :
    PaySchedule.payDates ⟨schedule.frequency, occurrence⟩ start stop =
      schedule.payDates start stop := by
  obtain ⟨frequency, anchor⟩ := schedule
  unfold PaySchedule.payDates
  by_cases backwards : stop < start
  · rw [if_pos backwards, if_pos backwards]
  · rw [if_neg backwards, if_neg backwards]
    cases frequency with
    | semiMonthly => rfl
    | weekly =>
      obtain ⟨multiple, same⟩ := occurs
      exact fixedIntervalDates_of_occurrence (by decide) same start stop
    | biweekly =>
      obtain ⟨multiple, same⟩ := occurs
      exact fixedIntervalDates_of_occurrence (by decide) same start stop
    | everyNDays count =>
      obtain ⟨multiple, same⟩ := occurs
      exact fixedIntervalDates_of_occurrence (by omega) same start stop
    | everyNWeeks count =>
      obtain ⟨multiple, same⟩ := occurs
      exact fixedIntervalDates_of_occurrence (by omega) same start stop
    | monthly =>
      obtain ⟨multiple, same⟩ := occurs
      exact monthlyStepDates_of_occurrence (by decide) same unclamped start stop
    | quarterly =>
      obtain ⟨multiple, same⟩ := occurs
      exact monthlyStepDates_of_occurrence (by decide) same unclamped start stop
    | annual =>
      obtain ⟨multiple, same⟩ := occurs
      exact monthlyStepDates_of_occurrence (by decide) same unclamped start stop
    | everyNMonths count =>
      obtain ⟨multiple, same⟩ := occurs
      exact monthlyStepDates_of_occurrence (by omega) same unclamped start stop

/-- The last of January 2026, and the last of the October before, every three months. -/
theorem any_occurrence_is_an_equivalent_anchor_of_quarters :
    ∃ anchor occurrence : NaiveDate, occurrence < anchor ∧
      ∀ start stop, PaySchedule.payDates ⟨.quarterly, occurrence⟩ start stop =
        PaySchedule.payDates ⟨.quarterly, anchor⟩ start stop := by
  let anchor : NaiveDate := ⟨⟨12 * 2026, 31, by decide⟩, by decide⟩
  let occurrence : NaiveDate := ⟨⟨12 * 2025 + 9, 31, by decide⟩, by decide⟩
  have before : occurrence < anchor := Subtype.coe_lt_coe.mp (Date.lt_iff.mpr (.inl (by decide)))
  exact ⟨anchor, occurrence, before, @any_occurrence_is_an_equivalent_anchor ⟨.quarterly, anchor⟩
    occurrence ⟨-1, by decide⟩ rfl⟩

end Dohflow.PayDates
