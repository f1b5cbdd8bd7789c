/-
This file compares the billing cycles of a card that are derived on two days, and says
exactly when a statement keeps its due date.

Where the due day comes after the close day, the due month of a close is its own, but a close
on the last day of a short month is due in the next. From such a close on, a run pays every
statement in the month after its close; a run that begins later pays it in the month of its
close, up to the next short month. Also, a run never leads with the close of a short month
that is over. So dues are kept and no statement is skipped just if no month that is no longer
than the close day ends on or after the one day and before the other.
-/

import Dohflow.DbWorker.CardCycleLattice

namespace Dohflow.DbWorker

open Calendar

/-! ### Due months -/

variable {closeDay dueDay : Nat}

theorem dueMonth_eq (closeValid : 1 ≤ closeDay) (month : Int) :
    dueMonth closeDay dueDay month =
      if closeDay < dueDay ∧ closeDay < daysInMonth month then month else month + 1 :=
  monthAfter_onDay_of closeValid month

theorem daysInMonth_succ_of_short {month : Int} (short : daysInMonth month ≤ 30) :
    daysInMonth (month + 1) = 31 := by
  have place : month % 12 = 1 ∨ month % 12 = 3 ∨ month % 12 = 5 ∨ month % 12 = 8 ∨
      month % 12 = 10 := by
    by_contra none
    unfold daysInMonth at short
    rw [if_neg (by omega), if_neg (by omega)] at short
    omega
  unfold daysInMonth
  rw [if_neg (by omega), if_neg (by omega)]

/-- A month in which the close is on the last day, and a later due day never comes. -/
def ClosesShort (closeDay : Nat) (month : Int) : Prop := daysInMonth month ≤ closeDay

theorem dueMonth_of_short (closeValid : 1 ≤ closeDay) {month : Int}
    (short : ClosesShort closeDay month) : dueMonth closeDay dueDay month = month + 1 := by
  rw [dueMonth_eq closeValid]
  exact if_neg fun both => absurd both.2 (not_lt.mpr short)

theorem dueMonth_of_not_short (closeValid : 1 ≤ closeDay) (behind : closeDay < dueDay) {month : Int}
    (long : ¬ ClosesShort closeDay month) : dueMonth closeDay dueDay month = month := by
  rw [dueMonth_eq closeValid]
  exact if_pos ⟨behind, not_le.mp long⟩

theorem dueMonth_of_le (closeValid : 1 ≤ closeDay) (ahead : dueDay ≤ closeDay) (month : Int) :
    dueMonth closeDay dueDay month = month + 1 := by
  rw [dueMonth_eq closeValid]
  exact if_neg fun both => absurd both.1 (not_lt.mpr ahead)

theorem not_dueMonth_lt_of_short (closeValid : 1 ≤ closeDay) (behind : closeDay < dueDay)
    (dueValid : dueDay ≤ 31) {month : Int} (short : ClosesShort closeDay month) :
    ¬ dueMonth closeDay dueDay month < dueMonth closeDay dueDay (month + 1) := by
  have long : ¬ ClosesShort closeDay (month + 1) := by
    unfold ClosesShort at short ⊢
    rw [daysInMonth_succ_of_short (by omega)]
    omega
  rw [dueMonth_of_short closeValid short, dueMonth_of_not_short closeValid behind long]
  exact lt_irrefl _

theorem paidMonth_eq (first : Int) (index : Nat) :
    (paidMonth closeDay dueDay first index = first + index + 1 ∧
        ∃ earlier ≤ index, dueMonth closeDay dueDay (first + earlier) = first + earlier + 1) ∨
      paidMonth closeDay dueDay first index = first + index ∧
        ∀ earlier ≤ index, dueMonth closeDay dueDay (first + earlier) = first + earlier := by
  induction index with
  | zero =>
    have bounds := @dueMonth_bounds closeDay dueDay first
    rw [paidMonth, Nat.cast_zero, Int.add_zero]
    by_cases later : dueMonth closeDay dueDay first = first + 1
    · refine .inl ⟨later, 0, le_rfl, ?_⟩
      rwa [Nat.cast_zero, Int.add_zero]
    · refine .inr ⟨by omega, fun earlier atMost => ?_⟩
      obtain rfl := Nat.le_zero.mp atMost
      rw [Nat.cast_zero, Int.add_zero]
      omega
  | succ index inductionHypothesis =>
    have bounds := @dueMonth_bounds closeDay dueDay (first + index + 1)
    rw [paidMonth, Nat.cast_succ]
    rcases inductionHypothesis with ⟨paid, earlier, atMost, shifted⟩ | ⟨paid, own⟩
    · exact .inl ⟨by omega, earlier, by omega, shifted⟩
    · by_cases later : dueMonth closeDay dueDay (first + index + 1) = first + index + 1 + 1
      · refine .inl ⟨by omega, index + 1, le_rfl, ?_⟩
        rw [Nat.cast_succ, ← Int.add_assoc]
        exact later
      · refine .inr ⟨by omega, fun earlier atMost => ?_⟩
        rcases Nat.lt_or_eq_of_le atMost with less | rfl
        · exact own earlier (by omega)
        · rw [Nat.cast_succ, ← Int.add_assoc]
          omega

theorem paidMonth_of_shifted {first month : Int} {index : Nat} (atLeast : first ≤ month)
    (atMost : month ≤ first + index) (shifted : dueMonth closeDay dueDay month = month + 1) :
    paidMonth closeDay dueDay first index = first + index + 1 := by
  rcases @paidMonth_eq closeDay dueDay first index with ⟨paid, -⟩ | ⟨-, own⟩
  · exact paid
  · have same := own (month - first).toNat (by omega)
    rw [show first + ((month - first).toNat : Int) = month by omega] at same
    omega

theorem paidMonth_of_own {first : Int} {index : Nat}
    (own : ∀ month, first ≤ month → month ≤ first + index → dueMonth closeDay dueDay month = month) :
    paidMonth closeDay dueDay first index = first + index := by
  rcases @paidMonth_eq closeDay dueDay first index with ⟨-, earlier, atMost, shifted⟩ | ⟨paid, -⟩
  · have same := own (first + earlier) (by omega) (by omega)
    omega
  · exact paid

/-! ### Which statement leads -/

section

variable (closeValid : 1 ≤ closeDay) (behind : closeDay < dueDay) (dueValid : dueDay ≤ 31)
include closeValid behind dueValid

theorem leadingMonth_le_iff {today : Date} {month : Int} (short : ClosesShort closeDay month) :
    leadingMonth today closeDay dueDay ≤ month ↔ today ≤ onDay closeDay month := by
  rw [le_onDay_iff]
  have leads := @leadingMonth_bounds closeDay dueDay today
  constructor
  · intro led
    by_contra passed
    have here : month = monthOnOrAfter closeDay today - 1 := by omega
    have guarded := not_dueMonth_lt_of_short closeValid behind dueValid short
    rw [here, Int.sub_add_cancel] at guarded
    have stays : leadingMonth today closeDay dueDay = monthOnOrAfter closeDay today :=
      if_neg fun both => guarded both.2
    omega
  · intro led
    omega

end

theorem leadingMonth_mono {today later : Date} (ordered : today ≤ later) :
    leadingMonth today closeDay dueDay ≤ leadingMonth later closeDay dueDay := by
  have leads := @leadingMonth_bounds closeDay dueDay today
  have laterLeads := @leadingMonth_bounds closeDay dueDay later
  have current : monthOnOrAfter closeDay today ≤ monthOnOrAfter closeDay later :=
    le_onDay_iff.mp (ordered.trans (le_onDay_iff.mpr le_rfl))
  rcases current.lt_or_eq with less | same
  · omega
  · unfold leadingMonth
    dsimp only
    rw [same]
    split_ifs with stepped laterStepped laterStepped
    · exact le_rfl
    · omega
    · exact absurd ⟨ordered.trans laterStepped.1, laterStepped.2⟩ stepped
    · exact le_rfl

/-! ### Two runs -/

/-- The closes that two runs share have the same due dates in both, and a statement of the first run
that is due on or after the later day is in every run of that day which reaches its close. -/
structure KeepsDues (today later : PayDates.NaiveDate) (closeDay dueDay : Nat) : Prop where
  sameDue : ∀ count laterCount cycles laterCycles, CyclesInRange today count →
    CyclesInRange later laterCount → deriveCardCycles today closeDay dueDay count = some cycles →
    deriveCardCycles later closeDay dueDay laterCount = some laterCycles →
    ∀ cycle ∈ cycles, ∀ other ∈ laterCycles, cycle.close = other.close → cycle.due = other.due
  noneSkipped : ∀ count laterCount cycles laterCycles, CyclesInRange today count →
    CyclesInRange later laterCount → deriveCardCycles today closeDay dueDay count = some cycles →
    deriveCardCycles later closeDay dueDay laterCount = some laterCycles →
    ∀ cycle ∈ cycles, later ≤ cycle.due → (∃ last ∈ laterCycles, cycle.close ≤ last.close) →
      ∃ other ∈ laterCycles, other.close = cycle.close

/-- The due day does not come after the close day, or no month that is no longer than the close day
ends on or after the one day and before the other. -/
def NoShortMonthEnds (today later : Date) (closeDay dueDay : Nat) : Prop :=
  dueDay ≤ closeDay ∨
    ∀ month, daysInMonth month ≤ closeDay → today ≤ Date.lastOf month → later ≤ Date.lastOf month

theorem onDay_of_short {month : Int} (short : ClosesShort closeDay month) :
    onDay closeDay month = Date.lastOf month := by
  have long := le_daysInMonth month
  refine Date.ext rfl ?_
  show max 1 (min closeDay (daysInMonth month)) = daysInMonth month
  unfold ClosesShort at short
  omega

theorem onDay_le_onDay {day other : Nat} (ordered : day ≤ other) (month : Int) :
    onDay day month ≤ onDay other month := by
  refine Date.le_iff.mpr (.inr ⟨rfl, ?_⟩)
  show max 1 (min day (daysInMonth month)) ≤ max 1 (min other (daysInMonth month))
  omega

theorem exists_place {today : PayDates.NaiveDate} {count : Nat} {cycles : List CardCycle}
    (inside : CyclesInRange today count)
    (made : deriveCardCycles today closeDay dueDay count = some cycles) {cycle : CardCycle}
    (member : cycle ∈ cycles) :
    ∃ index, index < count ∧
      cycle.close.val = onDay closeDay (leadingMonth today.val closeDay dueDay + index) ∧
      cycle.due.val = onDay dueDay
        (paidMonth closeDay dueDay (leadingMonth today.val closeDay dueDay) index) := by
  obtain ⟨found, foundMade, dated⟩ := @exists_deriveCardCycles closeDay dueDay today count inside
  obtain rfl := Option.some.inj (made.symm.trans foundMade)
  have shown := List.mem_map_of_mem (f := CardCycle.dates) member
  rw [dated] at shown
  obtain ⟨index, within, same⟩ := List.mem_map.mp shown
  exact ⟨index, List.mem_range.mp within, congrArg (fun dates => dates.2.1) same.symm,
    congrArg (fun dates => dates.2.2) same.symm⟩

theorem exists_cycle {today : PayDates.NaiveDate} {count index : Nat}
    (inside : CyclesInRange today count) (within : index < count) :
    ∃ cycles, deriveCardCycles today closeDay dueDay count = some cycles ∧ ∃ cycle ∈ cycles,
      cycle.close.val = onDay closeDay (leadingMonth today.val closeDay dueDay + index) ∧
      cycle.due.val = onDay dueDay
        (paidMonth closeDay dueDay (leadingMonth today.val closeDay dueDay) index) := by
  obtain ⟨cycles, made, dated⟩ := @exists_deriveCardCycles closeDay dueDay today count inside
  have shown := List.mem_map_of_mem
    (f := cycleDates closeDay dueDay (leadingMonth today.val closeDay dueDay))
    (List.mem_range.mpr within)
  rw [← dated] at shown
  obtain ⟨cycle, member, same⟩ := List.mem_map.mp shown
  exact ⟨cycles, made, cycle, member, congrArg (fun dates => dates.2.1) same,
    congrArg (fun dates => dates.2.2) same⟩

section

variable (closeValid : 1 ≤ closeDay) (dueValid : dueDay ≤ 31) {today later : PayDates.NaiveDate}
  (ordered : today ≤ later)
include closeValid dueValid ordered

omit ordered in
theorem own_of_noShortMonthEnds (behind : closeDay < dueDay)
    (clear : NoShortMonthEnds today.val later.val closeDay dueDay) {month : Int}
    (atLeast : leadingMonth today.val closeDay dueDay ≤ month)
    (before : month < leadingMonth later.val closeDay dueDay) :
    ¬ ClosesShort closeDay month := by
  intro short
  have ends := (clear.resolve_left (not_le.mpr behind)) month short
  rw [← onDay_of_short short,
    ← leadingMonth_le_iff closeValid behind dueValid short,
    ← leadingMonth_le_iff closeValid behind dueValid short] at ends
  exact absurd (ends atLeast) (not_le.mpr before)

theorem paidMonth_agrees (clear : NoShortMonthEnds today.val later.val closeDay dueDay)
    {index other : Nat} (same : leadingMonth today.val closeDay dueDay + index =
      leadingMonth later.val closeDay dueDay + other) :
    paidMonth closeDay dueDay (leadingMonth today.val closeDay dueDay) index =
      paidMonth closeDay dueDay (leadingMonth later.val closeDay dueDay) other := by
  have leads := @leadingMonth_mono closeDay dueDay _ _ (val_le_val.mp ordered)
  rcases @paidMonth_eq closeDay dueDay (leadingMonth later.val closeDay dueDay) other with
    ⟨paid, earlier, atMost, shifted⟩ | ⟨paid, own⟩
  · rw [paid, paidMonth_of_shifted (by omega) (by omega) shifted, same]
  · rw [paid, ← same]
    refine paidMonth_of_own fun month atLeast atMost => ?_
    by_cases before : month < leadingMonth later.val closeDay dueDay
    · rcases le_or_gt dueDay closeDay with ahead | behind
      · -- Every statement would be due after the month of its close.
        have first := own 0 (Nat.zero_le _)
        rw [dueMonth_of_le closeValid ahead] at first
        omega
      · exact dueMonth_of_not_short closeValid behind
          (own_of_noShortMonthEnds closeValid dueValid behind clear atLeast before)
    · have here := own (month - leadingMonth later.val closeDay dueDay).toNat (by omega)
      rwa [show leadingMonth later.val closeDay dueDay +
        ((month - leadingMonth later.val closeDay dueDay).toNat : Int) = month by omega] at here

omit ordered in
/-- A statement that the later run does not have is due before it. -/
theorem due_lt_later (clear : NoShortMonthEnds today.val later.val closeDay dueDay) {index : Nat}
    (skipped : leadingMonth today.val closeDay dueDay + index <
      leadingMonth later.val closeDay dueDay) :
    onDay dueDay (paidMonth closeDay dueDay (leadingMonth today.val closeDay dueDay) index) <
      later.val := by
  have bounds := @leadingMonth_bounds closeDay dueDay later.val
  have closed : onDay closeDay (monthOnOrAfter closeDay later.val - 1) < later.val :=
    onDay_lt_iff.mpr (by omega)
  have ownMonths (behind : closeDay < dueDay) (month : Int)
      (atLeast : leadingMonth today.val closeDay dueDay ≤ month)
      (atMost : month ≤ leadingMonth today.val closeDay dueDay + index) :
      dueMonth closeDay dueDay month = month :=
    dueMonth_of_not_short closeValid behind (own_of_noShortMonthEnds closeValid dueValid
      behind clear atLeast (by omega))
  have own (behind : closeDay < dueDay) := ownMonths behind _ (by omega) le_rfl
  have month_eq : paidMonth closeDay dueDay (leadingMonth today.val closeDay dueDay) index =
      dueMonth closeDay dueDay (leadingMonth today.val closeDay dueDay + index) := by
    rcases le_or_gt dueDay closeDay with ahead | behind
    · rw [dueMonth_of_le closeValid ahead]
      exact paidMonth_of_shifted le_rfl (by omega) (dueMonth_of_le closeValid ahead _)
    · rw [paidMonth_of_own (ownMonths behind), own behind]
  rw [month_eq]
  generalize leadingMonth today.val closeDay dueDay + index = month at own skipped ⊢
  by_cases last : month = monthOnOrAfter closeDay later.val - 1
  · -- The later run does not step back to this statement, though it is due before the current one.
    have stays : leadingMonth later.val closeDay dueDay = monthOnOrAfter closeDay later.val := by
      omega
    have before : dueMonth closeDay dueDay (monthOnOrAfter closeDay later.val - 1) <
        dueMonth closeDay dueDay (monthOnOrAfter closeDay later.val) := by
      have current := @dueMonth_bounds closeDay dueDay (monthOnOrAfter closeDay later.val)
      rcases le_or_gt dueDay closeDay with ahead | behind
      · rw [dueMonth_of_le closeValid ahead, dueMonth_of_le closeValid ahead]
        omega
      · rw [← last, own behind]
        omega
    by_contra unpaid
    rw [last, not_lt] at unpaid
    have stepped : leadingMonth later.val closeDay dueDay =
        monthOnOrAfter closeDay later.val - 1 := if_pos ⟨unpaid, before⟩
    omega
  · rcases le_or_gt dueDay closeDay with ahead | behind
    · rw [dueMonth_of_le closeValid ahead]
      calc onDay dueDay (month + 1)
        _ ≤ onDay dueDay (monthOnOrAfter closeDay later.val - 1) :=
          (onDay_strictMono dueDay).monotone (by omega)
        _ ≤ onDay closeDay (monthOnOrAfter closeDay later.val - 1) := onDay_le_onDay ahead _
        _ < later.val := closed
    · rw [own behind]
      exact (onDay_lt_onDay (by omega)).trans closed

theorem keepsDues_of_noShortMonthEnds
    (clear : NoShortMonthEnds today.val later.val closeDay dueDay) :
    KeepsDues today later closeDay dueDay := by
  constructor
  · intro count laterCount cycles laterCycles inside laterInside made laterMade cycle member other
      otherMember sameClose
    obtain ⟨index, -, closes, due⟩ := exists_place inside made member
    obtain ⟨place, -, otherCloses, otherDue⟩ := exists_place laterInside laterMade otherMember
    have sameMonth := onDay_injective closeDay
      (closes.symm.trans ((congrArg Subtype.val sameClose).trans otherCloses))
    refine Subtype.ext ?_
    rw [due, otherDue, paidMonth_agrees closeValid dueValid ordered clear sameMonth]
  · intro count laterCount cycles laterCycles inside laterInside made laterMade cycle member unpaid
      reached
    obtain ⟨index, -, closes, due⟩ := exists_place inside made member
    obtain ⟨last, lastMember, atMost⟩ := reached
    obtain ⟨final, within, lastCloses, -⟩ := exists_place laterInside laterMade lastMember
    have led : leadingMonth later.val closeDay dueDay ≤
        leadingMonth today.val closeDay dueDay + index := by
      by_contra skipped
      rw [val_le_val, due] at unpaid
      exact absurd (due_lt_later closeValid dueValid clear (not_le.mp skipped))
        (not_lt.mpr unpaid)
    rw [val_le_val, closes, lastCloses, (onDay_strictMono closeDay).le_iff_le] at atMost
    -- The later run has the close of every month from its first to its last.
    obtain ⟨found, foundMade, other, otherMember, otherCloses, -⟩ := @exists_cycle closeDay dueDay
      later laterCount (leadingMonth today.val closeDay dueDay + index -
        leadingMonth later.val closeDay dueDay).toNat laterInside (by omega)
    obtain rfl := Option.some.inj (laterMade.symm.trans foundMade)
    refine ⟨other, otherMember, Subtype.ext ?_⟩
    rw [otherCloses, closes]
    congr 1
    omega

variable (earliest : MonthInRange (today.val.month - 2))
  (latest : MonthInRange (later.val.month + 6))
include earliest latest

omit dueValid in
theorem exists_paid_late {short month : Int} (isShort : ClosesShort closeDay short)
    (atLeast : leadingMonth today.val closeDay dueDay ≤ short) (atMost : short ≤ month)
    (near : month ≤ later.val.month + 1) :
    ∃ count cycles, CyclesInRange today count ∧
      deriveCardCycles today closeDay dueDay count = some cycles ∧ ∃ cycle ∈ cycles,
        cycle.close.val = onDay closeDay month ∧ cycle.due.val = onDay dueDay (month + 1) := by
  have leads := @leadingMonth_bounds closeDay dueDay today.val
  have bounds := monthOnOrAfter_bounds closeDay today.val
  have months := month_le_month (val_le_val.mp ordered)
  have inside : CyclesInRange today
      ((month - leadingMonth today.val closeDay dueDay).toNat + 1) :=
    ⟨earliest, monthInRange_between earliest latest (by omega) (by omega)⟩
  obtain ⟨cycles, made, cycle, member, closes, due⟩ := exists_cycle inside (Nat.lt_succ_self _)
  rw [paidMonth_of_shifted atLeast (by omega) (dueMonth_of_short closeValid isShort)] at due
  rw [show leadingMonth today.val closeDay dueDay +
    ((month - leadingMonth today.val closeDay dueDay).toNat : Int) = month by omega] at closes due
  exact ⟨_, cycles, inside, made, cycle, member, closes, due⟩

/-- Where a short month ends between the days, a statement is dated otherwise or skipped. -/
theorem noShortMonthEnds_of_keepsDues (keeps : KeepsDues today later closeDay dueDay) :
    NoShortMonthEnds today.val later.val closeDay dueDay := by
  by_contra ends
  unfold NoShortMonthEnds at ends
  push Not at ends
  obtain ⟨behind, short, isShort, atLeast, before⟩ := ends
  rw [← onDay_of_short isShort] at atLeast before
  rw [← leadingMonth_le_iff closeValid behind dueValid isShort] at atLeast
  rw [← not_le, ← leadingMonth_le_iff closeValid behind dueValid isShort, not_le] at before
  have leads := @leadingMonth_bounds closeDay dueDay later.val
  have bounds := monthOnOrAfter_bounds closeDay later.val
  have months := month_le_month (val_le_val.mp ordered)
  have laterInside : CyclesInRange later 1 :=
    ⟨monthInRange_between earliest latest (by omega) (by omega),
      monthInRange_between earliest latest (by omega) (by omega)⟩
  obtain ⟨laterCycles, laterMade, dated⟩ :=
    @exists_deriveCardCycles closeDay dueDay later 1 laterInside
  obtain ⟨other, rfl⟩ : ∃ other, laterCycles = [other] := by
    refine List.length_eq_one_iff.mp ?_
    rw [← List.length_map (f := CardCycle.dates), dated, List.length_map, List.length_range]
  obtain ⟨place, within, otherCloses, otherDue⟩ :=
    exists_place laterInside laterMade (List.mem_singleton_self other)
  obtain rfl := Nat.lt_one_iff.mp within
  rw [Nat.cast_zero, Int.add_zero] at otherCloses
  rw [paidMonth] at otherDue
  by_cases stepped : leadingMonth later.val closeDay dueDay =
      monthOnOrAfter closeDay later.val - 1
  · -- Both runs have the statement that leads the later one, with dues a month apart.
    obtain ⟨count, cycles, inside, made, cycle, member, closes, due⟩ :=
      exists_paid_late closeValid ordered earliest latest isShort atLeast before.le (by omega)
    have same := keeps.sameDue count 1 cycles [other] inside laterInside made laterMade cycle member
      other (List.mem_singleton_self other) (Subtype.ext (closes.trans otherCloses.symm))
    have dues := onDay_injective dueDay
      (due.symm.trans ((congrArg Subtype.val same).trans otherDue))
    have shortLead : ClosesShort closeDay (leadingMonth later.val closeDay dueDay) := by
      by_contra long
      rw [dueMonth_of_not_short closeValid behind long] at dues
      omega
    have guarded := not_dueMonth_lt_of_short closeValid behind dueValid shortLead
    have stays : leadingMonth later.val closeDay dueDay = monthOnOrAfter closeDay later.val := by
      refine if_neg fun both => guarded ?_
      rw [stepped, Int.sub_add_cancel]
      exact both.2
    omega
  · -- The statement before is due on or after the later day, and the later run goes past it.
    have current : leadingMonth later.val closeDay dueDay = monthOnOrAfter closeDay later.val := by
      omega
    obtain ⟨count, cycles, inside, made, cycle, member, closes, due⟩ :=
      exists_paid_late closeValid ordered earliest latest isShort atLeast
        (by omega : short ≤ monthOnOrAfter closeDay later.val - 1) (by omega)
    have unpaid : later ≤ cycle.due := by
      rw [val_le_val, due, Int.sub_add_cancel]
      exact (le_onDay_iff.mpr le_rfl).trans (onDay_le_onDay behind.le _)
    have reached : cycle.close ≤ other.close := by
      rw [val_le_val, closes, otherCloses, (onDay_strictMono closeDay).le_iff_le]
      omega
    obtain ⟨found, foundMember, sameClose⟩ := keeps.noneSkipped count 1 cycles [other] inside
      laterInside made laterMade cycle member unpaid ⟨other, List.mem_singleton_self other, reached⟩
    obtain rfl := List.mem_singleton.mp foundMember
    have months := onDay_injective closeDay
      (otherCloses.symm.trans ((congrArg Subtype.val sameClose).trans closes))
    omega

end

/-- The dues of a card's statements are kept from a day to a later one, and no statement is skipped,
just if the due day does not come after the close day or no month that is no longer than the close
day ends on or after the one day and before the other. -/
theorem statement_dues_iff (closeValid : 1 ≤ closeDay) (dueValid : dueDay ≤ 31)
    {today later : PayDates.NaiveDate} (ordered : today ≤ later)
    (earliest : MonthInRange (today.val.month - 2)) (latest : MonthInRange (later.val.month + 6)) :
    KeepsDues today later closeDay dueDay ↔
      NoShortMonthEnds today.val later.val closeDay dueDay :=
  ⟨noShortMonthEnds_of_keepsDues closeValid dueValid ordered earliest latest,
    keepsDues_of_noShortMonthEnds closeValid dueValid ordered⟩

/-- A card that closes on the 28th and falls due on the 15th, in a run of February and in one of
March. -/
theorem statement_dues_iff_in_spring :
    KeepsDues (dateIn2026 2 1 (by decide) (by decide)) (dateIn2026 3 15 (by decide) (by decide))
        28 15 ↔
      NoShortMonthEnds (dateIn2026 2 1 (by decide) (by decide)).val
        (dateIn2026 3 15 (by decide) (by decide)).val 28 15 :=
  statement_dues_iff (by decide) (by decide) (by decide) (by decide) (by decide)

/-- A card closes on the 30th and falls due on the 31st. In a run of February 1 the statement of
February is due on March 31 and that of March on April 30. In a run of March 15 the statement of
March is due on March 31, and that of February is not there. -/
theorem march_statement_redated :
    ¬ KeepsDues (dateIn2026 2 1 (by decide) (by decide)) (dateIn2026 3 15 (by decide) (by decide))
      30 31 := by
  intro keeps
  have made : deriveCardCycles (dateIn2026 2 1 (by decide) (by decide)) 30 31 2 =
      some [⟨dateIn2026 1 30 (by decide) (by decide), dateIn2026 2 28 (by decide) (by decide),
          dateIn2026 3 31 (by decide) (by decide)⟩,
        ⟨dateIn2026 2 28 (by decide) (by decide), dateIn2026 3 30 (by decide) (by decide),
          dateIn2026 4 30 (by decide) (by decide)⟩] := by decide +kernel
  have laterMade : deriveCardCycles (dateIn2026 3 15 (by decide) (by decide)) 30 31 1 =
      some [⟨dateIn2026 2 28 (by decide) (by decide), dateIn2026 3 30 (by decide) (by decide),
          dateIn2026 3 31 (by decide) (by decide)⟩] := by decide +kernel
  have same := keeps.sameDue 2 1 _ _ ⟨by decide, by decide⟩ ⟨by decide, by decide⟩ made laterMade _
    (List.mem_cons_of_mem _ (List.mem_singleton_self _)) _ (List.mem_singleton_self _) rfl
  exact absurd same (by decide)

end Dohflow.DbWorker
