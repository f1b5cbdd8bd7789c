/-
This file is about the windows of a walk over dates that end.

The library's dates have a first and a last one, and moving a date past them fails. A walk starts
a few days before the watermark, or a year before today, and ends before tomorrow. Where such a
date is missing, the code takes the watermark or today in its place. So the windows lie between the
first day of the walk and its end, none is longer than 45 days, and together they leave out no
moment between (`exists_mem_chunkWindows`). They cover all that they should unless today is the
last date or the first day of the walk was moved (`covers_chunkWindows_iff`).
-/

import Dohflow.Connectors.DateWalk

namespace Dohflow.Connectors

/-! ### Dates -/

/-- The first and the last date, in days since the epoch. -/
structure DateLimits where
  first : Int
  last : Int

/-- A date of the library. -/
def ChronoDate (limits : DateLimits) : Type :=
  { day : Int // limits.first ≤ day ∧ day ≤ limits.last }

variable {limits : DateLimits}

namespace ChronoDate

instance decidableEq : DecidableEq (ChronoDate limits) :=
  inferInstanceAs (DecidableEq { day : Int // limits.first ≤ day ∧ day ≤ limits.last })

def day (date : ChronoDate limits) : Int := date.val

/-- `checked_add_days`, and `checked_sub_days` where the days are negative. -/
def checkedAddDays (date : ChronoDate limits) (days : Int) : Option (ChronoDate limits) :=
  if inside : limits.first ≤ date.day + days ∧ date.day + days ≤ limits.last then
    some ⟨date.day + days, inside⟩
  else none

/-- `min` -/
def earlier (date other : ChronoDate limits) : ChronoDate limits :=
  if date.day ≤ other.day then date else other

theorem day_earlier (date other : ChronoDate limits) :
    (date.earlier other).day = min date.day other.day := by
  unfold earlier
  split_ifs with before
  · exact (min_eq_left before).symm
  · exact (min_eq_right (by omega)).symm

theorem day_checkedAddDays_getD (date other : ChronoDate limits) (days : Int) :
    ((date.checkedAddDays days).getD other).day =
      if limits.first ≤ date.day + days ∧ date.day + days ≤ limits.last then date.day + days
      else other.day := by
  unfold checkedAddDays
  split_ifs with inside
  · rfl
  · rfl

theorem first_le (date : ChronoDate limits) : limits.first ≤ date.day := date.property.1

theorem le_last (date : ChronoDate limits) : date.day ≤ limits.last := date.property.2

end ChronoDate

variable {walkEnd cursor : ChronoDate limits}

/-! ### The windows -/

/-- The loop over the windows. -/
def chunkLoop (walkEnd cursor : ChronoDate limits) : List (Int × Int) :=
  let chunkEnd := ((cursor.checkedAddDays chunkDays).getD walkEnd).earlier walkEnd
  (epochAtMidnight cursor.day, epochAtMidnight chunkEnd.day) ::
    if walkEnd.day ≤ chunkEnd.day then []
    else chunkLoop walkEnd ((cursor.checkedAddDays chunkStepDays).getD walkEnd)
termination_by (walkEnd.day - cursor.day).toNat
decreasing_by
  next goesOn =>
  rw [ChronoDate.day_earlier, ChronoDate.day_checkedAddDays_getD] at goesOn
  rw [ChronoDate.day_checkedAddDays_getD]
  unfold chunkDays at goesOn
  unfold chunkStepDays
  split_ifs at goesOn ⊢ <;> omega

/-- The first day of a walk. -/
def firstDay (since : Option (ChronoDate limits)) (today : ChronoDate limits) :
    ChronoDate limits :=
  match since with
  | some date => (date.checkedAddDays (-sinceRewindDays)).getD date
  | none => (today.checkedAddDays (-fullHistoryLookbackDays)).getD today

/-- The day that a walk ends before. -/
def endDay (today : ChronoDate limits) : ChronoDate limits := (today.checkedAddDays 1).getD today

/-- `chunk_ranges` -/
def chunkWindows (since : Option (ChronoDate limits)) (today : ChronoDate limits) :
    List (Int × Int) :=
  chunkLoop (endDay today) ((firstDay since today).earlier (endDay today))

theorem day_chunkEnd (before : cursor.day ≤ walkEnd.day) :
    let chunkEnd := ((cursor.checkedAddDays chunkDays).getD walkEnd).earlier walkEnd
    cursor.day ≤ chunkEnd.day ∧ chunkEnd.day ≤ walkEnd.day ∧
      chunkEnd.day - cursor.day ≤ chunkDays ∧ (¬ walkEnd.day ≤ chunkEnd.day →
        cursor.day ≤ ((cursor.checkedAddDays chunkStepDays).getD walkEnd).day ∧
        ((cursor.checkedAddDays chunkStepDays).getD walkEnd).day ≤ chunkEnd.day) := by
  intro chunkEnd
  have low := cursor.first_le
  have high := walkEnd.le_last
  have chunk : chunkEnd.day = _ := ChronoDate.day_earlier _ _
  rw [ChronoDate.day_checkedAddDays_getD] at chunk
  rw [ChronoDate.day_checkedAddDays_getD, chunk]
  unfold chunkDays chunkStepDays
  split_ifs <;> omega

theorem head_chunkLoop (walkEnd cursor : ChronoDate limits) :
    ∃ stop rest, chunkLoop walkEnd cursor = (epochAtMidnight cursor.day, stop) :: rest := by
  rw [chunkLoop]
  exact ⟨_, _, rfl⟩

theorem mem_chunkLoop (before : cursor.day ≤ walkEnd.day) {window : Int × Int}
    (member : window ∈ chunkLoop walkEnd cursor) :
    epochAtMidnight cursor.day ≤ window.1 ∧ window.1 ≤ window.2 ∧
      window.2 ≤ epochAtMidnight walkEnd.day ∧ window.2 - window.1 ≤ chunkDays * 86400 := by
  induction cursor using chunkLoop.induct walkEnd with
  | case1 cursor chunkEnd inductionHypothesis =>
    obtain ⟨starts, ends, short, next⟩ := day_chunkEnd before
    rw [chunkLoop] at member
    rcases List.mem_cons.mp member with rfl | later
    · simp only [epochAtMidnight]
      omega
    · split_ifs at later with reached
      · cases later
      · obtain ⟨after, within⟩ := next reached
        have inside := inductionHypothesis reached (le_trans within ends) later
        simp only [epochAtMidnight] at inside ⊢
        omega

theorem exists_mem_chunkLoop {seconds : Int} (before : cursor.day ≤ walkEnd.day)
    (reached : epochAtMidnight cursor.day ≤ seconds)
    (within : seconds < epochAtMidnight walkEnd.day) :
    ∃ window ∈ chunkLoop walkEnd cursor, window.1 ≤ seconds ∧ seconds < window.2 := by
  induction cursor using chunkLoop.induct walkEnd with
  | case1 cursor chunkEnd inductionHypothesis =>
    obtain ⟨starts, ends, short, next⟩ := day_chunkEnd before
    rw [chunkLoop]
    by_cases inside : seconds < epochAtMidnight chunkEnd.day
    · exact ⟨_, List.mem_cons_self, reached, inside⟩
    · have goesOn : ¬ walkEnd.day ≤ chunkEnd.day := by
        simp only [epochAtMidnight] at inside within
        omega
      have overlaps : ((cursor.checkedAddDays chunkStepDays).getD walkEnd).day ≤ chunkEnd.day :=
        (next goesOn).2
      have reachedNext : epochAtMidnight ((cursor.checkedAddDays chunkStepDays).getD
          walkEnd).day ≤ seconds := by
        simp only [epochAtMidnight] at inside ⊢
        omega
      obtain ⟨window, member, covers⟩ :=
        inductionHypothesis goesOn (le_trans overlaps ends) reachedNext
      rw [if_neg goesOn]
      exact ⟨window, List.mem_cons_of_mem _ member, covers⟩

/-! ### What the windows cover -/

variable {since : Option (ChronoDate limits)} {today : ChronoDate limits}

/-- The day that the windows start with. -/
def startDay (since : Option (ChronoDate limits)) (today : ChronoDate limits) : Int :=
  ((firstDay since today).earlier (endDay today)).day

theorem startDay_le (since : Option (ChronoDate limits)) (today : ChronoDate limits) :
    ((firstDay since today).earlier (endDay today)).day ≤ (endDay today).day := by
  rw [ChronoDate.day_earlier]
  exact min_le_right _ _

theorem head_chunkWindows (since : Option (ChronoDate limits)) (today : ChronoDate limits) :
    ∃ stop rest, chunkWindows since today =
      (epochAtMidnight (startDay since today), stop) :: rest := head_chunkLoop _ _

theorem mem_chunkWindows {window : Int × Int} (member : window ∈ chunkWindows since today) :
    epochAtMidnight (startDay since today) ≤ window.1 ∧ window.1 ≤ window.2 ∧
      window.2 ≤ epochAtMidnight (endDay today).day ∧
      window.2 - window.1 ≤ chunkDays * 86400 :=
  mem_chunkLoop (startDay_le since today) member

theorem exists_mem_chunkWindows {seconds : Int} :
    (∃ window ∈ chunkWindows since today, window.1 ≤ seconds ∧ seconds < window.2) ↔
      epochAtMidnight (startDay since today) ≤ seconds ∧
        seconds < epochAtMidnight (endDay today).day := by
  constructor
  · rintro ⟨window, member, after, before⟩
    have inside := mem_chunkWindows member
    omega
  · rintro ⟨reached, within⟩
    exact exists_mem_chunkLoop (startDay_le since today) reached within

/-- The first day that a walk should cover: some days before the watermark, or a year before
today. -/
def wantedDay (since : Option (ChronoDate limits)) (today : ChronoDate limits) : Int :=
  match since with
  | some date => date.day - sinceRewindDays
  | none => today.day - fullHistoryLookbackDays

/-- The windows cover every date from the first that they should to today. -/
def CoversDates (since : Option (ChronoDate limits)) (today : ChronoDate limits) : Prop :=
  ∀ date : ChronoDate limits, wantedDay since today ≤ date.day → date.day ≤ today.day →
    ∀ seconds, epochToDate seconds = date.day →
      ∃ window ∈ chunkWindows since today, window.1 ≤ seconds ∧ seconds < window.2

/-- Today is not the last date, and the first day that the walk should cover is a date, unless the
watermark, or today without one, is the first date. -/
def WithinCalendar (since : Option (ChronoDate limits)) (today : ChronoDate limits) : Prop :=
  today.day < limits.last ∧
    (limits.first ≤ wantedDay since today ∨ (since.getD today).day = limits.first)

theorem day_endDay (today : ChronoDate limits) : (endDay today).day =
    if today.day < limits.last then today.day + 1 else today.day := by
  have low := today.first_le
  rw [endDay, ChronoDate.day_checkedAddDays_getD]
  split_ifs <;> omega

theorem day_firstDay (since : Option (ChronoDate limits)) (today : ChronoDate limits) :
    (firstDay since today).day = if limits.first ≤ wantedDay since today then
      wantedDay since today else (since.getD today).day := by
  have high := today.le_last
  cases since with
  | none =>
    rw [firstDay, ChronoDate.day_checkedAddDays_getD, wantedDay, Option.getD_none]
    unfold fullHistoryLookbackDays
    split_ifs <;> omega
  | some date =>
    have high := date.le_last
    rw [firstDay, ChronoDate.day_checkedAddDays_getD, wantedDay, Option.getD_some]
    unfold sinceRewindDays
    split_ifs <;> omega

theorem covers_chunkWindows_iff : CoversDates since today ↔ WithinCalendar since today := by
  have start : startDay since today = _ := ChronoDate.day_earlier _ _
  rw [day_firstDay, day_endDay] at start
  have last := today.le_last
  have low := today.first_le
  have wanted : wantedDay since today ≤ (since.getD today).day := by
    cases since with
    | none =>
      show today.day - fullHistoryLookbackDays ≤ today.day
      unfold fullHistoryLookbackDays
      omega
    | some date =>
      show date.day - sinceRewindDays ≤ date.day
      unfold sinceRewindDays
      omega
  have base := (since.getD today).le_last
  have baseLow := (since.getD today).first_le
  unfold CoversDates WithinCalendar
  simp only [exists_mem_chunkWindows, day_endDay, start, epochToDate, epochAtMidnight]
  constructor
  · intro covers
    have notLast : today.day < limits.last := by
      by_contra atLast
      rw [if_neg atLast] at covers
      have covered := covers today (by omega) (le_refl _) (today.day * 86400) (by omega)
      omega
    refine ⟨notLast, ?_⟩
    by_contra moved
    rw [not_or] at moved
    rw [if_neg moved.1, if_pos notLast] at covers
    have covered := covers ⟨limits.first, le_refl _, by omega⟩
      (by show wantedDay since today ≤ limits.first; omega) (by exact low) (limits.first * 86400)
      (by show _ = limits.first; omega)
    omega
  · rintro ⟨notLast, inside⟩ date reached within seconds onDate
    have dateLow := date.first_le
    rw [if_pos notLast]
    split_ifs with reachable
    · omega
    · omega

end Dohflow.Connectors
