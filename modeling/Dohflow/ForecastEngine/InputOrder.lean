/-
This file says when the forecast does not depend on the order of its input.

The canonical order compares the day, the rank of the kind, the source and the
amount. Two kinds share a rank, and the basis of an assumption is not compared, so
two events can agree on all of it and differ; the sort is stable and keeps them as
they came. The rows are the same for every order of the input just if no two events
of the window do so, or there are no rows to compare.
-/

import Dohflow.ForecastEngine.RunningSum

namespace Dohflow.ForecastEngine

open Calendar CanonicalOrder CoreLedger PayDates MachineIntegers

/-! ### What the keys determine -/

theorem map_key_sortBy_of_perm {Item Key : Type} [LinearOrder Key] {key : Item → Key}
    {items others : List Item} (perm : items.Perm others) :
    (sortBy key items).map key = (sortBy key others).map key := by
  refine List.Perm.eq_of_pairwise (fun first second _ _ before after => le_antisymm before after)
    (List.pairwise_map.mpr (sortBy_ascends items)) (List.pairwise_map.mpr (sortBy_ascends others)) ?_
  exact ((sortBy_perm items).trans (perm.trans (sortBy_perm others).symm)).map key

/-- The amount stands last in the key. -/
def keyCents (key : NaiveDate ×ₗ ℕ ×ₗ List ℕ ×ₗ Int) : Int :=
  (ofLex (ofLex (ofLex key).2).2).2

theorem map_cents_of_keys {events others : List ForecastEvent}
    (same : events.map ForecastEvent.canonicalKey = others.map ForecastEvent.canonicalKey) :
    events.map ForecastEvent.cents = others.map ForecastEvent.cents := by
  have read (list : List ForecastEvent) : list.map ForecastEvent.cents =
      (list.map ForecastEvent.canonicalKey).map keyCents := by
    rw [List.map_map]
    rfl
  rw [read, read, same]

theorem eq_of_toDayEvent {first second : ForecastEvent} (day : first.occursOn = second.occursOn)
    (recorded : first.toDayEvent = second.toDayEvent) : first = second := by
  obtain ⟨occursOn, kind, amount, source, basis⟩ := first
  obtain ⟨secondOccursOn, secondKind, secondAmount, secondSource, secondBasis⟩ := second
  obtain ⟨rfl, rfl, rfl, rfl⟩ := DayEvent.mk.inj recorded
  obtain rfl : occursOn = secondOccursOn := day
  rfl

/-! ### Ties -/

section Window

variable {Instant Tz : Type} {dateNaive : Tz → Instant → NaiveDate} {horizon : Horizon Instant}
  {tz : Tz} {start stop : NaiveDate} {events reordered : List ForecastEvent} {starting : Money}

/-- No two events of the window agree on all that the canonical order compares and differ. -/
def TellsApart (start stop : NaiveDate) (events : List ForecastEvent) : Prop :=
  ∀ first ∈ events, ∀ second ∈ events, first.InWindow start stop → second.InWindow start stop →
    first.canonicalKey = second.canonicalKey → first = second

theorem oneCurrency_perm {currency : Currency} (perm : reordered.Perm events) :
    OneCurrency start stop currency reordered ↔ OneCurrency start stop currency events := by
  unfold OneCurrency
  simp only [perm.mem_iff]

theorem neverOverflows_perm (perm : reordered.Perm events) :
    NeverOverflows starting (canonicalEvents start stop reordered) ↔
      NeverOverflows starting (canonicalEvents start stop events) := by
  have cents : (canonicalEvents start stop reordered).map ForecastEvent.cents =
      (canonicalEvents start stop events).map ForecastEvent.cents :=
    map_cents_of_keys (map_key_sortBy_of_perm (perm.filter _))
  unfold NeverOverflows
  rw [cents]

theorem hasRows_perm (perm : reordered.Perm events) :
    HasRows start stop starting reordered ↔ HasRows start stop starting events :=
  and_congr (oneCurrency_perm perm) (neverOverflows_perm perm)

theorem canonicalEvents_of_tellsApart (perm : reordered.Perm events)
    (apart : TellsApart start stop events) :
    canonicalEvents start stop reordered = canonicalEvents start stop events := by
  refine (sortBy_eq_iff_perm fun first firstIn second secondIn same => ?_).mpr (perm.filter _)
  obtain ⟨firstListed, firstInside⟩ := List.mem_filter.mp firstIn
  obtain ⟨secondListed, secondInside⟩ := List.mem_filter.mp secondIn
  exact apart first (perm.mem_iff.mp firstListed) second secondListed (by simpa using firstInside)
    (by simpa using secondInside) same

/-! ### Swapping a tie -/

theorem canonicalEvents_append {front : List ForecastEvent}
    (ascends : front.Pairwise fun first second => first.canonicalKey ≤ second.canonicalKey)
    (inside : ∀ event ∈ front, event.InWindow start stop) :
    canonicalEvents start stop
      (front ++ events.filter fun event => ¬event.InWindow start stop) = front := by
  have none : (events.filter fun event => ¬event.InWindow start stop).filter
      (fun event => event.InWindow start stop) = [] := by
    refine List.filter_eq_nil_iff.mpr fun event member => ?_
    simpa using (List.mem_filter.mp member).2
  unfold canonicalEvents
  rw [List.filter_append, none, List.append_nil,
    List.filter_eq_self.mpr fun event member => by simpa using inside event member]
  exact List.Pairwise.insertionSort_eq ascends

/-- If the forecast does not see in which order a tie came, the two events are one. -/
theorem eq_of_swap (window : horizon.window dateNaive tz = some (start, stop))
    (hasRows : HasRows start stop starting events)
    (ignores : ∀ reordered : List ForecastEvent, reordered.Perm events →
      (forecastLayer1 dateNaive reordered starting horizon tz).toOption =
        (forecastLayer1 dateNaive events starting horizon tz).toOption)
    {front middle back : List ForecastEvent} {first second : ForecastEvent}
    (sorted : canonicalEvents start stop events = front ++ first :: (middle ++ second :: back))
    (tie : first.canonicalKey = second.canonicalKey) : first = second := by
  let swapped := front ++ second :: (middle ++ first :: back)
  have keys : swapped.map ForecastEvent.canonicalKey =
      (canonicalEvents start stop events).map ForecastEvent.canonicalKey := by
    rw [sorted]
    simp only [swapped, List.map_append, List.map_cons, tie]
  have perm : swapped.Perm (canonicalEvents start stop events) := by
    rw [sorted]
    refine List.Perm.append_left front ?_
    refine ((List.perm_middle.cons second).trans (List.Perm.swap _ _ _)).trans ?_
    exact List.perm_middle.symm.cons first
  have ascends : swapped.Pairwise fun first second =>
      first.canonicalKey ≤ second.canonicalKey := by
    have ordered : (canonicalEvents start stop events).Pairwise fun first second =>
        first.canonicalKey ≤ second.canonicalKey := sortBy_ascends _
    have listed : (swapped.map ForecastEvent.canonicalKey).Pairwise (· ≤ ·) :=
      keys ▸ List.pairwise_map.mpr ordered
    exact List.pairwise_map.mp listed
  have inside (event : ForecastEvent) (member : event ∈ swapped) : event.InWindow start stop :=
    (mem_canonicalEvents.mp (perm.mem_iff.mp member)).2
  have whole : (swapped ++ events.filter fun event => ¬event.InWindow start stop).Perm events := by
    refine ((perm.trans (canonicalEvents_perm start stop events)).append_right _).trans ?_
    have parts := List.filter_append_perm
      (fun event : ForecastEvent => decide (event.InWindow start stop)) events
    simpa only [decide_not] using parts
  have rows := ignores _ whole
  rw [rows_eq window ((hasRows_perm whole).mpr hasRows), rows_eq window hasRows,
    canonicalEvents_append ascends inside, sorted] at rows
  -- The row of the day of the tie shows which of the two came first.
  have firstInside : first.InWindow start stop := inside first (by simp [swapped])
  have today := List.map_inj_left.mp (Option.some.inj rows) first.occursOn
    ((mem_datesFrom_window window).mpr firstInside)
  have day : second.occursOn = first.occursOn :=
    (congrArg (fun key => (ofLex key).1) tie).symm
  have recorded := congrArg DailyBalance.events today
  simp only [ledgerRow, swapped, List.filter_append, List.filter_cons, day, decide_true, if_true,
    List.map_append, List.map_cons] at recorded
  have heads := (List.cons.inj (List.append_cancel_left recorded)).1
  exact eq_of_toDayEvent day.symm heads.symm

/-- The order of the input makes no difference to the rows just if no two events of the window
agree on the day, the rank, the source and the amount and differ, or if there are no rows: an
event of the window is in another currency, or a balance leaves the range. -/
theorem forecast_ignores_input_order_iff (events : List ForecastEvent) (starting : Money)
    (horizon : Horizon Instant) (tz : Tz) :
    (∀ reordered : List ForecastEvent, reordered.Perm events →
      (forecastLayer1 dateNaive reordered starting horizon tz).toOption =
        (forecastLayer1 dateNaive events starting horizon tz).toOption) ↔
    ∀ start stop, horizon.window dateNaive tz = some (start, stop) →
      HasRows start stop starting events → TellsApart start stop events := by
  constructor
  · intro ignores start stop window hasRows first firstIn second secondIn firstInside secondInside tie
    by_contra differ
    have firstListed := mem_canonicalEvents.mpr ⟨firstIn, firstInside⟩
    have secondListed := mem_canonicalEvents.mpr ⟨secondIn, secondInside⟩
    obtain ⟨front, back, sorted⟩ := List.append_of_mem firstListed
    rw [sorted] at secondListed
    rcases List.mem_append.mp secondListed with before | behind
    · obtain ⟨outer, inner, rfl⟩ := List.append_of_mem before
      rw [List.append_assoc, List.cons_append] at sorted
      exact differ (eq_of_swap window hasRows ignores sorted tie.symm).symm
    · rcases List.mem_cons.mp behind with same | behind
      · exact differ same.symm
      · obtain ⟨inner, outer, rfl⟩ := List.append_of_mem behind
        exact differ (eq_of_swap window hasRows ignores sorted tie)
  · intro apart reordered perm
    cases window : horizon.window dateNaive tz with
    | none =>
      unfold forecastLayer1
      rw [window]
    | some bounds =>
      obtain ⟨start, stop⟩ := bounds
      by_cases hasRows : HasRows start stop starting events
      · rw [rows_eq window ((hasRows_perm perm).mpr hasRows), rows_eq window hasRows,
          canonicalEvents_of_tellsApart perm (apart start stop window hasRows)]
      · rw [rows_eq_none window (mt (hasRows_perm perm).mp hasRows), rows_eq_none window hasRows]

end Window

/-! ### Ties that differ -/

/-- A bill and a loan payment of one source, day and amount: which comes first in the row of the
day is which came first in the list. -/
theorem forecast_depends_on_input_order :
    ∃ (day : NaiveDate) (bill loan : ForecastEvent) (starting : Money),
      bill.occursOn = day ∧ loan.occursOn = day ∧ [loan, bill].Perm [bill, loan] ∧
      (forecastLayer1 (fun _ _ => day : Unit → Unit → NaiveDate) [bill, loan] starting
          ⟨(), 1⟩ ()).toOption =
        some [⟨day, .point ⟨-1000, .usd⟩, [bill.toDayEvent, loan.toDayEvent]⟩] ∧
      (forecastLayer1 (fun _ _ => day : Unit → Unit → NaiveDate) [loan, bill] starting
          ⟨(), 1⟩ ()).toOption =
        some [⟨day, .point ⟨-1000, .usd⟩, [loan.toDayEvent, bill.toDayEvent]⟩] ∧
      bill.toDayEvent ≠ loan.toDayEvent := by
  let day : NaiveDate := ⟨⟨12 * 2026 + 5, 1, by decide⟩, by decide⟩
  let bill : ForecastEvent :=
    ⟨day, .recurringBill, ⟨-500, .usd⟩, List.Vector.replicate 16 0, .manualOneOff⟩
  let loan : ForecastEvent :=
    ⟨day, .loanPayment, ⟨-500, .usd⟩, List.Vector.replicate 16 0, .manualOneOff⟩
  refine ⟨day, bill, loan, ⟨0, .usd⟩, rfl, rfl, List.Perm.swap _ _ _, ?_, ?_, ?_⟩
  · decide +kernel
  · decide +kernel
  · decide +kernel

end Dohflow.ForecastEngine
