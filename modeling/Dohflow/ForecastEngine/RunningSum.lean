/-
This file proves that the first layer of the forecast is an exact running sum.

The events in canonical order stand in the order of their days, so the cursor has
only events of this day and later ones before it when a day begins. Draining a day
takes exactly its own events, and the walk over the days takes all that are in the
window. Each balance is then the starting balance with every event up to its day.
-/

import Dohflow.ForecastEngine.Layer1
import Dohflow.Foundation.MachineIntegers
import Dohflow.PaySchedule.Anchors

namespace Dohflow.ForecastEngine

open Calendar CanonicalOrder CoreLedger PayDates MachineIntegers

variable {events others : List ForecastEvent} {day date : NaiveDate} {balance : Money}
  {today next : List ForecastEvent} {running : Money}

/-! ### Amounts -/

def ForecastEvent.cents (event : ForecastEvent) : Int := event.amount.minorUnits.toInt

/-- What some events come to. -/
def totalOf (events : List ForecastEvent) : Int := (events.map ForecastEvent.cents).sum

/-- A balance with some events applied. -/
def balanceAfter (balance : Money) (events : List ForecastEvent) : Money :=
  ⟨.ofInt (balance.minorUnits.toInt + totalOf events), balance.currency⟩

/-- No balance on the way through some events leaves the range. -/
def NeverOverflows (balance : Money) (events : List ForecastEvent) : Prop :=
  Fits balance.minorUnits.toInt (events.map ForecastEvent.cents)

instance (balance : Money) (events : List ForecastEvent) :
    Decidable (NeverOverflows balance events) := inferInstanceAs (Decidable (Fits _ _))

theorem inI64_toInt (value : Int64) : InI64 value.toInt := by
  have low := Int64.le_toInt value
  have high := Int64.toInt_lt value
  exact ⟨low, Int.le_sub_one_of_lt high⟩

theorem toInt_ofInt {value : Int} (inside : InI64 value) : (Int64.ofInt value).toInt = value :=
  Int64.toInt_ofInt_of_le inside.1 (Int.lt_of_le_sub_one inside.2)

theorem checkedAdd_eq (left right : Int64) :
    CoreLedger.checkedAdd left right =
      if InI64 (left.toInt + right.toInt) then some (.ofInt (left.toInt + right.toInt))
      else none := by
  unfold CoreLedger.checkedAdd
  by_cases inside : InI64 (left.toInt + right.toInt)
  · have same : left + right = Int64.ofInt (left.toInt + right.toInt) := by
      rw [Int64.ofInt_add, Int64.ofInt_toInt, Int64.ofInt_toInt]
    rw [if_pos inside, same, toInt_ofInt inside, if_pos rfl]
  · rw [if_neg inside, if_neg]
    intro same
    exact inside (same ▸ inI64_toInt (left + right))

theorem totalOf_cons (event : ForecastEvent) (rest : List ForecastEvent) :
    totalOf (event :: rest) = event.cents + totalOf rest := List.sum_cons

theorem totalOf_append (events others : List ForecastEvent) :
    totalOf (events ++ others) = totalOf events + totalOf others := by
  unfold totalOf
  rw [List.map_append, List.sum_append]

theorem totalOf_perm (perm : events.Perm others) :
    totalOf events = totalOf others := (perm.map _).sum_eq

theorem neverOverflows_append :
    NeverOverflows balance (events ++ others) ↔
      NeverOverflows balance events ∧
        Fits (balance.minorUnits.toInt + totalOf events) (others.map ForecastEvent.cents) := by
  unfold NeverOverflows
  rw [List.map_append, fits_append]
  rfl

/-! ### Draining a day -/

theorem drainDay_eq {day : NaiveDate} (todays : ∀ event ∈ today, event.occursOn = day)
    (others : ∀ event ∈ next, event.occursOn ≠ day)
    (currency : ∀ event ∈ today, event.amount.currency = running.currency) :
    drainDay day running (today ++ next) =
      if NeverOverflows running today then
        .ok (balanceAfter running today, today.map ForecastEvent.toDayEvent, next)
      else .error .overflow := by
  induction today generalizing running with
  | nil =>
    have unchanged : balanceAfter running [] = running := by
      unfold balanceAfter totalOf
      rw [List.map_nil, List.sum_nil, Int.add_zero, Int64.ofInt_toInt]
    rw [if_pos (show NeverOverflows running [] from trivial), unchanged, List.nil_append]
    cases next with
    | nil => rfl
    | cons event rest => rw [drainDay, if_pos (others event List.mem_cons_self)]; rfl
  | cons event rest inductionHypothesis =>
    have own := currency event List.mem_cons_self
    rw [List.cons_append, drainDay, if_neg (not_not.mpr (todays event List.mem_cons_self)),
      Money.checkedAdd, if_pos own.symm, checkedAdd_eq]
    by_cases inside : InI64 (running.minorUnits.toInt + event.amount.minorUnits.toInt)
    · rw [if_pos inside]
      have later := @inductionHypothesis
        ⟨.ofInt (running.minorUnits.toInt + event.amount.minorUnits.toInt), running.currency⟩
        (fun event member => todays event (List.mem_cons_of_mem _ member))
        (fun event member => currency event (List.mem_cons_of_mem _ member))
      have step : NeverOverflows running (event :: rest) ↔
          NeverOverflows ⟨.ofInt (running.minorUnits.toInt + event.amount.minorUnits.toInt),
            running.currency⟩ rest := by
        unfold NeverOverflows
        rw [List.map_cons, Fits, toInt_ofInt inside]
        exact and_iff_right inside
      have reached : balanceAfter running (event :: rest) =
          balanceAfter ⟨.ofInt (running.minorUnits.toInt + event.amount.minorUnits.toInt),
            running.currency⟩ rest := by
        unfold balanceAfter
        rw [totalOf_cons, toInt_ofInt inside, Int.add_assoc]
        rfl
      show (drainDay day _ (rest ++ next)).bind _ = _
      rw [later, reached]
      by_cases fits : NeverOverflows running (event :: rest)
      · rw [if_pos fits, if_pos (step.mp fits)]
        rfl
      · rw [if_neg fits, if_neg (mt step.mpr fits)]
        rfl
    · have leaves : ¬NeverOverflows running (event :: rest) := fun fits => inside fits.1
      rw [if_neg inside, if_neg leaves]
      rfl

/-! ### Walking the days -/

/-- The days a walk makes rows for. -/
def datesFrom : Nat → NaiveDate → List NaiveDate
  | 0, _ => []
  | days + 1, day => day :: match checkedAddDays day 1 with
    | some tomorrow => datesFrom days tomorrow
    | none => []

theorem lt_of_checkedAddDays {day tomorrow : NaiveDate}
    (step : checkedAddDays day 1 = some tomorrow) : day < tomorrow := by
  rw [← Subtype.coe_lt_coe, eq_of_checked step, ← Date.dayNumber_lt_iff, Date.dayNumber_addDays]
  omega

theorem le_of_mem_datesFrom {days : Nat} (member : date ∈ datesFrom days day) : day ≤ date := by
  induction days generalizing day with
  | zero => exact nomatch member
  | succ days inductionHypothesis =>
    rw [datesFrom] at member
    rcases List.mem_cons.mp member with rfl | later
    · exact le_rfl
    · cases step : checkedAddDays day 1 with
      | none =>
        rw [step] at later
        exact nomatch later
      | some tomorrow =>
        rw [step] at later
        exact (lt_of_checkedAddDays step).le.trans (inductionHypothesis later)

/-- The row of a day, when some events in order are all that a balance takes. -/
def ledgerRow (balance : Money) (events : List ForecastEvent) (date : NaiveDate) : DailyBalance where
  date := date
  closing := .point (balanceAfter balance (events.filter fun event => event.occursOn ≤ date))
  events := (events.filter fun event => event.occursOn = date).map ForecastEvent.toDayEvent

theorem toInt_balanceAfter {events : List ForecastEvent} (fits : NeverOverflows balance events) :
    (balanceAfter balance events).minorUnits.toInt =
      balance.minorUnits.toInt + totalOf events := by
  have reached := (fits_iff_take (inI64_toInt balance.minorUnits)).mp fits events.length
  rw [List.take_of_length_le (List.length_map _).le] at reached
  exact toInt_ofInt reached

theorem balanceAfter_append (fits : NeverOverflows balance events) :
    balanceAfter balance (events ++ others) = balanceAfter (balanceAfter balance events) others := by
  have reached := toInt_balanceAfter fits
  show (⟨.ofInt (balance.minorUnits.toInt + totalOf (events ++ others)), balance.currency⟩ : Money) =
    ⟨.ofInt ((balanceAfter balance events).minorUnits.toInt + totalOf others), balance.currency⟩
  rw [reached, totalOf_append, Int.add_assoc]

theorem ledgerRow_after (todays : ∀ event ∈ today, event.occursOn = day)
    (fits : NeverOverflows running today) (later : day < date) :
    ledgerRow (balanceAfter running today) next date = ledgerRow running (today ++ next) date := by
  have applied : (today ++ next).filter (fun event => event.occursOn ≤ date) =
      today ++ next.filter fun event => event.occursOn ≤ date := by
    rw [List.filter_append, List.filter_eq_self.mpr fun event member => by
      simpa only [decide_eq_true_eq, todays event member] using later.le]
  have own : (today ++ next).filter (fun event => event.occursOn = date) =
      next.filter fun event => event.occursOn = date := by
    rw [List.filter_append, List.filter_eq_nil_iff.mpr fun event member => by
      simpa only [decide_eq_true_eq, todays event member] using later.ne, List.nil_append]
  unfold ledgerRow
  rw [applied, own, balanceAfter_append fits]

theorem walkDays_eq {days : Nat} {day : NaiveDate} {running : Money} {next : List ForecastEvent}
    (ascends : next.Pairwise fun first second => first.occursOn ≤ second.occursOn)
    (covered : ∀ event ∈ next, event.occursOn ∈ datesFrom days day)
    (currency : ∀ event ∈ next, event.amount.currency = running.currency) :
    walkDays days day running next =
      if NeverOverflows running next then
        .ok ((datesFrom days day).map (ledgerRow running next))
      else .error .overflow := by
  induction days generalizing day running next with
  | zero =>
    have none : next = [] := List.eq_nil_iff_forall_not_mem.mpr fun event member =>
      nomatch covered event member
    subst none
    rfl
  | succ days inductionHypothesis =>
    let today := next.filter fun event => event.occursOn = day
    let others := next.filter fun event => event.occursOn ≠ day
    have split : next = today ++ others := by
      refine eq_filter_append_filter (ascends.imp_of_mem fun first _ ordered same => ?_)
      exact le_antisymm (ordered.trans same.le) (le_of_mem_datesFrom (covered _ first))
    have todays (event : ForecastEvent) (member : event ∈ today) : event.occursOn = day := by
      simpa using (List.mem_filter.mp member).2
    have apart (event : ForecastEvent) (member : event ∈ others) : event.occursOn ≠ day := by
      simpa using (List.mem_filter.mp member).2
    have fromToday (event : ForecastEvent) (member : event ∈ today) : event ∈ next :=
      List.mem_of_mem_filter member
    have fromOthers (event : ForecastEvent) (member : event ∈ others) : event ∈ next :=
      List.mem_of_mem_filter member
    have drained := drainDay_eq todays apart fun event member =>
      currency event (fromToday event member)
    rw [walkDays]
    rw [← split] at drained
    rw [drained]
    by_cases fitsToday : NeverOverflows running today
    · have reached := toInt_balanceAfter fitsToday
      have whole : NeverOverflows running next ↔
          NeverOverflows (balanceAfter running today) others := by
        rw [split, neverOverflows_append, and_iff_right fitsToday, ← reached]
        rfl
      have here : ledgerRow running next day =
          ⟨day, .point (balanceAfter running today), today.map ForecastEvent.toDayEvent⟩ := by
        have upTo : next.filter (fun event => event.occursOn ≤ day) = today := by
          refine List.filter_congr fun event member => ?_
          have begun := le_of_mem_datesFrom (covered event member)
          simp only [begun.ge_iff_eq']
        unfold ledgerRow
        rw [upTo]
      rw [if_pos fitsToday]
      simp only [bind, Except.bind]
      cases step : checkedAddDays day 1 with
      | none =>
        have noOthers : others = [] := List.eq_nil_iff_forall_not_mem.mpr fun event member => by
          have reachable := covered event (fromOthers event member)
          rw [datesFrom, step] at reachable
          exact apart event member (List.mem_singleton.mp reachable)
        rw [if_pos (whole.mpr (noOthers ▸ trivial)), datesFrom, step, List.map_singleton, here]
        rfl
      | some tomorrow =>
        have walked := @inductionHypothesis tomorrow (balanceAfter running today) others
          (ascends.sublist List.filter_sublist)
          (fun event member => by
            have reachable := covered event (fromOthers event member)
            rw [datesFrom, step] at reachable
            exact (List.mem_cons.mp reachable).resolve_left (apart event member))
          (fun event member => currency event (fromOthers event member))
        simp only
        rw [walked]
        by_cases fits : NeverOverflows running next
        · rw [if_pos fits, if_pos (whole.mp fits), datesFrom, step, List.map_cons, here]
          have rows : (datesFrom days tomorrow).map (ledgerRow (balanceAfter running today) others) =
              (datesFrom days tomorrow).map (ledgerRow running next) := by
            refine List.map_congr_left fun date member => ?_
            have after := (lt_of_checkedAddDays step).trans_le (le_of_mem_datesFrom member)
            rw [ledgerRow_after todays fitsToday after, ← split]
          simp only
          rw [rows]
          rfl
        · rw [if_neg fits, if_neg (mt whole.mpr fits)]
    · have leaves : ¬NeverOverflows running next := by
        rw [split, neverOverflows_append]
        exact fun fits => fitsToday fits.1
      rw [if_neg fitsToday, if_neg leaves]
      rfl

/-! ### The days of the window -/

theorem inRange_of_between {low middle high : Date} (lowInside : InRange low)
    (highInside : InRange high) (atLeast : low ≤ middle) (atMost : middle ≤ high) :
    InRange middle :=
  inRange_between lowInside highInside (month_le_of_le atLeast) (month_le_of_le atMost)

theorem mem_datesFrom {days : Nat} :
    date ∈ datesFrom days day ↔
      day ≤ date ∧ date.val.dayNumber < day.val.dayNumber + days := by
  have number {first second : NaiveDate} :
      first ≤ second ↔ first.val.dayNumber ≤ second.val.dayNumber :=
    Subtype.coe_le_coe.symm.trans Date.dayNumber_le_iff.symm
  induction days generalizing day with
  | zero =>
    rw [number]
    refine iff_of_false List.not_mem_nil ?_
    omega
  | succ days inductionHypothesis =>
    rw [datesFrom, List.mem_cons, number]
    cases step : checkedAddDays day 1 with
    | some tomorrow =>
      have next : tomorrow.val.dayNumber = day.val.dayNumber + 1 := by
        rw [eq_of_checked step, Date.dayNumber_addDays]
        rfl
      refine (or_congr_right inductionHypothesis).trans ?_
      rw [number, next]
      constructor
      · rintro (rfl | bounds)
        · omega
        · omega
      · intro bounds
        by_cases today : date.val.dayNumber = day.val.dayNumber
        · exact .inl (Subtype.ext (Date.dayNumber_injective today))
        · exact .inr (by omega)
    | none =>
      simp only [List.not_mem_nil, or_false]
      constructor
      · rintro rfl
        omega
      · intro bounds
        -- A later day in range would put the next one in range.
        by_contra other
        have apart : date.val.dayNumber ≠ day.val.dayNumber := fun same =>
          other (Subtype.ext (Date.dayNumber_injective same))
        have next : (day.val.addDays (1 : Nat)).dayNumber = day.val.dayNumber + 1 :=
          Date.dayNumber_addDays _ _
        have inside : InRange (day.val.addDays (1 : Nat)) := by
          refine inRange_of_between day.property date.property ?_ ?_
          · rw [← Date.dayNumber_le_iff]
            omega
          · rw [← Date.dayNumber_le_iff]
            omega
        rw [checkedAddDays, checked_eq inside] at step
        exact nomatch step

theorem datesFrom_ascends (days : Nat) (day : NaiveDate) : (datesFrom days day).Pairwise (· < ·) := by
  induction days generalizing day with
  | zero => exact .nil
  | succ days inductionHypothesis =>
    rw [datesFrom]
    cases step : checkedAddDays day 1 with
    | none => exact List.pairwise_singleton _ _
    | some tomorrow =>
      refine List.pairwise_cons.mpr ⟨fun date member => ?_, inductionHypothesis tomorrow⟩
      exact (lt_of_checkedAddDays step).trans_le (le_of_mem_datesFrom member)

section Window

variable {Instant Tz : Type} {dateNaive : Tz → Instant → NaiveDate} {horizon : Horizon Instant}
  {tz : Tz} {start stop : NaiveDate} {events : List ForecastEvent} {starting : Money}

theorem le_maxDate (date : NaiveDate) : date ≤ maxDate := by
  have inside := date.property
  have valid := (date.val.valid.2).trans (daysInMonth_le _)
  unfold InRange Date.year yearOf maxYear at inside
  rw [← Subtype.coe_le_coe, Date.le_iff]
  show date.val.month < 12 * maxYear + 11 ∨ date.val.month = 12 * maxYear + 11 ∧ date.val.day ≤ 31
  unfold maxYear
  omega

theorem mem_datesFrom_window (window : horizon.window dateNaive tz = some (start, stop))
    {date : NaiveDate} : date ∈ datesFrom horizon.days start ↔ start ≤ date ∧ date ≤ stop := by
  unfold Horizon.window at window
  split_ifs at window with noDays
  obtain ⟨rfl, rfl⟩ := Prod.mk.inj (Option.some.inj window)
  rw [mem_datesFrom]
  refine and_congr_right fun begun => ?_
  have number {first second : NaiveDate} :
      first ≤ second ↔ first.val.dayNumber ≤ second.val.dayNumber :=
    Subtype.coe_le_coe.symm.trans Date.dayNumber_le_iff.symm
  have last : ((dateNaive tz horizon.asOf).val.addDays (horizon.days - 1 : Nat)).dayNumber =
      (dateNaive tz horizon.asOf).val.dayNumber + (horizon.days - 1 : Nat) :=
    Date.dayNumber_addDays _ _
  by_cases inside : InRange ((dateNaive tz horizon.asOf).val.addDays (horizon.days - 1 : Nat))
  · rw [checkedAddDays, checked_eq inside, Option.getD_some, number, last]
    omega
  · have none : checked ((dateNaive tz horizon.asOf).val.addDays (horizon.days - 1 : Nat)) = none :=
      dif_neg inside
    rw [checkedAddDays, none, Option.getD_none]
    refine iff_of_true ?_ (le_maxDate date)
    -- The window is cut off at the last date, before the horizon ends.
    by_contra beyond
    refine inside (inRange_of_between (dateNaive tz horizon.asOf).property date.property ?_ ?_)
    · rw [← Date.dayNumber_le_iff]
      omega
    · rw [← Date.dayNumber_le_iff]
      omega

/-! ### The events of the window -/

/-- The events of a window, in the order in which they apply. -/
def canonicalEvents (start stop : NaiveDate) (events : List ForecastEvent) : List ForecastEvent :=
  sortBy ForecastEvent.canonicalKey (events.filter fun event => event.InWindow start stop)

/-- All events of a window are in one currency. -/
def OneCurrency (start stop : NaiveDate) (currency : Currency) (events : List ForecastEvent) : Prop :=
  ∀ event ∈ events, event.InWindow start stop → event.amount.currency = currency

instance (start stop : NaiveDate) (currency : Currency) (events : List ForecastEvent) :
    Decidable (OneCurrency start stop currency events) :=
  inferInstanceAs (Decidable (∀ event ∈ events, _ → _))

theorem scheduled_eq {currency : Currency} (oneCurrency : OneCurrency start stop currency events) :
    scheduled start stop currency events =
      .ok (events.filter fun event => event.InWindow start stop) := by
  induction events with
  | nil => rfl
  | cons event rest inductionHypothesis =>
    have later := inductionHypothesis fun other member =>
      oneCurrency other (List.mem_cons_of_mem _ member)
    rw [scheduled]
    by_cases inside : event.InWindow start stop
    · have own := oneCurrency event List.mem_cons_self inside
      rw [if_neg (not_or.mpr ⟨not_lt.mpr inside.1, not_lt.mpr inside.2⟩), if_neg (not_not.mpr own),
        later, List.filter_cons_of_pos (by simpa using inside)]
      rfl
    · have outside : event.occursOn < start ∨ stop < event.occursOn := by
        by_contra within
        obtain ⟨atLeast, atMost⟩ := not_or.mp within
        exact inside ⟨not_lt.mp atLeast, not_lt.mp atMost⟩
      rw [if_pos outside, later, List.filter_cons_of_neg (by simpa using inside)]

theorem scheduled_eq_error {currency : Currency} (foreign : ¬OneCurrency start stop currency events) :
    ∃ found, scheduled start stop currency events = .error (.currencyMismatch currency found) := by
  induction events with
  | nil => exact absurd (fun event member => nomatch member) foreign
  | cons event rest inductionHypothesis =>
    rw [scheduled]
    by_cases outside : event.occursOn < start ∨ stop < event.occursOn
    · rw [if_pos outside]
      refine inductionHypothesis fun oneCurrency => foreign fun other member inside => ?_
      rcases List.mem_cons.mp member with rfl | later
      · rcases outside with early | late
        · exact absurd inside.1 (not_le.mpr early)
        · exact absurd inside.2 (not_le.mpr late)
      · exact oneCurrency other later inside
    · rw [if_neg outside]
      by_cases own : event.amount.currency = currency
      · rw [if_neg (not_not.mpr own)]
        obtain ⟨found, failed⟩ := inductionHypothesis fun oneCurrency =>
          foreign fun other member inside => by
            rcases List.mem_cons.mp member with rfl | later
            · exact own
            · exact oneCurrency other later inside
        exact ⟨found, by rw [failed]; rfl⟩
      · rw [if_pos own]
        exact ⟨_, rfl⟩

theorem mem_canonicalEvents {event : ForecastEvent} :
    event ∈ canonicalEvents start stop events ↔ event ∈ events ∧ event.InWindow start stop := by
  unfold canonicalEvents
  rw [mem_sortBy, List.mem_filter, decide_eq_true_eq]

theorem canonicalEvents_perm (start stop : NaiveDate) (events : List ForecastEvent) :
    (canonicalEvents start stop events).Perm
      (events.filter fun event => event.InWindow start stop) := sortBy_perm _

theorem canonicalEvents_ascends (start stop : NaiveDate) (events : List ForecastEvent) :
    (canonicalEvents start stop events).Pairwise
      fun first second => first.occursOn ≤ second.occursOn := by
  refine (sortBy_ascends _).imp fun {first second} ordered => ?_
  rcases Prod.Lex.le_iff.mp ordered with before | ⟨same, -⟩
  · exact before.le
  · exact same.le

theorem forecastLayer1_eq (window : horizon.window dateNaive tz = some (start, stop))
    (oneCurrency : OneCurrency start stop starting.currency events) :
    forecastLayer1 dateNaive events starting horizon tz =
      if NeverOverflows starting (canonicalEvents start stop events) then
        .ok ((datesFrom horizon.days start).map
          (ledgerRow starting (canonicalEvents start stop events)))
      else .error .overflow := by
  unfold forecastLayer1
  rw [window]
  simp only [bind, Except.bind]
  rw [scheduled_eq oneCurrency]
  refine walkDays_eq (canonicalEvents_ascends start stop events) (fun event member => ?_)
    fun event member => ?_
  · exact (mem_datesFrom_window window).mpr (mem_canonicalEvents.mp member).2
  · obtain ⟨listed, inside⟩ := mem_canonicalEvents.mp member
    exact oneCurrency event listed inside

/-- The events of the window are in the currency of the starting balance, and no balance on the way
through them leaves the range. -/
def HasRows (start stop : NaiveDate) (starting : Money) (events : List ForecastEvent) : Prop :=
  OneCurrency start stop starting.currency events ∧
    NeverOverflows starting (canonicalEvents start stop events)

theorem rows_eq (window : horizon.window dateNaive tz = some (start, stop))
    (hasRows : HasRows start stop starting events) :
    (forecastLayer1 dateNaive events starting horizon tz).toOption =
      some ((datesFrom horizon.days start).map
        (ledgerRow starting (canonicalEvents start stop events))) := by
  rw [forecastLayer1_eq window hasRows.1, if_pos hasRows.2]
  rfl

theorem rows_eq_none (window : horizon.window dateNaive tz = some (start, stop))
    (fails : ¬HasRows start stop starting events) :
    (forecastLayer1 dateNaive events starting horizon tz).toOption = none := by
  by_cases oneCurrency : OneCurrency start stop starting.currency events
  · have leaves : ¬NeverOverflows starting (canonicalEvents start stop events) := fun fits =>
      fails ⟨oneCurrency, fits⟩
    rw [forecastLayer1_eq window oneCurrency, if_neg leaves]
    rfl
  · obtain ⟨found, failed⟩ := scheduled_eq_error oneCurrency
    unfold forecastLayer1
    rw [window]
    simp only [bind, Except.bind]
    rw [failed]
    rfl

theorem canonicalEvents_today {date : NaiveDate} (begun : start ≤ date) (notOver : date ≤ stop) :
    ((canonicalEvents start stop events).filter fun event => event.occursOn = date).Perm
      (events.filter fun event => event.occursOn = date) := by
  refine ((canonicalEvents_perm start stop events).filter _).trans (List.Perm.of_eq ?_)
  rw [List.filter_filter]
  refine List.filter_congr fun event _ => ?_
  rw [← Bool.decide_and, decide_eq_decide]
  refine and_iff_left_of_imp ?_
  rintro rfl
  exact ⟨begun, notOver⟩

/-- The forecast is the exact running sum: unless some balance on the way through the events in
canonical order leaves the range, it has one row for every day of its window, in order; the row of
a day holds the events of that day, and closes at the starting balance with the events of the
window up to that day. -/
theorem forecast_is_the_exact_running_sum
    (window : horizon.window dateNaive tz = some (start, stop)) {events : List ForecastEvent}
    {starting : Money} (oneCurrency : OneCurrency start stop starting.currency events) :
    (forecastLayer1 dateNaive events starting horizon tz = .error .overflow ∧
      ∃ count, ¬InI64 (starting.minorUnits.toInt +
        totalOf ((canonicalEvents start stop events).take count))) ∨
    ∃ rows, forecastLayer1 dateNaive events starting horizon tz = .ok rows ∧
      (rows.map DailyBalance.date).Pairwise (· < ·) ∧
      (∀ date, date ∈ rows.map DailyBalance.date ↔ start ≤ date ∧ date ≤ stop) ∧
      ∀ row ∈ rows,
        row.events.Perm ((events.filter fun event => event.occursOn = row.date).map
          ForecastEvent.toDayEvent) ∧
        ∃ closing : Money, row.closing = .point closing ∧ closing.currency = starting.currency ∧
          closing.minorUnits.toInt = starting.minorUnits.toInt +
            totalOf (events.filter fun event =>
              event.InWindow start stop ∧ event.occursOn ≤ row.date) := by
  have computed := forecastLayer1_eq window oneCurrency
  have prefixes : NeverOverflows starting (canonicalEvents start stop events) ↔
      ∀ count, InI64 (starting.minorUnits.toInt +
        totalOf ((canonicalEvents start stop events).take count)) := by
    unfold NeverOverflows totalOf
    rw [fits_iff_take (inI64_toInt _)]
    simp only [List.map_take]
  by_cases fits : NeverOverflows starting (canonicalEvents start stop events)
  · rw [if_pos fits] at computed
    refine .inr ⟨_, computed, ?_, fun date => ?_, fun row member => ?_⟩
    · rw [List.map_map]
      show ((datesFrom horizon.days start).map id).Pairwise _
      rw [List.map_id]
      exact datesFrom_ascends horizon.days start
    · rw [List.map_map]
      show date ∈ (datesFrom horizon.days start).map id ↔ _
      rw [List.map_id]
      exact mem_datesFrom_window window
    · obtain ⟨date, listed, rfl⟩ := List.mem_map.mp member
      obtain ⟨begun, notOver⟩ := (mem_datesFrom_window window).mp listed
      refine ⟨(canonicalEvents_today begun notOver).map _, _, rfl, rfl, ?_⟩
      -- The events up to a day are the first ones of the canonical order.
      have split := @eq_filter_append_filter _ (fun event : ForecastEvent => event.occursOn ≤ date) _ _
        ((canonicalEvents_ascends start stop events).imp fun ordered upTo => ordered.trans upTo)
      rw [split, neverOverflows_append] at fits
      rw [toInt_balanceAfter fits.1]
      refine congrArg _ ((totalOf_perm ((canonicalEvents_perm start stop events).filter _)).trans ?_)
      rw [List.filter_filter]
      refine congrArg totalOf (List.filter_congr fun event _ => ?_)
      rw [← Bool.decide_and, decide_eq_decide]
      exact and_comm
  · rw [if_neg fits] at computed
    exact .inl ⟨computed, not_forall.mp (mt prefixes.mpr fits)⟩

/-- A bill and, out of order, a paycheck the day before, over three days. -/
theorem forecast_is_the_exact_running_sum_of_a_bill :
    ∃ (start stop : NaiveDate) (events : List ForecastEvent) (starting : Money),
      (forecastLayer1 (fun _ _ => start : Unit → Unit → NaiveDate) events starting ⟨(), 3⟩ () =
          .error .overflow ∧
        ∃ count, ¬InI64 (starting.minorUnits.toInt +
          totalOf ((canonicalEvents start stop events).take count))) ∨
      ∃ rows, forecastLayer1 (fun _ _ => start : Unit → Unit → NaiveDate) events starting
          ⟨(), 3⟩ () = .ok rows ∧
        (rows.map DailyBalance.date).Pairwise (· < ·) ∧
        (∀ date, date ∈ rows.map DailyBalance.date ↔ start ≤ date ∧ date ≤ stop) ∧
        ∀ row ∈ rows,
          row.events.Perm ((events.filter fun event => event.occursOn = row.date).map
            ForecastEvent.toDayEvent) ∧
          ∃ closing : Money, row.closing = .point closing ∧ closing.currency = starting.currency ∧
            closing.minorUnits.toInt = starting.minorUnits.toInt +
              totalOf (events.filter fun event =>
                event.InWindow start stop ∧ event.occursOn ≤ row.date) := by
  let day (number : Nat) (valid : 1 ≤ number ∧ number ≤ daysInMonth (12 * 2026 + 5)) : NaiveDate :=
    ⟨⟨12 * 2026 + 5, number, valid⟩,
      (by decide : minYear ≤ yearOf (12 * 2026 + 5) ∧ yearOf (12 * 2026 + 5) ≤ maxYear)⟩
  let events : List ForecastEvent :=
    [⟨day 3 (by decide), .recurringBill, ⟨-500, .usd⟩, List.Vector.replicate 16 0, .manualOneOff⟩,
      ⟨day 2 (by decide), .income, ⟨900, .usd⟩, List.Vector.replicate 16 1, .manualOneOff⟩]
  refine ⟨day 1 (by decide), day 3 (by decide), events, ⟨1000, .usd⟩, ?_⟩
  exact forecast_is_the_exact_running_sum (by decide +kernel) (by decide +kernel)

end Window

end Dohflow.ForecastEngine
