/-
This file proves that the billing cycles of a card are a lattice.

Closes go through the months one by one, on the close day or the month's last. The due month
of a close is its own or the next one, and the month that is paid is the due month, or the
one after the month that was paid before when that is later. So in a run the month that is
paid stays the month of the close up to the first close whose due month is the next, and is
the next month from there on; in either case due dates ascend.
-/

import Dohflow.DbWorker.CardCycles

namespace Dohflow.DbWorker

open Calendar

/-! ### The months of a run -/

/-- The month in which the statement that closes in a month falls due. -/
def dueMonth (closeDay dueDay : Nat) (month : Int) : Int :=
  monthAfter dueDay (onDay closeDay month)

/-- The month of the close that leads. -/
def leadingMonth (today : Date) (closeDay dueDay : Nat) : Int :=
  let current := monthOnOrAfter closeDay today
  if today ≤ onDay dueDay (dueMonth closeDay dueDay (current - 1)) ∧
      dueMonth closeDay dueDay (current - 1) < dueMonth closeDay dueDay current then current - 1
  else current

/-- The month in which a statement of a run is paid. -/
def paidMonth (closeDay dueDay : Nat) (first : Int) : Nat → Int
  | 0 => dueMonth closeDay dueDay first
  | index + 1 =>
    max (dueMonth closeDay dueDay (first + index + 1)) (paidMonth closeDay dueDay first index + 1)

/-- The dates of a cycle. -/
def CardCycle.dates (cycle : CardCycle) : Date × Date × Date :=
  (cycle.opens.val, cycle.close.val, cycle.due.val)

/-- The dates of the cycle in a place of a run. -/
def cycleDates (closeDay dueDay : Nat) (first : Int) (index : Nat) : Date × Date × Date :=
  (onDay closeDay (first + index - 1), onDay closeDay (first + index),
    onDay dueDay (paidMonth closeDay dueDay first index))

variable {closeDay dueDay : Nat}

theorem dueMonth_bounds (month : Int) :
    month ≤ dueMonth closeDay dueDay month ∧ dueMonth closeDay dueDay month ≤ month + 1 :=
  monthAfter_bounds dueDay (onDay closeDay month)

theorem paidMonth_bounds (first : Int) (index : Nat) :
    first + index ≤ paidMonth closeDay dueDay first index ∧
      paidMonth closeDay dueDay first index ≤ first + index + 1 := by
  induction index with
  | zero =>
    have bounds := @dueMonth_bounds closeDay dueDay first
    rw [paidMonth]
    omega
  | succ index inductionHypothesis =>
    have bounds := @dueMonth_bounds closeDay dueDay (first + index + 1)
    rw [paidMonth]
    omega

theorem dueMonth_le_paidMonth (first : Int) (index : Nat) :
    dueMonth closeDay dueDay (first + index) ≤ paidMonth closeDay dueDay first index := by
  cases index with
  | zero =>
    rw [paidMonth, Nat.cast_zero, Int.add_zero]
  | succ index =>
    rw [paidMonth, Nat.cast_succ, ← Int.add_assoc]
    exact le_max_left _ _

theorem paidMonth_lt_succ (first : Int) (index : Nat) :
    paidMonth closeDay dueDay first index < paidMonth closeDay dueDay first (index + 1) :=
  (Int.lt_succ _).trans_le (le_max_right _ _)

theorem leadingMonth_bounds (today : Date) :
    monthOnOrAfter closeDay today - 1 ≤ leadingMonth today closeDay dueDay ∧
      leadingMonth today closeDay dueDay ≤ monthOnOrAfter closeDay today := by
  unfold leadingMonth
  dsimp only
  split_ifs
  · omega
  · omega

theorem today_le_leading (today : Date) :
    today ≤ onDay dueDay (dueMonth closeDay dueDay (leadingMonth today closeDay dueDay)) := by
  unfold leadingMonth
  dsimp only
  split_ifs with stepped
  · exact stepped.1
  · have closes : today ≤ onDay closeDay (monthOnOrAfter closeDay today) := le_onDay_iff.mpr le_rfl
    exact closes.trans (lt_onDay_iff.mpr le_rfl).le

/-! ### The run of the code -/

theorem exists_dayOfMonthAfter {start : PayDates.NaiveDate} {day : Nat} {month : Int}
    (found : monthAfter day start.val = month) (nextIn : MonthInRange (month + 1)) :
    ∃ date, dayOfMonthAfter start day = some date ∧ date.val = onDay day month := by
  have bounds := monthAfter_bounds day start.val
  have inside : MonthInRange month := monthInRange_between start.property nextIn
    (by show start.val.month ≤ _; omega) (by omega)
  exact ⟨dayIn day inside, dayOfMonthAfter_eq found inside nextIn, rfl⟩

theorem val_le_val {first second : PayDates.NaiveDate} : first ≤ second ↔ first.val ≤ second.val :=
  Iff.rfl

theorem val_lt_val {first second : PayDates.NaiveDate} : first < second ↔ first.val < second.val :=
  Iff.rfl

theorem exists_dueAfter {close : PayDates.NaiveDate} {first : Int} {index : Nat}
    (closes : close.val = onDay closeDay (first + index)) {lastDue : Option PayDates.NaiveDate}
    (last : ∀ prev, lastDue = some prev → ∃ earlier, index = earlier + 1 ∧
      prev.val = onDay dueDay (paidMonth closeDay dueDay first earlier))
    (begins : lastDue = none → index = 0)
    (nextIn : MonthInRange (first + index + 2)) :
    ∃ due, dueAfter dueDay close lastDue = some due ∧
      due.val = onDay dueDay (paidMonth closeDay dueDay first index) := by
  have bounds := @dueMonth_bounds closeDay dueDay (first + index)
  have closeIn : MonthInRange (first + index) := by
    have held := close.property
    rwa [closes] at held
  obtain ⟨due, found, dated⟩ := @exists_dayOfMonthAfter close dueDay
    (dueMonth closeDay dueDay (first + index)) (by rw [closes]; rfl)
    (monthInRange_between closeIn nextIn (by omega) (by omega))
  unfold dueAfter
  rw [found, Option.bind_eq_bind, Option.bind_some]
  cases lastDue with
  | none =>
    obtain rfl := begins rfl
    refine ⟨due, rfl, dated.trans ?_⟩
    rw [paidMonth, Nat.cast_zero, Int.add_zero]
  | some prev =>
    obtain ⟨earlier, rfl, prevDated⟩ := last prev rfl
    have paid := @paidMonth_bounds closeDay dueDay first earlier
    rw [Nat.cast_succ] at *
    dsimp only
    unfold PayDates.rounds
    rw [advancePast]
    by_cases collides : due ≤ prev
    · rw [if_pos collides]
      have same : dueMonth closeDay dueDay (first + (earlier + 1)) =
          paidMonth closeDay dueDay first earlier := by
        rw [val_le_val, dated, prevDated, (onDay_strictMono dueDay).le_iff_le] at collides
        omega
      obtain ⟨next, advanced, nextDated⟩ := @exists_dayOfMonthAfter due dueDay
        (paidMonth closeDay dueDay first earlier + 1) (by rw [dated, monthAfter_onDay, same])
        (monthInRange_between closeIn nextIn (by omega) (by omega))
      have past : ¬ next ≤ prev := by
        rw [val_le_val, nextDated, prevDated, (onDay_strictMono dueDay).le_iff_le]
        omega
      have stops (rounds : Nat) : advancePast prev dueDay rounds next = some next := by
        cases rounds with
        | zero => rfl
        | succ rounds => exact if_neg past
      rw [advanced, Option.bind_some, stops]
      refine ⟨next, rfl, nextDated.trans ?_⟩
      rw [← Int.add_assoc] at same
      rw [paidMonth, same, max_eq_right (by omega)]
    · rw [if_neg collides]
      refine ⟨due, rfl, dated.trans ?_⟩
      rw [val_le_val, dated, prevDated, (onDay_strictMono dueDay).le_iff_le] at collides
      rw [← Int.add_assoc] at collides ⊢
      rw [paidMonth, max_eq_left (by omega)]

theorem exists_cyclesFrom {first : Int} {total : Nat} (lastIn : MonthInRange (first + total + 1))
    {opens close : PayDates.NaiveDate} {lastDue : Option PayDates.NaiveDate} {count index : Nat}
    (places : index + count = total) (opened : opens.val = onDay closeDay (first + index - 1))
    (closes : close.val = onDay closeDay (first + index))
    (last : ∀ prev, lastDue = some prev → ∃ earlier, index = earlier + 1 ∧
      prev.val = onDay dueDay (paidMonth closeDay dueDay first earlier))
    (begins : lastDue = none → index = 0) :
    ∃ cycles, cyclesFrom closeDay dueDay count opens close lastDue = some cycles ∧
      cycles.map CardCycle.dates =
        (List.range' index count).map (cycleDates closeDay dueDay first) := by
  induction count generalizing opens close lastDue index with
  | zero => exact ⟨[], rfl, rfl⟩
  | succ count inductionHypothesis =>
    have closeIn : MonthInRange (first + index) := by
      have held := close.property
      rwa [closes] at held
    obtain ⟨due, dueFound, dueDated⟩ := exists_dueAfter closes last begins
      (monthInRange_between closeIn lastIn (by omega) (by omega))
    obtain ⟨next, nextFound, nextDated⟩ := @exists_dayOfMonthAfter close closeDay
      (first + (index + 1 : Nat)) (by rw [closes, monthAfter_onDay]; omega)
      (monthInRange_between closeIn lastIn (by omega) (by omega))
    obtain ⟨rest, made, dated⟩ := @inductionHypothesis close next (some due) (index + 1)
      (by omega) (by rw [closes, Nat.cast_succ]; congr 1; omega) nextDated
      (fun prev same => ⟨index, rfl, Option.some.inj same ▸ dueDated⟩) (fun same => by cases same)
    refine ⟨⟨opens, close, due⟩ :: rest, ?_, ?_⟩
    · rw [cyclesFrom, dueFound, Option.bind_eq_bind, Option.bind_some, nextFound,
        Option.bind_eq_bind, Option.bind_some, made]
      rfl
    · rw [List.map_cons, dated, List.range'_succ, List.map_cons]
      refine congrArg₂ List.cons ?_ rfl
      rw [CardCycle.dates, cycleDates, opened, closes, dueDated]

theorem exists_dayOfMonthOnOrAfter {start : PayDates.NaiveDate} {day : Nat} {month : Int}
    (found : monthOnOrAfter day start.val = month) (nextIn : MonthInRange (month + 1)) :
    ∃ date, dayOfMonthOnOrAfter start day = some date ∧ date.val = onDay day month := by
  have bounds := monthOnOrAfter_bounds day start.val
  have inside : MonthInRange month := monthInRange_between start.property nextIn
    (by show start.val.month ≤ _; omega) (by omega)
  exact ⟨dayIn day inside, dayOfMonthOnOrAfter_eq found inside nextIn, rfl⟩

theorem exists_inPrevMonth {date : PayDates.NaiveDate} {day other : Nat} {month : Int}
    (dated : date.val = onDay other month) (prevIn : MonthInRange (month - 1)) :
    ∃ prev, inPrevMonth date day = some prev ∧ prev.val = onDay day (month - 1) := by
  have same : date.val.month = month := congrArg Date.month dated
  subst same
  exact ⟨⟨onDay day (date.val.month - 1), prevIn⟩, inPrevMonth_eq prevIn day, rfl⟩

/-- The dates that the code goes through are dates the date type holds. -/
structure CyclesInRange (today : PayDates.NaiveDate) (count : Nat) : Prop where
  earliest : MonthInRange (today.val.month - 2)
  latest : MonthInRange (today.val.month + count + 3)

variable {today : PayDates.NaiveDate} {count : Nat}

theorem CyclesInRange.month (inside : CyclesInRange today count) {month : Int}
    (atLeast : today.val.month - 2 ≤ month) (atMost : month ≤ today.val.month + count + 3) :
    MonthInRange month := monthInRange_between inside.earliest inside.latest atLeast atMost

theorem exists_leadingClose (inside : CyclesInRange today count) :
    ∃ close, leadingClose today closeDay dueDay = some close ∧
      close.val = onDay closeDay (leadingMonth today.val closeDay dueDay) := by
  have bounds := monthOnOrAfter_bounds closeDay today.val
  obtain ⟨close, closeFound, closes⟩ := @exists_dayOfMonthOnOrAfter today closeDay _ rfl
    (inside.month (by omega) (by omega))
  obtain ⟨prev, prevFound, prevCloses⟩ := @exists_inPrevMonth close closeDay _ _ closes
    (inside.month (by omega) (by omega))
  have prevBounds := @dueMonth_bounds closeDay dueDay (monthOnOrAfter closeDay today.val - 1)
  obtain ⟨prevDue, prevDueFound, prevDated⟩ := @exists_dayOfMonthAfter prev dueDay
    (dueMonth closeDay dueDay (monthOnOrAfter closeDay today.val - 1)) (by rw [prevCloses]; rfl)
    (inside.month (by omega) (by omega))
  have dueBounds := @dueMonth_bounds closeDay dueDay (monthOnOrAfter closeDay today.val)
  obtain ⟨due, dueFound, dated⟩ := @exists_dayOfMonthAfter close dueDay
    (dueMonth closeDay dueDay (monthOnOrAfter closeDay today.val)) (by rw [closes]; rfl)
    (inside.month (by omega) (by omega))
  unfold leadingClose leadingMonth
  rw [closeFound, Option.bind_eq_bind, Option.bind_some, prevFound, Option.bind_some, prevDueFound,
    Option.bind_some]
  dsimp only
  have unpaidIff : today ≤ prevDue ↔ today.val ≤
      onDay dueDay (dueMonth closeDay dueDay (monthOnOrAfter closeDay today.val - 1)) := by
    rw [val_le_val, prevDated]
  have earlierIff : prevDue < due ↔ dueMonth closeDay dueDay (monthOnOrAfter closeDay today.val - 1) <
      dueMonth closeDay dueDay (monthOnOrAfter closeDay today.val) := by
    rw [val_lt_val, prevDated, dated, (onDay_strictMono dueDay).lt_iff_lt]
  by_cases unpaid : today ≤ prevDue
  · rw [if_pos unpaid, dueFound, Option.bind_some]
    by_cases earlier : prevDue < due
    · rw [if_pos earlier, if_pos ⟨unpaidIff.mp unpaid, earlierIff.mp earlier⟩]
      exact ⟨prev, rfl, prevCloses⟩
    · rw [if_neg earlier, if_neg fun both => earlier (earlierIff.mpr both.2)]
      exact ⟨close, rfl, closes⟩
  · rw [if_neg unpaid, if_neg fun both => unpaid (unpaidIff.mpr both.1)]
    exact ⟨close, rfl, closes⟩

theorem exists_deriveCardCycles (inside : CyclesInRange today count) :
    ∃ cycles, deriveCardCycles today closeDay dueDay count = some cycles ∧
      cycles.map CardCycle.dates = (List.range count).map
        (cycleDates closeDay dueDay (leadingMonth today.val closeDay dueDay)) := by
  have bounds := monthOnOrAfter_bounds closeDay today.val
  have leads := @leadingMonth_bounds closeDay dueDay today.val
  obtain ⟨close, closeFound, closes⟩ := @exists_leadingClose closeDay dueDay today count inside
  obtain ⟨opens, opensFound, opened⟩ := @exists_inPrevMonth close closeDay _ _ closes
    (inside.month (by omega) (by omega))
  have lastIn := inside.month (by omega :
    today.val.month - 2 ≤ leadingMonth today.val closeDay dueDay + count + 1) (by omega)
  obtain ⟨cycles, made, dated⟩ := @exists_cyclesFrom closeDay dueDay _ count lastIn opens close none
    count 0 (by omega) (by rw [opened, Nat.cast_zero, Int.add_zero])
    (by rw [closes, Nat.cast_zero, Int.add_zero]) (fun prev same => by cases same) fun _ => rfl
  refine ⟨cycles, ?_, ?_⟩
  · unfold deriveCardCycles
    rw [closeFound, Option.bind_eq_bind, Option.bind_some, opensFound]
    exact made
  · rw [dated, List.range_eq_range']

theorem exists_pseudoCyclesFrom {first : Int} {total : Nat}
    (lastIn : MonthInRange (first + total + 1)) {opens close : PayDates.NaiveDate}
    {count index : Nat} (places : index + count = total)
    (opened : opens.val = onDay dueDay (first + index - 1))
    (closes : close.val = onDay dueDay (first + index)) :
    ∃ cycles, pseudoCyclesFrom dueDay count opens close = some cycles ∧
      cycles.map CardCycle.dates = (List.range' index count).map fun index : Nat =>
        (onDay dueDay (first + index - 1), onDay dueDay (first + index),
          onDay dueDay (first + index)) := by
  induction count generalizing opens close index with
  | zero => exact ⟨[], rfl, rfl⟩
  | succ count inductionHypothesis =>
    have closeIn : MonthInRange (first + index) := by
      have held := close.property
      rwa [closes] at held
    obtain ⟨next, nextFound, nextDated⟩ := @exists_dayOfMonthAfter close dueDay
      (first + (index + 1 : Nat)) (by rw [closes, monthAfter_onDay]; omega)
      (monthInRange_between closeIn lastIn (by omega) (by omega))
    obtain ⟨rest, made, dated⟩ := @inductionHypothesis close next (index + 1)
      (by omega) (by rw [closes, Nat.cast_succ]; congr 1; omega) nextDated
    refine ⟨⟨opens, close, close⟩ :: rest, ?_, ?_⟩
    · rw [pseudoCyclesFrom, nextFound, Option.bind_eq_bind, Option.bind_some, made]
      rfl
    · rw [List.map_cons, dated, List.range'_succ, List.map_cons]
      refine congrArg₂ List.cons ?_ rfl
      rw [CardCycle.dates, opened, closes]

theorem exists_derivePseudoCycles (inside : CyclesInRange today count) :
    ∃ cycles, derivePseudoCycles today dueDay count = some cycles ∧
      cycles.map CardCycle.dates = (List.range count).map fun index : Nat =>
        (onDay dueDay (monthOnOrAfter dueDay today.val + index - 1),
          onDay dueDay (monthOnOrAfter dueDay today.val + index),
          onDay dueDay (monthOnOrAfter dueDay today.val + index)) := by
  have bounds := monthOnOrAfter_bounds dueDay today.val
  obtain ⟨close, closeFound, closes⟩ := @exists_dayOfMonthOnOrAfter today dueDay _ rfl
    (inside.month (by omega) (by omega))
  obtain ⟨opens, opensFound, opened⟩ := @exists_inPrevMonth close dueDay _ _ closes
    (inside.month (by omega) (by omega))
  have lastIn := inside.month (by omega :
    today.val.month - 2 ≤ monthOnOrAfter dueDay today.val + count + 1) (by omega)
  obtain ⟨cycles, made, dated⟩ := @exists_pseudoCyclesFrom dueDay _ count lastIn opens close
    count 0 (by omega) (by rw [opened, Nat.cast_zero, Int.add_zero])
    (by rw [closes, Nat.cast_zero, Int.add_zero])
  refine ⟨cycles, ?_, ?_⟩
  · unfold derivePseudoCycles
    rw [closeFound, Option.bind_eq_bind, Option.bind_some, opensFound]
    exact made
  · rw [dated, List.range_eq_range']

/-! ### The lattice -/

/-- So many cycles whose closes go through the months on one day, whose windows are contiguous and
whose due dates ascend from today on; only the first may close before today. Every charge from today
up to the last close is in the window of one cycle, which is the one that is found for it. -/
structure ProperLattice (today : PayDates.NaiveDate) (closeDay count : Nat)
    (cycles : List CardCycle) : Prop where
  length : cycles.length = count
  monthly : ∃ first : Int, ∀ (index : Nat) (cycle : CardCycle), cycles[index]? = some cycle →
    cycle.close.val = onDay closeDay (first + index) ∧
      cycle.opens.val = onDay closeDay (first + index - 1)
  contiguous : ∀ (index : Nat) (cycle next : CardCycle), cycles[index]? = some cycle →
    cycles[index + 1]? = some next → next.opens = cycle.close
  duesAscend : ∀ (index later : Nat) (cycle next : CardCycle), index < later →
    cycles[index]? = some cycle → cycles[later]? = some next → cycle.due < next.due
  firstDue : ∀ cycle, cycles[0]? = some cycle → today ≤ cycle.due
  laterCloses : ∀ (index : Nat) (cycle : CardCycle), cycles[index + 1]? = some cycle →
    today ≤ cycle.close
  charged : ∀ charge last, cycles.getLast? = some last → today ≤ charge → charge < last.close →
    ∃ found, cycleOf cycles charge = some found ∧ ∀ (index : Nat) (cycle : CardCycle),
      cycles[index]? = some cycle → (cycle.holds charge = true ↔ index = found)

/-- Cycles are a lattice when their dates are those of a run that begins with the first close on or
after today, or with the one before it. -/
theorem properLattice_of_dates {cycles : List CardCycle} {first : Int} {paid : Nat → Int}
    (dated : cycles.map CardCycle.dates = (List.range count).map fun index : Nat =>
      (onDay closeDay (first + index - 1), onDay closeDay (first + index), onDay dueDay (paid index)))
    (early : first ≤ monthOnOrAfter closeDay today.val)
    (late : monthOnOrAfter closeDay today.val ≤ first + 1) (ascends : StrictMono paid)
    (unpaid : today.val ≤ onDay dueDay (paid 0)) : ProperLattice today closeDay count cycles := by
  have length : cycles.length = count := by
    rw [← List.length_map (f := CardCycle.dates), dated, List.length_map, List.length_range]
  have held {index : Nat} {cycle : CardCycle} (placed : cycles[index]? = some cycle) :
      index < count ∧ cycle.dates = (onDay closeDay (first + index - 1),
        onDay closeDay (first + index), onDay dueDay (paid index)) := by
    obtain ⟨inside, -⟩ := List.getElem?_eq_some_iff.mp placed
    rw [length] at inside
    have same := congrArg (·[index]?) dated
    simp only [List.getElem?_map, placed, List.getElem?_range inside, Option.map_some,
      Option.some.injEq] at same
    exact ⟨inside, same⟩
  have opened {index : Nat} {cycle : CardCycle} (placed : cycles[index]? = some cycle) :
      cycle.opens.val = onDay closeDay (first + index - 1) := congrArg Prod.fst (held placed).2
  have closes {index : Nat} {cycle : CardCycle} (placed : cycles[index]? = some cycle) :
      cycle.close.val = onDay closeDay (first + index) :=
    congrArg (fun dates => dates.2.1) (held placed).2
  have due {index : Nat} {cycle : CardCycle} (placed : cycles[index]? = some cycle) :
      cycle.due.val = onDay dueDay (paid index) := congrArg (fun dates => dates.2.2) (held placed).2
  refine ⟨length, ⟨first, fun index cycle placed => ⟨closes placed, opened placed⟩⟩, ?_, ?_, ?_, ?_,
    ?_⟩
  · intro index cycle next placed nextPlaced
    refine Subtype.ext ?_
    rw [closes placed, opened nextPlaced, Nat.cast_succ]
    congr 1
    omega
  · intro index later cycle next less placed nextPlaced
    rw [val_lt_val, due placed, due nextPlaced]
    exact onDay_strictMono dueDay (ascends less)
  · intro cycle placed
    rw [val_le_val, due placed]
    exact unpaid
  · intro index cycle placed
    rw [val_le_val, closes placed, le_onDay_iff, Nat.cast_succ]
    omega
  · intro charge last isLast atLeast before
    rw [List.getLast?_eq_getElem?] at isLast
    obtain ⟨inside, -⟩ := List.getElem?_eq_some_iff.mp isLast
    rw [val_lt_val, closes isLast] at before
    have begins : onDay closeDay (first - 1) ≤ charge.val := by
      refine le_trans ?_ (val_le_val.mp atLeast)
      exact (onDay_lt_iff.mpr (by omega)).le
    have ends : charge.val < onDay closeDay (first - 1 + (count : Nat)) := by
      rw [length] at before inside
      rwa [show first - 1 + (count : Int) = first + (count - 1 : Nat) by omega]
    obtain ⟨found, foundIn, low, high, only⟩ := exists_window begins ends
    have holds_iff {index : Nat} {cycle : CardCycle} (placed : cycles[index]? = some cycle) :
        cycle.holds charge = true ↔ index = found := by
      rw [CardCycle.holds, decide_eq_true_eq, val_le_val, val_lt_val, opened placed, closes placed,
        show first + (index : Int) - 1 = first - 1 + index by omega,
        show first + (index : Int) = first - 1 + index + 1 by omega]
      constructor
      · rintro ⟨atLeast, before⟩
        exact only index atLeast before
      · rintro rfl
        exact ⟨low, high⟩
    refine ⟨found, ?_, fun index cycle placed => holds_iff placed⟩
    have within : found < cycles.length := by rwa [length]
    refine List.findIdx?_eq_some_iff_getElem.mpr ⟨within, ?_, fun index before => ?_⟩
    · exact (holds_iff (List.getElem?_eq_getElem within)).mpr rfl
    · have placed := List.getElem?_eq_getElem (before.trans within)
      exact fun holds => absurd ((holds_iff placed).mp holds) before.ne

/-- The cycles of a card are a proper lattice, and so are those of a card without a close day. Each
payment is due after its close, or on it where the card has no close day. -/
theorem card_cycles_are_lattice (closeDay dueDay : Nat) (inside : CyclesInRange today count) :
    (∃ cycles, deriveCardCycles today closeDay dueDay count = some cycles ∧
      ProperLattice today closeDay count cycles ∧ ∀ cycle ∈ cycles, cycle.close < cycle.due) ∧
    ∃ cycles, derivePseudoCycles today dueDay count = some cycles ∧
      ProperLattice today dueDay count cycles ∧ ∀ cycle ∈ cycles, cycle.due = cycle.close := by
  constructor
  · obtain ⟨cycles, made, dated⟩ := @exists_deriveCardCycles closeDay dueDay today count inside
    have leads := @leadingMonth_bounds closeDay dueDay today.val
    refine ⟨cycles, made, properLattice_of_dates dated leads.2 (by omega)
      (strictMono_nat_of_lt_succ (paidMonth_lt_succ _)) ?_, fun cycle member => ?_⟩
    · exact today_le_leading today.val
    · have shown := List.mem_map_of_mem (f := CardCycle.dates) member
      rw [dated] at shown
      obtain ⟨index, -, same⟩ := List.mem_map.mp shown
      have closes : cycle.close.val = _ := congrArg (fun dates => dates.2.1) same.symm
      have due : cycle.due.val = _ := congrArg (fun dates => dates.2.2) same.symm
      rw [val_lt_val, closes, due]
      exact lt_onDay_iff.mpr (dueMonth_le_paidMonth _ index)
  · obtain ⟨cycles, made, dated⟩ := @exists_derivePseudoCycles dueDay today count inside
    refine ⟨cycles, made, properLattice_of_dates dated le_rfl (by omega) ?_ ?_,
      fun cycle member => ?_⟩
    · intro index later less
      dsimp only
      omega
    · exact le_onDay_iff.mpr (by omega)
    · have shown := List.mem_map_of_mem (f := CardCycle.dates) member
      rw [dated] at shown
      obtain ⟨index, -, same⟩ := List.mem_map.mp shown
      have closes : cycle.close.val = _ := congrArg (fun dates => dates.2.1) same.symm
      have due : cycle.due.val = _ := congrArg (fun dates => dates.2.2) same.symm
      exact Subtype.ext (due.trans closes.symm)

/-- A day of 2026. -/
def dateIn2026 (month day : Nat)
    (valid : 1 ≤ day ∧ day ≤ daysInMonth (12 * 2026 + (month - 1 : Nat))) (year : month ≤ 12) :
    PayDates.NaiveDate :=
  ⟨⟨12 * 2026 + (month - 1 : Nat), day, valid⟩, by
    unfold PayDates.InRange Date.year yearOf PayDates.minYear PayDates.maxYear
    dsimp only
    omega⟩

/-- Two years that close on the 30th and fall due on the 31st, from February on. -/
theorem card_cycles_are_lattice_from_february :
    (∃ cycles, deriveCardCycles (dateIn2026 2 1 (by decide) (by decide)) 30 31 24 = some cycles ∧
      ProperLattice (dateIn2026 2 1 (by decide) (by decide)) 30 24 cycles ∧
        ∀ cycle ∈ cycles, cycle.close < cycle.due) ∧
    ∃ cycles, derivePseudoCycles (dateIn2026 2 1 (by decide) (by decide)) 31 24 = some cycles ∧
      ProperLattice (dateIn2026 2 1 (by decide) (by decide)) 31 24 cycles ∧
        ∀ cycle ∈ cycles, cycle.due = cycle.close :=
  card_cycles_are_lattice 30 31 ⟨by decide, by decide⟩

end Dohflow.DbWorker
