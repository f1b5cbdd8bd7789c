/-
This file models how the date format of a whole column is inferred, and proves what it
depends on.

A cell is evidence where it is three numeric parts with a year of four digits: it has a
separator, and marks the orders that it rules in. The pass collects marks, and gives up where
two separators meet or a number does not fit. So the answer depends only on which cells there
are. A cell that is no calendar date is evidence all the same when it has that shape, and then
it changes the answer unless the others decide as it does, or contradict each other anyway.
-/

import Dohflow.Importers.CsvDates
import Mathlib.Data.List.Induction

namespace Dohflow.CsvImporter

open Calendar FixedDigits DbWorker Importers

variable {values : List (List Char)} {value : List Char} {separator : Char}
  {first second third : List Char} {run : List Char}

/-! ### Inferring a format -/

/-- A part that is digits, and at least one of them. -/
def numeric (part : List Char) : Bool := !part.isEmpty && part.all Char.isDigit

/-- A run of digits as a `u32`; `none` above the largest. -/
def parseU32 (digits : List Char) : Option Nat :=
  if Nat.ofDigitChars 10 digits 0 < 2 ^ 32 then some (Nat.ofDigitChars 10 digits 0) else none

/-- The separator and the three parts of a cell that is read; `none` where it is skipped. -/
def dateParts (value : List Char) : Option (Char × List Char × List Char × List Char) :=
  match value.find? fun char => char = '/' ∨ char = '.' ∨ char = '-' with
  | none => none
  | some separator =>
    match value.splitOn separator with
    | [first, second, third] =>
      if ¬(numeric first ∧ numeric second ∧ numeric third) ∨
          first.length ≠ 4 ∧ third.length ≠ 4 then none
      else some (separator, first, second, third)
    | _ => none

/-- What the pass has seen. -/
structure Evidence where
  separator : Option Char
  yearFirst : Bool
  monthFirst : Bool
  dayFirst : Bool

/-- One cell of the pass; `none` where the whole file is given up. -/
def inferStep (evidence : Evidence) (value : List Char) : Option Evidence :=
  match dateParts (trim value) with
  | none => some evidence
  | some (sep, first, second, _) =>
    let seen := evidence.separator.getD sep
    if seen ≠ sep then none
    else if first.length = 4 then some { evidence with separator := some seen, yearFirst := true }
    else do
      let firstNumber ← parseU32 first
      let secondNumber ← parseU32 second
      some
        { evidence with
          separator := some seen
          monthFirst := evidence.monthFirst || secondNumber > 12
          dayFirst := evidence.dayFirst || firstNumber > 12 }

/-- The format of an order with a separator. -/
def inferredText (order : DateOrder) (separator : Char) : String :=
  match order with
  | .yearFirst =>
    if separator = '/' then "%Y/%m/%d" else if separator = '.' then "%Y.%m.%d" else "%Y-%m-%d"
  | .monthFirst =>
    if separator = '/' then "%m/%d/%Y" else if separator = '.' then "%m.%d.%Y" else "%m-%d-%Y"
  | .dayFirst =>
    if separator = '/' then "%d/%m/%Y" else if separator = '.' then "%d.%m.%Y" else "%d-%m-%Y"

/-- The one order that the flags leave. -/
def Evidence.order (evidence : Evidence) : Option DateOrder :=
  match evidence.yearFirst, evidence.monthFirst, evidence.dayFirst with
  | true, false, false => some .yearFirst
  | false, true, false => some .monthFirst
  | false, false, true => some .dayFirst
  | _, _, _ => none

/-- The date format a whole column is written in, when the column itself proves it. -/
def inferDateFormat (values : List (List Char)) : Option String := do
  let evidence ← values.foldlM inferStep ⟨none, false, false, false⟩
  let separator ← evidence.separator
  let order ← evidence.order
  some (inferredText order separator)

/-! ### The marks of a cell -/

/-- What a cell is evidence of: its separator and the orders it marks; `none` for the orders where a
number does not fit. -/
structure Mark where
  separator : Char
  orders : Option (List DateOrder)

/-- The orders that the first two numbers of a cell mark. -/
def ordersOf (first second : List Char) : Option (List DateOrder) :=
  if first.length = 4 then some [.yearFirst]
  else do
    let firstNumber ← parseU32 first
    let secondNumber ← parseU32 second
    some ((if secondNumber > 12 then [.monthFirst] else []) ++
      if firstNumber > 12 then [.dayFirst] else [])

def mark (value : List Char) : Option Mark :=
  (dateParts (trim value)).map fun parts => ⟨parts.1, ordersOf parts.2.1 parts.2.2.1⟩

/-- Whether an order has been seen. -/
def Evidence.marks (evidence : Evidence) : DateOrder → Bool
  | .yearFirst => evidence.yearFirst
  | .monthFirst => evidence.monthFirst
  | .dayFirst => evidence.dayFirst

/-- A cell marks an order. -/
def Marks (value : List Char) (order : DateOrder) : Prop :=
  ∃ given orders, mark value = some given ∧ given.orders = some orders ∧ order ∈ orders

/-- A cell has a separator, and its numbers fit. -/
def Fits (separator : Char) (value : List Char) : Prop :=
  ∀ given, mark value = some given → given.separator = separator ∧ given.orders ≠ none

variable {evidence : Evidence}

theorem inferStep_skip (skipped : mark value = none) :
    inferStep evidence value = some evidence := by
  unfold mark at skipped
  rw [Option.map_eq_none_iff] at skipped
  unfold inferStep
  rw [skipped]

theorem inferStep_read {given : Mark} (read : mark value = some given) :
    inferStep evidence value =
      if evidence.separator.getD given.separator ≠ given.separator then none
      else given.orders.map fun orders =>
        { separator := some given.separator
          yearFirst := evidence.yearFirst || decide (.yearFirst ∈ orders)
          monthFirst := evidence.monthFirst || decide (.monthFirst ∈ orders)
          dayFirst := evidence.dayFirst || decide (.dayFirst ∈ orders) } := by
  unfold mark at read
  obtain ⟨⟨separator, first, second, third⟩, parts, rfl⟩ := Option.map_eq_some_iff.mp read
  unfold inferStep
  rw [parts]
  dsimp only
  split_ifs with other year
  · rfl
  · rw [not_not.mp other, ordersOf, if_pos year]
    simp
  · rw [not_not.mp other, ordersOf, if_neg year]
    cases parseU32 first with
    | none => rfl
    | some firstNumber =>
      cases parseU32 second with
      | none => rfl
      | some secondNumber =>
        by_cases month : secondNumber > 12 <;> by_cases day : firstNumber > 12 <;>
          simp [month, day]

/-! ### The evidence of a column -/

/-- What a pass has seen of the cells of a column. -/
structure Collected (values : List (List Char)) (evidence : Evidence) : Prop where
  fit : ∀ value ∈ values, ∀ given, mark value = some given →
    evidence.separator = some given.separator ∧ given.orders ≠ none
  separator : ∀ seen, evidence.separator = some seen →
    ∃ value ∈ values, ∃ given, mark value = some given ∧ given.separator = seen
  marks : ∀ order, evidence.marks order = true ↔ ∃ value ∈ values, Marks value order

theorem Collected.nil : Collected [] ⟨none, false, false, false⟩ := by
  refine ⟨List.forall_mem_nil _, fun seen none => ?_, fun order => ?_⟩
  · cases none
  · refine iff_of_false (fun seen => ?_) fun ⟨_, member, _⟩ => List.not_mem_nil member
    cases order <;> cases seen

theorem marks_of_read {given : Mark} {orders : List DateOrder} (read : mark value = some given)
    (fits : given.orders = some orders) {order : DateOrder} :
    Marks value order ↔ order ∈ orders := by
  constructor
  · rintro ⟨other, held, readOther, fitsOther, inside⟩
    rw [read] at readOther
    obtain rfl := Option.some.inj readOther
    rw [fits] at fitsOther
    obtain rfl := Option.some.inj fitsOther
    exact inside
  · exact fun inside => ⟨given, orders, read, fits, inside⟩

theorem not_marks_of_skip (skipped : mark value = none) (order : DateOrder) :
    ¬Marks value order := by
  rintro ⟨given, orders, read, -⟩
  rw [skipped] at read
  cases read

/-- A cell adds to what is seen. -/
theorem Collected.step {evidence after : Evidence} (collected : Collected values evidence)
    (stepped : inferStep evidence value = some after) : Collected (values ++ [value]) after := by
  obtain ⟨fit, separator, marks⟩ := collected
  have exists_concat {holds : List Char → Prop} :
      (∃ other ∈ values ++ [value], holds other) ↔ (∃ other ∈ values, holds other) ∨ holds value := by
    simp only [List.mem_append, List.mem_singleton, or_and_right, exists_or, exists_eq_left]
  cases read : mark value with
  | none =>
    rw [inferStep_skip read] at stepped
    obtain rfl := Option.some.inj stepped
    refine ⟨fun other member given readOther => ?_, fun seen here => ?_, fun order => ?_⟩
    · rcases List.mem_append.mp member with earlier | single
      · exact fit other earlier given readOther
      · rw [List.mem_singleton.mp single, read] at readOther
        cases readOther
    · exact exists_concat.mpr (.inl (separator seen here))
    · rw [marks, exists_concat, or_iff_left (not_marks_of_skip read order)]
  | some given =>
    rw [inferStep_read read] at stepped
    split_ifs at stepped with apart
    obtain ⟨orders, fits, rfl⟩ := Option.map_eq_some_iff.mp stepped
    refine ⟨fun other member held readOther => ?_, fun seen here => ?_, fun order => ?_⟩
    · rcases List.mem_append.mp member with earlier | single
      · obtain ⟨shared, fitsOther⟩ := fit other earlier held readOther
        rw [shared, Option.getD_some, not_not] at apart
        exact ⟨congrArg some apart.symm, fitsOther⟩
      · rw [List.mem_singleton.mp single, read] at readOther
        obtain rfl := Option.some.inj readOther
        refine ⟨rfl, ?_⟩
        rw [fits]
        exact Option.some_ne_none orders
    · exact exists_concat.mpr (.inr ⟨given, read, Option.some.inj here⟩)
    · rw [exists_concat, ← marks, marks_of_read read fits]
      cases order <;> simp [Evidence.marks]

theorem collected_of_foldlM
    (passed : values.foldlM inferStep ⟨none, false, false, false⟩ = some evidence) :
    Collected values evidence := by
  induction values using List.reverseRecOn generalizing evidence with
  | nil =>
    obtain rfl := Option.some.inj passed
    exact Collected.nil
  | append_singleton values value inductionHypothesis =>
    rw [List.foldlM_append] at passed
    obtain ⟨middle, earlier, last⟩ := Option.bind_eq_some_iff.mp passed
    rw [List.foldlM_cons] at last
    obtain ⟨reached, stepped, ended⟩ := Option.bind_eq_some_iff.mp last
    obtain rfl := Option.some.inj ended
    exact (inductionHypothesis earlier).step stepped

theorem exists_foldlM (fit : ∀ value ∈ values, Fits separator value) :
    ∃ evidence, values.foldlM inferStep ⟨none, false, false, false⟩ = some evidence := by
  induction values using List.reverseRecOn with
  | nil => exact ⟨_, rfl⟩
  | append_singleton values value inductionHypothesis =>
    obtain ⟨middle, earlier⟩ := inductionHypothesis fun other member =>
      fit other (List.mem_append_left _ member)
    have steps : ∃ after, inferStep middle value = some after := by
      cases read : mark value with
      | none => exact ⟨middle, inferStep_skip read⟩
      | some given =>
        have own := fit value (List.mem_append_right _ (List.mem_singleton_self value))
        obtain ⟨rfl, fits⟩ := own given read
        obtain ⟨orders, inside⟩ := Option.ne_none_iff_exists'.mp fits
        have shared : middle.separator.getD given.separator = given.separator := by
          cases seen : middle.separator with
          | none => rfl
          | some held =>
            obtain ⟨other, member, otherMark, readOther, rfl⟩ :=
              (collected_of_foldlM earlier).separator held seen
            exact (fit other (List.mem_append_left _ member) otherMark readOther).1
        rw [inferStep_read read, if_neg (not_not.mpr shared), inside]
        exact ⟨_, rfl⟩
    obtain ⟨after, stepped⟩ := steps
    refine ⟨after, ?_⟩
    rw [List.foldlM_append, earlier]
    refine Option.bind_eq_some_iff.mpr ⟨middle, rfl, ?_⟩
    exact Option.bind_eq_some_iff.mpr ⟨after, stepped, rfl⟩

/-! ### What decides a column -/

/-- The cells share a separator and mark one order and no other. -/
structure Decides (values : List (List Char)) (separator : Char) (order : DateOrder) : Prop where
  fit : ∀ value ∈ values, Fits separator value
  only : ∀ value ∈ values, ∀ other, Marks value other → other = order
  marked : ∃ value ∈ values, Marks value order

theorem order_eq_some {order : DateOrder} :
    evidence.order = some order ↔
      evidence.marks order = true ∧ ∀ other, evidence.marks other = true → other = order := by
  obtain ⟨separator, yearFirst, monthFirst, dayFirst⟩ := evidence
  have all {holds : DateOrder → Prop} : (∀ other, holds other) ↔
      holds .yearFirst ∧ holds .monthFirst ∧ holds .dayFirst :=
    ⟨fun every => ⟨every _, every _, every _⟩, fun ⟨year, month, day⟩ other => by
      cases other
      · exact year
      · exact month
      · exact day⟩
  rw [all]
  cases yearFirst <;> cases monthFirst <;> cases dayFirst <;> cases order <;>
    simp [Evidence.order, Evidence.marks]

theorem inferDateFormat_eq_some {text : String} :
    inferDateFormat values = some text ↔
      ∃ separator order, Decides values separator order ∧ text = inferredText order separator := by
  unfold inferDateFormat
  constructor
  · intro answered
    obtain ⟨evidence, passed, answered⟩ := Option.bind_eq_some_iff.mp answered
    obtain ⟨separator, seen, answered⟩ := Option.bind_eq_some_iff.mp answered
    obtain ⟨order, left, answered⟩ := Option.bind_eq_some_iff.mp answered
    obtain ⟨fit, -, marks⟩ := collected_of_foldlM passed
    obtain ⟨marked, only⟩ := order_eq_some.mp left
    refine ⟨separator, order, ⟨fun value member given read => ?_, fun value member other marksOther =>
      only other ((marks other).mpr ⟨value, member, marksOther⟩), (marks order).mp marked⟩,
      (Option.some.inj answered).symm⟩
    obtain ⟨shared, fits⟩ := fit value member given read
    rw [seen] at shared
    exact ⟨(Option.some.inj shared).symm, fits⟩
  · rintro ⟨separator, order, ⟨fit, only, value, member, marked⟩, rfl⟩
    obtain ⟨evidence, passed⟩ := exists_foldlM fit
    obtain ⟨fitOf, -, marks⟩ := collected_of_foldlM passed
    obtain ⟨given, orders, read, -⟩ := id marked
    have seen := (fitOf value member given read).1
    rw [(fit value member given read).1] at seen
    have left : evidence.order = some order := order_eq_some.mpr
      ⟨(marks order).mpr ⟨value, member, marked⟩, fun other seenOther => by
        obtain ⟨held, heldIn, marksOther⟩ := (marks other).mp seenOther
        exact only held heldIn other marksOther⟩
    refine Option.bind_eq_some_iff.mpr ⟨evidence, passed, ?_⟩
    refine Option.bind_eq_some_iff.mpr ⟨separator, seen, ?_⟩
    exact Option.bind_eq_some_iff.mpr ⟨order, left, rfl⟩

theorem inferDateFormat_congr {values others : List (List Char)}
    (same : ∀ value, value ∈ others ↔ value ∈ values) :
    inferDateFormat others = inferDateFormat values := by
  refine Option.ext fun text => ?_
  rw [inferDateFormat_eq_some, inferDateFormat_eq_some]
  refine exists_congr fun separator => exists_congr fun order => and_congr_left fun _ => ?_
  constructor
  · rintro ⟨fit, only, value, member, marked⟩
    exact ⟨fun other inside => fit other ((same other).mpr inside),
      fun other inside => only other ((same other).mpr inside), value, (same value).mp member, marked⟩
  · rintro ⟨fit, only, value, member, marked⟩
    exact ⟨fun other inside => fit other ((same other).mp inside),
      fun other inside => only other ((same other).mp inside), value, (same value).mpr member, marked⟩

/-! ### Inserting a cell -/

/-- The cells have two separators, a number that does not fit, or marks of two orders. -/
def Contradicts (values : List (List Char)) : Prop :=
  (∃ value ∈ values, ∃ other ∈ values, ∃ given held, mark value = some given ∧
    mark other = some held ∧ given.separator ≠ held.separator) ∨
  (∃ value ∈ values, ∃ given, mark value = some given ∧ given.orders = none) ∨
  ∃ value ∈ values, ∃ other ∈ values, ∃ first second, Marks value first ∧ Marks other second ∧
    first ≠ second

/-- No cell marks an order. -/
def Silent (values : List (List Char)) : Prop := ∀ value ∈ values, ∀ order, ¬Marks value order

theorem exists_decides :
    (∃ separator order, Decides values separator order) ↔ ¬Contradicts values ∧ ¬Silent values := by
  constructor
  · rintro ⟨separator, order, ⟨fit, only, value, member, marked⟩⟩
    refine ⟨?_, fun silent => silent value member order marked⟩
    rintro (⟨one, oneIn, two, twoIn, given, held, readOne, readTwo, apart⟩ |
      ⟨one, oneIn, given, readOne, none⟩ | ⟨one, oneIn, two, twoIn, first, second, marksOne, marksTwo,
        apart⟩)
    · exact apart ((fit one oneIn given readOne).1.trans (fit two twoIn held readTwo).1.symm)
    · exact (fit one oneIn given readOne).2 none
    · exact apart ((only one oneIn first marksOne).trans (only two twoIn second marksTwo).symm)
  · rintro ⟨consistent, spoken⟩
    unfold Contradicts at consistent
    unfold Silent at spoken
    push Not at consistent spoken
    obtain ⟨separators, fits, orders⟩ := consistent
    obtain ⟨value, member, order, marked⟩ := spoken
    obtain ⟨given, held, read, -⟩ := id marked
    refine ⟨given.separator, order, fun other inside otherGiven readOther => ⟨?_, ?_⟩, ?_, value,
      member, marked⟩
    · exact separators other inside value member otherGiven given readOther read
    · exact fits other inside otherGiven readOther
    · exact fun other inside orderOther marks => orders other inside value member orderOther order
        marks marked

theorem inferDateFormat_eq_none :
    inferDateFormat values = none ↔ Contradicts values ∨ Silent values := by
  rw [← not_iff_not, ← ne_eq, Option.ne_none_iff_exists', not_or, ← exists_decides]
  constructor
  · rintro ⟨text, answered⟩
    obtain ⟨separator, order, decides, -⟩ := inferDateFormat_eq_some.mp answered
    exact ⟨separator, order, decides⟩
  · rintro ⟨separator, order, decides⟩
    exact ⟨_, inferDateFormat_eq_some.mpr ⟨separator, order, decides, rfl⟩⟩

/-- A cell changes no answer beside the others: it is skipped; or they contradict each other; or
they decide, and it fits and marks no other order; or they mark no order, and neither does it or it
contradicts itself or them. -/
def Harmless (values : List (List Char)) (value : List Char) : Prop :=
  mark value = none ∨ Contradicts values ∨
    (∃ separator order, Decides values separator order ∧ Fits separator value ∧
      ∀ other, Marks value other → other = order) ∨
    Silent values ∧ (Contradicts (value :: values) ∨ ∀ order, ¬Marks value order)

theorem Contradicts.cons {values : List (List Char)} (contradicts : Contradicts values)
    (value : List Char) : Contradicts (value :: values) := by
  rcases contradicts with ⟨one, oneIn, two, twoIn, rest⟩ | ⟨one, oneIn, rest⟩ |
    ⟨one, oneIn, two, twoIn, rest⟩
  · exact .inl ⟨one, List.mem_cons_of_mem _ oneIn, two, List.mem_cons_of_mem _ twoIn, rest⟩
  · exact .inr (.inl ⟨one, List.mem_cons_of_mem _ oneIn, rest⟩)
  · exact .inr (.inr ⟨one, List.mem_cons_of_mem _ oneIn, two, List.mem_cons_of_mem _ twoIn, rest⟩)

theorem fits_of_skip (skipped : mark value = none) (separator : Char) : Fits separator value := by
  intro given read
  rw [skipped] at read
  cases read

theorem decides_cons {order : DateOrder} (fits : Fits separator value)
    (marks : ∀ other, Marks value other → other = order) :
    Decides values separator order → Decides (value :: values) separator order := by
  rintro ⟨fit, only, held, heldIn, marked⟩
  exact ⟨List.forall_mem_cons.mpr ⟨fits, fit⟩, List.forall_mem_cons.mpr ⟨marks, only⟩, held,
    List.mem_cons_of_mem _ heldIn, marked⟩

/-- A cell leaves the answer just where it is harmless. -/
theorem inferDateFormat_cons_iff :
    inferDateFormat (value :: values) = inferDateFormat values ↔ Harmless values value := by
  constructor
  · intro same
    cases answer : inferDateFormat values with
    | none =>
      rw [answer] at same
      rcases inferDateFormat_eq_none.mp answer with contradicts | silent
      · exact .inr (.inl contradicts)
      · refine .inr (.inr (.inr ⟨silent, ?_⟩))
        rcases inferDateFormat_eq_none.mp same with contradicts | silentToo
        · exact .inl contradicts
        · exact .inr (silentToo value List.mem_cons_self)
    | some text =>
      rw [answer] at same
      obtain ⟨separator, order, decides, -⟩ := inferDateFormat_eq_some.mp answer
      obtain ⟨separatorToo, orderToo, decidesToo, -⟩ := inferDateFormat_eq_some.mp same
      -- The longer column decides as the cells do, for they mark an order.
      have sameSeparator : separator = separatorToo := by
        obtain ⟨held, heldIn, given, orders, read, -⟩ := decides.marked
        exact (decides.fit held heldIn given read).1.symm.trans
          (decidesToo.fit held (List.mem_cons_of_mem _ heldIn) given read).1
      have sameOrder : order = orderToo := by
        obtain ⟨held, heldIn, marked⟩ := decides.marked
        exact decidesToo.only held (List.mem_cons_of_mem _ heldIn) order marked
      subst sameSeparator sameOrder
      exact .inr (.inr (.inl ⟨separator, order, decides, decidesToo.fit value List.mem_cons_self,
        decidesToo.only value List.mem_cons_self⟩))
  · rintro (skipped | contradicts | ⟨separator, order, decides, fits, marks⟩ | ⟨silent, quiet⟩)
    · refine Option.ext fun text => ?_
      rw [inferDateFormat_eq_some, inferDateFormat_eq_some]
      refine exists_congr fun separator => exists_congr fun order => and_congr_left fun _ => ?_
      refine ⟨?_, decides_cons (fits_of_skip skipped separator) fun other marks =>
        absurd marks (not_marks_of_skip skipped other)⟩
      rintro ⟨fit, only, held, heldIn, marked⟩
      refine ⟨(List.forall_mem_cons.mp fit).2, (List.forall_mem_cons.mp only).2, held, ?_, marked⟩
      refine (List.mem_cons.mp heldIn).resolve_left ?_
      rintro rfl
      exact not_marks_of_skip skipped order marked
    · rw [inferDateFormat_eq_none.mpr (.inl contradicts),
        inferDateFormat_eq_none.mpr (.inl (contradicts.cons value))]
    · rw [inferDateFormat_eq_some.mpr ⟨separator, order, decides, rfl⟩,
        inferDateFormat_eq_some.mpr ⟨separator, order, decides_cons fits marks decides, rfl⟩]
    · rw [inferDateFormat_eq_none.mpr (.inr silent)]
      refine inferDateFormat_eq_none.mpr (quiet.imp_right fun none => ?_)
      exact List.forall_mem_cons.mpr ⟨none, silent⟩

/-! ### Cells that are dates -/

/-- A cell is a date in an order: a year of four digits, a month and a day of one or two. -/
def Written (order : DateOrder) (separator : Char) (date : Date) (value : List Char) : Prop :=
  IsSeparator separator ∧ ∃ year month day, IsRun year ∧ IsRun month ∧ IsRun day ∧
    year.length = 4 ∧ month.length ≤ 2 ∧ day.length ≤ 2 ∧
    trim value = order.arranged separator year month day ∧
    dateIn (yearIn .full year) (numberIn 2 month) (numberIn 2 day) = some date

def IsCalendarDate (value : List Char) : Prop :=
  ∃ order separator date, Written order separator date value

/-- Two orders have the year in the same place. -/
def SameFamily (order other : DateOrder) : Prop := order = .yearFirst ↔ other = .yearFirst

theorem numeric_of_isRun (digits : IsRun run) : numeric run = true := by
  unfold numeric
  rw [Bool.and_eq_true, Bool.not_eq_true', List.isEmpty_eq_false_iff, List.all_eq_true]
  exact digits

theorem find_separator {first rest : List Char} (separates : IsSeparator separator)
    (digits : IsRun first) :
    ((first ++ separator :: rest).find? fun char => char = '/' ∨ char = '.' ∨ char = '-') =
      some separator := by
  rw [List.find?_append, List.find?_eq_none.mpr, Option.none_or, List.find?_cons_of_pos]
  · exact decide_eq_true separates
  · intro char member found
    rw [decide_eq_true_eq] at found
    exact separator_not_mem found digits member

theorem dateParts_joined (separates : IsSeparator separator) (firstRun : IsRun first)
    (secondRun : IsRun second) (thirdRun : IsRun third) (year : first.length = 4 ∨ third.length = 4) :
    dateParts (joined separator first second third) = some (separator, first, second, third) := by
  unfold dateParts
  rw [show (joined separator first second third).find? _ = some separator from
    find_separator separates firstRun]
  dsimp only
  rw [splitOn_joined separates firstRun secondRun thirdRun]
  dsimp only
  rw [if_neg]
  rintro (odd | ⟨notFirst, notThird⟩)
  · exact odd ⟨numeric_of_isRun firstRun, numeric_of_isRun secondRun, numeric_of_isRun thirdRun⟩
  · exact year.elim notFirst notThird

theorem inferredText_eq {order : DateOrder} (separates : IsSeparator separator) :
    inferredText order separator = (DateFormat.mk order .full separator).text := by
  rcases separates with rfl | rfl | rfl <;> cases order <;> rfl

theorem parseU32_short (digits : IsRun run) (short : run.length ≤ 2) :
    parseU32 run = some (Nat.ofDigitChars 10 run 0) := by
  have below := ofDigitChars_lt digits.2
  have power : 10 ^ run.length ≤ 10 ^ 2 := Nat.pow_le_pow_right (by decide) short
  unfold parseU32
  rw [if_pos (by omega)]

theorem numberIn_short (short : run.length ≤ 2) :
    numberIn 2 run = some (Nat.ofDigitChars 10 run 0) := if_pos short

theorem mark_of_joined (separates : IsSeparator separator) (firstRun : IsRun first)
    (secondRun : IsRun second) (thirdRun : IsRun third) (year : first.length = 4 ∨ third.length = 4)
    (written : trim value = joined separator first second third) :
    mark value = some ⟨separator, ordersOf first second⟩ := by
  unfold mark
  rw [written, dateParts_joined separates firstRun secondRun thirdRun year]
  rfl

theorem marks_of_number (separates : IsSeparator separator) (firstRun : IsRun first)
    (secondRun : IsRun second) (thirdRun : IsRun third) (firstShort : first.length ≤ 2)
    (secondShort : second.length ≤ 2) (year : third.length = 4)
    (written : trim value = joined separator first second third) :
    (Nat.ofDigitChars 10 first 0 > 12 → Marks value .dayFirst) ∧
      (Nat.ofDigitChars 10 second 0 > 12 → Marks value .monthFirst) := by
  have read := mark_of_joined separates firstRun secondRun thirdRun (.inr year) written
  have late : first.length ≠ 4 := by omega
  unfold ordersOf at read
  rw [if_neg late, parseU32_short firstRun firstShort, parseU32_short secondRun secondShort] at read
  refine ⟨fun above => ⟨_, _, read, rfl, ?_⟩, fun above => ⟨_, _, read, rfl, ?_⟩⟩
  · rw [if_pos above]
    exact List.mem_append_right _ (List.mem_singleton_self _)
  · rw [if_pos above]
    exact List.mem_append_left _ (List.mem_singleton_self _)

theorem exists_dateIn_swapped {year : Option Int} {first second : Nat} {date : Date}
    (made : dateIn year (some first) (some second) = some date) (month : second ≤ 12) :
    ∃ found, dateIn year (some second) (some first) = some found := by
  obtain rfl := year_of_dateIn made
  obtain ⟨-, monthIs, dayIs⟩ := ofYmd_eq_some.mp made
  have months := monthOfYear_le date
  have valid := date.valid
  have long := le_daysInMonth (12 * date.year + (second - 1 : Nat))
  exact exists_ofYmd (by omega) month (by omega) (by omega)

/-- A date in a column that decides is read by the column's format where its year stands in the
same place. -/
theorem Decides.read {parseFromStr : List Char → String → Option Date}
    (reads : ReadsDates parseFromStr) {separator other : Char} {column order : DateOrder}
    {date : Date} (decides : Decides values separator column) (member : value ∈ values)
    (written : Written order other date value) (family : SameFamily order column) :
    ∃ found, parseFromStr (trim value) (inferredText column separator) = some found := by
  obtain ⟨separates, year, month, day, yearRun, monthRun, dayRun, four, monthShort, dayShort, text,
    made⟩ := written
  have only := decides.only value member
  have shared {first second third : List Char} (firstRun : IsRun first) (secondRun : IsRun second)
      (thirdRun : IsRun third) (yearPlace : first.length = 4 ∨ third.length = 4)
      (written : trim value = joined other first second third) : other = separator :=
    (decides.fit value member _
      (mark_of_joined separates firstRun secondRun thirdRun yearPlace written)).1
  have reading {first second third : List Char} (firstRun : IsRun first) (secondRun : IsRun second)
      (thirdRun : IsRun third) (yearPlace : first.length = 4 ∨ third.length = 4)
      (written : trim value = joined other first second third) :
      parseFromStr (trim value) (inferredText column separator) =
        DateFormat.dateOf ⟨column, .full, separator⟩ first second third := by
    have same := shared firstRun secondRun thirdRun yearPlace written
    rw [← same, inferredText_eq separates, written]
    exact (reads _ other first second third separates separates firstRun secondRun thirdRun).trans
      (if_pos rfl)
  cases order with
  | yearFirst =>
    rw [reading yearRun monthRun dayRun (.inl four) text, family.mp rfl]
    exact ⟨date, made⟩
  | monthFirst =>
    have numbers := marks_of_number separates monthRun dayRun yearRun monthShort dayShort four text
    rw [reading monthRun dayRun yearRun (.inr four) text]
    cases column with
    | yearFirst => cases family.mpr rfl
    | monthFirst => exact ⟨date, made⟩
    | dayFirst =>
      rw [numberIn_short monthShort, numberIn_short dayShort] at made
      unfold DateFormat.dateOf
      dsimp only
      rw [numberIn_short monthShort, numberIn_short dayShort]
      refine exists_dateIn_swapped made (Nat.not_lt.mp fun above => ?_)
      cases only .monthFirst (numbers.2 above)
  | dayFirst =>
    have numbers := marks_of_number separates dayRun monthRun yearRun dayShort monthShort four text
    rw [reading dayRun monthRun yearRun (.inr four) text]
    cases column with
    | yearFirst => cases family.mpr rfl
    | dayFirst => exact ⟨date, made⟩
    | monthFirst =>
      rw [numberIn_short monthShort, numberIn_short dayShort] at made
      unfold DateFormat.dateOf
      dsimp only
      rw [numberIn_short monthShort, numberIn_short dayShort]
      refine exists_dateIn_swapped made (Nat.not_lt.mp fun above => ?_)
      cases only .dayFirst (numbers.1 above)

/-! ### The column's answer -/

/-- The answer for a column depends on which cells there are, reads every date of its family, and is
not changed by a cell between two parts of the column. -/
structure DecidedByReadable (parseFromStr : List Char → String → Option Date)
    (before after : List (List Char)) (value : List Char) : Prop where
  settled : ∀ others, (∀ cell, cell ∈ others ↔ cell ∈ before ++ after) →
    inferDateFormat others = inferDateFormat (before ++ after)
  parsed : ∀ text, inferDateFormat (before ++ after) = some text →
    ∃ separator column, text = inferredText column separator ∧
      ∀ cell ∈ before ++ after, ∀ order other date, Written order other date cell →
        SameFamily order column → ∃ found, parseFromStr (trim cell) text = some found
  unchanged : inferDateFormat (before ++ value :: after) = inferDateFormat (before ++ after)

/-- The format of a column is decided by its readable cells just where a cell between them, be it a
date or not, is harmless beside them. -/
theorem column_decided_iff {parseFromStr : List Char → String → Option Date}
    (reads : ReadsDates parseFromStr) (before after : List (List Char)) (value : List Char) :
    DecidedByReadable parseFromStr before after value ↔ Harmless (before ++ after) value := by
  have moved : inferDateFormat (before ++ value :: after) =
      inferDateFormat (value :: (before ++ after)) :=
    inferDateFormat_congr fun cell => by
      rw [List.mem_append, List.mem_cons, List.mem_cons, List.mem_append]
      exact or_left_comm
  rw [← inferDateFormat_cons_iff, ← moved]
  constructor
  · exact DecidedByReadable.unchanged
  · intro unchanged
    refine ⟨fun others same => inferDateFormat_congr same, fun text answered => ?_, unchanged⟩
    obtain ⟨separator, column, decides, rfl⟩ := inferDateFormat_eq_some.mp answered
    exact ⟨separator, column, rfl, fun cell member order other date written family =>
      decides.read reads member written family⟩

/-- Beside a cell that decides, a word is skipped. -/
theorem word_is_harmless :
    DecidedByReadable readDates [['1', '3', '/', '0', '6', '/', '2', '0', '2', '6']] []
      ['J', 'u', 'n', 'e'] :=
  (column_decided_iff readsDates_readDates [['1', '3', '/', '0', '6', '/', '2', '0', '2', '6']] []
    ['J', 'u', 'n', 'e']).mpr (.inl rfl)

/-- A cell whose first part does not fit is no date, and costs the column its order. -/
theorem overlong_cell_undecides :
    ∃ (parseFromStr : List Char → String → Option Date) (before after : List (List Char))
      (value : List Char), ReadsDates parseFromStr ∧ ¬IsCalendarDate value ∧
      value = ['9', '9', '9', '9', '9', '9', '9', '9', '9', '9', '/', '1', '/', '2', '0', '2', '6'] ∧
      inferDateFormat (before ++ after) = some "%d/%m/%Y" ∧
      inferDateFormat (before ++ value :: after) = none ∧
      ¬DecidedByReadable parseFromStr before after value := by
  have decided : inferDateFormat ([['1', '3', '/', '0', '6', '/', '2', '0', '2', '6']] ++ []) =
      some "%d/%m/%Y" := by decide +kernel
  have undecided : inferDateFormat ([['1', '3', '/', '0', '6', '/', '2', '0', '2', '6']] ++
      ['9', '9', '9', '9', '9', '9', '9', '9', '9', '9', '/', '1', '/', '2', '0', '2', '6'] :: []) =
      none := by decide +kernel
  refine ⟨readDates, _, [], _, readsDates_readDates, ?_, rfl, decided, undecided, fun kept => ?_⟩
  · rintro ⟨order, separator, date, separates, year, month, day, yearRun, monthRun, dayRun, four,
      monthShort, dayShort, written, -⟩
    have parts : dateParts (trim
        ['9', '9', '9', '9', '9', '9', '9', '9', '9', '9', '/', '1', '/', '2', '0', '2', '6']) =
        some ('/', List.replicate 10 '9', ['1'], ['2', '0', '2', '6']) := by decide +kernel
    rw [written] at parts
    -- The first part would be the year, the month or the day.
    cases order with
    | yearFirst =>
      have same := (dateParts_joined separates yearRun monthRun dayRun (.inl four)).symm.trans parts
      simp only [Option.some.injEq, Prod.mk.injEq] at same
      rw [same.2.1] at four
      cases four
    | monthFirst =>
      have same := (dateParts_joined separates monthRun dayRun yearRun (.inr four)).symm.trans parts
      simp only [Option.some.injEq, Prod.mk.injEq] at same
      rw [same.2.1] at monthShort
      exact absurd monthShort (by decide)
    | dayFirst =>
      have same := (dateParts_joined separates dayRun monthRun yearRun (.inr four)).symm.trans parts
      simp only [Option.some.injEq, Prod.mk.injEq] at same
      rw [same.2.1] at dayShort
      exact absurd dayShort (by decide)
  · have same := kept.unchanged
    rw [decided, undecided] at same
    cases same

end Dohflow.CsvImporter
