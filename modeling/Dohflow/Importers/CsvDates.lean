/-
This file models how a date cell of a CSV file is read, and proves when it is read right.

A format is three directives with a separator between them, and what the time library makes
of three runs of digits under one is documented. Four formats are tried beside a hint, a
month-first and a day-first one with a year of up to four digits and each once more with a
year of two. As a year of two digits is also one of up to four, the formats for two digits
are never reached, and such a cell is read as a date of the first century. A cell with a
year of four digits is read right, or as an ambiguous one.
-/

import Dohflow.Foundation.Calendar
import Dohflow.Foundation.FixedDigits
import Dohflow.Importers.AmountSpellings

namespace Dohflow.CsvImporter

open Calendar FixedDigits DbWorker Importers

/-! ### Formats -/

inductive DateOrder
  | yearFirst
  | monthFirst
  | dayFirst
  deriving DecidableEq

/-- `%Y` and `%y` -/
inductive YearDirective
  | full
  | pivoted
  deriving DecidableEq

/-- Three directives with a separator between them. -/
structure DateFormat where
  order : DateOrder
  year : YearDirective
  separator : Char

def YearDirective.text : YearDirective → List Char
  | .full => ['%', 'Y']
  | .pivoted => ['%', 'y']

def joined (separator : Char) (first second third : List Char) : List Char :=
  first ++ separator :: (second ++ separator :: third)

/-- A year, a month and a day joined in an order. -/
def DateOrder.arranged (order : DateOrder) (separator : Char) (year month day : List Char) :
    List Char :=
  match order with
  | .yearFirst => joined separator year month day
  | .monthFirst => joined separator month day year
  | .dayFirst => joined separator day month year

def DateFormat.text (format : DateFormat) : String :=
  String.ofList (format.order.arranged format.separator format.year.text ['%', 'm'] ['%', 'd'])

/-! ### What the time library reads -/

/-- A run of digits that is not longer than its directive takes. -/
def numberIn (width : Nat) (run : List Char) : Option Nat :=
  if run.length ≤ width then some (Nat.ofDigitChars 10 run 0) else none

/-- `%Y` takes up to four digits and accepts fewer, `%y` two with the pivot of 1970. -/
def yearIn : YearDirective → List Char → Option Int
  | .full, run => (numberIn 4 run).map fun year : Nat => (year : Int)
  | .pivoted, run => (numberIn 2 run).map fun year : Nat =>
      if year < 70 then (year : Int) + 2000 else (year : Int) + 1900

def dateIn (year : Option Int) (month day : Option Nat) : Option Date := do
  Date.ofYmd (← year) (← month) (← day)

/-- The date of three runs of digits under a format. -/
def DateFormat.dateOf (format : DateFormat) (first second third : List Char) : Option Date :=
  match format.order with
  | .yearFirst => dateIn (yearIn format.year first) (numberIn 2 second) (numberIn 2 third)
  | .monthFirst => dateIn (yearIn format.year third) (numberIn 2 first) (numberIn 2 second)
  | .dayFirst => dateIn (yearIn format.year third) (numberIn 2 second) (numberIn 2 first)

def IsSeparator (char : Char) : Prop := char = '/' ∨ char = '.' ∨ char = '-'

/-- Digits, and at least one of them. -/
def IsRun (text : List Char) : Prop := text ≠ [] ∧ ∀ char ∈ text, char.isDigit = true

/-- What the time library promises of three runs of digits: each directive takes its run whole, and
the separators are the format's. -/
def ReadsDates (parseFromStr : List Char → String → Option Date) : Prop :=
  ∀ (format : DateFormat) (separator : Char) (first second third : List Char),
    IsSeparator format.separator → IsSeparator separator →
    IsRun first → IsRun second → IsRun third →
    parseFromStr (joined separator first second third) format.text =
      if separator = format.separator then format.dateOf first second third else none

/-! ### Reading a cell -/

variable (parseFromStr : List Char → String → Option Date)

/-- A date that is read month-first, day-first or both ways. -/
def bothWays (us eu : Option Date) : Option (Date × Nat) :=
  match us, eu with
  | some u, some e => if u = e then some (u, 9000) else some (u, 5000)
  | some u, none => some (u, 9000)
  | none, some e => some (e, 9000)
  | none, none => none

/-- A date with a confidence in basis points. -/
def parseDate (raw : List Char) (hintFormat : Option String) : Option (Date × Nat) :=
  let trimmed := trim raw
  if trimmed = [] then none
  else
    match hintFormat.bind (parseFromStr trimmed) with
    | some date => some (date, 10000)
    | none =>
      match parseFromStr trimmed "%Y-%m-%d" with
      | some date => some (date, 10000)
      | none =>
        bothWays ((parseFromStr trimmed "%m/%d/%Y").or (parseFromStr trimmed "%m/%d/%y"))
          ((parseFromStr trimmed "%d/%m/%Y").or (parseFromStr trimmed "%d/%m/%y"))

/-! ### Renderings of a date -/

inductive DateStyle
  | iso
  | monthFirst
  | dayFirst
  | monthFirstShort
  | dayFirstShort

def DateStyle.format : DateStyle → DateFormat
  | .iso => ⟨.yearFirst, .full, '-'⟩
  | .monthFirst => ⟨.monthFirst, .full, '/'⟩
  | .dayFirst => ⟨.dayFirst, .full, '/'⟩
  | .monthFirstShort => ⟨.monthFirst, .pivoted, '/'⟩
  | .dayFirstShort => ⟨.dayFirst, .pivoted, '/'⟩

/-- How a date is written: its style, and whether the month and the day are filled up with a zero. -/
structure Rendering where
  style : DateStyle
  padMonth : Bool
  padDay : Bool

/-- A month or a day, with or without a zero before a single digit. -/
def spelled (pad : Bool) (value : Nat) : List Char :=
  if pad then fixed 2 value else Nat.toDigits 10 value

def spelledYear : YearDirective → Int → List Char
  | .full, year => fixed 4 year.toNat
  | .pivoted, year => fixed 2 year.toNat

def Rendering.text (rendering : Rendering) (date : Date) : List Char :=
  let format := rendering.style.format
  format.order.arranged format.separator (spelledYear format.year date.year)
    (spelled rendering.padMonth date.monthOfYear) (spelled rendering.padDay date.day)

/-! ### Numbers -/

theorem ofDigitChars_fixed (width value : Nat) :
    Nat.ofDigitChars 10 (fixed width value) 0 = value % 10 ^ width := by
  induction width generalizing value with
  | zero => rw [fixed, Nat.ofDigitChars_nil, Nat.pow_zero, Nat.mod_one]
  | succ width inductionHypothesis =>
    have digit : ∀ digit < 10, Nat.ofDigitChars 10 [Nat.digitChar digit] 0 = digit := by decide
    rw [fixed, ofDigitChars_append_zero, inductionHypothesis,
      digit _ (Nat.mod_lt _ (by decide)), List.length_singleton, Nat.pow_one, Nat.pow_succ',
      Nat.mod_mul, Nat.add_comm]

theorem isDigit_digitChar : ∀ digit < 10, (Nat.digitChar digit).isDigit = true := by decide

theorem isDigit_of_mem_fixed {width value : Nat} {char : Char} (member : char ∈ fixed width value) :
    char.isDigit = true := by
  induction width generalizing value with
  | zero => exact absurd member List.not_mem_nil
  | succ width inductionHypothesis =>
    rcases List.mem_append.mp member with front | last
    · exact inductionHypothesis front
    · rw [List.mem_singleton.mp last]
      exact isDigit_digitChar _ (Nat.mod_lt _ (by decide))

theorem isRun_fixed {width : Nat} (positive : 0 < width) (value : Nat) :
    IsRun (fixed width value) := by
  refine ⟨fun empty => ?_, fun char member => isDigit_of_mem_fixed member⟩
  have none := length_fixed width value
  rw [empty, List.length_nil] at none
  omega

theorem isRun_spelled (pad : Bool) (value : Nat) : IsRun (spelled pad value) := by
  unfold spelled
  split_ifs
  · exact isRun_fixed (by decide) value
  · exact ⟨Nat.toDigits_ne_nil, fun char member =>
      Nat.isDigit_of_mem_toDigits (by decide) (by decide) member⟩

theorem isRun_spelledYear (directive : YearDirective) (year : Int) :
    IsRun (spelledYear directive year) := by
  cases directive with
  | full => exact isRun_fixed (by decide) _
  | pivoted => exact isRun_fixed (by decide) _

theorem numberIn_spelled {pad : Bool} {value : Nat} (below : value < 100) :
    numberIn 2 (spelled pad value) = some value := by
  unfold numberIn spelled
  split_ifs with padded fits fits
  · rw [ofDigitChars_fixed, Nat.mod_eq_of_lt (show value < 10 ^ 2 from below)]
  · exact absurd (length_fixed 2 value).le fits
  · rw [Nat.ofDigitChars_ten_toDigits]
  · exact absurd ((Nat.length_toDigits_le_iff (by decide) (by decide)).mpr below) fits

theorem yearIn_full {year : Int} (low : 0 ≤ year) (high : year < 10000) :
    yearIn .full (fixed 4 year.toNat) = some year := by
  have below : year.toNat < 10 ^ 4 := by omega
  rw [yearIn, numberIn, if_pos (length_fixed 4 _).le, ofDigitChars_fixed, Nat.mod_eq_of_lt below,
    Option.map_some, Int.toNat_of_nonneg low]

theorem yearIn_full_short {year : Int} (low : 0 ≤ year) :
    yearIn .full (fixed 2 year.toNat) = some (year % 100) := by
  have century : ((year.toNat % 10 ^ 2 : Nat) : Int) = year % 100 := by omega
  rw [yearIn, numberIn, if_pos (by rw [length_fixed]; decide), ofDigitChars_fixed, Option.map_some,
    century]

theorem yearIn_pivoted_long (year : Nat) : yearIn .pivoted (fixed 4 year) = none := by
  rw [yearIn, numberIn, if_neg (by rw [length_fixed]; decide), Option.map_none]

theorem yearIn_pivoted {year : Int} (low : 1970 ≤ year) (high : year ≤ 2068) :
    yearIn .pivoted (fixed 2 year.toNat) = some year := by
  rw [yearIn, numberIn, if_pos (length_fixed 2 _).le, ofDigitChars_fixed, Option.map_some]
  split_ifs with century
  · exact congrArg some (by omega)
  · exact congrArg some (by omega)

/-! ### Dates of three numbers -/

theorem ofYmd_eq_some {year : Int} {month day : Nat} {date : Date} :
    Date.ofYmd year month day = some date ↔
      date.year = year ∧ date.monthOfYear = month ∧ date.day = day := by
  unfold Date.ofYmd Date.year Date.monthOfYear yearOf
  constructor
  · intro made
    split_ifs at made with inside valid
    obtain rfl := Option.some.inj made
    dsimp only
    omega
  · rintro ⟨rfl, rfl, rfl⟩
    have month : 12 * (date.month / 12) + (((date.month % 12).toNat + 1 - 1 : Nat) : Int) =
        date.month := by omega
    rw [if_pos (by omega), dif_pos (by rw [month]; exact date.valid)]
    exact congrArg some (Date.ext month rfl)

theorem exists_ofYmd {year : Int} {month day : Nat} (low : 1 ≤ month) (high : month ≤ 12)
    (first : 1 ≤ day) (last : day ≤ daysInMonth (12 * year + (month - 1 : Nat))) :
    ∃ date, Date.ofYmd year month day = some date := by
  unfold Date.ofYmd
  rw [if_pos ⟨low, high⟩, dif_pos ⟨first, last⟩]
  exact ⟨_, rfl⟩

theorem monthOfYear_le (date : Date) : 1 ≤ date.monthOfYear ∧ date.monthOfYear ≤ 12 := by
  unfold Date.monthOfYear
  omega

theorem daysInMonth_century {year : Int} (low : 1970 ≤ year) (high : year ≤ 2068) (month : Nat)
    (inside : month < 12) :
    daysInMonth (12 * (year % 100) + month) = daysInMonth (12 * year + month) := by
  have leap : isLeap (year % 100) = isLeap year := by
    rw [Bool.eq_iff_iff]
    simp only [isLeap, Bool.and_eq_true, Bool.or_eq_true, decide_eq_true_eq, ne_eq]
    omega
  unfold daysInMonth yearOf
  rw [show (12 * (year % 100) + (month : Int)) / 12 = year % 100 by omega,
    show (12 * year + (month : Int)) / 12 = year by omega, leap,
    show (12 * (year % 100) + (month : Int)) % 12 = (12 * year + month) % 12 by omega]

/-! ### Cells of three runs -/

theorem isWhitespace_of_isSeparator {char : Char} (separates : IsSeparator char) :
    isWhitespace char = false := by
  rcases separates with rfl | rfl | rfl <;> rfl

theorem mem_joined {separator char : Char} {first second third : List Char} :
    char ∈ joined separator first second third ↔
      char = separator ∨ char ∈ first ∨ char ∈ second ∨ char ∈ third := by
  simp only [joined, List.mem_append, List.mem_cons]
  tauto

theorem trim_joined {separator : Char} {first second third : List Char}
    (separates : IsSeparator separator) (firstRun : IsRun first) (secondRun : IsRun second)
    (thirdRun : IsRun third) :
    trim (joined separator first second third) = joined separator first second third := by
  refine trim_eq fun char member => ?_
  rcases mem_joined.mp member with rfl | inside | inside | inside
  · exact isWhitespace_of_isSeparator separates
  · exact isWhitespace_of_isDigit (firstRun.2 char inside)
  · exact isWhitespace_of_isDigit (secondRun.2 char inside)
  · exact isWhitespace_of_isDigit (thirdRun.2 char inside)

theorem joined_ne_nil (separator : Char) (first second third : List Char) :
    joined separator first second third ≠ [] :=
  List.append_ne_nil_of_right_ne_nil _ (List.cons_ne_nil _ _)

theorem trim_arranged {order : DateOrder} {separator : Char} {year month day : List Char}
    (separates : IsSeparator separator) (yearRun : IsRun year) (monthRun : IsRun month)
    (dayRun : IsRun day) :
    trim (order.arranged separator year month day) = order.arranged separator year month day := by
  cases order with
  | yearFirst => exact trim_joined separates yearRun monthRun dayRun
  | monthFirst => exact trim_joined separates monthRun dayRun yearRun
  | dayFirst => exact trim_joined separates dayRun monthRun yearRun

theorem arranged_ne_nil (order : DateOrder) (separator : Char) (year month day : List Char) :
    order.arranged separator year month day ≠ [] := by
  cases order with
  | yearFirst => exact joined_ne_nil _ _ _ _
  | monthFirst => exact joined_ne_nil _ _ _ _
  | dayFirst => exact joined_ne_nil _ _ _ _

variable {parseFromStr}

section

variable {first second : Nat} {padFirst padSecond : Bool} {year : List Char}

theorem read_monthFirst (reads : ReadsDates parseFromStr) (firstBelow : first < 100)
    (secondBelow : second < 100) (yearRun : IsRun year) (directive : YearDirective) :
    parseFromStr (joined '/' (spelled padFirst first) (spelled padSecond second) year)
        (DateFormat.text ⟨.monthFirst, directive, '/'⟩) =
      dateIn (yearIn directive year) first second := by
  rw [reads _ '/' _ _ _ (.inl rfl) (.inl rfl) (isRun_spelled _ _) (isRun_spelled _ _) yearRun,
    if_pos rfl, DateFormat.dateOf]
  dsimp only
  rw [numberIn_spelled firstBelow, numberIn_spelled secondBelow]

theorem read_dayFirst (reads : ReadsDates parseFromStr) (firstBelow : first < 100)
    (secondBelow : second < 100) (yearRun : IsRun year) (directive : YearDirective) :
    parseFromStr (joined '/' (spelled padFirst first) (spelled padSecond second) year)
        (DateFormat.text ⟨.dayFirst, directive, '/'⟩) =
      dateIn (yearIn directive year) second first := by
  rw [reads _ '/' _ _ _ (.inl rfl) (.inl rfl) (isRun_spelled _ _) (isRun_spelled _ _) yearRun,
    if_pos rfl, DateFormat.dateOf]
  dsimp only
  rw [numberIn_spelled firstBelow, numberIn_spelled secondBelow]

theorem parseDate_slashes (reads : ReadsDates parseFromStr) (padFirst padSecond : Bool)
    (firstBelow : first < 100) (secondBelow : second < 100) (yearRun : IsRun year) :
    parseDate parseFromStr
        (joined '/' (spelled padFirst first) (spelled padSecond second) year) none =
      bothWays
        ((dateIn (yearIn .full year) first second).or (dateIn (yearIn .pivoted year) first second))
        ((dateIn (yearIn .full year) second first).or (dateIn (yearIn .pivoted year) second first)) := by
  have firstRun := isRun_spelled padFirst first
  have secondRun := isRun_spelled padSecond second
  have iso : parseFromStr (joined '/' (spelled padFirst first) (spelled padSecond second) year)
      "%Y-%m-%d" = none :=
    (reads ⟨.yearFirst, .full, '-'⟩ '/' _ _ _ (.inr (.inr rfl)) (.inl rfl) firstRun secondRun
      yearRun).trans (if_neg (by decide))
  unfold parseDate
  dsimp only
  rw [trim_joined (.inl rfl) firstRun secondRun yearRun, if_neg (joined_ne_nil _ _ _ _),
    Option.bind_none, iso]
  dsimp only
  rw [← read_monthFirst reads firstBelow secondBelow yearRun .full,
    ← read_monthFirst reads firstBelow secondBelow yearRun .pivoted,
    ← read_dayFirst reads firstBelow secondBelow yearRun .full,
    ← read_dayFirst reads firstBelow secondBelow yearRun .pivoted]
  rfl

end

/-! ### Reading a rendering -/

section

variable {date : Date} {rendering : Rendering}

theorem day_lt (date : Date) : date.day < 100 := by
  have valid := date.valid
  have long := daysInMonth_le date.month
  omega

theorem monthOfYear_lt (date : Date) : date.monthOfYear < 100 := by
  have inside := monthOfYear_le date
  omega

theorem dateIn_date (date : Date) :
    dateIn (some date.year) (some date.monthOfYear) (some date.day) = some date :=
  ofYmd_eq_some.mpr ⟨rfl, rfl, rfl⟩

theorem yearIn_spelledYear (low : 1970 ≤ date.year) (high : date.year ≤ 2068)
    (directive : YearDirective) : yearIn directive (spelledYear directive date.year) = some date.year := by
  cases directive with
  | full => exact yearIn_full (by omega) (by omega)
  | pivoted => exact yearIn_pivoted low high

theorem read_rendering (reads : ReadsDates parseFromStr) (low : 1970 ≤ date.year)
    (high : date.year ≤ 2068) (rendering : Rendering) :
    parseFromStr (rendering.text date) rendering.style.format.text = some date := by
  have year := yearIn_spelledYear low high rendering.style.format.year
  have yearRun := isRun_spelledYear rendering.style.format.year date.year
  have monthRun := isRun_spelled rendering.padMonth date.monthOfYear
  have dayRun := isRun_spelled rendering.padDay date.day
  have month : numberIn 2 (spelled rendering.padMonth date.monthOfYear) = some date.monthOfYear :=
    numberIn_spelled (monthOfYear_lt date)
  have day : numberIn 2 (spelled rendering.padDay date.day) = some date.day :=
    numberIn_spelled (day_lt date)
  have separates : IsSeparator rendering.style.format.separator := by
    cases rendering.style with
    | iso => exact .inr (.inr rfl)
    | monthFirst => exact .inl rfl
    | dayFirst => exact .inl rfl
    | monthFirstShort => exact .inl rfl
    | dayFirstShort => exact .inl rfl
  unfold Rendering.text
  generalize rendering.style.format = format at year yearRun separates ⊢
  obtain ⟨order, directive, separator⟩ := format
  dsimp only at year yearRun separates ⊢
  have read := fun first second third => reads ⟨order, directive, separator⟩ separator first second
    third separates separates
  cases order with
  | yearFirst =>
    refine (read _ _ _ yearRun monthRun dayRun).trans ((if_pos rfl).trans ?_)
    rw [DateFormat.dateOf, year, month, day, dateIn_date]
  | monthFirst =>
    refine (read _ _ _ monthRun dayRun yearRun).trans ((if_pos rfl).trans ?_)
    rw [DateFormat.dateOf, year, month, day, dateIn_date]
  | dayFirst =>
    refine (read _ _ _ dayRun monthRun yearRun).trans ((if_pos rfl).trans ?_)
    rw [DateFormat.dateOf, year, month, day, dateIn_date]

theorem isSeparator_style (style : DateStyle) : IsSeparator style.format.separator := by
  cases style with
  | iso => exact .inr (.inr rfl)
  | monthFirst => exact .inl rfl
  | dayFirst => exact .inl rfl
  | monthFirstShort => exact .inl rfl
  | dayFirstShort => exact .inl rfl

theorem trim_rendering : trim (rendering.text date) = rendering.text date :=
  trim_arranged (isSeparator_style rendering.style) (isRun_spelledYear _ _) (isRun_spelled _ _)
    (isRun_spelled _ _)

theorem rendering_ne_nil : rendering.text date ≠ [] := arranged_ne_nil _ _ _ _ _

theorem parseDate_hinted (reads : ReadsDates parseFromStr) (low : 1970 ≤ date.year)
    (high : date.year ≤ 2068) :
    parseDate parseFromStr (rendering.text date) (some rendering.style.format.text) =
      some (date, 10000) := by
  unfold parseDate
  dsimp only
  rw [trim_rendering, if_neg rendering_ne_nil, Option.bind_some, read_rendering reads low high rendering]

theorem mem_of_bothWays {us eu : Option Date} {found : Date} {confidence : Nat}
    (read : bothWays us eu = some (found, confidence)) : us = some found ∨ eu = some found := by
  unfold bothWays at read
  split at read
  · split_ifs at read with same
    · exact .inl (congrArg some (Prod.mk.inj (Option.some.inj read)).1)
    · exact .inl (congrArg some (Prod.mk.inj (Option.some.inj read)).1)
  · exact .inl (congrArg some (Prod.mk.inj (Option.some.inj read)).1)
  · exact .inr (congrArg some (Prod.mk.inj (Option.some.inj read)).1)
  · cases read

theorem exists_style_of_parseDate {raw : List Char} {hint : Option String} {found : Date}
    {confidence : Nat} (hinted : ∀ format ∈ hint, ∃ style : DateStyle, format = style.format.text)
    (read : parseDate parseFromStr raw hint = some (found, confidence)) :
    ∃ style : DateStyle, parseFromStr (trim raw) style.format.text = some found := by
  unfold parseDate at read
  dsimp only at read
  split_ifs at read
  split at read
  · rename_i date given
    obtain ⟨format, inside, byHint⟩ := Option.bind_eq_some_iff.mp given
    obtain ⟨style, rfl⟩ := hinted format inside
    obtain rfl := (Prod.mk.inj (Option.some.inj read)).1
    exact ⟨style, byHint⟩
  split at read
  · rename_i date byIso
    obtain rfl := (Prod.mk.inj (Option.some.inj read)).1
    exact ⟨.iso, byIso⟩
  · rcases mem_of_bothWays read with us | eu
    · rcases Option.or_eq_some_iff.mp us with long | ⟨-, short⟩
      · exact ⟨.monthFirst, long⟩
      · exact ⟨.monthFirstShort, short⟩
    · rcases Option.or_eq_some_iff.mp eu with long | ⟨-, short⟩
      · exact ⟨.dayFirst, long⟩
      · exact ⟨.dayFirstShort, short⟩

theorem year_of_dateIn {year : Option Int} {month day : Option Nat} {found : Date}
    (made : dateIn year month day = some found) : year = some found.year := by
  unfold dateIn at made
  obtain ⟨yearValue, given, byYear⟩ := Option.bind_eq_some_iff.mp made
  obtain ⟨monthValue, -, byMonth⟩ := Option.bind_eq_some_iff.mp byYear
  obtain ⟨dayValue, -, byDay⟩ := Option.bind_eq_some_iff.mp byMonth
  rw [given, (ofYmd_eq_some.mp byDay).1]

theorem yearIn_long {year other : Int} (low : 0 ≤ year) (high : year < 10000)
    {directive : YearDirective} (read : yearIn directive (fixed 4 year.toNat) = some other) :
    other = year := by
  cases directive with
  | full =>
    rw [yearIn_full low high] at read
    exact (Option.some.inj read).symm
  | pivoted =>
    rw [yearIn_pivoted_long] at read
    cases read

theorem year_of_read (reads : ReadsDates parseFromStr) (low : 0 ≤ date.year)
    (high : date.year < 10000) (long : rendering.style.format.year = .full) {style : DateStyle}
    {found : Date}
    (read : parseFromStr (rendering.text date) style.format.text = some found) :
    found.year = date.year := by
  have yearRun : IsRun (fixed 4 date.year.toNat) := isRun_fixed (by decide) _
  have monthRun := isRun_spelled rendering.padMonth date.monthOfYear
  have dayRun := isRun_spelled rendering.padDay date.day
  have separates := isSeparator_style style
  have byYear {month day : Option Nat} {directive : YearDirective}
      (made : dateIn (yearIn directive (fixed 4 date.year.toNat)) month day = some found) :
      found.year = date.year := yearIn_long low high (year_of_dateIn made)
  unfold Rendering.text at read
  dsimp only at read
  rw [long] at read
  cases shape : rendering.style with
  | iso =>
    rw [shape] at read
    have apart := (reads style.format '-' _ _ _ separates (.inr (.inr rfl)) yearRun monthRun
      dayRun).symm.trans read
    cases style with
    | iso => exact byYear apart
    | monthFirst => cases apart
    | dayFirst => cases apart
    | monthFirstShort => cases apart
    | dayFirstShort => cases apart
  | monthFirst =>
    rw [shape] at read
    have apart := (reads style.format '/' _ _ _ separates (.inl rfl) monthRun dayRun
      yearRun).symm.trans read
    cases style with
    | iso => cases apart
    | monthFirst => exact byYear apart
    | dayFirst => exact byYear apart
    | monthFirstShort => exact byYear apart
    | dayFirstShort => exact byYear apart
  | dayFirst =>
    rw [shape] at read
    have apart := (reads style.format '/' _ _ _ separates (.inl rfl) dayRun monthRun
      yearRun).symm.trans read
    cases style with
    | iso => cases apart
    | monthFirst => exact byYear apart
    | dayFirst => exact byYear apart
    | monthFirstShort => exact byYear apart
    | dayFirstShort => exact byYear apart
  | monthFirstShort =>
    rw [shape] at long
    cases long
  | dayFirstShort =>
    rw [shape] at long
    cases long

end

/-! ### When a cell is read right -/

/-- The formats a hint may name here. -/
def IsHint (hint : Option String) : Prop :=
  ∀ format ∈ hint, ∃ style : DateStyle, format = style.format.text

/-- A cell is read right: without a hint as its date or with a low confidence, with the hint of its
own format as its date, and never as a date of another century. -/
structure ReadRight (parseFromStr : List Char → String → Option Date) (date : Date)
    (rendering : Rendering) : Prop where
  flagged : ∃ found confidence,
    parseDate parseFromStr (rendering.text date) none = some (found, confidence) ∧
      (found = date ∨ confidence < 7000)
  hinted : parseDate parseFromStr (rendering.text date) (some rendering.style.format.text) =
    some (date, 10000)
  bounded : ∀ hint, IsHint hint → ∀ found confidence,
    parseDate parseFromStr (rendering.text date) hint = some (found, confidence) →
      1970 ≤ found.year ∧ found.year ≤ 2068

theorem bothWays_us {us : Date} (eu : Option Date) :
    ∃ confidence, bothWays (some us) eu = some (us, confidence) := by
  unfold bothWays
  cases eu with
  | none => exact ⟨9000, rfl⟩
  | some found =>
    dsimp only
    split_ifs
    · exact ⟨9000, rfl⟩
    · exact ⟨5000, rfl⟩

theorem bothWays_eu (us : Option Date) (eu : Date) :
    ∃ found confidence, bothWays us (some eu) = some (found, confidence) ∧
      (found = eu ∨ confidence < 7000) := by
  unfold bothWays
  cases us with
  | none => exact ⟨eu, 9000, rfl, .inl rfl⟩
  | some found =>
    dsimp only
    split_ifs with same
    · exact ⟨found, 9000, rfl, .inl same⟩
    · exact ⟨found, 5000, rfl, .inr (by decide)⟩

theorem ofYmd_eq_none {year : Int} {month day : Nat} (late : 12 < month) :
    Date.ofYmd year month day = none := by
  unfold Date.ofYmd
  rw [if_neg fun inside => absurd inside.2 (Nat.not_le.mpr late)]

theorem exists_century {date : Date} (low : 1970 ≤ date.year) (high : date.year ≤ 2068) :
    ∃ century, Date.ofYmd (date.year % 100) date.monthOfYear date.day = some century := by
  have months := monthOfYear_le date
  have valid := date.valid
  have own : 12 * date.year + ((date.monthOfYear - 1 : Nat) : Int) = date.month := by
    unfold Date.year Date.monthOfYear yearOf
    omega
  refine exists_ofYmd months.1 months.2 valid.1 ?_
  rw [daysInMonth_century low high _ (by omega), own]
  exact valid.2

theorem parseDate_short (reads : ReadsDates parseFromStr) {date : Date} (low : 1970 ≤ date.year)
    (high : date.year ≤ 2068) {rendering : Rendering}
    (short : rendering.style.format.year = .pivoted) :
    ∃ found confidence,
      parseDate parseFromStr (rendering.text date) none = some (found, confidence) ∧
        found.year = date.year % 100 := by
  obtain ⟨century, here⟩ := exists_century low high
  have full : yearIn .full (fixed 2 date.year.toNat) = some (date.year % 100) :=
    yearIn_full_short (by omega)
  have yearRun : IsRun (fixed 2 date.year.toNat) := isRun_fixed (by decide) _
  have byYear {first second : Nat} {found : Date}
      (made : Date.ofYmd (date.year % 100) first second = some found) :
      dateIn (yearIn .full (fixed 2 date.year.toNat)) first second = some found := by
    rw [full]
    exact made
  have before {us eu : Option Date} {found : Date} (made : us = some found)
      (century : found.year = date.year % 100) :
      ∃ found confidence, bothWays us eu = some (found, confidence) ∧
        found.year = date.year % 100 := by
    obtain ⟨confidence, read⟩ := bothWays_us eu
    exact ⟨found, confidence, made ▸ read, century⟩
  obtain ⟨style, padMonth, padDay⟩ := rendering
  cases style with
  | iso => cases short
  | monthFirst => cases short
  | dayFirst => cases short
  | monthFirstShort =>
    have read := parseDate_slashes reads padMonth padDay (monthOfYear_lt date) (day_lt date)
      yearRun
    rw [byYear here, Option.some_or] at read
    obtain ⟨found, confidence, both, same⟩ := before rfl (ofYmd_eq_some.mp here).1
    exact ⟨found, confidence, read.trans both, same⟩
  | dayFirstShort =>
    have read := parseDate_slashes reads padDay padMonth (day_lt date) (monthOfYear_lt date)
      yearRun
    rw [byYear here, Option.some_or] at read
    have months := monthOfYear_le date
    have valid := date.valid
    by_cases month : date.day ≤ 12
    · -- The day is read as a month first.
      have long := le_daysInMonth (12 * (date.year % 100) + (date.day - 1 : Nat))
      have swaps : ∃ swapped, Date.ofYmd (date.year % 100) date.day date.monthOfYear = some swapped :=
        exists_ofYmd valid.1 month months.1 (by omega)
      obtain ⟨swapped, made⟩ := swaps
      rw [byYear made, Option.some_or] at read
      obtain ⟨found, confidence, both, same⟩ := before rfl (ofYmd_eq_some.mp made).1
      exact ⟨found, confidence, read.trans both, same⟩
    · have late : 12 < date.day := Nat.lt_of_not_le month
      have noMonth (directive : YearDirective) :
          dateIn (yearIn directive (fixed 2 date.year.toNat)) date.day date.monthOfYear = none := by
        cases yearIn directive (fixed 2 date.year.toNat) with
        | none => rfl
        | some year => exact ofYmd_eq_none late
      rw [noMonth, noMonth] at read
      exact ⟨century, 9000, read, (ofYmd_eq_some.mp here).1⟩

theorem parseDate_long (reads : ReadsDates parseFromStr) {date : Date} (low : 1970 ≤ date.year)
    (high : date.year ≤ 2068) {rendering : Rendering} (long : rendering.style.format.year = .full) :
    ∃ found confidence,
      parseDate parseFromStr (rendering.text date) none = some (found, confidence) ∧
        (found = date ∨ confidence < 7000) := by
  have own := read_rendering reads low high rendering
  have yearRun : IsRun (fixed 4 date.year.toNat) := isRun_fixed (by decide) _
  have here : dateIn (yearIn .full (fixed 4 date.year.toNat)) date.monthOfYear date.day =
      some date := by
    rw [yearIn_full (by omega) (by omega), dateIn_date]
  obtain ⟨style, padMonth, padDay⟩ := rendering
  cases style with
  | iso =>
    refine ⟨date, 10000, ?_, .inl rfl⟩
    have text : DateStyle.iso.format.text = "%Y-%m-%d" := rfl
    unfold parseDate
    dsimp only
    rw [trim_rendering, if_neg rendering_ne_nil, Option.bind_none, ← text, own]
  | monthFirst =>
    have read := parseDate_slashes reads padMonth padDay (monthOfYear_lt date) (day_lt date)
      yearRun
    rw [here, Option.some_or] at read
    obtain ⟨confidence, both⟩ := bothWays_us _
    exact ⟨date, confidence, read.trans both, .inl rfl⟩
  | dayFirst =>
    have read := parseDate_slashes reads padDay padMonth (day_lt date) (monthOfYear_lt date)
      yearRun
    rw [here, Option.some_or] at read
    obtain ⟨found, confidence, both, right⟩ := bothWays_eu _ date
    exact ⟨found, confidence, read.trans both, right⟩
  | monthFirstShort => cases long
  | dayFirstShort => cases long

/-- A date is read right just where its year is written with four digits. -/
theorem dates_read_right_iff (reads : ReadsDates parseFromStr) (date : Date)
    (low : 1970 ≤ date.year) (high : date.year ≤ 2068) (rendering : Rendering) :
    ReadRight parseFromStr date rendering ↔ rendering.style.format.year = .full := by
  constructor
  · rintro ⟨-, -, bounded⟩
    cases directive : rendering.style.format.year with
    | full => rfl
    | pivoted =>
      obtain ⟨found, confidence, read, century⟩ := parseDate_short reads low high directive
      have inside := bounded none (fun _ given => absurd given (Option.not_mem_none _)) _ _ read
      omega
  · intro long
    refine ⟨parseDate_long reads low high long, parseDate_hinted reads low high, ?_⟩
    intro hint hinted found confidence read
    obtain ⟨style, byStyle⟩ := exists_style_of_parseDate hinted read
    rw [trim_rendering] at byStyle
    rw [year_of_read reads (by omega) (by omega) long byStyle]
    exact ⟨low, high⟩

/-! ### A reader of dates -/

def allFormats : List DateFormat :=
  ['/', '.', '-'].flatMap fun separator => [YearDirective.full, .pivoted].flatMap fun year =>
    [DateOrder.yearFirst, .monthFirst, .dayFirst].map fun order => ⟨order, year, separator⟩

/-- A reader that does what the time library promises. -/
def readDates (text : List Char) (format : String) : Option Date :=
  match allFormats.find? fun known => known.text = format with
  | none => none
  | some known =>
    match text.splitOn known.separator with
    | [first, second, third] => known.dateOf first second third
    | _ => none

theorem separator_not_mem {separator : Char} {run : List Char} (separates : IsSeparator separator)
    (digits : IsRun run) : separator ∉ run := by
  intro member
  have digit := digits.2 separator member
  rcases separates with rfl | rfl | rfl
  · exact absurd digit (by decide)
  · exact absurd digit (by decide)
  · exact absurd digit (by decide)

theorem joined_eq_intercalate (separator : Char) (first second third : List Char) :
    joined separator first second third = [separator].intercalate [first, second, third] := by
  simp [joined, List.intercalate]

theorem splitOn_joined {separator : Char} {first second third : List Char}
    (separates : IsSeparator separator) (firstRun : IsRun first) (secondRun : IsRun second)
    (thirdRun : IsRun third) :
    (joined separator first second third).splitOn separator = [first, second, third] := by
  rw [joined_eq_intercalate]
  refine List.splitOn_intercalate separator (fun run member => ?_) (List.cons_ne_nil _ _)
  rcases List.mem_cons.mp member with rfl | member
  · exact separator_not_mem separates firstRun
  rcases List.mem_cons.mp member with rfl | member
  · exact separator_not_mem separates secondRun
  rw [List.mem_singleton.mp member]
  exact separator_not_mem separates thirdRun

theorem find_format (format : DateFormat) (separates : IsSeparator format.separator) :
    (allFormats.find? fun known => known.text = format.text) = some format := by
  obtain ⟨order, year, separator⟩ := format
  rcases separates with rfl | rfl | rfl <;> cases year <;> cases order <;> rfl

theorem readsDates_readDates : ReadsDates readDates := by
  intro format separator first second third separates between firstRun secondRun thirdRun
  unfold readDates
  rw [find_format format separates]
  dsimp only
  split_ifs with same
  · rw [← same, splitOn_joined between firstRun secondRun thirdRun]
  · have absent : format.separator ∉ joined separator first second third := by
      rw [mem_joined]
      rintro (own | inside | inside | inside)
      · exact same own.symm
      · exact separator_not_mem separates firstRun inside
      · exact separator_not_mem separates secondRun inside
      · exact separator_not_mem separates thirdRun inside
    have whole : (joined separator first second third).splitOn format.separator =
        [joined separator first second third] := by
      have apart : ([format.separator].intercalate [joined separator first second third]).splitOn
          format.separator = [joined separator first second third] :=
        List.splitOn_intercalate _ (fun run member => by rwa [List.mem_singleton.mp member])
          (List.cons_ne_nil _ _)
      rwa [List.intercalate_singleton] at apart
    rw [whole]

/-- The thirteenth of June of 2026 is read from four digits of its year. -/
theorem long_year_read_right :
    ReadRight readDates ⟨12 * 2026 + 5, 13, by decide⟩ ⟨.dayFirst, true, true⟩ :=
  (dates_read_right_iff readsDates_readDates ⟨12 * 2026 + 5, 13, by decide⟩ (by decide) (by decide)
    ⟨.dayFirst, true, true⟩).mpr rfl

/-- The same day with two digits for the year is read, with a high confidence, as one of the year
26. -/
theorem short_year_misread :
    ∃ (parseFromStr : List Char → String → Option Date) (date : Date) (rendering : Rendering),
      ReadsDates parseFromStr ∧ 1970 ≤ date.year ∧ date.year ≤ 2068 ∧
      rendering.text date = ['1', '3', '/', '0', '6', '/', '2', '6'] ∧
      parseDate parseFromStr (rendering.text date) none =
        some (⟨12 * 26 + 5, 13, by decide⟩, 9000) ∧
      ¬ReadRight parseFromStr date rendering := by
  have text : Rendering.text ⟨.dayFirstShort, true, true⟩ ⟨12 * 2026 + 5, 13, by decide⟩ =
      ['1', '3', '/', '0', '6', '/', '2', '6'] := rfl
  have read : parseDate readDates ['1', '3', '/', '0', '6', '/', '2', '6'] none =
      some (⟨12 * 26 + 5, 13, by decide⟩, 9000) := by decide +kernel
  rw [← text] at read
  refine ⟨readDates, ⟨12 * 2026 + 5, 13, by decide⟩, ⟨.dayFirstShort, true, true⟩,
    readsDates_readDates, by decide, by decide, text, read, fun right => ?_⟩
  have inside := right.bounded none (fun _ given => absurd given (Option.not_mem_none _)) _ _ read
  exact absurd inside.1 (by decide)

end Dohflow.CsvImporter
