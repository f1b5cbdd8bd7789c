/-
This file asks of every minus sign in an amount cell whether it counts.

The CSV reader takes off a minus in front and one more minus ahead of the first digit;
every later minus is dropped with the letters and the spaces. So the amounts that it
reads with the wrong sign are exactly those with an odd number of later minus signs and a
digit other than zero among those that it reads.
-/

import Dohflow.Importers.AmountSpellings
import Mathlib.Algebra.Order.Ring.Abs
import Mathlib.Algebra.Ring.Parity

namespace Dohflow.Importers

open MachineIntegers DbWorker

/-! ### Amounts that are zero -/

theorem ofDigitChars_eq_zero {digits : List Char} (all : ∀ char ∈ digits, char.isDigit = true) :
    Nat.ofDigitChars 10 digits 0 = 0 ↔ ∀ char ∈ digits, char = '0' := by
  induction digits with
  | nil => simp
  | cons first rest inductionHypothesis =>
    obtain ⟨low, -⟩ := Char.isDigit_iff_toNat.mp (all first List.mem_cons_self)
    have later := inductionHypothesis fun char member => all char (List.mem_cons_of_mem _ member)
    rw [Nat.ofDigitChars_cons, Nat.ofDigitChars_eq_ofDigitChars_zero, Nat.mul_zero, Nat.zero_add,
      Nat.add_eq_zero_iff, later, List.forall_mem_cons, Nat.mul_eq_zero, Nat.sub_eq_zero_iff_le,
      ← Char.toNat_inj]
    have positive : 10 ^ rest.length ≠ 0 := (Nat.pow_pos (by decide)).ne'
    refine and_congr ⟨fun zero => ?_, fun same => .inr same.le⟩ .rfl
    exact (zero.resolve_left positive).antisymm low

theorem forall_mem_paddedFraction {exponent : Nat} {fraction : List Char} :
    (∀ char ∈ paddedFraction exponent fraction, char = '0') ↔
      ∀ char ∈ fraction.take exponent, char = '0' := by
  unfold paddedFraction
  split_ifs with short
  · rw [List.take_of_length_le short.le, List.forall_mem_append]
    exact and_iff_left fun char member => (List.mem_replicate.mp member).2
  · rfl

theorem isDigit_of_mem_paddedFraction {exponent : Nat} {fraction : List Char}
    (digits : ∀ char ∈ fraction, char.isDigit = true) :
    ∀ char ∈ paddedFraction exponent fraction, char.isDigit = true := by
  unfold paddedFraction
  split_ifs
  · intro char member
    rcases List.mem_append.mp member with inside | zero
    · exact digits char inside
    · rw [(List.mem_replicate.mp zero).2]
      rfl
  · exact fun char member => digits char (List.mem_of_mem_take member)

theorem eq_of_numberOf {digits : List Char} {value : Int} (read : numberOf digits = some value) :
    value = (Nat.ofDigitChars 10 digits 0 : Int) := by
  unfold numberOf at read
  split_ifs at read with empty
  · rw [empty, Nat.ofDigitChars_nil]
    exact (Option.some.inj read).symm
  · exact (checkedI64_eq_some.mp read).2.symm

theorem magnitudeOf_spec {exponent : Nat} {integer fraction : List Char} {magnitude : Int}
    (whole : ∀ char ∈ integer, char.isDigit = true)
    (part : ∀ char ∈ fraction, char.isDigit = true)
    (read : magnitudeOf exponent integer fraction = some magnitude) :
    0 ≤ magnitude ∧
      (magnitude = 0 ↔ ∀ char ∈ integer ++ fraction.take exponent, char = '0') := by
  obtain ⟨integerValue, integerRead, read⟩ := Option.bind_eq_some_iff.mp read
  obtain ⟨fractionValue, fractionRead, read⟩ := Option.bind_eq_some_iff.mp read
  obtain ⟨scale, scaleRead, read⟩ := Option.bind_eq_some_iff.mp read
  obtain ⟨scaled, scaledRead, read⟩ := Option.bind_eq_some_iff.mp read
  obtain ⟨-, rfl⟩ := checkedI64_eq_some.mp read
  obtain ⟨-, rfl⟩ := checkedI64_eq_some.mp scaledRead
  obtain ⟨-, rfl⟩ := checkedI64_eq_some.mp scaleRead
  have integerSame := eq_of_numberOf integerRead
  have fractionSame := eq_of_numberOf fractionRead
  have integerZero := ofDigitChars_eq_zero whole
  have fractionZero := ofDigitChars_eq_zero (@isDigit_of_mem_paddedFraction exponent _ part)
  rw [forall_mem_paddedFraction] at fractionZero
  have positive : (0 : Int) < 10 ^ exponent := Int.pow_pos (by decide)
  have product : 0 ≤ integerValue * 10 ^ exponent :=
    mul_nonneg (by omega) positive.le
  refine ⟨by omega, ?_⟩
  rw [List.forall_mem_append, ← integerZero, ← fractionZero]
  constructor
  · intro zero
    have first : integerValue * 10 ^ exponent = 0 := by omega
    have left := (mul_eq_zero.mp first).resolve_right positive.ne'
    omega
  · rintro ⟨first, second⟩
    have left : integerValue = 0 := by omega
    rw [left, zero_mul]
    omega

end Dohflow.Importers

namespace Dohflow.CsvImporter

open MachineIntegers Importers DbWorker

variable (text : List Char) {holds : Char → Bool} {decimalComma : Bool} (body : List Char)
  (negative : Bool) (raw : List Char) {exponent : Nat}

/-! ### Counting signs -/

/-- The minus signs of a text. -/
def minusCount (text : List Char) : Nat := text.countP isMinus

/-- Whether a cell is enclosed in parentheses. -/
def Enclosed (raw : List Char) : Prop := (enclosed (trim raw)).isSome = true

instance decidableEnclosed (raw : List Char) : Decidable (Enclosed raw) :=
  inferInstanceAs (Decidable (_ = true))

/-- The sign that a number of minus signs gives, parentheses counted as one. -/
def AsCounted (signs : Nat) (value : Int) : Prop := value = (-1) ^ signs * |value|

/-- One minus sign keeps an amount from being positive, and of several each counts. -/
def SignsHonoured (raw : List Char) (value : Int) : Prop :=
  (minusCount raw = 1 → ¬ Enclosed raw → value ≤ 0) ∧
    (2 ≤ minusCount raw →
      AsCounted (minusCount raw + if Enclosed raw then 1 else 0) value)

/-! ### The signs that are taken -/

/-- A cell without the space and the parentheses around it. -/
def inner (raw : List Char) : List Char := (stripParentheses (trim raw)).2

/-- How many minus signs are taken off: the first character, and one more ahead of all digits. -/
def takenCount (text : List Char) : Nat :=
  min (minusCount (text.takeWhile fun char => !char.isDigit))
    (if text.head?.any isMinus then 2 else 1)

/-- What follows the first minus of a text. -/
def behindMinus (text : List Char) : List Char := (text.dropWhile fun char => !isMinus char).tail

/-- What follows the minus signs that are taken off. -/
def numberPart (raw : List Char) : List Char := behindMinus^[takenCount (inner raw)] (inner raw)

/-- Every digit that is read is zero. -/
def Nought (exponent : Nat) (decimalComma : Bool) (text : List Char) : Prop :=
  let parts := (splitOnce (decimalOf decimalComma) (cleaned decimalComma text)).getD
    (cleaned decimalComma text, [])
  ∀ char ∈ parts.1.filter Char.isDigit ++ parts.2.take exponent, char = '0'

/-- Texts that a number is read from alike, with as many minus signs. -/
def Alike (first second : List Char) : Prop :=
  minusCount first = minusCount second ∧
    ∀ decimalComma, cleaned decimalComma first = cleaned decimalComma second

theorem Alike.refl : Alike text text := ⟨rfl, fun _ => rfl⟩

theorem not_isMinus_of_isWhitespace {char : Char} (space : isWhitespace char = true) :
    isMinus char = false := by
  rw [Bool.eq_false_iff]
  intro minus
  rw [isWhitespace_of_isMinus minus] at space
  cases space

theorem alike_dropWhile
    (idle : ∀ char, holds char = true → isMinus char = false ∧ char.isDigit = false ∧
      char ≠ '.' ∧ char ≠ ',') (text : List Char) : Alike (text.dropWhile holds) text := by
  induction text with
  | nil => exact .refl []
  | cons first rest inductionHypothesis =>
    cases held : holds first with
    | false =>
      rw [List.dropWhile_cons_of_neg (by rw [held]; decide)]
      exact .refl _
    | true =>
      obtain ⟨minus, digit, point, comma⟩ := idle first held
      rw [List.dropWhile_cons_of_pos held]
      refine ⟨inductionHypothesis.1.trans ?_, fun decimalComma =>
        (inductionHypothesis.2 decimalComma).trans ?_⟩
      · exact (List.countP_cons_of_neg (by rw [minus]; decide)).symm
      · refine (List.filter_cons_of_neg ?_).symm
        cases decimalComma <;> simp [digit, point, comma, decimalOf, thousandsOf]

theorem alike_trimStart : Alike (trimStart text) text := by
  refine alike_dropWhile (fun char space => ⟨not_isMinus_of_isWhitespace space, ?_, ?_, ?_⟩) text
  · rw [Bool.eq_false_iff]
    intro digit
    rw [isWhitespace_of_isDigit digit] at space
    cases space
  · rintro rfl
    exact absurd space (by decide +kernel)
  · rintro rfl
    exact absurd space (by decide +kernel)

/-- The part of a text ahead of its first digit. -/
def lead (text : List Char) : List Char := text.takeWhile fun char => !char.isDigit

theorem signed_not : signed (!negative) 1 = signed negative 1 * (-1) := by
  cases negative <;> rfl

theorem minusCount_cons (first : Char) (rest : List Char) :
    minusCount (first :: rest) = minusCount rest + if isMinus first = true then 1 else 0 :=
  List.countP_cons

theorem lead_spec :
    (minusCount (lead body) = 0 ↔
      body.dropWhile (fun char => !isMinus char) = [] ∨
        ((body.takeWhile fun char => !isMinus char).all fun char => !char.isDigit) = false) := by
  induction body with
  | nil => simp [lead, minusCount]
  | cons first rest inductionHypothesis =>
    unfold lead at inductionHypothesis ⊢
    cases minus : isMinus first with
    | true =>
      have digit : first.isDigit = false := by
        rw [Bool.eq_false_iff]
        intro digit
        rw [isMinus_of_isPlain (isPlain_of_isDigit digit)] at minus
        cases minus
      rw [List.takeWhile_cons_of_pos (by simp [digit]), minusCount_cons, minus,
        List.dropWhile_cons_of_neg (by simp [minus]), List.takeWhile_cons_of_neg (by simp [minus])]
      simp
    | false =>
      have head : (first :: rest).takeWhile (fun char => !isMinus char) =
          first :: rest.takeWhile fun char => !isMinus char :=
        List.takeWhile_cons_of_pos (by simp [minus])
      rw [List.dropWhile_cons_of_pos (by simp [minus]), head, List.all_cons]
      cases digit : first.isDigit with
      | true =>
        rw [List.takeWhile_cons_of_neg (by simp [digit])]
        simp [minusCount]
      | false =>
        rw [List.takeWhile_cons_of_pos (by simp [digit]), minusCount_cons, minus]
        simpa using inductionHypothesis

theorem minusCount_takeWhile : minusCount (body.takeWhile fun char => !isMinus char) = 0 := by
  unfold minusCount
  rw [List.countP_eq_zero]
  intro char member
  have free := List.mem_takeWhile_imp member
  simpa using free

/-- The inner minus is the first one, and it is taken when it stands ahead of all digits. -/
theorem stripInnerMinus_spec (body : List Char) :
    ∃ rest, stripInnerMinus negative body =
        (if min (minusCount (lead body)) 1 = 1 then !negative else negative, rest) ∧
      rest = behindMinus^[min (minusCount (lead body)) 1] body ∧
      minusCount body = min (minusCount (lead body)) 1 + minusCount rest := by
  have none := lead_spec body
  have whole := List.takeWhile_append_dropWhile (p := fun char => !isMinus char) (l := body)
  have before := minusCount_takeWhile body
  unfold stripInnerMinus
  cases found : body.dropWhile fun char => !isMinus char with
  | nil =>
    rw [none.mpr (.inl found)]
    exact ⟨body, rfl, rfl, (Nat.zero_add _).symm⟩
  | cons minus rest =>
    have head := List.head?_dropWhile_not (fun char => !isMinus char) body
    rw [found] at head whole
    have isMinus : CsvImporter.isMinus minus = true := by simpa using head
    dsimp only
    cases digitless : (body.takeWhile fun char => !CsvImporter.isMinus char).all
        fun char => !char.isDigit with
    | false =>
      rw [none.mpr (.inr digitless), if_neg (by decide)]
      exact ⟨body, rfl, rfl, (Nat.zero_add _).symm⟩
    | true =>
      have one : min (minusCount (lead body)) 1 = 1 := by
        have some : minusCount (lead body) ≠ 0 := by
          rw [Ne, none, found, digitless]
          simp
        omega
      rw [one, if_pos rfl, if_pos rfl]
      refine ⟨rest, rfl, ?_, ?_⟩
      · rw [Function.iterate_one]
        unfold behindMinus
        rw [found, List.tail_cons]
      · rw [← whole]
        unfold minusCount at before ⊢
        rw [List.countP_append, before, List.countP_cons_of_pos isMinus]
        omega

theorem lead_dropWhile
    (idle : ∀ char, holds char = true → isMinus char = false ∧ char.isDigit = false)
    (text : List Char) :
    minusCount (lead (text.dropWhile holds)) = minusCount (lead text) ∧
      behindMinus (text.dropWhile holds) = behindMinus text := by
  induction text with
  | nil => exact ⟨rfl, rfl⟩
  | cons first rest inductionHypothesis =>
    cases held : holds first with
    | false =>
      rw [List.dropWhile_cons_of_neg (by rw [held]; decide)]
      exact ⟨rfl, rfl⟩
    | true =>
      obtain ⟨minus, digit⟩ := idle first held
      rw [List.dropWhile_cons_of_pos held]
      refine ⟨inductionHypothesis.1.trans ?_, inductionHypothesis.2.trans ?_⟩
      · unfold lead
        rw [List.takeWhile_cons_of_pos (by simp [digit]), minusCount_cons, minus]
        rfl
      · unfold behindMinus
        rw [List.dropWhile_cons_of_pos (by simp [minus])]

theorem lead_trimStart :
    minusCount (lead (trimStart text)) = minusCount (lead text) ∧
      behindMinus (trimStart text) = behindMinus text := by
  refine lead_dropWhile (fun char space => ⟨not_isMinus_of_isWhitespace space, ?_⟩) text
  rw [Bool.eq_false_iff]
  intro digit
  rw [isWhitespace_of_isDigit digit] at space
  cases space

theorem Alike.trans {first second third : List Char} (alike : Alike first second)
    (later : Alike second third) : Alike first third :=
  ⟨alike.1.trans later.1, fun decimalComma => (alike.2 decimalComma).trans (later.2 decimalComma)⟩

theorem alike_cons {first : Char} {rest : List Char} (minus : isMinus first = false)
    (digit : first.isDigit = false) (point : first ≠ '.') (comma : first ≠ ',') :
    Alike rest (first :: rest) := by
  refine ⟨?_, fun decimalComma => (List.filter_cons_of_neg ?_).symm⟩
  · rw [minusCount_cons, minus]
    rfl
  · cases decimalComma <;> simp [digit, point, comma, decimalOf, thousandsOf]

/-- What is taken off a text without parentheses, and what is left of it. -/
theorem stripSigns_spec (parenthesised : Bool) (text : List Char) :
    ∃ negative body, stripInnerMinus (stripSign parenthesised text).1
        (stripSign parenthesised text).2 = (negative, body) ∧
      signed negative 1 = signed parenthesised 1 * (-1) ^ takenCount text ∧
      Alike body (behindMinus^[takenCount text] text) ∧
      minusCount text = takenCount text + minusCount body := by
  have innerSign (negative : Bool) (count : Nat) (bounded : count ≤ 1) :
      signed (if count = 1 then !negative else negative) 1 = signed negative 1 * (-1) ^ count := by
    rcases Nat.le_one_iff_eq_zero_or_eq_one.mp bounded with rfl | rfl
    · exact (Int.mul_one _).symm
    · rw [if_pos rfl, signed_not, pow_one]
  -- the case in which no sign stands in front, with or without idle characters taken away
  have plain {body : List Char} (negative : Bool) (same : Alike body text)
      (counts : minusCount (lead body) = minusCount (lead text))
      (behind : behindMinus body = behindMinus text)
      (head : text.head?.any isMinus = false) :
      ∃ final rest, stripInnerMinus negative body = (final, rest) ∧
        signed final 1 = signed negative 1 * (-1) ^ takenCount text ∧
        Alike rest (behindMinus^[takenCount text] text) ∧
        minusCount text = takenCount text + minusCount rest := by
    have count : takenCount text = min (minusCount (lead body)) 1 := by
      unfold takenCount
      rw [head, if_neg (by decide), counts]
      rfl
    obtain ⟨rest, stripped, found, total⟩ := stripInnerMinus_spec negative body
    rw [count]
    refine ⟨_, rest, stripped, innerSign _ _ (Nat.min_le_right _ _), ?_, same.1 ▸ total⟩
    rcases Nat.le_one_iff_eq_zero_or_eq_one.mp (Nat.min_le_right (minusCount (lead body)) 1) with
      zero | one
    · rw [zero] at found ⊢
      rw [found]
      exact same
    · rw [one] at found ⊢
      rw [found, Function.iterate_one, behind]
      exact .refl _
  cases text with
  | nil => exact plain parenthesised (.refl _) rfl rfl rfl
  | cons first rest =>
    dsimp only [stripSign]
    cases minus : isMinus first with
    | true =>
      rw [if_pos rfl]
      obtain ⟨counts, behind⟩ := lead_trimStart rest
      obtain ⟨final, stripped, found, total⟩ := stripInnerMinus_spec (!parenthesised) (trimStart rest)
      have digit : first.isDigit = false := by
        rw [Bool.eq_false_iff]
        intro digit
        rw [isMinus_of_isPlain (isPlain_of_isDigit digit)] at minus
        cases minus
      have count : takenCount (first :: rest) = min (minusCount (lead rest)) 1 + 1 := by
        unfold takenCount
        rw [List.takeWhile_cons_of_pos (by simp [digit]), minusCount_cons, minus, if_pos rfl,
          List.head?_cons, Option.any_some, minus, if_pos rfl]
        show min (minusCount (lead rest) + 1) 2 = _
        omega
      have head : behindMinus (first :: rest) = rest := by
        unfold behindMinus
        rw [List.dropWhile_cons_of_neg (by simp [minus]), List.tail_cons]
      rw [counts] at found total
      refine ⟨_, final, stripped, ?_, ?_, ?_⟩
      · rw [counts, innerSign _ _ (Nat.min_le_right _ _), signed_not, count, pow_succ]
        ring
      · rw [count, Function.iterate_succ_apply, head]
        rcases Nat.le_one_iff_eq_zero_or_eq_one.mp (Nat.min_le_right (minusCount (lead rest)) 1) with
          zero | one
        · rw [zero] at found ⊢
          rw [found]
          exact alike_trimStart rest
        · rw [one] at found ⊢
          rw [found, Function.iterate_one, behind]
          exact .refl _
      · rw [minusCount_cons, minus, if_pos rfl, count, ← (alike_trimStart rest).1]
        omega
    | false =>
      rw [if_neg (by decide)]
      have head : (first :: rest).head?.any isMinus = false := minus
      split_ifs with plus
      · subst plus
        obtain ⟨counts, behind⟩ := lead_trimStart rest
        have before := @alike_cons '+' rest rfl rfl (by decide) (by decide)
        refine plain parenthesised ((alike_trimStart rest).trans before) (counts.trans ?_)
          (behind.trans ?_) head
        · unfold lead
          rw [List.takeWhile_cons_of_pos (by decide)]
          rfl
        · rfl
      · exact plain parenthesised (.refl _) rfl rfl head

theorem readSigns_spec :
    ∃ negative body, readSigns (trim raw) = (negative, body) ∧
      signed negative 1 = (-1) ^ (takenCount (inner raw) + if Enclosed raw then 1 else 0) ∧
      Alike body (numberPart raw) ∧
      minusCount (inner raw) = takenCount (inner raw) + minusCount body := by
  obtain ⟨negative, body, stripped, sign, alike, total⟩ :=
    stripSigns_spec (stripParentheses (trim raw)).1 (inner raw)
  refine ⟨negative, body, stripped, ?_, alike, total⟩
  have edge : signed (stripParentheses (trim raw)).1 1 = (-1) ^ (if Enclosed raw then 1 else 0) := by
    unfold stripParentheses
    cases found : enclosed (trim raw) with
    | none =>
      rw [if_neg (by unfold Enclosed; rw [found]; decide)]
      rfl
    | some between =>
      rw [if_pos (by unfold Enclosed; rw [found]; rfl)]
      rfl
  rw [sign, edge, pow_add, mul_comm]

theorem minusCount_trim : minusCount (trim text) = minusCount text := by
  have reversed (part : List Char) : minusCount part.reverse = minusCount part :=
    List.countP_reverse
  have start (part : List Char) : minusCount (part.dropWhile isWhitespace) = minusCount part :=
    (alike_trimStart part).1
  unfold trim
  rw [reversed, start, reversed]
  exact start text

theorem minusCount_inner : minusCount (inner raw) = minusCount raw := by
  rw [← minusCount_trim raw]
  unfold inner stripParentheses
  cases found : enclosed (trim raw) with
  | none => rfl
  | some between =>
    show minusCount (trim between) = _
    rw [minusCount_trim]
    unfold enclosed at found
    split at found
    · rename_i rest opening
      unfold stripSuffix at found
      split_ifs at found with closing
      obtain rfl := Option.some.inj found
      have whole := List.dropLast_append_getLast? _ closing
      rw [opening, minusCount_cons, if_neg (by decide), Nat.add_zero]
      conv_rhs => rw [← whole]
      unfold minusCount
      rw [List.countP_append]
      rfl
    · cases found

theorem magnitude_of_readNumber {body : List Char} {magnitude : Int}
    (read : readNumber exponent decimalComma (cleaned decimalComma body) = some magnitude) :
    0 ≤ magnitude ∧ (magnitude = 0 ↔ Nought exponent decimalComma body) := by
  have kept : ∀ char ∈ cleaned decimalComma body, char.isDigit = true ∨
      char = decimalOf decimalComma ∨ char = thousandsOf decimalComma := by
    intro char member
    have passes := (List.mem_filter.mp member).2
    simpa [or_assoc] using passes
  unfold Nought
  generalize cleaned decimalComma body = text at read kept ⊢
  have inside : ∀ char ∈ ((splitOnce (decimalOf decimalComma) text).getD (text, [])).2,
      char ∈ text := by
    unfold splitOnce
    split_ifs
    · intro char member
      exact (List.dropWhile_sublist _).subset (List.mem_of_mem_tail member)
    · intro char member
      cases member
  unfold readNumber at read
  generalize (splitOnce (decimalOf decimalComma) text).getD (text, []) = parts at read inside ⊢
  obtain ⟨integer, fraction⟩ := parts
  dsimp only at read inside ⊢
  split_ifs at read with _ separated _
  refine magnitudeOf_spec (fun char member => (List.mem_filter.mp member).2)
    (fun char member => ?_) read
  rcases kept char (inside char member) with digit | same | same
  · exact digit
  · exact absurd (.inl (same ▸ member)) separated
  · exact absurd (.inr (same ▸ member)) separated

/-! ### When every sign counts -/

theorem Alike.nought {first second : List Char} (alike : Alike first second) :
    Nought exponent decimalComma first ↔ Nought exponent decimalComma second := by
  unfold Nought
  rw [alike.2]

theorem asCounted_iff {taken passed : Nat} {magnitude : Int} (positive : 0 ≤ magnitude) :
    AsCounted (taken + passed) ((-1) ^ taken * magnitude) ↔ Even passed ∨ magnitude = 0 := by
  have size : |(-1) ^ taken * magnitude| = magnitude := by
    rw [abs_mul, abs_neg_one_pow, one_mul, abs_of_nonneg positive]
  unfold AsCounted
  rw [size, pow_add]
  rcases Nat.even_or_odd passed with even | odd
  · rw [even.neg_one_pow, mul_one]
    exact iff_of_true rfl (.inl even)
  · rw [odd.neg_one_pow]
    rcases Nat.even_or_odd taken with even | other
    · rw [even.neg_one_pow]
      have apart : ¬ Even passed := Nat.not_even_iff_odd.mpr odd
      constructor
      · intro same
        exact .inr (by omega)
      · intro zero
        have none := zero.resolve_left apart
        omega
    · rw [other.neg_one_pow]
      have apart : ¬ Even passed := Nat.not_even_iff_odd.mpr odd
      constructor
      · intro same
        exact .inr (by omega)
      · intro zero
        have none := zero.resolve_left apart
        omega

/-- Of an amount that is read, every minus sign counts exactly when an even number of them follow
those that are taken off, or every digit that is read is zero; a single one between parentheses
aside. -/
theorem signs_honoured_iff {raw : List Char} {exponent : Nat} {decimalComma : Bool} {value : Int}
    (read : parseMinorUnits raw exponent decimalComma = some value) :
    SignsHonoured raw value ↔
      (minusCount raw = 1 ∧ Enclosed raw) ∨ Even (minusCount (numberPart raw)) ∨
        Nought exponent decimalComma (numberPart raw) := by
  obtain ⟨negative, body, taken, sign, alike, total⟩ := readSigns_spec raw
  unfold parseMinorUnits at read
  dsimp only at read
  split_ifs at read with empty
  rw [taken] at read
  dsimp only at read
  obtain ⟨magnitude, number, rfl⟩ := Option.map_eq_some_iff.mp read
  obtain ⟨positive, nought⟩ := magnitude_of_readNumber number
  rw [minusCount_inner] at total
  have product : signed negative magnitude = signed negative 1 * magnitude := by
    cases negative <;> simp [signed]
  rw [product, sign, ← alike.nought, ← nought, ← alike.1]
  generalize minusCount body = passed at total
  generalize takenCount (inner raw) = count at total
  have counted := @asCounted_iff (count + if Enclosed raw then 1 else 0) passed _ positive
  have order : count + (if Enclosed raw then 1 else 0) + passed =
      minusCount raw + if Enclosed raw then 1 else 0 := by omega
  rw [order] at counted
  unfold SignsHonoured
  rw [counted]
  by_cases one : minusCount raw = 1
  · by_cases around : Enclosed raw
    · exact iff_of_true ⟨fun _ apart => absurd around apart, fun two => by omega⟩
        (.inl ⟨one, around⟩)
    · rw [if_neg around] at counted ⊢
      rw [Nat.add_zero, Nat.add_zero, one] at counted
      have single : AsCounted 1 ((-1) ^ count * magnitude) ↔ (-1) ^ count * magnitude ≤ 0 := by
        unfold AsCounted
        rw [pow_one, neg_one_mul, ← abs_eq_neg_self]
        exact ⟨fun same => by omega, fun same => by omega⟩
      rw [Nat.add_zero, ← counted, single]
      constructor
      · rintro ⟨first, -⟩
        exact .inr (first one around)
      · rintro (⟨-, inside⟩ | low)
        · exact absurd inside around
        · exact ⟨fun _ _ => low, fun two => by omega⟩
  · constructor
    · rintro ⟨-, several⟩
      by_cases two : 2 ≤ minusCount raw
      · exact .inr (several two)
      · refine .inr (.inl ?_)
        rw [show passed = 0 by omega]
        exact ⟨0, rfl⟩
    · rintro (⟨single, -⟩ | fine)
      · exact absurd single one
      · exact ⟨fun single => absurd single one, fun _ => fine⟩

theorem signs_honoured_iff_twice :
    SignsHonoured "--12.00".toList 1200 ↔
      (minusCount "--12.00".toList = 1 ∧ Enclosed "--12.00".toList) ∨
        Even (minusCount (numberPart "--12.00".toList)) ∨
        Nought 2 false (numberPart "--12.00".toList) :=
  have read : parseMinorUnits "--12.00".toList 2 false = some 1200 := by decide +kernel
  signs_honoured_iff read

/-- A minus behind the digits is dropped, and the amount is positive. -/
theorem trailing_minus_dropped :
    parseMinorUnits "12.00-".toList 2 false = some 1200 ∧ ¬ SignsHonoured "12.00-".toList 1200 := by
  refine ⟨by decide +kernel, fun honoured => ?_⟩
  have low : (1200 : Int) ≤ 0 := honoured.1 (by decide +kernel) (by decide +kernel)
  exact absurd low (by decide)

end Dohflow.CsvImporter
