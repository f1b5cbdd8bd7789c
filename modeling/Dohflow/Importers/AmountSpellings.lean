/-
This file proves what an amount cell is read as.

An amount is written with a sign, a currency symbol and digits, which may be grouped in
threes and may have a fraction. Whatever the spelling, the reader takes the signs off,
keeps exactly the characters of the number, and finds the groups and the fraction as they
were written; so it reads what was meant. Nothing in it depends on which separator is the
point and which the comma. And where an OFX file has an amount, nothing but one leading
sign stands around its digits, and the CSV reader reads the same.
-/

import Dohflow.Importers.Amounts
import Mathlib.Data.List.TakeWhile

namespace Dohflow.Importers

open MachineIntegers DbWorker

variable {integer fraction : List Char} {digits : List Char}

/-! ### Digits -/

theorem ofDigitChars_lt (all : ∀ char ∈ digits, char.isDigit = true) :
    Nat.ofDigitChars 10 digits 0 < 10 ^ digits.length := by
  induction digits with
  | nil => decide
  | cons first rest inductionHypothesis =>
    obtain ⟨low, high⟩ := Char.isDigit_iff_toNat.mp (all first List.mem_cons_self)
    have below := inductionHypothesis fun char member => all char (List.mem_cons_of_mem _ member)
    have top : first.toNat - '0'.toNat ≤ 9 := by
      have zero : '0'.toNat = 48 := rfl
      have nine : '9'.toNat = 57 := rfl
      omega
    rw [Nat.ofDigitChars_cons, Nat.ofDigitChars_eq_ofDigitChars_zero, Nat.mul_zero, Nat.zero_add,
      List.length_cons, Nat.pow_succ]
    have scaled := Nat.mul_le_mul_left (10 ^ rest.length) top
    omega

theorem ofDigitChars_append_zero (first second : List Char) :
    Nat.ofDigitChars 10 (first ++ second) 0 =
      10 ^ second.length * Nat.ofDigitChars 10 first 0 + Nat.ofDigitChars 10 second 0 := by
  rw [Nat.ofDigitChars_append, Nat.ofDigitChars_eq_ofDigitChars_zero]

theorem numberOf_eq (fits : (Nat.ofDigitChars 10 digits 0 : Int) ≤ maxI64) :
    numberOf digits = some (Nat.ofDigitChars 10 digits 0 : Int) := by
  unfold numberOf
  split_ifs with empty
  · rw [empty, Nat.ofDigitChars_nil]
    rfl
  · refine checkedI64_eq_some.mpr ⟨⟨?_, fits⟩, rfl⟩
    unfold minI64
    omega

/-- A magnitude is what digits before and behind a separator come to, in minor units. -/
def Denotes (exponent magnitude : Nat) (integer fraction : List Char) : Prop :=
  magnitude * 10 ^ fraction.length = Nat.ofDigitChars 10 (integer ++ fraction) 0 * 10 ^ exponent

instance decidableDenotes (exponent magnitude : Nat) (integer fraction : List Char) :
    Decidable (Denotes exponent magnitude integer fraction) :=
  inferInstanceAs (Decidable (_ = _))

/-- The digits that a padded fraction has, against the integer part, come to the magnitude. -/
theorem Denotes.eq {exponent magnitude : Nat}
    (denotes : Denotes exponent magnitude integer fraction)
    (digits : ∀ char ∈ fraction, char.isDigit = true) :
    magnitude = Nat.ofDigitChars 10 integer 0 * 10 ^ exponent +
      Nat.ofDigitChars 10 (paddedFraction exponent fraction) 0 := by
  unfold Denotes at denotes
  rw [ofDigitChars_append_zero] at denotes
  unfold paddedFraction
  split_ifs with short
  · obtain ⟨missing, rfl⟩ := Nat.exists_eq_add_of_lt short
    rw [ofDigitChars_append_zero, Nat.ofDigitChars_replicate_zero, Nat.mul_zero, Nat.add_zero,
      List.length_replicate]
    rw [show fraction.length + missing + 1 - fraction.length = missing + 1 by omega]
    refine Nat.eq_of_mul_eq_mul_right (Nat.pow_pos (by decide : 0 < 10) : 0 < 10 ^ fraction.length)
      (denotes.trans ?_)
    ring
  · have whole := List.take_append_drop exponent fraction
    have kept : (fraction.take exponent).length = exponent := by
      rw [List.length_take]
      omega
    have cut : fraction.length = exponent + (fraction.drop exponent).length := by
      rw [List.length_drop]
      omega
    have below := ofDigitChars_lt fun char member =>
      digits char (List.mem_of_mem_drop (i := exponent) member)
    have split : Nat.ofDigitChars 10 fraction 0 =
        10 ^ (fraction.drop exponent).length * Nat.ofDigitChars 10 (fraction.take exponent) 0 +
          Nat.ofDigitChars 10 (fraction.drop exponent) 0 := by
      rw [← ofDigitChars_append_zero, whole]
    generalize Nat.ofDigitChars 10 (fraction.take exponent) 0 = high at *
    generalize Nat.ofDigitChars 10 (fraction.drop exponent) 0 = low at *
    rw [split, cut] at denotes
    generalize (fraction.drop exponent).length = rest at *
    have scaled : magnitude * 10 ^ rest =
        (Nat.ofDigitChars 10 integer 0 * 10 ^ exponent + high) * 10 ^ rest + low := by
      refine Nat.eq_of_mul_eq_mul_left (Nat.pow_pos (by decide : 0 < 10) : 0 < 10 ^ exponent) ?_
      calc 10 ^ exponent * (magnitude * 10 ^ rest)
          = magnitude * 10 ^ (exponent + rest) := by ring
        _ = (10 ^ (exponent + rest) * Nat.ofDigitChars 10 integer 0 + (10 ^ rest * high + low)) *
            10 ^ exponent := denotes
        _ = 10 ^ exponent * ((Nat.ofDigitChars 10 integer 0 * 10 ^ exponent + high) * 10 ^ rest +
            low) := by ring
    have quotient := congrArg (· / 10 ^ rest) scaled
    simp only [Nat.mul_div_cancel _ (Nat.pow_pos (by decide : 0 < 10) : 0 < 10 ^ rest)] at quotient
    rw [Nat.mul_comm _ (10 ^ rest), Nat.mul_add_div (Nat.pow_pos (by decide)),
      Nat.div_eq_of_lt below, Nat.add_zero] at quotient
    exact quotient

theorem magnitudeOf_eq {exponent magnitude : Nat} (small : exponent ≤ 6)
    (fits : (magnitude : Int) ≤ maxI64) (denotes : Denotes exponent magnitude integer fraction)
    (digits : ∀ char ∈ fraction, char.isDigit = true) :
    magnitudeOf exponent integer fraction = some (magnitude : Int) := by
  have sum := denotes.eq digits
  have positive : 0 < 10 ^ exponent := Nat.pow_pos (by decide)
  have integerFits : Nat.ofDigitChars 10 integer 0 ≤ magnitude := by
    have := Nat.le_mul_of_pos_right (Nat.ofDigitChars 10 integer 0) positive
    omega
  have scales : ∀ exponent ≤ 6, checkedI64 ((10 : Int) ^ exponent) = some (10 ^ exponent) := by
    decide
  unfold magnitudeOf
  rw [numberOf_eq (by omega), numberOf_eq (by omega), scales exponent small]
  have cast : ((Nat.ofDigitChars 10 integer 0 * 10 ^ exponent : Nat) : Int) =
      (Nat.ofDigitChars 10 integer 0 : Int) * 10 ^ exponent := by push_cast; rfl
  have scaled : checkedI64 ((Nat.ofDigitChars 10 integer 0 : Int) * 10 ^ exponent) =
      some ((Nat.ofDigitChars 10 integer 0 : Int) * 10 ^ exponent) := by
    refine checkedI64_eq_some.mpr ⟨⟨?_, ?_⟩, rfl⟩ <;> rw [← cast]
    · unfold minI64
      omega
    · omega
  simp only [Option.bind_eq_bind, Option.bind_some, scaled]
  refine checkedI64_eq_some.mpr ⟨⟨?_, ?_⟩, ?_⟩ <;> rw [← cast]
  · unfold minI64
    omega
  · omega
  · omega

end Dohflow.Importers

namespace Dohflow.CsvImporter

open MachineIntegers Importers DbWorker

/-! ### Spellings -/

/-- How the sign of an amount is written. -/
inductive SignForm where
  | bare
  | plus
  | hyphen
  | minusSign
  | parentheses

/-- Whether a sign makes an amount negative. -/
def SignForm.negative : SignForm → Bool
  | .bare | .plus => false
  | .hyphen | .minusSign | .parentheses => true

/-- Where the currency symbol stands, against the sign and the number. -/
inductive Placement where
  | behindSign
  | beforeSign
  | behindNumber

/-- The characters that a currency symbol is spelled with. -/
def isSymbol (char : Char) : Bool :=
  !(char.isDigit || isMinus char || isWhitespace char || char ∈ ['.', ',', '+', '(', ')'])

/-- The currency signs of an amount cell. -/
def currencySigns : List Char :=
  ['$', '€', '£', '¥', '₹', '₩', '₽', '₺', '₪', '₫', '₱', '₦', '₴', '₸', '¢', '₡', '₲', '₵', '₭',
    '₮', '₼', '₾', '฿']

example : currencySigns.all isSymbol = true := rfl

/-- An amount as it is written: the digits of its integer part, plain or grouped in threes, a
fraction, a currency symbol and a sign. -/
structure WrittenAmount where
  first : List Char
  groups : List (List Char)
  fraction : Option (List Char)
  symbol : List Char
  sign : SignForm
  placement : Placement
  digits : ∀ char ∈ first ++ groups.flatten ++ fraction.getD [], char.isDigit = true
  some_digit : first ++ groups.flatten ++ fraction.getD [] ≠ []
  grouped : groups = [] ∨ (1 ≤ first.length ∧ first.length ≤ 3 ∧ ∀ group ∈ groups, group.length = 3)
  symbolic : ∀ char ∈ symbol, isSymbol char = true

variable (amount : WrittenAmount)
variable {negative : Bool} {groups : List (List Char)} {holds : Char → Bool} {separator : Char}
variable {char : Char} {body : List Char} (decimalComma : Bool) {mark : Char}
  {exponent magnitude : Nat}

/-- The digits before the point. -/
def WrittenAmount.integer : List Char := amount.first ++ amount.groups.flatten

/-- The integer part with its thousands separators. -/
def WrittenAmount.integerText : List Char := [','].intercalate (amount.first :: amount.groups)

def WrittenAmount.number : List Char :=
  amount.integerText ++ (amount.fraction.map ('.' :: ·)).getD []

/-- The number with its symbol, and `mark` where a sign stands. -/
def WrittenAmount.marked (mark : List Char) : List Char :=
  match amount.placement with
  | .behindSign => mark ++ amount.symbol ++ amount.number
  | .beforeSign => amount.symbol ++ mark ++ amount.number
  | .behindNumber => mark ++ amount.number ++ amount.symbol

/-- The text of an amount, with a point and commas. -/
def WrittenAmount.text : List Char :=
  match amount.sign with
  | .bare => amount.marked []
  | .plus => amount.marked ['+']
  | .hyphen => amount.marked ['-']
  | .minusSign => amount.marked ['\u2212']
  | .parentheses => ['('] ++ amount.marked [] ++ [')']

/-! ### Signs -/

/-- The characters that neither a sign nor the edge of a text is made of. -/
def isPlain (char : Char) : Bool :=
  !(isMinus char || isWhitespace char || char ∈ ['+', '(', ')'])

theorem isWhitespace_of_isDigit (digit : char.isDigit = true) : isWhitespace char = false := by
  obtain ⟨low, high⟩ := Char.isDigit_iff_toNat.mp digit
  have zero : '0'.toNat = 48 := rfl
  have nine : '9'.toNat = 57 := rfl
  rw [Bool.eq_false_iff]
  unfold isWhitespace
  simp only [Bool.or_eq_true, Bool.and_eq_true, decide_eq_true_eq, List.mem_cons,
    List.not_mem_nil, or_false, ne_eq]
  omega

theorem ne_of_isDigit {char other : Char} (digit : char.isDigit = true)
    (apart : other.isDigit = false) : char ≠ other := by
  rintro rfl
  rw [digit] at apart
  cases apart

theorem isPlain_of_isDigit (digit : char.isDigit = true) : isPlain char = true := by
  have ne (other : Char) (apart : other.isDigit = false) := ne_of_isDigit digit apart
  simp [isPlain, isMinus, isWhitespace_of_isDigit digit, ne '-' rfl, ne '\u2212' rfl, ne '+' rfl,
    ne '(' rfl, ne ')' rfl]

theorem isPlain_of_isSymbol (symbolic : isSymbol char = true) : isPlain char = true := by
  unfold isSymbol at symbolic
  unfold isPlain
  simp only [Bool.not_eq_true', Bool.or_eq_false_iff, decide_eq_false_iff_not, List.mem_cons,
    List.not_mem_nil, not_or] at symbolic ⊢
  obtain ⟨⟨⟨-, minus⟩, space⟩, -, -, plus, opening, closing, -⟩ := symbolic
  exact ⟨⟨minus, space⟩, plus, opening, closing, not_false⟩

/-- Nothing in a text is a sign or an edge. -/
def Plain (text : List Char) : Prop := ∀ char ∈ text, isPlain char = true

theorem Plain.append {first second : List Char} (plain : Plain first) (later : Plain second) :
    Plain (first ++ second) := by
  intro char member
  rcases List.mem_append.mp member with inside | inside
  · exact plain char inside
  · exact later char inside

theorem isMinus_of_isPlain (plain : isPlain char = true) : isMinus char = false := by
  unfold isPlain at plain
  simp only [Bool.not_eq_true', Bool.or_eq_false_iff] at plain
  exact plain.1.1

theorem isWhitespace_of_isPlain (plain : isPlain char = true) : isWhitespace char = false := by
  unfold isPlain at plain
  simp only [Bool.not_eq_true', Bool.or_eq_false_iff] at plain
  exact plain.1.2

theorem ne_of_isPlain {char other : Char} (plain : isPlain char = true)
    (apart : isPlain other = false) : char ≠ other := by
  rintro rfl
  rw [plain] at apart
  cases apart

theorem trimStart_eq {text : List Char} (solid : ∀ char ∈ text, isWhitespace char = false) :
    trimStart text = text := by
  cases text with
  | nil => rfl
  | cons first rest =>
    refine List.dropWhile_cons_of_neg ?_
    rw [solid first List.mem_cons_self]
    exact Bool.false_ne_true

theorem trim_eq {text : List Char} (solid : ∀ char ∈ text, isWhitespace char = false) :
    trim text = text := by
  have reversed := @trimStart_eq text.reverse fun char member =>
    solid char (List.mem_reverse.mp member)
  unfold trim
  rw [trimStart_eq solid]
  unfold trimStart at reversed
  rw [reversed, List.reverse_reverse]

theorem Plain.trimStart_eq {text : List Char} (plain : Plain text) : trimStart text = text :=
  CsvImporter.trimStart_eq fun char member => isWhitespace_of_isPlain (plain char member)

theorem Plain.trim_eq {text : List Char} (plain : Plain text) : trim text = text :=
  CsvImporter.trim_eq fun char member => isWhitespace_of_isPlain (plain char member)

theorem stripInnerMinus_eq (none : ∀ char ∈ body, isMinus char = false) :
    stripInnerMinus negative body = (negative, body) := by
  have nothing : body.dropWhile (fun char => !isMinus char) = [] := by
    rw [List.dropWhile_eq_nil_iff]
    intro char member
    rw [none char member]
    rfl
  unfold stripInnerMinus
  rw [nothing]

theorem Plain.stripInnerMinus_eq (plain : Plain body) :
    stripInnerMinus negative body = (negative, body) :=
  CsvImporter.stripInnerMinus_eq fun char member => isMinus_of_isPlain (plain char member)

theorem stripParentheses_eq {first : Char} {rest : List Char} (other : first ≠ '(') :
    stripParentheses (first :: rest) = (false, first :: rest) := by
  unfold stripParentheses
  rw [show enclosed (first :: rest) = none from ?_]
  unfold enclosed
  split
  · rename_i same
    exact absurd (List.cons.inj same).1 other
  · rfl

theorem Plain.stripSign_eq (plain : Plain body) : stripSign negative body = (negative, body) := by
  cases body with
  | nil => rfl
  | cons first rest =>
    have head := plain first List.mem_cons_self
    dsimp only [stripSign]
    rw [isMinus_of_isPlain head, if_neg Bool.false_ne_true,
      if_neg (ne_of_isPlain head rfl)]

theorem readSigns_plain (plain : Plain body) : readSigns body = (false, body) := by
  cases body with
  | nil => rfl
  | cons first rest =>
    have head := plain first List.mem_cons_self
    unfold readSigns
    rw [stripParentheses_eq (ne_of_isPlain head rfl)]
    dsimp only
    rw [plain.stripSign_eq]
    exact plain.stripInnerMinus_eq

theorem readSigns_minus (minus : isMinus mark = true) (plain : Plain body) :
    readSigns (mark :: body) = (true, body) := by
  have other : mark ≠ '(' := by
    rintro rfl
    exact absurd minus (by decide)
  unfold readSigns
  rw [stripParentheses_eq other]
  dsimp only [stripSign]
  rw [if_pos minus, plain.trimStart_eq]
  exact plain.stripInnerMinus_eq

theorem readSigns_plus (plain : Plain body) : readSigns ('+' :: body) = (false, body) := by
  unfold readSigns
  rw [stripParentheses_eq (by decide)]
  dsimp only [stripSign]
  rw [if_neg (by decide), if_pos rfl, plain.trimStart_eq]
  exact plain.stripInnerMinus_eq

theorem readSigns_parentheses (plain : Plain body) :
    readSigns (['('] ++ body ++ [')']) = (true, body) := by
  have inner : enclosed (['('] ++ body ++ [')']) = some body := by
    show stripSuffix ')' (body ++ [')']) = some body
    unfold stripSuffix
    rw [if_pos List.getLast?_concat, List.dropLast_concat]
  unfold readSigns stripParentheses
  rw [inner]
  dsimp only
  rw [plain.trim_eq, plain.stripSign_eq]
  exact plain.stripInnerMinus_eq

theorem readSigns_innerMinus {symbol body : List Char} (minus : isMinus mark = true)
    (symbolic : Plain symbol) (digitless : ∀ char ∈ symbol, char.isDigit = false)
    (plain : Plain body) : readSigns (symbol ++ mark :: body) = (true, body) := by
  cases symbol with
  | nil => exact readSigns_minus minus plain
  | cons first rest =>
    have head := symbolic first List.mem_cons_self
    have free : ∀ char ∈ first :: rest, (!isMinus char) = true := by
      intro char member
      rw [isMinus_of_isPlain (symbolic char member)]
      rfl
    have stop : (!isMinus mark) = false := by rw [minus]; rfl
    have before : ((first :: rest) ++ mark :: body).takeWhile (fun char => !isMinus char) =
        first :: rest := by
      rw [List.takeWhile_append_of_pos free, List.takeWhile_cons_of_neg (by rw [stop]; decide),
        List.append_nil]
    have after : ((first :: rest) ++ mark :: body).dropWhile (fun char => !isMinus char) =
        mark :: body := by
      rw [List.dropWhile_append_of_pos free, List.dropWhile_cons_of_neg (by rw [stop]; decide)]
    have nodigit : ((first :: rest).all fun char => !char.isDigit) = true := by
      rw [List.all_eq_true]
      intro char member
      rw [digitless char member]
      rfl
    unfold readSigns
    rw [List.cons_append, stripParentheses_eq (ne_of_isPlain head rfl)]
    dsimp only [stripSign]
    rw [isMinus_of_isPlain head, if_neg Bool.false_ne_true,
      if_neg (ne_of_isPlain head rfl)]
    unfold stripInnerMinus
    dsimp only
    rw [← List.cons_append, after, before]
    dsimp only
    rw [if_pos nodigit]
    rfl

theorem readSigns_innerPlus {symbol body : List Char} (symbolic : Plain symbol)
    (plain : Plain body) (some : symbol ≠ []) :
    readSigns (symbol ++ '+' :: body) = (false, symbol ++ '+' :: body) := by
  obtain ⟨first, rest, rfl⟩ := List.exists_cons_of_ne_nil some
  have head := symbolic first List.mem_cons_self
  unfold readSigns
  rw [List.cons_append, stripParentheses_eq (ne_of_isPlain head rfl)]
  dsimp only [stripSign]
  rw [isMinus_of_isPlain head, if_neg Bool.false_ne_true,
    if_neg (ne_of_isPlain head rfl)]
  refine stripInnerMinus_eq fun char member => ?_
  rw [← List.cons_append] at member
  rcases List.mem_append.mp member with inside | inside
  · exact isMinus_of_isPlain (symbolic char inside)
  · rcases List.mem_cons.mp inside with rfl | later
    · decide
    · exact isMinus_of_isPlain (plain char later)

/-! ### Numbers -/

theorem cleaned_append (first second : List Char) :
    cleaned decimalComma (first ++ second) =
      cleaned decimalComma first ++ cleaned decimalComma second := List.filter_append _ _

theorem cleaned_symbol {symbol : List Char} (symbolic : ∀ char ∈ symbol, isSymbol char = true) :
    cleaned false symbol = [] := by
  refine List.filter_eq_nil_iff.mpr fun char member => ?_
  have apart := symbolic char member
  unfold isSymbol at apart
  simp only [Bool.not_eq_true', Bool.or_eq_false_iff, decide_eq_false_iff_not, List.mem_cons,
    not_or] at apart
  obtain ⟨⟨⟨digit, -⟩, -⟩, point, comma, -⟩ := apart
  simp [digit, decimalOf, thousandsOf, point, comma]

theorem WrittenAmount.isDigit_first (member : char ∈ amount.first) :
    char.isDigit = true := amount.digits char (by simp [member])

theorem WrittenAmount.isDigit_group {group : List Char} (grouped : group ∈ amount.groups)
    (member : char ∈ group) : char.isDigit = true :=
  amount.digits char (by simp only [List.mem_append, List.mem_flatten]; grind)

theorem WrittenAmount.isDigit_fraction {char : Char} (member : char ∈ amount.fraction.getD []) :
    char.isDigit = true := amount.digits char (List.mem_append_right _ member)

theorem mem_intercalate {separator char : Char} (member : char ∈ [separator].intercalate groups) :
    char = separator ∨ ∃ group ∈ groups, char ∈ group := by
  induction groups with
  | nil => cases member
  | cons first rest inductionHypothesis =>
    cases rest with
    | nil => exact .inr ⟨first, List.mem_cons_self, by simpa using member⟩
    | cons second others =>
      rw [List.intercalate_cons_cons, List.append_assoc] at member
      rcases List.mem_append.mp member with inside | inside
      · exact .inr ⟨first, List.mem_cons_self, inside⟩
      · rcases List.mem_append.mp inside with same | later
        · exact .inl (List.mem_singleton.mp same)
        · rcases inductionHypothesis later with same | ⟨group, held, inside⟩
          · exact .inl same
          · exact .inr ⟨group, List.mem_cons_of_mem _ held, inside⟩

theorem filter_intercalate (apart : separator.isDigit = false)
    (digits : ∀ group ∈ groups, ∀ char ∈ group, char.isDigit = true) :
    ([separator].intercalate groups).filter Char.isDigit = groups.flatten := by
  induction groups with
  | nil => rfl
  | cons first rest inductionHypothesis =>
    have head : first.filter Char.isDigit = first :=
      List.filter_eq_self.mpr (digits first List.mem_cons_self)
    cases rest with
    | nil => simpa using digits first List.mem_cons_self
    | cons second others =>
      rw [List.intercalate_cons_cons, List.filter_append, List.filter_append, head,
        List.filter_cons_of_neg (by rw [apart]; decide), List.filter_nil, List.append_nil,
        inductionHypothesis fun group held => digits group (List.mem_cons_of_mem _ held)]
      rfl

theorem WrittenAmount.digits_integerText :
    ∀ char ∈ amount.integerText, char = ',' ∨ char.isDigit = true := by
  intro char member
  rcases mem_intercalate member with same | ⟨group, held, inside⟩
  · exact .inl same
  · rcases List.mem_cons.mp held with rfl | later
    · exact .inr (amount.isDigit_first inside)
    · exact .inr (amount.isDigit_group later inside)

theorem WrittenAmount.filter_integerText :
    amount.integerText.filter Char.isDigit = amount.integer := by
  refine (filter_intercalate rfl fun group held char member => ?_).trans List.flatten_cons
  rcases List.mem_cons.mp held with rfl | later
  · exact amount.isDigit_first member
  · exact amount.isDigit_group later member

theorem WrittenAmount.validGrouping_integerText :
    validGrouping amount.integerText ',' = true := by
  have split : amount.integerText.splitOn ',' = amount.first :: amount.groups := by
    refine List.splitOn_intercalate ',' (fun group held comma => ?_) (List.cons_ne_nil _ _)
    have digit : (',' : Char).isDigit = true := by
      rcases List.mem_cons.mp held with rfl | later
      · exact amount.isDigit_first comma
      · exact amount.isDigit_group later comma
    exact absurd digit (by decide)
  unfold validGrouping
  dsimp only
  split_ifs with comma
  · rw [split]
    rcases amount.grouped with none | ⟨low, high, threes⟩
    · refine absurd ?_ (by decide : ¬ (',' : Char).isDigit = true)
      unfold WrittenAmount.integerText at comma
      rw [none, List.intercalate_singleton] at comma
      exact amount.isDigit_first comma
    · simpa [low, high] using threes
  · rfl

theorem WrittenAmount.point_not_mem : '.' ∉ amount.integerText := by
  intro member
  rcases amount.digits_integerText '.' member with same | digit
  · exact absurd same (by decide)
  · exact absurd digit (by decide)

theorem WrittenAmount.splitOnce_number :
    (splitOnce '.' amount.number).getD (amount.number, []) =
      (amount.integerText, amount.fraction.getD []) := by
  unfold WrittenAmount.number splitOnce
  cases amount.fraction with
  | none =>
    have absent : '.' ∉ amount.integerText ++ (Option.map ('.' :: ·) none).getD [] := by
      rw [Option.map_none, Option.getD_none, List.append_nil]
      exact amount.point_not_mem
    rw [if_neg absent, Option.getD_none, Option.map_none, Option.getD_none, List.append_nil]
  | some fraction =>
    rw [Option.map_some, Option.getD_some,
      if_pos (List.mem_append_right _ List.mem_cons_self), Option.getD_some]
    have free : ∀ char ∈ amount.integerText, decide (char ≠ '.') = true := by
      intro char member
      refine decide_eq_true ?_
      rintro rfl
      exact amount.point_not_mem member
    rw [List.takeWhile_append_of_pos free, List.dropWhile_append_of_pos free,
      List.takeWhile_cons_of_neg (by decide), List.dropWhile_cons_of_neg (by decide),
      List.append_nil, List.tail_cons, Option.getD_some]

theorem WrittenAmount.mem_number (member : char ∈ amount.number) :
    char = '.' ∨ char = ',' ∨ char.isDigit = true := by
  rcases List.mem_append.mp member with inside | inside
  · exact .inr (amount.digits_integerText char inside)
  · have digits := fun char => @WrittenAmount.isDigit_fraction amount char
    cases found : amount.fraction with
    | none =>
      rw [found] at inside
      cases inside
    | some fraction =>
      rw [found] at inside digits
      rcases List.mem_cons.mp inside with same | later
      · exact .inl same
      · exact .inr (.inr (digits char later))

theorem WrittenAmount.cleaned_number : cleaned false amount.number = amount.number := by
  refine List.filter_eq_self.mpr fun char member => ?_
  rcases amount.mem_number member with rfl | rfl | digit
  · rfl
  · rfl
  · rw [digit]
    rfl

theorem WrittenAmount.digit_number : amount.number.any Char.isDigit = true := by
  have kept : amount.number.filter Char.isDigit =
      amount.integer ++ amount.fraction.getD [] := by
    unfold WrittenAmount.number
    rw [List.filter_append, amount.filter_integerText]
    have digits := fun char => @WrittenAmount.isDigit_fraction amount char
    cases found : amount.fraction with
    | none => rfl
    | some fraction =>
      rw [found] at digits
      congr 1
      exact List.filter_eq_self.mpr digits
  rw [List.any_eq_true]
  obtain ⟨first, member⟩ := List.exists_mem_of_ne_nil _ amount.some_digit
  have inside : first ∈ amount.number.filter Char.isDigit := by
    rw [kept]
    exact member
  exact ⟨first, (List.mem_filter.mp inside).1, (List.mem_filter.mp inside).2⟩

theorem readNumber_eq {exponent : Nat} {text integer fraction : List Char}
    (some_digit : text.any Char.isDigit = true)
    (split : (splitOnce '.' text).getD (text, []) = (integer, fraction))
    (free : ∀ char ∈ fraction, char.isDigit = true) (grouped : validGrouping integer ',' = true) :
    readNumber exponent false text =
      magnitudeOf exponent (integer.filter Char.isDigit) fraction := by
  have none : ¬ ('.' ∈ fraction ∨ ',' ∈ fraction) := by
    rintro (point | comma)
    · exact absurd (free '.' point) (by decide)
    · exact absurd (free ',' comma) (by decide)
  unfold readNumber
  rw [some_digit, if_neg (by decide), decimalOf, thousandsOf, if_neg Bool.false_ne_true,
    if_neg Bool.false_ne_true, split]
  dsimp only
  rw [if_neg none, grouped, if_neg (by decide)]

theorem WrittenAmount.readNumber_number (small : exponent ≤ 6) (fits : (magnitude : Int) ≤ maxI64)
    (denotes : Denotes exponent magnitude amount.integer (amount.fraction.getD [])) :
    readNumber exponent false amount.number = some (magnitude : Int) := by
  have digits := fun char => @WrittenAmount.isDigit_fraction amount char
  rw [readNumber_eq amount.digit_number amount.splitOnce_number digits
    amount.validGrouping_integerText, amount.filter_integerText]
  exact magnitudeOf_eq small fits denotes digits

theorem WrittenAmount.plain_number : Plain amount.number := by
  intro char member
  rcases amount.mem_number member with rfl | rfl | digit
  · rfl
  · rfl
  · exact isPlain_of_isDigit digit

theorem WrittenAmount.plain_symbol : Plain amount.symbol := fun char member =>
  isPlain_of_isSymbol (amount.symbolic char member)

theorem WrittenAmount.digitless_symbol : ∀ char ∈ amount.symbol, char.isDigit = false := by
  intro char member
  have symbolic := amount.symbolic char member
  unfold isSymbol at symbolic
  simp only [Bool.not_eq_true', Bool.or_eq_false_iff] at symbolic
  exact symbolic.1.1.1

theorem WrittenAmount.plain_bare : Plain (amount.marked []) := by
  have number := amount.plain_number
  have symbol := amount.plain_symbol
  unfold WrittenAmount.marked
  cases amount.placement with
  | behindSign => exact symbol.append number
  | beforeSign =>
    dsimp only
    rw [List.append_nil]
    exact symbol.append number
  | behindNumber => exact number.append symbol

theorem WrittenAmount.cleaned_bare : cleaned false (amount.marked []) = amount.number := by
  unfold WrittenAmount.marked
  cases amount.placement with
  | behindSign =>
    dsimp only
    rw [List.nil_append, cleaned_append, cleaned_symbol amount.symbolic, amount.cleaned_number,
      List.nil_append]
  | beforeSign =>
    dsimp only
    rw [List.append_nil, cleaned_append, cleaned_symbol amount.symbolic, amount.cleaned_number,
      List.nil_append]
  | behindNumber =>
    dsimp only
    rw [List.nil_append, cleaned_append, cleaned_symbol amount.symbolic, amount.cleaned_number,
      List.append_nil]

theorem WrittenAmount.readSigns_minus (minus : isMinus mark = true) :
    ∃ body, readSigns (amount.marked [mark]) = (true, body) ∧ cleaned false body = amount.number := by
  have number := amount.plain_number
  have symbol := amount.plain_symbol
  have kept := amount.cleaned_bare
  unfold WrittenAmount.marked at kept ⊢
  cases placed : amount.placement with
  | behindSign =>
    rw [placed] at kept
    exact ⟨_, CsvImporter.readSigns_minus minus (symbol.append number), kept⟩
  | beforeSign =>
    dsimp only
    rw [List.append_assoc]
    exact ⟨_, readSigns_innerMinus minus symbol amount.digitless_symbol number,
      amount.cleaned_number⟩
  | behindNumber =>
    rw [placed] at kept
    exact ⟨_, CsvImporter.readSigns_minus minus (number.append symbol), kept⟩

theorem WrittenAmount.readSigns_plus :
    ∃ body, readSigns (amount.marked ['+']) = (false, body) ∧
      cleaned false body = amount.number := by
  have number := amount.plain_number
  have symbol := amount.plain_symbol
  have kept := amount.cleaned_bare
  unfold WrittenAmount.marked at kept ⊢
  cases placed : amount.placement with
  | behindSign =>
    rw [placed] at kept
    exact ⟨_, CsvImporter.readSigns_plus (symbol.append number), kept⟩
  | beforeSign =>
    rw [placed] at kept
    dsimp only at kept ⊢
    rw [List.append_nil] at kept
    rw [List.append_assoc]
    by_cases none : amount.symbol = []
    · rw [none] at kept ⊢
      exact ⟨_, CsvImporter.readSigns_plus number, kept⟩
    · refine ⟨_, readSigns_innerPlus symbol number none, ?_⟩
      rw [cleaned_append]
      show cleaned false amount.symbol ++ cleaned false amount.number = amount.number
      rw [← cleaned_append]
      exact kept
  | behindNumber =>
    rw [placed] at kept
    exact ⟨_, CsvImporter.readSigns_plus (number.append symbol), kept⟩

theorem WrittenAmount.readSigns_text :
    ∃ body, readSigns amount.text = (amount.sign.negative, body) ∧
      cleaned false body = amount.number := by
  unfold WrittenAmount.text
  cases amount.sign with
  | bare => exact ⟨_, readSigns_plain amount.plain_bare, amount.cleaned_bare⟩
  | plus => exact amount.readSigns_plus
  | hyphen => exact amount.readSigns_minus (by decide)
  | minusSign => exact amount.readSigns_minus (by decide)
  | parentheses => exact ⟨_, readSigns_parentheses amount.plain_bare, amount.cleaned_bare⟩

theorem isWhitespace_of_isMinus (minus : isMinus char = true) : isWhitespace char = false := by
  unfold isMinus at minus
  rw [Bool.or_eq_true, decide_eq_true_eq, decide_eq_true_eq] at minus
  rcases minus with rfl | rfl <;> rfl

theorem WrittenAmount.mem_marked {mark : List Char} (member : char ∈ amount.marked mark) :
    char ∈ mark ∨ char ∈ amount.symbol ∨ char ∈ amount.number := by
  unfold WrittenAmount.marked at member
  cases placed : amount.placement with
  | behindSign | beforeSign | behindNumber =>
    rw [placed] at member
    simp only [List.mem_append] at member
    tauto

theorem WrittenAmount.solid_text : ∀ char ∈ amount.text, isWhitespace char = false := by
  have marked {mark : List Char} (solid : ∀ char ∈ mark, isWhitespace char = false) :
      ∀ char ∈ amount.marked mark, isWhitespace char = false := by
    intro char member
    rcases amount.mem_marked member with inside | inside | inside
    · exact solid char inside
    · exact isWhitespace_of_isPlain (amount.plain_symbol char inside)
    · exact isWhitespace_of_isPlain (amount.plain_number char inside)
  unfold WrittenAmount.text
  cases amount.sign with
  | bare => exact marked fun _ member => absurd member List.not_mem_nil
  | plus => exact marked (List.forall_mem_singleton.mpr rfl)
  | hyphen => exact marked (List.forall_mem_singleton.mpr rfl)
  | minusSign => exact marked (List.forall_mem_singleton.mpr rfl)
  | parentheses =>
    intro char member
    rcases List.mem_append.mp member with inside | closing
    · rcases List.mem_append.mp inside with opening | body
      · rw [List.mem_singleton.mp opening]
        rfl
      · exact marked (fun _ member => absurd member List.not_mem_nil) char body
    · rw [List.mem_singleton.mp closing]
      rfl

theorem WrittenAmount.text_ne_nil : amount.text ≠ [] := by
  obtain ⟨body, taken, kept⟩ := amount.readSigns_text
  intro empty
  rw [empty] at taken
  have same : body = [] := (Prod.mk.inj taken).2.symm
  have digit := amount.digit_number
  rw [← kept, same] at digit
  cases digit

theorem WrittenAmount.parse_text (small : exponent ≤ 6) (fits : (magnitude : Int) ≤ maxI64)
    (denotes : Denotes exponent magnitude amount.integer (amount.fraction.getD [])) :
    parseMinorUnits amount.text exponent false = some (signed amount.sign.negative magnitude) := by
  obtain ⟨body, taken, kept⟩ := amount.readSigns_text
  unfold parseMinorUnits
  rw [CsvImporter.trim_eq amount.solid_text, if_neg amount.text_ne_nil, taken]
  dsimp only
  rw [kept, amount.readNumber_number small fits denotes, Option.map_some]

/-! ### The other separators -/

/-- Points for commas, and commas for points. -/
def exchange (char : Char) : Char :=
  if char = '.' then ',' else if char = ',' then '.' else char

theorem exchange_exchange (char : Char) : exchange (exchange char) = char := by
  unfold exchange
  split_ifs <;> simp_all

theorem exchange_injective : Function.Injective exchange :=
  Function.LeftInverse.injective exchange_exchange

theorem exchange_eq_iff {char other : Char} : exchange char = exchange other ↔ char = other :=
  exchange_injective.eq_iff

theorem exchange_keeps {holds : Char → Bool} (alike : holds '.' = holds ',') (char : Char) :
    holds (exchange char) = holds char := by
  unfold exchange
  split_ifs with point comma
  · rw [point, alike]
  · rw [comma, alike]
  · rfl

theorem isDigit_exchange (char : Char) : (exchange char).isDigit = char.isDigit :=
  @exchange_keeps Char.isDigit rfl char

theorem isMinus_exchange (char : Char) : isMinus (exchange char) = isMinus char :=
  exchange_keeps (by decide) char

theorem exchange_eq_other {char other : Char} (point : other ≠ '.') (comma : other ≠ ',') :
    exchange char = other ↔ char = other := by
  have fixed : exchange other = other := by
    unfold exchange
    rw [if_neg point, if_neg comma]
  rw [← fixed, exchange_eq_iff, fixed]

theorem exchange_of_isDigit (digit : char.isDigit = true) : exchange char = char := by
  unfold exchange
  rw [if_neg (ne_of_isDigit digit rfl), if_neg (ne_of_isDigit digit rfl)]

theorem map_exchange_of_digits {digits : List Char}
    (all : ∀ char ∈ digits, char.isDigit = true) : digits.map exchange = digits :=
  (List.map_congr_left fun char member => exchange_of_isDigit (all char member)).trans
    (List.map_id _)

theorem decimalOf_not :
    decimalOf (!decimalComma) = exchange (decimalOf decimalComma) := by cases decimalComma <;> rfl

theorem thousandsOf_not : thousandsOf (!decimalComma) = exchange (thousandsOf decimalComma) := by
  cases decimalComma <;> rfl

theorem dropWhile_exchange (alike : holds '.' = holds ',') (text : List Char) :
    (text.map exchange).dropWhile holds = (text.dropWhile holds).map exchange := by
  rw [List.dropWhile_map]
  congr 2
  funext char
  exact exchange_keeps alike char

theorem takeWhile_exchange (alike : holds '.' = holds ',') (text : List Char) :
    (text.map exchange).takeWhile holds = (text.takeWhile holds).map exchange := by
  rw [List.takeWhile_map]
  congr 2
  funext char
  exact exchange_keeps alike char

theorem trimStart_exchange (text : List Char) :
    trimStart (text.map exchange) = (trimStart text).map exchange :=
  dropWhile_exchange rfl text

theorem trim_exchange (text : List Char) :
    trim (text.map exchange) = (trim text).map exchange := by
  unfold trim
  rw [trimStart_exchange, ← List.map_reverse, dropWhile_exchange rfl,
    List.map_reverse]

theorem enclosed_exchange (text : List Char) :
    enclosed (text.map exchange) = (enclosed text).map (List.map exchange) := by
  cases text with
  | nil => rfl
  | cons first rest =>
    by_cases opening : first = '('
    · subst opening
      show stripSuffix ')' (rest.map exchange) = (stripSuffix ')' rest).map (List.map exchange)
      have last : (rest.map exchange).getLast? = some ')' ↔ rest.getLast? = some ')' := by
        rw [List.getLast?_map, Option.map_eq_some_iff]
        constructor
        · rintro ⟨char, found, same⟩
          rw [found, (exchange_eq_other (by decide) (by decide)).mp same]
        · intro found
          exact ⟨')', found, rfl⟩
      unfold stripSuffix
      by_cases closed : rest.getLast? = some ')'
      · rw [if_pos closed, if_pos (last.mpr closed), Option.map_some, List.map_dropLast]
      · rw [if_neg closed, if_neg fun same => closed (last.mp same), Option.map_none]
    · have other {char : Char} {tail : List Char} (apart : char ≠ '(') :
          enclosed (char :: tail) = none := by
        unfold enclosed
        split
        · rename_i same
          exact absurd (List.cons.inj same).1 apart
        · rfl
      have exchanged : exchange first ≠ '(' := fun same =>
        opening ((exchange_eq_other (by decide) (by decide)).mp same)
      rw [List.map_cons, other exchanged, other opening, Option.map_none]

theorem stripParentheses_exchange (text : List Char) :
    stripParentheses (text.map exchange) =
      ((stripParentheses text).1, (stripParentheses text).2.map exchange) := by
  unfold stripParentheses
  rw [enclosed_exchange]
  cases enclosed text with
  | none => rfl
  | some inner => exact congrArg (Prod.mk true) (trim_exchange inner)

theorem stripSign_exchange (negative : Bool) (text : List Char) :
    stripSign negative (text.map exchange) =
      ((stripSign negative text).1, (stripSign negative text).2.map exchange) := by
  cases text with
  | nil => rfl
  | cons first rest =>
    rw [List.map_cons]
    dsimp only [stripSign]
    have plus := @exchange_eq_other first '+' (by decide) (by decide)
    simp only [isMinus_exchange, plus, trimStart_exchange]
    split_ifs <;> rfl

theorem stripInnerMinus_exchange (negative : Bool) (body : List Char) :
    stripInnerMinus negative (body.map exchange) =
      ((stripInnerMinus negative body).1, (stripInnerMinus negative body).2.map exchange) := by
  have digitless (part : List Char) : ((part.map exchange).all fun char => !char.isDigit) =
      part.all fun char => !char.isDigit := by
    rw [List.all_map]
    congr 1
    funext char
    exact congrArg not (isDigit_exchange char)
  unfold stripInnerMinus
  rw [dropWhile_exchange (by decide), takeWhile_exchange (by decide), digitless]
  cases body.dropWhile fun char => !isMinus char with
  | nil => rfl
  | cons minus rest =>
    rw [List.map_cons]
    dsimp only
    split_ifs <;> rfl

theorem readSigns_exchange (text : List Char) :
    readSigns (text.map exchange) = ((readSigns text).1, (readSigns text).2.map exchange) := by
  unfold readSigns
  rw [stripParentheses_exchange]
  dsimp only
  rw [stripSign_exchange]
  exact stripInnerMinus_exchange _ _

theorem cleaned_exchange (body : List Char) :
    cleaned (!decimalComma) (body.map exchange) = (cleaned decimalComma body).map exchange := by
  unfold cleaned
  rw [List.filter_map]
  congr 2
  funext char
  simp only [Function.comp_apply, isDigit_exchange, decimalOf_not, thousandsOf_not, exchange_eq_iff]

theorem splitOnce_exchange (separator : Char) (text : List Char) :
    splitOnce (exchange separator) (text.map exchange) =
      (splitOnce separator text).map fun parts => (parts.1.map exchange, parts.2.map exchange) := by
  have same : (fun char => decide (char ≠ exchange separator)) ∘ exchange =
      fun char => decide (char ≠ separator) := by
    funext char
    simp only [Function.comp_apply, ne_eq, exchange_eq_iff]
  unfold splitOnce
  simp only [List.mem_map_of_injective exchange_injective, List.takeWhile_map, List.dropWhile_map,
    same]
  split_ifs
  · rw [Option.map_some, List.map_tail]
  · rfl

theorem splitOn_exchange (separator : Char) (text : List Char) :
    (text.map exchange).splitOn (exchange separator) =
      (text.splitOn separator).map (List.map exchange) := by
  induction text with
  | nil => rfl
  | cons first rest inductionHypothesis =>
    rw [List.map_cons, List.splitOn_cons_eq_if_modifyHead, List.splitOn_cons_eq_if_modifyHead,
      inductionHypothesis]
    simp only [beq_iff_eq, exchange_eq_iff]
    split_ifs
    · rfl
    · obtain ⟨group, groups, parts⟩ := List.exists_cons_of_ne_nil (List.splitOn_ne_nil separator rest)
      rw [parts]
      rfl

theorem validGrouping_exchange (integer : List Char) (separator : Char) :
    validGrouping (integer.map exchange) (exchange separator) = validGrouping integer separator := by
  obtain ⟨group, groups, parts⟩ :=
    List.exists_cons_of_ne_nil (List.splitOn_ne_nil separator integer)
  unfold validGrouping
  simp only [List.mem_map_of_injective exchange_injective, splitOn_exchange, parts,
    List.map_cons, List.headD_cons, List.tail_cons, List.length_map, List.all_map,
    Function.comp_def]

/-- A cleaned text is read as the same number when both the text and the dialect are exchanged. -/
theorem readNumber_exchange (exponent : Nat) (decimalComma : Bool) (body : List Char) :
    readNumber exponent (!decimalComma) (cleaned (!decimalComma) (body.map exchange)) =
      readNumber exponent decimalComma (cleaned decimalComma body) := by
  rw [cleaned_exchange]
  have kept : ∀ char ∈ cleaned decimalComma body, char.isDigit = true ∨
      char = decimalOf decimalComma ∨ char = thousandsOf decimalComma := by
    intro char member
    have passes := (List.mem_filter.mp member).2
    simpa [or_assoc] using passes
  generalize cleaned decimalComma body = text at kept ⊢
  have digits : (text.map exchange).any Char.isDigit = text.any Char.isDigit := by
    rw [List.any_map]
    congr 1
    funext char
    exact isDigit_exchange char
  have parts : (splitOnce (decimalOf (!decimalComma)) (text.map exchange)).getD
      (text.map exchange, []) =
      (((splitOnce (decimalOf decimalComma) text).getD (text, [])).1.map exchange,
        ((splitOnce (decimalOf decimalComma) text).getD (text, [])).2.map exchange) := by
    rw [decimalOf_not, splitOnce_exchange]
    cases splitOnce (decimalOf decimalComma) text <;> rfl
  have inside : ∀ char ∈ ((splitOnce (decimalOf decimalComma) text).getD (text, [])).2,
      char ∈ text := by
    unfold splitOnce
    split_ifs
    · intro char member
      exact (List.dropWhile_sublist _).subset (List.mem_of_mem_tail member)
    · intro char member
      cases member
  unfold readNumber
  rw [digits, parts]
  generalize (splitOnce (decimalOf decimalComma) text).getD (text, []) = split at inside ⊢
  obtain ⟨integer, fraction⟩ := split
  dsimp only at inside ⊢
  simp only [decimalOf_not, thousandsOf_not, List.mem_map_of_injective exchange_injective,
    validGrouping_exchange]
  split_ifs with _ separated
  · rfl
  · rfl
  · rfl
  · have fixed : fraction.map exchange = fraction := by
      refine map_exchange_of_digits fun char member => ?_
      rcases kept char (inside char member) with digit | same | same
      · exact digit
      · exact absurd (.inl (same ▸ member)) separated
      · exact absurd (.inr (same ▸ member)) separated
    have whole : (integer.map exchange).filter Char.isDigit = integer.filter Char.isDigit := by
      rw [List.filter_map, show Char.isDigit ∘ exchange = Char.isDigit from
        funext isDigit_exchange]
      exact map_exchange_of_digits fun char member => (List.mem_filter.mp member).2
    rw [fixed, whole]

theorem parse_exchange (text : List Char) (exponent : Nat) (decimalComma : Bool) :
    parseMinorUnits (text.map exchange) exponent (!decimalComma) =
      parseMinorUnits text exponent decimalComma := by
  unfold parseMinorUnits
  rw [trim_exchange]
  dsimp only
  rw [readSigns_exchange]
  dsimp only
  rw [readNumber_exchange]
  simp only [List.map_eq_nil_iff]

/-! ### Amounts of an OFX file -/

theorem eq_of_splitOnce {text integer fraction : List Char}
    (split : (splitOnce separator text).getD (text, []) = (integer, fraction)) :
    (separator ∉ text ∧ text = integer ∧ fraction = []) ∨
      text = integer ++ separator :: fraction := by
  unfold splitOnce at split
  split_ifs at split with member
  · refine .inr ?_
    obtain ⟨before, after⟩ := Prod.mk.inj split
    have whole := List.takeWhile_append_dropWhile (p := fun char => decide (char ≠ separator))
      (l := text)
    rw [before] at whole
    cases rest : text.dropWhile fun char => decide (char ≠ separator) with
    | nil =>
      have all := List.dropWhile_eq_nil_iff.mp rest separator member
      exact absurd rfl (of_decide_eq_true all)
    | cons first tail =>
      have head := List.head?_dropWhile_not (fun char => decide (char ≠ separator)) text
      rw [rest] at whole after head
      have same : first = separator := by
        simpa using head
      rw [List.tail_cons] at after
      rw [← whole, same, after]
  · obtain ⟨same, none⟩ := Prod.mk.inj split
    exact .inl ⟨member, same, none.symm⟩

theorem readNumber_plain {exponent : Nat} {body integer fraction : List Char}
    (split : (splitOnce '.' body).getD (body, []) = (integer, fraction))
    (some_digit : ¬ (integer = [] ∧ fraction = []))
    (whole : ∀ char ∈ integer, char.isDigit = true)
    (part : ∀ char ∈ fraction, char.isDigit = true) :
    Plain body ∧
      readNumber exponent false (cleaned false body) = magnitudeOf exponent integer fraction := by
  have inside : ∀ char ∈ body, char = '.' ∨ char.isDigit = true := by
    intro char member
    rcases eq_of_splitOnce split with ⟨-, same, -⟩ | same
    · exact .inr (whole char (same ▸ member))
    · rw [same] at member
      rcases List.mem_append.mp member with before | later
      · exact .inr (whole char before)
      · rcases List.mem_cons.mp later with point | after
        · exact .inl point
        · exact .inr (part char after)
  have kept : cleaned false body = body := by
    refine List.filter_eq_self.mpr fun char member => ?_
    rcases inside char member with rfl | digit
    · rfl
    · rw [digit]
      rfl
  have digit : body.any Char.isDigit = true := by
    rw [List.any_eq_true]
    have held : ∀ char ∈ integer ++ fraction, char ∈ body := by
      intro char member
      rcases eq_of_splitOnce split with ⟨-, same, none⟩ | same
      · rw [none, List.append_nil] at member
        exact same ▸ member
      · rw [same]
        rcases List.mem_append.mp member with before | after
        · exact List.mem_append_left _ before
        · exact List.mem_append_right _ (List.mem_cons_of_mem _ after)
    obtain ⟨first, member⟩ := List.exists_mem_of_ne_nil (integer ++ fraction) fun none =>
      some_digit (List.append_eq_nil_iff.mp none)
    refine ⟨first, held first member, ?_⟩
    rcases List.mem_append.mp member with before | after
    · exact whole first before
    · exact part first after
  have ungrouped : validGrouping integer ',' = true := by
    unfold validGrouping
    exact if_pos fun comma => absurd (whole ',' comma) (by decide)
  refine ⟨fun char member => ?_, ?_⟩
  · rcases inside char member with rfl | digit
    · rfl
    · exact isPlain_of_isDigit digit
  · rw [kept, readNumber_eq digit split part ungrouped, List.filter_eq_self.mpr whole]

theorem readSigns_leadingSign {trimmed body : List Char}
    (taken : OfxImporter.leadingSign trimmed = (negative, body)) (plain : Plain body) :
    readSigns trimmed = (negative, body) := by
  unfold OfxImporter.leadingSign at taken
  split at taken
  · obtain ⟨rfl, rfl⟩ := Prod.mk.inj taken
    exact readSigns_minus (by decide) plain
  · obtain ⟨rfl, rfl⟩ := Prod.mk.inj taken
    exact readSigns_plus plain
  · obtain ⟨rfl, rfl⟩ := Prod.mk.inj taken
    exact readSigns_plain plain

theorem parse_of_ofx {text : List Char} {exponent : Nat} {value : Int}
    (accepted : OfxImporter.parseMinorUnits text exponent = some value) :
    parseMinorUnits text exponent false = some value := by
  unfold OfxImporter.parseMinorUnits at accepted
  dsimp only at accepted
  by_cases empty : trim text = []
  · rw [if_pos empty] at accepted
    cases accepted
  rw [if_neg empty] at accepted
  cases taken : OfxImporter.leadingSign (trim text) with
  | mk negative body =>
    cases split : (splitOnce '.' body).getD (body, []) with
    | mk integer fraction =>
      rw [taken] at accepted
      dsimp only at accepted
      rw [split] at accepted
      dsimp only at accepted
      split_ifs at accepted with none other
      obtain ⟨whole, part⟩ := not_or.mp other
      rw [Bool.not_eq_false, List.all_eq_true] at whole part
      obtain ⟨plain, read⟩ := @readNumber_plain exponent _ _ _ split none whole part
      unfold parseMinorUnits
      dsimp only
      rw [if_neg empty, readSigns_leadingSign taken plain]
      dsimp only
      rw [read]
      exact accepted

/-! ### The reading of amounts -/

/-- However an amount is written, with points or with commas, it is read as what it denotes; points
and commas may be exchanged with the dialect in any text; and what an OFX file may have as an amount
is read the same. -/
theorem amounts_read_back :
    (∀ (amount : WrittenAmount) (exponent magnitude : Nat), exponent ≤ 6 →
      (magnitude : Int) ≤ maxI64 →
      Denotes exponent magnitude amount.integer (amount.fraction.getD []) →
      parseMinorUnits amount.text exponent false =
        some (signed amount.sign.negative magnitude) ∧
      parseMinorUnits (amount.text.map exchange) exponent true =
        some (signed amount.sign.negative magnitude)) ∧
    (∀ (text : List Char) (exponent : Nat) (decimalComma : Bool),
      parseMinorUnits (text.map exchange) exponent (!decimalComma) =
        parseMinorUnits text exponent decimalComma) ∧
    ∀ (text : List Char) (exponent : Nat) (value : Int),
      OfxImporter.parseMinorUnits text exponent = some value →
      parseMinorUnits text exponent false = some value := by
  refine ⟨fun amount exponent magnitude small fits denotes => ?_, parse_exchange, ?_⟩
  · have read := amount.parse_text small fits denotes
    exact ⟨read, (parse_exchange amount.text exponent false).trans read⟩
  · intro text exponent value accepted
    exact parse_of_ofx accepted

/-- `$−1,234.5` -/
def sampleAmount : WrittenAmount where
  first := ['1']
  groups := [['2', '3', '4']]
  fraction := some ['5']
  symbol := ['$']
  sign := .minusSign
  placement := .beforeSign
  digits := List.all_eq_true.mp rfl
  some_digit := List.cons_ne_nil _ _
  grouped := Or.inr ⟨by decide, by decide, List.forall_mem_singleton.mpr rfl⟩
  symbolic := List.forall_mem_singleton.mpr rfl

theorem amounts_read_back_grouped :
    parseMinorUnits sampleAmount.text 2 false = some (-123450) ∧
      parseMinorUnits (sampleAmount.text.map exchange) 2 true = some (-123450) :=
  amounts_read_back.1 sampleAmount 2 123450 (by decide) (by decide) (by decide +kernel)

end Dohflow.CsvImporter
