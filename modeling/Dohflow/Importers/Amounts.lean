/-
This file is the reading of amount cells: the text of a money amount, as a CSV or an
OFX file writes it, becomes a count of minor units.

The OFX reader takes a sign, digits and a point. The CSV reader takes off the signs it
knows, drops every character that is neither a digit nor a separator, and then checks
where the separators stand. Both hand the digits before and behind the separator to the
same arithmetic, in which every sum and product must stay in 64 bits.
-/

import Dohflow.DbWorker.Assumptions
import Dohflow.Foundation.MachineIntegers
import Mathlib.Data.List.Basic

namespace Dohflow.Importers

open MachineIntegers DbWorker

/-! ### Texts -/

/-- `trim_start` -/
def trimStart (text : List Char) : List Char := text.dropWhile isWhitespace

/-- `trim` -/
def trim (text : List Char) : List Char := ((trimStart text).reverse.dropWhile isWhitespace).reverse

/-- `strip_suffix` of one character -/
def stripSuffix (last : Char) (text : List Char) : Option (List Char) :=
  if text.getLast? = some last then some text.dropLast else none

/-- `split_once`: what stands before and behind the first separator. -/
def splitOnce (separator : Char) (text : List Char) : Option (List Char × List Char) :=
  if separator ∈ text then
    some (text.takeWhile (· ≠ separator), (text.dropWhile (· ≠ separator)).tail)
  else none

/-- A run of digits as an `i64`; `none` above the largest. -/
def parseI64 (digits : List Char) : Option Int := checkedI64 (Nat.ofDigitChars 10 digits 0)

/-! ### Digits to minor units -/

/-- The fraction in exactly as many digits as the currency has, filled up with zeros or cut. -/
def paddedFraction (exponent : Nat) (fraction : List Char) : List Char :=
  if fraction.length < exponent then
    fraction ++ List.replicate (exponent - fraction.length) '0'
  else fraction.take exponent

/-- The number of a run of digits that may be empty. -/
def numberOf (digits : List Char) : Option Int :=
  if digits = [] then some 0 else parseI64 digits

/-- The amount before its sign: every step stays in 64 bits, or there is no amount. -/
def magnitudeOf (exponent : Nat) (integer fraction : List Char) : Option Int := do
  let integerValue ← numberOf integer
  let fractionValue ← numberOf (paddedFraction exponent fraction)
  let scale ← checkedI64 (10 ^ exponent)
  let scaled ← checkedI64 (integerValue * scale)
  checkedI64 (scaled + fractionValue)

/-- `if negative { -magnitude } else { magnitude }` -/
def signed (negative : Bool) (magnitude : Int) : Int := if negative then -magnitude else magnitude

end Dohflow.Importers

/-! ### The OFX reader -/

namespace Dohflow.OfxImporter

open MachineIntegers Importers

/-- The sign in front of an OFX amount, and what follows it. -/
def leadingSign : List Char → Bool × List Char
  | '-' :: rest => (true, rest)
  | '+' :: rest => (false, rest)
  | body => (false, body)

def parseMinorUnits (raw : List Char) (exponent : Nat) : Option Int :=
  let trimmed := trim raw
  if trimmed = [] then none
  else
    let (negative, body) := leadingSign trimmed
    let (integer, fraction) := (splitOnce '.' body).getD (body, [])
    if integer = [] ∧ fraction = [] then none
    else if integer.all Char.isDigit = false ∨ fraction.all Char.isDigit = false then none
    else (magnitudeOf exponent integer fraction).map (signed negative)

end Dohflow.OfxImporter

/-! ### The CSV reader -/

namespace Dohflow.CsvImporter

open MachineIntegers Importers

/-- Whether a separator stands only where thousands are grouped: up to three digits, then threes. -/
def validGrouping (integer : List Char) (separator : Char) : Bool :=
  let groups := integer.splitOn separator
  if separator ∉ integer then true
  else
    let first := groups.headD []
    decide (1 ≤ first.length ∧ first.length ≤ 3) && groups.tail.all fun group => group.length = 3

/-- A hyphen, or the minus sign U+2212. -/
def isMinus (char : Char) : Bool := char = '-' || char = '\u2212'

/-- What stands between parentheses around the whole text. -/
def enclosed : List Char → Option (List Char)
  | '(' :: rest => stripSuffix ')' rest
  | _ => none

/-- Parentheses make the amount negative. -/
def stripParentheses (trimmed : List Char) : Bool × List Char :=
  match enclosed trimmed with
  | some inner => (true, trim inner)
  | none => (false, trimmed)

/-- A leading sign. -/
def stripSign (negative : Bool) : List Char → Bool × List Char
  | first :: rest =>
    if isMinus first then (!negative, trimStart rest)
    else if first = '+' then (negative, trimStart rest)
    else (negative, first :: rest)
  | [] => (negative, [])

/-- A minus after the currency symbol: the first one, where no digit stands before it. -/
def stripInnerMinus (negative : Bool) (body : List Char) : Bool × List Char :=
  match body.dropWhile fun char => !isMinus char with
  | _ :: rest =>
    if (body.takeWhile fun char => !isMinus char).all fun char => !char.isDigit then
      (!negative, rest)
    else (negative, body)
  | [] => (negative, body)

/-- Whether an amount is negative, and the text that its digits are taken from. -/
def readSigns (trimmed : List Char) : Bool × List Char :=
  let (parenthesised, inner) := stripParentheses trimmed
  let (negative, body) := stripSign parenthesised inner
  stripInnerMinus negative body

/-- The decimal separator of a dialect. -/
def decimalOf (decimalComma : Bool) : Char := if decimalComma then ',' else '.'

/-- The thousands separator of a dialect. -/
def thousandsOf (decimalComma : Bool) : Char := if decimalComma then '.' else ','

/-- Only the digits and the two separators. -/
def cleaned (decimalComma : Bool) (body : List Char) : List Char :=
  body.filter fun char =>
    char.isDigit || char = decimalOf decimalComma || char = thousandsOf decimalComma

/-- The number that a cleaned text spells. -/
def readNumber (exponent : Nat) (decimalComma : Bool) (text : List Char) : Option Int :=
  if text.any Char.isDigit = false then none
  else
    let (integer, fraction) := (splitOnce (decimalOf decimalComma) text).getD (text, [])
    if decimalOf decimalComma ∈ fraction ∨ thousandsOf decimalComma ∈ fraction then none
    else if validGrouping integer (thousandsOf decimalComma) = false then none
    else magnitudeOf exponent (integer.filter Char.isDigit) fraction

def parseMinorUnits (raw : List Char) (exponent : Nat) (decimalComma : Bool) : Option Int :=
  let trimmed := trim raw
  if trimmed = [] then none
  else
    let (negative, body) := readSigns trimmed
    (readNumber exponent decimalComma (cleaned decimalComma body)).map (signed negative)

example : parseMinorUnits "$1,234.56".toList 2 false = some 123456 ∧
    parseMinorUnits "−1.234,5 €".toList 2 true = some (-123450) ∧
    parseMinorUnits "12,50".toList 2 false = none := by decide +kernel

end Dohflow.CsvImporter
