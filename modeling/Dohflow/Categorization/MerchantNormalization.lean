/-
This file models how the description of a transaction becomes a merchant key.

The description is put into upper case. The names of payment processors are taken off its front,
reference codes and store numbers are blanked, one state is taken off its end, whitespace is
collapsed, and what is left is rid of punctuation at its ends. The tables of upper case, of decimal
digits and of the characters of words are parameters.
-/

import Dohflow.Categorization.MerchantGrouping
import Dohflow.Foundation.LeftmostFirst
import Mathlib.Data.List.DropRight

namespace Dohflow.Categorization

open JobRuntime LeftmostFirst

/-! ### Characters -/

/-- What is taken from the tables of Unicode. -/
structure CharacterTables where
  /-- The upper case of a character, which may be several. -/
  toUppercase : Char → List Char
  /-- `\d` -/
  isDecimal : Char → Bool
  /-- `\w` -/
  isWord : Char → Bool
  toUppercase_upper : ∀ char, ∀ upper ∈ toUppercase char, toUppercase upper = [upper]
  toUppercase_space : toUppercase ' ' = [' ']

/-- `trim_matches` -/
def trimMatches (holds : Char → Bool) (text : List Char) : List Char :=
  (text.dropWhile holds).rdropWhile holds

/-- `trim` -/
def trim (text : List Char) : List Char := trimMatches isWhitespace text

/-- The punctuation that no key starts or ends with. -/
def isEdge (char : Char) : Bool := char ∈ ['-', '*', '.', ',', '#', '/', '&']

/-! ### Patterns -/

/-- `\s` -/
def whitespace : Pattern Char := .symbol isWhitespace

def word (text : String) : Pattern Char := .literal text.toList

/-- Names of payment processors, one or more in a chain. -/
def processorPrefix : Pattern Char :=
  .seq .start (.plus (.alt
    (.inTurn [.anyOf [word "SQ", word "TST", word "PP", word "PYPL", word "PAYPAL", word "SP",
      word "VEN", word "CKE", word "GOOGLE"], .optional whitespace, word "*"])
    (.seq
      (.anyOf [word "VENMO", word "ZELLE", .inTurn [word "CASH", .optional (word " "), word "APP"],
        word "POS", word "PURCHASE",
        .inTurn [word "DEBIT", .optional (word " CARD"), .optional (word " PURCHASE")],
        word "CHECKCARD", .inTurn [word "PRE", .optional (word "-"), word "AUTH"],
        word "RECURRING"])
      (.plus whitespace))))

/-- `[A-Z0-9]` -/
def isCodeCharacter (char : Char) : Bool :=
  ('A' ≤ char ∧ char ≤ 'Z') ∨ ('0' ≤ char ∧ char ≤ '9')

variable (tables : CharacterTables)

/-- Codes behind an asterisk, store numbers, and long runs of digits. -/
def referenceCode : Pattern Char :=
  let decimal := Pattern.symbol tables.isDecimal
  let boundary := Pattern.boundary tables.isWord
  .anyOf [
    .seq (word "*") (.atLeast (.symbol isCodeCharacter) 3),
    .inTurn [word "#", .optional whitespace, .plus decimal],
    .inTurn [boundary, word "STORE", .plus whitespace, .plus decimal, boundary],
    .inTurn [boundary, .atLeast decimal 4, boundary]]

/-- The second letters of the states, by their first. -/
def stateLetters : List (Char × List Char) :=
  [('A', ['K', 'L', 'R', 'Z']), ('C', ['A', 'O', 'T']), ('D', ['C', 'E']), ('F', ['L']),
    ('G', ['A']), ('H', ['I']), ('I', ['A', 'D', 'L', 'N']), ('K', ['S', 'Y']), ('L', ['A']),
    ('M', ['A', 'D', 'E', 'I', 'N', 'O', 'S', 'T']),
    ('N', ['C', 'D', 'E', 'H', 'J', 'M', 'V', 'Y']), ('O', ['H', 'K', 'R']), ('P', ['A']),
    ('R', ['I']), ('S', ['C', 'D']), ('T', ['N', 'X']), ('U', ['T']), ('V', ['A', 'T']),
    ('W', ['A', 'I', 'V', 'Y'])]

/-- A state at the end. -/
def trailingState : Pattern Char :=
  .inTurn [.plus whitespace, .anyOf (stateLetters.map fun entry =>
    .seq (.symbol (· = entry.1)) (.symbol (· ∈ entry.2))), .finish]

/-- A run of whitespace. -/
def collapseWs : Pattern Char := .plus whitespace

/-! ### The key -/

/-- The upper case of a text. -/
def uppercase (text : List Char) : List Char := text.flatMap tables.toUppercase

/-- What a description leaves: in upper case, without the processors at its front, its reference
codes, and then one state at its end. -/
def remainder (raw : List Char) : List Char :=
  trailingState.replace [] ((referenceCode tables).replaceAll [' ']
    (processorPrefix.replace [] (uppercase tables (trim raw))))

/-- The key of a description. -/
def normalizeMerchant (raw : List Char) : List Char :=
  trim (trimMatches isEdge (trim (collapseWs.replaceAll [' '] (remainder tables raw))))

end Dohflow.Categorization
