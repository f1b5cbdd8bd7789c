/-
This file is a small theory of numbers and bytes that travel as text.

An integer is spelled in decimal, with no leading zero, and a byte as two lowercase
hexadecimal digits. Each spelling is read back to what it spells.
-/

import Mathlib.Data.List.Basic
import Mathlib.Order.Nat

namespace Spelling

/-! ### Decimal -/

/-- An integer in decimal. -/
def decimal (value : Int) : List Char :=
  if value < 0 then '-' :: Nat.toDigits 10 value.natAbs else Nat.toDigits 10 value.natAbs

theorem all_isDigit_toDigits (value : Nat) : (Nat.toDigits 10 value).all Char.isDigit = true :=
  List.all_eq_true.mpr fun _ member => Nat.isDigit_of_mem_toDigits (by decide) (by decide) member

theorem head_toDigits_ne_zero {value : Nat} (positive : 0 < value) :
    (Nat.toDigits 10 value).head? ≠ some '0' := by
  induction value using Nat.strongRecOn with
  | ind value inductionHypothesis =>
    by_cases single : value < 10
    · rw [Nat.toDigits_of_lt_base single, List.head?_cons]
      intro same
      exact positive.ne' (Nat.digitChar_eq_zero.mp (Option.some.inj same))
    · rw [Nat.toDigits_of_base_le (by decide) (by omega),
        List.head?_append_of_ne_nil _ Nat.toDigits_ne_nil]
      exact inductionHypothesis (value / 10) (by omega) (by omega)

theorem toDigits_no_leading_zero (value : Nat) :
    Nat.toDigits 10 value = ['0'] ∨ (Nat.toDigits 10 value).head? ≠ some '0' := by
  rcases value.eq_zero_or_pos with rfl | positive
  · exact .inl (Nat.toDigits_zero 10)
  · exact .inr (head_toDigits_ne_zero positive)

theorem toDigits_append_inj (separator : Char) (apart : separator.isDigit = false)
    {first second : Nat} {rest others : List Char}
    (same : Nat.toDigits 10 first ++ separator :: rest =
      Nat.toDigits 10 second ++ separator :: others) : first = second ∧ rest = others := by
  have digits (value : Nat) (following : List Char) :
      (Nat.toDigits 10 value ++ separator :: following).takeWhile Char.isDigit =
        Nat.toDigits 10 value := by
    rw [List.takeWhile_append_of_pos (List.all_eq_true.mp (all_isDigit_toDigits value)),
      List.takeWhile_cons_of_neg (by rw [apart]; decide), List.append_nil]
  have numbers : Nat.toDigits 10 first = Nat.toDigits 10 second := by
    rw [← digits first rest, same, digits]
  have values := congrArg (fun spelled => Nat.ofDigitChars 10 spelled 0) numbers
  simp only [Nat.ofDigitChars_ten_toDigits] at values
  rw [numbers] at same
  exact ⟨values, (List.cons.inj (List.append_cancel_left same)).2⟩

/-! ### Hexadecimal -/

/-- The two digits of a byte. -/
def hexDigits (byte : UInt8) : List Char :=
  [Nat.digitChar (byte.toNat / 16), Nat.digitChar (byte.toNat % 16)]

/-- The value of a lowercase hexadecimal digit. -/
def hexValue (digit : Char) : Option Nat :=
  if '0' ≤ digit ∧ digit ≤ '9' then some (digit.toNat - '0'.toNat)
  else if 'a' ≤ digit ∧ digit ≤ 'f' then some (digit.toNat - 'a'.toNat + 10)
  else none

theorem hexValue_digitChar : ∀ digit < 16, hexValue (Nat.digitChar digit) = some digit := by decide

@[simp] theorem hexValue_high (byte : UInt8) :
    hexValue (Nat.digitChar (byte.toNat / 16)) = some (byte.toNat / 16) :=
  hexValue_digitChar _ (by have := byte.toNat_lt; omega)

@[simp] theorem hexValue_low (byte : UInt8) :
    hexValue (Nat.digitChar (byte.toNat % 16)) = some (byte.toNat % 16) :=
  hexValue_digitChar _ (Nat.mod_lt _ (by decide))

@[simp] theorem ofNat_digits (byte : UInt8) :
    UInt8.ofNat (byte.toNat / 16 * 16 + byte.toNat % 16) = byte := by
  rw [Nat.div_add_mod']
  exact UInt8.ofNat_toNat

end Spelling
