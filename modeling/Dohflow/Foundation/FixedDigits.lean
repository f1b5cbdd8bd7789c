/-
This file is a small theory of decimals of a fixed width, and of how texts that hold them
compare.

Decimals of one width compare as texts just as the numbers they spell do. Texts of one
length decide a comparison whatever stands behind them, and where they are the same, what
stands behind them does.
-/

import Mathlib.Algebra.Group.Nat.Defs
import Mathlib.Data.List.Lex

namespace FixedDigits

/-- The last digits of a number, as many as the width says. -/
def fixed : Nat → Nat → List Char
  | 0, _ => []
  | width + 1, value => fixed width (value / 10) ++ [Nat.digitChar (value % 10)]

@[simp] theorem length_fixed (width value : Nat) : (fixed width value).length = width := by
  induction width generalizing value with
  | zero => rfl
  | succ width inductionHypothesis =>
    rw [fixed, List.length_append, inductionHypothesis, List.length_singleton]

theorem fixed_add (front back value : Nat) :
    fixed (front + back) value = fixed front (value / 10 ^ back) ++ fixed back value := by
  induction back generalizing value with
  | zero => rw [Nat.add_zero, Nat.pow_zero, Nat.div_one, fixed, List.append_nil]
  | succ back inductionHypothesis =>
    rw [← Nat.add_assoc, fixed, inductionHypothesis, Nat.div_div_eq_div_mul, fixed, List.append_assoc,
      Nat.pow_succ, Nat.mul_comm]

theorem digitChar_lt : ∀ second < 10, ∀ first < second,
    Nat.digitChar first < Nat.digitChar second := by decide

theorem append_lt_append {first second : List Char} (lengths : first.length = second.length)
    (less : first < second) (rest others : List Char) : first ++ rest < second ++ others := by
  induction first generalizing second with
  | nil =>
    rw [List.length_eq_zero_iff.mp lengths.symm] at less
    exact absurd less (List.not_lt_nil _)
  | cons char chars inductionHypothesis =>
    cases second with
    | nil => cases lengths
    | cons other rest' =>
      rw [List.cons_lt_cons_iff] at less
      rw [List.cons_append, List.cons_append, List.cons_lt_cons_iff]
      rcases less with here | ⟨same, later⟩
      · exact .inl here
      · exact .inr ⟨same, inductionHypothesis (Nat.succ.inj lengths) later⟩

theorem fixed_lt_fixed {width first second : Nat} (less : first < second)
    (fits : second < 10 ^ width) : fixed width first < fixed width second := by
  induction width generalizing first second with
  | zero =>
    rw [Nat.pow_zero, Nat.lt_one_iff] at fits
    exact absurd (fits ▸ less) (Nat.not_lt_zero _)
  | succ width inductionHypothesis =>
    rw [Nat.pow_succ] at fits
    unfold fixed
    rcases Nat.lt_or_ge (first / 10) (second / 10) with before | after
    · refine append_lt_append (by rw [length_fixed, length_fixed]) ?_ _ _
      exact inductionHypothesis before (Nat.div_lt_of_lt_mul (by omega))
    · have same : first / 10 = second / 10 := by omega
      rw [same]
      refine List.append_left_lt (List.cons_lt_cons_iff.mpr (.inl ?_))
      exact digitChar_lt _ (Nat.mod_lt _ (by decide)) _ (by omega)

theorem fixed_append_lt {width first second : Nat} (less : first < second)
    (fits : second < 10 ^ width) (rest others : List Char) :
    fixed width first ++ rest < fixed width second ++ others :=
  append_lt_append (by rw [length_fixed, length_fixed]) (fixed_lt_fixed less fits) rest others

end FixedDigits
