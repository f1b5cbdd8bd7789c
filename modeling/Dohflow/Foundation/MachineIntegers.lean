/-
This file is a small theory of sums in 64 signed bits.

A sum can refuse to leave the range, stop at its ends, or wrap around. Where every
sum on the way stays inside, all of them are the sum of the integers. A sum of
amounts that are not negative stops at the end of the range just where the sum of
the integers passes it.
-/

import Mathlib.Algebra.BigOperators.Group.List.Basic
import Mathlib.Algebra.Order.BigOperators.Group.List
import Mathlib.Algebra.Ring.Int.Defs

namespace MachineIntegers

variable {amounts : List Int} {balance : Int} {value : Int}

def minI64 : Int := -2 ^ 63

def maxI64 : Int := 2 ^ 63 - 1

/-- An integer that 64 signed bits hold. -/
def InI64 (value : Int) : Prop := minI64 ≤ value ∧ value ≤ maxI64

instance (value : Int) : Decidable (InI64 value) := inferInstanceAs (Decidable (_ ∧ _))

/-! ### Sums that refuse to leave the range -/

/-- A value, when it is in range. -/
def checkedI64 (value : Int) : Option Int := if InI64 value then some value else none

theorem checkedI64_eq_some {value found : Int} :
    checkedI64 value = some found ↔ InI64 value ∧ value = found := by
  unfold checkedI64
  split_ifs with inside
  · rw [Option.some_inj]
    exact (and_iff_right inside).symm
  · exact iff_of_false (fun same => nomatch same) fun both => inside both.1

/-- The sum of some amounts on top of a balance, every sum on the way in range. -/
def checkedSum (balance : Int) : List Int → Option Int
  | [] => some balance
  | amount :: rest => (checkedI64 (balance + amount)).bind fun sum => checkedSum sum rest

theorem eq_of_checkedSum {balance found : Int} (summed : checkedSum balance amounts = some found) :
    found = balance + amounts.sum := by
  induction amounts generalizing balance with
  | nil =>
    obtain rfl := Option.some.inj summed
    simp
  | cons amount rest inductionHypothesis =>
    obtain ⟨sum, inside, later⟩ := Option.bind_eq_some_iff.mp summed
    obtain ⟨-, rfl⟩ := checkedI64_eq_some.mp inside
    rw [inductionHypothesis later, List.sum_cons, Int.add_assoc]

/-- A balance stays in range while it takes the amounts one after another. -/
def Fits (balance : Int) : List Int → Prop
  | [] => True
  | amount :: rest => InI64 (balance + amount) ∧ Fits (balance + amount) rest

instance decidableFits : (balance : Int) → (amounts : List Int) → Decidable (Fits balance amounts)
  | _, [] => inferInstanceAs (Decidable True)
  | balance, amount :: rest =>
    have := decidableFits (balance + amount) rest
    inferInstanceAs (Decidable (_ ∧ _))

theorem fits_append {amounts others : List Int} :
    Fits balance (amounts ++ others) ↔ Fits balance amounts ∧ Fits (balance + amounts.sum) others := by
  induction amounts generalizing balance with
  | nil => simp [Fits]
  | cons amount rest inductionHypothesis =>
    rw [List.cons_append, Fits, Fits, inductionHypothesis, List.sum_cons, Int.add_assoc, and_assoc]

theorem fits_iff_take (inside : InI64 balance) :
    Fits balance amounts ↔ ∀ count, InI64 (balance + (amounts.take count).sum) := by
  induction amounts generalizing balance with
  | nil => simp [Fits, inside]
  | cons amount rest inductionHypothesis =>
    constructor
    · rintro ⟨here, later⟩ count
      cases count with
      | zero => simpa using inside
      | succ count =>
        rw [List.take_succ_cons, List.sum_cons, ← Int.add_assoc]
        exact (inductionHypothesis here).mp later count
    · intro taken
      have here : InI64 (balance + amount) := by simpa using taken 1
      refine ⟨here, (inductionHypothesis here).mpr fun count => ?_⟩
      have later := taken (count + 1)
      rwa [List.take_succ_cons, List.sum_cons, ← Int.add_assoc] at later

theorem checkedSum_of_fits (fits : Fits balance amounts) :
    checkedSum balance amounts = some (balance + amounts.sum) := by
  induction amounts generalizing balance with
  | nil => simp [checkedSum]
  | cons amount rest inductionHypothesis =>
    obtain ⟨here, later⟩ := fits
    unfold checkedSum
    rw [checkedI64_eq_some.mpr ⟨here, rfl⟩, Option.bind_some, inductionHypothesis later,
      List.sum_cons, Int.add_assoc]

theorem fits_of_checkedSum {balance found : Int} (summed : checkedSum balance amounts = some found) :
    Fits balance amounts := by
  induction amounts generalizing balance with
  | nil => trivial
  | cons amount rest inductionHypothesis =>
    obtain ⟨sum, inside, later⟩ := Option.bind_eq_some_iff.mp summed
    obtain ⟨held, rfl⟩ := checkedI64_eq_some.mp inside
    exact ⟨held, inductionHypothesis later⟩

theorem fits_of_nonneg (positive : 0 ≤ balance) (nonnegative : ∀ amount ∈ amounts, 0 ≤ amount)
    (inside : balance + amounts.sum ≤ maxI64) : Fits balance amounts := by
  induction amounts generalizing balance with
  | nil => trivial
  | cons amount rest inductionHypothesis =>
    have own := nonnegative amount List.mem_cons_self
    have others (other : Int) (member : other ∈ rest) : 0 ≤ other :=
      nonnegative other (List.mem_cons_of_mem _ member)
    have later := List.sum_nonneg others
    rw [List.sum_cons, ← Int.add_assoc] at inside
    refine ⟨⟨le_trans (by decide) (Int.add_nonneg positive own), by omega⟩, ?_⟩
    exact inductionHypothesis (Int.add_nonneg positive own) others inside

theorem inI64_of_checkedSum {balance found : Int} (inside : InI64 balance)
    (summed : checkedSum balance amounts = some found) : InI64 found := by
  induction amounts generalizing balance with
  | nil =>
    obtain rfl := Option.some.inj summed
    exact inside
  | cons amount rest inductionHypothesis =>
    obtain ⟨sum, here, later⟩ := Option.bind_eq_some_iff.mp summed
    obtain ⟨held, rfl⟩ := checkedI64_eq_some.mp here
    exact inductionHypothesis held later

/-! ### Sums that stop at the ends of the range -/

/-- The value of the range that is nearest. -/
def clampI64 (value : Int) : Int := max minI64 (min value maxI64)

def saturatingAdd (left right : Int) : Int := clampI64 (left + right)

def saturatingSub (left right : Int) : Int := clampI64 (left - right)

theorem clampI64_eq (inside : InI64 value) : clampI64 value = value := by
  unfold clampI64
  rw [min_eq_left inside.2, max_eq_right inside.1]

theorem clampI64_of_nonneg (nonnegative : 0 ≤ value) : clampI64 value = min value maxI64 := by
  unfold clampI64 minI64 maxI64
  omega

theorem saturatingAdd_eq {left right : Int} (nonnegative : 0 ≤ left + right)
    (fits : left + right ≤ maxI64) : saturatingAdd left right = left + right :=
  clampI64_eq ⟨le_trans (by decide) nonnegative, fits⟩

theorem foldl_saturatingAdd {total : Int} (positive : 0 ≤ total) (inside : total ≤ maxI64)
    (nonnegative : ∀ amount ∈ amounts, 0 ≤ amount) :
    amounts.foldl saturatingAdd total = min (total + amounts.sum) maxI64 := by
  induction amounts generalizing total with
  | nil =>
    rw [List.sum_nil, Int.add_zero, min_eq_left inside]
    rfl
  | cons amount rest inductionHypothesis =>
    have own := nonnegative amount List.mem_cons_self
    have others (other : Int) (member : other ∈ rest) : 0 ≤ other :=
      nonnegative other (List.mem_cons_of_mem _ member)
    have later := List.sum_nonneg others
    have step : saturatingAdd total amount = min (total + amount) maxI64 :=
      clampI64_of_nonneg (Int.add_nonneg positive own)
    rw [List.foldl_cons, step, List.sum_cons]
    rw [inductionHypothesis (le_min (Int.add_nonneg positive own) (by decide)) (min_le_right _ _)
      others]
    omega

/-! ### Casts that wrap around -/

/-- The value in 64 signed bits, whatever is above them. -/
def asI64 (value : Int) : Int := value.bmod (2 ^ 64)

/-- The value in 128 signed bits, whatever is above them. -/
def asI128 (value : Int) : Int := value.bmod (2 ^ 128)

theorem asI64_eq (inside : InI64 value) : asI64 value = value := by
  obtain ⟨low, high⟩ := inside
  unfold minI64 at low
  unfold maxI64 at high
  exact Int.bmod_eq_of_le (by omega) (by omega)

theorem asI128_eq (low : -2 ^ 127 ≤ value) (high : value < 2 ^ 127) :
    asI128 value = value := Int.bmod_eq_of_le (by omega) (by omega)

end MachineIntegers
