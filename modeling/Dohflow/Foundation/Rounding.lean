/-
This file says what it is to round a number to an integer, apart from how it is computed.

A directed rounding is a floor or a ceiling, chosen by the sign of the number. A rounding to
the nearest integer stays within one half of the number and leaves open only the number
that is exactly between two integers, where it takes the one it prefers. A preference that
is for one of the two and never for both makes the rounding a function
(`existsUnique_nearestBy`). Each rounding is reflected with the sign of the number: floors
become ceilings, and the others stay what they are.
-/

import Mathlib.Algebra.Order.Floor.Ring
import Mathlib.Tactic.Linarith
import Mathlib.Tactic.Ring

namespace Rounding

variable {K : Type*} [Field K] [LinearOrder K]

/-! ### Directed roundings -/

section Directed

variable [FloorRing K]

/-- The integer next to a number on the side of zero. -/
def truncate (exact : K) : ℤ := if exact < 0 then ⌈exact⌉ else ⌊exact⌋

/-- The integer next to a number on the side away from zero. -/
def expand (exact : K) : ℤ := if exact < 0 then ⌊exact⌋ else ⌈exact⌉

theorem truncate_of_nonneg {exact : K} (nonnegative : 0 ≤ exact) : truncate exact = ⌊exact⌋ :=
  if_neg (not_lt.mpr nonnegative)

theorem expand_of_nonneg {exact : K} (nonnegative : 0 ≤ exact) : expand exact = ⌈exact⌉ :=
  if_neg (not_lt.mpr nonnegative)

variable [IsStrictOrderedRing K]

theorem truncate_neg {exact : K} (nonnegative : 0 ≤ exact) :
    truncate (-exact) = -truncate exact := by
  rw [truncate_of_nonneg nonnegative]
  unfold truncate
  split_ifs with negative
  · exact Int.ceil_neg
  · have zero : exact = 0 := le_antisymm (neg_nonneg.mp (not_lt.mp negative)) nonnegative
    simp [zero]

theorem expand_neg {exact : K} (nonnegative : 0 ≤ exact) : expand (-exact) = -expand exact := by
  rw [expand_of_nonneg nonnegative]
  unfold expand
  split_ifs with negative
  · exact Int.floor_neg
  · have zero : exact = 0 := le_antisymm (neg_nonneg.mp (not_lt.mp negative)) nonnegative
    simp [zero]

theorem ceil_eq_floor {exact : K} :
    ⌈exact⌉ = if Int.fract exact = 0 then ⌊exact⌋ else ⌊exact⌋ + 1 := by
  have split := Int.floor_add_fract exact
  split_ifs with whole
  · rw [whole, add_zero] at split
    rw [← split, Int.ceil_intCast, Int.floor_intCast]
  · have positive := (Int.fract_nonneg exact).lt_of_ne' whole
    rw [Int.ceil_eq_iff]
    push_cast
    exact ⟨by linarith, (Int.lt_floor_add_one exact).le⟩

end Directed

/-! ### Roundings to the nearest -/

section Nearest

/-- An integer within one half of a number, the preferred one where there are two. -/
def NearestBy (prefers : K → ℤ → Prop) (exact : K) (rounded : ℤ) : Prop :=
  |exact - rounded| ≤ 1 / 2 ∧ (|exact - rounded| = 1 / 2 → prefers exact rounded)

/-- The even one of two neighbours. -/
def PrefersEven (_ : K) (rounded : ℤ) : Prop := Even rounded

/-- The neighbour away from zero. -/
def PrefersAway (exact : K) (rounded : ℤ) : Prop := |exact| ≤ |(rounded : K)|

/-- The neighbour on the side of zero. -/
def PrefersToward (exact : K) (rounded : ℤ) : Prop := |(rounded : K)| ≤ |exact|

variable {prefers : K → ℤ → Prop} {exact : K} {rounded : ℤ}

theorem nearestBy_neg (reflects : prefers (-exact) (-rounded) ↔ prefers exact rounded) :
    NearestBy prefers (-exact) (-rounded) ↔ NearestBy prefers exact rounded := by
  have distance : |-exact - ((-rounded : ℤ) : K)| = |exact - rounded| := by
    rw [Int.cast_neg, ← abs_neg]
    congr 1
    ring
  unfold NearestBy
  rw [distance, reflects]

theorem prefersAway_neg : PrefersAway (-exact) (-rounded) ↔ PrefersAway exact rounded := by
  unfold PrefersAway
  rw [Int.cast_neg, abs_neg, abs_neg]

theorem prefersToward_neg : PrefersToward (-exact) (-rounded) ↔ PrefersToward exact rounded := by
  unfold PrefersToward
  rw [Int.cast_neg, abs_neg, abs_neg]

variable [IsStrictOrderedRing K] [FloorRing K]

/-- Which integer is the nearest is a matter of the fractional part, and of the preference
only where that is one half. -/
theorem nearestBy_iff : NearestBy prefers exact rounded ↔
    Int.fract exact < 1 / 2 ∧ rounded = ⌊exact⌋ ∨
      1 / 2 < Int.fract exact ∧ rounded = ⌊exact⌋ + 1 ∨
      Int.fract exact = 1 / 2 ∧ (rounded = ⌊exact⌋ ∨ rounded = ⌊exact⌋ + 1) ∧
        prefers exact rounded := by
  have split := Int.floor_add_fract exact
  have nonnegative := Int.fract_nonneg exact
  have below := Int.fract_lt_one exact
  have under : exact - (⌊exact⌋ : ℤ) = Int.fract exact := by linarith
  have above : exact - ((⌊exact⌋ + 1 : ℤ) : K) = -(1 - Int.fract exact) := by
    push_cast
    linarith
  have distanceUnder : |exact - (⌊exact⌋ : ℤ)| = Int.fract exact := by
    rw [under, abs_of_nonneg nonnegative]
  have distanceAbove : |exact - ((⌊exact⌋ + 1 : ℤ) : K)| = 1 - Int.fract exact := by
    rw [above, abs_neg, abs_of_nonneg (by linarith)]
  constructor
  · rintro ⟨near, preferred⟩
    have neighbour : rounded = ⌊exact⌋ ∨ rounded = ⌊exact⌋ + 1 := by
      obtain ⟨low, high⟩ := abs_le.mp near
      have after : ⌊exact⌋ - 1 < rounded := by
        have : ((⌊exact⌋ - 1 : ℤ) : K) < rounded := by
          push_cast
          linarith
        exact_mod_cast this
      have before : rounded < ⌊exact⌋ + 2 := by
        have : (rounded : K) < ((⌊exact⌋ + 2 : ℤ) : K) := by
          push_cast
          linarith
        exact_mod_cast this
      omega
    rcases neighbour with rfl | rfl
    · rw [distanceUnder] at near preferred
      rcases near.lt_or_eq with less | half
      · exact .inl ⟨less, rfl⟩
      · exact .inr (.inr ⟨half, .inl rfl, preferred half⟩)
    · rw [distanceAbove] at near preferred
      rcases near.lt_or_eq with less | half
      · exact .inr (.inl ⟨by linarith, rfl⟩)
      · exact .inr (.inr ⟨by linarith, .inr rfl, preferred half⟩)
  · rintro (⟨less, rfl⟩ | ⟨more, rfl⟩ | ⟨half, rfl | rfl, preferred⟩)
    · refine ⟨distanceUnder.trans_le less.le, fun tie => ?_⟩
      rw [distanceUnder] at tie
      exact absurd tie less.ne
    · refine ⟨distanceAbove.trans_le (by linarith), fun tie => ?_⟩
      rw [distanceAbove] at tie
      linarith
    · exact ⟨(distanceUnder.trans half).le, fun _ => preferred⟩
    · exact ⟨distanceAbove.trans_le (by linarith), fun _ => preferred⟩

theorem nearestBy_step {up : Bool} (below : Int.fract exact < 1 / 2 → up = false)
    (above : 1 / 2 < Int.fract exact → up = true)
    (tie : Int.fract exact = 1 / 2 → prefers exact (if up then ⌊exact⌋ + 1 else ⌊exact⌋)) :
    NearestBy prefers exact (if up then ⌊exact⌋ + 1 else ⌊exact⌋) := by
  rw [nearestBy_iff]
  rcases lt_trichotomy (Int.fract exact) (1 / 2) with less | half | more
  · exact .inl ⟨less, by rw [below less]; rfl⟩
  · refine .inr (.inr ⟨half, ?_, tie half⟩)
    cases up
    · exact .inl rfl
    · exact .inr rfl
  · exact .inr (.inl ⟨more, by rw [above more]; rfl⟩)

theorem existsUnique_nearestBy
    (decides : Int.fract exact = 1 / 2 → (prefers exact (⌊exact⌋ + 1) ↔ ¬ prefers exact ⌊exact⌋)) :
    ∃! rounded, NearestBy prefers exact rounded := by
  simp only [nearestBy_iff]
  rcases lt_trichotomy (Int.fract exact) (1 / 2) with less | half | more
  · refine ⟨⌊exact⌋, .inl ⟨less, rfl⟩, ?_⟩
    rintro other (⟨-, rfl⟩ | ⟨more, -⟩ | ⟨half, -⟩)
    · rfl
    · exact absurd more less.not_gt
    · exact absurd half less.ne
  · have onTie {other : ℤ} (rounds : Int.fract exact < 1 / 2 ∧ other = ⌊exact⌋ ∨
        1 / 2 < Int.fract exact ∧ other = ⌊exact⌋ + 1 ∨ Int.fract exact = 1 / 2 ∧
          (other = ⌊exact⌋ ∨ other = ⌊exact⌋ + 1) ∧ prefers exact other) :
        (other = ⌊exact⌋ ∨ other = ⌊exact⌋ + 1) ∧ prefers exact other := by
      rcases rounds with ⟨less, -⟩ | ⟨more, -⟩ | ⟨-, neighbour⟩
      · exact absurd half less.ne
      · exact absurd half more.ne'
      · exact neighbour
    by_cases preferred : prefers exact ⌊exact⌋
    · refine ⟨⌊exact⌋, .inr (.inr ⟨half, .inl rfl, preferred⟩), fun other rounds => ?_⟩
      rcases onTie rounds with ⟨rfl | rfl, also⟩
      · rfl
      · exact absurd preferred ((decides half).mp also)
    · refine ⟨⌊exact⌋ + 1, .inr (.inr ⟨half, .inr rfl, (decides half).mpr preferred⟩),
        fun other rounds => ?_⟩
      rcases onTie rounds with ⟨rfl | rfl, also⟩
      · exact absurd also preferred
      · rfl
  · refine ⟨⌊exact⌋ + 1, .inr (.inl ⟨more, rfl⟩), ?_⟩
    rintro other (⟨less, -⟩ | ⟨-, rfl⟩ | ⟨half, -⟩)
    · exact absurd more less.not_gt
    · rfl
    · exact absurd half more.ne'

theorem abs_floor_of_tie (half : Int.fract exact = 1 / 2) :
    if exact < 0 then |((⌊exact⌋ + 1 : ℤ) : K)| < |exact| ∧ |exact| < |(⌊exact⌋ : K)|
    else |(⌊exact⌋ : K)| < |exact| ∧ |exact| < |((⌊exact⌋ + 1 : ℤ) : K)| := by
  have split := Int.floor_add_fract exact
  rw [half] at split
  rw [Int.cast_add, Int.cast_one]
  split_ifs with negative
  · have floorNegative : ⌊exact⌋ ≤ -1 := by
      have := Int.floor_lt.mpr (negative.trans_eq Int.cast_zero.symm)
      omega
    have cast : (⌊exact⌋ : K) ≤ -1 := by exact_mod_cast floorNegative
    rw [abs_of_neg negative, abs_of_nonpos (by linarith), abs_of_nonpos (by linarith)]
    exact ⟨by linarith, by linarith⟩
  · have nonnegative := not_lt.mp negative
    have cast : (0 : K) ≤ ⌊exact⌋ := by exact_mod_cast Int.floor_nonneg.mpr nonnegative
    rw [abs_of_nonneg nonnegative, abs_of_nonneg cast, abs_of_nonneg (by linarith)]
    exact ⟨by linarith, by linarith⟩

theorem prefersAway_floor (half : Int.fract exact = 1 / 2) :
    PrefersAway exact (⌊exact⌋ + 1) ↔ ¬ PrefersAway exact ⌊exact⌋ := by
  have sides := abs_floor_of_tie half
  unfold PrefersAway
  split_ifs at sides with negative
  · exact iff_of_false sides.1.not_ge (not_not.mpr sides.2.le)
  · exact iff_of_true sides.2.le sides.1.not_ge

theorem prefersToward_floor (half : Int.fract exact = 1 / 2) :
    PrefersToward exact (⌊exact⌋ + 1) ↔ ¬ PrefersToward exact ⌊exact⌋ := by
  have sides := abs_floor_of_tie half
  unfold PrefersToward
  split_ifs at sides with negative
  · exact iff_of_true sides.1.le sides.2.not_ge
  · exact iff_of_false sides.2.not_ge (not_not.mpr sides.1.le)

end Nearest

end Rounding
