/-
This file divides money by an integer.

The division works on magnitudes: the quotient of the magnitudes, one more where the
remainder and the mode ask for it, and the sign put back on at the end. What each mode means
is said apart from that, of the exact rational number. The two agree because the sign of the
quotient only exchanges floor and ceiling (`rounds_neg`), so that one comparison of the
doubled remainder with the divisor decides all modes (`rounds_magnitude`).
-/

import Mathlib.Data.Rat.Floor
import Dohflow.CoreLedger.Transactions
import Dohflow.Foundation.MachineIntegers
import Dohflow.Foundation.Rounding

namespace Dohflow.CoreLedger

open Fallible MachineIntegers Rounding

/-- How a fractional minor unit is resolved. -/
inductive RoundingMode
  /-- Half to even. -/
  | halfEven
  /-- Half away from zero. -/
  | halfUp
  /-- Half toward zero. -/
  | halfDown
  /-- Toward positive infinity. -/
  | ceil
  /-- Toward negative infinity. -/
  | floor
  | towardZero
  | awayFromZero

/-! ### The division -/

/-- Whether the magnitude is one more than the quotient of the magnitudes. The doubled
remainder fits 128 bits. -/
def roundUp (mode : RoundingMode) (negative : Bool) (quotient remainder divisor : Nat) : Bool :=
  if remainder = 0 then false
  else
    let twice := remainder * 2
    match mode with
    | .towardZero => false
    | .awayFromZero => true
    | .floor => negative
    | .ceil => !negative
    | .halfUp => twice ≥ divisor
    | .halfDown => twice > divisor
    | .halfEven =>
      match compare twice divisor with
      | .gt => true
      | .lt => false
      | .eq => quotient % 2 = 1

/-- The quotient of two magnitudes, rounded as the mode says of a quotient of this sign. -/
def roundedMagnitude (mode : RoundingMode) (negative : Bool) (nAbs dAbs : Nat) : Nat :=
  let quotient := nAbs / dAbs
  let remainder := nAbs % dAbs
  if roundUp mode negative quotient remainder dAbs then quotient + 1 else quotient

/-- A magnitude with its sign. -/
def withSign (negative : Bool) (magnitude : Nat) : Int := if negative then -magnitude else magnitude

/-- `Money::checked_div_int` -/
def Money.checkedDivInt (money : Money) (divisor : Int64) (mode : RoundingMode) :
    Except MoneyError Money := do
  ensure (divisor ≠ 0) .divisionByZero
  let n := money.minorUnits.toInt
  let d := divisor.toInt
  let negative := decide (n < 0) ^^ decide (d < 0)
  let magnitude := roundedMagnitude mode negative n.natAbs d.natAbs
  ensure (magnitude < 2 ^ 127) .overflow
  let signed := withSign negative magnitude
  ensure (InI64 signed) .overflow
  return ⟨Int64.ofInt signed, money.currency⟩

/-! Which way the modes go that round to the nearest. -/

section Comparisons

variable {negative : Bool} {quotient remainder divisor : Nat}

theorem roundUp_of_lt (less : remainder * 2 < divisor) :
    roundUp .halfEven negative quotient remainder divisor = false ∧
      roundUp .halfUp negative quotient remainder divisor = false ∧
      roundUp .halfDown negative quotient remainder divisor = false := by
  have below : compare (remainder * 2) divisor = .lt := compare_lt_iff_lt.mpr less
  simp [roundUp, below, less, less.le]

theorem roundUp_of_gt (more : divisor < remainder * 2) :
    roundUp .halfEven negative quotient remainder divisor = true ∧
      roundUp .halfUp negative quotient remainder divisor = true ∧
      roundUp .halfDown negative quotient remainder divisor = true := by
  have apart : remainder ≠ 0 := by omega
  have above : compare (remainder * 2) divisor = .gt := compare_gt_iff_gt.mpr more
  simp [roundUp, apart, above, more, more.le]

theorem roundUp_of_eq (positive : 0 < divisor) (half : remainder * 2 = divisor) :
    roundUp .halfEven negative quotient remainder divisor = decide (quotient % 2 = 1) ∧
      roundUp .halfUp negative quotient remainder divisor = true ∧
      roundUp .halfDown negative quotient remainder divisor = false := by
  have apart : remainder ≠ 0 := by omega
  simp [roundUp, apart, half]

end Comparisons

/-! ### What a mode means -/

/-- An integer is what the mode makes of an exact number. -/
def RoundingMode.Rounds (mode : RoundingMode) (exact : ℚ) (rounded : ℤ) : Prop :=
  match mode with
  | .halfEven => NearestBy PrefersEven exact rounded
  | .halfUp => NearestBy PrefersAway exact rounded
  | .halfDown => NearestBy PrefersToward exact rounded
  | .ceil => rounded = ⌈exact⌉
  | .floor => rounded = ⌊exact⌋
  | .towardZero => rounded = truncate exact
  | .awayFromZero => rounded = expand exact

variable {mode : RoundingMode} {exact : ℚ} {rounded : ℤ}

theorem existsUnique_rounds (mode : RoundingMode) (exact : ℚ) :
    ∃! rounded, mode.Rounds exact rounded := by
  cases mode with
  | halfEven => exact existsUnique_nearestBy fun _ => Int.even_add_one
  | halfUp => exact existsUnique_nearestBy prefersAway_floor
  | halfDown => exact existsUnique_nearestBy prefersToward_floor
  | ceil => exact existsUnique_eq
  | floor => exact existsUnique_eq
  | towardZero => exact existsUnique_eq
  | awayFromZero => exact existsUnique_eq

/-- The mode that does to a number what this one does to its negation. -/
def RoundingMode.reflect : RoundingMode → RoundingMode
  | .ceil => .floor
  | .floor => .ceil
  | mode => mode

theorem roundedMagnitude_reflect (mode : RoundingMode) (nAbs dAbs : Nat) :
    roundedMagnitude mode true nAbs dAbs = roundedMagnitude mode.reflect false nAbs dAbs := by
  cases mode <;> rfl

theorem rounds_neg (nonnegative : 0 ≤ exact) :
    mode.Rounds (-exact) (-rounded) ↔ mode.reflect.Rounds exact rounded := by
  cases mode with
  | halfEven => exact nearestBy_neg even_neg
  | halfUp => exact nearestBy_neg prefersAway_neg
  | halfDown => exact nearestBy_neg prefersToward_neg
  | ceil =>
    show -rounded = ⌈-exact⌉ ↔ rounded = ⌊exact⌋
    rw [Int.ceil_neg, neg_inj]
  | floor =>
    show -rounded = ⌊-exact⌋ ↔ rounded = ⌈exact⌉
    rw [Int.floor_neg, neg_inj]
  | towardZero =>
    show -rounded = truncate (-exact) ↔ rounded = truncate exact
    rw [truncate_neg nonnegative, neg_inj]
  | awayFromZero =>
    show -rounded = expand (-exact) ↔ rounded = expand exact
    rw [expand_neg nonnegative, neg_inj]

/-! ### Magnitudes -/

section Magnitudes

variable {n d : Nat}

theorem floor_quotient (n d : Nat) : ⌊(n / d : ℚ)⌋ = (n / d : ℕ) :=
  Rat.floor_natCast_div_natCast n d

theorem fract_quotient (n d : Nat) : Int.fract (n / d : ℚ) = (n % d : ℕ) / (d : ℚ) :=
  Int.fract_div_natCast_eq_div_natCast_mod

theorem fract_quotient_eq_zero (positive : 0 < d) : Int.fract (n / d : ℚ) = 0 ↔ n % d = 0 := by
  have positiveRat : (0 : ℚ) < d := by exact_mod_cast positive
  rw [fract_quotient, div_eq_zero_iff, or_iff_left positiveRat.ne']
  exact_mod_cast Iff.rfl

theorem fract_quotient_lt_half (positive : 0 < d) :
    Int.fract (n / d : ℚ) < 1 / 2 ↔ n % d * 2 < d := by
  have positiveRat : (0 : ℚ) < d := by exact_mod_cast positive
  rw [fract_quotient, div_lt_div_iff₀ positiveRat two_pos, one_mul]
  exact_mod_cast Iff.rfl

theorem half_lt_fract_quotient (positive : 0 < d) :
    1 / 2 < Int.fract (n / d : ℚ) ↔ d < n % d * 2 := by
  have positiveRat : (0 : ℚ) < d := by exact_mod_cast positive
  rw [fract_quotient, div_lt_div_iff₀ two_pos positiveRat, one_mul]
  exact_mod_cast Iff.rfl

theorem fract_quotient_eq_half (positive : 0 < d) :
    Int.fract (n / d : ℚ) = 1 / 2 ↔ n % d * 2 = d := by
  have positiveRat : (0 : ℚ) < d := by exact_mod_cast positive
  rw [fract_quotient, div_eq_div_iff positiveRat.ne' two_ne_zero, one_mul]
  exact_mod_cast Iff.rfl

theorem roundedMagnitude_eq (mode : RoundingMode) (n d : Nat) :
    (roundedMagnitude mode false n d : ℤ) =
      if roundUp mode false (n / d) (n % d) d then ⌊(n / d : ℚ)⌋ + 1 else ⌊(n / d : ℚ)⌋ := by
  rw [floor_quotient, roundedMagnitude]
  split_ifs <;> rfl

theorem rounds_magnitude (mode : RoundingMode) (n : Nat) (positive : 0 < d) :
    mode.Rounds (n / d : ℚ) (roundedMagnitude mode false n d) := by
  have nonnegative : (0 : ℚ) ≤ n / d := by positivity
  have tieSides (half : Int.fract (n / d : ℚ) = 1 / 2) := abs_floor_of_tie half
  simp only [not_lt.mpr nonnegative, if_false] at tieSides
  have below (less : Int.fract (n / d : ℚ) < 1 / 2) :=
    @roundUp_of_lt false (n / d) _ _ ((fract_quotient_lt_half positive).mp less)
  have above (more : 1 / 2 < Int.fract (n / d : ℚ)) :=
    @roundUp_of_gt false (n / d) _ _ ((half_lt_fract_quotient positive).mp more)
  have tie (half : Int.fract (n / d : ℚ) = 1 / 2) :=
    @roundUp_of_eq false (n / d) _ _ positive ((fract_quotient_eq_half positive).mp half)
  have ceiling : ⌈(n / d : ℚ)⌉ =
      if n % d = 0 then ⌊(n / d : ℚ)⌋ else ⌊(n / d : ℚ)⌋ + 1 := by
    simp only [ceil_eq_floor, fract_quotient_eq_zero positive]
  rw [roundedMagnitude_eq]
  cases mode with
  | halfEven =>
    refine nearestBy_step (fun less => (below less).1) (fun more => (above more).1) fun half => ?_
    have parity : n / d % 2 = 1 ↔ ¬ Even ⌊(n / d : ℚ)⌋ := by
      rw [floor_quotient, Int.even_coe_nat, Nat.not_even_iff]
    rw [(tie half).1]
    by_cases odd : n / d % 2 = 1
    · rw [decide_eq_true odd]
      exact Int.even_add_one.mpr (parity.mp odd)
    · rw [decide_eq_false odd]
      exact not_not.mp fun even => odd (parity.mpr even)
  | halfUp =>
    refine nearestBy_step (fun less => (below less).2.1) (fun more => (above more).2.1)
      fun half => ?_
    rw [(tie half).2.1]
    exact (tieSides half).2.le
  | halfDown =>
    refine nearestBy_step (fun less => (below less).2.2) (fun more => (above more).2.2)
      fun half => ?_
    rw [(tie half).2.2]
    exact (tieSides half).1.le
  | ceil =>
    show _ = ⌈(n / d : ℚ)⌉
    rw [ceiling]
    by_cases exactly : n % d = 0 <;> simp [roundUp, exactly]
  | floor =>
    show _ = ⌊(n / d : ℚ)⌋
    simp [roundUp]
  | towardZero =>
    show _ = truncate (n / d : ℚ)
    simp [roundUp, truncate_of_nonneg nonnegative]
  | awayFromZero =>
    show _ = expand (n / d : ℚ)
    rw [expand_of_nonneg nonnegative, ceiling]
    by_cases exactly : n % d = 0 <;> simp [roundUp, exactly]

end Magnitudes

/-! ### The sign -/

/-- The integer that the division computes before it is narrowed to 64 bits. -/
def signedQuotient (n d : Int) (mode : RoundingMode) : Int :=
  withSign (decide (n < 0) ^^ decide (d < 0))
    (roundedMagnitude mode (decide (n < 0) ^^ decide (d < 0)) n.natAbs d.natAbs)

theorem quotient_eq (n d : Int) :
    (n / d : ℚ) = if decide (n < 0) ^^ decide (d < 0) then -(n.natAbs / d.natAbs : ℚ)
      else n.natAbs / d.natAbs := by
  have magnitude (value : Int) :
      (value : ℚ) = if value < 0 then -(value.natAbs : ℚ) else value.natAbs := by
    split_ifs with negative
    · rw [Nat.cast_natAbs, abs_of_neg negative, Int.cast_neg, neg_neg]
    · rw [Nat.cast_natAbs, abs_of_nonneg (not_lt.mp negative)]
  rw [magnitude n, magnitude d]
  by_cases left : n < 0 <;> by_cases right : d < 0 <;> simp [left, right, neg_div, div_neg]

theorem rounds_signedQuotient (n : Int) {d : Int} (nonzero : d ≠ 0) (mode : RoundingMode) :
    mode.Rounds (n / d : ℚ) (signedQuotient n d mode) := by
  have positive : 0 < d.natAbs := Int.natAbs_pos.mpr nonzero
  rw [quotient_eq, signedQuotient]
  cases decide (n < 0) ^^ decide (d < 0) with
  | false => exact rounds_magnitude mode n.natAbs positive
  | true =>
    rw [roundedMagnitude_reflect]
    exact (rounds_neg (by positivity)).mpr (rounds_magnitude mode.reflect n.natAbs positive)

theorem roundedMagnitude_le (mode : RoundingMode) (negative : Bool) (nAbs dAbs : Nat) :
    roundedMagnitude mode negative nAbs dAbs ≤ nAbs / dAbs + 1 := by
  unfold roundedMagnitude
  dsimp only
  split_ifs
  · exact le_rfl
  · exact Nat.le_succ _

namespace Money

variable {money : Money} {divisor : Int64} {mode : RoundingMode}

theorem toInt_ne_zero (nonzero : divisor ≠ 0) : divisor.toInt ≠ 0 := fun zero =>
  nonzero (Int64.toInt.inj (zero.trans Int64.toInt_zero.symm))

theorem toInt_ofInt {value : Int} (inside : InI64 value) : (Int64.ofInt value).toInt = value :=
  (Int64.toInt_ofInt).trans (asI64_eq inside)

theorem checkedDivInt_eq (nonzero : divisor ≠ 0) : money.checkedDivInt divisor mode =
    let rounded := signedQuotient money.minorUnits.toInt divisor.toInt mode
    if InI64 rounded then .ok ⟨Int64.ofInt rounded, money.currency⟩ else .error .overflow := by
  have narrow : roundedMagnitude mode
      (decide (money.minorUnits.toInt < 0) ^^ decide (divisor.toInt < 0))
      money.minorUnits.toInt.natAbs divisor.toInt.natAbs < 2 ^ 127 := by
    refine (roundedMagnitude_le _ _ _ _).trans_lt ?_
    have quotientBounded := Nat.div_le_self money.minorUnits.toInt.natAbs divisor.toInt.natAbs
    have low := Int64.le_toInt money.minorUnits
    have high := Int64.toInt_lt money.minorUnits
    omega
  unfold checkedDivInt
  rw [ensure, if_pos nonzero]
  dsimp only
  rw [ensure, if_pos narrow]
  rw [← signedQuotient, ensure]
  split_ifs with inside <;> rfl

theorem checkedDivInt_eq_overflow (nonzero : divisor ≠ 0) :
    money.checkedDivInt divisor mode = .error .overflow ↔
      ¬ InI64 (signedQuotient money.minorUnits.toInt divisor.toInt mode) := by
  rw [checkedDivInt_eq nonzero]
  dsimp only
  split_ifs with inside
  · exact iff_of_false (fun same => by cases same) (not_not.mpr inside)
  · exact iff_of_true rfl inside

/-- The division rounds the exact quotient by the mode, and overflows exactly where the
rounded integer does not fit. -/
theorem checkedDivInt_rounds (money : Money) (mode : RoundingMode) (nonzero : divisor ≠ 0) :
    ∃ rounded : ℤ,
      (mode.Rounds (money.minorUnits.toInt / divisor.toInt : ℚ) rounded ∧
        ∀ other, mode.Rounds (money.minorUnits.toInt / divisor.toInt : ℚ) other →
          other = rounded) ∧
      (InI64 rounded → ∃ result, money.checkedDivInt divisor mode = .ok result ∧
        result.minorUnits.toInt = rounded ∧ result.currency = money.currency) ∧
      (money.checkedDivInt divisor mode = .error .overflow ↔ ¬ InI64 rounded) := by
  have rounds := rounds_signedQuotient money.minorUnits.toInt (toInt_ne_zero nonzero) mode
  refine ⟨_, ⟨rounds, fun other also => (existsUnique_rounds mode _).unique also rounds⟩,
    fun inside => ?_, ?_⟩
  · exact ⟨_, (checkedDivInt_eq nonzero).trans (if_pos inside), toInt_ofInt inside, rfl⟩
  · exact checkedDivInt_eq_overflow nonzero

/-- Seven halved to the even neighbour, with the sign on the divisor. -/
theorem seven_by_minus_two : ∃ rounded : ℤ,
    (RoundingMode.halfEven.Rounds ((7 : Int64).toInt / (-2 : Int64).toInt : ℚ) rounded ∧
      ∀ other, RoundingMode.halfEven.Rounds ((7 : Int64).toInt / (-2 : Int64).toInt : ℚ) other →
        other = rounded) ∧
    (InI64 rounded → ∃ result, (Money.mk 7 .usd).checkedDivInt (-2) .halfEven = .ok result ∧
      result.minorUnits.toInt = rounded ∧ result.currency = .usd) ∧
    ((Money.mk 7 .usd).checkedDivInt (-2) .halfEven = .error .overflow ↔ ¬ InI64 rounded) :=
  checkedDivInt_rounds ⟨7, .usd⟩ .halfEven (by decide)

/-- Five halves below zero, in every mode. -/
example : [RoundingMode.halfEven, .halfUp, .halfDown, .ceil, .floor, .towardZero,
    .awayFromZero].map (Money.checkedDivInt ⟨-5, .usd⟩ 2) =
      [-2, -3, -2, -2, -3, -2, -3].map (fun units => .ok ⟨units, .usd⟩) := by decide

end Money

end Dohflow.CoreLedger
