/-
This file models the revolving balance of a card over its cycles, and proves that
no charge is lost or counted twice.

What is owed has a billed part, which bears interest, and an unbilled one, which a
stated statement left out. A cycle adds its charges and interest, takes a payment off
the statement and carries both parts on. Together with the payment they are what
was owed, or the statement where that is more; and after a statement is paid in full
nothing is billed, so that no interest accrues.
-/

import Dohflow.Foundation.MachineIntegers
import Mathlib.Order.Lattice
import Mathlib.Data.List.Chain

namespace Dohflow.ForecastEngine

open MachineIntegers

/-! ### Terms and cycles -/

/-- How the payment is sized each cycle. -/
inductive PaymentPolicy
  | fullStatement
  | minimum
  | fixed (amount : Int)

/-- The repayment terms of a card; rates are in basis points. -/
structure RevolvingTerms where
  aprBps : Int
  policy : PaymentPolicy
  minPercentBps : Int
  minFloorCents : Int

/-- What one cycle brings. -/
structure RevolvingCycle where
  newChargesCents : Int
  daysInCycle : Nat
  statementOverrideCents : Option Int

/-- The projected outcome of one cycle. -/
structure CycleProjection where
  openingCents : Int
  newChargesCents : Int
  financeChargeCents : Int
  statementBalanceCents : Int
  minimumDueCents : Int
  paymentCents : Int
  closingCents : Int

/-! ### The projection -/

/-- The interest of a cycle on its average daily balance; none after a statement paid in full. -/
def cycleFinanceCharge (openingCents newChargesCents : Int) (daysInCycle : Nat) (aprBps : Int) :
    Int :=
  if openingCents ≤ 0 ∨ aprBps ≤ 0 ∨ daysInCycle = 0 then 0
  else
    let avgDaily := openingCents + (max newChargesCents 0).tdiv 2
    let numer := asI128 (asI128 (avgDaily * aprBps) * daysInCycle)
    let charge := numer.tdiv (10000 * 365)
    if InI64 charge then charge else maxI64

/-- The greater of a percentage and a floor, never more than the balance. -/
def minimumDue (statementCents percentBps floorCents : Int) : Int :=
  if statementCents ≤ 0 then 0
  else
    let pct := asI64 ((statementCents * percentBps).tdiv 10000)
    min (max pct floorCents) statementCents

def paymentFor (policy : PaymentPolicy) (statementCents minimumCents : Int) : Int :=
  let amount := match policy with
    | .fullStatement => statementCents
    | .minimum => minimumCents
    | .fixed amount => amount
  max 0 (min amount (max statementCents 0))

/-- What is carried from one cycle to the next. -/
structure CardBalance where
  billed : Int
  unbilled : Int

/-- One cycle: what it projects, and what it carries on. -/
def revolve (terms : RevolvingTerms) (carried : CardBalance) (cycle : RevolvingCycle) :
    CycleProjection × CardBalance :=
  let financeCharge := cycleFinanceCharge carried.billed
    (saturatingAdd cycle.newChargesCents carried.unbilled) cycle.daysInCycle terms.aprBps
  let opening := saturatingAdd carried.billed carried.unbilled
  let estimate := saturatingAdd (saturatingAdd opening cycle.newChargesCents) financeCharge
  let statement := cycle.statementOverrideCents.getD estimate
  let nextUnbilled := max (saturatingSub estimate statement) 0
  let minimum := minimumDue statement terms.minPercentBps terms.minFloorCents
  let payment := paymentFor terms.policy statement minimum
  let nextBilled := max (statement - payment) 0
  (⟨opening, cycle.newChargesCents, financeCharge, statement, minimum, payment,
    saturatingAdd nextBilled nextUnbilled⟩, ⟨nextBilled, nextUnbilled⟩)

/-- The cycles one after another, from what is carried into the first. -/
def revolveAll (terms : RevolvingTerms) :
    CardBalance → List RevolvingCycle → List CycleProjection
  | _, [] => []
  | carried, cycle :: rest =>
    let (projection, next) := revolve terms carried cycle
    projection :: revolveAll terms next rest

/-- Fold an owed balance across the cycles. -/
def projectRevolving (openingCents : Int) (cycles : List RevolvingCycle) (terms : RevolvingTerms) :
    List CycleProjection :=
  revolveAll terms ⟨max openingCents 0, 0⟩ cycles

/-! ### Sums in range -/

/-- The interest of a cycle before it is cut down to 64 bits. -/
def exactCharge (terms : RevolvingTerms) (carried : CardBalance) (cycle : RevolvingCycle) : Int :=
  if carried.billed ≤ 0 ∨ terms.aprBps ≤ 0 ∨ cycle.daysInCycle = 0 then 0
  else ((carried.billed + (max (cycle.newChargesCents + carried.unbilled) 0).tdiv 2) * terms.aprBps *
    cycle.daysInCycle).tdiv (10000 * 365)

/-- All that is owed at the end of a cycle is in range. -/
def CycleFits (terms : RevolvingTerms) (carried : CardBalance) (cycle : RevolvingCycle) : Prop :=
  carried.billed + carried.unbilled + cycle.newChargesCents + exactCharge terms carried cycle ≤ maxI64

/-- No cycle saturates. -/
def NeverSaturates (terms : RevolvingTerms) : CardBalance → List RevolvingCycle → Prop
  | _, [] => True
  | carried, cycle :: rest =>
    CycleFits terms carried cycle ∧ NeverSaturates terms (revolve terms carried cycle).2 rest

instance decidableNeverSaturates (terms : RevolvingTerms) :
    (carried : CardBalance) → (cycles : List RevolvingCycle) →
      Decidable (NeverSaturates terms carried cycles)
  | _, [] => inferInstanceAs (Decidable True)
  | carried, cycle :: rest =>
    have := decidableNeverSaturates terms (revolve terms carried cycle).2 rest
    inferInstanceAs (Decidable (_ ≤ _ ∧ _))

/-- Charges are not negative, and a stated statement is an amount that is not either. -/
structure RevolvingCycle.NonNegative (cycle : RevolvingCycle) : Prop where
  charges : 0 ≤ cycle.newChargesCents
  stated : ∀ statement ∈ cycle.statementOverrideCents, 0 ≤ statement ∧ statement ≤ maxI64

/-- The rules for the minimum are not negative. -/
structure RevolvingTerms.NonNegativeRules (terms : RevolvingTerms) : Prop where
  percent : 0 ≤ terms.minPercentBps
  floor : 0 ≤ terms.minFloorCents

structure CardBalance.NonNegative (carried : CardBalance) : Prop where
  billed : 0 ≤ carried.billed
  unbilled : 0 ≤ carried.unbilled

section Cycle

variable {terms : RevolvingTerms} {carried : CardBalance} {cycle : RevolvingCycle}

theorem exactCharge_nonneg (nonnegative : carried.NonNegative) :
    0 ≤ exactCharge terms carried cycle := by
  unfold exactCharge
  split_ifs with none
  · exact le_rfl
  · obtain ⟨billed, rate, days⟩ := not_or.mp none |>.imp_right not_or.mp
    refine Int.tdiv_nonneg (Int.mul_nonneg (Int.mul_nonneg ?_ (by omega)) (by omega)) (by decide)
    exact Int.add_nonneg nonnegative.billed (Int.tdiv_nonneg (le_max_right _ _) (by decide))

/-- Where all that is owed is in range, nothing on the way to the interest is cut down. -/
theorem cycleFinanceCharge_eq (nonnegative : carried.NonNegative) (charges : cycle.NonNegative)
    (fits : CycleFits terms carried cycle) :
    cycleFinanceCharge carried.billed (saturatingAdd cycle.newChargesCents carried.unbilled)
      cycle.daysInCycle terms.aprBps = exactCharge terms carried cycle := by
  have charge := @exactCharge_nonneg terms carried cycle nonnegative
  have unbilled := nonnegative.unbilled
  have billed := nonnegative.billed
  have added := charges.charges
  unfold CycleFits at fits
  have basis : saturatingAdd cycle.newChargesCents carried.unbilled =
      cycle.newChargesCents + carried.unbilled := saturatingAdd_eq (by omega) (by omega)
  rw [basis]
  unfold cycleFinanceCharge
  unfold exactCharge at charge fits ⊢
  split_ifs at charge fits ⊢ with none
  · rfl
  · obtain ⟨owes, rate, days⟩ := not_or.mp none |>.imp_right not_or.mp
    generalize average : carried.billed +
      (max (cycle.newChargesCents + carried.unbilled) 0).tdiv 2 = averageDaily at charge fits ⊢
    have positive : 0 ≤ averageDaily := by
      rw [← average]
      exact Int.add_nonneg billed (Int.tdiv_nonneg (le_max_right _ _) (by decide))
    have yearly : 0 ≤ averageDaily * terms.aprBps := Int.mul_nonneg positive (by omega)
    have grows : averageDaily * terms.aprBps * 1 ≤
        averageDaily * terms.aprBps * cycle.daysInCycle :=
      Int.mul_le_mul_of_nonneg_left (by omega) yearly
    rw [Int.mul_one] at grows
    have inside : InI64 ((averageDaily * terms.aprBps * cycle.daysInCycle).tdiv (10000 * 365)) :=
      ⟨le_trans (by decide) charge, by omega⟩
    have bound : averageDaily * terms.aprBps * cycle.daysInCycle < 2 ^ 127 := by
      have high := inside.2
      rw [Int.tdiv_eq_ediv_of_nonneg (yearly.trans grows)] at high
      unfold maxI64 at high
      omega
    dsimp only
    rw [asI128_eq (le_trans (by decide) yearly) (grows.trans_lt bound),
      asI128_eq (le_trans (by decide) (yearly.trans grows)) bound, if_pos inside]

/-- A cycle's bounds on minimum and payment, and its balance. -/
structure Conserves (projection : CycleProjection) : Prop where
  minimum : 0 ≤ projection.minimumDueCents ∧
    projection.minimumDueCents ≤ projection.statementBalanceCents
  payment : 0 ≤ projection.paymentCents ∧
    projection.paymentCents ≤ projection.statementBalanceCents
  balance : projection.closingCents + projection.paymentCents =
    max projection.statementBalanceCents
      (projection.openingCents + projection.newChargesCents + projection.financeChargeCents)

theorem minimumDue_bounds {statement percent floor : Int} (nonnegative : 0 ≤ floor)
    (owed : 0 ≤ statement) :
    0 ≤ minimumDue statement percent floor ∧ minimumDue statement percent floor ≤ statement := by
  unfold minimumDue
  split_ifs with nothing
  · exact ⟨le_rfl, owed⟩
  · dsimp only
    omega

theorem paymentFor_bounds (policy : PaymentPolicy) {statement : Int} (minimum : Int)
    (owed : 0 ≤ statement) :
    0 ≤ paymentFor policy statement minimum ∧ paymentFor policy statement minimum ≤ statement := by
  unfold paymentFor
  dsimp only
  omega

theorem revolve_conserves (rules : terms.NonNegativeRules) (nonnegative : carried.NonNegative)
    (charges : cycle.NonNegative) (fits : CycleFits terms carried cycle) :
    Conserves (revolve terms carried cycle).1 ∧
      (revolve terms carried cycle).2.NonNegative := by
  have charge := @exactCharge_nonneg terms carried cycle nonnegative
  have unbilled := nonnegative.unbilled
  have billed := nonnegative.billed
  have added := charges.charges
  have interest := cycleFinanceCharge_eq nonnegative charges fits
  unfold CycleFits at fits
  have opening : saturatingAdd carried.billed carried.unbilled = carried.billed + carried.unbilled :=
    saturatingAdd_eq (by omega) (by omega)
  have owed : saturatingAdd (carried.billed + carried.unbilled) cycle.newChargesCents =
      carried.billed + carried.unbilled + cycle.newChargesCents :=
    saturatingAdd_eq (by omega) (by omega)
  have estimate : saturatingAdd (carried.billed + carried.unbilled + cycle.newChargesCents)
      (exactCharge terms carried cycle) =
        carried.billed + carried.unbilled + cycle.newChargesCents + exactCharge terms carried cycle :=
    saturatingAdd_eq (by omega) fits
  unfold revolve
  dsimp only
  rw [interest, opening, owed, estimate]
  generalize total : carried.billed + carried.unbilled + cycle.newChargesCents +
    exactCharge terms carried cycle = sum at fits ⊢
  have whole : 0 ≤ sum := by omega
  have stated : 0 ≤ cycle.statementOverrideCents.getD sum ∧
      cycle.statementOverrideCents.getD sum ≤ maxI64 := by
    cases override : cycle.statementOverrideCents with
    | none => exact ⟨whole, fits⟩
    | some statement => exact charges.stated statement override
  generalize cycle.statementOverrideCents.getD sum = statement at stated ⊢
  have minimum := @minimumDue_bounds statement terms.minPercentBps terms.minFloorCents
    rules.floor stated.1
  have payment := paymentFor_bounds terms.policy
    (minimumDue statement terms.minPercentBps terms.minFloorCents) stated.1
  generalize paymentFor terms.policy statement
    (minimumDue statement terms.minPercentBps terms.minFloorCents) = paid at payment ⊢
  have remainder : saturatingSub sum statement = sum - statement :=
    clampI64_eq ⟨by unfold minI64; unfold maxI64 at stated; omega, by omega⟩
  rw [remainder]
  have closing : saturatingAdd (max (statement - paid) 0) (max (sum - statement) 0) =
      max (statement - paid) 0 + max (sum - statement) 0 :=
    saturatingAdd_eq (by omega) (by omega)
  rw [closing]
  refine ⟨⟨minimum, payment, ?_⟩, ⟨le_max_right _ _, le_max_right _ _⟩⟩
  dsimp only
  omega

theorem nothing_billed_of_fullStatement (policy : terms.policy = .fullStatement) :
    (revolve terms carried cycle).2.billed ≤ 0 := by
  unfold revolve paymentFor
  dsimp only
  rw [policy]
  dsimp only
  omega

theorem no_charge_of_nothing_billed (nothing : carried.billed ≤ 0) :
    (revolve terms carried cycle).1.financeChargeCents = 0 := by
  unfold revolve cycleFinanceCharge
  dsimp only
  rw [if_pos (.inl nothing)]

end Cycle

/-! ### All cycles -/

section Cycles

variable {terms : RevolvingTerms} {carried : CardBalance} {cycles : List RevolvingCycle}

theorem conserves_of_mem_revolveAll (rules : terms.NonNegativeRules)
    (charges : ∀ cycle ∈ cycles, cycle.NonNegative) (nonnegative : carried.NonNegative)
    (fits : NeverSaturates terms carried cycles) :
    ∀ projection ∈ revolveAll terms carried cycles, Conserves projection := by
  induction cycles generalizing carried with
  | nil => exact fun _ member => nomatch member
  | cons cycle rest inductionHypothesis =>
    obtain ⟨conserves, next⟩ := revolve_conserves rules nonnegative
      (charges cycle List.mem_cons_self) fits.1
    intro projection member
    rcases List.mem_cons.mp member with rfl | later
    · exact conserves
    · exact inductionHypothesis (fun other behind => charges other (List.mem_cons_of_mem _ behind))
        next fits.2 projection later

theorem isChain_revolveAll (terms : RevolvingTerms) (carried : CardBalance)
    (cycles : List RevolvingCycle) :
    (revolveAll terms carried cycles).IsChain fun first second =>
      second.openingCents = first.closingCents := by
  induction cycles generalizing carried with
  | nil => exact .nil
  | cons cycle rest inductionHypothesis =>
    have later := inductionHypothesis (revolve terms carried cycle).2
    cases rest with
    | nil => exact List.isChain_singleton _
    | cons second rest => exact List.isChain_cons_cons.mpr ⟨rfl, later⟩

theorem no_charge_of_mem_revolveAll (policy : terms.policy = .fullStatement)
    (nothing : carried.billed ≤ 0) :
    ∀ projection ∈ revolveAll terms carried cycles, projection.financeChargeCents = 0 := by
  induction cycles generalizing carried with
  | nil => exact fun _ member => nomatch member
  | cons cycle rest inductionHypothesis =>
    intro projection member
    rcases List.mem_cons.mp member with rfl | later
    · exact no_charge_of_nothing_billed nothing
    · exact inductionHypothesis (nothing_billed_of_fullStatement policy) projection later

theorem length_revolveAll (terms : RevolvingTerms) (carried : CardBalance)
    (cycles : List RevolvingCycle) : (revolveAll terms carried cycles).length = cycles.length := by
  induction cycles generalizing carried with
  | nil => rfl
  | cons cycle rest inductionHypothesis => exact congrArg (· + 1) (inductionHypothesis _)

end Cycles

/-- Where no cycle saturates, every cycle's minimum and payment are between nothing and its
statement, and its closing balance with its payment is what was owed, or the statement where that is
more; the next cycle opens with the closing balance; and when statements are paid in full, no cycle
after the first has a finance charge. -/
theorem card_balance_is_conserved {opening : Int} {cycles : List RevolvingCycle}
    {terms : RevolvingTerms} (rules : terms.NonNegativeRules)
    (charges : ∀ cycle ∈ cycles, cycle.NonNegative)
    (fits : NeverSaturates terms ⟨max opening 0, 0⟩ cycles) :
    (projectRevolving opening cycles terms).length = cycles.length ∧
      (∀ projection ∈ projectRevolving opening cycles terms, Conserves projection) ∧
      ((projectRevolving opening cycles terms).IsChain fun first second =>
        second.openingCents = first.closingCents) ∧
      (terms.policy = .fullStatement →
        ∀ projection ∈ (projectRevolving opening cycles terms).tail,
          projection.financeChargeCents = 0) := by
  refine ⟨length_revolveAll _ _ _, conserves_of_mem_revolveAll rules charges
    ⟨le_max_right _ _, le_rfl⟩ fits, isChain_revolveAll _ _ _, fun policy => ?_⟩
  cases cycles with
  | nil => exact fun _ member => nomatch member
  | cons cycle rest =>
    exact no_charge_of_mem_revolveAll policy (nothing_billed_of_fullStatement policy)

/-- An owed balance with a recorded statement below it, paid in full, at a high rate. -/
theorem card_balance_is_conserved_of_a_recorded_statement :
    ∃ (opening : Int) (cycles : List RevolvingCycle) (terms : RevolvingTerms),
      (projectRevolving opening cycles terms).length = cycles.length ∧
      (∀ projection ∈ projectRevolving opening cycles terms, Conserves projection) ∧
      ((projectRevolving opening cycles terms).IsChain fun first second =>
        second.openingCents = first.closingCents) ∧
      (terms.policy = .fullStatement →
        ∀ projection ∈ (projectRevolving opening cycles terms).tail,
          projection.financeChargeCents = 0) := by
  let cycles : List RevolvingCycle := [⟨0, 30, some 1387308⟩, ⟨20000, 31, none⟩, ⟨500, 30, some 900⟩]
  let terms : RevolvingTerms := ⟨2400, .fullStatement, 100, 2500⟩
  refine ⟨1708223, cycles, terms,
    card_balance_is_conserved ⟨by decide, by decide⟩ (fun cycle member => ?_) (by decide +kernel)⟩
  simp only [cycles, List.mem_cons, List.not_mem_nil, or_false] at member
  rcases member with rfl | rfl | rfl
  · exact ⟨by decide, by decide⟩
  · exact ⟨by decide, by decide⟩
  · exact ⟨by decide, by decide⟩

end Dohflow.ForecastEngine
