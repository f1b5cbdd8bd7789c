/-
This file proves that a larger extra never hurts under the avalanche, for debts with
a fixed payment.

The minimum of such a debt is its payment, or what is still owed, so both what the
minimums take and what they leave grow with what is owed. The avalanche goes by the
rates, whatever the balances: two runs drain the same order, the one with more to
pay from smaller amounts. Month by month no debt is then left with more.
-/

import Dohflow.ForecastEngine.PayoffLaw

namespace Dohflow.ForecastEngine

open CanonicalOrder Draining MachineIntegers

/-! ### Fixed payments -/

/-- A debt with a fixed payment. -/
structure PayoffDebt.Fixed (debt : PayoffDebt) : Prop where
  balance : 0 ≤ debt.balanceCents
  apr : 0 ≤ debt.aprBps
  payment : 0 < debt.fixedPaymentCents

theorem requiredMinimum_fixed {debt : PayoffDebt} (payment : 0 < debt.fixedPaymentCents)
    {balance : Int} (owed : 0 ≤ balance) :
    requiredMinimum debt balance = min debt.fixedPaymentCents balance := by
  unfold requiredMinimum
  by_cases nothing : balance ≤ 0
  · rw [if_pos nothing]
    omega
  · rw [if_neg nothing, if_pos payment]
    exact if_neg fun none => absurd none.1 payment.ne'

theorem PayoffDebt.Fixed.payable {debt : PayoffDebt} (fixed : debt.Fixed) : debt.Payable := by
  refine ⟨fixed.apr, fun balance owed => ?_⟩
  have payment := fixed.payment
  rw [requiredMinimum_fixed payment owed]
  omega

/-! ### Owing no more -/

/-- On every debt something that is not negative, and no more than in another list. -/
def NoMore (lower upper : List Int) : Prop :=
  List.Forall₂ (fun low high => 0 ≤ low ∧ low ≤ high) lower upper

section NoMore

variable {debts : List PayoffDebt} {lower upper : List Int}

theorem NoMore.refl (owed : NonNegative upper) : NoMore upper upper :=
  List.forall₂_same.mpr fun balance member => ⟨owed balance member, le_rfl⟩

theorem NoMore.length_eq (less : NoMore lower upper) : lower.length = upper.length :=
  List.Forall₂.length_eq less

theorem NoMore.owedOn_le (less : NoMore lower upper) (debt : Nat) :
    owedOn lower debt ≤ owedOn upper debt := by
  by_cases inside : debt < lower.length
  · exact ((forall₂_iff_owedOn less.length_eq).mp less debt inside).2
  · have outside := not_lt.mp inside
    rw [owedOn_outside outside, owedOn_outside (less.length_eq ▸ outside)]

theorem NoMore.nonneg (less : NoMore lower upper) : NonNegative lower :=
  nonNegative_iff_owedOn.mpr fun debt inside =>
    ((forall₂_iff_owedOn less.length_eq).mp less debt inside).1

theorem NoMore.upper_nonneg (less : NoMore lower upper) : NonNegative upper :=
  nonNegative_iff_owedOn.mpr fun debt inside =>
    have pair := (forall₂_iff_owedOn less.length_eq).mp less debt (less.length_eq ▸ inside)
    pair.1.trans pair.2

theorem NoMore.sum_le (less : NoMore lower upper) : lower.sum ≤ upper.sum :=
  List.Forall₂.sum_le_sum (List.Forall₂.imp (fun _ _ pair => pair.2) less)

theorem NoMore.le_of_forall_le (less : NoMore lower upper) {bound : Int}
    (inside : ∀ amount ∈ upper, amount ≤ bound) : ∀ amount ∈ lower, amount ≤ bound := by
  intro amount member
  obtain ⟨debt, within, rfl⟩ := List.getElem_of_mem member
  rw [← owedOn_eq within]
  exact (less.owedOn_le debt).trans (inside _ (owedOn_mem (less.length_eq ▸ within)))

theorem exactInterest_mono {debt : PayoffDebt} (apr : 0 ≤ debt.aprBps) {low high : Int}
    (ordered : low ≤ high) : exactInterest debt low ≤ exactInterest debt high :=
  Int.ediv_le_ediv (by decide) (Int.mul_le_mul_of_nonneg_right ordered apr)

variable (fixed : ∀ debt ∈ debts, debt.Fixed) (less : NoMore lower upper)

include fixed less

theorem noMore_owedAfter : NoMore (owedAfter debts lower) (owedAfter debts upper) := by
  refine forall₂_zipWith less fun debt listed low high pair => ?_
  obtain ⟨positive, ordered⟩ := pair
  have apr := (fixed debt listed).apr
  exact ⟨Int.add_nonneg positive (exactInterest_nonneg apr positive),
    Int.add_le_add ordered (exactInterest_mono apr ordered)⟩

theorem noMore_minimums : NoMore (minimums debts lower) (minimums debts upper) := by
  refine forall₂_zipWith less fun debt listed low high pair => ?_
  obtain ⟨positive, ordered⟩ := pair
  have payment := (fixed debt listed).payment
  rw [requiredMinimum_fixed payment positive, requiredMinimum_fixed payment (positive.trans ordered)]
  omega

theorem noMore_afterMinimums : NoMore (afterMinimums debts lower) (afterMinimums debts upper) := by
  refine forall₂_zipWith less fun debt listed low high pair => ?_
  obtain ⟨positive, ordered⟩ := pair
  have payment := (fixed debt listed).payment
  rw [requiredMinimum_fixed payment positive, requiredMinimum_fixed payment (positive.trans ordered)]
  omega

theorem monthFits_of_noMore (fits : MonthFits debts upper) : MonthFits debts lower :=
  ⟨(noMore_owedAfter fixed less).le_of_forall_le fits.owed,
    (noMore_minimums fixed (noMore_owedAfter fixed less)).sum_le.trans fits.minimums⟩

theorem noMore_interests (fits : MonthFits debts upper) :
    NoMore (interests debts lower) (interests debts upper) := by
  have payable : ∀ debt ∈ debts, debt.Payable := fun debt listed => (fixed debt listed).payable
  rw [interests_eq payable less.nonneg (monthFits_of_noMore fixed less fits),
    interests_eq payable less.upper_nonneg fits]
  refine forall₂_zipWith less fun debt listed low high pair => ?_
  obtain ⟨positive, ordered⟩ := pair
  have apr := (fixed debt listed).apr
  exact ⟨exactInterest_nonneg apr positive, exactInterest_mono apr ordered⟩

theorem noMore_accrue (fits : MonthFits debts upper) :
    NoMore (accrue debts lower) (accrue debts upper) := by
  have payable : ∀ debt ∈ debts, debt.Payable := fun debt listed => (fixed debt listed).payable
  rw [accrue_eq payable less.nonneg (monthFits_of_noMore fixed less fits),
    accrue_eq payable less.upper_nonneg fits]
  exact noMore_owedAfter fixed less

end NoMore

/-! ### One month -/

section Month

variable {debts : List PayoffDebt} {lower upper : List Int} {budget more : Int}

theorem saturatingAdd_mono {left right largerLeft largerRight : Int} (lefts : left ≤ largerLeft)
    (rights : right ≤ largerRight) :
    saturatingAdd left right ≤ saturatingAdd largerLeft largerRight := by
  unfold saturatingAdd clampI64
  omega

theorem foldl_saturatingAdd_mono {total larger : Int} (less : NoMore lower upper)
    (ordered : total ≤ larger) :
    lower.foldl saturatingAdd total ≤ upper.foldl saturatingAdd larger := by
  unfold NoMore at less
  induction less generalizing total larger with
  | nil => exact ordered
  | cons pair pairs inductionHypothesis =>
    exact inductionHypothesis (saturatingAdd_mono ordered pair.2)

theorem surplusOf_mono (fixed : ∀ debt ∈ debts, debt.Fixed) (less : NoMore lower upper)
    (ordered : budget ≤ more) : surplusOf debts budget upper ≤ surplusOf debts more lower := by
  have sums : sumOf (minimums debts lower) ≤ sumOf (minimums debts upper) :=
    foldl_saturatingAdd_mono (noMore_minimums fixed less) le_rfl
  unfold surplusOf saturatingSub clampI64
  omega

theorem targetOrder_avalanche (same : lower.length = upper.length) :
    targetOrder debts .avalanche lower = targetOrder debts .avalanche upper := by
  unfold targetOrder
  rw [same]
  rfl

theorem noMore_afterMonth (fixed : ∀ debt ∈ debts, debt.Fixed) (less : NoMore lower upper)
    (same : upper.length = debts.length) (fits : MonthFits debts upper) (ordered : budget ≤ more) :
    NoMore (afterMonth debts .avalanche more lower) (afterMonth debts .avalanche budget upper) := by
  have payable : ∀ debt ∈ debts, debt.Payable := fun debt listed => (fixed debt listed).payable
  have accrued := noMore_accrue fixed less fits
  have left := noMore_afterMinimums fixed accrued
  have upperSame : (accrue debts upper).length = debts.length :=
    (Balances.accrue ⟨same, less.upper_nonneg⟩ payable fits).each
  have lowerSame := accrued.length_eq.trans upperSame
  have upperLength := (@length_allocate debts .avalanche budget _ upperSame).1
  have lowerLength := (@length_allocate debts .avalanche more _ lowerSame).1
  have upperDrains := @allocate_drains debts .avalanche budget _ upperSame (by decide) payable
    accrued.upper_nonneg
  have lowerDrains := @allocate_drains debts .avalanche more _ lowerSame (by decide) payable
    accrued.nonneg
  -- Both runs drain the same order.
  rw [targetOrder_avalanche left.length_eq] at lowerDrains
  have drained : List.Forall₂ (· ≤ ·)
      ((targetOrder debts .avalanche (afterMinimums debts (accrue debts upper))).map
        (owedOn (afterMonth debts .avalanche more lower)))
      ((targetOrder debts .avalanche (afterMinimums debts (accrue debts upper))).map
        (owedOn (afterMonth debts .avalanche budget upper))) := by
    unfold afterMonth
    rw [lowerDrains, upperDrains]
    refine drain_mono ?_ (surplusOf_mono fixed accrued ordered)
    rw [List.forall₂_map_left_iff, List.forall₂_map_right_iff, List.forall₂_same]
    exact fun debt _ => left.owedOn_le debt
  rw [List.forall₂_map_left_iff, List.forall₂_map_right_iff, List.forall₂_same] at drained
  refine (forall₂_iff_owedOn (lowerLength.trans upperLength.symm)).mpr fun debt inside => ?_
  refine ⟨(allocate_bounds lowerSame payable accrued.nonneg debt).1, drained debt ?_⟩
  rw [mem_targetOrder, length_afterMinimums upperSame, ← lowerLength]
  exact inside

end Month

/-! ### Two runs -/

/-- A run that is no worse than another: no debt is left with more in any month, no more interest
falls due, and nothing is owed no later. -/
structure NoWorse (lower upper : List Int) (lowerRun upperRun : PayoffRun) : Prop where
  rows : ∀ month debt, owedOn ((lower :: lowerRun.rows).getD month []) debt ≤
    owedOn ((upper :: upperRun.rows).getD month []) debt
  interest : lowerRun.totalInterest ≤ upperRun.totalInterest
  ends : (¬ ∃ balance ∈ upperRun.balances, 0 < balance) →
    (¬ ∃ balance ∈ lowerRun.balances, 0 < balance) ∧ lowerRun.months ≤ upperRun.months

section Runs

variable {debts : List PayoffDebt} {strategy : PayoffStrategy} {lower upper : List Int}
  {budget more : Int} {cap : Nat} {lowerInterest interest : Int}

/-- Where nothing is owed, nothing is owed with no more owed. -/
theorem NoMore.nothing (less : NoMore lower upper)
    (nothing : ¬ ∃ balance ∈ upper, 0 < balance) : ¬ ∃ balance ∈ lower, 0 < balance := by
  rintro ⟨balance, member, owes⟩
  have bounded := less.le_of_forall_le
    (fun amount listed => not_lt.mp fun positive => nothing ⟨amount, listed, positive⟩) balance member
  omega

theorem le_foldl_saturatingAdd {amounts : List Int} {total : Int} (owed : NonNegative amounts)
    (inside : total ≤ maxI64) :
    total ≤ amounts.foldl saturatingAdd total ∧ amounts.foldl saturatingAdd total ≤ maxI64 := by
  induction amounts generalizing total with
  | nil => exact ⟨le_rfl, inside⟩
  | cons amount rest inductionHypothesis =>
    have own := owed amount List.mem_cons_self
    have step : total ≤ saturatingAdd total amount ∧ saturatingAdd total amount ≤ maxI64 := by
      unfold saturatingAdd clampI64 minI64
      unfold maxI64 at inside ⊢
      omega
    have later := inductionHypothesis
      (fun other member => owed other (List.mem_cons_of_mem _ member)) step.2
    exact ⟨step.1.trans later.1, later.2⟩

theorem interests_nonneg (opening : Balances debts upper) (terms : ∀ debt ∈ debts, debt.Payable)
    (fits : MonthFits debts upper) : NonNegative (interests debts upper) := by
  rw [interests_eq terms opening.owed fits]
  exact forall_mem_zipWith fun debt listed balance owes =>
    exactInterest_nonneg (terms debt listed).apr (opening.owed balance owes)

theorem le_totalInterest (opening : Balances debts upper) (terms : ∀ debt ∈ debts, debt.Payable)
    (fits : PayoffFits debts strategy budget cap upper) (inside : interest ≤ maxI64) :
    interest ≤ (runMonths debts strategy budget cap upper interest).totalInterest := by
  induction cap generalizing upper interest with
  | zero => exact le_rfl
  | succ cap inductionHypothesis =>
    by_cases owes : ∃ balance ∈ upper, 0 < balance
    · obtain ⟨month, rest⟩ := fits.2 owes
      have added := le_foldl_saturatingAdd (interests_nonneg opening terms month) inside
      rw [runMonths_of_owed owes]
      exact added.1.trans (inductionHypothesis (opening.afterMonth terms month) rest added.2)
    · rw [runMonths_of_nothing owes]

theorem noWorse_of_nothing (opening : Balances debts upper) (terms : ∀ debt ∈ debts, debt.Payable)
    (less : NoMore lower upper) (fits : PayoffFits debts strategy budget cap upper)
    (interests : lowerInterest ≤ interest) (inside : interest ≤ maxI64)
    (nothing : ¬ ∃ balance ∈ lower, 0 < balance) :
    NoWorse lower upper ⟨0, lower, lowerInterest, []⟩
      (runMonths debts strategy budget cap upper interest) := by
  refine ⟨fun month debt => ?_, interests.trans (le_totalInterest opening terms fits inside),
    fun _ => ⟨nothing, Nat.zero_le _⟩⟩
  cases month with
  | zero => exact less.owedOn_le debt
  | succ month =>
    have rows := @runMonths_rows debts strategy budget upper cap interest opening terms fits
    generalize runMonths debts strategy budget cap upper interest = run at rows
    show 0 ≤ owedOn (run.rows.getD month []) debt
    refine owedOn_nonneg ?_ debt
    by_cases listed : month < run.rows.length
    · rw [List.getD_eq_getElem _ _ listed]
      exact (rows _ (List.mem_cons_of_mem _ (List.getElem_mem listed))).1.owed
    · rw [List.getD_eq_default _ _ (not_lt.mp listed)]
      exact fun amount member => absurd member List.not_mem_nil

theorem runMonths_noWorse (fixed : ∀ debt ∈ debts, debt.Fixed) (less : NoMore lower upper)
    (same : upper.length = debts.length) (fits : PayoffFits debts .avalanche budget cap upper)
    (ordered : budget ≤ more) (interests : lowerInterest ≤ interest) (inside : interest ≤ maxI64) :
    NoWorse lower upper (runMonths debts .avalanche more cap lower lowerInterest)
      (runMonths debts .avalanche budget cap upper interest) := by
  have terms : ∀ debt ∈ debts, debt.Payable := fun debt listed => (fixed debt listed).payable
  induction cap generalizing lower upper lowerInterest interest with
  | zero =>
    refine ⟨fun month debt => ?_, interests, fun nothing => ⟨less.nothing nothing, le_rfl⟩⟩
    cases month with
    | zero => exact less.owedOn_le debt
    | succ month => exact le_rfl
  | succ cap inductionHypothesis =>
    have opening : Balances debts upper := ⟨same, less.upper_nonneg⟩
    by_cases lowerOwes : ∃ balance ∈ lower, 0 < balance
    · have owes : ∃ balance ∈ upper, 0 < balance := by
        by_contra nothing
        exact less.nothing nothing lowerOwes
      obtain ⟨month, rest⟩ := fits.2 owes
      have due := noMore_interests fixed less month
      have later := inductionHypothesis (noMore_afterMonth fixed less same month ordered)
        (opening.afterMonth terms month).each rest (foldl_saturatingAdd_mono due interests)
        (le_foldl_saturatingAdd due.upper_nonneg inside).2
      rw [runMonths_of_owed owes, runMonths_of_owed lowerOwes]
      refine ⟨fun month debt => ?_, later.interest, fun nothing => ?_⟩
      · cases month with
        | zero => exact less.owedOn_le debt
        | succ month => exact later.rows month debt
      · obtain ⟨cleared, sooner⟩ := later.ends nothing
        exact ⟨cleared, Nat.succ_le_succ sooner⟩
    · rw [runMonths_of_nothing lowerOwes]
      exact noWorse_of_nothing opening terms less fits interests inside lowerOwes

end Runs

/-! ### Two projections -/

/-- What a projection leaves of a debt after a month; a finished one leaves nothing. -/
def owedAt (result : PayoffResult) (month debt : Nat) : Int :=
  owedOn (result.monthlyOwedByDebt.getD month []) debt

section Projections

variable {debts : List PayoffDebt} {strategy : PayoffStrategy} {extra : Int}

theorem owedAt_simulatePayoff (month debt : Nat) :
    owedAt (simulatePayoff debts strategy extra) month debt =
      max (owedOn ((startingBalances debts :: (runMonths debts strategy (constantBudget debts extra)
        horizonCapMonths (startingBalances debts) 0).rows).getD month []) debt) 0 := by
  unfold owedAt simulatePayoff
  dsimp only
  generalize startingBalances debts :: (runMonths debts strategy (constantBudget debts extra)
    horizonCapMonths (startingBalances debts) 0).rows = rows
  have row := @List.getD_map _ _ rows [] month fun row : List Int => row.map fun amount => max amount 0
  have amount := @List.getD_map _ _ (rows.getD month []) 0 debt fun amount : Int => max amount 0
  unfold owedOn
  rw [← amount]
  exact congrArg (fun row => List.getD row debt 0) row

theorem debtFreeMonth_eq_some {month : Nat} :
    (simulatePayoff debts strategy extra).debtFreeMonth = some month ↔
      (¬ ∃ balance ∈ (runMonths debts strategy (constantBudget debts extra) horizonCapMonths
        (startingBalances debts) 0).balances, 0 < balance) ∧
      (runMonths debts strategy (constantBudget debts extra) horizonCapMonths
        (startingBalances debts) 0).months = month := by
  unfold simulatePayoff
  dsimp only
  generalize runMonths debts strategy (constantBudget debts extra) horizonCapMonths
    (startingBalances debts) 0 = run
  have cleared : (run.balances.all fun balance => balance ≤ 0) = true ↔
      ¬ ∃ balance ∈ run.balances, 0 < balance := by
    rw [List.all_eq_true]
    simp only [decide_eq_true_eq, not_exists, not_and, not_lt]
  rw [Option.ite_none_right_eq_some, cleared, Option.some_inj]

/-- More extra never hurts under the avalanche: with fixed payments and no sum out of range, a
larger extra leaves no debt with more in any month, so that the debt-free month is no later, and no
more interest is paid. -/
theorem more_extra_never_hurts (debts : List PayoffDebt) (less more : Int)
    (fixed : ∀ debt ∈ debts, debt.Fixed) (ordered : less ≤ more)
    (fits : PayoffFits debts .avalanche (constantBudget debts less) horizonCapMonths
      (startingBalances debts)) :
    (∀ month debt, owedAt (simulatePayoff debts .avalanche more) month debt ≤
      owedAt (simulatePayoff debts .avalanche less) month debt) ∧
    (∀ month, (simulatePayoff debts .avalanche less).debtFreeMonth = some month →
      ∃ sooner ≤ month, (simulatePayoff debts .avalanche more).debtFreeMonth = some sooner) ∧
    (simulatePayoff debts .avalanche more).totalInterestCents ≤
      (simulatePayoff debts .avalanche less).totalInterestCents := by
  have start := balances_startingBalances debts
  have budgets : constantBudget debts less ≤ constantBudget debts more :=
    saturatingAdd_mono le_rfl (max_le_max ordered le_rfl)
  have run := runMonths_noWorse fixed (NoMore.refl start.owed) start.each fits budgets
    (le_refl 0) (by decide)
  refine ⟨fun month debt => ?_, fun month found => ?_, run.interest⟩
  · rw [owedAt_simulatePayoff, owedAt_simulatePayoff]
    exact max_le_max (run.rows month debt) le_rfl
  · obtain ⟨nothing, rfl⟩ := debtFreeMonth_eq_some.mp found
    obtain ⟨cleared, sooner⟩ := run.ends nothing
    exact ⟨_, sooner, debtFreeMonth_eq_some.mpr ⟨cleared, rfl⟩⟩

end Projections

/-- Two loans with a fixed payment. -/
def twoLoans : List PayoffDebt := [⟨50000, 600, 0, 0, 9000⟩, ⟨30000, 2400, 0, 0, 2500⟩]

theorem more_extra_never_hurts_two_loans :
    (∀ month debt, owedAt (simulatePayoff twoLoans .avalanche 5000) month debt ≤
      owedAt (simulatePayoff twoLoans .avalanche 1000) month debt) ∧
    (∀ month, (simulatePayoff twoLoans .avalanche 1000).debtFreeMonth = some month →
      ∃ sooner ≤ month, (simulatePayoff twoLoans .avalanche 5000).debtFreeMonth = some sooner) ∧
    (simulatePayoff twoLoans .avalanche 5000).totalInterestCents ≤
      (simulatePayoff twoLoans .avalanche 1000).totalInterestCents := by
  refine more_extra_never_hurts _ _ _ (fun debt member => ?_) (by decide) (by decide +kernel)
  rcases List.mem_pair.mp member with rfl | rfl <;> constructor <;> decide

end Dohflow.ForecastEngine
