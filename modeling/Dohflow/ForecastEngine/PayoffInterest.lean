/-
This file compares the interest of the avalanche with that of another strategy that
rolls over, for debts with a fixed payment.

The avalanche pays the dearest debts first, so its balances are front loaded along the
falling rates, and it never owes more in all. Then the interest of a month is no more
before it is rounded. It is rounded down debt by debt, and where that loses a whole
cent the other strategy may lose it and the avalanche not.
-/

import Dohflow.ForecastEngine.PayoffExtra

namespace Dohflow.ForecastEngine

open CanonicalOrder Draining MachineIntegers

/-! ### Rounding -/

theorem sum_div_add_sum_mod (amounts : List Int) (divisor : Int) :
    divisor * (amounts.map (· / divisor)).sum + (amounts.map (· % divisor)).sum = amounts.sum := by
  induction amounts with
  | nil => simp
  | cons amount rest inductionHypothesis =>
    have own := Int.mul_ediv_add_emod amount divisor
    simp only [List.map_cons, List.sum_cons, Int.mul_add]
    omega

/-- What falls due on each debt in a month before it is rounded, in parts of a cent. -/
def unrounded (debts : List PayoffDebt) (balances : List Int) : List Int :=
  debts.zipWith (fun debt balance => balance * debt.aprBps) balances

/-- Rounded down debt by debt, a month's interest loses less than a cent. -/
def RoundsTogether (debts : List PayoffDebt) (balances : List Int) : Prop :=
  ((unrounded debts balances).map (· % (10000 * 12))).sum < 10000 * 12

instance (debts : List PayoffDebt) (balances : List Int) :
    Decidable (RoundsTogether debts balances) := inferInstanceAs (Decidable (_ < _))

section Rounding

variable {debts : List PayoffDebt} {balances : List Int}

theorem interests_eq_unrounded (terms : ∀ debt ∈ debts, debt.Payable) (owed : NonNegative balances)
    (fits : MonthFits debts balances) :
    interests debts balances = (unrounded debts balances).map (· / (10000 * 12)) := by
  rw [interests_eq terms owed fits]
  unfold unrounded
  rw [List.map_zipWith]
  rfl

theorem sum_div_le_of_sum_le {amounts others : List Int} (less : amounts.sum ≤ others.sum)
    (together : (others.map (· % (10000 * 12))).sum < 10000 * 12) :
    (amounts.map (· / (10000 * 12))).sum ≤ (others.map (· / (10000 * 12))).sum := by
  have own := sum_div_add_sum_mod amounts (10000 * 12)
  have other := sum_div_add_sum_mod others (10000 * 12)
  have lost : 0 ≤ (amounts.map (· % (10000 * 12))).sum := by
    refine List.sum_nonneg fun amount member => ?_
    obtain ⟨whole, -, rfl⟩ := List.mem_map.mp member
    exact Int.emod_nonneg _ (by decide)
  omega

end Rounding

/-! ### The order of the rates -/

/-- The rate of a debt. -/
def rateOf (debts : List PayoffDebt) (debt : Nat) : Int := (debts.getD debt default).aprBps

/-- The debts, the dearest first. -/
def rateOrder (debts : List PayoffDebt) : List Nat :=
  targetOrder debts .avalanche (startingBalances debts)

section Rates

variable {debts : List PayoffDebt} {balances : List Int}

theorem targetOrder_eq_rateOrder (same : balances.length = debts.length) :
    targetOrder debts .avalanche balances = rateOrder debts :=
  targetOrder_avalanche (same.trans (balances_startingBalances debts).each.symm)

theorem rateOrder_perm (same : balances.length = debts.length) :
    (rateOrder debts).Perm (List.range balances.length) := by
  rw [← targetOrder_eq_rateOrder same]
  exact targetOrder_perm

theorem mem_rateOrder {debt : Nat} : debt ∈ rateOrder debts ↔ debt < debts.length := by
  unfold rateOrder
  rw [mem_targetOrder, (balances_startingBalances debts).each]

theorem rateOrder_falls : (rateOrder debts).Pairwise
    fun first second => rateOf debts second ≤ rateOf debts first := by
  refine targetOrder_ranked.imp fun {first second} ordered => ?_
  have opposite : -rateOf debts first ≤ -rateOf debts second :=
    (Prod.Lex.toLex_lt_toLex.mp ordered).elim le_of_lt fun same => same.1.le
  omega

theorem rateOf_nonneg (terms : ∀ debt ∈ debts, debt.Payable) {debt : Nat}
    (listed : debt ∈ rateOrder debts) : 0 ≤ rateOf debts debt := by
  have inside := mem_rateOrder.mp listed
  unfold rateOf
  rw [List.getD_eq_getElem _ _ inside]
  exact (terms _ (List.getElem_mem inside)).apr

theorem sum_unrounded (same : balances.length = debts.length) :
    ((rateOrder debts).map fun debt => owedOn balances debt * rateOf debts debt).sum =
      (unrounded debts balances).sum := by
  have length : (unrounded debts balances).length = debts.length := by
    unfold unrounded
    rw [List.length_zipWith, same, min_self]
  rw [← sum_map_owedOn (rateOrder_perm length)]
  refine congrArg List.sum (List.map_congr_left fun debt listed => ?_)
  have inside := mem_rateOrder.mp listed
  rw [owedOn_eq (inside.trans_eq same.symm), owedOn_eq (inside.trans_eq length.symm)]
  unfold unrounded rateOf
  rw [List.getElem_zipWith, List.getD_eq_getElem _ _ inside]

end Rates

/-! ### The payments that stand -/

/-- The fixed payments of the debts on which something is owed. -/
def standingPayments (debts : List PayoffDebt) (balances : List Int) : Int :=
  (debts.zipWith (fun debt balance => if 0 < balance then debt.fixedPaymentCents else 0) balances).sum

section Standing

variable {debts : List PayoffDebt} {balances : List Int}

theorem standingPayments_mono (fixed : ∀ debt ∈ debts, debt.Fixed) {others : List Int}
    (owed : List.Forall₂ (fun balance other => 0 < balance → 0 < other) balances others) :
    standingPayments debts balances ≤ standingPayments debts others := by
  refine List.Forall₂.sum_le_sum (forall₂_zipWith owed fun debt listed balance other pair => ?_)
  have payment := (fixed debt listed).payment
  split_ifs <;> omega

theorem forall₂_self (owed : NonNegative balances) :
    List.Forall₂ (fun balance other => balance = other ∧ 0 ≤ balance) balances balances :=
  List.forall₂_same.mpr fun balance member => ⟨rfl, owed balance member⟩

theorem sum_minimums_le (fixed : ∀ debt ∈ debts, debt.Fixed) (owed : NonNegative balances) :
    (minimums debts balances).sum ≤ standingPayments debts balances := by
  refine List.Forall₂.sum_le_sum (forall₂_zipWith (forall₂_self owed) ?_)
  rintro debt listed balance _ ⟨rfl, positive⟩
  have payment := (fixed debt listed).payment
  rw [requiredMinimum_fixed payment positive]
  split_ifs <;> omega

theorem standingPayments_afterMinimums_le (fixed : ∀ debt ∈ debts, debt.Fixed)
    (owed : NonNegative balances) :
    standingPayments debts (afterMinimums debts balances) ≤ (minimums debts balances).sum := by
  unfold standingPayments afterMinimums
  rw [zipWith_zipWith_same]
  refine List.Forall₂.sum_le_sum (forall₂_zipWith (forall₂_self owed) ?_)
  rintro debt listed balance _ ⟨rfl, positive⟩
  have payment := (fixed debt listed).payment
  rw [requiredMinimum_fixed payment positive]
  split_ifs <;> omega

end Standing

/-! ### The avalanche beside another strategy -/

/-- The avalanche is ahead of another run: its balances are front loaded along the rates, it owes no
more in all, and as long as the two differ the budget covers every payment that stands. -/
structure Ahead (debts : List PayoffDebt) (budget : Int) (paid other : List Int) : Prop where
  paidEach : Balances debts paid
  otherEach : Balances debts other
  loaded : FrontLoaded (owedOn paid) (owedOn other) (rateOrder debts)
  sums : paid.sum ≤ other.sum
  standing : paid = other ∨
    standingPayments debts paid ≤ budget ∧ standingPayments debts other ≤ budget

section Ahead

variable {debts : List PayoffDebt} {strategy : PayoffStrategy} {budget : Int}
  {paid other : List Int}

theorem Ahead.refl (opening : Balances debts paid) : Ahead debts budget paid paid :=
  ⟨opening, opening, FrontLoaded.of_le fun _ _ => le_rfl, le_rfl, .inl rfl⟩

theorem Ahead.interests_le (ahead : Ahead debts budget paid other)
    (terms : ∀ debt ∈ debts, debt.Payable) (paidFits : MonthFits debts paid)
    (otherFits : MonthFits debts other) (together : RoundsTogether debts other) :
    (interests debts paid).sum ≤ (interests debts other).sum := by
  rw [interests_eq_unrounded terms ahead.paidEach.owed paidFits,
    interests_eq_unrounded terms ahead.otherEach.owed otherFits]
  refine sum_div_le_of_sum_le ?_ together
  rw [← sum_unrounded ahead.paidEach.each, ← sum_unrounded ahead.otherEach.each]
  refine ahead.loaded.interest_le rateOrder_falls (fun debt => rateOf_nonneg terms)
    (fun debt _ => owedOn_nonneg ahead.otherEach.owed debt) ?_
  rw [sum_map_owedOn (rateOrder_perm ahead.paidEach.each),
    sum_map_owedOn (rateOrder_perm ahead.otherEach.each)]
  exact ahead.sums

theorem owedOn_zipWith {amount : PayoffDebt → Int → Int} (same : paid.length = debts.length)
    {debt : Nat} (inside : debt < debts.length) :
    owedOn (debts.zipWith amount paid) debt = amount debts[debt] (owedOn paid debt) := by
  have within : debt < (debts.zipWith amount paid).length := by
    rw [List.length_zipWith, same, min_self]
    exact inside
  rw [owedOn_eq within, owedOn_eq (inside.trans_eq same.symm), List.getElem_zipWith]

theorem Ahead.loaded_afterMinimums (ahead : Ahead debts budget paid other)
    (fixed : ∀ debt ∈ debts, debt.Fixed) :
    FrontLoaded (owedOn (afterMinimums debts (owedAfter debts paid)))
      (owedOn (afterMinimums debts (owedAfter debts other))) (rateOrder debts) := by
  have left {balances : List Int} (opening : Balances debts balances) {debt : Nat}
      (inside : debt < debts.length) : owedOn (afterMinimums debts (owedAfter debts balances)) debt =
      max (owedOn balances debt + exactInterest debts[debt] (owedOn balances debt) -
        debts[debt].fixedPaymentCents) 0 := by
    have fixedDebt := fixed _ (List.getElem_mem inside)
    have owed := owedOn_nonneg opening.owed debt
    have positive := exactInterest_nonneg fixedDebt.apr owed
    unfold afterMinimums
    rw [owedOn_zipWith (length_owedAfter opening.each) inside]
    unfold owedAfter
    rw [owedOn_zipWith opening.each inside, requiredMinimum_fixed fixedDebt.payment (by omega)]
    omega
  refine ahead.loaded.imp (fun debt listed nothing => ?_) fun debt listed more => ?_
  · have inside := mem_rateOrder.mp listed
    have payment := (fixed _ (List.getElem_mem inside)).payment
    have noInterest : exactInterest debts[debt] 0 = 0 := by
      unfold exactInterest
      rw [Int.zero_mul]
      rfl
    rw [left ahead.paidEach inside, nothing, noInterest]
    omega
  · have inside := mem_rateOrder.mp listed
    have interest := exactInterest_mono (fixed _ (List.getElem_mem inside)).apr more
    rw [left ahead.paidEach inside, left ahead.otherEach inside]
    omega

theorem Ahead.loaded_afterMonth (ahead : Ahead debts budget paid other)
    (fixed : ∀ debt ∈ debts, debt.Fixed) (paidFits : MonthFits debts paid)
    (otherFits : MonthFits debts other) :
    FrontLoaded (owedOn (afterMonth debts .avalanche budget paid))
      (owedOn (afterMonth debts strategy budget other)) (rateOrder debts) := by
  have terms : ∀ debt ∈ debts, debt.Payable := fun debt listed => (fixed debt listed).payable
  have paidAccrued := ahead.paidEach.accrue terms paidFits
  have otherAccrued := ahead.otherEach.accrue terms otherFits
  have loaded := ahead.loaded_afterMinimums fixed
  rw [← accrue_eq terms ahead.paidEach.owed paidFits,
    ← accrue_eq terms ahead.otherEach.owed otherFits] at loaded
  have drained := @allocate_drains debts .avalanche budget _ paidAccrued.each (by decide) terms
    paidAccrued.owed
  rw [targetOrder_eq_rateOrder (length_afterMinimums paidAccrued.each)] at drained
  have front := loaded.drain
    (fun debt _ => owedOn_nonneg (afterMinimums_nonneg terms paidAccrued.owed) debt)
    surplusOf_nonneg drained
  refine front.imp (fun _ _ nothing => nothing) fun debt _ more => ?_
  exact (allocate_bounds otherAccrued.each terms otherAccrued.owed debt).2.trans more

theorem standingPayments_owedAfter_le (fixed : ∀ debt ∈ debts, debt.Fixed)
    (owed : NonNegative paid) :
    standingPayments debts (owedAfter debts paid) ≤ standingPayments debts paid := by
  unfold standingPayments owedAfter
  rw [zipWith_zipWith_same]
  refine List.Forall₂.sum_le_sum (forall₂_zipWith (forall₂_self owed) ?_)
  rintro debt listed balance _ ⟨rfl, positive⟩
  have payment := (fixed debt listed).payment
  rcases positive.lt_or_eq with owes | nothing
  · rw [if_pos owes]
    split_ifs <;> omega
  · have noInterest : exactInterest debt 0 = 0 := by
      unfold exactInterest
      rw [Int.zero_mul]
      rfl
    rw [← nothing, noInterest]
    exact le_rfl

theorem standingPayments_afterMonth_le (fixed : ∀ debt ∈ debts, debt.Fixed)
    (opening : Balances debts paid) (fits : MonthFits debts paid) :
    standingPayments debts (afterMonth debts strategy budget paid) ≤
      (minimums debts (accrue debts paid)).sum := by
  have terms : ∀ debt ∈ debts, debt.Payable := fun debt listed => (fixed debt listed).payable
  have accrued := opening.accrue terms fits
  refine (standingPayments_mono fixed ?_).trans (standingPayments_afterMinimums_le fixed accrued.owed)
  have closing := (@length_allocate debts strategy budget _ accrued.each).1
  refine (forall₂_iff_owedOn (closing.trans (length_afterMinimums accrued.each).symm)).mpr
    fun debt _ owes => ?_
  exact owes.trans_le (allocate_bounds accrued.each terms accrued.owed debt).2

theorem Ahead.same_or_covered (ahead : Ahead debts budget paid other)
    (fixed : ∀ debt ∈ debts, debt.Fixed) (paidFits : MonthFits debts paid)
    (otherFits : MonthFits debts other) : paid = other ∨
      (minimums debts (accrue debts paid)).sum ≤ budget ∧
        (minimums debts (accrue debts other)).sum ≤ budget := by
  have terms : ∀ debt ∈ debts, debt.Payable := fun debt listed => (fixed debt listed).payable
  have covered {balances : List Int} (opening : Balances debts balances)
      (fits : MonthFits debts balances) (standing : standingPayments debts balances ≤ budget) :
      (minimums debts (accrue debts balances)).sum ≤ budget := by
    rw [accrue_eq terms opening.owed fits]
    exact ((sum_minimums_le fixed (opening.owedAfter terms).owed).trans
      (standingPayments_owedAfter_le fixed opening.owed)).trans standing
  refine ahead.standing.imp_right fun both => ?_
  exact ⟨covered ahead.paidEach paidFits both.1, covered ahead.otherEach otherFits both.2⟩

theorem sum_afterMonth (rolls : strategy ≠ .minimumOnly) (opening : Balances debts paid)
    (terms : ∀ debt ∈ debts, debt.Payable) (fits : MonthFits debts paid) (positive : 0 ≤ budget)
    (inside : budget ≤ maxI64) :
    (afterMonth debts strategy budget paid).sum = (accrue debts paid).sum -
      min (accrue debts paid).sum (max budget (minimums debts (accrue debts paid)).sum) := by
  have law := @month_law debts strategy budget _ opening terms fits positive inside
  have accrued := sum_accrue opening terms fits
  have falls := law.falls
  rw [law.inAll rolls] at falls
  omega

theorem afterMonth_of_no_surplus (rolls : strategy ≠ .minimumOnly) (opening : Balances debts paid)
    (terms : ∀ debt ∈ debts, debt.Payable) (fits : MonthFits debts paid)
    (short : budget ≤ (minimums debts (accrue debts paid)).sum) :
    afterMonth debts strategy budget paid = afterMinimums debts (accrue debts paid) := by
  have least := minimums_nonneg terms (opening.accrue terms fits).owed
  have summed : sumOf (minimums debts (accrue debts paid)) =
      (minimums debts (accrue debts paid)).sum := by
    unfold sumOf
    rw [foldl_saturatingAdd le_rfl (by decide) least, Int.zero_add]
    refine min_eq_left ?_
    rw [accrue_eq terms opening.owed fits]
    exact fits.minimums
  have none : surplusOf debts budget (accrue debts paid) = 0 := by
    unfold surplusOf saturatingSub clampI64 minI64
    rw [summed]
    omega
  unfold afterMonth
  rw [allocate_of_rolls rolls, none, cascade_of_no_surplus]

/-- A month later the avalanche is still ahead. -/
theorem Ahead.step (ahead : Ahead debts budget paid other) (fixed : ∀ debt ∈ debts, debt.Fixed)
    (rolls : strategy ≠ .minimumOnly) (positive : 0 ≤ budget) (inside : budget ≤ maxI64)
    (paidFits : MonthFits debts paid) (otherFits : MonthFits debts other)
    (together : RoundsTogether debts other) :
    Ahead debts budget (afterMonth debts .avalanche budget paid)
      (afterMonth debts strategy budget other) := by
  have terms : ∀ debt ∈ debts, debt.Payable := fun debt listed => (fixed debt listed).payable
  have paidSum := sum_afterMonth (by decide : PayoffStrategy.avalanche ≠ .minimumOnly)
    ahead.paidEach terms paidFits positive inside
  have otherSum := sum_afterMonth rolls ahead.otherEach terms otherFits positive inside
  have paidStands := @standingPayments_afterMonth_le debts .avalanche budget _ fixed ahead.paidEach
    paidFits
  have otherStands := @standingPayments_afterMonth_le debts strategy budget _ fixed ahead.otherEach
    otherFits
  refine ⟨ahead.paidEach.afterMonth terms paidFits, ahead.otherEach.afterMonth terms otherFits,
    ahead.loaded_afterMonth fixed paidFits otherFits, ?_, ?_⟩
  · have interest := ahead.interests_le terms paidFits otherFits together
    have paidAccrued := sum_accrue ahead.paidEach terms paidFits
    have otherAccrued := sum_accrue ahead.otherEach terms otherFits
    have sums := ahead.sums
    rcases ahead.same_or_covered fixed paidFits otherFits with rfl | covered
    · exact (paidSum.trans otherSum.symm).le
    · omega
  · rcases ahead.same_or_covered fixed paidFits otherFits with rfl | covered
    · rcases le_total (minimums debts (accrue debts paid)).sum budget with covered | short
      · exact .inr ⟨paidStands.trans covered, otherStands.trans covered⟩
      · refine .inl ?_
        rw [afterMonth_of_no_surplus (by decide) ahead.paidEach terms paidFits short,
          afterMonth_of_no_surplus rolls ahead.paidEach terms paidFits short]
    · exact .inr ⟨paidStands.trans covered.1, otherStands.trans covered.2⟩

end Ahead

/-! ### Two runs -/

/-- A condition on what is owed at the start of every month of a run. -/
def EveryMonth (holds : List Int → Prop) (debts : List PayoffDebt) (strategy : PayoffStrategy)
    (budget : Int) : Nat → List Int → Prop
  | 0, _ => True
  | cap + 1, balances => (∃ balance ∈ balances, 0 < balance) → holds balances ∧
      EveryMonth holds debts strategy budget cap (afterMonth debts strategy budget balances)

instance decidableEveryMonth (holds : List Int → Prop) [DecidablePred holds]
    (debts : List PayoffDebt) (strategy : PayoffStrategy) (budget : Int) :
    (cap : Nat) → (balances : List Int) →
      Decidable (EveryMonth holds debts strategy budget cap balances)
  | 0, _ => inferInstanceAs (Decidable True)
  | cap + 1, balances =>
    have := decidableEveryMonth holds debts strategy budget cap
      (afterMonth debts strategy budget balances)
    inferInstanceAs (Decidable (_ → _ ∧ _))

section Runs

variable {debts : List PayoffDebt} {strategy : PayoffStrategy} {budget : Int}
  {paid other : List Int} {cap : Nat} {paidInterest otherInterest : Int}

theorem Ahead.totalInterest_le (ahead : Ahead debts budget paid other)
    (fixed : ∀ debt ∈ debts, debt.Fixed) (rolls : strategy ≠ .minimumOnly) (positive : 0 ≤ budget)
    (inside : budget ≤ maxI64) (paidFits : PayoffFits debts .avalanche budget cap paid)
    (otherFits : PayoffFits debts strategy budget cap other)
    (together : EveryMonth (RoundsTogether debts) debts strategy budget cap other)
    (due : 0 ≤ paidInterest) (interests : paidInterest ≤ otherInterest)
    (held : otherInterest ≤ maxI64) :
    (runMonths debts .avalanche budget cap paid paidInterest).totalInterest ≤
      (runMonths debts strategy budget cap other otherInterest).totalInterest := by
  have terms : ∀ debt ∈ debts, debt.Payable := fun debt listed => (fixed debt listed).payable
  induction cap generalizing paid other paidInterest otherInterest with
  | zero => exact interests
  | succ cap inductionHypothesis =>
    by_cases paidOwes : ∃ balance ∈ paid, 0 < balance
    · have owes : ∃ balance ∈ other, 0 < balance := by
        by_contra nothing
        have none := (sum_eq_zero_iff ahead.otherEach.owed).mpr nothing
        have some := mt (sum_eq_zero_iff ahead.paidEach.owed).mp (not_not.mpr paidOwes)
        have least := List.sum_nonneg ahead.paidEach.owed
        have sums := ahead.sums
        omega
      obtain ⟨paidMonth, paidRest⟩ := paidFits.2 paidOwes
      obtain ⟨otherMonth, otherRest⟩ := otherFits.2 owes
      obtain ⟨monthTogether, restTogether⟩ := together owes
      have paidDue := interests_nonneg ahead.paidEach terms paidMonth
      have otherDue := interests_nonneg ahead.otherEach terms otherMonth
      have month := ahead.interests_le terms paidMonth otherMonth monthTogether
      have paidAdded := foldl_saturatingAdd due (interests.trans held) paidDue
      have otherAdded := foldl_saturatingAdd (due.trans interests) held otherDue
      have least := List.sum_nonneg paidDue
      rw [runMonths_of_owed paidOwes, runMonths_of_owed owes]
      refine inductionHypothesis
        (ahead.step fixed rolls positive inside paidMonth otherMonth monthTogether) paidRest otherRest
        restTogether ?_ ?_ ?_
      · rw [paidAdded]
        exact le_min (Int.add_nonneg due least) (by decide)
      · rw [paidAdded, otherAdded]
        exact min_le_min (Int.add_le_add interests month) le_rfl
      · rw [otherAdded]
        exact min_le_right _ _
    · rw [runMonths_of_nothing paidOwes]
      exact interests.trans (le_totalInterest ahead.otherEach terms otherFits held)

theorem constantBudget_inside (terms : ∀ debt ∈ debts, debt.Payable) (extra : Int) :
    0 ≤ constantBudget debts extra ∧ constantBudget debts extra ≤ maxI64 := by
  have least := minimums_nonneg terms (balances_startingBalances debts).owed
  have sum := (le_foldl_saturatingAdd least (by decide : (0 : Int) ≤ maxI64)).1
  have first : 0 ≤ sumOf (minimums debts (startingBalances debts)) := sum
  unfold constantBudget saturatingAdd clampI64 minI64 maxI64
  omega

/-- The avalanche pays no more interest than the snowball, for fixed payments, if no sum leaves the
range and in every month of the snowball rounding the interest down debt by debt loses less than a
cent. -/
theorem avalanche_pays_no_more_interest (debts : List PayoffDebt) (extra : Int)
    (fixed : ∀ debt ∈ debts, debt.Fixed)
    (avalancheFits : PayoffFits debts .avalanche (constantBudget debts extra) horizonCapMonths
      (startingBalances debts))
    (snowballFits : PayoffFits debts .snowball (constantBudget debts extra) horizonCapMonths
      (startingBalances debts))
    (together : EveryMonth (RoundsTogether debts) debts .snowball (constantBudget debts extra)
      horizonCapMonths (startingBalances debts)) :
    (simulatePayoff debts .avalanche extra).totalInterestCents ≤
      (simulatePayoff debts .snowball extra).totalInterestCents := by
  have terms : ∀ debt ∈ debts, debt.Payable := fun debt listed => (fixed debt listed).payable
  obtain ⟨positive, inside⟩ := constantBudget_inside terms extra
  exact (Ahead.refl (balances_startingBalances debts)).totalInterest_le fixed (by decide) positive
    inside avalancheFits snowballFits together le_rfl le_rfl (by decide)

end Runs

/-- A dear loan and a smaller cheap one, which the snowball pays first. -/
def dearAndCheap : List PayoffDebt := [⟨30000, 2400, 0, 0, 5000⟩, ⟨20040, 600, 0, 0, 4000⟩]

theorem avalanche_pays_no_more_interest_on_dear_and_cheap :
    (simulatePayoff dearAndCheap .avalanche 3000).totalInterestCents ≤
      (simulatePayoff dearAndCheap .snowball 3000).totalInterestCents := by
  refine avalanche_pays_no_more_interest _ _ (fun debt member => ?_) (by decide +kernel)
    (by decide +kernel) (by decide +kernel)
  rcases List.mem_pair.mp member with rfl | rfl <;> constructor <;> decide

/-- Rounding can turn the comparison: the snowball loses a cent to it that the avalanche pays. -/
theorem avalanche_can_pay_more_interest :
    ¬ ∀ (debts : List PayoffDebt) (extra : Int), (∀ debt ∈ debts, debt.Fixed) →
      (simulatePayoff debts .avalanche extra).debtFreeMonth.isSome →
      (simulatePayoff debts .snowball extra).debtFreeMonth.isSome →
      (simulatePayoff debts .avalanche extra).totalInterestCents ≤
        (simulatePayoff debts .snowball extra).totalInterestCents := by
  intro claimed
  have pair := claimed [⟨800, 628, 200, 2500, 65⟩, ⟨756, 555, 200, 2500, 27⟩] 21
    (fun debt member => by
      rcases List.mem_pair.mp member with rfl | rfl <;> constructor <;> decide)
    (by decide +kernel) (by decide +kernel)
  have dearer : ¬ (simulatePayoff [⟨800, 628, 200, 2500, 65⟩, ⟨756, 555, 200, 2500, 27⟩] .avalanche
      21).totalInterestCents ≤ (simulatePayoff [⟨800, 628, 200, 2500, 65⟩,
        ⟨756, 555, 200, 2500, 27⟩] .snowball 21).totalInterestCents := by
    decide +kernel
  exact dearer pair

end Dohflow.ForecastEngine
