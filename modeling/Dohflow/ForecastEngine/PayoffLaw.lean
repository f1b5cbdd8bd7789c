/-
This file proves the law of a debt payoff.

In a month every debt is paid at least its minimum, what a strategy rolls over goes
along its order of the debts, and in all just the committed budget is paid, or the
minimums where they are more, or everything that is owed. A run is one such month
after another, until nothing is owed.
-/

import Dohflow.ForecastEngine.PayoffMonths

namespace Dohflow.ForecastEngine

open CanonicalOrder Draining MachineIntegers

/-! ### What is owed, debt by debt -/

section Owed

variable {balances others : List Int}

theorem owedOn_eq {debt : Nat} (inside : debt < balances.length) :
    owedOn balances debt = balances[debt] := List.getD_eq_getElem _ _ inside

theorem owedOn_mem {debt : Nat} (inside : debt < balances.length) : owedOn balances debt ∈ balances := by
  rw [owedOn_eq inside]
  exact List.getElem_mem inside

theorem owedOn_outside {debt : Nat} (outside : balances.length ≤ debt) : owedOn balances debt = 0 :=
  List.getD_eq_default _ _ outside

theorem owedOn_nonneg (owed : NonNegative balances) (debt : Nat) : 0 ≤ owedOn balances debt := by
  by_cases inside : debt < balances.length
  · exact owed _ (owedOn_mem inside)
  · exact (owedOn_outside (not_lt.mp inside)).ge

theorem forall₂_iff_owedOn {related : Int → Int → Prop} (same : balances.length = others.length) :
    List.Forall₂ related balances others ↔
      ∀ debt < balances.length, related (owedOn balances debt) (owedOn others debt) := by
  rw [List.forall₂_iff_get]
  refine ⟨fun both debt inside => ?_, fun each => ⟨same, fun debt inside within => ?_⟩⟩
  · rw [owedOn_eq inside, owedOn_eq (same ▸ inside)]
    exact both.2 debt inside (same ▸ inside)
  · have own := each debt inside
    rwa [owedOn_eq inside, owedOn_eq within] at own

theorem ext_owedOn (same : balances.length = others.length)
    (each : ∀ debt < balances.length, owedOn balances debt = owedOn others debt) :
    balances = others :=
  List.forall₂_eq_eq_eq ▸ (forall₂_iff_owedOn same).mpr each

theorem nonNegative_iff_owedOn :
    NonNegative balances ↔ ∀ debt < balances.length, 0 ≤ owedOn balances debt := by
  refine ⟨fun owed debt _ => owedOn_nonneg owed debt, fun each balance member => ?_⟩
  obtain ⟨debt, inside, rfl⟩ := List.getElem_of_mem member
  rw [← owedOn_eq inside]
  exact each debt inside

theorem owedOn_zipWith_sub (same : balances.length = others.length) {debt : Nat}
    (inside : debt < balances.length) :
    owedOn (balances.zipWith (· - ·) others) debt = owedOn balances debt - owedOn others debt := by
  have within : debt < (balances.zipWith (· - ·) others).length := by
    rw [List.length_zipWith, ← same, min_self]
    exact inside
  rw [owedOn_eq within, owedOn_eq inside, owedOn_eq (same ▸ inside), List.getElem_zipWith]

theorem sum_map_owedOn {order : List Nat} (listed : order.Perm (List.range balances.length)) :
    (order.map (owedOn balances)).sum = balances.sum := by
  have inOrder : (List.range balances.length).map (owedOn balances) = balances := by
    refine List.ext_getElem (by rw [List.length_map, List.length_range]) fun debt _ inside => ?_
    rw [List.getElem_map, List.getElem_range, owedOn_eq inside]
  rw [(listed.map _).sum_eq, inOrder]

theorem sum_zipWith_sub (same : balances.length = others.length) :
    (balances.zipWith (· - ·) others).sum = balances.sum - others.sum := by
  induction balances generalizing others with
  | nil =>
    obtain rfl := List.length_eq_zero_iff.mp same.symm
    rfl
  | cons balance rest inductionHypothesis =>
    cases others with
    | nil => exact nomatch same
    | cons other later =>
      have below := inductionHypothesis (Nat.succ.inj same)
      simp only [List.zipWith_cons_cons, List.sum_cons]
      omega

end Owed

/-! ### What a month pays -/

section Allocation

variable {debts : List PayoffDebt} {strategy : PayoffStrategy} {budget : Int} {balances : List Int}

/-- What the budget leaves above the minimums. -/
def surplusOf (debts : List PayoffDebt) (budget : Int) (balances : List Int) : Int :=
  max (saturatingSub budget (sumOf (minimums debts balances))) 0

theorem surplusOf_nonneg : 0 ≤ surplusOf debts budget balances := le_max_right _ _

theorem allocate_minimumOnly : allocate debts .minimumOnly budget balances =
    ⟨afterMinimums debts balances, minimums debts balances⟩ := by
  unfold allocate
  rw [← afterMinimums_eq]
  exact if_pos rfl

theorem allocate_of_rolls (rolls : strategy ≠ .minimumOnly) :
    allocate debts strategy budget balances = cascade debts strategy balances.length
      ⟨afterMinimums debts balances, minimums debts balances⟩ (surplusOf debts budget balances) := by
  rw [← afterMinimums_eq]
  exact if_neg rolls

theorem targetOrder_perm :
    (targetOrder debts strategy balances).Perm (List.range balances.length) := sortBy_perm _

theorem targets_targetOrder (owed : NonNegative balances) :
    Targets debts strategy balances (targetOrder debts strategy balances) where
  ranked := targetOrder_ranked
  inside _ member := mem_targetOrder.mp member
  owed debt _ := owedOn_nonneg owed debt
  others _ inside behind := absurd (mem_targetOrder.mpr inside) behind

variable (same : balances.length = debts.length)

include same

theorem length_allocate : (allocate debts strategy budget balances).balances.length = debts.length ∧
    (allocate debts strategy budget balances).paid.length = debts.length := by
  by_cases rolls : strategy = .minimumOnly
  · rw [rolls, allocate_minimumOnly]
    exact ⟨length_afterMinimums same, length_minimums same⟩
  · rw [allocate_of_rolls rolls, length_cascade, length_paid_cascade]
    exact ⟨length_afterMinimums same, length_minimums same⟩

theorem owedOn_afterMinimums (debt : Nat) : owedOn (afterMinimums debts balances) debt +
    owedOn (minimums debts balances) debt = owedOn balances debt := by
  by_cases inside : debt < balances.length
  · rw [← afterMinimums_eq, owedOn_zipWith_sub (same.trans (length_minimums same).symm) inside]
    exact Int.sub_add_cancel _ _
  · have outside := not_lt.mp inside
    rw [owedOn_outside outside, owedOn_outside ((length_afterMinimums same).trans_le
      (same ▸ outside)), owedOn_outside ((length_minimums same).trans_le (same ▸ outside))]
    rfl

theorem allocate_ledger : (allocate debts strategy budget balances).balances =
    balances.zipWith (· - ·) (allocate debts strategy budget balances).paid := by
  obtain ⟨closing, paid⟩ := @length_allocate debts strategy budget balances same
  by_cases rolls : strategy = .minimumOnly
  · rw [rolls, allocate_minimumOnly]
    exact afterMinimums_eq.symm
  · refine ext_owedOn ?_ fun debt inside => ?_
    · rw [List.length_zipWith, closing, paid, same, min_self]
    · rw [owedOn_zipWith_sub (same.trans paid.symm) (by omega), allocate_of_rolls rolls]
      have ledger := @cascade_ledger debts strategy balances.length
        ⟨afterMinimums debts balances, minimums debts balances⟩ (surplusOf debts budget balances)
        ((length_minimums same).trans (length_afterMinimums same).symm) debt
      exact eq_sub_of_add_eq (ledger.trans (owedOn_afterMinimums same debt))

theorem allocate_drains (rolls : strategy ≠ .minimumOnly)
    (terms : ∀ debt ∈ debts, debt.Payable) (owed : NonNegative balances) :
    (targetOrder debts strategy (afterMinimums debts balances)).map
        (owedOn (allocate debts strategy budget balances).balances) =
      drain (surplusOf debts budget balances)
        ((targetOrder debts strategy (afterMinimums debts balances)).map
          (owedOn (afterMinimums debts balances))) := by
  rw [allocate_of_rolls rolls]
  refine (cascade_drains rolls (targets_targetOrder (afterMinimums_nonneg terms owed))
    surplusOf_nonneg ?_).1
  rw [length_targetOrder, length_afterMinimums same, same]

theorem allocate_bounds (terms : ∀ debt ∈ debts, debt.Payable) (owed : NonNegative balances)
    (debt : Nat) : 0 ≤ owedOn (allocate debts strategy budget balances).balances debt ∧
      owedOn (allocate debts strategy budget balances).balances debt ≤
        owedOn (afterMinimums debts balances) debt := by
  have left := afterMinimums_nonneg terms owed
  obtain ⟨closing, -⟩ := @length_allocate debts strategy budget balances same
  by_cases rolls : strategy = .minimumOnly
  · rw [rolls, allocate_minimumOnly]
    exact ⟨owedOn_nonneg left debt, le_rfl⟩
  · by_cases inside : debt < (afterMinimums debts balances).length
    · have listed : ∀ amount ∈ (targetOrder debts strategy (afterMinimums debts balances)).map
          (owedOn (afterMinimums debts balances)), 0 ≤ amount :=
        (targets_targetOrder left).nonneg
      have bounds := drain_bounds (@surplusOf_nonneg debts budget balances) listed
      rw [← allocate_drains same rolls terms owed, List.forall₂_map_left_iff,
        List.forall₂_map_right_iff, List.forall₂_same] at bounds
      exact bounds debt (mem_targetOrder.mpr inside)
    · have outside := not_lt.mp inside
      rw [owedOn_outside outside, owedOn_outside]
      · exact ⟨le_rfl, le_rfl⟩
      · rwa [closing, ← length_afterMinimums same]

theorem allocate_nonneg (terms : ∀ debt ∈ debts, debt.Payable) (owed : NonNegative balances) :
    NonNegative (allocate debts strategy budget balances).balances :=
  nonNegative_iff_owedOn.mpr fun debt _ => (allocate_bounds same terms owed debt).1

theorem sum_allocate (rolls : strategy ≠ .minimumOnly)
    (terms : ∀ debt ∈ debts, debt.Payable) (owed : NonNegative balances) :
    (allocate debts strategy budget balances).balances.sum = (afterMinimums debts balances).sum -
      min (afterMinimums debts balances).sum (surplusOf debts budget balances) := by
  obtain ⟨closing, -⟩ := @length_allocate debts strategy budget balances same
  have listed := @targetOrder_perm debts strategy (afterMinimums debts balances)
  have alike := listed
  rw [length_afterMinimums same, ← closing] at alike
  rw [← sum_map_owedOn alike, allocate_drains same rolls terms owed,
    sum_drain surplusOf_nonneg (targets_targetOrder (afterMinimums_nonneg terms owed)).nonneg,
    sum_map_owedOn listed]

theorem minimums_le_paid (terms : ∀ debt ∈ debts, debt.Payable) (owed : NonNegative balances) :
    List.Forall₂ (· ≤ ·) (minimums debts balances) (allocate debts strategy budget balances).paid := by
  obtain ⟨-, paid⟩ := @length_allocate debts strategy budget balances same
  refine (forall₂_iff_owedOn ((length_minimums same).trans paid.symm)).mpr fun debt inside => ?_
  have within : debt < balances.length := by
    rwa [same, ← length_minimums same]
  have start := owedOn_afterMinimums same debt
  have bounds := @allocate_bounds debts strategy budget balances same terms owed debt
  rw [allocate_ledger same, owedOn_zipWith_sub (same.trans paid.symm) within] at bounds
  omega

theorem sum_paid (rolls : strategy ≠ .minimumOnly) (terms : ∀ debt ∈ debts, debt.Payable)
    (owed : NonNegative balances) (fits : (minimums debts balances).sum ≤ maxI64)
    (positive : 0 ≤ budget) (inside : budget ≤ maxI64) :
    (allocate debts strategy budget balances).paid.sum =
      min balances.sum (max budget (minimums debts balances).sum) := by
  obtain ⟨-, paid⟩ := @length_allocate debts strategy budget balances same
  have least := List.sum_nonneg (minimums_nonneg terms owed)
  have rest := List.sum_nonneg (afterMinimums_nonneg terms owed)
  have summed : sumOf (minimums debts balances) = (minimums debts balances).sum := by
    unfold sumOf
    rw [foldl_saturatingAdd le_rfl (by decide) (minimums_nonneg terms owed), Int.zero_add,
      min_eq_left fits]
  have surplus : surplusOf debts budget balances = max (budget - (minimums debts balances).sum) 0 := by
    unfold surplusOf saturatingSub
    rw [summed, clampI64_eq ⟨by unfold minI64; unfold maxI64 at fits; omega, by omega⟩]
  have closing := @sum_allocate debts strategy budget balances same rolls terms owed
  rw [allocate_ledger same, sum_zipWith_sub (same.trans paid.symm), surplus,
    sum_afterMinimums same] at closing
  rw [sum_afterMinimums same] at rest
  omega

end Allocation

/-! ### The law of a month -/

/-- What is owed after a month. -/
def afterMonth (debts : List PayoffDebt) (strategy : PayoffStrategy) (budget : Int)
    (balances : List Int) : List Int :=
  (allocate debts strategy budget (accrue debts balances)).balances

/-- The law of one month, under a strategy with so much committed. -/
structure MonthLaw (debts : List PayoffDebt) (strategy : PayoffStrategy) (committed : Int)
    (opening closing payments : List Int) : Prop where
  each : payments.length = debts.length
  ledger : closing = (accrue debts opening).zipWith (· - ·) payments
  falls : closing.sum = opening.sum - (payments.sum - (interests debts opening).sum)
  onlyMinimums : strategy = .minimumOnly → payments = minimums debts (accrue debts opening)
  atLeast : strategy ≠ .minimumOnly →
    List.Forall₂ (· ≤ ·) (minimums debts (accrue debts opening)) payments
  inAll : strategy ≠ .minimumOnly → payments.sum =
    min (accrue debts opening).sum (max committed (minimums debts (accrue debts opening)).sum)

/-- A list of what is owed on each of the debts. -/
structure Balances (debts : List PayoffDebt) (balances : List Int) : Prop where
  each : balances.length = debts.length
  owed : NonNegative balances

section Month

variable {debts : List PayoffDebt} {strategy : PayoffStrategy} {budget : Int} {balances : List Int}

theorem Balances.owedAfter (opening : Balances debts balances)
    (terms : ∀ debt ∈ debts, debt.Payable) : Balances debts (owedAfter debts balances) :=
  ⟨length_owedAfter opening.each, owedAfter_nonneg terms opening.owed⟩

theorem Balances.accrue (opening : Balances debts balances)
    (terms : ∀ debt ∈ debts, debt.Payable) (fits : MonthFits debts balances) :
    Balances debts (accrue debts balances) := by
  rw [accrue_eq terms opening.owed fits]
  exact opening.owedAfter terms

theorem Balances.afterMonth (opening : Balances debts balances)
    (terms : ∀ debt ∈ debts, debt.Payable) (fits : MonthFits debts balances) :
    Balances debts (afterMonth debts strategy budget balances) := by
  have accrued := opening.accrue terms fits
  exact ⟨(length_allocate accrued.each).1, allocate_nonneg accrued.each terms accrued.owed⟩

theorem sum_accrue (opening : Balances debts balances) (terms : ∀ debt ∈ debts, debt.Payable)
    (fits : MonthFits debts balances) :
    (accrue debts balances).sum = balances.sum + (interests debts balances).sum := by
  rw [accrue_eq terms opening.owed fits, interests_eq terms opening.owed fits]
  have same := opening.each
  clear fits opening terms
  unfold owedAfter
  induction debts generalizing balances with
  | nil =>
    obtain rfl := List.length_eq_zero_iff.mp same
    rfl
  | cons debt rest inductionHypothesis =>
    cases balances with
    | nil => exact nomatch same
    | cons balance others =>
      have later := @inductionHypothesis others (Nat.succ.inj same)
      simp only [List.zipWith_cons_cons, List.sum_cons]
      omega

theorem month_law (opening : Balances debts balances) (terms : ∀ debt ∈ debts, debt.Payable)
    (fits : MonthFits debts balances) (positive : 0 ≤ budget) (inside : budget ≤ maxI64) :
    MonthLaw debts strategy budget balances (afterMonth debts strategy budget balances)
      (allocate debts strategy budget (accrue debts balances)).paid := by
  have accrued := opening.accrue terms fits
  have paid := (@length_allocate debts strategy budget _ accrued.each).2
  have ledger := @allocate_ledger debts strategy budget _ accrued.each
  refine ⟨paid, ledger, ?_, fun minimumOnly => ?_, fun _ => ?_, fun rolls => ?_⟩
  · unfold afterMonth
    rw [ledger, sum_zipWith_sub (accrued.each.trans paid.symm), sum_accrue opening terms fits]
    omega
  · rw [minimumOnly, allocate_minimumOnly]
  · exact minimums_le_paid accrued.each terms accrued.owed
  · refine sum_paid accrued.each rolls terms accrued.owed ?_ positive inside
    rw [accrue_eq terms opening.owed fits]
    exact fits.minimums

end Month

/-! ### The months of a run -/

/-- No sum of a run leaves 64 bits, neither in a month nor what is owed between two. -/
def PayoffFits (debts : List PayoffDebt) (strategy : PayoffStrategy) (budget : Int) :
    Nat → List Int → Prop
  | 0, balances => balances.sum ≤ maxI64
  | cap + 1, balances => balances.sum ≤ maxI64 ∧
      ((∃ balance ∈ balances, 0 < balance) → MonthFits debts balances ∧
        PayoffFits debts strategy budget cap (afterMonth debts strategy budget balances))

instance decidablePayoffFits (debts : List PayoffDebt) (strategy : PayoffStrategy) (budget : Int) :
    (cap : Nat) → (balances : List Int) → Decidable (PayoffFits debts strategy budget cap balances)
  | 0, _ => inferInstanceAs (Decidable (_ ≤ _))
  | cap + 1, balances =>
    have := decidablePayoffFits debts strategy budget cap (afterMonth debts strategy budget balances)
    inferInstanceAs (Decidable (_ ∧ (_ → _ ∧ _)))

section Run

variable {debts : List PayoffDebt} {strategy : PayoffStrategy} {budget : Int} {balances : List Int}
  {cap : Nat} {interest : Int}

theorem runMonths_of_owed (owes : ∃ balance ∈ balances, 0 < balance) :
    runMonths debts strategy budget (cap + 1) balances interest =
      let later := runMonths debts strategy budget cap (afterMonth debts strategy budget balances)
        ((interests debts balances).foldl saturatingAdd interest)
      ⟨later.months + 1, later.balances, later.totalInterest,
        afterMonth debts strategy budget balances :: later.rows⟩ := by
  rw [runMonths, if_pos (List.any_eq_true.mpr (by simpa using owes))]
  rfl

theorem runMonths_of_nothing (nothing : ¬ ∃ balance ∈ balances, 0 < balance) :
    runMonths debts strategy budget cap balances interest = ⟨0, balances, interest, []⟩ := by
  cases cap with
  | zero => rfl
  | succ cap => rw [runMonths, if_neg fun some => nothing (by simpa using List.any_eq_true.mp some)]

theorem months_eq : (runMonths debts strategy budget cap balances interest).months =
      (runMonths debts strategy budget cap balances interest).rows.length ∧
    (runMonths debts strategy budget cap balances interest).months ≤ cap := by
  induction cap generalizing balances interest with
  | zero => exact ⟨rfl, le_rfl⟩
  | succ cap inductionHypothesis =>
    by_cases owes : ∃ balance ∈ balances, 0 < balance
    · obtain ⟨same, within⟩ := @inductionHypothesis (afterMonth debts strategy budget balances)
        ((interests debts balances).foldl saturatingAdd interest)
      rw [runMonths_of_owed owes]
      exact ⟨congrArg Nat.succ same, Nat.succ_le_succ within⟩
    · rw [runMonths_of_nothing owes]
      exact ⟨rfl, Nat.zero_le _⟩

theorem runMonths_ends :
    (balances :: (runMonths debts strategy budget cap balances interest).rows)[
        (runMonths debts strategy budget cap balances interest).months]? =
      some (runMonths debts strategy budget cap balances interest).balances ∧
    ∀ month < (runMonths debts strategy budget cap balances interest).months,
      ∃ row, (balances :: (runMonths debts strategy budget cap balances interest).rows)[month]? =
        some row ∧ ∃ balance ∈ row, 0 < balance := by
  induction cap generalizing balances interest with
  | zero => exact ⟨rfl, fun month early => absurd early (Nat.not_lt_zero month)⟩
  | succ cap inductionHypothesis =>
    by_cases owes : ∃ balance ∈ balances, 0 < balance
    · obtain ⟨last, before⟩ := @inductionHypothesis (afterMonth debts strategy budget balances)
        ((interests debts balances).foldl saturatingAdd interest)
      rw [runMonths_of_owed owes]
      refine ⟨last, fun month early => ?_⟩
      cases month with
      | zero => exact ⟨balances, rfl, owes⟩
      | succ month => exact before month (Nat.lt_of_succ_lt_succ early)
    · rw [runMonths_of_nothing owes]
      exact ⟨rfl, fun month early => absurd early (Nat.not_lt_zero month)⟩

theorem runMonths_rows (opening : Balances debts balances)
    (terms : ∀ debt ∈ debts, debt.Payable)
    (fits : PayoffFits debts strategy budget cap balances) :
    ∀ row ∈ balances :: (runMonths debts strategy budget cap balances interest).rows,
      Balances debts row ∧ row.sum ≤ maxI64 := by
  induction cap generalizing balances interest with
  | zero =>
    intro row member
    obtain rfl := List.mem_singleton.mp member
    exact ⟨opening, fits⟩
  | succ cap inductionHypothesis =>
    obtain ⟨inside, later⟩ := fits
    by_cases owes : ∃ balance ∈ balances, 0 < balance
    · obtain ⟨month, rest⟩ := later owes
      rw [runMonths_of_owed owes]
      intro row member
      rcases List.mem_cons.mp member with rfl | after
      · exact ⟨opening, inside⟩
      · exact inductionHypothesis (opening.afterMonth terms month) rest row after
    · rw [runMonths_of_nothing owes]
      intro row member
      obtain rfl := List.mem_singleton.mp member
      exact ⟨opening, inside⟩

theorem runMonths_law (opening : Balances debts balances)
    (terms : ∀ debt ∈ debts, debt.Payable)
    (fits : PayoffFits debts strategy budget cap balances) (positive : 0 ≤ budget)
    (inside : budget ≤ maxI64) :
    (balances :: (runMonths debts strategy budget cap balances interest).rows).IsChain
      fun opening closing => ∃ payments, MonthLaw debts strategy budget opening closing payments := by
  induction cap generalizing balances interest with
  | zero => exact .singleton _
  | succ cap inductionHypothesis =>
    by_cases owes : ∃ balance ∈ balances, 0 < balance
    · obtain ⟨month, rest⟩ := fits.2 owes
      rw [runMonths_of_owed owes]
      exact List.isChain_cons_cons.mpr ⟨⟨_, month_law opening terms month positive inside⟩,
        inductionHypothesis (opening.afterMonth terms month) rest⟩
    · rw [runMonths_of_nothing owes]
      exact .singleton _

end Run

/-! ### The law of a projection -/

/-- The law of a projection, under a strategy with so much committed. -/
structure PayoffLaw (debts : List PayoffDebt) (strategy : PayoffStrategy) (committed : Int)
    (result : PayoffResult) : Prop where
  starts : result.monthlyOwedByDebt.head? = some (startingBalances debts)
  rows : ∀ row ∈ result.monthlyOwedByDebt, Balances debts row
  totals : result.monthlyTotalOwed = result.monthlyOwedByDebt.map List.sum
  alike : result.monthlyTotalOwed.length = result.monthlyOwedByDebt.length
  horizon : result.monthlyTotalOwed.length ≤ 601
  months : result.monthlyOwedByDebt.IsChain fun opening closing =>
    ∃ payments, MonthLaw debts strategy committed opening closing payments
  debtFree : ∀ month, result.debtFreeMonth = some month ↔
    result.monthlyTotalOwed[month]? = some 0 ∧
      ∀ earlier < month, result.monthlyTotalOwed[earlier]? ≠ some 0

/-- The first minimums, in integers. -/
def firstMinimums (debts : List PayoffDebt) : Int := (minimums debts (startingBalances debts)).sum

section Projection

variable {debts : List PayoffDebt} {strategy : PayoffStrategy} {balances : List Int} {extra : Int}

theorem balances_startingBalances (debts : List PayoffDebt) :
    Balances debts (startingBalances debts) := by
  refine ⟨List.length_map _, fun balance member => ?_⟩
  obtain ⟨debt, -, rfl⟩ := List.mem_map.mp member
  exact le_max_right _ _

theorem constantBudget_eq (terms : ∀ debt ∈ debts, debt.Payable)
    (fits : firstMinimums debts + max extra 0 ≤ maxI64) :
    constantBudget debts extra = firstMinimums debts + max extra 0 := by
  have least := minimums_nonneg terms (balances_startingBalances debts).owed
  have positive : 0 ≤ firstMinimums debts := List.sum_nonneg least
  have summed : sumOf (minimums debts (startingBalances debts)) = firstMinimums debts := by
    unfold sumOf
    rw [foldl_saturatingAdd le_rfl (by decide) least, Int.zero_add]
    exact min_eq_left (by unfold firstMinimums at fits; omega)
  unfold constantBudget
  rw [summed]
  exact saturatingAdd_eq (by omega) fits

theorem map_max_eq (owed : NonNegative balances) :
    (balances.map fun balance => max balance 0) = balances := by
  refine (List.map_congr_left fun balance member => ?_).trans (List.map_id balances)
  exact max_eq_left (owed balance member)

theorem totalOwed_eq (owed : NonNegative balances) (fits : balances.sum ≤ maxI64) :
    totalOwed balances = balances.sum := by
  have folded : totalOwed balances =
      (balances.map fun balance => max balance 0).foldl saturatingAdd 0 := List.foldl_map.symm
  rw [folded, map_max_eq owed, foldl_saturatingAdd le_rfl (by decide) owed, Int.zero_add,
    min_eq_left fits]

theorem sum_eq_zero_iff (owed : NonNegative balances) :
    balances.sum = 0 ↔ ¬ ∃ balance ∈ balances, 0 < balance := by
  constructor
  · rintro cleared ⟨balance, member, owes⟩
    have bounded := List.single_le_sum owed balance member
    omega
  · intro nothing
    refine List.sum_eq_zero fun balance member => ?_
    by_contra some
    exact nothing ⟨balance, member, lt_of_le_of_ne (owed balance member) (Ne.symm some)⟩

theorem firstCleared_iff {rows : List (List Int)} {final : List Int} {last : Nat}
    (owed : ∀ row ∈ rows, NonNegative row) (length : rows.length = last + 1)
    (ends : rows[last]? = some final)
    (before : ∀ month < last, ∃ row, rows[month]? = some row ∧ ∃ balance ∈ row, 0 < balance)
    (month : Nat) :
    (if final.all fun balance => balance ≤ 0 then some last else none) = some month ↔
      (rows.map List.sum)[month]? = some 0 ∧
        ∀ earlier < month, (rows.map List.sum)[earlier]? ≠ some 0 := by
  have cleared : (final.all fun balance => balance ≤ 0) = true ↔ final.sum = 0 := by
    rw [sum_eq_zero_iff (owed final (List.mem_of_getElem? ends)), List.all_eq_true]
    simp only [decide_eq_true_eq, not_exists, not_and, not_lt]
  have early (earlier : Nat) (first : earlier < last) :
      (rows.map List.sum)[earlier]? ≠ some 0 := by
    obtain ⟨row, found, owes⟩ := before earlier first
    rw [List.getElem?_map, found, Option.map_some]
    intro none
    exact (sum_eq_zero_iff (owed row (List.mem_of_getElem? found))).mp (Option.some.inj none) owes
  have final_eq : (rows.map List.sum)[last]? = some final.sum := by
    rw [List.getElem?_map, ends, Option.map_some]
  constructor
  · intro found
    split_ifs at found with nothing
    obtain rfl := Option.some.inj found
    exact ⟨final_eq.trans (congrArg some (cleared.mp nothing)), early⟩
  · rintro ⟨found, first⟩
    have inside : month < last + 1 := by
      obtain ⟨inside, -⟩ := List.getElem?_eq_some_iff.mp found
      rwa [List.length_map, length] at inside
    have same : month = last := by
      by_contra other
      exact early month (by omega) found
    subst same
    rw [final_eq] at found
    rw [if_pos (cleared.mpr (Option.some.inj found))]

/-- A projection conserves money and pays just the committed budget, a negative extra counting as
none: what is owed on a debt never falls below zero, in every month the total falls by the payments
less the interest, minimums alone are paid under the strategy of minimums only, and under the others
at least the minimums and in all the budget, the minimums where they are more, or everything that is
owed; and the debt-free month is the first with nothing owed. -/
theorem payoff_conserves_and_pays_the_budget (debts : List PayoffDebt) (strategy : PayoffStrategy)
    (extra : Int) (terms : ∀ debt ∈ debts, debt.NonNegative)
    (committed : firstMinimums debts + max extra 0 ≤ maxI64)
    (fits : PayoffFits debts strategy (constantBudget debts extra) horizonCapMonths
      (startingBalances debts)) :
    (simulatePayoff debts strategy extra).monthlyOwedByDebt = startingBalances debts ::
      (runMonths debts strategy (constantBudget debts extra) horizonCapMonths
        (startingBalances debts) 0).rows ∧
    PayoffLaw debts strategy (firstMinimums debts + max extra 0)
      (simulatePayoff debts strategy extra) := by
  have payable : ∀ debt ∈ debts, debt.Payable := fun debt listed => (terms debt listed).payable
  have start := balances_startingBalances debts
  have budget := constantBudget_eq payable committed
  have positive : 0 ≤ firstMinimums debts := List.sum_nonneg (minimums_nonneg payable start.owed)
  have rows := @runMonths_rows debts strategy _ _ _ 0 start payable fits
  have months := @runMonths_law debts strategy _ _ _ 0 start payable fits (by rw [budget]; omega)
    (by rw [budget]; exact committed)
  have ends := @runMonths_ends debts strategy (constantBudget debts extra) (startingBalances debts)
    horizonCapMonths 0
  have counted := @months_eq debts strategy (constantBudget debts extra) (startingBalances debts)
    horizonCapMonths 0
  rw [← budget]
  unfold simulatePayoff
  dsimp only
  generalize runMonths debts strategy (constantBudget debts extra) horizonCapMonths
    (startingBalances debts) 0 = run at rows months ends counted ⊢
  have unclamped : ((startingBalances debts :: run.rows).map
      fun row => row.map fun balance => max balance 0) = startingBalances debts :: run.rows :=
    (List.map_congr_left fun row member => map_max_eq (rows row member).1.owed).trans
      (List.map_id _)
  have totals : (startingBalances debts :: run.rows).map totalOwed =
      (startingBalances debts :: run.rows).map List.sum :=
    List.map_congr_left fun row member => totalOwed_eq (rows row member).1.owed (rows row member).2
  rw [unclamped, totals]
  refine ⟨rfl, rfl, fun row member => (rows row member).1, rfl, List.length_map _, ?_, months,
    fun month => ?_⟩
  · rw [List.length_map, List.length_cons, ← counted.1]
    exact Nat.succ_le_succ counted.2
  · exact firstCleared_iff (fun row member => (rows row member).1.owed)
      (congrArg Nat.succ counted.1.symm) ends.1 ends.2 month

end Projection

/-- A loan, and a card that goes by a percentage. -/
def loanAndCard : List PayoffDebt := [⟨50000, 600, 0, 0, 9000⟩, ⟨30000, 2400, 300, 2500, 0⟩]

theorem payoff_conserves_and_pays_the_budget_of_a_loan_and_a_card :
    (simulatePayoff loanAndCard .avalanche 5000).monthlyOwedByDebt = startingBalances loanAndCard ::
      (runMonths loanAndCard .avalanche (constantBudget loanAndCard 5000) horizonCapMonths
        (startingBalances loanAndCard) 0).rows ∧
    PayoffLaw loanAndCard .avalanche (firstMinimums loanAndCard + max 5000 0)
      (simulatePayoff loanAndCard .avalanche 5000) := by
  refine payoff_conserves_and_pays_the_budget _ _ _ (fun debt member => ?_) (by decide)
    (by decide +kernel)
  rcases List.mem_pair.mp member with rfl | rfl <;> constructor <;> decide

/-- A negative extra is not taken off the budget: of two debts without interest, five and ten fall
due a month, and once the first is cleared fifteen go to the second. -/
theorem negative_extra_is_not_taken_off :
    ¬ ∀ (debts : List PayoffDebt) (strategy : PayoffStrategy) (extra : Int),
      (∀ debt ∈ debts, debt.NonNegative) → firstMinimums debts + extra ≤ maxI64 →
      PayoffFits debts strategy (constantBudget debts extra) horizonCapMonths
        (startingBalances debts) →
      PayoffLaw debts strategy (firstMinimums debts + extra)
        (simulatePayoff debts strategy extra) := by
  intro claimed
  have law := claimed [⟨5, 0, 0, 0, 5⟩, ⟨100, 0, 0, 0, 10⟩] .snowball (-5)
    (fun debt member => by
      rcases List.mem_pair.mp member with rfl | rfl <;> constructor <;> decide)
    (by decide) (by decide +kernel)
  have rows : (simulatePayoff [⟨5, 0, 0, 0, 5⟩, ⟨100, 0, 0, 0, 10⟩] .snowball (-5)).monthlyOwedByDebt =
      [[5, 100], [0, 90], [0, 75], [0, 60], [0, 45], [0, 30], [0, 15], [0, 0]] := by
    decide +kernel
  have months := law.months
  rw [rows] at months
  obtain ⟨-, later⟩ := List.isChain_cons_cons.mp months
  obtain ⟨⟨payments, month⟩, -⟩ := List.isChain_cons_cons.mp later
  have falls : (75 : Int) = 90 - (payments.sum - 0) := month.falls
  have paid : payments.sum = 10 := month.inAll (by decide)
  omega

end Dohflow.ForecastEngine
