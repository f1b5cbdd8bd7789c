/-
This file says what one month of a debt payoff does.

Where what is owed after interest is in range, interest and sums are those of the
integers. The surplus goes along one order of the debts: the target is always the
first of it on which something is owed, so the cascade is a draining in that order.
What a debt is paid and what is left of it are what was owed on it.
-/

import Dohflow.ForecastEngine.Payoff
import Dohflow.Foundation.CanonicalOrder
import Dohflow.Foundation.Draining
import Dohflow.Foundation.Fallible
import Mathlib.Data.List.Forall2
import Mathlib.Data.List.GetD
import Mathlib.Data.List.Nodup

namespace Dohflow.ForecastEngine

open CanonicalOrder Draining MachineIntegers

/-! ### Interest in range -/

/-- The terms of a debt are not negative. -/
structure PayoffDebt.NonNegative (debt : PayoffDebt) : Prop where
  balance : 0 ≤ debt.balanceCents
  apr : 0 ≤ debt.aprBps
  minPercent : 0 ≤ debt.minPercentBps
  minFloor : 0 ≤ debt.minFloorCents
  fixedPayment : 0 ≤ debt.fixedPaymentCents

/-- A debt that grows with its rate, and whose minimum is a part of what is owed. -/
structure PayoffDebt.Payable (debt : PayoffDebt) : Prop where
  apr : 0 ≤ debt.aprBps
  minimum : ∀ balance, 0 ≤ balance →
    0 ≤ requiredMinimum debt balance ∧ requiredMinimum debt balance ≤ balance

/-- A month's interest, in integers. -/
def exactInterest (debt : PayoffDebt) (balance : Int) : Int := balance * debt.aprBps / (10000 * 12)

/-- What is owed once interest has accrued, in integers. -/
def owedAfter (debts : List PayoffDebt) (balances : List Int) : List Int :=
  debts.zipWith (fun debt balance => balance + exactInterest debt balance) balances

/-- No sum of a month leaves 64 bits: not what is owed on a debt once interest has accrued, and not
the minimums. -/
structure MonthFits (debts : List PayoffDebt) (balances : List Int) : Prop where
  owed : ∀ amount ∈ owedAfter debts balances, amount ≤ maxI64
  minimums : (minimums debts (owedAfter debts balances)).sum ≤ maxI64

instance (debts : List PayoffDebt) (balances : List Int) : Decidable (MonthFits debts balances) :=
  decidable_of_iff ((∀ amount ∈ owedAfter debts balances, amount ≤ maxI64) ∧
      (minimums debts (owedAfter debts balances)).sum ≤ maxI64)
    ⟨fun both => ⟨both.1, both.2⟩, fun fits => ⟨fits.owed, fits.minimums⟩⟩

/-- No balance is negative. -/
def NonNegative (balances : List Int) : Prop := ∀ balance ∈ balances, 0 ≤ balance

section Month

variable {debts : List PayoffDebt} {balances : List Int}

theorem exactInterest_nonneg {debt : PayoffDebt} {balance : Int} (apr : 0 ≤ debt.aprBps)
    (owed : 0 ≤ balance) : 0 ≤ exactInterest debt balance :=
  Int.ediv_nonneg (Int.mul_nonneg owed apr) (by decide)

theorem monthlyInterest_eq {debt : PayoffDebt} {balance : Int} (apr : 0 ≤ debt.aprBps)
    (owed : 0 ≤ balance) (fits : balance + exactInterest debt balance ≤ maxI64) :
    monthlyInterest balance debt.aprBps = exactInterest debt balance := by
  have positive := exactInterest_nonneg apr owed
  unfold monthlyInterest
  split_ifs with nothing
  · have none : balance = 0 ∨ debt.aprBps = 0 := by omega
    unfold exactInterest
    rcases none with none | none
    · rw [none, Int.zero_mul]
      rfl
    · rw [none, Int.mul_zero]
      rfl
  · rw [Int.tdiv_eq_ediv_of_nonneg (Int.mul_nonneg owed apr)]
    exact asI64_eq ⟨le_trans (by decide) positive, by unfold exactInterest at fits; omega⟩

/-! ### Debt by debt -/

section PerDebt

variable {Value : Type} {first second : PayoffDebt → Int → Value}

theorem forall_mem_zipWith {holds : Value → Prop}
    (each : ∀ debt ∈ debts, ∀ balance ∈ balances, holds (first debt balance)) :
    ∀ value ∈ debts.zipWith first balances, holds value := by
  rw [← List.map_uncurry_zip_eq_zipWith]
  intro value member
  obtain ⟨⟨debt, balance⟩, paired, rfl⟩ := List.mem_map.mp member
  obtain ⟨debtListed, balanceListed⟩ := List.of_mem_zip paired
  exact each debt debtListed balance balanceListed

theorem zipWith_congr
    (same : ∀ pair ∈ debts.zip balances, first pair.1 pair.2 = second pair.1 pair.2) :
    debts.zipWith first balances = debts.zipWith second balances := by
  rw [← List.map_uncurry_zip_eq_zipWith, ← List.map_uncurry_zip_eq_zipWith]
  exact List.map_congr_left same

theorem mem_zipWith_of_mem_zip {pair : PayoffDebt × Int} (paired : pair ∈ debts.zip balances) :
    first pair.1 pair.2 ∈ debts.zipWith first balances := by
  rw [← List.map_uncurry_zip_eq_zipWith]
  exact List.mem_map.mpr ⟨pair, paired, rfl⟩

theorem zipWith_zipWith {Other : Type} (combine : Int → Value → Other) :
    balances.zipWith combine (debts.zipWith first balances) =
      debts.zipWith (fun debt balance => combine balance (first debt balance)) balances := by
  induction debts generalizing balances with
  | nil => cases balances <;> rfl
  | cons debt rest inductionHypothesis =>
    cases balances with
    | nil => rfl
    | cons balance others => exact congrArg _ inductionHypothesis

theorem zipWith_zipWith_same {made : PayoffDebt → Int → Int} :
    debts.zipWith first (debts.zipWith made balances) =
      debts.zipWith (fun debt balance => first debt (made debt balance)) balances := by
  induction debts generalizing balances with
  | nil => rfl
  | cons debt rest inductionHypothesis =>
    cases balances with
    | nil => rfl
    | cons balance others => exact congrArg _ inductionHypothesis

theorem forall₂_zipWith {Other : Type} {third : PayoffDebt → Int → Other}
    {related : Int → Int → Prop} {follows : Value → Other → Prop} {others : List Int}
    (pairs : List.Forall₂ related balances others)
    (each : ∀ debt ∈ debts, ∀ balance other, related balance other →
      follows (first debt balance) (third debt other)) :
    List.Forall₂ follows (debts.zipWith first balances) (debts.zipWith third others) := by
  induction debts generalizing balances others with
  | nil => exact .nil
  | cons debt rest inductionHypothesis =>
    cases pairs with
    | nil => exact .nil
    | cons pair pairs =>
      exact .cons (each debt List.mem_cons_self _ _ pair) (inductionHypothesis pairs
        fun debt listed => each debt (List.mem_cons_of_mem _ listed))

end PerDebt

theorem owedAfter_nonneg (terms : ∀ debt ∈ debts, debt.Payable) (owed : NonNegative balances) :
    NonNegative (owedAfter debts balances) :=
  forall_mem_zipWith fun debt listed balance owes =>
    Int.add_nonneg (owed balance owes) (exactInterest_nonneg (terms debt listed).apr (owed balance owes))

theorem length_owedAfter (same : balances.length = debts.length) :
    (owedAfter debts balances).length = debts.length := by
  unfold owedAfter
  rw [List.length_zipWith, same, min_self]

theorem interests_eq (terms : ∀ debt ∈ debts, debt.Payable) (owed : NonNegative balances)
    (fits : MonthFits debts balances) :
    interests debts balances = debts.zipWith exactInterest balances := by
  refine zipWith_congr fun pair paired => ?_
  obtain ⟨listed, owes⟩ := List.of_mem_zip paired
  exact monthlyInterest_eq (terms _ listed).apr (owed _ owes)
    (fits.owed _ (mem_zipWith_of_mem_zip paired))

theorem accrue_eq (terms : ∀ debt ∈ debts, debt.Payable) (owed : NonNegative balances)
    (fits : MonthFits debts balances) : accrue debts balances = owedAfter debts balances := by
  unfold accrue
  rw [interests_eq terms owed fits, zipWith_zipWith]
  refine zipWith_congr fun pair paired => ?_
  obtain ⟨listed, owes⟩ := List.of_mem_zip paired
  exact saturatingAdd_eq
    (Int.add_nonneg (owed _ owes) (exactInterest_nonneg (terms _ listed).apr (owed _ owes)))
    (fits.owed _ (mem_zipWith_of_mem_zip paired))

/-! ### Minimums -/

theorem PayoffDebt.NonNegative.payable {debt : PayoffDebt} (terms : debt.NonNegative) :
    debt.Payable := by
  refine ⟨terms.apr, fun balance owed => ?_⟩
  have rule := @minimumDue_bounds balance debt.minPercentBps debt.minFloorCents terms.minFloor owed
  have fixedPayment := terms.fixedPayment
  unfold requiredMinimum
  by_cases nothing : balance ≤ 0
  · rw [if_pos nothing]
    exact ⟨le_rfl, owed⟩
  · rw [if_neg nothing]
    have minimum : 0 ≤ (if 0 < debt.fixedPaymentCents then debt.fixedPaymentCents
        else minimumDue balance debt.minPercentBps debt.minFloorCents) := by
      split_ifs <;> omega
    generalize (if 0 < debt.fixedPaymentCents then debt.fixedPaymentCents
      else minimumDue balance debt.minPercentBps debt.minFloorCents) = amount at minimum ⊢
    dsimp only
    split_ifs <;> omega

theorem minimums_nonneg (terms : ∀ debt ∈ debts, debt.Payable) (owed : NonNegative balances) :
    NonNegative (minimums debts balances) :=
  forall_mem_zipWith fun debt listed balance owes =>
    ((terms debt listed).minimum balance (owed balance owes)).1

theorem length_minimums (same : balances.length = debts.length) :
    (minimums debts balances).length = debts.length := by
  unfold minimums
  rw [List.length_zipWith, same, min_self]

/-- What the minimums leave. -/
def afterMinimums (debts : List PayoffDebt) (balances : List Int) : List Int :=
  debts.zipWith (fun debt balance => balance - requiredMinimum debt balance) balances

theorem afterMinimums_eq : balances.zipWith (· - ·) (minimums debts balances) =
    afterMinimums debts balances := zipWith_zipWith _

theorem afterMinimums_nonneg (terms : ∀ debt ∈ debts, debt.Payable)
    (owed : NonNegative balances) : NonNegative (afterMinimums debts balances) :=
  forall_mem_zipWith fun debt listed balance owes =>
    Int.sub_nonneg_of_le ((terms debt listed).minimum balance (owed balance owes)).2

theorem length_afterMinimums (same : balances.length = debts.length) :
    (afterMinimums debts balances).length = debts.length := by
  unfold afterMinimums
  rw [List.length_zipWith, same, min_self]

theorem sum_afterMinimums (same : balances.length = debts.length) :
    (afterMinimums debts balances).sum = balances.sum - (minimums debts balances).sum := by
  unfold afterMinimums minimums
  induction debts generalizing balances with
  | nil =>
    obtain rfl := List.length_eq_zero_iff.mp same
    rfl
  | cons debt rest inductionHypothesis =>
    cases balances with
    | nil => exact nomatch same
    | cons balance others =>
      have later := @inductionHypothesis others (Nat.succ.inj same)
      simp only [List.zipWith_cons_cons, List.sum_cons]
      omega

end Month

/-! ### The order of the targets -/

section Order

variable {debts : List PayoffDebt} {strategy : PayoffStrategy} {balances : List Int}

theorem rank_injective (debts : List PayoffDebt) (strategy : PayoffStrategy) (balances : List Int) :
    Function.Injective (rank debts strategy balances) := by
  intro first second same
  unfold rank at same
  cases strategy <;> exact (Prod.mk.inj (toLex.injective same)).2

/-- The debts, the one that the strategy prefers first. -/
def targetOrder (debts : List PayoffDebt) (strategy : PayoffStrategy) (balances : List Int) :
    List Nat :=
  sortBy (rank debts strategy balances) (List.range balances.length)

theorem mem_targetOrder {debt : Nat} :
    debt ∈ targetOrder debts strategy balances ↔ debt < balances.length := by
  unfold targetOrder
  rw [mem_sortBy, List.mem_range]

theorem length_targetOrder : (targetOrder debts strategy balances).length = balances.length := by
  unfold targetOrder
  rw [length_sortBy, List.length_range]

theorem targetOrder_ranked : (targetOrder debts strategy balances).Pairwise
    fun first second => rank debts strategy balances first < rank debts strategy balances second := by
  have distinct : (targetOrder debts strategy balances).Nodup :=
    (sortBy_perm _).nodup_iff.mpr List.nodup_range
  refine ((sortBy_ascends _).and distinct).imp fun {first second} ordered => ?_
  exact lt_of_le_of_ne ordered.1 fun same => ordered.2 (rank_injective _ _ _ same)

theorem targetDebt_eq (rolls : strategy ≠ .minimumOnly) {target : Nat} {order : List Nat}
    (first : ∀ debt ∈ order, rank debts strategy balances target < rank debts strategy balances debt)
    (inside : target < balances.length) (owes : 0 < owedOn balances target)
    (others : ∀ debt < balances.length, debt ∉ target :: order → owedOn balances debt ≤ 0) :
    targetDebt balances debts strategy = some target := by
  have active (debt : Nat) : debt ∈ ((List.range balances.length).filter
      fun debt => 0 < owedOn balances debt) ↔ debt < balances.length ∧ 0 < owedOn balances debt := by
    rw [List.mem_filter, List.mem_range, decide_eq_true_eq]
  have found : ((List.range balances.length).filter fun debt => 0 < owedOn balances debt).argmin
      (rank debts strategy balances) = some target := by
    obtain ⟨best, chosen⟩ : ∃ best, ((List.range balances.length).filter
        fun debt => 0 < owedOn balances debt).argmin (rank debts strategy balances) = some best := by
      refine Option.ne_none_iff_exists'.mp fun none => ?_
      exact List.ne_nil_of_mem ((active target).mpr ⟨inside, owes⟩) (List.argmin_eq_none.mp none)
    rw [chosen]
    have listed := List.argmin_mem chosen
    have least := List.le_of_mem_argmin ((active target).mpr ⟨inside, owes⟩) chosen
    obtain ⟨bestInside, bestOwes⟩ := (active best).mp listed
    by_contra other
    have apart : best ≠ target := fun same => other (congrArg some same)
    have ordered : best ∈ order := by
      by_contra behind
      have nothing := others best bestInside fun member =>
        (List.mem_cons.mp member).elim apart behind
      exact absurd bestOwes (not_lt.mpr nothing)
    exact absurd least (not_le.mpr (first best ordered))
  unfold targetDebt
  cases strategy with
  | minimumOnly => exact absurd rfl rolls
  | snowball => exact found
  | avalanche => exact found

theorem targetDebt_eq_none (nothing : ∀ debt < balances.length, owedOn balances debt ≤ 0) :
    targetDebt balances debts strategy = none := by
  have active : (List.range balances.length).filter (fun debt => 0 < owedOn balances debt) = [] := by
    refine List.filter_eq_nil_iff.mpr fun debt member => ?_
    have inside := nothing debt (List.mem_range.mp member)
    simpa using inside
  unfold targetDebt
  cases strategy with
  | minimumOnly => rfl
  | snowball => simp only [active, List.argmin_nil]
  | avalanche => simp only [active, List.argmin_nil]

/-! ### The cascade -/

theorem owedOn_set_self {debt : Nat} (inside : debt < balances.length) (amount : Int) :
    owedOn (balances.set debt amount) debt = amount := by
  unfold owedOn
  rw [List.getD_eq_getElem?_getD, List.getElem?_set_self inside, Option.getD_some]

theorem owedOn_set_ne {debt other : Nat} (apart : debt ≠ other) (amount : Int) :
    owedOn (balances.set debt amount) other = owedOn balances other := by
  unfold owedOn
  rw [List.getD_eq_getElem?_getD, List.getD_eq_getElem?_getD, List.getElem?_set_ne apart]

theorem length_pay (payments : Payments) (debt : Nat) (amount : Int) :
    (payments.pay debt amount).balances.length = payments.balances.length := List.length_set

theorem cascade_of_no_surplus (rounds : Nat) (payments : Payments) :
    cascade debts strategy rounds payments 0 = payments := by
  cases rounds with
  | zero => rfl
  | succ rounds => rw [cascade, if_neg (lt_irrefl 0)]

/-- An order of targets: the strategy prefers the earlier ones, and nothing is owed elsewhere. -/
structure Targets (debts : List PayoffDebt) (strategy : PayoffStrategy) (balances : List Int)
    (order : List Nat) : Prop where
  ranked : order.Pairwise fun first second =>
    rank debts strategy balances first < rank debts strategy balances second
  inside : ∀ debt ∈ order, debt < balances.length
  owed : ∀ debt ∈ order, 0 ≤ owedOn balances debt
  others : ∀ debt < balances.length, debt ∉ order → owedOn balances debt ≤ 0

namespace Targets

variable {target : Nat} {order : List Nat}

theorem not_mem (targets : Targets debts strategy balances (target :: order)) : target ∉ order :=
  fun member => lt_irrefl _ ((List.pairwise_cons.mp targets.ranked).1 target member)

theorem nonneg (targets : Targets debts strategy balances order) :
    ∀ amount ∈ order.map (owedOn balances), 0 ≤ amount := by
  intro amount member
  obtain ⟨debt, listed, rfl⟩ := List.mem_map.mp member
  exact targets.owed debt listed

theorem map_owedOn_set (targets : Targets debts strategy balances (target :: order)) (amount : Int) :
    order.map (owedOn (balances.set target amount)) = order.map (owedOn balances) := by
  refine List.map_congr_left fun debt member => owedOn_set_ne (fun same => ?_) amount
  subst same
  exact targets.not_mem member

/-- Once the first target is cleared, the others are the targets. -/
theorem cleared (targets : Targets debts strategy balances (target :: order)) :
    Targets debts strategy (balances.set target 0) order := by
  obtain ⟨-, later⟩ := List.pairwise_cons.mp targets.ranked
  have unchanged (debt : Nat) (member : debt ∈ order) :
      owedOn (balances.set target 0) debt = owedOn balances debt :=
    List.map_inj_left.mp (targets.map_owedOn_set 0) debt member
  have ranks (debt : Nat) (member : debt ∈ order) :
      rank debts strategy (balances.set target 0) debt = rank debts strategy balances debt := by
    unfold rank
    rw [unchanged debt member]
  refine ⟨later.imp_of_mem fun firstIn secondIn ordered => ?_, fun debt member => ?_,
    fun debt member => ?_, fun debt inside behind => ?_⟩
  · rw [ranks _ firstIn, ranks _ secondIn]
    exact ordered
  · rw [List.length_set]
    exact targets.inside debt (List.mem_cons_of_mem _ member)
  · rw [unchanged debt member]
    exact targets.owed debt (List.mem_cons_of_mem _ member)
  · rw [List.length_set] at inside
    by_cases same : debt = target
    · subst same
      exact (owedOn_set_self inside 0).le
    · rw [owedOn_set_ne (Ne.symm same)]
      exact targets.others debt inside fun member => (List.mem_cons.mp member).elim same behind

end Targets

variable {payments : Payments} (rounds : Nat) {order : List Nat}

theorem cascade_succ (rolls : strategy ≠ .minimumOnly) {target : Nat}
    (targets : Targets debts strategy payments.balances (target :: order))
    (owes : 0 < owedOn payments.balances target) {surplus : Int} (positive : 0 < surplus)
    (rounds : Nat) :
    cascade debts strategy (rounds + 1) payments surplus =
      cascade debts strategy rounds
        (payments.pay target (min (owedOn payments.balances target) surplus))
        (surplus - min (owedOn payments.balances target) surplus) := by
  have amount : min (owedOn payments.balances target) surplus ≠ 0 := by omega
  rw [cascade, if_pos positive, targetDebt_eq rolls (List.pairwise_cons.mp targets.ranked).1
    (targets.inside target List.mem_cons_self) owes targets.others]
  simp only
  rw [if_neg amount]

theorem cascade_of_no_targets (targets : Targets debts strategy payments.balances []) (rounds : Nat)
    (surplus : Int) : cascade debts strategy rounds payments surplus = payments := by
  cases rounds with
  | zero => rfl
  | succ rounds =>
    rw [cascade, targetDebt_eq_none fun debt inside => targets.others debt inside List.not_mem_nil]
    split_ifs <;> rfl

theorem cascade_drains (rolls : strategy ≠ .minimumOnly) {surplus : Int} {rounds : Nat}
    (targets : Targets debts strategy payments.balances order) (positive : 0 ≤ surplus)
    (enough : order.length ≤ rounds) :
    (order.map (owedOn (cascade debts strategy rounds payments surplus).balances) =
      drain surplus (order.map (owedOn payments.balances))) ∧
    ∀ debt, debt ∉ order → owedOn (cascade debts strategy rounds payments surplus).balances debt =
      owedOn payments.balances debt := by
  induction order generalizing payments surplus rounds with
  | nil =>
    rw [cascade_of_no_targets targets]
    exact ⟨rfl, fun _ _ => rfl⟩
  | cons target order inductionHypothesis =>
    have inside := targets.inside target List.mem_cons_self
    have cleared := owedOn_set_self inside 0
    have unchanged := targets.map_owedOn_set
    rcases positive.lt_or_eq with some | none
    · rw [List.map_cons, List.map_cons, drain]
      rcases (targets.owed target List.mem_cons_self).lt_or_eq with owes | nothing
      · obtain ⟨left, rfl⟩ : ∃ left, rounds = left + 1 :=
          ⟨rounds - 1, by simp only [List.length_cons] at enough; omega⟩
        rw [cascade_succ rolls targets owes some]
        rcases le_total (owedOn payments.balances target) surplus with all | part
        · -- The target is cleared, and the rest goes along what follows it.
          have paid : (payments.pay target (owedOn payments.balances target)).balances =
              payments.balances.set target 0 := by
            unfold Payments.pay
            rw [Int.sub_self]
          obtain ⟨drained, kept⟩ := @inductionHypothesis
            (payments.pay target (owedOn payments.balances target))
            (surplus - owedOn payments.balances target) left (paid ▸ targets.cleared)
            (Int.sub_nonneg_of_le all) (by simp only [List.length_cons] at enough; omega)
          rw [paid] at drained kept
          rw [min_eq_left all]
          refine ⟨?_, fun debt behind => ?_⟩
          · rw [drained, kept target targets.not_mem, cleared, Int.sub_self, unchanged]
          · obtain ⟨same, behind⟩ := not_or.mp (mt List.mem_cons.mpr behind)
            rw [kept debt behind, owedOn_set_ne (Ne.symm same)]
        · rw [min_eq_right part, Int.sub_self, cascade_of_no_surplus]
          refine ⟨?_, fun debt behind => ?_⟩
          · have others : ∀ amount ∈ order.map (owedOn payments.balances), 0 ≤ amount :=
              fun amount member => targets.nonneg amount (List.mem_cons_of_mem _ member)
            rw [drain_zero others]
            exact congrArg₂ _ (owedOn_set_self inside _) (unchanged _)
          · exact owedOn_set_ne (Ne.symm (not_or.mp (mt List.mem_cons.mpr behind)).1) _
      · -- A cleared debt is passed over.
        have same : payments.balances.set target 0 = payments.balances := by
          refine List.ext_getElem (List.length_set) fun debt within _ => ?_
          rw [List.getElem_set]
          split_ifs with own
          · subst own
            rw [nothing]
            exact List.getD_eq_getElem _ _ inside
          · rfl
        obtain ⟨drained, kept⟩ := @inductionHypothesis payments surplus rounds
          (same ▸ targets.cleared) positive (by simp only [List.length_cons] at enough; omega)
        refine ⟨?_, fun debt behind => kept debt (not_or.mp (mt List.mem_cons.mpr behind)).2⟩
        rw [drained, kept target targets.not_mem, ← nothing, min_eq_left positive, Int.sub_zero,
          Int.sub_zero]
    · rw [← none, cascade_of_no_surplus, drain_zero targets.nonneg]
      exact ⟨rfl, fun _ _ => rfl⟩

theorem length_cascade (payments : Payments) (surplus : Int) :
    (cascade debts strategy rounds payments surplus).balances.length =
      payments.balances.length := by
  induction rounds generalizing payments surplus with
  | zero => rfl
  | succ rounds inductionHypothesis =>
    rw [cascade]
    split
    · split
      · rfl
      · dsimp only
        split_ifs
        · rfl
        · rw [inductionHypothesis, length_pay]
    · rfl

theorem cascade_ledger (payments : Payments) (surplus : Int)
    (same : payments.paid.length = payments.balances.length) (debt : Nat) :
    owedOn (cascade debts strategy rounds payments surplus).balances debt +
        owedOn (cascade debts strategy rounds payments surplus).paid debt =
      owedOn payments.balances debt + owedOn payments.paid debt := by
  induction rounds generalizing payments surplus with
  | zero => rfl
  | succ rounds inductionHypothesis =>
    rw [cascade]
    split
    · split
      · rfl
      · next target _ =>
        dsimp only
        split_ifs
        · rfl
        · rw [inductionHypothesis]
          · unfold Payments.pay
            dsimp only
            by_cases own : target = debt
            · subst own
              by_cases inside : target < payments.balances.length
              · rw [owedOn_set_self inside, owedOn_set_self (same ▸ inside)]
                omega
              · rw [List.set_eq_of_length_le (not_lt.mp inside),
                  List.set_eq_of_length_le (same ▸ not_lt.mp inside)]
            · rw [owedOn_set_ne own, owedOn_set_ne own]
          · unfold Payments.pay
            rw [List.length_set, List.length_set, same]
    · rfl

theorem length_paid_cascade (payments : Payments) (surplus : Int) :
    (cascade debts strategy rounds payments surplus).paid.length = payments.paid.length := by
  induction rounds generalizing payments surplus with
  | zero => rfl
  | succ rounds inductionHypothesis =>
    rw [cascade]
    split
    · split
      · rfl
      · dsimp only
        split_ifs
        · rfl
        · rw [inductionHypothesis]
          exact List.length_set
    · rfl

end Order

end Dohflow.ForecastEngine
