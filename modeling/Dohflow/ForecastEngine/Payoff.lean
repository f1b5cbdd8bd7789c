/-
This file models the projection of a debt payoff.

Month by month, interest accrues on every debt and its current minimum is paid. What is
left of the committed budget, the first minimums and the extra, then goes to one
target after another, as the strategy chooses them. The projection ends when nothing
is owed, or after as many months as it looks ahead.
-/

import Dohflow.ForecastEngine.Revolving
import Mathlib.Data.List.MinMax
import Mathlib.Data.Prod.Lex

namespace Dohflow.ForecastEngine

open MachineIntegers

/-! ### Debts and strategies -/

/-- How far to simulate before giving up. -/
def horizonCapMonths : Nat := 600

/-- A debt to pay down. -/
structure PayoffDebt where
  balanceCents : Int
  aprBps : Int
  minPercentBps : Int
  minFloorCents : Int
  /-- A loan's payment; `0` goes by the percentage and the floor. -/
  fixedPaymentCents : Int
  deriving DecidableEq, Inhabited

/-- The order in which the surplus is applied. -/
inductive PayoffStrategy
  | minimumOnly
  | snowball
  | avalanche
  deriving DecidableEq

/-- The projected outcome of a strategy; the rows start with what is owed at first. -/
structure PayoffResult where
  debtFreeMonth : Option Nat
  totalInterestCents : Int
  monthlyTotalOwed : List Int
  monthlyOwedByDebt : List (List Int)

/-- The minimum of a debt at a balance, never more than the balance. -/
def requiredMinimum (debt : PayoffDebt) (balance : Int) : Int :=
  if balance ≤ 0 then 0
  else
    let minimum :=
      if 0 < debt.fixedPaymentCents then debt.fixedPaymentCents
      else minimumDue balance debt.minPercentBps debt.minFloorCents
    -- A percentage of a few cents rounds to nothing; such a residual is cleared.
    if minimum = 0 ∧ 0 < debt.minPercentBps then balance else min minimum balance

def monthlyInterest (balance aprBps : Int) : Int :=
  if balance ≤ 0 ∨ aprBps ≤ 0 then 0
  else asI64 ((balance * aprBps).tdiv (10000 * 12))

/-- What is owed on a debt. -/
def owedOn (balances : List Int) (debt : Nat) : Int := balances.getD debt 0

/-- Pairs are compared by the first, then by the second. -/
instance rankOrder : LinearOrder (Int ×ₗ ℕ) :=
  @Prod.Lex.instLinearOrder Int ℕ Int.instLinearOrder Nat.instLinearOrder

instance rankPreorder : Preorder (Int ×ₗ ℕ) := rankOrder.toPartialOrder.toPreorder

/-- What the strategy prefers the lowest of: the balance, or the opposite of the rate; the index
breaks ties. -/
def rank (debts : List PayoffDebt) (strategy : PayoffStrategy) (balances : List Int) (debt : Nat) :
    Int ×ₗ ℕ :=
  match strategy with
  | .avalanche => toLex (-(debts.getD debt default).aprBps, debt)
  | _ => toLex (owedOn balances debt, debt)

/-- The debt that the strategy applies the surplus to, of those on which something is owed. -/
def targetDebt (balances : List Int) (debts : List PayoffDebt) (strategy : PayoffStrategy) :
    Option Nat :=
  let active := (List.range balances.length).filter fun debt => 0 < owedOn balances debt
  match strategy with
  | .minimumOnly => none
  | .snowball | .avalanche => active.argmin (rank debts strategy balances)

/-! ### One month -/

/-- Each debt's interest of a month. -/
def interests (debts : List PayoffDebt) (balances : List Int) : List Int :=
  debts.zipWith (fun debt balance => monthlyInterest balance debt.aprBps) balances

def accrue (debts : List PayoffDebt) (balances : List Int) : List Int :=
  balances.zipWith saturatingAdd (interests debts balances)

/-- Each debt's current minimum. -/
def minimums (debts : List PayoffDebt) (balances : List Int) : List Int :=
  debts.zipWith requiredMinimum balances

/-- What is left to pay, and what has been paid on each debt in the month. -/
structure Payments where
  balances : List Int
  paid : List Int

/-- Pay an amount on a debt. -/
def Payments.pay (payments : Payments) (debt : Nat) (amount : Int) : Payments :=
  ⟨payments.balances.set debt (owedOn payments.balances debt - amount),
    payments.paid.set debt (owedOn payments.paid debt + amount)⟩

/-- Apply a surplus to one target after another; every round clears one or is the last. -/
def cascade (debts : List PayoffDebt) (strategy : PayoffStrategy) :
    Nat → Payments → Int → Payments
  | 0, payments, _ => payments
  | rounds + 1, payments, surplus =>
    if 0 < surplus then
      match targetDebt payments.balances debts strategy with
      | none => payments
      | some target =>
        let amount := min (owedOn payments.balances target) surplus
        if amount = 0 then payments
        else cascade debts strategy rounds (payments.pay target amount) (surplus - amount)
    else payments

def sumOf (amounts : List Int) : Int := amounts.foldl saturatingAdd 0

/-- Pay every minimum, and the surplus of the budget as the strategy says. -/
def allocate (debts : List PayoffDebt) (strategy : PayoffStrategy) (budget : Int)
    (balances : List Int) : Payments :=
  let paid := minimums debts balances
  let payments : Payments := ⟨balances.zipWith (· - ·) paid, paid⟩
  if strategy = .minimumOnly then payments
  else cascade debts strategy balances.length payments (max (saturatingSub budget (sumOf paid)) 0)

/-! ### The months -/

/-- How a run of months ends, and what is owed after each. -/
structure PayoffRun where
  months : Nat
  balances : List Int
  totalInterest : Int
  rows : List (List Int)

/-- Month after month, up to a cap, as long as something is owed. -/
def runMonths (debts : List PayoffDebt) (strategy : PayoffStrategy) (budget : Int) :
    Nat → List Int → Int → PayoffRun
  | 0, balances, totalInterest => ⟨0, balances, totalInterest, []⟩
  | cap + 1, balances, totalInterest =>
    if balances.any fun balance => 0 < balance then
      let next := (allocate debts strategy budget (accrue debts balances)).balances
      let later := runMonths debts strategy budget cap next
        ((interests debts balances).foldl saturatingAdd totalInterest)
      ⟨later.months + 1, later.balances, later.totalInterest, next :: later.rows⟩
    else ⟨0, balances, totalInterest, []⟩

def startingBalances (debts : List PayoffDebt) : List Int :=
  debts.map fun debt => max debt.balanceCents 0

/-- What is put up every month: the first minimums and the extra. -/
def constantBudget (debts : List PayoffDebt) (extraBudgetCents : Int) : Int :=
  saturatingAdd (sumOf (minimums debts (startingBalances debts))) (max extraBudgetCents 0)

def totalOwed (balances : List Int) : Int :=
  balances.foldl (fun total balance => saturatingAdd total (max balance 0)) 0

/-- Simulate paying down the debts. -/
def simulatePayoff (debts : List PayoffDebt) (strategy : PayoffStrategy) (extraBudgetCents : Int) :
    PayoffResult :=
  let balances := startingBalances debts
  let run := runMonths debts strategy (constantBudget debts extraBudgetCents) horizonCapMonths
    balances 0
  { debtFreeMonth := if run.balances.all fun balance => balance ≤ 0 then some run.months else none
    totalInterestCents := run.totalInterest
    monthlyTotalOwed := (balances :: run.rows).map totalOwed
    monthlyOwedByDebt := (balances :: run.rows).map fun row => row.map fun balance => max balance 0 }

/-- A hand table: a thousand at no interest, a hundred a month. -/
example : (simulatePayoff [⟨100000, 0, 200, 2500, 10000⟩] .minimumOnly 0).debtFreeMonth = some 10 := by
  decide +kernel

end Dohflow.ForecastEngine
