/-
This file models money and the double-entry transaction.

An amount is a whole number of minor units in 64 bits, and its arithmetic refuses to wrap.
A transaction has at least two postings in one currency that sum to zero, so a transaction
that does not balance cannot be built. Two postings, an amount and its negation, sum to
zero for every amount but the one that has no negation (`sumPostings_negation`).
-/

import Dohflow.SyncCore.Cbe

namespace Dohflow.CoreLedger

open SyncCore Fallible

/-! ### Amounts -/

/-- `i64::checked_add` -/
def checkedAdd (left right : Int64) : Option Int64 :=
  if (left + right).toInt = left.toInt + right.toInt then some (left + right) else none

/-- `i64::checked_neg` -/
def checkedNeg (value : Int64) : Option Int64 :=
  if value = Int64.minValue then none else some (-value)

theorem checkedAdd_zero (value : Int64) : checkedAdd 0 value = some value := by
  rw [checkedAdd, Int64.zero_add, if_pos (by simp)]

theorem toInt_neg {value : Int64} (negatable : value ≠ Int64.minValue) :
    (-value).toInt = -value.toInt := by
  have apart : value.toInt ≠ -2 ^ 63 := fun same =>
    negatable (Int64.toInt.inj (same.trans (by decide)))
  rw [Int64.toInt_neg]
  refine Int.bmod_eq_of_le ?_ ?_
  · have := Int64.toInt_lt value
    omega
  · have := Int64.le_toInt value
    omega

theorem checkedNeg_eq_some {value negated : Int64} :
    checkedNeg value = some negated ↔ value ≠ Int64.minValue ∧ -value = negated := by
  unfold checkedNeg
  split_ifs with least
  · exact iff_of_false (fun same => by cases same) fun both => both.1 least
  · rw [Option.some_inj]
    exact (and_iff_right least).symm

theorem checkedAdd_neg {value : Int64} (negatable : value ≠ Int64.minValue) :
    checkedAdd value (-value) = some 0 := by
  have negated := toInt_neg negatable
  rw [checkedAdd, Int64.add_right_neg, if_pos (by rw [negated, Int64.toInt_zero]; omega)]

/-! ### Money -/

inductive Currency
  | usd
  | eur
  deriving DecidableEq

def Currency.code : Currency → String
  | .usd => "USD"
  | .eur => "EUR"

inductive MoneyError
  | currencyMismatch (left right : Currency)
  | overflow
  | divisionByZero
  deriving DecidableEq

/-- Its exponent is that of its currency. -/
structure Money where
  minorUnits : Int64
  currency : Currency
  deriving DecidableEq

namespace Money

def zero (currency : Currency) : Money := ⟨0, currency⟩

def isZero (money : Money) : Bool := money.minorUnits = 0

def checkedAdd (left right : Money) : Except MoneyError Money :=
  if left.currency = right.currency then
    match CoreLedger.checkedAdd left.minorUnits right.minorUnits with
    | some sum => .ok ⟨sum, left.currency⟩
    | none => .error .overflow
  else .error (.currencyMismatch left.currency right.currency)

def checkedNeg (money : Money) : Except MoneyError Money :=
  match CoreLedger.checkedNeg money.minorUnits with
  | some negated => .ok ⟨negated, money.currency⟩
  | none => .error .overflow

end Money

/-! ### Transactions -/

/-- The id of a ledger transaction, by what it is derived from: derived ids that differ in what
they are derived from differ. -/
inductive TransactionId
  /-- The content id of an imported row, from its source batch and row ordinal. -/
  | imported (batch : Uuid) (ordinal : Int64)
  /-- The keyed id of the reversal that a command mints of a transaction. -/
  | reversal (command : Uuid) (original : TransactionId)
  /-- An id that a command carries. -/
  | given (id : Uuid)
  deriving DecidableEq

structure Posting where
  account : Uuid
  amount : Money

/-- Why a set of postings could not form a valid transaction. -/
inductive LedgerError
  | tooFewPostings (found : Nat)
  | mixedCurrency (expected found : Currency)
  | unbalanced (residual : Money)
  | money (error : MoneyError)
  deriving DecidableEq

/-- The sum of the postings on top of what is summed up already. -/
def sumPostings (currency : Currency) (sum : Money) : List Posting → Except LedgerError Money
  | [] => .ok sum
  | posting :: rest => do
    ensure (posting.amount.currency = currency)
      (.mixedCurrency currency posting.amount.currency)
    let sum ← (sum.checkedAdd posting.amount).mapError .money
    sumPostings currency sum rest

/-- A balanced, single-currency double-entry transaction. -/
structure LedgerTransaction where
  id : TransactionId
  operationId : Uuid
  /-- In seconds. -/
  occurredAt : Int
  currency : Currency
  postings : List Posting
  twoOrMore : 2 ≤ postings.length
  balances : sumPostings currency (.zero currency) postings = .ok (.zero currency)

def LedgerTransaction.new (id : TransactionId) (operationId : Uuid) (occurredAt : Int)
    (postings : List Posting) : Except LedgerError LedgerTransaction :=
  if twoOrMore : 2 ≤ postings.length then
    let currency := (postings.get ⟨0, Nat.lt_of_lt_of_le Nat.zero_lt_two twoOrMore⟩).amount.currency
    match summed : sumPostings currency (.zero currency) postings with
    | .error error => .error error
    | .ok sum =>
      if balances : sum = .zero currency then
        .ok ⟨id, operationId, occurredAt, currency, postings, twoOrMore, balances ▸ summed⟩
      else .error (.unbalanced sum)
  else .error (.tooFewPostings postings.length)

variable {id : TransactionId} {operationId : Uuid} {occurredAt : Int} {postings : List Posting}
  {transaction : LedgerTransaction}

theorem LedgerTransaction.of_new
    (built : LedgerTransaction.new id operationId occurredAt postings = .ok transaction) :
    transaction.id = id ∧ transaction.operationId = operationId ∧
      transaction.occurredAt = occurredAt ∧ transaction.postings = postings := by
  unfold LedgerTransaction.new at built
  split at built
  · dsimp only at built
    split at built
    · cases built
    · split at built
      · obtain rfl := Except.ok.inj built
        exact ⟨rfl, rfl, rfl, rfl⟩
      · cases built
  · cases built

theorem LedgerTransaction.exists_new (id : TransactionId) (operationId : Uuid) (occurredAt : Int)
    {first second : Posting} {rest : List Posting}
    (balances : sumPostings first.amount.currency (.zero first.amount.currency)
      (first :: second :: rest) = .ok (.zero first.amount.currency)) :
    ∃ transaction, LedgerTransaction.new id operationId occurredAt (first :: second :: rest) =
      .ok transaction := by
  unfold LedgerTransaction.new
  split
  · dsimp only [List.get]
    split
    · next error summed => rw [balances] at summed; cases summed
    · next sum summed =>
      rw [balances] at summed
      obtain rfl := Except.ok.inj summed
      exact ⟨_, dif_pos rfl⟩
  · next fewer => exact absurd (Nat.le_add_left 2 rest.length) fewer

theorem toInt_of_checkedAdd {left right sum : Int64} (added : checkedAdd left right = some sum) :
    sum.toInt = left.toInt + right.toInt := by
  unfold checkedAdd at added
  split at added
  · next exact =>
    obtain rfl := Option.some_inj.mp added
    exact exact
  · cases added

/-- What some postings sum to is the sum of their amounts: nothing wraps on the way. -/
theorem sum_of_sumPostings {currency : Currency} {sum total : Money}
    (summed : sumPostings currency sum postings = .ok total) :
    total.minorUnits.toInt = sum.minorUnits.toInt +
      (postings.map fun posting => posting.amount.minorUnits.toInt).sum := by
  induction postings generalizing sum with
  | nil =>
    obtain rfl := Except.ok.inj summed
    exact (Int.add_zero _).symm
  | cons posting rest inductionHypothesis =>
    obtain ⟨-, summed⟩ := ensure_bind_eq_ok.mp summed
    obtain ⟨middle, added, summed⟩ := bind_eq_ok.mp summed
    have added := mapError_eq_ok.mp added
    unfold Money.checkedAdd at added
    split at added
    · split at added
      · next value found =>
        obtain rfl := Except.ok.inj added
        rw [inductionHypothesis summed, List.map_cons, List.sum_cons, ← Int.add_assoc]
        exact congrArg (· + _) (toInt_of_checkedAdd found)
      · cases added
    · cases added

theorem LedgerTransaction.sum_postings (transaction : LedgerTransaction) :
    (transaction.postings.map fun posting => posting.amount.minorUnits.toInt).sum = 0 := by
  have total := sum_of_sumPostings transaction.balances
  have zero : (Money.zero transaction.currency).minorUnits.toInt = 0 := rfl
  omega

theorem sumPostings_negation {account counter : Uuid} {amount : Money}
    (negatable : amount.minorUnits ≠ Int64.minValue) :
    sumPostings amount.currency (.zero amount.currency)
      [⟨account, amount⟩, ⟨counter, ⟨-amount.minorUnits, amount.currency⟩⟩] =
        .ok (.zero amount.currency) := by
  have first : (Money.zero amount.currency).checkedAdd amount = .ok amount := by
    rw [Money.checkedAdd, Money.zero, if_pos rfl, checkedAdd_zero]
  have second : amount.checkedAdd ⟨-amount.minorUnits, amount.currency⟩ =
      .ok (.zero amount.currency) := by
    rw [Money.checkedAdd, if_pos rfl, checkedAdd_neg negatable]
    rfl
  simp only [sumPostings, ensure, if_true, first, second, Except.mapError, bind, Except.bind]

end Dohflow.CoreLedger
