/-
This file is a small theory of paying amounts off in order.

A sum goes to one amount after another, to each as far as it still goes. More to pay
from and less to pay leave no more of any amount. Whoever pays the first amounts
first has cleared some, is working on one, and has left the others as they were; so
where rates fall along the order, and no more is owed in all, no more interest falls
due.
-/

import Mathlib.Algebra.BigOperators.Group.List.Basic
import Mathlib.Algebra.Order.BigOperators.Group.List
import Mathlib.Algebra.Order.Group.MinMax
import Mathlib.Algebra.Order.Ring.Defs
import Mathlib.Tactic.Abel
import Mathlib.Tactic.Linarith
import Mathlib.Tactic.Ring

namespace Draining

/-! ### Paying in order -/

section Drain

variable {Amount : Type} [AddCommGroup Amount] [LinearOrder Amount]

/-- What a sum leaves of some amounts, paid in order, each as far as the sum still goes. -/
def drain : Amount → List Amount → List Amount
  | _, [] => []
  | sum, owed :: rest => (owed - min owed sum) :: drain (sum - min owed sum) rest

variable {sum : Amount} {amounts : List Amount}

theorem drain_zero (nonnegative : ∀ owed ∈ amounts, 0 ≤ owed) : drain 0 amounts = amounts := by
  induction amounts with
  | nil => rfl
  | cons owed rest inductionHypothesis =>
    have nothing : min owed 0 = 0 := min_eq_right (nonnegative owed List.mem_cons_self)
    rw [drain, nothing, sub_zero, sub_zero,
      inductionHypothesis fun other member => nonnegative other (List.mem_cons_of_mem _ member)]

variable [IsOrderedAddMonoid Amount]

theorem drain_bounds (positive : 0 ≤ sum) (nonnegative : ∀ owed ∈ amounts, 0 ≤ owed) :
    List.Forall₂ (fun left owed => 0 ≤ left ∧ left ≤ owed) (drain sum amounts) amounts := by
  induction amounts generalizing sum with
  | nil => exact .nil
  | cons owed rest inductionHypothesis =>
    have own := nonnegative owed List.mem_cons_self
    refine .cons ⟨sub_nonneg.mpr (min_le_left _ _), sub_le_self _ (le_min own positive)⟩ ?_
    exact inductionHypothesis (sub_nonneg.mpr (min_le_right _ _)) fun other member =>
      nonnegative other (List.mem_cons_of_mem _ member)

theorem sum_drain (positive : 0 ≤ sum) (nonnegative : ∀ owed ∈ amounts, 0 ≤ owed) :
    (drain sum amounts).sum = amounts.sum - min amounts.sum sum := by
  induction amounts generalizing sum with
  | nil =>
    rw [drain, List.sum_nil, min_eq_left positive, sub_zero]
  | cons owed rest inductionHypothesis =>
    have others (other : Amount) (member : other ∈ rest) : 0 ≤ other :=
      nonnegative other (List.mem_cons_of_mem _ member)
    rw [drain, List.sum_cons, List.sum_cons,
      inductionHypothesis (sub_nonneg.mpr (min_le_right _ _)) others]
    rcases le_total owed sum with all | part
    · have split : min (owed + rest.sum) sum = owed + min rest.sum (sum - owed) := by
        rw [← min_add_add_left, add_sub_cancel]
      rw [min_eq_left all, split]
      abel
    · have whole : sum ≤ owed + rest.sum := part.trans (le_add_of_nonneg_right (List.sum_nonneg others))
      rw [min_eq_right part, sub_self, min_eq_right (List.sum_nonneg others), min_eq_right whole]
      abel

theorem drain_mono {larger : Amount} {smaller : List Amount}
    (less : List.Forall₂ (· ≤ ·) smaller amounts) (more : sum ≤ larger) :
    List.Forall₂ (· ≤ ·) (drain larger smaller) (drain sum amounts) := by
  induction less generalizing sum larger with
  | nil => exact .nil
  | @cons low high lows highs pair pairs inductionHypothesis =>
    refine .cons ?_ (inductionHypothesis ?_)
    · rw [← max_sub_sub_left, ← max_sub_sub_left, sub_self, sub_self]
      exact max_le_max le_rfl (sub_le_sub pair more)
    · rw [← max_sub_sub_left, ← max_sub_sub_left, sub_self, sub_self]
      exact max_le_max (sub_le_sub more pair) le_rfl

end Drain

/-! ### Paying the first ones first -/

/-- Along an order, some amounts are cleared, one is being worked on, and behind it at least as
much is owed as in another account. -/
inductive FrontLoaded {Item Amount : Type} [Zero Amount] [LE Amount] (paid other : Item → Amount) :
    List Item → Prop
  | nil : FrontLoaded paid other []
  | cleared {item : Item} {rest : List Item} (nothing : paid item = 0)
      (later : FrontLoaded paid other rest) : FrontLoaded paid other (item :: rest)
  | working {item : Item} {rest : List Item} (behind : ∀ later ∈ rest, other later ≤ paid later) :
      FrontLoaded paid other (item :: rest)

namespace FrontLoaded

section Order

variable {Item Amount : Type} [Zero Amount] [LE Amount] {paid other nextPaid nextOther : Item → Amount}
  {order : List Item}

theorem of_le (more : ∀ item ∈ order, other item ≤ paid item) : FrontLoaded paid other order := by
  cases order with
  | nil => exact .nil
  | cons item rest => exact .working fun later member => more later (List.mem_cons_of_mem _ member)

/-- What keeps nothing nothing, and keeps which owes more, keeps the front loaded. -/
theorem imp (loaded : FrontLoaded paid other order)
    (nothing : ∀ item ∈ order, paid item = 0 → nextPaid item = 0)
    (keeps : ∀ item ∈ order, other item ≤ paid item → nextOther item ≤ nextPaid item) :
    FrontLoaded nextPaid nextOther order := by
  induction loaded with
  | nil => exact .nil
  | cleared none later inductionHypothesis =>
    refine .cleared (nothing _ List.mem_cons_self none) (inductionHypothesis ?_ ?_)
    · exact fun item member => nothing item (List.mem_cons_of_mem _ member)
    · exact fun item member => keeps item (List.mem_cons_of_mem _ member)
  | working behind =>
    exact .working fun later member =>
      keeps later (List.mem_cons_of_mem _ member) (behind later member)

end Order

section Drain

variable {Item Amount : Type} [AddCommGroup Amount] [LinearOrder Amount]
  {paid other left : Item → Amount} {order : List Item} {sum : Amount}

theorem drain_of_le (more : ∀ item ∈ order, other item ≤ paid item)
    (nonnegative : ∀ item ∈ order, 0 ≤ paid item)
    (drained : order.map left = drain sum (order.map paid)) : FrontLoaded left other order := by
  induction order generalizing sum with
  | nil => exact .nil
  | cons item rest inductionHypothesis =>
    rw [List.map_cons, List.map_cons, drain] at drained
    obtain ⟨first, later⟩ := List.cons.inj drained
    have restMore (item : Item) (member : item ∈ rest) : other item ≤ paid item :=
      more item (List.mem_cons_of_mem _ member)
    have restOwes (item : Item) (member : item ∈ rest) : 0 ≤ paid item :=
      nonnegative item (List.mem_cons_of_mem _ member)
    rcases le_total (paid item) sum with all | part
    · rw [min_eq_left all] at first later
      exact .cleared (first.trans (sub_self _)) (inductionHypothesis restMore restOwes later)
    · -- The sum ends here, and what is behind is left as it was.
      rw [min_eq_right part, sub_self, drain_zero] at later
      · refine .working fun item member => (restMore item member).trans_eq ?_
        exact (List.map_inj_left.mp later item member).symm
      · intro owed member
        obtain ⟨item, listed, rfl⟩ := List.mem_map.mp member
        exact restOwes item listed

/-- Draining in order keeps the front loaded. -/
theorem drain (loaded : FrontLoaded paid other order) (nonnegative : ∀ item ∈ order, 0 ≤ paid item)
    (positive : 0 ≤ sum) (drained : order.map left = drain sum (order.map paid)) :
    FrontLoaded left other order := by
  induction loaded generalizing sum with
  | nil => exact .nil
  | cleared nothing later inductionHypothesis =>
    rw [List.map_cons, List.map_cons, Draining.drain, nothing, min_eq_left positive, sub_zero,
      sub_zero] at drained
    obtain ⟨first, others⟩ := List.cons.inj drained
    exact .cleared first (inductionHypothesis
      (fun item member => nonnegative item (List.mem_cons_of_mem _ member)) positive others)
  | @working item rest behind =>
    rw [List.map_cons, List.map_cons, Draining.drain] at drained
    obtain ⟨first, later⟩ := List.cons.inj drained
    have restOwes (item : Item) (member : item ∈ rest) : 0 ≤ paid item :=
      nonnegative item (List.mem_cons_of_mem _ member)
    rcases le_total (paid item) sum with all | part
    · rw [min_eq_left all] at first later
      exact .cleared (first.trans (sub_self _)) (drain_of_le behind restOwes later)
    · rw [min_eq_right part, sub_self, drain_zero] at later
      · refine .working fun item member => (behind item member).trans_eq ?_
        exact (List.map_inj_left.mp later item member).symm
      · intro owed member
        obtain ⟨item, listed, rfl⟩ := List.mem_map.mp member
        exact restOwes item listed

end Drain

section Rates

variable {Item Rate : Type} [CommRing Rate] [LinearOrder Rate] [IsStrictOrderedRing Rate]
  {paid other rate : Item → Rate} {order : List Item}

theorem interest_le_of_le {highest : Rate} (more : ∀ item ∈ order, other item ≤ paid item)
    (below : ∀ item ∈ order, rate item ≤ highest) :
    (order.map fun item => paid item * rate item).sum ≤
      (order.map fun item => other item * rate item).sum +
        ((order.map paid).sum - (order.map other).sum) * highest := by
  induction order with
  | nil => simp
  | cons item rest inductionHypothesis =>
    have later := inductionHypothesis (fun item member => more item (List.mem_cons_of_mem _ member))
      fun item member => below item (List.mem_cons_of_mem _ member)
    have own : (paid item - other item) * rate item ≤ (paid item - other item) * highest :=
      mul_le_mul_of_nonneg_left (below item List.mem_cons_self)
        (sub_nonneg.mpr (more item List.mem_cons_self))
    simp only [List.map_cons, List.sum_cons]
    linarith

theorem interest_le_add (loaded : FrontLoaded paid other order)
    (falling : order.Pairwise fun first second => rate second ≤ rate first)
    (positive : ∀ item ∈ order, 0 ≤ rate item) (owes : ∀ item ∈ order, 0 ≤ other item)
    {slack highest : Rate} (below : ∀ item ∈ order, rate item ≤ highest) (room : 0 ≤ slack)
    (cap : 0 ≤ highest) (sums : (order.map paid).sum ≤ (order.map other).sum + slack) :
    (order.map fun item => paid item * rate item).sum ≤
      (order.map fun item => other item * rate item).sum + slack * highest := by
  induction loaded generalizing slack highest with
  | nil => simpa using mul_nonneg room cap
  | @cleared item rest nothing later inductionHypothesis =>
    obtain ⟨first, restFalling⟩ := List.pairwise_cons.mp falling
    have ownOwes := owes item List.mem_cons_self
    simp only [List.map_cons, List.sum_cons, nothing] at sums ⊢
    have others := @inductionHypothesis restFalling
      (fun item member => positive item (List.mem_cons_of_mem _ member))
      (fun item member => owes item (List.mem_cons_of_mem _ member)) (other item + slack) (rate item)
      first (add_nonneg ownOwes room) (positive item List.mem_cons_self) (by linarith)
    have cost := mul_le_mul_of_nonneg_left (below item List.mem_cons_self) room
    linarith
  | @working item rest behind =>
    obtain ⟨first, -⟩ := List.pairwise_cons.mp falling
    simp only [List.map_cons, List.sum_cons] at sums ⊢
    have others := interest_le_of_le behind first
    have ownRate := positive item List.mem_cons_self
    have excess : (paid item + (rest.map paid).sum - (other item + (rest.map other).sum)) *
        rate item ≤ slack * rate item := mul_le_mul_of_nonneg_right (by linarith) ownRate
    have cost := mul_le_mul_of_nonneg_left (below item List.mem_cons_self) room
    linarith

theorem interest_le (loaded : FrontLoaded paid other order)
    (falling : order.Pairwise fun first second => rate second ≤ rate first)
    (positive : ∀ item ∈ order, 0 ≤ rate item) (owes : ∀ item ∈ order, 0 ≤ other item)
    (sums : (order.map paid).sum ≤ (order.map other).sum) :
    (order.map fun item => paid item * rate item).sum ≤
      (order.map fun item => other item * rate item).sum := by
  cases order with
  | nil => exact le_rfl
  | cons item rest =>
    have below : ∀ other ∈ item :: rest, rate other ≤ rate item := by
      intro other member
      rcases List.mem_cons.mp member with rfl | behind
      · exact le_rfl
      · exact (List.pairwise_cons.mp falling).1 other behind
    have bound := loaded.interest_le_add falling positive owes below le_rfl
      (positive item List.mem_cons_self) (by linarith)
    linarith

end Rates

end FrontLoaded

end Draining
