/-
This file is a small theory of amounts that are split by weights.

Every weight gets its proportional share, cut to a whole number towards zero, and one
of them also gets what the cuts left over. The parts then make the amount, none of them
has the other sign, and each is off its exact share by less than one for every weight
there is. A negative amount is split as its opposite is, with all signs turned; so it is
enough to look at amounts that are not negative.
-/

import Mathlib.Algebra.BigOperators.Group.List.Basic
import Mathlib.Algebra.Order.BigOperators.Group.List
import Mathlib.Algebra.Order.Ring.Int
import Mathlib.Algebra.Order.Group.Abs
import Mathlib.Tactic.Ring

namespace Shares

/-- The share of a weight, cut to a whole number. -/
def share (total amount weight : Int) : Int := (amount * weight).tdiv total

/-- The shares of an amount, with what they leave over put on one of them. -/
def topped (total amount : Int) (weights : List Int) (index : Nat) : List Int :=
  let shares := weights.map (share total amount)
  shares.set index (shares.getD index 0 + (amount - shares.sum))

/-- Parts that make an amount, on the weights that they are for. -/
structure Fair (total amount : Int) (weights parts : List Int) : Prop where
  length_eq : parts.length = weights.length
  sum_eq : parts.sum = amount
  not_negative : 0 ≤ amount → ∀ part ∈ parts, 0 ≤ part
  not_positive : amount ≤ 0 → ∀ part ∈ parts, part ≤ 0
  weightless : ∀ index : Nat, weights[index]? = some 0 → parts[index]? = some 0
  near : ∀ (index : Nat) (weight part : Int), weights[index]? = some weight → parts[index]? = some part →
    |part * total - amount * weight| ≤ weights.length * total

/-! ### Turning the sign -/

theorem share_neg (total amount weight : Int) :
    share total (-amount) weight = -share total amount weight := by
  unfold share
  rw [Int.neg_mul, Int.neg_tdiv]

theorem sum_map_neg (parts : List Int) : (parts.map (-·)).sum = -parts.sum := by
  induction parts with
  | nil => rfl
  | cons first rest inductionHypothesis =>
    rw [List.map_cons, List.sum_cons, List.sum_cons, inductionHypothesis, Int.neg_add]

theorem topped_neg (total amount : Int) (weights : List Int) (index : Nat) :
    topped total (-amount) weights index = (topped total amount weights index).map (-·) := by
  have shares : weights.map (share total (-amount)) =
      (weights.map (share total amount)).map (-·) := by
    rw [List.map_map]
    exact List.map_congr_left fun weight _ => share_neg total amount weight
  unfold topped
  dsimp only
  rw [shares, sum_map_neg, List.map_set]
  congr 1
  rw [List.getD_eq_getElem?_getD, List.getElem?_map, List.getD_eq_getElem?_getD]
  cases (weights.map (share total amount))[index]? with
  | none =>
    simp only [Option.map_none, Option.getD_none]
    ring
  | some part =>
    simp only [Option.map_some, Option.getD_some]
    ring

theorem Fair.neg {total amount : Int} {weights parts : List Int}
    (fair : Fair total amount weights parts) :
    Fair total (-amount) weights (parts.map (-·)) where
  length_eq := by rw [List.length_map, fair.length_eq]
  sum_eq := by rw [sum_map_neg, fair.sum_eq]
  not_negative := by
    intro sign part member
    obtain ⟨other, held, rfl⟩ := List.mem_map.mp member
    have low := fair.not_positive (by omega) other held
    omega
  not_positive := by
    intro sign part member
    obtain ⟨other, held, rfl⟩ := List.mem_map.mp member
    have high := fair.not_negative (by omega) other held
    omega
  weightless := by
    intro index none
    rw [List.getElem?_map, fair.weightless index none]
    rfl
  near := by
    intro index weight part found held
    rw [List.getElem?_map] at held
    obtain ⟨other, same, rfl⟩ := Option.map_eq_some_iff.mp held
    have near := fair.near index weight other found same
    rwa [show -other * total - -amount * weight = -(other * total - amount * weight) by ring,
      abs_neg]

/-! ### Shares of an amount that is not negative -/

theorem share_spec {total amount weight : Int} (positive : 0 < total) (sign : 0 ≤ amount)
    (heavy : 0 ≤ weight) :
    0 ≤ share total amount weight ∧ share total amount weight * total ≤ amount * weight ∧
      amount * weight < share total amount weight * total + total := by
  have product : 0 ≤ amount * weight := Int.mul_nonneg sign heavy
  unfold share
  rw [Int.tdiv_eq_ediv_of_nonneg product]
  have whole := Int.mul_ediv_add_emod (amount * weight) total
  have low := Int.emod_nonneg (amount * weight) positive.ne'
  have high := Int.emod_lt_of_pos (amount * weight) positive
  rw [Int.mul_comm] at whole
  exact ⟨Int.ediv_nonneg product positive.le, by omega, by omega⟩

theorem sum_share {total amount : Int} {weights : List Int} (positive : 0 < total)
    (sign : 0 ≤ amount) (heavy : ∀ weight ∈ weights, 0 ≤ weight) :
    0 ≤ (weights.map (share total amount)).sum ∧
      (weights.map (share total amount)).sum * total ≤ amount * weights.sum ∧
      amount * weights.sum ≤
        (weights.map (share total amount)).sum * total + weights.length * total := by
  induction weights with
  | nil => simp
  | cons first rest inductionHypothesis =>
    obtain ⟨atLeast, low, high⟩ := share_spec positive sign (heavy first List.mem_cons_self)
    obtain ⟨restAtLeast, restLow, restHigh⟩ := inductionHypothesis fun weight member =>
      heavy weight (List.mem_cons_of_mem _ member)
    rw [List.map_cons, List.sum_cons, List.sum_cons, Int.mul_add, Int.add_mul, List.length_cons,
      Int.natCast_succ, Int.add_mul, Int.one_mul]
    omega

theorem sum_set_add {parts : List Int} {index : Nat} {part more : Int}
    (found : parts[index]? = some part) : (parts.set index (part + more)).sum = parts.sum + more := by
  induction parts generalizing index with
  | nil => cases found
  | cons first rest inductionHypothesis =>
    cases index with
    | zero =>
      obtain rfl := Option.some.inj found
      rw [List.set_cons_zero, List.sum_cons, List.sum_cons]
      ring
    | succ index =>
      rw [List.set_cons_succ, List.sum_cons, List.sum_cons, inductionHypothesis found]
      ring

/-- An amount that is not negative is split fairly by the shares, what they leave over put on a
weight there is something for. -/
theorem fair_topped_of_nonneg {amount : Int} {weights : List Int} {index : Nat} {weight : Int}
    (sign : 0 ≤ amount) (heavy : ∀ weight ∈ weights, 0 ≤ weight)
    (found : weights[index]? = some weight) (weighty : 0 < weight) :
    Fair weights.sum amount weights (topped weights.sum amount weights index) := by
  have member := List.mem_of_getElem? found
  have positive : 0 < weights.sum := by
    have below := List.single_le_sum heavy weight member
    omega
  obtain ⟨-, low, high⟩ := sum_share positive sign heavy
  have shared : (weights.map (share weights.sum amount))[index]? =
      some (share weights.sum amount weight) := by
    rw [List.getElem?_map, found]
    rfl
  have left : 0 ≤ amount - (weights.map (share weights.sum amount)).sum := by
    have below := Int.le_of_mul_le_mul_right low positive
    omega
  have few : (amount - (weights.map (share weights.sum amount)).sum) * weights.sum ≤
      weights.length * weights.sum := by
    rw [Int.sub_mul]
    omega
  have value : (weights.map (share weights.sum amount)).getD index 0 =
      share weights.sum amount weight := by
    rw [List.getD_eq_getElem?_getD, shared]
    rfl
  have own := @share_spec _ _ weight positive sign weighty.le
  have long : weights.sum ≤ weights.length * weights.sum := by
    have some : (1 : Int) ≤ weights.length := by
      have below := (List.getElem?_eq_some_iff.mp found).1
      omega
    have scaled := Int.mul_le_mul_of_nonneg_right some positive.le
    rwa [Int.one_mul] at scaled
  have members (part : Int) (held : part ∈ topped weights.sum amount weights index) :
      (∃ other ∈ weights, part = share weights.sum amount other) ∨
        part = share weights.sum amount weight +
          (amount - (weights.map (share weights.sum amount)).sum) := by
    unfold topped at held
    rcases List.mem_or_eq_of_mem_set held with inside | same
    · obtain ⟨other, otherHeld, same⟩ := List.mem_map.mp inside
      exact .inl ⟨other, otherHeld, same.symm⟩
    · rw [value] at same
      exact .inr same
  have entries (other : Nat) : (topped weights.sum amount weights index)[other]? =
      if other = index then
        some (share weights.sum amount weight +
          (amount - (weights.map (share weights.sum amount)).sum))
      else weights[other]?.map (share weights.sum amount) := by
    unfold topped
    dsimp only
    rw [value]
    split_ifs with same
    · subst same
      refine List.getElem?_set_self ?_
      rw [List.length_map]
      exact (List.getElem?_eq_some_iff.mp found).1
    · rw [List.getElem?_set_ne (Ne.symm same), List.getElem?_map]
  refine ⟨?_, ?_, fun _ part held => ?_, fun turned part held => ?_, fun other none => ?_,
    fun other otherWeight part otherFound held => ?_⟩
  · unfold topped
    rw [List.length_set, List.length_map]
  · unfold topped
    dsimp only
    rw [value, sum_set_add shared]
    ring
  · rcases members part held with ⟨other, otherHeld, rfl⟩ | rfl
    · exact (share_spec positive sign (heavy other otherHeld)).1
    · exact Int.add_nonneg own.1 left
  · -- the amount is zero, and so is every share of it
    obtain rfl : amount = 0 := by omega
    have nothing (other : Int) : share weights.sum 0 other = 0 := by
      unfold share
      rw [Int.zero_mul, Int.zero_tdiv]
    have given := (sum_share positive sign heavy).1
    rcases members part held with ⟨other, -, rfl⟩ | rfl
    · rw [nothing]
    · rw [nothing]
      omega
  · have apart : other ≠ index := by
      rintro rfl
      rw [found] at none
      have zero := Option.some.inj none
      omega
    rw [entries, if_neg apart, none]
    show some (share weights.sum amount 0) = some 0
    unfold share
    rw [Int.mul_zero, Int.zero_tdiv]
  · rw [entries] at held
    rw [abs_le]
    split_ifs at held with same
    · subst same
      obtain rfl := Option.some.inj (found.symm.trans otherFound)
      obtain rfl := Option.some.inj held
      rw [Int.add_mul, Int.sub_mul]
      rw [Int.sub_mul] at few
      omega
    · rw [otherFound] at held
      obtain rfl := Option.some.inj held
      have near := share_spec positive sign (heavy otherWeight (List.mem_of_getElem? otherFound))
      omega

theorem fair_topped {amount : Int} {weights : List Int} {index : Nat} {weight : Int}
    (heavy : ∀ weight ∈ weights, 0 ≤ weight) (found : weights[index]? = some weight)
    (weighty : 0 < weight) :
    Fair weights.sum amount weights (topped weights.sum amount weights index) := by
  rcases Int.le_total 0 amount with sign | sign
  · exact fair_topped_of_nonneg sign heavy found weighty
  · have opposite := @fair_topped_of_nonneg (-amount) _ _ _ (by omega) heavy found weighty
    have turned := opposite.neg
    rwa [← topped_neg, Int.neg_neg] at turned

/-! ### Between nothing and the amount -/

/-- A value between zero and an amount of either sign. -/
def Between (amount value : Int) : Prop := min 0 amount ≤ value ∧ value ≤ max 0 amount

theorem Between.neg {amount value : Int} (between : Between amount value) :
    Between (-amount) (-value) := by
  unfold Between at between ⊢
  omega

theorem sum_take_share {amount : Int} {weights : List Int} (positive : 0 < weights.sum)
    (heavy : ∀ weight ∈ weights, 0 ≤ weight) (count : Nat) :
    Between amount ((weights.map (share weights.sum amount)).take count).sum := by
  have nonneg (amount : Int) (sign : 0 ≤ amount) :
      Between amount ((weights.map (share weights.sum amount)).take count).sum := by
    have taken : ∀ weight ∈ weights.take count, 0 ≤ weight := fun weight member =>
      heavy weight (List.mem_of_mem_take member)
    obtain ⟨atLeast, low, -⟩ := sum_share positive sign taken
    have fewer : (weights.take count).sum ≤ weights.sum := by
      have whole := List.sum_take_add_sum_drop weights count
      have rest : 0 ≤ (weights.drop count).sum :=
        List.sum_nonneg fun weight member => heavy weight (List.mem_of_mem_drop member)
      omega
    have scaled := Int.mul_le_mul_of_nonneg_left fewer sign
    have most := Int.le_of_mul_le_mul_right (low.trans scaled) positive
    rw [← List.map_take]
    unfold Between
    omega
  rcases Int.le_total 0 amount with sign | sign
  · exact nonneg amount sign
  · have turned := (nonneg (-amount) (by omega)).neg
    have shares : weights.map (share weights.sum (-amount)) =
        (weights.map (share weights.sum amount)).map (-·) := by
      rw [List.map_map]
      exact List.map_congr_left fun weight _ => share_neg weights.sum amount weight
    rwa [shares, ← List.map_take, sum_map_neg, Int.neg_neg, Int.neg_neg] at turned

theorem share_between {amount weight : Int} {weights : List Int} (positive : 0 < weights.sum)
    (heavy : ∀ weight ∈ weights, 0 ≤ weight) (member : weight ∈ weights) :
    Between amount (share weights.sum amount weight) := by
  have below := List.single_le_sum heavy weight member
  have nonneg (amount : Int) (sign : 0 ≤ amount) :
      Between amount (share weights.sum amount weight) := by
    obtain ⟨atLeast, low, -⟩ := share_spec positive sign (heavy weight member)
    have scaled := Int.mul_le_mul_of_nonneg_left below sign
    have most := Int.le_of_mul_le_mul_right (low.trans scaled) positive
    unfold Between
    omega
  rcases Int.le_total 0 amount with sign | sign
  · exact nonneg amount sign
  · have turned := (nonneg (-amount) (by omega)).neg
    rwa [share_neg, Int.neg_neg, Int.neg_neg] at turned

/-- No part of a fair split is more than the amount. -/
theorem Fair.between {total amount part : Int} {weights parts : List Int}
    (fair : Fair total amount weights parts) (member : part ∈ parts) : Between amount part := by
  have nonneg {amount part : Int} {parts : List Int} (fair : Fair total amount weights parts)
      (sign : 0 ≤ amount) (member : part ∈ parts) : Between amount part := by
    have below := List.single_le_sum (fair.not_negative sign) part member
    have atLeast := fair.not_negative sign part member
    rw [fair.sum_eq] at below
    unfold Between
    omega
  rcases Int.le_total 0 amount with sign | sign
  · exact nonneg fair sign member
  · have turned := (nonneg fair.neg (by omega) (List.mem_map_of_mem member)).neg
    rwa [Int.neg_neg, Int.neg_neg] at turned

end Shares
