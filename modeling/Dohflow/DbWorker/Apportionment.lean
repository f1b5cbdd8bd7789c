/-
This file models how a planned change of a household's spend is split over its accounts,
and proves when the split loses nothing.

A change to the monthly spend on a category is given to the accounts by what each of them
spends on it: every account gets its share cut to whole cents, and the account that spends
most gets what is left over. Each change is split on its own, so one change is looked at
first and then a list of them. The sum of what the accounts spend is taken in 64 bits;
where it does not fit, there is no split at all.
-/

import Dohflow.Foundation.Shares
import Dohflow.ForecastEngine.SpendOverlay

namespace Dohflow.DbWorker

open ForecastEngine MachineIntegers Shares

variable {models : List (Option SpendModel)} {adjustment : SpendAdjustment} {weights : List Int}
  {out given : List (List SpendAdjustment)}

/-! ### The split -/

/-- What each account spends on a category in a month, by its model. -/
def weightsOf (models : List (Option SpendModel)) (category : String) : List Int :=
  models.map fun model => max ((model.bind (·.expectedMonthly category)).getD 0) 0

/-- The share of a weight, as far as it is an `i64`. -/
def partOf (delta total weight : Int) : Int :=
  if InI64 (share total delta weight) then share total delta weight else 0

/-- The first of the greatest weights. -/
def heaviest (weights : List Int) : Option Nat :=
  weights.max?.map fun greatest => weights.idxOf greatest

/-- The parts of a change, what is left over added to the part of the heaviest. -/
def splitDelta (delta total : Int) (weights : List Int) : Option (List Int) := do
  let parts := weights.map (partOf delta total)
  let assigned ← checkedSum 0 parts
  match heaviest weights with
  | none => return parts
  | some index => do
    let remainder ← checkedI64 (delta - assigned)
    let part ← checkedI64 (parts.getD index 0 + remainder)
    return parts.set index part

/-- A part of a change, added to the changes of an account unless it is nothing. -/
def pushPart (adjustment : SpendAdjustment) (rows : List SpendAdjustment) (part : Int) :
    List SpendAdjustment :=
  if part ≠ 0 then rows ++ [{ adjustment with deltaCentsPerMonth := part }] else rows

/-- Split one change over the accounts; a change that no account models is dropped. -/
def apportionOne (models : List (Option SpendModel)) (out : List (List SpendAdjustment))
    (adjustment : SpendAdjustment) : Option (List (List SpendAdjustment)) := do
  let weights := weightsOf models adjustment.category
  let total ← checkedSum 0 weights
  if total ≤ 0 then return out
  let parts ← splitDelta adjustment.deltaCentsPerMonth total weights
  return List.zipWith (pushPart adjustment) out parts

/-- Split every change over the accounts, one after another. -/
def apportionAdjustments (adjustments : List SpendAdjustment) (models : List (Option SpendModel)) :
    Option (List (List SpendAdjustment)) :=
  adjustments.foldlM (apportionOne models) (models.map fun _ => [])

/-! ### What a split is for -/

/-- The parts of one change: fair where an account spends on its category, and nothing elsewhere. -/
structure SplitOf (models : List (Option SpendModel)) (adjustment : SpendAdjustment)
    (parts : List Int) : Prop where
  length_eq : parts.length = models.length
  fair : (∃ weight ∈ weightsOf models adjustment.category, 0 < weight) →
    Fair (weightsOf models adjustment.category).sum adjustment.deltaCentsPerMonth
      (weightsOf models adjustment.category) parts
  nothing : (¬ ∃ weight ∈ weightsOf models adjustment.category, 0 < weight) →
    ∀ part ∈ parts, part = 0

/-- The changes that an account is given: its part of each, unless it is nothing. -/
def partsGiven (adjustments : List SpendAdjustment) (parts : List (List Int)) (account : Nat) :
    List SpendAdjustment :=
  (adjustments.zip parts).filterMap fun split =>
    let part := split.2.getD account 0
    if part ≠ 0 then some { split.1 with deltaCentsPerMonth := part } else none

/-- Every change is split, and each account has its parts, in the order of the changes. -/
def Apportioned (adjustments : List SpendAdjustment) (models : List (Option SpendModel))
    (out : List (List SpendAdjustment)) : Prop :=
  ∃ parts, List.Forall₂ (SplitOf models) adjustments parts ∧
    out = (List.range models.length).map (partsGiven adjustments parts)

/-! ### One change -/

theorem weightsOf_nonneg {models : List (Option SpendModel)} {category : String} :
    ∀ weight ∈ weightsOf models category, 0 ≤ weight := by
  intro weight member
  obtain ⟨model, -, rfl⟩ := List.mem_map.mp member
  exact le_max_right _ _

theorem heaviest_spec (positive : 0 < weights.sum) :
    ∃ index weight, heaviest weights = some index ∧ weights[index]? = some weight ∧
      0 < weight := by
  unfold heaviest
  cases found : weights.max? with
  | none =>
    rw [List.max?_eq_none_iff.mp found] at positive
    cases positive
  | some greatest =>
    obtain ⟨member, above⟩ := List.max?_eq_some_iff.mp found
    have inside := List.idxOf_lt_length_iff.mpr member
    refine ⟨weights.idxOf greatest, greatest, rfl, ?_, ?_⟩
    · rw [List.getElem?_eq_getElem inside, List.getElem_idxOf inside]
    · by_contra none
      have low := List.sum_le_card_nsmul weights 0 fun weight held => by
        have below := above weight held
        omega
      rw [nsmul_zero] at low
      omega

/-- Nothing is lost on the way: the shares of a change in range are in range, and so is what is
made of them. -/
theorem splitDelta_eq {delta : Int} (inside : InI64 delta) (positive : 0 < weights.sum)
    (heavy : ∀ weight ∈ weights, 0 ≤ weight) :
    ∃ parts, splitDelta delta weights.sum weights = some parts ∧
      Fair weights.sum delta weights parts := by
  obtain ⟨index, weight, heavies, found, weighty⟩ := heaviest_spec positive
  have fair := @fair_topped delta _ _ _ heavy found weighty
  have small {value : Int} (between : Between delta value) : InI64 value := by
    unfold Between at between
    unfold InI64 minI64 maxI64 at inside ⊢
    omega
  have zero : InI64 0 := by decide
  have parts : weights.map (partOf delta weights.sum) =
      weights.map (share weights.sum delta) :=
    List.map_congr_left fun other member => if_pos (small (share_between positive heavy member))
  have assigned : checkedSum 0 (weights.map (share weights.sum delta)) =
      some (weights.map (share weights.sum delta)).sum := by
    refine (checkedSum_of_fits ((fits_iff_take zero).mpr fun count => ?_)).trans
      (congrArg some (Int.zero_add _))
    rw [Int.zero_add]
    exact small (sum_take_share positive heavy count)
  have whole := @sum_take_share delta _ positive heavy weights.length
  rw [List.take_of_length_le (by rw [List.length_map])] at whole
  have remainder : InI64 (delta - (weights.map (share weights.sum delta)).sum) := by
    refine small ?_
    unfold Between at whole ⊢
    omega
  have shared : index < (weights.map (share weights.sum delta)).length := by
    rw [List.length_map]
    exact (List.getElem?_eq_some_iff.mp found).1
  have part : InI64 ((weights.map (share weights.sum delta)).getD index 0 +
      (delta - (weights.map (share weights.sum delta)).sum)) := by
    refine small (fair.between ?_)
    unfold topped
    exact List.mem_set shared _
  refine ⟨topped weights.sum delta weights index, ?_, fair⟩
  unfold splitDelta
  rw [parts]
  dsimp only
  rw [assigned, heavies]
  simp only [Option.bind_eq_bind, Option.bind_some, checkedI64_eq_some.mpr ⟨remainder, rfl⟩,
    checkedI64_eq_some.mpr ⟨part, rfl⟩]
  rfl

theorem sum_pos_iff (heavy : ∀ weight ∈ weights, 0 ≤ weight) :
    0 < weights.sum ↔ ∃ weight ∈ weights, 0 < weight := by
  constructor
  · intro positive
    obtain ⟨index, weight, -, found, weighty⟩ := heaviest_spec positive
    exact ⟨weight, List.mem_of_getElem? found, weighty⟩
  · rintro ⟨weight, member, weighty⟩
    have below := List.single_le_sum heavy weight member
    omega

theorem length_weightsOf (models : List (Option SpendModel)) (category : String) :
    (weightsOf models category).length = models.length := List.length_map _

theorem apportionOne_spec {out : List (List SpendAdjustment)}
    (inside : InI64 adjustment.deltaCentsPerMonth) (long : out.length = models.length)
    (fits : (weightsOf models adjustment.category).sum ≤ maxI64) :
    ∃ parts, SplitOf models adjustment parts ∧
      apportionOne models out adjustment =
        some (List.zipWith (pushPart adjustment) out parts) := by
  have heavy := @weightsOf_nonneg models adjustment.category
  have length := length_weightsOf models adjustment.category
  have summed := checkedSum_of_fits (fits_of_nonneg (le_refl 0) heavy (by omega))
  rw [Int.zero_add] at summed
  unfold apportionOne
  dsimp only
  rw [summed]
  by_cases positive : 0 < (weightsOf models adjustment.category).sum
  · obtain ⟨parts, split, fair⟩ := splitDelta_eq inside positive heavy
    refine ⟨parts, ⟨fair.length_eq.trans length, fun _ => fair, fun none => ?_⟩, ?_⟩
    · exact absurd ((sum_pos_iff heavy).mp positive) none
    · simp only [Option.bind_eq_bind, Option.bind_some, if_neg (not_le.mpr positive), split]
      rfl
  · refine ⟨List.replicate models.length 0, ⟨List.length_replicate, fun some => ?_,
      fun _ part member => (List.mem_replicate.mp member).2⟩, ?_⟩
    · exact absurd ((sum_pos_iff heavy).mpr some) positive
    · simp only [Option.bind_eq_bind, Option.bind_some, if_pos (not_lt.mp positive)]
      rw [← long]
      clear long
      congr 1
      induction out with
      | nil => rfl
      | cons rows rest inductionHypothesis =>
        rw [List.length_cons, List.replicate_succ, List.zipWith_cons_cons, ← inductionHypothesis]
        rfl

theorem fits_of_apportionOne (split : apportionOne models out adjustment = some given) :
    (weightsOf models adjustment.category).sum ≤ maxI64 := by
  obtain ⟨total, summed, -⟩ := Option.bind_eq_some_iff.mp split
  have inside := inI64_of_checkedSum (by decide) summed
  rw [eq_of_checkedSum summed, Int.zero_add] at inside
  exact inside.2

/-! ### All changes -/

theorem getElem?_zipWith_pushPart {out : List (List SpendAdjustment)} {parts : List Int}
    (long : out.length = parts.length) (account : Nat) :
    (List.zipWith (pushPart adjustment) out parts)[account]? =
      out[account]?.map fun rows => rows ++ partsGiven [adjustment] [parts] account := by
  rw [List.getElem?_zipWith]
  cases found : out[account]? with
  | none => rfl
  | some rows =>
    have held : account < parts.length := by
      rw [← long]
      exact (List.getElem?_eq_some_iff.mp found).1
    rw [List.getElem?_eq_getElem held]
    show some (pushPart adjustment rows parts[account]) = _
    have value : parts.getD account 0 = parts[account] := by
      rw [List.getD_eq_getElem?_getD, List.getElem?_eq_getElem held]
      rfl
    unfold pushPart partsGiven
    split_ifs with given
    · simp [given, held]
    · simp [not_not.mp given, held]

theorem apportion_run {models : List (Option SpendModel)} {adjustments : List SpendAdjustment}
    {out : List (List SpendAdjustment)}
    (inside : ∀ adjustment ∈ adjustments, InI64 adjustment.deltaCentsPerMonth)
    (long : out.length = models.length)
    (fits : ∀ adjustment ∈ adjustments, (weightsOf models adjustment.category).sum ≤ maxI64) :
    ∃ parts, List.Forall₂ (SplitOf models) adjustments parts ∧
      ∃ given, adjustments.foldlM (apportionOne models) out = some given ∧
        given.length = models.length ∧
        ∀ account, given[account]? =
          out[account]?.map fun rows => rows ++ partsGiven adjustments parts account := by
  induction adjustments generalizing out with
  | nil =>
    refine ⟨[], .nil, out, rfl, long, fun account => ?_⟩
    cases out[account]? with
    | none => rfl
    | some rows => exact congrArg some (List.append_nil rows).symm
  | cons adjustment rest inductionHypothesis =>
    obtain ⟨own, split, first⟩ := apportionOne_spec (inside adjustment List.mem_cons_self) long
      (fits adjustment List.mem_cons_self)
    have next : (List.zipWith (pushPart adjustment) out own).length = models.length := by
      rw [List.length_zipWith, long, split.length_eq, min_self]
    obtain ⟨parts, splits, given, ran, length, rows⟩ := inductionHypothesis
      (fun other member => inside other (List.mem_cons_of_mem _ member)) next
      fun other member => fits other (List.mem_cons_of_mem _ member)
    refine ⟨own :: parts, .cons split splits, given, ?_, length, fun account => ?_⟩
    · rw [List.foldlM_cons, first]
      exact ran
    · rw [rows, getElem?_zipWith_pushPart (long.trans split.length_eq.symm), Option.map_map]
      cases out[account]? with
      | none => rfl
      | some before =>
        show some (before ++ _ ++ _) = some (before ++ _)
        rw [List.append_assoc]
        congr 2
        unfold partsGiven
        rw [List.zip_cons_cons, List.zip_cons_cons, ← List.filterMap_append]
        rfl

theorem fits_of_apportion {adjustments : List SpendAdjustment}
    (split : adjustments.foldlM (apportionOne models) out = some given) :
    ∀ adjustment ∈ adjustments, (weightsOf models adjustment.category).sum ≤ maxI64 := by
  induction adjustments generalizing out with
  | nil => exact List.forall_mem_nil _
  | cons adjustment rest inductionHypothesis =>
    rw [List.foldlM_cons] at split
    obtain ⟨next, first, later⟩ := Option.bind_eq_some_iff.mp split
    exact List.forall_mem_cons.mpr ⟨fits_of_apportionOne first, inductionHypothesis later⟩

/-- Every planned change is split without loss, in parts of its own sign near the exact shares,
exactly when for each of them the accounts' spend on its category can be summed in 64 bits. -/
theorem apportioned_iff {adjustments : List SpendAdjustment} (models : List (Option SpendModel))
    (inside : ∀ adjustment ∈ adjustments, InI64 adjustment.deltaCentsPerMonth) :
    (∃ out, apportionAdjustments adjustments models = some out ∧
        Apportioned adjustments models out) ↔
      ∀ adjustment ∈ adjustments, (weightsOf models adjustment.category).sum ≤ maxI64 := by
  constructor
  · rintro ⟨out, split, -⟩
    exact fits_of_apportion split
  · intro fits
    obtain ⟨parts, splits, given, ran, length, rows⟩ :=
      @apportion_run _ _ (models.map fun _ => []) inside (List.length_map _) fits
    refine ⟨given, ran, parts, splits, List.ext_getElem? fun account => ?_⟩
    rw [rows, List.getElem?_map, List.getElem?_map, Option.map_map]
    by_cases held : account < models.length
    · rw [List.getElem?_eq_getElem held, List.getElem?_range held]
      rfl
    · rw [List.getElem?_eq_none (not_lt.mp held), List.getElem?_eq_none]
      · rfl
      · rw [List.length_range]
        exact not_lt.mp held

/-- An account that spends so much on groceries in a month. -/
def grocer (cents : Int) : Option SpendModel := some
  { seasonal := []
    overall := [("groceries", ⟨0, cents, cents⟩)]
    seasonalKeys := List.nodup_nil
    overallKeys := List.nodup_singleton _ }

def lessGroceries : SpendAdjustment := ⟨"groceries", -1000, none, none⟩

theorem apportioned_iff_groceries :
    (∃ out, apportionAdjustments [lessGroceries] [grocer 1, none, grocer 2] = some out ∧
        Apportioned [lessGroceries] [grocer 1, none, grocer 2] out) ↔
      ∀ adjustment ∈ [lessGroceries],
        (weightsOf [grocer 1, none, grocer 2] adjustment.category).sum ≤ maxI64 :=
  apportioned_iff [grocer 1, none, grocer 2] (by decide)

/-- Two accounts spend more on a category than 64 bits hold, each of them less, and there is no
split. -/
theorem spend_sum_overflows :
    (∀ model ∈ [grocer (6 * 10 ^ 18), grocer (6 * 10 ^ 18)],
      InI64 ((model.bind (·.expectedMonthly "groceries")).getD 0)) ∧
    ¬ ∃ out, apportionAdjustments [lessGroceries] [grocer (6 * 10 ^ 18), grocer (6 * 10 ^ 18)] =
        some out ∧
      Apportioned [lessGroceries] [grocer (6 * 10 ^ 18), grocer (6 * 10 ^ 18)] out := by
  refine ⟨by decide +kernel, ?_⟩
  rintro ⟨out, split, -⟩
  have none : apportionAdjustments [lessGroceries]
      [grocer (6 * 10 ^ 18), grocer (6 * 10 ^ 18)] = none := by decide +kernel
  rw [none] at split
  cases split

end Dohflow.DbWorker
