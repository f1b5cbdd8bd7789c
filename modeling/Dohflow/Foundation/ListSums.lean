/-
This file is about sums over the items of a list that a condition selects.

A condition may be moved into the amounts (`sum_map_filter`), so a sum over a list without
repetitions is one over its items as a set (`sum_map_filter_nodup`), and the sums of the
items of each key, one after another, are the sum of all items whose key is among them
(`sum_fibers`).
-/

import Mathlib.Algebra.BigOperators.Group.Finset.Piecewise

namespace ListSums

variable {Item Key M : Type*} [AddCommMonoid M]

theorem sum_map_filter (selects : Item → Prop) [DecidablePred selects] (amount : Item → M)
    (items : List Item) : ((items.filter fun item => selects item).map amount).sum =
      (items.map fun item => if selects item then amount item else 0).sum := by
  induction items with
  | nil => rfl
  | cons item rest inductionHypothesis =>
    rw [List.filter_cons, List.map_cons, List.sum_cons, ← inductionHypothesis]
    by_cases chosen : selects item
    · rw [if_pos (decide_eq_true chosen), List.map_cons, List.sum_cons, if_pos chosen]
    · rw [if_neg (by simpa using chosen), if_neg chosen, zero_add]

theorem sum_map_filter_nodup [DecidableEq Key] {key : Item → Key} {items : List Item}
    (distinct : (items.map key).Nodup) (selects : Key → Prop) [DecidablePred selects]
    (amount : Key → M) :
    ((items.filter fun item => selects (key item)).map fun item => amount (key item)).sum =
      ∑ k ∈ (items.map key).toFinset with selects k, amount k := by
  rw [sum_map_filter (fun item => selects (key item)), Finset.sum_filter,
    List.sum_toFinset _ distinct, List.map_map]
  rfl

theorem sum_flatMap (amounts : Item → List M) (items : List Item) :
    (items.flatMap amounts).sum = (items.map fun item => (amounts item).sum).sum := by
  induction items with
  | nil => rfl
  | cons item rest inductionHypothesis =>
    rw [List.flatMap_cons, List.sum_append, inductionHypothesis, List.map_cons, List.sum_cons]

theorem sum_map_neg {G : Type*} [AddCommGroup G] (amount : Item → G) (items : List Item) :
    (items.map fun item => -amount item).sum = -(items.map amount).sum := by
  rw [List.sum_neg, List.map_map]
  rfl

theorem sum_comm (amount : Item → Key → M) (items : List Item) (keys : List Key) :
    (items.map fun item => (keys.map (amount item)).sum).sum =
      (keys.map fun k => (items.map fun item => amount item k).sum).sum := by
  induction items with
  | nil =>
    simp
  | cons item rest inductionHypothesis =>
    rw [List.map_cons, List.sum_cons, inductionHypothesis, ← List.sum_map_add]
    simp only [List.map_cons, List.sum_cons]

theorem sum_fibers [DecidableEq Key] {key : Item → Option Key} {keys : List Key}
    (distinct : keys.Nodup) (amount : Item → M) (items : List Item) :
    (keys.map fun k => ((items.filter fun item => key item = some k).map amount).sum).sum =
      ((items.filter fun item => ∃ k ∈ keys, key item = some k).map amount).sum := by
  induction items with
  | nil =>
    simp
  | cons item rest inductionHypothesis =>
    have split (k : Key) : (((item :: rest).filter fun item => key item = some k).map amount).sum =
        (if key item = some k then amount item else 0) +
          ((rest.filter fun item => key item = some k).map amount).sum := by
      rw [List.filter_cons]
      by_cases here : key item = some k
      · rw [if_pos (decide_eq_true here), if_pos here, List.map_cons, List.sum_cons]
      · rw [if_neg (by simpa using here), if_neg here, zero_add]
    simp only [split, List.sum_map_add, inductionHypothesis]
    have once : (keys.map fun k => if key item = some k then amount item else 0).sum =
        if ∃ k ∈ keys, key item = some k then amount item else 0 := by
      cases own : key item with
      | none => simp
      | some k =>
        rw [← List.sum_toFinset _ distinct]
        simp only [Option.some_inj, Finset.sum_ite_eq, List.mem_toFinset, exists_eq_right']
    rw [once, List.filter_cons]
    by_cases here : ∃ k ∈ keys, key item = some k
    · rw [if_pos here, if_pos (decide_eq_true here), List.map_cons, List.sum_cons]
    · rw [if_neg here, if_neg (by simpa using here), zero_add]

end ListSums
