/-
This file counts the marks of a list whose entries carry a running count.

Each marked entry raises the count by one and each other entry repeats it, so
every value the count passes on its way is reached by exactly one mark.
-/

import Mathlib.Data.List.Chain

namespace Tally

variable {Entry : Type*} {count : Entry → Nat} {marked : Entry → Bool}

/-- The next entry raises the count by one if it is marked and repeats it otherwise. -/
def Raises (count : Entry → Nat) (marked : Entry → Bool) (before after : Entry) : Prop :=
  count after = count before + if marked after then 1 else 0

theorem Raises.of_marked {before after : Entry} (raises : Raises count marked before after)
    (mark : marked after = true) : count after = count before + 1 := by
  rw [raises, if_pos mark]

theorem Raises.of_not_marked {before after : Entry} (raises : Raises count marked before after)
    (mark : marked after = false) : count after = count before := by
  rw [raises, mark]
  rfl

theorem filter_eq_nil {first : Entry} {rest : List Entry} {target : Nat}
    (chain : (first :: rest).IsChain (Raises count marked)) (past : target ≤ count first) :
    rest.filter (fun entry => marked entry && count entry = target) = [] := by
  induction rest generalizing first with
  | nil => rfl
  | cons second rest inductionHypothesis =>
    obtain ⟨raises, chain⟩ := List.isChain_cons_cons.mp chain
    cases mark : marked second with
    | false =>
      rw [List.filter_cons_of_neg (by simp [mark])]
      exact inductionHypothesis chain (past.trans_eq (raises.of_not_marked mark).symm)
    | true =>
      have above := raises.of_marked mark
      rw [List.filter_cons_of_neg (by simp [mark]; omega)]
      exact inductionHypothesis chain (by omega)

theorem filter_eq_singleton {first last : Entry} {rest : List Entry} {target : Nat}
    (chain : (first :: rest).IsChain (Raises count marked))
    (ends : (first :: rest).getLast? = some last) (above : count first < target)
    (reached : target ≤ count last) :
    ∃ entry, rest.filter (fun entry => marked entry && count entry = target) = [entry] := by
  induction rest generalizing first with
  | nil =>
    obtain rfl : first = last := by simpa using ends
    omega
  | cons second rest inductionHypothesis =>
    obtain ⟨raises, chain⟩ := List.isChain_cons_cons.mp chain
    have ends : (second :: rest).getLast? = some last := by simpa using ends
    cases mark : marked second with
    | false =>
      rw [List.filter_cons_of_neg (by simp [mark])]
      exact inductionHypothesis chain ends (by rw [raises.of_not_marked mark]; exact above)
    | true =>
      have counted := raises.of_marked mark
      by_cases hit : count second = target
      · refine ⟨second, ?_⟩
        rw [List.filter_cons_of_pos (by simp [mark, hit]), filter_eq_nil chain hit.ge]
      · rw [List.filter_cons_of_neg (by simp [hit])]
        exact inductionHypothesis chain ends (by omega)

end Tally
