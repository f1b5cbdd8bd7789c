/-
This file is a small theory of two loops over an ascending sequence of points.

`skipTo` goes on until a point is no longer before the first that is wanted, and
`collect` takes points until one is past the last. Where the sequence ascends up to
the first point past the last and the steps to it exist, together they find every
point of the sequence between the two bounds, in order and once. The loops are told
how many rounds they may take; a walk that leaves its bounds within them is not cut
short.
-/

import Mathlib.Order.Basic
import Mathlib.Order.Monotone.Basic
import Mathlib.Data.Nat.Basic
import Mathlib.Order.Nat
import Mathlib.Order.Lattice

namespace AscendingWalk

variable {State Point : Type} [LinearOrder Point] (point : State → Point)
  (next : State → Option State)

/-- `while point < first`, a step, for so many rounds at most; no state where a step is missing. -/
def skipTo (first : Point) : Nat → State → Option State
  | 0, state => some state
  | rounds + 1, state =>
    if point state < first then
      match next state with
      | some later => skipTo first rounds later
      | none => none
    else some state

/-- `while point ≤ last`, take the point and a step, for so many rounds at most. -/
def collect (last : Point) : Nat → State → List Point
  | 0, _ => []
  | rounds + 1, state =>
    if point state ≤ last then
      point state :: match next state with
        | some later => collect last rounds later
        | none => []
    else []

/-- Skip up to the first point that is wanted, then collect up to the last. -/
def walk (first last : Point) (rounds : Nat) (state : State) : List Point :=
  match skipTo point next first rounds state with
  | some reached => collect point next last rounds reached
  | none => []

variable {point next} {states : Nat → State} {first last : Point} {bound : Nat}

theorem skipTo_eq (steps : ∀ index, index < bound → next (states index) = some (states (index + 1)))
    (reached : first ≤ point (states bound)) {index rounds : Nat} (inside : index ≤ bound)
    (enough : bound ≤ index + rounds) :
    ∃ found, found ≤ bound ∧ skipTo point next first rounds (states index) = some (states found) ∧
      first ≤ point (states found) ∧
      ∀ earlier, index ≤ earlier → earlier < found → point (states earlier) < first := by
  induction rounds generalizing index with
  | zero =>
    obtain rfl : index = bound := by omega
    exact ⟨index, le_rfl, rfl, reached, fun earlier start stop => by omega⟩
  | succ rounds inductionHypothesis =>
    by_cases before : point (states index) < first
    · have early : index < bound := by
        refine lt_of_le_of_ne inside fun same => ?_
        rw [same] at before
        exact absurd reached (not_le.mpr before)
      obtain ⟨found, atMost, skipped, wanted, passed⟩ :=
        @inductionHypothesis (index + 1) early (by omega)
      refine ⟨found, atMost, ?_, wanted, fun earlier start stop => ?_⟩
      · rw [skipTo, if_pos before, steps index early]
        exact skipped
      · by_cases here : earlier = index
        · rw [here]
          exact before
        · exact passed earlier (by omega) stop
    · refine ⟨index, inside, ?_, not_lt.mp before, fun earlier start stop => ?_⟩
      · rw [skipTo, if_neg before]
      · omega

theorem collect_eq (steps : ∀ index, index < bound → next (states index) = some (states (index + 1)))
    (upTo : ∀ index, index < bound → point (states index) ≤ last)
    (past : last < point (states bound)) {index rounds : Nat} (inside : index ≤ bound)
    (enough : bound ≤ index + rounds) :
    collect point next last rounds (states index) =
      (List.range' index (bound - index)).map fun index => point (states index) := by
  induction rounds generalizing index with
  | zero =>
    obtain rfl : index = bound := by omega
    rw [Nat.sub_self]
    rfl
  | succ rounds inductionHypothesis =>
    rw [collect]
    by_cases early : index < bound
    · obtain ⟨left, split⟩ : ∃ left, bound - index = left + 1 := ⟨bound - index - 1, by omega⟩
      have tail := @inductionHypothesis (index + 1) early (by omega)
      rw [show bound - (index + 1) = left by omega] at tail
      rw [if_pos (upTo index early), steps index early, split, List.range'_succ, List.map_cons]
      exact congrArg _ tail
    · obtain rfl : index = bound := by omega
      rw [if_neg (not_le.mpr past), Nat.sub_self]
      rfl

theorem walk_spec (steps : ∀ index, index < bound → next (states index) = some (states (index + 1)))
    (ascending : ∀ index later, index < later → later < bound →
      point (states index) < point (states later))
    (upTo : ∀ index, index < bound → point (states index) ≤ last)
    (past : last < point (states bound)) (ordered : first ≤ last) {rounds : Nat}
    (enough : bound ≤ rounds) :
    (walk point next first last rounds (states 0)).Pairwise (· < ·) ∧
      ∀ wanted, wanted ∈ walk point next first last rounds (states 0) ↔
        ∃ index, index < bound ∧ point (states index) = wanted ∧ first ≤ wanted := by
  have enoughHere : bound ≤ 0 + rounds := by omega
  obtain ⟨found, atMost, skipped, reached, passed⟩ :=
    skipTo_eq steps (ordered.trans past.le) (Nat.zero_le _) enoughHere
  rw [walk, skipped]
  dsimp only
  rw [collect_eq steps upTo past atMost (by omega)]
  constructor
  · refine List.pairwise_map.mpr ?_
    refine List.Pairwise.imp_of_mem (fun _ later less => ?_) List.pairwise_lt_range'
    have inside := List.mem_range'_1.mp later
    exact ascending _ _ less (by omega)
  · intro wanted
    simp only [List.mem_map, List.mem_range'_1]
    constructor
    · rintro ⟨index, ⟨start, stop⟩, rfl⟩
      refine ⟨index, by omega, rfl, ?_⟩
      rcases start.lt_or_eq with later | rfl
      · exact reached.trans (ascending found index later (by omega)).le
      · exact reached
    · rintro ⟨index, early, rfl, atLeast⟩
      refine ⟨index, ⟨?_, by omega⟩, rfl⟩
      by_contra skippedOver
      exact absurd (passed index (Nat.zero_le _) (by omega)) (not_lt.mpr atLeast)

/-! ### Two walks over the same points -/

section Renamed

variable {Other : Type} {view : Other → Point} {step : Other → Option Other}
  {rename : State → Other}

theorem skipTo_map (views : ∀ state, view (rename state) = point state)
    (steps : ∀ state, step (rename state) = (next state).map rename) (rounds : Nat)
    (state : State) :
    skipTo view step first rounds (rename state) =
      (skipTo point next first rounds state).map rename := by
  induction rounds generalizing state with
  | zero => rfl
  | succ rounds inductionHypothesis =>
    rw [skipTo, skipTo, views, steps]
    by_cases before : point state < first
    · rw [if_pos before, if_pos before]
      cases next state with
      | none => rfl
      | some later => exact inductionHypothesis later
    · rw [if_neg before, if_neg before]
      rfl

theorem collect_map (views : ∀ state, view (rename state) = point state)
    (steps : ∀ state, step (rename state) = (next state).map rename) (rounds : Nat)
    (state : State) :
    collect view step last rounds (rename state) = collect point next last rounds state := by
  induction rounds generalizing state with
  | zero => rfl
  | succ rounds inductionHypothesis =>
    rw [collect, collect, views, steps]
    by_cases inside : point state ≤ last
    · rw [if_pos inside, if_pos inside]
      cases next state with
      | none => rfl
      | some later => exact congrArg _ (inductionHypothesis later)
    · rw [if_neg inside, if_neg inside]

theorem walk_map (views : ∀ state, view (rename state) = point state)
    (steps : ∀ state, step (rename state) = (next state).map rename) (rounds : Nat)
    (state : State) :
    walk view step first last rounds (rename state) =
      walk point next first last rounds state := by
  rw [walk, walk, skipTo_map views steps]
  cases skipTo point next first rounds state with
  | none => rfl
  | some reached => exact collect_map views steps rounds reached

end Renamed

variable {rounds : Nat} {Holds : State → Prop}

/-! ### What holds of every point -/

theorem holds_of_skipTo {state reached : State}
    (keeps : ∀ state later, next state = some later → Holds state → Holds later)
    (holds : Holds state) (skipped : skipTo point next first rounds state = some reached) :
    Holds reached := by
  induction rounds generalizing state with
  | zero =>
    obtain rfl := Option.some.inj skipped
    exact holds
  | succ rounds inductionHypothesis =>
    rw [skipTo] at skipped
    split_ifs at skipped with before
    · cases following : next state with
      | none =>
        rw [following] at skipped
        exact nomatch skipped
      | some later =>
        rw [following] at skipped
        exact inductionHypothesis (keeps state later following holds) skipped
    · obtain rfl := Option.some.inj skipped
      exact holds

/-! ### A walk whose steps go forward -/

theorem collect_ascends {state : State}
    (forward : ∀ state later, next state = some later → Holds state →
      Holds later ∧ point state < point later) (holds : Holds state) :
    (∀ found ∈ collect point next last rounds state, point state ≤ found) ∧
      (collect point next last rounds state).Pairwise (· < ·) := by
  induction rounds generalizing state with
  | zero => exact ⟨fun _ member => absurd member List.not_mem_nil, .nil⟩
  | succ rounds inductionHypothesis =>
    rw [collect]
    split_ifs with inside
    · cases following : next state with
      | none => exact ⟨fun found member => (List.mem_singleton.mp member).ge,
          List.pairwise_singleton _ _⟩
      | some later =>
        obtain ⟨kept, less⟩ := forward state later following holds
        obtain ⟨atLeast, ascends⟩ := inductionHypothesis kept
        refine ⟨fun found member => ?_, List.pairwise_cons.mpr ⟨fun found member => ?_, ascends⟩⟩
        · rcases List.mem_cons.mp member with rfl | behind
          · exact le_rfl
          · exact less.le.trans (atLeast found behind)
        · exact less.trans_le (atLeast found member)
    · exact ⟨fun _ member => absurd member List.not_mem_nil, .nil⟩

theorem walk_ascends (Holds : State → Prop) {state : State}
    (forward : ∀ state later, next state = some later → Holds state →
      Holds later ∧ point state < point later) (holds : Holds state) :
    (walk point next first last rounds state).Pairwise (· < ·) := by
  rw [walk]
  cases skipped : skipTo point next first rounds state with
  | none => exact .nil
  | some reached =>
    have kept := holds_of_skipTo (fun state later following held =>
      (forward state later following held).1) holds skipped
    exact (collect_ascends forward kept).2

end AscendingWalk
