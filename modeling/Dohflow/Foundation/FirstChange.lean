/-
This file is about feeding inputs to a step until one of them changes something.

When a step that changes nothing leaves the state as it was, only the first input
that changes something matters (`firstChange`): the inputs before it may be left
out or offered again, and a longer list of inputs that starts the same way ends the
same way.
-/

import Mathlib.Data.List.Basic

namespace Dohflow.FirstChange

universe u v w

variable {State : Type u} {Input : Type v} {Outcome : Type w}

/-- Feed the inputs to the step and collect the outcomes, up to the first that changes something. -/
def untilChange (step : State → Input → State × Outcome) (changes : Outcome → Bool)
    (state : State) : List Input → State × List Outcome
  | [] => (state, [])
  | input :: rest =>
    let result := step state input
    if changes result.2 then (result.1, [result.2])
    else
      let final := untilChange step changes result.1 rest
      (final.1, result.2 :: final.2)

/-- What the first input that changes something does to the state. -/
def firstChange (step : State → Input → State × Outcome) (changes : Outcome → Bool) (state : State)
    (inputs : List Input) : Option (State × Outcome) :=
  (inputs.map (step state)).find? fun result => changes result.2

/-- A step whose outcome changes nothing leaves the state as it was. -/
def InertSteps (step : State → Input → State × Outcome) (changes : Outcome → Bool) : Prop :=
  ∀ state input, changes (step state input).2 = false → (step state input).1 = state

variable {step : State → Input → State × Outcome} {changes : Outcome → Bool} {state : State}

theorem firstChange_cons (input : Input) (rest : List Input) :
    firstChange step changes state (input :: rest) =
      if changes (step state input).2 = true then some (step state input)
      else firstChange step changes state rest := by
  rw [firstChange, List.map_cons, List.find?_cons]
  cases changes (step state input).2 <;> rfl

theorem untilChange_fst (inert : InertSteps step changes) (inputs : List Input) :
    (untilChange step changes state inputs).1 =
      ((firstChange step changes state inputs).map Prod.fst).getD state := by
  induction inputs with
  | nil => rfl
  | cons input rest inductionHypothesis =>
    rw [untilChange, firstChange_cons]
    by_cases change : changes (step state input).2 = true
    · rw [if_pos change, if_pos change]
      rfl
    · rw [if_neg change, if_neg change]
      show (untilChange step changes (step state input).1 rest).1 = _
      rw [inert state input (Bool.eq_false_iff.mpr change)]
      exact inductionHypothesis

theorem find?_untilChange_snd (inert : InertSteps step changes) (inputs : List Input) :
    (untilChange step changes state inputs).2.find? changes =
      (firstChange step changes state inputs).map Prod.snd := by
  induction inputs with
  | nil => rfl
  | cons input rest inductionHypothesis =>
    rw [untilChange, firstChange_cons]
    by_cases change : changes (step state input).2 = true
    · rw [if_pos change, if_pos change]
      exact List.find?_cons_of_pos change
    · rw [if_neg change, if_neg change]
      show List.find? changes
        ((step state input).2 :: (untilChange step changes (step state input).1 rest).2) = _
      rw [List.find?_cons_of_neg change, inert state input (Bool.eq_false_iff.mpr change)]
      exact inductionHypothesis

theorem firstChange_of_prefix {part whole : List Input} (isPrefix : part <+: whole)
    {change : State × Outcome} (first : firstChange step changes state part = some change) :
    firstChange step changes state whole = some change := by
  obtain ⟨rest, rfl⟩ := isPrefix
  rw [firstChange, List.map_append, List.find?_append]
  rw [firstChange] at first
  rw [first]
  rfl

theorem firstChange_congr {other : State → Input → State × Outcome}
    (agree : ∀ input, changes (step state input).2 = true ∨ changes (other state input).2 = true →
      step state input = other state input) (inputs : List Input) :
    firstChange step changes state inputs = firstChange other changes state inputs := by
  induction inputs with
  | nil => rfl
  | cons input rest inductionHypothesis =>
    rw [firstChange_cons, firstChange_cons, inductionHypothesis]
    by_cases change : changes (step state input).2 = true
    · rw [← agree input (.inl change)]
    · by_cases changeOther : changes (other state input).2 = true
      · rw [agree input (.inr changeOther)]
      · rw [if_neg change, if_neg changeOther]

/-! ### What every outcome satisfies -/

theorem untilChange_relates (Related : State → State → List Outcome → Prop)
    (refl : ∀ state, Related state state [])
    (one : ∀ state input final outcomes, Related (step state input).1 final outcomes →
      Related state final ((step state input).2 :: outcomes))
    (state : State) (inputs : List Input) :
    Related state (untilChange step changes state inputs).1
      (untilChange step changes state inputs).2 := by
  induction inputs generalizing state with
  | nil => exact refl state
  | cons input rest inductionHypothesis =>
    rw [untilChange]
    by_cases change : changes (step state input).2 = true
    · rw [if_pos change]
      exact one state input _ [] (refl _)
    · rw [if_neg change]
      exact one state input _ _ (inductionHypothesis _)

end Dohflow.FirstChange
