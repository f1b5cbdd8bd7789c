/-
This file collects what can be said of a verifier that stops at its first
refusal, without saying what it verifies.

Such a verifier is a chain of conditions, each with the failure it earns, and a
loop that feeds the inputs of a list to one step, stopping where the step
refuses. The step is told the position of its input in the list, which only its
failures may mention. The rules here take the chain apart (`bind_eq_ok`,
`ensure_bind_eq_ok`) and carry a fact about one step over the whole loop: a
transitive relation between states (`applyFrom_relates`), a simulation by another
step (`applyFrom_simulates`), a step that leaves the state alone
(`applyFrom_fixed`), and where a refusal came from (`applyFrom_eq_error`).
-/

import Mathlib.Logic.Basic
import Mathlib.Tactic.TypeStar

namespace Fallible

universe u v

variable {Failure : Type u} {Value Result : Type v}
variable {condition : Prop} {attempt : Except Failure Value} {failure : Failure}
  {next : Value → Except Failure Result} {Outcome : Type}

/-! ### Conditions and their failures -/

/-- What an option holds is checked on its value, never on every value of the type. -/
instance (priority := high) decidableForallHeld {Held : Type*} {holds : Held → Prop}
    [DecidablePred holds] (found : Option Held) : Decidable (∀ value, value ∈ found → holds value) :=
  Option.decidableForallMem found

/-- What a list holds is checked on its items, never on every value of the type. -/
instance (priority := high) decidableForallListed {Item : Type*} {holds : Item → Prop}
    [DecidablePred holds] (items : List Item) : Decidable (∀ item, item ∈ items → holds item) :=
  List.decidableBAll holds items

/-- Carry on when the condition holds, otherwise stop with the failure. -/
def ensure (condition : Prop) [Decidable condition] (failure : Failure) : Except Failure Unit :=
  if condition then .ok () else .error failure

theorem exists_ok_of_isOk (attempt : Except Failure Value) (passed : attempt.isOk = true) :
    ∃ value, attempt = .ok value := by
  cases attempt with
  | ok value => exact ⟨value, rfl⟩
  | error failure => cases passed

theorem bind_eq_ok {result : Result} :
    (attempt >>= next) = .ok result ↔ ∃ value, attempt = .ok value ∧ next value = .ok result := by
  cases attempt with
  | error failure => simp [bind, Except.bind]
  | ok value => simp [bind, Except.bind]

/-- A check that passes, and then the rest. -/
theorem check_bind_eq_ok {Failure Outcome : Type} {attempt : Except Failure Unit}
    {next : Unit → Except Failure Outcome} {result : Outcome} :
    (attempt >>= next) = .ok result ↔ attempt = .ok () ∧ next () = .ok result := by
  rw [bind_eq_ok]
  constructor
  · rintro ⟨⟨⟩, passed, continued⟩
    exact ⟨passed, continued⟩
  · rintro ⟨passed, continued⟩
    exact ⟨(), passed, continued⟩

theorem bind_eq_error :
    (attempt >>= next) = .error failure ↔
      attempt = .error failure ∨ ∃ value, attempt = .ok value ∧ next value = .error failure := by
  cases attempt with
  | error other => simp [bind, Except.bind]
  | ok value => simp [bind, Except.bind]

@[simp] theorem ok_bind (value : Value) (next : Value → Except Failure Result) :
    (Except.ok value >>= next) = next value := rfl

@[simp] theorem error_bind (failure : Failure) (next : Value → Except Failure Result) :
    (Except.error failure >>= next) = .error failure := rfl

theorem ensure_of [Decidable condition] (holds : condition) (failure : Failure) :
    ensure condition failure = .ok () := if_pos holds

theorem ensure_of_not [Decidable condition] (fails : ¬ condition) (failure : Failure) :
    ensure condition failure = .error failure := if_neg fails

@[simp] theorem ensure_eq_ok [Decidable condition] {passed : Unit} :
    ensure condition failure = .ok passed ↔ condition := by
  by_cases holds : condition
  · exact ⟨fun _ => holds, fun _ => ensure_of holds failure⟩
  · rw [ensure_of_not holds]
    exact ⟨fun accepted => (nomatch accepted), fun claimed => absurd claimed holds⟩

theorem ensure_bind_eq_ok [Decidable condition] {next : Unit → Except Failure Outcome}
    {result : Outcome} :
    (ensure condition failure >>= next) = .ok result ↔ condition ∧ next () = .ok result := by
  rw [bind_eq_ok]
  constructor
  · rintro ⟨⟨⟩, passed, continued⟩
    exact ⟨ensure_eq_ok.mp passed, continued⟩
  · rintro ⟨holds, continued⟩
    exact ⟨(), ensure_of holds failure, continued⟩

theorem ensure_bind_eq_error [Decidable condition] {failure other : Failure}
    {next : Unit → Except Failure Outcome} :
    (ensure condition failure >>= next) = .error other ↔
      (¬ condition ∧ failure = other) ∨ (condition ∧ next () = .error other) := by
  by_cases holds : condition
  · rw [ensure_of holds]
    simp [holds]
  · rw [ensure_of_not holds]
    simp [holds]

theorem mapError_eq_ok {Other : Type*} {translate : Failure → Other} {value : Value} :
    attempt.mapError translate = .ok value ↔ attempt = .ok value := by
  cases attempt with
  | ok found =>
    constructor
    · intro accepted
      exact congrArg Except.ok (Except.ok.inj accepted)
    · intro accepted
      exact congrArg Except.ok (Except.ok.inj accepted)
  | error failure =>
    constructor
    · intro accepted
      cases accepted
    · intro accepted
      cases accepted

theorem eq_some_getD {Value : Type} {result : Option Value} (found : result.isSome = true)
    (default : Value) : result = some (result.getD default) := by
  cases result with
  | none => cases found
  | some value => rfl

/-- What an option holds, or the failure. -/
def orFail (failure : Failure) : Option Value → Except Failure Value
  | some value => .ok value
  | none => .error failure

@[simp] theorem orFail_eq_ok {option : Option Value} {value : Value} :
    orFail failure option = .ok value ↔ option = some value := by
  cases option with
  | none =>
    constructor
    · intro passed
      cases passed
    · intro held
      cases held
  | some held =>
    constructor
    · intro passed
      exact congrArg some (Except.ok.inj passed)
    · intro same
      exact congrArg Except.ok (Option.some.inj same)

/-! ### Optional values for the items of a list -/

section

variable {Item Other : Type} {find : Item → Option Other}

theorem map_eq_of_mapM_option {known : Item → Other}
    (each : ∀ item found, find item = some found → known item = found) {items : List Item}
    {words : List Other} (found : items.mapM find = some words) : items.map known = words := by
  induction items generalizing words with
  | nil => exact Option.some.inj found
  | cons item rest inductionHypothesis =>
    rw [List.mapM_cons] at found
    obtain ⟨word, here, found⟩ := Option.bind_eq_some_iff.mp found
    obtain ⟨later, there, found⟩ := Option.bind_eq_some_iff.mp found
    rw [List.map_cons, each item word here, inductionHypothesis there]
    exact Option.some.inj found

theorem isSome_mapM {items : List Item} :
    (items.mapM find).isSome = true ↔ ∀ item ∈ items, (find item).isSome = true := by
  induction items with
  | nil => exact iff_of_true rfl fun _ member => absurd member List.not_mem_nil
  | cons item rest inductionHypothesis =>
    rw [List.mapM_cons, List.forall_mem_cons, ← inductionHypothesis]
    cases find item with
    | none => exact iff_of_false Bool.false_ne_true fun both => Bool.false_ne_true both.1
    | some word =>
      cases rest.mapM find with
      | none => exact iff_of_false Bool.false_ne_true fun both => Bool.false_ne_true both.2
      | some later => exact iff_of_true rfl ⟨rfl, rfl⟩

end

/-! ### Which failures are possible -/

/-- Every failure the attempt can end in is an allowed one. -/
def FailsOnly (allowed : Failure → Prop) (attempt : Except Failure Value) : Prop :=
  ∀ failure, attempt = .error failure → allowed failure

variable {allowed : Failure → Prop}

theorem failsOnly_ok (value : Value) : FailsOnly allowed (.ok value : Except Failure Value) :=
  fun _ failed => (nomatch failed)

theorem failsOnly_error (permitted : allowed failure) :
    FailsOnly allowed (.error failure : Except Failure Value) :=
  fun _ failed => Except.error.inj failed ▸ permitted

theorem failsOnly_ensure [Decidable condition] (permitted : allowed failure) :
    FailsOnly allowed (ensure condition failure) := by
  unfold ensure
  split
  · exact failsOnly_ok ()
  · exact failsOnly_error permitted

theorem FailsOnly.bind (first : FailsOnly allowed attempt)
    (second : ∀ value, attempt = .ok value → FailsOnly allowed (next value)) :
    FailsOnly allowed (attempt >>= next) := by
  intro failure failed
  obtain failed | ⟨value, reached, failed⟩ := bind_eq_error.mp failed
  · exact first failure failed
  · exact second value reached failure failed

theorem failsOnly_ensure_bind [Decidable condition] {next : Unit → Except Failure Outcome}
    (permitted : allowed failure) (second : condition → FailsOnly allowed (next ())) :
    FailsOnly allowed (ensure condition failure >>= next) := by
  intro other failed
  obtain ⟨_, rfl⟩ | ⟨holds, failed⟩ := ensure_bind_eq_error.mp failed
  · exact permitted
  · exact second holds other failed

theorem failsOnly_mapError {Other : Type*} {translate : Other → Failure}
    (attempt : Except Other Value) (permitted : ∀ failure, allowed (translate failure)) :
    FailsOnly allowed (attempt.mapError translate) := by
  cases attempt with
  | ok value => exact failsOnly_ok value
  | error failure => exact failsOnly_error (permitted failure)

/-! ### What a stateful attempt returns -/

section

variable {State Found Returned : Type}
variable {holds : Found → Prop}

/-- Every value the attempt can return, from any state, is one of these. -/
def Yields (attempt : StateT State (Except Failure) Found) (holds : Found → Prop) : Prop :=
  ∀ before value after, attempt.run before = .ok (value, after) → holds value

theorem yields_any (attempt : StateT State (Except Failure) Found) :
    Yields attempt fun _ => True :=
  fun _ _ _ _ => trivial

theorem yields_pure {value : Found} (held : holds value) :
    Yields (pure value : StateT State (Except Failure) Found) holds := by
  intro before found after returned
  obtain ⟨rfl, _⟩ := Prod.mk.inj (Except.ok.inj returned)
  exact held

theorem yields_refusal {attempt : StateT State (Except Failure) Found}
    (refuses : ∀ before, ∃ failure, attempt.run before = .error failure) :
    Yields attempt holds := by
  intro before value after returned
  obtain ⟨failure, refused⟩ := refuses before
  rw [refused] at returned
  cases returned

theorem yields_liftM {attempt : Except Failure Found}
    (held : ∀ value, attempt = .ok value → holds value) :
    Yields (liftM attempt : StateT State (Except Failure) Found) holds := by
  intro before value after returned
  cases attempt with
  | error failure => cases returned
  | ok found =>
    obtain ⟨rfl, _⟩ := Prod.mk.inj (Except.ok.inj returned)
    exact held found rfl

theorem Yields.bind {attempt : StateT State (Except Failure) Found} {kept : Found → Prop}
    {next : Found → StateT State (Except Failure) Returned} {holds : Returned → Prop}
    (first : Yields attempt kept) (second : ∀ value, kept value → Yields (next value) holds) :
    Yields (attempt >>= next) holds := by
  intro before result after returned
  rw [StateT.run_bind, bind_eq_ok] at returned
  obtain ⟨found, reached, continued⟩ := returned
  exact second found.1 (first before found.1 found.2 reached) found.2 result after continued

/-- Nothing is known of the first value. -/
theorem yields_bind {attempt : StateT State (Except Failure) Found}
    {next : Found → StateT State (Except Failure) Returned} {holds : Returned → Prop}
    (second : ∀ value, Yields (next value) holds) : Yields (attempt >>= next) holds :=
  (yields_any attempt).bind fun value _ => second value

end

/-! ### Feeding a list of inputs to a step -/

variable {State : Type v} {Input : Type*}

/-- Feed the inputs to the step in order, counting positions from `position`, and stop at the
first refusal. -/
def applyFrom (step : State → Nat → Input → Except Failure State) (position : Nat) (state : State) :
    List Input → Except Failure State
  | [] => .ok state
  | input :: rest => do
    let next ← step state position input
    applyFrom step (position + 1) next rest

/-- A step whose success does not depend on the position it is told. -/
def Positionless (step : State → Nat → Input → Except Failure State) : Prop :=
  ∀ ⦃state input next⦄ (first second : Nat),
    step state first input = .ok next → step state second input = .ok next

variable {step : State → Nat → Input → Except Failure State}
variable {inputs : List Input} {state final : State} (position : Nat)

@[simp] theorem applyFrom_nil (state : State) : applyFrom step position state [] = .ok state := rfl

theorem applyFrom_cons (state : State) (input : Input) (rest : List Input) :
    applyFrom step position state (input :: rest) =
      (step state position input >>= fun next => applyFrom step (position + 1) next rest) := rfl

theorem applyFrom_append (state : State) (first second : List Input) :
    applyFrom step position state (first ++ second) =
      (applyFrom step position state first >>= fun next =>
        applyFrom step (position + first.length) next second) := by
  induction first generalizing position state with
  | nil => rfl
  | cons input rest inductionHypothesis =>
    rw [List.cons_append, applyFrom_cons, applyFrom_cons]
    cases step state position input with
    | error failure => rfl
    | ok next =>
      rw [ok_bind, ok_bind, inductionHypothesis, List.length_cons]
      rw [show position + 1 + rest.length = position + (rest.length + 1) by omega]

theorem applyFrom_relates {Related : State → State → Prop} (refl : ∀ state, Related state state)
    (trans : ∀ first second third, Related first second → Related second third →
      Related first third)
    (each : ∀ state position input next, step state position input = .ok next → Related state next)
    {position : Nat} (run : applyFrom step position state inputs = .ok final) :
    Related state final := by
  induction inputs generalizing position state with
  | nil =>
    obtain rfl : state = final := Except.ok.inj run
    exact refl state
  | cons input rest inductionHypothesis =>
    obtain ⟨next, stepped, continued⟩ := bind_eq_ok.mp run
    exact trans _ _ _ (each _ _ _ _ stepped) (inductionHypothesis continued)

theorem applyFrom_simulates {Other : Type v}
    {otherStep : Other → Nat → Input → Except Failure Other} {Related : State → Other → Prop}
    (each : ∀ state other first second input next, Related state other →
      step state first input = .ok next →
      ∃ otherNext, otherStep other second input = .ok otherNext ∧ Related next otherNext)
    {first : Nat} (second : Nat) {other : Other} (related : Related state other)
    (run : applyFrom step first state inputs = .ok final) :
    ∃ otherFinal, applyFrom otherStep second other inputs = .ok otherFinal ∧
      Related final otherFinal := by
  induction inputs generalizing first second state other with
  | nil =>
    obtain rfl : state = final := Except.ok.inj run
    exact ⟨other, rfl, related⟩
  | cons input rest inductionHypothesis =>
    obtain ⟨next, stepped, continued⟩ := bind_eq_ok.mp run
    obtain ⟨otherNext, otherStepped, relatedNext⟩ :=
      each _ _ _ second _ _ related stepped
    obtain ⟨otherFinal, otherContinued, relatedFinal⟩ :=
      inductionHypothesis (second + 1) relatedNext continued
    exact ⟨otherFinal, bind_eq_ok.mpr ⟨otherNext, otherStepped, otherContinued⟩, relatedFinal⟩

theorem applyFrom_reposition (positionless : Positionless step) {first : Nat} (second : Nat)
    (run : applyFrom step first state inputs = .ok final) :
    applyFrom step second state inputs = .ok final := by
  have matched : ∀ state other first second input next, state = other →
      step state first input = .ok next → ∃ otherNext, step other second input = .ok otherNext ∧
        next = otherNext := by
    rintro state _ first second input next rfl stepped
    exact ⟨next, positionless first second stepped, rfl⟩
  obtain ⟨_, moved, rfl⟩ := applyFrom_simulates matched second (rfl : state = state) run
  exact moved

theorem applyFrom_fixed {state : State}
    (fixed : ∀ input ∈ inputs, ∀ position, step state position input = .ok state) (position : Nat) :
    applyFrom step position state inputs = .ok state := by
  induction inputs generalizing position with
  | nil => rfl
  | cons input rest inductionHypothesis =>
    rw [applyFrom_cons, fixed input List.mem_cons_self, ok_bind]
    exact inductionHypothesis (fun other member => fixed other (List.mem_cons_of_mem _ member)) _

theorem applyFrom_eq_error {position : Nat} {state : State}
    (run : applyFrom step position state inputs = .error failure) :
    ∃ before input after reached, inputs = before ++ input :: after ∧
      applyFrom step position state before = .ok reached ∧
      step reached (position + before.length) input = .error failure := by
  induction inputs generalizing position state with
  | nil => cases run
  | cons input rest inductionHypothesis =>
    rw [applyFrom_cons, bind_eq_error] at run
    obtain refused | ⟨next, stepped, continued⟩ := run
    · exact ⟨[], input, rest, state, rfl, rfl, refused⟩
    · obtain ⟨before, other, after, reached, rfl, accepted, refused⟩ :=
        inductionHypothesis continued
      refine ⟨input :: before, other, after, reached, rfl, ?_, ?_⟩
      · rw [applyFrom_cons, stepped, ok_bind, accepted]
      · rw [List.length_cons, show position + (before.length + 1) = position + 1 + before.length
          by omega]
        exact refused

theorem applyFrom_mem {position : Nat} {input : Input} (member : input ∈ inputs)
    (run : applyFrom step position state inputs = .ok final) :
    ∃ before after reached next, inputs = before ++ input :: after ∧
      applyFrom step position state before = .ok reached ∧
      step reached (position + before.length) input = .ok next ∧
      applyFrom step (position + before.length + 1) next after = .ok final := by
  obtain ⟨before, after, rfl⟩ := List.append_of_mem member
  rw [applyFrom_append, bind_eq_ok] at run
  obtain ⟨reached, accepted, continued⟩ := run
  obtain ⟨next, stepped, finished⟩ := bind_eq_ok.mp continued
  exact ⟨before, after, reached, next, rfl, accepted, stepped, finished⟩

end Fallible
