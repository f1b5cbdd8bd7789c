/-
This file describes programs that act only through requests to their surroundings,
without saying what the requests are.

A program is a tree: it is done, or it makes a request and goes on with the response.
What a response may be, and what the request does to the world, is a relation
(`Serves`). A program can be cut off before any request, and after its last one, so an
execution ends with a value or with none. `Leads` is the rule for what holds however a
program ends; it goes through a fallible program request by request
(`leads_attempt_bind`), stopping at the first failure.
-/

import Mathlib.Logic.Basic

/-- A program whose only effects are its requests. -/
inductive Program (Request : Type) (Response : Request → Type) (Value : Type) : Type
  | done (value : Value)
  | ask (request : Request) (next : Response request → Program Request Response Value)

namespace Program

variable {Request : Type} {Response : Request → Type} {Value Result Failure : Type}

/-- Go on with another program where the first one is done. -/
def bind (program : Program Request Response Value)
    (next : Value → Program Request Response Result) : Program Request Response Result :=
  match program with
  | .done value => next value
  | .ask request rest => .ask request fun response => (rest response).bind next

instance : Monad (Program Request Response) where
  pure := done
  bind := bind

/-- A program that stops at its first failure. -/
abbrev Attempt (Request : Type) (Response : Request → Type) (Failure Value : Type) : Type :=
  ExceptT Failure (Program Request Response) Value

/-- One request, whose response is read as a value or a failure. -/
def attempt (request : Request) (read : Response request → Except Failure Value) :
    Attempt Request Response Failure Value :=
  ExceptT.mk (.ask request fun response => .done (read response))

/-- A result computed without a request. -/
def computed (result : Except Failure Value) : Attempt Request Response Failure Value :=
  ExceptT.mk (.done result)

/-- Where a program fails, make one more request, look at no response, and fail the same way. -/
def cleanUp (program : Attempt Request Response Failure Value) (request : Request) :
    Attempt Request Response Failure Value :=
  ExceptT.mk (Program.bind program fun
    | .ok value => .done (.ok value)
    | .error failure => .ask request fun _ => .done (.error failure))

/-! ### Executions -/

/-- What the surroundings can do with a request: the response, and the world after it. -/
abbrev Serves (Request : Type) (Response : Request → Type) (World : Type) : Type :=
  (request : Request) → World → Response request → World → Prop

variable {World : Type}

/-- The executions of a program, from a world to a world, with the value it ended with unless it was
cut off. -/
inductive Execution (serves : Serves Request Response World) :
    Program Request Response Value → World → Option Value → World → Prop
  | done (value : Value) (world : World) : Execution serves (.done value) world (some value) world
  | cut (program : Program Request Response Value) (world : World) :
      Execution serves program world none world
  | ask {request : Request} {next : Response request → Program Request Response Value}
      {before between after : World} {response : Response request} {outcome : Option Value}
      (served : serves request before response between)
      (rest : Execution serves (next response) between outcome after) :
      Execution serves (.ask request next) before outcome after

/-- However the program ends, this holds then. -/
def Leads (serves : Serves Request Response World) (program : Program Request Response Value)
    (before : World) (ends : Option Value → World → Prop) : Prop :=
  ∀ outcome after, Execution serves program before outcome after → ends outcome after

variable {serves : Serves Request Response World} {before : World}
variable {request : Request} {next : Value → Attempt Request Response Failure Result}
  {ends : Option (Except Failure Result) → World → Prop}
  {program : Attempt Request Response Failure Value}
  {read : Response request → Except Failure Value}

theorem leads_done {value : Value} {ends : Option Value → World → Prop}
    (cutOff : ends none before) (finished : ends (some value) before) :
    Leads serves (.done value) before ends := by
  intro outcome after execution
  cases execution with
  | done => exact finished
  | cut => exact cutOff

theorem leads_ask {next : Response request → Program Request Response Value}
    {ends : Option Value → World → Prop} (cutOff : ends none before)
    (rest : ∀ response after, serves request before response after →
      Leads serves (next response) after ends) : Leads serves (.ask request next) before ends := by
  intro outcome after execution
  cases execution with
  | cut => exact cutOff
  | ask served execution => exact rest _ _ served _ _ execution

theorem Leads.weaken {program : Program Request Response Value}
    {ends weaker : Option Value → World → Prop} (leads : Leads serves program before ends)
    (implies : ∀ outcome after, ends outcome after → weaker outcome after) :
    Leads serves program before weaker :=
  fun outcome after execution => implies outcome after (leads outcome after execution)

theorem execution_bind {program : Program Request Response Value}
    {next : Value → Program Request Response Result} {outcome : Option Result} {after : World}
    (execution : Execution serves (program.bind next) before outcome after) :
    (outcome = none ∧ Execution serves program before none after) ∨
      ∃ value between, Execution serves program before (some value) between ∧
        Execution serves (next value) between outcome after := by
  induction program generalizing before with
  | done value => exact Or.inr ⟨value, before, .done value before, execution⟩
  | ask request rest inductionHypothesis =>
    cases execution with
    | cut => exact Or.inl ⟨rfl, .cut _ _⟩
    | ask served execution =>
      obtain ⟨rfl, first⟩ | ⟨value, between, first, second⟩ := inductionHypothesis _ execution
      · exact Or.inl ⟨rfl, .ask served first⟩
      · exact Or.inr ⟨value, between, .ask served first, second⟩

theorem leads_bind {first : Attempt Request Response Failure Value}
    (leads : Leads serves first before fun outcome after =>
      match outcome with
      | none => ends none after
      | some (.error failure) => ends none after ∧ ends (some (.error failure)) after
      | some (.ok value) => Leads serves (next value) after ends) :
    Leads serves (first >>= next : Attempt Request Response Failure Result) before ends := by
  intro outcome after execution
  have execution : Execution serves (Program.bind first (ExceptT.bindCont next)) before outcome
      after := execution
  obtain ⟨rfl, cutOff⟩ | ⟨result, between, early, late⟩ := execution_bind execution
  · exact leads none after cutOff
  · have reached := leads (some result) between early
    cases result with
    | ok value => exact reached outcome after late
    | error failure =>
      obtain ⟨cutLater, failed⟩ := reached
      exact leads_done cutLater failed outcome after late

theorem leads_cleanUp {ends : Option (Except Failure Value) → World → Prop}
    (leads : Leads serves program before fun outcome after =>
      match outcome with
      | none => ends none after
      | some (.error failure) => ends none after ∧ ∀ response cleaned,
        serves request after response cleaned →
          ends none cleaned ∧ ends (some (.error failure)) cleaned
      | some (.ok value) => ends none after ∧ ends (some (.ok value)) after) :
    Leads serves (cleanUp program request) before ends := by
  intro outcome after execution
  obtain ⟨rfl, cutOff⟩ | ⟨result, between, early, late⟩ := execution_bind execution
  · exact leads none after cutOff
  · have reached := leads (some result) between early
    cases result with
    | ok value => exact leads_done reached.1 reached.2 outcome after late
    | error failure =>
      refine leads_ask reached.1 (fun response cleaned served => ?_) outcome after late
      exact leads_done (reached.2 response cleaned served).1 (reached.2 response cleaned served).2

theorem leads_adapt {Renamed : Type} {rename : Failure → Renamed}
    {ends : Option (Except Renamed Value) → World → Prop}
    (leads : Leads serves program before fun outcome after =>
      ends none after ∧ ends (outcome.map (Except.mapError rename)) after) :
    Leads serves (ExceptT.adapt rename program) before ends := by
  intro outcome after execution
  have execution : Execution serves (Program.bind program fun result =>
    .done (result.mapError rename)) before outcome after := execution
  obtain ⟨rfl, cutOff⟩ | ⟨result, between, early, late⟩ := execution_bind execution
  · exact (leads none after cutOff).1
  · obtain ⟨cutLater, finished⟩ := leads (some result) between early
    exact leads_done cutLater finished outcome after late

theorem attempt_bind (request : Request) (read : Response request → Except Failure Value)
    (next : Value → Attempt Request Response Failure Result) :
    (attempt request read >>= next : Attempt Request Response Failure Result) =
      ExceptT.mk (.ask request fun response =>
        match read response with
        | .ok value => next value
        | .error failure => .done (.error failure)) := by
  show ExceptT.mk (Program.bind (.ask request fun response => .done (read response)) _) = _
  refine congrArg (Program.ask request) (funext fun response => ?_)
  show ExceptT.bindCont next (read response) = _
  cases read response with
  | ok value => rfl
  | error failure => rfl

theorem leads_attempt_bind (cutOff : ends none before)
    (refused : ∀ response failure after, serves request before response after →
      read response = .error failure → ends none after ∧ ends (some (.error failure)) after)
    (goesOn : ∀ response value after, serves request before response after →
      read response = .ok value → Leads serves (next value) after ends) :
    Leads serves (attempt request read >>= next : Attempt Request Response Failure Result)
      before ends := by
  rw [attempt_bind]
  refine leads_ask cutOff fun response after served => ?_
  cases answer : read response with
  | ok value => exact goesOn response value after served answer
  | error failure =>
    obtain ⟨cutLater, failed⟩ := refused response failure after served answer
    exact leads_done cutLater failed

theorem leads_attempt {ends : Option (Except Failure Value) → World → Prop}
    (cutOff : ends none before) (answered : ∀ response after, serves request before response after →
      ends none after ∧ ends (some (read response)) after) :
    Leads serves (attempt request read : Attempt Request Response Failure Value) before ends := by
  refine leads_ask cutOff fun response after served => ?_
  obtain ⟨cutLater, finished⟩ := answered response after served
  exact leads_done cutLater finished

/-! ### Surroundings with one answer -/

/-- Run a program in surroundings that answer every request. -/
def runWith (answer : (request : Request) → World → Response request × World) :
    Program Request Response Value → World → Value × World
  | .done value, world => (value, world)
  | .ask request next, world =>
    (next (answer request world).1).runWith answer (answer request world).2

theorem runWith_bind (answer : (request : Request) → World → Response request × World)
    (program : Program Request Response Value) (next : Value → Program Request Response Result)
    (world : World) :
    (program.bind next).runWith answer world =
      (next (program.runWith answer world).1).runWith answer (program.runWith answer world).2 := by
  induction program generalizing world with
  | done value => rfl
  | ask request rest inductionHypothesis => exact inductionHypothesis _ _

theorem execution_runWith {answer : (request : Request) → World → Response request × World}
    (answers : ∀ request world, serves request world (answer request world).1
      (answer request world).2) (program : Program Request Response Value) (world : World) :
    Execution serves program world (some (program.runWith answer world).1)
      (program.runWith answer world).2 := by
  induction program generalizing world with
  | done value => exact .done value world
  | ask request next inductionHypothesis =>
    exact .ask (answers request world) (inductionHypothesis _ _)

end Program
