/-
This file gives programs that run one at a time and can be cut off anywhere.

`Runs` is the rule for one program: `kept` holds wherever it stops, `done` where it
succeeds, and it fails only with an excuse. A session starts programs, serves their
requests and cuts them off. If every program that may start keeps the invariant, so does
every session (`sound_of_reaches`), and the program that is running then still ends as its
rule says.
-/

import Dohflow.Foundation.Program
import Mathlib.Logic.Relation

namespace Program

variable {Request : Type} {Response : Request → Type} {Value Result Failure Renamed World : Type}
  {serves : Serves Request Response World} {excuse : Prop} {before : World}
  {kept : World → Prop}
variable {done : Value → World → Prop} {program : Attempt Request Response Failure Value}
  {next : Value → Attempt Request Response Failure Result} {result : Except Failure Value}
  {request : Request}

/-! ### One program -/

/-- What holds of a world a program has stopped in. -/
def Ends (excuse : Prop) (kept : World → Prop) (done : Value → World → Prop) :
    Option (Except Failure Value) → World → Prop
  | none, after => kept after
  | some (.error _), after => kept after ∧ excuse
  | some (.ok value), after => kept after ∧ done value after

/-- The program keeps a condition wherever it stops, reaches another where it succeeds, and fails
only with an excuse. -/
def Runs (serves : Serves Request Response World) (excuse : Prop)
    (program : Attempt Request Response Failure Value) (before : World) (kept : World → Prop)
    (done : Value → World → Prop) : Prop :=
  Leads serves program before (Ends excuse kept done)

theorem Ends.keeps {done : Value → World → Prop} {outcome : Option (Except Failure Value)}
    {after : World} (ends : Ends excuse kept done outcome after) : kept after := by
  cases outcome with
  | none => exact ends
  | some result =>
    cases result with
    | error failure => exact ends.1
    | ok value => exact ends.1

theorem Runs.weaken {weaker : World → Prop} {done reached : Value → World → Prop}
    (runs : Runs serves excuse program before kept done)
    (keeps : ∀ after, kept after → weaker after)
    (reaches : ∀ value after, kept after → done value after → reached value after) :
    Runs serves excuse program before weaker reached := by
  refine Leads.weaken runs fun outcome after ends => ?_
  cases outcome with
  | none => exact keeps after ends
  | some result =>
    cases result with
    | error failure => exact ⟨keeps after ends.1, ends.2⟩
    | ok value => exact ⟨keeps after ends.1, reaches value after ends.1 ends.2⟩

theorem runs_pure {value : Value} (keeps : kept before) (reached : done value before) :
    Runs serves excuse (pure value : Attempt Request Response Failure Value) before kept done :=
  leads_done keeps ⟨keeps, reached⟩

theorem runs_computed (keeps : kept before) (failed : ∀ failure, result = .error failure → excuse)
    (reached : ∀ value, result = .ok value → done value before) :
    Runs serves excuse (computed result : Attempt Request Response Failure Value) before kept
      done := by
  refine leads_done keeps ?_
  cases outcome : result with
  | error failure => exact ⟨keeps, failed failure outcome⟩
  | ok value => exact ⟨keeps, reached value outcome⟩

/-- A program that starts without a request. -/
theorem runs_computed_bind {done : Result → World → Prop} (keeps : kept before)
    (failed : ∀ failure, result = .error failure → excuse)
    (rest : ∀ value, result = .ok value → Runs serves excuse (next value) before kept done) :
    Runs serves excuse (computed result >>= next : Attempt Request Response Failure Result) before
      kept done := by
  cases outcome : result with
  | error failure => exact leads_done keeps ⟨keeps, failed failure outcome⟩
  | ok value => exact rest value outcome

theorem runs_attempt {read : Response request → Except Failure Value} (keeps : kept before)
    (served : ∀ response after, serves request before response after →
      Ends excuse kept done (some (read response)) after) :
    Runs serves excuse (attempt request read : Attempt Request Response Failure Value) before kept
      done :=
  leads_attempt keeps fun response after answer =>
    ⟨Ends.keeps (served response after answer), served response after answer⟩

/-- One program and then another. -/
theorem Runs.bind {first : Attempt Request Response Failure Value}
    {finished : Result → World → Prop} (runs : Runs serves excuse first before kept done)
    (rest : ∀ value after, kept after → done value after →
      Runs serves excuse (next value) after kept finished) :
    Runs serves excuse (first >>= next : Attempt Request Response Failure Result) before kept
      finished := by
  refine leads_bind (Leads.weaken runs fun outcome after ends => ?_)
  cases outcome with
  | none => exact ends
  | some result =>
    cases result with
    | error failure => exact ⟨ends.1, ends⟩
    | ok value => exact rest value after ends.1 ends.2

theorem Runs.adapt {rename : Failure → Renamed} (runs : Runs serves excuse program before kept done) :
    Runs serves excuse (ExceptT.adapt rename program) before kept done := by
  refine leads_adapt (Leads.weaken runs fun outcome after ends => ?_)
  cases outcome with
  | none => exact ⟨ends, ends⟩
  | some result =>
    cases result with
    | error failure => exact ⟨ends.1, ends⟩
    | ok value => exact ⟨ends.1, ends⟩

theorem Runs.cleanUp {partway : World → Prop}
    (runs : Runs serves excuse program before partway done)
    (keeps : ∀ after, partway after → kept after)
    (cleans : ∀ after response cleaned, partway after → serves request after response cleaned →
      kept cleaned) : Runs serves excuse (cleanUp program request) before kept done := by
  refine leads_cleanUp (Leads.weaken runs fun outcome after ends => ?_)
  cases outcome with
  | none => exact keeps after ends
  | some result =>
    cases result with
    | ok value => exact ⟨keeps after ends.1, keeps after ends.1, ends.2⟩
    | error failure =>
      refine ⟨keeps after ends.1, fun response cleaned served => ?_⟩
      have kept := cleans after response cleaned ends.1 served
      exact ⟨kept, kept, ends.2⟩

/-! ### Sessions -/

/-- A world and the program running in it. -/
structure Session (Request : Type) (Response : Request → Type) (Value World : Type) where
  world : World
  running : Option (Program Request Response Value)

namespace Session

variable {starts : World → Program Request Response Value → World → Prop}
  {moves : World → World → Prop}

/-- One thing that happens: a program starts where none runs, has a request served, ends, or is cut
off; or the world moves while none runs. -/
inductive Step (serves : Serves Request Response World)
    (starts : World → Program Request Response Value → World → Prop)
    (moves : World → World → Prop) :
    Session Request Response Value World → Session Request Response Value World → Prop
  | start {world begun : World} {program : Program Request Response Value}
      (started : starts world program begun) :
      Step serves starts moves ⟨world, none⟩ ⟨begun, some program⟩
  | serve {world after : World} {request : Request} {response : Response request}
      {next : Response request → Program Request Response Value}
      (served : serves request world response after) :
      Step serves starts moves ⟨world, some (.ask request next)⟩ ⟨after, some (next response)⟩
  | finish {world : World} {value : Value} :
      Step serves starts moves ⟨world, some (.done value)⟩ ⟨world, none⟩
  | crash {world : World} {program : Program Request Response Value} :
      Step serves starts moves ⟨world, some program⟩ ⟨world, none⟩
  | move {world after : World} (moved : moves world after) :
      Step serves starts moves ⟨world, none⟩ ⟨after, none⟩

/-- Any number of steps. -/
def Reaches (serves : Serves Request Response World)
    (starts : World → Program Request Response Value → World → Prop)
    (moves : World → World → Prop) :
    Session Request Response Value World → Session Request Response Value World → Prop :=
  Relation.ReflTransGen (Step serves starts moves)

/-- A session in a sound world, whose program still ends as it should. -/
structure Sound (serves : Serves Request Response World) (invariant : World → Prop)
    (ends : Option Value → World → Prop) (session : Session Request Response Value World) :
    Prop where
  world : invariant session.world
  program : ∀ program, session.running = some program → Leads serves program session.world ends

variable {invariant : World → Prop} {ends : Option Value → World → Prop}
  {session later : Session Request Response Value World}

/-- A step keeps a session sound if every end does, every start does and every move does. -/
theorem Sound.step (sound : session.Sound serves invariant ends)
    (stops : ∀ world, ends none world → invariant world)
    (begins : ∀ world program begun, invariant world → starts world program begun →
      Leads serves program begun ends)
    (carries : ∀ world after, invariant world → moves world after → invariant after)
    (step : Step serves starts moves session later) : later.Sound serves invariant ends := by
  cases step with
  | @start world begun program started =>
    have leads := begins world program begun sound.world started
    refine ⟨stops _ (leads none _ (.cut _ _)), fun other same => ?_⟩
    rw [← Option.some.inj same]
    exact leads
  | @serve world after request response next served =>
    have leads : Leads serves (next response) after ends := fun outcome final execution =>
      sound.program _ rfl outcome final (.ask served execution)
    refine ⟨stops _ (leads none _ (.cut _ _)), fun other same => ?_⟩
    rw [← Option.some.inj same]
    exact leads
  | finish => exact ⟨sound.world, fun other same => by cases same⟩
  | crash => exact ⟨sound.world, fun other same => by cases same⟩
  | move moved => exact ⟨carries _ _ sound.world moved, fun other same => by cases same⟩

theorem sound_of_reaches (sound : session.Sound serves invariant ends)
    (stops : ∀ world, ends none world → invariant world)
    (begins : ∀ world program begun, invariant world → starts world program begun →
      Leads serves program begun ends)
    (carries : ∀ world after, invariant world → moves world after → invariant after)
    (reaches : Reaches serves starts moves session later) : later.Sound serves invariant ends := by
  induction reaches with
  | refl => exact sound
  | tail _ step inductionHypothesis => exact inductionHypothesis.step stops begins carries step

end Session

end Program
