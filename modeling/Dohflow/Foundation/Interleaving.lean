/-
This file lets any number of programs act on one world, request by request in any
order, and gives the rule by which each of them is proved on its own.

A call starts a program under a number of its own. Its requests are served one at a
time, in turn with the other calls' and with whatever else happens to the world; it
ends with its value, or it is cut off. A crash cuts off every call there is.

`Secures` is the rule for one program. Between its requests it holds a fact that the
others leave standing (`Stable`), and every request it makes keeps the invariant,
shows what is to be shown and leaves the other calls what they rely on. Programs that
secure that, one by one, keep the invariant together (`sound_of_reaches`).
-/

import Dohflow.Foundation.Program
import Mathlib.Logic.Function.Basic
import Mathlib.Logic.Relation

namespace Interleaving

open Program

/-- What calls act on, what they are, and what else happens. -/
structure Setting (Request : Type) (Response : Request → Type) (Value : Type) where
  World : Type
  /-- What may be called. -/
  Call : Type
  /-- What the world leaves open about the answer to a request. -/
  Choice : Type
  /-- What happens to the world that is no call's request. -/
  Move : Type
  program : Call → Program Request Response Value
  /-- The answer to a call's request and the world after it; none while it cannot be served. -/
  serve : Nat → Choice → (request : Request) → World → Option (Response request × World)
  /-- A call ends with its value. -/
  finish : Nat → Value → World → World
  /-- A call is cut off. -/
  cut : Nat → World → World
  move : Move → World → Option World

variable {Request : Type} {Response : Request → Type} {Value Found Result Failure : Type}
  {setting : Setting Request Response Value}

/-! ### Pools -/

/-- A world and the calls in flight, by number. -/
structure Pool (setting : Setting Request Response Value) where
  world : setting.World
  calls : Nat → Option (Program Request Response Value)
  started : Nat

/-- One thing that happens. -/
inductive Event (setting : Setting Request Response Value)
  | start (call : setting.Call)
  | serve (owner : Nat) (choice : setting.Choice)
  | finish (owner : Nat)
  | cut (owner : Nat)
  | move (move : setting.Move)

namespace Pool

/-- A world with no call. -/
def quiet (world : setting.World) : Pool setting := ⟨world, fun _ => none, 0⟩

/-- Whether the call is in flight. -/
def live (pool : Pool setting) (owner : Nat) : Prop :=
  ∃ program, pool.calls owner = some program

/-- The request a call has made that is still to be served. -/
def asks (pool : Pool setting) (owner : Nat) : Option Request :=
  match pool.calls owner with
  | some (.ask request _) => some request
  | _ => none

def step (pool : Pool setting) : Event setting → Option (Pool setting)
  | .start call =>
    some { pool with
      calls := Function.update pool.calls pool.started (some (setting.program call))
      started := pool.started + 1 }
  | .serve owner choice =>
    match pool.calls owner with
    | some (.ask request next) =>
      (setting.serve owner choice request pool.world).map fun served =>
        { pool with
          world := served.2, calls := Function.update pool.calls owner (some (next served.1)) }
    | _ => none
  | .finish owner =>
    match pool.calls owner with
    | some (.done value) =>
      some { pool with
        world := setting.finish owner value pool.world
        calls := Function.update pool.calls owner none }
    | _ => none
  | .cut owner =>
    match pool.calls owner with
    | some _ =>
      some { pool with
        world := setting.cut owner pool.world, calls := Function.update pool.calls owner none }
    | none => none
  | .move move => (setting.move move pool.world).map fun world => { pool with world }

/-- Several steps, if each can be taken. -/
def run (pool : Pool setting) (events : List (Event setting)) : Option (Pool setting) :=
  events.foldlM step pool

end Pool

/-- Which steps a run takes, by the calls in flight and the world before them. -/
structure Condition (setting : Setting Request Response Value) where
  serve : (live : Nat → Prop) → (owner : Nat) → setting.Choice → Request → setting.World → Prop
  move : (live : Nat → Prop) → setting.Move → setting.World → Prop

/-- The condition that every step meets. -/
def Condition.anything : Condition setting := ⟨fun _ _ _ _ _ => True, fun _ _ _ => True⟩

variable {condition : Condition setting}

/-- The step meets the condition. -/
def Condition.Meets (condition : Condition setting) (pool : Pool setting) :
    Event setting → Prop
  | .serve owner choice => ∀ request next, pool.calls owner = some (.ask request next) →
      condition.serve pool.live owner choice request pool.world
  | .move move => condition.move pool.live move pool.world
  | _ => True

theorem Condition.meets_anything (pool : Pool setting) (event : Event setting) :
    Condition.anything.Meets pool event := by
  cases event with
  | serve owner choice => exact fun _ _ _ => trivial
  | _ => trivial

/-- One pool follows another by a step that meets the condition. -/
def Follows (condition : Condition setting) (before after : Pool setting) : Prop :=
  ∃ event, condition.Meets before event ∧ before.step event = some after

/-- The pools that runs reach from a world with no call, if their steps meet the condition. -/
def Reaches (condition : Condition setting) (world : setting.World) : Pool setting → Prop :=
  Relation.ReflTransGen (Follows condition) (.quiet world)

/-- A run each of whose steps passes a test. -/
def Pool.passes (test : Pool setting → Event setting → Bool) :
    Pool setting → List (Event setting) → Bool
  | _, [] => true
  | pool, event :: rest => test pool event && (pool.step event).all fun after =>
      Pool.passes test after rest

theorem reaches_of_run {test : Pool setting → Event setting → Bool} {world : setting.World}
    {before after : Pool setting} {events : List (Event setting)}
    (finds : ∀ pool event, test pool event = true → condition.Meets pool event)
    (reached : Reaches condition world before) (passed : before.passes test events = true)
    (ran : before.run events = some after) : Reaches condition world after := by
  induction events generalizing before with
  | nil =>
    obtain rfl := Option.some.inj ran
    exact reached
  | cons event rest inductionHypothesis =>
    obtain ⟨between, taken, ran⟩ := Option.bind_eq_some_iff.mp ran
    rw [Pool.passes, Bool.and_eq_true, taken, Option.all_some] at passed
    exact inductionHypothesis (reached.tail ⟨event, finds before event passed.1, taken⟩) passed.2
      ran

/-- What holds of every call's program, and of what is left of a program when it holds of the
program, holds of every call in flight. -/
theorem calls_of_reaches (holds : Program Request Response Value → Prop)
    (begins : ∀ call, holds (setting.program call))
    (goesOn : ∀ request next response, holds (.ask request next) → holds (next response))
    {world : setting.World} {pool : Pool setting} (reached : Reaches condition world pool) :
    ∀ owner program, pool.calls owner = some program → holds program := by
  induction reached with
  | refl => exact fun owner program running => nomatch running
  | @tail before after _ follows inductionHypothesis =>
    obtain ⟨event, -, taken⟩ := follows
    have update : ∀ (owner : Nat) (rest : Option (Program Request Response Value)),
        (∀ program, rest = some program → holds program) →
        ∀ other program, Function.update before.calls owner rest other = some program →
          holds program := by
      intro owner rest held other program running
      by_cases same : other = owner
      · subst same
        rw [Function.update_self] at running
        exact held program running
      · rw [Function.update_of_ne same] at running
        exact inductionHypothesis other program running
    cases event with
    | start call =>
      obtain rfl := Option.some.inj taken
      exact update _ _ fun program same => Option.some.inj same ▸ begins call
    | serve owner choice =>
      simp only [Pool.step] at taken
      split at taken
      · next request next running =>
        obtain ⟨served, -, rfl⟩ := Option.map_eq_some_iff.mp taken
        exact update _ _ fun program same => Option.some.inj same ▸
          goesOn request next served.1 (inductionHypothesis owner _ running)
      · cases taken
    | finish owner =>
      simp only [Pool.step] at taken
      split at taken
      · obtain rfl := Option.some.inj taken
        exact update _ _ fun program same => nomatch same
      · cases taken
    | cut owner =>
      simp only [Pool.step] at taken
      split at taken
      · obtain rfl := Option.some.inj taken
        exact update _ _ fun program same => nomatch same
      · cases taken
    | move move =>
      obtain ⟨moved, -, rfl⟩ := Option.map_eq_some_iff.mp taken
      exact inductionHypothesis

/-! ### One program -/

/-- What is proved of every call together. -/
structure Discipline (setting : Setting Request Response Value) where
  invariant : setting.World → Prop
  /-- What a call in flight relies on when another step is taken. -/
  relies : Nat → setting.World → setting.World → Prop
  /-- What a call finds when it starts. -/
  opening : Nat → setting.World → Prop
  /-- What every served request shows. -/
  shows : Nat → Request → setting.World → setting.World → Prop

variable {discipline : Discipline setting}

namespace Discipline

variable (discipline)

/-- A fact that the steps of others leave standing. -/
def Stable (owner : Nat) (own : setting.World → Prop) : Prop :=
  ∀ before after, discipline.invariant before → discipline.invariant after →
    discipline.relies owner before after → own before → own after

/-- The step leaves those calls what they rely on, and what they will find when they start. -/
def Spares (live among : Nat → Prop) (before after : setting.World) : Prop :=
  ∀ other, among other → (live other → discipline.relies other before after) ∧
    (discipline.opening other before → discipline.opening other after)

/-- The program, holding a fact of its own, keeps the discipline until it is done. -/
def Secures (condition : Condition setting) (owner : Nat) :
    Program Request Response Result → (setting.World → Prop) →
      (Result → setting.World → Prop) → Prop
  | .done value, own, ends =>
    ∀ world, discipline.invariant world → own world → ends value world
  | .ask request next, own, ends =>
    ∀ live choice before response after, discipline.invariant before → own before →
      condition.serve live owner choice request before →
      setting.serve owner choice request before = some (response, after) →
      discipline.invariant after ∧ discipline.shows owner request before after ∧
        discipline.Spares live (· ≠ owner) before after ∧
        ∃ kept : setting.World → Prop, discipline.Stable owner kept ∧ kept after ∧
          Secures condition owner (next response) kept ends

end Discipline

open Discipline

variable {ends : Result → setting.World → Prop} {owner : Nat} {own failed : setting.World → Prop}
  {succeeded : Found → setting.World → Prop} {between : Found → setting.World → Prop}
  {program : Program Request Response Result}

theorem Discipline.Secures.weaken {own stronger : setting.World → Prop}
    {ends weaker : Result → setting.World → Prop}
    (secures : discipline.Secures condition owner program own ends)
    (holds : ∀ world, discipline.invariant world → stronger world → own world)
    (implies : ∀ value world, discipline.invariant world → ends value world → weaker value world) :
    discipline.Secures condition owner program stronger weaker := by
  induction program generalizing own stronger with
  | done value =>
    intro world invariant strong
    exact implies value world invariant (secures world invariant (holds world invariant strong))
  | ask request next inductionHypothesis =>
    intro live choice before response after invariant strong meets served
    obtain ⟨invariantAfter, shown, spared, kept, stable, standing, rest⟩ :=
      secures live choice before response after invariant (holds before invariant strong) meets
        served
    exact ⟨invariantAfter, shown, spared, kept, stable, standing,
      inductionHypothesis response rest fun _ _ standing => standing⟩

theorem secures_bind {program : Program Request Response Found}
    {next : Found → Program Request Response Result} {own : setting.World → Prop}
    (first : discipline.Secures condition owner program own between)
    (second : ∀ value, discipline.Secures condition owner (next value) (between value) ends) :
    discipline.Secures condition owner (program.bind next) own ends := by
  induction program generalizing own with
  | done value =>
    exact (second value).weaken (fun world invariant held => first world invariant held)
      fun _ _ _ ended => ended
  | ask request rest inductionHypothesis =>
    intro live choice before response after invariant held meets served
    obtain ⟨invariantAfter, shown, spared, kept, stable, standing, later⟩ :=
      first live choice before response after invariant held meets served
    exact ⟨invariantAfter, shown, spared, kept, stable, standing, inductionHypothesis response later⟩

theorem secures_pure {value : Result} {own : setting.World → Prop}
    (ended : ∀ world, discipline.invariant world → own world → ends value world) :
    discipline.Secures condition owner (.done value) own ends := ended

theorem secures_of_fact {own : setting.World → Prop} (fact : Prop)
    (follows : ∀ world, own world → fact)
    (secures : fact → discipline.Secures condition owner program own ends) :
    discipline.Secures condition owner program own ends := by
  cases program with
  | done value => exact fun world invariant held => secures (follows world held) world invariant held
  | ask request next =>
    intro live choice before response after invariant held
    exact secures (follows before held) live choice before response after invariant held

/-- What holds when a fallible program is done, by whether it failed. -/
def outcome (succeeded : Found → setting.World → Prop) (failed : setting.World → Prop) :
    Except Failure Found → setting.World → Prop
  | .ok value => succeeded value
  | .error _ => failed

/-- One fallible program and then another: the second starts where the first succeeded. -/
theorem secures_attempt_bind {first : Attempt Request Response Failure Found}
    {next : Found → Attempt Request Response Failure Result}
    {succeeded : Result → setting.World → Prop}
    (early : discipline.Secures condition owner first own (outcome between failed))
    (late : ∀ value, discipline.Secures condition owner (next value) (between value)
      (outcome succeeded failed)) :
    discipline.Secures condition owner
      (first >>= next : Attempt Request Response Failure Result) own
      (outcome succeeded failed) := by
  refine secures_bind early fun result => ?_
  cases result with
  | ok value => exact late value
  | error failure => exact secures_pure fun _ _ held => held

theorem secures_return {value : Found}
    (ended : ∀ world, discipline.invariant world → own world → succeeded value world) :
    discipline.Secures condition owner (pure value : Attempt Request Response Failure Found) own
      (outcome succeeded failed) := ended

/-- One request, whose response is read as a value or a failure. -/
theorem secures_attempt {request : Request} {read : Response request → Except Failure Found}
    (stable : ∀ value, discipline.Stable owner (succeeded value))
    (stableFailed : discipline.Stable owner failed)
    (served : ∀ live choice before response after, discipline.invariant before → own before →
      condition.serve live owner choice request before →
      setting.serve owner choice request before = some (response, after) →
      discipline.invariant after ∧ discipline.shows owner request before after ∧
        discipline.Spares live (· ≠ owner) before after ∧
        outcome succeeded failed (read response) after) :
    discipline.Secures condition owner
      (attempt request read : Attempt Request Response Failure Found) own
      (outcome succeeded failed) := by
  intro live choice before response after invariant held meets answered
  obtain ⟨invariantAfter, shown, spared, ended⟩ :=
    served live choice before response after invariant held meets answered
  refine ⟨invariantAfter, shown, spared, outcome succeeded failed (read response), ?_, ended,
    fun _ _ ended => ended⟩
  cases read response with
  | ok value => exact stable value
  | error failure => exact stableFailed

/-! ### All of them together -/

/-- The call ends, or is cut off, and leaves the others what they rely on. -/
structure Discipline.EndsWell (discipline : Discipline setting) (owner : Nat)
    (before after : setting.World) : Prop where
  invariant : discipline.invariant after
  spares : ∀ live, discipline.Spares live (· ≠ owner) before after

/-- What is left to show of a setting: every call secures the discipline, a cut is no harm, and
neither is any other move that meets the condition. -/
structure Discipline.Holds (discipline : Discipline setting) (condition : Condition setting) :
    Prop where
  secures : ∀ call owner, discipline.Secures condition owner (setting.program call)
    (discipline.opening owner) fun value world =>
      discipline.EndsWell owner world (setting.finish owner value world)
  opening : ∀ owner, discipline.Stable owner (discipline.opening owner)
  cut : ∀ owner world, discipline.invariant world →
    discipline.EndsWell owner world (setting.cut owner world)
  move : ∀ live move before after, discipline.invariant before → condition.move live move before →
    setting.move move before = some after →
    discipline.invariant after ∧ discipline.Spares live (fun _ => True) before after

/-- Every call in flight goes on to secure the discipline, and no call is numbered ahead. -/
structure Discipline.Sound (discipline : Discipline setting) (condition : Condition setting)
    (pool : Pool setting) : Prop where
  invariant : discipline.invariant pool.world
  numbered : ∀ owner, pool.live owner → owner < pool.started
  opening : ∀ owner, pool.started ≤ owner → discipline.opening owner pool.world
  secured : ∀ owner program, pool.calls owner = some program →
    ∃ own : setting.World → Prop, discipline.Stable owner own ∧ own pool.world ∧
      discipline.Secures condition owner program own fun value world =>
        discipline.EndsWell owner world (setting.finish owner value world)

theorem update_eq_some {Held : Type} {calls : Nat → Option Held} {owner other : Nat}
    {rest : Option Held} {program : Held} :
    Function.update calls owner rest other = some program ↔
      other = owner ∧ rest = some program ∨ other ≠ owner ∧ calls other = some program := by
  by_cases same : other = owner
  · subst same
    simp
  · simp [same]

namespace Discipline.Sound

variable {before after : Pool setting}

theorem quiet {world : setting.World} (invariant : discipline.invariant world)
    (opening : ∀ owner, discipline.opening owner world) :
    discipline.Sound condition (.quiet world) where
  invariant := invariant
  numbered owner live := by
    obtain ⟨program, running⟩ := live
    cases running
  opening owner _ := opening owner
  secured owner program running := by cases running

/-- What the other calls keep when one of them, or none, has changed the world. -/
theorem others {world : setting.World} (sound : discipline.Sound condition before)
    (invariant : discipline.invariant world) {among : Nat → Prop}
    (spares : discipline.Spares before.live among before.world world)
    {program : Program Request Response Value} (running : before.calls owner = some program)
    (other : among owner) :
    ∃ own : setting.World → Prop, discipline.Stable owner own ∧ own world ∧
      discipline.Secures condition owner program own fun value world =>
        discipline.EndsWell owner world (setting.finish owner value world) := by
  obtain ⟨own, stable, held, secures⟩ := sound.secured owner program running
  exact ⟨own, stable, stable _ _ sound.invariant invariant
    ((spares owner other).1 ⟨program, running⟩) held, secures⟩

/-- One call changes the world and goes on, or is gone. -/
theorem update {world : setting.World} {rest : Option (Program Request Response Value)}
    (sound : discipline.Sound condition before) (invariant : discipline.invariant world)
    (live : before.live owner)
    (spares : discipline.Spares before.live (· ≠ owner) before.world world)
    (goesOn : ∀ program, rest = some program →
      ∃ own : setting.World → Prop, discipline.Stable owner own ∧ own world ∧
        discipline.Secures condition owner program own fun value world =>
          discipline.EndsWell owner world (setting.finish owner value world)) :
    discipline.Sound condition
      { before with world, calls := Function.update before.calls owner rest } where
  invariant := invariant
  numbered other running := by
    obtain ⟨program, running⟩ := running
    obtain ⟨rfl, -⟩ | ⟨-, running⟩ := update_eq_some.mp running
    · exact sound.numbered other live
    · exact sound.numbered other ⟨program, running⟩
  opening other ahead := by
    have different : other ≠ owner := by
      rintro rfl
      exact absurd (sound.numbered other live) (Nat.not_lt.mpr ahead)
    exact (spares other different).2 (sound.opening other ahead)
  secured other program running := by
    obtain ⟨rfl, continues⟩ | ⟨different, running⟩ := update_eq_some.mp running
    · exact goesOn program continues
    · exact sound.others invariant spares running different

/-- One step. -/
theorem step (holds : discipline.Holds condition) (sound : discipline.Sound condition before)
    {event : Event setting} (meets : condition.Meets before event)
    (taken : before.step event = some after) : discipline.Sound condition after := by
  cases event with
  | start call =>
    obtain rfl := Option.some.inj taken
    refine ⟨sound.invariant, ?_, fun owner ahead => sound.opening owner (Nat.le_of_succ_le ahead),
      ?_⟩
    · rintro owner ⟨program, running⟩
      obtain ⟨rfl, -⟩ | ⟨-, running⟩ := update_eq_some.mp running
      · exact Nat.lt_succ_self _
      · exact Nat.lt_succ_of_lt (sound.numbered owner ⟨program, running⟩)
    · intro owner program running
      obtain ⟨rfl, begun⟩ | ⟨-, running⟩ := update_eq_some.mp running
      · obtain rfl := Option.some.inj begun
        exact ⟨_, holds.opening _, sound.opening _ (Nat.le_refl _), holds.secures call _⟩
      · exact sound.secured owner program running
  | serve owner choice =>
    cases running : before.calls owner with
    | none => simp [Pool.step, running] at taken
    | some program =>
      cases program with
      | done value => simp [Pool.step, running] at taken
      | ask request next =>
        simp only [Pool.step, running, Option.map_eq_some_iff] at taken
        obtain ⟨⟨response, world⟩, served, rfl⟩ := taken
        obtain ⟨own, -, held, secures⟩ := sound.secured owner _ running
        obtain ⟨invariant, -, spares, kept, stable, standing, rest⟩ := secures before.live choice
          before.world response world sound.invariant held (meets request next running) served
        refine sound.update invariant ⟨_, running⟩ spares ?_
        rintro program same
        obtain rfl := Option.some.inj same
        exact ⟨kept, stable, standing, rest⟩
  | finish owner =>
    cases running : before.calls owner with
    | none => simp [Pool.step, running] at taken
    | some program =>
      cases program with
      | ask request next => simp [Pool.step, running] at taken
      | done value =>
        simp only [Pool.step, running, Option.some.injEq] at taken
        obtain rfl := taken
        obtain ⟨own, -, held, secures⟩ := sound.secured owner _ running
        have ends := secures before.world sound.invariant held
        exact sound.update ends.invariant ⟨_, running⟩ (ends.spares _)
          fun program same => nomatch same
  | cut owner =>
    cases running : before.calls owner with
    | none => simp [Pool.step, running] at taken
    | some program =>
      simp only [Pool.step, running, Option.some.injEq] at taken
      obtain rfl := taken
      have ends := holds.cut owner before.world sound.invariant
      exact sound.update ends.invariant ⟨_, running⟩ (ends.spares _)
        fun program same => nomatch same
  | move move =>
    simp only [Pool.step, Option.map_eq_some_iff] at taken
    obtain ⟨world, moved, rfl⟩ := taken
    obtain ⟨invariant, spares⟩ :=
      holds.move before.live move before.world world sound.invariant meets moved
    exact ⟨invariant, sound.numbered,
      fun owner ahead => (spares owner trivial).2 (sound.opening owner ahead),
      fun owner program running => sound.others invariant spares running trivial⟩

theorem shows_step (sound : discipline.Sound condition before) {choice : setting.Choice}
    {request : Request} (asks : before.asks owner = some request)
    (meets : condition.Meets before (.serve owner choice))
    (taken : before.step (.serve owner choice) = some after) :
    discipline.shows owner request before.world after.world := by
  cases running : before.calls owner with
  | none => simp [Pool.asks, running] at asks
  | some program =>
    cases program with
    | done value => simp [Pool.asks, running] at asks
    | ask other next =>
      simp only [Pool.asks, running, Option.some.injEq] at asks
      subst asks
      simp only [Pool.step, running, Option.map_eq_some_iff] at taken
      obtain ⟨⟨response, world⟩, served, rfl⟩ := taken
      obtain ⟨own, -, held, secures⟩ := sound.secured owner _ running
      exact (secures before.live choice before.world response world sound.invariant held
        (meets other next running) served).2.1

end Discipline.Sound

theorem sound_of_reaches (holds : discipline.Holds condition) {world : setting.World}
    (invariant : discipline.invariant world) (opening : ∀ owner, discipline.opening owner world)
    {pool : Pool setting} (reached : Reaches condition world pool) :
    discipline.Sound condition pool := by
  induction reached with
  | refl => exact .quiet invariant opening
  | tail _ follows inductionHypothesis =>
    obtain ⟨event, meets, taken⟩ := follows
    exact inductionHypothesis.step holds meets taken

/-- A relation between worlds that every served request shows, and that nothing else breaks, holds
from the start to the end of every run. -/
theorem relates_of_run (relates : setting.World → setting.World → Prop)
    (holds : discipline.Holds condition) (refl : ∀ world, relates world world)
    (trans : ∀ first second third, relates first second → relates second third →
      relates first third)
    (shown : ∀ owner request before after, discipline.shows owner request before after →
      relates before after)
    (finished : ∀ owner value world, relates world (setting.finish owner value world))
    (cut : ∀ owner world, relates world (setting.cut owner world))
    (moved : ∀ move before after, setting.move move before = some after → relates before after)
    {before after : Pool setting} (sound : discipline.Sound condition before)
    (run : Relation.ReflTransGen (Follows condition) before after) :
    discipline.Sound condition after ∧ relates before.world after.world := by
  induction run with
  | refl => exact ⟨sound, refl _⟩
  | @tail between after _ follows inductionHypothesis =>
    obtain ⟨soundBetween, early⟩ := inductionHypothesis
    obtain ⟨event, meets, taken⟩ := follows
    refine ⟨soundBetween.step holds meets taken, trans _ _ _ early ?_⟩
    cases event with
    | start call =>
      obtain rfl := Option.some.inj taken
      exact refl _
    | serve owner choice =>
      cases running : between.calls owner with
      | none => simp [Pool.step, running] at taken
      | some program =>
        cases program with
        | done value => simp [Pool.step, running] at taken
        | ask request next =>
          have asks : between.asks owner = some request := by rw [Pool.asks, running]
          exact shown owner request _ _ (soundBetween.shows_step asks meets taken)
    | finish owner =>
      simp only [Pool.step] at taken
      split at taken
      · obtain rfl := Option.some.inj taken
        exact finished owner _ _
      · cases taken
    | cut owner =>
      simp only [Pool.step] at taken
      split at taken
      · obtain rfl := Option.some.inj taken
        exact cut owner _
      · cases taken
    | move move =>
      obtain ⟨world, done, rfl⟩ := Option.map_eq_some_iff.mp taken
      exact moved move _ _ done

end Interleaving
