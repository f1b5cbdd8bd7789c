/-
This file proves that no counter is handed out twice, over every run of calls.

A call takes a counter when it commits the advance past it, and hands it out once the witness has
recorded that. While a call is in flight the register only grows, so a counter is taken once; and
a register that is restored under the witness is not trusted, so it is not taken again either.
-/

import Dohflow.VaultCrypto.SyncCounter

namespace Dohflow.VaultCrypto

open SyncCore PlatformTraits Program Interleaving CounterRegister Fallible

namespace CounterWorld

variable {owner next counter recorded : Nat} {context : CounterContext} {held : Option Nat}
  {choice : CounterChoice} {before after world : CounterWorld}

/-- The register has advanced past the counter. -/
def Past (world : CounterWorld) (context : CounterContext) (counter : Nat) : Prop :=
  ∃ value, world.register context = some value ∧ counter < value

/-- The witness has recorded an advance past the counter. -/
def Seen (world : CounterWorld) (context : CounterContext) (counter : Nat) : Prop :=
  ∃ value, world.witness.counters context = some value ∧ counter < value

/-- The counter was handed out. -/
def Issued (world : CounterWorld) (context : CounterContext) (counter : Nat) : Prop :=
  (⟨context, counter⟩ : CounterReservation) ∈ world.issued

/-! ### What a request does -/

theorem serve_nextCounter {response : Except RegisterStoreError (Option Nat)}
    (served : serve owner (.nextCounter context) before choice = (response, after)) :
    after = before := by
  cases choice <;> exact (Prod.mk.inj served).2.symm

theorem serve_counter {response : Except WitnessError (Option Nat)}
    (served : serve owner (.witness (.counter context)) before choice = (response, after)) :
    after = before ∧ ∀ recorded, response = .ok recorded →
      recorded = before.witness.counters context := by
  cases choice <;> obtain ⟨rfl, rfl⟩ := Prod.mk.inj served
  · exact ⟨rfl, fun _ same => (Except.ok.inj same).symm⟩
  · exact ⟨rfl, fun _ same => by cases same⟩
  · exact ⟨rfl, fun _ same => by cases same⟩

/-- An advance of the witness: nothing else changes, and the witness does not move back. -/
structure Witnesses (context : CounterContext) (next : Nat) (before after : CounterWorld) :
    Prop where
  counters : after.witness.counters = Witness.insert before.witness.counters context next
  forward : ∀ value, before.witness.counters context = some value → value ≤ next
  rest : after = { before with witness := after.witness }

theorem answer_advanceCounter :
    (answer owner (.witness (.advanceCounter context next)) before).2 = before ∧
        (answer owner (.witness (.advanceCounter context next)) before).1 ≠ .ok () ∨
      Witnesses context next before
        (answer owner (.witness (.advanceCounter context next)) before).2 := by
  unfold answer Witness.answer Witness.advanceCounter
  dsimp only
  split
  · exact .inl ⟨rfl, nofun⟩
  · next forward =>
    refine .inr ⟨rfl, fun value same => ?_, rfl⟩
    rw [same, Option.any_some, decide_eq_true_eq] at forward
    exact Nat.not_lt.mp forward

/-- A committed advance: the entry was the one it was computed from. -/
structure Commits (owner : Nat) (context : CounterContext) (held : Option Nat) (next : Nat)
    (before after : CounterWorld) : Prop where
  found : before.register context = held
  register : after.register = Witness.insert before.register context next
  taken : after.takenBy context (held.getD 0) = some owner
  others : ∀ other counter, ¬ (other = context ∧ counter = held.getD 0) →
    after.takenBy other counter = before.takenBy other counter
  rest : after = { before with register := after.register, takenBy := after.takenBy }

theorem answer_commitAdvance :
    (answer owner (.commitAdvance context held next) before).2 = before ∧
        (answer owner (.commitAdvance context held next) before).1 ≠ .ok () ∨
      Commits owner context held next before
        (answer owner (.commitAdvance context held next) before).2 := by
  unfold answer CounterTable.commitAdvance
  dsimp only
  by_cases bad : next = 0 ∨ (held.any fun value => next ≤ value)
  · rw [if_pos bad]
    exact .inl ⟨rfl, nofun⟩
  · rw [if_neg bad]
    by_cases differs : before.register context ≠ held
    · rw [if_pos differs]
      exact .inl ⟨rfl, nofun⟩
    · rw [if_neg differs]
      exact .inr ⟨not_not.mp differs, rfl, if_pos ⟨rfl, rfl⟩, fun _ _ other => if_neg other, rfl⟩

/-- A request to record that is answered, or not: it has no effect and is refused, or it has its
effect. -/
theorem serve_recording {request : CounterRequest} {response : request.Response}
    {ok : request.Response} {effect : CounterWorld → Prop}
    (answered : (answer owner request before).2 = before ∧ (answer owner request before).1 ≠ ok ∨
      effect (answer owner request before).2) (refused : refusal request ≠ ok)
    (served : serve owner request before choice = (response, after)) :
    after = before ∧ response ≠ ok ∨ effect after := by
  cases choice <;> obtain ⟨rfl, rfl⟩ := Prod.mk.inj served
  · exact answered
  · exact .inl ⟨rfl, refused⟩
  · exact answered.imp_left fun both => ⟨both.1, refused⟩

theorem Witnesses.seen {other : CounterContext} (advances : Witnesses context next before after)
    (seen : before.Seen other counter) : after.Seen other counter := by
  obtain ⟨value, same, past⟩ := seen
  by_cases here : other = context
  · subst here
    exact ⟨next, by rw [advances.counters, Witness.insert_self],
      past.trans_le (advances.forward value same)⟩
  · exact ⟨value, by rw [advances.counters, Witness.insert, if_neg here, same], past⟩

theorem Commits.past {other : CounterContext}
    (commits : Commits owner context held (held.getD 0 + 1) before after)
    (past : before.Past other counter) : after.Past other counter := by
  obtain ⟨value, same, below⟩ := past
  by_cases here : other = context
  · subst here
    obtain rfl : held = some value := commits.found.symm.trans same
    exact ⟨value + 1, by rw [commits.register, Witness.insert_self]; rfl, Nat.lt_succ_of_lt below⟩
  · exact ⟨value, by rw [commits.register, Witness.insert, if_neg here, same], below⟩

theorem Commits.not_past (commits : Commits owner context held next before after) :
    ¬ before.Past context (held.getD 0) := by
  rintro ⟨value, same, below⟩
  rw [commits.found] at same
  subst same
  exact Nat.lt_irrefl _ below

end CounterWorld

open CounterWorld

/-! ### What a call relies on -/

/-- What a call in flight relies on: register and witness only grow, and what it has taken is its
own to hand out. -/
structure CounterRelies (owner : Nat) (before after : CounterWorld) : Prop where
  past : ∀ context counter, before.Past context counter → after.Past context counter
  seen : ∀ context counter, before.Seen context counter → after.Seen context counter
  taken : ∀ context counter, before.takenBy context counter = some owner →
    before.Past context counter → after.takenBy context counter = some owner ∧
      (after.Issued context counter → before.Issued context counter)
  issued : ∀ context counter, after.Issued context counter →
    before.Issued context counter ∨ after.Past context counter

/-- No counter is handed out twice or above the cap, and the witness has recorded each. -/
structure CountersOnce (world : CounterWorld) : Prop where
  once : world.issued.Nodup
  capped : ∀ reservation ∈ world.issued, reservation.counter ≤ maxInvocationCounter
  seen : ∀ context counter, world.Issued context counter → world.Seen context counter

def counterDiscipline : Discipline counting where
  invariant := CountersOnce
  relies := CounterRelies
  opening _ _ := True
  shows _ _ _ _ := True

/-- A register is restored while no call is in flight. -/
def restoredAtRest : Condition counting where
  serve _ _ _ _ _ := True
  move live _ _ := ∀ owner, ¬ live owner

variable {owner counter next : Nat} {context : CounterContext} {held : Option Nat}
  {before after world : CounterWorld}

theorem CounterRelies.refl (owner : Nat) (world : CounterWorld) : CounterRelies owner world world :=
  ⟨fun _ _ => id, fun _ _ => id, fun _ _ taken _ => ⟨taken, id⟩, fun _ _ => .inl⟩

theorem CounterRelies.of_witnesses {other : Nat} (advances : Witnesses context next before after) :
    CounterRelies other before after := by
  have rest := advances.rest
  refine ⟨fun _ _ past => ?_, fun _ _ => advances.seen, fun _ _ taken _ => ?_, fun _ _ => ?_⟩
  · rw [rest]
    exact past
  · rw [rest]
    exact ⟨taken, id⟩
  · rw [rest]
    exact .inl

theorem CounterRelies.of_commits {other : Nat}
    (commits : Commits owner context held (held.getD 0 + 1) before after) :
    CounterRelies other before after := by
  have same : after.issued = before.issued := by
    rw [commits.rest]
  have witness : after.witness = before.witness := by
    rw [commits.rest]
  refine ⟨fun _ _ => commits.past, fun at' counter => ?_, fun at' counter taken past => ?_,
    fun at' counter => ?_⟩
  · rw [Seen, Seen, witness]
    exact id
  · rw [Issued, Issued, same, commits.others at' counter fun ⟨here, equal⟩ => commits.not_past
      (here ▸ equal ▸ past)]
    exact ⟨taken, id⟩
  · rw [Issued, Issued, same]
    exact .inl

/-- A counter that the call may take: handed out, if at all, by another that has advanced past
it. -/
def Untaken (context : CounterContext) (counter : Nat) (world : CounterWorld) : Prop :=
  world.Issued context counter → world.Past context counter

/-- A counter that the call has taken, and may hand out. -/
structure Took (owner : Nat) (context : CounterContext) (counter : Nat) (world : CounterWorld) :
    Prop where
  taken : world.takenBy context counter = some owner
  past : world.Past context counter
  unissued : ¬ world.Issued context counter

theorem stable_untaken : counterDiscipline.Stable owner (Untaken context counter) := by
  intro before after _ _ relies untaken issued
  rcases relies.issued context counter issued with earlier | past
  · exact relies.past context counter (untaken earlier)
  · exact past

theorem stable_took : counterDiscipline.Stable owner (Took owner context counter) := by
  intro before after _ _ relies took
  obtain ⟨taken, kept⟩ := relies.taken context counter took.taken took.past
  exact ⟨taken, relies.past context counter took.past, fun issued => took.unissued (kept issued)⟩

theorem stable_true : counterDiscipline.Stable owner fun _ => True := fun _ _ _ _ _ _ => trivial

/-- A request that others can live with, and after which a fact holds. -/
theorem secures_counter {Found : Type} {request : CounterRequest}
    {read : request.Response → Except NonceError Found} {own : CounterWorld → Prop}
    {succeeded : Found → CounterWorld → Prop}
    (stable : ∀ value, counterDiscipline.Stable owner (succeeded value))
    (served : ∀ response choice before after, CountersOnce before → own before →
      serve owner request before choice = (response, after) →
      CountersOnce after ∧ (∀ other, CounterRelies other before after) ∧
        ∀ value, read response = .ok value → succeeded value after) :
    counterDiscipline.Secures restoredAtRest owner
      (attempt request read : RegisterCall Found) own (outcome succeeded fun _ => True) := by
  refine secures_attempt stable stable_true ?_
  intro live choice before response after invariant held _ answered
  obtain ⟨kept, relies, found⟩ :=
    served response choice before after invariant held (Option.some.inj answered)
  refine ⟨kept, trivial, fun other _ => ⟨fun _ => relies other, fun _ => trivial⟩, ?_⟩
  cases answer : read response with
  | ok value => exact found value answer
  | error failure => trivial

/-! ### The calls -/

theorem CountersOnce.of_witnesses (once : CountersOnce before)
    (advances : Witnesses context next before after) : CountersOnce after := by
  have rest : after.issued = before.issued := by
    rw [advances.rest]
  refine ⟨rest ▸ once.once, rest ▸ once.capped, fun other counter issued => ?_⟩
  rw [Issued, rest] at issued
  exact advances.seen (once.seen other counter issued)

theorem CountersOnce.of_commits (once : CountersOnce before)
    (commits : Commits owner context held next before after) : CountersOnce after := by
  rw [commits.rest]
  exact ⟨once.once, once.capped, once.seen⟩

/-- What the comparison says of the witness: it has not recorded more than the register holds. -/
theorem le_of_compared {register recorded : Option Nat}
    (compares : compared register recorded = .ok held) :
    held = register ∧ ∀ value, recorded = some value → value ≤ held.getD 0 := by
  unfold compared at compares
  split at compares
  · obtain rfl := Except.ok.inj compares
    exact ⟨rfl, nofun⟩
  · obtain rfl := Except.ok.inj compares
    exact ⟨rfl, fun value same => (Option.some.inj same).symm.le⟩
  · next register recorded =>
    split at compares
    · next behind =>
      obtain rfl := Except.ok.inj compares
      exact ⟨rfl, fun value same => (Option.some.inj same).symm.trans_le behind⟩
    · cases compares
  · cases compares
  · cases compares

/-- What the call may take, where the witness has recorded no more. -/
def UntakenFrom (context : CounterContext) (recorded : Option Nat) (world : CounterWorld) : Prop :=
  ∀ counter, (∀ value, recorded = some value → value ≤ counter) → Untaken context counter world

theorem secures_check : counterDiscipline.Secures restoredAtRest owner
    (check context : RegisterCall (Option Nat)) (fun _ => True)
    (outcome (fun held => Untaken context (held.getD 0)) fun _ => True) := by
  refine secures_attempt_bind (secures_counter (fun _ => stable_true) ?_) fun register => ?_
  · intro response choice before after once _ served
    obtain rfl := serve_nextCounter served
    exact ⟨once, fun _ => .refl _ _, fun _ _ => trivial⟩
  have stable (recorded : Option Nat) :
      counterDiscipline.Stable owner (UntakenFrom context recorded) :=
    fun _ _ onceBefore onceAfter relies from' counter below =>
      stable_untaken _ _ onceBefore onceAfter relies (from' counter below)
  refine secures_attempt_bind (secures_counter stable ?_) fun recorded => ?_
  · intro response choice before after once _ served
    obtain ⟨rfl, tells⟩ := serve_counter served
    refine ⟨once, fun _ => .refl _ _, fun recorded found counter below issued => ?_⟩
    -- The witness has recorded past everything that was handed out.
    obtain ⟨value, stands, past⟩ := once.seen context counter issued
    rw [tells recorded (mapError_eq_ok.mp found), stands] at below
    exact absurd past (below value rfl).not_gt
  · show counterDiscipline.Secures restoredAtRest owner (.done (compared register recorded)) _ _
    refine secures_pure fun world _ from' => ?_
    cases answer : compared register recorded with
    | error failure => trivial
    | ok held => exact from' _ (le_of_compared answer).2

theorem secures_advanceCounter {own : CounterWorld → Prop} {fact : CounterWorld → Prop}
    (stable : counterDiscipline.Stable owner fact)
    (kept : ∀ before after, own before → Witnesses context next before after → fact after) :
    counterDiscipline.Secures restoredAtRest owner (advanceCounter context next) own
      (outcome (fun _ => fact) fun _ => True) := by
  refine secures_counter (fun _ => stable) fun response choice before after once held served => ?_
  rcases serve_recording answer_advanceCounter nofun served with ⟨rfl, fails⟩ | advances
  · exact ⟨once, fun _ => .refl _ _, fun _ read => absurd (mapError_eq_ok.mp read) fails⟩
  · exact ⟨once.of_witnesses advances, fun _ => .of_witnesses advances, fun _ _ =>
      kept before _ held advances⟩

theorem secures_bear : counterDiscipline.Secures restoredAtRest owner
    (bear context held : RegisterCall Unit) (Untaken context counter)
    (outcome (fun _ => Untaken context counter) fun _ => True) := by
  unfold bear
  split
  · refine secures_advanceCounter stable_untaken fun before after untaken advances issued => ?_
    rw [advances.rest] at issued ⊢
    exact untaken issued
  · exact secures_return fun _ _ untaken => untaken

theorem secures_commitAdvance : counterDiscipline.Secures restoredAtRest owner
    (commitAdvance context held (held.getD 0 + 1) : RegisterCall Unit)
    (Untaken context (held.getD 0))
    (outcome (fun _ => Took owner context (held.getD 0)) fun _ => True) := by
  refine secures_counter (fun _ => stable_took) fun response choice before after once untaken
    served => ?_
  rcases serve_recording answer_commitAdvance nofun served with ⟨rfl, fails⟩ | commits
  · exact ⟨once, fun _ => .refl _ _, fun _ read => absurd (mapError_eq_ok.mp read) fails⟩
  · refine ⟨once.of_commits commits, fun _ => .of_commits commits, fun _ _ => ⟨commits.taken,
      ⟨held.getD 0 + 1, by rw [commits.register, Witness.insert_self], Nat.lt_succ_self _⟩,
      fun issued => ?_⟩⟩
    rw [Issued, commits.rest] at issued
    exact commits.not_past (untaken issued)

/-- What a call returns is its own, not above the cap, and recorded in the witness. -/
def Returns (owner : Nat) (reservation : CounterReservation) (world : CounterWorld) : Prop :=
  reservation.counter ≤ maxInvocationCounter ∧
    Took owner reservation.context reservation.counter world ∧
      world.Seen reservation.context reservation.counter

theorem secures_reserve : counterDiscipline.Secures restoredAtRest owner
    (reserve context : RegisterCall CounterReservation) (fun _ => True)
    (outcome (Returns owner) fun _ => True) := by
  refine secures_attempt_bind secures_check fun held => ?_
  dsimp only
  split
  · exact secures_pure fun _ _ _ => trivial
  · next capped =>
    refine secures_attempt_bind secures_bear fun _ => ?_
    refine secures_attempt_bind secures_commitAdvance fun _ => ?_
    have stable : counterDiscipline.Stable owner fun world =>
        Took owner context (held.getD 0) world ∧ world.Seen context (held.getD 0) :=
      fun _ _ onceBefore onceAfter relies both =>
        ⟨stable_took _ _ onceBefore onceAfter relies both.1, relies.seen _ _ both.2⟩
    refine secures_attempt_bind (secures_advanceCounter stable ?_) fun _ => ?_
    · intro before after took advances
      refine ⟨?_, _, by rw [advances.counters, Witness.insert_self], Nat.lt_succ_self _⟩
      rw [advances.rest]
      exact ⟨took.taken, took.past, took.unissued⟩
    · exact secures_return fun _ _ both => ⟨Nat.not_lt.mp capped, both⟩

theorem secures_reconcile : counterDiscipline.Secures restoredAtRest owner
    (reconcile context : RegisterCall (Option Nat)) (fun _ => True)
    (outcome (fun _ _ => True) fun _ => True) := by
  refine secures_attempt_bind secures_check fun held => ?_
  cases held with
  | none => exact secures_return fun _ _ _ => trivial
  | some next =>
    exact secures_attempt_bind (secures_advanceCounter stable_true fun _ _ _ _ => trivial)
      fun _ => secures_return fun _ _ _ => trivial

/-! ### All runs -/

theorem endsWell_of_issued (once : CountersOnce world) (same : after.issued = world.issued)
    (rest : after = { world with issued := after.issued, failed := after.failed }) :
    counterDiscipline.EndsWell owner world after := by
  have relies (other : Nat) : CounterRelies other world after := by
    rw [rest, same]
    exact ⟨fun _ _ => id, fun _ _ => id, fun _ _ taken _ => ⟨taken, id⟩, fun _ _ => .inl⟩
  refine ⟨⟨same ▸ once.once, same ▸ once.capped, fun context counter issued => ?_⟩,
    fun live other _ => ⟨fun _ => relies other, fun _ => trivial⟩⟩
  rw [Issued, same] at issued
  exact (relies owner).seen context counter (once.seen context counter issued)

theorem endsWell_reserved {reservation : CounterReservation} (once : CountersOnce world)
    (returns : Returns owner reservation world) : counterDiscipline.EndsWell owner world
      { world with issued := reservation :: world.issued } := by
  obtain ⟨capped, took, seen⟩ := returns
  refine ⟨⟨List.nodup_cons.mpr ⟨took.unissued, once.once⟩,
    List.forall_mem_cons.mpr ⟨capped, once.capped⟩, fun context counter issued => ?_⟩,
    fun live other different => ⟨fun _ => ⟨fun _ _ => id, fun _ _ => id,
      fun context counter taken _ => ⟨taken, fun issued => ?_⟩, fun context counter issued => ?_⟩,
      fun _ => trivial⟩⟩
  · rcases List.mem_cons.mp issued with rfl | earlier
    · exact seen
    · exact once.seen context counter earlier
  · rcases List.mem_cons.mp issued with rfl | earlier
    · exact absurd (Option.some.inj (took.taken.symm.trans taken)) different.symm
    · exact earlier
  · rcases List.mem_cons.mp issued with rfl | earlier
    · exact .inr took.past
    · exact .inl earlier

theorem secures_held {call : RegisterCall (Option Nat)}
    (secures : counterDiscipline.Secures restoredAtRest owner call (fun _ => True)
      (outcome (fun _ _ => True) fun _ => True)) :
    counterDiscipline.Secures restoredAtRest owner
      (do return .held (← call) : RegisterCall CounterValue) (fun _ => True)
      fun value world => counterDiscipline.EndsWell owner world (world.finish value) := by
  have ends (held : Option Nat) : counterDiscipline.Secures restoredAtRest owner
      (pure (.held held) : RegisterCall CounterValue) (fun _ => True)
      (outcome (fun value _ => ∃ held, value = .held held) fun _ => True) :=
    secures_return fun _ _ _ => ⟨held, rfl⟩
  refine (secures_attempt_bind secures ends).weaken (fun _ _ => id) fun value world once ended => ?_
  cases value with
  | error error => exact endsWell_of_issued once rfl rfl
  | ok value =>
    obtain ⟨held, rfl⟩ := ended
    exact endsWell_of_issued once rfl rfl

theorem counterDiscipline_holds : counterDiscipline.Holds restoredAtRest where
  secures call owner := by
    cases call with
    | check context =>
      exact secures_held (secures_check.weaken (fun _ _ => id) fun value _ _ _ => by
        cases value <;> trivial)
    | reconcile context => exact secures_held secures_reconcile
    | reserve context =>
      have ends (reservation : CounterReservation) : counterDiscipline.Secures restoredAtRest owner
          (pure (.reserved reservation) : RegisterCall CounterValue) (Returns owner reservation)
          (outcome (fun value world => ∃ reservation, value = .reserved reservation ∧
            Returns owner reservation world) fun _ => True) :=
        secures_return fun _ _ returns => ⟨reservation, rfl, returns⟩
      refine (secures_attempt_bind secures_reserve ends).weaken (fun _ _ => id)
        fun value world once ended => ?_
      cases value with
      | error error => exact endsWell_of_issued once rfl rfl
      | ok value =>
        obtain ⟨reservation, rfl, returns⟩ := ended
        exact endsWell_reserved once returns
  opening _ := stable_true
  cut _ _ once := endsWell_of_issued once rfl rfl
  move live register before after once atRest moved := by
    obtain rfl := Option.some.inj moved
    exact ⟨⟨once.once, once.capped, once.seen⟩,
      fun other _ => ⟨fun running => absurd running (atRest other), fun _ => trivial⟩⟩

/-- Whatever register and witness a run starts with, however often the register is restored to
whatever state while no call is in flight, and wherever its calls fail or are cut off, no counter is
handed out twice. -/
theorem counters_handed_out_once {register : CounterTable} {witness : Witness}
    {pool : Pool counting} (reached : Reaches restoredAtRest (.opened register witness) pool) :
    CountersOnce pool.world :=
  (sound_of_reaches counterDiscipline_holds
    ⟨List.nodup_nil, List.forall_mem_nil _, fun _ _ issued => absurd issued List.not_mem_nil⟩
    (fun _ => trivial) reached).invariant

/-! ### A run -/

def countedContext : CounterContext := ⟨.replicate 16 0, 1, ⟨.replicate 32 0⟩, 2⟩

/-- A counter was taken and not handed out; the register is restored to before that. -/
def countedWitness : Witness := ⟨fun _ => some 1, fun _ => none⟩

/-- Two handles reserve: the first takes a counter, and the second comes too late to take it. -/
def countedEvents : List (Event counting) :=
  [.start (.reserve countedContext), .start (.reserve countedContext),
    .serve 0 .answered, .serve 1 .answered, .serve 0 .answered, .serve 1 .answered,
    .serve 0 .answered, .serve 1 .answered, .serve 0 .answered, .finish 0, .finish 1]

theorem counters_handed_out_once_counted : ∃ pool : Pool counting, CountersOnce pool.world ∧
    pool.world.issued = [⟨countedContext, 1⟩] ∧
    pool.world.failed = [.register .conflict] := by
  have atRest (register : CounterTable) (owner : Nat) :
      ¬ (Pool.quiet (.opened register countedWitness) : Pool counting).live owner := by
    rintro ⟨_, running⟩
    cases running
  have restored : Reaches restoredAtRest (.opened (fun _ => some 2) countedWitness)
      (.quiet (.opened (fun _ => some 1) countedWitness)) :=
    .single ⟨.move fun _ => some 1, atRest _, rfl⟩
  have meets (pool : Pool counting) (event : Event counting)
      (passes : (match event with | .move _ => false | _ => true) = true) :
      restoredAtRest.Meets pool event := by
    cases event with
    | move register => cases passes
    | serve owner choice => exact fun _ _ _ => trivial
    | _ => trivial
  exact ⟨_, counters_handed_out_once (reaches_of_run meets restored (by rfl)
    (Option.some_get (by rfl : (Pool.run _ countedEvents).isSome)).symm), by rfl, by rfl⟩

end Dohflow.VaultCrypto
