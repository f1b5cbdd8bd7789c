/-
This file follows a vault's verified state over whole runs: what the vault persists, what
the witness recorded of it, and what the guard says after a restore.

Along a chain marks only move forward (`follows_of_grown`), and two states with one mark
have the same heads. A run keeps the witness at the mark of the newest persisted state,
or at the one before it while the newest is not settled (`Guarded`), so a state from
before that is told apart and the newest one never is.
-/

import Dohflow.VaultCrypto.VerifiedStateGuard

namespace Dohflow.VaultCrypto

open SyncCore PlatformTraits Program Relation VerifiedStateGuard

variable {crypto : Crypto} {vaultId : Uuid}
variable {earlier later : VerifiedState} {early late : VerifiedMark} {state : VerifiedState}
  {mark : VerifiedMark}

/-! ### Marks along a chain -/

/-- The mark of a chain state, with one positioned record for each accepted epoch record. -/
def markOf (state : VerifiedState) : Option VerifiedMark :=
  verifiedMarkOf state state.epochs.length

theorem markOf_eq_some :
    markOf state = some mark ↔ ∃ headId, state.headId = some headId ∧
      mark = ⟨state.headVersion, headId, state.keyEpoch, state.epochHeadId,
        state.epochs.length⟩ := by
  rw [markOf, verifiedMarkOf, Option.map_eq_some_iff]
  simp only [eq_comm]

theorem markOf_eq_none : markOf state = none ↔ state.steps = [] := by
  rw [markOf, verifiedMarkOf, Option.map_eq_none_iff, VerifiedState.headId, Option.map_eq_none_iff,
    List.getLast?_eq_none_iff]

theorem markOf_ne_birth (marked : markOf state = some mark) : mark ≠ .birth := by
  rintro rfl
  obtain ⟨headId, head, same⟩ := markOf_eq_some.mp marked
  have version : 0 = state.headVersion := congrArg VerifiedMark.membershipVersion same
  have nothing : state.steps = [] := List.eq_nil_of_length_eq_zero version.symm
  rw [VerifiedState.headId, nothing] at head
  cases head

theorem keyEpoch_le_of_prefix (grown : Grown earlier later) (invariant : EpochsInvariant later) :
    earlier.keyEpoch ≤ later.keyEpoch := by
  unfold VerifiedState.keyEpoch
  cases early : earlier.epochs.getLast? with
  | none => exact Nat.zero_le _
  | some last =>
    have member : last ∈ later.epochs := grown.epochs.subset (List.mem_of_getLast? early)
    obtain ⟨newest, late⟩ : ∃ newest, later.epochs.getLast? = some newest := by
      refine Option.ne_none_iff_exists'.mp fun none => ?_
      rw [List.getLast?_eq_none_iff.mp none] at member
      cases member
    rw [late]
    exact (invariant.precedes_last late member).keyEpoch

theorem follows_of_grown (grown : Grown earlier later) (invariant : EpochsInvariant later)
    (earlyMark : markOf earlier = some early) (lateMark : markOf later = some late) :
    late.Follows early := by
  obtain ⟨earlyHead, earlyId, rfl⟩ := markOf_eq_some.mp earlyMark
  obtain ⟨lateHead, lateId, rfl⟩ := markOf_eq_some.mp lateMark
  refine ⟨grown.steps.length_le, keyEpoch_le_of_prefix grown invariant, grown.epochs.length_le,
    fun version => ?_, fun records => ?_⟩
  · have same : earlier.steps = later.steps := grown.steps.eq_of_length version.symm
    rw [VerifiedState.headId, same] at earlyId
    exact Option.some.inj (lateId.symm.trans earlyId)
  · have same : earlier.epochs = later.epochs := grown.epochs.eq_of_length records.symm
    show later.epochHeadId = earlier.epochHeadId
    rw [VerifiedState.epochHeadId, VerifiedState.epochHeadId, same]

theorem cmpProgress_of_grown (grown : Grown earlier later) (invariant : EpochsInvariant later)
    (earlyMark : markOf earlier = some early) (lateMark : markOf later = some late) :
    late.cmpProgress early = .equal ∨ late.cmpProgress early = .ahead :=
  (follows_of_grown grown invariant earlyMark lateMark).cmpProgress (markOf_ne_birth lateMark)
    (markOf_ne_birth earlyMark)

theorem behind_of_grown (grown : Grown earlier later) (invariant : EpochsInvariant later)
    (earlyMark : markOf earlier = some early) (lateMark : markOf later = some late)
    (differs : late ≠ early) : early.cmpProgress late = .behind := by
  rw [VerifiedMark.cmpProgress_comm]
  obtain equal | ahead := cmpProgress_of_grown grown invariant earlyMark lateMark
  · exact absurd (VerifiedMark.cmpProgress_eq_equal.mp equal) differs
  · rw [ahead]
    rfl

/-! ### Runs of a vault -/

/-- A vault, its witness, and where it stands in the documented order. -/
structure Vault where
  witness : Witness
  /-- The verified state the vault holds. -/
  persisted : Option VerifiedState
  /-- What it held before, newest first. -/
  older : List VerifiedState
  /-- `begin` has succeeded. -/
  begun : Bool
  /-- What is persisted has been recorded or reconciled. -/
  settled : Bool

namespace Vault

/-- A vault that has persisted nothing. -/
def fresh (witness : Witness) : Vault :=
  { witness, persisted := none, older := [], begun := false, settled := true }

/-- The mark of the state the vault loads. -/
def loaded (vault : Vault) : Option VerifiedMark := vault.persisted.bind markOf

/-- The vault from a backup: its own state is replaced, the witness is not. -/
def restore (vault : Vault) (backup : Option VerifiedState) : Vault :=
  { vault with persisted := backup }

/-- One step of a vault that is never restored. A call can be cut off anywhere; its outcome is then
lost. -/
inductive Step (crypto : Crypto) (vaultId : Uuid) (before : Vault) : Vault → Prop
  | begins {outcome : Option (Except VerifiedStateError Unit)} {witness : Witness}
      (execution : Execution Witness.Serves (begin vaultId) before.witness outcome witness) :
      Step crypto vaultId before
        { before with witness, begun := before.begun || outcome = some (.ok ()) }
  | persists {state : VerifiedState} (begun : before.begun) (settled : before.settled)
      (later : Later crypto (before.persisted.getD (.empty vaultId)) state) :
      Step crypto vaultId before
        { before with
          persisted := some state, older := before.persisted.toList ++ before.older
          settled := false }
  | records {mark : VerifiedMark} (loaded : before.loaded = some mark)
      {outcome : Option (Except VerifiedStateError Unit)} {witness : Witness}
      (execution : Execution Witness.Serves (record vaultId mark) before.witness outcome witness) :
      Step crypto vaultId before
        { before with witness, settled := before.settled || outcome = some (.ok ()) }
  | reconciles {outcome : Option (Except VerifiedStateError Unit)} {witness : Witness}
      (execution : Execution Witness.Serves (reconcile vaultId before.loaded) before.witness outcome
        witness) :
      Step crypto vaultId before
        { before with witness, settled := before.settled || outcome = some (.ok ()) }

def Run (crypto : Crypto) (vaultId : Uuid) : Vault → Vault → Prop :=
  ReflTransGen (Step crypto vaultId)

end Vault

/-- What every run without a restore keeps true. -/
structure Guarded (crypto : Crypto) (vaultId : Uuid) (vault : Vault) : Prop where
  reachable : ∀ state, vault.persisted = some state → Reachable crypto vaultId state
  reachableOlder : ∀ old ∈ vault.older, Reachable crypto vaultId old
  /-- What was persisted before is part of what is persisted now. -/
  grew : ∀ old ∈ vault.older, ∃ newest, vault.persisted = some newest ∧ Grown old newest
  ascending : vault.older.Pairwise fun newer old => Grown old newer
  known : vault.begun = true → vault.witness.marks vaultId ≠ none
  begun : vault.persisted ≠ none → vault.begun = true
  stands : Stands vault.loaded (vault.witness.marks vaultId) ∨
    (vault.settled = false ∧
      Stands (vault.older.head?.bind markOf) (vault.witness.marks vaultId))

theorem stands_touched {shown recorded held now : Option VerifiedMark} (stands : Stands shown held)
    (touched : Touched recorded held now) :
    Stands shown now ∨ (recorded ≠ none ∧ now = recorded) := by
  obtain rfl | ⟨rfl, rfl⟩ | stored := touched
  · exact .inl stands
  · cases shown with
    | none => exact .inl (.inr rfl)
    | some mark => cases stands
  · exact .inr stored

theorem stands_self {mark : Option VerifiedMark} (marked : mark ≠ none) : Stands mark mark := by
  cases mark with
  | none => exact absurd rfl marked
  | some mark => rfl

theorem ne_none_of_touched {recorded held now : Option VerifiedMark}
    (touched : Touched recorded held now) (known : held ≠ none) : now ≠ none := by
  obtain rfl | ⟨rfl, rfl⟩ | ⟨marked, rfl⟩ := touched
  · exact known
  · exact Option.some_ne_none _
  · exact marked

namespace Guarded

variable {vault next : Vault}

theorem epochsInvariant (reachable : Reachable crypto vaultId state) :
    EpochsInvariant state := reachable.run.epochsInvariant

theorem older_eq_nil (guarded : Guarded crypto vaultId vault) (nothing : vault.persisted = none) :
    vault.older = [] := by
  refine List.eq_nil_iff_forall_not_mem.mpr fun old member => ?_
  obtain ⟨newest, persisted, _⟩ := guarded.grew old member
  rw [nothing] at persisted
  cases persisted

theorem agrees_of_stands_none {loaded witnessed : Option VerifiedMark}
    (stands : Stands none witnessed) (known : loaded ≠ none → witnessed ≠ none)
    (real : loaded ≠ some .birth) : Agrees loaded witnessed := by
  cases loaded with
  | none =>
    obtain rfl | rfl := stands
    · exact trivial
    · rfl
  | some mark =>
    obtain rfl | rfl := stands
    · exact absurd rfl (known (Option.some_ne_none mark))
    · refine .inr (VerifiedMark.cmpProgress_birth fun birth => real ?_)
      rw [birth]

theorem loaded_ne_birth (vault : Vault) : vault.loaded ≠ some .birth := by
  intro birth
  obtain ⟨state, _, marked⟩ := Option.bind_eq_some_iff.mp birth
  exact markOf_ne_birth marked rfl

/-- The witness never knows more than the vault that was not restored. -/
theorem agrees (guarded : Guarded crypto vaultId vault) :
    Agrees vault.loaded (vault.witness.marks vaultId) := by
  have known : vault.loaded ≠ none → vault.witness.marks vaultId ≠ none := by
    intro loaded
    refine guarded.known (guarded.begun fun nothing => loaded ?_)
    rw [Vault.loaded, nothing]
    rfl
  have real := loaded_ne_birth vault
  obtain stands | ⟨_, stands⟩ := guarded.stands
  · cases shown : vault.loaded with
    | none =>
      rw [shown] at stands
      exact agrees_of_stands_none stands (fun some => absurd rfl some) (by decide)
    | some mark =>
      rw [shown] at stands
      have held : vault.witness.marks vaultId = some mark := stands
      rw [held]
      exact .inl (VerifiedMark.cmpProgress_eq_equal.mpr rfl)
  · cases marked : vault.older.head?.bind markOf with
    | none =>
      rw [marked] at stands
      exact agrees_of_stands_none stands known real
    | some early =>
      rw [marked] at stands
      have held : vault.witness.marks vaultId = some early := stands
      obtain ⟨old, first, earlyMark⟩ := Option.bind_eq_some_iff.mp marked
      obtain ⟨newest, persisted, grown⟩ := guarded.grew old (List.mem_of_head? first)
      rw [held, Vault.loaded, persisted, Option.bind_some]
      cases lateMark : markOf newest with
      | none =>
        have empty : old.steps = [] := by
          have nothing := grown.steps
          rw [markOf_eq_none.mp lateMark] at nothing
          exact List.prefix_nil.mp nothing
        rw [markOf_eq_none.mpr empty] at earlyMark
        cases earlyMark
      | some late =>
        exact cmpProgress_of_grown grown (epochsInvariant (guarded.reachable newest persisted))
          earlyMark lateMark

theorem fresh {witness : Witness} (unseen : witness.marks vaultId = none) :
    Guarded crypto vaultId (.fresh witness) where
  reachable _ nothing := nomatch nothing
  reachableOlder _ member := nomatch member
  grew _ member := nomatch member
  ascending := .nil
  known begun := nomatch begun
  begun some := absurd rfl some
  stands := .inl (.inl unseen)

/-- A call that touches the vault's mark, and settles only what the witness then stands at. -/
theorem calls (guarded : Guarded crypto vaultId vault) {witness : Witness} {begun settled : Bool}
    {recorded : Option VerifiedMark}
    (touched : Touched recorded (vault.witness.marks vaultId) (witness.marks vaultId))
    (own : recorded = none ∨ recorded = vault.loaded)
    (known : begun = true → witness.marks vaultId ≠ none) (kept : vault.begun = true → begun = true)
    (settles : settled = true →
      vault.settled = true ∨ Stands vault.loaded (witness.marks vaultId)) :
    Guarded crypto vaultId { vault with witness, begun, settled } where
  reachable := guarded.reachable
  reachableOlder := guarded.reachableOlder
  grew := guarded.grew
  ascending := guarded.ascending
  known := known
  begun persisted := kept (guarded.begun persisted)
  stands := by
    show Stands vault.loaded (witness.marks vaultId) ∨ _
    have atLoaded : recorded ≠ none ∧ witness.marks vaultId = recorded →
        Stands vault.loaded (witness.marks vaultId) := by
      rintro ⟨marked, same⟩
      obtain nothing | rfl := own
      · exact absurd nothing marked
      · rw [same]
        exact stands_self marked
    obtain stands | ⟨unsettled, stands⟩ := guarded.stands
    · exact .inl ((stands_touched stands touched).elim id atLoaded)
    · obtain stands | stored := stands_touched stands touched
      · cases settled with
        | false => exact .inr ⟨rfl, stands⟩
        | true =>
          obtain already | stands := settles rfl
          · rw [unsettled] at already
            cases already
          · exact .inl stands
      · exact .inl (atLoaded stored)

/-- What is persisted when the last state is settled stands before the new one. -/
theorem persists (guarded : Guarded crypto vaultId vault) (begun : vault.begun = true)
    (settled : vault.settled = true)
    (later : Later crypto (vault.persisted.getD (.empty vaultId)) state) :
    Guarded crypto vaultId
      { vault with
        persisted := some state, older := vault.persisted.toList ++ vault.older
        settled := false } := by
  have stands : Stands vault.loaded (vault.witness.marks vaultId) := by
    obtain stands | ⟨unsettled, _⟩ := guarded.stands
    · exact stands
    · rw [settled] at unsettled
      cases unsettled
  cases held : vault.persisted with
  | none =>
    rw [held] at later
    rw [guarded.older_eq_nil held]
    rw [Vault.loaded, held] at stands
    refine ⟨?_, fun _ member => (nomatch member), fun _ member => (nomatch member), .nil,
      guarded.known, fun _ => begun, .inr ⟨rfl, stands⟩⟩
    rintro _ ⟨⟩
    exact later
  | some newest =>
    rw [held] at later
    rw [Vault.loaded, held] at stands
    have grown : Grown newest state := Later.grown later
    refine ⟨?_, ?_, ?_, ?_, guarded.known, fun _ => begun, .inr ⟨rfl, stands⟩⟩
    · rintro _ ⟨⟩
      exact (guarded.reachable newest held).trans later
    · exact List.forall_mem_cons.mpr ⟨guarded.reachable newest held, guarded.reachableOlder⟩
    · refine List.forall_mem_cons.mpr ⟨⟨state, rfl, grown⟩, fun old member => ?_⟩
      obtain ⟨last, same, before⟩ := guarded.grew old member
      obtain rfl := Option.some.inj (held.symm.trans same)
      exact ⟨state, rfl, before.trans grown⟩
    · refine List.pairwise_cons.mpr ⟨fun old member => ?_, guarded.ascending⟩
      obtain ⟨last, same, before⟩ := guarded.grew old member
      obtain rfl := Option.some.inj (held.symm.trans same)
      exact before

theorem step (guarded : Guarded crypto vaultId vault) (step : Vault.Step crypto vaultId vault next) :
    Guarded crypto vaultId next := by
  cases step with
  | @begins outcome witness execution =>
    have began := leads_begin _ _ execution
    refine guarded.calls began.touched (.inl rfl) (fun begun => ?_) (fun begun => ?_) .inl
    · obtain before | succeeded := Bool.or_eq_true_iff.mp begun
      · exact ne_none_of_touched began.touched (guarded.known before)
      · exact began.begun (of_decide_eq_true succeeded)
    · rw [begun, Bool.true_or]
  | persists begun settled later => exact guarded.persists begun settled later
  | @records mark loaded outcome witness execution =>
    have recorded := leads_record mark _ _ execution
    refine guarded.calls recorded.touched (.inr loaded.symm)
      (fun begun => ne_none_of_touched recorded.touched (guarded.known begun)) id
      (fun settled => (Bool.or_eq_true_iff.mp settled).imp_right fun succeeded => ?_)
    rw [loaded]
    exact recorded.stored (of_decide_eq_true succeeded)
  | @reconciles outcome witness execution =>
    have reconciled := leads_reconcile vault.loaded _ _ execution
    exact guarded.calls reconciled.touched (.inr rfl)
      (fun begun => ne_none_of_touched reconciled.touched (guarded.known begun)) id
      (fun settled => (Bool.or_eq_true_iff.mp settled).imp_right fun succeeded =>
        reconciled.settles (of_decide_eq_true succeeded))

theorem run {witness : Witness} (unseen : witness.marks vaultId = none)
    (run : Vault.Run crypto vaultId (.fresh witness) vault) : Guarded crypto vaultId vault := by
  induction run with
  | refl => exact fresh unseen
  | tail _ stepped inductionHypothesis => exact inductionHypothesis.step stepped

/-- A state from before the newest, with another mark than the witness's, is behind it. -/
theorem not_agrees_older (guarded : Guarded crypto vaultId vault) {old : VerifiedState}
    (member : old ∈ vault.older) {early : VerifiedMark} (marked : markOf old = some early)
    (differs : vault.witness.marks vaultId ≠ some early) :
    ¬ Agrees (some early) (vault.witness.marks vaultId) := by
  have behind {later : VerifiedState} {late : VerifiedMark} (grown : Grown old later)
      (reachable : Reachable crypto vaultId later) (lateMark : markOf later = some late)
      (held : vault.witness.marks vaultId = some late) :
      ¬ Agrees (some early) (vault.witness.marks vaultId) := by
    have other : late ≠ early := by
      rintro rfl
      exact differs held
    rw [held]
    show ¬ (early.cmpProgress late = .equal ∨ early.cmpProgress late = .ahead)
    rw [behind_of_grown grown (epochsInvariant reachable) marked lateMark other]
    decide
  have unmarked {later : VerifiedState} (grown : Grown old later) : markOf later ≠ none := by
    intro nothing
    have empty := grown.steps
    rw [markOf_eq_none.mp nothing, List.prefix_nil] at empty
    rw [markOf_eq_none.mpr empty] at marked
    cases marked
  have stands_at {later : VerifiedState} (grown : Grown old later)
      (reachable : Reachable crypto vaultId later)
      (stands : Stands (markOf later) (vault.witness.marks vaultId)) :
      ¬ Agrees (some early) (vault.witness.marks vaultId) := by
    obtain ⟨late, lateMark⟩ := Option.ne_none_iff_exists'.mp (unmarked grown)
    rw [lateMark] at stands
    exact behind grown reachable lateMark stands
  obtain ⟨newest, persisted, grown⟩ := guarded.grew old member
  obtain stands | ⟨_, stands⟩ := guarded.stands
  · rw [Vault.loaded, persisted] at stands
    exact stands_at grown (guarded.reachable newest persisted) stands
  · obtain ⟨last, rest, split⟩ := List.exists_cons_of_ne_nil (List.ne_nil_of_mem member)
    rw [split] at stands member
    have reachable := guarded.reachableOlder
    have ascending := guarded.ascending
    rw [split] at reachable ascending
    have below : Grown old last := by
      obtain rfl | later := List.mem_cons.mp member
      · exact .refl old
      · exact (List.pairwise_cons.mp ascending).1 old later
    exact stands_at below (reachable last List.mem_cons_self) stands

end Guarded

theorem check_answered {witness : Witness} {loaded : Option VerifiedMark}
    (differs : ¬ Agrees loaded (witness.marks vaultId)) :
    ((check vaultId loaded).runWith Witness.answer witness).1 = .error .stateRolledBack := by
  obtain ⟨agrees, _⟩ | ⟨_, same⟩ := verdict_cases loaded (witness.marks vaultId)
  · exact absurd agrees differs
  · show (runWith Witness.answer (verdict loaded (witness.marks vaultId)) witness).1 = _
    rw [same]
    rfl

/-- Rollback detection is exact: a run without a restore never sees a rollback reported, and a
restore to an older state that the witness does not stand at, or to nothing under a real mark, is
reported whenever the witness answers. Along a chain marks only move forward, an equal mark names
the same heads, and ahead and behind are each other's converse. -/
theorem stateRolledBack_exact {witness : Witness} {vault : Vault}
    (unseen : witness.marks vaultId = none)
    (run : Vault.Run crypto vaultId (.fresh witness) vault) :
    (∀ outcome after,
      Execution Witness.Serves (check vaultId vault.loaded) vault.witness outcome after ∨
        Execution Witness.Serves (reconcile vaultId vault.loaded) vault.witness outcome after →
      outcome ≠ some (.error .stateRolledBack)) ∧
    (∀ old ∈ vault.older, ∀ mark, (vault.restore old).loaded = some mark →
      vault.witness.marks vaultId ≠ some mark →
      ((check vaultId (some mark)).runWith Witness.answer vault.witness).1 =
        .error .stateRolledBack) ∧
    (∀ mark, vault.witness.marks vaultId = some mark → mark ≠ .birth →
      ((check vaultId (vault.restore none).loaded).runWith Witness.answer vault.witness).1 =
        .error .stateRolledBack) ∧
    (∀ earlier later, Reachable crypto vaultId earlier → Later crypto earlier later →
      ∀ early late, markOf earlier = some early → markOf later = some late →
        (late.cmpProgress early = .equal ∨ late.cmpProgress early = .ahead) ∧
        (late.cmpProgress early = .equal → later.headId = earlier.headId ∧
          later.epochHeadId = earlier.epochHeadId)) ∧
    (∀ mark other : VerifiedMark,
      mark.cmpProgress other = .ahead ↔ other.cmpProgress mark = .behind) := by
  have guarded := Guarded.run unseen run
  refine ⟨?_, ?_, ?_, ?_, ?_⟩
  · rintro _ after (execution | execution) rfl
    · exact (leads_check vault.loaded _ _ execution).reports rfl guarded.agrees
    · exact (leads_reconcile vault.loaded _ _ execution).reports rfl guarded.agrees
  · intro old member mark marked differs
    exact check_answered (guarded.not_agrees_older member marked differs)
  · intro mark held real
    refine check_answered ?_
    rw [held]
    exact real
  · intro earlier later reachable extended early late earlyMark lateMark
    have grown := Later.grown extended
    have invariant : EpochsInvariant later := Guarded.epochsInvariant (reachable.trans extended)
    refine ⟨cmpProgress_of_grown grown invariant earlyMark lateMark, fun equal => ?_⟩
    obtain rfl := VerifiedMark.cmpProgress_eq_equal.mp equal
    obtain ⟨earlyHead, earlyId, same⟩ := markOf_eq_some.mp earlyMark
    obtain ⟨lateHead, lateId, rfl⟩ := markOf_eq_some.mp lateMark
    have heads : lateHead = earlyHead := congrArg VerifiedMark.membershipHeadId same
    have epochHeads : later.epochHeadId = earlier.epochHeadId :=
      congrArg VerifiedMark.epochHeadId same
    rw [lateId, earlyId, heads]
    exact ⟨rfl, epochHeads⟩
  · intro mark other
    rw [VerifiedMark.cmpProgress_comm mark other]
    cases mark.cmpProgress other <;> decide

theorem run_persist_record {vault : Vault} (guarded : Guarded crypto vaultId vault)
    (begun : vault.begun = true) (settled : vault.settled = true)
    (later : Later crypto (vault.persisted.getD (.empty vaultId)) state)
    (marked : markOf state = some mark) :
    ∃ next, Vault.Run crypto vaultId vault next ∧ next.persisted = some state ∧
      next.older = vault.persisted.toList ++ vault.older ∧ next.begun = true ∧
      next.settled = true ∧ next.witness.marks vaultId = some mark := by
  have between := guarded.persists begun settled later
  have fits : Witness.MarkFits mark (vault.witness.marks vaultId) := by
    have agrees := between.agrees
    rw [Vault.loaded, Option.bind_some, marked] at agrees
    exact markFits_of_agrees agrees
  have execution := execution_runWith serves_answer (record vaultId mark) vault.witness
  rw [runWith_record fits] at execution
  have recorded := leads_record mark _ _ execution
  refine ⟨_, .tail (.single (.persists begun settled later)) (.records ?_ execution), rfl, rfl,
    begun, rfl, recorded.stored rfl⟩
  rw [Vault.loaded, Option.bind_some, marked]

/-- The founder's vault persists two states in turn, and is restored to the first. -/
theorem stateRolledBack_exact_sample :
    ∃ vault, Vault.Run sampleCrypto sampleFounder.vaultId
        (.fresh ⟨fun _ => none, fun _ => none⟩) vault ∧
      ∃ mark, (vault.restore (sampleFounder.chain 1)).loaded = some mark ∧
        ((check sampleFounder.vaultId (some mark)).runWith Witness.answer vault.witness).1 =
          .error .stateRolledBack := by
  obtain ⟨after, begun, _⟩ := @runWith_begin sampleFounder.vaultId ⟨fun _ => none, fun _ => none⟩
  have execution := execution_runWith serves_answer (begin sampleFounder.vaultId)
    ⟨fun _ => none, fun _ => none⟩
  rw [begun] at execution
  have began := @Vault.Step.begins sampleCrypto _ (.fresh _) _ _ execution
  have start : Vault.Run sampleCrypto sampleFounder.vaultId (.fresh ⟨fun _ => none, fun _ => none⟩)
      ⟨after, none, [], true, true⟩ := .single began
  have unseen : (⟨fun _ => none, fun _ => none⟩ : Witness).marks sampleFounder.vaultId = none := rfl
  have head (count : Nat) : (sampleFounder.chain count).headId = some sampleFounder.genesisId := rfl
  have first : Later sampleCrypto (.empty sampleFounder.vaultId) (sampleFounder.chain 1) :=
    .single ⟨_, _, verifyChain_sample (by decide) (by decide)⟩
  obtain ⟨one, runOne, persistedOne, olderOne, begunOne, settledOne, _⟩ :=
    run_persist_record (Guarded.run unseen start) rfl rfl first
      (markOf_eq_some.mpr ⟨_, head 1, rfl⟩)
  have runOne := start.trans runOne
  have second : Later sampleCrypto (one.persisted.getD (.empty sampleFounder.vaultId))
      (sampleFounder.chain 2) := by
    rw [persistedOne]
    exact .single ⟨_, _, Founder.extend_next (sampleCrypto_collisionFree _) (by decide)⟩
  obtain ⟨two, runTwo, _, olderTwo, _, _, heldTwo⟩ :=
    run_persist_record (Guarded.run unseen runOne) begunOne settledOne second
      (markOf_eq_some.mpr ⟨_, head 2, rfl⟩)
  have older : sampleFounder.chain 1 ∈ two.older := by
    rw [olderTwo, persistedOne]
    exact List.mem_cons_self
  have marked := markOf_eq_some.mpr ⟨_, head 1, rfl⟩
  refine ⟨two, runOne.trans runTwo, _, marked,
    (stateRolledBack_exact unseen (runOne.trans runTwo)).2.1 _ older _ marked ?_⟩
  rw [heldTwo]
  intro same
  exact absurd (congrArg VerifiedMark.positionedRecords (Option.some.inj same)) (by decide)

end Dohflow.VaultCrypto
