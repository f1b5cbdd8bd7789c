/-
This file models the anti-rollback guard of a vault's verified state and proves that it
detects a rollback exactly.

The guard's calls are programs over the witness. A vault follows the documented order:
it begins in the witness, persists a later state, records its mark, and persists the
next one only after that or after a successful reconciliation. Any call can be cut off
and the witness can be out of reach. What carries the proof is `Stands`: the witness
stands at the mark of the persisted state, or at the one before it while the newest is
not settled.
-/

import Dohflow.PlatformTraits.Witness
import Dohflow.SyncCore.ChainInvariant

namespace Dohflow.VaultCrypto

open SyncCore PlatformTraits Program Relation

/-- Why the verified state is not trusted. -/
inductive VerifiedStateError
  | stateRolledBack
  | witness (error : WitnessError)
  deriving DecidableEq

/-- The mark of a verified chain; none for a chain with no record. -/
def verifiedMarkOf (state : VerifiedState) (positionedRecords : Nat) : Option VerifiedMark :=
  state.headId.map fun membershipHeadId =>
    { membershipVersion := state.headVersion, membershipHeadId, keyEpoch := state.keyEpoch
      epochHeadId := state.epochHeadId, positionedRecords }

/-! ### The guard -/

/-- A call of the guard. -/
abbrev GuardCall (Value : Type) : Type :=
  Attempt WitnessRequest WitnessRequest.Response VerifiedStateError Value

namespace VerifiedStateGuard

section

variable (vaultId : Uuid)

def verifiedMark : GuardCall (Option VerifiedMark) :=
  attempt (.verifiedMark vaultId) (Except.mapError .witness)

/-- Step 0: record the birth mark, unless the witness holds a mark. -/
def begin : GuardCall Unit := do
  if (← verifiedMark vaultId).isNone then
    attempt (.advanceVerifiedMark vaultId .birth) (Except.mapError .witness)
  else return ()

/-- Check the mark of the state the vault loaded against the witness. -/
def check (loaded : Option VerifiedMark) : GuardCall Unit := do
  match loaded, ← verifiedMark vaultId with
  | none, none => return ()
  | none, some witnessed =>
    if witnessed.isBirth then return () else throw .stateRolledBack
  | some loaded, some witnessed =>
    match loaded.cmpProgress witnessed with
    | .equal => return ()
    | .ahead => return ()
    | .behind => throw .stateRolledBack
    | .diverged => throw .stateRolledBack
  | some _, none => throw .stateRolledBack

/-- How a recording answer reads: a witness that would regress means a rollback. -/
def readRecorded : Except WitnessError Unit → Except VerifiedStateError Unit
  | .ok () => .ok ()
  | .error .wouldRegress => .error .stateRolledBack
  | .error error => .error (.witness error)

/-- Record that the vault has persisted a state with this mark. -/
def record (mark : VerifiedMark) : GuardCall Unit := do
  begin vaultId
  attempt (.advanceVerifiedMark vaultId mark) readRecorded

/-- Check, and record a loaded state that the witness has not seen. -/
def reconcile (loaded : Option VerifiedMark) : GuardCall Unit := do
  check vaultId loaded
  match loaded with
  | some loaded =>
    if (← verifiedMark vaultId) ≠ some loaded then record vaultId loaded else return ()
  | none => return ()

end

/-! ### What a call can do -/

variable {vaultId : Uuid} {before : Witness}
variable {ends : Option (Except VerifiedStateError Unit) → Witness → Prop} {mark : VerifiedMark}
  (loaded : Option VerifiedMark) {witnessed : Option VerifiedMark} {witness : Witness}

/-- The witness's mark agrees with the loaded one: no more than it, or the birth mark for nothing
loaded. -/
def Agrees : Option VerifiedMark → Option VerifiedMark → Prop
  | none, none => True
  | none, some witnessed => witnessed = .birth
  | some loaded, some witnessed =>
    loaded.cmpProgress witnessed = .equal ∨ loaded.cmpProgress witnessed = .ahead
  | some _, none => False

/-- What `check` says once the witness has answered. -/
def verdict (loaded witnessed : Option VerifiedMark) : GuardCall Unit :=
  match loaded, witnessed with
  | none, none => return ()
  | none, some witnessed =>
    if witnessed.isBirth then return () else throw .stateRolledBack
  | some loaded, some witnessed =>
    match loaded.cmpProgress witnessed with
    | .equal => return ()
    | .ahead => return ()
    | .behind => throw .stateRolledBack
    | .diverged => throw .stateRolledBack
  | some _, none => throw .stateRolledBack

theorem check_eq : check vaultId loaded = verifiedMark vaultId >>= verdict loaded := rfl

theorem verdict_cases (loaded witnessed : Option VerifiedMark) :
    (Agrees loaded witnessed ∧ verdict loaded witnessed = .done (.ok ())) ∨
      (¬ Agrees loaded witnessed ∧
        verdict loaded witnessed = .done (.error .stateRolledBack)) := by
  cases loaded with
  | none =>
    cases witnessed with
    | none => exact .inl ⟨trivial, rfl⟩
    | some witnessed =>
      by_cases birth : witnessed = .birth
      · rw [birth]
        exact .inl ⟨rfl, rfl⟩
      · refine .inr ⟨birth, ?_⟩
        rw [verdict, VerifiedMark.isBirth_eq_false.mpr birth]
        rfl
  | some loaded =>
    cases witnessed with
    | none => exact .inr ⟨id, rfl⟩
    | some witnessed =>
      unfold verdict Agrees
      dsimp only
      cases loaded.cmpProgress witnessed with
      | equal => exact .inl ⟨.inl rfl, rfl⟩
      | ahead => exact .inl ⟨.inr rfl, rfl⟩
      | behind => exact .inr ⟨by decide, rfl⟩
      | diverged => exact .inr ⟨by decide, rfl⟩

theorem leads_verifiedMark_bind {next : Option VerifiedMark → GuardCall Unit}
    (cutOff : ends none before) (unanswered : ends (some (.error (.witness .unavailable))) before)
    (rest : Leads Witness.Serves (next (before.marks vaultId)) before ends) :
    Leads Witness.Serves (verifiedMark vaultId >>= next : GuardCall Unit) before ends := by
  refine leads_attempt_bind cutOff ?_ ?_
  · intro response failure after served refused
    obtain ⟨rfl, rfl | rfl⟩ := Witness.serves_verifiedMark served
    · cases refused
    · cases refused
      exact ⟨cutOff, unanswered⟩
  · intro response witnessed after served read
    obtain ⟨rfl, rfl | rfl⟩ := Witness.serves_verifiedMark served
    · cases read
      exact rest
    · cases read

theorem leads_advanceVerifiedMark {read : Except WitnessError Unit → Except VerifiedStateError Unit}
    (cutOff : ends none before) (refused : ¬ Witness.MarkFits mark (before.marks vaultId) →
      ends (some (read (.error .wouldRegress))) before)
    (unanswered : ends (some (read (.error .unavailable))) before)
    (recorded : ∀ after, after.marks vaultId = some mark → ends none after ∧
      ends (some (read (.error .unavailable))) after ∧ ends (some (read (.ok ()))) after) :
    Leads Witness.Serves (attempt (.advanceVerifiedMark vaultId mark) read : GuardCall Unit) before
      ends := by
  refine leads_attempt cutOff fun response after served => ?_
  have stored : ∀ {later : Witness}, later.marks = Witness.insert before.marks vaultId mark →
      later.marks vaultId = some mark := by
    intro later same
    rw [same, Witness.insert_self]
  obtain ⟨rfl, misfit, rfl⟩ | ⟨rfl, rfl | same⟩ | ⟨rfl, same⟩ :=
    Witness.serves_advanceVerifiedMark served
  · exact ⟨cutOff, refused misfit⟩
  · exact ⟨cutOff, unanswered⟩
  · exact ⟨(recorded after (stored same)).1, (recorded after (stored same)).2.1⟩
  · exact ⟨(recorded after (stored same)).1, (recorded after (stored same)).2.2⟩

/-- How a check ends. -/
structure Checked (loaded : Option VerifiedMark) (before : Witness)
    (outcome : Option (Except VerifiedStateError Unit)) (after : Witness) : Prop where
  unchanged : after = before
  passes : outcome = some (.ok ()) → Agrees loaded (before.marks vaultId)
  reports : outcome = some (.error .stateRolledBack) → ¬ Agrees loaded (before.marks vaultId)

theorem leads_check :
    Leads Witness.Serves (check vaultId loaded) before (@Checked vaultId loaded before) := by
  have nothing {outcome : Option (Except VerifiedStateError Unit)} (notOk : outcome ≠ some (.ok ()))
      (silent : outcome ≠ some (.error .stateRolledBack)) :
      @Checked vaultId loaded before outcome before :=
    ⟨rfl, fun ok => absurd ok notOk, fun reported => absurd reported silent⟩
  rw [check_eq]
  refine leads_verifiedMark_bind (nothing (by decide) (by decide))
    (nothing (by decide) (by decide)) ?_
  obtain ⟨agrees, same⟩ | ⟨differs, same⟩ := verdict_cases loaded (before.marks vaultId)
  · rw [same]
    exact leads_done (nothing (by decide) (by decide))
      ⟨rfl, fun _ => agrees, fun reported => (nomatch reported)⟩
  · rw [same]
    exact leads_done (nothing (by decide) (by decide))
      ⟨rfl, fun ok => (nomatch ok), fun _ => differs⟩

/-- What recording can do to the vault's mark: nothing, its birth, or the recorded mark. -/
def Touched (recorded held now : Option VerifiedMark) : Prop :=
  now = held ∨ (held = none ∧ now = some .birth) ∨ (recorded ≠ none ∧ now = recorded)

/-- How a beginning ends. -/
structure Began (before : Witness) (outcome : Option (Except VerifiedStateError Unit))
    (after : Witness) : Prop where
  touched : Touched none (before.marks vaultId) (after.marks vaultId)
  begun : outcome = some (.ok ()) → after.marks vaultId ≠ none
  silent : outcome ≠ some (.error .stateRolledBack)

theorem leads_begin : Leads Witness.Serves (begin vaultId) before (@Began vaultId before) := by
  have nothing {outcome : Option (Except VerifiedStateError Unit)} (notOk : outcome ≠ some (.ok ()))
      (silent : outcome ≠ some (.error .stateRolledBack)) : @Began vaultId before outcome before :=
    ⟨.inl rfl, fun ok => absurd ok notOk, silent⟩
  refine leads_verifiedMark_bind (nothing (by decide) (by decide))
    (nothing (by decide) (by decide)) ?_
  cases held : before.marks vaultId with
  | some mark =>
    refine leads_done (nothing (by decide) (by decide)) ⟨.inl rfl, fun _ => ?_, by decide⟩
    rw [held]
    exact Option.some_ne_none mark
  | none =>
    refine leads_advanceVerifiedMark (nothing (by decide) (by decide))
      (fun _ => nothing (by decide) (by decide)) (nothing (by decide) (by decide)) ?_
    intro after recorded
    have born : Touched none (before.marks vaultId) (after.marks vaultId) := .inr (.inl ⟨held, recorded⟩)
    have known : after.marks vaultId ≠ none := by
      rw [recorded]
      exact Option.some_ne_none _
    exact ⟨⟨born, fun _ => known, by decide⟩, ⟨born, fun _ => known, by decide⟩,
      born, fun _ => known, by decide⟩

theorem markFits_birth (mark : VerifiedMark) : Witness.MarkFits mark (some .birth) := by
  rintro _ ⟨⟩
  by_cases birth : mark = .birth
  · exact .inl (VerifiedMark.cmpProgress_eq_equal.mpr birth)
  · exact .inr (VerifiedMark.cmpProgress_birth birth)

/-- How a recording ends. -/
structure Recorded (mark : VerifiedMark) (before : Witness)
    (outcome : Option (Except VerifiedStateError Unit)) (after : Witness) : Prop where
  touched : Touched (some mark) (before.marks vaultId) (after.marks vaultId)
  stored : outcome = some (.ok ()) → after.marks vaultId = some mark
  reports : outcome = some (.error .stateRolledBack) →
    ¬ Witness.MarkFits mark (before.marks vaultId)

theorem leads_record (mark : VerifiedMark) :
    Leads Witness.Serves (record vaultId mark) before (@Recorded vaultId mark before) := by
  refine leads_bind (leads_begin.weaken fun outcome between began => ?_)
  have touched : Touched (some mark) (before.marks vaultId) (between.marks vaultId) := by
    obtain same | born | ⟨absent, _⟩ := began.touched
    · exact .inl same
    · exact .inr (.inl born)
    · exact absurd rfl absent
  have nothing {outcome : Option (Except VerifiedStateError Unit)} (notOk : outcome ≠ some (.ok ()))
      (silent : outcome ≠ some (.error .stateRolledBack)) :
      @Recorded vaultId mark before outcome between :=
    ⟨touched, fun ok => absurd ok notOk, fun reported => absurd reported silent⟩
  match outcome, began.silent with
  | none, _ => exact nothing (by decide) (by decide)
  | some (.error error), silent => exact ⟨nothing (by decide) (by decide), nothing (by simp) silent⟩
  | some (.ok ()), _ =>
    refine leads_advanceVerifiedMark (nothing (by decide) (by decide)) (fun misfit => ?_)
      (nothing (by decide) (by decide)) fun after recorded => ?_
    · refine ⟨touched, fun ok => (nomatch ok), fun _ fits => misfit ?_⟩
      obtain same | ⟨_, born⟩ | ⟨absent, _⟩ := began.touched
      · rw [same]
        exact fits
      · rw [born]
        exact markFits_birth mark
      · exact absurd rfl absent
    · have stored : Touched (some mark) (before.marks vaultId) (after.marks vaultId) :=
        .inr (.inr ⟨Option.some_ne_none mark, recorded⟩)
      exact ⟨⟨stored, fun _ => recorded, fun reported => (nomatch reported)⟩,
        ⟨stored, fun _ => recorded, fun reported => (nomatch reported)⟩,
        stored, fun _ => recorded, fun reported => (nomatch reported)⟩

/-- The witness stands at a mark, or at the birth of a vault that has none to show. -/
def Stands : Option VerifiedMark → Option VerifiedMark → Prop
  | some mark, witnessed => witnessed = some mark
  | none, witnessed => witnessed = none ∨ witnessed = some .birth

theorem stands_none_of_agrees (agrees : Agrees none witnessed) : Stands none witnessed := by
  cases witnessed with
  | none => exact .inl rfl
  | some mark => exact .inr (congrArg some agrees)

theorem markFits_of_agrees (agrees : Agrees (some mark) witnessed) :
    Witness.MarkFits mark witnessed := by
  rintro old rfl
  exact agrees

/-- How a reconciliation ends. -/
structure Reconciled (loaded : Option VerifiedMark) (before : Witness)
    (outcome : Option (Except VerifiedStateError Unit)) (after : Witness) : Prop where
  touched : Touched loaded (before.marks vaultId) (after.marks vaultId)
  settles : outcome = some (.ok ()) → Stands loaded (after.marks vaultId)
  reports : outcome = some (.error .stateRolledBack) → ¬ Agrees loaded (before.marks vaultId)

theorem leads_reconcile :
    Leads Witness.Serves (reconcile vaultId loaded) before
      (@Reconciled vaultId loaded before) := by
  have nothing {outcome : Option (Except VerifiedStateError Unit)} (notOk : outcome ≠ some (.ok ()))
      (silent : outcome ≠ some (.error .stateRolledBack)) :
      @Reconciled vaultId loaded before outcome before :=
    ⟨.inl rfl, fun ok => absurd ok notOk, fun reported => absurd reported silent⟩
  refine leads_bind ((leads_check loaded).weaken fun outcome between checked => ?_)
  obtain rfl := checked.unchanged
  match outcome, checked with
  | none, _ => exact nothing (by decide) (by decide)
  | some (.error error), checked =>
    exact ⟨nothing (by decide) (by decide), .inl rfl, fun ok => (nomatch ok), checked.reports⟩
  | some (.ok ()), checked =>
    have agrees := checked.passes rfl
    cases loaded with
    | none =>
      exact leads_done (nothing (by decide) (by decide))
        ⟨.inl rfl, fun _ => stands_none_of_agrees agrees, fun reported => (nomatch reported)⟩
    | some mark =>
      refine leads_verifiedMark_bind (nothing (by decide) (by decide))
        (nothing (by decide) (by decide)) ?_
      split
      · refine (leads_record mark).weaken fun outcome after recorded => ?_
        exact ⟨recorded.touched, recorded.stored,
          fun reported => absurd (markFits_of_agrees agrees) (recorded.reports reported)⟩
      · next same =>
        exact leads_done (nothing (by decide) (by decide))
          ⟨.inl rfl, fun _ => not_not.mp same, fun reported => (nomatch reported)⟩

/-! ### A witness in reach -/

theorem serves_answer (request : WitnessRequest) (witness : Witness) :
    Witness.Serves request witness (Witness.answer request witness).1
      (Witness.answer request witness).2 := .inl ⟨rfl, rfl⟩

theorem runWith_advanceVerifiedMark (fits : Witness.MarkFits mark (witness.marks vaultId))
    (read : Except WitnessError Unit → Except VerifiedStateError Unit) :
    runWith Witness.answer (attempt (.advanceVerifiedMark vaultId mark) read : GuardCall Unit)
        witness =
      (read (.ok ()), { witness with marks := Witness.insert witness.marks vaultId mark }) := by
  obtain ⟨_, advanced⟩ | ⟨misfit, _⟩ := Witness.advanceVerifiedMark_cases witness vaultId mark
  · show (read (witness.advanced _).1, (witness.advanced _).2) = _
    rw [advanced]
    rfl
  · exact absurd fits misfit

theorem runWith_begin (witness : Witness) :
    ∃ after, runWith Witness.answer (begin vaultId) witness = (.ok (), after) ∧
      after.marks vaultId = some ((witness.marks vaultId).getD .birth) := by
  cases held : witness.marks vaultId with
  | some mark =>
    refine ⟨witness, ?_, held⟩
    show runWith Witness.answer (if (witness.marks vaultId).isNone then _ else _ : GuardCall Unit)
      witness = _
    rw [held]
    rfl
  | none =>
    have fits : Witness.MarkFits .birth (witness.marks vaultId) := by
      rw [held]
      exact fun _ none => nomatch none
    refine ⟨{ witness with marks := Witness.insert witness.marks vaultId .birth }, ?_,
      Witness.insert_self witness.marks vaultId .birth⟩
    show runWith Witness.answer (if (witness.marks vaultId).isNone then _ else _ : GuardCall Unit)
      witness = _
    rw [held]
    exact runWith_advanceVerifiedMark fits _

theorem runWith_record (fits : Witness.MarkFits mark (witness.marks vaultId)) :
    (runWith Witness.answer (record vaultId mark) witness).1 = .ok () := by
  obtain ⟨between, begun, held⟩ := @runWith_begin vaultId witness
  have fitsNow : Witness.MarkFits mark (between.marks vaultId) := by
    rw [held]
    cases before : witness.marks vaultId with
    | none => exact markFits_birth mark
    | some old =>
      rw [before] at fits
      exact fits
  show (runWith Witness.answer (Program.bind (begin vaultId) _) witness).1 = _
  rw [runWith_bind, begun]
  show (runWith Witness.answer (attempt (.advanceVerifiedMark vaultId mark) readRecorded :
    GuardCall Unit) between).1 = _
  rw [runWith_advanceVerifiedMark fitsNow]
  rfl

end VerifiedStateGuard

end Dohflow.VaultCrypto
