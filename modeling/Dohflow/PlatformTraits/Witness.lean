/-
This file models the anti-rollback witness: what it remembers of a vault, how two marks
of a vault's verified state compare, and what an implementation may do with a call.

The contract has one deterministic part, `Witness.answer`, which is what the in-memory
implementation does when it is reachable. A real one may also be out of reach
(`Witness.Serves`); an advance that reports so may or may not have been recorded.
-/

import Dohflow.Foundation.Program
import Dohflow.SyncCore.Header

namespace Dohflow.PlatformTraits

open SyncCore

/-- Which counter a value belongs to. -/
structure CounterContext where
  vaultId : Uuid
  keyEpoch : Nat
  /-- The sealing device's key fingerprint. -/
  fingerprint : Fingerprint
  objectType : UInt8
  deriving DecidableEq

/-- How far a vault's verified state had advanced. -/
structure VerifiedMark where
  membershipVersion : Nat
  membershipHeadId : Digest
  keyEpoch : Nat
  epochHeadId : Option Digest
  /-- One for each accepted epoch record. -/
  positionedRecords : Nat
  deriving DecidableEq

/-- How one mark relates to another. -/
inductive Progress
  | equal
  | ahead
  | behind
  | diverged
  deriving DecidableEq

/-- The same relation, seen from the other mark. -/
def Progress.reversed : Progress → Progress
  | .equal => .equal
  | .ahead => .behind
  | .behind => .ahead
  | .diverged => .diverged

namespace VerifiedMark

variable {mark other : VerifiedMark}

/-- The birth mark of a vault, behind every real mark. -/
def birth : VerifiedMark where
  membershipVersion := 0
  membershipHeadId := .replicate 32 0
  keyEpoch := 0
  epochHeadId := none
  positionedRecords := 0

def isBirth (mark : VerifiedMark) : Bool := mark = birth

/-- The same version with another head, or as many epoch records with another newest one. -/
def contradicts (mark other : VerifiedMark) : Bool :=
  (mark.membershipVersion = other.membershipVersion &&
      mark.membershipHeadId ≠ other.membershipHeadId) ||
    (mark.positionedRecords = other.positionedRecords && mark.epochHeadId ≠ other.epochHeadId)

/-- How far along each part is, against the other's. -/
def parts (mark other : VerifiedMark) : List Ordering :=
  [compare mark.membershipVersion other.membershipVersion,
   compare mark.keyEpoch other.keyEpoch,
   compare mark.positionedRecords other.positionedRecords]

/-- Compare with another mark. -/
def cmpProgress (mark other : VerifiedMark) : Progress :=
  match mark.isBirth, other.isBirth with
  | true, true => .equal
  | true, false => .behind
  | false, true => .ahead
  | false, false =>
    if mark.contradicts other then .diverged
    else match (mark.parts other).contains .gt, (mark.parts other).contains .lt with
      | false, false => .equal
      | true, false => .ahead
      | false, true => .behind
      | true, true => .diverged

/-! ### How marks compare -/

theorem contradicts_comm (mark other : VerifiedMark) :
    other.contradicts mark = mark.contradicts other := by
  simp only [contradicts, eq_comm, ne_comm]

theorem parts_comm (mark other : VerifiedMark) :
    other.parts mark = (mark.parts other).map Ordering.swap := by
  simp only [parts, List.map_cons, List.map_nil, Nat.compare_swap]

theorem contains_map_swap (orders : List Ordering) (order : Ordering) :
    (orders.map Ordering.swap).contains order = orders.contains order.swap := by
  induction orders with
  | nil => rfl
  | cons first rest inductionHypothesis =>
    rw [List.map_cons, List.contains_cons, List.contains_cons, inductionHypothesis]
    cases first <;> cases order <;> rfl

theorem cmpProgress_comm (mark other : VerifiedMark) :
    other.cmpProgress mark = (mark.cmpProgress other).reversed := by
  have greater := contains_map_swap (mark.parts other) .gt
  have less := contains_map_swap (mark.parts other) .lt
  unfold cmpProgress
  rw [contradicts_comm, parts_comm, greater, less]
  cases mark.isBirth <;> cases other.isBirth
  · cases mark.contradicts other
    · show (match (mark.parts other).contains .lt, (mark.parts other).contains .gt with
        | false, false => Progress.equal
        | true, false => .ahead
        | false, true => .behind
        | true, true => .diverged) = Progress.reversed _
      cases (mark.parts other).contains .lt <;> cases (mark.parts other).contains .gt <;> rfl
    · rfl
  · rfl
  · rfl
  · rfl

theorem isBirth_eq_false {mark : VerifiedMark} : mark.isBirth = false ↔ mark ≠ birth :=
  decide_eq_false_iff_not

theorem isBirth_eq_true {mark : VerifiedMark} : mark.isBirth = true ↔ mark = birth :=
  decide_eq_true_iff

theorem cmpProgress_birth {mark : VerifiedMark} (real : mark ≠ birth) :
    mark.cmpProgress birth = .ahead := by
  rw [cmpProgress, isBirth_eq_false.mpr real]
  rfl

/-- Nothing of the first mark is behind the second, and neither names a second head for what the
other names. -/
structure Follows (mark other : VerifiedMark) : Prop where
  version : other.membershipVersion ≤ mark.membershipVersion
  keyEpoch : other.keyEpoch ≤ mark.keyEpoch
  records : other.positionedRecords ≤ mark.positionedRecords
  head : mark.membershipVersion = other.membershipVersion →
    mark.membershipHeadId = other.membershipHeadId
  epochHead : mark.positionedRecords = other.positionedRecords →
    mark.epochHeadId = other.epochHeadId

theorem follows_iff :
    Follows mark other ↔
      mark.contradicts other = false ∧ (mark.parts other).contains .lt = false := by
  have agree : mark.contradicts other = false ↔
      (mark.membershipVersion = other.membershipVersion →
        mark.membershipHeadId = other.membershipHeadId) ∧
      (mark.positionedRecords = other.positionedRecords →
        mark.epochHeadId = other.epochHeadId) := by
    simp [contradicts]
  have forward : (mark.parts other).contains .lt = false ↔
      other.membershipVersion ≤ mark.membershipVersion ∧ other.keyEpoch ≤ mark.keyEpoch ∧
        other.positionedRecords ≤ mark.positionedRecords := by
    rw [← Bool.not_eq_true, List.contains_iff_mem]
    simp only [parts, List.mem_cons, List.not_mem_nil, or_false, not_or, @eq_comm _ Ordering.lt,
      Nat.compare_eq_lt, Nat.not_lt]
  rw [agree, forward]
  constructor
  · intro follows
    exact ⟨⟨follows.head, follows.epochHead⟩, follows.version, follows.keyEpoch, follows.records⟩
  · rintro ⟨⟨head, epochHead⟩, version, keyEpoch, records⟩
    exact ⟨version, keyEpoch, records, head, epochHead⟩

/-- Of two real marks, one that follows the other is equal to it or ahead of it. -/
theorem Follows.cmpProgress (follows : Follows mark other) (real : mark ≠ birth)
    (otherReal : other ≠ birth) :
    mark.cmpProgress other = .equal ∨ mark.cmpProgress other = .ahead := by
  obtain ⟨agree, forward⟩ := follows_iff.mp follows
  rw [VerifiedMark.cmpProgress, isBirth_eq_false.mpr real, isBirth_eq_false.mpr otherReal, agree,
    forward]
  cases (mark.parts other).contains .gt
  · exact Or.inl rfl
  · exact Or.inr rfl

theorem Follows.refl (mark : VerifiedMark) : Follows mark mark :=
  ⟨le_rfl, le_rfl, le_rfl, fun _ => rfl, fun _ => rfl⟩

theorem Follows.antisymm (forward : Follows mark other) (backward : Follows other mark) :
    mark = other := by
  have version := Nat.le_antisymm backward.version forward.version
  have keyEpoch := Nat.le_antisymm backward.keyEpoch forward.keyEpoch
  have records := Nat.le_antisymm backward.records forward.records
  have head := forward.head version
  have epochHead := forward.epochHead records
  cases mark
  cases other
  simp only at version keyEpoch records head epochHead
  rw [version, keyEpoch, records, head, epochHead]

/-- Only a mark itself compares equal to it. -/
theorem cmpProgress_eq_equal : mark.cmpProgress other = .equal ↔ mark = other := by
  constructor
  · intro equal
    cases birthMark : mark.isBirth <;> cases birthOther : other.isBirth
    · rw [cmpProgress, birthMark, birthOther] at equal
      have reverse := contains_map_swap (mark.parts other) .lt
      rw [← parts_comm] at reverse
      cases agree : mark.contradicts other
      · cases ahead : (mark.parts other).contains .gt <;>
          cases behind : (mark.parts other).contains .lt
        · have forward := follows_iff.mpr ⟨agree, behind⟩
          rw [← contradicts_comm] at agree
          exact forward.antisymm (follows_iff.mpr ⟨agree, reverse.trans ahead⟩)
        · rw [agree, ahead, behind] at equal
          cases equal
        · rw [agree, ahead, behind] at equal
          cases equal
        · rw [agree, ahead, behind] at equal
          cases equal
      · rw [agree] at equal
        cases equal
    · rw [cmpProgress, birthMark, birthOther] at equal
      cases equal
    · rw [cmpProgress, birthMark, birthOther] at equal
      cases equal
    · rw [isBirth_eq_true.mp birthMark, isBirth_eq_true.mp birthOther]
  · rintro rfl
    cases birthMark : mark.isBirth
    · have real := isBirth_eq_false.mp birthMark
      obtain equal | ahead := (Follows.refl mark).cmpProgress real real
      · exact equal
      · have reversed := cmpProgress_comm mark mark
        rw [ahead] at reversed
        cases reversed
    · rw [cmpProgress, birthMark]

end VerifiedMark

/-- Why a witness could not answer or record. -/
inductive WitnessError
  | unavailable
  /-- The value offered is behind what the witness holds. -/
  | wouldRegress
  deriving DecidableEq

/-- What the witness remembers, whatever happens to the vault. -/
structure Witness where
  counters : CounterContext → Option Nat
  marks : Uuid → Option VerifiedMark

/-- The calls of the witness. -/
inductive WitnessRequest
  | counter (context : CounterContext)
  | advanceCounter (context : CounterContext) (nextCounter : Nat)
  | verifiedMark (vaultId : Uuid)
  | advanceVerifiedMark (vaultId : Uuid) (mark : VerifiedMark)

/-- What each call returns. -/
abbrev WitnessRequest.Response : WitnessRequest → Type
  | .counter _ => Except WitnessError (Option Nat)
  | .advanceCounter _ _ => Except WitnessError Unit
  | .verifiedMark _ => Except WitnessError (Option VerifiedMark)
  | .advanceVerifiedMark _ _ => Except WitnessError Unit

namespace Witness

/-- A map with one entry replaced. -/
def insert {Key Entry : Type} [DecidableEq Key] (map : Key → Option Entry) (key : Key)
    (entry : Entry) : Key → Option Entry :=
  fun other => if other = key then some entry else map other

/-- Record a counter, unless it is below the held one. -/
def advanceCounter (witness : Witness) (context : CounterContext) (nextCounter : Nat) :
    Except WitnessError Witness :=
  if (witness.counters context).any fun held => nextCounter < held then .error .wouldRegress
  else .ok { witness with counters := insert witness.counters context nextCounter }

/-- Record a mark, unless it is behind the held one or diverged from it. -/
def advanceVerifiedMark (witness : Witness) (vaultId : Uuid) (mark : VerifiedMark) :
    Except WitnessError Witness :=
  let recorded := { witness with marks := insert witness.marks vaultId mark }
  match witness.marks vaultId with
  | none => .ok recorded
  | some held =>
    match mark.cmpProgress held with
    | .equal => .ok recorded
    | .ahead => .ok recorded
    | .behind => .error .wouldRegress
    | .diverged => .error .wouldRegress

/-- The response to an advance, and the witness after it. -/
def advanced (witness : Witness) : Except WitnessError Witness → Except WitnessError Unit × Witness
  | .ok recorded => (.ok (), recorded)
  | .error error => (.error error, witness)

/-- What a witness in reach does. -/
def answer : (request : WitnessRequest) → Witness → request.Response × Witness
  | .counter context, witness => (.ok (witness.counters context), witness)
  | .advanceCounter context nextCounter, witness =>
    witness.advanced (witness.advanceCounter context nextCounter)
  | .verifiedMark vaultId, witness => (.ok (witness.marks vaultId), witness)
  | .advanceVerifiedMark vaultId mark, witness =>
    witness.advanced (witness.advanceVerifiedMark vaultId mark)

/-- The response of a witness out of reach. -/
def refusal : (request : WitnessRequest) → request.Response
  | .counter _ => .error .unavailable
  | .advanceCounter _ _ => .error .unavailable
  | .verifiedMark _ => .error .unavailable
  | .advanceVerifiedMark _ _ => .error .unavailable

/-- What a durable witness can do with a call: answer it, or be out of reach before or after it has
recorded the call. -/
def Serves (request : WitnessRequest) (before : Witness) (response : request.Response)
    (after : Witness) : Prop :=
  (response = (answer request before).1 ∧ after = (answer request before).2) ∨
    (response = refusal request ∧ (after = before ∨ after = (answer request before).2))

theorem insert_self {Key Entry : Type} [DecidableEq Key] (map : Key → Option Entry) (key : Key)
    (entry : Entry) : insert map key entry key = some entry := if_pos rfl

variable {before after : Witness} {vaultId : Uuid} {mark : VerifiedMark}

theorem serves_verifiedMark {response : Except WitnessError (Option VerifiedMark)}
    (served : Serves (.verifiedMark vaultId) before response after) :
    after = before ∧ (response = .ok (before.marks vaultId) ∨ response = .error .unavailable) := by
  obtain ⟨rfl, rfl⟩ | ⟨rfl, rfl | rfl⟩ := served
  · exact ⟨rfl, .inl rfl⟩
  · exact ⟨rfl, .inr rfl⟩
  · exact ⟨rfl, .inr rfl⟩

/-- The mark may be recorded: there is none, or one that it equals or is ahead of. -/
def MarkFits (mark : VerifiedMark) (held : Option VerifiedMark) : Prop :=
  ∀ old, held = some old → mark.cmpProgress old = .equal ∨ mark.cmpProgress old = .ahead

theorem advanceVerifiedMark_cases (witness : Witness) (vaultId : Uuid) (mark : VerifiedMark) :
    (MarkFits mark (witness.marks vaultId) ∧ witness.advanceVerifiedMark vaultId mark =
        .ok { witness with marks := insert witness.marks vaultId mark }) ∨
      (¬ MarkFits mark (witness.marks vaultId) ∧
        witness.advanceVerifiedMark vaultId mark = .error .wouldRegress) := by
  unfold advanceVerifiedMark
  cases held : witness.marks vaultId with
  | none => exact .inl ⟨fun _ none => (nomatch none), rfl⟩
  | some old =>
    have fits : MarkFits mark (some old) ↔
        mark.cmpProgress old = .equal ∨ mark.cmpProgress old = .ahead := by
      constructor
      · intro fits
        exact fits old rfl
      · rintro allowed _ ⟨⟩
        exact allowed
    rw [fits]
    dsimp only
    cases mark.cmpProgress old with
    | equal => exact .inl ⟨.inl rfl, rfl⟩
    | ahead => exact .inl ⟨.inr rfl, rfl⟩
    | behind => exact .inr ⟨by decide, rfl⟩
    | diverged => exact .inr ⟨by decide, rfl⟩

theorem serves_advanceVerifiedMark {response : Except WitnessError Unit}
    (served : Serves (.advanceVerifiedMark vaultId mark) before response after) :
    (response = .error .wouldRegress ∧ ¬ MarkFits mark (before.marks vaultId) ∧ after = before) ∨
      (response = .error .unavailable ∧
        (after = before ∨ after.marks = insert before.marks vaultId mark)) ∨
      (response = .ok () ∧ after.marks = insert before.marks vaultId mark) := by
  obtain ⟨_, advanced⟩ | ⟨misfit, advanced⟩ := advanceVerifiedMark_cases before vaultId mark
  · have answered : answer (.advanceVerifiedMark vaultId mark) before =
        (.ok (), { before with marks := insert before.marks vaultId mark }) := by
      rw [answer, advanced]
      rfl
    rw [Serves, answered] at served
    obtain ⟨rfl, rfl⟩ | ⟨rfl, rfl | rfl⟩ := served
    · exact .inr (.inr ⟨rfl, rfl⟩)
    · exact .inr (.inl ⟨rfl, .inl rfl⟩)
    · exact .inr (.inl ⟨rfl, .inr rfl⟩)
  · have answered : answer (.advanceVerifiedMark vaultId mark) before =
        (.error .wouldRegress, before) := by
      rw [answer, advanced]
      rfl
    rw [Serves, answered] at served
    obtain ⟨rfl, rfl⟩ | ⟨rfl, rfl | rfl⟩ := served
    · exact .inl ⟨rfl, misfit, rfl⟩
    · exact .inr (.inl ⟨rfl, .inl rfl⟩)
    · exact .inr (.inl ⟨rfl, .inl rfl⟩)

end Witness

end Dohflow.PlatformTraits
