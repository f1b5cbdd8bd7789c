/-
This file says how the verified state of a chain may change as records arrive.

Nothing accepted is ever rewritten but one field: a later revoke stamps its own
version on a member already listed. `Grown` is that statement, and everything
the verifier accepts obeys it, so any question asked at a version up to the head
has the same answer before and after (`Grown.filter_asAdded` and what follows
from it). The last section builds the runs the later files argue about: record
by record (`Run`) and call by call (`Reachable`).
-/

import Dohflow.SyncCore.ChainSteps
import Mathlib.Logic.Relation

namespace Dohflow.SyncCore

open Fallible Relation

variable {crypto : Crypto} {state next before after : VerifiedState}

/-! ### What later records can make of the member list -/

/-- The member as its add record made it. -/
def Member.asAdded (member : Member) : Member := { member with revokedAtVersion := none }

/-- What records after version `head` can make of a member: the same device, stamped with a
version after `head` if they revoked it. -/
structure Member.Aged (head : Nat) (before after : Member) : Prop where
  device : after.asAdded = before.asAdded
  revoked : after.revokedAtVersion = before.revokedAtVersion ∨
    before.revokedAtVersion = none ∧
      ∃ version, head < version ∧ after.revokedAtVersion = some version

namespace Member.Aged

variable {head : Nat} {before after : Member}

theorem refl (head : Nat) (member : Member) : Member.Aged head member member := ⟨rfl, .inl rfl⟩

theorem addedAtVersion (aged : Member.Aged head before after) :
    after.addedAtVersion = before.addedAtVersion :=
  congrArg (fun member => member.addedAtVersion) aged.device

theorem trans {later : Nat} {third : Member} (ordered : head ≤ later)
    (first : Member.Aged head before after) (second : Member.Aged later after third) :
    Member.Aged head before third := by
  refine ⟨second.device.trans first.device, ?_⟩
  obtain same | ⟨active, version, above, revoked⟩ := second.revoked
  · rw [same]
    exact first.revoked
  · obtain same | ⟨_, other, _, already⟩ := first.revoked
    · exact .inr ⟨same ▸ active, version, by omega, revoked⟩
    · rw [already] at active
      cases active

/-- Up to the head, later records do not change who is authorized. -/
theorem authorizedAt (aged : Member.Aged head before after) {version : Nat}
    (past : version ≤ head) : after.authorizedAt version = before.authorizedAt version := by
  rw [Member.authorizedAt, Member.authorizedAt, aged.addedAtVersion]
  obtain same | ⟨active, stamp, above, revoked⟩ := aged.revoked
  · rw [same]
  · rw [active, revoked]
    simp only [Option.all_some, Option.all_none, decide_eq_true (Nat.lt_of_le_of_lt past above)]

end Member.Aged

/-- A member list and what records after version `head` can make of it: the members it had, aged,
and members added later behind them. -/
inductive MembersGrown (head : Nat) : List Member → List Member → Prop
  | added {members : List Member} (later : ∀ member ∈ members, head < member.addedAtVersion) :
      MembersGrown head [] members
  | kept {before after : Member} {befores afters : List Member}
      (aged : Member.Aged head before after) (rest : MembersGrown head befores afters) :
      MembersGrown head (before :: befores) (after :: afters)

namespace MembersGrown

variable {head : Nat} {before after : List Member}

theorem refl (head : Nat) (members : List Member) : MembersGrown head members members := by
  induction members with
  | nil => exact .added fun _ inside => absurd inside List.not_mem_nil
  | cons member rest inductionHypothesis => exact .kept (.refl head member) inductionHypothesis

theorem append (head : Nat) (members : List Member) {member : Member}
    (later : head < member.addedAtVersion) :
    MembersGrown head members (members ++ [member]) := by
  induction members with
  | nil => exact .added fun other inside => List.mem_singleton.mp inside ▸ later
  | cons first rest inductionHypothesis => exact .kept (.refl head first) inductionHypothesis

/-- A revoke stamps the member it finds, if that member was active. -/
theorem revokeFirst {members : List Member} {fingerprint : Fingerprint} {version : Nat}
    {target : Member} (later : head < version)
    (found : (members.find? fun member => member.fingerprint = fingerprint) = some target)
    (active : target.revokedAtVersion = none) :
    MembersGrown head members (revokeFirst fingerprint version members) := by
  induction members with
  | nil => cases found
  | cons member rest inductionHypothesis =>
    rw [SyncCore.revokeFirst]
    by_cases same : member.fingerprint = fingerprint
    · rw [List.find?_cons_of_pos (by simpa using same)] at found
      obtain rfl := Option.some.inj found
      rw [if_pos same]
      exact .kept ⟨rfl, .inr ⟨active, version, later, rfl⟩⟩ (.refl head rest)
    · rw [List.find?_cons_of_neg (by simpa using same)] at found
      rw [if_neg same]
      exact .kept (.refl head member) (inductionHypothesis found)

theorem forall_later {later : Nat} (ordered : head ≤ later)
    (allLater : ∀ member ∈ before, head < member.addedAtVersion)
    (grown : MembersGrown later before after) :
    ∀ member ∈ after, head < member.addedAtVersion := by
  induction grown with
  | added above => exact fun member inside => ordered.trans_lt (above member inside)
  | kept aged _ inductionHypothesis =>
    rw [List.forall_mem_cons] at allLater ⊢
    exact ⟨aged.addedAtVersion ▸ allLater.1, inductionHypothesis allLater.2⟩

theorem trans {later : Nat} {third : List Member} (ordered : head ≤ later)
    (first : MembersGrown head before after) (second : MembersGrown later after third) :
    MembersGrown head before third := by
  induction first generalizing third with
  | added above => exact .added (forall_later ordered above second)
  | kept aged _ inductionHypothesis =>
    cases second with
    | kept agedAgain rest => exact .kept (aged.trans ordered agedAgain) (inductionHypothesis rest)

theorem filter_asAdded {select : Member → Bool}
    (aged : ∀ ⦃old new⦄, Member.Aged head old new → select new = select old)
    (skips : ∀ member, head < member.addedAtVersion → select member = false)
    (grown : MembersGrown head before after) :
    (after.filter select).map Member.asAdded = (before.filter select).map Member.asAdded := by
  induction grown with
  | added later =>
    rw [List.filter_eq_nil_iff.mpr fun member inside => by
      simp [skips member (later member inside)]]
    rfl
  | @kept old new _ _ same _ inductionHypothesis =>
    rw [List.filter_cons, List.filter_cons, aged same]
    cases select old with
    | true => simpa [same.device] using inductionHypothesis
    | false => simpa using inductionHypothesis

end MembersGrown

/-! ### What later records can make of the state -/

/-- The later state holds everything the earlier one holds, in the same places; only members may
since have been revoked. -/
structure Grown (before after : VerifiedState) : Prop where
  vaultId : after.vaultId = before.vaultId
  steps : before.steps <+: after.steps
  epochs : before.epochs <+: after.epochs
  members : MembersGrown before.headVersion before.members after.members

namespace Grown

variable {version : Nat}

theorem refl (state : VerifiedState) : Grown state state :=
  ⟨rfl, List.prefix_rfl, List.prefix_rfl, .refl _ _⟩

theorem headVersion (grown : Grown before after) : before.headVersion ≤ after.headVersion :=
  grown.steps.length_le

theorem trans {first second third : VerifiedState} (early : Grown first second)
    (late : Grown second third) : Grown first third :=
  ⟨late.vaultId.trans early.vaultId, early.steps.trans late.steps, early.epochs.trans late.epochs,
    early.members.trans early.headVersion late.members⟩

theorem filter_authorizedAt (grown : Grown before after) (select : Member → Bool)
    (past : version ≤ before.headVersion) :
    (after.members.filter fun member => select member.asAdded && member.authorizedAt version).map
        Member.asAdded =
      (before.members.filter fun member => select member.asAdded && member.authorizedAt version).map
        Member.asAdded := by
  refine grown.members.filter_asAdded (fun old new aged => ?_) (fun member later => ?_)
  · rw [aged.device, aged.authorizedAt past]
  · have notYet : ¬ member.addedAtVersion ≤ version := by omega
    simp [Member.authorizedAt, notYet]

theorem find?_authorizedAt (grown : Grown before after) (select : Member → Bool)
    (past : version ≤ before.headVersion) :
    (after.members.find? fun member => select member.asAdded && member.authorizedAt version).map
        Member.asAdded =
      (before.members.find? fun member => select member.asAdded && member.authorizedAt version).map
        Member.asAdded := by
  rw [← List.head?_filter, ← List.head?_filter, ← List.head?_map, ← List.head?_map,
    grown.filter_authorizedAt select past]

theorem authorizedMember (grown : Grown before after) (fingerprint : Fingerprint)
    (past : version ≤ before.headVersion) :
    (after.authorizedMember fingerprint version).map Member.asAdded =
      (before.authorizedMember fingerprint version).map Member.asAdded :=
  grown.find?_authorizedAt (fun member => member.fingerprint = fingerprint) past

theorem authorizedMemberAtVersion (grown : Grown before after) (deviceId : Uuid)
    (past : version ≤ before.headVersion) :
    (after.authorizedMemberAtVersion deviceId version).map Member.asAdded =
      (before.authorizedMemberAtVersion deviceId version).map Member.asAdded :=
  grown.find?_authorizedAt (fun member => member.deviceId = deviceId) past

theorem authorizedAt (grown : Grown before after) (past : version ≤ before.headVersion) :
    (after.authorizedAt version).map Member.asAdded =
      (before.authorizedAt version).map Member.asAdded :=
  grown.filter_authorizedAt (fun _ => true) past

theorem addedAt (grown : Grown before after) (past : version ≤ before.headVersion) :
    (after.members.filter fun member => member.addedAtVersion = version).map Member.asAdded =
      (before.members.filter fun member => member.addedAtVersion = version).map Member.asAdded := by
  refine grown.members.filter_asAdded (fun old new aged => ?_) (fun member later => ?_)
  · rw [aged.addedAtVersion]
  · exact decide_eq_false (by omega)

theorem getElem?_steps (grown : Grown before after) {index : Nat}
    (inside : index < before.headVersion) : after.steps[index]? = before.steps[index]? := by
  obtain ⟨added, same⟩ := grown.steps
  rw [← same, List.getElem?_append_left inside]

theorem stepAt (grown : Grown before after) (past : version ≤ before.headVersion) :
    after.stepAt version = before.stepAt version := by
  cases version with
  | zero => rfl
  | succ index => exact grown.getElem?_steps past

theorem headIndexOf {id : Digest} {headIndex : Nat} (grown : Grown before after)
    (found : before.headIndexOf id = some headIndex) : after.headIndexOf id = some headIndex := by
  obtain ⟨added, same⟩ := grown.steps
  rw [VerifiedState.headIndexOf, ← same, List.findIdx?_append]
  rw [VerifiedState.headIndexOf] at found
  rw [found]
  rfl

theorem find?_epochs (grown : Grown before after) {select : EpochRef → Bool} {epoch : EpochRef}
    (inside : epoch ∈ before.epochs) (selected : select epoch = true) :
    after.epochs.find? select = before.epochs.find? select := by
  obtain ⟨added, same⟩ := grown.epochs
  rw [← same, List.find?_append]
  cases found : before.epochs.find? select with
  | none => exact absurd selected (List.find?_eq_none.mp found epoch inside)
  | some first => rfl

theorem signedBy {fingerprint : Fingerprint} {record : SignedRecord} (grown : Grown before after)
    (past : version ≤ before.headVersion) :
    SignedBy crypto after fingerprint version record ↔
      SignedBy crypto before fingerprint version record := by
  have same := grown.authorizedMember fingerprint past
  unfold SignedBy
  cases foundBefore : before.authorizedMember fingerprint version with
  | none =>
    rw [foundBefore, Option.map_none, Option.map_eq_none_iff] at same
    simp [same]
  | some old =>
    rw [foundBefore, Option.map_some, Option.map_eq_some_iff] at same
    obtain ⟨new, found, device⟩ := same
    have key : new.ed25519Pk = old.ed25519Pk := congrArg (fun member => member.ed25519Pk) device
    simp [found, key]

end Grown

variable {record : SignedRecord} {memberships epochs : List (List UInt8)} {body : MembershipBody}
  {vaultId : Uuid} {bytes : List (List UInt8)} {position : Nat}

theorem headIndexOf_lt {id : Digest} {headIndex : Nat}
    (found : state.headIndexOf id = some headIndex) : headIndex < state.headVersion :=
  (List.findIdx?_eq_some_iff_getElem.mp found).1

theorem le_headVersion_of_stepAt {version : Nat} {step : StepRef}
    (held : state.stepAt version = some step) : version ≤ state.headVersion := by
  cases version with
  | zero => exact Nat.zero_le _
  | succ index => exact (List.getElem?_eq_some_iff.mp held).1

/-! ### What one accepted record does -/

theorem Continues.later (continues : Continues crypto state record body) :
    state.headVersion < body.version.toNat := by
  rw [continues.version]
  exact Nat.lt_succ_self _

theorem MembershipStep.grown (step : MembershipStep crypto state record body next) :
    Grown state next := by
  cases step with
  | repeated => exact .refl state
  | genesis first genesis =>
    refine ⟨rfl, List.prefix_append _ _, List.prefix_rfl, .append _ _ ?_⟩
    have empty : state.headVersion = 0 := List.length_eq_zero_iff.mpr first
    have version : body.version.toNat = 1 := genesis.1
    show state.headVersion < body.version.toNat
    omega
  | add continues =>
    exact ⟨rfl, List.prefix_append _ _, List.prefix_rfl, .append _ _ continues.later⟩
  | revoke continues _ found _ active =>
    exact ⟨rfl, List.prefix_append _ _, List.prefix_rfl, .revokeFirst continues.later found active⟩

/-- A membership record leaves the epochs alone. -/
theorem MembershipStep.frame (step : MembershipStep crypto state record body next) :
    next.epochs = state.epochs ∧ next.keyCommitmentS = state.keyCommitmentS := by
  cases step <;> exact ⟨rfl, rfl⟩

theorem EpochStep.grown {body : EpochBody} (step : EpochStep crypto state record body next) :
    Grown state next := by
  cases step with
  | repeated => exact .refl state
  | accepted => exact ⟨rfl, List.prefix_rfl, List.prefix_append _ _, .refl _ _⟩

/-- An epoch record leaves the membership alone. -/
theorem EpochStep.frame {body : EpochBody} (step : EpochStep crypto state record body next) :
    next.steps = state.steps ∧ next.members = state.members := by
  cases step <;> exact ⟨rfl, rfl⟩

/-! ### Runs of the verifier -/

/-- The verifier accepts one record. -/
inductive Accepts (crypto : Crypto) (before after : VerifiedState) : Prop
  | membership {bytes : List UInt8} {record : SignedRecord} {body : MembershipBody}
      (room : before.steps.length < maxChainLen)
      (opens : OpensMembership before.vaultId bytes record body)
      (step : MembershipStep crypto before record body after)
  | epoch {bytes : List UInt8} {record : SignedRecord} {body : EpochBody}
      (room : before.epochs.length < maxChainLen)
      (opens : OpensEpoch before.vaultId bytes record body)
      (step : EpochStep crypto before record body after)

theorem accepts_iff (index : Nat) :
    Accepts crypto before after ↔ ∃ bytes,
      applyMembership crypto before index bytes = .ok after ∨
        applyEpoch crypto before index bytes = .ok after := by
  constructor
  · intro accepts
    cases accepts with
    | membership room opens step =>
      exact ⟨_, .inl (applyMembership_eq_ok.mpr ⟨room, _, _, opens, step⟩)⟩
    | epoch room opens step =>
      exact ⟨_, .inr (applyEpoch_eq_ok.mpr ⟨room, _, _, opens, step⟩)⟩
  · rintro ⟨bytes, accepted | accepted⟩
    · obtain ⟨room, _, _, opens, step⟩ := applyMembership_eq_ok.mp accepted
      exact .membership room opens step
    · obtain ⟨room, _, _, opens, step⟩ := applyEpoch_eq_ok.mp accepted
      exact .epoch room opens step

/-- A run of the verifier, record by record, in any order of the two kinds. -/
def Run (crypto : Crypto) : VerifiedState → VerifiedState → Prop := ReflTransGen (Accepts crypto)

theorem Accepts.grown (accepts : Accepts crypto before after) : Grown before after := by
  cases accepts with
  | membership _ _ step => exact step.grown
  | epoch _ _ step => exact step.grown

theorem Run.grown (run : Run crypto before after) : Grown before after := by
  induction run with
  | refl => exact .refl _
  | tail _ accepts inductionHypothesis => exact inductionHypothesis.trans accepts.grown

theorem Run.preserves {Invariant : VerifiedState → Prop}
    (each : ∀ ⦃before after⦄, Accepts crypto before after → Invariant before → Invariant after)
    (run : Run crypto before after) (initially : Invariant before) : Invariant after := by
  induction run with
  | refl => exact initially
  | tail _ accepts inductionHypothesis => exact each accepts inductionHypothesis

theorem run_of_memberships
    (accepted : applyFrom (applyMembership crypto) position before bytes = .ok after) :
    Run crypto before after := by
  refine applyFrom_relates (fun _ => .refl) (fun _ _ _ => ReflTransGen.trans) ?_ accepted
  exact fun _ index _ _ step => .single ((accepts_iff index).mpr ⟨_, .inl step⟩)

theorem run_of_epochs (accepted : applyFrom (applyEpoch crypto) position before bytes = .ok after) :
    Run crypto before after := by
  refine applyFrom_relates (fun _ => .refl) (fun _ _ _ => ReflTransGen.trans) ?_ accepted
  exact fun _ index _ _ step => .single ((accepts_iff index).mpr ⟨_, .inr step⟩)

/-- The newest epoch record names the newest membership record, or there is neither. -/
def Coupled (state : VerifiedState) : Prop :=
  state.steps ≠ [] → ∃ last, state.epochs.getLast? = some last ∧
    state.steps.length ≤ last.headIndex + 1

theorem checkCoupled_eq_ok : checkCoupled state = .ok next ↔ state = next ∧ Coupled state := by
  unfold checkCoupled Coupled
  by_cases nothing : state.steps = []
  · simp [nothing]
  · rw [if_neg (by simpa using nothing)]
    cases last : state.epochs.getLast? with
    | none => simp [nothing]
    | some newest =>
      by_cases behind : newest.headIndex + 1 < state.steps.length
      · simp [behind, nothing]
      · simp [nothing, behind, Nat.le_of_not_lt behind]

theorem extend_eq_ok :
    extend crypto state memberships epochs = .ok next ↔
      ∃ middle, applyFrom (applyMembership crypto) 0 state memberships = .ok middle ∧
        applyFrom (applyEpoch crypto) 0 middle epochs = .ok next ∧ Coupled next := by
  simp only [extend, bind_eq_ok, checkCoupled_eq_ok]
  refine exists_congr fun middle => and_congr_right fun _ => ?_
  constructor
  · rintro ⟨_, accepted, rfl, coupled⟩
    exact ⟨accepted, coupled⟩
  · rintro ⟨accepted, coupled⟩
    exact ⟨next, accepted, rfl, coupled⟩

/-- The states a vault reaches from nothing by successful calls of `extend`. -/
def Reachable (crypto : Crypto) (vaultId : Uuid) : VerifiedState → Prop :=
  ReflTransGen (fun before after => ∃ memberships epochs,
    extend crypto before memberships epochs = .ok after) (.empty vaultId)

theorem run_of_extend (extended : extend crypto before memberships epochs = .ok after) :
    Run crypto before after := by
  obtain ⟨middle, first, second, _⟩ := extend_eq_ok.mp extended
  exact (run_of_memberships first).trans (run_of_epochs second)

theorem Reachable.run (reachable : Reachable crypto vaultId state) :
    Run crypto (.empty vaultId) state := by
  induction reachable with
  | refl => exact .refl
  | tail _ extended inductionHypothesis =>
    obtain ⟨memberships, epochs, extended⟩ := extended
    exact inductionHypothesis.trans (run_of_extend extended)

theorem Reachable.coupled (reachable : Reachable crypto vaultId state) : Coupled state := by
  cases reachable with
  | refl => exact fun nonempty => absurd rfl nonempty
  | tail _ extended =>
    obtain ⟨memberships, epochs, extended⟩ := extended
    exact (extend_eq_ok.mp extended).choose_spec.2.2

theorem Reachable.of_verifyChain
    (verified : verifyChain crypto vaultId memberships epochs = .ok state) :
    Reachable crypto vaultId state := .single ⟨memberships, epochs, verified⟩

/-- The states a chain state reaches by successful calls of `extend`. -/
def Later (crypto : Crypto) : VerifiedState → VerifiedState → Prop :=
  ReflTransGen fun before after => ∃ memberships epochs,
    extend crypto before memberships epochs = .ok after

theorem Later.grown (later : Later crypto before after) : Grown before after := by
  induction later with
  | refl => exact .refl _
  | tail _ extended inductionHypothesis =>
    obtain ⟨memberships, epochs, extended⟩ := extended
    exact inductionHypothesis.trans (run_of_extend extended).grown

end Dohflow.SyncCore
