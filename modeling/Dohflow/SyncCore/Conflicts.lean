/-
This file proves when the verifier halts a device: exactly when a record stands
against an accepted one and was signed by a device with authority over its place.

The conflict paths repeat a part of the acceptance rules against a state that has
moved on since. Soundness reads the halt class back to its evidence
(`conflictingMembership_haltsSync`, `conflictingEpoch_haltsSync`); completeness
takes a record that an earlier state accepts and carries its linkage and its
signature to the later state, which growth does not disturb.
-/

import Dohflow.SyncCore.Verdicts

namespace Dohflow.SyncCore

open Fallible

variable {crypto : Crypto} {state next : VerifiedState} {vaultId : Uuid}
variable {index : Nat} {record : SignedRecord} {body : MembershipBody} {bytes : List UInt8}
  {accepted : Digest} {error : ChainError} {earlier after : VerifiedState} (position : Nat)

/-! ### The evidence for a halt -/

/-- The record's signer has authority over the version the record claims: the founder over
version 1, a member authorized at the version before over any later one. -/
def HasAuthority (crypto : Crypto) (state : VerifiedState) (record : SignedRecord)
    (body : MembershipBody) : Prop :=
  if body.version.toNat = 1 then
    ∃ founder ∈ state.members.head?, body.signerFingerprint = founder.fingerprint ∧
      ed25519VerifyStrict crypto founder.ed25519Pk record.body record.signature = true
  else SignedBy crypto state body.signerFingerprint (body.version.toNat - 1) record

/-- The bytes are a membership record that differs from the one accepted at its version and is
signed with authority over it. -/
structure ForkEvidence (crypto : Crypto) (state : VerifiedState) (bytes : List UInt8)
    (record : SignedRecord) (body : MembershipBody) (accepted : StepRef) : Prop where
  opens : OpensMembership state.vaultId bytes record body
  found : state.stepAt body.version.toNat = some accepted
  different : accepted.id ≠ record.id crypto
  authority : HasAuthority crypto state record body

/-- The bytes are an epoch record that differs from the one accepted after the same previous record
and is signed by a member authorized at the head it names. -/
structure EquivocationEvidence (crypto : Crypto) (state : VerifiedState) (bytes : List UInt8)
    (record : SignedRecord) (body : EpochBody) (accepted : EpochRef) : Prop where
  opens : OpensEpoch state.vaultId bytes record body
  found : (state.epochs.find? fun epoch => epoch.prevEpochId = body.prevEpochId) = some accepted
  different : accepted.id ≠ record.id crypto
  signed : ∃ headIndex, state.headIndexOf body.membershipHead = some headIndex ∧
    SignedBy crypto state body.sealerFingerprint (headIndex + 1) record

/-! ### The conflict paths -/

theorem not_haltsSync_signerRefusal {fingerprint : Fingerprint} :
    (signerRefusal state index fingerprint).haltsSync = false := by
  unfold signerRefusal
  split <;> rfl

theorem conflictingMembership_haltsSync
    (halts : (conflictingMembership crypto state index body record accepted).haltsSync = true) :
    conflictingMembership crypto state index body record accepted =
        .fork body.version.toNat accepted (record.id crypto) ∧
      HasAuthority crypto state record body := by
  unfold conflictingMembership at halts ⊢
  unfold HasAuthority
  by_cases first : body.version.toNat = 1
  · rw [if_pos first] at halts ⊢
    rw [if_pos first]
    by_cases genesis : body.isGenesis crypto
    · by_cases acceptable : body.keysAcceptable crypto = true
      · cases members : state.members with
        | nil => simp [genesis, acceptable, members, ChainError.haltsSync] at halts
        | cons founder rest =>
          by_cases same : body.signerFingerprint = founder.fingerprint
          · by_cases signed :
                ed25519VerifyStrict crypto founder.ed25519Pk record.body record.signature = true
            · simp [genesis, acceptable, same, signed]
            · simp [genesis, acceptable, members, same, signed, ChainError.haltsSync] at halts
          · simp [genesis, acceptable, members, same, ChainError.haltsSync] at halts
      · simp [genesis, acceptable, ChainError.haltsSync] at halts
    · simp [genesis, ChainError.haltsSync] at halts
  · rw [if_neg first] at halts ⊢
    rw [if_neg first]
    by_cases linked : body.prevId = (state.stepAt (body.version.toNat - 1)).map StepRef.id
    · cases authorized : state.authorizedMember body.signerFingerprint (body.version.toNat - 1) with
      | none => simp [linked, authorized, not_haltsSync_signerRefusal] at halts
      | some signer =>
        by_cases signed :
            ed25519VerifyStrict crypto signer.ed25519Pk record.body record.signature = true
        · exact ⟨by simp [linked, signed], signer, authorized, signed⟩
        · simp [linked, authorized, signed, ChainError.haltsSync] at halts
    · simp [linked, ChainError.haltsSync] at halts

theorem conflictingEpoch_haltsSync {body : EpochBody}
    (halts : (conflictingEpoch crypto state index body record accepted).haltsSync = true) :
    conflictingEpoch crypto state index body record accepted =
        .epochEquivocation accepted (record.id crypto) ∧
      ∃ headIndex, state.headIndexOf body.membershipHead = some headIndex ∧
        SignedBy crypto state body.sealerFingerprint (headIndex + 1) record := by
  unfold conflictingEpoch at halts ⊢
  cases head : state.headIndexOf body.membershipHead with
  | none => simp [head, ChainError.haltsSync] at halts
  | some headIndex =>
    cases authorized : state.authorizedMember body.sealerFingerprint (headIndex + 1) with
    | none => simp [head, authorized, ChainError.haltsSync] at halts
    | some sealer =>
      by_cases signed :
          ed25519VerifyStrict crypto sealer.ed25519Pk record.body record.signature = true
      · exact ⟨by simp [authorized, signed], headIndex, rfl, sealer, authorized, signed⟩
      · simp [head, authorized, signed, ChainError.haltsSync] at halts

theorem conflictingMembership_eq_fork (later : body.version.toNat ≠ 1)
    (linked : body.prevId = (state.stepAt (body.version.toNat - 1)).map StepRef.id)
    (signed : SignedBy crypto state body.signerFingerprint (body.version.toNat - 1) record) :
    conflictingMembership crypto state index body record accepted =
      .fork body.version.toNat accepted (record.id crypto) := by
  obtain ⟨signer, authorized, verified⟩ := signed
  simp [conflictingMembership, later, linked, authorized, verified]

theorem conflictingEpoch_eq_epochEquivocation {index headIndex : Nat} {body : EpochBody}
    (head : state.headIndexOf body.membershipHead = some headIndex)
    (signed : SignedBy crypto state body.sealerFingerprint (headIndex + 1) record) :
    conflictingEpoch crypto state index body record accepted =
      .epochEquivocation accepted (record.id crypto) := by
  obtain ⟨sealer, authorized, verified⟩ := signed
  simp [conflictingEpoch, head, authorized, verified]

/-! ### Everything else is an ordinary error -/

/-- The ordinary errors, which halt nothing. -/
def Ordinary (error : ChainError) : Prop := error.haltsSync = false

theorem ordinary_malformed (index : Nat) (error : WireError) :
    Ordinary (malformed index error) := by
  cases error <;> rfl

theorem failsOnly_openMembership : FailsOnly Ordinary (openMembership state index bytes) := by
  refine (failsOnly_mapError _ (ordinary_malformed index)).bind fun record _ => ?_
  refine (failsOnly_mapError _ (ordinary_malformed index)).bind fun body _ => ?_
  refine failsOnly_ensure_bind rfl fun _ => failsOnly_ensure_bind rfl fun _ => ?_
  exact failsOnly_ok _

theorem failsOnly_openEpoch : FailsOnly Ordinary (openEpoch state index bytes) := by
  refine (failsOnly_mapError _ (ordinary_malformed index)).bind fun record _ => ?_
  refine (failsOnly_mapError _ (ordinary_malformed index)).bind fun body _ => ?_
  refine failsOnly_ensure_bind rfl fun _ => failsOnly_ensure_bind rfl fun _ => ?_
  exact failsOnly_ok _

theorem failsOnly_addMember : FailsOnly Ordinary (addMember crypto state index body) := by
  refine failsOnly_ensure_bind rfl fun _ => failsOnly_ensure_bind rfl fun _ => ?_
  refine failsOnly_ensure_bind rfl fun _ => failsOnly_ensure_bind rfl fun _ => ?_
  exact failsOnly_ensure_bind rfl fun _ => failsOnly_ok _

theorem failsOnly_revokeMember : FailsOnly Ordinary (revokeMember crypto state index body) := by
  unfold revokeMember
  cases state.members.find? fun member => member.fingerprint = body.fingerprint crypto with
  | none => exact failsOnly_error rfl
  | some target =>
    refine failsOnly_ensure_bind rfl fun _ => failsOnly_ensure_bind rfl fun _ => ?_
    exact failsOnly_ensure_bind rfl fun _ => failsOnly_ok _

theorem failsOnly_acceptGenesis :
    FailsOnly Ordinary (acceptGenesis crypto state index record body) := by
  refine failsOnly_ensure_bind rfl fun _ => failsOnly_ensure_bind rfl fun _ => ?_
  exact failsOnly_ensure_bind rfl fun _ => failsOnly_ok _

theorem failsOnly_acceptSuccessor {previous : StepRef} :
    FailsOnly Ordinary (acceptSuccessor crypto state index record body previous) := by
  refine failsOnly_ensure_bind rfl fun _ => failsOnly_ensure_bind rfl fun _ => ?_
  cases state.authorizedMember body.signerFingerprint state.headVersion with
  | none => exact failsOnly_error not_haltsSync_signerRefusal
  | some signer =>
    refine failsOnly_ensure_bind rfl fun _ => ?_
    cases body.action with
    | add => exact failsOnly_addMember.bind fun _ _ => failsOnly_ok _
    | revoke => exact failsOnly_revokeMember.bind fun _ _ => failsOnly_ok _

theorem failsOnly_checkCoupledHead {index headIndex : Nat} {previous : EpochRef} {wanted : Action}
    {otherwise : ChainError} (ordinary : Ordinary otherwise) :
    FailsOnly Ordinary (checkCoupledHead state index previous headIndex wanted otherwise) := by
  refine failsOnly_ensure_bind rfl fun _ => failsOnly_ensure_bind rfl fun _ => ?_
  exact failsOnly_ensure ordinary

theorem failsOnly_checkReason {index headIndex : Nat} {body : EpochBody} :
    FailsOnly Ordinary (checkReason state index body headIndex) := by
  unfold checkReason
  cases state.epochs.getLast? with
  | none =>
    cases body.reason with
    | genesis => exact failsOnly_ensure rfl
    | cutover | grant | rotation => exact failsOnly_error rfl
  | some previous =>
    cases body.reason with
    | genesis => exact failsOnly_error rfl
    | cutover =>
      refine failsOnly_ensure_bind rfl fun _ => ?_
      refine (failsOnly_checkCoupledHead ?_).bind fun _ _ => failsOnly_ensure rfl
      rfl
    | grant =>
      refine failsOnly_ensure_bind rfl fun _ => ?_
      refine (failsOnly_checkCoupledHead ?_).bind fun _ _ => failsOnly_ensure rfl
      rfl
    | rotation => exact failsOnly_ensure_bind rfl fun _ => failsOnly_ensure rfl

theorem failsOnly_checkRecipients {expected : List Member} {recipients : List Recipient}
    {listed : List Fingerprint} :
    FailsOnly Ordinary (checkRecipients index expected recipients listed) := by
  induction recipients generalizing listed with
  | nil => exact failsOnly_ok listed
  | cons recipient rest inductionHypothesis =>
    exact failsOnly_ensure_bind rfl fun _ => inductionHypothesis

theorem failsOnly_acceptEpoch {body : EpochBody} :
    FailsOnly Ordinary (acceptEpoch crypto state index record body) := by
  unfold acceptEpoch
  cases state.headIndexOf body.membershipHead with
  | none => exact failsOnly_error rfl
  | some headIndex =>
    dsimp only
    cases state.authorizedMember body.sealerFingerprint (headIndex + 1) with
    | none => exact failsOnly_error rfl
    | some sealer =>
      refine failsOnly_ensure_bind rfl fun _ => failsOnly_checkReason.bind fun _ _ => ?_
      refine failsOnly_checkRecipients.bind fun _ _ => ?_
      exact failsOnly_ensure_bind rfl fun _ => failsOnly_ok _

theorem failsOnly_checkCoupled : FailsOnly Ordinary (checkCoupled state) := by
  unfold checkCoupled
  split
  · exact failsOnly_ok state
  · cases state.epochs.getLast? with
    | none => exact failsOnly_error rfl
    | some last =>
      dsimp only
      split
      · exact failsOnly_error rfl
      · exact failsOnly_ok state

/-! ### Soundness -/

theorem applyMembership_haltsSync
    (refused : applyMembership crypto state index bytes = .error error)
    (halts : error.haltsSync = true) :
    ∃ record body accepted, ForkEvidence crypto state bytes record body accepted ∧
      error = .fork body.version.toNat accepted.id (record.id crypto) := by
  have ordinary : ¬ Ordinary error := by simp [Ordinary, halts]
  rw [applyMembership, ensure_bind_eq_error] at refused
  obtain ⟨_, rfl⟩ | ⟨room, refused⟩ := refused
  · cases halts
  obtain refused | ⟨⟨record, body⟩, opened, refused⟩ := bind_eq_error.mp refused
  · exact absurd (failsOnly_openMembership error refused) ordinary
  dsimp only at refused
  cases found : state.stepAt body.version.toNat with
  | none =>
    rw [found] at refused
    cases last : state.steps.getLast? with
    | none =>
      rw [last] at refused
      exact absurd (failsOnly_acceptGenesis error refused) ordinary
    | some previous =>
      rw [last] at refused
      exact absurd (failsOnly_acceptSuccessor error refused) ordinary
  | some accepted =>
    simp only [found] at refused
    by_cases same : accepted.id = record.id crypto
    · rw [if_pos same] at refused
      cases refused
    · rw [if_neg same] at refused
      obtain rfl := Except.error.inj refused
      obtain ⟨fork, authority⟩ := conflictingMembership_haltsSync halts
      exact ⟨record, body, accepted, ⟨openMembership_eq_ok.mp opened, found, same, authority⟩, fork⟩

theorem applyEpoch_haltsSync (refused : applyEpoch crypto state index bytes = .error error)
    (halts : error.haltsSync = true) :
    ∃ record body accepted, EquivocationEvidence crypto state bytes record body accepted ∧
      error = .epochEquivocation accepted.id (record.id crypto) := by
  have ordinary : ¬ Ordinary error := by simp [Ordinary, halts]
  rw [applyEpoch, ensure_bind_eq_error] at refused
  obtain ⟨_, rfl⟩ | ⟨room, refused⟩ := refused
  · cases halts
  obtain refused | ⟨⟨record, body⟩, opened, refused⟩ := bind_eq_error.mp refused
  · exact absurd (failsOnly_openEpoch error refused) ordinary
  dsimp only at refused
  cases found : state.epochs.find? fun epoch => epoch.prevEpochId = body.prevEpochId with
  | none =>
    rw [found] at refused
    exact absurd (failsOnly_acceptEpoch error refused) ordinary
  | some accepted =>
    simp only [found] at refused
    by_cases same : accepted.id = record.id crypto
    · rw [if_pos same] at refused
      cases refused
    · rw [if_neg same] at refused
      obtain rfl := Except.error.inj refused
      obtain ⟨equivocation, signed⟩ := conflictingEpoch_haltsSync halts
      exact ⟨record, body, accepted, ⟨openEpoch_eq_ok.mp opened, found, same, signed⟩,
        equivocation⟩

theorem extend_haltsSync {memberships epochs : List (List UInt8)}
    (refused : extend crypto state memberships epochs = .error error)
    (halts : error.haltsSync = true) :
    ∃ reached, Run crypto state reached ∧
      ((∃ bytes ∈ memberships, ∃ record body accepted,
          ForkEvidence crypto reached bytes record body accepted ∧
            error = .fork body.version.toNat accepted.id (record.id crypto)) ∨
        ∃ bytes ∈ epochs, ∃ record body accepted,
          EquivocationEvidence crypto reached bytes record body accepted ∧
            error = .epochEquivocation accepted.id (record.id crypto)) := by
  obtain refused | ⟨middle, accepted, refused⟩ := bind_eq_error.mp refused
  · obtain ⟨before, bytes, after, reached, rfl, accepted, refused⟩ := applyFrom_eq_error refused
    refine ⟨reached, run_of_memberships accepted, .inl ⟨bytes, ?_, ?_⟩⟩
    · exact List.mem_append_right _ List.mem_cons_self
    · exact applyMembership_haltsSync refused halts
  obtain refused | ⟨final, _, refused⟩ := bind_eq_error.mp refused
  · obtain ⟨before, bytes, after, reached, rfl, acceptedEpochs, refused⟩ :=
      applyFrom_eq_error refused
    refine ⟨reached, (run_of_memberships accepted).trans (run_of_epochs acceptedEpochs),
      .inr ⟨bytes, ?_, ?_⟩⟩
    · exact List.mem_append_right _ List.mem_cons_self
    · exact applyEpoch_haltsSync refused halts
  · have ordinary : error.haltsSync = false := failsOnly_checkCoupled error refused
    rw [ordinary] at halts
    cases halts

/-! ### Completeness -/

theorem applyMembership_eq_fork {accepted : StepRef} (grown : Grown earlier state)
    (room : state.steps.length < maxChainLen)
    (opens : OpensMembership state.vaultId bytes record body)
    (place : body.version.toNat = earlier.headVersion + 1) (late : 2 ≤ body.version.toNat)
    (found : state.stepAt body.version.toNat = some accepted)
    (different : accepted.id ≠ record.id crypto)
    (acceptable : applyMembership crypto earlier index bytes = .ok after) :
    applyMembership crypto state position bytes =
      .error (.fork body.version.toNat accepted.id (record.id crypto)) := by
  obtain ⟨_, _, _, opensEarlier, step⟩ := applyMembership_eq_ok.mp acceptable
  obtain ⟨rfl, rfl⟩ := opens.unique opensEarlier
  have continues : Continues crypto earlier record body := by
    cases step with
    | repeated held => rw [place, stepAt_head_succ] at held; cases held
    | genesis first =>
      rw [VerifiedState.headVersion, first] at place
      rw [place] at late
      exact absurd late (by decide)
    | add continues => exact continues
    | revoke continues => exact continues
  have before : body.version.toNat - 1 = earlier.headVersion := by omega
  have linked : body.prevId = (state.stepAt (body.version.toNat - 1)).map StepRef.id := by
    obtain ⟨previous, last, linked⟩ := continues.linked
    rw [before, grown.stepAt le_rfl, stepAt_head, last, linked]
    rfl
  have signed : SignedBy crypto state body.signerFingerprint (body.version.toNat - 1) record := by
    rw [before, grown.signedBy le_rfl]
    exact continues.signed
  have opened : openMembership state position bytes = .ok (record, body) :=
    openMembership_eq_ok.mpr opens
  rw [applyMembership, ensure_of room, ok_bind, opened, ok_bind]
  simp only [found, if_neg different]
  rw [conflictingMembership_eq_fork (by omega) linked signed]

theorem applyEpoch_eq_epochEquivocation {body : EpochBody} {accepted : EpochRef}
    (grown : Grown earlier state) (room : state.epochs.length < maxChainLen)
    (opens : OpensEpoch state.vaultId bytes record body)
    (found : (state.epochs.find? fun epoch => epoch.prevEpochId = body.prevEpochId) = some accepted)
    (different : accepted.id ≠ record.id crypto)
    (acceptable : applyEpoch crypto earlier index bytes = .ok after) :
    applyEpoch crypto state position bytes =
      .error (.epochEquivocation accepted.id (record.id crypto)) := by
  obtain ⟨_, _, _, opensEarlier, step⟩ := applyEpoch_eq_ok.mp acceptable
  obtain ⟨rfl, rfl⟩ := opens.unique opensEarlier
  have opened : openEpoch state position bytes = .ok (record, body) := openEpoch_eq_ok.mpr opens
  rw [applyEpoch, ensure_of room, ok_bind, opened, ok_bind]
  simp only [found, if_neg different]
  cases step with
  | @repeated existing held same =>
    have inside := List.mem_of_find?_eq_some held
    have still := grown.find?_epochs inside (List.find?_some held)
    rw [found, held] at still
    rw [Option.some.inj still] at different
    exact absurd same different
  | accepted _ head signed =>
    rw [conflictingEpoch_eq_epochEquivocation (grown.headIndexOf head)
      ((grown.signedBy (headIndexOf_lt head)).mpr signed)]

/-- Halting is sound and complete. Sound: whatever halts a call is a record of it that differs from
the accepted one in its place and whose signature verifies under the key the chain holds for a
device with authority there, so unauthenticated bytes halt nothing. Complete, while both lists have
room: a record that differs from the accepted one in its place, and that the verifier would have
accepted in a state it passed through before that place was taken, halts every call that starts
with it. -/
theorem halts_iff_authorized_conflict (reachable : Reachable crypto vaultId state) :
    (∀ memberships epochs error, extend crypto state memberships epochs = .error error →
      error.haltsSync = true →
      ∃ reached, Run crypto state reached ∧
        (∀ founder ∈ reached.members.head?, founder.addedAtVersion = 1) ∧
        ((∃ bytes ∈ memberships, ∃ record body accepted,
            ForkEvidence crypto reached bytes record body accepted ∧
              error = .fork body.version.toNat accepted.id (record.id crypto)) ∨
          ∃ bytes ∈ epochs, ∃ record body accepted,
            EquivocationEvidence crypto reached bytes record body accepted ∧
              error = .epochEquivocation accepted.id (record.id crypto))) ∧
    (state.steps.length < maxChainLen → state.epochs.length < maxChainLen →
      ∀ before after index bytes record, Run crypto before state →
      (∀ body accepted, OpensMembership vaultId bytes record body → 2 ≤ body.version.toNat →
        body.version.toNat = before.headVersion + 1 →
        state.stepAt body.version.toNat = some accepted → accepted.id ≠ record.id crypto →
        applyMembership crypto before index bytes = .ok after →
        ∀ rest epochs, extend crypto state (bytes :: rest) epochs =
          .error (.fork body.version.toNat accepted.id (record.id crypto))) ∧
      ∀ body accepted, OpensEpoch vaultId bytes record body →
        (state.epochs.find? fun epoch => epoch.prevEpochId = body.prevEpochId) = some accepted →
        accepted.id ≠ record.id crypto → applyEpoch crypto before index bytes = .ok after →
        ∀ rest, extend crypto state [] (bytes :: rest) =
          .error (.epochEquivocation accepted.id (record.id crypto))) := by
  have vault : state.vaultId = vaultId := reachable.run.grown.vaultId
  constructor
  · intro memberships epochs error refused halts
    obtain ⟨reached, run, evidence⟩ := extend_haltsSync refused halts
    have fromEmpty : Run crypto (.empty vaultId) reached := reachable.run.trans run
    exact ⟨reached, run, fromEmpty.membershipInvariant.founder, evidence⟩
  · intro room roomEpochs before after index bytes record run
    constructor
    · intro body accepted opens late place found different acceptable rest epochs
      have refused := applyMembership_eq_fork 0 run.grown room (vault ▸ opens) place
        late found different acceptable
      rw [extend, applyFrom_cons, refused]
      rfl
    · intro body accepted opens found different acceptable rest
      have refused := applyEpoch_eq_epochEquivocation 0 run.grown roomEpochs
        (vault ▸ opens) found different acceptable
      rw [extend, applyFrom_nil, ok_bind, applyFrom_cons, refused]
      rfl

/-- A second epoch record after the genesis, under another key, halts whoever holds the first. -/
theorem halts_rival :
    extend sampleCrypto (sampleFounder.chain 1) [] [sampleRival.epochBytes 0] =
      .error (.epochEquivocation (sampleFounder.epochId 0) (sampleRival.epochId 0)) := by
  have run : Run sampleCrypto (sampleFounder.chain 0) (sampleFounder.chain 1) :=
    run_of_extend (Founder.extend_next (sampleCrypto_collisionFree _) (by decide))
  have accepted : applyEpoch sampleCrypto (sampleFounder.chain 0) 0 (sampleRival.epochBytes 0) =
      .ok (sampleRival.chain 1) :=
    sampleRival_chain ▸ Founder.applyEpoch_next (sampleCrypto_collisionFree _) (by decide) 0
  have different : sampleFounder.epochId 0 ≠ sampleRival.epochId 0 := by decide +kernel
  have reachable : Reachable sampleCrypto sampleFounder.vaultId (sampleFounder.chain 1) :=
    .of_verifyChain (verifyChain_sample (le_refl 1) (by decide))
  have room : 1 < maxChainLen := by decide
  have found : ((sampleFounder.chain 1).epochs.find? fun epoch =>
      epoch.prevEpochId = (sampleRival.epochBody 0).prevEpochId) =
        some (sampleFounder.epochRef 0) := rfl
  exact ((halts_iff_authorized_conflict reachable).2 room room _ _ _ _ _ run).2
    (sampleRival.epochBody 0) _ (sampleRival.opensEpoch 0) found different accepted []

end Dohflow.SyncCore
