/-
This file proves that a void body has one form, and that a void record is judged the same by every
replica that has come as far as the membership in force at its position.
-/

import Dohflow.SyncCore.MembershipRecords
import Dohflow.SyncCore.Verdicts
import Dohflow.SyncCore.Void

namespace Dohflow.SyncCore

open ByteReader Fallible

variable {crypto : Crypto} {bytes record : List UInt8} {body : VoidBody}

theorem byte_of_voidReason {byte : UInt8} {reason : VoidReason}
    (known : VoidReason.ofByte byte = .ok reason) : reason.byte = byte := by
  unfold VoidReason.ofByte at known
  split_ifs at known with first second
  · obtain rfl := Except.ok.inj known
    exact first.symm
  · obtain rfl := Except.ok.inj known
    exact second.symm

theorem VoidBody.encode_of_decode (decoded : VoidBody.decode bytes = .ok body) :
    body.encode = bytes := by
  obtain ⟨rest, read⟩ := decode_eq_ok decoded
  obtain ⟨_, _, atLabel, read⟩ := ReadsOnly.of_bind (readsOnly_label _) read
  obtain ⟨protocol, _, atProtocol, read⟩ := ReadsOnly.of_bind readsOnly_u16 read
  obtain ⟨spoken, read⟩ := run_require_bind_eq_ok.mp read
  obtain ⟨suiteId, _, atSuite, read⟩ := ReadsOnly.of_bind readsOnly_u16 read
  obtain ⟨vaultId, _, atVault, read⟩ := ReadsOnly.of_bind (readsOnly_fixed 16) read
  obtain ⟨seq, _, atSeq, read⟩ := ReadsOnly.of_bind readsOnly_u64 read
  obtain ⟨commandId, _, atCommand, read⟩ := ReadsOnly.of_bind (readsOnly_fixed 16) read
  obtain ⟨digest, _, atDigest, read⟩ := ReadsOnly.of_bind (readsOnly_fixed 32) read
  obtain ⟨reasonByte, _, atReason, read⟩ := ReadsOnly.of_bind readsOnly_u8 read
  obtain ⟨reason, reasonKnown, read⟩ := run_liftM_bind_eq_ok.mp read
  obtain ⟨signer, _, atSigner, read⟩ := ReadsOnly.of_bind (readsOnly_fixed 32) read
  obtain ⟨issuedAt, _, atIssued, read⟩ := ReadsOnly.of_bind readsOnly_i64 read
  obtain ⟨_, _, finished, read⟩ := run_bind_eq_ok.mp read
  obtain ⟨atEnd, -⟩ := run_finish_eq_ok.mp finished
  obtain ⟨rfl, -⟩ := run_pure_eq_ok.mp read
  rw [atLabel, atProtocol, spoken, atSuite, atVault, atSeq, atCommand, atDigest, atReason, atSigner,
    atIssued, atEnd, ← byte_of_voidReason reasonKnown, encode]
  simp only [List.append_nil]

/-- The bytes that read as a body are those it is written as, and no others. -/
theorem void_body_has_one_form (bytes : List UInt8) (body : VoidBody) :
    VoidBody.decode bytes = .ok body ↔ body.encode = bytes := by
  constructor
  · exact VoidBody.encode_of_decode
  · rintro rfl
    exact body.decode_encode

/-- A replica judges a void record, at a position whose membership it knows, as it will judge it
however its chain grows; one that it accepts is its vault's, and its id is the hash of its body. -/
theorem void_verdicts_stable {state next : VerifiedState} {memberships epochs : List (List UInt8)}
    {atVoid : EpochAtPosition}
    (extended : extend crypto state memberships epochs = .ok next)
    (past : atVoid.membershipHeadVersion ≤ state.headVersion) (position : UInt64)
    (record : List UInt8) :
    verifyVoid crypto next atVoid position record =
        verifyVoid crypto state atVoid position record ∧
      ∀ verified, verifyVoid crypto state atVoid position record = .ok verified →
        verified.body.vaultId = state.vaultId ∧ verified.position = position ∧
          verified.id = crypto.sha256 verified.body.encode := by
  have grown := (run_of_extend extended).grown
  refine ⟨?_, fun verified accepted => ?_⟩
  · unfold verifyVoid
    rw [grown.vaultId]
    refine congrArg _ (funext fun signed => congrArg _ (funext fun body => ?_))
    have signers :
        (next.authorizedMemberByFingerprintAtVersion body.signerFingerprint
          atVoid.membershipHeadVersion).map Member.asAdded =
        (state.authorizedMemberByFingerprintAtVersion body.signerFingerprint
          atVoid.membershipHeadVersion).map Member.asAdded :=
      grown.authorizedMember body.signerFingerprint past
    cases now : next.authorizedMemberByFingerprintAtVersion body.signerFingerprint
      atVoid.membershipHeadVersion with
    | none =>
      cases before : state.authorizedMemberByFingerprintAtVersion body.signerFingerprint
        atVoid.membershipHeadVersion with
      | none => rfl
      | some earlier =>
        rw [now, before] at signers
        cases signers
    | some later =>
      cases before : state.authorizedMemberByFingerprintAtVersion body.signerFingerprint
        atVoid.membershipHeadVersion with
      | none =>
        rw [now, before] at signers
        cases signers
      | some earlier =>
        rw [now, before, Option.map_some, Option.map_some] at signers
        have same : later.asAdded = earlier.asAdded := Option.some.inj signers
        have keys : later.ed25519Pk = earlier.ed25519Pk := by
          show later.asAdded.ed25519Pk = earlier.asAdded.ed25519Pk
          rw [same]
        simp only [keys]
  · obtain ⟨signed, parsed, accepted⟩ := bind_eq_ok.mp accepted
    obtain ⟨body, decoded, accepted⟩ := bind_eq_ok.mp accepted
    obtain ⟨-, accepted⟩ := ensure_bind_eq_ok.mp accepted
    obtain ⟨own, accepted⟩ := ensure_bind_eq_ok.mp accepted
    have form := VoidBody.encode_of_decode (mapError_eq_ok.mp decoded)
    split at accepted
    · cases accepted
    · obtain ⟨-, same⟩ := ensure_bind_eq_ok.mp accepted
      obtain rfl := Except.ok.inj same
      exact ⟨own, rfl, congrArg crypto.sha256 form.symm⟩

/-- A void of the founder's that reports a failing check. -/
def founderVoid : VoidBody where
  suiteId := suiteId
  vaultId := sampleFounder.vaultId
  seq := 2
  commandId := sampleFounder.deviceId
  envelopeDigest := List.Vector.replicate 32 6
  reason := .receiverCheck
  signerFingerprint := sampleFounder.fingerprint
  issuedAt := 0

/-- A rotation of the keys leaves the verdict on the founder's void as it was. -/
theorem void_verdicts_stable_founder :
    (verifyVoid sampleCrypto (sampleFounder.chain 2) ⟨1, 1⟩ 3
        (sampleFounder.signed founderVoid.encode)).map VerifiedVoid.body = .ok founderVoid := by
  have extended : extend sampleCrypto (sampleFounder.chain 1) [] [sampleFounder.epochBytes 1] =
      .ok (sampleFounder.chain 2) := Founder.extend_next (sampleCrypto_collisionFree _) (by decide)
  have past : EpochAtPosition.membershipHeadVersion ⟨1, 1⟩ ≤ (sampleFounder.chain 1).headVersion :=
    by decide
  rw [(void_verdicts_stable extended past 3 _).1]
  decide +kernel

end Dohflow.SyncCore
