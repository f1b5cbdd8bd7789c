/-
This file models the membership chain's verifier: the verified state, the
questions later checks ask of it, and `extend`, which takes the records that
follow a state and returns the new state or the first refusal.

`extend` applies all the membership records first and then all the epoch
records. A record at a position already accepted changes nothing when it is the
same record; a different one is judged by `conflictingMembership` or
`conflictingEpoch`, which report the halt class only when the record's signature
has authority over the chain.
-/

import Dohflow.SyncCore.MembershipRecords

namespace Dohflow.SyncCore

open Fallible

/-- Why a chain failed verification. An index is the zero-based position of the offending record
in the list of its call. -/
inductive ChainError
  | malformed (index : Nat) (error : WireError)
  | unsupportedProtocol (index : Nat)
  | unsupportedSuite (index : Nat)
  | tooLong
  | vaultMismatch (index : Nat)
  | badGenesis (index : Nat)
  | wrongVersion (index : Nat)
  | wrongPrevId (index : Nat)
  | badSignature (index : Nat)
  | signerUnknown (index : Nat)
  | signerRevoked (index : Nat)
  | fingerprintMismatch (index : Nat)
  | keyUnacceptable (index : Nat)
  | fingerprintReused (index : Nat)
  | deviceIdReused (index : Nat)
  | keyReused (index : Nat)
  | tooManyMembers (index : Nat)
  | revokeMismatch (index : Nat)
  | revokeOfUnauthorized (index : Nat)
  | wouldEmptyChain (index : Nat)
  /-- Two different membership records for one version. -/
  | fork (version : Nat) (accepted conflicting : Digest)
  /-- A membership record that no epoch record names. -/
  | epochRecordMissing (version : Nat)
  /-- Two different epoch records follow one previous epoch id. -/
  | epochEquivocation (accepted conflicting : Digest)
  | cutoverHeadNotRevoke (index : Nat)
  | grantHeadNotAdd (index : Nat)
  | badEpochSequence (index : Nat)
  | unknownHead (index : Nat)
  | recipientsMismatch (index : Nat)
  | sealerNotAuthorized (index : Nat)
  | epochBadSignature (index : Nat)

/-- Whether the error is the halt class. -/
def ChainError.haltsSync : ChainError → Bool
  | .fork .. => true
  | .epochEquivocation .. => true
  | _ => false

/-- A device in the chain. -/
structure Member where
  deviceId : Uuid
  fingerprint : Fingerprint
  ed25519Pk : PublicKey
  kemPublicKey : PublicKey
  /-- The version of the add record. -/
  addedAtVersion : Nat
  /-- The version of the revoke record, if revoked. -/
  revokedAtVersion : Option Nat

/-- Whether the member is authorized in the state after a membership version. -/
def Member.authorizedAt (member : Member) (version : Nat) : Bool :=
  member.addedAtVersion ≤ version && member.revokedAtVersion.all fun revoked => version < revoked

/-- One verified membership record. -/
structure StepRef where
  id : Digest
  action : Action

/-- One verified epoch record. -/
structure EpochRef where
  id : Digest
  prevEpochId : Option Digest
  keyEpoch : Nat
  reason : Reason
  /-- Zero-based index of the membership record it names. -/
  headIndex : Nat
  keyCommitmentKe : Digest
  deriving DecidableEq

/-- Everything verified so far. -/
structure VerifiedState where
  vaultId : Uuid
  steps : List StepRef
  members : List Member
  epochs : List EpochRef
  keyCommitmentS : Option Digest

namespace VerifiedState

/-- The state before any record. -/
def empty (vaultId : Uuid) : VerifiedState :=
  { vaultId, steps := [], members := [], epochs := [], keyCommitmentS := none }

/-- The id of the newest membership record, if any. -/
def headId (state : VerifiedState) : Option Digest := state.steps.getLast?.map StepRef.id

/-- The id of the newest accepted epoch record, if any. -/
def epochHeadId (state : VerifiedState) : Option Digest := state.epochs.getLast?.map EpochRef.id

/-- The version of the newest membership record, 0 for an empty state. -/
def headVersion (state : VerifiedState) : Nat := state.steps.length

/-- The accepted record of a version; versions start at 1. -/
def stepAt (state : VerifiedState) : Nat → Option StepRef
  | 0 => none
  | index + 1 => state.steps[index]?

def epochKeyCommitment (state : VerifiedState) (keyEpoch : Nat) : Option Digest :=
  (state.epochs.find? fun epoch => epoch.keyEpoch = keyEpoch).map EpochRef.keyCommitmentKe

/-- The key epoch in force, 0 for an empty state. -/
def keyEpoch (state : VerifiedState) : Nat := (state.epochs.getLast?.map EpochRef.keyEpoch).getD 0

/-- The members authorized at a version. -/
def authorizedAt (state : VerifiedState) (version : Nat) : List Member :=
  state.members.filter fun member => member.authorizedAt version

/-- The devices currently authorized. -/
def authorized (state : VerifiedState) : List Member := state.authorizedAt state.headVersion

def authorizedMember (state : VerifiedState) (fingerprint : Fingerprint) (version : Nat) :
    Option Member :=
  state.members.find? fun member =>
    member.fingerprint = fingerprint && member.authorizedAt version

def authorizedMemberByFingerprintAtVersion (state : VerifiedState) (fingerprint : Fingerprint)
    (version : Nat) : Option Member := state.authorizedMember fingerprint version

def authorizedMemberAtVersion (state : VerifiedState) (deviceId : Uuid) (version : Nat) :
    Option Member :=
  state.members.find? fun member => member.deviceId = deviceId && member.authorizedAt version

/-- The member as authorized at the last membership head any epoch record of the epoch names. -/
def authorizedMemberInEpoch (state : VerifiedState) (deviceId : Uuid) (keyEpoch : Nat) :
    Option Member := do
  let last ← state.epochs.reverse.find? fun epoch => epoch.keyEpoch = keyEpoch
  state.authorizedMemberAtVersion deviceId (last.headIndex + 1)

/-- The zero-based index of the membership record with an id. -/
def headIndexOf (state : VerifiedState) (id : Digest) : Option Nat :=
  state.steps.findIdx? fun step => step.id = id

end VerifiedState

/-- The epoch and the membership in force at one log position. -/
structure EpochAtPosition where
  keyEpoch : Nat
  membershipHeadVersion : Nat
  deriving DecidableEq

/-- From the id of the newest epoch record positioned before the envelope. -/
def EpochAtPosition.afterEpochRecord (state : VerifiedState) (epochRecordId : Digest) :
    Option EpochAtPosition :=
  (state.epochs.find? fun epoch => epoch.id = epochRecordId).map fun record =>
    { keyEpoch := record.keyEpoch, membershipHeadVersion := record.headIndex + 1 }

/-! ### Checks shared by the two kinds of record -/

def malformed (index : Nat) : WireError → ChainError
  | .unsupportedProtocol => .unsupportedProtocol index
  | error => .malformed index error

def checkSuite (suite kem : UInt16) (index : Nat) : Except ChainError Unit :=
  ensure (suite = suiteId ∧ kem = kemId) (.unsupportedSuite index)

section

variable (crypto : Crypto)

/-- What an unauthorized signer is told: a known fingerprint was revoked. -/
def signerRefusal (state : VerifiedState) (index : Nat) (fingerprint : Fingerprint) : ChainError :=
  if state.members.any fun member => member.fingerprint = fingerprint then .signerRevoked index
  else .signerUnknown index

/-! ### Membership records -/

/-- Parse a membership record and hold it to the suite and the vault. -/
def openMembership (state : VerifiedState) (index : Nat) (bytes : List UInt8) :
    Except ChainError (SignedRecord × MembershipBody) := do
  let record ← (SignedRecord.parse bytes maxMembershipBody).mapError (malformed index)
  let body ← (MembershipBody.decode record.body).mapError (malformed index)
  checkSuite body.suiteId body.kemId index
  ensure (body.vaultId = state.vaultId) (.vaultMismatch index)
  return (record, body)

/-- Rule 1: a genesis record is an add of its own signer at version 1, after nothing. -/
def MembershipBody.isGenesis (body : MembershipBody) : Prop :=
  body.version.toNat = 1 ∧ body.prevId = none ∧ body.action = .add ∧
    body.signerFingerprint = body.fingerprint crypto

instance (body : MembershipBody) : Decidable (body.isGenesis crypto) :=
  inferInstanceAs (Decidable (_ ∧ _ ∧ _ ∧ _))

/-- Both of the body's public keys may enter a chain. -/
def MembershipBody.keysAcceptable (body : MembershipBody) : Bool :=
  ed25519PublicKeyAcceptable crypto body.ed25519Pk && x25519PublicKeyAcceptable body.kemPublicKey

/-- The member an add record makes. -/
def MembershipBody.newMember (body : MembershipBody) : Member :=
  { deviceId := body.deviceId, fingerprint := body.fingerprint crypto
    ed25519Pk := body.ed25519Pk, kemPublicKey := body.kemPublicKey
    addedAtVersion := body.version.toNat, revokedAtVersion := none }

/-- A membership record that conflicts with the one accepted at its version: a fork only if it
would itself have been valid there, otherwise the ordinary error it earns. -/
def conflictingMembership (state : VerifiedState) (index : Nat) (body : MembershipBody)
    (record : SignedRecord) (accepted : Digest) : ChainError :=
  let verdict (publicKey : PublicKey) : ChainError :=
    if ed25519VerifyStrict crypto publicKey record.body record.signature then
      .fork body.version.toNat accepted (record.id crypto)
    else .badSignature index
  if body.version.toNat = 1 then
    if ¬ body.isGenesis crypto then .badGenesis index
    else if ¬ body.keysAcceptable crypto then .keyUnacceptable index
    else
      match state.members with
      -- The source indexes `members[0]` unguarded: a state that holds a step holds its founder.
      | [] => .badGenesis index
      | founder :: _ =>
        -- Only the accepted founding device has authority over the genesis.
        if body.signerFingerprint ≠ founder.fingerprint then .badGenesis index
        else verdict founder.ed25519Pk
  else if body.prevId ≠ (state.stepAt (body.version.toNat - 1)).map StepRef.id then
    .wrongPrevId index
  else
    match state.authorizedMember body.signerFingerprint (body.version.toNat - 1) with
    | none => signerRefusal state index body.signerFingerprint
    | some signer => verdict signer.ed25519Pk

/-- The first membership record. -/
def acceptGenesis (state : VerifiedState) (index : Nat) (record : SignedRecord)
    (body : MembershipBody) : Except ChainError VerifiedState := do
  ensure (body.isGenesis crypto) (.badGenesis index)
  ensure (body.keysAcceptable crypto) (.keyUnacceptable index)
  ensure (ed25519VerifyStrict crypto body.ed25519Pk record.body record.signature)
    (.badSignature index)
  return { state with
    members := state.members ++ [body.newMember crypto]
    steps := state.steps ++ [⟨record.id crypto, .add⟩] }

/-- Rule 4: a fingerprint, a device id or a public key is never reused. -/
def addMember (state : VerifiedState) (index : Nat) (body : MembershipBody) :
    Except ChainError (List Member) := do
  ensure (body.keysAcceptable crypto) (.keyUnacceptable index)
  ensure (¬ state.members.any fun member => member.fingerprint = body.fingerprint crypto)
    (.fingerprintReused index)
  ensure (¬ state.members.any fun member => member.deviceId = body.deviceId)
    (.deviceIdReused index)
  ensure (¬ state.members.any fun member =>
      member.ed25519Pk = body.ed25519Pk || member.kemPublicKey = body.kemPublicKey)
    (.keyReused index)
  ensure (state.authorized.length < maxMembers) (.tooManyMembers index)
  return state.members ++ [body.newMember crypto]

/-- Set the revocation of the first member with a fingerprint. -/
def revokeFirst (fingerprint : Fingerprint) (version : Nat) : List Member → List Member
  | [] => []
  | member :: rest =>
    if member.fingerprint = fingerprint then
      { member with revokedAtVersion := some version } :: rest
    else member :: revokeFirst fingerprint version rest

/-- Rule 6: a revoke repeats its add exactly and revokes a currently authorized fingerprint. -/
def revokeMember (state : VerifiedState) (index : Nat) (body : MembershipBody) :
    Except ChainError (List Member) :=
  match state.members.find? fun member => member.fingerprint = body.fingerprint crypto with
  | none => .error (.revokeMismatch index)
  | some target => do
    ensure (target.deviceId = body.deviceId ∧ target.ed25519Pk = body.ed25519Pk ∧
      target.kemPublicKey = body.kemPublicKey) (.revokeMismatch index)
    ensure (target.revokedAtVersion = none) (.revokeOfUnauthorized index)
    ensure (1 < state.authorized.length) (.wouldEmptyChain index)
    return revokeFirst (body.fingerprint crypto) body.version.toNat state.members

/-- A membership record after the first: rules 2 and 3, then its action's own. -/
def acceptSuccessor (state : VerifiedState) (index : Nat) (record : SignedRecord)
    (body : MembershipBody) (previous : StepRef) : Except ChainError VerifiedState := do
  ensure (body.version.toNat = state.headVersion + 1) (.wrongVersion index)
  ensure (body.prevId = some previous.id) (.wrongPrevId index)
  match state.authorizedMember body.signerFingerprint state.headVersion with
  | none => .error (signerRefusal state index body.signerFingerprint)
  | some signer =>
    ensure (ed25519VerifyStrict crypto signer.ed25519Pk record.body record.signature)
      (.badSignature index)
    let members ← match body.action with
      | .add => addMember crypto state index body
      | .revoke => revokeMember crypto state index body
    return { state with members, steps := state.steps ++ [⟨record.id crypto, body.action⟩] }

def applyMembership (state : VerifiedState) (index : Nat) (bytes : List UInt8) :
    Except ChainError VerifiedState := do
  ensure (state.steps.length < maxChainLen) .tooLong
  let (record, body) ← openMembership state index bytes
  match state.stepAt body.version.toNat with
  | some accepted =>
    -- A record at a position already accepted: the same record changes nothing.
    if accepted.id = record.id crypto then return state
    else .error (conflictingMembership crypto state index body record accepted.id)
  | none =>
    match state.steps.getLast? with
    | none => acceptGenesis crypto state index record body
    | some previous => acceptSuccessor crypto state index record body previous

/-! ### Epoch records -/

/-- Parse an epoch record and hold it to the suite and the vault. -/
def openEpoch (state : VerifiedState) (index : Nat) (bytes : List UInt8) :
    Except ChainError (SignedRecord × EpochBody) := do
  let record ← (SignedRecord.parse bytes maxEpochBody).mapError (malformed index)
  let body ← (EpochBody.decode record.body).mapError (malformed index)
  checkSuite body.suiteId body.kemId index
  ensure (body.vaultId = state.vaultId) (.vaultMismatch index)
  return (record, body)

/-- An epoch record that conflicts with the one accepted after the same previous epoch id. -/
def conflictingEpoch (state : VerifiedState) (index : Nat) (body : EpochBody)
    (record : SignedRecord) (accepted : Digest) : ChainError :=
  match state.headIndexOf body.membershipHead with
  | none => .unknownHead index
  | some headIndex =>
    match state.authorizedMember body.sealerFingerprint (headIndex + 1) with
    | none => .sealerNotAuthorized index
    | some sealer =>
      if ed25519VerifyStrict crypto sealer.ed25519Pk record.body record.signature then
        .epochEquivocation accepted (record.id crypto)
      else .epochBadSignature index

/-- A key never used before in this chain. -/
def freshKey (state : VerifiedState) (body : EpochBody) : Bool :=
  !state.epochs.any fun epoch => epoch.keyCommitmentKe = body.keyCommitmentKe

/-- The head of a cutover or a grant advances by exactly one membership record of the action the
reason wants. -/
def checkCoupledHead (state : VerifiedState) (index : Nat) (previous : EpochRef) (headIndex : Nat)
    (wanted : Action) (otherwise : ChainError) : Except ChainError Unit := do
  ensure (headIndex ≤ previous.headIndex + 1) (.epochRecordMissing (previous.headIndex + 2))
  ensure (headIndex = previous.headIndex + 1) (.badEpochSequence index)
  ensure ((state.steps[headIndex]?.map StepRef.action) = some wanted) otherwise

/-- A `u64` one above another. -/
def nextKeyEpoch (keyEpoch : Nat) : Nat := (keyEpoch + 1) % 2 ^ 64

/-- The sequence and the reason table. -/
def checkReason (state : VerifiedState) (index : Nat) (body : EpochBody) (headIndex : Nat) :
    Except ChainError Unit :=
  match state.epochs.getLast?, body.reason with
  | none, .genesis =>
    ensure (body.keyEpoch.toNat = 1 ∧ body.prevEpochId = none ∧ headIndex = 0)
      (.badEpochSequence index)
  | none, _ => .error (.badEpochSequence index)
  | some _, .genesis => .error (.badEpochSequence index)
  | some previous, reason => do
    ensure (body.prevEpochId = some previous.id ∧
      state.keyCommitmentS = some body.keyCommitmentS) (.badEpochSequence index)
    match reason with
    | .cutover =>
      checkCoupledHead state index previous headIndex .revoke (.cutoverHeadNotRevoke index)
      ensure (body.keyEpoch.toNat = nextKeyEpoch previous.keyEpoch ∧ freshKey state body)
        (.badEpochSequence index)
    | .grant =>
      checkCoupledHead state index previous headIndex .add (.grantHeadNotAdd index)
      ensure (body.keyEpoch.toNat = previous.keyEpoch ∧
        body.keyCommitmentKe = previous.keyCommitmentKe) (.badEpochSequence index)
    | _ =>
      ensure (headIndex = previous.headIndex ∧
        body.keyEpoch.toNat = nextKeyEpoch previous.keyEpoch ∧ freshKey state body)
        (.badEpochSequence index)

/-- The set of recipients a reason names. -/
def expectedRecipients (state : VerifiedState) (reason : Reason) (headVersion : Nat) :
    List Member :=
  match reason with
  | .grant => state.members.filter fun member => member.addedAtVersion = headVersion
  | _ => state.authorizedAt headVersion

/-- Walk the recipient list: each entry is expected and listed once. -/
def checkRecipients (index : Nat) (expected : List Member) :
    List Recipient → List Fingerprint → Except ChainError (List Fingerprint)
  | [], listed => .ok listed
  | recipient :: rest, listed => do
    ensure (recipient.suiteId = suiteId ∧ recipient.kemId = kemId ∧
      (expected.any fun member => member.deviceId = recipient.deviceId &&
        member.fingerprint = recipient.fingerprint) ∧
      recipient.fingerprint ∉ listed) (.recipientsMismatch index)
    checkRecipients index expected rest (recipient.fingerprint :: listed)

/-- The record the state keeps of an epoch record. -/
def epochRefOf (record : SignedRecord) (body : EpochBody) (headIndex : Nat) : EpochRef :=
  { id := record.id crypto, prevEpochId := body.prevEpochId, keyEpoch := body.keyEpoch.toNat
    reason := body.reason, headIndex, keyCommitmentKe := body.keyCommitmentKe }

/-- An epoch record no accepted one stands in the place of. -/
def acceptEpoch (state : VerifiedState) (index : Nat) (record : SignedRecord) (body : EpochBody) :
    Except ChainError VerifiedState :=
  match state.headIndexOf body.membershipHead with
  | none => .error (.unknownHead index)
  | some headIndex =>
    match state.authorizedMember body.sealerFingerprint (headIndex + 1) with
    | none => .error (.sealerNotAuthorized index)
    | some sealer => do
      ensure (ed25519VerifyStrict crypto sealer.ed25519Pk record.body record.signature)
        (.epochBadSignature index)
      checkReason state index body headIndex
      let expected := expectedRecipients state body.reason (headIndex + 1)
      let listed ← checkRecipients index expected body.recipients []
      ensure (listed.length = expected.length) (.recipientsMismatch index)
      return { state with
        epochs := state.epochs ++ [epochRefOf crypto record body headIndex]
        keyCommitmentS :=
          if body.reason = .genesis then some body.keyCommitmentS else state.keyCommitmentS }

def applyEpoch (state : VerifiedState) (index : Nat) (bytes : List UInt8) :
    Except ChainError VerifiedState := do
  ensure (state.epochs.length < maxChainLen) .tooLong
  let (record, body) ← openEpoch state index bytes
  match state.epochs.find? fun epoch => epoch.prevEpochId = body.prevEpochId with
  | some existing =>
    if existing.id = record.id crypto then return state
    else .error (conflictingEpoch crypto state index body record existing.id)
  | none => acceptEpoch crypto state index record body

/-! ### The chain -/

/-- The newest epoch record must name the newest membership record. -/
def checkCoupled (state : VerifiedState) : Except ChainError VerifiedState :=
  if state.steps.isEmpty then .ok state
  else
    match state.epochs.getLast? with
    | none => .error (.epochRecordMissing 1)
    | some last =>
      if last.headIndex + 1 < state.steps.length then
        .error (.epochRecordMissing (last.headIndex + 2))
      else .ok state

/-- Verify the records that follow a state and return the new state, or an error and no change. -/
def extend (state : VerifiedState) (memberships epochs : List (List UInt8)) :
    Except ChainError VerifiedState := do
  let next ← applyFrom (applyMembership crypto) 0 state memberships
  let next ← applyFrom (applyEpoch crypto) 0 next epochs
  checkCoupled next

/-- Verify a whole chain from nothing. -/
def verifyChain (vaultId : Uuid) (memberships epochs : List (List UInt8)) :
    Except ChainError VerifiedState :=
  extend crypto (VerifiedState.empty vaultId) memberships epochs

end

end Dohflow.SyncCore
