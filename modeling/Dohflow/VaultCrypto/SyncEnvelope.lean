/-
This file models sealing and opening envelopes: the epoch's key, the key and nonce an
object is sealed under, the receiver path with its reasons, and the verdict a replica
gives on the envelope at one log position.

HKDF and AES-256-GCM are not this repository's; they enter as the operations of
`Aead`. The receiver path exists once, `openTyped`: the producer's opener judges the
device against the last head of the key's epoch, a replica against the head in force at
the position.
-/

import Dohflow.SyncCore.Producer

namespace Dohflow.VaultCrypto

open ByteReader Fallible SyncCore

/-- A 32-byte secret. -/
abbrev SecretBytes := Fixed 32

/-- What the source asks of its key derivation and its cipher. -/
structure Aead where
  /-- `Hkdf::from_prk(..).expand(info)`. -/
  expand : SecretBytes → List UInt8 → SecretBytes
  /-- `Aes256Gcm::encrypt`, of a key, a nonce, the additional data and a message. -/
  encrypt : SecretBytes → List UInt8 → List UInt8 → List UInt8 → Option (List UInt8)
  /-- `Aes256Gcm::decrypt`. -/
  decrypt : SecretBytes → List UInt8 → List UInt8 → List UInt8 → Option (List UInt8)

/-- The label of the AEAD-key derivation. -/
def aeadKeyLabel : String := "dohflow/sync-aead/v1"

/-- The label of the epoch-key commitment. -/
def epochKeyCommitmentLabel : String := "dohflow/sync-epoch-key-commit/v1"

/-- Which kind of object a key is for. -/
inductive ObjectType
  | envelope
  | snapshot

def ObjectType.code : ObjectType → UInt8
  | .envelope => objectEnvelope
  | .snapshot => objectSnapshot

/-- Why an epoch key was refused. -/
inductive KeyError
  | commitmentMismatch

/-- The key of one vault's one key epoch. -/
structure EpochKey where
  vaultId : Uuid
  keyEpoch : UInt64
  bytes : SecretBytes

section

variable (crypto : Crypto) (aead : Aead)

/-- The commitment an epoch record carries to its key. -/
def epochKeyCommitment (key : SecretBytes) : Digest :=
  crypto.sha256 (Writer.withLabel epochKeyCommitmentLabel ++ Writer.fixed key)

/-- Accept a key whose commitment is the verified epoch record's. -/
def EpochKey.fromVerified (vaultId : Uuid) (keyEpoch : UInt64) (key : SecretBytes)
    (commitment : Digest) : Except KeyError EpochKey := do
  ensure (epochKeyCommitment crypto key = commitment) .commitmentMismatch
  return { vaultId, keyEpoch, bytes := key }

/-- The AEAD key of one device for one object type in one epoch. -/
def aeadKey (key : EpochKey) (fingerprint : Fingerprint) (object : ObjectType) : SecretBytes :=
  aead.expand key.bytes (Writer.withLabel aeadKeyLabel ++ (Writer.u16 protocolVersion ++
    (Writer.fixed key.vaultId ++ (Writer.u64 key.keyEpoch ++ (Writer.fixed fingerprint.bytes ++
      Writer.u8 object.code)))))

/-- The nonce domain, then the invocation counter. -/
def gcmNonce (domain : NonceDomain) (counter : UInt64) : List UInt8 :=
  Writer.fixed domain.bytes ++ Writer.u64 counter

def gcmEncrypt (key : SecretBytes) (domain : NonceDomain) (counter : UInt64)
    (aad plaintext : List UInt8) : Option (List UInt8) :=
  aead.encrypt key (gcmNonce domain counter) aad plaintext

def gcmDecrypt (key : SecretBytes) (domain : NonceDomain) (counter : UInt64)
    (aad ciphertext : List UInt8) : Option (List UInt8) :=
  aead.decrypt key (gcmNonce domain counter) aad ciphertext

/-- The value of an attempt whose library call may give none. -/
def orFail {Failure Value : Type} (failure : Failure) : Option Value → Except Failure Value
  | some value => .ok value
  | none => .error failure

theorem orFail_eq_ok {Failure Value : Type} {failure : Failure} {found : Option Value}
    {value : Value} : orFail failure found = .ok value ↔ found = some value := by
  cases found with
  | none =>
    constructor
    · intro accepted
      cases accepted
    · intro accepted
      cases accepted
  | some other =>
    constructor
    · intro accepted
      rw [Except.ok.inj accepted]
    · intro accepted
      rw [Option.some.inj accepted]
      rfl

/-! ### Sealing -/

/-- The sealing device's own identity. -/
structure SealerIdentity where
  vaultId : Uuid
  deviceId : Uuid
  fingerprint : Fingerprint

/-- Why an envelope was not sealed. -/
inductive SealError
  | notAnEnvelope
  | wrongVault
  | wrongEpoch
  | wrongDevice
  | wrongNonceDomain
  | unencodable
  | encryption

/-- Seal a plaintext as the envelope the header describes; the header must name the sealer. -/
def sealEnvelope (key : EpochKey) (sealer : SealerIdentity) (header : ClearHeader)
    (plaintext : List UInt8) : Except SealError (List UInt8) := do
  ensure (header.objectType = objectEnvelope) .notAnEnvelope
  ensure (header.vaultId = key.vaultId ∧ header.vaultId = sealer.vaultId) .wrongVault
  ensure (header.keyEpoch = key.keyEpoch) .wrongEpoch
  ensure (header.deviceId = sealer.deviceId ∧ header.deviceKeyFingerprint = sealer.fingerprint)
    .wrongDevice
  let domain := NonceDomain.derive crypto header.vaultId header.keyEpoch
    header.deviceKeyFingerprint objectEnvelope
  ensure (header.nonceDomain = domain) .wrongNonceDomain
  let aad ← header.encode.mapError fun _ => .unencodable
  let sealingKey := aeadKey aead key sealer.fingerprint .envelope
  let ciphertext ← orFail .encryption
    (gcmEncrypt aead sealingKey domain header.invocationCounter aad plaintext)
  let container ← (encodeContainer header ciphertext).mapError fun _ => .unencodable
  ensure (container.length ≤ maxEnvelopeContainerLen) .unencodable
  return container

/-! ### Opening -/

/-- Which membership a receiver judges a header's device against. -/
inductive MemberWindow
  /-- The last head of the key's epoch. -/
  | inEpoch
  /-- The membership version in force at the position. -/
  | atVersion (version : Nat)

/-- The member the chain holds for a device, in the window. -/
def MemberWindow.member (window : MemberWindow) (chain : VerifiedState) (deviceId : Uuid)
    (keyEpoch : UInt64) : Option Member :=
  match window with
  | .inEpoch => chain.authorizedMemberInEpoch deviceId keyEpoch.toNat
  | .atVersion version => chain.authorizedMemberAtVersion deviceId version

/-- Why the receiver path refused to open an envelope. -/
inductive OpenFailure
  | notAnEnvelope
  | wrongVault
  | wrongEpoch
  | deviceOutsideEpoch
  | identityMismatch
  | nonceDomain
  | notOpenable
  deriving DecidableEq

/-- The receiver path with its reasons: the key comes from the expected vault and epoch and from
the fingerprint the chain holds, and the header must restate them. -/
def openTyped (key : EpochKey) (chain : VerifiedState) (window : MemberWindow)
    (container : ParsedContainer) : Except OpenFailure (List UInt8) := do
  let header := container.header
  ensure (header.objectType = objectEnvelope) .notAnEnvelope
  ensure (header.vaultId = key.vaultId) .wrongVault
  ensure (header.keyEpoch = key.keyEpoch) .wrongEpoch
  let member ← orFail .deviceOutsideEpoch (window.member chain header.deviceId key.keyEpoch)
  ensure (member.fingerprint = header.deviceKeyFingerprint) .identityMismatch
  let domain := NonceDomain.derive crypto key.vaultId key.keyEpoch member.fingerprint
    objectEnvelope
  ensure (header.nonceDomain = domain) .nonceDomain
  let openingKey := aeadKey aead key member.fingerprint .envelope
  orFail .notOpenable (gcmDecrypt aead openingKey domain header.invocationCounter
    container.headerBytes container.ciphertext)

/-- The receiver path as an opener of sealed envelopes. -/
def receiverOpener (key : EpochKey) (chain : VerifiedState) (window : MemberWindow) :
    EnvelopeOpener :=
  fun container => (openTyped crypto aead key chain window container).toOption

/-- The opener of the producer's own seal-then-verify. -/
def ReceiverOpener.forProducer (key : EpochKey) (chain : VerifiedState) : EnvelopeOpener :=
  receiverOpener crypto aead key chain .inEpoch

/-- The opener of a replica judging one log position. -/
def ReceiverOpener.atPosition (key : EpochKey) (chain : VerifiedState)
    (position : EpochAtPosition) : EnvelopeOpener :=
  receiverOpener crypto aead key chain (.atVersion position.membershipHeadVersion)

/-! ### The verdict -/

/-- Why an envelope is invalid. -/
inductive InvalidReason
  | unparseable
  | wrongVault
  | epochNotInForce
  | open (failure : OpenFailure)
  | plaintextMalformed
  | check (error : ReceiverError)
  deriving DecidableEq

/-- Why a replica cannot judge an envelope yet. -/
inductive Wait
  | chainBehind
  | noVerifiedKey
  | updateRequired
  deriving DecidableEq

/-- A replica's verdict on the envelope at one log position. -/
inductive Verdict
  | valid
  | invalid (reason : InvalidReason)
  | notDeterminable (wait : Wait)
  deriving DecidableEq

/-- The verdict on what the open step gave: the plaintext must decode and pass the receiver's
checks. -/
def judgeOpened (header : ClearHeader) (tagFor : IdempotencyKey → IdempotencyKeyTag) :
    Except OpenFailure (List UInt8) → Verdict
  | .error failure => .invalid (.open failure)
  | .ok plaintextBytes =>
    match EnvelopePlaintext.decode plaintextBytes with
    | .error _ => .invalid .plaintextMalformed
    | .ok plaintext =>
      match checkEnvelope crypto header plaintext tagFor with
      | .ok _ => .valid
      | .error error => .invalid (.check error)

/-- The verdict on a parsed container of this vault and version, at a known position. -/
def judgeAt (keys : List EpochKey) (chain : VerifiedState) (position : EpochAtPosition)
    (tagFor : IdempotencyKey → IdempotencyKeyTag) (container : ParsedContainer) : Verdict :=
  let header := container.header
  if header.keyEpoch.toNat ≠ position.keyEpoch then .invalid .epochNotInForce
  else match keys.find? fun key =>
      key.keyEpoch = header.keyEpoch && key.vaultId = header.vaultId with
    | none => .notDeterminable .noVerifiedKey
    | some key =>
      judgeOpened crypto header tagFor (openTyped crypto aead key chain
        (.atVersion position.membershipHeadVersion) container)

/-- Classify the envelope at one log position. -/
def classifyEnvelope (containerBytes : List UInt8) (ownEngineVersion : String)
    (keys : List EpochKey) (chain : VerifiedState) (position : Option EpochAtPosition)
    (tagFor : IdempotencyKey → IdempotencyKeyTag) : Verdict :=
  match parseContainerWithLimit containerBytes maxEnvelopeContainerLen with
  | .error _ => .invalid .unparseable
  | .ok container =>
    if container.header.vaultId ≠ chain.vaultId then .invalid .wrongVault
    else if container.header.engineVersion ≠ ownEngineVersion then
      .notDeterminable .updateRequired
    else match position with
      | none => .notDeterminable .chainBehind
      | some position => judgeAt crypto aead keys chain position tagFor container

end

end Dohflow.VaultCrypto
