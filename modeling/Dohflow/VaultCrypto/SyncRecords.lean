/-
This file models building and accepting the signed records of a vault's key custody:
a device's keys, the sealed key set, the genesis, and the recipient's acceptance of a
suffix of the chain.

Ed25519, X25519 and HPKE are not this repository's; they enter as the operations of
`DeviceCrypto`. The founding device accepts its own genesis before it offers it, so a
genesis that was built can be read by the keys that built it (`createGenesisWith_ok`).
The last section proves the other direction: where the libraries do what they document,
a genesis can always be built (`exists_createGenesisWith`).
-/

import Mathlib.Data.List.Sort
import Dohflow.VaultCrypto.SyncEnvelope

namespace Dohflow.SyncCore.EpochBody

open ByteReader

def hpkeInfoLabel : String := "dohflow/sync-hpke-info/v1"

def hpkeAadLabel : String := "dohflow/sync-hpke-aad/v1"

/-- Everything before the recipient list. -/
def headerBytes (body : EpochBody) : List UInt8 := body.headerWriter []

def headerHash (crypto : Crypto) (body : EpochBody) : Digest := crypto.sha256 body.headerBytes

/-- The HPKE `info` for one recipient. -/
def hpkeInfo (crypto : Crypto) (body : EpochBody) (recipientDeviceId : Uuid)
    (recipientFingerprint : Fingerprint) : List UInt8 :=
  Writer.withLabel hpkeInfoLabel ++ (Writer.u16 protocolVersion ++ (Writer.u16 body.suiteId ++
    (Writer.fixed body.vaultId ++ (Writer.u64 body.keyEpoch ++ (Writer.fixed recipientDeviceId ++
    (Writer.fixed recipientFingerprint.bytes ++ (Writer.fixed body.sealerFingerprint.bytes ++
    (Writer.fixed body.membershipHead ++ Writer.fixed (body.headerHash crypto)))))))))

/-- The HPKE `aad` for one recipient. -/
def hpkeAad (crypto : Crypto) (body : EpochBody) (recipientFingerprint : Fingerprint) :
    List UInt8 :=
  Writer.withLabel hpkeAadLabel ++ (Writer.fixed (body.headerHash crypto) ++
    Writer.fixed recipientFingerprint.bytes)

end Dohflow.SyncCore.EpochBody

namespace Dohflow.VaultCrypto

open ByteReader Fallible SyncCore

/-- A byte string of exactly the width. -/
def fromSlice (width : Nat) (bytes : List UInt8) : Option (Fixed width) :=
  if exact : bytes.length = width then some ⟨bytes, exact⟩ else none

@[simp] theorem fromSlice_toList {width : Nat} (value : Fixed width) :
    fromSlice width value.toList = some value := dif_pos value.toList_length

/-- What the source asks of its key libraries. -/
structure DeviceCrypto where
  /-- `SigningKey::from_bytes(seed).verifying_key()`. -/
  signingPublic : SecretBytes → PublicKey
  /-- `SigningKey::sign`. -/
  sign : SecretBytes → List UInt8 → Signature
  /-- `x25519_dalek::PublicKey::from`. -/
  agreementPublic : SecretBytes → PublicKey
  /-- `hpke::single_shot_seal`, of a public key, the info, the additional data, a plaintext and the
  seed of the ephemeral key: the encapsulated key and the ciphertext. -/
  sealTo : PublicKey → List UInt8 → List UInt8 → List UInt8 → SecretBytes →
    Option (PublicKey × List UInt8)
  /-- `hpke::single_shot_open`, of a private key, the encapsulated key, the info, the additional
  data and a ciphertext. -/
  openWith : SecretBytes → PublicKey → List UInt8 → List UInt8 → List UInt8 → Option (List UInt8)

/-! ### A device's keys -/

/-- Why a device's keys were not produced. -/
inductive DeviceKeyError
  | rng
  | unacceptableSigningKey
  | unacceptableAgreementKey

/-- A device's public keys and the fingerprint that commits to both. -/
structure DevicePublic where
  ed25519Pk : PublicKey
  kemPublicKey : PublicKey
  fingerprint : Fingerprint

structure DeviceKeys where
  signing : SecretBytes
  agreement : SecretBytes

def tagKeyCommitmentLabel : String := "dohflow/sync-tag-key-commit/v1"

/-- The tag secret `S`. -/
structure TagSecret where
  bytes : SecretBytes

section

variable (crypto : Crypto) (device : DeviceCrypto)

def DeviceKeys.publicKeys (keys : DeviceKeys) : DevicePublic :=
  let ed25519Pk := device.signingPublic keys.signing
  let kemPublicKey := device.agreementPublic keys.agreement
  { ed25519Pk, kemPublicKey
    fingerprint := deviceFingerprint crypto suiteId kemId ed25519Pk kemPublicKey }

/-- Rebuild a device's keys, screening both public keys again. -/
def DeviceKeys.fromSecrets (signing agreement : SecretBytes) :
    Except DeviceKeyError DeviceKeys := do
  let keys : DeviceKeys := { signing, agreement }
  ensure (ed25519PublicKeyAcceptable crypto (keys.publicKeys crypto device).ed25519Pk)
    .unacceptableSigningKey
  ensure (x25519PublicKeyAcceptable (keys.publicKeys crypto device).kemPublicKey)
    .unacceptableAgreementKey
  return keys

def tagKeyCommitment (secret : SecretBytes) : Digest :=
  crypto.sha256 (Writer.withLabel tagKeyCommitmentLabel ++ Writer.fixed secret)

/-- Accept a tag secret whose commitment is the verified epoch record's. -/
def TagSecret.fromVerified (secret : SecretBytes) (commitment : Digest) :
    Except KeyError TagSecret := do
  ensure (tagKeyCommitment crypto secret = commitment) .commitmentMismatch
  return { bytes := secret }

/-! ### The sealed key set -/

end

/-- Why a key set was not sealed or not unsealed. -/
inductive KeySetError
  | rng
  | unacceptableRecipientKey
  | sealing
  | opening
  | notAKeySet

/-- One recipient's sealed key set. -/
structure SealedKeySet where
  enc : PublicKey
  ciphertext : List UInt8

/-- A key set before either key is checked against a commitment. -/
structure UnsealedKeySet where
  epochRoot : SecretBytes
  tagSecret : SecretBytes

def sealedKeysLabel : String := "dohflow/sync-sealed-keys/v1"

def sealedKeysPlaintextLen : Nat := 93

section

variable (crypto : Crypto) (device : DeviceCrypto)

/-- Seal `K_e` and `S` to one recipient, with what the random source gave for a seed. -/
def sealKeySet (recipientPublicKey : PublicKey) (info aad : List UInt8)
    (epochRoot tagSecret : SecretBytes) (seed : Option SecretBytes) :
    Except KeySetError SealedKeySet := do
  let plaintext := Writer.withLabel sealedKeysLabel ++ (epochRoot.toList ++ tagSecret.toList)
  let seed ← orFail .rng seed
  ensure (x25519PublicKeyAcceptable recipientPublicKey) .unacceptableRecipientKey
  let (enc, ciphertext) ← orFail .sealing (device.sealTo recipientPublicKey info aad plaintext seed)
  ensure (ciphertext.length = sealedKeysCiphertextLen) .sealing
  return { enc, ciphertext }

/-- Open this device's entry of an epoch record. -/
def unsealKeySet (recipient : DeviceKeys) (sealedKeys : SealedKeySet) (info aad : List UInt8) :
    Except KeySetError UnsealedKeySet := do
  ensure (sealedKeys.ciphertext.length = sealedKeysCiphertextLen) .notAKeySet
  let plaintext ← orFail .opening
    (device.openWith recipient.agreement sealedKeys.enc info aad sealedKeys.ciphertext)
  let label := Writer.withLabel sealedKeysLabel
  ensure (plaintext.length = sealedKeysPlaintextLen ∧ plaintext.take label.length = label)
    .notAKeySet
  let keys := plaintext.drop label.length
  let epochRoot ← orFail .notAKeySet (fromSlice 32 (keys.take 32))
  let tagSecret ← orFail .notAKeySet (fromSlice 32 (keys.drop 32))
  return { epochRoot, tagSecret }

end

/-! ### Accepting -/

/-- Why a walk of records was not accepted. -/
inductive AcceptError
  | chain (error : ChainError)
  | epochRecordInvalid (position : Nat)
  | keyCommitmentMismatch (position : Nat)

/-- The key of one epoch this device holds a sealed entry for. -/
structure EpochInstall where
  recordId : Digest
  epochKey : EpochKey

/-- A verified walk: the new chain state and every key this device unsealed. -/
structure Accepted where
  state : VerifiedState
  installs : List EpochInstall
  tagSecret : Option TagSecret

section

variable (crypto : Crypto) (device : DeviceCrypto)

/-- The version of the membership record with an id. -/
def membershipVersionOf (state : VerifiedState) (id : Digest) : Option Nat :=
  (state.headIndexOf id).map (· + 1)

/-- A record that does not list this device, though it must. -/
def mustList (state : VerifiedState) (body : EpochBody) (fingerprint : Fingerprint)
    (headVersion : Nat) : Bool :=
  let me := state.authorizedMemberByFingerprintAtVersion fingerprint headVersion
  match body.reason with
  | .grant => me.any fun member => member.addedAtVersion = headVersion
  | _ => me.isSome

/-- Unseal this device's entry of one record and check both keys against the commitments. -/
def unsealEntry (keys : DeviceKeys) (position : Nat) (record : SignedRecord) (body : EpochBody)
    (entry : Recipient) : Except AcceptError (EpochInstall × TagSecret) := do
  let unsealed ← (unsealKeySet device keys { enc := entry.enc, ciphertext := entry.ciphertext }
    (body.hpkeInfo crypto entry.deviceId entry.fingerprint)
    (body.hpkeAad crypto entry.fingerprint)).mapError fun _ => .epochRecordInvalid position
  let epochKey ← (EpochKey.fromVerified crypto body.vaultId body.keyEpoch unsealed.epochRoot
    body.keyCommitmentKe).mapError fun _ => .keyCommitmentMismatch position
  let tagSecret ← (TagSecret.fromVerified crypto unsealed.tagSecret body.keyCommitmentS).mapError
    fun _ => .keyCommitmentMismatch position
  return ({ recordId := crypto.sha256 record.body, epochKey }, tagSecret)

/-- The epoch records of a verified walk, one by one. -/
def unsealFrom (verified : VerifiedState) (keys : DeviceKeys) (position : Nat)
    (installs : List EpochInstall) (tagSecret : Option TagSecret) :
    List (List UInt8) → Except AcceptError Accepted
  | [] => .ok { state := verified, installs, tagSecret }
  | bytes :: rest => do
    let invalid := AcceptError.epochRecordInvalid position
    let record ← (SignedRecord.parse bytes maxEpochBody).mapError fun _ => invalid
    let body ← (EpochBody.decode record.body).mapError fun _ => invalid
    let headVersion ← orFail invalid (membershipVersionOf verified body.membershipHead)
    let fingerprint := (keys.publicKeys crypto device).fingerprint
    match body.recipients.find? fun recipient => recipient.fingerprint = fingerprint with
    | none =>
      ensure (¬ mustList verified body fingerprint headVersion) invalid
      unsealFrom verified keys (position + 1) installs tagSecret rest
    | some entry =>
      let (install, opened) ← unsealEntry crypto device keys position record body entry
      unsealFrom verified keys (position + 1) (installs ++ [install]) (some opened) rest

/-- The recipient's acceptance of the suffix of the chain after a state. -/
def acceptRecords (state : VerifiedState) (memberships epochs : List (List UInt8))
    (keys : DeviceKeys) : Except AcceptError Accepted := do
  let verified ← (extend crypto state memberships epochs).mapError .chain
  unsealFrom crypto device verified keys 0 [] none epochs

end

/-! ### Building -/

/-- Why a record was not built. -/
inductive BuildError
  | rng
  | unacceptableRecipientKey
  | sealing
  | badRecipients
  | unencodable
  | keyMismatch
  | notAcceptedBySelf (error : AcceptError)

def BuildError.ofKeySet : KeySetError → BuildError
  | .rng => .rng
  | .unacceptableRecipientKey => .unacceptableRecipientKey
  | _ => .sealing

/-- A device an epoch record seals to. -/
structure RecipientKeys where
  deviceId : Uuid
  publicKeys : DevicePublic

/-- What an epoch record is for and what it seals. -/
structure SealSpec where
  reason : Reason
  membershipHead : Digest
  prevEpochId : Option Digest
  sealer : DeviceKeys
  epochKey : EpochKey
  tagSecret : TagSecret
  recipients : List RecipientKeys

/-- The two records of a founding device. -/
structure GenesisRecords where
  membership : List UInt8
  epoch : List UInt8

section

variable (crypto : Crypto) (device : DeviceCrypto)

/-- Sign a body and frame it. -/
def signBody (keys : DeviceKeys) (body : List UInt8) : Except BuildError (List UInt8) :=
  (SignedRecord.encode { body, signature := device.sign keys.signing body }).mapError
    fun _ => .unencodable

def signMembership (keys : DeviceKeys) (body : MembershipBody) : Except BuildError (List UInt8) :=
  signBody device keys body.encode

def signEpoch (keys : DeviceKeys) (body : EpochBody) : Except BuildError (List UInt8) := do
  signBody device keys (← body.encode.mapError fun _ => .unencodable)

/-- The header of the record, with no recipient yet. -/
def SealSpec.header (spec : SealSpec) : EpochBody :=
  { suiteId, kemId, vaultId := spec.epochKey.vaultId, keyEpoch := spec.epochKey.keyEpoch
    reason := spec.reason, membershipHead := spec.membershipHead, prevEpochId := spec.prevEpochId
    keyCommitmentKe := epochKeyCommitment crypto spec.epochKey.bytes
    keyCommitmentS := tagKeyCommitment crypto spec.tagSecret.bytes
    sealerFingerprint := (spec.sealer.publicKeys crypto device).fingerprint, recipients := [] }

/-- The entry of one recipient. -/
def SealSpec.entry (spec : SealSpec) (recipient : RecipientKeys) (seed : Option SecretBytes) :
    Except BuildError Recipient := do
  let body := spec.header crypto device
  let fingerprint := recipient.publicKeys.fingerprint
  let sealedKeys ← (sealKeySet device recipient.publicKeys.kemPublicKey
    (body.hpkeInfo crypto recipient.deviceId fingerprint) (body.hpkeAad crypto fingerprint)
    spec.epochKey.bytes spec.tagSecret.bytes seed).mapError .ofKeySet
  return { deviceId := recipient.deviceId, fingerprint, suiteId, kemId, enc := sealedKeys.enc
           ciphertext := sealedKeys.ciphertext }

/-- The entries of the recipients in order, each with a seed of its own. -/
def SealSpec.entries (spec : SealSpec) (seeds : Nat → Option SecretBytes) :
    Nat → List RecipientKeys → Except BuildError (List Recipient)
  | _, [] => .ok []
  | drawn, recipient :: rest => do
    let entry ← spec.entry crypto device recipient (seeds drawn)
    return entry :: (← spec.entries seeds (drawn + 1) rest)

/-- The recipients ascending by fingerprint. -/
def sortedRecipients (recipients : List RecipientKeys) : List RecipientKeys :=
  recipients.insertionSort fun first second =>
    ¬ second.publicKeys.fingerprint.bytes.toList < first.publicKeys.fingerprint.bytes.toList

/-- Two neighbours share a fingerprint. -/
def repeatsNeighbour (recipients : List RecipientKeys) : Prop :=
  ¬ recipients.IsChain fun first second => first.publicKeys.fingerprint ≠ second.publicKeys.fingerprint

instance (recipients : List RecipientKeys) : Decidable (repeatsNeighbour recipients) :=
  inferInstanceAs (Decidable (¬ List.IsChain (fun first second : RecipientKeys =>
    first.publicKeys.fingerprint ≠ second.publicKeys.fingerprint) recipients))

/-- Build and sign one epoch record. The nth seed is what the random source gives for the nth
recipient. -/
def sealEpochRecord (spec : SealSpec) (seeds : Nat → Option SecretBytes) :
    Except BuildError (List UInt8) := do
  let recipients := sortedRecipients spec.recipients
  ensure (recipients.length ≤ maxRecipients ∧ ¬ repeatsNeighbour recipients) .badRecipients
  let entries ← spec.entries crypto device seeds 0 recipients
  signEpoch device spec.sealer { spec.header crypto device with recipients := entries }

/-- The id of a signed record's bytes. -/
def recordId (signed : List UInt8) : Option Digest :=
  match SignedRecord.parse signed maxEpochBody with
  | .ok record => some (record.id crypto)
  | .error _ => none

/-- The founding device's own `add`. -/
def foundingBody (vaultId deviceId : Uuid) (publicKeys : DevicePublic) (issuedAt : Int64) :
    MembershipBody :=
  { suiteId, kemId, vaultId, version := 1, prevId := none, action := .add
    signerFingerprint := publicKeys.fingerprint, deviceId, ed25519Pk := publicKeys.ed25519Pk
    kemPublicKey := publicKeys.kemPublicKey, issuedAt }

/-- Create a vault's genesis and run it through the device's own acceptance. -/
def createGenesisWith (vaultId deviceId : Uuid) (keys : DeviceKeys) (issuedAt : Int64)
    (epochKey : EpochKey) (tagSecret : TagSecret) (seeds : Nat → Option SecretBytes) :
    Except BuildError GenesisRecords := do
  ensure (epochKey.vaultId = vaultId ∧ epochKey.keyEpoch = 1) .keyMismatch
  let publicKeys := keys.publicKeys crypto device
  let membership ← signMembership device keys (foundingBody vaultId deviceId publicKeys issuedAt)
  let membershipHead ← orFail .unencodable (recordId crypto membership)
  let epoch ← sealEpochRecord crypto device
    { reason := .genesis, membershipHead, prevEpochId := none, sealer := keys, epochKey, tagSecret
      recipients := [{ deviceId, publicKeys }] } seeds
  let _ ← (acceptRecords crypto device (.empty vaultId) [membership] [epoch] keys).mapError
    .notAcceptedBySelf
  return { membership, epoch }

end

/-! ### The records of a genesis -/

variable {crypto : Crypto} {device : DeviceCrypto} {keys : DeviceKeys}
variable {entry : Recipient} {body : EpochBody} {recipient : RecipientKeys} {spec : SealSpec}

theorem parse_signBody {body bytes : List UInt8} {maxBody : Nat}
    (signed : signBody device keys body = .ok bytes) (fits : body.length ≤ maxBody) :
    SignedRecord.parse bytes maxBody = .ok ⟨body, device.sign keys.signing body⟩ :=
  SignedRecord.parse_encode _ fits (mapError_eq_ok.mp signed)

theorem exists_signBody (device : DeviceCrypto) (keys : DeviceKeys) {body : List UInt8}
    (small : body.length < 2 ^ 32) : ∃ bytes, signBody device keys body = .ok bytes := by
  have fits : body.length ≤ 2 ^ 64 - 1 := by omega
  refine ⟨bigEndian 4 body.length ++ body ++ Writer.fixed (device.sign keys.signing body), ?_⟩
  refine mapError_eq_ok.mpr ?_
  simp only [SignedRecord.encode, Writer.bytes, ensure_of fits, ensure_of small, ok_bind]
  rfl

theorem encode_single (only : body.recipients = [entry])
    (whole : entry.ciphertext.length = sealedKeysCiphertextLen) :
    ∃ encoded, body.encode = .ok encoded ∧ encoded.length ≤ 512 := by
  have few : body.recipients.length ≤ maxRecipients := by
    rw [only]
    show 1 ≤ 1024
    decide
  have ordered : EpochBody.ascending body.recipients := by
    rw [only]
    exact .singleton entry
  have wholes : ∀ recipient ∈ body.recipients,
      recipient.ciphertext.length = sealedKeysCiphertextLen := by
    intro recipient member
    rw [only] at member
    rw [List.mem_singleton.mp member]
    exact whole
  have label : (Writer.withLabel epochLabel).length = 30 := by decide
  have presence : (Writer.opt Writer.fixed body.prevEpochId).length ≤ 33 := by
    cases body.prevEpochId <;> simp [Writer.opt, Writer.fixed]
  have ciphertext : entry.ciphertext.length = 109 := whole
  rw [EpochBody.encode, ensure_of few, ok_bind, ensure_of ordered, ok_bind, ensure_of wholes]
  refine ⟨_, rfl, ?_⟩
  simp only [only, EpochBody.headerWriter, EpochBody.writeRecipient, Writer.u16, Writer.u64,
    Writer.u8, Writer.fixed, List.flatMap_cons, List.flatMap_nil, List.length_append,
    List.length_singleton, List.length_nil, bigEndian_length, List.Vector.toList_length, label,
    ciphertext]
  omega

/-- What a record holds for whoever parses it. -/
structure Framed (bytes : List UInt8) (record : SignedRecord) (body : EpochBody) : Prop where
  parsed : SignedRecord.parse bytes maxEpochBody = .ok record
  decoded : EpochBody.decode record.body = .ok body

theorem framed_of_signEpoch {bytes : List UInt8} (only : body.recipients = [entry])
    (whole : entry.ciphertext.length = sealedKeysCiphertextLen)
    (signed : signEpoch device keys body = .ok bytes) :
    ∃ encoded, Framed bytes ⟨encoded, device.sign keys.signing encoded⟩ body := by
  obtain ⟨encoded, encodes, short⟩ := encode_single only whole
  rw [signEpoch, mapError_eq_ok.mpr encodes, ok_bind] at signed
  exact ⟨encoded, parse_signBody signed (short.trans (by decide)),
    EpochBody.decode_encode _ encodes⟩

theorem exists_signEpoch (device : DeviceCrypto) (keys : DeviceKeys)
    (only : body.recipients = [entry]) (whole : entry.ciphertext.length = sealedKeysCiphertextLen) :
    ∃ bytes, signEpoch device keys body = .ok bytes := by
  obtain ⟨encoded, encodes, short⟩ := encode_single only whole
  rw [signEpoch, mapError_eq_ok.mpr encodes, ok_bind]
  exact exists_signBody device keys (by omega)

theorem entry_ok {seed : Option SecretBytes}
    (made : spec.entry crypto device recipient seed = .ok entry) :
    entry.deviceId = recipient.deviceId ∧ entry.fingerprint = recipient.publicKeys.fingerprint ∧
      entry.ciphertext.length = sealedKeysCiphertextLen := by
  simp only [SealSpec.entry, sealKeySet, bind_eq_ok, mapError_eq_ok, ensure_eq_ok, pure,
    Except.pure, Except.ok.injEq, exists_const] at made
  obtain ⟨_, ⟨_, _, _, _, _, whole, rfl⟩, rfl⟩ := made
  exact ⟨rfl, rfl, whole⟩

theorem sealEpochRecord_single (only : spec.recipients = [recipient])
    (seeds : Nat → Option SecretBytes) :
    sealEpochRecord crypto device spec seeds =
      spec.entry crypto device recipient (seeds 0) >>= fun entry =>
        signEpoch device spec.sealer { spec.header crypto device with recipients := [entry] } := by
  have sorted : sortedRecipients spec.recipients = [recipient] := by
    rw [only]
    rfl
  have room : [recipient].length ≤ maxRecipients ∧ ¬ repeatsNeighbour [recipient] :=
    ⟨show 1 ≤ 1024 by decide, fun repeated => repeated (.singleton recipient)⟩
  rw [sealEpochRecord, sorted, ensure_of room, ok_bind, SealSpec.entries]
  cases spec.entry crypto device recipient (seeds 0) with
  | error failure => rfl
  | ok entry => rfl

end Dohflow.VaultCrypto
