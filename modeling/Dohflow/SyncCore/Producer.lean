/-
This file models the producer's seal-then-verify rule: before a sealed envelope is
uploaded, the producer opens it as a receiver would and runs the receiver's checks
on the exact bytes.

The producer holds the opened plaintext to a bound of its own before it decodes
it. `approves_iff` says exactly when that bound changes the answer: when a
plaintext a receiver accepts is longer than the payload bound and 64 KiB, which a
full delta manifest beside a large payload makes it.
-/

import Dohflow.SyncCore.FoundingChain
import Dohflow.SyncCore.Service

namespace Dohflow.SyncCore

open ByteReader Fallible

/-- Why an envelope must not be uploaded. -/
inductive ProducerError
  | unparseable (error : WireError)
  | notOpenable
  | plaintextInvalid (error : WireError)
  | inconsistent (error : ReceiverError)
  | identity (error : IdentityError)

/-- Opens a sealed envelope the way a receiver would, if it opens. -/
abbrev EnvelopeOpener := ParsedContainer → Option (List UInt8)

/-- An envelope that passed the receiver's checks as sealed, with its verified bytes. -/
structure UploadApproved where
  bytes : List UInt8
  outbox : OutboxEntry
  push : PushIdentity

/-- What the producer allows an opened plaintext to be long. -/
def maxOpenedPlaintext : Nat := maxPayload + 64 * 1024

section

variable (crypto : Crypto)

/-- The plaintext an opener yields, or the refusal. -/
def openWith (opener : EnvelopeOpener) (container : ParsedContainer) :
    Except ProducerError (List UInt8) :=
  match opener container with
  | some plaintextBytes => .ok plaintextBytes
  | none => .error .notOpenable

/-- Open the sealed container with the receiver path, decode it, and check header and plaintext. -/
def verifyBeforeUpload (containerBytes : List UInt8) (opener : EnvelopeOpener)
    (tagFor : IdempotencyKey → IdempotencyKeyTag) : Except ProducerError UploadApproved := do
  let container ← (parseContainerWithLimit containerBytes maxEnvelopeContainerLen).mapError
    .unparseable
  let plaintextBytes ← openWith opener container
  ensure (plaintextBytes.length ≤ maxOpenedPlaintext) (.plaintextInvalid .tooLong)
  let plaintext ← (EnvelopePlaintext.decode plaintextBytes).mapError .plaintextInvalid
  let _ ← (checkEnvelope crypto container.header plaintext tagFor).mapError .inconsistent
  let outbox ← (OutboxEntry.fromContainer crypto container).mapError .identity
  let push ← (Identity.fromContainer crypto container).mapError .identity
  return { bytes := containerBytes, outbox, push }

end

/-! ### What a receiver accepts -/

variable {crypto : Crypto} {bytes : List UInt8} {opener : EnvelopeOpener}
  {tagFor : IdempotencyKey → IdempotencyKeyTag}
variable {plaintext : EnvelopePlaintext} {container : ParsedContainer} {plaintextBytes : List UInt8}
  {commitment : MetadataCommitment} {header : ClearHeader} {base : ClearHeader}

/-- The bytes are a container within the envelope bound, which opens to a plaintext that decodes
and passes the receiver's checks. -/
structure ReceiverAccepts (crypto : Crypto) (opener : EnvelopeOpener)
    (tagFor : IdempotencyKey → IdempotencyKeyTag) (bytes : List UInt8)
    (container : ParsedContainer) (plaintextBytes : List UInt8) (plaintext : EnvelopePlaintext) :
    Prop where
  parsed : parseContainerWithLimit bytes maxEnvelopeContainerLen = .ok container
  opened : opener container = some plaintextBytes
  decoded : EnvelopePlaintext.decode plaintextBytes = .ok plaintext
  checked : ∃ envelope, checkEnvelope crypto container.header plaintext tagFor = .ok envelope

theorem openWith_eq_ok :
    openWith opener container = .ok plaintextBytes ↔ opener container = some plaintextBytes := by
  unfold openWith
  cases opener container with
  | none =>
    constructor
    · intro opened
      cases opened
    · intro opened
      cases opened
  | some found =>
    constructor
    · intro opened
      rw [Except.ok.inj opened]
    · intro opened
      rw [Option.some.inj opened]

theorem checkEnvelope_eq_ok :
    (∃ envelope, checkEnvelope crypto header plaintext tagFor = .ok envelope) ↔
      receiverChecks crypto header plaintext tagFor = .ok () := by
  unfold checkEnvelope
  constructor
  · rintro ⟨envelope, accepted⟩
    split at accepted
    · assumption
    · cases accepted
  · intro passed
    refine ⟨⟨header, plaintext, passed⟩, ?_⟩
    split
    · rfl
    · next failed =>
      rw [passed] at failed
      cases failed

theorem object_of_receiverChecks (passed : receiverChecks crypto header plaintext tagFor = .ok ()) :
    ∃ tag commitment manifest, header.object = .envelope tag commitment manifest := by
  unfold receiverChecks at passed
  cases object : header.object with
  | snapshot manifest =>
    rw [object] at passed
    cases passed
  | envelope tag commitment manifest => exact ⟨tag, commitment, manifest, rfl⟩

/-- What the checks force of a header: every field that depends on the plaintext. -/
structure ForcedBy (crypto : Crypto) (plaintext : EnvelopePlaintext)
    (tagFor : IdempotencyKey → IdempotencyKeyTag) (header : ClearHeader) : Prop where
  objectId : header.objectId = plaintext.immutableMeta.commandId
  deviceId : header.deviceId = plaintext.immutableMeta.deviceId
  nonceDomain : header.nonceDomain = NonceDomain.derive crypto header.vaultId header.keyEpoch
    header.deviceKeyFingerprint objectEnvelope
  object : ∃ commitment, plaintext.immutableMeta.commitment crypto = .ok commitment ∧
    header.object = .envelope (tagFor plaintext.immutableMeta.idempotencyKey) commitment
      (if plaintext.deltaManifest.isEmpty then none
        else some (plaintext.deltaManifest.commitment crypto))

theorem manifestMatches_eq_true {found : Option ManifestCommitment}
    {manifest : ArtifactManifest} (follows : manifestMatches crypto found manifest = true) :
    found = if manifest.isEmpty then none else some (manifest.commitment crypto) := by
  cases found with
  | none =>
    have empty : manifest.isEmpty = true := follows
    rw [if_pos empty]
  | some commitment =>
    simp only [manifestMatches, Bool.and_eq_true, Bool.not_eq_true', decide_eq_true_eq]
      at follows
    obtain ⟨filled, rfl⟩ := follows
    rw [filled, if_neg Bool.false_ne_true]

theorem forcedBy_of_receiverChecks (passed : receiverChecks crypto header plaintext tagFor = .ok ()) :
    ForcedBy crypto plaintext tagFor header := by
  obtain ⟨tag, commitment, manifest, object⟩ := object_of_receiverChecks passed
  unfold receiverChecks at passed
  rw [object] at passed
  simp only [bind_eq_ok, ensure_eq_ok, exists_const, mapError_eq_ok] at passed
  obtain ⟨objectId, deviceId, rfl, _, committed, rfl, nonceDomain, follows, -⟩ := passed
  refine ⟨objectId, deviceId, nonceDomain, commitment, committed, ?_⟩
  rw [object, manifestMatches_eq_true follows]

theorem ForcedBy.eq_of_agree {first second : ClearHeader}
    (forcedFirst : ForcedBy crypto plaintext tagFor first)
    (forcedSecond : ForcedBy crypto plaintext tagFor second)
    (vaultId : first.vaultId = second.vaultId) (keyEpoch : first.keyEpoch = second.keyEpoch)
    (fingerprint : first.deviceKeyFingerprint = second.deviceKeyFingerprint)
    (counter : first.invocationCounter = second.invocationCounter)
    (baseSeq : first.baseSeq = second.baseSeq)
    (payloadSchemaVersion : first.payloadSchemaVersion = second.payloadSchemaVersion)
    (engineVersion : first.engineVersion = second.engineVersion)
    (schemaVersion : first.schemaVersion = second.schemaVersion) : first = second := by
  obtain ⟨commitment, committed, firstObject⟩ := forcedFirst.object
  obtain ⟨_, again, secondObject⟩ := forcedSecond.object
  obtain rfl := Except.ok.inj (committed.symm.trans again)
  have objectId := forcedFirst.objectId.trans forcedSecond.objectId.symm
  have deviceId := forcedFirst.deviceId.trans forcedSecond.deviceId.symm
  have object := firstObject.trans secondObject.symm
  have nonceDomain : first.nonceDomain = second.nonceDomain := by
    rw [forcedFirst.nonceDomain, forcedSecond.nonceDomain, vaultId, keyEpoch, fingerprint]
  cases first
  cases second
  congr

/-- A command has one sealed form: its plaintext has one encoding, and the checks leave a header
no choice but the vault, the epoch, the device key, the counter, the base and the versions. -/
theorem plaintext_has_one_form (crypto : Crypto) :
    (∀ (plaintext : EnvelopePlaintext) (bytes : List UInt8), plaintext.encode = .ok bytes →
      EnvelopePlaintext.decode bytes = .ok plaintext) ∧
    (∀ (bytes : List UInt8) (plaintext : EnvelopePlaintext),
      EnvelopePlaintext.decode bytes = .ok plaintext →
      plaintext.encode = .ok bytes ∧ strictlyAscending plaintext.deltaManifest.ids ∧
        isUuidV4 plaintext.immutableMeta.idempotencyKey.bytes = true) ∧
    (∀ (plaintext : EnvelopePlaintext) (tagFor : IdempotencyKey → IdempotencyKeyTag)
      (first second : ClearHeader),
      (∃ checked, checkEnvelope crypto first plaintext tagFor = .ok checked) →
      (∃ checked, checkEnvelope crypto second plaintext tagFor = .ok checked) →
      first.vaultId = second.vaultId → first.keyEpoch = second.keyEpoch →
      first.deviceKeyFingerprint = second.deviceKeyFingerprint →
      first.invocationCounter = second.invocationCounter → first.baseSeq = second.baseSeq →
      first.payloadSchemaVersion = second.payloadSchemaVersion →
      first.engineVersion = second.engineVersion →
      first.schemaVersion = second.schemaVersion → first = second) := by
  refine ⟨?_, ?_, ?_⟩
  · intro plaintext bytes encoded
    obtain ⟨encodable, rfl⟩ := EnvelopePlaintext.encode_eq_ok.mp encoded
    exact EnvelopePlaintext.decode_spelled encodable
  · intro bytes plaintext decoded
    have spelled := EnvelopePlaintext.eq_spelled_of_decode decoded
    exact ⟨EnvelopePlaintext.encode_eq_ok.mpr spelled, plaintext.deltaManifest.ascending,
      plaintext.immutableMeta.idempotencyKey.version4⟩
  · intro plaintext tagFor first second firstChecked secondChecked
    have forcedFirst := forcedBy_of_receiverChecks (checkEnvelope_eq_ok.mp firstChecked)
    have forcedSecond := forcedBy_of_receiverChecks (checkEnvelope_eq_ok.mp secondChecked)
    exact forcedFirst.eq_of_agree forcedSecond

theorem exists_identity {tag : IdempotencyKeyTag} {manifest : Option ManifestCommitment}
    (parsed : parseContainerWithLimit bytes maxEnvelopeContainerLen = .ok container)
    (object : container.header.object = .envelope tag commitment manifest) :
    ∃ identity, Identity.fromContainer crypto container = .ok identity := by
  simp only [parseContainerWithLimit, ensure_bind_eq_ok] at parsed
  obtain ⟨bounded, parsed⟩ := parsed
  have whole := congrArg List.length (bytes_of_parseContainer parsed)
  rw [containerBytes_length] at whole
  have bound : bytes.length ≤ 2 ^ 24 + 4096 * 32 + 4096 := bounded
  have headerSmall : container.headerBytes.length < 2 ^ 32 := by omega
  have ciphertextSmall : container.ciphertext.length < 2 ^ 64 := by omega
  have digest : canonicalEnvelopeDigest crypto container.headerBytes container.ciphertext =
      .ok (crypto.sha256 (envelopeDigestInput container.headerBytes container.ciphertext)) :=
    canonicalEnvelopeDigest_eq_ok.mpr ⟨headerSmall, ciphertextSmall, rfl⟩
  unfold Identity.fromContainer
  rw [object, digest]
  exact ⟨_, rfl⟩

theorem verifyBeforeUpload_eq_ok {approved : UploadApproved} :
    verifyBeforeUpload crypto bytes opener tagFor = .ok approved ↔
      ∃ container plaintextBytes plaintext identity,
        ReceiverAccepts crypto opener tagFor bytes container plaintextBytes plaintext ∧
        plaintextBytes.length ≤ maxOpenedPlaintext ∧
        Identity.fromContainer crypto container = .ok identity ∧
        approved = { bytes, outbox := ⟨identity⟩, push := identity } := by
  simp only [verifyBeforeUpload, bind_eq_ok, ensure_eq_ok, exists_const, mapError_eq_ok,
    openWith_eq_ok, OutboxEntry.fromContainer]
  constructor
  · rintro ⟨container, parsed, plaintextBytes, opened, short, plaintext, decoded, envelope, checked,
      outbox, kept, identity, taken, rest⟩
    rw [taken] at kept
    obtain rfl := Except.ok.inj kept
    obtain rfl := Except.ok.inj rest
    exact ⟨container, plaintextBytes, plaintext, identity,
      ⟨parsed, opened, decoded, envelope, checked⟩, short, taken, rfl⟩
  · rintro ⟨container, plaintextBytes, plaintext, identity,
      ⟨parsed, opened, decoded, envelope, checked⟩, short, taken, rfl⟩
    exact ⟨container, parsed, plaintextBytes, opened, short, plaintext, decoded, envelope, checked,
      ⟨identity⟩, by rw [taken]; rfl, identity, taken, rfl⟩

theorem ReceiverAccepts.exists_identity
    (accepts : ReceiverAccepts crypto opener tagFor bytes container plaintextBytes plaintext) :
    ∃ identity, Identity.fromContainer crypto container = .ok identity := by
  obtain ⟨tag, commitment, manifest, object⟩ :=
    object_of_receiverChecks (checkEnvelope_eq_ok.mp accepts.checked)
  exact Dohflow.SyncCore.exists_identity accepts.parsed object

theorem ReceiverAccepts.parsePush_eq {identity : Identity}
    (accepts : ReceiverAccepts crypto opener tagFor bytes container plaintextBytes plaintext)
    (taken : Identity.fromContainer crypto container = .ok identity) :
    parsePush crypto bytes container.header.vaultId =
      .ok { identity, header := container.header } := by
  obtain ⟨tag, commitment, manifest, object⟩ :=
    object_of_receiverChecks (checkEnvelope_eq_ok.mp accepts.checked)
  have isEnvelope : container.header.objectType = objectEnvelope := by
    rw [ClearHeader.objectType, object]
  simp only [parsePush, bind_eq_ok, ensure_eq_ok, exists_const, mapError_eq_ok]
  exact ⟨container, accepts.parsed, isEnvelope, rfl, identity, taken, rfl⟩

/-! ### When the producer agrees with the receiver -/

/-- The producer approves exactly what a receiver accepts, and an approval holds the input bytes
and the identity the service computes from them. -/
structure ApprovesAsReceiver (crypto : Crypto) (opener : EnvelopeOpener)
    (tagFor : IdempotencyKey → IdempotencyKeyTag) (bytes : List UInt8) : Prop where
  approves : (∃ approved, verifyBeforeUpload crypto bytes opener tagFor = .ok approved) ↔
    ∃ container plaintextBytes plaintext,
      ReceiverAccepts crypto opener tagFor bytes container plaintextBytes plaintext
  holds : ∀ approved, verifyBeforeUpload crypto bytes opener tagFor = .ok approved →
    approved.bytes = bytes ∧ ∃ container parsed,
      parseContainerWithLimit bytes maxEnvelopeContainerLen = .ok container ∧
      parsePush crypto bytes container.header.vaultId = .ok parsed ∧
      approved.push = parsed.identity ∧ approved.outbox.identity = parsed.identity

theorem ReceiverAccepts.length_eq
    (accepts : ReceiverAccepts crypto opener tagFor bytes container plaintextBytes plaintext) :
    plaintextBytes.length = plaintext.encodedLength := by
  rw [(EnvelopePlaintext.eq_spelled_of_decode accepts.decoded).2, EnvelopePlaintext.spelled_length]

theorem ApprovesAsReceiver.encodedLength_le (agrees : ApprovesAsReceiver crypto opener tagFor bytes)
    (accepts : ReceiverAccepts crypto opener tagFor bytes container plaintextBytes plaintext) :
    plaintext.encodedLength ≤ 2 ^ 24 + 64 * 1024 := by
  obtain ⟨approved, verified⟩ := agrees.approves.mpr ⟨_, _, _, accepts⟩
  obtain ⟨found, foundBytes, _, _, again, short, -, -⟩ := verifyBeforeUpload_eq_ok.mp verified
  obtain rfl := Except.ok.inj (again.parsed.symm.trans accepts.parsed)
  obtain rfl := Option.some.inj (again.opened.symm.trans accepts.opened)
  rw [← accepts.length_eq]
  exact short

/-- The producer agrees with the receiver exactly where every plaintext a receiver accepts is, in
payload, manifest ids and metadata, at most 64 KiB longer than the longest payload. -/
theorem approves_iff (crypto : Crypto) (opener : EnvelopeOpener)
    (tagFor : IdempotencyKey → IdempotencyKeyTag) (bytes : List UInt8) :
    ApprovesAsReceiver crypto opener tagFor bytes ↔
      ∀ container plaintextBytes plaintext,
        ReceiverAccepts crypto opener tagFor bytes container plaintextBytes plaintext →
        plaintext.encodedLength ≤ 2 ^ 24 + 64 * 1024 := by
  constructor
  · intro agrees container plaintextBytes plaintext accepts
    exact agrees.encodedLength_le accepts
  · intro bounded
    refine ⟨⟨?_, ?_⟩, ?_⟩
    · rintro ⟨approved, verified⟩
      obtain ⟨container, plaintextBytes, plaintext, -, accepts, -⟩ :=
        verifyBeforeUpload_eq_ok.mp verified
      exact ⟨container, plaintextBytes, plaintext, accepts⟩
    · rintro ⟨container, plaintextBytes, plaintext, accepts⟩
      obtain ⟨identity, taken⟩ := accepts.exists_identity
      have short : plaintextBytes.length ≤ maxOpenedPlaintext := by
        rw [accepts.length_eq]
        exact bounded _ _ _ accepts
      exact ⟨_, verifyBeforeUpload_eq_ok.mpr
        ⟨container, plaintextBytes, plaintext, identity, accepts, short, taken, rfl⟩⟩
    · intro approved verified
      obtain ⟨container, plaintextBytes, plaintext, identity, accepts, -, taken, rfl⟩ :=
        verifyBeforeUpload_eq_ok.mp verified
      exact ⟨rfl, container, _, accepts.parsed, accepts.parsePush_eq taken, rfl, rfl⟩

/-! ### A full envelope -/

/-- A header that commits to the plaintext as the receiver's checks ask. -/
def ClearHeader.committingTo (crypto : Crypto) (tagFor : IdempotencyKey → IdempotencyKeyTag)
    (base : ClearHeader) (plaintext : EnvelopePlaintext) (commitment : MetadataCommitment) :
    ClearHeader :=
  { base with
    object := .envelope (tagFor plaintext.immutableMeta.idempotencyKey) commitment
      (if plaintext.deltaManifest.isEmpty then none
        else some (plaintext.deltaManifest.commitment crypto))
    objectId := plaintext.immutableMeta.commandId
    deviceId := plaintext.immutableMeta.deviceId
    nonceDomain := .derive crypto base.vaultId base.keyEpoch base.deviceKeyFingerprint
      objectEnvelope }

theorem receiverChecks_committingTo
    (commits : plaintext.immutableMeta.commitment crypto = .ok commitment)
    (inRange : issuedAtInRange plaintext.immutableMeta.issuedAt = true) :
    receiverChecks crypto (base.committingTo crypto tagFor plaintext commitment) plaintext tagFor =
      .ok () := by
  have manifest : manifestMatches crypto
      (if plaintext.deltaManifest.isEmpty then none
        else some (plaintext.deltaManifest.commitment crypto)) plaintext.deltaManifest = true := by
    cases empty : plaintext.deltaManifest.isEmpty with
    | true => exact empty
    | false => simp [manifestMatches, empty]
  simp only [receiverChecks, ClearHeader.committingTo, bind_eq_ok, ensure_eq_ok, exists_const,
    mapError_eq_ok]
  exact ⟨trivial, trivial, trivial, commitment, commits, rfl, trivial, manifest, inRange⟩

/-- A stand-in for the receiver path: the cipher leaves the text as it is and appends 16 bytes. -/
def plainOpener : EnvelopeOpener := fun container =>
  some (container.ciphertext.take (container.ciphertext.length - 16))

/-- The plaintext sealed by the stand-in cipher. -/
def plainlySealed (plaintext : EnvelopePlaintext) : List UInt8 :=
  plaintext.spelled ++ List.replicate 16 0

theorem receiverAccepts_plain (encodable : base.Encodable) (legal : plaintext.Encodable)
    (fits : plaintext.encodedLength ≤ 2 ^ 24 + 4096 * 32 + 3000)
    (commits : plaintext.immutableMeta.commitment crypto = .ok commitment)
    (inRange : issuedAtInRange plaintext.immutableMeta.issuedAt = true) :
    ReceiverAccepts crypto plainOpener tagFor
      (containerBytes (base.committingTo crypto tagFor plaintext commitment).spelled
        (plainlySealed plaintext))
      { header := base.committingTo crypto tagFor plaintext commitment
        headerBytes := (base.committingTo crypto tagFor plaintext commitment).spelled
        ciphertext := plainlySealed plaintext } plaintext.spelled plaintext := by
  have headerEncodable : (base.committingTo crypto tagFor plaintext commitment).Encodable :=
    ⟨encodable.counter, encodable.engineVersion⟩
  have headerShort := ClearHeader.spelled_length headerEncodable
  have length := plaintext.spelled_length
  have total : (plainlySealed plaintext).length = plaintext.encodedLength + 16 := by
    rw [plainlySealed, List.length_append, length, List.length_replicate]
  refine ⟨?_, ?_, EnvelopePlaintext.decode_spelled legal,
    checkEnvelope_eq_ok.mpr (receiverChecks_committingTo commits inRange)⟩
  · refine ensure_bind_eq_ok.mpr ⟨?_, parseContainer_containerBytes (by omega) (by omega)
      (by omega) (ClearHeader.decode_spelled headerEncodable)⟩
    rw [containerBytes_length, total]
    show _ ≤ 2 ^ 24 + 4096 * 32 + 4096
    omega
  · refine congrArg some ?_
    show (plainlySealed plaintext).take ((plainlySealed plaintext).length - 16) = _
    rw [total, Nat.add_sub_cancel, ← length]
    exact List.take_left' rfl

/-- As many ids, in order, each spelling its own number. -/
@[irreducible] def numberedIds (count : Nat) : List Digest :=
  (List.range count).map sampleFounder.keyCommitment

theorem numberedIds_length (count : Nat) : (numberedIds count).length = count := by
  rw [numberedIds, List.length_map, List.length_range]

theorem numberedIds_ascending {count : Nat} (small : count ≤ 256 ^ 32) :
    strictlyAscending (numberedIds count) := by
  unfold numberedIds
  refine List.Pairwise.isChain (List.pairwise_map.mpr ?_)
  refine List.Pairwise.imp_of_mem ?_ List.pairwise_lt_range
  intro first second _ member less
  exact bigEndian_lt less ((List.mem_range.mp member).trans_le small)

/-- The metadata of a command issued at the Unix epoch. -/
def sampleMeta : ImmutableMeta :=
  { commandId := .replicate 16 22, correlationId := .replicate 16 23, causationId := none
    actorType := 1, actorId := ""
    idempotencyKey := ⟨⟨[0, 0, 0, 0, 0, 0, 0x40, 0, 0x80, 0, 0, 0, 0, 0, 0, 0], rfl⟩, by decide⟩
    issuedAt := 0, deviceId := .replicate 16 2 }

/-- As many zero bytes. -/
@[irreducible] def zeroBytes (count : Nat) : List UInt8 := List.replicate count 0

theorem zeroBytes_length (count : Nat) : (zeroBytes count).length = count := by
  rw [zeroBytes, List.length_replicate]

/-- A plaintext of the longest payload, and a delta manifest of the most ids. -/
def fullPlaintext : EnvelopePlaintext :=
  { immutableMeta := sampleMeta, writeSetHash := .replicate 32 24
    deltaManifest := {
      ids := numberedIds maxManifestEntries
      few := (numberedIds_length maxManifestEntries).le
      ascending := numberedIds_ascending (by decide) }
    payload := zeroBytes maxPayload }

/-- A header an envelope of the sample founder's device starts from. -/
def baseHeader : ClearHeader :=
  { vaultId := .replicate 16 1, keyEpoch := 1, object := .snapshot ⟨.replicate 32 0⟩
    objectId := .replicate 16 0, deviceId := .replicate 16 2
    deviceKeyFingerprint := ⟨.replicate 32 7⟩, nonceDomain := ⟨.replicate 4 0⟩
    invocationCounter := 0, baseSeq := 0, payloadSchemaVersion := 1, engineVersion := "1"
    schemaVersion := 1 }

def sampleTag : IdempotencyKey → IdempotencyKeyTag :=
  fun key => ⟨sampleCrypto.sha256 key.bytes.toList⟩

def sampleCommitment : MetadataCommitment :=
  match sampleMeta.commitment sampleCrypto with
  | .ok commitment => commitment
  | .error _ => ⟨.replicate 32 0⟩

theorem commitment_sampleMeta : sampleMeta.commitment sampleCrypto = .ok sampleCommitment := rfl

def fullHeader : ClearHeader :=
  baseHeader.committingTo sampleCrypto sampleTag fullPlaintext sampleCommitment

/-- The sealed envelope of the full plaintext. -/
def fullContainer : List UInt8 := containerBytes fullHeader.spelled (plainlySealed fullPlaintext)

theorem encodedLength_fullPlaintext :
    fullPlaintext.encodedLength = maxPayload + 32 * maxManifestEntries + 154 := by
  have ids : fullPlaintext.deltaManifest.ids.length = maxManifestEntries :=
    numberedIds_length maxManifestEntries
  have payload : fullPlaintext.payload.length = maxPayload := zeroBytes_length maxPayload
  have actorId : (utf8 fullPlaintext.immutableMeta.actorId).length = 0 := rfl
  have causationId : fullPlaintext.immutableMeta.causationId = none := rfl
  rw [EnvelopePlaintext.encodedLength, ids, payload, actorId, causationId, Option.isSome_none,
    if_neg Bool.false_ne_true]
  ring

/-- A receiver accepts the envelope of the full plaintext, and the producer refuses it. -/
theorem full_envelope_refused :
    (∃ container, ReceiverAccepts sampleCrypto plainOpener sampleTag fullContainer container
      fullPlaintext.spelled fullPlaintext) ∧
    ¬ ApprovesAsReceiver sampleCrypto plainOpener sampleTag fullContainer := by
  have length : fullPlaintext.encodedLength = 2 ^ 24 + 32 * 4096 + 154 :=
    encodedLength_fullPlaintext
  have legal : fullPlaintext.Encodable :=
    ⟨by decide, Nat.zero_le _, (zeroBytes_length maxPayload).le⟩
  have encodable : baseHeader.Encodable := ⟨by decide, by decide⟩
  have accepts : ReceiverAccepts sampleCrypto plainOpener sampleTag fullContainer
      { header := fullHeader, headerBytes := fullHeader.spelled
        ciphertext := plainlySealed fullPlaintext } fullPlaintext.spelled fullPlaintext :=
    receiverAccepts_plain encodable legal (by omega) commitment_sampleMeta (by decide)
  refine ⟨⟨_, accepts⟩, fun agrees => ?_⟩
  have bound := agrees.encodedLength_le accepts
  omega

end Dohflow.SyncCore
