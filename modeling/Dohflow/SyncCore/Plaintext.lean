/-
This file models the command envelope's plaintext, the commitments that bind it to
its clear header, and the checks a receiver runs after decryption.

An idempotency key is a UUID of version 4 and an artifact manifest is strictly
ascending, by their types. A `CheckedEnvelope` carries the proof that the checks
passed on exactly its header and plaintext, so it cannot be had without them.
-/

import Dohflow.SyncCore.HeaderCodec

namespace Dohflow.SyncCore

open ByteReader Fallible

def plaintextLabel : String := "dohflow/sync-envelope-plaintext/v1"

/-- The most ids an artifact manifest may hold. -/
def maxManifestEntries : Nat := 4096

/-- The longest payload, in bytes. -/
def maxPayload : Nat := 2 ^ 24

/-- The longest actor id, in bytes. -/
def maxActorId : Nat := 256

/-! ### The command's metadata -/

/-- Version nibble 4 and variant bits `10`. -/
def isUuidV4 (bytes : Uuid) : Bool := bytes.get 6 >>> 4 == 4 && bytes.get 8 >>> 6 == 2

/-- An idempotency key: a UUID of version 4. -/
structure IdempotencyKey where
  bytes : Uuid
  version4 : isUuidV4 bytes = true

/-- The idempotency key was not a UUID of version 4. -/
structure InvalidIdempotencyKey where

def IdempotencyKey.fromBytes (bytes : Uuid) : Except InvalidIdempotencyKey IdempotencyKey :=
  if version4 : isUuidV4 bytes = true then .ok ⟨bytes, version4⟩ else .error ⟨⟩

/-- The key as the plaintext's reader takes it. -/
def IdempotencyKey.ofWire (bytes : Uuid) : Except WireError IdempotencyKey :=
  (IdempotencyKey.fromBytes bytes).mapError fun _ => .invalidIdempotencyKey

/-- The complete original metadata of a command, immutable for the command's life. -/
structure ImmutableMeta where
  commandId : Uuid
  correlationId : Uuid
  causationId : Option Uuid
  /-- `1` user, `2` system, `3` importer, `4` agent. -/
  actorType : UInt8
  actorId : String
  idempotencyKey : IdempotencyKey
  /-- Microseconds since the Unix epoch. -/
  issuedAt : Int64
  deviceId : Uuid

def checkActorType (actorType : UInt8) : Except WireError Unit :=
  ensure (1 ≤ actorType ∧ actorType ≤ 4) .unknownActorType

namespace ImmutableMeta

def writeFields (record : ImmutableMeta) : Except WireError (List UInt8) := do
  checkActorType record.actorType
  let actorId ← Writer.text maxActorId record.actorId
  return Writer.fixed record.commandId ++ (Writer.fixed record.correlationId ++
    (Writer.opt Writer.fixed record.causationId ++ (Writer.u8 record.actorType ++
    (actorId ++ (Writer.fixed record.idempotencyKey.bytes ++ Writer.i64 record.issuedAt)))))

/-- The commitment to the metadata that the header carries. -/
def commitment (crypto : Crypto) (record : ImmutableMeta) : Except WireError MetadataCommitment := do
  let fields ← record.writeFields
  return ⟨crypto.sha256 (Writer.withLabel "dohflow/sync-meta-commit/v1" ++
    (fields ++ Writer.fixed record.deviceId))⟩

end ImmutableMeta

/-! ### The artifact manifest -/

/-- Each neighbour is above the one before it, byte for byte. -/
def strictlyAscending (ids : List Digest) : Prop :=
  ids.IsChain fun first second => first.toList < second.toList

instance (ids : List Digest) : Decidable (strictlyAscending ids) :=
  inferInstanceAs (Decidable (List.IsChain _ ids))

theorem strictlyAscending_nil : strictlyAscending [] := .nil

/-- A set of artifact ids in the one order the wire allows. -/
structure ArtifactManifest where
  ids : List Digest
  few : ids.length ≤ maxManifestEntries
  ascending : strictlyAscending ids

namespace ArtifactManifest

def isEmpty (manifest : ArtifactManifest) : Bool := manifest.ids.isEmpty

/-- What the manifest's commitment hashes. -/
def manifestBytes (ids : List Digest) : List UInt8 :=
  Writer.withLabel "dohflow/sync-artifact-manifest/v1" ++
    (bigEndian 4 ids.length ++ ids.flatMap Writer.fixed)

def commitment (crypto : Crypto) (manifest : ArtifactManifest) : ManifestCommitment :=
  ⟨crypto.sha256 (manifestBytes manifest.ids)⟩

end ArtifactManifest

/-! ### The plaintext -/

/-- What is encrypted under the envelope's key. -/
structure EnvelopePlaintext where
  immutableMeta : ImmutableMeta
  writeSetHash : Digest
  /-- Empty when the command adds no artifact. -/
  deltaManifest : ArtifactManifest
  /-- The command's payload, canonical JSON. -/
  payload : List UInt8

namespace EnvelopePlaintext

/-- The plaintext's canonical bytes. -/
def encode (plaintext : EnvelopePlaintext) : Except WireError (List UInt8) := do
  let fields ← plaintext.immutableMeta.writeFields
  let manifest ← Writer.list maxManifestEntries plaintext.deltaManifest.ids Writer.fixed
  let payload ← Writer.bytes maxPayload plaintext.payload
  return Writer.withLabel plaintextLabel ++ (fields ++
    (Writer.fixed plaintext.immutableMeta.deviceId ++ (Writer.fixed plaintext.writeSetHash ++
    (manifest ++ payload))))

/-- A list of ids read from the wire, held to its order. The reader has held its count to the
bound already. -/
def manifestOf (ids : List Digest) : Except WireError ArtifactManifest :=
  if ascending : strictlyAscending ids then
    if few : ids.length ≤ maxManifestEntries then .ok ⟨ids, few, ascending⟩ else .error .tooLong
  else .error .listNotAscending

def reader : Reader EnvelopePlaintext := do
  Reader.label plaintextLabel
  let commandId ← Reader.fixed 16
  let correlationId ← Reader.fixed 16
  let causationId ← Reader.opt (Reader.fixed 16)
  let actorType ← Reader.u8
  checkActorType actorType
  let actorId ← Reader.text maxActorId
  let idempotencyKey ← IdempotencyKey.ofWire (← Reader.fixed 16)
  let issuedAt ← Reader.i64
  let deviceId ← Reader.fixed 16
  let writeSetHash ← Reader.fixed 32
  let delta ← Reader.list maxManifestEntries 32 (Reader.fixed 32)
  let deltaManifest ← manifestOf delta
  let payload ← Reader.bytes maxPayload
  Reader.finish
  return {
    immutableMeta := { commandId, correlationId, causationId, actorType, actorId, idempotencyKey
                       issuedAt, deviceId }
    writeSetHash, deltaManifest, payload }

/-- Parse the plaintext from exactly the bytes. -/
def decode (bytes : List UInt8) : Except WireError EnvelopePlaintext := Reader.decode reader bytes

end EnvelopePlaintext

/-! ### The plaintext's bytes -/

namespace EnvelopePlaintext

variable {plaintext : EnvelopePlaintext} {bytes : List UInt8}

/-- What the encoder checks before it writes; the key and the manifest are legal by their types. -/
structure Encodable (plaintext : EnvelopePlaintext) : Prop where
  actorType : 1 ≤ plaintext.immutableMeta.actorType ∧ plaintext.immutableMeta.actorType ≤ 4
  actorId : (utf8 plaintext.immutableMeta.actorId).length ≤ maxActorId
  payload : plaintext.payload.length ≤ maxPayload

/-- The plaintext's fields in order. -/
def spelled (plaintext : EnvelopePlaintext) : List UInt8 :=
  Writer.withLabel plaintextLabel ++ (Writer.fixed plaintext.immutableMeta.commandId ++
    (Writer.fixed plaintext.immutableMeta.correlationId ++
    (Writer.opt Writer.fixed plaintext.immutableMeta.causationId ++
    (Writer.u8 plaintext.immutableMeta.actorType ++
    ((bigEndian 4 (utf8 plaintext.immutableMeta.actorId).length ++
      utf8 plaintext.immutableMeta.actorId) ++
    (Writer.fixed plaintext.immutableMeta.idempotencyKey.bytes ++
    (Writer.i64 plaintext.immutableMeta.issuedAt ++
    (Writer.fixed plaintext.immutableMeta.deviceId ++ (Writer.fixed plaintext.writeSetHash ++
    ((bigEndian 4 plaintext.deltaManifest.ids.length ++
      plaintext.deltaManifest.ids.flatMap Writer.fixed) ++
    (bigEndian 4 plaintext.payload.length ++ plaintext.payload)))))))))))

theorem encode_eq_ok :
    plaintext.encode = .ok bytes ↔ plaintext.Encodable ∧ bytes = plaintext.spelled := by
  have few := plaintext.deltaManifest.few
  have manifestBound : maxManifestEntries = 4096 := rfl
  have payloadBound : maxPayload = 2 ^ 24 := rfl
  have actorBound : maxActorId = 256 := rfl
  simp only [encode, ImmutableMeta.writeFields, checkActorType, Writer.text, Writer.bytes,
    Writer.list, bind_assoc, pure_bind, ensure_bind_eq_ok]
  constructor
  · rintro ⟨actorType, actorId, -, -, -, payload, -, written⟩
    refine ⟨⟨actorType, actorId, payload⟩, ?_⟩
    rw [← Except.ok.inj written, spelled]
    simp only [List.append_assoc]
  · rintro ⟨encodable, rfl⟩
    have actorId := encodable.actorId
    have payload := encodable.payload
    refine ⟨encodable.actorType, actorId, by omega, few, by omega, payload, by omega, ?_⟩
    refine congrArg Except.ok ?_
    rw [spelled]
    simp only [List.append_assoc]

theorem reads_label_plaintext :
    Reads (Reader.label plaintextLabel) (Writer.withLabel plaintextLabel) () :=
  reads_label (by decide) (by decide)

theorem ofWire_bytes (key : IdempotencyKey) : IdempotencyKey.ofWire key.bytes = .ok key := by
  rw [IdempotencyKey.ofWire, IdempotencyKey.fromBytes, dif_pos key.version4]
  rfl

theorem manifestOf_ids (manifest : ArtifactManifest) : manifestOf manifest.ids = .ok manifest := by
  rw [manifestOf, dif_pos manifest.ascending, dif_pos manifest.few]

theorem manifestOf_eq_ok {ids : List Digest} {manifest : ArtifactManifest}
    (made : manifestOf ids = .ok manifest) : manifest.ids = ids := by
  unfold manifestOf at made
  by_cases ascending : strictlyAscending ids
  · rw [dif_pos ascending] at made
    by_cases few : ids.length ≤ maxManifestEntries
    · rw [dif_pos few] at made
      rw [← Except.ok.inj made]
    · rw [dif_neg few] at made
      cases made
  · rw [dif_neg ascending] at made
    cases made

theorem ofWire_eq_ok {bytes : Uuid} {key : IdempotencyKey}
    (made : IdempotencyKey.ofWire bytes = .ok key) : key.bytes = bytes := by
  rw [IdempotencyKey.ofWire, mapError_eq_ok, IdempotencyKey.fromBytes] at made
  by_cases version4 : isUuidV4 bytes = true
  · rw [dif_pos version4] at made
    rw [← Except.ok.inj made]
  · rw [dif_neg version4] at made
    cases made

theorem decode_spelled (encodable : plaintext.Encodable) :
    decode plaintext.spelled = .ok plaintext := by
  have few := plaintext.deltaManifest.few
  have actorId := encodable.actorId
  have payload := encodable.payload
  have manifestBound : maxManifestEntries = 4096 := rfl
  have payloadBound : maxPayload = 2 ^ 24 := rfl
  have actorBound : maxActorId = 256 := rfl
  refine decode_of_readsAll (reads_label_plaintext.bind_readsAll ?_)
  refine (reads_fixed _).bind_readsAll ((reads_fixed _).bind_readsAll ?_)
  refine (reads_opt _ fun _ _ => reads_fixed _).bind_readsAll ?_
  refine (reads_u8 _).bind_readsAll ?_
  refine ReadsAll.ok_bind (ensure_of encodable.actorType _) ?_
  refine (reads_text actorId (by omega)).bind_readsAll ?_
  refine (reads_fixed _).bind_readsAll (ReadsAll.ok_bind (ofWire_bytes _) ?_)
  refine (reads_i64 _).bind_readsAll ((reads_fixed _).bind_readsAll ?_)
  refine (reads_fixed _).bind_readsAll ?_
  refine (reads_list _ few (by omega) (fun _ _ => le_of_eq (length_fixed _).symm)
    fun _ _ => reads_fixed _).bind_readsAll ?_
  refine ReadsAll.ok_bind (manifestOf_ids _) ?_
  rw [← List.append_nil (bigEndian 4 _ ++ _)]
  refine (reads_bytes payload (by omega)).bind_readsAll ?_
  exact readsAll_finish_bind (reads_pure plaintext).readsAll

theorem eq_spelled_of_decode (decoded : decode bytes = .ok plaintext) :
    plaintext.Encodable ∧ bytes = plaintext.spelled := by
  obtain ⟨rest, read⟩ := decode_eq_ok decoded
  obtain ⟨_, _, atLabel, read⟩ := ReadsOnly.of_bind (readsOnly_label _) read
  obtain ⟨commandId, _, atCommand, read⟩ := ReadsOnly.of_bind (readsOnly_fixed 16) read
  obtain ⟨correlationId, _, atCorrelation, read⟩ := ReadsOnly.of_bind (readsOnly_fixed 16) read
  obtain ⟨causationId, _, atCausation, read⟩ :=
    ReadsOnly.of_bind (readsOnly_opt (readsOnly_fixed 16)) read
  obtain ⟨actorType, _, atActor, read⟩ := ReadsOnly.of_bind readsOnly_u8 read
  obtain ⟨_, actorKnown, read⟩ := run_liftM_bind_eq_ok.mp read
  obtain ⟨actorId, _, actorRead, read⟩ := run_bind_eq_ok.mp read
  obtain ⟨actorShort, -, atActorId⟩ := run_text_eq_ok actorRead
  obtain ⟨keyBytes, _, atKey, read⟩ := ReadsOnly.of_bind (readsOnly_fixed 16) read
  obtain ⟨key, keyMade, read⟩ := run_liftM_bind_eq_ok.mp read
  obtain ⟨issuedAt, _, atIssued, read⟩ := ReadsOnly.of_bind readsOnly_i64 read
  obtain ⟨deviceId, _, atDevice, read⟩ := ReadsOnly.of_bind (readsOnly_fixed 16) read
  obtain ⟨writeSetHash, _, atWriteSet, read⟩ := ReadsOnly.of_bind (readsOnly_fixed 32) read
  obtain ⟨delta, _, deltaRead, read⟩ := run_bind_eq_ok.mp read
  obtain ⟨-, -, atDelta⟩ := run_list_eq_ok (readsOnly_fixed 32) deltaRead
  obtain ⟨manifest, manifestMade, read⟩ := run_liftM_bind_eq_ok.mp read
  obtain ⟨payload, _, payloadRead, read⟩ := run_bind_eq_ok.mp read
  obtain ⟨payloadShort, -, atPayload⟩ := run_bytes_eq_ok payloadRead
  obtain ⟨_, _, finished, read⟩ := run_bind_eq_ok.mp read
  obtain ⟨atEnd, -⟩ := run_finish_eq_ok.mp finished
  obtain ⟨rfl, -⟩ := run_pure_eq_ok.mp read
  refine ⟨⟨ensure_eq_ok.mp actorKnown, actorShort, payloadShort⟩, ?_⟩
  rw [atLabel, atCommand, atCorrelation, atCausation, atActor, atActorId, atKey, atIssued,
    atDevice, atWriteSet, atDelta, atPayload, atEnd, spelled, ofWire_eq_ok keyMade,
    manifestOf_eq_ok manifestMade]
  simp only [List.append_assoc, List.append_nil]

/-- The length of the encoded plaintext. -/
def encodedLength (plaintext : EnvelopePlaintext) : Nat :=
  154 + (if plaintext.immutableMeta.causationId.isSome then 16 else 0) +
    (utf8 plaintext.immutableMeta.actorId).length + 32 * plaintext.deltaManifest.ids.length +
    plaintext.payload.length

theorem length_flatMap_fixed {width : Nat} (values : List (Fixed width)) :
    (values.flatMap Writer.fixed).length = width * values.length := by
  induction values with
  | nil => rfl
  | cons value rest inductionHypothesis =>
    rw [List.flatMap_cons, List.length_append, inductionHypothesis, length_fixed,
      List.length_cons]
    ring

theorem spelled_length (plaintext : EnvelopePlaintext) :
    plaintext.spelled.length = plaintext.encodedLength := by
  have label : (Writer.withLabel plaintextLabel).length = 36 := by decide
  have causation : (Writer.opt Writer.fixed plaintext.immutableMeta.causationId).length =
      1 + if plaintext.immutableMeta.causationId.isSome then 16 else 0 := by
    cases plaintext.immutableMeta.causationId with
    | none => rfl
    | some id => exact congrArg (· + 1) (length_fixed id) |>.trans (Nat.add_comm 16 1)
  simp only [spelled, encodedLength, List.length_append, label, causation, length_fixed,
    length_flatMap_fixed, bigEndian_length, Writer.u8, Writer.i64, Writer.u64,
    List.length_singleton]
  ring

end EnvelopePlaintext

/-! ### The receiver's checks -/

/-- The earliest supported instant: the Unix epoch, in microseconds. -/
def issuedAtMinMicros : Int64 := 0

/-- The latest supported instant: the end of the year 9999. -/
def issuedAtMaxMicros : Int64 := 253402300799999999

def issuedAtInRange (micros : Int64) : Bool :=
  issuedAtMinMicros ≤ micros && micros ≤ issuedAtMaxMicros

/-- Why a decrypted envelope failed the receiver's checks. -/
inductive ReceiverError
  | notAnEnvelope
  | tagMismatch
  | metadataCommitmentMismatch
  | objectIdMismatch
  | deviceMismatch
  | nonceDomainMismatch
  | manifestCommitmentMismatch
  | unencodableMetadata
  | issuedAtOutOfRange
  deriving DecidableEq

section

variable (crypto : Crypto)

/-- The header commits to the delta manifest exactly when there is one. -/
def manifestMatches (found : Option ManifestCommitment) (manifest : ArtifactManifest) : Bool :=
  match found with
  | none => manifest.isEmpty
  | some found => !manifest.isEmpty && found = manifest.commitment crypto

/-- The checks that need no membership chain; `tagFor` computes the tag of a key under the vault's
secret. -/
def receiverChecks (header : ClearHeader) (plaintext : EnvelopePlaintext)
    (tagFor : IdempotencyKey → IdempotencyKeyTag) : Except ReceiverError Unit :=
  match header.object with
  | .snapshot _ => .error .notAnEnvelope
  | .envelope idempotencyKeyTag immutableMetadataCommitment artifactManifestCommitment => do
    ensure (header.objectId = plaintext.immutableMeta.commandId) .objectIdMismatch
    ensure (header.deviceId = plaintext.immutableMeta.deviceId) .deviceMismatch
    ensure (idempotencyKeyTag = tagFor plaintext.immutableMeta.idempotencyKey) .tagMismatch
    let commitment ← (plaintext.immutableMeta.commitment crypto).mapError fun _ =>
      .unencodableMetadata
    ensure (immutableMetadataCommitment = commitment) .metadataCommitmentMismatch
    ensure (header.nonceDomain = NonceDomain.derive crypto header.vaultId header.keyEpoch
      header.deviceKeyFingerprint objectEnvelope) .nonceDomainMismatch
    ensure (manifestMatches crypto artifactManifestCommitment plaintext.deltaManifest)
      .manifestCommitmentMismatch
    ensure (issuedAtInRange plaintext.immutableMeta.issuedAt) .issuedAtOutOfRange

/-- A header and its plaintext on which the receiver's checks passed. -/
structure CheckedEnvelope (tagFor : IdempotencyKey → IdempotencyKeyTag) where
  header : ClearHeader
  plaintext : EnvelopePlaintext
  passed : receiverChecks crypto header plaintext tagFor = .ok ()

def checkEnvelope (header : ClearHeader) (plaintext : EnvelopePlaintext)
    (tagFor : IdempotencyKey → IdempotencyKeyTag) :
    Except ReceiverError (CheckedEnvelope crypto tagFor) :=
  match passed : receiverChecks crypto header plaintext tagFor with
  | .ok () => .ok ⟨header, plaintext, passed⟩
  | .error failure => .error failure

end

end Dohflow.SyncCore
