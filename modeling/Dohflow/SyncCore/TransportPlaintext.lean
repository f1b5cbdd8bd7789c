/-
This file models what is sealed as an artifact: its canonical bytes, the data its
cipher authenticates with them, and the receipt for its ciphertext.

The length and the digest that describe the blob are written from it and held to it when
they are read, so a plaintext has one spelling. The encoder and the decoder make the same
demands, and what a source batch is split into meets them.
-/

import Dohflow.SyncCore.CanonicalSplit
import Dohflow.SyncCore.LogicalMetadata

namespace Dohflow.SyncCore.ArtifactClosure

open ByteReader Fallible SourceParts SourceRows

def transportLabel : String := "dohflow/sync-artifact-transport/v1"

def artifactAadLabel : String := "dohflow/sync-artifact-aad/v1"

/-- The most that `logical_metadata` can hold, in bytes. -/
def maxLogicalMetadata : Nat := 65536

/-- The largest container the service stores. -/
def maxArtifactContainer : Nat := 67108864

/-- `usize::MAX` -/
def maxLength : Nat := 2 ^ 64 - 1

/-- Why a transport plaintext was refused. -/
inductive TransportError
  | wire (error : WireError)
  | reservedKind
  | unknownKind
  | metadataNotCanonical
  | descriptorLength
  | descriptorDigest
  deriving DecidableEq

def ArtifactKind.code : ArtifactKind → UInt8
  | .attachment => 1
  | .sourceBatchPart => 2

def ArtifactKind.fromCode (code : UInt8) : Except TransportError ArtifactKind :=
  if code = 1 then .ok .attachment
  else if code = 2 then .ok .sourceBatchPart
  else if code = 3 ∨ code = 4 then .error .reservedKind
  else .error .unknownKind

/-- The AAD of an artifact's AEAD, which binds the object to its address. -/
def artifactAad (vaultId : Uuid) (keyEpoch : UInt64) (id : ArtifactId) : List UInt8 :=
  Writer.withLabel artifactAadLabel ++ (Writer.u16 protocolVersion ++ (Writer.fixed vaultId ++
    (Writer.u64 keyEpoch ++ Writer.fixed id)))

/-- What a faithful service acknowledges: an address and the ciphertext it holds. -/
structure ArtifactReceipt where
  vaultId : Uuid
  keyEpoch : UInt64
  artifactId : ArtifactId
  ciphertextLength : UInt64
  ciphertextSha256 : Digest

section

variable (crypto : Crypto) (toVec : Canonicalizer)

/-- The receipt a client computes for the ciphertext it sealed. -/
def ArtifactReceipt.forCiphertext (vaultId : Uuid) (keyEpoch : UInt64) (artifactId : ArtifactId)
    (ciphertext : List UInt8) : ArtifactReceipt :=
  { vaultId, keyEpoch, artifactId, ciphertextLength := UInt64.ofNat ciphertext.length
    ciphertextSha256 := crypto.sha256 ciphertext }

/-- The metadata is a canonical JSON object. -/
def isCanonicalObject (logicalMetadata : List UInt8) : Bool :=
  match parseCanonicalNode toVec logicalMetadata with
  | .ok (.object _) => true
  | _ => false

namespace TransportPlaintext

/-- The canonical bytes. -/
def encode (plaintext : TransportPlaintext) : Except TransportError (List UInt8) := do
  ensure (plaintext.logicalMetadata.length ≤ maxLogicalMetadata) (.wire .tooLong)
  ensure (isCanonicalObject toVec plaintext.logicalMetadata = true) .metadataNotCanonical
  let metadata ←
    (Writer.bytes maxLogicalMetadata plaintext.logicalMetadata).mapError .wire
  let blob ← (Writer.blob maxLength plaintext.blob).mapError .wire
  return Writer.withLabel transportLabel ++ (Writer.fixed plaintext.artifactId ++
    (Writer.u8 plaintext.kind.code ++ (bigEndian 8 plaintext.blob.length ++
    (Writer.fixed (crypto.sha256 plaintext.blob) ++ (metadata ++ blob)))))

/-- The digest of the complete encoded plaintext. -/
def digest (plaintext : TransportPlaintext) : Except TransportError Digest := do
  return crypto.sha256 (← plaintext.encode crypto toVec)

def reader : ByteReader.Reader TransportError TransportPlaintext := do
  mapFailure .wire (Reader.label transportLabel)
  let artifactId ← mapFailure .wire (Reader.fixed 32)
  let kind ← ArtifactKind.fromCode (← mapFailure .wire Reader.u8)
  let length ← mapFailure .wire Reader.u64
  let digest ← mapFailure .wire (Reader.fixed 32)
  let logicalMetadata ← mapFailure .wire (Reader.bytes maxLogicalMetadata)
  let blob ← mapFailure .wire (Reader.blob maxLength)
  mapFailure .wire Reader.finish
  require (blob.length = length.toNat) .descriptorLength
  require (crypto.sha256 blob = digest) .descriptorDigest
  require (isCanonicalObject toVec logicalMetadata = true) .metadataNotCanonical
  return { artifactId, kind, logicalMetadata, blob }

/-- Decode and check a plaintext's bytes. -/
def decode (bytes : List UInt8) : Except TransportError TransportPlaintext :=
  ((reader crypto toVec).run bytes).map Prod.fst

end TransportPlaintext

end

/-! ### A plaintext has one spelling -/

variable {crypto : Crypto} {toVec : Canonicalizer}

theorem fromCode_code (kind : ArtifactKind) : ArtifactKind.fromCode kind.code = .ok kind := by
  cases kind with
  | attachment => rfl
  | sourceBatchPart => rfl

theorem code_of_fromCode {code : UInt8} {kind : ArtifactKind}
    (known : ArtifactKind.fromCode code = .ok kind) : kind.code = code := by
  unfold ArtifactKind.fromCode at known
  split_ifs at known with first second
  · obtain rfl := Except.ok.inj known
    exact first.symm
  · obtain rfl := Except.ok.inj known
    exact second.symm

namespace TransportPlaintext

variable {plaintext : TransportPlaintext} {bytes : List UInt8}

/-- A plaintext that may be encoded. -/
structure Encodable (toVec : Canonicalizer) (plaintext : TransportPlaintext) : Prop where
  metadata : plaintext.logicalMetadata.length ≤ maxLogicalMetadata
  object : isCanonicalObject toVec plaintext.logicalMetadata = true
  blob : plaintext.blob.length < 2 ^ 64

/-- The bytes of a plaintext that may be encoded. -/
def written (crypto : Crypto) (plaintext : TransportPlaintext) : List UInt8 :=
  Writer.withLabel transportLabel ++ (Writer.fixed plaintext.artifactId ++
    (Writer.u8 plaintext.kind.code ++ (bigEndian 8 plaintext.blob.length ++
    (Writer.fixed (crypto.sha256 plaintext.blob) ++
    ((bigEndian 4 plaintext.logicalMetadata.length ++ plaintext.logicalMetadata) ++
      (bigEndian 8 plaintext.blob.length ++ plaintext.blob))))))

theorem encode_eq_ok :
    plaintext.encode crypto toVec = .ok bytes ↔
      Encodable toVec plaintext ∧ plaintext.written crypto = bytes := by
  have bound : maxLogicalMetadata = 65536 ∧ maxLength = 2 ^ 64 - 1 := ⟨rfl, rfl⟩
  simp only [encode, Writer.bytes, Writer.blob, bind_eq_ok, ensure_eq_ok, exists_const,
    mapError_eq_ok]
  constructor
  · rintro ⟨metadata, object, _, ⟨-, -, first⟩, _, ⟨-, blob, second⟩, made⟩
    obtain rfl := Except.ok.inj first
    obtain rfl := Except.ok.inj second
    exact ⟨⟨metadata, object, blob⟩, Except.ok.inj made⟩
  · rintro ⟨⟨metadata, object, blob⟩, rfl⟩
    exact ⟨metadata, object, _, ⟨metadata, by omega, rfl⟩, _, ⟨by omega, blob, rfl⟩, rfl⟩

theorem readsAll_mapFailure_finish_bind {Result : Type} {translate : WireError → TransportError}
    {next : Unit → ByteReader.Reader TransportError Result} {result : Result}
    (readsNext : ReadsAll (next ()) [] result) :
    ReadsAll (mapFailure translate Reader.finish >>= next) [] result := readsNext

theorem decode_of_encode (encoded : plaintext.encode crypto toVec = .ok bytes) :
    decode crypto toVec bytes = .ok plaintext := by
  obtain ⟨encodable, rfl⟩ := encode_eq_ok.mp encoded
  have bound : maxLogicalMetadata = 65536 ∧ maxLength = 2 ^ 64 - 1 := ⟨rfl, rfl⟩
  have metadata := encodable.metadata
  have blob := encodable.blob
  have length : (UInt64.ofNat plaintext.blob.length).toNat = plaintext.blob.length :=
    UInt64.toNat_ofNat_of_lt' blob
  have label : Reads (Reader.label transportLabel) (Writer.withLabel transportLabel) () :=
    reads_label (by decide +kernel) (by decide +kernel)
  have counted := reads_u64 (UInt64.ofNat plaintext.blob.length)
  rw [Writer.u64, length] at counted
  have whole : ReadsAll (reader crypto toVec) (plaintext.written crypto) plaintext := by
    refine label.mapFailure.bind_readsAll ((reads_fixed _).mapFailure.bind_readsAll ?_)
    refine (reads_u8 _).mapFailure.bind_readsAll ?_
    refine ReadsAll.ok_bind (fromCode_code _) (counted.mapFailure.bind_readsAll ?_)
    refine (reads_fixed _).mapFailure.bind_readsAll ?_
    refine (reads_bytes metadata (by omega)).mapFailure.bind_readsAll ?_
    have body : Reads (mapFailure TransportError.wire (Reader.blob maxLength)) _ _ :=
      (reads_blob (by omega) blob).mapFailure
    rw [← List.append_nil (bigEndian 8 plaintext.blob.length ++ plaintext.blob)]
    refine body.bind_readsAll ?_
    refine readsAll_mapFailure_finish_bind ?_
    refine ReadsAll.require_bind length.symm (ReadsAll.require_bind rfl ?_)
    exact ReadsAll.require_bind encodable.object (reads_pure plaintext).readsAll
  rw [decode, whole]
  rfl

theorem encode_of_decode (decoded : decode crypto toVec bytes = .ok plaintext) :
    plaintext.encode crypto toVec = .ok bytes := by
  cases run : (reader crypto toVec).run bytes with
  | error failure =>
    rw [decode, run] at decoded
    cases decoded
  | ok taken =>
    obtain ⟨found, rest⟩ := taken
    rw [decode, run] at decoded
    obtain rfl : found = plaintext := Except.ok.inj decoded
    obtain ⟨_, _, atLabel, run⟩ :=
      ReadsOnly.of_bind (ReadsOnly.mapFailure (readsOnly_label _)) run
    obtain ⟨artifactId, _, atId, run⟩ :=
      ReadsOnly.of_bind (ReadsOnly.mapFailure (readsOnly_fixed 32)) run
    obtain ⟨code, _, atKind, run⟩ := ReadsOnly.of_bind (ReadsOnly.mapFailure readsOnly_u8) run
    obtain ⟨kind, known, run⟩ := run_liftM_bind_eq_ok.mp run
    obtain ⟨length, _, atLength, run⟩ := ReadsOnly.of_bind (ReadsOnly.mapFailure readsOnly_u64) run
    obtain ⟨digest, _, atDigest, run⟩ :=
      ReadsOnly.of_bind (ReadsOnly.mapFailure (readsOnly_fixed 32)) run
    obtain ⟨metadata, _, metadataRead, run⟩ := run_bind_eq_ok.mp run
    obtain ⟨metadataFits, -, atMetadata⟩ := run_bytes_eq_ok (run_mapFailure_eq_ok.mp metadataRead)
    obtain ⟨blob, _, blobRead, run⟩ := run_bind_eq_ok.mp run
    obtain ⟨-, blobFits, atBlob⟩ := run_blob_eq_ok (run_mapFailure_eq_ok.mp blobRead)
    obtain ⟨_, _, finished, run⟩ := run_bind_eq_ok.mp run
    simp only [run_require_bind_eq_ok, run_pure_eq_ok] at run
    obtain ⟨sameLength, sameDigest, object, rfl, rfl⟩ := run
    refine encode_eq_ok.mpr ⟨⟨metadataFits, object, blobFits⟩, ?_⟩
    obtain ⟨atEnd, -⟩ := run_finish_eq_ok.mp (run_mapFailure_eq_ok.mp finished)
    rw [atLabel, atId, atKind, atLength, atDigest, atMetadata, atBlob, atEnd, written, Writer.u64]
    dsimp only
    rw [code_of_fromCode known, sameDigest, ← sameLength, List.append_nil]
    simp only [List.append_assoc]

theorem length_written (plaintext : TransportPlaintext) :
    (plaintext.written crypto).length =
      121 + plaintext.logicalMetadata.length + plaintext.blob.length := by
  have label : (Writer.withLabel transportLabel).length = 36 := by decide +kernel
  have kind : (Writer.u8 plaintext.kind.code).length = 1 := rfl
  simp only [written, List.length_append, label, kind, length_fixed, bigEndian_length]
  omega

end TransportPlaintext

/-! ### The parts of a source batch -/

theorem length_utf8_le (chars : List Char) :
    (utf8 (String.ofList chars)).length ≤ 4 * chars.length := by
  rw [Parser.utf8_ofList]
  induction chars with
  | nil => exact Nat.zero_le _
  | cons char rest inductionHypothesis =>
    have width := char.utf8Size_le_four
    rw [List.flatMap_cons, List.length_append, String.length_utf8EncodeChar, List.length_cons]
    omega

theorem length_hyphenated_le (id : Uuid) : (utf8 (hyphenated id)).length ≤ 144 := by
  obtain ⟨bytes, whole⟩ := id
  have long := (@uuidFrom_hyphenatedFrom 0 bytes (by omega)).2
  have start : digitsAt 0 = 0 := rfl
  have width := length_utf8_le (hyphenatedFrom 0 bytes)
  exact width.trans (by omega)

theorem length_toString_le {value : Nat} (small : value < 2 ^ 32) :
    (utf8 (toString value)).length ≤ 40 := by
  have digits : (Nat.toDigits 10 value).length ≤ 10 :=
    (Nat.length_toDigits_le_iff (by decide) (by decide)).mpr (by omega)
  have width := length_utf8_le (Nat.toDigits 10 value)
  exact width.trans (by omega)

theorem length_metadata_le (batchId : Uuid) {index count : Nat} (indexSmall : index < 2 ^ 32)
    (countSmall : count < 2 ^ 32) : (metadata batchId index count).length ≤ 300 := by
  have first : (utf8 "\x7b\"batch_id\":\"").length = 13 := by decide +kernel
  have second : (utf8 "\",\"part_count\":\"").length = 16 := by decide +kernel
  have third : (utf8 "\",\"part_index\":\"").length = 16 := by decide +kernel
  have ends : (utf8 "\"\x7d").length = 2 := by decide +kernel
  have id := length_hyphenated_le batchId
  have counted := length_toString_le countSmall
  have indexed := length_toString_le indexSmall
  simp only [metadata, List.length_append, first, second, third, ends]
  omega

/-- The plaintext of one part. -/
def Part.plaintext (part : Part) (artifactId : ArtifactId) : TransportPlaintext :=
  { artifactId, kind := .sourceBatchPart, logicalMetadata := part.logicalMetadata, blob := part.blob }

theorem encodable_part (emits : EmitsRfc8785 toVec) {batch : SourceBatch} {parts : List Part}
    (passed : split toVec batch = .ok parts) {part : Part} (member : part ∈ parts)
    (artifactId : ArtifactId) :
    (Part.plaintext part artifactId).Encodable toVec ∧
      ((Part.plaintext part artifactId).written crypto).length + 30 ≤ maxArtifactContainer := by
  obtain ⟨chunks, into⟩ := exists_splitInto emits passed
  obtain ⟨-, -, bounded, rfl⟩ := (split_eq_ok emits).mp passed
  have few : (partsOf batch).length < 2 ^ 32 := by
    rw [partsOf, List.length_map, List.length_zipIdx]
    exact bounded.parts
  have counted := into.count part member
  obtain ⟨named, below⟩ := into.named part member
  have short := into.short part member
  have metadataShort : part.logicalMetadata.length ≤ 300 := by
    rw [named]
    exact length_metadata_le _ (by omega) (by omega)
  have bounds : maxPartBlob = 2 ^ 22 ∧ maxLogicalMetadata = 65536 ∧
      maxArtifactContainer = 67108864 := ⟨rfl, rfl, rfl⟩
  have object : isCanonicalObject toVec part.logicalMetadata = true := by
    rw [named, isCanonicalObject, parse_metadata emits]
    rfl
  refine ⟨⟨?_, object, ?_⟩, ?_⟩
  · show part.logicalMetadata.length ≤ maxLogicalMetadata
    omega
  · show part.blob.length < 2 ^ 64
    omega
  · rw [TransportPlaintext.length_written]
    show 121 + part.logicalMetadata.length + part.blob.length + 30 ≤ maxArtifactContainer
    omega

end Dohflow.SyncCore.ArtifactClosure
