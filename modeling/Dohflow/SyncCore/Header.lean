/-
This file models the clear header of a sealed object and the container that
carries it.

The header is the associated data of the object's encryption. Its object type is
the variant of `ObjectKind`, so a header that breaks the dual-identity rule (an
envelope carries its tag and metadata commitment, a snapshot neither and always
its manifest commitment) cannot be built. `readFrame` is the one reader of a
container's frame: over the whole object it is the container's parser, over a
prefix it answers or says how many bytes it needs.
-/

import Dohflow.SyncCore.Keys

namespace Dohflow.SyncCore

open ByteReader Fallible

/-- The one protocol version this build speaks. -/
def protocolVersion : UInt16 := 1

def headerLabel : String := "dohflow/sync-header/v1"

/-- The highest invocation counter a derived key may use. -/
def maxInvocationCounter : Nat := 2 ^ 32 - 1

/-- The longest engine version, in bytes. -/
def maxEngineVersion : Nat := 64

def objectEnvelope : UInt8 := 1

def objectSnapshot : UInt8 := 2

/-- Opaque printable ASCII, 1 to 64 bytes, compared byte for byte. -/
def isValidEngineVersion (value : List UInt8) : Bool :=
  1 ≤ value.length && value.length ≤ maxEngineVersion &&
    value.all fun byte => 0x21 ≤ byte && byte ≤ 0x7e

/-- The tag of an envelope's idempotency key. -/
structure IdempotencyKeyTag where
  bytes : Digest
  deriving DecidableEq

/-- The commitment to an envelope's complete immutable metadata. -/
structure MetadataCommitment where
  bytes : Digest
  deriving DecidableEq

/-- The commitment to an artifact manifest. -/
structure ManifestCommitment where
  bytes : Digest
  deriving DecidableEq

/-- The fingerprint of a device's keys. -/
structure Fingerprint where
  bytes : Digest
  deriving DecidableEq

/-- The 4-byte nonce domain of a device's key for an object type. -/
structure NonceDomain where
  bytes : Fixed 4
  deriving DecidableEq

/-- The domain a receiver recomputes: the first 4 bytes of the digest of the vault, the epoch, the
device key and the object type. -/
def NonceDomain.derive (crypto : Crypto) (vaultId : Uuid) (keyEpoch : UInt64)
    (fingerprint : Fingerprint) (objectType : UInt8) : NonceDomain :=
  let digest := crypto.sha256 (Writer.withLabel "dohflow/sync-nonce/v1" ++ Writer.fixed vaultId ++
    Writer.u64 keyEpoch ++ Writer.fixed fingerprint.bytes ++ Writer.u8 objectType)
  ⟨⟨digest.toList.take 4, by simp⟩⟩

/-- Which kind of sealed object a header belongs to, with the fields that differ. -/
inductive ObjectKind
  | envelope (idempotencyKeyTag : IdempotencyKeyTag)
      (immutableMetadataCommitment : MetadataCommitment)
      (artifactManifestCommitment : Option ManifestCommitment)
  | snapshot (artifactManifestCommitment : ManifestCommitment)
  deriving DecidableEq

/-- The clear header of a sealed object: authenticated, never encrypted. -/
structure ClearHeader where
  vaultId : Uuid
  keyEpoch : UInt64
  object : ObjectKind
  objectId : Uuid
  deviceId : Uuid
  deviceKeyFingerprint : Fingerprint
  nonceDomain : NonceDomain
  invocationCounter : UInt64
  baseSeq : UInt64
  payloadSchemaVersion : UInt32
  engineVersion : String
  schemaVersion : UInt32
  deriving DecidableEq

namespace ClearHeader

def objectType (header : ClearHeader) : UInt8 :=
  match header.object with
  | .envelope .. => objectEnvelope
  | .snapshot .. => objectSnapshot

/-- The tag, the metadata commitment and the manifest commitment as the header writes them. -/
def identityFields : ObjectKind → Option Digest × Option Digest × Option Digest
  | .envelope tag commitment manifest =>
    (some tag.bytes, some commitment.bytes, manifest.map ManifestCommitment.bytes)
  | .snapshot manifest => (none, none, some manifest.bytes)

/-- The header's canonical bytes. -/
def encode (header : ClearHeader) : Except WireError (List UInt8) := do
  ensure (header.invocationCounter.toNat ≤ maxInvocationCounter) .counterAboveCap
  ensure (isValidEngineVersion (utf8 header.engineVersion)) .badEngineVersion
  let (tag, commitment, manifest) := identityFields header.object
  let engineVersion ← Writer.text maxEngineVersion header.engineVersion
  return Writer.withLabel headerLabel ++ (Writer.u16 protocolVersion ++
    (Writer.fixed header.vaultId ++ (Writer.u64 header.keyEpoch ++
    (Writer.u8 header.objectType ++ (Writer.fixed header.objectId ++
    (Writer.opt Writer.fixed tag ++ (Writer.opt Writer.fixed commitment ++
    (Writer.fixed header.deviceId ++ (Writer.fixed header.deviceKeyFingerprint.bytes ++
    (Writer.fixed header.nonceDomain.bytes ++ (Writer.u64 header.invocationCounter ++
    (Writer.u64 header.baseSeq ++ (Writer.u32 header.payloadSchemaVersion ++
    (engineVersion ++ (Writer.u32 header.schemaVersion ++
    Writer.opt Writer.fixed manifest)))))))))))))))

/-- The object kind an object type and its optional fields spell. -/
def objectKind (objectType : UInt8) (tag commitment manifest : Option Digest) :
    Except WireError ObjectKind :=
  if objectType = objectEnvelope then
    match tag, commitment with
    | some tag, some commitment =>
      .ok (.envelope ⟨tag⟩ ⟨commitment⟩ (manifest.map ManifestCommitment.mk))
    | _, _ => .error .objectFieldsMismatch
  else if objectType = objectSnapshot then
    match tag, commitment, manifest with
    | none, none, some manifest => .ok (.snapshot ⟨manifest⟩)
    | none, none, none => .error .snapshotWithoutManifest
    | _, _, _ => .error .objectFieldsMismatch
  else .error .unknownObjectType

/-- Every field in order, up to the end of the input. -/
def reader : Reader ClearHeader := do
  Reader.label headerLabel
  require ((← Reader.u16) = protocolVersion) .unsupportedProtocol
  let vaultId ← Reader.fixed 16
  let keyEpoch ← Reader.u64
  let objectType ← Reader.u8
  let objectId ← Reader.fixed 16
  let tag ← Reader.opt (Reader.fixed 32)
  let commitment ← Reader.opt (Reader.fixed 32)
  let deviceId ← Reader.fixed 16
  let fingerprint ← Reader.fixed 32
  let nonceDomain ← Reader.fixed 4
  let invocationCounter ← Reader.u64
  let baseSeq ← Reader.u64
  let payloadSchemaVersion ← Reader.u32
  let engineVersion ← Reader.text maxEngineVersion
  let schemaVersion ← Reader.u32
  let manifest ← Reader.opt (Reader.fixed 32)
  Reader.finish
  let object ← objectKind objectType tag commitment manifest
  require (invocationCounter.toNat ≤ maxInvocationCounter) .counterAboveCap
  require (isValidEngineVersion (utf8 engineVersion)) .badEngineVersion
  return { vaultId, keyEpoch, object, objectId, deviceId, deviceKeyFingerprint := ⟨fingerprint⟩
           nonceDomain := ⟨nonceDomain⟩, invocationCounter, baseSeq, payloadSchemaVersion
           engineVersion, schemaVersion }

/-- Parse a header from exactly the bytes. -/
def decode (bytes : List UInt8) : Except WireError ClearHeader := Reader.decode reader bytes

end ClearHeader

variable {bytes : List UInt8}

/-! ### The container -/

def containerMagic : List UInt8 := utf8 "DFSY"

def containerVersion : UInt16 := 1

/-- The AES-256-GCM tag length: the least a sealed object's ciphertext can be. -/
def minCiphertextLen : Nat := 16

/-- `magic ‖ u16 container_version ‖ u32 header_len`. -/
def frameHeadLen : Nat := 10

/-- The `u64 ciphertext_len` that follows the header. -/
def ciphertextLenField : Nat := 8

/-- The most a command envelope's container can hold. -/
def maxEnvelopeContainerLen : Nat := 2 ^ 24 + 4096 * 32 + 4096

/-- A parsed container. -/
structure ParsedContainer where
  header : ClearHeader
  /-- The header's bytes as received. -/
  headerBytes : List UInt8
  ciphertext : List UInt8

/-- A container's bytes around the header's bytes and the ciphertext. -/
def containerBytes (headerBytes ciphertext : List UInt8) : List UInt8 :=
  containerMagic ++ (Writer.u16 containerVersion ++ (bigEndian 4 headerBytes.length ++
    (headerBytes ++ (bigEndian 8 ciphertext.length ++ ciphertext))))

def encodeContainer (header : ClearHeader) (ciphertext : List UInt8) :
    Except WireError (List UInt8) := do
  let headerBytes ← header.encode
  ensure (headerBytes.length < 2 ^ 32) .tooLong
  ensure (ciphertext.length < 2 ^ 64) .tooLong
  return containerBytes headerBytes ciphertext

/-- Why a prefix of a container gives no answer. -/
inductive PeekError
  | prefixTooShort (needed : Nat)
  | wire (error : WireError)

structure Frame where
  header : ClearHeader
  headerLen : Nat
  ciphertextLen : Nat

/-- The one reader of a container's frame, over the bytes in hand and the container's length. A
shortage of an object held whole is a truncated object; anything shorter reports how much is
needed. -/
def readFrame (avail : List UInt8) (totalLen : Nat) : Except PeekError Frame := do
  ensure (avail.length ≤ totalLen) (.wire .lengthExceedsInput)
  let lack (needed : Nat) : PeekError :=
    if avail.length = totalLen then .wire .truncated else .prefixTooShort (min needed totalLen)
  -- Fewer bytes than the magic are judged by the bytes there are.
  ensure (containerMagic.length ≤ avail.length ∨ avail = containerMagic.take avail.length)
    (.wire .badMagic)
  ensure (containerMagic.length ≤ avail.length) (lack frameHeadLen)
  ensure (avail.take containerMagic.length = containerMagic) (.wire .badMagic)
  ensure (containerMagic.length + 2 ≤ avail.length) (lack frameHeadLen)
  ensure (ofBigEndian ((avail.drop 4).take 2) = containerVersion.toNat)
    (.wire .unsupportedContainer)
  ensure (frameHeadLen ≤ avail.length) (lack frameHeadLen)
  let headerLen := ofBigEndian ((avail.drop 6).take 4)
  ensure (headerLen ≤ totalLen - frameHeadLen) (.wire .lengthExceedsInput)
  let headerEnd := frameHeadLen + headerLen
  ensure (headerEnd ≤ avail.length) (lack (headerEnd + ciphertextLenField))
  let header ← (ClearHeader.decode ((avail.drop frameHeadLen).take headerLen)).mapError .wire
  let lengthEnd := headerEnd + ciphertextLenField
  ensure (lengthEnd ≤ totalLen) (.wire .truncated)
  ensure (lengthEnd ≤ avail.length) (lack lengthEnd)
  let ciphertextLen := ofBigEndian ((avail.drop headerEnd).take ciphertextLenField)
  ensure (ciphertextLen ≤ totalLen - lengthEnd) (.wire .lengthExceedsInput)
  ensure (minCiphertextLen ≤ ciphertextLen) (.wire .ciphertextTooShort)
  ensure (totalLen - lengthEnd ≤ ciphertextLen) (.wire .trailingBytes)
  return { header, headerLen, ciphertextLen }

/-- Parse a container held whole. -/
def parseContainer (bytes : List UInt8) : Except WireError ParsedContainer :=
  match readFrame bytes bytes.length with
  | .ok frame => .ok {
      header := frame.header
      headerBytes := (bytes.drop frameHeadLen).take frame.headerLen
      ciphertext := bytes.drop (frameHeadLen + frame.headerLen + ciphertextLenField) }
  | .error (.wire error) => .error error
  | .error (.prefixTooShort _) => .error .truncated

def parseContainerWithLimit (bytes : List UInt8) (maxLen : Nat) :
    Except WireError ParsedContainer := do
  ensure (bytes.length ≤ maxLen) .objectTooLarge
  parseContainer bytes

/-! ### A parsed container is its bytes -/

/-- What a frame read from a container held whole says of its bytes. -/
structure Frame.Spells (frame : Frame) (bytes : List UInt8) : Prop where
  magic : bytes.take 4 = containerMagic
  version : ofBigEndian ((bytes.drop 4).take 2) = 1
  headerLen : ofBigEndian ((bytes.drop 6).take 4) = frame.headerLen
  header : ClearHeader.decode ((bytes.drop 10).take frame.headerLen) = .ok frame.header
  long : 10 + frame.headerLen + 8 ≤ bytes.length
  ciphertextLen : ofBigEndian ((bytes.drop (10 + frame.headerLen)).take 8) = frame.ciphertextLen
  tagged : 16 ≤ frame.ciphertextLen
  total : bytes.length = 10 + frame.headerLen + 8 + frame.ciphertextLen

theorem readFrame_spells {frame : Frame} (read : readFrame bytes bytes.length = .ok frame) :
    frame.Spells bytes := by
  simp only [readFrame, bind_eq_ok, ensure_eq_ok, exists_const, mapError_eq_ok] at read
  obtain ⟨-, -, -, magic, -, version, -, -, -, header, decoded, -, long, fits, tagged, exact,
    rest⟩ := read
  obtain rfl := Except.ok.inj rest
  have total : bytes.length =
      10 + ofBigEndian ((bytes.drop 6).take 4) + 8 +
        ofBigEndian ((bytes.drop (10 + ofBigEndian ((bytes.drop 6).take 4))).take 8) := by
    simp only [frameHeadLen, ciphertextLenField] at long fits exact
    omega
  exact ⟨magic, version, rfl, decoded, long, rfl, tagged, total⟩

variable {container : ParsedContainer}

theorem parseContainer_eq_ok (parsed : parseContainer bytes = .ok container) :
    ∃ frame : Frame, frame.Spells bytes ∧ container =
      { header := frame.header, headerBytes := (bytes.drop 10).take frame.headerLen
        ciphertext := bytes.drop (10 + frame.headerLen + 8) } := by
  unfold parseContainer at parsed
  cases read : readFrame bytes bytes.length with
  | ok frame =>
    rw [read] at parsed
    exact ⟨frame, readFrame_spells read, (Except.ok.inj parsed).symm⟩
  | error failure =>
    rw [read] at parsed
    cases failure <;> cases parsed

theorem take_eq_bigEndian {start width value : Nat} (long : start + width ≤ bytes.length)
    (spelled : ofBigEndian ((bytes.drop start).take width) = value) :
    (bytes.drop start).take width = bigEndian width value := by
  have length : ((bytes.drop start).take width).length = width := by
    rw [List.length_take, List.length_drop]
    omega
  have written := bigEndian_ofBigEndian ((bytes.drop start).take width)
  rw [length, spelled] at written
  exact written.symm

theorem bytes_of_parseContainer (parsed : parseContainer bytes = .ok container) :
    bytes = containerBytes container.headerBytes container.ciphertext := by
  obtain ⟨frame, spells, rfl⟩ := parseContainer_eq_ok parsed
  have long := spells.long
  have total := spells.total
  have headerLength : ((bytes.drop 10).take frame.headerLen).length = frame.headerLen := by
    rw [List.length_take, List.length_drop]
    omega
  have ciphertextLength :
      (bytes.drop (10 + frame.headerLen + 8)).length = frame.ciphertextLen := by
    rw [List.length_drop]
    omega
  have version : (bytes.drop 4).take 2 = Writer.u16 containerVersion :=
    take_eq_bigEndian (by omega) spells.version
  have headerLen : (bytes.drop 6).take 4 = bigEndian 4 frame.headerLen :=
    take_eq_bigEndian (by omega) spells.headerLen
  have ciphertextLen :
      (bytes.drop (10 + frame.headerLen)).take 8 = bigEndian 8 frame.ciphertextLen :=
    take_eq_bigEndian (by omega) spells.ciphertextLen
  unfold containerBytes
  rw [headerLength, ciphertextLength, ← headerLen, ← ciphertextLen, ← version, ← spells.magic]
  -- Put the slices together from the right, each with the one that follows it.
  have joined (start width : Nat) :
      bytes.drop start = (bytes.drop start).take width ++ bytes.drop (start + width) := by
    rw [← List.drop_drop, List.take_append_drop]
  rw [← joined (10 + frame.headerLen) 8, ← joined 10 frame.headerLen, ← joined 6 4, ← joined 4 2,
    List.take_append_drop]

end Dohflow.SyncCore
