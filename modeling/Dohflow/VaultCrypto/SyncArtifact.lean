/-
This file models sealing, opening and re-addressing artifacts, and proves that an
artifact survives them.

An artifact is sealed under a key of its own address and a fixed nonce, so what is sealed
under an address must never change; a stored digest holds every later seal to it. A new
epoch gives an artifact a new address, which follows from the last one, and a member seals it
again from a copy of its own or from the object the service holds. Both give the same object.

HKDF, HMAC-SHA256 and AES-256-GCM are not this repository's. The cipher is asked for what it
documents: it takes messages up to `2^36` bytes, adds a tag of 16 bytes, and opens what it
sealed.
-/

import Dohflow.SyncCore.Artifact
import Dohflow.SyncCore.TransportPlaintext
import Dohflow.VaultCrypto.EnvelopeVerdicts

namespace Dohflow.VaultCrypto

open ByteReader Fallible SyncCore ArtifactClosure

def readdressLabel : String := "dohflow/sync-artifact-readdress/v1"

def artifactObjectLabel : String := "dohflow/sync-artifact-object/v1"

/-- The nonce of every artifact object. -/
def zeroNonce : List UInt8 := List.replicate 12 0

/-- What AES-256-GCM documents of itself. -/
structure Aead.IsAesGcm (aead : Aead) : Prop where
  encrypts : ∀ key nonce aad message, nonce.length = 12 → aad.length ≤ 2 ^ 36 →
    message.length ≤ 2 ^ 36 → (aead.encrypt key nonce aad message).isSome = true
  tagged : ∀ key nonce aad message ciphertext,
    aead.encrypt key nonce aad message = some ciphertext → ciphertext.length = message.length + 16
  opens : ∀ key nonce aad message ciphertext,
    aead.encrypt key nonce aad message = some ciphertext →
      aead.decrypt key nonce aad ciphertext = some message

/-! ### Sealing and opening -/

/-- Whether a seal is the first for an address or must reproduce what was sealed before. -/
inductive Fixity
  | first
  | expected (digest : Digest)

/-- The digest is one the fixity lets be sealed. -/
def Fixity.Allows (fixity : Fixity) (digest : Digest) : Prop :=
  match fixity with
  | .first => True
  | .expected stored => stored = digest

instance decidableAllows (fixity : Fixity) (digest : Digest) : Decidable (fixity.Allows digest) :=
  match fixity with
  | .first => inferInstanceAs (Decidable True)
  | .expected stored => inferInstanceAs (Decidable (stored = digest))

/-- Why an artifact was not sealed. -/
inductive SealArtifactError
  | artifactDescriptorChanged
  | format (error : TransportError)
  | containerTooLarge
  | encryption

structure SealedArtifact where
  container : List UInt8
  receipt : ArtifactReceipt
  plaintextDigest : Digest

/-- Why an artifact was not opened. -/
inductive OpenArtifactError
  | container (error : Artifact.ArtifactError)
  | notOpenable
  | plaintext (error : TransportError)
  | wrongAddress

/-- Why an artifact was not re-addressed. -/
inductive ReaddressError
  | notTheNextEpoch
  | open (error : OpenArtifactError)
  | localCopyDiffers
  | seal (error : SealArtifactError)

/-- An artifact resealed for the next epoch. -/
structure Readdressed where
  artifactId : ArtifactId
  sealed : SealedArtifact

/-- A decrypted artifact, whose bytes are those of a plaintext. -/
structure OpenedArtifact (crypto : Crypto) (toVec : Canonicalizer) where
  bytes : List UInt8
  decodes : (TransportPlaintext.decode crypto toVec bytes).isOk = true

/-- The plaintext of an opened artifact. Its bytes were decoded when it was opened. -/
def OpenedArtifact.plaintext {crypto : Crypto} {toVec : Canonicalizer}
    (opened : OpenedArtifact crypto toVec) : TransportPlaintext :=
  match held : TransportPlaintext.decode crypto toVec opened.bytes with
  | .ok plaintext => plaintext
  | .error _ => absurd opened.decodes (by rw [held]; exact Bool.false_ne_true)

section

variable (crypto : Crypto) (toVec : Canonicalizer) (aead : Aead)
  (hmacSha256 : SecretBytes → List UInt8 → Digest)

/-- The id of an artifact in the next key-changing epoch. -/
def readdressId (nextKey : EpochKey) (previous : ArtifactId) : ArtifactId :=
  hmacSha256 (aead.expand nextKey.bytes (Writer.withLabel readdressLabel ++
    (Writer.fixed nextKey.vaultId ++ Writer.u64 nextKey.keyEpoch))) (Writer.fixed previous)

/-- The key of one artifact's object. -/
def objectKey (key : EpochKey) (id : ArtifactId) : SecretBytes :=
  aead.expand key.bytes (Writer.withLabel artifactObjectLabel ++ (Writer.u16 protocolVersion ++
    (Writer.fixed key.vaultId ++ (Writer.u64 key.keyEpoch ++ Writer.fixed id))))

/-- Seal a plaintext under a key's epoch and its own address. -/
def sealArtifact (key : EpochKey) (plaintext : TransportPlaintext) (fixity : Fixity) :
    Except SealArtifactError SealedArtifact := do
  let encoded ← (plaintext.encode crypto toVec).mapError .format
  let digest := crypto.sha256 encoded
  ensure (fixity.Allows digest) .artifactDescriptorChanged
  -- The frame and the tag are added to the plaintext, so the size is known before it is sealed.
  ensure (encoded.length + 16 + 14 ≤ maxArtifactContainer) .containerTooLarge
  let id := plaintext.artifactId
  let aad := artifactAad key.vaultId key.keyEpoch id
  let ciphertext ←
    orFail .encryption (aead.encrypt (objectKey aead key id) zeroNonce aad encoded)
  return {
    container := Artifact.encodeContainer ciphertext
    receipt := ArtifactReceipt.forCiphertext crypto key.vaultId key.keyEpoch id ciphertext
    plaintextDigest := digest }

/-- Open a container as the artifact at an address: the key and the authenticated data come from the
expected address, and the plaintext must name it. -/
def openArtifact (key : EpochKey) (expectedId : ArtifactId) (container : List UInt8) (maxLen : Nat) :
    Except OpenArtifactError (OpenedArtifact crypto toVec) := do
  let ciphertext ← (Artifact.parseContainer container maxLen).mapError .container
  let aad := artifactAad key.vaultId key.keyEpoch expectedId
  let bytes ←
    orFail .notOpenable (aead.decrypt (objectKey aead key expectedId) zeroNonce aad ciphertext)
  match held : TransportPlaintext.decode crypto toVec bytes with
  | .error error => .error (.plaintext error)
  | .ok plaintext =>
    if plaintext.artifactId = expectedId then .ok ⟨bytes, by rw [held]; rfl⟩
    else .error .wrongAddress

/-! ### Re-addressing -/

def requireNextEpoch (oldKey newKey : EpochKey) : Except ReaddressError Unit :=
  ensure (oldKey.vaultId = newKey.vaultId ∧
    oldKey.keyEpoch.toNat + 1 = newKey.keyEpoch.toNat) .notTheNextEpoch

def resealForNextEpoch (newKey : EpochKey) (oldId : ArtifactId) (plaintext : TransportPlaintext)
    (fixity : Fixity) : Except ReaddressError Readdressed := do
  let artifactId := readdressId aead hmacSha256 newKey oldId
  let sealed ←
    (sealArtifact crypto toVec aead newKey { plaintext with artifactId } fixity).mapError .seal
  return { artifactId, sealed }

/-- Re-address an artifact from a local copy, when that is what was published. -/
def readdressPlaintext (oldKey newKey : EpochKey) (oldId : ArtifactId)
    (plaintext : TransportPlaintext) (expectedPrevious : Digest) (fixity : Fixity) :
    Except ReaddressError Readdressed := do
  requireNextEpoch oldKey newKey
  ensure (plaintext.artifactId = oldId ∧
    plaintext.digest crypto toVec = .ok expectedPrevious) .localCopyDiffers
  resealForNextEpoch crypto toVec aead hmacSha256 newKey oldId plaintext fixity

/-- Re-address an artifact from the object that the service holds. -/
def readdressContainer (oldKey newKey : EpochKey) (oldId : ArtifactId) (oldContainer : List UInt8)
    (fixity : Fixity) : Except ReaddressError Readdressed := do
  requireNextEpoch oldKey newKey
  let opened ←
    (openArtifact crypto toVec aead oldKey oldId oldContainer maxArtifactContainer).mapError .open
  resealForNextEpoch crypto toVec aead hmacSha256 newKey oldId opened.plaintext fixity

end

/-! ### What is sealed opens -/

variable {crypto : Crypto} {toVec : Canonicalizer} {aead : Aead}
  {hmacSha256 : SecretBytes → List UInt8 → Digest}

/-- What a seal gives for a ciphertext. -/
def sealedOf (crypto : Crypto) (key : EpochKey) (plaintext : TransportPlaintext)
    (ciphertext : List UInt8) : SealedArtifact :=
  { container := Artifact.encodeContainer ciphertext
    receipt := ArtifactReceipt.forCiphertext crypto key.vaultId key.keyEpoch plaintext.artifactId
      ciphertext
    plaintextDigest := crypto.sha256 (plaintext.written crypto) }

theorem sealArtifact_eq_ok {key : EpochKey} {plaintext : TransportPlaintext} {fixity : Fixity}
    {sealed : SealedArtifact} :
    sealArtifact crypto toVec aead key plaintext fixity = .ok sealed ↔
      plaintext.Encodable toVec ∧ fixity.Allows (crypto.sha256 (plaintext.written crypto)) ∧
      (plaintext.written crypto).length + 16 + 14 ≤ maxArtifactContainer ∧
      ∃ ciphertext, aead.encrypt (objectKey aead key plaintext.artifactId) zeroNonce
          (artifactAad key.vaultId key.keyEpoch plaintext.artifactId) (plaintext.written crypto) =
            some ciphertext ∧ sealedOf crypto key plaintext ciphertext = sealed := by
  simp only [sealArtifact, bind_eq_ok, ensure_eq_ok, exists_const, mapError_eq_ok,
    TransportPlaintext.encode_eq_ok]
  constructor
  · rintro ⟨_, ⟨encodable, rfl⟩, allowed, fits, ciphertext, encrypted, made⟩
    exact ⟨encodable, allowed, fits, ciphertext, orFail_eq_ok.mp encrypted, Except.ok.inj made⟩
  · rintro ⟨encodable, allowed, fits, ciphertext, encrypted, rfl⟩
    exact ⟨_, ⟨encodable, rfl⟩, allowed, fits, ciphertext, orFail_eq_ok.mpr encrypted, rfl⟩

theorem OpenedArtifact.plaintext_eq {opened : OpenedArtifact crypto toVec}
    {plaintext : TransportPlaintext}
    (decoded : TransportPlaintext.decode crypto toVec opened.bytes = .ok plaintext) :
    opened.plaintext = plaintext := by
  unfold OpenedArtifact.plaintext
  split
  · next found held => exact Except.ok.inj (held.symm.trans decoded)
  · next error held => cases held.symm.trans decoded

section

variable (gcm : aead.IsAesGcm)
variable {plaintext : TransportPlaintext} {sealed : SealedArtifact} {fixity : Fixity}
  {key : EpochKey}

include gcm

theorem length_container
    (sealing : sealArtifact crypto toVec aead key plaintext fixity = .ok sealed) :
    sealed.container.length ≤ maxArtifactContainer := by
  obtain ⟨-, -, fits, ciphertext, encrypted, rfl⟩ := sealArtifact_eq_ok.mp sealing
  have tagged := gcm.tagged _ _ _ _ _ encrypted
  have frame : Artifact.containerFrameLen = 14 := rfl
  show (Artifact.encodeContainer ciphertext).length ≤ maxArtifactContainer
  rw [Artifact.length_encodeContainer]
  omega

theorem openArtifact_of_seal
    (sealing : sealArtifact crypto toVec aead key plaintext fixity = .ok sealed) {maxLen : Nat}
    (fitting : sealed.container.length ≤ maxLen) :
    ∃ opened, openArtifact crypto toVec aead key plaintext.artifactId sealed.container maxLen =
      .ok opened ∧ opened.plaintext = plaintext := by
  obtain ⟨encodable, -, fits, ciphertext, encrypted, rfl⟩ := sealArtifact_eq_ok.mp sealing
  have tagged := gcm.tagged _ _ _ _ _ encrypted
  have bounds : maxArtifactContainer = 67108864 ∧ Artifact.minCiphertextLen = 16 := ⟨rfl, rfl⟩
  have parsed : Artifact.parseContainer (sealedOf crypto key plaintext ciphertext).container maxLen =
      .ok ciphertext :=
    Artifact.parseContainer_encodeContainer (by omega) (by omega)
      (by rwa [← Artifact.length_encodeContainer])
  have decoded : TransportPlaintext.decode crypto toVec (plaintext.written crypto) = .ok plaintext :=
    TransportPlaintext.decode_of_encode (TransportPlaintext.encode_eq_ok.mpr ⟨encodable, rfl⟩)
  refine ⟨⟨plaintext.written crypto, by rw [decoded]; rfl⟩, ?_,
    OpenedArtifact.plaintext_eq decoded⟩
  unfold openArtifact
  rw [parsed]
  show (orFail _ (aead.decrypt _ _ _ ciphertext) >>= _) = _
  rw [gcm.opens _ _ _ _ _ encrypted, orFail, ok_bind]
  split
  · next error held => cases held.symm.trans decoded
  · next found held =>
    obtain rfl := Except.ok.inj (held.symm.trans decoded)
    exact if_pos rfl

theorem exists_sealed_part (emits : EmitsRfc8785 toVec) {batch : SourceParts.SourceBatch}
    {parts : List SourceParts.Part} (passed : SourceParts.split toVec batch = .ok parts)
    {part : SourceParts.Part} (member : part ∈ parts) (key : EpochKey) (artifactId : ArtifactId) :
    ∃ sealed, sealArtifact crypto toVec aead key (Part.plaintext part artifactId) .first =
      .ok sealed := by
  obtain ⟨encodable, fits⟩ := @encodable_part crypto _ emits _ _ passed _ member artifactId
  have bound : maxArtifactContainer = 67108864 := rfl
  have aadShort (id : ArtifactId) : (artifactAad key.vaultId key.keyEpoch id).length ≤ 2 ^ 36 := by
    have label : (Writer.withLabel artifactAadLabel).length = 30 := by decide +kernel
    have version : (Writer.u16 protocolVersion).length = 2 := rfl
    simp only [artifactAad, List.length_append, label, version, length_fixed, Writer.u64,
      bigEndian_length]
    omega
  obtain ⟨ciphertext, encrypted⟩ := Option.isSome_iff_exists.mp
    (gcm.encrypts (objectKey aead key artifactId) zeroNonce
      (artifactAad key.vaultId key.keyEpoch artifactId) _ (List.length_replicate ..)
      (aadShort artifactId) (show ((Part.plaintext part artifactId).written crypto).length ≤ 2 ^ 36 by
        omega))
  exact ⟨_, sealArtifact_eq_ok.mpr ⟨encodable, trivial, by omega, ciphertext, encrypted, rfl⟩⟩

/-! ### Two routes to one object -/

theorem readdress_agrees {oldKey newKey : EpochKey} {published copy : TransportPlaintext}
    {firstFixity fixity : Fixity} {sealed : SealedArtifact}
    (publishing : sealArtifact crypto toVec aead oldKey published firstFixity = .ok sealed)
    (collisionFree : crypto.sha256 (copy.written crypto) = crypto.sha256 (published.written crypto) →
      copy.written crypto = published.written crypto)
    (sameAddress : copy.artifactId = published.artifactId)
    (sameDigest : copy.digest crypto toVec = .ok sealed.plaintextDigest) :
    readdressPlaintext crypto toVec aead hmacSha256 oldKey newKey published.artifactId copy
        sealed.plaintextDigest fixity =
      readdressContainer crypto toVec aead hmacSha256 oldKey newKey published.artifactId
        sealed.container fixity := by
  obtain ⟨opened, opens, plaintext_eq⟩ :=
    openArtifact_of_seal gcm publishing (length_container gcm publishing)
  obtain ⟨encodable, -, -, ciphertext, -, rfl⟩ := sealArtifact_eq_ok.mp publishing
  obtain ⟨bytes, encoded, digested⟩ := bind_eq_ok.mp sameDigest
  obtain ⟨copyEncodable, rfl⟩ := TransportPlaintext.encode_eq_ok.mp encoded
  have sameBytes := collisionFree (Except.ok.inj digested)
  have decoded := TransportPlaintext.decode_of_encode encoded
  rw [sameBytes, TransportPlaintext.decode_of_encode
    (TransportPlaintext.encode_eq_ok.mpr ⟨encodable, rfl⟩)] at decoded
  obtain rfl := Except.ok.inj decoded
  unfold readdressPlaintext readdressContainer
  rw [opens, ensure_of ⟨rfl, sameDigest⟩]
  show _ = (requireNextEpoch oldKey newKey >>= fun _ =>
    resealForNextEpoch crypto toVec aead hmacSha256 newKey _ opened.plaintext fixity)
  rw [plaintext_eq]
  rfl

end

/-! ### Artifacts survive -/

/-- Artifacts survive sealing and re-addressing. What is sealed opens at its address to what was
sealed; a plaintext is decoded from its canonical bytes and no others; every part of a source batch
can be sealed; and a member with a copy of what was published and one that fetches it seal one object
for the next epoch, unless SHA-256 gives the copy the digest of other bytes. -/
structure ArtifactsSurvive (crypto : Crypto) (toVec : Canonicalizer) (aead : Aead)
    (hmacSha256 : SecretBytes → List UInt8 → Digest) : Prop where
  reopens : ∀ key plaintext fixity sealed,
    sealArtifact crypto toVec aead key plaintext fixity = .ok sealed →
      sealed.container.length ≤ maxArtifactContainer ∧
      ∀ maxLen, sealed.container.length ≤ maxLen → ∃ opened,
        openArtifact crypto toVec aead key plaintext.artifactId sealed.container maxLen =
          .ok opened ∧ opened.plaintext = plaintext
  oneSpelling : ∀ plaintext bytes, TransportPlaintext.encode crypto toVec plaintext = .ok bytes ↔
    TransportPlaintext.decode crypto toVec bytes = .ok plaintext
  partsSealable : ∀ batch parts, SourceParts.split toVec batch = .ok parts → ∀ part ∈ parts,
    ∀ key artifactId, ∃ sealed,
      sealArtifact crypto toVec aead key (Part.plaintext part artifactId) .first = .ok sealed
  routesAgree : ∀ oldKey newKey published firstFixity sealed copy fixity,
    sealArtifact crypto toVec aead oldKey published firstFixity = .ok sealed →
    (∀ bytes others, TransportPlaintext.encode crypto toVec copy = .ok bytes →
      TransportPlaintext.encode crypto toVec published = .ok others →
      crypto.sha256 bytes = crypto.sha256 others → bytes = others) →
    (∀ readdressed, readdressPlaintext crypto toVec aead hmacSha256 oldKey newKey
        published.artifactId copy sealed.plaintextDigest fixity = .ok readdressed →
      readdressContainer crypto toVec aead hmacSha256 oldKey newKey published.artifactId
        sealed.container fixity = .ok readdressed) ∧
    (copy.artifactId = published.artifactId →
      copy.digest crypto toVec = .ok sealed.plaintextDigest →
      readdressPlaintext crypto toVec aead hmacSha256 oldKey newKey published.artifactId copy
          sealed.plaintextDigest fixity =
        readdressContainer crypto toVec aead hmacSha256 oldKey newKey published.artifactId
          sealed.container fixity)

/-- Artifacts survive sealing and re-addressing, with a canonicalizer that gives the RFC 8785 text and
a cipher that is AES-256-GCM. -/
theorem artifacts_survive (emits : EmitsRfc8785 toVec) (gcm : aead.IsAesGcm) :
    ArtifactsSurvive crypto toVec aead hmacSha256 where
  reopens _ _ _ _ sealing :=
    ⟨length_container gcm sealing, fun _ fitting => openArtifact_of_seal gcm sealing fitting⟩
  oneSpelling _ _ := ⟨TransportPlaintext.decode_of_encode, TransportPlaintext.encode_of_decode⟩
  partsSealable _ _ passed _ member key artifactId :=
    exists_sealed_part gcm emits passed member key artifactId
  routesAgree oldKey newKey published firstFixity sealed copy fixity publishing collisionFree := by
    have agree (sameAddress : copy.artifactId = published.artifactId)
        (sameDigest : copy.digest crypto toVec = .ok sealed.plaintextDigest) :=
      @readdress_agrees crypto toVec aead hmacSha256 gcm oldKey newKey published copy firstFixity
        fixity sealed publishing (fun same => by
          obtain ⟨bytes, encoded, -⟩ := bind_eq_ok.mp sameDigest
          obtain ⟨-, rfl⟩ := TransportPlaintext.encode_eq_ok.mp encoded
          obtain ⟨encodable, -⟩ := sealArtifact_eq_ok.mp publishing
          exact collisionFree _ _ encoded
            (TransportPlaintext.encode_eq_ok.mpr ⟨encodable, rfl⟩) same)
        sameAddress sameDigest
    refine ⟨fun readdressed taken => ?_, agree⟩
    obtain ⟨_, -, checked⟩ := bind_eq_ok.mp taken
    obtain ⟨⟨sameAddress, sameDigest⟩, -⟩ := ensure_bind_eq_ok.mp checked
    rw [← agree sameAddress sameDigest]
    exact taken

theorem isAesGcm_plainAead : plainAead.IsAesGcm where
  encrypts _ _ _ _ _ _ _ := rfl
  tagged _ _ _ message ciphertext encrypted := by
    obtain rfl := Option.some.inj encrypted
    rw [List.length_append, List.length_replicate]
  opens _ _ _ message ciphertext encrypted := by
    obtain rfl := Option.some.inj encrypted
    show some (List.take _ _) = _
    rw [List.length_append, List.length_replicate, Nat.add_sub_cancel, List.take_left' rfl]

/-- A stand-in for HMAC. -/
def sampleHmac (key : SecretBytes) (message : List UInt8) : Digest :=
  sampleCrypto.sha256 (key.toList ++ message)

/-- The one part of the sample batch is sealed, opened, and taken to the next epoch on both
routes. -/
theorem artifacts_survive_of_sampleBatch :
    ∃ part sealed opened readdressed,
      SourceParts.split rfc8785 SourceParts.sampleBatch = .ok [part] ∧
      sealArtifact sampleCrypto rfc8785 plainAead (sampleKey 0)
        (Part.plaintext part (.replicate 32 7)) .first = .ok sealed ∧
      openArtifact sampleCrypto rfc8785 plainAead (sampleKey 0) (.replicate 32 7) sealed.container
        maxArtifactContainer = .ok opened ∧
      opened.plaintext = Part.plaintext part (.replicate 32 7) ∧
      readdressPlaintext sampleCrypto rfc8785 plainAead sampleHmac (sampleKey 0) (sampleKey 1)
        (.replicate 32 7) opened.plaintext sealed.plaintextDigest .first = .ok readdressed ∧
      readdressContainer sampleCrypto rfc8785 plainAead sampleHmac (sampleKey 0) (sampleKey 1)
        (.replicate 32 7) sealed.container .first = .ok readdressed := by
  have survive := @artifacts_survive sampleCrypto rfc8785 plainAead sampleHmac
    emitsRfc8785_rfc8785 isAesGcm_plainAead
  obtain ⟨part, passed⟩ := SourceParts.exists_split_sampleBatch
  have member := List.mem_singleton_self part
  obtain ⟨sealed, sealing⟩ :=
    survive.partsSealable _ _ passed part member (sampleKey 0) (.replicate 32 7)
  obtain ⟨stored, openable⟩ := survive.reopens _ _ _ _ sealing
  obtain ⟨opened, opens, same⟩ := openable maxArtifactContainer stored
  obtain ⟨resealed, resealing⟩ := survive.partsSealable _ _ passed part member (sampleKey 1)
    (readdressId plainAead sampleHmac (sampleKey 1) (.replicate 32 7))
  have digested : (Part.plaintext part (.replicate 32 7)).digest sampleCrypto rfc8785 =
      .ok sealed.plaintextDigest := by
    obtain ⟨encodable, -, -, ciphertext, -, rfl⟩ := sealArtifact_eq_ok.mp sealing
    exact bind_eq_ok.mpr ⟨_, TransportPlaintext.encode_eq_ok.mpr ⟨encodable, rfl⟩, rfl⟩
  have next : requireNextEpoch (sampleKey 0) (sampleKey 1) = .ok () := ensure_of (by decide) _
  have fromCopy : readdressPlaintext sampleCrypto rfc8785 plainAead sampleHmac (sampleKey 0)
      (sampleKey 1) (.replicate 32 7) (Part.plaintext part (.replicate 32 7))
      sealed.plaintextDigest .first =
        .ok ⟨readdressId plainAead sampleHmac (sampleKey 1) (.replicate 32 7), resealed⟩ := by
    unfold readdressPlaintext
    rw [next, ok_bind, ensure_of ⟨rfl, digested⟩, ok_bind]
    show ((sealArtifact sampleCrypto rfc8785 plainAead (sampleKey 1) (Part.plaintext part
      (readdressId plainAead sampleHmac (sampleKey 1) (.replicate 32 7))) .first).mapError
        ReaddressError.seal >>= _) = _
    rw [resealing]
    rfl
  have fromObject := (survive.routesAgree (sampleKey 0) (sampleKey 1) _ .first sealed
    (Part.plaintext part (.replicate 32 7)) .first sealing (fun bytes others encoded published _ =>
      Except.ok.inj (encoded.symm.trans published))).1 _ fromCopy
  exact ⟨part, sealed, opened, _, passed, sealing, opens, same, same.symm ▸ fromCopy, fromObject⟩

end Dohflow.VaultCrypto
