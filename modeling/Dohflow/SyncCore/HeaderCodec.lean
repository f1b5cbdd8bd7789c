/-
This file proves that a sealed object has one byte form.

`ClearHeader.spelled` is the header's bytes as one expression. The encoder gives
exactly these bytes, and only for a header whose counter and engine version are
in bounds; the decoder takes them back and accepts nothing else. The container
around the header inherits both directions.
-/

import Dohflow.SyncCore.Header

namespace Dohflow.SyncCore

open ByteReader Fallible

namespace ClearHeader

variable {header : ClearHeader} {bytes : List UInt8}

/-! ### The header's bytes -/

/-- What the encoder checks before it writes: the counter is within the cap, and the engine
version is 1 to 64 printable ASCII bytes. -/
structure Encodable (header : ClearHeader) : Prop where
  counter : header.invocationCounter.toNat ≤ maxInvocationCounter
  engineVersion : isValidEngineVersion (utf8 header.engineVersion) = true

theorem encodable_iff :
    header.Encodable ↔ header.invocationCounter.toNat ≤ 2 ^ 32 - 1 ∧
      1 ≤ (utf8 header.engineVersion).length ∧ (utf8 header.engineVersion).length ≤ 64 ∧
      ∀ byte ∈ utf8 header.engineVersion, 0x21 ≤ byte ∧ byte ≤ 0x7e := by
  have valid : isValidEngineVersion (utf8 header.engineVersion) = true ↔
      1 ≤ (utf8 header.engineVersion).length ∧ (utf8 header.engineVersion).length ≤ 64 ∧
      ∀ byte ∈ utf8 header.engineVersion, 0x21 ≤ byte ∧ byte ≤ 0x7e := by
    simp only [isValidEngineVersion, Bool.and_eq_true, decide_eq_true_eq, List.all_eq_true,
      and_assoc]
    exact Iff.rfl
  constructor
  · intro encodable
    exact ⟨encodable.counter, valid.mp encodable.engineVersion⟩
  · rintro ⟨counter, engineVersion⟩
    exact ⟨counter, valid.mpr engineVersion⟩

theorem Encodable.short (encodable : header.Encodable) : (utf8 header.engineVersion).length ≤ 64 :=
  (encodable_iff.mp encodable).2.2.1

/-- The header's fields in order. -/
def spelled (header : ClearHeader) : List UInt8 :=
  Writer.withLabel headerLabel ++ (Writer.u16 protocolVersion ++
    (Writer.fixed header.vaultId ++ (Writer.u64 header.keyEpoch ++
    (Writer.u8 header.objectType ++ (Writer.fixed header.objectId ++
    (Writer.opt Writer.fixed (identityFields header.object).1 ++
    (Writer.opt Writer.fixed (identityFields header.object).2.1 ++
    (Writer.fixed header.deviceId ++ (Writer.fixed header.deviceKeyFingerprint.bytes ++
    (Writer.fixed header.nonceDomain.bytes ++ (Writer.u64 header.invocationCounter ++
    (Writer.u64 header.baseSeq ++ (Writer.u32 header.payloadSchemaVersion ++
    ((bigEndian 4 (utf8 header.engineVersion).length ++ utf8 header.engineVersion) ++
    (Writer.u32 header.schemaVersion ++
    Writer.opt Writer.fixed (identityFields header.object).2.2)))))))))))))))

theorem encode_eq_ok : header.encode = .ok bytes ↔ header.Encodable ∧ bytes = header.spelled := by
  simp only [encode, Writer.text, Writer.bytes, bind_assoc, pure_bind, ensure_bind_eq_ok]
  constructor
  · rintro ⟨counter, engineVersion, -, -, written⟩
    exact ⟨⟨counter, engineVersion⟩, (Except.ok.inj written).symm⟩
  · rintro ⟨encodable, rfl⟩
    have short := encodable.short
    exact ⟨encodable.counter, encodable.engineVersion, short, by omega, rfl⟩

theorem opt_length_le (field : Option Digest) :
    (Writer.opt Writer.fixed field).length ≤ 33 := by
  cases field with
  | none => decide
  | some digest => simp [Writer.opt, Writer.fixed]

theorem spelled_length (encodable : header.Encodable) : header.spelled.length ≤ 400 := by
  have short := encodable.short
  have label : (Writer.withLabel headerLabel).length = 24 := by decide
  have tag := opt_length_le (identityFields header.object).1
  have commitment := opt_length_le (identityFields header.object).2.1
  have manifest := opt_length_le (identityFields header.object).2.2
  have total : header.spelled.length =
      (Writer.opt Writer.fixed (identityFields header.object).1).length +
      (Writer.opt Writer.fixed (identityFields header.object).2.1).length +
      (Writer.opt Writer.fixed (identityFields header.object).2.2).length +
      (utf8 header.engineVersion).length + 147 := by
    simp only [spelled, List.length_append, label, Writer.u16, Writer.u32, Writer.u64, Writer.u8,
      length_fixed, bigEndian_length, List.length_singleton]
    ring
  calc header.spelled.length
      ≤ 33 + 33 + 33 + 64 + 147 := by
        rw [total]
        gcongr
    _ ≤ 400 := by decide

/-! ### The decoder takes back what the encoder gives -/

theorem objectKind_identityFields (header : ClearHeader) :
    objectKind header.objectType (identityFields header.object).1
      (identityFields header.object).2.1 (identityFields header.object).2.2 =
        .ok header.object := by
  unfold objectType
  cases object : header.object with
  | envelope tag commitment manifest => cases manifest <;> rfl
  | snapshot manifest => rfl

theorem reads_label_header : Reads (Reader.label headerLabel) (Writer.withLabel headerLabel) () :=
  reads_label (by decide) (by decide)

theorem decode_spelled (encodable : header.Encodable) : decode header.spelled = .ok header := by
  have short := encodable.short
  refine decode_of_readsAll (reads_label_header.bind_readsAll ?_)
  refine (reads_u16 _).bind_readsAll (ReadsAll.require_bind rfl ?_)
  refine (reads_fixed _).bind_readsAll ((reads_u64 _).bind_readsAll ?_)
  refine (reads_u8 _).bind_readsAll ((reads_fixed _).bind_readsAll ?_)
  refine (reads_opt _ fun _ _ => reads_fixed _).bind_readsAll ?_
  refine (reads_opt _ fun _ _ => reads_fixed _).bind_readsAll ?_
  refine (reads_fixed _).bind_readsAll ((reads_fixed _).bind_readsAll ?_)
  refine (reads_fixed _).bind_readsAll ((reads_u64 _).bind_readsAll ?_)
  refine (reads_u64 _).bind_readsAll ((reads_u32 _).bind_readsAll ?_)
  refine (reads_text short (by omega)).bind_readsAll ((reads_u32 _).bind_readsAll ?_)
  rw [← List.append_nil (Writer.opt Writer.fixed _)]
  refine (reads_opt _ fun _ _ => reads_fixed _).bind_readsAll (readsAll_finish_bind ?_)
  refine ReadsAll.ok_bind (objectKind_identityFields header) ?_
  refine ReadsAll.require_bind encodable.counter ?_
  exact ReadsAll.require_bind encodable.engineVersion (reads_pure header).readsAll

/-! ### The decoder accepts nothing else -/

theorem objectKind_eq_ok {objectType : UInt8} {tag commitment manifest : Option Digest}
    {object : ObjectKind} (made : objectKind objectType tag commitment manifest = .ok object) :
    identityFields object = (tag, commitment, manifest) ∧
      ∀ header : ClearHeader, header.object = object → header.objectType = objectType := by
  unfold objectKind at made
  by_cases isEnvelope : objectType = objectEnvelope
  · rw [if_pos isEnvelope] at made
    cases tag with
    | none => cases made
    | some tag =>
      cases commitment with
      | none => cases made
      | some commitment =>
        obtain rfl := Except.ok.inj made
        refine ⟨?_, fun header object => ?_⟩
        · cases manifest <;> rfl
        · rw [ClearHeader.objectType, object, isEnvelope]
  · rw [if_neg isEnvelope] at made
    by_cases isSnapshot : objectType = objectSnapshot
    · rw [if_pos isSnapshot] at made
      cases tag with
      | some tag => cases made
      | none =>
        cases commitment with
        | some commitment => cases made
        | none =>
          cases manifest with
          | none => cases made
          | some manifest =>
            obtain rfl := Except.ok.inj made
            refine ⟨rfl, fun header object => ?_⟩
            rw [ClearHeader.objectType, object, isSnapshot]
    · rw [if_neg isSnapshot] at made
      cases made

theorem eq_spelled_of_decode (decoded : decode bytes = .ok header) :
    header.Encodable ∧ bytes = header.spelled := by
  obtain ⟨rest, read⟩ := decode_eq_ok decoded
  obtain ⟨_, _, atLabel, read⟩ := ReadsOnly.of_bind (readsOnly_label _) read
  obtain ⟨_, _, atVersion, read⟩ := ReadsOnly.of_bind readsOnly_u16 read
  obtain ⟨isVersion, read⟩ := run_require_bind_eq_ok.mp read
  obtain ⟨vaultId, _, atVault, read⟩ := ReadsOnly.of_bind (readsOnly_fixed 16) read
  obtain ⟨keyEpoch, _, atEpoch, read⟩ := ReadsOnly.of_bind readsOnly_u64 read
  obtain ⟨objectType, _, atType, read⟩ := ReadsOnly.of_bind readsOnly_u8 read
  obtain ⟨objectId, _, atObject, read⟩ := ReadsOnly.of_bind (readsOnly_fixed 16) read
  obtain ⟨tag, _, atTag, read⟩ := ReadsOnly.of_bind (readsOnly_opt (readsOnly_fixed 32)) read
  obtain ⟨commitment, _, atCommitment, read⟩ :=
    ReadsOnly.of_bind (readsOnly_opt (readsOnly_fixed 32)) read
  obtain ⟨deviceId, _, atDevice, read⟩ := ReadsOnly.of_bind (readsOnly_fixed 16) read
  obtain ⟨fingerprint, _, atFingerprint, read⟩ := ReadsOnly.of_bind (readsOnly_fixed 32) read
  obtain ⟨nonceDomain, _, atDomain, read⟩ := ReadsOnly.of_bind (readsOnly_fixed 4) read
  obtain ⟨counter, _, atCounter, read⟩ := ReadsOnly.of_bind readsOnly_u64 read
  obtain ⟨baseSeq, _, atBase, read⟩ := ReadsOnly.of_bind readsOnly_u64 read
  obtain ⟨payload, _, atPayload, read⟩ := ReadsOnly.of_bind readsOnly_u32 read
  obtain ⟨engine, _, engineRead, read⟩ := run_bind_eq_ok.mp read
  obtain ⟨-, -, atEngine⟩ := run_text_eq_ok engineRead
  obtain ⟨schema, _, atSchema, read⟩ := ReadsOnly.of_bind readsOnly_u32 read
  obtain ⟨manifest, _, atManifest, read⟩ :=
    ReadsOnly.of_bind (readsOnly_opt (readsOnly_fixed 32)) read
  obtain ⟨_, _, finished, read⟩ := run_bind_eq_ok.mp read
  obtain ⟨atEnd, -⟩ := run_finish_eq_ok.mp finished
  obtain ⟨object, made, read⟩ := run_liftM_bind_eq_ok.mp read
  obtain ⟨capped, read⟩ := run_require_bind_eq_ok.mp read
  obtain ⟨valid, read⟩ := run_require_bind_eq_ok.mp read
  obtain ⟨rfl, -⟩ := run_pure_eq_ok.mp read
  obtain ⟨fields, typed⟩ := objectKind_eq_ok made
  have isType := typed ⟨vaultId, keyEpoch, object, objectId, deviceId, ⟨fingerprint⟩,
    ⟨nonceDomain⟩, counter, baseSeq, payload, engine, schema⟩ rfl
  refine ⟨⟨capped, valid⟩, ?_⟩
  rw [atLabel, atVersion, isVersion, atVault, atEpoch, atType, atObject, atTag, atCommitment, atDevice,
    atFingerprint, atDomain, atCounter, atBase, atPayload, atEngine, atSchema, atManifest, atEnd,
    spelled, isType, fields]
  simp only [List.append_assoc, List.append_nil]

end ClearHeader

/-! ### The container -/

variable {header : ClearHeader} {ciphertext bytes : List UInt8}

theorem encodeContainer_eq_ok :
    encodeContainer header ciphertext = .ok bytes ↔
      header.Encodable ∧ ciphertext.length < 2 ^ 64 ∧
        bytes = containerBytes header.spelled ciphertext := by
  simp only [encodeContainer, bind_eq_ok, ensure_eq_ok, exists_const, ClearHeader.encode_eq_ok]
  constructor
  · rintro ⟨_, ⟨encodable, rfl⟩, -, small, written⟩
    exact ⟨encodable, small, (Except.ok.inj written).symm⟩
  · rintro ⟨encodable, small, rfl⟩
    have short := ClearHeader.spelled_length encodable
    exact ⟨_, ⟨encodable, rfl⟩, by omega, small, rfl⟩

theorem drop_take_append {before slice rest : List UInt8} {start width : Nat}
    (starts : before.length = start) (wide : slice.length = width) :
    ((before ++ (slice ++ rest)).drop start).take width = slice := by
  rw [List.drop_left' starts, List.take_left' wide]

theorem magic_length : containerMagic.length = 4 := by decide

theorem version_length : (Writer.u16 containerVersion).length = 2 := bigEndian_length 2 _

section Slices

variable (headerBytes ciphertext)

theorem headerBytes_containerBytes :
    ((containerBytes headerBytes ciphertext).drop 10).take headerBytes.length = headerBytes := by
  rw [containerBytes, ← List.append_assoc, ← List.append_assoc, drop_take_append _ rfl]
  simp [magic_length, version_length]

theorem ciphertext_containerBytes :
    (containerBytes headerBytes ciphertext).drop (10 + headerBytes.length + 8) = ciphertext := by
  rw [containerBytes]
  simp only [← List.append_assoc]
  refine List.drop_left' ?_
  simp only [List.length_append, magic_length, version_length, bigEndian_length]

theorem containerBytes_length : (containerBytes headerBytes ciphertext).length =
    10 + headerBytes.length + 8 + ciphertext.length := by
  simp only [containerBytes, List.length_append, magic_length, version_length, bigEndian_length]
  omega

end Slices

variable {headerBytes : List UInt8}

theorem spells_containerBytes (small : headerBytes.length < 2 ^ 32)
    (slice : ciphertext.length < 2 ^ 64) (tagged : 16 ≤ ciphertext.length)
    (decoded : ClearHeader.decode headerBytes = .ok header) :
    (⟨header, headerBytes.length, ciphertext.length⟩ : Frame).Spells
      (containerBytes headerBytes ciphertext) where
  magic := List.take_left' magic_length
  version := by
    rw [containerBytes, drop_take_append magic_length version_length]
    decide
  headerLen := by
    rw [containerBytes, ← List.append_assoc, drop_take_append (by simp [magic_length,
      version_length]) (bigEndian_length 4 _), ofBigEndian_bigEndian]
    exact Nat.mod_eq_of_lt small
  header := by rw [headerBytes_containerBytes, decoded]
  long := by
    rw [containerBytes_length]
    exact Nat.le_add_right _ _
  ciphertextLen := by
    rw [containerBytes, ← List.append_assoc, ← List.append_assoc, ← List.append_assoc,
      drop_take_append (by simp [magic_length, version_length]; omega) (bigEndian_length 8 _),
      ofBigEndian_bigEndian]
    exact Nat.mod_eq_of_lt slice
  tagged := tagged
  total := containerBytes_length _ _

theorem Frame.Spells.readFrame_eq {frame : Frame} (spells : frame.Spells bytes) :
    readFrame bytes bytes.length = .ok frame := by
  have frameHead : frameHeadLen = 10 := rfl
  have lengthField : ciphertextLenField = 8 := rfl
  have least : minCiphertextLen = 16 := rfl
  have version : containerVersion.toNat = 1 := rfl
  have long := spells.long
  have tagged := spells.tagged
  have total := spells.total
  simp only [readFrame, bind_eq_ok, ensure_eq_ok, exists_const, mapError_eq_ok, frameHead,
    lengthField, magic_length, least, version, spells.magic, spells.version, spells.headerLen,
    spells.header, spells.ciphertextLen]
  exact ⟨le_refl _, .inl (by omega), by omega, trivial, by omega, trivial, by omega, by omega,
    by omega, _, rfl, by omega, by omega, by omega, tagged, by omega, rfl⟩

theorem parseContainer_containerBytes (small : headerBytes.length < 2 ^ 32)
    (slice : ciphertext.length < 2 ^ 64) (tagged : 16 ≤ ciphertext.length)
    (decoded : ClearHeader.decode headerBytes = .ok header) :
    parseContainer (containerBytes headerBytes ciphertext) =
      .ok { header, headerBytes, ciphertext } := by
  unfold parseContainer
  rw [(spells_containerBytes small slice tagged decoded).readFrame_eq]
  refine congrArg Except.ok (ParsedContainer.mk.injEq .. |>.mpr ⟨rfl, ?_, ?_⟩)
  · exact headerBytes_containerBytes ciphertext headerBytes
  · exact ciphertext_containerBytes ciphertext headerBytes

/-- Every sealed object has one byte form: what the encoder gives parses as what it was given, and
what parses is what the encoder gives. -/
theorem container_has_one_form :
    (∀ (header : ClearHeader) (ciphertext : List UInt8), 16 ≤ ciphertext.length →
      ciphertext.length < 2 ^ 64 →
      ((∃ bytes, encodeContainer header ciphertext = .ok bytes) ↔
        header.invocationCounter.toNat ≤ 2 ^ 32 - 1 ∧
          1 ≤ (utf8 header.engineVersion).length ∧ (utf8 header.engineVersion).length ≤ 64 ∧
          ∀ byte ∈ utf8 header.engineVersion, 0x21 ≤ byte ∧ byte ≤ 0x7e) ∧
      ∀ bytes, encodeContainer header ciphertext = .ok bytes →
        ∃ headerBytes, header.encode = .ok headerBytes ∧
          parseContainer bytes = .ok { header, headerBytes, ciphertext }) ∧
    ∀ (bytes : List UInt8) (container : ParsedContainer),
      parseContainer bytes = .ok container →
      encodeContainer container.header container.ciphertext = .ok bytes ∧
        container.header.encode = .ok container.headerBytes := by
  refine ⟨fun header ciphertext tagged slice => ⟨?_, fun bytes encoded => ?_⟩,
    fun bytes container parsed => ?_⟩
  · rw [← ClearHeader.encodable_iff]
    constructor
    · rintro ⟨bytes, encoded⟩
      exact (encodeContainer_eq_ok.mp encoded).1
    · intro encodable
      exact ⟨_, encodeContainer_eq_ok.mpr ⟨encodable, slice, rfl⟩⟩
  · obtain ⟨encodable, -, rfl⟩ := encodeContainer_eq_ok.mp encoded
    have short := ClearHeader.spelled_length encodable
    exact ⟨_, ClearHeader.encode_eq_ok.mpr ⟨encodable, rfl⟩,
      parseContainer_containerBytes (by omega) slice tagged (ClearHeader.decode_spelled encodable)⟩
  · obtain ⟨frame, spells, rfl⟩ := parseContainer_eq_ok parsed
    obtain ⟨encodable, isSpelled⟩ := ClearHeader.eq_spelled_of_decode spells.header
    have whole := bytes_of_parseContainer parsed
    have slice : (bytes.drop (10 + frame.headerLen + 8)).length < 2 ^ 64 := by
      have bound := ofBigEndian_lt ((bytes.drop (10 + frame.headerLen)).take 8)
      have long := spells.long
      have total := spells.total
      rw [spells.ciphertextLen, List.length_take, List.length_drop] at bound
      rw [List.length_drop]
      have width : min 8 (bytes.length - (10 + frame.headerLen)) = 8 := by omega
      rw [width] at bound
      omega
    refine ⟨encodeContainer_eq_ok.mpr ⟨encodable, slice, ?_⟩,
      ClearHeader.encode_eq_ok.mpr ⟨encodable, isSpelled⟩⟩
    rw [← isSpelled]
    exact whole

end Dohflow.SyncCore
