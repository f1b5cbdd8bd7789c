/-
This file proves what a genesis carries.

A genesis that was built is one its own keys accept: the walk yields exactly one epoch
key, of key epoch 1, and the tag secret (`createGenesisWith_carries`). Where the key
libraries do what they document, a genesis can be built from any keys and any two fresh
secrets (`exists_createGenesisWith`).
-/

import Dohflow.VaultCrypto.SyncRecords

namespace Dohflow.VaultCrypto

open ByteReader Fallible SyncCore

variable {crypto : Crypto} {device : DeviceCrypto} {keys : DeviceKeys} {vaultId deviceId : Uuid}
  {issuedAt : Int64}
variable {entry : Recipient} {record : SignedRecord} {bytes : List UInt8} {tagSecret : TagSecret}
  {body : EpochBody} {epochKey : EpochKey} {position : Nat}

/-- What a device unseals from its genesis. -/
structure Carried where
  recordId : Digest
  epochKey : SecretBytes
  tagSecret : SecretBytes

/-- The acceptance that yields it. -/
def Carried.accepted (carried : Carried) (vaultId : Uuid) (state : VerifiedState) : Accepted :=
  { state
    installs := [{ recordId := carried.recordId
                   epochKey := { vaultId, keyEpoch := 1, bytes := carried.epochKey } }]
    tagSecret := some { bytes := carried.tagSecret } }

/-- The records found a vault, name the device's public keys, and give it these secrets. -/
structure Carries (crypto : Crypto) (device : DeviceCrypto) (vaultId : Uuid) (keys : DeviceKeys)
    (records : GenesisRecords) (carried : Carried) : Prop where
  named : ∃ record body, OpensMembership vaultId records.membership record body ∧
    body.ed25519Pk = (keys.publicKeys crypto device).ed25519Pk ∧
    body.kemPublicKey = (keys.publicKeys crypto device).kemPublicKey
  identified : recordId crypto records.epoch = some carried.recordId
  accepts : ∃ state,
    verifyChain crypto vaultId [records.membership] [records.epoch] = .ok state ∧
    acceptRecords crypto device (.empty vaultId) [records.membership] [records.epoch] keys =
      .ok (carried.accepted vaultId state)

/-- What the founding device hands to the sealer. -/
def genesisSpec (crypto : Crypto) (device : DeviceCrypto) (deviceId : Uuid) (keys : DeviceKeys)
    (epochKey : EpochKey) (tagSecret : TagSecret) (membershipHead : Digest) : SealSpec :=
  { reason := .genesis, membershipHead, prevEpochId := none, sealer := keys, epochKey, tagSecret
    recipients := [{ deviceId, publicKeys := keys.publicKeys crypto device }] }

/-- The founding record the device signs. -/
abbrev ownFounding (crypto : Crypto) (device : DeviceCrypto) (vaultId deviceId : Uuid)
    (keys : DeviceKeys) (issuedAt : Int64) : MembershipBody :=
  foundingBody vaultId deviceId (keys.publicKeys crypto device) issuedAt

theorem recordId_of_parse (parsed : SignedRecord.parse bytes maxEpochBody = .ok record) :
    recordId crypto bytes = some (record.id crypto) := by
  rw [recordId, parsed]

theorem opens_founding
    (signed : signMembership device keys (ownFounding crypto device vaultId deviceId keys issuedAt)
      = .ok bytes) :
    ∃ record, OpensMembership vaultId bytes record
        (ownFounding crypto device vaultId deviceId keys issuedAt) ∧
      SignedRecord.parse bytes maxEpochBody = .ok record ∧
      record.signature = device.sign keys.signing record.body := by
  have length := Founder.encode_length (ownFounding crypto device vaultId deviceId keys issuedAt)
  refine ⟨_, ⟨parse_signBody signed (length.trans (by decide)), MembershipBody.decode_encode _,
    ⟨rfl, rfl⟩, rfl⟩, parse_signBody signed (length.trans (by decide)), rfl⟩

theorem find_only {fingerprint : Fingerprint} (own : entry.fingerprint = fingerprint) :
    [entry].find? (fun recipient => recipient.fingerprint = fingerprint) = some entry := by
  rw [List.find?_cons_of_pos]
  exact decide_eq_true own

theorem unsealFrom_listed {verified : VerifiedState} (framed : Framed bytes record body)
    (found : body.recipients.find? (fun recipient =>
      recipient.fingerprint = (keys.publicKeys crypto device).fingerprint) = some entry)
    (position : Nat) (installs : List EpochInstall) (tagSecret : Option TagSecret)
    (rest : List (List UInt8)) :
    unsealFrom crypto device verified keys position installs tagSecret (bytes :: rest) =
      orFail (.epochRecordInvalid position)
        (membershipVersionOf verified body.membershipHead) >>= fun _ =>
      unsealEntry crypto device keys position record body entry >>= fun opened =>
      unsealFrom crypto device verified keys (position + 1) (installs ++ [opened.1])
        (some opened.2) rest := by
  have parsed (failure : AcceptError) :
      (SignedRecord.parse bytes maxEpochBody).mapError (fun _ => failure) = .ok record :=
    mapError_eq_ok.mpr framed.parsed
  have decoded (failure : AcceptError) :
      (EpochBody.decode record.body).mapError (fun _ => failure) = .ok body :=
    mapError_eq_ok.mpr framed.decoded
  rw [unsealFrom]
  dsimp only
  rw [parsed, ok_bind, decoded, ok_bind, found]

theorem unsealEntry_ok {install : EpochInstall}
    (opened : unsealEntry crypto device keys position record body entry = .ok (install, tagSecret)) :
    ∃ epochRoot, install = { recordId := record.id crypto
                             epochKey := { vaultId := body.vaultId, keyEpoch := body.keyEpoch
                                           bytes := epochRoot } } := by
  simp only [unsealEntry, EpochKey.fromVerified, bind_eq_ok, mapError_eq_ok, ensure_eq_ok, pure,
    Except.pure, Except.ok.injEq, Prod.mk.injEq, exists_const] at opened
  obtain ⟨unsealed, _, _, ⟨_, rfl⟩, _, _, rfl, _⟩ := opened
  exact ⟨unsealed.epochRoot, rfl⟩

theorem createGenesisWith_carries {seeds : Nat → Option SecretBytes} {records : GenesisRecords}
    (created : createGenesisWith crypto device vaultId deviceId keys issuedAt epochKey tagSecret
      seeds = .ok records) : ∃ carried, Carries crypto device vaultId keys records carried := by
  simp only [createGenesisWith, ensure_eq_ok, exists_const, bind_eq_ok, mapError_eq_ok,
    orFail_eq_ok, pure, Except.pure, Except.ok.injEq] at created
  obtain ⟨⟨sameVault, firstEpoch⟩, membership, signed, head, identified, epoch, sealing, accepted,
    accepts, rfl⟩ := created
  obtain ⟨founding, opens, _, _⟩ := opens_founding signed
  -- The epoch record parses back as the body with the device's one entry.
  have single : sealEpochRecord crypto device
      (genesisSpec crypto device deviceId keys epochKey tagSecret head) seeds = _ :=
    sealEpochRecord_single rfl seeds
  obtain ⟨entry, made, signedEpoch⟩ := bind_eq_ok.mp (single.symm.trans sealing)
  obtain ⟨_, own, whole⟩ := entry_ok made
  obtain ⟨encoded, framed⟩ := framed_of_signEpoch rfl whole signedEpoch
  -- So the walk ends with what that entry holds.
  have walk := accepts
  rw [acceptRecords, bind_eq_ok] at walk
  obtain ⟨state, verified, walked⟩ := walk
  rw [unsealFrom_listed framed (find_only own)] at walked
  obtain ⟨_, _, walked⟩ := bind_eq_ok.mp walked
  obtain ⟨⟨install, opened⟩, unsealed, ends⟩ := bind_eq_ok.mp walked
  obtain ⟨epochRoot, rfl⟩ := unsealEntry_ok unsealed
  obtain rfl := Except.ok.inj ends
  have names : ({ vaultId := epochKey.vaultId, keyEpoch := epochKey.keyEpoch
                  bytes := epochRoot } : EpochKey) =
      { vaultId, keyEpoch := 1, bytes := epochRoot } := by
    rw [sameVault, firstEpoch]
  refine ⟨⟨_, epochRoot, opened.bytes⟩, ⟨founding, _, opens, rfl, rfl⟩,
    recordId_of_parse framed.parsed, state, mapError_eq_ok.mp verified, ?_⟩
  rw [accepts, Carried.accepted, ← names]
  rfl

/-! ### A genesis can be built -/

/-- The key libraries do what they document: the public key of a secret is acceptable, a signature
verifies, and what is sealed to a device opens with its private key. -/
structure DeviceCrypto.Lawful (crypto : Crypto) (device : DeviceCrypto) : Prop where
  signingAcceptable : ∀ seed,
    ed25519PublicKeyAcceptable crypto (device.signingPublic seed) = true
  agreementAcceptable : ∀ secret,
    x25519PublicKeyAcceptable (device.agreementPublic secret) = true
  verifies : ∀ seed message,
    ed25519VerifyStrict crypto (device.signingPublic seed) message (device.sign seed message) = true
  opens : ∀ secret info aad plaintext seed, ∃ enc ciphertext,
    device.sealTo (device.agreementPublic secret) info aad plaintext seed = some (enc, ciphertext) ∧
      ciphertext.length = plaintext.length + 16 ∧
      device.openWith secret enc info aad ciphertext = some plaintext

theorem DeviceCrypto.Lawful.fromSecrets (lawful : device.Lawful crypto)
    (signing agreement : SecretBytes) :
    DeviceKeys.fromSecrets crypto device signing agreement = .ok { signing, agreement } := by
  let keys : DeviceKeys := { signing, agreement }
  have signs : ed25519PublicKeyAcceptable crypto (keys.publicKeys crypto device).ed25519Pk = true :=
    lawful.signingAcceptable signing
  have agrees : x25519PublicKeyAcceptable (keys.publicKeys crypto device).kemPublicKey = true :=
    lawful.agreementAcceptable agreement
  rw [DeviceKeys.fromSecrets]
  rw [ensure_of signs, ok_bind, ensure_of agrees]
  rfl

theorem plaintext_length (epochRoot tagSecret : SecretBytes) :
    (Writer.withLabel sealedKeysLabel ++ (epochRoot.toList ++ tagSecret.toList)).length =
      sealedKeysPlaintextLen := by
  have label : (Writer.withLabel sealedKeysLabel).length = 29 := by decide
  simp only [List.length_append, List.Vector.toList_length, label]
  rfl

theorem exists_sealKeySet (lawful : device.Lawful crypto) (keys : DeviceKeys)
    (info aad : List UInt8) (epochRoot tagSecret seed : SecretBytes) :
    ∃ sealedKeys, sealKeySet device (keys.publicKeys crypto device).kemPublicKey info aad epochRoot
        tagSecret (some seed) = .ok sealedKeys ∧
      unsealKeySet device keys sealedKeys info aad = .ok { epochRoot, tagSecret } := by
  have length := plaintext_length epochRoot tagSecret
  obtain ⟨enc, ciphertext, sealing, longer, opening⟩ := lawful.opens keys.agreement info aad
    (Writer.withLabel sealedKeysLabel ++ (epochRoot.toList ++ tagSecret.toList)) seed
  have whole : ciphertext.length = sealedKeysCiphertextLen := by
    rw [longer, length]
    rfl
  refine ⟨⟨enc, ciphertext⟩, ?_, ?_⟩
  · have agrees : x25519PublicKeyAcceptable (keys.publicKeys crypto device).kemPublicKey = true :=
      lawful.agreementAcceptable keys.agreement
    have made : device.sealTo (keys.publicKeys crypto device).kemPublicKey info aad
        (Writer.withLabel sealedKeysLabel ++ (epochRoot.toList ++ tagSecret.toList)) seed =
      some (enc, ciphertext) := sealing
    rw [sealKeySet, orFail, ok_bind, ensure_of agrees, ok_bind]
    dsimp only
    rw [made, orFail, ok_bind]
    dsimp only
    rw [ensure_of whole]
    rfl
  · rw [unsealKeySet]
    dsimp only
    rw [ensure_of whole, ok_bind, opening, orFail, ok_bind,
      ensure_of ⟨length, List.take_left⟩, ok_bind, List.drop_left,
      List.take_left' epochRoot.toList_length, List.drop_left' epochRoot.toList_length,
      fromSlice_toList, fromSlice_toList]
    rfl

/-- The chain of a device alone in its vault, before its first epoch record. -/
def founded (crypto : Crypto) (body : MembershipBody) (head : Digest) : VerifiedState :=
  { VerifiedState.empty body.vaultId with
    members := [body.newMember crypto], steps := [⟨head, .add⟩] }

theorem apply_founding (lawful : device.Lawful crypto)
    (signed : signMembership device keys (ownFounding crypto device vaultId deviceId keys issuedAt)
      = .ok bytes) :
    ∃ head, recordId crypto bytes = some head ∧ ∀ index,
      applyMembership crypto (.empty vaultId) index bytes =
        .ok (founded crypto (ownFounding crypto device vaultId deviceId keys issuedAt) head) := by
  obtain ⟨record, opens, parsed, signature⟩ := opens_founding signed
  have room : 0 < maxChainLen := by decide
  refine ⟨record.id crypto, recordId_of_parse parsed, fun index => ?_⟩
  refine applyMembership_eq_ok.mpr ⟨room, record, _, opens, ?_⟩
  refine .genesis rfl ⟨rfl, rfl, rfl, rfl⟩ ?_ ?_
  · simp only [MembershipBody.keysAcceptable, Bool.and_eq_true]
    exact ⟨lawful.signingAcceptable keys.signing, lawful.agreementAcceptable keys.agreement⟩
  · rw [signature]
    exact lawful.verifies keys.signing record.body

/-- The epoch record a founding device signs. -/
abbrev ownEpoch (crypto : Crypto) (device : DeviceCrypto) (deviceId : Uuid) (keys : DeviceKeys)
    (epochKey : EpochKey) (tagSecret : TagSecret) (head : Digest) (entry : Recipient) : EpochBody :=
  { (genesisSpec crypto device deviceId keys epochKey tagSecret head).header crypto device with
    recipients := [entry] }

theorem apply_epoch (lawful : device.Lawful crypto) (sameVault : epochKey.vaultId = vaultId)
    (first : epochKey.keyEpoch = 1) {head : Digest} {bytes encoded : List UInt8}
    (device_id : entry.deviceId = deviceId)
    (own : entry.fingerprint = (keys.publicKeys crypto device).fingerprint)
    (suite : entry.suiteId = suiteId ∧ entry.kemId = kemId)
    (framed : Framed bytes ⟨encoded, device.sign keys.signing encoded⟩
      (ownEpoch crypto device deviceId keys epochKey tagSecret head entry)) :
    ∃ state, membershipVersionOf state head = some 1 ∧
      applyFrom (applyEpoch crypto) 0
        (founded crypto (ownFounding crypto device vaultId deviceId keys issuedAt) head) [bytes] =
          .ok state ∧ Coupled state := by
  have room : 0 < maxChainLen := by decide
  have present : (founded crypto (ownFounding crypto device vaultId deviceId keys issuedAt)
      head).headIndexOf head = some 0 := by
    simp [VerifiedState.headIndexOf, founded]
  have signer : SignedBy crypto
      (founded crypto (ownFounding crypto device vaultId deviceId keys issuedAt) head)
      (keys.publicKeys crypto device).fingerprint 1
      ⟨encoded, device.sign keys.signing encoded⟩ := by
    refine ⟨_, List.find?_cons_of_pos ?_, lawful.verifies keys.signing encoded⟩
    rw [Bool.and_eq_true, decide_eq_true_eq]
    exact ⟨rfl, rfl⟩
  have addressed : Addressed [(deviceId, (keys.publicKeys crypto device).fingerprint)]
      [entry] := by
    refine ⟨?_, ?_, List.nodup_singleton _, rfl⟩
    · intro recipient member
      rw [List.mem_singleton.mp member]
      exact suite
    · intro recipient member
      rw [List.mem_singleton.mp member, device_id, own]
      exact List.mem_cons_self
  have numbered : epochKey.keyEpoch.toNat = 1 := by rw [first]; rfl
  obtain ⟨next, step, version, coupled⟩ : ∃ next, EpochStep crypto
      (founded crypto (ownFounding crypto device vaultId deviceId keys issuedAt) head)
      ⟨encoded, device.sign keys.signing encoded⟩
      (ownEpoch crypto device deviceId keys epochKey tagSecret head entry) next ∧
      membershipVersionOf next head = some 1 ∧ Coupled next := by
    refine ⟨_, .accepted rfl present signer (.first rfl rfl numbered rfl rfl) addressed, ?_, ?_⟩
    · simp [membershipVersionOf, VerifiedState.headIndexOf, founded]
    · exact fun _ => ⟨_, rfl, le_rfl⟩
  have applied : applyEpoch crypto
      (founded crypto (ownFounding crypto device vaultId deviceId keys issuedAt) head) 0 bytes =
        .ok next :=
    applyEpoch_eq_ok.mpr ⟨room, _, _, ⟨framed.parsed, framed.decoded, ⟨rfl, rfl⟩, sameVault⟩, step⟩
  refine ⟨next, version, ?_, coupled⟩
  rw [applyFrom_cons, applied]
  rfl

theorem entry_of_sealKeySet {spec : SealSpec} {recipient : RecipientKeys}
    {seed : Option SecretBytes} {sealedKeys : SealedKeySet}
    (sealing : sealKeySet device recipient.publicKeys.kemPublicKey
      ((spec.header crypto device).hpkeInfo crypto recipient.deviceId
        recipient.publicKeys.fingerprint)
      ((spec.header crypto device).hpkeAad crypto recipient.publicKeys.fingerprint)
      spec.epochKey.bytes spec.tagSecret.bytes seed = .ok sealedKeys) :
    spec.entry crypto device recipient seed =
      .ok { deviceId := recipient.deviceId, fingerprint := recipient.publicKeys.fingerprint
            suiteId, kemId, enc := sealedKeys.enc, ciphertext := sealedKeys.ciphertext } := by
  rw [SealSpec.entry, mapError_eq_ok.mpr sealing]
  rfl

theorem unsealEntry_committed {epochRoot tagSecret : SecretBytes}
    (unseals : unsealKeySet device keys { enc := entry.enc, ciphertext := entry.ciphertext }
      (body.hpkeInfo crypto entry.deviceId entry.fingerprint)
      (body.hpkeAad crypto entry.fingerprint) = .ok { epochRoot, tagSecret })
    (commitsKe : epochKeyCommitment crypto epochRoot = body.keyCommitmentKe)
    (commitsS : tagKeyCommitment crypto tagSecret = body.keyCommitmentS) :
    unsealEntry crypto device keys position record body entry =
      .ok ({ recordId := crypto.sha256 record.body
             epochKey := { vaultId := body.vaultId, keyEpoch := body.keyEpoch
                           bytes := epochRoot } }, { bytes := tagSecret }) := by
  rw [unsealEntry, mapError_eq_ok.mpr unseals, ok_bind]
  dsimp only
  rw [EpochKey.fromVerified, TagSecret.fromVerified, ensure_of commitsKe, ensure_of commitsS]
  rfl

theorem exists_createGenesisWith (lawful : device.Lawful crypto) (keys : DeviceKeys)
    (vaultId deviceId : Uuid) (issuedAt : Int64) (epochRoot tagSecret seed : SecretBytes) :
    ∃ records, createGenesisWith crypto device vaultId deviceId keys issuedAt
      { vaultId, keyEpoch := 1, bytes := epochRoot } { bytes := tagSecret } (fun _ => some seed) =
        .ok records := by
  have short := (Founder.encode_length
    (ownFounding crypto device vaultId deviceId keys issuedAt)).trans_lt (show 256 < 2 ^ 32 by decide)
  obtain ⟨membership, signed⟩ := exists_signBody device keys short
  obtain ⟨head, identified, founding⟩ := apply_founding lawful signed
  -- The entry, and the epoch record around it.
  let epochKey : EpochKey := { vaultId, keyEpoch := 1, bytes := epochRoot }
  let spec := genesisSpec crypto device deviceId keys epochKey { bytes := tagSecret } head
  let fingerprint := (keys.publicKeys crypto device).fingerprint
  obtain ⟨sealedKeys, sealing, unsealing⟩ := exists_sealKeySet lawful keys
    ((spec.header crypto device).hpkeInfo crypto deviceId fingerprint)
    ((spec.header crypto device).hpkeAad crypto fingerprint) epochRoot tagSecret seed
  let entry : Recipient := { deviceId, fingerprint, suiteId, kemId, enc := sealedKeys.enc
                             ciphertext := sealedKeys.ciphertext }
  have made : spec.entry crypto device
      { deviceId, publicKeys := keys.publicKeys crypto device } (some seed) = .ok entry :=
    entry_of_sealKeySet sealing
  have whole : entry.ciphertext.length = sealedKeysCiphertextLen := (entry_ok made).2.2
  have only : (ownEpoch crypto device deviceId keys epochKey { bytes := tagSecret } head
      entry).recipients = [entry] := rfl
  obtain ⟨epoch, signedEpoch⟩ := exists_signEpoch device keys only whole
  obtain ⟨encoded, framed⟩ := framed_of_signEpoch only whole signedEpoch
  have sealed : sealEpochRecord crypto device spec (fun _ => some seed) = .ok epoch := by
    rw [sealEpochRecord_single rfl, made]
    exact signedEpoch
  -- The device accepts both.
  obtain ⟨state, version, applied, coupled⟩ :=
    apply_epoch lawful rfl rfl rfl rfl ⟨rfl, rfl⟩ framed
  have verified : extend crypto (.empty vaultId) [membership] [epoch] = .ok state := by
    refine extend_eq_ok.mpr ⟨_, ?_, applied, coupled⟩
    rw [applyFrom_cons, founding]
    rfl
  have unsealed : unsealEntry crypto device keys 0 ⟨encoded, device.sign keys.signing encoded⟩
      (ownEpoch crypto device deviceId keys epochKey { bytes := tagSecret } head entry) entry = _ :=
    unsealEntry_committed unsealing rfl rfl
  have versioned : membershipVersionOf state (ownEpoch crypto device deviceId keys epochKey
      { bytes := tagSecret } head entry).membershipHead = some 1 := version
  obtain ⟨accepted, accepts⟩ : ∃ accepted,
      acceptRecords crypto device (.empty vaultId) [membership] [epoch] keys = .ok accepted := by
    rw [acceptRecords, mapError_eq_ok.mpr verified, ok_bind,
      unsealFrom_listed framed (find_only rfl), versioned, orFail, ok_bind, unsealed]
    exact ⟨_, rfl⟩
  refine ⟨⟨membership, epoch⟩, ?_⟩
  simp only [createGenesisWith, ensure_eq_ok, exists_const, bind_eq_ok, mapError_eq_ok,
    orFail_eq_ok, pure, Except.pure, Except.ok.injEq]
  exact ⟨⟨trivial, trivial⟩, membership, signed, head, identified, epoch, sealed, accepted, accepts, rfl⟩

end Dohflow.VaultCrypto
