/-
This file models the records of the membership chain as bytes: the signed
container, the membership body and the epoch body, each with its canonical
encoding and its strict parser.

A record is identified by the digest of its body, so its signature is no part of
its identity. The last two sections prove, for each of the three, that the parser
takes back every record the encoder gives, and that it takes nothing else.
-/

import Dohflow.SyncCore.Header

namespace Dohflow.SyncCore

open ByteReader Fallible

/-- The one cryptographic suite. -/
def suiteId : UInt16 := 1

/-- The one KEM. -/
def kemId : UInt16 := 0x0020

/-- The most recipients an epoch record may list. -/
def maxRecipients : Nat := 1024

/-- The most records either list of a verified chain may hold. -/
def maxChainLen : Nat := 4096

/-- The most authorized members at any version. -/
def maxMembers : Nat := maxRecipients

/-- The exact length of a recipient's sealed key set. -/
def sealedKeysCiphertextLen : Nat := 109

def membershipLabel : String := "dohflow/sync-membership/v1"

def epochLabel : String := "dohflow/sync-epoch-record/v1"

def fingerprintLabel : String := "dohflow/device-fpr/v1"

def maxMembershipBody : Nat := 2560

def maxEpochBody : Nat := 512 + maxRecipients * 2364

/-- A fingerprint of a device's keys. -/
def deviceFingerprint (crypto : Crypto) (suiteId kemId : UInt16)
    (ed25519Pk kemPublicKey : PublicKey) : Fingerprint :=
  ⟨crypto.sha256 (Writer.withLabel fingerprintLabel ++ Writer.u16 suiteId ++ Writer.u16 kemId ++
    Writer.fixed ed25519Pk ++ (bigEndian 4 32 ++ Writer.fixed kemPublicKey))⟩

/-! ### The signed container -/

/-- `u32 body_len ‖ body ‖ 64-byte signature over the body`. -/
structure SignedRecord where
  body : List UInt8
  signature : Signature

namespace SignedRecord

def reader (maxBody : Nat) : Reader SignedRecord := do
  let body ← Reader.bytes maxBody
  let signature ← Reader.fixed 64
  Reader.finish
  return { body, signature }

def parse (bytes : List UInt8) (maxBody : Nat) : Except WireError SignedRecord :=
  Reader.decode (reader maxBody) bytes

def encode (record : SignedRecord) : Except WireError (List UInt8) := do
  let body ← Writer.bytes (2 ^ 64 - 1) record.body
  return body ++ Writer.fixed record.signature

/-- The record's id. -/
def id (crypto : Crypto) (record : SignedRecord) : Digest := crypto.sha256 record.body

end SignedRecord

/-! ### Membership bodies -/

/-- What a membership record does. -/
inductive Action
  | add
  | revoke
  deriving DecidableEq, Repr

/-- The record's action byte. -/
def Action.byte : Action → UInt8
  | .add => 1
  | .revoke => 2

def Action.ofByte (byte : UInt8) : Except WireError Action :=
  if byte = 1 then .ok .add
  else if byte = 2 then .ok .revoke
  else .error .unknownObjectType

structure MembershipBody where
  suiteId : UInt16
  kemId : UInt16
  vaultId : Uuid
  /-- Position in the chain, starting at 1. -/
  version : UInt64
  /-- The previous record's id; absent only for the first. -/
  prevId : Option Digest
  action : Action
  signerFingerprint : Fingerprint
  /-- The device added or revoked. -/
  deviceId : Uuid
  ed25519Pk : PublicKey
  kemPublicKey : PublicKey
  issuedAt : Int64

namespace MembershipBody

/-- The body's canonical bytes. The KEM key is `bytes(2048)` of length 32, which always fits. -/
def encode (body : MembershipBody) : List UInt8 :=
  Writer.withLabel membershipLabel ++ (Writer.u16 protocolVersion ++
    (Writer.u16 body.suiteId ++ (Writer.u16 body.kemId ++ (Writer.fixed body.vaultId ++
    (Writer.u64 body.version ++ (Writer.opt Writer.fixed body.prevId ++
    (Writer.u8 body.action.byte ++ (Writer.fixed body.signerFingerprint.bytes ++
    (Writer.fixed body.deviceId ++ (Writer.fixed body.ed25519Pk ++
    ((bigEndian 4 body.kemPublicKey.toList.length ++ body.kemPublicKey.toList) ++
    Writer.i64 body.issuedAt)))))))))))

/-- A byte string that must be exactly a public key. -/
def publicKeyOf (bytes : List UInt8) : Except WireError PublicKey :=
  if exact : bytes.length = 32 then .ok ⟨bytes, exact⟩ else .error .tooLong

def reader : Reader MembershipBody := do
  Reader.label membershipLabel
  require ((← Reader.u16) = protocolVersion) .unsupportedProtocol
  let suiteId ← Reader.u16
  let kemId ← Reader.u16
  let vaultId ← Reader.fixed 16
  let version ← Reader.u64
  let prevId ← Reader.opt (Reader.fixed 32)
  let action ← Action.ofByte (← Reader.u8)
  let signerFingerprint ← Reader.fixed 32
  let deviceId ← Reader.fixed 16
  let ed25519Pk ← Reader.fixed 32
  let kemPublicKey ← publicKeyOf (← Reader.bytes 2048)
  let issuedAt ← Reader.i64
  Reader.finish
  return { suiteId, kemId, vaultId, version, prevId, action
           signerFingerprint := ⟨signerFingerprint⟩, deviceId, ed25519Pk, kemPublicKey, issuedAt }

def decode (bytes : List UInt8) : Except WireError MembershipBody := Reader.decode reader bytes

/-- The fingerprint recomputed from the record's own keys. -/
def fingerprint (crypto : Crypto) (body : MembershipBody) : Fingerprint :=
  deviceFingerprint crypto body.suiteId body.kemId body.ed25519Pk body.kemPublicKey

end MembershipBody

/-! ### Epoch bodies -/

/-- Why an epoch record exists. -/
inductive Reason
  /-- The first record, founding device. -/
  | genesis
  /-- A revocation cutover: a fresh key. -/
  | cutover
  /-- A grant to a newly added device: the same key. -/
  | grant
  /-- A forced rotation: a fresh key, no membership change. -/
  | rotation
  deriving DecidableEq, Repr

def Reason.byte : Reason → UInt8
  | .genesis => 1
  | .cutover => 2
  | .grant => 3
  | .rotation => 4

def Reason.ofByte (byte : UInt8) : Except WireError Reason :=
  if byte = 1 then .ok .genesis
  else if byte = 2 then .ok .cutover
  else if byte = 3 then .ok .grant
  else if byte = 4 then .ok .rotation
  else .error .unknownObjectType

/-- One sealed key set entry of an epoch record. -/
structure Recipient where
  deviceId : Uuid
  fingerprint : Fingerprint
  suiteId : UInt16
  kemId : UInt16
  enc : PublicKey
  ciphertext : List UInt8

structure EpochBody where
  suiteId : UInt16
  kemId : UInt16
  vaultId : Uuid
  /-- The key epoch the record establishes. -/
  keyEpoch : UInt64
  reason : Reason
  /-- The id of the newest membership record this epoch record covers. -/
  membershipHead : Digest
  /-- The previous epoch record's id; absent only for the first. -/
  prevEpochId : Option Digest
  /-- The commitment to the epoch's key. -/
  keyCommitmentKe : Digest
  /-- The commitment to the tag secret. -/
  keyCommitmentS : Digest
  sealerFingerprint : Fingerprint
  recipients : List Recipient

namespace EpochBody

/-- Every field before the recipient list, in order, then `rest`. -/
def headerWriter (body : EpochBody) (rest : List UInt8) : List UInt8 :=
  Writer.withLabel epochLabel ++ (Writer.u16 protocolVersion ++
    (Writer.u16 body.suiteId ++ (Writer.u16 body.kemId ++ (Writer.fixed body.vaultId ++
    (Writer.u64 body.keyEpoch ++ (Writer.u8 body.reason.byte ++
    (Writer.fixed body.membershipHead ++ (Writer.opt Writer.fixed body.prevEpochId ++
    (Writer.fixed body.keyCommitmentKe ++ (Writer.fixed body.keyCommitmentS ++
    (Writer.fixed body.sealerFingerprint.bytes ++ rest)))))))))))

/-- Strictly ascending by fingerprint, so one set has one encoding. -/
def ascending (recipients : List Recipient) : Prop :=
  recipients.IsChain fun first second =>
    first.fingerprint.bytes.toList < second.fingerprint.bytes.toList

instance (recipients : List Recipient) : Decidable (ascending recipients) :=
  inferInstanceAs (Decidable (List.IsChain _ recipients))

def writeRecipient (recipient : Recipient) : List UInt8 :=
  Writer.fixed recipient.deviceId ++ (Writer.fixed recipient.fingerprint.bytes ++
    (Writer.u16 recipient.suiteId ++ (Writer.u16 recipient.kemId ++
    ((bigEndian 4 recipient.enc.toList.length ++ recipient.enc.toList) ++
    (bigEndian 4 recipient.ciphertext.length ++ recipient.ciphertext)))))

/-- The body's canonical bytes. -/
def encode (body : EpochBody) : Except WireError (List UInt8) := do
  ensure (body.recipients.length ≤ maxRecipients) .tooLong
  ensure (ascending body.recipients) .listNotAscending
  ensure (∀ recipient ∈ body.recipients, recipient.ciphertext.length = sealedKeysCiphertextLen)
    .tooLong
  return body.headerWriter
    (bigEndian 4 body.recipients.length ++ body.recipients.flatMap writeRecipient)

def recipientReader : Reader Recipient := do
  let deviceId ← Reader.fixed 16
  let fingerprint ← Reader.fixed 32
  let suiteId ← Reader.u16
  let kemId ← Reader.u16
  let enc ← MembershipBody.publicKeyOf (← Reader.bytes 2048)
  let ciphertext ← Reader.bytes 256
  require (ciphertext.length = sealedKeysCiphertextLen) .tooLong
  return { deviceId, fingerprint := ⟨fingerprint⟩, suiteId, kemId, enc, ciphertext }

def reader : Reader EpochBody := do
  Reader.label epochLabel
  require ((← Reader.u16) = protocolVersion) .unsupportedProtocol
  let suiteId ← Reader.u16
  let kemId ← Reader.u16
  let vaultId ← Reader.fixed 16
  let keyEpoch ← Reader.u64
  let reason ← Reason.ofByte (← Reader.u8)
  let membershipHead ← Reader.fixed 32
  let prevEpochId ← Reader.opt (Reader.fixed 32)
  let keyCommitmentKe ← Reader.fixed 32
  let keyCommitmentS ← Reader.fixed 32
  let sealerFingerprint ← Reader.fixed 32
  let recipients ← Reader.list maxRecipients 60 recipientReader
  Reader.finish
  require (ascending recipients) .listNotAscending
  return { suiteId, kemId, vaultId, keyEpoch, reason, membershipHead, prevEpochId, keyCommitmentKe
           keyCommitmentS, sealerFingerprint := ⟨sealerFingerprint⟩, recipients }

def decode (bytes : List UInt8) : Except WireError EpochBody := Reader.decode reader bytes

end EpochBody

variable {bytes : List UInt8} (recipient : Recipient) {record : SignedRecord} (key : PublicKey)

/-! ### The parsers take back what the encoders give -/

theorem SignedRecord.parse_encode (record : SignedRecord) {maxBody : Nat}
    (fits : record.body.length ≤ maxBody) (encoded : record.encode = .ok bytes) :
    SignedRecord.parse bytes maxBody = .ok record := by
  simp only [SignedRecord.encode, Writer.bytes, bind_assoc, pure_bind, ensure_bind_eq_ok] at encoded
  obtain ⟨_, small, written⟩ := encoded
  obtain rfl := Except.ok.inj written
  refine decode_of_readsAll ((reads_bytes fits small).bind_readsAll ?_)
  rw [← List.append_nil (Writer.fixed record.signature)]
  refine (reads_fixed record.signature).bind_readsAll ?_
  exact readsAll_finish_bind (reads_pure record).readsAll

theorem ofByte_action (action : Action) : Action.ofByte action.byte = .ok action := by
  cases action <;> rfl

theorem ofByte_reason (reason : Reason) : Reason.ofByte reason.byte = .ok reason := by
  cases reason <;> rfl

theorem publicKeyOf_toList : MembershipBody.publicKeyOf key.toList = .ok key := by
  rw [MembershipBody.publicKeyOf, dif_pos key.toList_length]
  rfl

theorem reads_publicKeyBytes :
    Reads (Reader.bytes 2048) (bigEndian 4 key.toList.length ++ key.toList) key.toList := by
  have length : key.toList.length = 32 := key.toList_length
  exact reads_bytes (by omega) (by omega)

theorem reads_label_membership :
    Reads (Reader.label membershipLabel) (Writer.withLabel membershipLabel) () :=
  reads_label (by decide) (by decide)

theorem reads_label_epoch : Reads (Reader.label epochLabel) (Writer.withLabel epochLabel) () :=
  reads_label (by decide) (by decide)

theorem MembershipBody.decode_encode (body : MembershipBody) :
    MembershipBody.decode body.encode = .ok body := by
  refine decode_of_readsAll (reads_label_membership.bind_readsAll ?_)
  refine (reads_u16 _).bind_readsAll (ReadsAll.require_bind rfl ?_)
  refine (reads_u16 _).bind_readsAll ((reads_u16 _).bind_readsAll ?_)
  refine (reads_fixed _).bind_readsAll ((reads_u64 _).bind_readsAll ?_)
  refine (reads_opt _ fun _ _ => reads_fixed _).bind_readsAll ?_
  refine (reads_u8 _).bind_readsAll (ReadsAll.ok_bind (ofByte_action _) ?_)
  refine (reads_fixed _).bind_readsAll ((reads_fixed _).bind_readsAll ?_)
  refine (reads_fixed _).bind_readsAll ((reads_publicKeyBytes _).bind_readsAll ?_)
  refine ReadsAll.ok_bind (publicKeyOf_toList _) ?_
  rw [← List.append_nil (Writer.i64 _)]
  refine (reads_i64 _).bind_readsAll ?_
  exact readsAll_finish_bind (reads_pure body).readsAll

theorem reads_recipient (sealedKeys : recipient.ciphertext.length = sealedKeysCiphertextLen) :
    Reads EpochBody.recipientReader (EpochBody.writeRecipient recipient) recipient := by
  have fits : recipient.ciphertext.length = 109 := sealedKeys
  refine (reads_fixed _).bind ((reads_fixed _).bind ?_)
  refine (reads_u16 _).bind ((reads_u16 _).bind ?_)
  refine (reads_publicKeyBytes _).bind (Reads.ok_bind (publicKeyOf_toList _) ?_)
  refine (reads_bytes (by omega) (by omega)).bind_nil ?_
  exact Reads.require_bind sealedKeys (reads_pure recipient)

theorem writeRecipient_length : 60 ≤ (EpochBody.writeRecipient recipient).length := by
  simp only [EpochBody.writeRecipient, Writer.fixed, Writer.u16, List.length_append,
    bigEndian_length, List.Vector.toList_length]
  omega

theorem EpochBody.decode_encode (body : EpochBody) (encoded : body.encode = .ok bytes) :
    EpochBody.decode bytes = .ok body := by
  simp only [EpochBody.encode, ensure_bind_eq_ok] at encoded
  obtain ⟨few, ordered, sealedKeys, written⟩ := encoded
  obtain rfl := Except.ok.inj written
  refine decode_of_readsAll (reads_label_epoch.bind_readsAll ?_)
  refine (reads_u16 _).bind_readsAll (ReadsAll.require_bind rfl ?_)
  refine (reads_u16 _).bind_readsAll ((reads_u16 _).bind_readsAll ?_)
  refine (reads_fixed _).bind_readsAll ((reads_u64 _).bind_readsAll ?_)
  refine (reads_u8 _).bind_readsAll (ReadsAll.ok_bind (ofByte_reason _) ?_)
  refine (reads_fixed _).bind_readsAll ?_
  refine (reads_opt _ fun _ _ => reads_fixed _).bind_readsAll ?_
  refine (reads_fixed _).bind_readsAll ((reads_fixed _).bind_readsAll ?_)
  refine (reads_fixed _).bind_readsAll ?_
  have short : body.recipients.length < 2 ^ 32 := by
    have bound : body.recipients.length ≤ 1024 := few
    omega
  rw [← List.append_nil (bigEndian 4 _ ++ _)]
  refine (reads_list _ few short (fun recipient _ => writeRecipient_length recipient)
    fun recipient member =>
      reads_recipient recipient (sealedKeys recipient member)).bind_readsAll ?_
  exact readsAll_finish_bind (ReadsAll.require_bind ordered (reads_pure body).readsAll)

/-! ### The parsers take only what the encoders give -/

theorem SignedRecord.encode_of_parse {maxBody : Nat}
    (parsed : SignedRecord.parse bytes maxBody = .ok record) :
    record.body.length ≤ maxBody ∧ record.encode = .ok bytes := by
  obtain ⟨rest, read⟩ := decode_eq_ok parsed
  obtain ⟨body, _, bodyRead, read⟩ := run_bind_eq_ok.mp read
  obtain ⟨fits, small, atBody⟩ := run_bytes_eq_ok bodyRead
  obtain ⟨signature, _, atSignature, read⟩ := ReadsOnly.of_bind (readsOnly_fixed 64) read
  obtain ⟨_, _, finished, read⟩ := run_bind_eq_ok.mp read
  obtain ⟨atEnd, -⟩ := run_finish_eq_ok.mp finished
  obtain ⟨rfl, -⟩ := run_pure_eq_ok.mp read
  refine ⟨fits, ?_⟩
  simp only [SignedRecord.encode, Writer.bytes, bind_assoc, pure_bind, ensure_bind_eq_ok]
  refine ⟨by omega, small, congrArg Except.ok ?_⟩
  rw [atBody, atSignature, atEnd, List.append_nil, List.append_assoc]

theorem SignedRecord.exists_encode_iff :
    (∃ bytes, record.encode = .ok bytes) ↔ record.body.length < 2 ^ 32 := by
  simp only [SignedRecord.encode, Writer.bytes, bind_assoc, pure_bind, ensure_bind_eq_ok]
  constructor
  · rintro ⟨bytes, -, small, -⟩
    exact small
  · intro small
    exact ⟨_, by omega, small, rfl⟩

theorem byte_of_action {byte : UInt8} {action : Action} (known : Action.ofByte byte = .ok action) :
    action.byte = byte := by
  unfold Action.ofByte at known
  split at known
  · next same =>
    cases known
    exact same.symm
  split at known
  · next same =>
    cases known
    exact same.symm
  · cases known

theorem byte_of_reason {byte : UInt8} {reason : Reason} (known : Reason.ofByte byte = .ok reason) :
    reason.byte = byte := by
  unfold Reason.ofByte at known
  split at known
  · next same =>
    cases known
    exact same.symm
  split at known
  · next same =>
    cases known
    exact same.symm
  split at known
  · next same =>
    cases known
    exact same.symm
  split at known
  · next same =>
    cases known
    exact same.symm
  · cases known

theorem toList_of_publicKeyOf {key : PublicKey} (made : MembershipBody.publicKeyOf bytes = .ok key) :
    key.toList = bytes := by
  unfold MembershipBody.publicKeyOf at made
  by_cases exact : bytes.length = 32
  · rw [dif_pos exact] at made
    rw [← Except.ok.inj made]
    rfl
  · rw [dif_neg exact] at made
    cases made

theorem MembershipBody.encode_of_decode {body : MembershipBody}
    (decoded : MembershipBody.decode bytes = .ok body) : body.encode = bytes := by
  obtain ⟨rest, read⟩ := decode_eq_ok decoded
  obtain ⟨_, _, atLabel, read⟩ := ReadsOnly.of_bind (readsOnly_label _) read
  obtain ⟨protocol, _, atProtocol, read⟩ := ReadsOnly.of_bind readsOnly_u16 read
  obtain ⟨spoken, read⟩ := run_require_bind_eq_ok.mp read
  obtain ⟨suiteId, _, atSuite, read⟩ := ReadsOnly.of_bind readsOnly_u16 read
  obtain ⟨kemId, _, atKem, read⟩ := ReadsOnly.of_bind readsOnly_u16 read
  obtain ⟨vaultId, _, atVault, read⟩ := ReadsOnly.of_bind (readsOnly_fixed 16) read
  obtain ⟨version, _, atVersion, read⟩ := ReadsOnly.of_bind readsOnly_u64 read
  obtain ⟨prevId, _, atPrev, read⟩ :=
    ReadsOnly.of_bind (readsOnly_opt (readsOnly_fixed 32)) read
  obtain ⟨actionByte, _, atAction, read⟩ := ReadsOnly.of_bind readsOnly_u8 read
  obtain ⟨action, actionKnown, read⟩ := run_liftM_bind_eq_ok.mp read
  obtain ⟨signer, _, atSigner, read⟩ := ReadsOnly.of_bind (readsOnly_fixed 32) read
  obtain ⟨deviceId, _, atDevice, read⟩ := ReadsOnly.of_bind (readsOnly_fixed 16) read
  obtain ⟨ed25519Pk, _, atKey, read⟩ := ReadsOnly.of_bind (readsOnly_fixed 32) read
  obtain ⟨kemBytes, _, kemRead, read⟩ := run_bind_eq_ok.mp read
  obtain ⟨-, -, atKemKey⟩ := run_bytes_eq_ok kemRead
  obtain ⟨kemKey, kemMade, read⟩ := run_liftM_bind_eq_ok.mp read
  obtain ⟨issuedAt, _, atIssued, read⟩ := ReadsOnly.of_bind readsOnly_i64 read
  obtain ⟨_, _, finished, read⟩ := run_bind_eq_ok.mp read
  obtain ⟨atEnd, -⟩ := run_finish_eq_ok.mp finished
  obtain ⟨rfl, -⟩ := run_pure_eq_ok.mp read
  rw [atLabel, atProtocol, spoken, atSuite, atKem, atVault, atVersion, atPrev, atAction, atSigner,
    atDevice, atKey, atKemKey, atIssued, atEnd, ← byte_of_action actionKnown,
    ← toList_of_publicKeyOf kemMade, encode]
  simp only [List.append_assoc, List.append_nil]

theorem readsOnly_recipient : ReadsOnly EpochBody.recipientReader EpochBody.writeRecipient := by
  intro input rest recipient read
  obtain ⟨deviceId, _, atDevice, read⟩ := ReadsOnly.of_bind (readsOnly_fixed 16) read
  obtain ⟨fingerprint, _, atFingerprint, read⟩ := ReadsOnly.of_bind (readsOnly_fixed 32) read
  obtain ⟨suiteId, _, atSuite, read⟩ := ReadsOnly.of_bind readsOnly_u16 read
  obtain ⟨kemId, _, atKem, read⟩ := ReadsOnly.of_bind readsOnly_u16 read
  obtain ⟨encBytes, _, encRead, read⟩ := run_bind_eq_ok.mp read
  obtain ⟨-, -, atEnc⟩ := run_bytes_eq_ok encRead
  obtain ⟨enc, encMade, read⟩ := run_liftM_bind_eq_ok.mp read
  obtain ⟨ciphertext, _, ciphertextRead, read⟩ := run_bind_eq_ok.mp read
  obtain ⟨-, -, atCiphertext⟩ := run_bytes_eq_ok ciphertextRead
  obtain ⟨-, read⟩ := run_require_bind_eq_ok.mp read
  obtain ⟨rfl, rfl⟩ := run_pure_eq_ok.mp read
  rw [atDevice, atFingerprint, atSuite, atKem, atEnc, atCiphertext,
    ← toList_of_publicKeyOf encMade, EpochBody.writeRecipient]
  simp only [List.append_assoc]

theorem yields_recipient : Yields EpochBody.recipientReader fun recipient =>
    recipient.ciphertext.length = sealedKeysCiphertextLen := by
  intro before recipient after read
  simp only [EpochBody.recipientReader, run_bind_eq_ok, run_require_eq_ok, run_pure_eq_ok] at read
  obtain ⟨_, _, _, _, _, _, _, _, _, _, _, _, _, _, _, _, _, _, _, _, _, _, _, ⟨sealedKeys, _⟩,
    rfl, _⟩ := read
  exact sealedKeys

theorem EpochBody.encode_of_decode {body : EpochBody} (decoded : EpochBody.decode bytes = .ok body) :
    body.encode = .ok bytes := by
  obtain ⟨rest, read⟩ := decode_eq_ok decoded
  obtain ⟨_, _, atLabel, read⟩ := ReadsOnly.of_bind (readsOnly_label _) read
  obtain ⟨protocol, _, atProtocol, read⟩ := ReadsOnly.of_bind readsOnly_u16 read
  obtain ⟨spoken, read⟩ := run_require_bind_eq_ok.mp read
  obtain ⟨suiteId, _, atSuite, read⟩ := ReadsOnly.of_bind readsOnly_u16 read
  obtain ⟨kemId, _, atKem, read⟩ := ReadsOnly.of_bind readsOnly_u16 read
  obtain ⟨vaultId, _, atVault, read⟩ := ReadsOnly.of_bind (readsOnly_fixed 16) read
  obtain ⟨keyEpoch, _, atEpoch, read⟩ := ReadsOnly.of_bind readsOnly_u64 read
  obtain ⟨reasonByte, _, atReason, read⟩ := ReadsOnly.of_bind readsOnly_u8 read
  obtain ⟨reason, reasonKnown, read⟩ := run_liftM_bind_eq_ok.mp read
  obtain ⟨head, _, atHead, read⟩ := ReadsOnly.of_bind (readsOnly_fixed 32) read
  obtain ⟨prevId, _, atPrev, read⟩ :=
    ReadsOnly.of_bind (readsOnly_opt (readsOnly_fixed 32)) read
  obtain ⟨keyCommitment, _, atKey, read⟩ := ReadsOnly.of_bind (readsOnly_fixed 32) read
  obtain ⟨tagCommitment, _, atTag, read⟩ := ReadsOnly.of_bind (readsOnly_fixed 32) read
  obtain ⟨sealer, _, atSealer, read⟩ := ReadsOnly.of_bind (readsOnly_fixed 32) read
  obtain ⟨recipients, _, listRead, read⟩ := run_bind_eq_ok.mp read
  obtain ⟨few, -, atList⟩ := run_list_eq_ok readsOnly_recipient listRead
  have sealedKeys := yields_list yields_recipient maxRecipients 60 _ _ _ listRead
  obtain ⟨_, _, finished, read⟩ := run_bind_eq_ok.mp read
  obtain ⟨atEnd, rfl⟩ := run_finish_eq_ok.mp finished
  obtain ⟨ordered, read⟩ := run_require_bind_eq_ok.mp read
  obtain ⟨rfl, -⟩ := run_pure_eq_ok.mp read
  simp only [EpochBody.encode, ensure_bind_eq_ok]
  refine ⟨few, ordered, sealedKeys, congrArg Except.ok ?_⟩
  rw [atLabel, atProtocol, spoken, atSuite, atKem, atVault, atEpoch, atReason, atHead, atPrev,
    atKey, atTag, atSealer, atList, atEnd, ← byte_of_reason reasonKnown, headerWriter]
  simp only [List.append_nil]

end Dohflow.SyncCore
