/-
This file builds the chain of a device that is alone in its vault: its genesis
record, the genesis epoch record, and one rotation after another.

`verifyChain_founder` says that the verifier accepts that chain up to its full
length, for any cryptography under which the founder's own signatures verify and
its records do not collide. It shows that the accepting path is open, and that
the length bound of a chain is reached, which is where the later files need a
chain to look at. The last section gives such a founder.
-/

import Dohflow.SyncCore.ChainGrowth

namespace Dohflow.SyncCore

open ByteReader Fallible

variable {crypto : Crypto}

/-! ### A founder and its records -/

/-- A device that can found a vault: acceptable keys, signatures that verify, and a fresh epoch key
for every record a chain can hold. -/
structure Founder (crypto : Crypto) where
  vaultId : Uuid
  deviceId : Uuid
  ed25519Pk : PublicKey
  kemPublicKey : PublicKey
  sign : List UInt8 → Signature
  keyCommitmentS : Digest
  /-- The commitment to the key of the nth epoch, counting from 0. -/
  keyCommitment : Nat → Digest
  enc : PublicKey
  sealedKeys : List.Vector UInt8 sealedKeysCiphertextLen
  ed25519Acceptable : ed25519PublicKeyAcceptable crypto ed25519Pk = true
  kemAcceptable : x25519PublicKeyAcceptable kemPublicKey = true
  verifies : ∀ message, ed25519VerifyStrict crypto ed25519Pk message (sign message) = true
  fresh : ∀ first second, first < maxChainLen → second < maxChainLen →
    keyCommitment first = keyCommitment second → first = second

namespace Founder

variable (founder : Founder crypto)
variable (previous : Option Digest) (count : Nat)

/-- The container of a body with the founder's signature. -/
def signed (body : List UInt8) : List UInt8 :=
  bigEndian 4 body.length ++ body ++ Writer.fixed (founder.sign body)

def fingerprint : Fingerprint :=
  deviceFingerprint crypto suiteId kemId founder.ed25519Pk founder.kemPublicKey

def genesisBody : MembershipBody :=
  { suiteId, kemId, vaultId := founder.vaultId, version := 1, prevId := none, action := .add
    signerFingerprint := founder.fingerprint, deviceId := founder.deviceId
    ed25519Pk := founder.ed25519Pk, kemPublicKey := founder.kemPublicKey, issuedAt := 0 }

def genesisId : Digest := crypto.sha256 founder.genesisBody.encode

def genesisBytes : List UInt8 := founder.signed founder.genesisBody.encode

def member : Member :=
  { deviceId := founder.deviceId, fingerprint := founder.fingerprint
    ed25519Pk := founder.ed25519Pk, kemPublicKey := founder.kemPublicKey
    addedAtVersion := 1, revokedAtVersion := none }

def recipient : Recipient :=
  { deviceId := founder.deviceId, fingerprint := founder.fingerprint, suiteId, kemId
    enc := founder.enc, ciphertext := founder.sealedKeys.toList }

/-- The first epoch record is the genesis, every other one a rotation. -/
def reason : Nat → Reason
  | 0 => .genesis
  | _ + 1 => .rotation

def epochBodyAfter (previous : Option Digest) (count : Nat) : EpochBody :=
  { suiteId, kemId, vaultId := founder.vaultId, keyEpoch := UInt64.ofNat (count + 1)
    reason := reason count, membershipHead := founder.genesisId, prevEpochId := previous
    keyCommitmentKe := founder.keyCommitment count, keyCommitmentS := founder.keyCommitmentS
    sealerFingerprint := founder.fingerprint, recipients := [founder.recipient] }

/-- The canonical bytes of such a body. -/
def epochBodyBytes (previous : Option Digest) (count : Nat) : List UInt8 :=
  (founder.epochBodyAfter previous count).headerWriter
    (bigEndian 4 1 ++ [founder.recipient].flatMap EpochBody.writeRecipient)

/-- The id of the epoch record after `count` others. -/
def epochId : Nat → Digest
  | 0 => crypto.sha256 (founder.epochBodyBytes none 0)
  | count + 1 => crypto.sha256 (founder.epochBodyBytes (some (epochId count)) (count + 1))

/-- The id of the record before the one after `count` others. -/
def previousId : Nat → Option Digest
  | 0 => none
  | count + 1 => some (founder.epochId count)

def epochBody (count : Nat) : EpochBody := founder.epochBodyAfter (founder.previousId count) count

def epochRecord (count : Nat) : SignedRecord :=
  { body := founder.epochBodyBytes (founder.previousId count) count
    signature := founder.sign (founder.epochBodyBytes (founder.previousId count) count) }

def epochBytes (count : Nat) : List UInt8 :=
  founder.signed (founder.epochBodyBytes (founder.previousId count) count)

def epochRef (count : Nat) : EpochRef :=
  { id := founder.epochId count, prevEpochId := founder.previousId count, keyEpoch := count + 1
    reason := reason count, headIndex := 0, keyCommitmentKe := founder.keyCommitment count }

/-- The state of the founder's chain with `count` epoch records. -/
def chain (count : Nat) : VerifiedState :=
  { vaultId := founder.vaultId, steps := [⟨founder.genesisId, .add⟩], members := [founder.member]
    epochs := (List.range count).map founder.epochRef
    keyCommitmentS := if count = 0 then none else some founder.keyCommitmentS }

/-! ### The verifier accepts them -/

theorem parse_signed {body : List UInt8} {maxBody : Nat} (fits : body.length ≤ maxBody)
    (small : body.length < 2 ^ 32) :
    SignedRecord.parse (founder.signed body) maxBody = .ok ⟨body, founder.sign body⟩ := by
  refine SignedRecord.parse_encode ⟨body, founder.sign body⟩ fits ?_
  simp only [SignedRecord.encode, Writer.bytes, ensure_of small,
    ensure_of (show body.length ≤ 2 ^ 64 - 1 by omega), ok_bind]
  rfl

theorem encode_length (body : MembershipBody) : body.encode.length ≤ 256 := by
  have label : (Writer.withLabel membershipLabel).length = 28 := by decide
  have presence : (Writer.opt Writer.fixed body.prevId).length ≤ 33 := by
    cases body.prevId <;> simp [Writer.opt, Writer.fixed]
  simp only [MembershipBody.encode, Writer.u16, Writer.u64, Writer.u8, Writer.i64, Writer.fixed,
    List.length_append, List.length_singleton, bigEndian_length, List.Vector.toList_length, label]
  omega

theorem opensMembership_genesis :
    OpensMembership founder.vaultId founder.genesisBytes
      ⟨founder.genesisBody.encode, founder.sign founder.genesisBody.encode⟩
      founder.genesisBody := by
  have length := encode_length founder.genesisBody
  have fits : founder.genesisBody.encode.length ≤ maxMembershipBody :=
    length.trans (by decide)
  exact ⟨founder.parse_signed fits (by omega), MembershipBody.decode_encode _, ⟨rfl, rfl⟩, rfl⟩

theorem applyMembership_genesis (index : Nat) :
    applyMembership crypto (.empty founder.vaultId) index founder.genesisBytes =
      .ok (founder.chain 0) := by
  have room : 0 < maxChainLen := by decide
  refine applyMembership_eq_ok.mpr ⟨room, _, _, founder.opensMembership_genesis, ?_⟩
  refine .genesis rfl ⟨rfl, rfl, rfl, rfl⟩ ?_ (founder.verifies _)
  simp only [MembershipBody.keysAcceptable, Bool.and_eq_true]
  exact ⟨founder.ed25519Acceptable, founder.kemAcceptable⟩

theorem encode_epochBody :
    (founder.epochBodyAfter previous count).encode =
      .ok (founder.epochBodyBytes previous count) := by
  have few : (founder.epochBodyAfter previous count).recipients.length ≤ maxRecipients := by
    show 1 ≤ 1024
    decide
  have ordered : EpochBody.ascending (founder.epochBodyAfter previous count).recipients :=
    .singleton founder.recipient
  have sealedLength : ∀ recipient ∈ (founder.epochBodyAfter previous count).recipients,
      recipient.ciphertext.length = sealedKeysCiphertextLen := by
    intro recipient member
    rw [List.mem_singleton.mp member]
    exact founder.sealedKeys.toList_length
  rw [EpochBody.encode, ensure_of few, ok_bind, ensure_of ordered, ok_bind, ensure_of sealedLength]
  rfl

theorem epochBodyBytes_length : (founder.epochBodyBytes previous count).length ≤ 512 := by
  have label : (Writer.withLabel epochLabel).length = 30 := by decide
  have presence : (Writer.opt Writer.fixed previous).length ≤ 33 := by
    cases previous <;> simp [Writer.opt, Writer.fixed]
  have ciphertext : founder.recipient.ciphertext.length = 109 := founder.sealedKeys.toList_length
  have link : (founder.epochBodyAfter previous count).prevEpochId = previous := rfl
  simp only [epochBodyBytes, EpochBody.headerWriter, EpochBody.writeRecipient, Writer.u16,
    Writer.u64, Writer.u8, Writer.fixed, List.flatMap_cons, List.flatMap_nil, List.length_append,
    List.length_singleton, List.length_nil, bigEndian_length, List.Vector.toList_length, label,
    ciphertext, link]
  omega

theorem opensEpoch :
    OpensEpoch founder.vaultId (founder.epochBytes count) (founder.epochRecord count)
      (founder.epochBody count) := by
  have length := founder.epochBodyBytes_length (founder.previousId count) count
  exact ⟨founder.parse_signed (length.trans (by decide)) (by omega),
    EpochBody.decode_encode _ (founder.encode_epochBody _ count), ⟨rfl, rfl⟩, rfl⟩

theorem epochId_eq :
    founder.epochId count =
      crypto.sha256 (founder.epochBodyBytes (founder.previousId count) count) := by
  cases count with
  | zero => rw [epochId, previousId]
  | succ count => rw [epochId, previousId]

/-- No two epoch records of the founder share an id. -/
def CollisionFree : Prop :=
  ∀ first second, first < maxChainLen → second < maxChainLen →
    founder.epochId first = founder.epochId second → first = second

variable {founder}

theorem previousId_ne (collisionFree : founder.CollisionFree) {earlier count : Nat}
    (before : earlier < count) (room : count < maxChainLen) :
    founder.previousId earlier ≠ founder.previousId count := by
  obtain ⟨last, rfl⟩ : ∃ last, count = last + 1 := ⟨count - 1, by omega⟩
  cases earlier with
  | zero => exact fun same => nomatch same
  | succ earlier =>
    intro same
    have repeated := collisionFree earlier last (by omega) (by omega) (Option.some.inj same)
    omega

theorem chain_last :
    (founder.chain (count + 1)).epochs.getLast? = some (founder.epochRef count) := by
  rw [chain, List.range_succ, List.map_append, List.map_singleton, List.getLast?_append]
  rfl

theorem sequenced_next (room : count < maxChainLen) {newest : EpochRef}
    (same : newest = founder.epochRef count) :
    Sequenced (founder.chain count) founder.keyCommitmentS newest := by
  subst same
  cases count with
  | zero => exact .first rfl rfl rfl rfl rfl
  | succ count =>
    have small : count + 1 < 4096 := room
    have raised : nextKeyEpoch (count + 1) = count + 1 + 1 := Nat.mod_eq_of_lt (by omega)
    refine .later (chain_last count) rfl (.rotation rfl rfl rfl raised.symm) ?_
    intro _ epoch member
    obtain ⟨earlier, inside, rfl⟩ := List.mem_map.mp member
    have below := List.mem_range.mp inside
    intro repeated
    have clash := founder.fresh earlier (count + 1) (by omega) room repeated
    omega

theorem toNat_keyEpoch {count : Nat} (room : count < maxChainLen) :
    (UInt64.ofNat (count + 1)).toNat = count + 1 := by
  have small : count < 4096 := room
  exact UInt64.toNat_ofNat_of_lt' (by change count + 1 < 2 ^ 64; omega)

theorem chain_epochs_length : (founder.chain count).epochs.length = count := by
  rw [chain, List.length_map, List.length_range]

theorem unseen_next (collisionFree : founder.CollisionFree) {count : Nat}
    (room : count < maxChainLen) :
    ((founder.chain count).epochs.find? fun epoch =>
      epoch.prevEpochId = (founder.epochBody count).prevEpochId) = none := by
  refine List.find?_eq_none.mpr fun epoch member => ?_
  obtain ⟨earlier, inside, rfl⟩ := List.mem_map.mp member
  rw [decide_eq_true_eq]
  exact previousId_ne collisionFree (List.mem_range.mp inside) room

theorem signedBy_founder :
    SignedBy crypto (founder.chain count) founder.fingerprint 1 (founder.epochRecord count) := by
  refine ⟨founder.member, ?_, founder.verifies _⟩
  rw [VerifiedState.authorizedMember]
  refine List.find?_cons_of_pos ?_
  rw [Bool.and_eq_true, decide_eq_true_eq]
  exact ⟨rfl, rfl⟩

theorem epochRefOf_next {count : Nat} (room : count < maxChainLen) :
    epochRefOf crypto (founder.epochRecord count) (founder.epochBody count) 0 =
      founder.epochRef count := by
  rw [epochRefOf, epochRef, SignedRecord.id, epochId_eq]
  simp only [epochBody, epochBodyAfter, epochRecord, toNat_keyEpoch room]

theorem addressed_next :
    Addressed ((expectedRecipients (founder.chain count) (founder.epochBody count).reason 1).map
      Member.name) (founder.epochBody count).recipients := by
  have everyone : (founder.chain count).authorizedAt 1 = [founder.member] := rfl
  have expected : expectedRecipients (founder.chain count) (founder.epochBody count).reason 1 =
      [founder.member] := by
    cases count with
    | zero => exact everyone
    | succ count => exact everyone
  rw [expected]
  have only : ∀ recipient ∈ (founder.epochBody count).recipients, recipient = founder.recipient :=
    fun recipient member => List.mem_singleton.mp member
  refine ⟨?_, ?_, List.nodup_singleton _, rfl⟩
  · intro recipient member
    rw [only recipient member]
    exact ⟨rfl, rfl⟩
  · intro recipient member
    rw [only recipient member]
    exact List.mem_cons_self

theorem applyEpoch_next (collisionFree : founder.CollisionFree) {count : Nat}
    (room : count < maxChainLen) (index : Nat) :
    applyEpoch crypto (founder.chain count) index (founder.epochBytes count) =
      .ok (founder.chain (count + 1)) := by
  have head : (founder.chain count).headIndexOf (founder.epochBody count).membershipHead =
      some 0 := by
    simp [VerifiedState.headIndexOf, chain, epochBody, epochBodyAfter]
  have step := EpochStep.accepted (unseen_next collisionFree room) head (signedBy_founder count)
    (sequenced_next count room (epochRefOf_next room)) (addressed_next count)
  rw [epochRefOf_next room] at step
  have left : (founder.chain (count + 1)) =
      { founder.chain count with
        epochs := (founder.chain count).epochs ++ [founder.epochRef count]
        keyCommitmentS := if (founder.epochBody count).reason = .genesis then
          some (founder.epochBody count).keyCommitmentS
          else (founder.chain count).keyCommitmentS } := by
    rw [chain, chain, List.range_succ, List.map_append]
    cases count with
    | zero => rfl
    | succ count => rfl
  rw [left]
  exact applyEpoch_eq_ok.mpr ⟨by rw [chain_epochs_length]; exact room, _, _,
    founder.opensEpoch count, step⟩

theorem coupled_chain : Coupled (founder.chain (count + 1)) :=
  fun _ => ⟨founder.epochRef count, chain_last count, le_rfl⟩

theorem applyEpochs_founder (collisionFree : founder.CollisionFree) {count : Nat}
    (fits : count ≤ maxChainLen) :
    applyFrom (applyEpoch crypto) 0 (founder.chain 0) ((List.range count).map founder.epochBytes) =
      .ok (founder.chain count) := by
  induction count with
  | zero => rfl
  | succ count inductionHypothesis =>
    rw [List.range_succ, List.map_append, applyFrom_append,
      inductionHypothesis (Nat.le_of_succ_le fits), ok_bind, List.map_singleton, applyFrom_cons,
      applyEpoch_next collisionFree fits]
    rfl

theorem extend_next (collisionFree : founder.CollisionFree) {count : Nat}
    (room : count < maxChainLen) :
    extend crypto (founder.chain count) [] [founder.epochBytes count] =
      .ok (founder.chain (count + 1)) := by
  refine extend_eq_ok.mpr ⟨_, rfl, ?_, coupled_chain count⟩
  rw [applyFrom_cons, applyEpoch_next collisionFree room]
  rfl

variable (founder)

theorem verifyChain_founder (collisionFree : founder.CollisionFree) {count : Nat}
    (positive : 1 ≤ count) (fits : count ≤ maxChainLen) :
    verifyChain crypto founder.vaultId [founder.genesisBytes]
      ((List.range count).map founder.epochBytes) = .ok (founder.chain count) := by
  refine extend_eq_ok.mpr ⟨founder.chain 0, ?_, applyEpochs_founder collisionFree fits, ?_⟩
  · rw [applyFrom_cons, applyMembership_genesis]
    rfl
  · obtain ⟨last, rfl⟩ : ∃ last, count = last + 1 := ⟨count - 1, by omega⟩
    exact coupled_chain last

end Founder

/-! ### A founder -/

/-- A cryptography to run the verifier with: the digest is the part of a record that tells epoch
records apart and the sum of its bytes, every point is acceptable, and a signature is good when its
point is the signer's key. -/
def sampleCrypto : Crypto where
  sha256 bytes := ⟨(bytes.drop 52 ++ List.replicate 8 0).take 8 ++
    bigEndian 24 (bytes.map UInt8.toNat).sum, by simp⟩
  Point := PublicKey
  fromBytes := some
  compress := id
  isWeak _ := false
  isTorsionFree _ := true
  verifyStrict key _ signature := signaturePoint signature == key

theorem sampleCrypto_acceptable (encoded : PublicKey) :
    ed25519PointAcceptable sampleCrypto encoded = true := by
  simp [ed25519PointAcceptable, sampleCrypto]

def sampleFounder : Founder sampleCrypto where
  vaultId := List.Vector.replicate 16 1
  deviceId := List.Vector.replicate 16 2
  ed25519Pk := List.Vector.replicate 32 7
  kemPublicKey := List.Vector.replicate 32 9
  sign _ := ⟨List.replicate 32 7 ++ List.replicate 32 0, rfl⟩
  keyCommitmentS := List.Vector.replicate 32 3
  keyCommitment count := ⟨bigEndian 32 count, bigEndian_length 32 count⟩
  enc := List.Vector.replicate 32 4
  sealedKeys := List.Vector.replicate 109 5
  ed25519Acceptable := sampleCrypto_acceptable _
  kemAcceptable := by decide
  verifies message := by
    simp only [ed25519VerifyStrict, sampleCrypto_acceptable, Bool.not_true, Bool.false_or]
    exact if_neg (by simp)
  fresh first second firstSmall secondSmall same := by
    have firstSmall : first < 4096 := firstSmall
    have secondSmall : second < 4096 := secondSmall
    exact bigEndian_injective (firstSmall.trans (by decide)) (secondSmall.trans (by decide))
      (congrArg List.Vector.toList same)

/-- The same device with other epoch keys: its records stand against the founder's own. -/
def sampleRival : Founder sampleCrypto :=
  { sampleFounder with
    keyCommitment := fun count => sampleFounder.keyCommitment (count + 1)
    fresh := fun first second firstSmall secondSmall same => by
      have firstSmall : first < 4096 := firstSmall
      have secondSmall : second < 4096 := secondSmall
      have fits : 4097 < 256 ^ 32 := by decide
      have next := bigEndian_injective (by omega) (by omega) (congrArg List.Vector.toList same)
      omega }

theorem sampleRival_chain : sampleRival.chain 0 = sampleFounder.chain 0 := by
  have genesisBody : sampleRival.genesisBody = sampleFounder.genesisBody := rfl
  have member : sampleRival.member = sampleFounder.member := rfl
  rw [Founder.chain, Founder.chain, Founder.genesisId, Founder.genesisId, genesisBody, member]
  rfl

theorem headerWriter_eq_append (body : EpochBody) (rest : List UInt8) :
    ∃ front tail, body.headerWriter rest = front ++ (Writer.u64 body.keyEpoch ++ tail) ∧
      front.length = 52 := by
  refine ⟨Writer.withLabel epochLabel ++ (Writer.u16 protocolVersion ++ (Writer.u16 body.suiteId ++
    (Writer.u16 body.kemId ++ Writer.fixed body.vaultId))), ?_⟩
  have label : (Writer.withLabel epochLabel).length = 30 := by decide
  apply Exists.intro
  constructor
  · simp only [EpochBody.headerWriter, List.append_assoc]
    rfl
  · simp only [Writer.u16, Writer.fixed, List.length_append, bigEndian_length,
      List.Vector.toList_length, label]

theorem sampleCrypto_epochId (founder : Founder sampleCrypto) (count : Nat) :
    (founder.epochId count).toList.take 8 = bigEndian 8 (UInt64.ofNat (count + 1)).toNat := by
  obtain ⟨front, tail, split, length⟩ :=
    headerWriter_eq_append (founder.epochBodyAfter (founder.previousId count) count)
      (bigEndian 4 1 ++ [founder.recipient].flatMap EpochBody.writeRecipient)
  rw [Founder.epochId_eq, Founder.epochBodyBytes, split]
  have start : ((front ++ (Writer.u64 (UInt64.ofNat (count + 1)) ++ tail)).drop 52 ++
      List.replicate 8 0).take 8 = bigEndian 8 (UInt64.ofNat (count + 1)).toNat := by
    rw [List.drop_left' length, List.append_assoc]
    exact List.take_left' (bigEndian_length 8 _)
  exact (List.take_left' (by simp)).trans start

theorem sampleCrypto_collisionFree (founder : Founder sampleCrypto) : founder.CollisionFree := by
  intro first second firstSmall secondSmall same
  have read := congrArg (fun id => id.toList.take 8) same
  simp only [sampleCrypto_epochId, Founder.toNat_keyEpoch firstSmall,
    Founder.toNat_keyEpoch secondSmall] at read
  have firstSmall : first < 4096 := firstSmall
  have secondSmall : second < 4096 := secondSmall
  have equal := bigEndian_injective (by omega) (by omega) read
  omega

theorem verifyChain_sample {count : Nat} (positive : 1 ≤ count) (fits : count ≤ maxChainLen) :
    verifyChain sampleCrypto sampleFounder.vaultId [sampleFounder.genesisBytes]
      ((List.range count).map sampleFounder.epochBytes) = .ok (sampleFounder.chain count) :=
  sampleFounder.verifyChain_founder (sampleCrypto_collisionFree _) positive fits

end Dohflow.SyncCore
