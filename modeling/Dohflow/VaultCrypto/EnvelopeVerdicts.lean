/-
This file proves that replicas agree on an envelope: a verdict once given stays, and
what the producer verified and the service admitted every replica finds valid.

The open step asks the chain one thing, the fingerprint of the header's device in its
window (`openTyped_congr`). A later chain answers that as an earlier one does up to the
earlier one's head, which a position built from an accepted epoch record is not past.
-/

import Dohflow.SyncCore.Verdicts
import Dohflow.VaultCrypto.SyncEnvelope

namespace Dohflow.VaultCrypto

open ByteReader Fallible SyncCore

variable {crypto : Crypto} {aead : Aead} {vaultId : Uuid} {chain later : VerifiedState}
  {tagFor : IdempotencyKey → IdempotencyKeyTag}
variable {container : ParsedContainer} {key : EpochKey} {keys : List EpochKey}
  {position : EpochAtPosition} {plaintext : List UInt8} {header : ClearHeader}
  {window otherWindow : MemberWindow} {bytes : List UInt8} {newest : EpochRef} {member : Member}

/-! ### Keys and positions -/

/-- A key of the chain's vault that was held to the commitment of its epoch's record. -/
def VerifiedKey (crypto : Crypto) (chain : VerifiedState) (key : EpochKey) : Prop :=
  key.vaultId = chain.vaultId ∧
    chain.epochKeyCommitment key.keyEpoch.toNat = some (epochKeyCommitment crypto key.bytes)

/-- Every key of the chain's vault in the list is verified. -/
def VerifiedKeys (crypto : Crypto) (chain : VerifiedState) (keys : List EpochKey) : Prop :=
  ∀ key ∈ keys, key.vaultId = chain.vaultId → VerifiedKey crypto chain key

/-- No two of the keys have one commitment. -/
def DistinctCommitments (crypto : Crypto) (keys : List EpochKey) : Prop :=
  ∀ first ∈ keys, ∀ second ∈ keys,
    epochKeyCommitment crypto first.bytes = epochKeyCommitment crypto second.bytes →
      first.bytes = second.bytes

instance (chain : VerifiedState) (key : EpochKey) : Decidable (VerifiedKey crypto chain key) :=
  inferInstanceAs (Decidable (_ ∧ _))

instance (chain : VerifiedState) (keys : List EpochKey) :
    Decidable (VerifiedKeys crypto chain keys) :=
  inferInstanceAs (Decidable (∀ _ ∈ keys, _ → _))

instance (keys : List EpochKey) : Decidable (DistinctCommitments crypto keys) :=
  inferInstanceAs (Decidable (∀ _ ∈ keys, ∀ _ ∈ keys, _ → _))

theorem epochKeyCommitment_of_grown (grown : Grown chain later) {keyEpoch : Nat}
    {commitment : Digest} (recorded : chain.epochKeyCommitment keyEpoch = some commitment) :
    later.epochKeyCommitment keyEpoch = some commitment := by
  obtain ⟨epoch, found, _⟩ := Option.map_eq_some_iff.mp recorded
  have selected := List.find?_some found
  rw [VerifiedState.epochKeyCommitment,
    grown.find?_epochs (List.mem_of_find?_eq_some found) selected]
  exact recorded

theorem VerifiedKey.grown (grown : Grown chain later) (verified : VerifiedKey crypto chain key) :
    VerifiedKey crypto later key :=
  ⟨verified.1.trans grown.vaultId.symm, epochKeyCommitment_of_grown grown verified.2⟩

/-- A chain has one verified key for an epoch. -/
theorem VerifiedKey.unique (distinct : DistinctCommitments crypto keys) {first second : EpochKey}
    (inside : first ∈ keys) (insideToo : second ∈ keys) (verified : VerifiedKey crypto chain first)
    (verifiedToo : VerifiedKey crypto chain second) (sameEpoch : first.keyEpoch = second.keyEpoch) :
    first = second := by
  have committed := verified.2
  rw [sameEpoch, verifiedToo.2] at committed
  have bytes := distinct first inside second insideToo (Option.some.inj committed).symm
  have vault := verified.1.trans verifiedToo.1.symm
  cases first
  cases second
  simp only at sameEpoch bytes vault
  rw [sameEpoch, bytes, vault]

theorem find?_verified (verified : VerifiedKeys crypto chain keys)
    (distinct : DistinctCommitments crypto (key :: keys)) (own : VerifiedKey crypto chain key)
    (held : ∃ other ∈ keys, other.keyEpoch = key.keyEpoch ∧ other.vaultId = key.vaultId) :
    (keys.find? fun other => other.keyEpoch = key.keyEpoch && other.vaultId = key.vaultId) =
      some key := by
  cases found : keys.find? fun other =>
      other.keyEpoch = key.keyEpoch && other.vaultId = key.vaultId with
  | none =>
    obtain ⟨other, inside, sameEpoch, sameVault⟩ := held
    have refused := List.find?_eq_none.mp found other inside
    simp [sameEpoch, sameVault] at refused
  | some other =>
    have selected := List.find?_some found
    rw [Bool.and_eq_true, decide_eq_true_eq, decide_eq_true_eq] at selected
    have inside := List.mem_of_find?_eq_some found
    have otherVerified := verified other inside (selected.2.trans own.1)
    rw [VerifiedKey.unique distinct (List.mem_cons_of_mem _ inside) List.mem_cons_self
      otherVerified own selected.1]

theorem afterEpochRecord_of_grown (grown : Grown chain later) (invariant : EpochsInvariant chain)
    {id : Digest} (built : EpochAtPosition.afterEpochRecord chain id = some position) :
    EpochAtPosition.afterEpochRecord later id = some position ∧
      position.membershipHeadVersion ≤ chain.headVersion := by
  obtain ⟨record, found, rfl⟩ := Option.map_eq_some_iff.mp built
  have inside := List.mem_of_find?_eq_some found
  refine ⟨?_, invariant.known record inside⟩
  rw [EpochAtPosition.afterEpochRecord, grown.find?_epochs inside (List.find?_some found)]
  exact built

/-! ### The open step -/

theorem openTyped_congr
    (same : (window.member chain container.header.deviceId key.keyEpoch).map Member.fingerprint =
      (otherWindow.member later container.header.deviceId key.keyEpoch).map Member.fingerprint) :
    openTyped crypto aead key chain window container =
      openTyped crypto aead key later otherWindow container := by
  unfold openTyped
  dsimp only
  cases first : window.member chain container.header.deviceId key.keyEpoch with
  | none =>
    rw [first] at same
    rw [Option.map_eq_none_iff.mp same.symm]
  | some member =>
    rw [first] at same
    obtain ⟨other, second, sameFingerprint⟩ := Option.map_eq_some_iff.mp same.symm
    rw [second]
    simp only [orFail, ok_bind, sameFingerprint]

theorem openTyped_eq_ok {window : MemberWindow} :
    openTyped crypto aead key chain window container = .ok plaintext ↔
      container.header.objectType = objectEnvelope ∧
      container.header.vaultId = key.vaultId ∧ container.header.keyEpoch = key.keyEpoch ∧
      ∃ member, window.member chain container.header.deviceId key.keyEpoch = some member ∧
        member.fingerprint = container.header.deviceKeyFingerprint ∧
        container.header.nonceDomain = NonceDomain.derive crypto key.vaultId key.keyEpoch
          member.fingerprint objectEnvelope ∧
        gcmDecrypt aead (aeadKey aead key member.fingerprint .envelope)
          (NonceDomain.derive crypto key.vaultId key.keyEpoch member.fingerprint objectEnvelope)
          container.header.invocationCounter container.headerBytes container.ciphertext =
            some plaintext := by
  simp only [openTyped, bind_eq_ok, ensure_eq_ok, exists_const, orFail_eq_ok]

/-! ### A verdict stays -/

theorem judgeAt_of_grown (grown : Grown chain later)
    (past : position.membershipHeadVersion ≤ chain.headVersion) {keys laterKeys : List EpochKey}
    (held : keys ⊆ laterKeys) (verified : VerifiedKeys crypto later laterKeys)
    (distinct : DistinctCommitments crypto laterKeys)
    (vault : container.header.vaultId = chain.vaultId)
    (judged : judgeAt crypto aead keys chain position tagFor container ≠
      .notDeterminable .noVerifiedKey) :
    judgeAt crypto aead laterKeys later position tagFor container =
      judgeAt crypto aead keys chain position tagFor container := by
  unfold judgeAt at judged ⊢
  dsimp only at judged ⊢
  split
  · rfl
  · rw [if_neg ‹_›] at judged
    cases found : keys.find? fun key =>
        key.keyEpoch = container.header.keyEpoch && key.vaultId = container.header.vaultId with
    | none =>
      rw [found] at judged
      exact absurd rfl judged
    | some key =>
      have inside := held (List.mem_of_find?_eq_some found)
      have selected := List.find?_some found
      rw [Bool.and_eq_true, decide_eq_true_eq, decide_eq_true_eq] at selected
      obtain ⟨sameEpoch, sameVault⟩ := selected
      have own : VerifiedKey crypto later key :=
        verified key inside (sameVault.trans (vault.trans grown.vaultId.symm))
      have distinctOwn : DistinctCommitments crypto (key :: laterKeys) := by
        intro first firstIn second secondIn
        refine distinct first ?_ second ?_
        · exact (List.mem_cons.mp firstIn).elim (fun same => same ▸ inside) id
        · exact (List.mem_cons.mp secondIn).elim (fun same => same ▸ inside) id
      have foundLater := find?_verified verified distinctOwn own ⟨key, inside, rfl, rfl⟩
      rw [sameEpoch, sameVault] at foundLater
      rw [foundLater]
      refine congrArg (judgeOpened crypto container.header tagFor) (openTyped_congr ?_)
      have same := congrArg (Option.map Member.fingerprint)
        (grown.authorizedMemberAtVersion container.header.deviceId past)
      rw [Option.map_map, Option.map_map] at same
      exact same

theorem judgeOpened_ne_wait (opened : Except OpenFailure (List UInt8)) (wait : Wait) :
    judgeOpened crypto header tagFor opened ≠ .notDeterminable wait := by
  intro waits
  unfold judgeOpened at waits
  split at waits
  · cases waits
  · split at waits
    · cases waits
    · split at waits
      · cases waits
      · cases waits

theorem judgeAt_wait {wait : Wait}
    (waits : judgeAt crypto aead keys chain position tagFor container = .notDeterminable wait) :
    wait = .noVerifiedKey := by
  unfold judgeAt at waits
  dsimp only at waits
  split at waits
  · cases waits
  · split at waits
    · exact (Verdict.notDeterminable.inj waits).symm
    · exact absurd waits (judgeOpened_ne_wait _ wait)

theorem classifyEnvelope_updateRequired {engineVersion : String} {position : Option EpochAtPosition} :
    classifyEnvelope crypto aead bytes engineVersion keys chain position tagFor =
        .notDeterminable .updateRequired ↔
      ∃ container, parseContainerWithLimit bytes maxEnvelopeContainerLen = .ok container ∧
        container.header.vaultId = chain.vaultId ∧
        container.header.engineVersion ≠ engineVersion := by
  unfold classifyEnvelope
  cases parseContainerWithLimit bytes maxEnvelopeContainerLen with
  | error failure => simp
  | ok container =>
    by_cases vault : container.header.vaultId = chain.vaultId
    · by_cases version : container.header.engineVersion = engineVersion
      · have judged : ∀ position, judgeAt crypto aead keys chain position tagFor container ≠
            .notDeterminable .updateRequired := fun position waits => nomatch judgeAt_wait waits
        cases position with
        | none => simp [vault, version]
        | some position => simp [vault, version, judged]
      · simp [vault, version]
    · simp [vault]

theorem classifyEnvelope_of_grown (grown : Grown chain later) {keys laterKeys : List EpochKey}
    (held : keys ⊆ laterKeys) (verified : VerifiedKeys crypto later laterKeys)
    (distinct : DistinctCommitments crypto laterKeys) {position : Option EpochAtPosition}
    {laterPosition : EpochAtPosition}
    (built : ∀ known, position = some known → laterPosition = known ∧
      known.membershipHeadVersion ≤ chain.headVersion)
    (bytes : List UInt8) (engineVersion : String) :
    classifyEnvelope crypto aead bytes engineVersion laterKeys later (some laterPosition) tagFor =
        classifyEnvelope crypto aead bytes engineVersion keys chain position tagFor ∨
      classifyEnvelope crypto aead bytes engineVersion keys chain position tagFor =
        .notDeterminable .chainBehind ∨
      classifyEnvelope crypto aead bytes engineVersion keys chain position tagFor =
        .notDeterminable .noVerifiedKey := by
  unfold classifyEnvelope
  rw [grown.vaultId]
  cases parseContainerWithLimit bytes maxEnvelopeContainerLen with
  | error failure => exact .inl rfl
  | ok container =>
    dsimp only
    split
    · exact .inl rfl
    · next vault =>
      split
      · exact .inl rfl
      · cases position with
        | none => exact .inr (.inl rfl)
        | some known =>
          obtain ⟨rfl, past⟩ := built known rfl
          by_cases keyless : judgeAt crypto aead keys chain laterPosition tagFor container =
              .notDeterminable .noVerifiedKey
          · exact .inr (.inr keyless)
          · exact .inl (judgeAt_of_grown grown past held verified distinct (not_not.mp vault)
              keyless)

/-- A replica's verdict never flips as its chain and its verified keys grow: only a missing position
or key is filled in, and a foreign engine version is none of the keys', the chain's or the
position's business. -/
theorem verdict_never_flips {keys laterKeys : List EpochKey} {epochRecordId : Digest}
    {position : Option EpochAtPosition} {laterPosition : EpochAtPosition}
    (reachable : Reachable crypto vaultId chain) (extended : Later crypto chain later)
    (held : keys.Sublist laterKeys) (verified : VerifiedKeys crypto later laterKeys)
    (distinct : DistinctCommitments crypto laterKeys)
    (built : position = none ∨
      position = EpochAtPosition.afterEpochRecord chain epochRecordId)
    (builtLater : EpochAtPosition.afterEpochRecord later epochRecordId = some laterPosition)
    (bytes : List UInt8) (engineVersion : String) :
    let verdict := classifyEnvelope crypto aead bytes engineVersion keys chain position tagFor
    let laterVerdict := classifyEnvelope crypto aead bytes engineVersion laterKeys later
      (some laterPosition) tagFor
    (verdict = .valid → laterVerdict = .valid) ∧
    (∀ reason, verdict = .invalid reason → laterVerdict = .invalid reason) ∧
    (laterVerdict ≠ verdict → verdict = .notDeterminable .chainBehind ∨
      verdict = .notDeterminable .noVerifiedKey) ∧
    (∀ anyKeys anyPosition,
      classifyEnvelope crypto aead bytes engineVersion anyKeys later anyPosition tagFor =
          .notDeterminable .updateRequired ↔
        verdict = .notDeterminable .updateRequired) := by
  have grown := extended.grown
  have builtKnown : ∀ known, position = some known → laterPosition = known ∧
      known.membershipHeadVersion ≤ chain.headVersion := by
    rintro known rfl
    obtain absent | found := built
    · cases absent
    · obtain ⟨stays, past⟩ :=
        afterEpochRecord_of_grown grown reachable.run.epochsInvariant found.symm
      exact ⟨Option.some.inj (builtLater.symm.trans stays), past⟩
  intro verdict laterVerdict
  have stays : laterVerdict = verdict ∨ verdict = .notDeterminable .chainBehind ∨
      verdict = .notDeterminable .noVerifiedKey :=
    classifyEnvelope_of_grown grown held.subset verified distinct builtKnown bytes engineVersion
  have settled (judged : Verdict) (final : verdict = judged)
      (waits : ∀ wait, judged ≠ .notDeterminable wait) : laterVerdict = judged := by
    obtain same | behind | keyless := stays
    · exact same.trans final
    · exact absurd (final.symm.trans behind) (waits _)
    · exact absurd (final.symm.trans keyless) (waits _)
  refine ⟨fun valid => settled .valid valid fun _ wait => (nomatch wait),
    fun reason invalid => settled (.invalid reason) invalid fun _ wait => (nomatch wait),
    fun changed => stays.resolve_left changed, fun anyKeys anyPosition => ?_⟩
  show _ ↔ classifyEnvelope crypto aead bytes engineVersion keys chain position tagFor = _
  rw [classifyEnvelope_updateRequired, classifyEnvelope_updateRequired, grown.vaultId]

/-! ### A sealed envelope -/

/-- A stand-in for the cipher: it leaves the text as it is and appends 16 bytes. -/
def plainAead : Aead where
  expand secret _ := secret
  encrypt _ _ _ message := some (message ++ List.replicate 16 0)
  decrypt _ _ _ ciphertext := some (ciphertext.take (ciphertext.length - 16))

/-- The secret of the nth epoch, counting from 0. -/
def sampleSecret (count : Nat) : SecretBytes :=
  ⟨List.replicate 18 0 ++ (bigEndian 8 count ++ List.replicate 6 0), by simp⟩

theorem epochKeyCommitment_sampleSecret (count : Nat) :
    (epochKeyCommitment sampleCrypto (sampleSecret count)).toList.take 8 = bigEndian 8 count := by
  have split : Writer.withLabel epochKeyCommitmentLabel ++ Writer.fixed (sampleSecret count) =
      (Writer.withLabel epochKeyCommitmentLabel ++ List.replicate 18 0) ++
        (bigEndian 8 count ++ List.replicate 6 0) := by
    rw [List.append_assoc]
    rfl
  have front : (Writer.withLabel epochKeyCommitmentLabel ++ List.replicate 18 0).length = 52 := by
    decide
  have start : ((Writer.withLabel epochKeyCommitmentLabel ++
      Writer.fixed (sampleSecret count)).drop 52 ++ List.replicate 8 0).take 8 =
        bigEndian 8 count := by
    rw [split, List.drop_left' front, List.append_assoc]
    exact List.take_left' (bigEndian_length 8 _)
  exact (List.take_left' (by simp)).trans start

/-- The sample founder with records that commit to those secrets. -/
def keyedFounder : Founder sampleCrypto :=
  { sampleFounder with
    keyCommitment := fun count => epochKeyCommitment sampleCrypto (sampleSecret count)
    fresh := fun first second firstSmall secondSmall same => by
      have firstSmall : first < 4096 := firstSmall
      have secondSmall : second < 4096 := secondSmall
      have read := congrArg (fun digest => digest.toList.take 8) same
      simp only [epochKeyCommitment_sampleSecret] at read
      exact bigEndian_injective (by omega) (by omega) read }

/-- The key of the founder's epoch. -/
def sampleKey (count : Nat) : EpochKey :=
  { vaultId := keyedFounder.vaultId, keyEpoch := UInt64.ofNat (count + 1)
    bytes := sampleSecret count }

def sampleEnvelopePlaintext : EnvelopePlaintext :=
  { immutableMeta := sampleMeta, writeSetHash := .replicate 32 24
    deltaManifest := { ids := [], few := Nat.zero_le _, ascending := strictlyAscending_nil }, payload := [1, 2] }

/-- The founder's header for it. -/
def sampleEnvelopeHeader : ClearHeader :=
  { baseHeader with deviceKeyFingerprint := keyedFounder.fingerprint }.committingTo sampleCrypto
    sampleTag sampleEnvelopePlaintext sampleCommitment

/-- The founder's envelope. -/
@[irreducible] def sampleEnvelope : List UInt8 :=
  match sealEnvelope sampleCrypto plainAead (sampleKey 0)
      ⟨keyedFounder.vaultId, keyedFounder.deviceId, keyedFounder.fingerprint⟩ sampleEnvelopeHeader
      sampleEnvelopePlaintext.spelled with
  | .ok bytes => bytes
  | .error _ => []

theorem keyedFounder_reachable :
    Reachable sampleCrypto keyedFounder.vaultId (keyedFounder.chain 1) :=
  .of_verifyChain (keyedFounder.verifyChain_founder (sampleCrypto_collisionFree _) (le_refl 1)
    (by decide))

theorem keyedFounder_later : Later sampleCrypto (keyedFounder.chain 1) (keyedFounder.chain 2) :=
  .single ⟨_, _, Founder.extend_next (sampleCrypto_collisionFree _) (by decide)⟩

/-- The envelope is valid to a replica that has rotated, as it was to one that had not. -/
theorem verdict_never_flips_sample :
    classifyEnvelope sampleCrypto plainAead sampleEnvelope "1" [sampleKey 0, sampleKey 1]
      (keyedFounder.chain 2) (some ⟨1, 1⟩) sampleTag = .valid := by
  have held : [sampleKey 0].Sublist [sampleKey 0, sampleKey 1] := List.sublist_append_left _ _
  have built : some ⟨1, 1⟩ =
      EpochAtPosition.afterEpochRecord (keyedFounder.chain 1) (keyedFounder.epochId 0) := by
    decide +kernel
  have builtLater : EpochAtPosition.afterEpochRecord (keyedFounder.chain 2)
      (keyedFounder.epochId 0) = some ⟨1, 1⟩ := by
    decide +kernel
  exact (verdict_never_flips keyedFounder_reachable keyedFounder_later held (by decide +kernel)
    (by decide +kernel) (.inr built) builtLater sampleEnvelope "1").1 (by decide +kernel)

/-! ### What the producer verified and the service admitted -/

theorem header_of_parsePush {routedVault : Uuid} {parsed : ParsedPush}
    (accepted : parsePush crypto bytes routedVault = .ok parsed)
    (opened : parseContainerWithLimit bytes maxEnvelopeContainerLen = .ok container) :
    parsed.header = container.header := by
  simp only [parsePush, bind_eq_ok, ensure_eq_ok, exists_const, mapError_eq_ok] at accepted
  obtain ⟨other, again, -, -, identity, -, made⟩ := accepted
  obtain rfl := Except.ok.inj (again.symm.trans opened)
  rw [← Except.ok.inj made]

theorem checkNewPush_eq_ok {view : PushView} :
    checkNewPush crypto header view = .ok () ↔
      (∃ member ∈ view.chain.members, member.authorizedAt view.chain.headVersion = true ∧
        member.deviceId = header.deviceId ∧ member.fingerprint = header.deviceKeyFingerprint) ∧
      header.nonceDomain = NonceDomain.derive crypto header.vaultId header.keyEpoch
        header.deviceKeyFingerprint objectEnvelope ∧
      header.keyEpoch = view.epochInForce := by
  simp only [checkNewPush, bind_eq_ok, ensure_eq_ok, exists_const, VerifiedState.authorized,
    VerifiedState.authorizedAt, List.any_eq_true, List.mem_filter, Bool.and_eq_true,
    decide_eq_true_eq, and_assoc]

theorem receiverOpener_eq_some {window : MemberWindow} :
    receiverOpener crypto aead key chain window container = some plaintext ↔
      openTyped crypto aead key chain window container = .ok plaintext := by
  unfold receiverOpener
  cases openTyped crypto aead key chain window container with
  | error failure =>
    constructor
    · intro opened
      cases opened
    · intro opened
      cases opened
  | ok other =>
    constructor
    · intro opened
      rw [Option.some.inj opened]
    · intro opened
      rw [Except.ok.inj opened]
      rfl

theorem judgeOpened_valid {plaintextBytes : List UInt8} {plaintext : EnvelopePlaintext}
    (decoded : EnvelopePlaintext.decode plaintextBytes = .ok plaintext)
    (checked : ∃ envelope, checkEnvelope crypto header plaintext tagFor = .ok envelope) :
    judgeOpened crypto header tagFor (.ok plaintextBytes) = .valid := by
  obtain ⟨envelope, checked⟩ := checked
  simp only [judgeOpened, decoded, checked]

theorem openTyped_of_fingerprint
    (opened : openTyped crypto aead key chain window container = .ok plaintext)
    (held : otherWindow.member later container.header.deviceId key.keyEpoch = some member)
    (same : member.fingerprint = container.header.deviceKeyFingerprint) :
    openTyped crypto aead key later otherWindow container = .ok plaintext := by
  obtain ⟨object, vault, keyEpoch, own, _, ownFingerprint, domain, deciphered⟩ :=
    openTyped_eq_ok.mp opened
  have agreed : own.fingerprint = member.fingerprint := ownFingerprint.trans same.symm
  rw [agreed] at domain deciphered
  exact openTyped_eq_ok.mpr ⟨object, vault, keyEpoch, member, held, same, domain, deciphered⟩

theorem exists_member_at_newest (reachable : Reachable crypto vaultId chain)
    (grown : Grown chain later) (ends : chain.epochs.getLast? = some newest)
    (inside : member ∈ chain.members) (authorized : member.authorizedAt chain.headVersion = true) :
    ∃ other, later.authorizedMemberAtVersion member.deviceId (newest.headIndex + 1) = some other ∧
      other.fingerprint = member.fingerprint := by
  have distinct := reachable.run.membershipInvariant.distinct
  have found : chain.authorizedMemberAtVersion member.deviceId chain.headVersion = some member :=
    (authorizedMemberAtVersion_eq_some distinct).mpr ⟨inside, rfl, authorized⟩
  rw [reachable.headIndex_newest ends]
  obtain ⟨other, foundLater, same⟩ := exists_of_map_asAdded
    (grown.authorizedMemberAtVersion member.deviceId (le_refl _)) found
  have sameFingerprint : other.asAdded.fingerprint = member.asAdded.fingerprint := by rw [same]
  exact ⟨other, foundLater, sameFingerprint⟩

theorem afterEpochRecord_newest (grown : Grown chain later) (inside : newest ∈ chain.epochs)
    (unique : ∀ other ∈ chain.epochs, other.id = newest.id → other = newest) :
    EpochAtPosition.afterEpochRecord later newest.id =
      some { keyEpoch := newest.keyEpoch, membershipHeadVersion := newest.headIndex + 1 } := by
  rw [EpochAtPosition.afterEpochRecord, grown.find?_epochs inside (decide_eq_true rfl)]
  cases found : chain.epochs.find? fun other => other.id = newest.id with
  | none =>
    have refused := List.find?_eq_none.mp found newest inside
    simp at refused
  | some other =>
    have selected := List.find?_some found
    rw [decide_eq_true_eq] at selected
    rw [unique other (List.mem_of_find?_eq_some found) selected]
    rfl

/-- What the producer verified, whatever chain it held, and the service admitted under its newest
epoch record, every replica finds valid at the position behind that record, however far its chain
has grown. -/
theorem approved_and_admitted_valid {producerChain : VerifiedState} {newest : EpochRef}
    {key : EpochKey} {keys : List EpochKey} {bytes : List UInt8} {routedVault : Uuid}
    {keyEpoch : UInt64} {approved : UploadApproved} {parsed : ParsedPush}
    {position : EpochAtPosition}
    (reachable : Reachable crypto vaultId chain) (extended : Later crypto chain later)
    (ends : chain.epochs.getLast? = some newest) (inForce : keyEpoch.toNat = newest.keyEpoch)
    (unique : ∀ other ∈ chain.epochs, other.id = newest.id → other = newest)
    (own : VerifiedKey crypto chain key) (verified : VerifiedKeys crypto later keys)
    (distinct : DistinctCommitments crypto (key :: keys))
    (held : ∃ other ∈ keys, VerifiedKey crypto later other ∧ other.keyEpoch = keyEpoch)
    (approves : verifyBeforeUpload crypto bytes
      (ReceiverOpener.forProducer crypto aead key producerChain) tagFor = .ok approved)
    (parses : parsePush crypto bytes routedVault = .ok parsed)
    (admits : checkNewPush crypto parsed.header ⟨routedVault, chain, keyEpoch⟩ = .ok ())
    (built : EpochAtPosition.afterEpochRecord later newest.id = some position) :
    classifyEnvelope crypto aead bytes parsed.header.engineVersion keys later (some position)
      tagFor = .valid := by
  have grown := extended.grown
  have inside := List.mem_of_getLast? ends
  obtain ⟨container, plaintextBytes, plaintext, -, accepts, -⟩ :=
    verifyBeforeUpload_eq_ok.mp approves
  rw [header_of_parsePush parses accepts.parsed] at admits ⊢
  obtain ⟨⟨member, listed, authorized, named, sameFingerprint⟩, -, sameEpoch⟩ :=
    checkNewPush_eq_ok.mp admits
  have opened := receiverOpener_eq_some.mp accepts.opened
  obtain ⟨-, vault, keyOfEpoch, -⟩ := openTyped_eq_ok.mp opened
  -- The service judged the device by the newest head, and so does a replica at this position.
  obtain ⟨other, foundLater, otherFingerprint⟩ :=
    exists_member_at_newest reachable grown ends listed authorized
  rw [named] at foundLater
  have openedLater : openTyped crypto aead key later (.atVersion (newest.headIndex + 1))
      container = .ok plaintextBytes :=
    openTyped_of_fingerprint opened foundLater (otherFingerprint.trans sameFingerprint)
  obtain ⟨heldKey, heldInside, heldVerified, heldEpoch⟩ := held
  have foundKey := find?_verified verified distinct (own.grown grown)
    ⟨heldKey, heldInside, heldEpoch.trans (sameEpoch.symm.trans keyOfEpoch),
      heldVerified.1.trans (own.grown grown).1.symm⟩
  rw [← keyOfEpoch, ← vault] at foundKey
  obtain rfl := Option.some.inj ((afterEpochRecord_newest grown inside unique).symm.trans built)
  have ofVault : container.header.vaultId = later.vaultId := vault.trans (own.grown grown).1
  have ofEpoch : container.header.keyEpoch.toNat = newest.keyEpoch := sameEpoch ▸ inForce
  unfold classifyEnvelope judgeAt
  rw [accepts.parsed]
  dsimp only
  rw [if_neg (not_not.mpr ofVault), if_neg (not_not.mpr rfl), if_neg (not_not.mpr ofEpoch),
    foundKey]
  exact (congrArg _ openedLater).trans (judgeOpened_valid accepts.decoded accepts.checked)

/-- The founder approves its envelope, the service admits it, and a replica that has rotated finds
it valid. -/
theorem approved_and_admitted_valid_sample : ∃ parsed,
    parsePush sampleCrypto sampleEnvelope keyedFounder.vaultId = .ok parsed ∧
    classifyEnvelope sampleCrypto plainAead sampleEnvelope parsed.header.engineVersion
      [sampleKey 0, sampleKey 1] (keyedFounder.chain 2) (some ⟨1, 1⟩) sampleTag = .valid := by
  obtain ⟨approved, approves⟩ := exists_ok_of_isOk (verifyBeforeUpload sampleCrypto
    sampleEnvelope (ReceiverOpener.forProducer sampleCrypto plainAead (sampleKey 0)
      (keyedFounder.chain 1)) sampleTag) (by decide +kernel)
  obtain ⟨done, admitted⟩ := exists_ok_of_isOk (do
    let parsed ← parsePush sampleCrypto sampleEnvelope keyedFounder.vaultId
    checkNewPush sampleCrypto parsed.header ⟨keyedFounder.vaultId, keyedFounder.chain 1, 1⟩)
    (by decide +kernel)
  obtain ⟨parsed, parses, admits⟩ := bind_eq_ok.mp admitted
  have built : EpochAtPosition.afterEpochRecord (keyedFounder.chain 2)
      (keyedFounder.epochRef 0).id = some ⟨1, 1⟩ := by
    decide +kernel
  have unique : ∀ other ∈ (keyedFounder.chain 1).epochs,
      other.id = (keyedFounder.epochRef 0).id → other = keyedFounder.epochRef 0 := by
    decide +kernel
  exact ⟨parsed, parses, approved_and_admitted_valid keyedFounder_reachable keyedFounder_later
    (Founder.chain_last 0) (by decide) unique (by decide +kernel) (by decide +kernel)
    (by decide +kernel) ⟨sampleKey 0, List.mem_cons_self, by decide +kernel⟩ approves parses admits
    built⟩

end Dohflow.VaultCrypto
