/-
This file proves that the service and a client reach the same verdict on a retry.

The service decides by two lookups in its index, the client by comparing the fields
of its outbox entry with those of one pulled envelope. Over an index built by
accepting envelopes that were unknown when they came, both are decided by the
same thing: which accepted records carry the envelope's command id or its tag.
-/

import Dohflow.SyncCore.Producer
import Dohflow.SyncCore.PushRuns

namespace Dohflow.SyncCore

open Fallible UniqueIndex

variable {crypto : Crypto}
variable {record : AcceptedRecord} {index : InMemoryIndex} {vaultId : Uuid}

/-- An accepted envelope and the record made of it. -/
structure Acceptance where
  container : ParsedContainer
  record : AcceptedRecord

/-- The acceptances, in order, that an index of one vault was built by: each envelope's identity
was unknown when it was accepted. -/
inductive BuiltBy (crypto : Crypto) (vaultId : Uuid) : List Acceptance → InMemoryIndex → Prop
  | new : BuiltBy crypto vaultId [] .new
  | accept {accepted : List Acceptance} {index next : InMemoryIndex} {container : ParsedContainer}
      {push : PushIdentity} {keyEpoch : UInt64} {seq : Nat} {resultRef : Option (List UInt8)}
      (before : BuiltBy crypto vaultId accepted index)
      (vault : container.header.vaultId = vaultId)
      (identified : Identity.fromContainer crypto container = .ok push)
      (unknown : decidePush index.acceptedIndex push = .ok .unknown)
      (inserted : index.insert (push.accepted keyEpoch seq resultRef) = .ok next) :
      BuiltBy crypto vaultId
        (accepted ++ [⟨container, push.accepted keyEpoch seq resultRef⟩]) next

/-- A client has pulled and checked the container of an acceptance, with what was recorded. -/
def Acceptance.Pulls (crypto : Crypto) (tagFor : IdempotencyKey → IdempotencyKeyTag)
    (entry : Acceptance) (pulled : PulledEnvelope) : Prop :=
  ∃ checked : CheckedEnvelope crypto tagFor,
    PulledEnvelope.fromContainer crypto entry.container checked entry.record.seq
      entry.record.resultRef = .ok pulled

/-! ### The index -/

/-- The index finds exactly the accepted records, and each is its container's. -/
structure Holds (crypto : Crypto) (vaultId : Uuid) (accepted : List Acceptance)
    (index : InMemoryIndex) : Prop where
  byCommand : Indexes AcceptedRecord.commandId index.byCommand (accepted.map Acceptance.record)
  byTag : Indexes AcceptedRecord.tagBytes index.byTag (accepted.map Acceptance.record)
  identified : ∀ entry ∈ accepted, ∃ identity keyEpoch,
    Identity.fromContainer crypto entry.container = .ok identity ∧ identity.vaultId = vaultId ∧
      entry.record = identity.accepted keyEpoch entry.record.seq entry.record.resultRef

theorem insert_eq_ok {index next : InMemoryIndex} (inserted : index.insert record = .ok next) :
    index.byCommand record.commandId = none ∧ index.byTag record.tagBytes = none ∧
      next.byCommand = Function.update index.byCommand record.commandId (some record) ∧
      next.byTag = Function.update index.byTag record.tagBytes (some record) := by
  unfold InMemoryIndex.insert at inserted
  split at inserted
  · cases inserted
  · next new =>
    obtain rfl := Except.ok.inj inserted
    rw [not_or, Option.not_isSome_iff_eq_none, Option.not_isSome_iff_eq_none] at new
    exact ⟨new.1, new.2, rfl, rfl⟩

variable {accepted : List Acceptance}

theorem BuiltBy.holds (built : BuiltBy crypto vaultId accepted index) :
    Holds crypto vaultId accepted index := by
  induction built with
  | new =>
    exact ⟨indexes_nil _, indexes_nil _, fun entry member => absurd member List.not_mem_nil⟩
  | @accept accepted index next container push keyEpoch seq resultRef before vault identified
      unknown inserted inductionHypothesis =>
    obtain ⟨newCommand, newTag, isCommand, isTag⟩ := insert_eq_ok inserted
    refine ⟨?_, ?_, ?_⟩
    · rw [List.map_append, isCommand]
      exact inductionHypothesis.byCommand.append newCommand
    · rw [List.map_append, isTag]
      exact inductionHypothesis.byTag.append newTag
    · intro entry member
      rcases List.mem_append.mp member with old | new
      · exact inductionHypothesis.identified entry old
      · obtain rfl := List.mem_singleton.mp new
        exact ⟨push, keyEpoch, identified, (fromContainer_eq_ok identified).1.trans vault, rfl⟩

theorem Holds.record_vaultId (holds : Holds crypto vaultId accepted index)
    (member : record ∈ accepted.map Acceptance.record) : record.vaultId = vaultId := by
  obtain ⟨entry, isEntry, rfl⟩ := List.mem_map.mp member
  obtain ⟨identity, keyEpoch, -, vault, same⟩ := holds.identified entry isEntry
  rw [same]
  exact vault

/-! ### What each side compares -/

/-- The push carries the record's command id, tag, digest and commitment. -/
structure AcceptedRecord.Matches (record : AcceptedRecord) (push : Identity) : Prop where
  command : record.commandId = push.commandId
  tag : record.idempotencyKeyTag = push.idempotencyKeyTag
  digest : record.envelopeDigest = push.envelopeDigest
  commitment : record.metadataCommitment = push.metadataCommitment

/-- The push carries the record's command id or its tag. -/
def AcceptedRecord.Shares (record : AcceptedRecord) (push : Identity) : Prop :=
  record.commandId = push.commandId ∨ record.idempotencyKeyTag = push.idempotencyKeyTag

variable {mine theirs : Identity} {keyEpoch : UInt64} {seq : Nat} {resultRef : Option (List UInt8)}
variable {tagFor : IdempotencyKey → IdempotencyKeyTag} {pulled : PulledEnvelope}
  {entry : Acceptance}

theorem matchPulled_cases (record : AcceptedRecord)
    (recorded : record = theirs.accepted keyEpoch seq resultRef) :
    (¬ record.Shares mine ∧ matchPulled ⟨mine⟩ ⟨theirs, seq, resultRef⟩ = .notMine) ∨
    (record.Matches mine ∧
      matchPulled ⟨mine⟩ ⟨theirs, seq, resultRef⟩ = .bindToAccepted seq resultRef) ∨
    (record.Shares mine ∧ ¬ record.Matches mine ∧
      matchPulled ⟨mine⟩ ⟨theirs, seq, resultRef⟩ = .protocolFork) := by
  subst recorded
  unfold matchPulled
  by_cases apart : ¬ mine.commandId = theirs.commandId ∧
      ¬ mine.idempotencyKeyTag = theirs.idempotencyKeyTag
  · refine .inl ⟨?_, if_pos apart⟩
    rintro (command | tag)
    · exact apart.1 command.symm
    · exact apart.2 tag.symm
  · have shares : (theirs.accepted keyEpoch seq resultRef).Shares mine := by
      by_contra neither
      exact apart ⟨fun command => neither (.inl command.symm),
        fun tag => neither (.inr tag.symm)⟩
    dsimp only
    rw [if_neg apart]
    by_cases same : mine.commandId = theirs.commandId ∧
        mine.idempotencyKeyTag = theirs.idempotencyKeyTag ∧
        mine.envelopeDigest = theirs.envelopeDigest ∧
        mine.metadataCommitment = theirs.metadataCommitment
    · obtain ⟨command, tag, digest, commitment⟩ := same
      exact .inr (.inl ⟨⟨command.symm, tag.symm, digest.symm, commitment.symm⟩,
        if_pos ⟨command, tag, digest, commitment⟩⟩)
    · refine .inr (.inr ⟨shares, fun carries => same ?_, if_neg same⟩)
      exact ⟨carries.command.symm, carries.tag.symm, carries.digest.symm,
        carries.commitment.symm⟩

theorem Holds.decidePush_cases (holds : Holds crypto vaultId accepted index)
    (vault : mine.vaultId = vaultId) :
    ((∀ entry ∈ accepted, ¬ entry.record.Shares mine) ∧
      decidePush index.acceptedIndex mine = .ok .unknown) ∨
    (∃ entry ∈ accepted, entry.record.Matches mine ∧
      decidePush index.acceptedIndex mine = .ok (.replay entry.record)) ∨
    ((∃ entry ∈ accepted, entry.record.Shares mine) ∧
      (∀ entry ∈ accepted, ¬ entry.record.Matches mine) ∧
      decidePush index.acceptedIndex mine = .ok .protocolFork) := by
  have decision := decidePush_eq_over holds.byCommand holds.byTag
    fun record member => (holds.record_vaultId member).trans vault.symm
  have command {entry : Acceptance} (member : entry ∈ accepted)
      (same : entry.record.commandId = mine.commandId) :
      index.byCommand mine.commandId = some entry.record := by
    rw [← same]
    exact holds.byCommand.lookup_key (List.mem_map_of_mem member)
  have tag {entry : Acceptance} (member : entry ∈ accepted)
      (same : entry.record.idempotencyKeyTag = mine.idempotencyKeyTag) :
      index.byTag mine.idempotencyKeyTag.bytes = some entry.record := by
    rw [← same]
    exact holds.byTag.lookup_key (List.mem_map_of_mem member)
  have atCommand := holds.byCommand.found mine.commandId
  have atTag := holds.byTag.found mine.idempotencyKeyTag.bytes
  generalize index.byCommand mine.commandId = byCommand at *
  generalize index.byTag mine.idempotencyKeyTag.bytes = byTag at *
  rw [decision]
  -- A record that carries all four is what both lookups find.
  have fork (shares : ∃ entry ∈ accepted, entry.record.Shares mine)
      (apart : ∀ record, byCommand = some record → byTag = some record →
        ¬ (record.envelopeDigest = mine.envelopeDigest ∧
          record.metadataCommitment = mine.metadataCommitment)) :
      ∀ entry ∈ accepted, ¬ entry.record.Matches mine := by
    intro entry member carries
    exact apart entry.record (command member carries.command) (tag member carries.tag)
      ⟨carries.digest, carries.commitment⟩
  have sharesCommand {record : AcceptedRecord} (found : byCommand = some record) :
      ∃ entry ∈ accepted, entry.record.Shares mine := by
    obtain ⟨isRecord, same⟩ := (atCommand record).mp found
    obtain ⟨entry, member, rfl⟩ := List.mem_map.mp isRecord
    exact ⟨entry, member, .inl same⟩
  have sharesTag {record : AcceptedRecord} (found : byTag = some record) :
      ∃ entry ∈ accepted, entry.record.Shares mine := by
    obtain ⟨isRecord, same⟩ := (atTag record).mp found
    obtain ⟨entry, member, rfl⟩ := List.mem_map.mp isRecord
    exact ⟨entry, member, .inr (congrArg IdempotencyKeyTag.mk same)⟩
  unfold PushDecision.over
  cases byCommand with
  | none =>
    cases byTag with
    | none =>
      refine .inl ⟨fun entry member shares => ?_, rfl⟩
      rcases shares with same | same
      · cases command member same
      · cases tag member same
    | some other =>
      refine .inr (.inr ⟨sharesTag rfl, fork (sharesTag rfl) ?_, rfl⟩)
      intro record found
      cases found
  | some record =>
    cases byTag with
    | none =>
      refine .inr (.inr ⟨sharesCommand rfl, fork (sharesCommand rfl) ?_, rfl⟩)
      intro record _ found
      cases found
    | some other =>
      dsimp only
      by_cases exact : record = other ∧ record.envelopeDigest = mine.envelopeDigest ∧
          record.metadataCommitment = mine.metadataCommitment
      · rw [if_pos exact]
        obtain ⟨rfl, digest, commitment⟩ := exact
        obtain ⟨isRecord, sameCommand⟩ := (atCommand record).mp rfl
        obtain ⟨-, sameTag⟩ := (atTag record).mp rfl
        obtain ⟨entry, member, rfl⟩ := List.mem_map.mp isRecord
        exact .inr (.inl ⟨entry, member,
          ⟨sameCommand, congrArg IdempotencyKeyTag.mk sameTag, digest, commitment⟩, rfl⟩)
      · rw [if_neg exact]
        refine .inr (.inr ⟨sharesCommand rfl, fork (sharesCommand rfl) ?_, rfl⟩)
        intro found isCommand isTag carries
        obtain rfl := Option.some.inj isCommand
        obtain rfl := Option.some.inj isTag
        exact exact ⟨rfl, carries⟩

theorem Holds.matchPulled_cases (holds : Holds crypto vaultId accepted index) (mine : Identity)
    (member : entry ∈ accepted) (pulls : entry.Pulls crypto tagFor pulled) :
    (¬ entry.record.Shares mine ∧ matchPulled ⟨mine⟩ pulled = .notMine) ∨
    (entry.record.Matches mine ∧ matchPulled ⟨mine⟩ pulled =
      .bindToAccepted entry.record.seq entry.record.resultRef) ∨
    (entry.record.Shares mine ∧ ¬ entry.record.Matches mine ∧
      matchPulled ⟨mine⟩ pulled = .protocolFork) := by
  obtain ⟨identity, keyEpoch, taken, -, recorded⟩ := holds.identified entry member
  obtain ⟨checked, made⟩ := pulls
  simp only [PulledEnvelope.fromContainer, bind_eq_ok, ensure_eq_ok, exists_const] at made
  obtain ⟨-, found, again, rest⟩ := made
  obtain rfl := Except.ok.inj (again.symm.trans taken)
  obtain rfl := Except.ok.inj rest
  exact Dohflow.SyncCore.matchPulled_cases entry.record recorded

theorem AcceptedRecord.Matches.shares {push : Identity} (carries : record.Matches push) :
    record.Shares push := .inl carries.command

theorem Holds.eq_of_shares (holds : Holds crypto vaultId accepted index) {first second : Acceptance}
    (isFirst : first ∈ accepted) (isSecond : second ∈ accepted)
    (carries : first.record.Matches mine) (shares : second.record.Shares mine) :
    first = second := by
  have commands := holds.byCommand.distinct
  have tags := holds.byTag.distinct
  rw [List.map_map] at commands tags
  rcases shares with command | tag
  · exact List.inj_on_of_nodup_map commands isFirst isSecond (carries.command.trans command.symm)
  · exact List.inj_on_of_nodup_map tags isFirst isSecond
      (congrArg IdempotencyKeyTag.bytes (carries.tag.trans tag.symm))

theorem Holds.decidePush_eq (holds : Holds crypto vaultId accepted index)
    (vault : mine.vaultId = vaultId) :
    (decidePush index.acceptedIndex mine = .ok .unknown ↔
      ∀ entry ∈ accepted, ¬ entry.record.Shares mine) ∧
    (∀ record, decidePush index.acceptedIndex mine = .ok (.replay record) ↔
      ∃ entry ∈ accepted, entry.record = record ∧ entry.record.Matches mine) ∧
    (decidePush index.acceptedIndex mine = .ok .protocolFork ↔
      ∃ entry ∈ accepted, entry.record.Shares mine ∧ ¬ entry.record.Matches mine) := by
  rcases holds.decidePush_cases vault with ⟨unknown, decision⟩ |
    ⟨replayed, isReplayed, carries, decision⟩ | ⟨⟨forked, isForked, shares⟩, different, decision⟩
  · rw [decision]
    refine ⟨⟨fun _ => unknown, fun _ => rfl⟩, fun record => ⟨fun same => (by cases same), ?_⟩,
      ⟨fun same => (by cases same), ?_⟩⟩
    · rintro ⟨entry, member, -, carries⟩
      exact absurd carries.shares (unknown entry member)
    · rintro ⟨entry, member, shares, -⟩
      exact absurd shares (unknown entry member)
  · rw [decision]
    refine ⟨⟨fun same => (by cases same), fun none => ?_⟩, fun record => ⟨fun same => ?_, ?_⟩,
      ⟨fun same => (by cases same), ?_⟩⟩
    · exact absurd carries.shares (none replayed isReplayed)
    · exact ⟨replayed, isReplayed, PushDecision.replay.inj (Except.ok.inj same), carries⟩
    · rintro ⟨entry, member, rfl, again⟩
      rw [holds.eq_of_shares member isReplayed again carries.shares]
    · rintro ⟨entry, member, shares, apart⟩
      rw [holds.eq_of_shares isReplayed member carries shares] at carries
      exact absurd carries apart
  · rw [decision]
    refine ⟨⟨fun same => (by cases same), fun none => ?_⟩, fun record => ⟨fun same =>
      (by cases same), ?_⟩, ⟨fun _ => ⟨forked, isForked, shares, different forked isForked⟩, fun _ => rfl⟩⟩
    · exact absurd shares (none forked isForked)
    · rintro ⟨entry, member, -, carries⟩
      exact absurd carries (different entry member)

theorem Holds.matchPulled_eq (holds : Holds crypto vaultId accepted index) (mine : Identity)
    (member : entry ∈ accepted) (pulls : entry.Pulls crypto tagFor pulled) :
    (matchPulled ⟨mine⟩ pulled = .notMine ↔ ¬ entry.record.Shares mine) ∧
    (matchPulled ⟨mine⟩ pulled = .bindToAccepted entry.record.seq entry.record.resultRef ↔
      entry.record.Matches mine) ∧
    (matchPulled ⟨mine⟩ pulled = .protocolFork ↔
      entry.record.Shares mine ∧ ¬ entry.record.Matches mine) := by
  rcases holds.matchPulled_cases mine member pulls with ⟨apart, verdict⟩ |
    ⟨carries, verdict⟩ | ⟨shares, different, verdict⟩
  · have differs : ¬ entry.record.Matches mine := fun carries => apart carries.shares
    simp [verdict, apart, differs]
  · have shares := carries.shares
    simp [verdict, carries, shares]
  · simp [verdict, shares, different]

/-- Service and client reach the same verdict on a retry: the service replays exactly the record
that one pulled acceptance binds the outbox entry to, knows nothing exactly when no pulled
acceptance is the entry's, and sees a fork exactly when some pulled acceptance is one. -/
theorem verdicts_agree {vaultId : Uuid} {accepted : List Acceptance} {index : InMemoryIndex}
    (built : BuiltBy crypto vaultId accepted index)
    {tagFor : IdempotencyKey → IdempotencyKeyTag} {pulledOf : Acceptance → PulledEnvelope}
    (pulls : ∀ entry ∈ accepted, entry.Pulls crypto tagFor (pulledOf entry))
    {container : ParsedContainer} (vault : container.header.vaultId = vaultId)
    {push : PushIdentity} (pushed : Identity.fromContainer crypto container = .ok push)
    {outbox : OutboxEntry} (kept : OutboxEntry.fromContainer crypto container = .ok outbox) :
    (∀ record, decidePush index.acceptedIndex push = .ok (.replay record) ↔
      ∃! entry, entry ∈ accepted ∧ entry.record = record ∧
        matchPulled outbox (pulledOf entry) =
          .bindToAccepted record.seq record.resultRef) ∧
    (decidePush index.acceptedIndex push = .ok .unknown ↔
      ∀ entry ∈ accepted, matchPulled outbox (pulledOf entry) = .notMine) ∧
    (decidePush index.acceptedIndex push = .ok .protocolFork ↔
      ∃ entry ∈ accepted, matchPulled outbox (pulledOf entry) = .protocolFork) := by
  have holds := built.holds
  rw [OutboxEntry.fromContainer, pushed] at kept
  obtain rfl := Except.ok.inj kept
  have client {entry : Acceptance} (member : entry ∈ accepted) :=
    holds.matchPulled_eq push member (pulls entry member)
  obtain ⟨unknown, replay, fork⟩ :=
    holds.decidePush_eq ((fromContainer_eq_ok pushed).1.trans vault)
  refine ⟨fun record => ?_, ?_, ?_⟩
  · rw [replay]
    constructor
    · rintro ⟨entry, member, rfl, carries⟩
      refine ⟨entry, ⟨member, rfl, (client member).2.1.mpr carries⟩, ?_⟩
      rintro other ⟨isOther, same, -⟩
      exact (holds.eq_of_shares member isOther carries (same ▸ carries.shares)).symm
    · rintro ⟨entry, ⟨member, rfl, binds⟩, -⟩
      exact ⟨entry, member, rfl, (client member).2.1.mp binds⟩
  · rw [unknown]
    exact forall₂_congr fun entry member => (client member).1.symm
  · rw [fork]
    constructor
    · rintro ⟨entry, member, forks⟩
      exact ⟨entry, member, (client member).2.2.mpr forks⟩
    · rintro ⟨entry, member, forks⟩
      exact ⟨entry, member, (client member).2.2.mp forks⟩

/-! ### An example -/

/-- A plaintext of no payload and no artifact. -/
def smallPlaintext : EnvelopePlaintext :=
  { immutableMeta := sampleMeta, writeSetHash := .replicate 32 24
    deltaManifest := ⟨[], Nat.zero_le _, strictlyAscending_nil⟩, payload := [] }

def smallContainer : ParsedContainer :=
  let header := baseHeader.committingTo sampleCrypto sampleTag smallPlaintext sampleCommitment
  { header, headerBytes := header.spelled, ciphertext := plainlySealed smallPlaintext }

theorem smallContainer_checks :
    receiverChecks sampleCrypto smallContainer.header smallPlaintext sampleTag = .ok () :=
  receiverChecks_committingTo commitment_sampleMeta (by decide)

theorem smallContainer_identity :
    ∃ identity, Identity.fromContainer sampleCrypto smallContainer = .ok identity := by
  have encodable : baseHeader.Encodable := ⟨by decide, by decide⟩
  have legal : smallPlaintext.Encodable := ⟨by decide, Nat.zero_le _, Nat.zero_le _⟩
  have accepts : ReceiverAccepts sampleCrypto plainOpener sampleTag _ smallContainer _ _ :=
    receiverAccepts_plain encodable legal (by decide) commitment_sampleMeta (by decide)
  exact accepts.exists_identity

theorem verdicts_agree_sample : ∃ (index : InMemoryIndex) (push : PushIdentity)
    (outbox : OutboxEntry) (pulled : PulledEnvelope) (record : AcceptedRecord),
    matchPulled outbox pulled = .bindToAccepted record.seq record.resultRef ∧
      decidePush index.acceptedIndex push = .ok (.replay record) := by
  obtain ⟨push, identified⟩ := smallContainer_identity
  have unknown : decidePush InMemoryIndex.new.acceptedIndex push = .ok .unknown :=
    decidePush_eq_over (indexes_nil _) (indexes_nil _) fun _ member =>
      absurd member List.not_mem_nil
  have fresh : ¬ ((InMemoryIndex.new.byCommand push.commandId).isSome ∨
      (InMemoryIndex.new.byTag push.idempotencyKeyTag.bytes).isSome) := by
    rintro (found | found) <;> cases found
  have inserted : InMemoryIndex.new.insert (push.accepted 1 1 none) = .ok _ := if_neg fresh
  have built : BuiltBy sampleCrypto smallContainer.header.vaultId
      [⟨smallContainer, push.accepted 1 1 none⟩] _ :=
    .accept .new rfl identified unknown inserted
  have pulls : ∀ entry ∈ [(⟨smallContainer, push.accepted 1 1 none⟩ : Acceptance)],
      entry.Pulls sampleCrypto sampleTag ⟨push, 1, none⟩ := by
    intro entry member
    obtain rfl := List.mem_singleton.mp member
    refine ⟨⟨smallContainer.header, smallPlaintext, smallContainer_checks⟩, ?_⟩
    rw [PulledEnvelope.fromContainer, identified]
    exact ensure_bind_eq_ok.mpr ⟨rfl, rfl⟩
  have kept : OutboxEntry.fromContainer sampleCrypto smallContainer = .ok ⟨push⟩ := by
    rw [OutboxEntry.fromContainer, identified]
    rfl
  obtain ⟨replay, -, -⟩ := verdicts_agree built pulls rfl identified kept
  have binds : matchPulled ⟨push⟩ ⟨push, 1, none⟩ = .bindToAccepted 1 none := by
    simp [matchPulled]
  refine ⟨_, push, ⟨push⟩, ⟨push, 1, none⟩, push.accepted 1 1 none, binds, (replay _).mpr ?_⟩
  exact ⟨_, ⟨List.mem_singleton_self _, rfl, binds⟩, fun other holds =>
    List.mem_singleton.mp holds.1⟩

end Dohflow.SyncCore
