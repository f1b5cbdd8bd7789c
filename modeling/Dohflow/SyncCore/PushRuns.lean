/-
This file proves that the service accepts a pushed command exactly once, whatever
is pushed and however the pushes interleave with chain extensions and changes of
the epoch.

The invariant is `Consistent`: each of the index's two maps indexes the records of
the log by its own key, and every record carries the identity computed from the
container it was accepted with. From it `decidePush` never meets a record out of
place, and the insert after an unknown identity never fails.
-/

import Mathlib.Data.List.Induction
import Dohflow.Foundation.UniqueIndex
import Dohflow.SyncCore.FoundingChain
import Dohflow.SyncCore.Service

namespace Dohflow.SyncCore

open Fallible UniqueIndex

/-! ### What a parsed push carries -/

variable {crypto : Crypto}

theorem fromContainer_eq_ok {container : ParsedContainer} {identity : Identity}
    (taken : Identity.fromContainer crypto container = .ok identity) :
    identity.vaultId = container.header.vaultId ∧ container.headerBytes.length < 2 ^ 32 ∧
      identity.envelopeDigest =
        crypto.sha256 (envelopeDigestInput container.headerBytes container.ciphertext) := by
  unfold Identity.fromContainer at taken
  cases object : container.header.object with
  | snapshot manifest =>
    rw [object] at taken
    cases taken
  | envelope tag commitment manifest =>
    rw [object] at taken
    simp only [bind_eq_ok, mapError_eq_ok, canonicalEnvelopeDigest_eq_ok] at taken
    obtain ⟨digest, ⟨small, -, rfl⟩, rest⟩ := taken
    obtain rfl := Except.ok.inj rest
    exact ⟨rfl, small, rfl⟩

theorem parsePush_eq_ok {bytes : List UInt8} {vaultId : Uuid} {parsed : ParsedPush}
    (accepted : parsePush crypto bytes vaultId = .ok parsed) :
    ∃ container, parseContainer bytes = .ok container ∧
      container.header.vaultId = vaultId ∧
      Identity.fromContainer crypto container = .ok parsed.identity := by
  simp only [parsePush, parseContainerWithLimit, bind_eq_ok, ensure_eq_ok, exists_const,
    mapError_eq_ok] at accepted
  obtain ⟨container, ⟨-, opened⟩, -, vault, identity, taken, rest⟩ := accepted
  obtain rfl := Except.ok.inj rest
  exact ⟨container, opened, vault, taken⟩

theorem parsePush_vaultId {bytes : List UInt8} {vaultId : Uuid} {parsed : ParsedPush}
    (accepted : parsePush crypto bytes vaultId = .ok parsed) :
    parsed.identity.vaultId = vaultId := by
  obtain ⟨container, -, vault, taken⟩ := parsePush_eq_ok accepted
  exact (fromContainer_eq_ok taken).1.trans vault

/-- Among these containers, no two whose digests are taken of different bytes share a digest. -/
def DigestsDistinct (crypto : Crypto) (containers : List (List UInt8)) : Prop :=
  ∀ first ∈ containers, ∀ second ∈ containers, ∀ one other,
    parseContainer first = .ok one → parseContainer second = .ok other →
    crypto.sha256 (envelopeDigestInput one.headerBytes one.ciphertext) =
      crypto.sha256 (envelopeDigestInput other.headerBytes other.ciphertext) →
    envelopeDigestInput one.headerBytes one.ciphertext =
      envelopeDigestInput other.headerBytes other.ciphertext

theorem eq_of_envelopeDigest {containers : List (List UInt8)}
    (distinct : DigestsDistinct crypto containers) {first second : List UInt8}
    (firstMember : first ∈ containers) (secondMember : second ∈ containers) {vaultId : Uuid}
    {one other : ParsedPush} (firstParsed : parsePush crypto first vaultId = .ok one)
    (secondParsed : parsePush crypto second vaultId = .ok other)
    (same : one.identity.envelopeDigest = other.identity.envelopeDigest) : first = second := by
  obtain ⟨firstContainer, firstOpened, -, firstTaken⟩ := parsePush_eq_ok firstParsed
  obtain ⟨secondContainer, secondOpened, -, secondTaken⟩ := parsePush_eq_ok secondParsed
  obtain ⟨-, firstSmall, firstDigest⟩ := fromContainer_eq_ok firstTaken
  obtain ⟨-, secondSmall, secondDigest⟩ := fromContainer_eq_ok secondTaken
  rw [firstDigest, secondDigest] at same
  obtain ⟨header, ciphertext⟩ := envelopeDigestInput_injective firstSmall secondSmall
    (distinct first firstMember second secondMember _ _ firstOpened secondOpened same)
  rw [bytes_of_parseContainer firstOpened, bytes_of_parseContainer secondOpened, header, ciphertext]

/-! ### The invariant -/

/-- The raw bytes the index finds a record's tag by. -/
def AcceptedRecord.tagBytes (record : AcceptedRecord) : Digest := record.idempotencyKeyTag.bytes

theorem decidePush_eq_over {index : InMemoryIndex} {records : List AcceptedRecord}
    {push : PushIdentity} (isCommand : Indexes AcceptedRecord.commandId index.byCommand records)
    (isTag : Indexes AcceptedRecord.tagBytes index.byTag records)
    (vault : ∀ record ∈ records, record.vaultId = push.vaultId) :
    decidePush index.acceptedIndex push =
      .ok (.over (index.byCommand push.commandId)
        (index.byTag push.idempotencyKeyTag.bytes) push) := by
  have byCommand : ∀ record ∈ index.byCommand push.commandId,
      record ∈ records ∧ record.commandId = push.commandId := fun record found =>
    (isCommand.found _ _).mp found
  have byTag : ∀ record ∈ index.byTag push.idempotencyKeyTag.bytes,
      record ∈ records ∧ record.tagBytes = push.idempotencyKeyTag.bytes :=
    fun record found => (isTag.found _ _).mp found
  have vaults : ∀ record ∈ (index.byCommand push.commandId).toList ++
      (index.byTag push.idempotencyKeyTag.bytes).toList, record.vaultId = push.vaultId := by
    intro record member
    rcases List.mem_append.mp member with found | found
    · exact vault record (byCommand record (Option.mem_toList.mp found)).1
    · exact vault record (byTag record (Option.mem_toList.mp found)).1
  have commands : ∀ record ∈ index.byCommand push.commandId,
      record.commandId = push.commandId := fun record found => (byCommand record found).2
  have tags : ∀ record ∈ index.byTag push.idempotencyKeyTag.bytes,
      record.idempotencyKeyTag = push.idempotencyKeyTag := by
    intro record found
    exact congrArg IdempotencyKeyTag.mk (byTag record found).2
  exact ensure_bind_eq_ok.mpr ⟨vaults, ensure_bind_eq_ok.mpr ⟨commands,
    ensure_bind_eq_ok.mpr ⟨tags, rfl⟩⟩⟩

namespace Service

/-- The accepted records, in log order. -/
def records (service : Service) : List AcceptedRecord := service.log.map LogEntry.record

/-- The index and the log are in step, and every record is its container's. -/
structure Consistent (crypto : Crypto) (service : Service) : Prop where
  byCommand : Indexes AcceptedRecord.commandId service.index.byCommand service.records
  byTag : Indexes AcceptedRecord.tagBytes service.index.byTag service.records
  identified : ∀ entry ∈ service.log, ∃ parsed keyEpoch seq resultRef,
    parsePush crypto entry.container service.vaultId = .ok parsed ∧
      entry.record = parsed.identity.accepted keyEpoch seq resultRef

variable {service : Service}
variable {container : List UInt8} {resultRef : Option (List UInt8)} {pushed : List (List UInt8)}
  {record : AcceptedRecord} {entry : LogEntry}

theorem consistent_start (vaultId : Uuid) (chain : VerifiedState) (epochInForce : UInt64)
    (nextSeq : Nat) : Consistent crypto (start vaultId chain epochInForce nextSeq) where
  byCommand := indexes_nil _
  byTag := indexes_nil _
  identified := fun _ member => absurd member List.not_mem_nil

theorem Consistent.vaultId (consistent : Consistent crypto service)
    (member : record ∈ service.records) : record.vaultId = service.vaultId := by
  obtain ⟨entry, isEntry, rfl⟩ := List.mem_map.mp member
  obtain ⟨parsed, keyEpoch, seq, resultRef, accepted, same⟩ := consistent.identified entry isEntry
  rw [same]
  exact parsePush_vaultId accepted

theorem Consistent.decidePush_eq (consistent : Consistent crypto service) {push : PushIdentity}
    (vault : push.vaultId = service.vaultId) :
    decidePush service.index.acceptedIndex push =
      .ok (.over (service.index.byCommand push.commandId)
        (service.index.byTag push.idempotencyKeyTag.bytes) push) :=
  decidePush_eq_over consistent.byCommand consistent.byTag fun _ member =>
    (consistent.vaultId member).trans vault.symm

/-! ### One push -/

/-- The service after an accepted push. -/
def appended (service : Service) (container : List UInt8) (record : AcceptedRecord) : Service :=
  { service with
    index := {
      byCommand := Function.update service.index.byCommand record.commandId (some record)
      byTag := Function.update service.index.byTag record.tagBytes (some record) }
    log := service.log ++ [⟨container, record⟩], nextSeq := service.nextSeq + 1 }

/-- What a push can do to a consistent service. -/
inductive PushStep (crypto : Crypto) (service : Service) (container : List UInt8)
    (resultRef : Option (List UInt8)) : Service × PushResponse → Prop
  | refused (refusal : PushRefusal) :
      PushStep crypto service container resultRef (service, .refused refusal)
  /-- Both lookups land on one record that carries the push's digest and commitment. -/
  | replay {parsed : ParsedPush} {record : AcceptedRecord}
      (opened : parsePush crypto container service.vaultId = .ok parsed)
      (byCommand : service.index.byCommand parsed.identity.commandId = some record)
      (byTag : service.index.byTag parsed.identity.idempotencyKeyTag.bytes = some record)
      (digest : record.envelopeDigest = parsed.identity.envelopeDigest)
      (commitment : record.metadataCommitment = parsed.identity.metadataCommitment) :
      PushStep crypto service container resultRef (service, .replay record)
  | fork {parsed : ParsedPush}
      (opened : parsePush crypto container service.vaultId = .ok parsed)
      (different : ∀ record,
        service.index.byCommand parsed.identity.commandId = some record →
        service.index.byTag parsed.identity.idempotencyKeyTag.bytes = some record →
        ¬ (record.envelopeDigest = parsed.identity.envelopeDigest ∧
          record.metadataCommitment = parsed.identity.metadataCommitment)) :
      PushStep crypto service container resultRef (service, .protocolFork)
  | accepted {parsed : ParsedPush}
      (opened : parsePush crypto container service.vaultId = .ok parsed)
      (newCommand : service.index.byCommand parsed.identity.commandId = none)
      (newTag : service.index.byTag parsed.identity.idempotencyKeyTag.bytes = none)
      (checked : checkNewPush crypto parsed.header service.view = .ok ()) :
      PushStep crypto service container resultRef
        (service.appended container
            (parsed.identity.accepted parsed.header.keyEpoch service.nextSeq resultRef),
          .accepted (parsed.identity.accepted parsed.header.keyEpoch service.nextSeq resultRef))

theorem append_of_new (newCommand : service.index.byCommand record.commandId = none)
    (newTag : service.index.byTag record.idempotencyKeyTag.bytes = none) :
    service.append container record = (service.appended container record, .accepted record) := by
  have new : ¬ ((service.index.byCommand record.commandId).isSome ∨
      (service.index.byTag record.idempotencyKeyTag.bytes).isSome) := by
    simp [newCommand, newTag]
  unfold append InMemoryIndex.insert
  rw [if_neg new]
  rfl

theorem Consistent.pushStep (consistent : Consistent crypto service) (container : List UInt8)
    (resultRef : Option (List UInt8)) :
    PushStep crypto service container resultRef (service.push crypto container resultRef) := by
  unfold push
  cases opened : parsePush crypto container service.vaultId with
  | error refusal => exact .refused refusal
  | ok parsed =>
    dsimp only
    rw [consistent.decidePush_eq (parsePush_vaultId opened)]
    unfold PushDecision.over
    cases byCommand : service.index.byCommand parsed.identity.commandId with
    | none =>
      cases byTag : service.index.byTag parsed.identity.idempotencyKeyTag.bytes with
      | some other =>
        refine .fork opened fun record found => ?_
        rw [byCommand] at found
        cases found
      | none =>
        dsimp only
        cases checked : checkNewPush crypto parsed.header service.view with
        | error refusal => exact .refused refusal
        | ok passed =>
          dsimp only
          rw [append_of_new byCommand byTag]
          exact .accepted opened byCommand byTag checked
    | some record =>
      cases byTag : service.index.byTag parsed.identity.idempotencyKeyTag.bytes with
      | none =>
        refine .fork opened fun record _ found => ?_
        rw [byTag] at found
        cases found
      | some other =>
        dsimp only
        by_cases exact : record = other ∧
            record.envelopeDigest = parsed.identity.envelopeDigest ∧
              record.metadataCommitment = parsed.identity.metadataCommitment
        · rw [if_pos exact]
          obtain ⟨rfl, digest, commitment⟩ := exact
          exact .replay opened byCommand byTag digest commitment
        · rw [if_neg exact]
          refine .fork opened fun found isCommand isTag carries => exact ?_
          obtain rfl := Option.some.inj (byCommand.symm.trans isCommand)
          obtain rfl := Option.some.inj (byTag.symm.trans isTag)
          exact ⟨rfl, carries⟩

theorem Consistent.push (consistent : Consistent crypto service) (container : List UInt8)
    (resultRef : Option (List UInt8)) :
    Consistent crypto (service.push crypto container resultRef).1 := by
  have step := consistent.pushStep container resultRef
  generalize service.push crypto container resultRef = result at step
  cases step with
  | refused => exact consistent
  | replay => exact consistent
  | fork => exact consistent
  | @accepted parsed opened newCommand newTag checked =>
    have grown : (service.appended container
        (parsed.identity.accepted parsed.header.keyEpoch service.nextSeq resultRef)).records =
          service.records ++
            [parsed.identity.accepted parsed.header.keyEpoch service.nextSeq resultRef] :=
      List.map_append
    refine ⟨?_, ?_, ?_⟩
    · rw [grown]
      exact consistent.byCommand.append newCommand
    · rw [grown]
      exact consistent.byTag.append newTag
    · intro entry member
      rcases List.mem_append.mp member with old | new
      · exact consistent.identified entry old
      · obtain rfl := List.mem_singleton.mp new
        exact ⟨parsed, _, _, _, opened, rfl⟩

theorem over_eq_protocolFork {byCommand byTag : Option AcceptedRecord} {push : PushIdentity}
    (known : byCommand ≠ none ∨ byTag ≠ none)
    (different : ∀ record, byCommand = some record → byTag = some record →
      record.envelopeDigest ≠ push.envelopeDigest) :
    PushDecision.over byCommand byTag push = .protocolFork := by
  unfold PushDecision.over
  cases byCommand with
  | none =>
    cases byTag with
    | none => exact absurd rfl (known.resolve_left (not_not.mpr rfl))
    | some other => rfl
  | some record =>
    cases byTag with
    | none => rfl
    | some other =>
      refine if_neg ?_
      rintro ⟨rfl, digest, -⟩
      exact different record rfl rfl digest

theorem Consistent.forks (consistent : Consistent crypto service) {containers : List (List UInt8)}
    (distinct : DigestsDistinct crypto containers) (member : entry ∈ service.log)
    (entryPushed : entry.container ∈ containers) (pushed : container ∈ containers)
    {parsed : ParsedPush} (opened : parsePush crypto container service.vaultId = .ok parsed)
    (shared : entry.record.commandId = parsed.identity.commandId ∨
      entry.record.idempotencyKeyTag = parsed.identity.idempotencyKeyTag)
    (other : entry.container ≠ container) (resultRef : Option (List UInt8)) :
    service.push crypto container resultRef = (service, .protocolFork) := by
  have isRecord : entry.record ∈ service.records := List.mem_map_of_mem member
  have byCommand := consistent.byCommand.lookup_key isRecord
  have byTag := consistent.byTag.lookup_key isRecord
  -- Whichever key is shared finds the entry's record, whose digest is another container's.
  have digest : entry.record.envelopeDigest ≠ parsed.identity.envelopeDigest := by
    intro same
    obtain ⟨entryParsed, keyEpoch, seq, ref, entryOpened, isAccepted⟩ :=
      consistent.identified entry member
    rw [isAccepted] at same
    exact other (eq_of_envelopeDigest distinct entryPushed pushed entryOpened opened same)
  have decision : PushDecision.over (service.index.byCommand parsed.identity.commandId)
      (service.index.byTag parsed.identity.idempotencyKeyTag.bytes) parsed.identity =
        .protocolFork := by
    rcases shared with command | tag
    · rw [command] at byCommand
      refine over_eq_protocolFork (.inl ?_) fun record found _ => ?_
      · rw [byCommand]
        exact Option.some_ne_none _
      · obtain rfl := Option.some.inj (byCommand.symm.trans found)
        exact digest
    · rw [AcceptedRecord.tagBytes, tag] at byTag
      refine over_eq_protocolFork (.inr ?_) fun record _ found => ?_
      · rw [byTag]
        exact Option.some_ne_none _
      · obtain rfl := Option.some.inj (byTag.symm.trans found)
        exact digest
  unfold Service.push
  rw [opened]
  dsimp only
  rw [consistent.decidePush_eq (parsePush_vaultId opened), decision]

/-- The container of a log entry is answered with its record, and nothing changes. -/
theorem Consistent.replays (consistent : Consistent crypto service) (member : entry ∈ service.log)
    (resultRef : Option (List UInt8)) :
    service.push crypto entry.container resultRef = (service, .replay entry.record) := by
  obtain ⟨parsed, keyEpoch, seq, ref, opened, same⟩ := consistent.identified entry member
  have isRecord : entry.record ∈ service.records := List.mem_map_of_mem member
  have byCommand := consistent.byCommand.lookup_key isRecord
  have byTag := consistent.byTag.lookup_key isRecord
  unfold Service.push
  rw [opened]
  dsimp only
  rw [consistent.decidePush_eq (parsePush_vaultId opened)]
  have command : entry.record.commandId = parsed.identity.commandId := by
    rw [same]
    rfl
  have tag : entry.record.tagBytes = parsed.identity.idempotencyKeyTag.bytes := by
    rw [same]
    rfl
  rw [← command, ← tag, byCommand, byTag]
  have carries : entry.record = entry.record ∧
      entry.record.envelopeDigest = parsed.identity.envelopeDigest ∧
        entry.record.metadataCommitment = parsed.identity.metadataCommitment := by
    rw [same]
    exact ⟨rfl, rfl, rfl⟩
  unfold PushDecision.over
  dsimp only
  rw [if_pos carries]

/-! ### Every run -/

theorem Consistent.step (consistent : Consistent crypto service) (event : ServiceEvent) :
    Consistent crypto (service.step crypto event) := by
  cases event with
  | push container resultRef => exact consistent.push container resultRef
  | enterEpoch keyEpoch => exact ⟨consistent.byCommand, consistent.byTag, consistent.identified⟩
  | extendChain memberships epochs positions =>
    unfold Service.step
    dsimp only
    cases extend crypto service.chain memberships epochs with
    | error refusal => exact consistent
    | ok chain => exact ⟨consistent.byCommand, consistent.byTag, consistent.identified⟩

theorem Consistent.run (consistent : Consistent crypto service) (events : List ServiceEvent) :
    Consistent crypto (service.run crypto events) := by
  induction events generalizing service with
  | nil => exact consistent
  | cons event rest inductionHypothesis => exact inductionHypothesis (consistent.step event)

theorem run_concat (service : Service) (before : List ServiceEvent) (event : ServiceEvent) :
    service.run crypto (before ++ [event]) = (service.run crypto before).step crypto event := by
  rw [Service.run, List.foldl_append]
  rfl

theorem Consistent.step_vaultId (consistent : Consistent crypto service) (event : ServiceEvent) :
    (service.step crypto event).vaultId = service.vaultId := by
  cases event with
  | enterEpoch keyEpoch => rfl
  | push container resultRef =>
    have step := consistent.pushStep container resultRef
    show (service.push crypto container resultRef).1.vaultId = service.vaultId
    generalize service.push crypto container resultRef = result at step
    cases step <;> rfl
  | extendChain memberships epochs positions =>
    unfold Service.step
    dsimp only
    cases extend crypto service.chain memberships epochs <;> rfl

theorem Consistent.run_vaultId (consistent : Consistent crypto service)
    (events : List ServiceEvent) : (service.run crypto events).vaultId = service.vaultId := by
  induction events generalizing service with
  | nil => rfl
  | cons event rest inductionHypothesis =>
    exact (inductionHypothesis (consistent.step event)).trans (consistent.step_vaultId event)

theorem PushStep.accepts_or_keeps {result : Service × PushResponse}
    (step : PushStep crypto service container resultRef result) :
    (∃ record, result = (service.appended container record, .accepted record) ∧
      record.seq = service.nextSeq ∧ record.resultRef = resultRef) ∨
    result.1 = service ∧ ∀ record, result.2 ≠ .accepted record := by
  cases step with
  | accepted => exact .inl ⟨_, rfl, rfl, rfl⟩
  | refused => exact .inr ⟨rfl, fun record same => by cases same⟩
  | replay => exact .inr ⟨rfl, fun record same => by cases same⟩
  | fork => exact .inr ⟨rfl, fun record same => by cases same⟩

theorem Consistent.mem_step_log (consistent : Consistent crypto service) (event : ServiceEvent)
    (entry : LogEntry) :
    entry ∈ (service.step crypto event).log ↔ entry ∈ service.log ∨
      ∃ resultRef, event = .push entry.container resultRef ∧
        (service.push crypto entry.container resultRef).2 = .accepted entry.record := by
  cases event with
  | enterEpoch keyEpoch => simp [Service.step]
  | extendChain memberships epochs positions =>
    unfold Service.step
    dsimp only
    cases extend crypto service.chain memberships epochs <;> simp
  | push container resultRef =>
    show entry ∈ (service.push crypto container resultRef).1.log ↔ _
    constructor
    · intro member
      rcases (consistent.pushStep container resultRef).accepts_or_keeps with
        ⟨record, accepted, -⟩ | ⟨kept, -⟩
      · rw [accepted] at member
        rcases List.mem_append.mp member with old | new
        · exact .inl old
        · obtain rfl := List.mem_singleton.mp new
          exact .inr ⟨resultRef, rfl, congrArg Prod.snd accepted⟩
      · rw [kept] at member
        exact .inl member
    · intro gained
      rcases (consistent.pushStep container resultRef).accepts_or_keeps with
        ⟨record, accepted, -⟩ | ⟨kept, notAccepted⟩
      · rw [accepted]
        rcases gained with old | ⟨ref, isPush, isAccepted⟩
        · exact List.mem_append_left _ old
        · obtain ⟨rfl, rfl⟩ := ServiceEvent.push.inj isPush
          rw [accepted] at isAccepted
          refine List.mem_append_right _ (List.mem_singleton.mpr ?_)
          rw [PushResponse.accepted.inj isAccepted]
      · rw [kept]
        rcases gained with old | ⟨ref, isPush, isAccepted⟩
        · exact old
        · obtain ⟨rfl, rfl⟩ := ServiceEvent.push.inj isPush
          exact absurd isAccepted (notAccepted _)

theorem mem_run_log (consistent : Consistent crypto service) (empty : service.log = [])
    (events : List ServiceEvent) (entry : LogEntry) :
    entry ∈ (service.run crypto events).log ↔
      ∃ before resultRef, before ++ [.push entry.container resultRef] <+: events ∧
        ((service.run crypto before).push crypto entry.container resultRef).2 =
          .accepted entry.record := by
  induction events using List.reverseRecOn with
  | nil =>
    show entry ∈ service.log ↔ _
    rw [empty]
    constructor
    · intro member
      cases member
    · rintro ⟨before, resultRef, isPrefix, -⟩
      exact absurd (List.prefix_nil.mp isPrefix) (List.append_ne_nil_of_right_ne_nil _ (by simp))
  | append_singleton rest event inductionHypothesis =>
    rw [run_concat, (consistent.run rest).mem_step_log, inductionHypothesis]
    constructor
    · rintro (⟨before, resultRef, isPrefix, accepted⟩ | ⟨resultRef, rfl, accepted⟩)
      · exact ⟨before, resultRef, isPrefix.trans (List.prefix_append _ _), accepted⟩
      · exact ⟨rest, resultRef, List.prefix_rfl, accepted⟩
    · rintro ⟨before, resultRef, isPrefix, accepted⟩
      rcases List.prefix_concat_iff.mp isPrefix with whole | earlier
      · obtain ⟨rfl, isEvent⟩ := List.append_inj' whole rfl
        obtain rfl := List.singleton_inj.mp isEvent
        exact .inr ⟨resultRef, rfl, accepted⟩
      · exact .inl ⟨before, resultRef, earlier, accepted⟩

/-- The containers pushed in a run. -/
def containers (events : List ServiceEvent) : List (List UInt8) :=
  events.filterMap fun event =>
    match event with
    | .push container _ => some container
    | _ => none

theorem mem_containers {events before : List ServiceEvent}
    (isPrefix : before ++ [.push container resultRef] <+: events) :
    container ∈ containers events := by
  have member : ServiceEvent.push container resultRef ∈ events :=
    isPrefix.subset (List.mem_append_right _ (List.mem_singleton_self _))
  exact List.mem_filterMap.mpr ⟨_, member, rfl⟩

/-- What a push meets in a service that accepts each command exactly once. -/
structure ExactlyOnce (crypto : Crypto) (service : Service) (container : List UInt8)
    (resultRef : Option (List UInt8)) : Prop where
  indexConsistent : (service.push crypto container resultRef).2 ≠ .indexInconsistent
  inserted : (service.push crypto container resultRef).2 ≠ .duplicateIdentity
  /-- An accepted push is appended at the next position. -/
  appends : ∀ record, (service.push crypto container resultRef).2 = .accepted record →
    record.seq = service.nextSeq ∧ record.resultRef = resultRef ∧
      (service.push crypto container resultRef).1.log = service.log ++ [⟨container, record⟩]
  /-- The exact envelope again is answered with its original record. -/
  replays : ∀ entry ∈ service.log, entry.container = container →
    service.push crypto container resultRef = (service, .replay entry.record)
  /-- Another envelope under an accepted command id or tag is a fork. -/
  forks : ∀ entry ∈ service.log, ∀ parsed,
    parsePush crypto container service.vaultId = .ok parsed →
    (entry.record.commandId = parsed.identity.commandId ∨
      entry.record.idempotencyKeyTag = parsed.identity.idempotencyKeyTag) →
    entry.container ≠ container →
    service.push crypto container resultRef = (service, .protocolFork)

theorem Consistent.exactlyOnce (consistent : Consistent crypto service)
    (distinct : DigestsDistinct crypto pushed)
    (logged : ∀ entry ∈ service.log, entry.container ∈ pushed) (isPushed : container ∈ pushed)
    (resultRef : Option (List UInt8)) : ExactlyOnce crypto service container resultRef := by
  have step := consistent.pushStep container resultRef
  refine ⟨?_, ?_, ?_, ?_, ?_⟩
  · generalize service.push crypto container resultRef = result at step
    cases step <;> exact fun same => by cases same
  · generalize service.push crypto container resultRef = result at step
    cases step <;> exact fun same => by cases same
  · intro record accepted
    rcases step.accepts_or_keeps with ⟨other, isAccepted, seq, ref⟩ | ⟨-, notAccepted⟩
    · rw [isAccepted] at accepted
      obtain rfl := PushResponse.accepted.inj accepted
      rw [isAccepted]
      exact ⟨seq, ref, rfl⟩
    · exact absurd accepted (notAccepted record)
  · rintro entry member rfl
    exact consistent.replays member resultRef
  · intro entry member parsed opened shared other
    exact consistent.forks distinct member (logged entry member) isPushed opened shared other
      resultRef

/-- Every command is accepted exactly once, whatever is pushed in whatever order and however the
chain and the epoch change meanwhile: no two log entries share a command id or a tag, the log is
the pushes accepted, and every push of the run meets `ExactlyOnce`. -/
theorem pushes_exactly_once (crypto : Crypto) (vaultId : Uuid) (chain : VerifiedState)
    (epochInForce : UInt64) (nextSeq : Nat) (events : List ServiceEvent)
    (distinct : DigestsDistinct crypto (containers events)) :
    (((start vaultId chain epochInForce nextSeq).run crypto events).log.map
      fun entry => entry.record.commandId).Nodup ∧
    (((start vaultId chain epochInForce nextSeq).run crypto events).log.map
      fun entry => entry.record.idempotencyKeyTag).Nodup ∧
    (∀ entry, entry ∈ ((start vaultId chain epochInForce nextSeq).run crypto events).log ↔
      ∃ before resultRef, before ++ [.push entry.container resultRef] <+: events ∧
        (((start vaultId chain epochInForce nextSeq).run crypto before).push crypto
          entry.container resultRef).2 = .accepted entry.record) ∧
    ∀ before container resultRef, before ++ [.push container resultRef] <+: events →
      ExactlyOnce crypto ((start vaultId chain epochInForce nextSeq).run crypto before) container
        resultRef := by
  have initial : Consistent crypto (start vaultId chain epochInForce nextSeq) :=
    consistent_start vaultId chain epochInForce nextSeq
  have final := initial.run events
  have isLog := mem_run_log initial rfl events
  refine ⟨?_, ?_, isLog, ?_⟩
  · have commands := final.byCommand.distinct
    rw [records, List.map_map] at commands
    exact commands
  · have tags := final.byTag.distinct
    rw [records, List.map_map] at tags
    refine List.Nodup.of_map IdempotencyKeyTag.bytes ?_
    rw [List.map_map]
    exact tags
  · intro before container resultRef isPrefix
    refine (initial.run before).exactlyOnce distinct ?_ (mem_containers isPrefix) resultRef
    intro entry member
    obtain ⟨earlier, ref, isEarlier, -⟩ := (mem_run_log initial rfl before entry).mp member
    exact mem_containers
      (isEarlier.trans ((List.prefix_append before _).trans isPrefix))

/-! ### An example -/

/-- An envelope header of the sample founder's device. -/
def sampleHeader : ClearHeader :=
  let fingerprint := deviceFingerprint sampleCrypto suiteId kemId sampleFounder.ed25519Pk
    sampleFounder.kemPublicKey
  { vaultId := sampleFounder.vaultId, keyEpoch := 1
    object := .envelope ⟨.replicate 32 20⟩ ⟨.replicate 32 21⟩ none
    objectId := .replicate 16 22, deviceId := sampleFounder.deviceId
    deviceKeyFingerprint := fingerprint
    nonceDomain := .derive sampleCrypto sampleFounder.vaultId 1 fingerprint objectEnvelope
    invocationCounter := 0, baseSeq := 0, payloadSchemaVersion := 1, engineVersion := "1"
    schemaVersion := 1 }

/-- The header's container around a ciphertext of one repeated byte. -/
@[irreducible] def sampleContainer (byte : UInt8) : List UInt8 :=
  match encodeContainer sampleHeader (List.replicate 16 byte) with
  | .ok bytes => bytes
  | .error _ => []

def sampleService : Service := start sampleFounder.vaultId (sampleFounder.chain 1) 1 1

/-- The founder's envelope, an epoch change, another envelope under the same ids, the first one
again. -/
def sampleEvents : List ServiceEvent :=
  [.push (sampleContainer 5) none, .enterEpoch 2, .push (sampleContainer 6) none,
    .push (sampleContainer 5) none]

/-- Whether two containers' digests agree although what is hashed differs. -/
def digestsClash (crypto : Crypto) (first second : List UInt8) : Bool :=
  match parseContainer first, parseContainer second with
  | .ok one, .ok other =>
    crypto.sha256 (envelopeDigestInput one.headerBytes one.ciphertext) =
        crypto.sha256 (envelopeDigestInput other.headerBytes other.ciphertext) &&
      envelopeDigestInput one.headerBytes one.ciphertext ≠
        envelopeDigestInput other.headerBytes other.ciphertext
  | _, _ => false

theorem digestsDistinct_of
    (noClash : ∀ first ∈ pushed, ∀ second ∈ pushed, digestsClash crypto first second = false) :
    DigestsDistinct crypto pushed := by
  intro first firstMember second secondMember one other firstOpened secondOpened same
  have clear := noClash first firstMember second secondMember
  by_contra different
  rw [digestsClash, firstOpened, secondOpened] at clear
  simp [same, different] at clear

theorem accepted_sample : ∃ record,
    (sampleService.push sampleCrypto (sampleContainer 5) none).2 = .accepted record ∧
      record.commandId = sampleHeader.objectId := by
  have holds : (match (sampleService.push sampleCrypto (sampleContainer 5) none).2 with
      | .accepted record => decide (record.commandId = sampleHeader.objectId)
      | _ => false) = true := by
    decide +kernel
  generalize (sampleService.push sampleCrypto (sampleContainer 5) none).2 = response at holds ⊢
  cases response with
  | accepted record => exact ⟨record, rfl, of_decide_eq_true holds⟩
  | _ => cases holds

theorem parsePush_sample : ∃ parsed,
    parsePush sampleCrypto (sampleContainer 6) sampleFounder.vaultId = .ok parsed ∧
      parsed.identity.commandId = sampleHeader.objectId := by
  have holds : (match parsePush sampleCrypto (sampleContainer 6) sampleFounder.vaultId with
      | .ok parsed => decide (parsed.identity.commandId = sampleHeader.objectId)
      | .error _ => false) = true := by
    decide +kernel
  generalize parsePush sampleCrypto (sampleContainer 6) sampleFounder.vaultId = result at holds ⊢
  cases result with
  | ok parsed => exact ⟨parsed, rfl, of_decide_eq_true holds⟩
  | error refusal => cases holds

theorem digestsDistinct_sample : DigestsDistinct sampleCrypto (containers sampleEvents) :=
  digestsDistinct_of (by decide +kernel)

theorem pushes_exactly_once_sample : ∃ record,
    (sampleService.push sampleCrypto (sampleContainer 5) none).2 = .accepted record ∧
    ((sampleService.run sampleCrypto (sampleEvents.take 2)).push sampleCrypto
      (sampleContainer 6) none).2 = .protocolFork ∧
    ((sampleService.run sampleCrypto (sampleEvents.take 3)).push sampleCrypto
      (sampleContainer 5) none).2 = .replay record := by
  obtain ⟨record, accepted, command⟩ := accepted_sample
  obtain ⟨parsed, opened, otherCommand⟩ := parsePush_sample
  obtain ⟨-, -, -, answered⟩ := pushes_exactly_once sampleCrypto sampleFounder.vaultId
    (sampleFounder.chain 1) 1 1 sampleEvents digestsDistinct_sample
  have initial : Consistent sampleCrypto sampleService := consistent_start _ _ _ _
  have logged (events : List ServiceEvent)
      (isPrefix : [ServiceEvent.push (sampleContainer 5) none] <+: events) :
      (⟨sampleContainer 5, record⟩ : LogEntry) ∈ (sampleService.run sampleCrypto events).log := by
    refine (mem_run_log initial rfl events _).mpr ⟨[], none, isPrefix, ?_⟩
    rw [show sampleService.run sampleCrypto [] = sampleService by rfl]
    exact accepted
  have vault : (sampleService.run sampleCrypto (sampleEvents.take 2)).vaultId =
      sampleFounder.vaultId := initial.run_vaultId _
  rw [← vault] at opened
  have second := answered (sampleEvents.take 2) (sampleContainer 6) none
    ⟨sampleEvents.drop 3, rfl⟩
  have third := answered (sampleEvents.take 3) (sampleContainer 5) none ⟨[], rfl⟩
  refine ⟨record, accepted, congrArg Prod.snd (second.forks ⟨sampleContainer 5, record⟩
    (logged _ ⟨_, rfl⟩) parsed opened (.inl (command.trans otherCommand.symm)) ?_), ?_⟩
  · show sampleContainer 5 ≠ sampleContainer 6
    decide +kernel
  · exact congrArg Prod.snd (third.replays ⟨sampleContainer 5, record⟩ (logged _ ⟨_, rfl⟩) rfl)

end Service

end Dohflow.SyncCore
