/-
This file models the accepted-envelope index: the record kept of an accepted
command, the identity computed from a container's bytes, `decidePush`, and the
reference index with its two keys. The client's side of a retry is `matchPulled`,
over the identity of the container its outbox keeps.
-/

import Mathlib.Logic.Function.Basic
import Dohflow.SyncCore.Envelope
import Dohflow.SyncCore.Plaintext

namespace Dohflow.SyncCore

open Fallible

/-- One accepted command in the service's index. -/
structure AcceptedRecord where
  vaultId : Uuid
  commandId : Uuid
  idempotencyKeyTag : IdempotencyKeyTag
  envelopeDigest : Digest
  metadataCommitment : MetadataCommitment
  keyEpoch : UInt64
  /-- The sequence number the service assigned. -/
  seq : Nat
  /-- An opaque result reference the service chose. -/
  resultRef : Option (List UInt8)
  deriving DecidableEq

/-- Why an identity could not be taken from a container. -/
inductive IdentityError
  | notAnEnvelope
  | digest
  | notTheCheckedEnvelope

/-- The identity fields of a command envelope; the digest is computed, never read. -/
structure Identity where
  vaultId : Uuid
  commandId : Uuid
  idempotencyKeyTag : IdempotencyKeyTag
  envelopeDigest : Digest
  metadataCommitment : MetadataCommitment
  deviceId : Uuid
  deviceKeyFingerprint : Fingerprint

def Identity.fromContainer (crypto : Crypto) (container : ParsedContainer) :
    Except IdentityError Identity :=
  match container.header.object with
  | .envelope idempotencyKeyTag immutableMetadataCommitment _ => do
    let envelopeDigest ← (canonicalEnvelopeDigest crypto container.headerBytes
      container.ciphertext).mapError fun _ => .digest
    return {
      vaultId := container.header.vaultId
      commandId := container.header.objectId
      idempotencyKeyTag
      envelopeDigest
      metadataCommitment := immutableMetadataCommitment
      deviceId := container.header.deviceId
      deviceKeyFingerprint := container.header.deviceKeyFingerprint }
  | .snapshot _ => .error .notAnEnvelope

/-- What a push carries, as the service computes it from the received bytes. -/
abbrev PushIdentity := Identity

/-- The record the service stores once it appends this envelope. -/
def Identity.accepted (push : PushIdentity) (keyEpoch : UInt64) (seq : Nat)
    (resultRef : Option (List UInt8)) : AcceptedRecord :=
  { vaultId := push.vaultId, commandId := push.commandId
    idempotencyKeyTag := push.idempotencyKeyTag, envelopeDigest := push.envelopeDigest
    metadataCommitment := push.metadataCommitment, keyEpoch, seq, resultRef }

/-- Lookups over an accepted-envelope index. -/
structure AcceptedIndex where
  byCommandId : Uuid → Option AcceptedRecord
  byTag : IdempotencyKeyTag → Option AcceptedRecord

/-- The outcome of the first steps of a push. -/
inductive PushDecision
  /-- Both identities are accepted as this exact envelope. -/
  | replay (record : AcceptedRecord)
  | protocolFork
  /-- Neither identity is known. -/
  | unknown

/-- The index returned a record that cannot belong to this lookup or this vault. -/
structure IndexInconsistent where

/-- The decision over what the two lookups found: a replay needs both to land on one record that
carries the push's digest and commitment. -/
def PushDecision.over (byCommand byTag : Option AcceptedRecord) (push : PushIdentity) :
    PushDecision :=
  match byCommand, byTag with
  | none, none => .unknown
  | some record, some other =>
    if record = other ∧ record.envelopeDigest = push.envelopeDigest ∧
        record.metadataCommitment = push.metadataCommitment then .replay record
    else .protocolFork
  | _, _ => .protocolFork

/-- Look up both the command id and the tag, then decide. -/
def decidePush (index : AcceptedIndex) (push : PushIdentity) :
    Except IndexInconsistent PushDecision := do
  let byCommand := index.byCommandId push.commandId
  let byTag := index.byTag push.idempotencyKeyTag
  ensure (∀ record ∈ byCommand.toList ++ byTag.toList, record.vaultId = push.vaultId) ⟨⟩
  ensure (∀ record ∈ byCommand, record.commandId = push.commandId) ⟨⟩
  ensure (∀ record ∈ byTag, record.idempotencyKeyTag = push.idempotencyKeyTag) ⟨⟩
  return .over byCommand byTag push

/-- The reference index for one vault: two maps, with a copy of each record under each key. -/
structure InMemoryIndex where
  byCommand : Uuid → Option AcceptedRecord
  byTag : Digest → Option AcceptedRecord

/-- An insert that would put a second record under a command id or a tag. -/
structure DuplicateIdentity where

namespace InMemoryIndex

def new : InMemoryIndex := { byCommand := fun _ => none, byTag := fun _ => none }

/-- Insert a record; nothing is inserted if its command id or its tag is present. -/
def insert (index : InMemoryIndex) (record : AcceptedRecord) :
    Except DuplicateIdentity InMemoryIndex :=
  if (index.byCommand record.commandId).isSome ∨
      (index.byTag record.idempotencyKeyTag.bytes).isSome then
    .error ⟨⟩
  else
    .ok {
      byCommand := Function.update index.byCommand record.commandId (some record)
      byTag := Function.update index.byTag record.idempotencyKeyTag.bytes (some record) }

/-- The lookups of the reference index. -/
def acceptedIndex (index : InMemoryIndex) : AcceptedIndex where
  byCommandId := index.byCommand
  byTag tag := index.byTag tag.bytes

end InMemoryIndex

/-! ### The client -/

/-- What a client holds for a command it sealed and has not yet seen accepted. -/
structure OutboxEntry where
  identity : Identity

/-- The identity of the sealed container the outbox keeps. -/
def OutboxEntry.fromContainer (crypto : Crypto) (container : ParsedContainer) :
    Except IdentityError OutboxEntry :=
  (Identity.fromContainer crypto container).map OutboxEntry.mk

/-- An envelope pulled from the log and checked, with what the service assigned to it. -/
structure PulledEnvelope where
  identity : Identity
  seq : Nat
  resultRef : Option (List UInt8)

/-- The container must be the one whose header was checked. -/
def PulledEnvelope.fromContainer (crypto : Crypto)
    {tagFor : IdempotencyKey → IdempotencyKeyTag} (container : ParsedContainer)
    (checked : CheckedEnvelope crypto tagFor) (seq : Nat) (resultRef : Option (List UInt8)) :
    Except IdentityError PulledEnvelope := do
  ensure (checked.header = container.header) .notTheCheckedEnvelope
  let identity ← Identity.fromContainer crypto container
  return { identity, seq, resultRef }

/-- The client's view of a pulled envelope against one outbox entry. -/
inductive PullMatch
  /-- The pulled envelope is the outbox entry, byte for byte. -/
  | bindToAccepted (seq : Nat) (resultRef : Option (List UInt8))
  /-- The same command id or tag carries a different envelope. -/
  | protocolFork
  /-- An unrelated command. -/
  | notMine

/-- Does a pulled envelope settle this outbox entry? -/
def matchPulled (outbox : OutboxEntry) (pulled : PulledEnvelope) : PullMatch :=
  let mine := outbox.identity
  let theirs := pulled.identity
  let sameCommand := mine.commandId = theirs.commandId
  let sameTag := mine.idempotencyKeyTag = theirs.idempotencyKeyTag
  if ¬ sameCommand ∧ ¬ sameTag then .notMine
  else if sameCommand ∧ sameTag ∧ mine.envelopeDigest = theirs.envelopeDigest ∧
      mine.metadataCommitment = theirs.metadataCommitment then
    .bindToAccepted pulled.seq pulled.resultRef
  else .protocolFork

end Dohflow.SyncCore
