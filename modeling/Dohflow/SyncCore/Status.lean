/-
This file models the replica's sync status: whether it may apply the next log
position, and why not.

Each `observe` function gives the status after an observation and the event to
show, if the status changed. A permit to re-bootstrap remembers which stop it was
issued for, and `observeRebootstrapped` accepts it for no other.
-/

import Dohflow.SyncCore.HonoredVoids
import Dohflow.SyncCore.Membership
import Dohflow.SyncCore.Plaintext

namespace Dohflow.SyncCore

/-- What a fork or an equivocation looked like. -/
inductive HaltEvidence
  /-- Two membership records for one version. -/
  | fork (version : Nat) (accepted conflicting : Digest)
  /-- A log position holds another envelope than the one first seen there. -/
  | seqConflict (seq : Nat) (first second : Digest)
  /-- The replica's write-set hash is not the one the envelope carries. -/
  | writeSetMismatch (seq : Nat) (expected computed : Digest)
  /-- A position the replica says it applied is found invalid. -/
  | appliedPositionInvalid (seq : Nat) (envelopeDigest : Digest)
  /-- A void honored at one position was offered at another. -/
  | voidAtTwoPositions (voidId : Digest) (honoredAt offeredAt : Nat)
  /-- Two epoch records after one previous epoch id. -/
  | equivocation (accepted conflicting : Digest)
  deriving DecidableEq

/-- A stable code for a deterministic apply rejection; zero is not a code. -/
structure ApplyFailureCode where
  code : UInt16
  nonzero : code ≠ 0
  deriving DecidableEq

/-- Why a replica stopped at an authenticated envelope. -/
inductive StopReason
  | receiverCheck (error : ReceiverError)
  | apply (code : ApplyFailureCode)
  deriving DecidableEq

/-- An authenticated envelope that failed the receiver checks, and where. -/
structure InvalidEnvelope where
  seq : Nat
  envelopeDigest : Digest
  commandId : Uuid
  deviceId : Uuid
  deviceKeyFingerprint : Fingerprint
  reason : StopReason
  deriving DecidableEq

/-- Opaque printable ASCII, compared byte for byte. -/
structure EngineVersion where
  bytes : List UInt8
  valid : isValidEngineVersion bytes = true
  deriving DecidableEq

def EngineVersion.new (value : String) : Except WireError EngineVersion :=
  if valid : isValidEngineVersion (utf8 value) = true then .ok ⟨utf8 value, valid⟩
  else .error .badEngineVersion

/-- A value no build is named. -/
def EngineVersion.unparseable : EngineVersion := ⟨utf8 "!unparseable!", by decide⟩

/-- The header's engine version; a decoded header always holds a valid one. -/
def headerEngineVersion (header : ClearHeader) : EngineVersion :=
  match EngineVersion.new header.engineVersion with
  | .ok version => version
  | .error _ => .unparseable

/-- An envelope carries an engine version this build does not equal. -/
structure UpdateRequired where
  seq : Nat
  envelopeDigest : Digest
  envelopeEngineVersion : EngineVersion
  ownEngineVersion : EngineVersion
  deriving DecidableEq

/-- What the engine verified about a snapshot it is about to install. -/
structure SnapshotFacts where
  /-- The last log position the snapshot covers. -/
  root : Nat
  ownEngineVersion : EngineVersion
  engineVersion : EngineVersion
  recordedVoids : List HonoredVoid
  /-- The ranges of every verified void this replica holds. -/
  heldVoids : List (Nat × Nat)

inductive StopKind
  | envelopeInvalid
  | updateRequired
  | writeSetMismatch
  | appliedPositionInvalid
  deriving DecidableEq

/-- Which stop a permit was issued for. -/
structure StopIdentity where
  kind : StopKind
  seq : Nat
  digest : Digest
  deriving DecidableEq

/-- Whether a snapshot gets past a stop of this kind: past an invalid envelope only with a recorded
void over it, past any other stop by covering its position. -/
def StopIdentity.passedBy (stop : StopIdentity) (snapshot : SnapshotFacts) : Bool :=
  match stop.kind with
  | .envelopeInvalid => snapshotPassesStop stop.seq snapshot.root snapshot.recordedVoids
  | _ => stop.seq ≤ snapshot.root

/-- Proof that a snapshot is a way out of one stop. -/
structure RebootstrapPermit where
  root : Nat
  stop : StopIdentity

/-- The replica's status. -/
inductive SyncStatus
  | healthy
  | halted (evidence : HaltEvidence)
  | envelopeInvalid (invalid : InvalidEnvelope)
  | updateRequired (update : UpdateRequired)
  deriving DecidableEq

/-- Something to show, once per change of status. -/
inductive SyncEvent
  | halted (evidence : HaltEvidence)
  | envelopeInvalid (invalid : InvalidEnvelope)
  | updateRequired (update : UpdateRequired)
  | rebootstrapped (root : Nat)
  | resumed (after : Nat)

namespace SyncStatus

/-- Whether the replica may apply the log position. -/
def canApply (status : SyncStatus) (seq : Nat) : Bool :=
  match status with
  | .healthy => true
  | .halted _ => false
  | .envelopeInvalid invalid => seq < invalid.seq
  | .updateRequired update => seq < update.seq

/-- The status and the event of a halt. -/
def haltOn (evidence : HaltEvidence) : SyncStatus × Option SyncEvent :=
  (.halted evidence, some (.halted evidence))

def observeChainError (status : SyncStatus) (error : ChainError) :
    SyncStatus × Option SyncEvent :=
  match status with
  | .halted _ => (status, none)
  | _ =>
    match error with
    | .fork version accepted conflicting => haltOn (.fork version accepted conflicting)
    | .epochEquivocation accepted conflicting => haltOn (.equivocation accepted conflicting)
    | _ => (status, none)

def observeHonored (status : SyncStatus) (honored : HonoredVoid) :
    SyncStatus × Option SyncEvent :=
  match status with
  | .envelopeInvalid invalid =>
    if invalid.seq = honored.first then (.healthy, some (.resumed honored.last))
    else (status, none)
  | _ => (status, none)

def observeForkSuspected (status : SyncStatus) (fork : ForkSuspected) :
    SyncStatus × Option SyncEvent :=
  match status with
  | .halted _ => (status, none)
  | _ =>
    match fork with
    | .digestAtStop seq ours theirs => haltOn (.seqConflict seq ours theirs)
    | .voidAtTwoPositions voidId honoredAt offeredAt =>
      haltOn (.voidAtTwoPositions voidId honoredAt offeredAt)

/-- A different digest at a position already recorded as a stop is a fork of the log. -/
def samePositionOtherDigest (status : SyncStatus) (seq : Nat) (envelopeDigest : Digest) :
    Option HaltEvidence :=
  let judge (recordedSeq : Nat) (recordedDigest : Digest) : Option HaltEvidence :=
    if recordedSeq ≠ seq ∨ recordedDigest = envelopeDigest then none
    else some (.seqConflict seq recordedDigest envelopeDigest)
  match status with
  | .envelopeInvalid invalid => judge invalid.seq invalid.envelopeDigest
  | .updateRequired update => judge update.seq update.envelopeDigest
  | _ => none

def observeEngineVersion (status : SyncStatus) (seq : Nat) (envelopeDigest : Digest)
    (envelopeEngineVersion ownEngineVersion : EngineVersion) : SyncStatus × Option SyncEvent :=
  match status.samePositionOtherDigest seq envelopeDigest with
  | some evidence => haltOn evidence
  | none =>
    if envelopeEngineVersion = ownEngineVersion then (status, none)
    else
      let update : UpdateRequired :=
        { seq, envelopeDigest, envelopeEngineVersion, ownEngineVersion }
      match status with
      | .halted _ => (status, none)
      | .envelopeInvalid invalid =>
        -- At the same position the version gate beats any verdict.
        if invalid.seq = seq then (.updateRequired update, some (.updateRequired update))
        else if invalid.seq ≤ seq then (status, none)
        else (.updateRequired update, some (.updateRequired update))
      | .updateRequired existing =>
        if existing.seq ≤ seq then (status, none)
        else (.updateRequired update, some (.updateRequired update))
      | .healthy => (.updateRequired update, some (.updateRequired update))

/-- The version gate comes before every verdict: an outcome formed at a foreign version is not
one. -/
def observeStop (status : SyncStatus) (seq : Nat) (envelopeDigest : Digest) (header : ClearHeader)
    (ownEngineVersion : EngineVersion) (outcome : Except StopReason Unit) :
    SyncStatus × Option SyncEvent :=
  let envelopeVersion := headerEngineVersion header
  if envelopeVersion ≠ ownEngineVersion then
    status.observeEngineVersion seq envelopeDigest envelopeVersion ownEngineVersion
  else
    match status.samePositionOtherDigest seq envelopeDigest with
    | some evidence => haltOn evidence
    | none =>
      match outcome with
      | .ok () => (status, none)
      | .error reason =>
        let invalid : InvalidEnvelope :=
          { seq, envelopeDigest, commandId := header.objectId, deviceId := header.deviceId
            deviceKeyFingerprint := header.deviceKeyFingerprint, reason }
        match status with
        | .halted _ => (status, none)
        | .envelopeInvalid existing =>
          if existing.seq ≤ seq then (status, none)
          else (.envelopeInvalid invalid, some (.envelopeInvalid invalid))
        | .updateRequired existing =>
          if existing.seq ≤ seq then (status, none)
          else (.envelopeInvalid invalid, some (.envelopeInvalid invalid))
        | .healthy => (.envelopeInvalid invalid, some (.envelopeInvalid invalid))

/-- The outcome of the receiver checks on the envelope at a position. -/
def observeEnvelope (status : SyncStatus) (seq : Nat) (envelopeDigest : Digest)
    (header : ClearHeader) (ownEngineVersion : EngineVersion)
    (outcome : Except ReceiverError Unit) : SyncStatus × Option SyncEvent :=
  status.observeStop seq envelopeDigest header ownEngineVersion
    (outcome.mapError StopReason.receiverCheck)

/-- A deterministic failure to apply the envelope at a position. -/
def observeApplyFailure (status : SyncStatus) (seq : Nat) (envelopeDigest : Digest)
    (header : ClearHeader) (ownEngineVersion : EngineVersion)
    (outcome : Except ApplyFailureCode Unit) : SyncStatus × Option SyncEvent :=
  status.observeStop seq envelopeDigest header ownEngineVersion (outcome.mapError StopReason.apply)

/-- `observeEnvelope` for an engine that holds the ledger and its cursor. -/
def observeEnvelopeInContext (status : SyncStatus) (ledger : VoidLedger) (nextToApply seq : Nat)
    (envelopeDigest : Digest) (header : ClearHeader) (ownEngineVersion : EngineVersion)
    (outcome : Except ReceiverError Unit) : SyncStatus × Option SyncEvent :=
  if ledger.skips seq then (status, none)
  else if seq < nextToApply then
    match outcome, status with
    | .ok (), _ => (status, none)
    | .error _, .halted _ => (status, none)
    | .error _, _ => haltOn (.appliedPositionInvalid seq envelopeDigest)
  else status.observeEnvelope seq envelopeDigest header ownEngineVersion outcome

/-- The build now running: an update-required stop for exactly its version ends. -/
def observeOwnEngineVersion (status : SyncStatus) (ownEngineVersion : EngineVersion) :
    SyncStatus :=
  match status with
  | .updateRequired update =>
    if update.envelopeEngineVersion = ownEngineVersion then .healthy else status
  | _ => status

def observeWriteSetMismatch (status : SyncStatus) (seq : Nat) (expected computed : Digest) :
    SyncStatus × Option SyncEvent :=
  match status with
  | .halted _ => (status, none)
  | _ =>
    if expected = computed then (status, none)
    else haltOn (.writeSetMismatch seq expected computed)

/-- The stops a permit can be issued for; every other status has none. -/
def stopIdentity : SyncStatus → Option StopIdentity
  | .envelopeInvalid invalid => some ⟨.envelopeInvalid, invalid.seq, invalid.envelopeDigest⟩
  | .updateRequired update => some ⟨.updateRequired, update.seq, update.envelopeDigest⟩
  | .halted (.writeSetMismatch seq expected _) => some ⟨.writeSetMismatch, seq, expected⟩
  | .halted (.appliedPositionInvalid seq envelopeDigest) =>
    some ⟨.appliedPositionInvalid, seq, envelopeDigest⟩
  | _ => none

/-- Whether the snapshot is a way out of the current stop, and if so the permit. -/
def rebootstrapPermit (status : SyncStatus) (snapshot : SnapshotFacts) :
    Option RebootstrapPermit :=
  if snapshot.engineVersion ≠ snapshot.ownEngineVersion ∨
      (snapshot.heldVoids.any fun held => held.1 ≤ snapshot.root && snapshot.root ≤ held.2) then
    none
  else
    match status.stopIdentity with
    | none => none
    | some stop => if stop.passedBy snapshot then some ⟨snapshot.root, stop⟩ else none

/-- Install the snapshot a permit vouches for: the stop it was issued for ends. -/
def observeRebootstrapped (status : SyncStatus) (permit : RebootstrapPermit) :
    SyncStatus × Option SyncEvent :=
  if status.stopIdentity = some permit.stop then (.healthy, some (.rebootstrapped permit.root))
  else (status, none)

end SyncStatus

end Dohflow.SyncCore
