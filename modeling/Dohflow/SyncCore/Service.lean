/-
This file models what the Sync service checks about a pushed envelope without
reading it: `parsePush`, before the replay lookup, and `checkNewPush`, for an
identity the index does not know.

`Service.push` is the service's one atomic step around them: parse, decide, and for
an unknown identity only, check the envelope against the chain and the epoch in
force, append it at the next position and insert its record.
-/

import Dohflow.SyncCore.Accepted
import Dohflow.SyncCore.Membership

namespace Dohflow.SyncCore

open Fallible

/-- Why a push is refused at the door. -/
inductive PushRefusal
  | malformed (error : WireError)
  | notAnEnvelope
  | wrongVault
  | unknownDevice
  | nonceDomainMismatch
  | epochRejected
  | identity (error : IdentityError)

/-- What the service knows when a push arrives. -/
structure PushView where
  routedVault : Uuid
  chain : VerifiedState
  epochInForce : UInt64

/-- A pushed envelope after the minimum parse. -/
structure ParsedPush where
  identity : PushIdentity
  header : ClearHeader

section

variable (crypto : Crypto)

/-- Everything the replay lookup needs and nothing that depends on the chain or the epoch. -/
def parsePush (containerBytes : List UInt8) (routedVault : Uuid) :
    Except PushRefusal ParsedPush := do
  let container ← (parseContainerWithLimit containerBytes maxEnvelopeContainerLen).mapError
    .malformed
  ensure (container.header.objectType = objectEnvelope) .notAnEnvelope
  ensure (container.header.vaultId = routedVault) .wrongVault
  let identity ← (Identity.fromContainer crypto container).mapError .identity
  return { identity, header := container.header }

/-- The checks for an identity the index does not know. -/
def checkNewPush (header : ClearHeader) (view : PushView) : Except PushRefusal Unit := do
  ensure (view.chain.authorized.any fun member =>
    member.deviceId = header.deviceId && member.fingerprint = header.deviceKeyFingerprint)
    .unknownDevice
  ensure (header.nonceDomain = NonceDomain.derive crypto header.vaultId header.keyEpoch
    header.deviceKeyFingerprint objectEnvelope) .nonceDomainMismatch
  ensure (header.keyEpoch = view.epochInForce) .epochRejected

/-! ### The service -/

/-- One appended envelope: its container as pushed and its record. -/
structure LogEntry where
  container : List UInt8
  record : AcceptedRecord

/-- What the service holds for one vault. -/
structure Service where
  vaultId : Uuid
  chain : VerifiedState
  epochInForce : UInt64
  index : InMemoryIndex
  log : List LogEntry
  nextSeq : Nat

/-- The service's answer to a push. -/
inductive PushResponse
  | refused (refusal : PushRefusal)
  | replay (record : AcceptedRecord)
  | protocolFork
  | accepted (record : AcceptedRecord)
  /-- The lookup found a record that cannot belong to it. -/
  | indexInconsistent
  /-- The insert after an unknown identity failed; the append is aborted. -/
  | duplicateIdentity

namespace Service

/-- A service before any push. -/
def start (vaultId : Uuid) (chain : VerifiedState) (epochInForce : UInt64) (nextSeq : Nat) :
    Service :=
  { vaultId, chain, epochInForce, index := .new, log := [], nextSeq }

def view (service : Service) : PushView :=
  { routedVault := service.vaultId, chain := service.chain, epochInForce := service.epochInForce }

/-- Append an envelope and insert its record, or neither. -/
def append (service : Service) (container : List UInt8) (record : AcceptedRecord) :
    Service × PushResponse :=
  match service.index.insert record with
  | .error _ => (service, .duplicateIdentity)
  | .ok index =>
    ({ service with
        index, log := service.log ++ [⟨container, record⟩], nextSeq := service.nextSeq + 1 },
      .accepted record)

/-- One push, with the result reference the service would choose for it. -/
def push (service : Service) (container : List UInt8) (resultRef : Option (List UInt8)) :
    Service × PushResponse :=
  match parsePush crypto container service.vaultId with
  | .error refusal => (service, .refused refusal)
  | .ok parsed =>
    match decidePush service.index.acceptedIndex parsed.identity with
    | .error _ => (service, .indexInconsistent)
    | .ok (.replay record) => (service, .replay record)
    | .ok .protocolFork => (service, .protocolFork)
    | .ok .unknown =>
      match checkNewPush crypto parsed.header service.view with
      | .error refusal => (service, .refused refusal)
      | .ok () =>
        service.append container
          (parsed.identity.accepted parsed.header.keyEpoch service.nextSeq resultRef)

end Service

/-- What happens at the service of one vault. -/
inductive ServiceEvent
  | push (container : List UInt8) (resultRef : Option (List UInt8))
  /-- Chain records arrive and take some log positions. -/
  | extendChain (memberships epochs : List (List UInt8)) (positions : Nat)
  | enterEpoch (keyEpoch : UInt64)

namespace Service

def step (service : Service) : ServiceEvent → Service
  | .push container resultRef => (service.push crypto container resultRef).1
  | .extendChain memberships epochs positions =>
    match extend crypto service.chain memberships epochs with
    | .ok chain => { service with chain, nextSeq := service.nextSeq + positions }
    | .error _ => service
  | .enterEpoch keyEpoch => { service with epochInForce := keyEpoch }

def run (service : Service) (events : List ServiceEvent) : Service :=
  events.foldl (step crypto) service

end Service

end

end Dohflow.SyncCore
