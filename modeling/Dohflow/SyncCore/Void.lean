/-
This file models void records and the rule by which a replica honors them: the
record's bytes, `verifyVoid`, and `VoidLedger.offerInOrder`, which offers the
verified voids in position order until one of them changes the replica.
A context that contradicts itself is refused before any void is looked at.
-/

import Dohflow.SyncCore.Status
import Dohflow.Foundation.FirstChange

namespace Dohflow.SyncCore

open ByteReader Fallible FirstChange

def voidLabel : String := "dohflow/sync-void/v1"

/-- The longest void body. -/
def maxVoidBody : Nat := 256

/-- Why the voider says the position is poisoned; audit only. -/
inductive VoidReason
  | receiverCheck
  | deterministicApply
  deriving DecidableEq

def VoidReason.byte : VoidReason → UInt8
  | .receiverCheck => 1
  | .deterministicApply => 2

def VoidReason.ofByte (byte : UInt8) : Except WireError VoidReason :=
  if byte = 1 then .ok .receiverCheck
  else if byte = 2 then .ok .deterministicApply
  else .error .unknownObjectType

structure VoidBody where
  suiteId : UInt16
  vaultId : Uuid
  /-- The poisoned log position. -/
  seq : UInt64
  commandId : Uuid
  envelopeDigest : Digest
  reason : VoidReason
  signerFingerprint : Fingerprint
  issuedAt : Int64
  deriving DecidableEq

namespace VoidBody

/-- The body's canonical bytes. -/
def encode (body : VoidBody) : List UInt8 :=
  Writer.withLabel voidLabel ++ (Writer.u16 protocolVersion ++ (Writer.u16 body.suiteId ++
    (Writer.fixed body.vaultId ++ (Writer.u64 body.seq ++ (Writer.fixed body.commandId ++
    (Writer.fixed body.envelopeDigest ++ (Writer.u8 body.reason.byte ++
    (Writer.fixed body.signerFingerprint.bytes ++ Writer.i64 body.issuedAt))))))))

def reader : Reader VoidBody := do
  Reader.label voidLabel
  require ((← Reader.u16) = protocolVersion) .unsupportedProtocol
  let suiteId ← Reader.u16
  let vaultId ← Reader.fixed 16
  let seq ← Reader.u64
  let commandId ← Reader.fixed 16
  let envelopeDigest ← Reader.fixed 32
  let reason ← VoidReason.ofByte (← Reader.u8)
  let signerFingerprint ← Reader.fixed 32
  let issuedAt ← Reader.i64
  Reader.finish
  return { suiteId, vaultId, seq, commandId, envelopeDigest, reason
           signerFingerprint := ⟨signerFingerprint⟩, issuedAt }

def decode (bytes : List UInt8) : Except WireError VoidBody := Reader.decode reader bytes

end VoidBody

theorem ofByte_voidReason (reason : VoidReason) : VoidReason.ofByte reason.byte = .ok reason := by
  cases reason <;> rfl

theorem reads_label_void : Reads (Reader.label voidLabel) (Writer.withLabel voidLabel) () :=
  reads_label (by decide) (by decide)

theorem VoidBody.decode_encode (body : VoidBody) : VoidBody.decode body.encode = .ok body := by
  refine decode_of_readsAll (reads_label_void.bind_readsAll ?_)
  refine (reads_u16 _).bind_readsAll (ReadsAll.require_bind rfl ?_)
  refine (reads_u16 _).bind_readsAll ((reads_fixed _).bind_readsAll ?_)
  refine (reads_u64 _).bind_readsAll ((reads_fixed _).bind_readsAll ?_)
  refine (reads_fixed _).bind_readsAll ?_
  refine (reads_u8 _).bind_readsAll (ReadsAll.ok_bind (ofByte_voidReason _) ?_)
  refine (reads_fixed _).bind_readsAll ?_
  rw [← List.append_nil (Writer.i64 _)]
  refine (reads_i64 _).bind_readsAll ?_
  exact readsAll_finish_bind (reads_pure body).readsAll

/-- Why a void record was refused; the record is then ignored. -/
inductive VoidError
  | malformed (error : WireError)
  | unsupportedProtocol
  | unsupportedSuite
  | wrongVault
  | signerNotAuthorized
  | badSignature
  deriving DecidableEq

/-- A void verified against the chain, bound to the log position it was pulled at. -/
structure VerifiedVoid where
  id : Digest
  /-- The log position the void itself occupies. -/
  position : UInt64
  body : VoidBody

def voidBodyRefusal : WireError → VoidError
  | .unsupportedProtocol => .unsupportedProtocol
  | error => .malformed error

/-- Verify a void record pulled at a log position. -/
def verifyVoid (crypto : Crypto) (state : VerifiedState) (atVoid : EpochAtPosition)
    (position : UInt64) (record : List UInt8) : Except VoidError VerifiedVoid := do
  let signed ← (SignedRecord.parse record maxVoidBody).mapError .malformed
  let body ← (VoidBody.decode signed.body).mapError voidBodyRefusal
  ensure (body.suiteId = suiteId) .unsupportedSuite
  ensure (body.vaultId = state.vaultId) .wrongVault
  match state.authorizedMemberByFingerprintAtVersion body.signerFingerprint
      atVoid.membershipHeadVersion with
  | none => .error .signerNotAuthorized
  | some signer =>
    ensure (ed25519VerifyStrict crypto signer.ed25519Pk signed.body signed.signature) .badSignature
    return { id := signed.id crypto, position, body }

/-! ### The honor rule -/

/-- Why a void is inert: it skips nothing and changes nothing. -/
inductive Inert
  | voidNotAfterTarget
  | alreadyCovered
  | precedesRoot
  | foundValid
  | notYetEvaluated
  | notDeterminable
  | commandMismatch

/-- The outcome of offering a void to the honor rule. -/
inductive Honor
  /-- The void was honored now. -/
  | honored (range : HonoredVoid)
  /-- The same void was already honored at this position. -/
  | alreadyHonored (range : HonoredVoid)
  | inert (why : Inert)
  | forkSuspected (fork : ForkSuspected)

/-- Whether the outcome changes the replica. -/
def Honor.changes : Honor → Bool
  | .honored _ => true
  | .forkSuspected _ => true
  | _ => false

/-- The range an outcome honors now. -/
def Honor.honoredRange : Honor → Option HonoredVoid
  | .honored range => some range
  | _ => none

/-- A refused offer: an inconsistent replica state, or voids out of order. -/
inductive OfferError
  | stopBehindFrontier
  | rootNotBelowFrontier
  | frontierInsideHonoredRange
  | voidsNotAscending

/-- What the replica itself holds when a void is offered. -/
structure HonorContext where
  status : SyncStatus
  /-- The lowest log position this replica has neither applied nor skipped. -/
  nextToApply : Nat
  /-- The last position of the snapshot the replica bootstrapped from, if it did. -/
  snapshotRoot : Option Nat
  /-- Whether the replica is at the position but cannot judge it yet. -/
  targetNotDeterminable : Bool

/-- The position of a status that is stopped at one. -/
def SyncStatus.voidStop : SyncStatus → Option Nat
  | .envelopeInvalid invalid => some invalid.seq
  | .updateRequired update => some update.seq
  | _ => none

/-- The range the void skips once honored. -/
def VerifiedVoid.range (void : VerifiedVoid) : HonoredVoid :=
  { voidId := void.id, first := void.body.seq.toNat, last := void.position.toNat - 1 }

/-- `u64::checked_add(1)`. -/
def checkedSucc (value : Nat) : Option Nat := if value + 1 < 2 ^ 64 then some (value + 1) else none

/-- `u64::saturating_add(1)`. -/
def saturatingSucc (value : Nat) : Nat := min (value + 1) (2 ^ 64 - 1)

namespace VoidLedger

/-- The replica is at the position the void names: judge the void against the stop there. -/
def judge (ledger : VoidLedger) (void : VerifiedVoid) (context : HonorContext) :
    VoidLedger × Honor :=
  let otherwise : Honor :=
    .inert (if context.targetNotDeterminable then .notDeterminable else .notYetEvaluated)
  match context.status with
  | .envelopeInvalid stop =>
    if stop.seq ≠ void.body.seq.toNat then (ledger, otherwise)
    else if stop.envelopeDigest ≠ void.body.envelopeDigest then
      (ledger, .forkSuspected
        (.digestAtStop void.body.seq.toNat stop.envelopeDigest void.body.envelopeDigest))
    else if stop.commandId ≠ void.body.commandId then (ledger, .inert .commandMismatch)
    else (⟨ledger.honored ++ [void.range]⟩, .honored void.range)
  | .halted _ => (ledger, .inert .notYetEvaluated)
  | _ => (ledger, otherwise)

/-- Offer one void. -/
def offerOne (context : HonorContext) (ledger : VoidLedger) (void : VerifiedVoid) :
    VoidLedger × Honor :=
  match ledger.honored.find? fun honored => honored.voidId = void.id with
  | some existing =>
    if checkedSucc existing.last = some void.position.toNat then
      (ledger, .alreadyHonored existing)
    else
      (ledger, .forkSuspected (.voidAtTwoPositions void.id (saturatingSucc existing.last)
        void.position.toNat))
  | none =>
    if void.position ≤ void.body.seq then (ledger, .inert .voidNotAfterTarget)
    else if ledger.skips void.body.seq.toNat then (ledger, .inert .alreadyCovered)
    else if context.snapshotRoot.any fun root => void.body.seq.toNat ≤ root then
      (ledger, .inert .precedesRoot)
    else if void.body.seq.toNat < context.nextToApply then (ledger, .inert .foundValid)
    else if context.nextToApply < void.body.seq.toNat then (ledger, .inert .notYetEvaluated)
    else ledger.judge void context

/-- Strictly ascending in position. -/
def Ascending (voids : List VerifiedVoid) : Prop :=
  voids.IsChain fun first second => first.position < second.position

instance (voids : List VerifiedVoid) : Decidable (Ascending voids) :=
  inferInstanceAs (Decidable (List.IsChain _ voids))

/-- The checks on the context, before any void. -/
def checkContext (ledger : VoidLedger) (context : HonorContext) : Except OfferError Unit := do
  ensure (∀ stop ∈ context.status.voidStop, context.nextToApply ≤ stop) .stopBehindFrontier
  ensure (∀ root ∈ context.snapshotRoot, root < context.nextToApply) .rootNotBelowFrontier
  ensure (∀ honored ∈ ledger.honored, honored.last < context.nextToApply)
    .frontierInsideHonoredRange

/-- Offer voids in position order and return the outcome of each until the first that changes the
replica. -/
def offerInOrder (ledger : VoidLedger) (voids : List VerifiedVoid) (context : HonorContext) :
    Except OfferError (VoidLedger × List Honor) := do
  ledger.checkContext context
  ensure (Ascending voids) .voidsNotAscending
  return untilChange (offerOne context) Honor.changes ledger voids

end VoidLedger

end Dohflow.SyncCore
