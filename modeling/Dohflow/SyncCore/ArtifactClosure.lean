/-
This file models the closure of an envelope's artifacts: what a payload references,
the delta a producer builds for it, and the receiver's check that the two are the same.

A payload names source records and attachments, a delta holds artifacts, and only an
artifact that has been opened tells which batch part or attachment it binds. The
receiver groups the delta by what its artifacts bind and checks the groups, the
references and the live closure in a fixed order, so that every replica reports the
same mismatch. A batch must also be what splitting its joined parts gives.
-/

import Dohflow.Foundation.Grouping
import Dohflow.SyncCore.ClosureSidecar
import Dohflow.SyncCore.SourceParts
import Mathlib.Data.Finset.Insert
import Mathlib.Data.Finset.Dedup
import Mathlib.Logic.Function.Basic

namespace Dohflow.SyncCore

open CanonicalOrder Fallible Grouping Node SourceParts SourceRows Spelling

namespace ArtifactClosure

/-! ### What artifacts bind and payloads name -/

/-- The opaque, epoch-scoped service address of an artifact. -/
abbrev ArtifactId := Digest

inductive ArtifactKind
  | attachment
  | sourceBatchPart

/-- A logical object an artifact binds. -/
inductive LogicalRef
  | batch (batchId : Uuid)
  | attachment (attachmentId : Uuid)

/-- What a payload names. -/
inductive PayloadRef
  | record (recordId : Uuid)
  | attachment (attachmentId : Uuid)

/-- What is sealed as an artifact. -/
structure TransportPlaintext where
  artifactId : ArtifactId
  kind : ArtifactKind
  logicalMetadata : List UInt8
  blob : List UInt8

namespace LiveClosure

end LiveClosure

/-- Why a closure is wrong. -/
inductive Mismatch
  | unreferencedArtifact (id : ArtifactId)
  | unresolvedReference (reference : PayloadRef)
  | partMissing (batchId : Uuid)
  | partDuplicated (batchId : Uuid)
  | partsDisagree (batchId : Uuid)
  | badBinding (id : ArtifactId)
  | partUndecodable (id : ArtifactId)
  | recordDuplicated (record : Uuid)
  | recordInLiveBatch (record : Uuid)
  | batchNotCanonical (batchId : Uuid)
  | recordInNoBatch (record : Uuid)
  | recordInSeveralBatches (record : Uuid)
  | attachmentRebound (attachmentId : Uuid)
  | rebinding (logical : LogicalRef)

/-! ### Opening an artifact -/

section

variable (toVec : Canonicalizer)

end

/-! ### Canonical batches -/

section

variable (toVec : Canonicalizer)

/-- A batch's parts are what splitting the batch they join to gives. -/
def checkBatchCanonical (batchId : Uuid) (parts : List PartRef) : Except Mismatch Unit := do
  let joined ← (join toVec batchId parts).mapError fun _ => .batchNotCanonical batchId
  let expected ← (split toVec joined).mapError fun _ => .batchNotCanonical batchId
  let ordered := sortBy Prod.fst parts
  ensure (expected.length = ordered.length ∧
    ∀ pair ∈ expected.zip ordered, pair.1.blob = pair.2.2.2) (.batchNotCanonical batchId)

end

end ArtifactClosure

end Dohflow.SyncCore
