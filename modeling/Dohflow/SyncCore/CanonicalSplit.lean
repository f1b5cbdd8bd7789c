/-
This file proves that a source batch's parts are accepted as canonical just when they
are what splitting the batch gives.

Splitting depends on a batch's rows and not on the order they come in, so the rows
that the parts are joined to are split into the same parts again. Parts that join are
numbered from zero and name their count, so they are told apart from the parts of a
split by their blobs alone, and those are compared.
-/

import Dohflow.SyncCore.ArtifactClosure
import Dohflow.SyncCore.SourceRoundTrip

namespace Dohflow.SyncCore.SourceParts

open ArtifactClosure CanonicalOrder Fallible Node SourceRows

variable {toVec : Canonicalizer} {batch : SourceBatch}

/-! ### The order of rows -/

theorem sortBy_eq_of_perm {Row : Type} {key : Row → List Nat} {rows others : List Row}
    (strict : (sortBy key rows).Pairwise fun first second => key first < key second)
    (perm : others.Perm rows) : sortBy key others = sortBy key rows := by
  have distinct : ((sortBy key rows).map key).Nodup :=
    List.pairwise_map.mpr (strict.imp fun less => less.ne)
  refine (sortBy_eq_iff_perm fun first firstIn second secondIn same => ?_).mpr perm
  exact List.inj_on_of_nodup_map distinct (mem_sortBy.mpr (perm.mem_iff.mp firstIn))
    (mem_sortBy.mpr secondIn) same

theorem split_of_perm (emits : EmitsRfc8785 toVec) {other : SourceBatch} {parts : List Part}
    (passed : split toVec batch = .ok parts) (row : other.batch = batch.batch)
    (runs : other.runs.Perm batch.runs) (records : other.records.Perm batch.records) :
    split toVec other = .ok parts := by
  obtain ⟨sound, writable, bounded, rfl⟩ := (split_eq_ok emits).mp passed
  have sameRuns : sortedRuns other = sortedRuns batch := sortBy_eq_of_perm sound.ascendRuns runs
  have sameRecords : sortedRecords other = sortedRecords batch :=
    sortBy_eq_of_perm sound.ascendRecords records
  have header : headerSize other = headerSize batch := by
    rw [headerSize, headerSize, row, (runs.map _).sum_eq]
  have blobs : blobsOf other = blobsOf batch := by
    rw [blobsOf, blobsOf, frontOf, frontOf, row, sameRuns, sameRecords]
  refine (split_eq_ok emits).mpr ⟨?_, ?_, ?_, ?_⟩
  · exact ⟨by rw [sameRuns, row]; exact sound.ownRuns,
      by rw [sameRecords, row]; exact sound.ownRecords,
      by rw [sameRuns]; exact sound.distinctRuns,
      by rw [sameRecords]; exact sound.distinctRecords⟩
  · exact ⟨by rw [row]; exact writable.columns, by rw [sameRuns]; exact writable.runs,
      by rw [sameRecords]; exact writable.records⟩
  · exact ⟨by rw [header]; exact bounded.header, by rw [sameRecords]; exact bounded.records,
      by rw [blobs]; exact bounded.parts⟩
  · rw [partsOf, partsOf, blobs, row]

/-! ### The parts of a split -/

/-- What a split gives: the records in groups, each in the part of its index. -/
structure SplitInto (batch : SourceBatch) (parts : List Part) (chunks : List (List RecordRow)) :
    Prop where
  whole : chunks.flatten = sortedRecords batch
  some : chunks ≠ []
  made : parts = chunks.mapIdx (partAt batch chunks.length)
  short : ∀ part ∈ parts, part.blob.length ≤ maxPartBlob

theorem exists_splitInto (emits : EmitsRfc8785 toVec) {parts : List Part}
    (passed : split toVec batch = .ok parts) : ∃ chunks, SplitInto batch parts chunks := by
  obtain ⟨-, -, bounded, rfl⟩ := (split_eq_ok emits).mp passed
  obtain ⟨chunks, whole, some, parts, short⟩ := partsOf_spec bounded
  exact ⟨chunks, whole, some, parts, short⟩

section

variable {parts : List Part} {chunks : List (List RecordRow)}

theorem SplitInto.length (into : SplitInto batch parts chunks) : parts.length = chunks.length := by
  rw [into.made, List.length_mapIdx]

theorem SplitInto.refs (into : SplitInto batch parts chunks) :
    parts.map Part.ref = refsFrom batch chunks.length 0 chunks := by
  rw [into.made, refsFrom]
  refine List.ext_getElem (by simp) fun index _ _ => ?_
  rw [List.getElem_map, List.getElem_mapIdx, List.getElem_mapIdx, Nat.zero_add]

theorem SplitInto.indices (into : SplitInto batch parts chunks) :
    parts.map Part.index = List.range parts.length := by
  rw [into.length, into.made]
  refine List.ext_getElem (by simp) fun index _ _ => ?_
  rw [List.getElem_map, List.getElem_mapIdx, List.getElem_range]
  rfl

theorem SplitInto.count (into : SplitInto batch parts chunks) :
    ∀ part ∈ parts, part.count = parts.length := by
  intro part member
  rw [into.length]
  rw [into.made] at member
  obtain ⟨index, inside, rfl⟩ := List.mem_mapIdx.mp member
  rfl

/-- Every part's metadata is of the batch, the part's index and the count. -/
theorem SplitInto.named (into : SplitInto batch parts chunks) : ∀ part ∈ parts,
    part.logicalMetadata = metadata batch.batch.id part.index part.count ∧
      part.index < part.count := by
  intro part member
  rw [into.made] at member
  obtain ⟨index, inside, rfl⟩ := List.mem_mapIdx.mp member
  exact ⟨rfl, inside⟩

/-- The parts are joined to the batch with its rows sorted, and accepted as canonical. -/
theorem SplitInto.accepted (emits : EmitsRfc8785 toVec) (passed : split toVec batch = .ok parts)
    (into : SplitInto batch parts chunks) {given : List PartRef}
    (perm : given.Perm (parts.map Part.ref)) :
    join toVec batch.batch.id given = .ok ⟨batch.batch, sortedRuns batch, sortedRecords batch⟩ ∧
      checkBatchCanonical toVec batch.batch.id given = .ok () := by
  obtain ⟨sound, writable, -, -⟩ := (split_eq_ok emits).mp passed
  rw [into.refs] at perm
  have joined := join_refs emits writable sound into.some into.whole perm
  refine ⟨joined, ?_⟩
  have again : split toVec ⟨batch.batch, sortedRuns batch, sortedRecords batch⟩ = .ok parts :=
    split_of_perm emits passed rfl (sortBy_perm batch.runs) (sortBy_perm batch.records)
  have sorted : sortBy Prod.fst given = parts.map Part.ref := by
    rw [sortBy_refs perm, into.refs]
  unfold checkBatchCanonical
  rw [joined]
  show ((split toVec ⟨batch.batch, sortedRuns batch, sortedRecords batch⟩).mapError _ >>= _) = _
  rw [again]
  show ensure _ _ = _
  rw [sorted]
  refine ensure_of ⟨(List.length_map _).symm, fun pair member => ?_⟩ _
  obtain ⟨index, inside, rfl⟩ := List.mem_iff_getElem.mp member
  rw [List.getElem_zip, List.getElem_map]
  rfl

end

variable {given : List PartRef} {joined : SourceBatch} {batchId : Uuid}

/-! ### Parts that join -/

theorem join_shape (passed : join toVec batchId given = .ok joined) :
    (∀ part ∈ given, part.2.1 = given.length) ∧
      ∀ entry ∈ (sortBy Prod.fst given).zipIdx, entry.1.1 = entry.2 := by
  unfold join at passed
  obtain ⟨count, -, passed⟩ := bind_eq_ok.mp passed
  obtain ⟨⟨counts, long, -⟩, passed⟩ := ensure_bind_eq_ok.mp passed
  obtain ⟨indices, -⟩ := ensure_bind_eq_ok.mp passed
  exact ⟨fun part member => (counts part member).trans long, indices⟩

theorem perm_of_accepted (emits : EmitsRfc8785 toVec)
    (passed : join toVec batchId given = .ok joined)
    (accepted : checkBatchCanonical toVec batchId given = .ok ()) :
    ∃ parts, split toVec joined = .ok parts ∧ given.Perm (parts.map Part.ref) := by
  unfold checkBatchCanonical at accepted
  obtain ⟨again, joinedAgain, accepted⟩ := bind_eq_ok.mp accepted
  rw [mapError_eq_ok, passed] at joinedAgain
  obtain rfl := Except.ok.inj joinedAgain
  obtain ⟨parts, made, accepted⟩ := bind_eq_ok.mp accepted
  rw [mapError_eq_ok] at made
  obtain ⟨long, blobs⟩ := ensure_eq_ok.mp accepted
  obtain ⟨counts, indices⟩ := join_shape passed
  obtain ⟨chunks, into⟩ := exists_splitInto emits made
  have sorted : (sortBy Prod.fst given).Perm given := sortBy_perm given
  refine ⟨parts, made, sorted.symm.trans (List.Perm.of_eq ?_)⟩
  -- At each place the two have the same index, the same count and the same blob.
  refine List.ext_getElem (by rw [List.length_map, long]) fun index inside inParts => ?_
  rw [List.length_map] at inParts
  rw [List.getElem_map]
  have place := indices ((sortBy Prod.fst given)[index], index)
    (List.mem_zipIdx_iff_getElem?.mpr (List.getElem?_eq_getElem inside))
  have placed : parts[index].index = index := by
    have inRange : index < (parts.map Part.index).length := by rwa [List.length_map]
    have same : (parts.map Part.index)[index] = index := by
      simp only [into.indices, List.getElem_range]
    rwa [List.getElem_map] at same
  have named := counts _ (mem_sortBy.mp (List.getElem_mem inside))
  have counted := into.count _ (List.getElem_mem inParts)
  have inBoth : index < (parts.zip (sortBy Prod.fst given)).length := by
    rw [List.length_zip]
    omega
  have sameBlob := blobs _ (List.getElem_mem inBoth)
  rw [List.getElem_zip] at sameBlob
  rw [length_sortBy] at long
  refine Prod.ext (place.trans placed.symm) (Prod.ext ?_ sameBlob.symm)
  rw [named, ← long]
  exact counted.symm

/-! ### Splitting and joining -/

/-- A batch's parts are short and numbered from zero, they are joined in any order to the batch with
its rows sorted and accepted as canonical, and the same rows in another order are split alike. Parts
that join and are accepted as canonical are what the batch they join to is split into. -/
theorem split_and_join_are_inverse (emits : EmitsRfc8785 toVec) :
    (∀ (batch : SourceBatch) (parts : List Part), split toVec batch = .ok parts →
      (∀ part ∈ parts, part.blob.length ≤ maxPartBlob ∧ part.count = parts.length) ∧
      parts.map Part.index = List.range parts.length ∧
      (∀ given : List PartRef, given.Perm (parts.map Part.ref) →
        join toVec batch.batch.id given =
            .ok ⟨batch.batch, sortedRuns batch, sortedRecords batch⟩ ∧
          checkBatchCanonical toVec batch.batch.id given = .ok ()) ∧
      ∀ other : SourceBatch, other.batch = batch.batch → other.runs.Perm batch.runs →
        other.records.Perm batch.records → split toVec other = .ok parts) ∧
    ∀ (batchId : Uuid) (given : List PartRef) (joined : SourceBatch),
      join toVec batchId given = .ok joined → checkBatchCanonical toVec batchId given = .ok () →
        ∃ parts, split toVec joined = .ok parts ∧ given.Perm (parts.map Part.ref) := by
  refine ⟨fun batch parts passed => ?_, fun batchId given joined => perm_of_accepted emits⟩
  obtain ⟨chunks, into⟩ := exists_splitInto emits passed
  exact ⟨fun part member => ⟨into.short part member, into.count part member⟩, into.indices,
    fun given perm => into.accepted emits passed perm,
    fun other row runs records => split_of_perm emits passed row runs records⟩

def sampleRecord (id : UInt8) (confidence : Option Int64) : RecordRow :=
  { id := List.Vector.replicate 16 id, sourceBatchId := List.Vector.replicate 16 1
    externalId := none, sourceHash := "h", normalizedJson := "\x7b\x7d"
    parseConfidenceBps := confidence, createdAt := "2025-01-01T00:00:00Z" }

/-- A batch of two records, the one of the greater id first. -/
def sampleBatch : SourceBatch :=
  { batch := {
      id := List.Vector.replicate 16 1, sourceType := "csv", sourceName := some "bank"
      fileFingerprint := none, parserVersion := none, summaryJson := none, importedAt := none
      createdAt := "2025-01-01T00:00:00Z", connectorConnectionId := none }
    runs := []
    records := [sampleRecord 3 (some 9500), sampleRecord 2 none] }

theorem exists_split_sampleBatch : ∃ part, split rfc8785 sampleBatch = .ok [part] := by
  have single : (split rfc8785 sampleBatch).toOption.map List.length = some 1 := by decide +kernel
  cases made : split rfc8785 sampleBatch with
  | error failure =>
    rw [made] at single
    cases single
  | ok parts =>
    rw [made] at single
    obtain ⟨part, rfl⟩ := List.length_eq_one_iff.mp (Option.some.inj single)
    exact ⟨part, rfl⟩

theorem split_and_join_are_inverse_of_sampleBatch :
    ∃ part, split rfc8785 sampleBatch = .ok [part] ∧
      join rfc8785 sampleBatch.batch.id [part.ref] =
        .ok ⟨sampleBatch.batch, sortedRuns sampleBatch, sortedRecords sampleBatch⟩ := by
  obtain ⟨part, passed⟩ := exists_split_sampleBatch
  obtain ⟨-, -, given, -⟩ :=
    (split_and_join_are_inverse emitsRfc8785_rfc8785).1 sampleBatch [part] passed
  exact ⟨part, passed, (given _ (.refl _)).1⟩

end Dohflow.SyncCore.SourceParts
