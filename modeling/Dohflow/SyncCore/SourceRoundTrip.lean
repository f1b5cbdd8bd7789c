/-
This file proves that splitting a source batch and joining its parts undo each other.

The two meet at the trees of the parts: a part's blob is the canonical text of an
object of the batch, its runs and a group of its records, so decoding it gives back
the group, and the groups in a row are the batch's records in the order of their ids.
The only parts that are accepted as canonical are those a split gives.
-/

import Dohflow.Foundation.PrefixFree
import Dohflow.SyncCore.SourceParts

namespace Dohflow.SyncCore.SourceParts

open CanonicalOrder Fallible Node PrefixFree SourceRows

variable {toVec : Canonicalizer}
variable {batch : SourceBatch} {chunk : List RecordRow}

/-! ### The trees of the parts -/

/-- The tree that a part's blob is the text of. -/
def partNode (batch : SourceBatch) (index : Nat) (chunk : List RecordRow) : Node :=
  let records := ("records", Node.array (chunk.map recordNode))
  if index = 0 then
    .object [("batch", batchNode batch.batch),
      ("parser_runs", .array ((sortedRuns batch).map runNode)), records]
  else .object [records]

theorem canonical_eq_ok (emits : EmitsRfc8785 toVec) {node : Node} (ordered : node.Ordered)
    {text : List UInt8} :
    canonical toVec node = .ok text ↔ node.validate = .ok () ∧ bytes node = text := by
  rw [canonical, mapError_eq_ok]
  exact nodeToCanonicalVec_eq_ok emits ordered

/-- A batch whose rows may all be written. -/
structure Writable (batch : SourceBatch) : Prop where
  columns : (batchNode batch.batch).validate = .ok ()
  runs : ∀ run ∈ sortedRuns batch, (runNode run).validate = .ok ()
  records : ∀ record ∈ sortedRecords batch, (recordNode record).validate = .ok ()

theorem utf8_part :
    utf8 (String.ofList ('\x7b' :: (quoted "batch" ++ [':']))) = utf8 "\x7b\"batch\":" ∧
    utf8 (String.ofList (',' :: (quoted "parser_runs" ++ [':']))) = utf8 ",\"parser_runs\":" ∧
    utf8 (String.ofList (',' :: (quoted "records" ++ [':']))) = utf8 ",\"records\":" ∧
    utf8 (String.ofList ('\x7b' :: (quoted "records" ++ [':']))) = utf8 "\x7b\"records\":" ∧
    utf8 (String.ofList (emitMembers [])) = utf8 "\x7d" := by
  refine ⟨?_, ?_, ?_, ?_, ?_⟩ <;> decide +kernel

theorem bytes_partNode (batch : SourceBatch) (index : Nat) (chunk : List RecordRow) :
    bytes (partNode batch index chunk) =
      blobOf (firstFront (bytes (batchNode batch.batch)) ((sortedRuns batch).map fun run =>
        bytes (runNode run))) (fun record => bytes (recordNode record)) index chunk := by
  obtain ⟨start, runs, records, onlyRecords, ends⟩ := utf8_part
  have opened : utf8 ",\"parser_runs\":[" = utf8 ",\"parser_runs\":" ++ utf8 "[" := by decide +kernel
  have followed : utf8 "],\"records\":[" = utf8 "]" ++ utf8 ",\"records\":" ++ utf8 "[" := by
    decide +kernel
  have later : laterFront = utf8 "\x7b\"records\":" ++ utf8 "[" := by decide +kernel
  have closed : partEnd = utf8 "]" ++ utf8 "\x7d" := by decide +kernel
  unfold partNode blobOf frontAt
  split
  · rw [bytes_object, utf8_emitMembers, utf8_emitMembers, bytes_array, bytes_array, start, runs,
      records, ends, firstFront, opened, followed, closed, List.map_map, List.map_map]
    simp only [List.append_assoc]
    rfl
  · rw [bytes_object, bytes_array, onlyRecords, ends, later, closed, List.map_map]
    simp only [List.append_assoc]
    rfl

theorem names_ascend :
    utf8 "batch" < utf8 "parser_runs" ∧ utf8 "batch" < utf8 "records" ∧
      utf8 "parser_runs" < utf8 "records" := by
  refine ⟨?_, ?_, ?_⟩ <;> decide +kernel

theorem ordered_partNode (batch : SourceBatch) (index : Nat) (chunk : List RecordRow) :
    (partNode batch index chunk).Ordered := by
  have records : (Node.array (chunk.map recordNode)).Ordered := by
    refine orderedItems_iff.mpr (List.forall_mem_map.mpr fun record _ => ?_)
    exact (isRecord_recordNode record).ordered
  have runs : (Node.array ((sortedRuns batch).map runNode)).Ordered := by
    refine orderedItems_iff.mpr (List.forall_mem_map.mpr fun run _ => ?_)
    exact (isRecord_runNode run).ordered
  obtain ⟨first, second, third⟩ := names_ascend
  unfold partNode
  split
  · refine ⟨?_, (isRecord_batchNode _).ordered, runs, records, trivial⟩
    simp [NamesAscend, first, second, third]
  · exact ⟨List.pairwise_singleton _ _, records, trivial⟩

theorem validate_partNode (writable : Writable batch) (index : Nat)
    (part : ∀ record ∈ chunk, record ∈ sortedRecords batch) :
    (partNode batch index chunk).validate = .ok () := by
  have records : (Node.array (chunk.map recordNode)).validateAt 1 = .ok () := by
    rw [validateAt, ensure_bind_eq_ok, validateItems_eq_ok]
    refine ⟨by decide, List.forall_mem_map.mpr fun record member => ?_⟩
    exact (isRecord_recordNode record).validateAt (writable.records record (part record member))
      (by decide)
  have runs : (Node.array ((sortedRuns batch).map runNode)).validateAt 1 = .ok () := by
    rw [validateAt, ensure_bind_eq_ok, validateItems_eq_ok]
    refine ⟨by decide, List.forall_mem_map.mpr fun run member => ?_⟩
    exact (isRecord_runNode run).validateAt (writable.runs run member) (by decide)
  have columns := (isRecord_batchNode batch.batch).validateAt writable.columns
    (by decide : 1 < maxDepth)
  unfold partNode
  split
  · rw [validate, validateAt, ensure_bind_eq_ok, validateMembers_eq_ok]
    refine ⟨by decide, ?_⟩
    simp only [List.forall_mem_cons, columns, runs, records, and_true, List.not_mem_nil,
      false_implies, implies_true]
    decide +kernel
  · rw [validate, validateAt, ensure_bind_eq_ok, validateMembers_eq_ok]
    refine ⟨by decide, ?_⟩
    simp only [List.forall_mem_cons, records, and_true, List.not_mem_nil, false_implies,
      implies_true]
    decide +kernel

theorem parse_part (emits : EmitsRfc8785 toVec) (writable : Writable batch) (index : Nat)
    (part : ∀ record ∈ chunk, record ∈ sortedRecords batch) :
    parseCanonicalNode toVec (bytes (partNode batch index chunk)) = .ok (partNode batch index chunk) := by
  have ordered := ordered_partNode batch index chunk
  refine parseCanonicalNode_eq_ok.mpr ⟨?_, ?_⟩
  · exact parseNodeLenient_emit ⟨ordered, validate_partNode writable index part⟩
  · exact (nodeToCanonicalVec_eq_ok emits ordered).mpr ⟨validate_partNode writable index part, rfl⟩

/-! ### When a batch is split -/

/-- The rows of a batch are its own and their ids differ. -/
structure Sound (batch : SourceBatch) : Prop where
  ownRuns : ∀ run ∈ sortedRuns batch, run.sourceBatchId = batch.batch.id
  ownRecords : ∀ record ∈ sortedRecords batch, record.sourceBatchId = batch.batch.id
  distinctRuns : (sortedRuns batch).IsChain fun first second => first.id ≠ second.id
  distinctRecords : (sortedRecords batch).IsChain fun first second => first.id ≠ second.id

def headerSize (batch : SourceBatch) : Nat :=
  (bytes (batchNode batch.batch)).length +
    (batch.runs.map fun run => (bytes (runNode run)).length + 1).sum

/-- What stands before the records of part 0. -/
def frontOf (batch : SourceBatch) : List UInt8 :=
  firstFront (bytes (batchNode batch.batch)) ((sortedRuns batch).map fun run => bytes (runNode run))

def blobsOf (batch : SourceBatch) : List (List UInt8) :=
  pack (frontOf batch) ((sortedRecords batch).map fun record => bytes (recordNode record))

/-- The parts of a batch whose rows may all be written. -/
def partsOf (batch : SourceBatch) : List Part :=
  (blobsOf batch).zipIdx.map fun (blob, index) =>
    { index, count := (blobsOf batch).length
      logicalMetadata := metadata batch.batch.id index (blobsOf batch).length, blob }

/-- The columns, the runs and each record are within their bounds, and the parts can be counted. -/
structure Bounded (batch : SourceBatch) : Prop where
  header : headerSize batch ≤ maxBatchHeader
  records : ∀ record ∈ sortedRecords batch, (bytes (recordNode record)).length ≤ maxSourceRecord
  parts : (blobsOf batch).length < 2 ^ 32

theorem recordJson_eq_ok (emits : EmitsRfc8785 toVec) {record : RecordRow} {text : List UInt8} :
    recordJson toVec record = .ok text ↔ ((recordNode record).validate = .ok () ∧
      (bytes (recordNode record)).length ≤ maxSourceRecord) ∧ bytes (recordNode record) = text := by
  rw [recordJson, bind_eq_ok]
  constructor
  · rintro ⟨found, wrote, done⟩
    obtain ⟨valid, rfl⟩ := (canonical_eq_ok emits (isRecord_recordNode record).ordered).mp wrote
    obtain ⟨small, same⟩ := ensure_bind_eq_ok.mp done
    exact ⟨⟨valid, small⟩, Except.ok.inj same⟩
  · rintro ⟨⟨valid, small⟩, rfl⟩
    exact ⟨_, (canonical_eq_ok emits (isRecord_recordNode record).ordered).mpr ⟨valid, rfl⟩,
      ensure_bind_eq_ok.mpr ⟨small, rfl⟩⟩

theorem headerLen_eq_ok (emits : EmitsRfc8785 toVec) {total : Nat} :
    headerLen toVec batch.batch batch.runs = .ok total ↔
      (batchNode batch.batch).validate = .ok () ∧
      (∀ run ∈ batch.runs, (runNode run).validate = .ok ()) ∧ headerSize batch ≤ maxBatchHeader ∧
      headerSize batch = total := by
  have runs {texts : List (List UInt8)} :=
    @mapM_eq_ok_iff _ _ _ (fun run => canonical toVec (runNode run)) _ _
      (fun run text => canonical_eq_ok emits (isRecord_runNode run).ordered) batch.runs texts
  have columns {text : List UInt8} :=
    @canonical_eq_ok toVec emits _ (isRecord_batchNode batch.batch).ordered text
  rw [headerLen]
  simp only [bind_eq_ok, columns, runs, ensure_eq_ok, headerSize]
  constructor
  · rintro ⟨_, ⟨valid, rfl⟩, _, ⟨validRuns, rfl⟩, _, small, same⟩
    rw [List.map_map] at small same
    exact ⟨valid, validRuns, small, Except.ok.inj same⟩
  · rintro ⟨valid, validRuns, small, rfl⟩
    refine ⟨_, ⟨valid, rfl⟩, _, ⟨validRuns, rfl⟩, (), ?_, ?_⟩
    · rw [List.map_map]
      exact small
    · rw [List.map_map]
      rfl

theorem split_eq_ok (emits : EmitsRfc8785 toVec) {parts : List Part} :
    split toVec batch = .ok parts ↔
      Sound batch ∧ Writable batch ∧ Bounded batch ∧ partsOf batch = parts := by
  have runs {texts : List (List UInt8)} :=
    @mapM_eq_ok_iff _ _ _ (fun run => canonical toVec (runNode run)) _ _
      (fun run text => canonical_eq_ok emits (isRecord_runNode run).ordered) (sortedRuns batch) texts
  have records {texts : List (List UInt8)} :=
    @mapM_eq_ok_iff _ _ _ (recordJson toVec) _ _ (fun record text => recordJson_eq_ok emits)
      (sortedRecords batch) texts
  have columns {text : List UInt8} :=
    @canonical_eq_ok toVec emits _ (isRecord_batchNode batch.batch).ordered text
  rw [split]
  simp only [bind_eq_ok, ensure_eq_ok, headerLen_eq_ok emits, columns, runs, records]
  constructor
  · rintro ⟨_, ⟨ownRuns, ownRecords⟩, _, ⟨distinctRuns, distinctRecords⟩, _, ⟨-, -, header, -⟩, _,
      ⟨valid, rfl⟩, _, ⟨validRuns, rfl⟩, _, ⟨validRecords, rfl⟩, _, few, same⟩
    exact ⟨⟨ownRuns, ownRecords, distinctRuns, distinctRecords⟩,
      ⟨valid, validRuns, fun record member => (validRecords record member).1⟩,
      ⟨header, fun record member => (validRecords record member).2, few⟩, Except.ok.inj same⟩
  · rintro ⟨sound, writable, bounded, rfl⟩
    refine ⟨(), ⟨sound.ownRuns, sound.ownRecords⟩, (), ⟨sound.distinctRuns, sound.distinctRecords⟩, _,
      ⟨writable.columns, fun run member => writable.runs run (mem_sortBy.mpr member), bounded.header,
        rfl⟩, _, ⟨writable.columns, rfl⟩, _, ⟨writable.runs, rfl⟩, _,
      ⟨fun record member => ⟨writable.records record member, bounded.records record member⟩, rfl⟩,
      (), bounded.parts, rfl⟩

/-! ### Decoding a part -/

theorem mapM_read {Row : Type} {node : Row → Node} {read : Node → Except SourceBatchError Row}
    (back : ∀ row, read (node row) = .ok row) (rows : List Row) :
    (rows.map node).mapM read = .ok rows :=
  mapM_eq_ok.mpr (List.forall₂_map_left_iff.mpr (List.forall₂_same.mpr fun row _ => back row))

/-- What a part of the batch is decoded to. -/
def decodedPart (batch : SourceBatch) (index : Nat) (chunk : List RecordRow) : DecodedPart :=
  { batch := if index = 0 then some batch.batch else none
    runs := if index = 0 then sortedRuns batch else []
    records := chunk }

theorem rowsOf_partNode (batch : SourceBatch) (index : Nat) (chunk : List RecordRow) :
    (members (partNode batch index chunk) >>= rowsOf index) = .ok (decodedPart batch index chunk) := by
  have rows := mapM_read recordOf_recordNode chunk
  unfold partNode decodedPart
  by_cases first : index = 0
  · simp only [if_pos first]
    rw [members, ok_bind]
    generalize same : [("batch", batchNode batch.batch),
      ("parser_runs", Node.array ((sortedRuns batch).map runNode)),
      ("records", .array (chunk.map recordNode))] = held
    have names : exactly held ["batch", "parser_runs", "records"] = .ok () := by
      rw [← same]
      exact exactly_of_perm (.refl _)
    have columns : get held "batch" = some (batchNode batch.batch) := by simp [← same, Node.get]
    have runs : array held "parser_runs" = .ok ((sortedRuns batch).map runNode) := by
      simp [← same, array, Node.get]
    have records : array held "records" = .ok (chunk.map recordNode) := by simp [← same, array, Node.get]
    rw [rowsOf, if_pos first, names, ok_bind, columns, orMalformed, ok_bind, batchOf_batchNode,
      ok_bind, runs, ok_bind, mapM_read runOf_runNode, ok_bind, records, ok_bind, rows]
    rfl
  · simp only [if_neg first]
    rw [members, ok_bind]
    generalize same : [("records", Node.array (chunk.map recordNode))] = held
    have names : exactly held ["records"] = .ok () := by
      rw [← same]
      exact exactly_of_perm (.refl _)
    have records : array held "records" = .ok (chunk.map recordNode) := by simp [← same, array, Node.get]
    rw [rowsOf, if_neg first, names, ok_bind, records, ok_bind, rows]
    rfl

theorem idKey_injective : Function.Injective idKey :=
  fun _ _ same => List.Vector.eq _ _ (byteKey_injective same)

theorem Sound.ascendRuns (sound : Sound batch) :
    (sortedRuns batch).Pairwise fun first second => idKey first.id < idKey second.id :=
  sortBy_strict (sound.distinctRuns.imp fun _ _ differ same => differ (idKey_injective same))

theorem Sound.ascendRecords (sound : Sound batch) :
    (sortedRecords batch).Pairwise fun first second => idKey first.id < idKey second.id :=
  sortBy_strict (sound.distinctRecords.imp fun _ _ differ same => differ (idKey_injective same))

theorem decodePart_part (emits : EmitsRfc8785 toVec) (writable : Writable batch)
    (sound : Sound batch) (index : Nat) (part : chunk.Sublist (sortedRecords batch)) :
    decodePart toVec batch.batch.id index (bytes (partNode batch index chunk)) =
      .ok (decodedPart batch index chunk) := by
  have read := rowsOf_partNode batch index chunk
  unfold decodePart
  rw [parse_part emits writable index fun _ member => part.subset member]
  show (members (partNode batch index chunk) >>= fun held => rowsOf index held >>= _) = _
  obtain ⟨held, opened, read⟩ := bind_eq_ok.mp read
  rw [opened, ok_bind, read, ok_bind, ensure_of, ok_bind, ensure_of, ok_bind]
  · rfl
  · refine ⟨?_, (sound.ascendRecords.sublist part).isChain⟩
    unfold decodedPart
    dsimp only
    split
    · exact sound.ascendRuns.isChain
    · exact .nil
  · refine ⟨?_, ?_, fun record member => sound.ownRecords record (part.subset member)⟩
    · unfold decodedPart
      dsimp only
      split
      · exact fun row same => Option.some.inj same ▸ rfl
      · exact fun row same => absurd same (by simp)
    · unfold decodedPart
      dsimp only
      split
      · exact sound.ownRuns
      · exact fun _ member => absurd member List.not_mem_nil

/-! ### The parts of a batch -/

theorem length_commaJoined_le (words : List (List UInt8)) :
    (commaJoined words).length ≤ (words.map fun word => word.length + 1).sum := by
  cases words with
  | nil => exact Nat.zero_le _
  | cons first rest =>
    have others : (rest.flatMap fun word => utf8 "," ++ word).length =
        (rest.map fun word => word.length + 1).sum := by
      rw [List.length_flatMap]
      simp only [List.length_append, length_comma, Nat.add_comm]
    rw [commaJoined, List.length_append, others, List.map_cons, List.sum_cons]
    omega

theorem length_frontOf_le (bounded : Bounded batch) :
    (frontOf batch).length ≤ maxBatchHeader + 38 := by
  have header := bounded.header
  have start : (utf8 "\x7b\"batch\":").length = 9 := by decide +kernel
  have runs : (utf8 ",\"parser_runs\":[").length = 16 := by decide +kernel
  have records : (utf8 "],\"records\":[").length = 13 := by decide +kernel
  have joined := length_commaJoined_le ((sortedRuns batch).map fun run => bytes (runNode run))
  rw [List.map_map] at joined
  have sums : ((sortedRuns batch).map fun run => (bytes (runNode run)).length + 1).sum =
      (batch.runs.map fun run => (bytes (runNode run)).length + 1).sum :=
    ((sortBy_perm batch.runs).map _).sum_eq
  have joined' := joined.trans_eq sums
  rw [headerSize] at header
  rw [frontOf, firstFront]
  simp only [List.length_append, start, runs, records]
  omega

/-- A part of the batch that holds a group of its records. -/
def partAt (batch : SourceBatch) (count index : Nat) (chunk : List RecordRow) : Part :=
  { index, count, logicalMetadata := metadata batch.batch.id index count
    blob := bytes (partNode batch index chunk) }

theorem partsOf_spec (bounded : Bounded batch) :
    ∃ chunks : List (List RecordRow), chunks.flatten = sortedRecords batch ∧ chunks ≠ [] ∧
      partsOf batch = chunks.mapIdx (partAt batch chunks.length) ∧
      ∀ part ∈ partsOf batch, part.blob.length ≤ maxPartBlob := by
  obtain ⟨chunks, whole, some, packed, short⟩ :=
    pack_spec (length_frontOf_le bounded) bounded.records
  have blobs : blobsOf batch = chunks.mapIdx fun index chunk => bytes (partNode batch index chunk) := by
    rw [blobsOf, packed]
    exact congrArg (chunks.mapIdx ·) (funext fun index => funext fun chunk =>
      (bytes_partNode batch index chunk).symm)
  have count : (blobsOf batch).length = chunks.length := by rw [blobs, List.length_mapIdx]
  refine ⟨chunks, whole, some, ?_, ?_⟩
  · rw [partsOf, count, blobs]
    refine (@List.mapIdx_eq_zipIdx_map _ _ _ fun index blob =>
      ({ index, count := chunks.length
         logicalMetadata := metadata batch.batch.id index chunks.length, blob } : Part)).symm.trans ?_
    rw [List.mapIdx_mapIdx]
    rfl
  · intro part member
    obtain ⟨⟨blob, index⟩, listed, rfl⟩ := List.mem_map.mp member
    exact short blob (List.fst_mem_of_mem_zipIdx listed)

/-! ### Joining the parts -/

/-- A part as it is handed to the receiver. -/
def Part.ref (part : Part) : PartRef := (part.index, part.count, part.blob)

/-- The parts that hold these groups, from an index on. -/
def refsFrom (batch : SourceBatch) (count start : Nat) (chunks : List (List RecordRow)) : List PartRef :=
  chunks.mapIdx fun index chunk => (partAt batch count (start + index) chunk).ref

theorem refsFrom_cons (batch : SourceBatch) (count start : Nat) (chunk : List RecordRow)
    (chunks : List (List RecordRow)) :
    refsFrom batch count start (chunk :: chunks) =
      (partAt batch count start chunk).ref :: refsFrom batch count (start + 1) chunks := by
  rw [refsFrom, List.mapIdx_cons]
  refine congrArg _ (congrArg (chunks.mapIdx ·) (funext fun index => funext fun chunk => ?_))
  rw [Nat.add_right_comm, Nat.add_assoc]

section

variable {batch : SourceBatch}
variable {chunks : List (List RecordRow)} {given : List PartRef}

theorem add_part (emits : EmitsRfc8785 toVec) (writable : Writable batch) (sound : Sound batch)
    (count index : Nat) (part : chunk.Sublist (sortedRecords batch)) (joined : Joined) :
    joined.add toVec batch.batch.id (partAt batch count index chunk).ref =
      .ok (if index = 0 then ⟨some batch.batch, sortedRuns batch, joined.records ++ chunk⟩
        else { joined with records := joined.records ++ chunk }) := by
  unfold Joined.add
  show (decodePart toVec batch.batch.id index (bytes (partNode batch index chunk)) >>= _) = _
  rw [decodePart_part emits writable sound index part, ok_bind, decodedPart]
  by_cases first : index = 0
  · simp only [if_pos first, Option.isSome_some]
    rfl
  · simp only [if_neg first, Option.isSome_none]
    rfl

theorem foldlM_later (emits : EmitsRfc8785 toVec) (writable : Writable batch) (sound : Sound batch)
    (count start : Nat) (parts : ∀ chunk ∈ chunks, chunk.Sublist (sortedRecords batch))
    (joined : Joined) :
    (refsFrom batch count (start + 1) chunks).foldlM (Joined.add toVec batch.batch.id) joined =
      .ok { joined with records := joined.records ++ chunks.flatten } := by
  induction chunks generalizing start joined with
  | nil =>
    rw [List.flatten_nil, List.append_nil]
    rfl
  | cons chunk rest inductionHypothesis =>
    obtain ⟨here, others⟩ := List.forall_mem_cons.mp parts
    rw [refsFrom_cons, List.foldlM_cons, add_part emits writable sound count _ here, ok_bind,
      if_neg (Nat.succ_ne_zero start), inductionHypothesis (start + 1) others, List.flatten_cons,
      List.append_assoc]

theorem foldlM_refs (emits : EmitsRfc8785 toVec) (writable : Writable batch) (sound : Sound batch)
    (count : Nat) (some : chunks ≠ [])
    (parts : ∀ chunk ∈ chunks, chunk.Sublist (sortedRecords batch)) :
    (refsFrom batch count 0 chunks).foldlM (Joined.add toVec batch.batch.id) ⟨none, [], []⟩ =
      .ok ⟨.some batch.batch, sortedRuns batch, chunks.flatten⟩ := by
  cases chunks with
  | nil => exact absurd rfl some
  | cons chunk rest =>
    obtain ⟨here, others⟩ := List.forall_mem_cons.mp parts
    rw [refsFrom_cons, List.foldlM_cons, add_part emits writable sound count _ here, ok_bind,
      if_pos rfl, foldlM_later emits writable sound count 0 others]
    rfl

theorem getElem_refsFrom {count start index : Nat}
    (inside : index < (refsFrom batch count start chunks).length) :
    ((refsFrom batch count start chunks)[index]).1 = start + index ∧
      ((refsFrom batch count start chunks)[index]).2.1 = count := by
  simp only [refsFrom, List.getElem_mapIdx]
  exact ⟨rfl, rfl⟩

theorem pairwise_refsFrom (count start : Nat) (chunks : List (List RecordRow)) :
    (refsFrom batch count start chunks).Pairwise fun first second => first.1 < second.1 := by
  refine List.pairwise_iff_getElem.mpr fun first second firstIn secondIn less => ?_
  rw [(getElem_refsFrom firstIn).1, (getElem_refsFrom secondIn).1]
  omega

theorem sortBy_refs {count : Nat} (perm : given.Perm (refsFrom batch count 0 chunks)) :
    sortBy Prod.fst given = refsFrom batch count 0 chunks := by
  have ascend := @pairwise_refsFrom batch count 0 chunks
  refine List.Perm.eq_of_pairwise (fun first second firstIn secondIn before after => ?_)
    (sortBy_ascends given) (ascend.imp fun less => le_of_lt less) ((sortBy_perm given).trans perm)
  have same := le_antisymm before after
  exact List.inj_on_of_nodup_map
    (List.pairwise_map.mpr (ascend.imp fun less => ne_of_lt less))
    (perm.mem_iff.mp (mem_sortBy.mp firstIn)) secondIn same

theorem join_refs (emits : EmitsRfc8785 toVec) (writable : Writable batch) (sound : Sound batch)
    (some : chunks ≠ []) (whole : chunks.flatten = sortedRecords batch)
    (perm : given.Perm (refsFrom batch chunks.length 0 chunks)) :
    join toVec batch.batch.id given =
      .ok ⟨batch.batch, sortedRuns batch, sortedRecords batch⟩ := by
  have parts : ∀ chunk ∈ chunks, chunk.Sublist (sortedRecords batch) :=
    fun chunk member => whole ▸ List.sublist_flatten_of_mem member
  have counts : ∀ part ∈ given, part.2.1 = chunks.length := by
    intro part member
    obtain ⟨index, inside, rfl⟩ := List.mem_iff_getElem.mp (perm.mem_iff.mp member)
    exact (getElem_refsFrom inside).2
  have long : given.length = chunks.length := by
    rw [perm.length_eq, refsFrom, List.length_mapIdx]
  have positive : chunks.length ≠ 0 := fun none => some (List.length_eq_zero_iff.mp none)
  obtain ⟨first, rest, rfl⟩ : ∃ first rest, given = first :: rest :=
    List.exists_cons_of_ne_nil fun none => positive (by rw [← long, none, List.length_nil])
  have indices : ∀ entry ∈ (refsFrom batch chunks.length 0 chunks).zipIdx, entry.1.1 = entry.2 := by
    rintro ⟨part, index⟩ member
    obtain ⟨inside, same⟩ := List.mem_zipIdx' member
    rw [same, (getElem_refsFrom inside).1, Nat.zero_add]
  have sorted : sortBy (fun record => idKey record.id) (sortedRecords batch) = sortedRecords batch :=
    List.Pairwise.insertionSort_eq (sortBy_ascends batch.records)
  unfold join
  rw [List.head?_cons, Option.map_some, orFail, ok_bind, ensure_of, ok_bind, sortBy_refs perm]
  · dsimp only
    rw [ensure_of indices, ok_bind, foldlM_refs emits writable sound _ some parts, ok_bind, whole,
      sorted, ensure_of sound.distinctRecords]
    rfl
  · rw [counts first List.mem_cons_self]
    exact ⟨counts, long.symm, positive⟩

end

end Dohflow.SyncCore.SourceParts
