/-
This file models how a source batch is split into parts and joined again.

Part 0 holds the batch's columns, its parser runs and the first records, later parts
hold records. Records are taken in the order of their ids, and a part is closed when
the next record would make it too long. A part is decoded strictly, and the parts of
a batch are joined in the order of their indices, whatever order they come in.
-/

import Dohflow.SyncCore.SourceRows

namespace Dohflow.SyncCore.SourceParts

open CanonicalOrder Fallible Node SourceRows

/-! ### Bounds and shapes -/

def maxPartBlob : Nat := 2 ^ 22

def maxSourceRecord : Nat := 2 ^ 20

def maxBatchHeader : Nat := 2 ^ 20

structure SourceBatch where
  batch : BatchRow
  runs : List RunRow
  records : List RecordRow

/-- One part of a batch, ready to become an artifact. -/
structure Part where
  index : Nat
  count : Nat
  logicalMetadata : List UInt8
  blob : List UInt8

/-- The bytes of an id, to be compared byte by byte. -/
def idKey (id : Uuid) : List Nat := byteKey id.toList

/-! ### Packing records -/

def laterFront : List UInt8 := utf8 "\x7b\"records\":["

def partEnd : List UInt8 := utf8 "]\x7d"

/-- The parts closed so far, the open one and how many records it holds. -/
structure Packing where
  blobs : List (List UInt8)
  current : List UInt8
  inPart : Nat

/-- Add a record, closing the open part first when it would be too long. -/
def Packing.add (packing : Packing) (json : List UInt8) : Packing :=
  let comma := if 0 < packing.inPart then 1 else 0
  let packing :=
    if 0 < packing.inPart ∧
        maxPartBlob < packing.current.length + comma + json.length + partEnd.length then
      { blobs := packing.blobs ++ [packing.current ++ partEnd], current := laterFront, inPart := 0 }
    else packing
  { packing with
    current := (if 0 < packing.inPart then packing.current ++ utf8 "," else packing.current) ++ json
    inPart := packing.inPart + 1 }

/-- The blobs of records' texts after the front of part 0. -/
def pack (firstFront : List UInt8) (jsons : List (List UInt8)) : List (List UInt8) :=
  let packing := jsons.foldl Packing.add ⟨[], firstFront, 0⟩
  packing.blobs ++ [packing.current ++ partEnd]

section

variable (toVec : Canonicalizer)

/-! ### Splitting -/

def canonical (node : Node) : Except SourceBatchError (List UInt8) :=
  (nodeToCanonicalVec toVec node).mapError fun _ => .malformed

/-- The canonical text of one record, within its bound. -/
def recordJson (record : RecordRow) : Except SourceBatchError (List UInt8) := do
  let bytes ← canonical toVec (recordNode record)
  ensure (bytes.length ≤ maxSourceRecord) .sourceRecordTooLarge
  return bytes

/-- The size of a batch's columns and all its runs, within their bound. -/
def headerLen (batch : BatchRow) (runs : List RunRow) : Except SourceBatchError Nat := do
  let columns ← canonical toVec (batchNode batch)
  let texts ← runs.mapM fun run => canonical toVec (runNode run)
  let total := columns.length + (texts.map fun text => text.length + 1).sum
  ensure (total ≤ maxBatchHeader) .sourceBatchHeaderTooLarge
  return total

def metadata (batchId : Uuid) (index count : Nat) : List UInt8 :=
  utf8 "\x7b\"batch_id\":\"" ++ utf8 (hyphenated batchId) ++ utf8 "\",\"part_count\":\"" ++
    utf8 (toString count) ++ utf8 "\",\"part_index\":\"" ++ utf8 (toString index) ++ utf8 "\"\x7d"

/-- What stands before the records in part 0. -/
def firstFront (batchJson : List UInt8) (runJsons : List (List UInt8)) : List UInt8 :=
  utf8 "\x7b\"batch\":" ++ batchJson ++ utf8 ",\"parser_runs\":[" ++ commaJoined runJsons ++
    utf8 "],\"records\":["

def sortedRuns (batch : SourceBatch) : List RunRow := sortBy (fun run => idKey run.id) batch.runs

def sortedRecords (batch : SourceBatch) : List RecordRow :=
  sortBy (fun record => idKey record.id) batch.records

/-- Split a batch into its ordered parts. -/
def split (batch : SourceBatch) : Except SourceBatchError (List Part) := do
  let id := batch.batch.id
  let runs := sortedRuns batch
  let records := sortedRecords batch
  ensure ((∀ run ∈ runs, run.sourceBatchId = id) ∧ ∀ record ∈ records, record.sourceBatchId = id)
    .rowOfAnotherBatch
  ensure ((runs.IsChain fun first second => first.id ≠ second.id) ∧
    records.IsChain fun first second => first.id ≠ second.id) .duplicateRow
  let _ ← headerLen toVec batch.batch batch.runs
  let batchJson ← canonical toVec (batchNode batch.batch)
  let runJsons ← runs.mapM fun run => canonical toVec (runNode run)
  let recordJsons ← records.mapM (recordJson toVec)
  let blobs := pack (firstFront batchJson runJsons) recordJsons
  ensure (blobs.length < 2 ^ 32) .incomplete
  return blobs.zipIdx.map fun (blob, index) =>
    { index, count := blobs.length, logicalMetadata := metadata id index blobs.length, blob }

/-! ### Joining -/

/-- What a part's blob holds. -/
structure DecodedPart where
  batch : Option BatchRow
  runs : List RunRow
  records : List RecordRow

def array (members : List (String × Node)) (name : String) : Except SourceBatchError (List Node) :=
  match get members name with
  | some (.array items) => .ok items
  | _ => .error .malformed

/-- The rows of a part, in the shape that its index asks for. The source takes members out of the map
as it reads them; none is read twice. -/
def rowsOf (index : Nat) (members : List (String × Node)) : Except SourceBatchError DecodedPart :=
  if index = 0 then do
    exactly members ["batch", "parser_runs", "records"]
    let batch ← batchOf (← orMalformed (get members "batch"))
    let runs ← (← array members "parser_runs").mapM runOf
    let records ← (← array members "records").mapM recordOf
    return { batch := some batch, runs, records }
  else do
    exactly members ["records"]
    let records ← (← array members "records").mapM recordOf
    return { batch := none, runs := [], records }

/-- Decode one part's blob. -/
def decodePart (batchId : Uuid) (index : Nat) (blob : List UInt8) :
    Except SourceBatchError DecodedPart := do
  let node ← (parseCanonicalNode toVec blob).mapError fun _ => .malformed
  let decoded ← rowsOf index (← members node)
  ensure ((∀ batch ∈ decoded.batch, batch.id = batchId) ∧
    (∀ run ∈ decoded.runs, run.sourceBatchId = batchId) ∧
    ∀ record ∈ decoded.records, record.sourceBatchId = batchId) .rowOfAnotherBatch
  ensure ((decoded.runs.IsChain fun first second => idKey first.id < idKey second.id) ∧
    decoded.records.IsChain fun first second => idKey first.id < idKey second.id) .duplicateRow
  return decoded

/-- A part as it is handed over: its index, the count it names and its blob. -/
abbrev PartRef := Nat × Nat × List UInt8

/-- What has been joined so far. -/
structure Joined where
  batch : Option BatchRow
  runs : List RunRow
  records : List RecordRow

/-- Join one more part. -/
def Joined.add (batchId : Uuid) (joined : Joined) (part : PartRef) :
    Except SourceBatchError Joined := do
  let decoded ← decodePart toVec batchId part.1 part.2.2
  let records := joined.records ++ decoded.records
  if decoded.batch.isSome then return { batch := decoded.batch, runs := decoded.runs, records }
  else return { joined with records }

/-- Join a batch's parts, given in any order. -/
def join (batchId : Uuid) (parts : List PartRef) : Except SourceBatchError SourceBatch := do
  let count ← orFail .incomplete (parts.head?.map fun part => part.2.1)
  ensure ((∀ part ∈ parts, part.2.1 = count) ∧ count = parts.length ∧ count ≠ 0) .incomplete
  let ordered := sortBy Prod.fst parts
  ensure (∀ entry ∈ ordered.zipIdx, entry.1.1 = entry.2) .incomplete
  let joined ← ordered.foldlM (Joined.add toVec batchId) ⟨none, [], []⟩
  let records : List RecordRow := sortBy (fun record => idKey record.id) joined.records
  ensure (records.IsChain fun first second => first.id ≠ second.id) .duplicateRow
  let row ← orFail .incomplete joined.batch
  return { batch := row, runs := joined.runs, records }

end

/-! ### What packing gives -/

section

variable {Item : Type} (first : List UInt8) (word : Item → List UInt8)

/-- What stands before the records in a part. -/
def frontAt (index : Nat) : List UInt8 := if index = 0 then first else laterFront

/-- The blob of a part that holds these records. -/
def blobOf (index : Nat) (chunk : List Item) : List UInt8 :=
  frontAt first index ++ commaJoined (chunk.map word) ++ partEnd

/-- The closed parts hold the records of `closed`, the open one those of `last`, and none is too
long. -/
structure Packed (closed : List (List Item)) (last : List Item) (packing : Packing) : Prop where
  blobs : packing.blobs = closed.mapIdx (blobOf first word)
  current : packing.current = frontAt first closed.length ++ commaJoined (last.map word)
  inPart : packing.inPart = last.length
  short : ∀ blob ∈ packing.blobs, blob.length ≤ maxPartBlob
  room : packing.current.length + partEnd.length ≤ maxPartBlob

variable {first word}
variable {closed : List (List Item)} {packing : Packing} {last : List Item}

theorem commaJoined_append (words : List (List UInt8)) (last : List UInt8) :
    commaJoined (words ++ [last]) =
      (if 0 < words.length then commaJoined words ++ utf8 "," else []) ++ last := by
  cases words with
  | nil => simp [commaJoined]
  | cons first rest =>
    have some : 0 < (first :: rest).length := Nat.succ_pos _
    rw [if_pos some]
    simp [commaJoined]

theorem length_laterFront : laterFront.length = 12 := by decide +kernel

theorem length_partEnd : partEnd.length = 2 := by decide +kernel

theorem length_comma : (utf8 ",").length = 1 := by decide +kernel

theorem length_frontAt_le (front : first.length ≤ maxBatchHeader + 38) (index : Nat) :
    (frontAt first index).length ≤ maxBatchHeader + 38 := by
  unfold frontAt
  split
  · exact front
  · rw [length_laterFront]
    omega

theorem Packed.add_inside (packed : Packed first word closed last packing) {item : Item}
    (fits : packing.current.length + (if 0 < packing.inPart then 1 else 0) + (word item).length +
      partEnd.length ≤ maxPartBlob) :
    Packed first word closed (last ++ [item])
      { packing with
        current := (if 0 < packing.inPart then packing.current ++ utf8 "," else packing.current) ++
          word item
        inPart := packing.inPart + 1 } where
  blobs := packed.blobs
  current := by
    dsimp only
    rw [packed.current, packed.inPart, List.map_append, List.map_singleton, commaJoined_append,
      List.length_map]
    cases last with
    | nil => simp [commaJoined]
    | cons held rest => simp
  inPart := by
    rw [List.length_append, ← packed.inPart]
    rfl
  short := packed.short
  room := by
    dsimp only
    rw [List.length_append]
    split
    · next inside =>
      rw [if_pos inside] at fits
      rw [List.length_append, length_comma]
      omega
    · next outside =>
      rw [if_neg outside] at fits
      omega

/-- Adding a record keeps the parts as they are described. -/
theorem Packed.add (packed : Packed first word closed last packing)
    (front : first.length ≤ maxBatchHeader + 38) {item : Item}
    (small : (word item).length ≤ maxSourceRecord) :
    ∃ closed' last', closed'.flatten ++ last' = closed.flatten ++ last ++ [item] ∧
      Packed first word closed' last' (packing.add (word item)) := by
  have bounds : maxPartBlob = 2 ^ 22 ∧ maxSourceRecord = 2 ^ 20 ∧ maxBatchHeader = 2 ^ 20 :=
    ⟨rfl, rfl, rfl⟩
  unfold Packing.add
  dsimp only
  by_cases overflows : 0 < packing.inPart ∧
      maxPartBlob < packing.current.length + (if 0 < packing.inPart then 1 else 0) +
        (word item).length + partEnd.length
  · rw [if_pos overflows]
    -- The open part is closed, and the record is the first of the next one.
    have fresh : Packed first word (closed ++ [last]) []
        ⟨packing.blobs ++ [packing.current ++ partEnd], laterFront, 0⟩ := by
      refine ⟨?_, ?_, rfl, ?_, ?_⟩
      · rw [List.mapIdx_concat, ← packed.blobs, packed.current]
        rfl
      · rw [frontAt, if_neg (by simp)]
        simp [commaJoined]
      · intro blob member
        rcases List.mem_append.mp member with before | same
        · exact packed.short blob before
        · rw [List.mem_singleton.mp same, List.length_append]
          exact packed.room
      · rw [length_laterFront, length_partEnd]
        omega
    refine ⟨closed ++ [last], [item], by simp, ?_⟩
    refine fresh.add_inside ?_
    dsimp only
    rw [length_laterFront, length_partEnd, if_neg (by omega)]
    omega
  · rw [if_neg overflows]
    refine ⟨closed, last ++ [item], by simp, packed.add_inside ?_⟩
    by_cases inside : 0 < packing.inPart
    · have room := fun long => overflows ⟨inside, long⟩
      omega
    · -- The first record of a part fits whatever stands before it.
      have empty : last = [] := by
        have none := packed.inPart
        cases last with
        | nil => rfl
        | cons held rest =>
          rw [List.length_cons] at none
          omega
      have start := length_frontAt_le front closed.length
      rw [if_neg inside, packed.current, empty, List.map_nil, commaJoined, List.append_nil,
        length_partEnd]
      omega

theorem pack_spec (front : first.length ≤ maxBatchHeader + 38) {items : List Item}
    (small : ∀ item ∈ items, (word item).length ≤ maxSourceRecord) :
    ∃ chunks : List (List Item), chunks.flatten = items ∧ chunks ≠ [] ∧
      pack first (items.map word) = chunks.mapIdx (blobOf first word) ∧
      ∀ blob ∈ pack first (items.map word), blob.length ≤ maxPartBlob := by
  have run : ∀ (items done : List Item) (closed : List (List Item)) (last : List Item)
      (packing : Packing), (∀ item ∈ items, (word item).length ≤ maxSourceRecord) →
      closed.flatten ++ last = done → Packed first word closed last packing →
      ∃ closed' last', closed'.flatten ++ last' = done ++ items ∧
        Packed first word closed' last' ((items.map word).foldl Packing.add packing) := by
    intro items
    induction items with
    | nil =>
      intro done closed last packing _ holds packed
      exact ⟨closed, last, by rw [holds, List.append_nil], packed⟩
    | cons item rest inductionHypothesis =>
      intro done closed last packing small holds packed
      obtain ⟨closed', last', grown, packed'⟩ := packed.add front (small item List.mem_cons_self)
      obtain ⟨closed'', last'', whole, packed''⟩ := inductionHypothesis (done ++ [item]) closed' last'
        _ (fun other member => small other (List.mem_cons_of_mem _ member)) (by rw [grown, holds])
        packed'
      exact ⟨closed'', last'', by rw [whole, List.append_assoc]; rfl, packed''⟩
  have start : Packed first word [] ([] : List Item) ⟨[], first, 0⟩ := by
    refine ⟨rfl, ?_, rfl, fun _ member => absurd member List.not_mem_nil, ?_⟩
    · simp [frontAt, commaJoined]
    · have bounds : maxPartBlob = 2 ^ 22 ∧ maxBatchHeader = 2 ^ 20 := ⟨rfl, rfl⟩
      rw [length_partEnd]
      dsimp only
      omega
  obtain ⟨closed, last, whole, packed⟩ := run items [] [] [] _ small rfl start
  have blobs : pack first (items.map word) = (closed ++ [last]).mapIdx (blobOf first word) := by
    rw [pack, List.mapIdx_concat, ← packed.blobs, packed.current]
    rfl
  refine ⟨closed ++ [last], by simpa using whole, by simp, blobs, ?_⟩
  intro blob member
  rw [pack] at member
  rcases List.mem_append.mp member with before | same
  · exact packed.short blob before
  · rw [List.mem_singleton.mp same, List.length_append]
    exact packed.room

end

end Dohflow.SyncCore.SourceParts
