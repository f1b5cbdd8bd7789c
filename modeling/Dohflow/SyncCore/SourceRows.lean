/-
This file models the rows of a source batch and their canonical form.

A row travels as an object of its carried columns: a uuid as lowercase hyphenated
text, an integer as a decimal text, text as text and NULL as null. Reading a row back
asks for exactly its columns and one spelling of each value, and gives the row that
was written.
-/

import Dohflow.Foundation.Spelling
import Dohflow.SyncCore.NodeRecords

namespace Dohflow.SyncCore.SourceRows

open Fallible Node Spelling

/-- Why a batch could not be split into parts, or parts could not be joined into a batch. -/
inductive SourceBatchError
  | sourceRecordTooLarge
  | sourceBatchHeaderTooLarge
  | rowOfAnotherBatch
  | duplicateRow
  | malformed
  | incomplete

/-! ### Rows -/

/-- The carried columns of a batch. -/
structure BatchRow where
  id : Uuid
  sourceType : String
  sourceName : Option String
  fileFingerprint : Option String
  parserVersion : Option String
  summaryJson : Option String
  importedAt : Option String
  createdAt : String
  connectorConnectionId : Option Uuid

structure RecordRow where
  id : Uuid
  sourceBatchId : Uuid
  externalId : Option String
  sourceHash : String
  normalizedJson : String
  parseConfidenceBps : Option Int64
  createdAt : String

structure RunRow where
  id : Uuid
  sourceBatchId : Uuid
  parserName : String
  parserVersion : String
  bytesIn : Int64
  recordsOut : Int64
  status : String
  limitHit : Option String
  startedAt : String
  finishedAt : Option String

def batchColumns : List String :=
  ["id", "source_type", "source_name", "file_fingerprint", "parser_version", "summary_json",
    "imported_at", "created_at", "connector_connection_id"]

def recordColumns : List String :=
  ["id", "source_batch_id", "external_id", "source_hash", "normalized_json",
    "parse_confidence_bps", "created_at"]

def runColumns : List String :=
  ["id", "source_batch_id", "parser_name", "parser_version", "bytes_in", "records_out", "status",
    "limit_hit", "started_at", "finished_at"]

/-! ### Values -/

/-- The bytes of a uuid from one on, with hyphens before four of them. -/
def hyphenatedFrom : Nat → List UInt8 → List Char
  | _, [] => []
  | index, byte :: rest =>
    (if index = 4 ∨ index = 6 ∨ index = 8 ∨ index = 10 then ['-'] else []) ++
      (hexDigits byte ++ hyphenatedFrom (index + 1) rest)

def hyphenated (id : Uuid) : String := String.ofList (hyphenatedFrom 0 id.toList)

/-- Read on from a position of a uuid's text. -/
def uuidFrom : Nat → List Char → Option (List UInt8)
  | _, [] => some []
  | position, high :: rest =>
    if position = 8 ∨ position = 13 ∨ position = 18 ∨ position = 23 then
      if high = '-' then uuidFrom (position + 1) rest else none
    else match rest with
      | [] => none
      | low :: rest => do
        let highValue ← hexValue high
        let lowValue ← hexValue low
        let later ← uuidFrom (position + 2) rest
        return UInt8.ofNat (highValue * 16 + lowValue) :: later

/-- The uuid a text spells. No character above ASCII is a digit or a hyphen, so characters stand for
the bytes the source goes through. -/
def uuidOf (text : String) : Option Uuid := do
  if text.toList.length ≠ 36 then none
  else
    let bytes ← uuidFrom 0 text.toList
    if whole : bytes.length = 16 then some ⟨bytes, whole⟩ else none

def text (value : String) : Node := .string value

def optText (value : Option String) : Node := value.elim .null .string

def int (value : Int64) : Node := .string (String.ofList (decimal value.toInt))

def uuid (value : Uuid) : Node := .string (hyphenated value)

/-- Whether a minus sign stands in front, and what stands after it. -/
def splitSign : List Char → Bool × List Char
  | '-' :: rest => (true, rest)
  | chars => (false, chars)

/-- The integer a text spells, in the one spelling. -/
def parseInt (text : String) : Option Int64 :=
  let (negative, digits) := splitSign text.toList
  if digits = [] ∨ (1 < digits.length ∧ digits.head? = some '0') ∨ digits.all Char.isDigit = false ∨
      (negative = true ∧ digits = ['0']) then none
  else
    let magnitude : Int := Nat.ofDigitChars 10 digits 0
    let value := if negative then -magnitude else magnitude
    if -2 ^ 63 ≤ value ∧ value < 2 ^ 63 then some (Int64.ofInt value) else none

/-! ### Rows as trees -/

def batchMembers (row : BatchRow) : List (String × Node) :=
  [("id", uuid row.id), ("source_type", text row.sourceType),
    ("source_name", optText row.sourceName), ("file_fingerprint", optText row.fileFingerprint),
    ("parser_version", optText row.parserVersion), ("summary_json", optText row.summaryJson),
    ("imported_at", optText row.importedAt), ("created_at", text row.createdAt),
    ("connector_connection_id", row.connectorConnectionId.elim .null uuid)]

def batchNode (row : BatchRow) : Node := ofMembers (batchMembers row)

def recordMembers (row : RecordRow) : List (String × Node) :=
  [("id", uuid row.id), ("source_batch_id", uuid row.sourceBatchId),
    ("external_id", optText row.externalId), ("source_hash", text row.sourceHash),
    ("normalized_json", text row.normalizedJson),
    ("parse_confidence_bps", row.parseConfidenceBps.elim .null int),
    ("created_at", text row.createdAt)]

def recordNode (row : RecordRow) : Node := ofMembers (recordMembers row)

def runMembers (row : RunRow) : List (String × Node) :=
  [("id", uuid row.id), ("source_batch_id", uuid row.sourceBatchId),
    ("parser_name", text row.parserName), ("parser_version", text row.parserVersion),
    ("bytes_in", int row.bytesIn), ("records_out", int row.recordsOut), ("status", text row.status),
    ("limit_hit", optText row.limitHit), ("started_at", text row.startedAt),
    ("finished_at", optText row.finishedAt)]

def runNode (row : RunRow) : Node := ofMembers (runMembers row)

/-! ### Reading rows -/

def members : Node → Except SourceBatchError (List (String × Node))
  | .object members => .ok members
  | _ => .error .malformed

/-- The members have these names and no others. -/
def exactly (members : List (String × Node)) (names : List String) : Except SourceBatchError Unit :=
  ensure (sortedNames (members.map Prod.fst) = sortedNames names) .malformed

def getText (members : List (String × Node)) (name : String) : Except SourceBatchError String :=
  match get members name with
  | some (.string value) => .ok value
  | _ => .error .malformed

def getOptText (members : List (String × Node)) (name : String) :
    Except SourceBatchError (Option String) :=
  match get members name with
  | some .null => .ok none
  | some (.string value) => .ok (some value)
  | _ => .error .malformed

/-- What an optional value was read as, or a refusal. -/
def orMalformed {Value : Type} : Option Value → Except SourceBatchError Value
  | some value => .ok value
  | none => .error .malformed

def getInt (members : List (String × Node)) (name : String) : Except SourceBatchError Int64 := do
  orMalformed (parseInt (← getText members name))

def getOptInt (members : List (String × Node)) (name : String) :
    Except SourceBatchError (Option Int64) :=
  match get members name with
  | some .null => .ok none
  | _ => some <$> getInt members name

def getUuid (members : List (String × Node)) (name : String) : Except SourceBatchError Uuid := do
  orMalformed (uuidOf (← getText members name))

def getOptUuid (members : List (String × Node)) (name : String) :
    Except SourceBatchError (Option Uuid) :=
  match get members name with
  | some .null => .ok none
  | _ => some <$> getUuid members name

def batchOf (node : Node) : Except SourceBatchError BatchRow := do
  let held ← members node
  exactly held batchColumns
  return {
    id := ← getUuid held "id"
    sourceType := ← getText held "source_type"
    sourceName := ← getOptText held "source_name"
    fileFingerprint := ← getOptText held "file_fingerprint"
    parserVersion := ← getOptText held "parser_version"
    summaryJson := ← getOptText held "summary_json"
    importedAt := ← getOptText held "imported_at"
    createdAt := ← getText held "created_at"
    connectorConnectionId := ← getOptUuid held "connector_connection_id" }

def recordOf (node : Node) : Except SourceBatchError RecordRow := do
  let held ← members node
  exactly held recordColumns
  return {
    id := ← getUuid held "id"
    sourceBatchId := ← getUuid held "source_batch_id"
    externalId := ← getOptText held "external_id"
    sourceHash := ← getText held "source_hash"
    normalizedJson := ← getText held "normalized_json"
    parseConfidenceBps := ← getOptInt held "parse_confidence_bps"
    createdAt := ← getText held "created_at" }

def runOf (node : Node) : Except SourceBatchError RunRow := do
  let held ← members node
  exactly held runColumns
  return {
    id := ← getUuid held "id"
    sourceBatchId := ← getUuid held "source_batch_id"
    parserName := ← getText held "parser_name"
    parserVersion := ← getText held "parser_version"
    bytesIn := ← getInt held "bytes_in"
    recordsOut := ← getInt held "records_out"
    status := ← getText held "status"
    limitHit := ← getOptText held "limit_hit"
    startedAt := ← getText held "started_at"
    finishedAt := ← getOptText held "finished_at" }

/-! ### Values read back -/

theorem uuidFrom_hexDigits {position : Nat} (digits : ¬ (position = 8 ∨ position = 13 ∨ position = 18 ∨
    position = 23)) (byte : UInt8) (rest : List Char) :
    uuidFrom position (hexDigits byte ++ rest) =
      (uuidFrom (position + 2) rest).map fun later => byte :: later := by
  show uuidFrom position (Nat.digitChar (byte.toNat / 16) ::
    Nat.digitChar (byte.toNat % 16) :: rest) = _
  rw [uuidFrom, if_neg digits]
  simp only [hexValue_high, hexValue_low, Option.bind_eq_bind, Option.bind_some, ofNat_digits]
  cases uuidFrom (position + 2) rest <;> rfl

theorem uuidFrom_hyphen {position : Nat} (hyphen : position = 8 ∨ position = 13 ∨ position = 18 ∨
    position = 23) (rest : List Char) :
    uuidFrom position ('-' :: rest) = uuidFrom (position + 1) rest := by
  conv_lhs => unfold uuidFrom
  exact (if_pos hyphen).trans (if_pos rfl)

/-- How many characters stand before a byte's digits, a hyphen before them not counted. -/
def digitsAt (index : Nat) : Nat :=
  2 * index + ([4, 6, 8, 10].filter (· < index)).length

theorem digitsAt_step {index : Nat} (short : index < 16) :
    if index = 4 ∨ index = 6 ∨ index = 8 ∨ index = 10 then
      (digitsAt index = 8 ∨ digitsAt index = 13 ∨ digitsAt index = 18 ∨ digitsAt index = 23) ∧
        ¬ (digitsAt index + 1 = 8 ∨ digitsAt index + 1 = 13 ∨ digitsAt index + 1 = 18 ∨
          digitsAt index + 1 = 23) ∧ digitsAt (index + 1) = digitsAt index + 1 + 2
    else
      ¬ (digitsAt index = 8 ∨ digitsAt index = 13 ∨ digitsAt index = 18 ∨ digitsAt index = 23) ∧
        digitsAt (index + 1) = digitsAt index + 2 := by
  have all : ∀ index < 16,
      if index = 4 ∨ index = 6 ∨ index = 8 ∨ index = 10 then
        (digitsAt index = 8 ∨ digitsAt index = 13 ∨ digitsAt index = 18 ∨ digitsAt index = 23) ∧
          ¬ (digitsAt index + 1 = 8 ∨ digitsAt index + 1 = 13 ∨ digitsAt index + 1 = 18 ∨
            digitsAt index + 1 = 23) ∧ digitsAt (index + 1) = digitsAt index + 1 + 2
      else
        ¬ (digitsAt index = 8 ∨ digitsAt index = 13 ∨ digitsAt index = 18 ∨ digitsAt index = 23) ∧
          digitsAt (index + 1) = digitsAt index + 2 := by decide
  exact all index short

theorem uuidFrom_hyphenatedFrom {index : Nat} {bytes : List UInt8} (fits : index + bytes.length = 16) :
    uuidFrom (digitsAt index) (hyphenatedFrom index bytes) = some bytes ∧
      digitsAt index + (hyphenatedFrom index bytes).length = 36 := by
  induction bytes generalizing index with
  | nil =>
    obtain rfl : index = 16 := fits
    exact ⟨by rw [hyphenatedFrom, uuidFrom], rfl⟩
  | cons byte rest inductionHypothesis =>
    rw [List.length_cons] at fits
    obtain ⟨later, ends⟩ := @inductionHypothesis (index + 1) (by omega)
    have step := @digitsAt_step index (by omega)
    rw [hyphenatedFrom]
    by_cases grouped : index = 4 ∨ index = 6 ∨ index = 8 ∨ index = 10
    · rw [if_pos grouped] at step ⊢
      obtain ⟨hyphen, digits, next⟩ := step
      constructor
      · rw [List.singleton_append, uuidFrom_hyphen hyphen, uuidFrom_hexDigits digits, ← next, later]
        rfl
      · simp only [List.length_append, hexDigits, List.length_cons, List.length_nil]
        omega
    · rw [if_neg grouped] at step ⊢
      obtain ⟨digits, next⟩ := step
      constructor
      · rw [List.nil_append, uuidFrom_hexDigits digits, ← next, later]
        rfl
      · simp only [List.length_append, hexDigits, List.length_cons, List.length_nil]
        omega

theorem uuidOf_hyphenated (id : Uuid) : uuidOf (hyphenated id) = some id := by
  obtain ⟨bytes, whole⟩ := id
  obtain ⟨read, long⟩ := @uuidFrom_hyphenatedFrom 0 bytes (by omega)
  have start : digitsAt 0 = 0 := rfl
  rw [start, Nat.zero_add] at long
  rw [start] at read
  unfold uuidOf hyphenated
  rw [String.toList_ofList]
  refine (if_neg fun differ => differ long).trans ?_
  show (uuidFrom 0 (hyphenatedFrom 0 bytes)).bind _ = _
  rw [read, Option.bind_some, dif_pos whole]

theorem splitSign_toDigits (value : Nat) :
    splitSign (Nat.toDigits 10 value) = (false, Nat.toDigits 10 value) := by
  have digits := List.all_eq_true.mp (all_isDigit_toDigits value)
  cases spelled : Nat.toDigits 10 value with
  | nil => rfl
  | cons first rest =>
    rw [spelled] at digits
    have digit := digits first List.mem_cons_self
    unfold splitSign
    split
    · next minus =>
      obtain ⟨rfl, -⟩ := List.cons.inj minus
      exact absurd digit (by decide)
    · rfl

theorem splitSign_decimal (value : Int) :
    splitSign (decimal value) = (decide (value < 0), Nat.toDigits 10 value.natAbs) := by
  unfold decimal
  split
  · next negative => rw [decide_eq_true negative, splitSign]
  · next negative => rw [decide_eq_false negative, splitSign_toDigits]

theorem parseInt_decimal (value : Int64) :
    parseInt (String.ofList (decimal value.toInt)) = some value := by
  have low : -2 ^ 63 ≤ value.toInt := value.le_toInt
  have high : value.toInt < 2 ^ 63 := value.toInt_lt
  have wellSpelled : ¬ (Nat.toDigits 10 value.toInt.natAbs = [] ∨
      (1 < (Nat.toDigits 10 value.toInt.natAbs).length ∧
        (Nat.toDigits 10 value.toInt.natAbs).head? = some '0') ∨
      (Nat.toDigits 10 value.toInt.natAbs).all Char.isDigit = false ∨
      (decide (value.toInt < 0) = true ∧ Nat.toDigits 10 value.toInt.natAbs = ['0'])) := by
    rintro (empty | ⟨long, zero⟩ | other | ⟨negative, zero⟩)
    · exact Nat.toDigits_ne_nil empty
    · rcases toDigits_no_leading_zero value.toInt.natAbs with single | head
      · rw [single] at long
        exact absurd long (by decide)
      · exact head zero
    · rw [all_isDigit_toDigits] at other
      cases other
    · have positive : 0 < value.toInt.natAbs := by
        have below := of_decide_eq_true negative
        omega
      exact head_toDigits_ne_zero positive (by rw [zero]; rfl)
  have magnitude : (if decide (value.toInt < 0) = true then
      -(value.toInt.natAbs : Int) else value.toInt.natAbs) = value.toInt := by
    simp only [decide_eq_true_eq]
    split <;> omega
  unfold parseInt
  rw [String.toList_ofList, splitSign_decimal]
  dsimp only
  rw [if_neg wellSpelled, Nat.ofDigitChars_ten_toDigits, magnitude, if_pos ⟨low, high⟩,
    Int64.ofInt_toInt]

/-! ### Rows read back -/

section

variable {written : List (String × Node)} {name : String}

theorem exactly_of_perm {members : List (String × Node)} {names : List String}
    (perm : (members.map Prod.fst).Perm names) : exactly members names = .ok () :=
  ensure_of (sortedNames_eq_iff.mpr perm) _

theorem exactly_collect {names : List String} (same : written.map Prod.fst = names) :
    exactly (collect written) names = .ok () :=
  exactly_of_perm (same ▸ (collect_perm written).map Prod.fst)

theorem getText_collect (distinct : (written.map Prod.fst).Nodup) (value : String)
    (member : (name, text value) ∈ written) : getText (collect written) name = .ok value := by
  rw [getText, get_collect distinct member]
  rfl

theorem getOptText_collect (distinct : (written.map Prod.fst).Nodup) (value : Option String)
    (member : (name, optText value) ∈ written) : getOptText (collect written) name = .ok value := by
  rw [getOptText, get_collect distinct member]
  cases value <;> rfl

theorem getInt_collect (distinct : (written.map Prod.fst).Nodup) (value : Int64)
    (member : (name, int value) ∈ written) : getInt (collect written) name = .ok value := by
  rw [getInt, getText, get_collect distinct member, int]
  show orMalformed (parseInt _) = _
  rw [parseInt_decimal]
  rfl

theorem getOptInt_collect (distinct : (written.map Prod.fst).Nodup) (value : Option Int64)
    (member : (name, value.elim .null int) ∈ written) :
    getOptInt (collect written) name = .ok value := by
  cases value with
  | none =>
    rw [getOptInt, get_collect distinct member]
    rfl
  | some value =>
    have read := getInt_collect distinct value member
    rw [getOptInt, get_collect distinct member, read]
    rfl

theorem getUuid_collect (distinct : (written.map Prod.fst).Nodup) (value : Uuid)
    (member : (name, uuid value) ∈ written) : getUuid (collect written) name = .ok value := by
  rw [getUuid, getText, get_collect distinct member, uuid]
  show orMalformed (uuidOf _) = _
  rw [uuidOf_hyphenated]
  rfl

theorem getOptUuid_collect (distinct : (written.map Prod.fst).Nodup) (value : Option Uuid)
    (member : (name, value.elim .null uuid) ∈ written) :
    getOptUuid (collect written) name = .ok value := by
  cases value with
  | none =>
    rw [getOptUuid, get_collect distinct member]
    rfl
  | some value =>
    have read := getUuid_collect distinct value member
    rw [getOptUuid, get_collect distinct member, read]
    rfl

end

theorem distinct_batchMembers (row : BatchRow) : ((batchMembers row).map Prod.fst).Nodup := by
  show batchColumns.Nodup
  decide

theorem distinct_recordMembers (row : RecordRow) : ((recordMembers row).map Prod.fst).Nodup := by
  show recordColumns.Nodup
  decide

theorem distinct_runMembers (row : RunRow) : ((runMembers row).map Prod.fst).Nodup := by
  show runColumns.Nodup
  decide

theorem isScalar_text (value : String) : (text value).IsScalar := trivial

theorem isScalar_uuid (value : Uuid) : (uuid value).IsScalar := trivial

theorem isScalar_int (value : Int64) : (int value).IsScalar := trivial

theorem isScalar_optText (value : Option String) : (optText value).IsScalar := by
  cases value <;> trivial

theorem isScalar_optInt (value : Option Int64) : (value.elim .null int : Node).IsScalar := by
  cases value <;> trivial

theorem isScalar_optUuid (value : Option Uuid) : (value.elim .null uuid : Node).IsScalar := by
  cases value <;> trivial

theorem isRecord_batchNode (row : BatchRow) : (batchNode row).IsRecord := by
  refine ⟨batchMembers row, distinct_batchMembers row, ?_, rfl⟩
  simp only [batchMembers, List.forall_mem_cons, isScalar_optText, isScalar_optUuid, isScalar_uuid,
      isScalar_text, List.not_mem_nil, false_implies, implies_true, and_self]

theorem isRecord_recordNode (row : RecordRow) : (recordNode row).IsRecord := by
  refine ⟨recordMembers row, distinct_recordMembers row, ?_, rfl⟩
  simp only [recordMembers, List.forall_mem_cons, isScalar_optText, isScalar_optInt, isScalar_uuid,
      isScalar_text, List.not_mem_nil, false_implies, implies_true, and_self]

theorem isRecord_runNode (row : RunRow) : (runNode row).IsRecord := by
  refine ⟨runMembers row, distinct_runMembers row, ?_, rfl⟩
  simp only [runMembers, List.forall_mem_cons, isScalar_optText, isScalar_uuid, isScalar_text, isScalar_int,
      List.not_mem_nil, false_implies, implies_true, and_self]

theorem batchOf_batchNode (row : BatchRow) : batchOf (batchNode row) = .ok row := by
  unfold batchOf batchNode
  rw [ofMembers, members, ok_bind]
  have distinct := distinct_batchMembers row
  refine check_bind_eq_ok.mpr ⟨exactly_collect rfl, ?_⟩
  rw [getUuid_collect distinct row.id (by simp [batchMembers]), ok_bind,
    getText_collect distinct row.sourceType (by simp [batchMembers]), ok_bind,
    getOptText_collect distinct row.sourceName (by simp [batchMembers]), ok_bind,
    getOptText_collect distinct row.fileFingerprint (by simp [batchMembers]), ok_bind,
    getOptText_collect distinct row.parserVersion (by simp [batchMembers]), ok_bind,
    getOptText_collect distinct row.summaryJson (by simp [batchMembers]), ok_bind,
    getOptText_collect distinct row.importedAt (by simp [batchMembers]), ok_bind,
    getText_collect distinct row.createdAt (by simp [batchMembers]), ok_bind,
    getOptUuid_collect distinct row.connectorConnectionId (by simp [batchMembers]), ok_bind]
  rfl

theorem recordOf_recordNode (row : RecordRow) : recordOf (recordNode row) = .ok row := by
  unfold recordOf recordNode
  rw [ofMembers, members, ok_bind]
  have distinct := distinct_recordMembers row
  refine check_bind_eq_ok.mpr ⟨exactly_collect rfl, ?_⟩
  rw [getUuid_collect distinct row.id (by simp [recordMembers]), ok_bind,
    getUuid_collect distinct row.sourceBatchId (by simp [recordMembers]), ok_bind,
    getOptText_collect distinct row.externalId (by simp [recordMembers]), ok_bind,
    getText_collect distinct row.sourceHash (by simp [recordMembers]), ok_bind,
    getText_collect distinct row.normalizedJson (by simp [recordMembers]), ok_bind,
    getOptInt_collect distinct row.parseConfidenceBps (by simp [recordMembers]), ok_bind,
    getText_collect distinct row.createdAt (by simp [recordMembers]), ok_bind]
  rfl

theorem runOf_runNode (row : RunRow) : runOf (runNode row) = .ok row := by
  unfold runOf runNode
  rw [ofMembers, members, ok_bind]
  have distinct := distinct_runMembers row
  refine check_bind_eq_ok.mpr ⟨exactly_collect rfl, ?_⟩
  rw [getUuid_collect distinct row.id (by simp [runMembers]), ok_bind,
    getUuid_collect distinct row.sourceBatchId (by simp [runMembers]), ok_bind,
    getText_collect distinct row.parserName (by simp [runMembers]), ok_bind,
    getText_collect distinct row.parserVersion (by simp [runMembers]), ok_bind,
    getInt_collect distinct row.bytesIn (by simp [runMembers]), ok_bind,
    getInt_collect distinct row.recordsOut (by simp [runMembers]), ok_bind,
    getText_collect distinct row.status (by simp [runMembers]), ok_bind,
    getOptText_collect distinct row.limitHit (by simp [runMembers]), ok_bind,
    getText_collect distinct row.startedAt (by simp [runMembers]), ok_bind,
    getOptText_collect distinct row.finishedAt (by simp [runMembers]), ok_bind]
  rfl

end Dohflow.SyncCore.SourceRows
