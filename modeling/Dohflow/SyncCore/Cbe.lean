/-
This file models CBE1, the one binary encoding of every value that is hashed,
signed or authenticated.

A structure is its label followed by its fields in order. The writer functions
give the bytes of one field; the reader functions take one field off the front of
the input and refuse everything the format does not allow: a length above its
maximum, a length beyond the bytes present, a presence byte other than `0` or
`1`, a foreign label, a truncated field, and, in `Reader.finish`, trailing bytes.
Each reader takes back what its writer gave, and takes nothing that its writer
would not give.
-/

import Mathlib.Data.Vector.Basic
import Dohflow.Foundation.ByteReader
import Dohflow.Foundation.Fallible

namespace Dohflow.SyncCore

open ByteReader Fallible

/-- A fixed-width raw field. -/
abbrev Fixed (width : Nat) := List.Vector UInt8 width

/-- A SHA-256 digest, and any other 32 raw bytes. -/
abbrev Digest := Fixed 32

/-- The 16 raw bytes of a UUID. -/
abbrev Uuid := Fixed 16

instance lawfulDigest : LawfulBEq Digest := inferInstance

instance lawfulUuid : LawfulBEq Uuid := inferInstance

/-- Why a wire structure was refused. -/
inductive WireError
  | truncated
  | trailingBytes
  | tooLong
  | lengthExceedsInput
  | badPresence
  | invalidUtf8
  | badLabel
  | labelMismatch
  | unknownObjectType
  | objectFieldsMismatch
  | snapshotWithoutManifest
  | counterAboveCap
  | ciphertextTooShort
  | invalidIdempotencyKey
  | emptyOptionalBytes
  | badEngineVersion
  | listNotAscending
  | unknownActorType
  | objectTooLarge
  | badMagic
  | unsupportedProtocol
  | unsupportedContainer
  deriving DecidableEq, Repr

/-- The UTF-8 bytes of a text. -/
def utf8 (text : String) : List UInt8 := text.toUTF8.data.toList

/-- Whether a byte string is valid UTF-8. -/
def validUtf8 (bytes : List UInt8) : Bool := ByteArray.validateUTF8 ⟨bytes.toArray⟩

/-- A label is 1 to 64 ASCII bytes from `[a-z0-9/_.-]`. -/
def validLabel (label : List UInt8) : Bool :=
  1 ≤ label.length && label.length ≤ 64 && label.all fun byte =>
    (97 ≤ byte && byte ≤ 122) || (48 ≤ byte && byte ≤ 57) || (utf8 "/_.-").contains byte

/-! ### Writing -/

namespace Writer

/-- The bytes a structure starts with. A label that is not valid is a programming error of the
source, which asserts against it; every label here is a constant. -/
def withLabel (label : String) : List UInt8 := bigEndian 2 (utf8 label).length ++ utf8 label

def u8 (value : UInt8) : List UInt8 := [value]

def u16 (value : UInt16) : List UInt8 := bigEndian 2 value.toNat

def u32 (value : UInt32) : List UInt8 := bigEndian 4 value.toNat

def u64 (value : UInt64) : List UInt8 := bigEndian 8 value.toNat

/-- Two's complement. -/
def i64 (value : Int64) : List UInt8 := u64 value.toUInt64

def fixed {width : Nat} (value : Fixed width) : List UInt8 := value.toList

/-- `bytes(max)`: a `u32` length no greater than `max`, then the bytes. -/
def bytes (max : Nat) (value : List UInt8) : Except WireError (List UInt8) := do
  ensure (value.length ≤ max) .tooLong
  ensure (value.length < 2 ^ 32) .tooLong
  return bigEndian 4 value.length ++ value

/-- `blob(max)`: a `u64` length no greater than `max`, then the bytes. -/
def blob (max : Nat) (value : List UInt8) : Except WireError (List UInt8) := do
  ensure (value.length ≤ max) .tooLong
  ensure (value.length < 2 ^ 64) .tooLong
  return bigEndian 8 value.length ++ value

def text (max : Nat) (value : String) : Except WireError (List UInt8) := bytes max (utf8 value)

/-- `opt(T)`: presence byte `0`, or `1` and the value. -/
def opt {Value : Type} (write : Value → List UInt8) : Option Value → List UInt8
  | none => [0]
  | some value => 1 :: write value

/-- `list(T, max)`: a `u32` count no greater than `max`, then the items. -/
def list {Value : Type} (max : Nat) (values : List Value) (write : Value → List UInt8) :
    Except WireError (List UInt8) := do
  ensure (values.length ≤ max) .tooLong
  ensure (values.length < 2 ^ 32) .tooLong
  return bigEndian 4 values.length ++ values.flatMap write

end Writer

@[simp] theorem length_fixed {width : Nat} (value : Fixed width) :
    (Writer.fixed value).length = width := value.toList_length

/-! ### Reading -/

abbrev Reader (Value : Type) := ByteReader.Reader WireError Value

namespace Reader

def take (count : Nat) : Reader (List UInt8) := fun rest =>
  if rest.length < count then .error .truncated
  else .ok (rest.take count, rest.drop count)

def u8 : Reader UInt8
  | [] => .error .truncated
  | byte :: rest => .ok (byte, rest)

def fixed (width : Nat) : Reader (Fixed width) := fun rest =>
  if enough : width ≤ rest.length then
    .ok (⟨rest.take width, List.length_take_of_le enough⟩, rest.drop width)
  else .error .truncated

def u16 : Reader UInt16 := do
  let field ← fixed 2
  return UInt16.ofNat (ofBigEndian field.toList)

def u32 : Reader UInt32 := do
  let field ← fixed 4
  return UInt32.ofNat (ofBigEndian field.toList)

def u64 : Reader UInt64 := do
  let field ← fixed 8
  return UInt64.ofNat (ofBigEndian field.toList)

def i64 : Reader Int64 := do
  let field ← u64
  return field.toInt64

def label (expected : String) : Reader Unit := do
  let length ← u16
  require (1 ≤ length.toNat ∧ length.toNat ≤ 64) .badLabel
  let found ← take length.toNat
  require (validUtf8 found) .badLabel
  require (validLabel found) .badLabel
  require (found = utf8 expected) .labelMismatch

/-- How many bytes are left. -/
def remaining : Reader Nat := fun rest => .ok (rest.length, rest)

def bytes (max : Nat) : Reader (List UInt8) := do
  let length ← u32
  require (length.toNat ≤ max) .tooLong
  require (length.toNat ≤ (← remaining)) .lengthExceedsInput
  take length.toNat

def blob (max : Nat) : Reader (List UInt8) := do
  let length ← u64
  require (length.toNat ≤ max) .tooLong
  require (length.toNat ≤ (← remaining)) .lengthExceedsInput
  take length.toNat

def text (max : Nat) : Reader String := do
  let content ← bytes max
  if valid : ByteArray.IsValidUTF8 ⟨content.toArray⟩ then
    return String.ofByteArray ⟨content.toArray⟩ valid
  else throw .invalidUtf8

def opt {Value : Type} (read : Reader Value) : Reader (Option Value) := do
  let presence ← u8
  if presence = 0 then return none
  else if presence = 1 then return some (← read)
  else throw .badPresence

/-- Read exactly `count` items. -/
def items {Value : Type} (read : Reader Value) : Nat → Reader (List Value)
  | 0 => return []
  | count + 1 => do
    let item ← read
    let rest ← items read count
    return item :: rest

/-- `list(T, max)`: a count that could not fit in what remains is refused before any item is
read. -/
def list {Value : Type} (max minItemSize : Nat) (read : Reader Value) : Reader (List Value) := do
  let count ← u32
  require (count.toNat ≤ max) .tooLong
  require (count.toNat * minItemSize ≤ (← remaining)) .lengthExceedsInput
  items read count.toNat

def finish : Reader Unit := fun rest =>
  if rest.isEmpty then .ok ((), rest) else .error .trailingBytes

/-- Run a structure's reader over the whole input. -/
def decode {Value : Type} (reader : Reader Value) (input : List UInt8) : Except WireError Value :=
  (reader.run input).map Prod.fst

end Reader

variable {Value : Type} {write : Value → List UInt8} {read : Reader Value} {input rest : List UInt8}
  {max : Nat} (values : List Value) {holds : Value → Prop} {reader : Reader Value}
  {value : List UInt8}

/-! ### Each reader takes back what its writer gave -/

theorem reads_take (bytes : List UInt8) : Reads (Reader.take bytes.length) bytes bytes := by
  intro rest
  have enough : ¬ (bytes ++ rest).length < bytes.length := by simp
  show (if (bytes ++ rest).length < bytes.length then _ else _) = _
  rw [if_neg enough, List.take_left' rfl, List.drop_left' rfl]

theorem reads_u8 (value : UInt8) : Reads Reader.u8 (Writer.u8 value) value := fun _ => rfl

theorem reads_fixed {width : Nat} (value : Fixed width) :
    Reads (Reader.fixed width) (Writer.fixed value) value := by
  intro rest
  have enough : width ≤ (value.toList ++ rest).length := by simp
  have taken : (value.toList ++ rest).take width = value.toList :=
    List.take_left' value.toList_length
  have left : (value.toList ++ rest).drop width = rest := List.drop_left' value.toList_length
  show (if enough : width ≤ (value.toList ++ rest).length then _ else _) = _
  rw [dif_pos enough]
  exact congrArg Except.ok (Prod.ext (List.Vector.eq _ _ taken) left)

theorem reads_fixed_number {Number : Type} (width : Nat) (value : Nat) (number : Number)
    (ofNat : Nat → Number) (back : ofNat (value % 256 ^ width) = number) :
    Reads (do let field ← Reader.fixed width; return ofNat (ofBigEndian field.toList))
      (bigEndian width value) number := by
  have field := reads_fixed (⟨bigEndian width value, bigEndian_length width value⟩ : Fixed width)
  refine field.bind_nil ?_
  rw [List.Vector.toList_mk, ofBigEndian_bigEndian, back]
  exact reads_pure number

theorem reads_u16 (value : UInt16) : Reads Reader.u16 (Writer.u16 value) value :=
  reads_fixed_number 2 _ _ _ (by
    show UInt16.ofNat (value.toNat % 2 ^ 16) = value
    rw [Nat.mod_eq_of_lt value.toNat_lt, UInt16.ofNat_toNat])

theorem reads_length {length : Nat} (small : length < 2 ^ 32) :
    Reads Reader.u32 (bigEndian 4 length) (UInt32.ofNat length) ∧
      (UInt32.ofNat length).toNat = length := by
  refine ⟨reads_fixed_number 4 _ _ _ ?_, UInt32.toNat_ofNat_of_lt' small⟩
  rw [show (256 : Nat) ^ 4 = 2 ^ 32 by rfl, Nat.mod_eq_of_lt small]

theorem reads_u32 (value : UInt32) : Reads Reader.u32 (Writer.u32 value) value := by
  have small : value.toNat < 2 ^ 32 := value.toNat_lt
  have field := (reads_length small).1
  rwa [UInt32.ofNat_toNat] at field

theorem reads_u64 (value : UInt64) : Reads Reader.u64 (Writer.u64 value) value :=
  reads_fixed_number 8 _ _ _ (by
    show UInt64.ofNat (value.toNat % 2 ^ 64) = value
    rw [Nat.mod_eq_of_lt value.toNat_lt, UInt64.ofNat_toNat])

theorem reads_i64 (value : Int64) : Reads Reader.i64 (Writer.i64 value) value :=
  (reads_u64 value.toUInt64).bind_nil (reads_pure value)

theorem reads_label {label : String} (valid : validLabel (utf8 label) = true)
    (text : validUtf8 (utf8 label) = true) :
    Reads (Reader.label label) (Writer.withLabel label) () := by
  simp only [validLabel, Bool.and_eq_true, decide_eq_true_eq] at valid
  obtain ⟨⟨nonempty, short⟩, letters⟩ := valid
  have length : (UInt16.ofNat (utf8 label).length).toNat = (utf8 label).length :=
    UInt16.toNat_ofNat_of_lt' (by change (utf8 label).length < 65536; omega)
  have field : Reads Reader.u16 (bigEndian 2 (utf8 label).length)
      (UInt16.ofNat (utf8 label).length) :=
    reads_fixed_number 2 _ _ _ (by rw [Nat.mod_eq_of_lt (by omega)])
  have found : Reads (Reader.take (UInt16.ofNat (utf8 label).length).toNat) (utf8 label)
      (utf8 label) := by
    rw [length]
    exact reads_take _
  refine field.bind (Reads.require_bind (by omega) (found.bind_nil ?_))
  refine Reads.require_bind text (Reads.require_bind ?_ (reads_require rfl))
  simp only [validLabel, Bool.and_eq_true, decide_eq_true_eq]
  exact ⟨⟨nonempty, short⟩, letters⟩

theorem reads_bytes (fits : value.length ≤ max) (small : value.length < 2 ^ 32) :
    Reads (Reader.bytes max) (bigEndian 4 value.length ++ value) value := by
  obtain ⟨field, length⟩ := reads_length small
  refine field.bind (Reads.require_bind (by omega) ?_)
  intro rest
  rw [length]
  have enough : value.length ≤ (value ++ rest).length := by simp
  show (require (value.length ≤ (value ++ rest).length) _ >>= fun _ => Reader.take _).run _ = _
  exact Reads.require_bind enough (reads_take value) rest

theorem reads_blob (fits : value.length ≤ max) (small : value.length < 2 ^ 64) :
    Reads (Reader.blob max) (bigEndian 8 value.length ++ value) value := by
  have length : (UInt64.ofNat value.length).toNat = value.length :=
    UInt64.toNat_ofNat_of_lt' small
  have field := reads_u64 (UInt64.ofNat value.length)
  rw [Writer.u64, length] at field
  refine field.bind (Reads.require_bind (by omega) ?_)
  intro rest
  rw [length]
  have enough : value.length ≤ (value ++ rest).length := by simp
  show (require (value.length ≤ (value ++ rest).length) _ >>= fun _ => Reader.take _).run _ = _
  exact Reads.require_bind enough (reads_take value) rest

theorem utf8_ofByteArray {content : List UInt8}
    (valid : ByteArray.IsValidUTF8 ⟨content.toArray⟩) :
    utf8 (String.ofByteArray ⟨content.toArray⟩ valid) = content := rfl

theorem reads_text {value : String} (fits : (utf8 value).length ≤ max)
    (small : (utf8 value).length < 2 ^ 32) :
    Reads (Reader.text max) (bigEndian 4 (utf8 value).length ++ utf8 value) value := by
  have spelled : (⟨(utf8 value).toArray⟩ : ByteArray) = value.toByteArray := by
    rw [utf8, Array.toArray_toList]
    rfl
  have valid : ByteArray.IsValidUTF8 ⟨(utf8 value).toArray⟩ := by
    rw [spelled]
    exact value.isValidUTF8
  refine (reads_bytes fits small).bind_nil ?_
  rw [dif_pos valid]
  have same : String.ofByteArray ⟨(utf8 value).toArray⟩ valid = value :=
    String.toByteArray_inj.mp spelled
  rw [same]
  exact reads_pure value

theorem reads_opt (value : Option Value) (each : ∀ inner ∈ value, Reads read (write inner) inner) :
    Reads (Reader.opt read) (Writer.opt write value) value := by
  cases value with
  | none => exact (reads_u8 0).bind (reads_pure none)
  | some inner => exact (reads_u8 1).bind ((each inner rfl).bind_nil (reads_pure (some inner)))

theorem reads_items (each : ∀ value ∈ values, Reads read (write value) value) :
    Reads (Reader.items read values.length) (values.flatMap write) values := by
  induction values with
  | nil => exact reads_pure []
  | cons value rest inductionHypothesis =>
    have tail := inductionHypothesis fun other member => each other (List.mem_cons_of_mem _ member)
    rw [List.flatMap_cons]
    exact (each value List.mem_cons_self).bind (tail.bind_nil (reads_pure (value :: rest)))

theorem length_flatMap_ge {least : Nat} (each : ∀ value ∈ values, least ≤ (write value).length) :
    values.length * least ≤ (values.flatMap write).length := by
  induction values with
  | nil => simp
  | cons value rest inductionHypothesis =>
    have head := each value List.mem_cons_self
    have tail := inductionHypothesis fun other member => each other (List.mem_cons_of_mem _ member)
    rw [List.length_cons, List.flatMap_cons, List.length_append, Nat.succ_mul]
    omega

theorem reads_list {max minItemSize : Nat} (fits : values.length ≤ max)
    (small : values.length < 2 ^ 32) (wide : ∀ value ∈ values, minItemSize ≤ (write value).length)
    (each : ∀ value ∈ values, Reads read (write value) value) :
    Reads (Reader.list max minItemSize read)
      (bigEndian 4 values.length ++ values.flatMap write) values := by
  obtain ⟨field, length⟩ := reads_length small
  refine field.bind (Reads.require_bind (by omega) ?_)
  intro rest
  rw [length]
  have enough : values.length * minItemSize ≤ (values.flatMap write ++ rest).length := by
    rw [List.length_append]
    exact le_trans (length_flatMap_ge values wide) (Nat.le_add_right _ _)
  show (require (values.length * minItemSize ≤ (values.flatMap write ++ rest).length) _ >>=
    fun _ => Reader.items read _).run _ = _
  exact Reads.require_bind enough (reads_items values each) rest

theorem readsAll_list_bind {Value Result : Type} {read : Reader Value} {write : Value → List UInt8}
    {max minItemSize : Nat} {next : List Value → Reader Result} {rest : List UInt8}
    {result : Result} (values : List Value) (fits : values.length ≤ max)
    (small : values.length < 2 ^ 32)
    (wide : values.length * minItemSize ≤ (values.flatMap write).length + rest.length)
    (each : ∀ value ∈ values, Reads read (write value) value)
    (readsNext : ReadsAll (next values) rest result) :
    ReadsAll (Reader.list max minItemSize read >>= next)
      ((bigEndian 4 values.length ++ values.flatMap write) ++ rest) result := by
  obtain ⟨field, length⟩ := reads_length small
  have items := reads_items values each
  rw [List.append_assoc, ReadsAll, run_bind_eq_ok]
  refine ⟨values, rest, ?_, readsNext⟩
  simp only [Reader.list, run_bind_eq_ok, run_require_eq_ok]
  refine ⟨_, _, field _, (), _, ⟨by omega, rfl⟩, _, _, rfl, (), _, ⟨?_, rfl⟩, ?_⟩
  · rw [length, List.length_append]
    exact wide
  · rw [length]
    exact items rest

theorem readsAll_finish_bind {Result : Type} {next : Unit → Reader Result} {result : Result}
    (readsNext : ReadsAll (next ()) [] result) :
    ReadsAll (Reader.finish >>= next) [] result := readsNext

theorem decode_of_readsAll {input : List UInt8} {value : Value}
    (reads : ReadsAll reader input value) : Reader.decode reader input = .ok value := by
  rw [Reader.decode, reads]
  rfl

/-! ### Each reader takes only what its writer gives -/

theorem run_take_eq_ok {count : Nat} {input rest value : List UInt8}
    (read : (Reader.take count).run input = .ok (value, rest)) :
    value.length = count ∧ input = value ++ rest := by
  change (if input.length < count then _ else _) = _ at read
  by_cases short : input.length < count
  · rw [if_pos short] at read
    cases read
  · rw [if_neg short] at read
    cases read
    exact ⟨List.length_take_of_le (Nat.le_of_not_lt short), (List.take_append_drop ..).symm⟩

theorem readsOnly_u8 : ReadsOnly Reader.u8 Writer.u8 := by
  intro input rest value read
  cases input with
  | nil => cases read
  | cons byte tail =>
    cases read
    rfl

theorem readsOnly_fixed (width : Nat) : ReadsOnly (Reader.fixed width) Writer.fixed := by
  intro input rest value read
  change (if enough : width ≤ input.length then _ else _) = _ at read
  by_cases enough : width ≤ input.length
  · rw [dif_pos enough] at read
    cases read
    exact (List.take_append_drop ..).symm
  · rw [dif_neg enough] at read
    cases read

theorem readsOnly_number {Number : Type} {width : Nat} {ofNat : Nat → Number}
    {toNat : Number → Nat} (back : ∀ spelled < 256 ^ width, toNat (ofNat spelled) = spelled) :
    ReadsOnly (do let field ← Reader.fixed width; return ofNat (ofBigEndian field.toList))
      (fun number => bigEndian width (toNat number)) := by
  intro input rest value read
  obtain ⟨field, middle, taken, made⟩ := run_bind_eq_ok.mp read
  obtain ⟨rfl, rfl⟩ := run_pure_eq_ok.mp made
  have small : ofBigEndian field.toList < 256 ^ width := by
    have bound := ofBigEndian_lt field.toList
    rwa [field.toList_length] at bound
  have written := bigEndian_ofBigEndian field.toList
  rw [field.toList_length] at written
  show input = bigEndian width (toNat (ofNat (ofBigEndian field.toList))) ++ middle
  rw [readsOnly_fixed width taken, back _ small, written]
  rfl

theorem readsOnly_u16 : ReadsOnly Reader.u16 Writer.u16 :=
  readsOnly_number fun _ small => UInt16.toNat_ofNat_of_lt' small

theorem readsOnly_u32 : ReadsOnly Reader.u32 Writer.u32 :=
  readsOnly_number fun _ small => UInt32.toNat_ofNat_of_lt' small

theorem readsOnly_u64 : ReadsOnly Reader.u64 Writer.u64 :=
  readsOnly_number fun _ small => UInt64.toNat_ofNat_of_lt' small

theorem readsOnly_i64 : ReadsOnly Reader.i64 Writer.i64 := by
  intro input rest value read
  obtain ⟨field, middle, taken, made⟩ := run_bind_eq_ok.mp read
  obtain ⟨rfl, rfl⟩ := run_pure_eq_ok.mp made
  rw [readsOnly_u64 taken]
  rfl

theorem readsOnly_label (expected : String) :
    ReadsOnly (Reader.label expected) fun _ => Writer.withLabel expected := by
  intro input rest value read
  simp only [Reader.label, run_bind_eq_ok, run_require_eq_ok] at read
  obtain ⟨length, afterLength, lengthRead, _, _, ⟨-, rfl⟩, found, afterFound, foundRead, _, _,
    ⟨-, rfl⟩, _, _, ⟨-, rfl⟩, rfl, rfl⟩ := read
  obtain ⟨size, rfl⟩ := run_take_eq_ok foundRead
  rw [readsOnly_u16 lengthRead, Writer.u16, ← size, Writer.withLabel, List.append_assoc]

theorem run_remaining_eq_ok {left : Nat} :
    Reader.remaining.run input = .ok (left, rest) ↔ left = input.length ∧ rest = input := by
  constructor
  · intro read
    cases read
    exact ⟨rfl, rfl⟩
  · rintro ⟨rfl, rfl⟩
    rfl

theorem run_u32_eq_ok {length : UInt32} (read : Reader.u32.run input = .ok (length, rest)) :
    length.toNat < 2 ^ 32 ∧ input = bigEndian 4 length.toNat ++ rest :=
  ⟨length.toNat_lt, readsOnly_u32 read⟩

theorem run_bytes_eq_ok {input rest value : List UInt8}
    (read : (Reader.bytes max).run input = .ok (value, rest)) :
    value.length ≤ max ∧ value.length < 2 ^ 32 ∧
      input = bigEndian 4 value.length ++ (value ++ rest) := by
  simp only [Reader.bytes, run_bind_eq_ok, run_require_eq_ok, run_remaining_eq_ok] at read
  obtain ⟨length, afterLength, lengthRead, _, _, ⟨fits, rfl⟩, _, _, ⟨rfl, rfl⟩, _, _, ⟨-, rfl⟩,
    valueRead⟩ := read
  obtain ⟨small, rfl⟩ := run_u32_eq_ok lengthRead
  obtain ⟨size, rfl⟩ := run_take_eq_ok valueRead
  rw [size]
  exact ⟨fits, small, rfl⟩

theorem run_blob_eq_ok {input rest value : List UInt8}
    (read : (Reader.blob max).run input = .ok (value, rest)) :
    value.length ≤ max ∧ value.length < 2 ^ 64 ∧
      input = bigEndian 8 value.length ++ (value ++ rest) := by
  simp only [Reader.blob, run_bind_eq_ok, run_require_eq_ok, run_remaining_eq_ok] at read
  obtain ⟨length, afterLength, lengthRead, _, _, ⟨fits, rfl⟩, _, _, ⟨rfl, rfl⟩, _, _, ⟨-, rfl⟩,
    valueRead⟩ := read
  obtain rfl := readsOnly_u64 lengthRead
  obtain ⟨size, rfl⟩ := run_take_eq_ok valueRead
  rw [size]
  exact ⟨fits, length.toNat_lt, rfl⟩

theorem run_text_eq_ok {value : String} (read : (Reader.text max).run input = .ok (value, rest)) :
    (utf8 value).length ≤ max ∧ (utf8 value).length < 2 ^ 32 ∧
      input = bigEndian 4 (utf8 value).length ++ (utf8 value ++ rest) := by
  obtain ⟨content, middle, contentRead, made⟩ := run_bind_eq_ok.mp read
  by_cases valid : ByteArray.IsValidUTF8 ⟨content.toArray⟩
  · rw [dif_pos valid, run_pure_eq_ok] at made
    obtain ⟨rfl, rfl⟩ := made
    rw [utf8_ofByteArray]
    exact run_bytes_eq_ok contentRead
  · rw [dif_neg valid] at made
    cases made

theorem readsOnly_opt (only : ReadsOnly read write) :
    ReadsOnly (Reader.opt read) (Writer.opt write) := by
  intro input rest value accepted
  obtain ⟨presence, middle, presenceRead, chosen⟩ := run_bind_eq_ok.mp accepted
  rw [readsOnly_u8 presenceRead]
  by_cases absent : presence = 0
  · rw [if_pos absent, run_pure_eq_ok] at chosen
    obtain ⟨rfl, rfl⟩ := chosen
    rw [absent]
    rfl
  · rw [if_neg absent] at chosen
    by_cases present : presence = 1
    · rw [if_pos present, run_bind_eq_ok] at chosen
      obtain ⟨inner, afterInner, innerRead, made⟩ := chosen
      obtain ⟨rfl, rfl⟩ := run_pure_eq_ok.mp made
      rw [only innerRead, present]
      rfl
    · rw [if_neg present] at chosen
      cases chosen

theorem run_items_eq_ok (only : ReadsOnly read write) {count : Nat} {values : List Value}
    (accepted : (Reader.items read count).run input = .ok (values, rest)) :
    values.length = count ∧ input = values.flatMap write ++ rest := by
  induction count generalizing input values with
  | zero =>
    obtain ⟨rfl, rfl⟩ := run_pure_eq_ok.mp accepted
    exact ⟨rfl, rfl⟩
  | succ count inductionHypothesis =>
    simp only [Reader.items, run_bind_eq_ok, run_pure_eq_ok] at accepted
    obtain ⟨item, afterItem, itemRead, others, afterOthers, othersRead, rfl, rfl⟩ := accepted
    obtain ⟨size, rfl⟩ := inductionHypothesis othersRead
    refine ⟨congrArg (· + 1) size, ?_⟩
    rw [only itemRead, List.flatMap_cons, List.append_assoc]

theorem run_list_eq_ok (only : ReadsOnly read write) {max minItemSize : Nat} {values : List Value}
    (accepted : (Reader.list max minItemSize read).run input = .ok (values, rest)) :
    values.length ≤ max ∧ values.length < 2 ^ 32 ∧
      input = bigEndian 4 values.length ++ (values.flatMap write ++ rest) := by
  simp only [Reader.list, run_bind_eq_ok, run_require_eq_ok, run_remaining_eq_ok] at accepted
  obtain ⟨count, afterCount, countRead, _, _, ⟨fits, rfl⟩, _, _, ⟨rfl, rfl⟩, _, _, ⟨-, rfl⟩,
    itemsRead⟩ := accepted
  obtain ⟨small, rfl⟩ := run_u32_eq_ok countRead
  obtain ⟨size, rfl⟩ := run_items_eq_ok only itemsRead
  rw [size]
  exact ⟨fits, small, rfl⟩

theorem yields_items (each : Yields read holds) (count : Nat) :
    Yields (Reader.items read count) fun values => ∀ value ∈ values, holds value := by
  induction count with
  | zero => exact yields_pure fun value member => (nomatch member)
  | succ count inductionHypothesis =>
    refine each.bind fun item held => inductionHypothesis.bind fun rest others => ?_
    exact yields_pure (List.forall_mem_cons.mpr ⟨held, others⟩)

theorem yields_list (each : Yields read holds) (max minItemSize : Nat) :
    Yields (Reader.list max minItemSize read) fun values => ∀ value ∈ values, holds value := by
  refine yields_bind fun count => yields_bind fun _ => yields_bind fun _ => yields_bind fun _ => ?_
  exact yields_items each count.toNat

theorem run_finish_eq_ok {done : Unit} :
    Reader.finish.run input = .ok (done, rest) ↔ input = [] ∧ rest = [] := by
  cases input with
  | nil =>
    constructor
    · intro read
      cases read
      exact ⟨rfl, rfl⟩
    · rintro ⟨-, rfl⟩
      rfl
  | cons byte tail =>
    constructor
    · intro read
      cases read
    · rintro ⟨impossible, -⟩
      cases impossible

theorem decode_eq_ok {input : List UInt8} {value : Value}
    (decoded : Reader.decode reader input = .ok value) :
    ∃ rest, reader.run input = .ok (value, rest) := by
  unfold Reader.decode at decoded
  cases read : reader.run input with
  | error failure =>
    rw [read] at decoded
    cases decoded
  | ok taken =>
    rw [read] at decoded
    cases decoded
    exact ⟨taken.2, rfl⟩

end Dohflow.SyncCore
