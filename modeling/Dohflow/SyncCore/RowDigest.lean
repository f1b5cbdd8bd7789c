/-
This file models the canonical encoding of a stored row and its digests.

A row's message is a label, its table and its columns, each a name and a value under
the tag of its declared kind. A parent's message goes on with its child tables, a
deleted row's holds its key under a label of its own. Columns, child tables and
child rows are sorted first, so only what the row holds decides the message. The
messages are prefix-free part by part, and one message comes from one row only.
-/

import Dohflow.Foundation.PrefixFree
import Dohflow.SyncCore.CanonicalJsonForms

namespace Dohflow.SyncCore.RowDigest

open ByteReader CanonicalOrder Fallible PrefixFree

/-! ### Values, columns and children -/

def rowLabel : String := "dohflow/sync-row/v1"

def absentLabel : String := "dohflow/sync-row-absent/v1"

def maxPrimaryKey : Nat := 256

def maxValue : Nat := 2 ^ 24

def maxName : Nat := 64

def maxChildRow : Nat := 2 ^ 16

/-- A column's declared kind. -/
inductive Kind
  | int
  | text
  | uuid
  | bytes

/-- A stored value, by its storage class. -/
inductive Value
  | null
  | int (value : Int64)
  | text (bytes : List UInt8)
  | blob (bytes : List UInt8)
  deriving DecidableEq

structure Column where
  name : String
  kind : Kind
  value : Value

/-- The folded rows of one child table. -/
structure ChildTable where
  table : String
  rows : List (List Column)

/-- Why a row could not be encoded. -/
inductive RowDigestError
  | kindMismatch
  | badUuidLength
  | invalidUtf8
  | valueTooLong
  | badName
  | duplicateColumn
  | tooManyColumns
  | childRowTooLong
  | badChildTables
  | keyTooLong

/-! ### Writing -/

def name (text : String) : Except RowDigestError (List UInt8) := do
  let bytes := utf8 text
  ensure (bytes ≠ [] ∧ bytes.length ≤ maxName) .badName
  return bigEndian 4 bytes.length ++ bytes

def lengthPrefixed (bytes : List UInt8) : Except RowDigestError (List UInt8) := do
  ensure (bytes.length ≤ maxValue) .valueTooLong
  return bigEndian 4 bytes.length ++ bytes

/-- One tagged value. The storage class must match the kind, but for NULL. -/
def tagged : Kind → Value → Except RowDigestError (List UInt8)
  | _, .null => .ok [0]
  | .int, .int value => .ok (1 :: Writer.i64 value)
  | .text, .text bytes => do
    ensure (validUtf8 bytes = true) .invalidUtf8
    return 2 :: (← lengthPrefixed bytes)
  | .uuid, .blob bytes => do
    ensure (bytes.length = 16) .badUuidLength
    return 3 :: bytes
  | .bytes, .blob bytes => return 4 :: (← lengthPrefixed bytes)
  | _, _ => .error .kindMismatch

/-- A column in a row: its name and its tagged value. -/
def column (column : Column) : Except RowDigestError (List UInt8) := do
  let front ← name column.name
  return front ++ (← tagged column.kind column.value)

def nameKey (column : Column) : List Nat := byteKey (utf8 column.name)

/-- The columns of a row, sorted by their names. -/
def columnsSection (columns : List Column) : Except RowDigestError (List UInt8) := do
  ensure (columns.length < 2 ^ 16) .tooManyColumns
  let sorted := sortBy nameKey columns
  ensure (sorted.IsChain fun first second => first.name ≠ second.name) .duplicateColumn
  let written ← sorted.mapM column
  return bigEndian 2 columns.length ++ written.flatten

/-- The bytes of one folded child row. -/
def childRowBytes (columns : List Column) : Except RowDigestError (List UInt8) := do
  let bytes ← columnsSection columns
  ensure (bytes.length ≤ maxChildRow) .childRowTooLong
  return bytes

def tableKey (child : ChildTable) : List Nat := byteKey (utf8 child.table)

/-- A child table in its parent: its name, and its rows sorted by their bytes. -/
def childTable (child : ChildTable) : Except RowDigestError (List UInt8) := do
  let front ← name child.table
  let encoded ← child.rows.mapM childRowBytes
  ensure (encoded.length < 2 ^ 32) .badChildTables
  return front ++ bigEndian 4 encoded.length ++
    (sortBy byteKey encoded).flatMap fun bytes => bigEndian 4 bytes.length ++ bytes

/-- What a row's digest is taken of. -/
def rowMessage (table : String) (columns : List Column) : Except RowDigestError (List UInt8) := do
  let front ← name table
  return Writer.withLabel rowLabel ++ front ++ (← columnsSection columns)

/-- What the digest of a parent with folded children is taken of. -/
def parentRowMessage (table : String) (columns : List Column) (children : List ChildTable) :
    Except RowDigestError (List UInt8) := do
  let message ← rowMessage table columns
  ensure (children ≠ []) .badChildTables
  ensure (children.length < 2 ^ 16) .badChildTables
  let tables := sortBy tableKey children
  ensure (tables.IsChain fun first second => first.table ≠ second.table) .badChildTables
  let written ← tables.mapM childTable
  return message ++ bigEndian 2 children.length ++ written.flatten

/-- What a deleted row's digest is taken of. -/
def absentMessage (table : String) (primaryKey : List UInt8) :
    Except RowDigestError (List UInt8) := do
  ensure (primaryKey.length ≤ maxPrimaryKey) .keyTooLong
  let front ← name table
  return Writer.withLabel absentLabel ++ front ++ (bigEndian 4 primaryKey.length ++ primaryKey)

section

variable (sha256 : List UInt8 → Digest)

def rowDigest (table : String) (columns : List Column) : Except RowDigestError Digest :=
  (rowMessage table columns).map sha256

def parentRowDigest (table : String) (columns : List Column) (children : List ChildTable) :
    Except RowDigestError Digest :=
  (parentRowMessage table columns children).map sha256

def absentDigest (table : String) (primaryKey : List UInt8) : Except RowDigestError Digest :=
  (absentMessage table primaryKey).map sha256

end

variable {word otherWord : List UInt8}
variable {columns others : List Column} {table : String} {children : List ChildTable}
  {first second : ChildTable}

/-! ### What a row holds -/

/-- A column's name and its value under its tag. -/
def cell (column : Column) : String × Except RowDigestError (List UInt8) :=
  (column.name, tagged column.kind column.value)

/-- The cells of a row, in no order. -/
def cells (columns : List Column) : Set (String × Except RowDigestError (List UInt8)) :=
  {held | ∃ column ∈ columns, cell column = held}

/-- A child table's name and the cells of each of its rows, in no order but as often as they occur. -/
def content (child : ChildTable) :
    String × Multiset (Set (String × Except RowDigestError (List UInt8))) :=
  (child.table, (child.rows : Multiset (List Column)).map cells)

/-- The contents of child tables, in no order. -/
def contents (children : List ChildTable) :
    Set (String × Multiset (Set (String × Except RowDigestError (List UInt8)))) :=
  {held | ∃ child ∈ children, content child = held}

/-- What a digest is taken of. -/
inductive Form
  | row (table : String) (columns : List Column)
  | parent (table : String) (columns : List Column) (children : List ChildTable)
  | absent (table : String) (primaryKey : List UInt8)

def Form.message : Form → Except RowDigestError (List UInt8)
  | .row table columns => rowMessage table columns
  | .parent table columns children => parentRowMessage table columns children
  | .absent table primaryKey => absentMessage table primaryKey

/-- The same kind of row of one table, with the same in it. -/
def Form.Same : Form → Form → Prop
  | .row table columns, .row other others => table = other ∧ cells columns = cells others
  | .parent table columns children, .parent other others otherChildren =>
    table = other ∧ cells columns = cells others ∧ contents children = contents otherChildren
  | .absent table primaryKey, .absent other otherKey => table = other ∧ primaryKey = otherKey
  | _, _ => False

/-! ### Names and values -/

theorem name_eq_ok {text : String} {word : List UInt8} (written : name text = .ok word) :
    (utf8 text).length ≤ maxName ∧ word = measured 4 (utf8 text) := by
  obtain ⟨⟨-, short⟩, same⟩ := ensure_bind_eq_ok.mp written
  exact ⟨short, (Except.ok.inj same).symm⟩

theorem lengthPrefixed_eq_ok {bytes word : List UInt8} (written : lengthPrefixed bytes = .ok word) :
    bytes.length ≤ maxValue ∧ word = measured 4 bytes := by
  obtain ⟨short, same⟩ := ensure_bind_eq_ok.mp written
  exact ⟨short, (Except.ok.inj same).symm⟩

theorem name_split {text other : String} {word otherWord rest otherRest : List UInt8}
    (written : name text = .ok word) (otherWritten : name other = .ok otherWord)
    (same : word ++ rest = otherWord ++ otherRest) : text = other ∧ rest = otherRest := by
  obtain ⟨short, rfl⟩ := name_eq_ok written
  obtain ⟨otherShort, rfl⟩ := name_eq_ok otherWritten
  rw [maxName] at short otherShort
  obtain ⟨bytes, later⟩ := measured_split (by omega) (by omega) same
  exact ⟨Parser.utf8_injective bytes, later⟩

/-- What may follow a value's tag. -/
def under (tag : UInt8) : Set (List UInt8) :=
  if tag = 0 then {word | word.length = 0}
  else if tag = 1 then {word | word.length = 8}
  else if tag = 3 then {word | word.length = 16}
  else {word | ∃ bytes : List UInt8, bytes.length < 256 ^ 4 ∧ word = measured 4 bytes}

theorem code_under (tag : UInt8) : Code (under tag) := by
  unfold under
  split_ifs
  · exact code_of_length fun _ long => long
  · exact code_of_length fun _ long => long
  · exact code_of_length fun _ long => long
  · exact code_measured 4

theorem tagged_eq_ok {kind : Kind} {value : Value} {word : List UInt8}
    (written : tagged kind value = .ok word) :
    (value = .null ∧ word = [0]) ∨
    (∃ number, kind = .int ∧ value = .int number ∧ word = 1 :: Writer.i64 number) ∨
    (∃ bytes, kind = .text ∧ value = .text bytes ∧ bytes.length ≤ maxValue ∧
      word = 2 :: measured 4 bytes) ∨
    (∃ bytes, kind = .uuid ∧ value = .blob bytes ∧ bytes.length = 16 ∧ word = 3 :: bytes) ∨
    (∃ bytes, kind = .bytes ∧ value = .blob bytes ∧ bytes.length ≤ maxValue ∧
      word = 4 :: measured 4 bytes) := by
  cases value with
  | null => exact .inl ⟨rfl, (Except.ok.inj written).symm⟩
  | int number =>
    cases kind with
    | int => exact .inr (.inl ⟨number, rfl, rfl, (Except.ok.inj written).symm⟩)
    | _ => cases written
  | text bytes =>
    cases kind with
    | text =>
      obtain ⟨-, written⟩ := ensure_bind_eq_ok.mp written
      obtain ⟨back, wrote, same⟩ := bind_eq_ok.mp written
      obtain ⟨short, rfl⟩ := lengthPrefixed_eq_ok wrote
      exact .inr (.inr (.inl ⟨bytes, rfl, rfl, short, (Except.ok.inj same).symm⟩))
    | _ => cases written
  | blob bytes =>
    cases kind with
    | uuid =>
      obtain ⟨long, same⟩ := ensure_bind_eq_ok.mp written
      exact .inr (.inr (.inr (.inl ⟨bytes, rfl, rfl, long, (Except.ok.inj same).symm⟩)))
    | bytes =>
      obtain ⟨back, wrote, same⟩ := bind_eq_ok.mp written
      obtain ⟨short, rfl⟩ := lengthPrefixed_eq_ok wrote
      exact .inr (.inr (.inr (.inr ⟨bytes, rfl, rfl, short, (Except.ok.inj same).symm⟩)))
    | _ => cases written

theorem code_tagged_values : Code {word | ∃ kind value, tagged kind value = .ok word} := by
  refine (code_tagged code_under).mono ?_
  rintro word ⟨kind, value, written⟩
  rcases tagged_eq_ok written with ⟨-, rfl⟩ | ⟨number, -, -, rfl⟩ | ⟨bytes, -, -, short, rfl⟩ |
    ⟨bytes, -, -, long, rfl⟩ | ⟨bytes, -, -, short, rfl⟩
  · exact ⟨0, [], rfl, rfl⟩
  · exact ⟨1, _, bigEndian_length 8 _, rfl⟩
  · rw [maxValue] at short
    exact ⟨2, _, ⟨bytes, by omega, rfl⟩, rfl⟩
  · exact ⟨3, bytes, long, rfl⟩
  · rw [maxValue] at short
    exact ⟨4, _, ⟨bytes, by omega, rfl⟩, rfl⟩

theorem measured_injective {first second : List UInt8} (firstFits : first.length < 256 ^ 4)
    (secondFits : second.length < 256 ^ 4) (same : measured 4 first = measured 4 second) :
    first = second :=
  (@measured_split 4 first second [] [] firstFits secondFits (by rw [same])).1

theorem i64_injective {first second : Int64} (same : Writer.i64 first = Writer.i64 second) :
    first = second := by
  have numbers := bigEndian_injective (UInt64.toNat_lt _) (UInt64.toNat_lt _) same
  exact congrArg Int64.ofUInt64 (UInt64.toNat.inj numbers)

theorem tagged_eq_iff {kind otherKind : Kind} {value other : Value}
    (written : tagged kind value = .ok word) (otherWritten : tagged otherKind other = .ok otherWord) :
    word = otherWord ↔ value = other ∧ (value ≠ .null → kind = otherKind) := by
  constructor
  · rintro rfl
    rcases tagged_eq_ok written with ⟨rfl, rfl⟩ | ⟨number, rfl, rfl, rfl⟩ |
      ⟨bytes, rfl, rfl, short, rfl⟩ | ⟨bytes, rfl, rfl, long, rfl⟩ | ⟨bytes, rfl, rfl, short, rfl⟩ <;>
    rcases tagged_eq_ok otherWritten with ⟨rfl, same⟩ | ⟨otherNumber, rfl, rfl, same⟩ |
      ⟨otherBytes, rfl, rfl, otherShort, same⟩ | ⟨otherBytes, rfl, rfl, otherLong, same⟩ |
      ⟨otherBytes, rfl, rfl, otherShort, same⟩
    -- Two tags of different cases differ.
    all_goals try exact absurd (List.cons.inj same).1 (by decide)
    · exact ⟨rfl, fun notNull => absurd rfl notNull⟩
    · rw [i64_injective (List.cons.inj same).2]
      exact ⟨rfl, fun _ => rfl⟩
    · rw [maxValue] at short otherShort
      rw [measured_injective (by omega) (by omega) (List.cons.inj same).2]
      exact ⟨rfl, fun _ => rfl⟩
    · rw [(List.cons.inj same).2]
      exact ⟨rfl, fun _ => rfl⟩
    · rw [maxValue] at short otherShort
      rw [measured_injective (by omega) (by omega) (List.cons.inj same).2]
      exact ⟨rfl, fun _ => rfl⟩
  · rintro ⟨rfl, kinds⟩
    by_cases null : value = .null
    · subst null
      exact Except.ok.inj (written.symm.trans otherWritten)
    · obtain rfl := kinds null
      exact Except.ok.inj (written.symm.trans otherWritten)

/-! ### Columns -/

theorem column_eq_ok {held : Column} {word : List UInt8} (written : column held = .ok word) :
    ∃ front back, name held.name = .ok front ∧ tagged held.kind held.value = .ok back ∧
      word = front ++ back := by
  obtain ⟨front, named, written⟩ := bind_eq_ok.mp written
  obtain ⟨back, valued, same⟩ := bind_eq_ok.mp written
  exact ⟨front, back, named, valued, (Except.ok.inj same).symm⟩

theorem code_names : Code {word | ∃ text, name text = .ok word} := by
  refine (code_measured 4).mono ?_
  rintro word ⟨text, written⟩
  obtain ⟨short, rfl⟩ := name_eq_ok written
  rw [maxName] at short
  exact ⟨utf8 text, by omega, rfl⟩

theorem code_columns : Code {word | ∃ held, column held = .ok word} := by
  refine (code_names.append code_tagged_values).mono ?_
  rintro word ⟨held, written⟩
  obtain ⟨front, back, named, valued, rfl⟩ := column_eq_ok written
  exact ⟨front, ⟨held.name, named⟩, back, ⟨held.kind, held.value, valued⟩, rfl⟩

theorem column_eq_iff {first second : Column} (written : column first = .ok word)
    (otherWritten : column second = .ok otherWord) :
    word = otherWord ↔ cell first = cell second := by
  obtain ⟨front, back, named, valued, rfl⟩ := column_eq_ok written
  obtain ⟨otherFront, otherBack, otherNamed, otherValued, rfl⟩ := column_eq_ok otherWritten
  rw [cell, cell, Prod.mk.injEq, valued, otherValued, Except.ok.injEq]
  constructor
  · intro same
    exact name_split named otherNamed same
  · rintro ⟨names, rfl⟩
    rw [names] at named
    rw [Except.ok.inj (named.symm.trans otherNamed)]

theorem nameKey_of_cell {first second : Column} (same : cell first = cell second) :
    nameKey first = nameKey second := by
  rw [nameKey, nameKey, (Prod.mk.inj same).1]

theorem byteKey_utf8_injective {first second : String}
    (same : byteKey (utf8 first) = byteKey (utf8 second)) : first = second :=
  Parser.utf8_injective (byteKey_injective same)

theorem columnsSection_listing {columns : List Column} {word : List UInt8}
    (written : columnsSection columns = .ok word) : Listing 2 nameKey column columns word := by
  obtain ⟨few, written⟩ := ensure_bind_eq_ok.mp written
  obtain ⟨apart, written⟩ := ensure_bind_eq_ok.mp written
  obtain ⟨words, wrote, same⟩ := bind_eq_ok.mp written
  refine ⟨few, apart.imp fun first second differ same => ?_, words, wrote,
    (Except.ok.inj same).symm⟩
  exact differ (byteKey_utf8_injective same)

theorem columnsSection_split {rest otherRest : List UInt8}
    (written : columnsSection columns = .ok word)
    (otherWritten : columnsSection others = .ok otherWord)
    (same : word ++ rest = otherWord ++ otherRest) :
    cells columns = cells others ∧ rest = otherRest :=
  (Listing.split code_columns column_eq_iff (fun _ _ => nameKey_of_cell)
    (columnsSection_listing written) (columnsSection_listing otherWritten) same).imp Set.ext id

theorem columnsSection_eq_iff (written : columnsSection columns = .ok word)
    (otherWritten : columnsSection others = .ok otherWord) :
    word = otherWord ↔ cells columns = cells others :=
  (Listing.eq_iff code_columns column_eq_iff (fun _ _ => nameKey_of_cell)
    (columnsSection_listing written) (columnsSection_listing otherWritten)).trans Set.ext_iff.symm

/-! ### Child tables -/

theorem childRowBytes_eq_ok {columns : List Column} {word : List UInt8}
    (written : childRowBytes columns = .ok word) :
    columnsSection columns = .ok word ∧ word.length ≤ maxChildRow := by
  obtain ⟨bytes, wrote, written⟩ := bind_eq_ok.mp written
  obtain ⟨short, same⟩ := ensure_bind_eq_ok.mp written
  obtain rfl := Except.ok.inj same
  exact ⟨wrote, short⟩

theorem encoded_perm_iff {rows others : List (List Column)} {encoded otherEncoded : List (List UInt8)}
    (written : rows.mapM childRowBytes = .ok encoded)
    (otherWritten : others.mapM childRowBytes = .ok otherEncoded) :
    encoded.Perm otherEncoded ↔
      (rows : Multiset (List Column)).map cells = (others : Multiset (List Column)).map cells := by
  have asked : encoded.Perm otherEncoded ↔
      (rows : Multiset (List Column)).map childRowBytes =
        (others : Multiset (List Column)).map childRowBytes := by
    rw [Multiset.map_coe, Multiset.map_coe, map_eq_of_mapM written, map_eq_of_mapM otherWritten,
      ← Multiset.map_coe, ← Multiset.map_coe,
      (Multiset.map_injective fun _ _ => Except.ok.inj).eq_iff, Multiset.coe_eq_coe]
  refine asked.trans (map_eq_map_iff_of_agree fun first firstIn second secondIn => ?_)
  obtain ⟨word, -, wrote⟩ := exists_word_of_mem written (Multiset.mem_coe.mp firstIn)
  obtain ⟨otherWord, -, otherWrote⟩ := exists_word_of_mem otherWritten (Multiset.mem_coe.mp secondIn)
  rw [wrote, otherWrote, Except.ok.injEq]
  exact columnsSection_eq_iff (childRowBytes_eq_ok wrote).1 (childRowBytes_eq_ok otherWrote).1

theorem childTable_eq_ok {child : ChildTable} {word : List UInt8}
    (written : childTable child = .ok word) :
    ∃ front encoded, name child.table = .ok front ∧ child.rows.mapM childRowBytes = .ok encoded ∧
      encoded.length < 2 ^ 32 ∧
      word = front ++ (bigEndian 4 encoded.length ++
        (sortBy byteKey encoded).flatMap (measured 4)) := by
  obtain ⟨front, named, written⟩ := bind_eq_ok.mp written
  obtain ⟨encoded, wrote, written⟩ := bind_eq_ok.mp written
  obtain ⟨few, same⟩ := ensure_bind_eq_ok.mp written
  refine ⟨front, encoded, named, wrote, few, ?_⟩
  rw [← List.append_assoc]
  exact (Except.ok.inj same).symm

theorem childTable_split {first second : ChildTable} {word otherWord rest otherRest : List UInt8}
    (written : childTable first = .ok word) (otherWritten : childTable second = .ok otherWord)
    (same : word ++ rest = otherWord ++ otherRest) :
    content first = content second ∧ rest = otherRest := by
  obtain ⟨front, encoded, named, wrote, few, rfl⟩ := childTable_eq_ok written
  obtain ⟨otherFront, otherEncoded, otherNamed, otherWrote, otherFew, rfl⟩ :=
    childTable_eq_ok otherWritten
  simp only [List.append_assoc] at same
  obtain ⟨names, later⟩ := name_split named otherNamed same
  obtain ⟨counts, later⟩ := bigEndian_split few otherFew later
  have fits {list : List (List Column)} {words : List (List UInt8)}
      (wrote : list.mapM childRowBytes = .ok words) :
      ∀ bytes ∈ sortBy byteKey words, bytes.length < 256 ^ 4 := by
    intro bytes member
    obtain ⟨row, -, encodes⟩ := exists_of_mem_words wrote (mem_sortBy.mp member)
    have short := (childRowBytes_eq_ok encodes).2
    rw [maxChildRow] at short
    omega
  obtain ⟨sorted, ends⟩ := measuredAll_split (fits wrote) (fits otherWrote)
    (by rw [length_sortBy, length_sortBy, counts]) later
  have perm := (sortBy_eq_iff_perm fun _ _ _ _ same => byteKey_injective same).mp sorted
  exact ⟨Prod.ext names ((encoded_perm_iff wrote otherWrote).mp perm), ends⟩

theorem childTable_eq_iff (written : childTable first = .ok word)
    (otherWritten : childTable second = .ok otherWord) :
    word = otherWord ↔ content first = content second := by
  constructor
  · rintro rfl
    exact (@childTable_split _ _ _ _ [] [] written otherWritten rfl).1
  · intro same
    obtain ⟨names, rows⟩ := Prod.mk.inj same
    obtain ⟨front, encoded, named, wrote, few, rfl⟩ := childTable_eq_ok written
    obtain ⟨otherFront, otherEncoded, otherNamed, otherWrote, otherFew, rfl⟩ :=
      childTable_eq_ok otherWritten
    rw [names] at named
    have perm := (encoded_perm_iff wrote otherWrote).mpr rows
    rw [Except.ok.inj (named.symm.trans otherNamed), perm.length_eq,
      (sortBy_eq_iff_perm fun _ _ _ _ same => byteKey_injective same).mpr perm]

theorem code_childTables : Code {word | ∃ child, childTable child = .ok word} := by
  rintro word ⟨child, written⟩ otherWord ⟨other, otherWritten⟩ rest otherRest same
  exact (childTable_eq_iff written otherWritten).mpr (childTable_split written otherWritten same).1

/-! ### Whole messages -/

theorem rowMessage_eq_ok {columns : List Column} {message : List UInt8}
    (written : rowMessage table columns = .ok message) :
    ∃ front columnBytes, name table = .ok front ∧ columnsSection columns = .ok columnBytes ∧
      message = Writer.withLabel rowLabel ++ (front ++ columnBytes) := by
  obtain ⟨front, named, written⟩ := bind_eq_ok.mp written
  obtain ⟨columnBytes, wrote, same⟩ := bind_eq_ok.mp written
  refine ⟨front, columnBytes, named, wrote, ?_⟩
  rw [← List.append_assoc]
  exact (Except.ok.inj same).symm

theorem rowMessage_split {table other : String} {columns others : List Column}
    {message otherMessage rest otherRest : List UInt8}
    (written : rowMessage table columns = .ok message)
    (otherWritten : rowMessage other others = .ok otherMessage)
    (same : message ++ rest = otherMessage ++ otherRest) :
    (table = other ∧ cells columns = cells others) ∧ rest = otherRest := by
  obtain ⟨front, columnBytes, named, wrote, rfl⟩ := rowMessage_eq_ok written
  obtain ⟨otherFront, otherBytes, otherNamed, otherWrote, rfl⟩ := rowMessage_eq_ok otherWritten
  simp only [List.append_assoc] at same
  obtain ⟨names, later⟩ := name_split named otherNamed (List.append_cancel_left same)
  obtain ⟨held, ends⟩ := columnsSection_split wrote otherWrote later
  exact ⟨⟨names, held⟩, ends⟩

theorem rowMessage_eq_of_same {table other : String} {message otherMessage : List UInt8}
    (written : rowMessage table columns = .ok message)
    (otherWritten : rowMessage other others = .ok otherMessage) (names : table = other)
    (held : cells columns = cells others) : message = otherMessage := by
  obtain ⟨front, columnBytes, named, wrote, rfl⟩ := rowMessage_eq_ok written
  obtain ⟨otherFront, otherBytes, otherNamed, otherWrote, rfl⟩ := rowMessage_eq_ok otherWritten
  rw [names] at named
  rw [Except.ok.inj (named.symm.trans otherNamed), (columnsSection_eq_iff wrote otherWrote).mpr held]

theorem parentRowMessage_eq_ok {columns : List Column} {message : List UInt8}
    (written : parentRowMessage table columns children = .ok message) :
    ∃ front back, rowMessage table columns = .ok front ∧
      Listing 2 tableKey childTable children back ∧ message = front ++ back := by
  obtain ⟨front, wrote, written⟩ := bind_eq_ok.mp written
  obtain ⟨-, written⟩ := ensure_bind_eq_ok.mp written
  obtain ⟨few, written⟩ := ensure_bind_eq_ok.mp written
  obtain ⟨apart, written⟩ := ensure_bind_eq_ok.mp written
  obtain ⟨words, wroteAll, same⟩ := bind_eq_ok.mp written
  refine ⟨front, _, wrote, ⟨few, apart.imp fun first second differ same => ?_, words, wroteAll, rfl⟩,
    ?_⟩
  · exact differ (byteKey_utf8_injective same)
  · rw [← List.append_assoc]
    exact (Except.ok.inj same).symm

theorem tableKey_of_content (same : content first = content second) :
    tableKey first = tableKey second := by
  rw [tableKey, tableKey, (Prod.mk.inj same).1]

theorem absentMessage_eq_ok {primaryKey message : List UInt8}
    (written : absentMessage table primaryKey = .ok message) :
    primaryKey.length ≤ maxPrimaryKey ∧ ∃ front, name table = .ok front ∧
      message = Writer.withLabel absentLabel ++ (front ++ measured 4 primaryKey) := by
  obtain ⟨short, written⟩ := ensure_bind_eq_ok.mp written
  obtain ⟨front, named, same⟩ := bind_eq_ok.mp written
  refine ⟨short, front, named, ?_⟩
  rw [← List.append_assoc]
  exact (Except.ok.inj same).symm

theorem absentMessage_ne {primaryKey message : List UInt8}
    (begins : ∃ rest, message = Writer.withLabel rowLabel ++ rest) :
    absentMessage table primaryKey ≠ .ok message := by
  intro written
  obtain ⟨rest, same⟩ := begins
  obtain ⟨-, front, -, otherSame⟩ := absentMessage_eq_ok written
  have rowLength : (utf8 rowLabel).length = 19 := by decide +kernel
  have absentLength : (utf8 absentLabel).length = 26 := by decide +kernel
  have labels := same.symm.trans otherSame
  rw [Writer.withLabel, Writer.withLabel, List.append_assoc, List.append_assoc] at labels
  have lengths := (bigEndian_split (by omega) (by omega) labels).1
  omega

theorem rowMessage_begins {columns : List Column} {message : List UInt8}
    (written : rowMessage table columns = .ok message) :
    ∃ rest, message = Writer.withLabel rowLabel ++ rest := by
  obtain ⟨front, columnBytes, -, -, same⟩ := rowMessage_eq_ok written
  exact ⟨_, same⟩

theorem parentRowMessage_begins {columns : List Column} {message : List UInt8}
    (written : parentRowMessage table columns children = .ok message) :
    ∃ rest, message = Writer.withLabel rowLabel ++ rest := by
  obtain ⟨front, back, wrote, -, rfl⟩ := parentRowMessage_eq_ok written
  obtain ⟨rest, rfl⟩ := rowMessage_begins wrote
  exact ⟨rest ++ back, List.append_assoc _ _ _⟩

theorem rowMessage_ne_parentRowMessage {table other : String} {message : List UInt8}
    (written : rowMessage table columns = .ok message) :
    parentRowMessage other others children ≠ .ok message := by
  intro otherWritten
  obtain ⟨front, back, wrote, listing, same⟩ := parentRowMessage_eq_ok otherWritten
  obtain ⟨words, -, rfl⟩ := listing.written
  have ends := (rowMessage_split written wrote ((List.append_nil message).trans same)).2
  have lengths := congrArg List.length ends
  rw [List.length_append, bigEndian_length, List.length_nil] at lengths
  omega

theorem parentRowMessage_eq_iff {table other : String} {children otherChildren : List ChildTable}
    {message otherMessage : List UInt8}
    (written : parentRowMessage table columns children = .ok message)
    (otherWritten : parentRowMessage other others otherChildren = .ok otherMessage) :
    message = otherMessage ↔
      table = other ∧ cells columns = cells others ∧ contents children = contents otherChildren := by
  obtain ⟨front, back, wrote, listing, rfl⟩ := parentRowMessage_eq_ok written
  obtain ⟨otherFront, otherBack, otherWrote, otherListing, rfl⟩ := parentRowMessage_eq_ok otherWritten
  have backs := Listing.eq_iff code_childTables childTable_eq_iff (fun _ _ => tableKey_of_content)
    listing otherListing
  constructor
  · intro same
    obtain ⟨⟨names, held⟩, ends⟩ := rowMessage_split wrote otherWrote same
    exact ⟨names, held, Set.ext (backs.mp ends)⟩
  · rintro ⟨names, held, same⟩
    rw [rowMessage_eq_of_same wrote otherWrote names held, backs.mpr (Set.ext_iff.mp same)]

theorem absentMessage_eq_iff {table other : String} {primaryKey otherKey message otherMessage : List UInt8}
    (written : absentMessage table primaryKey = .ok message)
    (otherWritten : absentMessage other otherKey = .ok otherMessage) :
    message = otherMessage ↔ table = other ∧ primaryKey = otherKey := by
  obtain ⟨short, front, named, rfl⟩ := absentMessage_eq_ok written
  obtain ⟨otherShort, otherFront, otherNamed, rfl⟩ := absentMessage_eq_ok otherWritten
  rw [maxPrimaryKey] at short otherShort
  constructor
  · intro same
    obtain ⟨names, later⟩ := name_split named otherNamed (List.append_cancel_left same)
    exact ⟨names, measured_injective (by omega) (by omega) later⟩
  · rintro ⟨names, rfl⟩
    rw [names] at named
    rw [Except.ok.inj (named.symm.trans otherNamed)]

theorem message_eq_iff {first second : Form} {message otherMessage : List UInt8}
    (written : first.message = .ok message) (otherWritten : second.message = .ok otherMessage) :
    message = otherMessage ↔ first.Same second := by
  cases first with
  | row table columns =>
    cases second with
    | row other others =>
      constructor
      · intro same
        exact (@rowMessage_split _ _ _ _ _ _ [] [] written otherWritten (by rw [same])).1
      · rintro ⟨names, held⟩
        exact rowMessage_eq_of_same written otherWritten names held
    | parent other others children =>
      exact iff_of_false (fun same => rowMessage_ne_parentRowMessage written (same ▸ otherWritten)) id
    | absent other otherKey =>
      exact iff_of_false
        (fun same => absentMessage_ne (rowMessage_begins written) (same ▸ otherWritten)) id
  | parent table columns children =>
    cases second with
    | row other others =>
      exact iff_of_false (fun same => rowMessage_ne_parentRowMessage otherWritten (same ▸ written)) id
    | parent other others otherChildren => exact parentRowMessage_eq_iff written otherWritten
    | absent other otherKey =>
      exact iff_of_false
        (fun same => absentMessage_ne (parentRowMessage_begins written) (same ▸ otherWritten)) id
  | absent table primaryKey =>
    cases second with
    | row other others =>
      exact iff_of_false
        (fun same => absentMessage_ne (rowMessage_begins otherWritten) (same ▸ written)) id
    | parent other others otherChildren =>
      exact iff_of_false
        (fun same => absentMessage_ne (parentRowMessage_begins otherWritten) (same ▸ written)) id
    | absent other otherKey => exact absentMessage_eq_iff written otherWritten

end Dohflow.SyncCore.RowDigest
