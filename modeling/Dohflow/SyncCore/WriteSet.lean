/-
This file models the hash of a write set: the rows a command changed.

An entry names a table, a primary key and the digest of the row's last state. The
entries are sorted by the bytes of the table and of the key and written after their
count, so the hash is of the entries and not of the order they were found in.
-/

import Dohflow.SyncCore.RowDigest
import Mathlib.Data.Prod.Lex

namespace Dohflow.SyncCore.WriteSet

open ByteReader CanonicalOrder Fallible PrefixFree

def writeSetLabel : String := "dohflow/sync-writeset/v1"

def maxEntries : Nat := 2 ^ 20

/-- One changed row. -/
structure Entry where
  table : String
  primaryKey : List UInt8
  digest : Digest

inductive WriteSetError
  | tooManyEntries
  | duplicateEntry
  | badEntry

/-- The names of an entry are as long as they may be. -/
def Entry.Valid (entry : Entry) : Prop :=
  utf8 entry.table ≠ [] ∧ (utf8 entry.table).length ≤ RowDigest.maxName ∧
    entry.primaryKey ≠ [] ∧ entry.primaryKey.length ≤ RowDigest.maxPrimaryKey

instance (entry : Entry) : Decidable entry.Valid := inferInstanceAs (Decidable (_ ∧ _))

/-- By the bytes of the table, then by the bytes of the key. -/
def entryKey (entry : Entry) : Lex (List Nat × List Nat) :=
  toLex (byteKey (utf8 entry.table), byteKey entry.primaryKey)

def entryBytes (entry : Entry) : List UInt8 :=
  bigEndian 4 (utf8 entry.table).length ++ utf8 entry.table ++
    (bigEndian 4 entry.primaryKey.length ++ entry.primaryKey) ++ Writer.fixed entry.digest

/-- What the hash of a write set is taken of. -/
def writeSetMessage (entries : List Entry) : Except WriteSetError (List UInt8) := do
  ensure (entries.length ≤ maxEntries) .tooManyEntries
  ensure (∀ entry ∈ entries, entry.Valid) .badEntry
  let sorted := sortBy entryKey entries
  ensure (sorted.IsChain fun first second =>
    ¬ (first.table = second.table ∧ first.primaryKey = second.primaryKey)) .duplicateEntry
  return Writer.withLabel writeSetLabel ++ (bigEndian 4 sorted.length ++ sorted.flatMap entryBytes)

def writeSetHash (sha256 : List UInt8 → Digest) (entries : List Entry) : Except WriteSetError Digest :=
  (writeSetMessage entries).map sha256

/-! ### One entry -/

theorem entryBytes_eq (entry : Entry) : entryBytes entry =
    measured 4 (utf8 entry.table) ++ (measured 4 entry.primaryKey ++ Writer.fixed entry.digest) :=
  List.append_assoc _ _ _

theorem entryBytes_split {first second : Entry} (valid : first.Valid) (otherValid : second.Valid)
    {rest otherRest : List UInt8}
    (same : entryBytes first ++ rest = entryBytes second ++ otherRest) :
    first = second ∧ rest = otherRest := by
  obtain ⟨-, tableFits, -, keyFits⟩ := valid
  obtain ⟨-, otherTableFits, -, otherKeyFits⟩ := otherValid
  rw [RowDigest.maxName] at tableFits otherTableFits
  rw [RowDigest.maxPrimaryKey] at keyFits otherKeyFits
  simp only [entryBytes_eq, List.append_assoc] at same
  obtain ⟨tables, later⟩ := measured_split (by omega) (by omega) same
  obtain ⟨keys, later⟩ := measured_split (by omega) (by omega) later
  obtain ⟨digests, ends⟩ := List.append_inj later
    ((length_fixed first.digest).trans (length_fixed second.digest).symm)
  refine ⟨?_, ends⟩
  obtain ⟨table, primaryKey, digest⟩ := first
  obtain ⟨otherTable, otherKey, otherDigest⟩ := second
  obtain rfl : table = otherTable := Parser.utf8_injective tables
  obtain rfl : primaryKey = otherKey := keys
  obtain rfl : digest = otherDigest := List.Vector.eq _ _ digests
  rfl

/-- An entry's bytes, for an entry that may be written. -/
def entryWord (entry : Entry) : Except WriteSetError (List UInt8) := do
  ensure entry.Valid .badEntry
  return entryBytes entry

theorem entryWord_eq_ok {entry : Entry} {word : List UInt8} :
    entryWord entry = .ok word ↔ entry.Valid ∧ entryBytes entry = word := by
  rw [entryWord, ensure_bind_eq_ok]
  exact and_congr_right fun _ => ⟨Except.ok.inj, congrArg Except.ok⟩

theorem code_entries : Code {word | ∃ entry, entryWord entry = .ok word} := by
  rintro word ⟨first, written⟩ otherWord ⟨second, otherWritten⟩ rest otherRest same
  obtain ⟨valid, rfl⟩ := entryWord_eq_ok.mp written
  obtain ⟨otherValid, rfl⟩ := entryWord_eq_ok.mp otherWritten
  rw [(entryBytes_split valid otherValid same).1]

theorem entryWord_eq_iff {first second : Entry} {word otherWord : List UInt8}
    (written : entryWord first = .ok word) (otherWritten : entryWord second = .ok otherWord) :
    word = otherWord ↔ id first = id second := by
  obtain ⟨valid, rfl⟩ := entryWord_eq_ok.mp written
  obtain ⟨otherValid, rfl⟩ := entryWord_eq_ok.mp otherWritten
  constructor
  · intro same
    exact (@entryBytes_split _ _ valid otherValid [] [] (by rw [same])).1
  · intro same
    exact congrArg entryBytes same

/-! ### The whole set -/

theorem entryKey_eq_iff {first second : Entry} : entryKey first = entryKey second ↔
    first.table = second.table ∧ first.primaryKey = second.primaryKey := by
  constructor
  · intro same
    obtain ⟨tables, keys⟩ := Prod.mk.inj (toLex.injective same)
    exact ⟨RowDigest.byteKey_utf8_injective tables, byteKey_injective keys⟩
  · rintro ⟨tables, keys⟩
    rw [entryKey, entryKey, tables, keys]

theorem writeSetMessage_eq_ok {entries : List Entry} {message : List UInt8}
    (written : writeSetMessage entries = .ok message) :
    ∃ word, Listing 4 entryKey entryWord entries word ∧
      message = Writer.withLabel writeSetLabel ++ word := by
  obtain ⟨few, written⟩ := ensure_bind_eq_ok.mp written
  obtain ⟨valid, written⟩ := ensure_bind_eq_ok.mp written
  obtain ⟨apart, same⟩ := ensure_bind_eq_ok.mp written
  rw [maxEntries] at few
  refine ⟨_, ⟨by omega, apart.imp fun first second differ same => differ (entryKey_eq_iff.mp same),
    (sortBy entryKey entries).map entryBytes, ?_, rfl⟩, ?_⟩
  · refine mapM_eq_ok.mpr (List.forall₂_map_right_iff.mpr ?_)
    refine List.forall₂_same.mpr fun entry member => entryWord_eq_ok.mpr ⟨?_, rfl⟩
    exact valid entry (mem_sortBy.mp member)
  · rw [← List.flatMap_def, ← Except.ok.inj same, length_sortBy]

theorem writeSetMessage_eq_iff_perm {entries others : List Entry} {message otherMessage : List UInt8}
    (written : writeSetMessage entries = .ok message)
    (otherWritten : writeSetMessage others = .ok otherMessage) :
    message = otherMessage ↔ entries.Perm others := by
  obtain ⟨word, listing, rfl⟩ := writeSetMessage_eq_ok written
  obtain ⟨otherWord, otherListing, rfl⟩ := writeSetMessage_eq_ok otherWritten
  have words := Listing.eq_iff code_entries entryWord_eq_iff (fun _ _ => congrArg entryKey)
    listing otherListing
  have distinct {list : List Entry} {word : List UInt8}
      (listing : Listing 4 entryKey entryWord list word) : list.Nodup := by
    have sorted : (sortBy entryKey list).Nodup :=
      (sortBy_strict listing.apart).imp fun less same => less.ne (congrArg entryKey same)
    exact (sortBy_perm list).nodup_iff.mp sorted
  rw [List.append_right_inj, words,
    List.perm_ext_iff_of_nodup (distinct listing) (distinct otherListing)]
  simp only [id, exists_eq_right]

/-- Digests of rows identify the rows, and the hash of a write set its entries: messages are equal
just if they are of the same kind of row with the same in it, tagged values just if the values are
equal and of one kind unless NULL, and write sets just if they are permutations. -/
theorem digests_identify_rows :
    (∀ (first second : RowDigest.Form) (message otherMessage : List UInt8),
      first.message = .ok message → second.message = .ok otherMessage →
      (message = otherMessage ↔ first.Same second)) ∧
    (∀ (kind otherKind : RowDigest.Kind) (value other : RowDigest.Value) (word otherWord : List UInt8),
      RowDigest.tagged kind value = .ok word → RowDigest.tagged otherKind other = .ok otherWord →
      (word = otherWord ↔ value = other ∧ (value ≠ .null → kind = otherKind))) ∧
    (∀ (entries others : List Entry) (message otherMessage : List UInt8),
      writeSetMessage entries = .ok message → writeSetMessage others = .ok otherMessage →
      (message = otherMessage ↔ entries.Perm others)) :=
  ⟨fun _ _ _ _ => RowDigest.message_eq_iff, fun _ _ _ _ _ _ => RowDigest.tagged_eq_iff,
    fun _ _ _ _ => writeSetMessage_eq_iff_perm⟩

end Dohflow.SyncCore.WriteSet
