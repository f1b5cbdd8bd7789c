/-
This file is about a table of rows under a primary key: what a lookup, an update and an
insert of such a table do.

No two rows of a table share their key. An update sets the selected rows and keeps every
key; an insert is refused when the key is taken. What each of them does is said through
the lookup (`find_update`, `find_insert`), so that what is known of one row is carried over.
-/

import Mathlib.Data.List.Nodup
import Mathlib.Logic.Basic

namespace KeyedTable

variable {Row Key : Type} [DecidableEq Key]

/-- Rows with their primary key, in the order in which they were inserted. -/
structure Table (key : Row → Key) where
  rows : List Row
  unique : (rows.map key).Nodup

namespace Table

variable {key : Row → Key}

instance [DecidableEq Row] : DecidableEq (Table key) := fun one other =>
  decidable_of_iff (one.rows = other.rows)
    ⟨fun same => by cases one; cases other; cases same; rfl, fun same => by rw [same]⟩

def empty : Table key := ⟨[], List.nodup_nil⟩

/-- `SELECT ... WHERE key = ?` -/
def find (table : Table key) (sought : Key) : Option Row :=
  table.rows.find? fun row => key row = sought

/-- `UPDATE ... SET ... WHERE ...` -/
def update (table : Table key) (selects : Row → Bool) (sets : Row → Row)
    (keeps : ∀ row, key (sets row) = key row) : Table key where
  rows := table.rows.map fun row => if selects row then sets row else row
  unique := by
    have same : (table.rows.map fun row => if selects row then sets row else row).map key =
        table.rows.map key := by
      rw [List.map_map]
      refine List.map_congr_left fun row _ => ?_
      show key (if selects row then sets row else row) = key row
      split
      · exact keeps row
      · rfl
    rw [same]
    exact table.unique

/-- `DELETE ... WHERE ...` -/
def delete (table : Table key) (selects : Row → Bool) : Table key where
  rows := table.rows.filter fun row => !selects row
  unique := table.unique.sublist (List.filter_sublist.map key)

/-- `INSERT ...`, unless the primary key is taken. -/
def insert (table : Table key) (row : Row) : Option (Table key) :=
  if absent : key row ∈ table.rows.map key then none
  else some
    { rows := table.rows ++ [row]
      unique := by
        rw [List.map_append, List.map_singleton]
        refine List.nodup_append.mpr ⟨table.unique, List.nodup_singleton _, ?_⟩
        rintro held member other single rfl
        rw [List.mem_singleton.mp single] at member
        exact absent member }

variable {table after : Table key} {row other : Row} {sought : Key}
variable {selects : Row → Bool} {sets : Row → Row} {keeps : ∀ row, key (sets row) = key row}

theorem find_eq_some_iff : table.find sought = some row ↔ row ∈ table.rows ∧ key row = sought := by
  constructor
  · intro found
    have same := List.find?_some found
    rw [decide_eq_true_eq] at same
    exact ⟨List.mem_of_find?_eq_some found, same⟩
  · rintro ⟨member, rfl⟩
    cases found : table.find (key row) with
    | none => simpa using List.find?_eq_none.mp found row member
    | some other =>
      have same := List.find?_some found
      rw [decide_eq_true_eq] at same
      rw [List.inj_on_of_nodup_map table.unique (List.mem_of_find?_eq_some found) member same]

theorem find_key (member : row ∈ table.rows) : table.find (key row) = some row :=
  find_eq_some_iff.mpr ⟨member, rfl⟩

theorem find_eq_none_iff : table.find sought = none ↔ ∀ row ∈ table.rows, key row ≠ sought := by
  simp [find]

omit [DecidableEq Key] in
/-- Rows with one key are one row. -/
theorem eq_of_key_eq (member : row ∈ table.rows) (memberOther : other ∈ table.rows)
    (same : key row = key other) : row = other :=
  List.inj_on_of_nodup_map table.unique member memberOther same

omit [DecidableEq Key] in
theorem mem_update :
    row ∈ (table.update selects sets keeps).rows ↔
      ∃ before ∈ table.rows, (if selects before then sets before else before) = row :=
  List.mem_map

theorem find_update :
    (table.update selects sets keeps).find sought =
      (table.find sought).map fun row => if selects row then sets row else row := by
  have same : ∀ row, key (if selects row then sets row else row) = key row := by
    intro row
    split
    · exact keeps row
    · rfl
  simp only [find, update, List.find?_map, Function.comp_def, same]

theorem insert_eq_some_iff : table.insert row = some after ↔
    table.find (key row) = none ∧ after.rows = table.rows ++ [row] := by
  unfold insert
  have taken : key row ∈ table.rows.map key ↔ ¬ table.find (key row) = none := by
    rw [find_eq_none_iff]
    simp
  split
  · next present => exact iff_of_false nofun fun vacant => taken.mp present vacant.1
  · next absent =>
    rw [taken, not_not] at absent
    constructor
    · intro inserted
      rw [← Option.some.inj inserted]
      exact ⟨absent, rfl⟩
    · rintro ⟨-, rows⟩
      cases after
      cases rows
      rfl

theorem exists_insert (vacant : table.find (key row) = none) :
    ∃ after, table.insert row = some after := by
  have absent : key row ∉ table.rows.map key := by
    rintro member
    obtain ⟨held, heldIn, same⟩ := List.mem_map.mp member
    exact find_eq_none_iff.mp vacant held heldIn same
  exact ⟨_, dif_neg absent⟩

theorem find_insert (inserted : table.insert row = some after) :
    after.find sought = if sought = key row then some row else table.find sought := by
  obtain ⟨absent, rows⟩ := insert_eq_some_iff.mp inserted
  by_cases same : sought = key row
  · subst same
    rw [if_pos rfl, find_eq_some_iff, rows]
    exact ⟨List.mem_append_right _ List.mem_cons_self, rfl⟩
  · rw [if_neg same, find, rows, List.find?_append]
    have missed : [row].find? (fun row => decide (key row = sought)) = none := by
      simp [Ne.symm same]
    rw [missed, Option.or_none]
    rfl

end Table

end KeyedTable
