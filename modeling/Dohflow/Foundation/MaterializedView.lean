/-
This file is about a view that is kept up to a mark of a log.

An entry of the log has a number and makes one row of the view, or cannot be read. The view
reflects the log up to a mark when its rows are those of the entries up to it. Writing the rows
of the entries above the mark brings it up to the head, and later entries lie above the mark.
So a view that was brought up step by step has the rows that one made from nothing has
(`Reflects.mem_iff`).
-/

import Dohflow.Foundation.Grouping
import Dohflow.Foundation.KeyedTable
import Dohflow.Foundation.PrefixFree

namespace MaterializedView

open KeyedTable

variable {Entry Row Key Failure : Type} {key : Row → Key}

/-! ### Writing rows over what is there -/

section Writing

variable [DecidableEq Key]

/-- `INSERT OR REPLACE` -/
def put (table : Table key) (row : Row) : Table key where
  rows := table.rows.filter (fun held => key held ≠ key row) ++ [row]
  unique := by
    rw [List.map_append, List.map_singleton]
    refine List.nodup_append.mpr
      ⟨table.unique.sublist (List.filter_sublist.map key), List.nodup_singleton _, ?_⟩
    rintro held member other single rfl
    obtain ⟨row', inside, same⟩ := List.mem_map.mp member
    have apart := of_decide_eq_true (List.mem_filter.mp inside).2
    exact apart (same.trans (List.mem_singleton.mp single))

theorem mem_put {table : Table key} {row other : Row} :
    other ∈ (put table row).rows ↔ other ∈ table.rows ∧ key other ≠ key row ∨ other = row := by
  show other ∈ List.filter _ _ ++ [row] ↔ _
  rw [List.mem_append, List.mem_filter, List.mem_singleton, decide_eq_true_eq]

def putAll (table : Table key) (rows : List Row) : Table key := rows.foldl put table

theorem mem_putAll {table : Table key} {rows : List Row} {other : Row}
    (single : ∀ first ∈ rows, ∀ second ∈ rows, key first = key second → first = second) :
    other ∈ (putAll table rows).rows ↔
      other ∈ table.rows ∧ (∀ row ∈ rows, key other ≠ key row) ∨ other ∈ rows := by
  induction rows generalizing table with
  | nil =>
    show other ∈ table.rows ↔ _
    simp only [List.not_mem_nil, false_implies, implies_true, and_true, or_false]
  | cons row rest inductionHypothesis =>
    have later := @inductionHypothesis (put table row) fun first firstIn second secondIn =>
      single first (List.mem_cons_of_mem _ firstIn) second (List.mem_cons_of_mem _ secondIn)
    show other ∈ (putAll (put table row) rest).rows ↔ _
    rw [later, mem_put, List.forall_mem_cons, List.mem_cons]
    constructor
    · rintro (⟨⟨held, apart⟩ | rfl, others⟩ | member)
      · exact .inl ⟨held, apart, others⟩
      · exact .inr (.inl rfl)
      · exact .inr (.inr member)
    · rintro (⟨held, apart, others⟩ | rfl | member)
      · exact .inl ⟨.inl ⟨held, apart⟩, others⟩
      · -- A later row of the same key is the row again.
        by_cases repeated : ∃ row ∈ rest, key other = key row
        · obtain ⟨row, member, same⟩ := repeated
          have equal := single other List.mem_cons_self row (List.mem_cons_of_mem _ member) same
          exact .inr (equal ▸ member)
        · push Not at repeated
          exact .inl ⟨.inr rfl, repeated⟩
      · exact .inr member

end Writing

/-! ### The mark of a view -/

variable {entries more : Entry → Prop} {number : Entry → Int}
  {read : Entry → Except Failure Row} {mark head : Int} {table other : Table key}

/-- The rows of the view are those of the entries up to the mark. -/
structure Reflects (entries : Entry → Prop) (number : Entry → Int)
    (read : Entry → Except Failure Row) (mark : Int) (table : Table key) : Prop where
  readable : ∀ entry, entries entry → number entry ≤ mark → ∃ row, read entry = .ok row
  rows : ∀ row, row ∈ table.rows ↔
    ∃ entry, entries entry ∧ number entry ≤ mark ∧ read entry = .ok row

variable (key) in
/-- No two entries of different numbers make rows of one key, and none make different ones. -/
def Apart (entries : Entry → Prop) (number : Entry → Int) (read : Entry → Except Failure Row) :
    Prop :=
  ∀ first second, entries first → entries second → ∀ row other, read first = .ok row →
    read second = .ok other → key row = key other → number first = number second ∧ row = other

/-- Entries that come later lie above the mark. -/
theorem Reflects.grow (reflects : Reflects entries number read mark table)
    (below : ∀ entry, number entry ≤ mark → (more entry ↔ entries entry)) :
    Reflects more number read mark table := by
  refine ⟨fun entry member low =>
    reflects.readable entry ((below entry low).mp member) low, fun row => ?_⟩
  rw [reflects.rows row]
  constructor
  · rintro ⟨entry, member, low, made⟩
    exact ⟨entry, (below entry low).mpr member, low, made⟩
  · rintro ⟨entry, member, low, made⟩
    exact ⟨entry, (below entry low).mp member, low, made⟩

theorem reflects_empty (above : ∀ entry, entries entry → mark < number entry) :
    Reflects entries number read mark (.empty : Table key) := by
  refine ⟨fun entry member low => absurd low (above entry member).not_ge, fun row => ?_⟩
  refine iff_of_false List.not_mem_nil ?_
  rintro ⟨entry, member, low, -⟩
  exact (above entry member).not_ge low

theorem Reflects.catchUp [DecidableEq Key] {waiting : List Entry} {rows : List Row}
    (reflects : Reflects entries number read mark table) (apart : Apart key entries number read)
    (all : ∀ entry, entry ∈ waiting ↔ entries entry ∧ mark < number entry)
    (top : ∀ entry, entries entry → number entry ≤ head)
    (done : waiting.mapM read = .ok rows) :
    Reflects entries number read head (putAll table rows) := by
  have made (row : Row) : row ∈ rows ↔ ∃ entry ∈ waiting, read entry = .ok row := by
    have same := congrArg (Except.ok row ∈ ·) (PrefixFree.map_eq_of_mapM done)
    simpa [List.mem_map] using same.symm
  have readable (entry : Entry) (member : entries entry) : ∃ row, read entry = .ok row := by
    rcases le_or_gt (number entry) mark with low | high
    · exact reflects.readable entry member low
    · exact Grouping.exists_mapM_iff.mp ⟨rows, done⟩ entry ((all entry).mpr ⟨member, high⟩)
  refine ⟨fun entry member _ => readable entry member, fun row => ?_⟩
  rw [mem_putAll, reflects.rows, made]
  · constructor
    · rintro (⟨⟨entry, member, -, read⟩, -⟩ | ⟨entry, member, read⟩)
      · exact ⟨entry, member, top entry member, read⟩
      · have member := ((all entry).mp member).1
        exact ⟨entry, member, top entry member, read⟩
    · rintro ⟨entry, member, -, read⟩
      rcases le_or_gt (number entry) mark with low | high
      · refine .inl ⟨⟨entry, member, low, read⟩, fun newer newerIn same => ?_⟩
        obtain ⟨later, laterIn, readLater⟩ := (made newer).mp newerIn
        obtain ⟨laterIn, laterHigh⟩ := (all later).mp laterIn
        have equal := (apart entry later member laterIn row newer read readLater same).1
        exact absurd (equal ▸ low) laterHigh.not_ge
      · exact .inr ⟨entry, (all entry).mpr ⟨member, high⟩, read⟩
  · intro first firstIn second secondIn same
    obtain ⟨entry, member, read⟩ := (made first).mp firstIn
    obtain ⟨later, laterIn, readLater⟩ := (made second).mp secondIn
    exact (apart entry later ((all entry).mp member).1 ((all later).mp laterIn).1 first second
      read readLater same).2

theorem Reflects.exists_mapM_iff {waiting : List Entry}
    (reflects : Reflects entries number read mark table)
    (all : ∀ entry, entry ∈ waiting ↔ entries entry ∧ mark < number entry) :
    (∃ rows, waiting.mapM read = .ok rows) ↔
      ∀ entry, entries entry → ∃ row, read entry = .ok row := by
  rw [Grouping.exists_mapM_iff]
  constructor
  · intro readable entry member
    rcases le_or_gt (number entry) mark with low | high
    · exact reflects.readable entry member low
    · exact readable entry ((all entry).mpr ⟨member, high⟩)
  · exact fun readable entry member => readable entry ((all entry).mp member).1

/-- Two views of one log at one mark have the same rows. -/
theorem Reflects.mem_iff (reflects : Reflects entries number read mark table)
    (otherReflects : Reflects entries number read mark other) (row : Row) :
    row ∈ table.rows ↔ row ∈ other.rows :=
  (reflects.rows row).trans (otherReflects.rows row).symm

end MaterializedView
