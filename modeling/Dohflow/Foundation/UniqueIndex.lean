/-
This file is about an index that finds each of a list of records by its key.

`Indexes key lookup records` says that the lookups are exactly the records and
that no two of them share a key. It holds of the empty index, and recording one
more record under a key nobody holds keeps it.
-/

import Mathlib.Data.List.Nodup
import Mathlib.Logic.Function.Basic

namespace Dohflow.UniqueIndex

universe u v

variable {Key : Type u} {Record : Type v}

/-- A lookup finds exactly the records with its key, and the keys are distinct. -/
structure Indexes (key : Record → Key) (lookup : Key → Option Record) (records : List Record) :
    Prop where
  found : ∀ sought record, lookup sought = some record ↔ record ∈ records ∧ key record = sought
  distinct : (records.map key).Nodup

variable {key : Record → Key} {lookup : Key → Option Record} {records : List Record}

theorem indexes_nil (key : Record → Key) : Indexes key (fun _ => none) [] where
  found := by
    intro sought record
    constructor
    · intro found
      cases found
    · rintro ⟨member, -⟩
      cases member
  distinct := List.nodup_nil

theorem Indexes.lookup_key (indexes : Indexes key lookup records) {record : Record}
    (member : record ∈ records) : lookup (key record) = some record :=
  (indexes.found _ _).mpr ⟨member, rfl⟩

theorem Indexes.key_ne (indexes : Indexes key lookup records) {sought : Key}
    (missing : lookup sought = none) {record : Record} (member : record ∈ records) :
    key record ≠ sought := by
  rintro rfl
  rw [indexes.lookup_key member] at missing
  cases missing

theorem Indexes.append [DecidableEq Key] (indexes : Indexes key lookup records) {record : Record}
    (missing : lookup (key record) = none) :
    Indexes key (Function.update lookup (key record) (some record)) (records ++ [record]) := by
  refine ⟨?_, ?_⟩
  · intro sought other
    by_cases same : sought = key record
    · subst same
      rw [Function.update_self]
      constructor
      · intro found
        obtain rfl := Option.some.inj found
        exact ⟨List.mem_append_right _ (List.mem_singleton_self _), rfl⟩
      · rintro ⟨member, same⟩
        rcases List.mem_append.mp member with old | new
        · exact absurd same (indexes.key_ne missing old)
        · rw [List.mem_singleton.mp new]
    · rw [Function.update_of_ne same, indexes.found, List.mem_append, List.mem_singleton]
      constructor
      · rintro ⟨member, found⟩
        exact ⟨.inl member, found⟩
      · rintro ⟨old | rfl, found⟩
        · exact ⟨old, found⟩
        · exact absurd found.symm same
  · rw [List.map_append, List.nodup_append]
    refine ⟨indexes.distinct, List.nodup_singleton _, ?_⟩
    intro held member other isNew same
    obtain ⟨old, oldMember, rfl⟩ := List.mem_map.mp member
    exact indexes.key_ne missing oldMember (same.trans (List.mem_singleton.mp isNew))

end Dohflow.UniqueIndex
