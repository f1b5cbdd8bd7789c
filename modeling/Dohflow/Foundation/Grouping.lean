/-
This file is a small theory of lists whose items are grouped by a key, and of loops
that take each item once.

The groups stand in the order of their keys, a group is never empty, and it holds the
items of its key in the order they had. Together the groups hold every item that has
a key. A loop that refuses what it has taken before passes just where nothing repeats.
-/

import Dohflow.Foundation.CanonicalOrder
import Dohflow.Foundation.Fallible
import Mathlib.Data.List.Dedup
import Mathlib.Data.List.Nodup

namespace Grouping

open CanonicalOrder Fallible

variable {Item Key Value Rank : Type}

/-- The items of one key; a group has at least one. -/
structure Group (Key Value : Type) where
  key : Key
  first : Value
  rest : List Value

def Group.values (group : Group Key Value) : List Value := group.first :: group.rest

/-- A key's values as a group, where there are any. -/
def Group.of (key : Key) : List Value → Option (Group Key Value)
  | [] => none
  | first :: rest => some ⟨key, first, rest⟩

section

variable [DecidableEq Key] [LinearOrder Rank] (rank : Key → Rank) (entry : Item → Option (Key × Value))

/-- The values of a key, in the order of their items. -/
def valuesAt (key : Key) (items : List Item) : List Value :=
  items.filterMap fun item => (entry item).bind fun held => if held.1 = key then some held.2 else none

/-- The groups of the items, ascending by their keys. -/
def groups (items : List Item) : List (Group Key Value) :=
  (sortBy rank (items.filterMap fun item => (entry item).map Prod.fst).dedup).filterMap fun key =>
    Group.of key (valuesAt entry key items)

variable {rank entry}

variable (rank) in

end

/-! ### Checking each item, and taking each once -/

theorem exists_mapM_iff {Failure : Type} {write : Item → Except Failure Value} {items : List Item} :
    (∃ words, items.mapM write = .ok words) ↔ ∀ item ∈ items, ∃ word, write item = .ok word := by
  induction items with
  | nil =>
    constructor
    · exact fun _ _ member => absurd member List.not_mem_nil
    · exact fun _ => ⟨[], rfl⟩
  | cons item rest inductionHypothesis =>
    simp only [List.mapM_cons, bind_eq_ok, List.forall_mem_cons, ← inductionHypothesis]
    constructor
    · rintro ⟨_, word, wrote, words, wroteLater, -⟩
      exact ⟨⟨word, wrote⟩, words, wroteLater⟩
    · rintro ⟨⟨word, wrote⟩, words, wroteLater⟩
      exact ⟨word :: words, word, wrote, words, wroteLater, rfl⟩

end Grouping
