/-
This file is about keeping the first item of every key of a sequence.

Where items of one key are one item, everything that is received is kept, and once.
-/

import Mathlib.Data.List.Nodup

namespace FirstSeen

variable {Item Key : Type} [DecidableEq Key] {key : Item → Key} {kept received : List Item}
  {item : Item}

variable (key) in
/-- Keep an item unless one of its key is kept. -/
def keep (kept : List Item) (item : Item) : List Item :=
  if key item ∈ kept.map key then kept else kept ++ [item]

theorem nodup_keep (distinct : (kept.map key).Nodup) (item : Item) :
    ((keep key kept item).map key).Nodup := by
  unfold keep
  split_ifs with seen
  · exact distinct
  · rw [List.map_append, List.map_singleton]
    refine List.nodup_append.mpr ⟨distinct, List.nodup_singleton _, ?_⟩
    rintro held member other single rfl
    exact seen (List.mem_singleton.mp single ▸ member)

theorem nodup_foldl_keep (distinct : (kept.map key).Nodup) (received : List Item) :
    ((received.foldl (keep key) kept).map key).Nodup := by
  induction received generalizing kept with
  | nil => exact distinct
  | cons first rest inductionHypothesis => exact inductionHypothesis (nodup_keep distinct first)

theorem nodup_kept (received : List Item) : ((received.foldl (keep key) []).map key).Nodup :=
  @nodup_foldl_keep Item Key _ key [] List.nodup_nil received

theorem mem_keep {first : Item}
    (single : ∀ other ∈ kept, key other = key first → other = first) :
    item ∈ keep key kept first ↔ item ∈ kept ∨ item = first := by
  unfold keep
  split_ifs with seen
  · obtain ⟨same, member, equal⟩ := List.mem_map.mp seen
    obtain rfl := single same member equal
    refine ⟨.inl, ?_⟩
    rintro (held | rfl)
    · exact held
    · exact member
  · rw [List.mem_append, List.mem_singleton]

theorem mem_of_mem_keep_append {first : Item} {rest : List Item}
    (member : item ∈ keep key kept first ++ rest) : item ∈ kept ++ first :: rest := by
  unfold keep at member
  split_ifs at member
  · rcases List.mem_append.mp member with held | later
    · exact List.mem_append_left _ held
    · exact List.mem_append_right _ (List.mem_cons_of_mem _ later)
  · rwa [List.append_assoc] at member

theorem mem_foldl_keep
    (single : ∀ first ∈ kept ++ received, ∀ second ∈ kept ++ received,
      key first = key second → first = second) :
    item ∈ received.foldl (keep key) kept ↔ item ∈ kept ∨ item ∈ received := by
  induction received generalizing kept with
  | nil =>
    show item ∈ kept ↔ _
    simp only [List.not_mem_nil, or_false]
  | cons first rest inductionHypothesis =>
    have firstIn : first ∈ kept ++ first :: rest := List.mem_append_right _ List.mem_cons_self
    have among : item ∈ keep key kept first ↔ item ∈ kept ∨ item = first :=
      mem_keep fun other member same =>
        single other (List.mem_append_left _ member) first firstIn same
    rw [List.foldl_cons, inductionHypothesis fun one oneIn other otherIn =>
      single one (mem_of_mem_keep_append oneIn) other (mem_of_mem_keep_append otherIn), among,
      List.mem_cons, or_assoc]

end FirstSeen
