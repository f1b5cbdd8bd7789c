/-
This file is a small theory of matchings that are made greedily.

Edges with two ends are gone through in their order, and each is taken unless an edge
that has been taken shares an end with it. What is taken is a matching, and every edge
that is not taken shares an end with an edge that stands before it; so where the edges
come in the order of a rank, no edge ranks before everything that it shares an end with.
What is taken depends on nothing but which edges share an end.
-/

import Mathlib.Data.List.Induction
import Mathlib.Data.List.Pairwise
import Mathlib.Order.Basic

namespace GreedyMatching

variable {Edge Left Right Key : Type} [DecidableEq Left] [DecidableEq Right]
  (left : Edge → Left) (right : Edge → Right)
variable {edges : List Edge}

/-- Two edges share an end. -/
def Meets (first second : Edge) : Prop := left first = left second ∨ right first = right second

instance decidableMeets (first second : Edge) : Decidable (Meets left right first second) :=
  inferInstanceAs (Decidable (_ ∨ _))

/-- Take an edge, unless it shares an end with one that is taken. -/
def take (taken : List Edge) (edge : Edge) : List Edge :=
  if ∃ other ∈ taken, Meets left right other edge then taken else taken ++ [edge]

/-- The edges that are taken of a list. -/
def greedy (edges : List Edge) : List Edge := edges.foldl (take left right) []

@[simp] theorem greedy_nil : greedy left right ([] : List Edge) = [] := rfl

@[simp] theorem greedy_concat (edges : List Edge) (last : Edge) :
    greedy left right (edges ++ [last]) = take left right (greedy left right edges) last := by
  unfold greedy
  rw [List.foldl_append]
  rfl

theorem mem_of_mem_greedy {edge : Edge} (member : edge ∈ greedy left right edges) :
    edge ∈ edges := by
  induction edges using List.reverseRecOn with
  | nil => exact member
  | append_singleton edges last inductionHypothesis =>
    rw [greedy_concat] at member
    unfold take at member
    split_ifs at member with met
    · exact List.mem_append_left _ (inductionHypothesis member)
    · rcases List.mem_append.mp member with earlier | single
      · exact List.mem_append_left _ (inductionHypothesis earlier)
      · exact List.mem_append_right _ single

theorem greedy_apart (edges : List Edge) :
    (greedy left right edges).Pairwise fun first second => ¬ Meets left right first second := by
  induction edges using List.reverseRecOn with
  | nil => exact .nil
  | append_singleton edges last inductionHypothesis =>
    rw [greedy_concat]
    unfold take
    split_ifs with met
    · exact inductionHypothesis
    · refine List.pairwise_append.mpr ⟨inductionHypothesis, List.pairwise_singleton _ _, ?_⟩
      intro first member second single
      rw [List.mem_singleton.mp single]
      exact fun meets => met ⟨first, member, meets⟩

theorem eq_of_meets {first second : Edge} (firstIn : first ∈ greedy left right edges)
    (secondIn : second ∈ greedy left right edges) (meets : Meets left right first second) :
    first = second := by
  by_contra different
  have symmetric : Std.Symm fun first second => ¬ Meets left right first second :=
    ⟨fun _ _ apart meets => apart (meets.imp Eq.symm Eq.symm)⟩
  exact (greedy_apart left right edges).forall firstIn secondIn different meets

theorem exists_meets_greedy [Preorder Key] {key : Edge → Key}
    (ascending : edges.Pairwise fun first second => key first ≤ key second) {edge : Edge}
    (member : edge ∈ edges) :
    ∃ other ∈ greedy left right edges, Meets left right other edge ∧ key other ≤ key edge := by
  induction edges using List.reverseRecOn with
  | nil => cases member
  | append_singleton edges last inductionHypothesis =>
    obtain ⟨before, -, above⟩ := List.pairwise_append.mp ascending
    rw [greedy_concat]
    unfold take
    rcases List.mem_append.mp member with earlier | single
    · obtain ⟨other, taken, meets, below⟩ := inductionHypothesis before earlier
      split_ifs with met
      · exact ⟨other, taken, meets, below⟩
      · exact ⟨other, List.mem_append_left _ taken, meets, below⟩
    · obtain rfl := List.mem_singleton.mp single
      split_ifs with met
      · obtain ⟨other, taken, meets⟩ := met
        exact ⟨other, taken, meets, above other (mem_of_mem_greedy left right taken) edge single⟩
      · exact ⟨edge, List.mem_append_right _ single, .inl rfl, le_rfl⟩

theorem greedy_map {Image Left' Right' : Type} [DecidableEq Left'] [DecidableEq Right']
    {left' : Image → Left'} {right' : Image → Right'} {view : Edge → Image}
    (alike : ∀ first ∈ edges, ∀ second ∈ edges,
      Meets left' right' (view first) (view second) ↔ Meets left right first second) :
    greedy left' right' (edges.map view) = (greedy left right edges).map view := by
  induction edges using List.reverseRecOn with
  | nil => rfl
  | append_singleton edges last inductionHypothesis =>
    have earlier := inductionHypothesis fun first firstIn second secondIn =>
      alike first (List.mem_append_left _ firstIn) second (List.mem_append_left _ secondIn)
    have met : (∃ other ∈ (greedy left right edges).map view, Meets left' right' other (view last)) ↔
        ∃ other ∈ greedy left right edges, Meets left right other last := by
      simp only [List.mem_map, exists_exists_and_eq_and]
      refine exists_congr fun other => and_congr_right fun taken => ?_
      exact alike other (List.mem_append_left _ (mem_of_mem_greedy left right taken)) last
        (List.mem_append_right _ (List.mem_singleton_self last))
    rw [List.map_append, List.map_singleton, greedy_concat, greedy_concat, earlier]
    unfold take
    simp only [met]
    split_ifs
    · rfl
    · rw [List.map_append, List.map_singleton]

end GreedyMatching
