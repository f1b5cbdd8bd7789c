/-
This file is a small theory of claims that are settled by the nearest free place.

Places lie on a line. Claims are gone through in their order, and each takes the nearest
place that is still free, the earlier of two that are equally near, as long as it is within
reach. What is taken depends on the order. A place is forced where the claims between some
claim within reach and the place are more than the free places that this claim would take
before it: then it is taken in every order, and else there is an order that spares it. So
all orders take the same places, and as many as can be taken at all, just if no assignment
of claims to free places within reach has more places than are forced.
-/

import Mathlib.Data.Finset.Card
import Mathlib.Data.List.Sort
import Mathlib.Data.List.Perm.Subperm
import Mathlib.Data.Int.Order.Basic

namespace NearestPlaces

variable {Place : Type} [DecidableEq Place] (pos : Place → ℤ) (reach : ℕ)

/-! ### Settling -/

/-- How far two places are apart. -/
def distance (first second : Place) : ℕ := (pos first - pos second).natAbs

/-- A claim takes the first of two places rather than the second. -/
def Nearer (claim first second : Place) : Prop :=
  distance pos first claim < distance pos second claim ∨
    distance pos first claim = distance pos second claim ∧ pos first < pos second

instance decidableNearer (claim first second : Place) : Decidable (Nearer pos claim first second) :=
  inferInstanceAs (Decidable (_ ∨ _))

/-- What stays free when claims are settled in their order. -/
inductive Settles : Finset Place → List Place → Finset Place → Prop
  | done (free : Finset Place) : Settles free [] free
  | passed {free final : Finset Place} {claim : Place} {rest : List Place}
      (away : ∀ place ∈ free, reach < distance pos place claim)
      (later : Settles free rest final) : Settles free (claim :: rest) final
  | taken {free final : Finset Place} {claim best : Place} {rest : List Place}
      (member : best ∈ free) (near : distance pos best claim ≤ reach)
      (nearest : ∀ place ∈ free, ¬ Nearer pos claim place best)
      (later : Settles (free.erase best) rest final) : Settles free (claim :: rest) final

/-- Claims that are given places of their own, free and within reach. -/
structure Assigned (free : Finset Place) (claims : List Place) (pairs : List (Place × Place)) :
    Prop where
  claims : (pairs.map Prod.fst).Subperm claims
  distinct : (pairs.map Prod.snd).Nodup
  fits : ∀ pair ∈ pairs, pair.2 ∈ free ∧ distance pos pair.2 pair.1 ≤ reach

variable {pos reach} {free final : Finset Place} {claims : List Place}

theorem Settles.subset (settles : Settles pos reach free claims final) : final ⊆ free := by
  induction settles with
  | done free => exact Finset.Subset.refl free
  | passed away later inductionHypothesis => exact inductionHypothesis
  | taken member near nearest later inductionHypothesis =>
    exact inductionHypothesis.trans (Finset.erase_subset _ _)

theorem Settles.exists_assigned (settles : Settles pos reach free claims final) :
    ∃ pairs, Assigned pos reach free claims pairs ∧
      ∀ place, place ∈ pairs.map Prod.snd ↔ place ∈ free \ final := by
  induction settles with
  | done free =>
    refine ⟨[], ⟨List.nil_subperm, List.nodup_nil, fun pair member => ?_⟩, fun place => ?_⟩
    · cases member
    rw [Finset.sdiff_self]
    exact iff_of_false List.not_mem_nil (Finset.notMem_empty place)
  | passed away later inductionHypothesis =>
    obtain ⟨pairs, assigned, taken⟩ := inductionHypothesis
    exact ⟨pairs, ⟨assigned.claims.trans (List.sublist_cons_self _ _).subperm, assigned.distinct,
      assigned.fits⟩, taken⟩
  | @taken free final claim best rest member near nearest later inductionHypothesis =>
    obtain ⟨pairs, assigned, taken⟩ := inductionHypothesis
    refine ⟨(claim, best) :: pairs, ⟨(List.subperm_cons claim).mpr assigned.claims, ?_, ?_⟩,
      fun place => ?_⟩
    · refine List.nodup_cons.mpr ⟨fun again => ?_, assigned.distinct⟩
      have later := (Finset.mem_sdiff.mp ((taken best).mp again)).1
      exact absurd rfl (Finset.mem_erase.mp later).1
    · intro pair pairIn
      rcases List.mem_cons.mp pairIn with rfl | behind
      · exact ⟨member, near⟩
      · exact ⟨Finset.mem_of_mem_erase (assigned.fits pair behind).1, (assigned.fits pair behind).2⟩
    · have kept : best ∉ final := fun left =>
        absurd rfl (Finset.mem_erase.mp (later.subset left)).1
      rw [List.map_cons, List.mem_cons, taken, Finset.mem_sdiff, Finset.mem_sdiff, Finset.mem_erase]
      constructor
      · rintro (rfl | ⟨⟨-, placeIn⟩, gone⟩)
        · exact ⟨member, kept⟩
        · exact ⟨placeIn, gone⟩
      · rintro ⟨placeIn, gone⟩
        by_cases same : place = best
        · exact .inl same
        · exact .inr ⟨⟨same, placeIn⟩, gone⟩

/-! ### Forced places -/

variable (pos) in
/-- A place lies from one place to another. -/
def Between (claim other place : Place) : Prop :=
  pos claim ≤ pos other ∧ pos other ≤ pos place ∨ pos place ≤ pos other ∧ pos other ≤ pos claim

instance decidableBetween (claim other place : Place) : Decidable (Between pos claim other place) :=
  inferInstanceAs (Decidable (_ ∨ _))

variable (pos) in
/-- The free places that a claim takes rather than a place. -/
def preferred (free : Finset Place) (claim place : Place) : Finset Place :=
  free.filter fun other => Nearer pos claim other place

variable (pos) in
/-- How many claims lie from one place to another. -/
def between (claims : List Place) (claim place : Place) : ℕ :=
  claims.countP fun other => Between pos claim other place

variable (pos reach) in
/-- The claims from a claim within reach to the place are more than the free places that the claim
takes rather than it. -/
def Forced (free : Finset Place) (claims : List Place) (place : Place) : Prop :=
  ∃ claim ∈ claims, distance pos place claim ≤ reach ∧
    (preferred pos free claim place).card < between pos claims claim place

instance decidableForced (free : Finset Place) (claims : List Place) :
    DecidablePred (Forced pos reach free claims) := fun _ =>
  inferInstanceAs (Decidable (∃ claim ∈ claims, _))

omit [DecidableEq Place] in
theorem between_perm {order : List Place} (perm : order.Perm claims) (claim place : Place) :
    between pos order claim place = between pos claims claim place := perm.countP_eq _

omit [DecidableEq Place] in
theorem forced_perm {order : List Place} (perm : order.Perm claims) {place : Place} :
    Forced pos reach free order place ↔ Forced pos reach free claims place := by
  unfold Forced
  simp only [perm.mem_iff, between_perm perm]

omit [DecidableEq Place] in
theorem between_cons_of {other claim place : Place} {rest : List Place}
    (inside : Between pos claim other place) :
    between pos (other :: rest) claim place = between pos rest claim place + 1 :=
  List.countP_cons_of_pos (decide_eq_true inside)

omit [DecidableEq Place] in
theorem between_cons_of_not {other claim place : Place} {rest : List Place}
    (outside : ¬ Between pos claim other place) :
    between pos (other :: rest) claim place = between pos rest claim place :=
  List.countP_cons_of_neg (by rwa [decide_eq_true_eq])

omit [DecidableEq Place] in
theorem between_le_cons {other claim place : Place} {rest : List Place} :
    between pos rest claim place ≤ between pos (other :: rest) claim place :=
  (List.sublist_cons_self other rest).countP_le

theorem preferred_erase (free : Finset Place) (best claim place : Place) :
    preferred pos (free.erase best) claim place = (preferred pos free claim place).erase best :=
  Finset.filter_erase _ _ _

theorem Settles.between_le (injective : Function.Injective pos)
    (settles : Settles pos reach free claims final) {claim place : Place} (spared : place ∈ final)
    (near : distance pos place claim ≤ reach) :
    between pos claims claim place ≤ (preferred pos free claim place).card := by
  unfold distance at near
  induction settles with
  | done free => exact Nat.zero_le _
  | @passed free final other rest away later inductionHypothesis =>
    have reached := away place (later.subset spared)
    unfold distance at reached
    rw [between_cons_of_not (by unfold Between; omega)]
    exact inductionHypothesis spared
  | @taken free final other best rest member close nearest later inductionHypothesis =>
    obtain ⟨apart, placeIn⟩ := Finset.mem_erase.mp (later.subset spared)
    have left := inductionHypothesis spared
    rw [preferred_erase] at left
    by_cases inside : Between pos claim other place
    · have nearer := nearest place placeIn
      have elsewhere : pos best ≠ pos place := fun same => apart (injective same).symm
      have bestIn : best ∈ preferred pos free claim place := by
        refine Finset.mem_filter.mpr ⟨member, ?_⟩
        unfold Nearer distance at nearer ⊢
        unfold Between at inside
        omega
      have positive := Finset.card_pos.mpr ⟨best, bestIn⟩
      rw [Finset.card_erase_of_mem bestIn] at left
      rw [between_cons_of inside]
      omega
    · rw [between_cons_of_not inside]
      exact left.trans (Finset.card_le_card (Finset.erase_subset _ _))

theorem Settles.not_mem_of_forced (injective : Function.Injective pos)
    (settles : Settles pos reach free claims final) {place : Place}
    (forced : Forced pos reach free claims place) : place ∉ final := by
  intro spared
  obtain ⟨claim, -, near, few⟩ := forced
  exact absurd (settles.between_le injective spared near) (not_le.mpr few)

omit [DecidableEq Place] in
theorem forced_cons {claim place : Place} {rest : List Place}
    (forced : Forced pos reach free rest place) : Forced pos reach free (claim :: rest) place := by
  obtain ⟨other, member, near, few⟩ := forced
  exact ⟨other, List.mem_cons_of_mem _ member, near, few.trans_le between_le_cons⟩

/-- When the claim nearest to a place that is not forced takes a place, it is another, and the
place is not forced by the claims that are left. -/
theorem not_forced_erase {other best place : Place} {rest : List Place} (member : best ∈ free)
    (near : distance pos best other ≤ reach)
    (nearest : ∀ place ∈ free, ¬ Nearer pos other place best)
    (nearestFirst : ∀ claim ∈ rest, distance pos place other ≤ distance pos place claim)
    (spared : ¬ Forced pos reach free (other :: rest) place) :
    best ≠ place ∧ ¬ Forced pos reach (free.erase best) rest place := by
  unfold distance at nearestFirst
  have enough (claim : Place) (claimIn : claim ∈ other :: rest)
      (close : distance pos place claim ≤ reach) :
      between pos (other :: rest) claim place ≤ (preferred pos free claim place).card :=
    not_lt.mp fun few => spared ⟨claim, claimIn, close, few⟩
  by_cases reached : distance pos place other ≤ reach
  · -- The claim has a free place that it takes rather than this one, and takes such a place.
    have nearer : Nearer pos other best place := by
      have room := enough other List.mem_cons_self reached
      have here : Between pos other other place := by
        unfold Between
        omega
      rw [between_cons_of here] at room
      obtain ⟨found, foundIn⟩ := Finset.card_pos.mp (Nat.lt_of_lt_of_le (Nat.succ_pos _) room)
      obtain ⟨foundFree, foundNearer⟩ := Finset.mem_filter.mp foundIn
      have notBefore := nearest found foundFree
      unfold Nearer at foundNearer notBefore ⊢
      omega
    refine ⟨?_, ?_⟩
    · rintro rfl
      unfold Nearer at nearer
      omega
    · rintro ⟨claim, claimIn, close, few⟩
      have further := nearestFirst claim claimIn
      have kept := enough claim (List.mem_cons_of_mem _ claimIn) close
      unfold Nearer distance at nearer
      rw [preferred_erase] at few
      by_cases inside : Between pos claim other place
      · have bestIn : best ∈ preferred pos free claim place := by
          refine Finset.mem_filter.mpr ⟨member, ?_⟩
          unfold Between at inside
          unfold Nearer distance
          omega
        rw [Finset.card_erase_of_mem bestIn] at few
        rw [between_cons_of inside] at kept
        omega
      · -- Here the claim lies on the other side of the place.
        have bestOut : best ∉ preferred pos free claim place := by
          intro bestIn
          have taken := (Finset.mem_filter.mp bestIn).2
          unfold Between at inside
          unfold Nearer distance at taken
          omega
        rw [Finset.erase_eq_of_notMem bestOut] at few
        rw [between_cons_of_not inside] at kept
        exact absurd kept (not_le.mpr few)
  · refine ⟨?_, ?_⟩
    · rintro rfl
      exact reached near
    · rintro ⟨claim, claimIn, close, -⟩
      exact reached ((nearestFirst claim claimIn).trans close)

theorem Settles.mem_of_not_forced (settles : Settles pos reach free claims final) {place : Place}
    (placeIn : place ∈ free)
    (nearestFirst : claims.Pairwise fun first second =>
      distance pos place first ≤ distance pos place second)
    (spared : ¬ Forced pos reach free claims place) : place ∈ final := by
  induction settles with
  | done free => exact placeIn
  | passed away later inductionHypothesis =>
    exact inductionHypothesis placeIn (List.pairwise_cons.mp nearestFirst).2
      (mt forced_cons spared)
  | taken member near nearest later inductionHypothesis =>
    obtain ⟨first, others⟩ := List.pairwise_cons.mp nearestFirst
    obtain ⟨apart, left⟩ := not_forced_erase member near nearest first spared
    exact inductionHypothesis (Finset.mem_erase.mpr ⟨apart.symm, placeIn⟩) others left

/-! ### When the order does not matter -/

variable {run : List Place → Finset Place}

variable (pos) in
omit [DecidableEq Place] in
theorem exists_nearestFirst (claims : List Place) (place : Place) :
    ∃ order : List Place, order.Perm claims ∧ order.Pairwise fun first second =>
      distance pos place first ≤ distance pos place second := by
  refine ⟨claims.insertionSort fun first second =>
    distance pos place first ≤ distance pos place second, List.perm_insertionSort _ _, ?_⟩
  have total : Std.Total fun first second : Place =>
      distance pos place first ≤ distance pos place second := ⟨fun _ _ => le_total _ _⟩
  have transitive : IsTrans Place fun first second =>
      distance pos place first ≤ distance pos place second := ⟨fun _ _ _ => le_trans⟩
  exact List.pairwise_insertionSort _ _

theorem length_of_assigned {pairs : List (Place × Place)}
    (assigned : Assigned pos reach free claims pairs) {taken : Finset Place}
    (exactly : ∀ place, place ∈ pairs.map Prod.snd ↔ place ∈ taken) :
    pairs.length = taken.card := by
  have same : (pairs.map Prod.snd).toFinset = taken :=
    Finset.ext fun place => by rw [List.mem_toFinset, exactly]
  rw [← same, List.toFinset_card_of_nodup assigned.distinct, List.length_map]

theorem alike_and_largest_iff (injective : Function.Injective pos)
    (settles : ∀ order, order.Perm claims → Settles pos reach free order (run order)) :
    (∀ order, order.Perm claims → run order = run claims ∧
        ∀ pairs, Assigned pos reach free claims pairs → pairs.length ≤ (free \ run order).card) ↔
      ∀ pairs, Assigned pos reach free claims pairs →
        pairs.length ≤ (free.filter (Forced pos reach free claims)).card := by
  constructor
  · intro alike pairs assigned
    refine ((alike claims (List.Perm.refl _)).2 pairs assigned).trans (Finset.card_le_card ?_)
    intro place taken
    obtain ⟨placeIn, gone⟩ := Finset.mem_sdiff.mp taken
    refine Finset.mem_filter.mpr ⟨placeIn, ?_⟩
    by_contra spared
    obtain ⟨order, perm, nearestFirst⟩ := exists_nearestFirst pos claims place
    refine gone ?_
    rw [← (alike order perm).1]
    exact (settles order perm).mem_of_not_forced placeIn nearestFirst
      (mt (forced_perm perm).mp spared)
  · intro few
    have exactly (order : List Place) (perm : order.Perm claims) :
        free.filter (Forced pos reach free claims) = free \ run order := by
      obtain ⟨pairs, assigned, taken⟩ := (settles order perm).exists_assigned
      refine Finset.eq_of_subset_of_card_le (fun place forced => ?_) ?_
      · obtain ⟨placeIn, forced⟩ := Finset.mem_filter.mp forced
        exact Finset.mem_sdiff.mpr ⟨placeIn,
          (settles order perm).not_mem_of_forced injective ((forced_perm perm).mpr forced)⟩
      · rw [← length_of_assigned assigned taken]
        exact few pairs ⟨assigned.claims.trans perm.subperm, assigned.distinct, assigned.fits⟩
    intro order perm
    refine ⟨?_, fun pairs assigned => exactly order perm ▸ few pairs assigned⟩
    have same := (exactly order perm).symm.trans (exactly claims (List.Perm.refl _))
    rw [← Finset.sdiff_sdiff_eq_self (settles order perm).subset, same,
      Finset.sdiff_sdiff_eq_self (settles claims (List.Perm.refl _)).subset]

end NearestPlaces
