/-
This file is about nodes that know their parent.

The chain of a node lists it and what is above it up to a root, so a node has a chain
exactly when following parents from it ends. A node with a chain is not below itself
(`Chain.not_below`), and a chain is found by climbing no further than there are nodes
(`climb_eq_some`). A node may be moved under any node that is not below it without a chain
being lost (`Rooted.move`).

In a forest an amount at a node is counted once on each level above it: the sum of the
subtree of a node is its own amount and the sums of its children (`subtreeSum_eq`), and the
sums of the roots are all amounts (`sum_roots`).
-/

import Mathlib.Algebra.BigOperators.Group.Finset.Sigma
import Mathlib.Logic.Relation

namespace Forests

variable {Node : Type*} {parent : Node → Option Node} {node up low high : Node}
  {chain other : List Node}

/-! ### Chains -/

/-- Parents lead from one node to the other, which may be the same. -/
def Below (parent : Node → Option Node) : Node → Node → Prop :=
  Relation.ReflTransGen fun child up => parent child = some up

/-- A node, its parent, and so on up to a root. -/
inductive Chain (parent : Node → Option Node) : Node → List Node → Prop
  | root {node : Node} (top : parent node = none) : Chain parent node [node]
  | child {node up : Node} {rest : List Node} (link : parent node = some up)
      (above : Chain parent up rest) : Chain parent node (node :: rest)

/-- Following parents from a node ends at a root. -/
def Rooted (parent : Node → Option Node) (node : Node) : Prop := ∃ chain, Chain parent node chain

theorem Rooted.root (top : parent node = none) : Rooted parent node := ⟨_, .root top⟩

theorem Rooted.child (link : parent node = some up) (above : Rooted parent up) :
    Rooted parent node := by
  obtain ⟨rest, above⟩ := above
  exact ⟨_, .child link above⟩

theorem Chain.unique (first : Chain parent node chain) (second : Chain parent node other) :
    chain = other := by
  induction first generalizing other with
  | root top =>
    cases second with
    | root => rfl
    | child link => cases top.symm.trans link
  | child link above inductionHypothesis =>
    cases second with
    | root top => cases top.symm.trans link
    | child linkToo aboveToo =>
      obtain rfl := Option.some.inj (link.symm.trans linkToo)
      rw [inductionHypothesis aboveToo]

/-- The nodes of a chain are those that its node is below. -/
theorem Chain.mem_iff (chained : Chain parent node chain) :
    high ∈ chain ↔ Below parent node high := by
  induction chained with
  | root top =>
    rw [List.mem_singleton]
    constructor
    · rintro rfl
      exact .refl
    · intro below
      rcases below.cases_head with same | ⟨up, link, -⟩
      · exact same.symm
      · cases top.symm.trans link
  | child link above inductionHypothesis =>
    rw [List.mem_cons, inductionHypothesis]
    constructor
    · rintro (rfl | below)
      · exact .refl
      · exact .head link below
    · intro below
      rcases below.cases_head with same | ⟨up, linkToo, below⟩
      · exact .inl same.symm
      · obtain rfl := Option.some.inj (link.symm.trans linkToo)
        exact .inr below

theorem Rooted.of_below (below : Below parent low high) (rooted : Rooted parent low) :
    Rooted parent high := by
  induction below using Relation.ReflTransGen.head_induction_on with
  | refl => exact rooted
  | head link below inductionHypothesis =>
    obtain ⟨chain, chained⟩ := rooted
    cases chained with
    | root top => cases top.symm.trans link
    | child linkToo above =>
      obtain rfl := Option.some.inj (link.symm.trans linkToo)
      exact inductionHypothesis ⟨_, above⟩

theorem Rooted.exists_root (rooted : Rooted parent node) :
    ∃ root, parent root = none ∧ Below parent node root := by
  obtain ⟨chain, chained⟩ := rooted
  induction chained with
  | root top => exact ⟨_, top, .refl⟩
  | child link above inductionHypothesis =>
    obtain ⟨root, top, below⟩ := inductionHypothesis
    exact ⟨root, top, .head link below⟩

theorem Rooted.not_below (rooted : Rooted parent node) (link : parent node = some up) :
    ¬ Below parent up node := by
  obtain ⟨chain, chained⟩ := rooted
  induction chained generalizing up with
  | root top => cases top.symm.trans link
  | child linkToo above inductionHypothesis =>
    obtain rfl := Option.some.inj (link.symm.trans linkToo)
    intro below
    rcases below.cases_head with same | ⟨next, nextLink, below⟩
    · subst same
      exact inductionHypothesis link .refl
    · exact inductionHypothesis nextLink (below.tail link)

theorem Chain.nodup (chained : Chain parent node chain) : chain.Nodup := by
  induction chained with
  | root => exact List.nodup_singleton _
  | child link above inductionHypothesis =>
    refine List.nodup_cons.mpr ⟨fun member => ?_, inductionHypothesis⟩
    exact Rooted.not_below ⟨_, .child link above⟩ link (above.mem_iff.mp member)

/-! ### Climbing -/

/-- Climb to a root within a number of steps. -/
def climb (parent : Node → Option Node) : ℕ → Node → Option (List Node)
  | 0, _ => none
  | steps + 1, node =>
    match parent node with
    | none => some [node]
    | some up => (climb parent steps up).map (node :: ·)

theorem climb_eq_some {steps : ℕ} :
    climb parent steps node = some chain ↔ Chain parent node chain ∧ chain.length ≤ steps := by
  induction steps generalizing node chain with
  | zero =>
    refine iff_of_false (fun same => by cases same) ?_
    rintro ⟨chained, short⟩
    cases chained <;> cases short
  | succ steps inductionHypothesis =>
    rw [climb]
    cases top : parent node with
    | none =>
      constructor
      · intro same
        obtain rfl := Option.some.inj same
        exact ⟨.root top, Nat.le_add_left 1 steps⟩
      · rintro ⟨chained, -⟩
        rw [chained.unique (.root top)]
    | some up =>
      dsimp only
      rw [Option.map_eq_some_iff]
      constructor
      · rintro ⟨rest, climbed, rfl⟩
        obtain ⟨above, short⟩ := inductionHypothesis.mp climbed
        exact ⟨.child top above, Nat.succ_le_succ short⟩
      · rintro ⟨chained, short⟩
        cases chained with
        | root none => cases top.symm.trans none
        | child link above =>
          obtain rfl := Option.some.inj (top.symm.trans link)
          exact ⟨_, inductionHypothesis.mpr ⟨above, Nat.le_of_succ_le_succ short⟩, rfl⟩

/-! ### Moving a node -/

/-- A node is moved under another that is not below it, or made a root: every chain stays one. -/
theorem Rooted.move {moved : Node → Option Node} {moving : Node}
    (others : ∀ node, node ≠ moving → moved node = parent node)
    (target : ∀ up, moved moving = some up → Rooted parent up ∧ ¬ Below parent up moving)
    (rooted : Rooted parent node) : Rooted moved node := by
  have apart {node : Node} (rooted : Rooted parent node) (outside : ¬ Below parent node moving) :
      Rooted moved node := by
    obtain ⟨chain, chained⟩ := rooted
    induction chained with
    | @root node top =>
      have other : node ≠ moving := fun same => outside (same ▸ .refl)
      exact .root ((others node other).trans top)
    | @child node up rest link above inductionHypothesis =>
      have other : node ≠ moving := fun same => outside (same ▸ .refl)
      exact .child ((others node other).trans link)
        (inductionHypothesis fun below => outside (.head link below))
  have movingRooted : Rooted moved moving := by
    cases link : moved moving with
    | none => exact .root link
    | some up => exact .child link (apart (target up link).1 (target up link).2)
  obtain ⟨chain, chained⟩ := rooted
  induction chained with
  | @root node top =>
    by_cases same : node = moving
    · exact same ▸ movingRooted
    · exact .root ((others node same).trans top)
  | @child node up rest link above inductionHypothesis =>
    by_cases same : node = moving
    · exact same ▸ movingRooted
    · exact .child ((others node same).trans link) inductionHypothesis

/-! ### Sums over subtrees -/

section Sums

variable {M : Type*} [AddCommMonoid M] {nodes : Finset Node} {own : Node → M}

theorem eq_of_below {first second : Node} (rooted : Rooted parent low)
    (belowFirst : Below parent low first) (belowSecond : Below parent low second)
    (siblings : parent first = parent second) : first = second := by
  have onPath {first second : Node} (rooted : Rooted parent second)
      (siblings : parent first = parent second) (below : Below parent first second) :
      first = second := by
    rcases below.cases_head with same | ⟨up, link, below⟩
    · exact same
    · exact absurd below (rooted.not_below (siblings ▸ link))
  have linear := belowFirst.total_of_right_unique
    (fun _ _ _ one two => Option.some.inj (one.symm.trans two)) belowSecond
  rcases linear with below | below
  · exact onPath (rooted.of_below belowSecond) siblings below
  · exact (onPath (rooted.of_below belowFirst) siblings.symm below).symm

theorem mem_of_below (closed : ∀ node ∈ nodes, ∀ up, parent node = some up → up ∈ nodes)
    (below : Below parent low high) (member : low ∈ nodes) : high ∈ nodes := by
  induction below with
  | refl => exact member
  | tail below link inductionHypothesis => exact closed _ inductionHypothesis _ link

open Classical in
/-- The sum of a node and of what is below it. -/
noncomputable def subtreeSum (parent : Node → Option Node) (nodes : Finset Node) (own : Node → M)
    (high : Node) : M := ∑ low ∈ nodes with Below parent low high, own low

variable [DecidableEq Node]

/-- The nodes with one parent, or the roots. -/
def level (parent : Node → Option Node) (nodes : Finset Node) (up : Option Node) : Finset Node :=
  nodes.filter fun node => parent node = up

open Classical in
theorem sum_level (rooted : ∀ node ∈ nodes, Rooted parent node) (up : Option Node) :
    ∑ node ∈ level parent nodes up, subtreeSum parent nodes own node =
      ∑ low ∈ nodes with ∃ node ∈ level parent nodes up, Below parent low node, own low := by
  simp only [subtreeSum, Finset.sum_filter]
  rw [Finset.sum_comm]
  refine Finset.sum_congr rfl fun low member => ?_
  split_ifs with covered
  · obtain ⟨node, onLevel, below⟩ := covered
    rw [Finset.sum_eq_single_of_mem node onLevel, if_pos below]
    intro other otherOn different
    refine if_neg fun otherBelow => different ?_
    have siblings := (Finset.mem_filter.mp otherOn).2.trans (Finset.mem_filter.mp onLevel).2.symm
    exact eq_of_below (rooted low member) otherBelow below siblings
  · exact Finset.sum_eq_zero fun node onLevel => if_neg fun below => covered ⟨node, onLevel, below⟩

theorem subtreeSum_eq (rooted : ∀ node ∈ nodes, Rooted parent node)
    (closed : ∀ node ∈ nodes, ∀ up, parent node = some up → up ∈ nodes) (member : node ∈ nodes) :
    subtreeSum parent nodes own node =
      own node + ∑ child ∈ level parent nodes (some node), subtreeSum parent nodes own child := by
  classical
  rw [sum_level rooted, subtreeSum]
  have apart : node ∉ nodes.filter fun low =>
      ∃ child ∈ level parent nodes (some node), Below parent low child := by
    rintro inside
    obtain ⟨-, child, onLevel, below⟩ := Finset.mem_filter.mp inside
    obtain ⟨childIn, link⟩ := Finset.mem_filter.mp onLevel
    exact (rooted child childIn).not_below link below
  rw [← Finset.sum_insert apart]
  refine Finset.sum_congr (Finset.ext fun low => ?_) fun _ _ => rfl
  rw [Finset.mem_filter, Finset.mem_insert, Finset.mem_filter]
  constructor
  · rintro ⟨lowIn, below⟩
    rcases below.cases_tail with same | ⟨child, below, link⟩
    · exact .inl same.symm
    · refine .inr ⟨lowIn, child, Finset.mem_filter.mpr ⟨?_, link⟩, below⟩
      exact mem_of_below closed below lowIn
  · rintro (rfl | ⟨lowIn, child, onLevel, below⟩)
    · exact ⟨member, .refl⟩
    · exact ⟨lowIn, below.tail (Finset.mem_filter.mp onLevel).2⟩

theorem sum_roots (rooted : ∀ node ∈ nodes, Rooted parent node)
    (closed : ∀ node ∈ nodes, ∀ up, parent node = some up → up ∈ nodes) :
    ∑ root ∈ level parent nodes none, subtreeSum parent nodes own root =
      ∑ node ∈ nodes, own node := by
  classical
  rw [sum_level rooted, Finset.filter_true_of_mem]
  intro low member
  obtain ⟨root, top, below⟩ := (rooted low member).exists_root
  exact ⟨root, Finset.mem_filter.mpr ⟨mem_of_below closed below member, top⟩, below⟩

end Sums

end Forests
