/-
This file proves that drilling into a category loses nothing.

The roll-up gives every category the sum of its subtree, in whatever order the hash map yields
the categories, because each category adds its own spend once to each category of its
chain. A level is read off in a call of its own; two calls on the same tables agree, so the
total of a category is its own spend and the totals of the level below it.
-/

import Dohflow.DbWorker.SpendByCategory
import Dohflow.Foundation.ListSums
import Dohflow.Foundation.PrefixFree

namespace Dohflow.DbWorker

open SyncCore CoreLedger Fallible KeyedTable CanonicalOrder MachineIntegers Forests PrefixFree ListSums

namespace SpendTables

variable {libraries : SpendLibraries} {tables : SpendTables} {range : SpendRange}
  {nodes list : List SpendNode} {totals after : Totals}

/-! ### The categories with their own spend -/

/-- The own spend of a category, when it can be computed. -/
def ownOf (libraries : SpendLibraries) (tables : SpendTables) (range : SpendRange)
    (category : Category) : Int := (tables.ownSpend libraries range category).toOption.getD 0

def nodeOf (libraries : SpendLibraries) (tables : SpendTables) (range : SpendRange)
    (category : Category) : SpendNode :=
  ⟨category.id, category.name, category.parentId, ownOf libraries tables range category⟩

theorem nodes_eq_ok : tables.nodes libraries range = .ok nodes ↔
    (∀ category ∈ tables.taxonomy.rows, ∃ own, tables.ownSpend libraries range category = .ok own) ∧
      tables.taxonomy.rows.map (nodeOf libraries tables range) = nodes := by
  refine mapM_eq_ok_iff fun category node => ?_
  rw [bind_eq_ok]
  constructor
  · rintro ⟨own, computed, same⟩
    refine ⟨⟨own, computed⟩, ?_⟩
    rw [nodeOf, ownOf, computed]
    exact Except.ok.inj same
  · rintro ⟨⟨own, computed⟩, rfl⟩
    refine ⟨own, computed, ?_⟩
    rw [nodeOf, ownOf, computed]
    rfl

/-- The ids of all categories. -/
def categoryIds (taxonomy : Taxonomy) : Finset Uuid := (taxonomy.rows.map Category.id).toFinset

/-- The own spend by the id of the category. -/
def ownById (libraries : SpendLibraries) (tables : SpendTables) (range : SpendRange) (id : Uuid) :
    Int := (tables.taxonomy.find id).elim 0 (ownOf libraries tables range)

theorem ownById_of_mem {category : Category} (member : category ∈ tables.taxonomy.rows) :
    ownById libraries tables range category.id = ownOf libraries tables range category := by
  rw [ownById, Table.find_key member]
  rfl

theorem mem_categoryIds {taxonomy : Taxonomy} {id : Uuid} :
    id ∈ categoryIds taxonomy ↔ (taxonomy.find id).isSome := by
  rw [categoryIds, List.mem_toFinset, List.mem_map]
  constructor
  · rintro ⟨category, member, rfl⟩
    rw [Table.find_key member]
    rfl
  · intro present
    obtain ⟨category, found⟩ := Option.isSome_iff_exists.mp present
    exact ⟨category, Table.find_eq_some_iff.mp found⟩

theorem rooted_categoryIds {taxonomy : Taxonomy} (forest : taxonomy.IsForest) :
    ∀ id ∈ categoryIds taxonomy, Rooted taxonomy.parentOf id := fun id _ => forest.rooted_all id

theorem closed_categoryIds {taxonomy : Taxonomy} (forest : taxonomy.IsForest) :
    ∀ id ∈ categoryIds taxonomy, ∀ up, taxonomy.parentOf id = some up →
      up ∈ categoryIds taxonomy := by
  intro id _ up link
  obtain ⟨category, found, parent⟩ := Option.bind_eq_some_iff.mp link
  exact mem_categoryIds.mpr (forest.closed category (Table.find_eq_some_iff.mp found).1 up parent)

/-! ### The list of the hash map -/

/-- Some nodes are all categories, in the order of a hash map. -/
def Listed (libraries : SpendLibraries) (tables : SpendTables) (range : SpendRange)
    (list : List SpendNode) : Prop :=
  list.Perm (tables.taxonomy.rows.map (nodeOf libraries tables range))

theorem Listed.ids (listed : Listed libraries tables range list) :
    (list.map SpendNode.id).Perm (tables.taxonomy.rows.map Category.id) := by
  have mapped := listed.map SpendNode.id
  rwa [List.map_map] at mapped

theorem Listed.mem (listed : Listed libraries tables range list) {node : SpendNode} :
    node ∈ list ↔ ∃ category ∈ tables.taxonomy.rows,
      nodeOf libraries tables range category = node :=
  (List.Perm.mem_iff listed).trans List.mem_map

/-- The nodes as a table under their ids. -/
def Listed.table (listed : Listed libraries tables range list) : Table SpendNode.id :=
  ⟨list, listed.ids.nodup_iff.mpr tables.taxonomy.unique⟩

theorem Listed.find (listed : Listed libraries tables range list) (id : Uuid) :
    list.find? (fun node => node.id = id) =
      (tables.taxonomy.find id).map (nodeOf libraries tables range) := by
  show listed.table.find id = _
  cases found : tables.taxonomy.find id with
  | none =>
    refine Table.find_eq_none_iff.mpr fun node member => ?_
    obtain ⟨category, held, rfl⟩ := listed.mem.mp member
    exact Table.find_eq_none_iff.mp found category held
  | some category =>
    obtain ⟨held, rfl⟩ := Table.find_eq_some_iff.mp found
    exact Table.find_eq_some_iff.mpr ⟨listed.mem.mpr ⟨category, held, rfl⟩, rfl⟩

theorem Listed.parentIn (listed : Listed libraries tables range list) :
    parentIn list = tables.taxonomy.parentOf := by
  funext id
  rw [SpendTables.parentIn, listed.find, Taxonomy.parentOf]
  cases tables.taxonomy.find id with
  | none => rfl
  | some category => rfl

theorem Listed.sum_map (listed : Listed libraries tables range list) (selects : Uuid → Prop)
    [DecidablePred selects] (amount : Uuid → Int) :
    ((list.filter fun node => selects node.id).map fun node => amount node.id).sum =
      ∑ id ∈ categoryIds tables.taxonomy with selects id, amount id := by
  refine (sum_map_filter_nodup listed.table.unique selects amount).trans ?_
  rw [categoryIds]
  refine Finset.sum_congr (congrArg (Finset.filter selects) (Finset.ext fun id => ?_)) fun _ _ => rfl
  rw [List.mem_toFinset, List.mem_toFinset]
  exact listed.ids.mem_iff

/-! ### The roll-up -/

open Classical in
theorem totalOf_foldlM_rollUpNode (forest : tables.taxonomy.IsForest)
    (listed : Listed libraries tables range list) {part : List SpendNode}
    (inside : ∀ node ∈ part, node ∈ list)
    (rolled : part.foldlM (rollUpNode list) totals = .ok after) (id : Uuid) :
    totalOf after id = totalOf totals id +
      ((part.filter fun node => Below tables.taxonomy.parentOf node.id id).map SpendNode.own).sum := by
  rw [sum_map_filter]
  induction part generalizing totals with
  | nil =>
    obtain rfl := Except.ok.inj rolled
    simp
  | cons node rest inductionHypothesis =>
    rw [List.foldlM_cons] at rolled
    obtain ⟨middle, first, later⟩ := bind_eq_ok.mp rolled
    obtain ⟨category, held, rfl⟩ := listed.mem.mp (inside node List.mem_cons_self)
    obtain ⟨chain, chained⟩ := forest.rooted category held
    have found := listed.find category.id
    rw [Table.find_key held] at found
    have added := totalOf_rollUpNode (listed.parentIn ▸ chained) found first id
    rw [inductionHypothesis (fun other member => inside other (List.mem_cons_of_mem _ member)) later,
      added, List.map_cons, List.sum_cons, Int.add_assoc]
    simp only [chained.mem_iff]
    rfl

theorem totalOf_rollUp (forest : tables.taxonomy.IsForest)
    (listed : Listed libraries tables range list) (rolled : rollUp list = .ok totals) (id : Uuid) :
    totalOf totals id = subtreeSum tables.taxonomy.parentOf (categoryIds tables.taxonomy)
      (ownById libraries tables range) id := by
  classical
  rw [totalOf_foldlM_rollUpNode forest listed (fun _ member => member) rolled, subtreeSum,
    ← listed.sum_map]
  show 0 + _ = _
  rw [Int.zero_add]
  refine congrArg List.sum (List.map_congr_left fun node member => ?_)
  obtain ⟨category, held, rfl⟩ := listed.mem.mp (List.mem_filter.mp member).1
  exact (ownById_of_mem held).symm

theorem sum_levelRows (forest : tables.taxonomy.IsForest)
    (listed : Listed libraries tables range list) (rolled : rollUp list = .ok totals)
    (parent : Option Uuid) :
    ((levelRows list totals parent).map CategorySpend.totalMinor).sum =
      ∑ id ∈ level tables.taxonomy.parentOf (categoryIds tables.taxonomy) parent,
        subtreeSum tables.taxonomy.parentOf (categoryIds tables.taxonomy)
          (ownById libraries tables range) id := by
  rw [levelRows, ((sortBy_perm _).map _).sum_eq, List.map_map, level, ← listed.sum_map]
  have same : (list.filter fun node => node.parentId = parent) =
      list.filter fun node => tables.taxonomy.parentOf node.id = parent := by
    refine List.filter_congr fun node member => ?_
    obtain ⟨category, held, rfl⟩ := listed.mem.mp member
    exact congrArg (fun up => decide (up = parent)) (Taxonomy.parentOf_of_mem held).symm
  rw [same]
  exact congrArg List.sum (List.map_congr_left fun node _ => totalOf_rollUp forest listed rolled _)

/-! ### Reads -/

variable {hash other : HashOrder SpendNode} {parent : Option Uuid} {read roots : SpendBreakdown}

theorem rows_of_spendByCategory
    (done : tables.spendByCategory libraries range hash parent = .ok read) :
    ∃ list totals, Listed libraries tables range list ∧ rollUp list = .ok totals ∧
      read.rows = levelRows list totals parent ∧
      tables.excludedOutflows libraries range = .ok (read.uncategorizedMinor, read.transfersMinor) ∧
      ∀ category ∈ tables.taxonomy.rows, ∃ own, tables.ownSpend libraries range category = .ok own := by
  unfold spendByCategory at done
  obtain ⟨nodes, listed, done⟩ := bind_eq_ok.mp done
  obtain ⟨totals, rolled, done⟩ := bind_eq_ok.mp done
  obtain ⟨⟨uncategorized, transfers⟩, excluded, done⟩ := bind_eq_ok.mp done
  obtain rfl := Except.ok.inj done
  obtain ⟨computed, rfl⟩ := nodes_eq_ok.mp listed
  exact ⟨_, totals, hash.perm _, rolled, rfl, excluded, computed⟩

theorem row_of_spendByCategory (forest : tables.taxonomy.IsForest)
    (done : tables.spendByCategory libraries range hash parent = .ok read) {row : CategorySpend} :
    row ∈ read.rows → ∃ category ∈ tables.taxonomy.rows, row.categoryId = category.id ∧
      category.parentId = parent ∧ row.ownMinor = ownById libraries tables range category.id ∧
      row.totalMinor = subtreeSum tables.taxonomy.parentOf (categoryIds tables.taxonomy)
        (ownById libraries tables range) category.id := by
  obtain ⟨list, totals, listed, rolled, rows, -⟩ := rows_of_spendByCategory done
  intro member
  rw [rows, levelRows, mem_sortBy, List.mem_map] at member
  obtain ⟨node, inside, rfl⟩ := member
  obtain ⟨inside, onLevel⟩ := List.mem_filter.mp inside
  obtain ⟨category, held, rfl⟩ := listed.mem.mp inside
  exact ⟨category, held, rfl, of_decide_eq_true onLevel, (ownById_of_mem held).symm,
    totalOf_rollUp forest listed rolled category.id⟩

theorem totalMinor_eq (forest : tables.taxonomy.IsForest)
    (done : tables.spendByCategory libraries range hash parent = .ok read) {row : CategorySpend}
    (member : row ∈ read.rows)
    (drilled : tables.spendByCategory libraries range other (some row.categoryId) = .ok roots) :
    row.totalMinor = row.ownMinor + (roots.rows.map CategorySpend.totalMinor).sum := by
  obtain ⟨category, held, same, -, own, total⟩ := row_of_spendByCategory forest done member
  obtain ⟨list, totals, listed, rolled, rows, -⟩ := rows_of_spendByCategory drilled
  rw [rows, sum_levelRows forest listed rolled, own, total, same]
  exact subtreeSum_eq (rooted_categoryIds forest) (closed_categoryIds forest)
    (mem_categoryIds.mpr (by rw [Table.find_key held]; rfl))

theorem sum_rootRows (forest : tables.taxonomy.IsForest)
    (done : tables.spendByCategory libraries range hash none = .ok roots) :
    (roots.rows.map CategorySpend.totalMinor).sum =
      (tables.taxonomy.rows.map (ownOf libraries tables range)).sum := by
  obtain ⟨list, totals, listed, rolled, rows, -⟩ := rows_of_spendByCategory done
  rw [rows, sum_levelRows forest listed rolled,
    sum_roots (rooted_categoryIds forest) (closed_categoryIds forest), categoryIds,
    List.sum_toFinset _ tables.taxonomy.unique, List.map_map]
  exact congrArg List.sum (List.map_congr_left fun category held => ownById_of_mem held)

end SpendTables

/-! ### The tree after any run -/

/-- A tree of categories ends above every category, refuses exactly the moves that would close a
cycle, and its spend can be drilled into. -/
structure Taxonomy.Drillable (taxonomy : Taxonomy) : Prop where
  /-- Following parents from a category ends at one that has none. -/
  ends : ∀ row ∈ taxonomy.rows, ∃ root ∈ taxonomy.rows, root.parentId = none ∧
    Below taxonomy.parentOf row.id root.id
  /-- A move is refused for a cycle when the new parent is the category or below it. -/
  refuses : ∀ (commandMeta : ImportMeta), ∀ moving ∈ taxonomy.rows, moving.isSystem = false →
    ∀ parent ∈ taxonomy.rows,
      (taxonomy.applyMoveCategory commandMeta moving.id (some parent.id) =
        some (.error Taxonomy.cycleRefusal) ↔ Below taxonomy.parentOf parent.id moving.id)
  /-- The total of a category is its own spend and the totals of the level below it. -/
  drills : ∀ (libraries : SpendLibraries) (tables : SpendTables), tables.taxonomy = taxonomy →
    ∀ (range : SpendTables.SpendRange) (hash other : HashOrder SpendTables.SpendNode)
      (parent : Option Uuid) (read below : SpendTables.SpendBreakdown),
      tables.spendByCategory libraries range hash parent = .ok read →
      ∀ row ∈ read.rows,
        tables.spendByCategory libraries range other (some row.categoryId) = .ok below →
          row.totalMinor = row.ownMinor +
            (below.rows.map SpendTables.CategorySpend.totalMinor).sum
  /-- The totals of the roots are the own spend of all categories. -/
  roots : ∀ (libraries : SpendLibraries) (tables : SpendTables), tables.taxonomy = taxonomy →
    ∀ (range : SpendTables.SpendRange) (hash : HashOrder SpendTables.SpendNode)
      (read : SpendTables.SpendBreakdown),
      tables.spendByCategory libraries range hash none = .ok read →
      ∃ own : Category → Int,
        (∀ category ∈ taxonomy.rows,
          tables.ownSpend libraries range category = .ok (own category)) ∧
        (read.rows.map SpendTables.CategorySpend.totalMinor).sum = (taxonomy.rows.map own).sum

theorem Taxonomy.IsForest.drillable {taxonomy : Taxonomy} (forest : taxonomy.IsForest) :
    taxonomy.Drillable := by
  refine ⟨fun row member => ?_, fun commandMeta moving movingIn user parent parentIn => ?_, ?_, ?_⟩
  · obtain ⟨root, top, below⟩ := (forest.rooted row member).exists_root
    have present : row.id ∈ SpendTables.categoryIds taxonomy :=
      SpendTables.mem_categoryIds.mpr (by rw [Table.find_key member]; rfl)
    obtain ⟨held, found⟩ := Option.isSome_iff_exists.mp
      (SpendTables.mem_categoryIds.mp (mem_of_below (SpendTables.closed_categoryIds forest) below present))
    obtain ⟨inside, rfl⟩ := Table.find_eq_some_iff.mp found
    exact ⟨held, inside, (Taxonomy.parentOf_of_mem inside).symm.trans top, below⟩
  · have passes : taxonomy.requireUserCategory moving.id = .ok () := by
      rw [Taxonomy.requireUserCategory, Table.find_key movingIn]
      exact if_pos user
    have present : (taxonomy.find parent.id).isSome := by
      rw [Table.find_key parentIn]
      rfl
    rw [forest.applyMoveCategory_eq passes present]
    split
    · next below => exact iff_of_true rfl below
    · next apart => exact iff_of_false (fun same => by cases Option.some.inj same) apart
  · rintro libraries tables rfl range hash other parent read below done row member drilled
    exact SpendTables.totalMinor_eq forest done member drilled
  · rintro libraries tables rfl range hash read done
    obtain ⟨-, -, -, -, -, -, computed⟩ := SpendTables.rows_of_spendByCategory done
    refine ⟨SpendTables.ownOf libraries tables range, fun category member => ?_,
      SpendTables.sum_rootRows forest done⟩
    obtain ⟨own, found⟩ := computed category member
    rw [SpendTables.ownOf, found]
    rfl

/-- Whatever commands run on a forest, the tree that they leave can be drilled into. -/
theorem Taxonomy.drillable_of_run {taxonomy : Taxonomy} (forest : taxonomy.IsForest)
    (commands : List (ImportMeta × CategoryCommand)) :
    ∃ after, taxonomy.run commands = some after ∧ after.Drillable := by
  obtain ⟨after, ran, afterForest⟩ := forest.run commands
  exact ⟨after, ran, afterForest.drillable⟩

theorem Taxonomy.isForest_empty : Taxonomy.IsForest Table.empty :=
  ⟨fun _ member => absurd member List.not_mem_nil, fun _ member => absurd member List.not_mem_nil⟩

/-- A category, one under it, and a move that would close a cycle. -/
theorem Taxonomy.drillable_of_three_commands :
    let id (byte : UInt8) : Uuid := List.Vector.replicate 16 byte
    let commandMeta : ImportMeta := ⟨id 0, "", "2026-01-01T00:00:00+00:00"⟩
    ∃ after, Taxonomy.run Table.empty
      [(commandMeta, .create (id 1) none "Food" "expense" none none),
        (commandMeta, .create (id 2) (some (id 1)) "Groceries" "expense" none none),
        (commandMeta, .move (id 1) (some (id 2)))] = some after ∧ after.Drillable :=
  Taxonomy.drillable_of_run Taxonomy.isForest_empty _

end Dohflow.DbWorker
