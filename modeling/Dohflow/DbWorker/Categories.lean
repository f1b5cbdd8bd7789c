/-
This file models the tree of categories and the commands that edit it.

A category names its parent, and the commands create a category under one that exists,
rename it, move it under another, archive and reinstate it. No category is ever deleted. A move
first asks whether the category is among the ancestors of its new parent, with a query that
follows parents and ends only where they do. The trigger of the table asks the same again.

In a forest the query ends, and no command makes anything but a forest of it
(`Taxonomy.IsForest.run`).
-/

import Dohflow.DbWorker.StagedImport
import Dohflow.Foundation.Forests

namespace Dohflow.DbWorker

open SyncCore Fallible KeyedTable Forests

/-- A row of `categories`. -/
structure Category where
  id : Uuid
  parentId : Option Uuid
  name : String
  categoryType : String
  icon : Option String
  color : Option String
  isSystem : Bool
  forecastBehavior : String
  archivedAt : Option String
  createdAt : String
  updatedAt : String

abbrev Taxonomy := Table Category.id

namespace Taxonomy

variable (taxonomy : Taxonomy)

def parentOf (id : Uuid) : Option Uuid := (taxonomy.find id).bind Category.parentId

/-- The recursive query for a category and its ancestors, or nothing when it does not end: more
steps than there are categories come back to one. -/
def ancestors (start : Uuid) : Option (List Uuid) :=
  climb taxonomy.parentOf (taxonomy.rows.length + 1) start

def wouldCreateCategoryCycle (newParent moving : Uuid) : Option Bool :=
  (taxonomy.ancestors newParent).map fun ancestors => moving ∈ ancestors

/-! ### The commands -/

def defaultForecastBehavior (categoryType : String) : String :=
  if categoryType = "income" then "income"
  else if categoryType = "transfer" ∨ categoryType = "adjustment" then "ignore_cashflow"
  else "variable_regular"

/-- What the table demands of a row. -/
def checkRow (row : Category) : Except ImportError Unit :=
  ensure (row.categoryType ∈ ["income", "expense", "transfer", "adjustment"] ∧
    row.parentId ≠ some row.id) .sqlite

def requireUserCategory (id : Uuid) : Except ImportError Unit :=
  match taxonomy.find id with
  | none => .error (.invalidCommand "category does not exist")
  | some row =>
    ensure (row.isSystem = false)
      (.invalidCommand "a system category cannot be re-parented (its identity is fixed)")

/-- The trimmed name, which must not be empty. -/
def cleanCategoryName (name : String) : Except ImportError String := do
  ensure (trimmed name ≠ "") (.rejected .payloadInvalid "category name must not be empty")
  return trimmed name

def applyCreateCategory (commandMeta : ImportMeta) (id : Uuid) (parentId : Option Uuid)
    (name categoryType : String) (color icon : Option String) : Except ImportError Taxonomy := do
  let name ← cleanCategoryName name
  ensure (∀ parent ∈ parentId, (taxonomy.find parent).isSome)
    (.rejected .referenceMissing "parent category does not exist")
  let row : Category :=
    { id, parentId, name, categoryType, icon, color, isSystem := false
      forecastBehavior := defaultForecastBehavior categoryType, archivedAt := none
      createdAt := commandMeta.issuedAt, updatedAt := commandMeta.issuedAt }
  checkRow row
  insertInto taxonomy row

/-- A category of the system keeps its name. -/
def setAppearance (name : String) (color icon : Option String) (now : String) (row : Category) :
    Category :=
  if row.isSystem then { row with color, icon, updatedAt := now }
  else { row with name, color, icon, updatedAt := now }

theorem setAppearance_fixed (name : String) (color icon : Option String) (now : String)
    (row : Category) : (setAppearance name color icon now row).id = row.id ∧
      (setAppearance name color icon now row).parentId = row.parentId := by
  unfold setAppearance
  split <;> exact ⟨rfl, rfl⟩

def applyUpdateCategory (commandMeta : ImportMeta) (id : Uuid) (name : String)
    (color icon : Option String) : Except ImportError Taxonomy := do
  let name ← cleanCategoryName name
  ensure (taxonomy.find id).isSome (.rejected .referenceMissing "category does not exist")
  return taxonomy.update (fun row => row.id = id) (setAppearance name color icon commandMeta.issuedAt)
    fun row => (setAppearance_fixed _ _ _ _ row).1

/-- `UPDATE categories SET parent_id = ...` -/
def setParent (id : Uuid) (parentId : Option Uuid) (now : String) : Taxonomy :=
  taxonomy.update (fun row => row.id = id) (fun row => { row with parentId, updatedAt := now })
    fun _ => rfl

/-- The update with the trigger before it. -/
def updateParent (id : Uuid) (parentId : Option Uuid) (now : String) :
    Option (Except ImportError Taxonomy) :=
  match parentId with
  | none => some (.ok (taxonomy.setParent id none now))
  | some parent =>
    (taxonomy.wouldCreateCategoryCycle parent id).map fun cycle => do
      ensure (cycle = false ∧ parent ≠ id) .sqlite
      return taxonomy.setParent id (some parent) now

/-- What a move under a descendant is refused with. -/
def cycleRefusal : ImportError :=
  .rejected .stateConflict "re-parenting would create a category cycle"

/-- `apply_move_category`, or nothing when a query does not end. -/
def applyMoveCategory (commandMeta : ImportMeta) (id : Uuid) (newParentId : Option Uuid) :
    Option (Except ImportError Taxonomy) :=
  match taxonomy.requireUserCategory id, newParentId with
  | .error error, _ => some (.error error)
  | .ok (), none => taxonomy.updateParent id none commandMeta.issuedAt
  | .ok (), some parent =>
    if taxonomy.find parent = none then
      some (.error (.rejected .referenceMissing "parent category does not exist"))
    else
      match taxonomy.wouldCreateCategoryCycle parent id with
      | none => none
      | some true => some (.error cycleRefusal)
      | some false => taxonomy.updateParent id (some parent) commandMeta.issuedAt

/-- `UPDATE categories SET archived_at = ...`, refused when no row is there. -/
def setArchived (id : Uuid) (archivedAt : Option String) (now : String) :
    Except ImportError Taxonomy := do
  ensure (taxonomy.find id).isSome (.rejected .referenceMissing "category does not exist")
  return taxonomy.update (fun row => row.id = id)
    (fun row => { row with archivedAt, updatedAt := now }) fun _ => rfl

def applyArchiveCategory (commandMeta : ImportMeta) (id : Uuid) : Except ImportError Taxonomy :=
  taxonomy.setArchived id (some commandMeta.issuedAt) commandMeta.issuedAt

def applyReinstateCategory (commandMeta : ImportMeta) (id : Uuid) : Except ImportError Taxonomy :=
  taxonomy.setArchived id none commandMeta.issuedAt

end Taxonomy

inductive CategoryCommand
  | create (id : Uuid) (parentId : Option Uuid) (name categoryType : String)
    (color icon : Option String)
  | update (id : Uuid) (name : String) (color icon : Option String)
  | move (id : Uuid) (newParentId : Option Uuid)
  | archive (id : Uuid)
  | reinstate (id : Uuid)

namespace Taxonomy

def applyCommand (taxonomy : Taxonomy) (commandMeta : ImportMeta) :
    CategoryCommand → Option (Except ImportError Taxonomy)
  | .create id parentId name categoryType color icon =>
    some (taxonomy.applyCreateCategory commandMeta id parentId name categoryType color icon)
  | .update id name color icon => some (taxonomy.applyUpdateCategory commandMeta id name color icon)
  | .move id newParentId => taxonomy.applyMoveCategory commandMeta id newParentId
  | .archive id => some (taxonomy.applyArchiveCategory commandMeta id)
  | .reinstate id => some (taxonomy.applyReinstateCategory commandMeta id)

/-- A command that is refused changes nothing. -/
def step (taxonomy : Taxonomy) (command : ImportMeta × CategoryCommand) : Option Taxonomy :=
  (taxonomy.applyCommand command.1 command.2).map fun
    | .ok after => after
    | .error _ => taxonomy

/-- Some commands in turn, or nothing when one of them does not end. -/
def run (taxonomy : Taxonomy) (commands : List (ImportMeta × CategoryCommand)) : Option Taxonomy :=
  commands.foldlM step taxonomy

/-! ### The forest -/

/-- Every category has a chain of parents that ends, and every parent is a category. -/
structure IsForest (taxonomy : Taxonomy) : Prop where
  rooted : ∀ row ∈ taxonomy.rows, Rooted taxonomy.parentOf row.id
  closed : ∀ row ∈ taxonomy.rows, ∀ parent ∈ row.parentId, (taxonomy.find parent).isSome

variable {taxonomy after : Taxonomy} {row : Category} {id parent : Uuid}

theorem parentOf_of_mem (member : row ∈ taxonomy.rows) :
    taxonomy.parentOf row.id = row.parentId := by
  rw [parentOf, Table.find_key member, Option.bind_some]

theorem parentOf_of_missing (missing : taxonomy.find id = none) : taxonomy.parentOf id = none := by
  rw [parentOf, missing, Option.bind_none]

theorem IsForest.rooted_all (forest : taxonomy.IsForest) (id : Uuid) :
    Rooted taxonomy.parentOf id := by
  cases found : taxonomy.find id with
  | none => exact .root (parentOf_of_missing found)
  | some row =>
    obtain ⟨member, rfl⟩ := Table.find_eq_some_iff.mp found
    exact forest.rooted row member

theorem length_chain_le {chain : List Uuid} (chained : Chain taxonomy.parentOf id chain) :
    chain.length ≤ taxonomy.rows.length + 1 := by
  have held : ∀ node ∈ chain.dropLast, node ∈ taxonomy.rows.map Category.id := by
    induction chained with
    | root => simp
    | @child node up rest link above inductionHypothesis =>
      intro other member
      have nonempty : rest ≠ [] := by cases above <;> simp
      rw [List.dropLast_cons_of_ne_nil nonempty, List.mem_cons] at member
      rcases member with rfl | member
      · obtain ⟨row, found, -⟩ := Option.bind_eq_some_iff.mp link
        obtain ⟨member, rfl⟩ := Table.find_eq_some_iff.mp found
        exact List.mem_map_of_mem member
      · exact inductionHypothesis other member
  have distinct : chain.dropLast.Nodup := chained.nodup.sublist (List.dropLast_sublist chain)
  have bounded := (distinct.subperm held).length_le
  rw [List.length_dropLast, List.length_map] at bounded
  omega

theorem IsForest.ancestors_eq (forest : taxonomy.IsForest) (start : Uuid) :
    ∃ chain, taxonomy.ancestors start = some chain ∧
      ∀ id, id ∈ chain ↔ Below taxonomy.parentOf start id := by
  obtain ⟨chain, chained⟩ := forest.rooted_all start
  exact ⟨chain, climb_eq_some.mpr ⟨chained, length_chain_le chained⟩, fun _ => chained.mem_iff⟩

open Classical in
theorem IsForest.wouldCreateCategoryCycle_eq (forest : taxonomy.IsForest) (newParent moving : Uuid) :
    taxonomy.wouldCreateCategoryCycle newParent moving =
      some (decide (Below taxonomy.parentOf newParent moving)) := by
  obtain ⟨chain, found, mem⟩ := forest.ancestors_eq newParent
  rw [wouldCreateCategoryCycle, found, Option.map_some]
  simp only [mem]

/-- What keeps the categories and their parents keeps a forest. -/
theorem IsForest.congr (forest : taxonomy.IsForest)
    (same : ∀ id, after.parentOf id = taxonomy.parentOf id)
    (kept : ∀ id, (taxonomy.find id).isSome → (after.find id).isSome) : after.IsForest := by
  have sameParents : after.parentOf = taxonomy.parentOf := funext same
  refine ⟨fun row member => sameParents ▸ forest.rooted_all row.id, fun row member parent up => ?_⟩
  have link : taxonomy.parentOf row.id = some parent := by
    rw [← same, parentOf_of_mem member]
    exact up
  obtain ⟨before, found, up⟩ := Option.bind_eq_some_iff.mp link
  exact kept parent (forest.closed before (Table.find_eq_some_iff.mp found).1 parent up)

/-- An update of other columns keeps a forest. -/
theorem IsForest.update (forest : taxonomy.IsForest) {selects : Category → Bool}
    {sets : Category → Category} (keeps : ∀ row, (sets row).id = row.id)
    (links : ∀ row, (sets row).parentId = row.parentId) :
    IsForest (taxonomy.update selects sets keeps) := by
  refine forest.congr (fun id => ?_) fun id present => ?_
  · rw [parentOf, parentOf, Table.find_update]
    cases taxonomy.find id with
    | none => rfl
    | some row =>
      show (if selects row then sets row else row).parentId = row.parentId
      split
      · exact links row
      · rfl
  · rw [Table.find_update, Option.isSome_map]
    exact present

theorem IsForest.not_below (forest : taxonomy.IsForest) (missing : taxonomy.find id = none)
    (present : (taxonomy.find parent).isSome) : ¬ Below taxonomy.parentOf parent id := by
  intro below
  rcases below.cases_tail with same | ⟨child, -, link⟩
  · rw [← same, missing] at present
    cases present
  · obtain ⟨row, found, up⟩ := Option.bind_eq_some_iff.mp link
    have held := forest.closed row (Table.find_eq_some_iff.mp found).1 id up
    rw [missing] at held
    cases held

theorem IsForest.relink (forest : taxonomy.IsForest) {moving : Uuid}
    (others : ∀ id, id ≠ moving → after.parentOf id = taxonomy.parentOf id)
    (kept : ∀ id, (taxonomy.find id).isSome → (after.find id).isSome)
    (target : ∀ up, after.parentOf moving = some up →
      (taxonomy.find up).isSome ∧ ¬ Below taxonomy.parentOf up moving) : after.IsForest := by
  refine ⟨fun row _ => ?_, fun row member parent up => ?_⟩
  · refine Rooted.move others (fun up link => ?_) (forest.rooted_all row.id)
    exact ⟨forest.rooted_all up, (target up link).2⟩
  · have link : after.parentOf row.id = some parent := by
      rw [parentOf_of_mem member]
      exact up
    refine kept parent ?_
    by_cases same : row.id = moving
    · exact (target parent (same ▸ link)).1
    · rw [others row.id same] at link
      obtain ⟨before, found, up⟩ := Option.bind_eq_some_iff.mp link
      exact forest.closed before (Table.find_eq_some_iff.mp found).1 parent up

/-- A new category under one that is there. -/
theorem IsForest.insert (forest : taxonomy.IsForest)
    (present : ∀ parent ∈ row.parentId, (taxonomy.find parent).isSome)
    (inserted : taxonomy.insert row = some after) : after.IsForest := by
  have missing := (Table.insert_eq_some_iff.mp inserted).1
  have find (id : Uuid) : after.find id = if id = row.id then some row else taxonomy.find id :=
    Table.find_insert inserted
  refine @relink _ _ forest row.id (fun id other => ?_) (fun id held => ?_) fun up link => ?_
  · rw [parentOf, find, if_neg other]
    rfl
  · rw [find]
    split
    · rfl
    · exact held
  · rw [parentOf, find, if_pos rfl, Option.bind_some] at link
    exact ⟨present up link, forest.not_below missing (present up link)⟩

theorem find_setParent (taxonomy : Taxonomy) (moving : Uuid) (parentId : Option Uuid) (now : String)
    (id : Uuid) : (taxonomy.setParent moving parentId now).find id =
      (taxonomy.find id).map fun row =>
        if row.id = moving then { row with parentId, updatedAt := now } else row := by
  rw [setParent, Table.find_update]
  simp only [decide_eq_true_eq]

/-- A move that is not under a category below. -/
theorem IsForest.setParent {parentId : Option Uuid} {now : String} (forest : taxonomy.IsForest)
    (target : ∀ up ∈ parentId, (taxonomy.find up).isSome ∧ ¬ Below taxonomy.parentOf up id) :
    IsForest (taxonomy.setParent id parentId now) := by
  refine @relink _ _ forest id (fun other apart => ?_) (fun other held => ?_) fun up link => ?_
  · rw [parentOf, find_setParent, parentOf]
    cases found : taxonomy.find other with
    | none => rfl
    | some row =>
      obtain ⟨-, rfl⟩ := Table.find_eq_some_iff.mp found
      rw [Option.map_some, if_neg apart]
  · rw [find_setParent, Option.isSome_map]
    exact held
  · rw [parentOf, find_setParent] at link
    obtain ⟨moved, mapped, linked⟩ := Option.bind_eq_some_iff.mp link
    obtain ⟨row, found, rfl⟩ := Option.map_eq_some_iff.mp mapped
    rw [if_pos (Table.find_eq_some_iff.mp found).2] at linked
    exact target _ linked

/-! ### The commands keep it -/

section Commands

variable {commandMeta : ImportMeta} {parentId : Option Uuid} {name categoryType : String}
  {color icon : Option String} {answer : Except ImportError Taxonomy}

theorem IsForest.applyCreateCategory (forest : taxonomy.IsForest)
    (created : taxonomy.applyCreateCategory commandMeta id parentId name categoryType color icon =
      .ok after) : after.IsForest := by
  unfold Taxonomy.applyCreateCategory at created
  obtain ⟨name, -, created⟩ := bind_eq_ok.mp created
  obtain ⟨present, created⟩ := ensure_bind_eq_ok.mp created
  obtain ⟨-, created⟩ := check_bind_eq_ok.mp created
  exact forest.insert present (orMissing_eq_ok.mp created)

theorem IsForest.applyUpdateCategory (forest : taxonomy.IsForest)
    (updated : taxonomy.applyUpdateCategory commandMeta id name color icon = .ok after) :
    after.IsForest := by
  unfold Taxonomy.applyUpdateCategory at updated
  obtain ⟨name, -, updated⟩ := bind_eq_ok.mp updated
  obtain ⟨-, updated⟩ := ensure_bind_eq_ok.mp updated
  obtain rfl := Except.ok.inj updated
  exact forest.update _ fun row => (setAppearance_fixed _ _ _ _ row).2

theorem IsForest.setArchived {archivedAt : Option String} {now : String}
    (forest : taxonomy.IsForest) (updated : taxonomy.setArchived id archivedAt now = .ok after) :
    after.IsForest := by
  unfold Taxonomy.setArchived at updated
  obtain ⟨-, updated⟩ := ensure_bind_eq_ok.mp updated
  obtain rfl := Except.ok.inj updated
  exact forest.update _ fun _ => rfl

theorem IsForest.updateParent_eq (forest : taxonomy.IsForest) {now : String}
    (apart : ¬ Below taxonomy.parentOf parent id) :
    taxonomy.updateParent id (some parent) now =
      some (.ok (taxonomy.setParent id (some parent) now)) := by
  have different : parent ≠ id := fun same => apart (same ▸ .refl)
  unfold updateParent
  simp only [forest.wouldCreateCategoryCycle_eq, apart, Option.map_some, ensure, decide_false,
    different, ne_eq, not_false_eq_true, and_self, if_true]
  rfl

theorem IsForest.applyMoveCategory_eq (forest : taxonomy.IsForest)
    (user : taxonomy.requireUserCategory id = .ok ()) (present : (taxonomy.find parent).isSome) :
    taxonomy.applyMoveCategory commandMeta id (some parent) =
      some (open Classical in if Below taxonomy.parentOf parent id then .error cycleRefusal
        else .ok (taxonomy.setParent id (some parent) commandMeta.issuedAt)) := by
  have held : taxonomy.find parent ≠ none := Option.isSome_iff_ne_none.mp present
  unfold Taxonomy.applyMoveCategory
  simp only [user, held, if_false, forest.wouldCreateCategoryCycle_eq]
  by_cases below : Below taxonomy.parentOf parent id
  · simp only [below, decide_true, if_true]
  · simp only [below, decide_false, if_false]
    exact forest.updateParent_eq below

/-- In a forest a move answers, and what it makes is a forest. -/
theorem IsForest.applyMoveCategory (forest : taxonomy.IsForest) (commandMeta : ImportMeta)
    (id : Uuid) (parentId : Option Uuid) :
    ∃ answer, taxonomy.applyMoveCategory commandMeta id parentId = some answer ∧
      ∀ after, answer = .ok after → after.IsForest := by
  cases user : taxonomy.requireUserCategory id with
  | error error =>
    refine ⟨.error error, ?_, fun after same => by cases same⟩
    unfold Taxonomy.applyMoveCategory
    rw [user]
  | ok passed =>
    cases parentId with
    | none =>
      refine ⟨.ok (taxonomy.setParent id none commandMeta.issuedAt), ?_, ?_⟩
      · unfold Taxonomy.applyMoveCategory
        rw [user]
        rfl
      · rintro after same
        obtain rfl := Except.ok.inj same
        exact forest.setParent fun up none => by cases none
    | some parent =>
      by_cases missing : taxonomy.find parent = none
      · refine ⟨.error (.rejected .referenceMissing "parent category does not exist"), ?_,
          fun after same => by cases same⟩
        unfold Taxonomy.applyMoveCategory
        rw [user]
        exact if_pos missing
      · have present := Option.isSome_iff_ne_none.mpr missing
        refine ⟨_, forest.applyMoveCategory_eq user present, fun after same => ?_⟩
        split at same
        · cases same
        · next apart =>
          obtain rfl := Except.ok.inj same
          refine forest.setParent fun up linked => ?_
          obtain rfl := Option.some.inj linked
          exact ⟨present, apart⟩

/-- Every command ends in a forest and makes a forest of it. -/
theorem IsForest.step (forest : taxonomy.IsForest) (command : ImportMeta × CategoryCommand) :
    ∃ after, taxonomy.step command = some after ∧ after.IsForest := by
  obtain ⟨commandMeta, command⟩ := command
  have answers {answer : Except ImportError Taxonomy}
      (answered : taxonomy.applyCommand commandMeta command = some answer)
      (keeps : ∀ after, answer = .ok after → after.IsForest) :
      ∃ after, taxonomy.step (commandMeta, command) = some after ∧ after.IsForest := by
    unfold Taxonomy.step
    rw [answered, Option.map_some]
    cases answer with
    | error error => exact ⟨taxonomy, rfl, forest⟩
    | ok after => exact ⟨after, rfl, keeps after rfl⟩
  cases command with
  | create id parentId name categoryType color icon =>
    exact answers rfl fun _ created => forest.applyCreateCategory created
  | update id name color icon => exact answers rfl fun _ updated => forest.applyUpdateCategory updated
  | move id newParentId =>
    obtain ⟨answer, answered, keeps⟩ := forest.applyMoveCategory commandMeta id newParentId
    exact answers answered keeps
  | archive id => exact answers rfl fun _ archived => forest.setArchived archived
  | reinstate id => exact answers rfl fun _ reinstated => forest.setArchived reinstated

theorem updateParent_eq_ok {now : String}
    (done : taxonomy.updateParent id parentId now = some (.ok after)) :
    after = taxonomy.setParent id parentId now := by
  cases parentId with
  | none => exact (Except.ok.inj (Option.some.inj done)).symm
  | some parent =>
    obtain ⟨cycle, -, done⟩ := Option.map_eq_some_iff.mp done
    exact (Except.ok.inj (ensure_bind_eq_ok.mp done).2).symm

theorem applyMoveCategory_eq_ok
    (done : taxonomy.applyMoveCategory commandMeta id parentId = some (.ok after)) :
    after = taxonomy.setParent id parentId commandMeta.issuedAt := by
  unfold applyMoveCategory at done
  split at done
  · cases Option.some.inj done
  · exact updateParent_eq_ok done
  · split at done
    · cases Option.some.inj done
    · split at done
      · cases done
      · cases Option.some.inj done
      · exact updateParent_eq_ok done

theorem isSome_find_step {command : ImportMeta × CategoryCommand}
    (done : taxonomy.step command = some after) (id : Uuid)
    (held : (taxonomy.find id).isSome) : (after.find id).isSome := by
  obtain ⟨commandMeta, command⟩ := command
  obtain ⟨answer, answered, same⟩ := Option.map_eq_some_iff.mp done
  have updated {selects : Category → Bool} {sets : Category → Category}
      {keeps : ∀ row, (sets row).id = row.id} :
      ((taxonomy.update selects sets keeps).find id).isSome := by
    rw [Table.find_update, Option.isSome_map]
    exact held
  cases answer with
  | error error =>
    obtain rfl := same
    exact held
  | ok reached =>
    obtain rfl := same
    cases command with
    | create other parentId name categoryType color icon =>
      have created := Option.some.inj answered
      obtain ⟨cleaned, -, created⟩ := bind_eq_ok.mp created
      obtain ⟨-, created⟩ := ensure_bind_eq_ok.mp created
      obtain ⟨-, created⟩ := check_bind_eq_ok.mp created
      rw [Table.find_insert (orMissing_eq_ok.mp created)]
      split
      · rfl
      · exact held
    | update other name color icon =>
      obtain ⟨cleaned, -, renamed⟩ := bind_eq_ok.mp (Option.some.inj answered)
      obtain rfl := Except.ok.inj (ensure_bind_eq_ok.mp renamed).2
      exact updated
    | move other newParentId =>
      rw [applyMoveCategory_eq_ok answered]
      exact updated
    | archive other =>
      obtain rfl := Except.ok.inj (ensure_bind_eq_ok.mp (Option.some.inj answered)).2
      exact updated
    | reinstate other =>
      obtain rfl := Except.ok.inj (ensure_bind_eq_ok.mp (Option.some.inj answered)).2
      exact updated

/-- Every run of commands from a forest ends in a forest. -/
theorem IsForest.run (forest : taxonomy.IsForest) (commands : List (ImportMeta × CategoryCommand)) :
    ∃ after, taxonomy.run commands = some after ∧ after.IsForest := by
  induction commands generalizing taxonomy with
  | nil => exact ⟨taxonomy, rfl, forest⟩
  | cons command rest inductionHypothesis =>
    obtain ⟨middle, stepped, middleForest⟩ := forest.step command
    obtain ⟨after, ran, afterForest⟩ := inductionHypothesis middleForest
    refine ⟨after, ?_, afterForest⟩
    rw [Taxonomy.run, List.foldlM_cons, stepped]
    exact ran

end Commands

end Taxonomy

end Dohflow.DbWorker
