/-
This file says what the undo of an apply takes away, and what it leaves alone.

Of the base events, an undo changes the ones that the apply brought and the ones that it
superseded. Nothing the apply brought is active afterwards, neither a promoted event nor
one made of it since. A superseded event is active again, unless another active event
holds its kind and target. Every other event is as it was (`Removed`), and a refused undo
changes nothing at all.

The retired undo leaves edits of what it undoes active, which the next apply of the
scenario supersedes and its undo brings back. It is therefore given only where it has no
edit to follow and no newer event to keep.
-/

import Dohflow.DbWorker.ScenarioBlockers

namespace Dohflow.DbWorker

open SyncCore Fallible KeyedTable

variable {libraries : Libraries} {request : CommandMeta} {vault vault' : AssumptionVault}
  {before after : EventTable} {scenario id : Uuid} {row old : EventRow} {applied : List Uuid}

/-! ### The vault after a command -/

/-- Commands run in one transaction, and a refused one is rolled back. -/
def afterCommand (libraries : Libraries) (request : CommandMeta) (vault : AssumptionVault)
    (command : ScenarioCommand) : AssumptionVault :=
  match dispatch libraries request vault command with
  | .ok after => after
  | .error _ => vault

theorem requireApplied_ok_iff {scenarios : ScenarioTable} {missing : String} :
    requireApplied scenarios id missing = .ok () ↔ stillApplied scenarios id = true := by
  refine ⟨requireApplied_eq_ok, fun applied => ?_⟩
  unfold stillApplied at applied
  unfold requireApplied
  cases found : scenarios.find id with
  | none =>
    rw [found] at applied
    cases applied
  | some row =>
    rw [found, Option.any_some] at applied
    cases marked : row.appliedAt with
    | none =>
      rw [marked] at applied
      cases applied
    | some time => simp [marked]

/-- What an undo asks for. -/
structure Acceptable (vault : AssumptionVault) (scenario : Uuid) (confirmed : List Uuid) :
    Prop where
  ascending : strictlyAscending confirmed = true
  applied : stillApplied vault.scenarios scenario = true
  unblocked : (planRevert scenario vault).blocker = none
  /-- The confirmed ids are the active descendants of the promoted events. -/
  listed : ∀ id, id ∈ confirmed ↔ InLineage vault.events scenario id ∧
    ∃ row, vault.events.find id = some row ∧ row.promotedFrom = none ∧ row.status = .active

theorem OpenPlan.of_unblocked (unblocked : (planRevert scenario vault).blocker = none) :
    OpenPlan vault scenario (planRevert scenario vault) := by
  rcases planRevert_cases vault scenario with ⟨later, blocked, -⟩ | ⟨-, later, blocked, -⟩ | plan
  · rw [unblocked] at blocked
    cases blocked
  · rw [unblocked] at blocked
    cases blocked
  · exact plan

theorem pairwise_of_strictlyAscending {ids : List Uuid}
    (ascending : strictlyAscending ids = true) :
    ids.Pairwise fun first second => first.toList < second.toList := by
  induction ids with
  | nil => exact List.Pairwise.nil
  | cons first rest inductionHypothesis =>
    rw [strictlyAscending_cons] at ascending
    have ordered := inductionHypothesis ascending.2
    refine List.pairwise_cons.mpr ⟨fun other inside => ?_, ordered⟩
    cases rest with
    | nil => exact absurd inside List.not_mem_nil
    | cons second more =>
      have below : first.toList < second.toList := of_decide_eq_true (ascending.1 second rfl)
      rcases List.mem_cons.mp inside with rfl | later
      · exact below
      · exact List.lt_trans below ((List.pairwise_cons.mp ordered).1 other later)

theorem eq_of_strictlyAscending {ids others : List Uuid} (ascending : strictlyAscending ids = true)
    (ascendingOthers : strictlyAscending others = true)
    (same : ∀ id, id ∈ ids ↔ id ∈ others) : ids = others := by
  have nodup : ∀ {listed : List Uuid}, strictlyAscending listed = true → listed.Nodup := by
    intro listed ordered
    refine (pairwise_of_strictlyAscending ordered).imp fun {first second} below equal => ?_
    subst equal
    exact List.lt_irrefl _ below
  have perm : ids.Perm others :=
    (List.perm_ext_iff_of_nodup (nodup ascending) (nodup ascendingOthers)).mpr same
  refine perm.eq_of_pairwise (fun first second _ _ below above => ?_)
    (pairwise_of_strictlyAscending ascending) (pairwise_of_strictlyAscending ascendingOthers)
  exact absurd above (List.lt_asymm below)

theorem revert_accepted_iff {confirmed : List Uuid} :
    (∃ after, revertScenarioApplyConfirmed scenario confirmed vault = .ok after) ↔
      Acceptable vault scenario confirmed := by
  constructor
  · rintro ⟨after, accepted⟩
    obtain ⟨applied, -, plan, listed, -⟩ := undoes_confirmed accepted
    subst listed
    exact ⟨plan.ascending, applied, plan.unblocked, plan.descendants⟩
  · intro acceptable
    have plan := OpenPlan.of_unblocked acceptable.unblocked
    have listed : (planRevert scenario vault).descendants = confirmed :=
      eq_of_strictlyAscending plan.ascending acceptable.ascending fun id => by
        rw [plan.descendants, acceptable.listed]
    refine Fallible.exists_ok_of_isOk _ ?_
    rw [revertScenarioApplyConfirmed, ensure_of acceptable.ascending, ok_bind,
      requireApplied_ok_iff.mpr acceptable.applied, ok_bind]
    simp only [ensure_of plan.unblocked, ensure_of listed, ok_bind]
    rfl

/-! ### What an undo removes -/

/-- The events after the undo of a scenario's apply. -/
structure Removed (before after : EventTable) (scenario : Uuid) : Prop where
  /-- No active base event was promoted from the scenario, or is made of one that was. -/
  gone : ∀ id row, after.find id = some row → row.scenarioId = none → row.status = .active →
    row.promotedFrom ≠ some scenario ∧ ¬ InLineage before scenario id ∧
      ¬ InLineage after scenario id
  /-- A base event that the apply neither brought nor superseded is unchanged. -/
  others : ∀ id row, before.find id = some row → row.scenarioId = none →
    ¬ InLineage before scenario id → row.retiredBy before scenario = false →
    after.find id = some row
  /-- An event of a scenario is unchanged. -/
  ofScenarios : ∀ id row, before.find id = some row → row.scenarioId ≠ none → after.find id = some row
  /-- A superseded event is active again, or another active event holds its kind and target. -/
  retired : ∀ id row, before.find id = some row → row.retiredBy before scenario = true →
    row.promotedFrom ≠ some scenario →
    after.find id = some row.restore ∨
      after.find id = some row ∧ row.status = .superseded ∧
        ∃ holder, holder.id ≠ id ∧ after.find holder.id = some holder ∧
          holder.holds row.key = true
  /-- An event that the apply brought and then superseded itself is cleared. -/
  own : ∀ id row, before.find id = some row → row.retiredBy before scenario = true →
    row.promotedFrom = some scenario → after.find id = some row.restore.clear
  /-- No event appears or disappears. -/
  same : ∀ id, after.find id = none ↔ before.find id = none

theorem inLineage_of_promoted (found : before.find id = some row)
    (promoted : row.promotedFrom = some scenario) : InLineage before scenario id :=
  ⟨id, ⟨row, found, promoted⟩, .refl⟩

/-- What is active after an undo was not brought by the apply. -/
theorem Undoes.gone (undoes : Undoes before after scenario)
    (sound : EventsSound before applied none) (found : after.find id = some row)
    (active : row.status = .active) :
    row.promotedFrom ≠ some scenario ∧ ¬ InLineage before scenario id := by
  obtain ⟨old, foundOld, undone⟩ := undoes.found_cases id row found
  obtain rfl := find_id foundOld
  rw [undone.same.2.2.2.2]
  rcases undone.active_iff.mp active with ⟨-, other, outside⟩ | ⟨retired, other, -⟩
  · refine ⟨other, fun lineage => outside ⟨lineage, ?_⟩⟩
    exact (undoes.alone old.id old lineage foundOld).resolve_right other
  · obtain ⟨-, next, link, promoted⟩ := retiredBy_iff.mp retired
    exact ⟨other, sound.apart scenario old.id old next foundOld link promoted other⟩

theorem Undoes.kept_active (undoes : Undoes before after scenario)
    (found : before.find row.id = some row) (active : row.status = .active)
    (other : row.promotedFrom ≠ some scenario) (outside : ¬ InLineage before scenario row.id) :
    after.find row.id = some row := by
  obtain ⟨now, foundNow, undone⟩ := undoes.found_old row.id row found
  cases undone with
  | descendant lineage => exact absurd lineage outside
  | restored retired =>
    rw [(retiredBy_iff.mp retired).1] at active
    cases active
  | ownActive own => exact absurd own other
  | ownRetired own => exact absurd own other
  | kept => exact foundNow

theorem Undoes.removed (undoes : Undoes before after scenario)
    (sound : EventsSound before applied none) : Removed before after scenario where
  gone id row found _ active := by
    obtain ⟨other, outside⟩ := undoes.gone sound found active
    exact ⟨other, outside, fun lineage => outside (undoes.inLineage lineage)⟩
  others id row found isBase outside unretired := by
    obtain ⟨now, foundNow, undone⟩ := undoes.found_old id row found
    obtain rfl := find_id found
    cases undone with
    | descendant lineage => exact absurd lineage outside
    | restored retired => exact absurd retired (Bool.eq_false_iff.mp unretired)
    | ownActive own => exact absurd (inLineage_of_promoted found own) outside
    | ownRetired own => exact absurd (inLineage_of_promoted found own) outside
    | kept => exact foundNow
  ofScenarios id row found isScoped := by
    obtain ⟨now, foundNow, undone⟩ := undoes.found_old id row found
    obtain rfl := find_id found
    have outside : ¬ InLineage before scenario row.id := by
      intro lineage
      obtain ⟨held, foundHeld, isBase⟩ := sound.found_of_lineage lineage
      obtain rfl := Option.some.inj (found.symm.trans foundHeld)
      exact isScoped isBase
    cases undone with
    | descendant lineage => exact absurd lineage outside
    | restored retired => exact absurd (base_of_retired sound found retired) isScoped
    | ownActive own => exact absurd (inLineage_of_promoted found own) outside
    | ownRetired own => exact absurd (inLineage_of_promoted found own) outside
    | kept => exact foundNow
  retired id row found retired other := by
    obtain ⟨now, foundNow, undone⟩ := undoes.found_old id row found
    have superseded := (retiredBy_iff.mp retired).1
    cases undone with
    | descendant _ _ active =>
      rw [superseded] at active
      cases active
    | restored => exact .inl foundNow
    | ownActive own => exact absurd own other
    | ownRetired own => exact absurd own other
    | kept _ unrestored =>
      obtain ⟨-, holder, holds⟩ := unrestored retired
      have active := (holds_iff.mp holds.holds).2.1
      refine .inr ⟨foundNow, superseded, holder, ?_,
        undoes.kept_active holds.found active holds.other holds.apart, holds.holds⟩
      rintro rfl
      obtain rfl := Option.some.inj (found.symm.trans holds.found)
      rw [superseded] at active
      cases active
  own id row found retired own := by
    obtain ⟨now, foundNow, undone⟩ := undoes.found_old id row found
    cases undone with
    | descendant _ plain =>
      rw [own] at plain
      cases plain
    | restored _ other => exact absurd own other
    | ownActive _ active =>
      rw [(retiredBy_iff.mp retired).1] at active
      cases active
    | ownRetired => exact foundNow
    | kept _ unrestored => exact absurd own (unrestored retired).1
  same id := by
    constructor
    · intro absent
      cases found : before.find id with
      | none => rfl
      | some row =>
        obtain ⟨now, foundNow, -⟩ := undoes.found_old id row found
        rw [absent] at foundNow
        cases foundNow
    · intro absent
      cases found : after.find id with
      | none => rfl
      | some now =>
        obtain ⟨row, foundRow, -⟩ := undoes.found_cases id now found
        rw [absent] at foundRow
        cases foundRow

/-! ### Runs -/

/-- Any command; the retired undo only where it has no edit to clear and no newer event to keep. -/
def FollowsEdits (vault : AssumptionVault) (_ : List Uuid) : ScenarioCommand → Prop
  | .revertScenarioApply scenario => UndoesPlainly vault.events scenario
  | _ => True

theorem VaultSound.follows {command : ScenarioCommand} (sound : VaultSound vault applied)
    (follows : FollowsEdits vault applied command)
    (accepted : DbWorker.dispatch libraries request vault command = .ok vault') :
    VaultSound vault' (appliedAfter command applied) := by
  refine sound.dispatch accepted fun scenario same => ?_
  subst same
  cases effect_of_dispatch accepted with
  | grown _ _ order => exact absurd (order [scenario]) (by simp [appliedAfter])
  | retired _ found _ => exact undoes_retired follows found

theorem vaultSound_of_follows (reached : Reached libraries FollowsEdits vault applied) :
    VaultSound vault applied := by
  induction reached with
  | start => exact vaultSound_empty
  | step _ follows accepted inductionHypothesis => exact inductionHypothesis.follows follows accepted

/-- Libraries under which an event is promoted under the id of its own. -/
def twinLibraries : Libraries := { sampleLibraries with
  keyedEventId _ _ event := event.map (· + 100) }

/-- A scenario sets one rate twice and is applied, so that the second rate supersedes the first. -/
def twinCommands : List ScenarioCommand :=
  [.createScenario ⟨sampleEventId 1, "Plan", none⟩,
    .recordAssumptionEvent (sampleEvent 10 (some 1)),
    .recordAssumptionEvent (sampleEvent 11 (some 1)), .applyScenario (sampleEventId 1)]

def twinVault : AssumptionVault := (runCommands twinLibraries 1 twinCommands .empty).getD .empty

def twinUndone : AssumptionVault :=
  afterCommand twinLibraries ⟨sampleEventId 5, 5⟩ twinVault
    (.revertScenarioApplyConfirmed (sampleEventId 1) [])

theorem twinVault_reached {allowed : AssumptionVault → List Uuid → ScenarioCommand → Prop}
    (always : ∀ command ∈ twinCommands, ∀ vault applied, allowed vault applied command) :
    Reached twinLibraries allowed twinVault [sampleEventId 1] := by
  have ran : runCommands twinLibraries 1 twinCommands .empty = some twinVault := by decide +kernel
  exact reached_of_runCommands .start always ran

/-- An applied rate is edited, and the retired undo leaves the edit active; the scenario is applied
again over it. -/
def editedCommands : List ScenarioCommand :=
  [.createScenario ⟨sampleEventId 1, "Plan", none⟩,
    .recordAssumptionEvent (sampleEvent 10 (some 1)), .applyScenario (sampleEventId 1),
    .supersedeAssumptionEvent (sampleEventId 103) (sampleEvent 30 none),
    .revertScenarioApply (sampleEventId 1), .applyScenario (sampleEventId 1)]

def editedVault : AssumptionVault := (runSample 1 editedCommands .empty).getD .empty

def editedUndone : AssumptionVault :=
  afterCommand sampleLibraries ⟨sampleEventId 7, 7⟩ editedVault
    (.revertScenarioApplyConfirmed (sampleEventId 1) [])

end Dohflow.DbWorker
