/-
This file says once what an accepted scenario or assumption command can do: to the links
of the events, and to which scenarios are applied.

Every invariant of runs is derived from `effect_of_dispatch`. The first one is that the
links stay sound and that the scenarios marked as applied are those whose apply was not
undone (`VaultSound.dispatch`).
-/

import Dohflow.DbWorker.AssumptionLinks

namespace Dohflow.DbWorker

open SyncCore Fallible KeyedTable

variable {libraries : Libraries} {request : CommandMeta} {vault vault' : AssumptionVault}
  {events after : EventTable} {scenario id : Uuid} {row : EventRow}
variable {applied : List Uuid} {fields : ScenarioRow → ScenarioRow} {scenarios : ScenarioTable}
  {command : ScenarioCommand} {event : NewAssumptionEvent} {source clone : Uuid}

/-! ### New events -/

/-- A new active event that replaces nothing and was not promoted. -/
def Grows (before after : EventTable) : Prop :=
  ∃ new, Extends before after new (fun _ => false) ∧ new.promotedFrom = none

theorem insertRow_eq_ok {Row : Type} {key : Row → Uuid} {table after : Table key} {row : Row} :
    insertRow table row = .ok after ↔ table.insert row = some after := by
  unfold insertRow
  cases table.insert row with
  | some inserted => simp
  | none => simp

theorem extends_insertRow (inserted : insertRow events row = .ok after)
    (active : row.status = .active) (unlinked : row.supersededBy = none) :
    Extends events after row fun _ => false := by
  rw [insertRow_eq_ok] at inserted
  refine ⟨(Table.insert_eq_some_iff.mp inserted).1, active, unlinked, fun id => ?_,
    fun _ _ _ replaced => absurd replaced Bool.false_ne_true⟩
  rw [Table.find_insert inserted]
  simp

theorem insertEvent_eq_ok (inserted : insertEvent libraries request event vault = .ok vault') :
    vault'.scenarios = vault.scenarios ∧
      insertRow vault.events (event.row (issuedAtText libraries request)) = .ok vault'.events := by
  unfold insertEvent at inserted
  rw [check_bind_eq_ok, check_bind_eq_ok, check_bind_eq_ok, bind_eq_ok] at inserted
  obtain ⟨-, -, -, events, inserted, done⟩ := inserted
  obtain rfl := Except.ok.inj done
  exact ⟨rfl, inserted⟩

theorem grows_insertEvent (inserted : insertEvent libraries request event vault = .ok vault') :
    vault'.scenarios = vault.scenarios ∧ Grows vault.events vault'.events := by
  obtain ⟨same, inserted⟩ := insertEvent_eq_ok inserted
  exact ⟨same, _, extends_insertRow inserted rfl rfl, rfl⟩

theorem grown_cloneEvents {ordinal : Nat} {ids : List Uuid}
    (cloned : cloneEvents libraries request source clone ordinal ids events = .ok after) :
    Relation.ReflTransGen Grows events after := by
  induction ids generalizing ordinal events with
  | nil =>
    obtain rfl := Except.ok.inj cloned
    exact .refl
  | cons id rest inductionHypothesis =>
    rw [cloneEvents] at cloned
    cases found : (events.find id).filter (·.scenarioId = some source) with
    | none => simp [found] at cloned
    | some row =>
      simp only [found, bind_eq_ok] at cloned
      obtain ⟨between, inserted, cloned⟩ := cloned
      exact .head ⟨_, extends_insertRow inserted rfl rfl, rfl⟩ (inductionHypothesis cloned)

/-! ### Edits and clears -/

/-- An edit inserts the replacement, to which the old event is linked. -/
theorem extends_supersede {replacement : NewAssumptionEvent}
    (edited : applySupersedeAssumptionEvent libraries request id replacement vault = .ok vault') :
    vault'.scenarios = vault.scenarios ∧ ∃ old, vault.events.find id = some old ∧
      old.status = .active ∧ Extends vault.events vault'.events
        (replacement.row (issuedAtText libraries request)) (·.id = id) := by
  unfold applySupersedeAssumptionEvent at edited
  rw [ensure_bind_eq_ok, bind_eq_ok] at edited
  obtain ⟨different, old, active, edited⟩ := edited
  rw [ensure_bind_eq_ok, bind_eq_ok] at edited
  obtain ⟨scope, between, inserted, done⟩ := edited
  obtain rfl := Except.ok.inj done
  obtain ⟨same, inserted⟩ := insertEvent_eq_ok inserted
  rw [insertRow_eq_ok] at inserted
  have active : vault.events.find id = some old ∧ old.status = .active := by
    unfold requireActive at active
    cases found : vault.events.find id with
    | none => simp [found] at active
    | some row =>
      simp only [found] at active
      split at active
      · next isActive =>
        obtain rfl := Except.ok.inj active
        exact ⟨rfl, isActive⟩
      · cases active
  refine ⟨same, old, active.1, active.2,
    ⟨(Table.insert_eq_some_iff.mp inserted).1, rfl, rfl, fun other => ?_, ?_⟩⟩
  · rw [Table.find_update, Table.find_insert inserted]
    split
    · have kept : ¬ (replacement.row (issuedAtText libraries request)).id = id := different
      rw [Option.map_some, if_neg (by simpa using kept)]
    · rfl
  · intro other row found selected
    rw [decide_eq_true_eq] at selected
    obtain rfl := find_id found
    rw [selected] at found
    obtain rfl := Option.some.inj (found.symm.trans active.1)
    exact ⟨active.2, scope, fun promoted => absurd rfl promoted⟩

theorem clears_clear (cleared : applyClearAssumptionEvent id vault = .ok vault') :
    vault'.scenarios = vault.scenarios ∧
      ∃ clears, Clears vault.events vault'.events clears := by
  unfold applyClearAssumptionEvent at cleared
  split at cleared
  · obtain rfl := Except.ok.inj cleared
    refine ⟨rfl, fun _ => false, fun other => ?_,
      fun _ _ _ clears => absurd clears Bool.false_ne_true⟩
    simp
  · rw [bind_eq_ok] at cleared
    obtain ⟨old, active, done⟩ := cleared
    obtain rfl := Except.ok.inj done
    refine ⟨rfl, (·.id = id), fun other => by rw [Table.find_update],
      fun other row found selected => ?_⟩
    rw [decide_eq_true_eq] at selected
    obtain rfl := find_id found
    unfold requireActive at active
    rw [← selected, found] at active
    simp only at active
    split at active
    · assumption
    · cases active

/-! ### Applies -/

theorem extends_promote {k : Nat} {event : EventRow}
    (promoted : promote libraries request scenario k event events = .ok after) :
    ∃ newId createdAt, Extends events after (event.promoted scenario newId createdAt)
      fun row => event.key.kind.supersedesOnPromotion && row.holds event.key := by
  unfold promote at promoted
  rw [insertRow_eq_ok] at promoted
  generalize libraries.keyedEventId request.commandId scenario event.id = newId at promoted
  generalize libraries.toRfc3339 (request.issuedAt + k) = createdAt at promoted
  refine ⟨newId, createdAt, ?_⟩
  have updated : ∀ id, (if event.key.kind.supersedesOnPromotion = true then
      events.update (·.holds event.key) (·.supersede newId) fun row => row.supersede_id _
      else events).find id = (events.find id).map fun row =>
        if (event.key.kind.supersedesOnPromotion && row.holds event.key) = true then
          row.supersede newId else row := by
    intro id
    cases event.key.kind.supersedesOnPromotion with
    | true =>
      rw [if_pos rfl, Table.find_update]
      simp only [Bool.true_and]
    | false => simp
  refine ⟨?_, rfl, rfl, fun id => ?_, fun id row found replaced => ?_⟩
  · have vacant := (Table.insert_eq_some_iff.mp promoted).1
    rw [updated, Option.map_eq_none_iff] at vacant
    exact vacant
  · rw [Table.find_insert promoted]
    split
    · rfl
    · rw [updated]
      rfl
  · obtain ⟨collision, holds⟩ := Bool.and_eq_true_iff.mp replaced
    obtain ⟨isBase, active, same⟩ := holds_iff.mp holds
    rw [same]
    exact ⟨active, isBase, fun _ => ⟨rfl, collision⟩⟩

/-! ### Undos -/

theorem requireApplied_eq_ok {missing : String}
    (required : requireApplied scenarios id missing = .ok ()) :
    stillApplied scenarios id = true := by
  unfold requireApplied at required
  unfold stillApplied
  cases found : scenarios.find id with
  | none => simp [found] at required
  | some row =>
    simp only [found] at required
    split at required
    · cases required
    · next applied => simpa [Option.isSome_iff_ne_none] using applied

theorem stillApplied_setScenario (other : Uuid) :
    stillApplied (setScenario scenarios scenario fields) other =
      if other = scenario then (scenarios.find scenario).any fun row => (fields row).appliedAt.isSome
      else stillApplied scenarios other := by
  unfold stillApplied setScenario
  rw [Table.find_update]
  split
  · next same =>
    rw [same]
    cases found : scenarios.find scenario with
    | none => rfl
    | some row =>
      have sameId := (Table.find_eq_some_iff.mp found).2
      simp [sameId, ScenarioRow.set]
  · next different =>
    cases found : scenarios.find other with
    | none => rfl
    | some row =>
      have sameId := (Table.find_eq_some_iff.mp found).2
      simp [sameId, different]

theorem stillApplied_unapply (other : Uuid) :
    stillApplied (unapply scenarios scenario) other =
      (decide (other ≠ scenario) && stillApplied scenarios other) := by
  unfold unapply
  rw [stillApplied_setScenario]
  split
  · next same => simp [same]
  · next different => simp [different]

theorem undoes_of_find {change : EventRow → EventRow} (alone : Alone events scenario)
    (found : ∀ id, after.find id = (events.find id).map change)
    (undone : ∀ id row, events.find id = some row → Undone events scenario row (change row)) :
    Undoes events after scenario where
  alone := alone
  found_old id row foundRow := by
    refine ⟨change row, ?_, undone id row foundRow⟩
    rw [found, foundRow, Option.map_some]
  found_cases id now foundNow := by
    rw [found, Option.map_eq_some_iff] at foundNow
    obtain ⟨row, foundRow, rfl⟩ := foundNow
    exact ⟨row, foundRow, undone id row foundRow⟩

/-- What clearing the scenario's own active rows makes of a row. -/
def clearOwn (scenario : Uuid) (row : EventRow) : EventRow :=
  if (row.promotedFrom = some scenario && row.status = .active) = true then row.clear else row

theorem clearOwn_of_other (other : row.promotedFrom ≠ some scenario) :
    clearOwn scenario row = row := by
  rw [clearOwn, if_neg]
  simp [other]

theorem clearOwn_of_inactive (inactive : row.status ≠ .active) : clearOwn scenario row = row := by
  rw [clearOwn, if_neg]
  simp [inactive]

theorem clearOwn_of_active (own : row.promotedFrom = some scenario)
    (active : row.status = .active) : clearOwn scenario row = row.clear := by
  rw [clearOwn, if_pos]
  simp [own, active]

/-- What an undo by a plan makes of a row. -/
def undoRow (plan : RevertPlan) (scenario : Uuid) (row : EventRow) : EventRow :=
  let cleared := if row.id ∈ plan.descendants then row.clear else row
  clearOwn scenario (if row.id ∈ plan.restore then cleared.restore else cleared)

/-- An open plan makes of each row what an undo does. -/
theorem OpenPlan.undone {plan : RevertPlan} (plans : OpenPlan vault scenario plan)
    (found : vault.events.find row.id = some row) :
    Undone vault.events scenario row (undoRow plan scenario row) := by
  unfold undoRow
  by_cases listed : row.id ∈ plan.descendants
  · obtain ⟨lineage, other, foundOther, plain, active⟩ := (plans.descendants row.id).mp listed
    obtain rfl := Option.some.inj (found.symm.trans foundOther)
    have outside : row.id ∉ plan.restore := by
      intro inside
      obtain ⟨old, foundOld, retired, -⟩ := (plans.restore row.id).mp inside
      obtain rfl := Option.some.inj (found.symm.trans foundOld)
      rw [(retiredBy_iff.mp retired).1] at active
      cases active
    have other : row.clear.promotedFrom ≠ some scenario := by
      rw [EventRow.clear, plain]
      intro same
      cases same
    simp only [if_pos listed, if_neg outside, clearOwn_of_other other]
    exact .descendant lineage plain active
  · by_cases inside : row.id ∈ plan.restore
    · obtain ⟨old, foundOld, retired, free⟩ := (plans.restore row.id).mp inside
      obtain rfl := Option.some.inj (found.symm.trans foundOld)
      simp only [if_neg listed, if_pos inside]
      by_cases own : row.promotedFrom = some scenario
      · have cleared : clearOwn scenario row.restore = row.restore.clear :=
          clearOwn_of_active own rfl
        rw [cleared]
        exact .ownRetired own retired
      · have same : clearOwn scenario row.restore = row.restore := clearOwn_of_other own
        rw [same]
        exact .restored retired own free
    · simp only [if_neg listed, if_neg inside]
      by_cases own : row.promotedFrom = some scenario ∧ row.status = .active
      · rw [clearOwn_of_active own.1 own.2]
        exact .ownActive own.1 own.2
      · have same : clearOwn scenario row = row := by
          by_cases isOwn : row.promotedFrom = some scenario
          · exact clearOwn_of_inactive fun active => own ⟨isOwn, active⟩
          · exact clearOwn_of_other isOwn
        rw [same]
        refine .kept (fun lineage plain active => ?_) (fun retired => ?_)
          fun isOwn active => own ⟨isOwn, active⟩
        · exact listed ((plans.descendants row.id).mpr ⟨lineage, row, found, plain, active⟩)
        · have held : ∃ holder, Holder vault.events scenario row holder := by
            by_contra free
            exact inside ((plans.restore row.id).mpr ⟨row, found, retired, free⟩)
          obtain ⟨holder, holds⟩ := held
          exact ⟨(collides_iff.mp holds.collides).1, holder, holds⟩

theorem undoes_confirmed {confirmed : List Uuid}
    (reverted : revertScenarioApplyConfirmed scenario confirmed vault = .ok vault') :
    stillApplied vault.scenarios scenario = true ∧
      vault'.scenarios = unapply vault.scenarios scenario ∧
      OpenPlan vault scenario (planRevert scenario vault) ∧
      (planRevert scenario vault).descendants = confirmed ∧
      Undoes vault.events vault'.events scenario := by
  unfold revertScenarioApplyConfirmed at reverted
  rw [ensure_bind_eq_ok, check_bind_eq_ok] at reverted
  obtain ⟨-, applied, reverted⟩ := reverted
  rw [ensure_bind_eq_ok, ensure_bind_eq_ok] at reverted
  obtain ⟨unblocked, listed, done⟩ := reverted
  obtain rfl := Except.ok.inj done
  have plan : OpenPlan vault scenario (planRevert scenario vault) := by
    rcases planRevert_cases vault scenario with ⟨later, blocked, -⟩ | ⟨-, later, blocked, -⟩ | plan
    · rw [unblocked] at blocked
      cases blocked
    · rw [unblocked] at blocked
      cases blocked
    · exact plan
  refine ⟨requireApplied_eq_ok applied, rfl, plan, listed, undoes_of_find plan.alone
    (fun id => ?_) fun id row found => plan.undone (by rwa [find_id found])⟩
  rw [clearPromoted, Table.find_update, Table.find_update, Table.find_update, Option.map_map,
    Option.map_map]
  refine congrArg (fun change => Option.map change _) (funext fun row => ?_)
  have sameId : (if row.id ∈ (planRevert scenario vault).descendants then row.clear
      else row).id = row.id := by
    split <;> rfl
  simp only [Function.comp_apply, decide_eq_true_eq, sameId, clearOwn, undoRow]

/-! ### What an accepted command can do -/

/-- The same scenarios are applied. -/
def SameApplied (vault vault' : AssumptionVault) : Prop :=
  ∀ other, stillApplied vault'.scenarios other = stillApplied vault.scenarios other

/-- The applied scenarios after a command, the last applied one first. -/
def appliedAfter : ScenarioCommand → List Uuid → List Uuid
  | .applyScenario scenario, applied => scenario :: applied
  | .revertScenarioApply scenario, applied => applied.filter (· ≠ scenario)
  | .revertScenarioApplyConfirmed scenario _, applied => applied.filter (· ≠ scenario)
  | _, applied => applied

/-- The effect of an accepted command. -/
inductive Effect (libraries : Libraries) (request : CommandMeta) (vault vault' : AssumptionVault) :
    ScenarioCommand → Prop
  | grown {command : ScenarioCommand} (grown : Relation.ReflTransGen Grows vault.events vault'.events)
      (same : SameApplied vault vault') (order : ∀ applied, appliedAfter command applied = applied) :
      Effect libraries request vault vault' command
  | edited {id : Uuid} {replacement : NewAssumptionEvent} {old : EventRow} {createdAt : String}
      (found : vault.events.find id = some old) (active : old.status = .active)
      (extended : Extends vault.events vault'.events (replacement.row createdAt) (·.id = id))
      (same : SameApplied vault vault') :
      Effect libraries request vault vault' (.supersedeAssumptionEvent id replacement)
  | cleared {id : Uuid} {clears : EventRow → Bool}
      (cleared : Clears vault.events vault'.events clears) (same : SameApplied vault vault') :
      Effect libraries request vault vault' (.clearAssumptionEvent id)
  | applied {scenario : Uuid} (unapplied : stillApplied vault.scenarios scenario = false)
      (promotes : promotable vault.events scenario ≠ [])
      (promoted : promoteAll libraries request scenario 0 (promotable vault.events scenario)
        vault.events = .ok vault'.events)
      (marked : ∀ other, stillApplied vault'.scenarios other =
        (decide (other = scenario) || stillApplied vault.scenarios other)) :
      Effect libraries request vault vault' (.applyScenario scenario)
  | retired {scenario : Uuid} (applied : stillApplied vault.scenarios scenario = true)
      (found : ∀ id, vault'.events.find id = (vault.events.find id).map fun row =>
        clearOwn scenario (if row.retiredBy vault.events scenario then row.restore else row))
      (unmarked : vault'.scenarios = unapply vault.scenarios scenario) :
      Effect libraries request vault vault' (.revertScenarioApply scenario)
  | undone {scenario : Uuid} {confirmed : List Uuid}
      (applied : stillApplied vault.scenarios scenario = true)
      (plan : OpenPlan vault scenario (planRevert scenario vault))
      (undoes : Undoes vault.events vault'.events scenario)
      (unmarked : vault'.scenarios = unapply vault.scenarios scenario) :
      Effect libraries request vault vault' (.revertScenarioApplyConfirmed scenario confirmed)

theorem sameApplied_setScenario (keeps : ∀ row, (fields row).appliedAt = row.appliedAt) :
    SameApplied vault { vault with scenarios := setScenario vault.scenarios id fields } := by
  intro other
  rw [stillApplied_setScenario]
  split
  · next same =>
    simp only [same, stillApplied, keeps]
  · rfl

theorem effect_setScenario (keeps : ∀ row, (fields row).appliedAt = row.appliedAt)
    (order : ∀ applied, appliedAfter command applied = applied) :
    Effect libraries request vault
      { vault with scenarios := setScenario vault.scenarios id fields } command :=
  .grown .refl (sameApplied_setScenario keeps) order

theorem stillApplied_insertRow {scenarios after : ScenarioTable} {row : ScenarioRow}
    (inserted : insertRow scenarios row = .ok after) (unapplied : row.appliedAt = none)
    (other : Uuid) : stillApplied after other = stillApplied scenarios other := by
  rw [insertRow_eq_ok] at inserted
  unfold stillApplied
  rw [Table.find_insert inserted]
  split
  · next same =>
    rw [same, (Table.insert_eq_some_iff.mp inserted).1]
    simp [unapplied]
  · rfl

theorem effect_createScenario {new : NewScenario}
    (created : applyCreateScenario new vault = .ok vault') :
    Effect libraries request vault vault' (.createScenario new) := by
  unfold applyCreateScenario at created
  rw [bind_eq_ok] at created
  obtain ⟨name, -, created⟩ := created
  rw [ensure_bind_eq_ok, bind_eq_ok] at created
  obtain ⟨-, scenarios, inserted, done⟩ := created
  obtain rfl := Except.ok.inj done
  exact .grown .refl (stillApplied_insertRow inserted rfl) fun _ => rfl

theorem effect_cloneScenario {name : String} {eventIds : List Uuid}
    (cloned : applyCloneScenario libraries request source clone name eventIds vault = .ok vault') :
    Effect libraries request vault vault' (.cloneScenario source clone name eventIds) := by
  unfold applyCloneScenario at cloned
  rw [bind_eq_ok] at cloned
  obtain ⟨_, -, cloned⟩ := cloned
  rw [ensure_bind_eq_ok, ensure_bind_eq_ok, check_bind_eq_ok, ensure_bind_eq_ok, bind_eq_ok]
    at cloned
  obtain ⟨-, -, -, -, scenarios, inserted, cloned⟩ := cloned
  rw [bind_eq_ok] at cloned
  obtain ⟨events, cloned, done⟩ := cloned
  obtain rfl := Except.ok.inj done
  exact .grown (grown_cloneEvents cloned) (stillApplied_insertRow inserted rfl) fun _ => rfl

theorem effect_applyScenario
    (applied : applyScenario libraries request scenario vault = .ok vault') :
    Effect libraries request vault vault' (.applyScenario scenario) := by
  unfold applyScenario at applied
  rw [check_bind_eq_ok, ensure_bind_eq_ok, ensure_bind_eq_ok, bind_eq_ok] at applied
  obtain ⟨live, unapplied, promotes, events, promoted, done⟩ := applied
  obtain rfl := Except.ok.inj done
  refine .applied unapplied promotes promoted fun other => ?_
  rw [stillApplied_setScenario]
  split
  · next same =>
    unfold requireLive at live
    cases found : vault.scenarios.find scenario with
    | none => simp [found] at live
    | some row => simp [same]
  · next different => simp [different]

theorem effect_revertScenarioApply
    (reverted : revertScenarioApply scenario vault = .ok vault') :
    Effect libraries request vault vault' (.revertScenarioApply scenario) := by
  unfold revertScenarioApply at reverted
  rw [check_bind_eq_ok] at reverted
  obtain ⟨applied, done⟩ := reverted
  obtain rfl := Except.ok.inj done
  refine .retired (requireApplied_eq_ok applied) (fun id => ?_) rfl
  rw [clearPromoted, Table.find_update, Table.find_update, Option.map_map]
  rfl

/-- Every accepted command has an effect. -/
theorem effect_of_dispatch (accepted : dispatch libraries request vault command = .ok vault') :
    Effect libraries request vault vault' command := by
  cases command with
  | recordAssumptionEvent event =>
    obtain ⟨same, grows⟩ := grows_insertEvent accepted
    exact .grown (.single grows) (fun other => by rw [same]) fun _ => rfl
  | supersedeAssumptionEvent id replacement =>
    obtain ⟨same, old, found, active, extended⟩ := extends_supersede accepted
    exact .edited found active extended fun other => by rw [same]
  | clearAssumptionEvent id =>
    obtain ⟨same, clears, cleared⟩ := clears_clear accepted
    exact .cleared cleared fun other => by rw [same]
  | createScenario new => exact effect_createScenario accepted
  | setScenarioStatus id status =>
    obtain ⟨-, done⟩ := check_bind_eq_ok.mp accepted
    obtain rfl := Except.ok.inj done
    exact effect_setScenario (fun _ => rfl) fun _ => rfl
  | renameScenario id name =>
    obtain ⟨cleaned, -, accepted⟩ := bind_eq_ok.mp accepted
    obtain ⟨-, done⟩ := check_bind_eq_ok.mp accepted
    obtain rfl := Except.ok.inj done
    exact effect_setScenario (fun _ => rfl) fun _ => rfl
  | setScenarioExpiry id expiresOn =>
    obtain ⟨-, accepted⟩ := ensure_bind_eq_ok.mp accepted
    obtain ⟨-, done⟩ := check_bind_eq_ok.mp accepted
    obtain rfl := Except.ok.inj done
    exact effect_setScenario (fun _ => rfl) fun _ => rfl
  | cloneScenario source clone name eventIds => exact effect_cloneScenario accepted
  | deleteScenario id =>
    obtain ⟨-, done⟩ := ensure_bind_eq_ok.mp accepted
    obtain rfl := Except.ok.inj done
    exact effect_setScenario (fun _ => rfl) fun _ => rfl
  | reinstateScenario id =>
    obtain ⟨-, done⟩ := ensure_bind_eq_ok.mp accepted
    obtain rfl := Except.ok.inj done
    exact effect_setScenario (fun _ => rfl) fun _ => rfl
  | applyScenario scenario => exact effect_applyScenario accepted
  | revertScenarioApply scenario => exact effect_revertScenarioApply accepted
  | revertScenarioApplyConfirmed scenario confirmed =>
    obtain ⟨applied, unmarked, plan, -, undoes⟩ := undoes_confirmed accepted
    exact .undone applied plan undoes unmarked

/-! ### Sound vaults -/

/-- A vault as the commands leave it: its links are sound, and the scenarios marked as applied are
those applied and not undone since. -/
structure VaultSound (vault : AssumptionVault) (applied : List Uuid) : Prop where
  events : EventsSound vault.events applied none
  marked : ∀ scenario, stillApplied vault.scenarios scenario = true ↔ scenario ∈ applied
  once : applied.Nodup

theorem vaultSound_empty : VaultSound .empty [] where
  events := eventsSound_empty
  marked scenario := by simp [stillApplied, AssumptionVault.empty, Table.empty, Table.find]
  once := List.nodup_nil

theorem EventsSound.grown (sound : EventsSound events applied none)
    (grown : Relation.ReflTransGen Grows events after) : EventsSound after applied none := by
  induction grown with
  | refl => exact sound
  | tail _ grows inductionHypothesis =>
    obtain ⟨new, extended, plain⟩ := grows
    exact inductionHypothesis.extended extended plain (fun promoted => absurd plain promoted) nofun

/-- Promoting events keeps the links sound, with the promoted ones active. -/
theorem EventsSound.promoted {k : Nat} {promotes : List EventRow}
    (sound : EventsSound events applied (some scenario)) (unapplied : scenario ∉ applied)
    (promoted : promoteAll libraries request scenario k promotes events = .ok after) :
    EventsSound after applied (some scenario) := by
  induction promotes generalizing k events with
  | nil =>
    obtain rfl := Except.ok.inj promoted
    exact sound
  | cons event rest inductionHypothesis =>
    rw [promoteAll, bind_eq_ok] at promoted
    obtain ⟨between, first, rest⟩ := promoted
    obtain ⟨newId, createdAt, extended⟩ := extends_promote first
    refine inductionHypothesis (sound.extended extended rfl (fun _ => rfl) ?_) rest
    intro owner same
    rwa [← Option.some.inj same]

/-- Before an apply nothing of the scenario is active. -/
theorem EventsSound.promoting (sound : EventsSound events applied none) (scenario : Uuid) :
    EventsSound events applied (some scenario) where
  linked := sound.linked
  base := sound.base
  present := sound.present
  apart := sound.apart
  idle owner outside id row lineage found :=
    (sound.idle owner outside id row lineage found).imp_right fun inactive active =>
      nomatch (inactive active).2

/-- After it, the scenario is applied. -/
theorem EventsSound.finished (sound : EventsSound events applied (some scenario)) :
    EventsSound events (scenario :: applied) none where
  linked := sound.linked
  base := sound.base
  present := sound.present
  apart := sound.apart
  idle owner outside id row lineage found := by
    obtain ⟨different, outside⟩ := not_or.mp (mt List.mem_cons.mpr outside)
    refine (sound.idle owner outside id row lineage found).imp_right fun inactive active => ?_
    exact absurd (Option.some.inj (inactive active).2).symm different

/-- An accepted command keeps a vault sound; the retired undo does where it does no more than the
confirmed one. -/
theorem VaultSound.dispatch (sound : VaultSound vault applied)
    (accepted : DbWorker.dispatch libraries request vault command = .ok vault')
    (retiredUndoes : ∀ scenario, command = .revertScenarioApply scenario →
      Undoes vault.events vault'.events scenario) :
    VaultSound vault' (appliedAfter command applied) := by
  have undone : ∀ scenario, Undoes vault.events vault'.events scenario →
      vault'.scenarios = unapply vault.scenarios scenario →
      VaultSound vault' (applied.filter (· ≠ scenario)) := by
    intro scenario undoes unmarked
    refine ⟨sound.events.undone undoes, fun other => ?_, sound.once.filter _⟩
    rw [unmarked, stillApplied_unapply, List.mem_filter, ← sound.marked]
    simp [and_comm]
  cases effect_of_dispatch accepted with
  | grown grown same order =>
    rw [order]
    exact ⟨sound.events.grown grown, fun other => by rw [same, sound.marked], sound.once⟩
  | edited found active extended same =>
    refine ⟨sound.events.extended extended rfl (fun promoted => absurd rfl promoted) nofun,
      fun other => ?_, sound.once⟩
    rw [same, sound.marked]
    rfl
  | cleared cleared same =>
    exact ⟨sound.events.cleared cleared, fun other => by rw [same, sound.marked]; rfl, sound.once⟩
  | @applied scenario unapplied _ promoted marked =>
    have outside : scenario ∉ applied := by
      rw [← sound.marked, unapplied]
      exact Bool.false_ne_true
    refine ⟨((sound.events.promoting scenario).promoted outside promoted).finished,
      fun other => ?_, List.nodup_cons.mpr ⟨outside, sound.once⟩⟩
    rw [marked, Bool.or_eq_true, decide_eq_true_eq, sound.marked]
    exact List.mem_cons.symm
  | @retired scenario _ _ unmarked => exact undone scenario (retiredUndoes scenario rfl) unmarked
  | @undone scenario _ _ _ undoes unmarked => exact undone scenario undoes unmarked

end Dohflow.DbWorker
