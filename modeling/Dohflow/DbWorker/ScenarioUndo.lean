/-
This file is about undoing an apply at once, and about what an undo leaves active, in any
run of the commands that are built today.

An undo that kept a newer value leaves the older one linked to what the scenario had
promoted. The next apply of the scenario finds that link again: `undo_restores_iff` says
that undoing it at once restores the base events exactly if and only if every event left
so is still held back by a newer one, and that an undo leaves at most one event for each
key if and only if it brings back at most one.
-/

import Dohflow.DbWorker.ScenarioSteps

namespace Dohflow.DbWorker

open SyncCore Fallible KeyedTable

variable {libraries : Libraries} {request : CommandMeta} {vault vault' : AssumptionVault}
  {before after : EventTable} {scenario id : Uuid} {row old : EventRow} {applied : List Uuid}

/-- The vaults that accepted commands lead to, with the applied scenarios, the last applied one
first; `allowed` says which commands are given in which vault. -/
inductive Reached (libraries : Libraries)
    (allowed : AssumptionVault → List Uuid → ScenarioCommand → Prop) :
    AssumptionVault → List Uuid → Prop
  | start : Reached libraries allowed .empty []
  | step {vault vault' : AssumptionVault} {applied : List Uuid} {request : CommandMeta}
      {command : ScenarioCommand} (reached : Reached libraries allowed vault applied)
      (permitted : allowed vault applied command)
      (accepted : dispatch libraries request vault command = .ok vault') :
      Reached libraries allowed vault' (appliedAfter command applied)

/-- Any command but the retired undo, which nothing builds any more. -/
def Current (_ : AssumptionVault) (_ : List Uuid) : ScenarioCommand → Prop
  | .revertScenarioApply _ => False
  | _ => True

theorem vaultSound_of_reached (reached : Reached libraries Current vault applied) :
    VaultSound vault applied := by
  induction reached with
  | start => exact vaultSound_empty
  | step reached permitted accepted inductionHypothesis =>
    refine inductionHypothesis.dispatch accepted fun scenario same => ?_
    subst same
    exact permitted.elim

/-! ### What an apply changes -/

/-- The keys at which promoting these events replaces what is active. -/
def collisionKeys (promotes : List EventRow) : List EventKey :=
  (promotes.map EventRow.key).filter fun key => key.kind.supersedesOnPromotion

/-- A table after the scenario's events were promoted. -/
structure Promotion (before after : EventTable) (scenario : Uuid) (keys : List EventKey) :
    Prop where
  kept : ∀ id row, before.find id = some row → (∀ key ∈ keys, row.holds key = false) →
    after.find id = some row
  replaced : ∀ id row key, before.find id = some row → key ∈ keys → row.holds key = true →
    ∃ new, after.find id = some (row.supersede new) ∧ PromotedBy after scenario new
  fresh : ∀ id row, after.find id = some row → before.find id = none →
    row.promotedFrom = some scenario
  lineage : ∀ owner id, InLineage after owner id → InLineage before owner id ∨
    before.find id = none
  ofBefore : ∀ owner id, InLineage before owner id → InLineage after owner id

namespace Promotion

variable {keys : List EventKey}

/-- A row that was there before was replaced or kept. -/
theorem found_old (promotion : Promotion before after scenario keys)
    (found : before.find id = some row) :
    (∀ key ∈ keys, row.holds key = false) ∧ after.find id = some row ∨
      ∃ key ∈ keys, row.holds key = true ∧ ∃ new, after.find id = some (row.supersede new) ∧
        PromotedBy after scenario new := by
  by_cases held : ∃ key ∈ keys, row.holds key = true
  · obtain ⟨key, inside, holds⟩ := held
    exact .inr ⟨key, inside, holds, promotion.replaced id row key found inside holds⟩
  · have free : ∀ key ∈ keys, row.holds key = false := fun key inside =>
      Bool.eq_false_iff.mpr fun holds => held ⟨key, inside, holds⟩
    exact .inl ⟨free, promotion.kept id row found free⟩

theorem found_cases (promotion : Promotion before after scenario keys)
    (found : after.find id = some row) :
    before.find id = none ∧ row.promotedFrom = some scenario ∨
      (before.find id = some row ∧ ∀ key ∈ keys, row.holds key = false) ∨
      ∃ old key new, before.find id = some old ∧ key ∈ keys ∧ old.holds key = true ∧
        row = old.supersede new ∧ PromotedBy after scenario new := by
  cases earlier : before.find id with
  | none => exact .inl ⟨rfl, promotion.fresh id row found earlier⟩
  | some old =>
    obtain ⟨free, kept⟩ | ⟨key, inside, holds, new, replaced, promoted⟩ :=
      promotion.found_old earlier
    · obtain rfl := Option.some.inj (found.symm.trans kept)
      exact .inr (.inl ⟨rfl, free⟩)
    · obtain rfl := Option.some.inj (found.symm.trans replaced)
      exact .inr (.inr ⟨old, key, new, rfl, inside, holds, rfl, promoted⟩)

theorem promotedBy (promotion : Promotion before after scenario keys) {owner : Uuid}
    (promoted : PromotedBy before owner id) : PromotedBy after owner id := by
  obtain ⟨row, found, from_⟩ := promoted
  obtain ⟨-, kept⟩ | ⟨-, -, -, new, replaced, -⟩ := promotion.found_old found
  · exact ⟨row, kept, from_⟩
  · exact ⟨row.supersede new, replaced, from_⟩

theorem nil : Promotion before before scenario [] where
  kept _ _ found _ := found
  replaced _ _ _ _ inside := absurd inside List.not_mem_nil
  fresh _ _ found absent := by
    rw [absent] at found
    cases found
  lineage _ _ lineage := .inl lineage
  ofBefore _ _ lineage := lineage

theorem trans {between : EventTable} {later : List EventKey}
    (first : Promotion before between scenario keys)
    (second : Promotion between after scenario later) :
    Promotion before after scenario (keys ++ later) where
  kept id row found free :=
    second.kept id row
      (first.kept id row found fun key inside => free key (List.mem_append_left _ inside))
      fun key inside => free key (List.mem_append_right _ inside)
  replaced id row key found inside holds := by
    obtain ⟨free, kept⟩ | ⟨-, -, -, new, replaced, promoted⟩ := first.found_old found
    · refine second.replaced id row key kept ?_ holds
      refine (List.mem_append.mp inside).resolve_left fun early => ?_
      rw [free key early] at holds
      cases holds
    · refine ⟨new, second.kept id _ replaced fun other _ => ?_, second.promotedBy promoted⟩
      simp [EventRow.holds, EventRow.supersede]
  fresh id row found absent := by
    obtain ⟨-, promoted⟩ | ⟨earlier, -⟩ | ⟨old, -, new, earlier, -, -, rfl, -⟩ :=
      second.found_cases found
    · exact promoted
    · exact first.fresh id row earlier absent
    · exact first.fresh id old earlier absent
  lineage owner id lineage := by
    rcases second.lineage owner id lineage with earlier | absent
    · exact first.lineage owner id earlier
    · refine .inr ?_
      cases found : before.find id with
      | none => rfl
      | some row =>
        obtain ⟨-, kept⟩ | ⟨-, -, -, new, replaced, -⟩ := first.found_old found
        · rw [kept] at absent
          cases absent
        · rw [replaced] at absent
          cases absent
  ofBefore owner id lineage := second.ofBefore owner id (first.ofBefore owner id lineage)

end Promotion

theorem promotion_extends {event : EventRow} {newId : Uuid} {createdAt : String}
    {promoting : Option Uuid} (sound : EventsSound before applied promoting)
    (extended : Extends before after (event.promoted scenario newId createdAt)
      fun row => event.key.kind.supersedesOnPromotion && row.holds event.key) :
    Promotion before after scenario (collisionKeys [event]) where
  kept id row found free := by
    rw [extended.found_old found, if_neg]
    intro replaced
    obtain ⟨collision, holds⟩ := Bool.and_eq_true_iff.mp replaced
    rw [free event.key (by simp [collisionKeys, collision])] at holds
    cases holds
  replaced id row key found inside holds := by
    obtain ⟨inside, collision⟩ := List.mem_filter.mp inside
    obtain rfl : key = event.key := by simpa using inside
    refine ⟨newId, ?_, _, extended.found_new, rfl⟩
    rw [extended.found_old found, if_pos (by rw [collision, holds]; rfl)]
    rfl
  fresh id row found absent := by
    obtain ⟨-, rfl⟩ | ⟨-, old, foundOld, -⟩ := extended.found_cases found
    · rfl
    · rw [absent] at foundOld
      cases foundOld
  lineage owner id lineage := by
    rcases extended.inLineage_cases lineage with earlier | ⟨rfl, -⟩
    · exact .inl earlier
    · exact .inr extended.fresh
  ofBefore owner id lineage := extended.inLineage_of_before sound lineage

theorem promotion_of_promoteAll {k : Nat} {promotes : List EventRow}
    (sound : EventsSound before applied (some scenario)) (unapplied : scenario ∉ applied)
    (promoted : promoteAll libraries request scenario k promotes before = .ok after) :
    Promotion before after scenario (collisionKeys promotes) := by
  induction promotes generalizing k before with
  | nil =>
    obtain rfl := Except.ok.inj promoted
    exact .nil
  | cons event rest inductionHypothesis =>
    rw [promoteAll, bind_eq_ok] at promoted
    obtain ⟨between, first, others⟩ := promoted
    obtain ⟨newId, createdAt, extended⟩ := extends_promote first
    have soundBetween : EventsSound between applied (some scenario) :=
      sound.extended extended rfl (fun _ => rfl) fun owner same => by rwa [← Option.some.inj same]
    have split : collisionKeys (event :: rest) = collisionKeys [event] ++ collisionKeys rest := by
      simp only [collisionKeys, ← List.filter_append, ← List.map_append, List.singleton_append]
    rw [split]
    exact (promotion_extends sound extended).trans (inductionHypothesis soundBetween others)

theorem mem_collisionKeys_promotable {key : EventKey} :
    key ∈ collisionKeys (promotable before scenario) ↔ key.kind.supersedesOnPromotion = true ∧
      ∃ event, before.find event.id = some event ∧ event.scenarioId = some scenario ∧
        event.status = .active ∧ event.key = key := by
  simp only [collisionKeys, promotable, List.mem_filter, List.mem_map, mem_selectOrdered,
    Bool.and_eq_true, decide_eq_true_eq, and_assoc]
  exact and_comm

/-! ### What an undo at once restores -/

/-- The active base events: id, kind and target, and parameters. -/
def activeBase (events : EventTable) : Set (Uuid × EventKey × String) :=
  {entry | ∃ row, events.find entry.1 = some row ∧ row.scenarioId = none ∧ row.status = .active ∧
    row.key = entry.2.1 ∧ row.paramsJson = entry.2.2}

/-- Undoing the apply that led from one vault to the next succeeds, with nothing to confirm, and
leaves the active base events of the first one. -/
def RestoresExactly (libraries : Libraries) (vault next : AssumptionVault) (scenario : Uuid) :
    Prop :=
  (planRevert scenario next).descendants = [] ∧ (planRevert scenario next).blocker = none ∧
    ∀ request, ∃ undone, dispatch libraries request next
        (.revertScenarioApplyConfirmed scenario (planRevert scenario next).descendants) =
          .ok undone ∧
      activeBase undone.events = activeBase vault.events

/-- Each event that an earlier apply of the scenario left superseded has an active base event with
its key, none of them made by an applied scenario, and the scenario has no active event with it. -/
def StaleHeld (vault : AssumptionVault) (scenario : Uuid) : Prop :=
  ∀ old, vault.events.find old.id = some old → old.retiredBy vault.events scenario = true →
    old.promotedFrom ≠ some scenario →
    (∀ event, vault.events.find event.id = some event → event.scenarioId = some scenario →
      event.status = .active → event.key ≠ old.key) ∧
    (∃ row, vault.events.find row.id = some row ∧ row.holds old.key = true) ∧
    ∀ row, vault.events.find row.id = some row → row.holds old.key = true →
      ∀ owner, stillApplied vault.scenarios owner = true → ¬ InLineage vault.events owner row.id

/-- The state right after an apply, seen from the state before it. -/
structure JustApplied (vault next : AssumptionVault) (scenario : Uuid) (applied : List Uuid) :
    Prop where
  before : VaultSound vault applied
  outside : scenario ∉ applied
  promotion : Promotion vault.events next.events scenario
    (collisionKeys (promotable vault.events scenario))
  /-- What the scenario promoted is active, and nothing else in its lineage. -/
  after : EventsSound next.events applied (some scenario)
  marked : ∀ other, stillApplied next.scenarios other =
    (decide (other = scenario) || stillApplied vault.scenarios other)

theorem justApplied_of_dispatch (sound : VaultSound vault applied)
    (accepted : dispatch libraries request vault (.applyScenario scenario) = .ok vault') :
    JustApplied vault vault' scenario applied := by
  cases effect_of_dispatch accepted with
  | grown _ _ order => exact absurd (order []) (List.cons_ne_nil _ _)
  | applied unapplied promotes promoted marked =>
    have outside : scenario ∉ applied := by
      rw [← sound.marked, unapplied]
      exact Bool.false_ne_true
    have promoting := sound.events.promoting scenario
    exact ⟨sound, outside, promotion_of_promoteAll promoting outside promoted,
      promoting.promoted outside promoted, marked⟩

namespace JustApplied

variable {next : AssumptionVault}

theorem own_of_lineage (just : JustApplied vault next scenario applied)
    (found : next.events.find id = some row) (active : row.status = .active)
    (lineage : InLineage next.events scenario id) : row.promotedFrom = some scenario :=
  ((just.after.idle scenario just.outside id row lineage found).2 active).1

theorem alone (just : JustApplied vault next scenario applied) : Alone next.events scenario :=
  fun id row lineage found => (just.after.idle scenario just.outside id row lineage found).1

theorem other_of_active (just : JustApplied vault next scenario applied)
    (found : vault.events.find id = some row) (active : row.status = .active) :
    row.promotedFrom ≠ some scenario :=
  fun promoted => just.outside (just.before.events.applied_of_active found promoted active)

theorem found_before (just : JustApplied vault next scenario applied)
    (found : next.events.find id = some row) (active : row.status = .active)
    (other : row.promotedFrom ≠ some scenario) :
    vault.events.find id = some row ∧
      ∀ key ∈ collisionKeys (promotable vault.events scenario), row.holds key = false := by
  obtain ⟨-, promoted⟩ | kept | ⟨old, -, new, -, -, -, rfl, -⟩ := just.promotion.found_cases found
  · exact absurd promoted other
  · exact kept
  · cases active

theorem held_before (just : JustApplied vault next scenario applied)
    (holder : Holder next.events scenario old row) :
    vault.events.find row.id = some row ∧ row.holds old.key = true ∧
      old.key ∉ collisionKeys (promotable vault.events scenario) := by
  obtain ⟨-, active, -⟩ := holds_iff.mp holder.holds
  obtain ⟨found, free⟩ := just.found_before holder.found active holder.other
  refine ⟨found, holder.holds, fun inside => ?_⟩
  exact Bool.false_ne_true ((free old.key inside).symm.trans holder.holds)

theorem holder_of_before (just : JustApplied vault next scenario applied)
    (collides : old.collides scenario = true) (found : vault.events.find row.id = some row)
    (holds : row.holds old.key = true)
    (vacant : old.key ∉ collisionKeys (promotable vault.events scenario)) :
    Holder next.events scenario old row := by
  obtain ⟨isBase, active, same⟩ := holds_iff.mp holds
  have other := just.other_of_active found active
  have kept : next.events.find row.id = some row := by
    refine just.promotion.kept row.id row found fun key inside => ?_
    rw [Bool.eq_false_iff]
    intro held
    rw [← (holds_iff.mp held).2.2, same] at inside
    exact vacant inside
  exact ⟨collides, kept, holds, other, fun lineage =>
    other (just.own_of_lineage kept active lineage)⟩

theorem retired_cases (just : JustApplied vault next scenario applied)
    (found : next.events.find old.id = some old)
    (retired : old.retiredBy next.events scenario = true)
    (other : old.promotedFrom ≠ some scenario) :
    vault.events.find old.id = some old ∧ old.retiredBy vault.events scenario = true ∨
      ∃ row new, vault.events.find row.id = some row ∧ row.scenarioId = none ∧
        row.status = .active ∧ old = row.supersede new ∧
        old.key ∈ collisionKeys (promotable vault.events scenario) := by
  obtain ⟨-, promoted⟩ | ⟨earlier, -⟩ | ⟨row, key, new, earlier, inside, holds, same, -⟩ :=
    just.promotion.found_cases found
  · exact absurd promoted other
  · refine .inl ⟨earlier, ?_⟩
    obtain ⟨superseded, successor, link, last, foundLast, promoted⟩ := retiredBy_iff.mp retired
    refine retiredBy_iff.mpr ⟨superseded, successor, link, ?_⟩
    obtain ⟨first, foundFirst, -⟩ := just.before.events.present old.id old successor earlier link
    obtain ⟨-, kept⟩ | ⟨-, -, -, new, replaced, -⟩ := just.promotion.found_old foundFirst
    · obtain rfl := Option.some.inj (foundLast.symm.trans kept)
      exact ⟨last, foundFirst, promoted⟩
    · obtain rfl := Option.some.inj (foundLast.symm.trans replaced)
      exact ⟨first, foundFirst, promoted⟩
  · obtain ⟨isBase, active, sameKey⟩ := holds_iff.mp holds
    refine .inr ⟨row, new, by rw [find_id earlier]; exact earlier, isBase, active, same, ?_⟩
    rw [same]
    rwa [← sameKey] at inside

theorem retired_of_before (just : JustApplied vault next scenario applied)
    (found : vault.events.find old.id = some old)
    (retired : old.retiredBy vault.events scenario = true) :
    next.events.find old.id = some old ∧ old.retiredBy next.events scenario = true := by
  obtain ⟨superseded, successor, link, promoted⟩ := retiredBy_iff.mp retired
  refine ⟨just.promotion.kept old.id old found fun key _ => ?_,
    retiredBy_iff.mpr ⟨superseded, successor, link, just.promotion.promotedBy promoted⟩⟩
  simp [EventRow.holds, superseded]

theorem collides_of_retired (just : JustApplied vault next scenario applied)
    (found : vault.events.find old.id = some old)
    (retired : old.retiredBy vault.events scenario = true)
    (other : old.promotedFrom ≠ some scenario) :
    old.collides scenario = true ∧ old.scenarioId = none := by
  obtain ⟨-, successor, link, row, foundRow, promoted⟩ := retiredBy_iff.mp retired
  obtain ⟨last, foundLast, scope, keyed⟩ :=
    just.before.events.present old.id old successor found link
  obtain rfl := Option.some.inj (foundRow.symm.trans foundLast)
  have wasPromoted : row.promotedFrom ≠ none := by
    rw [promoted]
    exact nofun
  exact ⟨collides_iff.mpr ⟨other, (keyed wasPromoted).2⟩,
    scope.trans (just.before.events.base successor row foundRow wasPromoted)⟩

theorem openPlan_of_staleHeld (just : JustApplied vault next scenario applied)
    (held : StaleHeld vault scenario) :
    OpenPlan next scenario (planRevert scenario next) := by
  obtain ⟨later, -, different, id, lineage, row, found, promoted⟩ |
    ⟨-, later, -, old, row, found, retired, holder, behind⟩ | plan :=
    planRevert_cases next scenario
  · rcases just.alone id row lineage found with plain | own
    · rw [plain] at promoted
      cases promoted
    · exact absurd (Option.some.inj (promoted.symm.trans own)) different
  · obtain ⟨foundRow, holds, vacant⟩ := just.held_before holder
    obtain ⟨different, isApplied, lineage⟩ := laterApplyBehind_some holder.found behind
    have other := (collides_iff.mp holder.collides).1
    obtain ⟨foundOld, retiredOld⟩ | ⟨-, -, -, -, -, -, inside⟩ :=
      just.retired_cases found retired other
    · obtain ⟨-, -, unmade⟩ := held old foundOld retiredOld other
      rw [just.marked, decide_eq_false different, Bool.false_or] at isApplied
      rcases just.promotion.lineage later row.id lineage with earlier | absent
      · exact absurd earlier (unmade row foundRow holds later isApplied)
      · rw [foundRow] at absent
        cases absent
    · exact absurd inside vacant
  · exact plan

theorem descendants_nil (just : JustApplied vault next scenario applied)
    (plan : OpenPlan next scenario (planRevert scenario next)) :
    (planRevert scenario next).descendants = [] := by
  refine List.eq_nil_iff_forall_not_mem.mpr fun id inside => ?_
  obtain ⟨lineage, row, found, plain, active⟩ := (plan.descendants id).mp inside
  rw [just.own_of_lineage found active lineage] at plain
  cases plain

end JustApplied

theorem revert_accepted (plan : OpenPlan vault scenario (planRevert scenario vault))
    (isApplied : stillApplied vault.scenarios scenario = true) :
    ∃ undone, revertScenarioApplyConfirmed scenario (planRevert scenario vault).descendants vault =
      .ok undone := by
  have required : requireApplied vault.scenarios scenario "no such scenario" = .ok () := by
    unfold stillApplied at isApplied
    unfold requireApplied
    cases found : vault.scenarios.find scenario with
    | none => simp [found] at isApplied
    | some row =>
      rw [found, Option.any_some] at isApplied
      simp only
      rw [if_neg]
      simp [Option.isSome_iff_ne_none.mp isApplied]
  unfold revertScenarioApplyConfirmed
  exact ⟨_, ensure_bind_eq_ok.mpr ⟨plan.ascending, check_bind_eq_ok.mpr ⟨required,
    ensure_bind_eq_ok.mpr ⟨plan.unblocked, ensure_bind_eq_ok.mpr ⟨rfl, rfl⟩⟩⟩⟩⟩

theorem mem_activeBase {events : EventTable} {key : EventKey} {params : String} :
    (id, key, params) ∈ activeBase events ↔ ∃ row, events.find id = some row ∧
      row.scenarioId = none ∧ row.status = .active ∧ row.key = key ∧ row.paramsJson = params :=
  Iff.rfl

namespace JustApplied

variable {next undone : AssumptionVault}

theorem replaced_free (just : JustApplied vault next scenario applied)
    (inside : old.key ∈ collisionKeys (promotable vault.events scenario)) :
    ¬ ∃ holder, Holder next.events scenario old holder := by
  rintro ⟨holder, holds⟩
  exact (just.held_before holds).2.2 inside

/-- With every event left superseded held, the undo leaves the active base events of before. -/
theorem activeBase_undone (just : JustApplied vault next scenario applied)
    (held : StaleHeld vault scenario) (undoes : Undoes next.events undone.events scenario) :
    activeBase undone.events = activeBase vault.events := by
  refine Set.ext fun entry => ?_
  obtain ⟨id, key, params⟩ := entry
  rw [mem_activeBase, mem_activeBase]
  constructor
  · rintro ⟨now, foundNow, isBase, active, sameKey, sameParams⟩
    obtain ⟨row, foundRow, change⟩ := undoes.found_cases id now foundNow
    obtain rfl := find_id foundRow
    obtain ⟨-, keyRow, paramsRow, scopeRow, -⟩ := change.same
    rw [keyRow] at sameKey
    rw [paramsRow] at sameParams
    rw [scopeRow] at isBase
    obtain ⟨wasActive, other, -⟩ | ⟨retired, other, free⟩ := change.active_iff.mp active
    · exact ⟨row, (just.found_before foundRow wasActive other).1, isBase, wasActive, sameKey,
        sameParams⟩
    · obtain ⟨foundOld, retiredOld⟩ | ⟨first, new, foundFirst, isBaseFirst, activeFirst, rfl, -⟩ :=
        just.retired_cases foundRow retired other
      · obtain ⟨fresh, ⟨holder, foundHolder, holds⟩, -⟩ := held row foundOld retiredOld other
        have vacant : row.key ∉ collisionKeys (promotable vault.events scenario) := by
          intro inside
          obtain ⟨-, event, foundEvent, scope, activeEvent, same⟩ :=
            mem_collisionKeys_promotable.mp inside
          exact fresh event foundEvent scope activeEvent same
        have collides := (just.collides_of_retired foundOld retiredOld other).1
        exact absurd ⟨holder, just.holder_of_before collides foundHolder holds vacant⟩ free
      · exact ⟨first, foundFirst, isBaseFirst, activeFirst, sameKey, sameParams⟩
  · rintro ⟨row, foundRow, isBase, active, sameKey, sameParams⟩
    obtain rfl := find_id foundRow
    have other := just.other_of_active foundRow active
    obtain ⟨-, kept⟩ | ⟨held_, inside, holds, new, replaced, promoted⟩ :=
      just.promotion.found_old foundRow
    · obtain ⟨now, foundNow, change⟩ := undoes.found_old row.id row kept
      obtain ⟨-, keyRow, paramsRow, scopeRow, -⟩ := change.same
      refine ⟨now, foundNow, scopeRow.trans isBase, change.active_iff.mpr (.inl ⟨active, other,
        fun descends => other (just.own_of_lineage kept active descends.1)⟩),
        keyRow.trans sameKey, paramsRow.trans sameParams⟩
    · obtain ⟨now, foundNow, change⟩ := undoes.found_old row.id _ replaced
      obtain ⟨-, keyRow, paramsRow, scopeRow, -⟩ := change.same
      refine ⟨now, foundNow, scopeRow.trans isBase, change.active_iff.mpr (.inr ⟨?_, other, ?_⟩),
        keyRow.trans sameKey, paramsRow.trans sameParams⟩
      · exact retiredBy_iff.mpr ⟨rfl, new, rfl, promoted⟩
      · rw [← (holds_iff.mp holds).2.2] at inside
        exact just.replaced_free inside

/-- If the undo leaves the active base events of before, every event left superseded is held. -/
theorem staleHeld_of_undone (just : JustApplied vault next scenario applied)
    (plan : OpenPlan next scenario (planRevert scenario next))
    (undoes : Undoes next.events undone.events scenario)
    (same : activeBase undone.events = activeBase vault.events) : StaleHeld vault scenario := by
  intro old found retired other
  obtain ⟨foundNext, retiredNext⟩ := just.retired_of_before found retired
  obtain ⟨collides, isBase⟩ := just.collides_of_retired found retired other
  have held : ∃ holder, Holder next.events scenario old holder := by
    by_contra free
    obtain ⟨now, foundNow, change⟩ := undoes.found_old old.id old foundNext
    obtain ⟨-, -, -, scopeRow, -⟩ := change.same
    have restored : (old.id, now.key, now.paramsJson) ∈ activeBase undone.events :=
      mem_activeBase.mpr ⟨now, foundNow, scopeRow.trans isBase,
        change.active_iff.mpr (.inr ⟨retiredNext, other, free⟩), rfl, rfl⟩
    rw [same, mem_activeBase] at restored
    obtain ⟨row, foundRow, -, active, -⟩ := restored
    obtain rfl := Option.some.inj (found.symm.trans foundRow)
    rw [(retiredBy_iff.mp retired).1] at active
    cases active
  obtain ⟨holder, holds⟩ := held
  obtain ⟨foundHolder, holdsKey, vacant⟩ := just.held_before holds
  refine ⟨fun event foundEvent scope active sameKey => vacant ?_, ⟨holder, foundHolder, holdsKey⟩,
    fun row foundRow holdsRow owner isApplied lineage => ?_⟩
  · exact mem_collisionKeys_promotable.mpr
      ⟨(collides_iff.mp collides).2, event, foundEvent, scope, active, sameKey⟩
  · have holdsNext := just.holder_of_before collides foundRow holdsRow vacant
    have different : owner ≠ scenario := by
      rintro rfl
      exact just.outside ((just.before.marked owner).mp isApplied)
    refine laterApplyBehind_none holdsNext.found (plan.quiet old row foundNext retiredNext holdsNext)
      (fun maker made => ?_) different ?_ (just.promotion.ofBefore owner row.id lineage)
    · have makerApplied : stillApplied vault.scenarios maker = true :=
        (just.before.marked maker).mpr
          (just.before.events.applied_of_active foundRow made (holds_iff.mp holdsRow).2.1)
      refine ⟨fun isOwn => holdsNext.other (made.trans (congrArg some isOwn)), ?_⟩
      rw [just.marked, makerApplied, Bool.or_true]
    · rw [just.marked, isApplied, Bool.or_true]

theorem restoresExactly_iff (just : JustApplied vault next scenario applied) :
    RestoresExactly libraries vault next scenario ↔ StaleHeld vault scenario := by
  constructor
  · rintro ⟨-, -, accepted⟩
    obtain ⟨undone, accepted, same⟩ := accepted ⟨.replicate 16 0, 0⟩
    obtain ⟨-, -, plan, -, undoes⟩ := undoes_confirmed accepted
    exact just.staleHeld_of_undone plan undoes same
  · intro held
    have plan := just.openPlan_of_staleHeld held
    have isApplied : stillApplied next.scenarios scenario = true := by
      rw [just.marked, decide_eq_true rfl, Bool.true_or]
    refine ⟨just.descendants_nil plan, plan.unblocked, fun request => ?_⟩
    obtain ⟨undone, accepted⟩ := revert_accepted plan isApplied
    obtain ⟨-, -, -, -, undoes⟩ := undoes_confirmed accepted
    exact ⟨undone, accepted, just.activeBase_undone held undoes⟩

end JustApplied

variable {allowed : AssumptionVault → List Uuid → ScenarioCommand → Prop}
  {commands : List ScenarioCommand} {key : EventKey}

/-! ### What an undo leaves active at a key -/

/-- At most one active base event has the key. -/
def AtMostOne (events : EventTable) (key : EventKey) : Prop :=
  ∀ one other : EventRow, events.find one.id = some one → events.find other.id = some other →
    one.holds key = true → other.holds key = true → one = other

/-- An active base event that is none of the scenario's, nor made of one, has the key, or at most
one event with the key is superseded by what the scenario promoted. -/
def RestoresOnce (events : EventTable) (scenario : Uuid) (key : EventKey) : Prop :=
  (∃ row, events.find row.id = some row ∧ row.holds key = true ∧
    row.promotedFrom ≠ some scenario ∧ ¬ InLineage events scenario row.id) ∨
  ∀ one other : EventRow, events.find one.id = some one → events.find other.id = some other →
    one.retiredBy events scenario = true → other.retiredBy events scenario = true →
    one.promotedFrom ≠ some scenario → other.promotedFrom ≠ some scenario →
    one.key = key → other.key = key → one = other

theorem base_of_retired {promoting : Option Uuid} (sound : EventsSound before applied promoting)
    (found : before.find old.id = some old) (retired : old.retiredBy before scenario = true) :
    old.scenarioId = none := by
  obtain ⟨-, successor, link, row, foundRow, promoted⟩ := retiredBy_iff.mp retired
  obtain ⟨last, foundLast, scope, -⟩ := sound.present old.id old successor found link
  obtain rfl := Option.some.inj (foundRow.symm.trans foundLast)
  rw [scope]
  exact sound.base successor row foundRow (by rw [promoted]; exact nofun)

/-- An undo leaves at most one active event at a key that had at most one, if and only if it
brings back at most one. -/
theorem atMostOne_undone_iff (sound : EventsSound before applied none)
    (undoes : Undoes before after scenario) (collision : key.kind.supersedesOnPromotion = true)
    (once : AtMostOne before key) : AtMostOne after key ↔ RestoresOnce before scenario key := by
  have holder_of : ∀ {old row : EventRow}, old.promotedFrom ≠ some scenario → old.key = key →
      before.find row.id = some row → row.holds key = true → row.promotedFrom ≠ some scenario →
      ¬ InLineage before scenario row.id → Holder before scenario old row := by
    intro old row other same found holds otherRow outside
    subst same
    exact ⟨collides_iff.mpr ⟨other, collision⟩, found, holds, otherRow, outside⟩
  constructor
  · intro onceAfter
    by_cases held : ∃ row, before.find row.id = some row ∧ row.holds key = true ∧
        row.promotedFrom ≠ some scenario ∧ ¬ InLineage before scenario row.id
    · exact .inl held
    · have restored : ∀ old : EventRow, before.find old.id = some old →
          old.retiredBy before scenario = true → old.promotedFrom ≠ some scenario →
          old.key = key → ∃ now, after.find now.id = some now ∧ now.holds key = true ∧
            now.id = old.id := by
        intro old found retired other same
        obtain ⟨now, foundNow, change⟩ := undoes.found_old old.id old found
        obtain ⟨sameId, sameKey, -, scope, -⟩ := change.same
        have free : ¬ ∃ holder, Holder before scenario old holder := by
          rintro ⟨holder, holds⟩
          refine held ⟨holder, holds.found, ?_, holds.other, holds.apart⟩
          rw [← same]
          exact holds.holds
        refine ⟨now, by rwa [sameId], holds_iff.mpr ⟨?_, ?_, sameKey.trans same⟩, sameId⟩
        · exact scope.trans (base_of_retired sound found retired)
        · exact change.active_iff.mpr (.inr ⟨retired, other, free⟩)
      refine .inr fun one other foundOne foundOther retiredOne retiredOther otherOne otherOther
        keyOne keyOther => ?_
      obtain ⟨nowOne, foundNowOne, holdsOne, idOne⟩ :=
        restored one foundOne retiredOne otherOne keyOne
      obtain ⟨nowOther, foundNowOther, holdsOther, idOther⟩ :=
        restored other foundOther retiredOther otherOther keyOther
      have same := onceAfter nowOne nowOther foundNowOne foundNowOther holdsOne holdsOther
      have sameId : one.id = other.id := by rw [← idOne, ← idOther, same]
      rw [sameId] at foundOne
      exact Option.some.inj (foundOne.symm.trans foundOther)
  · intro restores nowOne nowOther foundOne foundOther holdsOne holdsOther
    obtain ⟨one, foundRowOne, changeOne⟩ := undoes.found_cases nowOne.id nowOne foundOne
    obtain ⟨other, foundRowOther, changeOther⟩ := undoes.found_cases nowOther.id nowOther foundOther
    suffices same : one = other by
      have sameId : nowOne.id = nowOther.id := by
        rw [← find_id foundRowOne, ← find_id foundRowOther, same]
      rw [sameId] at foundOne
      exact Option.some.inj (foundOne.symm.trans foundOther)
    have kept_or : ∀ {id : Uuid} {row now : EventRow}, before.find id = some row →
        Undone before scenario row now → now.holds key = true →
        row.key = key ∧ before.find row.id = some row ∧
          ((row.holds key = true ∧ row.promotedFrom ≠ some scenario ∧
              ¬ InLineage before scenario row.id) ∨
            row.retiredBy before scenario = true ∧ row.promotedFrom ≠ some scenario ∧
              ¬ ∃ holder, Holder before scenario row holder) := by
      intro id row now found change holds
      obtain rfl := find_id found
      obtain ⟨-, sameKey, -, scope, -⟩ := change.same
      obtain ⟨isBase, active, keyNow⟩ := holds_iff.mp holds
      rw [sameKey] at keyNow
      rw [scope] at isBase
      refine ⟨keyNow, found, (change.active_iff.mp active).imp_left fun kept => ?_⟩
      obtain ⟨wasActive, otherRow, outside⟩ := kept
      refine ⟨holds_iff.mpr ⟨isBase, wasActive, keyNow⟩, otherRow, fun lineage => outside ?_⟩
      exact ⟨lineage, (undoes.alone row.id row lineage found).resolve_right otherRow⟩
    obtain ⟨keyOne, foundOld, casesOne⟩ := kept_or foundRowOne changeOne holdsOne
    obtain ⟨keyOther, foundOldOther, casesOther⟩ := kept_or foundRowOther changeOther holdsOther
    rcases casesOne with ⟨holds, from_, outside⟩ | ⟨retired, from_, free⟩
    · rcases casesOther with ⟨holdsToo, -, -⟩ | ⟨-, fromToo, freeToo⟩
      · exact once one other foundOld foundOldOther holds holdsToo
      · exact absurd ⟨one, holder_of fromToo keyOther foundOld holds from_ outside⟩ freeToo
    · rcases casesOther with ⟨holdsToo, fromToo, outsideToo⟩ | ⟨retiredToo, fromToo, -⟩
      · exact absurd ⟨other, holder_of from_ keyOne foundOldOther holdsToo fromToo outsideToo⟩ free
      · rcases restores with ⟨holder, found, holds, fromHolder, outside⟩ | single
        · exact absurd ⟨holder, holder_of from_ keyOne found holds fromHolder outside⟩ free
        · exact single one other foundOld foundOldOther retired retiredToo from_ fromToo keyOne
            keyOther

/-- In any run: undoing an apply at once restores the base exactly if and only if every event that
an earlier apply of the scenario left superseded is held back by a newer one; and an undo leaves at
most one active event at a key that had at most one, if and only if it brings back at most one. -/
theorem undo_restores_iff (libraries : Libraries) {vault : AssumptionVault} {applied : List Uuid}
    (reached : Reached libraries Current vault applied) :
    (∀ request scenario next, dispatch libraries request vault (.applyScenario scenario) = .ok next →
      (RestoresExactly libraries vault next scenario ↔ StaleHeld vault scenario)) ∧
    ∀ request scenario confirmed next, dispatch libraries request vault
        (.revertScenarioApplyConfirmed scenario confirmed) = .ok next →
      ∀ key : EventKey, key.kind.supersedesOnPromotion = true → AtMostOne vault.events key →
        (AtMostOne next.events key ↔ RestoresOnce vault.events scenario key) := by
  have sound := vaultSound_of_reached reached
  constructor
  · intro request scenario next accepted
    exact (justApplied_of_dispatch sound accepted).restoresExactly_iff
  · intro request scenario confirmed next accepted key collision once
    obtain ⟨-, -, -, -, undoes⟩ := undoes_confirmed accepted
    exact atMostOne_undone_iff sound.events undoes collision once

/-! ### An apply that is not restored -/

def sampleEventId (byte : UInt8) : Uuid := .replicate 16 byte

/-- Libraries under which the k-th command promotes under the id of its own. -/
def sampleLibraries : Libraries where
  isJsonObject _ := true
  toRfc3339 := toString
  keyedEventId command _ _ := command.map (· + 100)
  ordinalId request k := request.commandId.map (· + 200 + k.toUInt8)

/-- An event that sets the inflation rate. -/
def sampleEvent (byte : UInt8) (scenario : Option UInt8) : NewAssumptionEvent :=
  { id := sampleEventId byte, key := ⟨.inflationRate, none, none⟩, paramsJson := "{}"
    source := .userOverride, scenarioId := scenario.map sampleEventId }

/-- Accepted commands, the k-th one under the k-th command id. -/
def runSample : UInt8 → List ScenarioCommand → AssumptionVault → Option AssumptionVault
  | _, [], vault => some vault
  | k, command :: rest, vault =>
    match dispatch sampleLibraries ⟨sampleEventId k, k.toNat⟩ vault command with
    | .ok vault => runSample (k + 1) rest vault
    | .error _ => none

/-- Accepted commands under any libraries. -/
def runCommands (libraries : Libraries) :
    UInt8 → List ScenarioCommand → AssumptionVault → Option AssumptionVault
  | _, [], vault => some vault
  | k, command :: rest, vault =>
    match dispatch libraries ⟨sampleEventId k, k.toNat⟩ vault command with
    | .ok vault => runCommands libraries (k + 1) rest vault
    | .error _ => none

theorem runSample_eq (k : UInt8) (commands : List ScenarioCommand) (vault : AssumptionVault) :
    runSample k commands vault = runCommands sampleLibraries k commands vault := by
  induction commands generalizing k vault with
  | nil => rfl
  | cons command rest inductionHypothesis =>
    rw [runSample, runCommands]
    split
    · exact inductionHypothesis _ _
    · rfl

theorem reached_of_runCommands {k : UInt8} {vault last : AssumptionVault}
    (reached : Reached libraries allowed vault applied)
    (always : ∀ command ∈ commands, ∀ vault applied, allowed vault applied command)
    (ran : runCommands libraries k commands vault = some last) :
    Reached libraries allowed last (commands.foldl (fun applied command =>
      appliedAfter command applied) applied) := by
  induction commands generalizing k vault applied with
  | nil =>
    obtain rfl := Option.some.inj ran
    exact reached
  | cons command rest inductionHypothesis =>
    rw [runCommands] at ran
    split at ran
    · next between accepted =>
      exact inductionHypothesis (reached.step (always command List.mem_cons_self _ _) accepted)
        (fun other inside => always other (List.mem_cons_of_mem _ inside)) ran
    · cases ran

theorem reached_of_runSample {k : UInt8} {vault last : AssumptionVault}
    (reached : Reached sampleLibraries allowed vault applied)
    (always : ∀ command ∈ commands, ∀ vault applied, allowed vault applied command)
    (ran : runSample k commands vault = some last) :
    Reached sampleLibraries allowed last (commands.foldl (fun applied command =>
      appliedAfter command applied) applied) :=
  reached_of_runCommands reached always (by rwa [← runSample_eq])

/-- A scenario is applied over an older rate; the person clears what it promoted and records a newer
rate, which the undo keeps. -/
def staleCommands : List ScenarioCommand :=
  [.createScenario ⟨sampleEventId 1, "Plan", none⟩,
    .recordAssumptionEvent (sampleEvent 10 (some 1)), .recordAssumptionEvent (sampleEvent 20 none),
    .applyScenario (sampleEventId 1), .clearAssumptionEvent (sampleEventId 104),
    .recordAssumptionEvent (sampleEvent 30 none),
    .revertScenarioApplyConfirmed (sampleEventId 1) []]

def staleVault : AssumptionVault := (runSample 1 staleCommands .empty).getD .empty

theorem staleVault_reached : Reached sampleLibraries Current staleVault [] := by
  have ran : runSample 1 staleCommands .empty = some staleVault := by decide +kernel
  exact reached_of_runSample .start (by simp [staleCommands, Current]) ran

theorem undo_restores_iff_stale :
    (∀ request scenario next,
      dispatch sampleLibraries request staleVault (.applyScenario scenario) = .ok next →
      (RestoresExactly sampleLibraries staleVault next scenario ↔ StaleHeld staleVault scenario)) ∧
    ∀ request scenario confirmed next, dispatch sampleLibraries request staleVault
        (.revertScenarioApplyConfirmed scenario confirmed) = .ok next →
      ∀ key : EventKey, key.kind.supersedesOnPromotion = true → AtMostOne staleVault.events key →
        (AtMostOne next.events key ↔ RestoresOnce staleVault.events scenario key) :=
  undo_restores_iff sampleLibraries staleVault_reached

theorem atMostOne_of_filter {events : EventTable}
    (short : (events.rows.filter (·.holds key)).length ≤ 1) : AtMostOne events key := by
  intro one other foundOne foundOther holdsOne holdsOther
  have inside : one ∈ events.rows.filter (·.holds key) :=
    List.mem_filter.mpr ⟨mem_rows_iff.mpr foundOne, holdsOne⟩
  have insideOther : other ∈ events.rows.filter (·.holds key) :=
    List.mem_filter.mpr ⟨mem_rows_iff.mpr foundOther, holdsOther⟩
  rcases held : events.rows.filter (·.holds key) with _ | ⟨first, _ | ⟨second, rest⟩⟩
  · rw [held] at inside
    exact absurd inside List.not_mem_nil
  · rw [held, List.mem_singleton] at inside insideOther
    rw [inside, insideOther]
  · rw [held] at short
    simp at short

/-- The vault in which the scenario of `staleVault` is applied again. -/
def reappliedVault : AssumptionVault :=
  (runSample 8 [.applyScenario (sampleEventId 1)] staleVault).getD .empty

/-- And that in which the second apply is undone. -/
def doubledVault : AssumptionVault :=
  (runSample 9 [.revertScenarioApplyConfirmed (sampleEventId 1) []] reappliedVault).getD .empty

/-- The same scenario is applied again and undone at once: the newer rate is restored, and with it
the older one, so that two rates are active. -/
theorem stale_undo_doubles : Reached sampleLibraries Current staleVault [] ∧
    dispatch sampleLibraries ⟨sampleEventId 8, 8⟩ staleVault
      (.applyScenario (sampleEventId 1)) = .ok reappliedVault ∧
    dispatch sampleLibraries ⟨sampleEventId 9, 9⟩ reappliedVault
      (.revertScenarioApplyConfirmed (sampleEventId 1) []) = .ok doubledVault ∧
    activeBase doubledVault.events ≠ activeBase staleVault.events ∧
    AtMostOne reappliedVault.events ⟨.inflationRate, none, none⟩ ∧
    ¬ AtMostOne doubledVault.events ⟨.inflationRate, none, none⟩ := by
  have older : doubledVault.events.find (sampleEventId 20) =
      some ((sampleEvent 20 none).row "3") := by decide +kernel
  have newer : doubledVault.events.find (sampleEventId 30) =
      some ((sampleEvent 30 none).row "6") := by decide +kernel
  have before : staleVault.events.find (sampleEventId 20) =
      some (((sampleEvent 20 none).row "3").supersede (sampleEventId 104)) := by decide +kernel
  refine ⟨staleVault_reached, by decide +kernel, by decide +kernel, fun same => ?_,
    atMostOne_of_filter (by decide +kernel), fun once => ?_⟩
  · have restored : (sampleEventId 20, (sampleEvent 20 none).key, "{}") ∈
        activeBase doubledVault.events := mem_activeBase.mpr ⟨_, older, rfl, rfl, rfl, rfl⟩
    rw [same, mem_activeBase] at restored
    obtain ⟨row, found, -, active, -⟩ := restored
    obtain rfl := Option.some.inj (before.symm.trans found)
    cases active
  · have same := congrArg EventRow.id (once ((sampleEvent 20 none).row "3")
      ((sampleEvent 30 none).row "6") older newer (by decide) (by decide))
    exact absurd same (by decide)

end Dohflow.DbWorker
