/-
This file is about what the commands preserve of the links between assumption events.

An active event links to nothing, a link leads to an event of the same scope, and a link
to a promoted event comes from an event with its key. What a scenario that is not applied
once promoted, and what was made of it since, stays inactive (`EventsSound.idle`). Each
way in which a command changes the table keeps this: a new event that may replace active
ones (`EventsSound.extended`), a cleared event, and an undo.
-/

import Dohflow.DbWorker.RevertPlans

namespace Dohflow.DbWorker

open SyncCore KeyedTable Lineage

variable {events before after : EventTable} {scenario id : Uuid} {row new : EventRow}

/-- The events as the commands leave them, with the scenarios that are applied; while one is being
applied, what it has promoted so far is active. -/
structure EventsSound (events : EventTable) (applied : List Uuid) (promoting : Option Uuid) :
    Prop where
  linked : ∀ id row, events.find id = some row →
    (row.status = .superseded ↔ row.supersededBy ≠ none)
  base : ∀ id row, events.find id = some row → row.promotedFrom ≠ none → row.scenarioId = none
  present : ∀ id row next, events.find id = some row → row.supersededBy = some next →
    ∃ successor, events.find next = some successor ∧ row.scenarioId = successor.scenarioId ∧
      (successor.promotedFrom ≠ none →
        row.key = successor.key ∧ row.key.kind.supersedesOnPromotion = true)
  /-- What a scenario's events replaced is not made of its events. -/
  apart : ∀ scenario id row next, events.find id = some row → row.supersededBy = some next →
    PromotedBy events scenario next → row.promotedFrom ≠ some scenario →
    ¬ InLineage events scenario id
  idle : ∀ scenario, scenario ∉ applied → ∀ id row, InLineage events scenario id →
    events.find id = some row →
    (row.promotedFrom = none ∨ row.promotedFrom = some scenario) ∧
      (row.status = .active → row.promotedFrom = some scenario ∧ promoting = some scenario)

theorem not_inLineage_empty : ¬ InLineage .empty scenario id := by
  rintro ⟨head, ⟨row, found, -⟩, -⟩
  cases found

theorem eventsSound_empty : EventsSound .empty [] none where
  linked _ _ found := by cases found
  base _ _ found := by cases found
  present _ _ _ found := by cases found
  apart _ _ _ _ found := by cases found
  idle _ _ _ _ lineage := absurd lineage not_inLineage_empty

namespace EventsSound

variable {applied : List Uuid} {promoting : Option Uuid}

theorem unlinked (sound : EventsSound events applied promoting)
    (found : events.find id = some row) (active : row.status = .active) :
    row.supersededBy = none := by
  by_contra linked
  rw [(sound.linked id row found).mpr linked] at active
  cases active

theorem found_of_lineage (sound : EventsSound events applied promoting)
    (lineage : InLineage events scenario id) :
    ∃ row, events.find id = some row ∧ row.scenarioId = none := by
  obtain ⟨head, ⟨first, found, promoted⟩, reached⟩ := lineage
  induction reached with
  | refl => exact ⟨first, found, sound.base head first found (by rw [promoted]; exact nofun)⟩
  | @tail middle other _ step inductionHypothesis =>
    obtain ⟨row, foundRow, isBase⟩ := inductionHypothesis
    obtain ⟨source, foundSource, linked⟩ := linked_iff.mp step
    obtain rfl := Option.some.inj (foundRow.symm.trans foundSource)
    obtain ⟨successor, foundSuccessor, same, -⟩ := sound.present middle row other foundRow linked
    exact ⟨successor, foundSuccessor, same.symm.trans isBase⟩

theorem applied_of_active (sound : EventsSound events applied none)
    (found : events.find id = some row) (promoted : row.promotedFrom = some scenario)
    (active : row.status = .active) : scenario ∈ applied := by
  by_contra unapplied
  obtain ⟨-, inactive⟩ :=
    sound.idle scenario unapplied id row ⟨id, ⟨row, found, promoted⟩, .refl⟩ found
  exact nomatch (inactive active).2

end EventsSound

/-! ### A new event -/

/-- A table with a new active event that replaces some active ones. -/
structure Extends (before after : EventTable) (new : EventRow) (replaces : EventRow → Bool) :
    Prop where
  fresh : before.find new.id = none
  active : new.status = .active
  unlinked : new.supersededBy = none
  found : ∀ id, after.find id = if id = new.id then some new else
    (before.find id).map fun row => if replaces row then row.supersede new.id else row
  replaced : ∀ id row, before.find id = some row → replaces row = true →
    row.status = .active ∧ row.scenarioId = new.scenarioId ∧
      (new.promotedFrom ≠ none → row.key = new.key ∧ row.key.kind.supersedesOnPromotion = true)

namespace Extends

variable {replaces : EventRow → Bool} {applied : List Uuid} {promoting : Option Uuid}

theorem found_new (extended : Extends before after new replaces) :
    after.find new.id = some new := by
  rw [extended.found, if_pos rfl]

theorem found_old (extended : Extends before after new replaces)
    (found : before.find id = some row) :
    after.find id = some (if replaces row then row.supersede new.id else row) := by
  rw [extended.found, if_neg, found]
  · rfl
  · rintro rfl
    rw [extended.fresh] at found
    cases found

/-- A row of the extended table is the new one, or an old one, replaced or not. -/
theorem found_cases (extended : Extends before after new replaces)
    (found : after.find id = some row) :
    id = new.id ∧ row = new ∨ id ≠ new.id ∧ ∃ old, before.find id = some old ∧
      (replaces old = false ∧ row = old ∨ replaces old = true ∧ row = old.supersede new.id) := by
  rw [extended.found] at found
  by_cases same : id = new.id
  · rw [if_pos same] at found
    exact .inl ⟨same, (Option.some.inj found).symm⟩
  · rw [if_neg same, Option.map_eq_some_iff] at found
    obtain ⟨old, foundOld, rfl⟩ := found
    refine .inr ⟨same, old, foundOld, ?_⟩
    cases replaces old with
    | true => exact .inr ⟨rfl, rfl⟩
    | false => exact .inl ⟨rfl, rfl⟩

theorem promotedBy_iff (extended : Extends before after new replaces) :
    PromotedBy after scenario id ↔
      PromotedBy before scenario id ∨ id = new.id ∧ new.promotedFrom = some scenario := by
  constructor
  · rintro ⟨row, found, promoted⟩
    obtain ⟨same, rfl⟩ | ⟨-, old, foundOld, ⟨-, rfl⟩ | ⟨-, rfl⟩⟩ := extended.found_cases found
    · exact .inr ⟨same, promoted⟩
    · exact .inl ⟨row, foundOld, promoted⟩
    · exact .inl ⟨old, foundOld, promoted⟩
  · rintro (⟨row, found, promoted⟩ | ⟨rfl, promoted⟩)
    · refine ⟨_, extended.found_old found, ?_⟩
      split
      · exact promoted
      · exact promoted
    · exact ⟨new, extended.found_new, promoted⟩

theorem linked_cases (extended : Extends before after new replaces) {one other : Uuid}
    (linked : Linked after.rows EventRow.id EventRow.supersededBy one other) :
    Linked before.rows EventRow.id EventRow.supersededBy one other ∨
      (∃ row, before.find one = some row ∧ replaces row = true) ∧ other = new.id := by
  rw [linked_iff] at linked ⊢
  obtain ⟨row, found, link⟩ := linked
  obtain ⟨-, rfl⟩ | ⟨-, old, foundOld, ⟨-, rfl⟩ | ⟨replaced, rfl⟩⟩ := extended.found_cases found
  · rw [extended.unlinked] at link
    cases link
  · exact .inl ⟨row, foundOld, link⟩
  · exact .inr ⟨⟨old, foundOld, replaced⟩, (Option.some.inj link).symm⟩

theorem inLineage_cases (extended : Extends before after new replaces)
    (lineage : InLineage after scenario id) :
    InLineage before scenario id ∨ id = new.id ∧ (new.promotedFrom = some scenario ∨
      ∃ last row, before.find last = some row ∧ replaces row = true ∧
        InLineage before scenario last) := by
  obtain ⟨head, promoted, reached⟩ := lineage
  have ends : ∀ other,
      ¬ Linked after.rows EventRow.id EventRow.supersededBy new.id other := by
    intro other linked
    obtain ⟨row, found, link⟩ := linked_iff.mp linked
    obtain rfl := Option.some.inj (extended.found_new.symm.trans found)
    rw [extended.unlinked] at link
    cases link
  rcases extended.promotedBy_iff.mp promoted with promoted | ⟨rfl, own⟩
  · have links : ∀ one other, Linked after.rows EventRow.id EventRow.supersededBy one other → _ :=
      fun one other => extended.linked_cases
    rcases reaches_new_sink links ends reached with
      earlier | ⟨same, rfl | ⟨last, ⟨row, found, replaced⟩, earlier⟩⟩
    · exact .inl ⟨head, promoted, earlier⟩
    · obtain ⟨row, found, -⟩ := promoted
      rw [extended.fresh] at found
      cases found
    · exact .inr ⟨same, .inr ⟨last, row, found, replaced, head, promoted, earlier⟩⟩
  · rcases Relation.ReflTransGen.cases_head reached with same | ⟨other, linked, -⟩
    · exact .inr ⟨same.symm, .inl own⟩
    · exact absurd linked (ends other)

theorem inLineage_of_before (extended : Extends before after new replaces)
    (sound : EventsSound before applied promoting) (lineage : InLineage before scenario id) :
    InLineage after scenario id := by
  obtain ⟨head, promoted, reached⟩ := lineage
  refine ⟨head, extended.promotedBy_iff.mpr (.inl promoted),
    Relation.ReflTransGen.mono (fun one other linked => ?_) _ _ reached⟩
  obtain ⟨row, found, link⟩ := linked_iff.mp linked
  rw [linked_iff]
  refine ⟨row, ?_, link⟩
  rw [extended.found_old found, if_neg]
  intro replaced
  rw [sound.unlinked found (extended.replaced one row found replaced).1] at link
  cases link

end Extends

/-- A new event keeps the links sound: a plain one, or one of the scenario that is being applied. -/
theorem EventsSound.extended {applied : List Uuid} {promoting : Option Uuid}
    {replaces : EventRow → Bool} (sound : EventsSound before applied promoting)
    (extended : Extends before after new replaces) (promotes : new.promotedFrom = promoting)
    (isBase : new.promotedFrom ≠ none → new.scenarioId = none)
    (unapplied : ∀ scenario, promoting = some scenario → scenario ∉ applied) :
    EventsSound after applied promoting where
  linked id row found := by
    obtain ⟨-, rfl⟩ | ⟨-, old, foundOld, ⟨-, rfl⟩ | ⟨-, rfl⟩⟩ := extended.found_cases found
    · rw [extended.active, extended.unlinked]
      simp
    · exact sound.linked id row foundOld
    · simp [EventRow.supersede]
  base id row found promoted := by
    obtain ⟨-, rfl⟩ | ⟨-, old, foundOld, ⟨-, rfl⟩ | ⟨-, rfl⟩⟩ := extended.found_cases found
    · exact isBase promoted
    · exact sound.base id row foundOld promoted
    · exact sound.base id old foundOld promoted
  present id row next found link := by
    obtain ⟨-, rfl⟩ | ⟨-, old, foundOld, ⟨-, rfl⟩ | ⟨replaced, rfl⟩⟩ := extended.found_cases found
    · rw [extended.unlinked] at link
      cases link
    · obtain ⟨successor, foundSuccessor, scope, keyed⟩ := sound.present id row next foundOld link
      refine ⟨_, extended.found_old foundSuccessor, ?_⟩
      split
      · exact ⟨scope, keyed⟩
      · exact ⟨scope, keyed⟩
    · obtain rfl := Option.some.inj link
      obtain ⟨-, scope, keyed⟩ := extended.replaced id old foundOld replaced
      exact ⟨new, extended.found_new, scope, keyed⟩
  apart scenario id row next found link promoted other lineage := by
    have cases_ := extended.inLineage_cases lineage
    obtain ⟨-, rfl⟩ | ⟨old_, old, foundOld, ⟨-, rfl⟩ | ⟨replaced, rfl⟩⟩ :=
      extended.found_cases found
    · rw [extended.unlinked] at link
      cases link
    · have lineage := cases_.resolve_right fun isNew => old_ isNew.1
      refine sound.apart scenario id row next foundOld link ?_ other lineage
      refine (extended.promotedBy_iff.mp promoted).resolve_right fun isNew => ?_
      obtain ⟨successor, foundSuccessor, -⟩ := sound.present id row next foundOld link
      rw [isNew.1, extended.fresh] at foundSuccessor
      cases foundSuccessor
    · have lineage := cases_.resolve_right fun isNew => old_ isNew.1
      obtain rfl := Option.some.inj link
      obtain ⟨newest, foundNewest, own⟩ := promoted
      obtain rfl := Option.some.inj (extended.found_new.symm.trans foundNewest)
      have outside := unapplied scenario (promotes.symm.trans own)
      obtain ⟨active, -⟩ := extended.replaced id old foundOld replaced
      exact other ((sound.idle scenario outside id old lineage foundOld).2 active).1
  idle scenario outside id row lineage found := by
    rcases extended.inLineage_cases lineage with earlier | ⟨rfl, own⟩
    · obtain ⟨rfl, rfl⟩ | ⟨-, old, foundOld, ⟨-, rfl⟩ | ⟨-, rfl⟩⟩ := extended.found_cases found
      · obtain ⟨old, foundOld, -⟩ := sound.found_of_lineage earlier
        rw [extended.fresh] at foundOld
        cases foundOld
      · exact sound.idle scenario outside id row earlier foundOld
      · exact ⟨(sound.idle scenario outside id old earlier foundOld).1, nofun⟩
    · obtain rfl := Option.some.inj (extended.found_new.symm.trans found)
      have promoted : new.promotedFrom = some scenario := by
        rcases own with own | ⟨last, row, foundLast, replaced, earlier⟩
        · exact own
        · obtain ⟨active, -⟩ := extended.replaced last row foundLast replaced
          exact promotes.trans ((sound.idle scenario outside last row earlier foundLast).2 active).2
      exact ⟨.inr promoted, fun _ => ⟨promoted, promotes.symm.trans promoted⟩⟩

/-! ### A cleared event -/

/-- A table with some active events cleared. -/
structure Clears (before after : EventTable) (clears : EventRow → Bool) : Prop where
  found : ∀ id, after.find id =
    (before.find id).map fun row => if clears row then row.clear else row
  active : ∀ id row, before.find id = some row → clears row = true → row.status = .active

namespace Clears

variable {clears : EventRow → Bool} {applied : List Uuid} {promoting : Option Uuid}

theorem found_cases (cleared : Clears before after clears) (found : after.find id = some row) :
    ∃ old, before.find id = some old ∧
      (row = old ∨ old.status = .active ∧ row = old.clear) := by
  rw [cleared.found, Option.map_eq_some_iff] at found
  obtain ⟨old, foundOld, rfl⟩ := found
  refine ⟨old, foundOld, ?_⟩
  split
  · next clears => exact .inr ⟨cleared.active id old foundOld clears, rfl⟩
  · exact .inl rfl

theorem found_old (cleared : Clears before after clears) (found : before.find id = some row) :
    ∃ now, after.find id = some now ∧ (now = row ∨ row.status = .active ∧ now = row.clear) := by
  refine ⟨_, by rw [cleared.found, found]; rfl, ?_⟩
  dsimp only
  split
  · next clears => exact .inr ⟨cleared.active id row found clears, rfl⟩
  · exact .inl rfl

theorem promotedBy_iff (cleared : Clears before after clears) :
    PromotedBy after scenario id ↔ PromotedBy before scenario id := by
  constructor
  · rintro ⟨row, found, promoted⟩
    obtain ⟨old, foundOld, rfl | ⟨-, rfl⟩⟩ := cleared.found_cases found
    · exact ⟨row, foundOld, promoted⟩
    · exact ⟨old, foundOld, promoted⟩
  · rintro ⟨row, found, promoted⟩
    obtain ⟨now, foundNow, rfl | ⟨-, rfl⟩⟩ := cleared.found_old found
    · exact ⟨now, foundNow, promoted⟩
    · exact ⟨row.clear, foundNow, promoted⟩

theorem linked_iff (cleared : Clears before after clears) {one other : Uuid} :
    Linked after.rows EventRow.id EventRow.supersededBy one other ↔
      Linked before.rows EventRow.id EventRow.supersededBy one other := by
  rw [DbWorker.linked_iff, DbWorker.linked_iff]
  constructor
  · rintro ⟨row, found, link⟩
    obtain ⟨old, foundOld, rfl | ⟨-, rfl⟩⟩ := cleared.found_cases found
    · exact ⟨row, foundOld, link⟩
    · exact ⟨old, foundOld, link⟩
  · rintro ⟨row, found, link⟩
    obtain ⟨now, foundNow, rfl | ⟨-, rfl⟩⟩ := cleared.found_old found
    · exact ⟨now, foundNow, link⟩
    · exact ⟨row.clear, foundNow, link⟩

theorem inLineage_iff (cleared : Clears before after clears) :
    InLineage after scenario id ↔ InLineage before scenario id := by
  refine exists_congr fun head => and_congr cleared.promotedBy_iff ?_
  have same : Linked after.rows EventRow.id EventRow.supersededBy =
      Linked before.rows EventRow.id EventRow.supersededBy :=
    funext fun one => funext fun other => propext cleared.linked_iff
  rw [Leads, Leads, Reaches, Reaches, same]

end Clears

theorem EventsSound.cleared {applied : List Uuid} {clears : EventRow → Bool}
    (sound : EventsSound before applied none) (cleared : Clears before after clears) :
    EventsSound after applied none where
  linked id row found := by
    obtain ⟨old, foundOld, rfl | ⟨active, rfl⟩⟩ := cleared.found_cases found
    · exact sound.linked id row foundOld
    · simp [EventRow.clear, sound.unlinked foundOld active]
  base id row found promoted := by
    obtain ⟨old, foundOld, rfl | ⟨-, rfl⟩⟩ := cleared.found_cases found
    · exact sound.base id row foundOld promoted
    · exact sound.base id old foundOld promoted
  present id row next found link := by
    obtain ⟨old, foundOld, same⟩ := cleared.found_cases found
    have whole : ∃ successor, before.find next = some successor ∧
        row.scenarioId = successor.scenarioId ∧ (successor.promotedFrom ≠ none →
          row.key = successor.key ∧ row.key.kind.supersedesOnPromotion = true) := by
      rcases same with rfl | ⟨-, rfl⟩
      · exact sound.present id row next foundOld link
      · exact sound.present id old next foundOld link
    obtain ⟨successor, foundSuccessor, scope, keyed⟩ := whole
    obtain ⟨now, foundNow, rfl | ⟨-, rfl⟩⟩ := cleared.found_old foundSuccessor
    · exact ⟨now, foundNow, scope, keyed⟩
    · exact ⟨successor.clear, foundNow, scope, keyed⟩
  apart scenario id row next found link promoted other lineage := by
    rw [cleared.inLineage_iff] at lineage
    rw [cleared.promotedBy_iff] at promoted
    obtain ⟨old, foundOld, rfl | ⟨-, rfl⟩⟩ := cleared.found_cases found
    · exact sound.apart scenario id row next foundOld link promoted other lineage
    · exact sound.apart scenario id old next foundOld link promoted other lineage
  idle scenario outside id row lineage found := by
    rw [cleared.inLineage_iff] at lineage
    obtain ⟨old, foundOld, rfl | ⟨-, rfl⟩⟩ := cleared.found_cases found
    · exact sound.idle scenario outside id row lineage foundOld
    · exact ⟨(sound.idle scenario outside id old lineage foundOld).1, nofun⟩

/-! ### An undo -/

/-- What an undo makes of a row. -/
inductive Undone (events : EventTable) (scenario : Uuid) (row : EventRow) : EventRow → Prop
  | descendant (lineage : InLineage events scenario row.id) (plain : row.promotedFrom = none)
      (active : row.status = .active) : Undone events scenario row row.clear
  | restored (retired : row.retiredBy events scenario = true)
      (other : row.promotedFrom ≠ some scenario)
      (free : ¬ ∃ holder, Holder events scenario row holder) :
      Undone events scenario row row.restore
  | ownActive (own : row.promotedFrom = some scenario) (active : row.status = .active) :
      Undone events scenario row row.clear
  | ownRetired (own : row.promotedFrom = some scenario)
      (retired : row.retiredBy events scenario = true) :
      Undone events scenario row row.restore.clear
  | kept (undescended : InLineage events scenario row.id → row.promotedFrom = none →
        row.status ≠ .active)
      (unrestored : row.retiredBy events scenario = true →
        row.promotedFrom ≠ some scenario ∧ ∃ holder, Holder events scenario row holder)
      (inactive : row.promotedFrom = some scenario → row.status ≠ .active) :
      Undone events scenario row row

/-- A table after an undo. -/
structure Undoes (before after : EventTable) (scenario : Uuid) : Prop where
  alone : Alone before scenario
  found_old : ∀ id row, before.find id = some row →
    ∃ now, after.find id = some now ∧ Undone before scenario row now
  found_cases : ∀ id now, after.find id = some now →
    ∃ row, before.find id = some row ∧ Undone before scenario row now

namespace Undone

variable {now : EventRow}

theorem same (undone : Undone events scenario row now) : now.id = row.id ∧ now.key = row.key ∧
    now.paramsJson = row.paramsJson ∧ now.scenarioId = row.scenarioId ∧
    now.promotedFrom = row.promotedFrom := by
  cases undone <;> exact ⟨rfl, rfl, rfl, rfl, rfl⟩

theorem link {next : Uuid} (undone : Undone events scenario row now)
    (link : now.supersededBy = some next) : row.supersededBy = some next := by
  cases undone with
  | restored => cases link
  | ownRetired => cases link
  | descendant => exact link
  | ownActive => exact link
  | kept => exact link

theorem active_iff (undone : Undone events scenario row now) : now.status = .active ↔
    row.status = .active ∧ row.promotedFrom ≠ some scenario ∧
        ¬ (InLineage events scenario row.id ∧ row.promotedFrom = none) ∨
      row.retiredBy events scenario = true ∧ row.promotedFrom ≠ some scenario ∧
        ¬ ∃ holder, Holder events scenario row holder := by
  cases undone with
  | descendant lineage plain active =>
    refine iff_of_false nofun ?_
    rintro (⟨-, -, outside⟩ | ⟨retired, -, -⟩)
    · exact outside ⟨lineage, plain⟩
    · rw [(retiredBy_iff.mp retired).1] at active
      cases active
  | restored retired other free => exact iff_of_true rfl (.inr ⟨retired, other, free⟩)
  | ownActive own =>
    refine iff_of_false nofun ?_
    rintro (⟨-, other, -⟩ | ⟨-, other, -⟩)
    · exact other own
    · exact other own
  | ownRetired own =>
    refine iff_of_false nofun ?_
    rintro (⟨-, other, -⟩ | ⟨-, other, -⟩)
    · exact other own
    · exact other own
  | kept undescended unrestored inactive =>
    constructor
    · intro active
      exact .inl ⟨active, fun own => inactive own active,
        fun descends => undescended descends.1 descends.2 active⟩
    · rintro (⟨active, -, -⟩ | ⟨retired, -, free⟩)
      · exact active
      · exact absurd (unrestored retired).2 free

end Undone

namespace Undoes

theorem promotedBy_iff (undoes : Undoes before after scenario) {owner : Uuid} :
    PromotedBy after owner id ↔ PromotedBy before owner id := by
  constructor
  · rintro ⟨now, found, promoted⟩
    obtain ⟨row, foundRow, undone⟩ := undoes.found_cases id now found
    exact ⟨row, foundRow, undone.same.2.2.2.2.symm.trans promoted⟩
  · rintro ⟨row, found, promoted⟩
    obtain ⟨now, foundNow, undone⟩ := undoes.found_old id row found
    exact ⟨now, foundNow, undone.same.2.2.2.2.trans promoted⟩

theorem inLineage (undoes : Undoes before after scenario) {owner : Uuid}
    (lineage : InLineage after owner id) : InLineage before owner id := by
  obtain ⟨head, promoted, reached⟩ := lineage
  refine ⟨head, undoes.promotedBy_iff.mp promoted,
    Relation.ReflTransGen.mono (fun one other linked => ?_) _ _ reached⟩
  obtain ⟨now, found, link⟩ := linked_iff.mp linked
  obtain ⟨row, foundRow, undone⟩ := undoes.found_cases one now found
  exact linked_iff.mpr ⟨row, foundRow, undone.link link⟩

end Undoes

theorem EventsSound.undone {applied : List Uuid} (sound : EventsSound before applied none)
    (undoes : Undoes before after scenario) :
    EventsSound after (applied.filter (· ≠ scenario)) none where
  linked id now found := by
    obtain ⟨row, foundRow, undone⟩ := undoes.found_cases id now found
    cases undone with
    | descendant lineage plain active =>
      simp [EventRow.clear, sound.unlinked foundRow active]
    | restored => simp [EventRow.restore]
    | ownActive own active => simp [EventRow.clear, sound.unlinked foundRow active]
    | ownRetired => simp [EventRow.clear, EventRow.restore]
    | kept => exact sound.linked id _ foundRow
  base id now found promoted := by
    obtain ⟨row, foundRow, undone⟩ := undoes.found_cases id now found
    obtain ⟨-, -, -, scope, from_⟩ := undone.same
    rw [scope]
    exact sound.base id row foundRow (by rwa [← from_])
  present id now next found link := by
    obtain ⟨row, foundRow, undone⟩ := undoes.found_cases id now found
    obtain ⟨successor, foundSuccessor, scope, keyed⟩ :=
      sound.present id row next foundRow (undone.link link)
    obtain ⟨later, foundLater, undoneLater⟩ := undoes.found_old next successor foundSuccessor
    obtain ⟨-, key, -, scopeRow, -⟩ := undone.same
    obtain ⟨-, keyLater, -, scopeLater, fromLater⟩ := undoneLater.same
    refine ⟨later, foundLater, by rw [scopeRow, scopeLater, scope], fun promoted => ?_⟩
    rw [key, keyLater]
    exact keyed (by rwa [← fromLater])
  apart owner id now next found link promoted other lineage := by
    obtain ⟨row, foundRow, undone⟩ := undoes.found_cases id now found
    refine sound.apart owner id row next foundRow (undone.link link)
      (undoes.promotedBy_iff.mp promoted) ?_ (undoes.inLineage lineage)
    rwa [← undone.same.2.2.2.2]
  idle owner outside id now lineage found := by
    obtain ⟨row, foundRow, undone⟩ := undoes.found_cases id now found
    have earlier := undoes.inLineage lineage
    obtain rfl := find_id foundRow
    rw [undone.same.2.2.2.2, undone.active_iff]
    by_cases same : owner = scenario
    · subst same
      refine ⟨undoes.alone row.id row earlier foundRow, ?_⟩
      rintro (⟨-, other, outside⟩ | ⟨retired, other, -⟩)
      · exact absurd ⟨earlier, (undoes.alone row.id row earlier foundRow).resolve_right other⟩
          outside
      · obtain ⟨-, next, link, promoted⟩ := retiredBy_iff.mp retired
        exact absurd earlier (sound.apart owner row.id row next foundRow link promoted other)
    · have unapplied : owner ∉ applied := fun inside =>
        outside (List.mem_filter.mpr ⟨inside, decide_eq_true same⟩)
      obtain ⟨clean, inactive⟩ := sound.idle owner unapplied row.id row earlier foundRow
      refine ⟨clean, ?_⟩
      rintro (⟨active, -, -⟩ | ⟨retired, -, -⟩)
      · exact inactive active
      · obtain ⟨-, next, link, successor, foundNext, promoted⟩ := retiredBy_iff.mp retired
        obtain ⟨head, own, reached⟩ := earlier
        have further : InLineage before owner next :=
          ⟨head, own, reached.tail (linked_iff.mpr ⟨row, foundRow, link⟩)⟩
        obtain ⟨plain | owned, -⟩ := sound.idle owner unapplied next successor further foundNext
        · rw [plain] at promoted
          cases promoted
        · exact absurd (Option.some.inj (owned.symm.trans promoted)) same

end Dohflow.DbWorker
