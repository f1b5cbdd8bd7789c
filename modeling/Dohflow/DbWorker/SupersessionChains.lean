/-
This file proves that following the links between assumption events always ends, and at one event.

Whatever a command does, an event stays in its scenario, and a link that it makes leads from an
event that was there to one that was not (`Relinks`). So a rank falls along every link; the undos
only take links away, the retired one too.
-/

import Dohflow.DbWorker.ScenarioUndo

namespace Dohflow.DbWorker

open SyncCore KeyedTable Lineage Relation

variable {libraries : Libraries} {request : CommandMeta} {events before after : EventTable}
  {vault vault' : AssumptionVault} {command : ScenarioCommand} {new : EventRow}

/-- Events stay in their scenario, and a new link leads from an old event to a new one of its
scenario, which has no link. -/
structure Relinks (before after : EventTable) : Prop where
  kept : ∀ id row, before.find id = some row →
    ∃ now, after.find id = some now ∧ now.scenarioId = row.scenarioId
  linked : ∀ id now next, after.find id = some now → now.supersededBy = some next →
    (∃ row, before.find id = some row ∧ row.supersededBy = some next) ∨
      before.find id ≠ none ∧ before.find next = none ∧ ∃ successor,
        after.find next = some successor ∧ successor.scenarioId = now.scenarioId

theorem relinks_of_found {change : EventRow → EventRow}
    (found : ∀ id, after.find id = (before.find id).map change)
    (stays : ∀ row, (change row).scenarioId = row.scenarioId)
    (unlinks : ∀ row next, (change row).supersededBy = some next →
      row.supersededBy = some next) : Relinks before after where
  kept id row foundRow := ⟨change row, by rw [found, foundRow, Option.map_some], stays row⟩
  linked id now next foundNow link := by
    rw [found, Option.map_eq_some_iff] at foundNow
    obtain ⟨row, foundRow, rfl⟩ := foundNow
    exact .inl ⟨row, foundRow, unlinks row next link⟩

theorem Extends.relinks {replaces : EventRow → Bool}
    (extended : Extends before after new replaces) : Relinks before after where
  kept id row found := by
    refine ⟨_, extended.found_old found, ?_⟩
    split
    · rfl
    · rfl
  linked id now next found link := by
    obtain ⟨-, rfl⟩ | ⟨-, old, foundOld, ⟨-, rfl⟩ | ⟨replaced, rfl⟩⟩ := extended.found_cases found
    · rw [extended.unlinked] at link
      cases link
    · exact .inl ⟨now, foundOld, link⟩
    · obtain rfl := Option.some.inj link
      refine .inr ⟨by rw [foundOld]; exact nofun, extended.fresh, new, extended.found_new, ?_⟩
      exact (extended.replaced id old foundOld replaced).2.1.symm

theorem Undoes.relinks {scenario : Uuid} (undoes : Undoes before after scenario) :
    Relinks before after where
  kept id row found := by
    obtain ⟨now, foundNow, undone⟩ := undoes.found_old id row found
    exact ⟨now, foundNow, undone.same.2.2.2.1⟩
  linked id now next found link := by
    obtain ⟨row, foundRow, undone⟩ := undoes.found_cases id now found
    exact .inl ⟨row, foundRow, undone.link link⟩

theorem relinks_promoteAll {scenario : Uuid} {k : Nat} {promotes : List EventRow}
    (promoted : promoteAll libraries request scenario k promotes events = .ok after) :
    ReflTransGen Relinks events after := by
  induction promotes generalizing k events with
  | nil =>
    obtain rfl := Except.ok.inj promoted
    exact .refl
  | cons event rest inductionHypothesis =>
    rw [promoteAll, Fallible.bind_eq_ok] at promoted
    obtain ⟨between, first, rest⟩ := promoted
    obtain ⟨newId, createdAt, extended⟩ := extends_promote first
    exact .head extended.relinks (inductionHypothesis rest)

theorem relinks_of_dispatch (accepted : dispatch libraries request vault command = .ok vault') :
    ReflTransGen Relinks vault.events vault'.events := by
  cases effect_of_dispatch accepted with
  | grown grown same order =>
    exact ReflTransGen.mono (fun before after ⟨new, extended, _⟩ => extended.relinks) _ _ grown
  | edited found active extended same => exact .single extended.relinks
  | cleared cleared same =>
    refine .single (relinks_of_found cleared.found (fun row => ?_) fun row next => ?_)
    · split
      · rfl
      · rfl
    · split
      · exact id
      · exact id
  | applied unapplied promotes promoted marked => exact relinks_promoteAll promoted
  | retired applied found unmarked =>
    refine .single (relinks_of_found found (fun row => ?_) fun row next => ?_)
    · unfold clearOwn
      split_ifs <;> rfl
    · unfold clearOwn
      split_ifs
      · exact nofun
      · exact nofun
      · exact id
      · exact id
  | undone applied plan undoes unmarked => exact .single undoes.relinks

/-! ### Where the links end -/

/-- A rank falls along every link, and a link leads to an event of the same scenario. -/
structure Chained (events : EventTable) : Prop where
  ranked : ∃ rank : Uuid → Nat, ∀ id row next, events.find id = some row →
    row.supersededBy = some next → rank next < rank id
  present : ∀ id row next, events.find id = some row → row.supersededBy = some next →
    ∃ successor, events.find next = some successor ∧ successor.scenarioId = row.scenarioId

theorem Chained.relink (chained : Chained before) (relinks : Relinks before after) :
    Chained after := by
  obtain ⟨⟨rank, falls⟩, present⟩ := chained
  refine ⟨⟨fun id => if before.find id = none then 0 else rank id + 1, ?_⟩, ?_⟩
  · intro id now next found link
    show (if before.find next = none then 0 else rank next + 1) <
      if before.find id = none then 0 else rank id + 1
    rcases relinks.linked id now next found link with ⟨row, foundRow, link⟩ | ⟨old, fresh, -⟩
    · have below := falls id row next foundRow link
      have old : before.find id ≠ none := by
        rw [foundRow]
        exact nofun
      rw [if_neg old]
      split <;> omega
    · rw [if_pos fresh, if_neg old]
      exact Nat.succ_pos _
  · intro id now next found link
    rcases relinks.linked id now next found link with ⟨row, foundRow, link⟩ | ⟨-, -, made⟩
    · obtain ⟨successor, foundSuccessor, same⟩ := present id row next foundRow link
      obtain ⟨later, foundLater, stays⟩ := relinks.kept next successor foundSuccessor
      obtain ⟨own, foundOwn, ownStays⟩ := relinks.kept id row foundRow
      obtain rfl := Option.some.inj (found.symm.trans foundOwn)
      exact ⟨later, foundLater, stays.trans (same.trans ownStays.symm)⟩
    · exact made

theorem Chained.relinkAll (chained : Chained before) (relinks : ReflTransGen Relinks before after) :
    Chained after := by
  induction relinks with
  | refl => exact chained
  | tail _ relinks inductionHypothesis => exact inductionHypothesis.relink relinks

theorem chained_of_reached {allowed : AssumptionVault → List Uuid → ScenarioCommand → Prop}
    {applied : List Uuid} (reached : Reached libraries allowed vault applied) :
    Chained vault.events := by
  induction reached with
  | start => exact ⟨⟨fun _ => 0, fun _ _ _ found => by cases found⟩, fun _ _ _ found => by
      cases found⟩
  | step reached permitted accepted inductionHypothesis =>
    exact inductionHypothesis.relinkAll (relinks_of_dispatch accepted)

/-- An event that the links lead to, and that was not replaced. -/
def EndsAt (events : EventTable) (id last : Uuid) : Prop :=
  ReflTransGen (Linked events.rows EventRow.id EventRow.supersededBy) id last ∧
    ∃ row, events.find last = some row ∧ row.supersededBy = none

theorem Chained.exists_end (chained : Chained events) {rank : Uuid → Nat}
    (falls : ∀ id row next, events.find id = some row → row.supersededBy = some next →
      rank next < rank id) {id : Uuid} {row : EventRow} (found : events.find id = some row) :
    ∃ last final, EndsAt events id last ∧ events.find last = some final ∧
      final.scenarioId = row.scenarioId := by
  induction bound : rank id using Nat.strong_induction_on generalizing id row with
  | _ bound inductionHypothesis =>
    cases link : row.supersededBy with
    | none => exact ⟨id, row, ⟨.refl, row, found, link⟩, found, rfl⟩
    | some next =>
      obtain ⟨successor, foundNext, same⟩ := chained.present id row next found link
      have below := falls id row next found link
      obtain ⟨last, final, ⟨reached, ends⟩, foundLast, stays⟩ :=
        inductionHypothesis _ (by omega) foundNext rfl
      exact ⟨last, final, ⟨.head (linked_iff.mpr ⟨row, found, link⟩) reached, ends⟩, foundLast,
        stays.trans same⟩

theorem endsAt_unique {id one other : Uuid} (first : EndsAt events id one)
    (second : EndsAt events id other) : one = other := by
  have single : Relator.RightUnique (Linked events.rows EventRow.id EventRow.supersededBy) := by
    intro start next another linked linkedToo
    obtain ⟨row, found, link⟩ := linked_iff.mp linked
    obtain ⟨same, foundSame, linkToo⟩ := linked_iff.mp linkedToo
    obtain rfl := Option.some.inj (found.symm.trans foundSame)
    exact Option.some.inj (link.symm.trans linkToo)
  have stops {start next : Uuid}
      (ends : ∃ row, events.find start = some row ∧ row.supersededBy = none)
      (reached : ReflTransGen (Linked events.rows EventRow.id EventRow.supersededBy) start next) :
      start = next := by
    obtain ⟨row, found, unlinked⟩ := ends
    rcases reached.cases_head with same | ⟨middle, linked, -⟩
    · exact same
    · obtain ⟨again, foundAgain, link⟩ := linked_iff.mp linked
      rw [← Option.some.inj (found.symm.trans foundAgain), unlinked] at link
      cases link
  rcases ReflTransGen.total_of_right_unique single first.1 second.1 with onward | onward
  · exact stops first.2 onward
  · exact (stops second.2 onward).symm

/-- The links from an event end at exactly one event, which is of the same scenario. -/
def LinksEnd (events : EventTable) : Prop :=
  ∀ id row, events.find id = some row → ∃ last final, EndsAt events id last ∧
    events.find last = some final ∧ final.scenarioId = row.scenarioId ∧
      ∀ other, EndsAt events id other → other = last

/-- In every vault that accepted commands lead to, the links from an event end at exactly one event
that was not replaced, and it is of the same scenario. -/
theorem links_end_at_one {allowed : AssumptionVault → List Uuid → ScenarioCommand → Prop}
    {applied : List Uuid} (reached : Reached libraries allowed vault applied) :
    LinksEnd vault.events := by
  intro id row found
  have chained := chained_of_reached reached
  obtain ⟨rank, falls⟩ := chained.ranked
  obtain ⟨last, final, ends, foundLast, same⟩ := chained.exists_end falls found
  exact ⟨last, final, ends, foundLast, same, fun other reaches => endsAt_unique reaches ends⟩

/-- An event is edited, and edited again. -/
def editCommands : List ScenarioCommand :=
  [.recordAssumptionEvent (sampleEvent 10 none),
    .supersedeAssumptionEvent (sampleEventId 10) (sampleEvent 11 none),
    .supersedeAssumptionEvent (sampleEventId 11) (sampleEvent 12 none)]

def editedTwice : AssumptionVault := (runSample 1 editCommands .empty).getD .empty

theorem links_end_at_one_editedTwice : LinksEnd editedTwice.events ∧
    editedTwice.events.rows.map EventRow.supersededBy =
      [some (sampleEventId 11), some (sampleEventId 12), none] := by
  have ran : runSample 1 editCommands .empty = some editedTwice := by decide +kernel
  have opened : Reached sampleLibraries (fun _ _ _ => True) .empty [] := .start
  exact ⟨links_end_at_one (reached_of_runSample opened (fun _ _ _ _ => trivial) ran),
    by decide +kernel⟩

end Dohflow.DbWorker
