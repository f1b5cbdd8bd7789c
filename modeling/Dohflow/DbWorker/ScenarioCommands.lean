/-
This file models applying a scenario to the base forecast and undoing it.

An apply promotes the scenario's active events: each becomes a new base event, which
supersedes the active base event that it collides with. An undo follows the links from
the promoted events to what the person changed since, clears it, and restores what the
apply superseded, unless a newer base event holds its key. It waits for the undo of an
apply that lies on top.
-/

import Dohflow.DbWorker.Assumptions
import Dohflow.Foundation.Lineage
import Mathlib.Data.List.Sort

namespace Dohflow.DbWorker

open SyncCore Fallible KeyedTable Lineage

/-- The order of events: by creation time, then by id. -/
def createdBefore (first second : EventRow) : Bool :=
  first.createdAt < second.createdAt ||
    (first.createdAt = second.createdAt && first.id.toList ≤ second.id.toList)

/-- `SELECT ... WHERE ... ORDER BY created_at, id` -/
def selectOrdered (events : EventTable) (selects : EventRow → Bool) : List EventRow :=
  (events.rows.filter selects).insertionSort fun first second => createdBefore first second

/-- Whether a row is an active base event with this key. -/
def EventRow.holds (row : EventRow) (key : EventKey) : Bool :=
  row.scenarioId = none && row.status = .active && row.key = key

/-- Whether a scenario is applied now. -/
def stillApplied (scenarios : ScenarioTable) (id : Uuid) : Bool :=
  (scenarios.find id).any (·.appliedAt.isSome)

/-! ### Apply -/

section

variable (libraries : Libraries) (request : CommandMeta)

/-- The events that an apply promotes, in the scenario's own order. -/
def promotable (events : EventTable) (scenario : Uuid) : List EventRow :=
  selectOrdered events fun row => row.scenarioId = some scenario && row.status = .active

/-- The base event that an event becomes. -/
def EventRow.promoted (event : EventRow) (scenario newId : Uuid) (createdAt : String) : EventRow :=
  { event with
    id := newId, scenarioId := none, status := .active, supersededBy := none, createdAt
    promotedFrom := some scenario }

/-- Promote an event, the k-th one k microseconds after the command. -/
def promote (scenario : Uuid) (k : Nat) (event : EventRow) (events : EventTable) :
    Except DbError EventTable :=
  let newId := libraries.keyedEventId request.commandId scenario event.id
  let createdAt := libraries.toRfc3339 (request.issuedAt + k)
  -- Only a collision kind replaces what it collides with; the others are folded one by one.
  let events :=
    if event.key.kind.supersedesOnPromotion then
      events.update (·.holds event.key) (·.supersede newId) fun row => row.supersede_id _
    else events
  insertRow events (event.promoted scenario newId createdAt)

def promoteAll (scenario : Uuid) : Nat → List EventRow → EventTable → Except DbError EventTable
  | _, [], events => .ok events
  | k, event :: rest, events => do
    let events ← promote libraries request scenario k event events
    promoteAll scenario (k + 1) rest events

/-- Promote a scenario's active events into base. -/
def applyScenario (scenario : Uuid) (vault : AssumptionVault) : Except DbError AssumptionVault := do
  requireLive vault.scenarios scenario
  ensure (stillApplied vault.scenarios scenario = false)
    (.rejected .stateConflict "this scenario is already applied")
  let promotes := promotable vault.events scenario
  ensure (promotes ≠ [])
    (.rejected .stateConflict "this scenario has no active changes to apply")
  let events ← promoteAll libraries request scenario 0 promotes vault.events
  let scenarios := setScenario vault.scenarios scenario fun row => { row with
    appliedAt := some (issuedAtText libraries request), appliedOpId := some request.commandId }
  return { events, scenarios }

end

/-! ### Undo -/

/-- Whether a row was superseded by one that the scenario promoted. -/
def EventRow.retiredBy (row : EventRow) (events : EventTable) (scenario : Uuid) : Bool :=
  row.status = .superseded && row.supersededBy.any fun id =>
    (events.find id).any (·.promotedFrom = some scenario)

/-- Bring a superseded row back. -/
def EventRow.restore (row : EventRow) : EventRow :=
  { row with status := .active, supersededBy := none }

theorem EventRow.restore_id (row : EventRow) : row.restore.id = row.id := rfl

/-- The scenario must exist and be applied. -/
def requireApplied (scenarios : ScenarioTable) (id : Uuid) (missing : String) :
    Except DbError Unit :=
  match scenarios.find id with
  | none => .error (.rejected .referenceMissing missing)
  | some row =>
    if row.appliedAt.isNone then
      .error (.rejected .stateConflict "this scenario is not applied")
    else .ok ()

/-- Mark a scenario as not applied. -/
def unapply (scenarios : ScenarioTable) (id : Uuid) : ScenarioTable :=
  setScenario scenarios id fun row => { row with appliedAt := none, appliedOpId := none }

/-- Clear the active rows that a scenario promoted; they stay as history. -/
def clearPromoted (events : EventTable) (scenario : Uuid) : EventTable :=
  events.update (fun row => row.promotedFrom = some scenario && row.status = .active)
    EventRow.clear EventRow.clear_id

/-- The retired undo: it restores everything the apply superseded and follows no edit. -/
def revertScenarioApply (scenario : Uuid) (vault : AssumptionVault) :
    Except DbError AssumptionVault := do
  requireApplied vault.scenarios scenario "scenario does not exist"
  let restored := vault.events.update (·.retiredBy vault.events scenario) EventRow.restore
    EventRow.restore_id
  return { events := clearPromoted restored scenario, scenarios := unapply vault.scenarios scenario }

/-- The scenario that a row was promoted from, when it is another one that is applied now. -/
def laterOwner (scenarios : ScenarioTable) (scenario : Uuid) (row : EventRow) : Option Uuid :=
  row.promotedFrom.filter fun owner => owner ≠ scenario && stillApplied scenarios owner

/-- The scenario of a later apply that a row came from: the row is promoted from another scenario,
or it is an edit somewhere down a chain that starts at a row promoted from another one. -/
def laterApplyBehind (vault : AssumptionVault) (scenario : Uuid) (row : EventRow) : Option Uuid :=
  if row.promotedFrom.isSome then laterOwner vault.scenarios scenario row
  else searchBack vault.events.rows EventRow.id EventRow.supersededBy
    (laterOwner vault.scenarios scenario) ([row.id], [row.id])

/-- What happened to an item the apply put in. -/
inductive RevertChange
  | edited
  | cleared
  | keptNewer

/-- One item the confirmation lists. -/
structure RevertLine where
  change : RevertChange
  key : EventKey
  beforeParamsJson : String
  afterParamsJson : Option String

/-- What an undo of one applied scenario would do. -/
structure RevertPlan where
  /-- The active descendants of the promoted rows, in ascending order. -/
  descendants : List Uuid
  /-- The scenario whose apply sits on top of this one. -/
  blocker : Option Uuid
  lines : List RevertLine
  /-- The base events the undo reactivates. -/
  restore : List Uuid

/-- Insert an id into ascending ones, once. -/
def insertId (id : Uuid) : List Uuid → List Uuid
  | [] => [id]
  | first :: rest =>
    if idBelow id first then id :: first :: rest
    else if id = first then first :: rest
    else first :: insertId id rest

/-- Insert a line under an id into lines in the order of their ids, unless there is one. -/
def insertLine (id : Uuid) (line : RevertLine) : List (Uuid × RevertLine) → List (Uuid × RevertLine)
  | [] => [(id, line)]
  | first :: rest =>
    if idBelow id first.1 then (id, line) :: first :: rest
    else if id = first.1 then first :: rest
    else first :: insertLine id line rest

/-- The events after a promoted one, along the links. -/
def chainOf (events : EventTable) (head : EventRow) : List EventRow :=
  follow events.rows EventRow.id EventRow.supersededBy [head.id] head.supersededBy

section

variable (scenario : Uuid)

/-- Follow a chain to its tip: the active rows on it that are not promoted are descendants. A row
promoted from another scenario ends the plan. -/
def walkChain : List EventRow → List Uuid → Bool → EventRow →
    Except (List Uuid × Uuid) (List Uuid × Bool × EventRow)
  | [], descendants, edited, tip => .ok (descendants, edited, tip)
  | row :: rest, descendants, edited, _ =>
    match row.promotedFrom with
    | some owner =>
      if owner = scenario then walkChain rest descendants edited row
      else .error (descendants, owner)
    | none =>
      let descendants :=
        if row.status = .active then insertId row.id descendants else descendants
      walkChain rest descendants true row

/-- What the confirmation says about a chain that ends in a tip. -/
def lineOf (head tip : EventRow) (edited : Bool) : Option RevertLine :=
  match tip.status with
  | .cleared => some ⟨.cleared, head.key, head.paramsJson, none⟩
  | .active => if edited then some ⟨.edited, head.key, head.paramsJson, some tip.paramsJson⟩ else none
  | .superseded => none

/-- Follow the chains of all promoted rows; one line per chain tip. -/
def walkChains (events : EventTable) : List EventRow → List Uuid → List (Uuid × RevertLine) →
    Except (List Uuid × Uuid) (List Uuid × List (Uuid × RevertLine))
  | [], descendants, lines => .ok (descendants, lines)
  | head :: rest, descendants, lines =>
    match walkChain scenario (chainOf events head) descendants false head with
    | .error blocked => .error blocked
    | .ok (descendants, edited, tip) =>
      walkChains events rest descendants
        (match lineOf head tip edited with
        | some line => insertLine tip.id line lines
        | none => lines)

/-- Whether another row may hold the key of a retired one. A row of the scenario itself is part of
the apply. -/
def EventRow.collides (old : EventRow) : Bool :=
  old.promotedFrom ≠ some scenario && old.key.kind.supersedesOnPromotion

/-- The rows that hold the key of a retired one and stay active. -/
def holdersOf (events : EventTable) (descendants : List Uuid) (old : EventRow) : List EventRow :=
  if old.collides scenario then
    (selectOrdered events (·.holds old.key)).filter fun row =>
      row.id ∉ descendants && row.promotedFrom ≠ some scenario
  else []

/-- Restore each retired row whose key no other row holds. -/
def planRestores (vault : AssumptionVault) : List EventRow → RevertPlan → RevertPlan
  | [], plan => plan
  | old :: rest, plan =>
    let holders := holdersOf scenario vault.events plan.descendants old
    match holders.findSome? (laterApplyBehind vault scenario) with
    | some later => { plan with blocker := some later }
    | none =>
      match holders with
      | newer :: _ => planRestores vault rest { plan with
          lines := plan.lines ++ [⟨.keptNewer, old.key, old.paramsJson, some newer.paramsJson⟩] }
      | [] => planRestores vault rest { plan with restore := plan.restore ++ [old.id] }

/-- Plan the undo of a scenario's apply. -/
def planRevert (vault : AssumptionVault) : RevertPlan :=
  let promoted := selectOrdered vault.events (·.promotedFrom = some scenario)
  match walkChains scenario vault.events promoted [] [] with
  | .error (descendants, later) =>
    { descendants, blocker := some later, lines := [], restore := [] }
  | .ok (descendants, lines) =>
    let retired := selectOrdered vault.events (·.retiredBy vault.events scenario)
    planRestores scenario vault retired
      { descendants, blocker := none, lines := lines.map Prod.snd, restore := [] }

/-- Undo an apply: clear the active descendants the person confirmed, restore the base events the
apply superseded, and clear the promoted rows. -/
def revertScenarioApplyConfirmed (confirmedDescendants : List Uuid) (vault : AssumptionVault) :
    Except DbError AssumptionVault := do
  ensure (strictlyAscending confirmedDescendants) (.rejected .payloadInvalid
    "the confirmed changes must be listed once each, in order")
  requireApplied vault.scenarios scenario "no such scenario"
  let plan := planRevert scenario vault
  ensure (plan.blocker = none)
    (.rejected .stateConflict "a scenario applied later has to be undone first")
  ensure (plan.descendants = confirmedDescendants) (.rejected .stateConflict
    "the changes made since this scenario was applied are not the ones confirmed")
  let cleared := vault.events.update (·.id ∈ plan.descendants) EventRow.clear EventRow.clear_id
  let restored := cleared.update (·.id ∈ plan.restore) EventRow.restore EventRow.restore_id
  return { events := clearPromoted restored scenario, scenarios := unapply vault.scenarios scenario }

end

/-! ### All commands -/

/-- A scenario or assumption command. -/
inductive ScenarioCommand
  | recordAssumptionEvent (event : NewAssumptionEvent)
  | supersedeAssumptionEvent (id : Uuid) (replacement : NewAssumptionEvent)
  | clearAssumptionEvent (id : Uuid)
  | createScenario (scenario : NewScenario)
  | setScenarioStatus (id : Uuid) (status : ScenarioStatus)
  | renameScenario (id : Uuid) (name : String)
  | setScenarioExpiry (id : Uuid) (expiresOn : Option NaiveDate)
  | cloneScenario (source clone : Uuid) (name : String) (eventIds : List Uuid)
  | deleteScenario (id : Uuid)
  | reinstateScenario (id : Uuid)
  | applyScenario (scenario : Uuid)
  /-- Retired: it still replays, but nothing builds it any more. -/
  | revertScenarioApply (scenario : Uuid)
  | revertScenarioApplyConfirmed (scenario : Uuid) (confirmedDescendants : List Uuid)

/-- Apply one command, all or nothing. -/
def dispatch (libraries : Libraries) (request : CommandMeta) (vault : AssumptionVault) :
    ScenarioCommand → Except DbError AssumptionVault
  | .recordAssumptionEvent event => applyRecordAssumptionEvent libraries request event vault
  | .supersedeAssumptionEvent id replacement =>
    applySupersedeAssumptionEvent libraries request id replacement vault
  | .clearAssumptionEvent id => applyClearAssumptionEvent id vault
  | .createScenario scenario => applyCreateScenario scenario vault
  | .setScenarioStatus id status => applySetScenarioStatus id status vault
  | .renameScenario id name => applyRenameScenario id name vault
  | .setScenarioExpiry id expiresOn => applySetScenarioExpiry id expiresOn vault
  | .cloneScenario source clone name eventIds =>
    applyCloneScenario libraries request source clone name eventIds vault
  | .deleteScenario id => applyDeleteScenario libraries request id vault
  | .reinstateScenario id => applyReinstateScenario id vault
  | .applyScenario scenario => applyScenario libraries request scenario vault
  | .revertScenarioApply scenario => revertScenarioApply scenario vault
  | .revertScenarioApplyConfirmed scenario confirmed =>
    revertScenarioApplyConfirmed scenario confirmed vault

end Dohflow.DbWorker
