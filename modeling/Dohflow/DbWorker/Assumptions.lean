/-
This file models the forecast assumption events and the scenarios that overlay them: the
two tables, and the commands that record, edit and clear events and that create, change,
clone, delete and reinstate scenarios.

An event is never deleted. An edit inserts a new event and links the old one to it; a
clear only marks the event.
-/

import Dohflow.Foundation.KeyedTable
import Dohflow.SyncCore.Cbe

namespace Dohflow.DbWorker

open SyncCore Fallible KeyedTable

/-! ### Rows -/

/-- What an assumption event adjusts. -/
inductive AssumptionKind
  | incomeAmount
  | incomeDate
  | billAmount
  | billDate
  | cardPaymentBehavior
  | minimumCashFloor
  | variableSpendOverride
  | oneTimeEvent
  | inflationRate
  | scenarioToggle
  | exclusion
  | recurringDebtPayment
  deriving DecidableEq

/-- Whether promoting a scenario's event of this kind retires the base event it collides with. -/
def AssumptionKind.supersedesOnPromotion : AssumptionKind → Bool
  | .incomeDate | .billDate | .exclusion | .minimumCashFloor | .inflationRate
  | .cardPaymentBehavior | .scenarioToggle => true
  | .incomeAmount | .billAmount | .oneTimeEvent | .recurringDebtPayment
  | .variableSpendOverride => false

/-- Where an assumption event originated. -/
inductive AssumptionSource
  | userOverride
  | modelDefault
  | agentProposal
  | scheduled
  deriving DecidableEq

/-- Lifecycle of an assumption event. Only active events feed a run. -/
inductive AssumptionStatus
  | active
  | cleared
  | superseded
  deriving DecidableEq

/-- What an event is about: the forecast reads one event of a collision kind for each. -/
structure EventKey where
  kind : AssumptionKind
  targetEntityType : Option String
  targetEntityId : Option Uuid
  deriving DecidableEq

/-- A row of `forecast_assumption_events`. -/
structure EventRow where
  id : Uuid
  key : EventKey
  paramsJson : String
  source : AssumptionSource
  /-- Its scenario; none for a base event. -/
  scenarioId : Option Uuid
  status : AssumptionStatus
  /-- The event that replaced this one. -/
  supersededBy : Option Uuid
  createdAt : String
  /-- The scenario whose apply created this base event. -/
  promotedFrom : Option Uuid
  deriving DecidableEq

inductive ScenarioStatus
  | draft
  | active
  | archived
  deriving DecidableEq

structure NaiveDate where
  year : Int
  month : Nat
  day : Nat
  deriving DecidableEq

/-- A row of `scenarios`. -/
structure ScenarioRow where
  id : Uuid
  name : String
  description : Option String
  status : ScenarioStatus
  expiresOn : Option NaiveDate
  appliedAt : Option String
  appliedOpId : Option Uuid
  deletedAt : Option String
  deriving DecidableEq

abbrev EventTable : Type := Table EventRow.id

abbrev ScenarioTable : Type := Table ScenarioRow.id

/-- The assumption events and the scenarios of a vault. -/
structure AssumptionVault where
  events : EventTable
  scenarios : ScenarioTable
  deriving DecidableEq

def AssumptionVault.empty : AssumptionVault := ⟨.empty, .empty⟩

/-! ### Refusals -/

inductive RejectCode
  | issuedAtOutOfRange
  | payloadInvalid
  | referenceMissing
  | stateConflict
  deriving DecidableEq

inductive DbError
  | rejected (code : RejectCode) (message : String)
  /-- A write that the database refuses: a primary key that is taken. -/
  | sqlite
  deriving DecidableEq

/-- What a command carries besides its payload. -/
structure CommandMeta where
  commandId : Uuid
  /-- In microseconds. -/
  issuedAt : Int

/-- The libraries that the commands use: JSON, times as text, and derived identifiers. -/
structure Libraries where
  isJsonObject : String → Bool
  toRfc3339 : Int → String
  /-- The id of the event that an apply promotes, from the command, the scenario and the source
  event. -/
  keyedEventId : Uuid → Uuid → Uuid → Uuid
  /-- The id minted for a command's ordinal. -/
  ordinalId : CommandMeta → Nat → Uuid

/-- How many ids one command may mint. -/
def maxOrdinals : Nat := 4096

/-- Insert a row, or fail when its primary key is taken. -/
def insertRow {Row : Type} {key : Row → Uuid} (table : Table key) (row : Row) :
    Except DbError (Table key) :=
  match table.insert row with
  | some table => .ok table
  | none => .error .sqlite

/-- The order of ids as bytes. -/
def idBelow (first second : Uuid) : Bool := first.toList < second.toList

/-- Whether ids are listed once each, in order. -/
def strictlyAscending : List Uuid → Bool
  | first :: second :: rest => idBelow first second && strictlyAscending (second :: rest)
  | _ => true

section

variable (libraries : Libraries) (request : CommandMeta)

def issuedAtText : String := libraries.toRfc3339 request.issuedAt

/-- The scenario must exist and not be deleted. -/
def requireLive (scenarios : ScenarioTable) (id : Uuid) : Except DbError Unit :=
  match scenarios.find id with
  | none => .error (.rejected .referenceMissing "scenario does not exist")
  | some row =>
    if row.deletedAt.isSome then .error (.rejected .stateConflict "scenario was deleted")
    else .ok ()

/-! ### Assumption commands -/

/-- The fields needed to record a new assumption event. -/
structure NewAssumptionEvent where
  id : Uuid
  key : EventKey
  paramsJson : String
  source : AssumptionSource
  scenarioId : Option Uuid

/-- The event must exist and still be active. -/
def requireActive (events : EventTable) (id : Uuid) : Except DbError EventRow :=
  match events.find id with
  | none => .error (.rejected .referenceMissing "assumption event does not exist")
  | some row =>
    if row.status = .active then .ok row
    else .error (.rejected .stateConflict "assumption event is no longer active")

/-- The row that a new event becomes. -/
def NewAssumptionEvent.row (event : NewAssumptionEvent) (createdAt : String) : EventRow :=
  { id := event.id, key := event.key, paramsJson := event.paramsJson, source := event.source
    scenarioId := event.scenarioId, status := .active, supersededBy := none, createdAt
    promotedFrom := none }

/-- The scenario of an event, if it has one, must be live. -/
def requireScope (scenarios : ScenarioTable) : Option Uuid → Except DbError Unit
  | some scenario => requireLive scenarios scenario
  | none => .ok ()

/-- Validate and insert one new active event. -/
def insertEvent (event : NewAssumptionEvent) (vault : AssumptionVault) :
    Except DbError AssumptionVault := do
  ensure (libraries.isJsonObject event.paramsJson)
    (.rejected .payloadInvalid "assumption parameters must be a JSON object")
  requireScope vault.scenarios event.scenarioId
  ensure (vault.events.find event.id = none)
    (.rejected .stateConflict "that assumption event id is already in use")
  let events ← insertRow vault.events (event.row (issuedAtText libraries request))
  return { vault with events }

def applyRecordAssumptionEvent (event : NewAssumptionEvent) (vault : AssumptionVault) :
    Except DbError AssumptionVault :=
  insertEvent libraries request event vault

/-- Link an event to the one that replaced it. -/
def EventRow.supersede (row : EventRow) (successor : Uuid) : EventRow :=
  { row with status := .superseded, supersededBy := some successor }

theorem EventRow.supersede_id (row : EventRow) (successor : Uuid) :
    (row.supersede successor).id = row.id := rfl

/-- Replace an active event by a new one of the same scope. -/
def applySupersedeAssumptionEvent (id : Uuid) (replacement : NewAssumptionEvent)
    (vault : AssumptionVault) : Except DbError AssumptionVault := do
  ensure (replacement.id ≠ id)
    (.rejected .payloadInvalid "an assumption event cannot supersede itself")
  let old ← requireActive vault.events id
  ensure (old.scenarioId = replacement.scenarioId)
    (.rejected .stateConflict "a replacement must keep the scope of the event it supersedes")
  let vault ← insertEvent libraries request replacement vault
  return { vault with
    events := vault.events.update (·.id = id) (·.supersede replacement.id)
      fun row => row.supersede_id _ }

def EventRow.clear (row : EventRow) : EventRow := { row with status := .cleared }

theorem EventRow.clear_id (row : EventRow) : row.clear.id = row.id := rfl

/-- Clear an active event; clearing one that is cleared already changes nothing. -/
def applyClearAssumptionEvent (id : Uuid) (vault : AssumptionVault) :
    Except DbError AssumptionVault := do
  if (vault.events.find id).any (·.status = .cleared) then return vault
  let _ ← requireActive vault.events id
  return { vault with events := vault.events.update (·.id = id) EventRow.clear EventRow.clear_id }

/-! ### Scenario commands -/

/-- The characters with the Unicode property White_Space. -/
def isWhitespace (c : Char) : Bool :=
  (0x9 ≤ c.toNat && c.toNat ≤ 0xd) || c.toNat ∈ [0x20, 0x85, 0xa0, 0x1680] ||
    (0x2000 ≤ c.toNat && c.toNat ≤ 0x200a) || c.toNat ∈ [0x2028, 0x2029, 0x202f, 0x205f, 0x3000]

def isControl (c : Char) : Bool := c.toNat < 0x20 || (0x7f ≤ c.toNat && c.toNat < 0xa0)

/-- A scenario name: 1 to 100 characters after trimming, no control characters. -/
def cleanName (value : String) : Except DbError String :=
  let trimmed :=
    ((value.toList.dropWhile isWhitespace).reverse.dropWhile isWhitespace).reverse
  if trimmed.length = 0 ∨ trimmed.length > 100 ∨ trimmed.any isControl then
    .error (.rejected .payloadInvalid
      "a scenario name must be 1 to 100 characters without control characters")
  else .ok (String.ofList trimmed)

structure NewScenario where
  id : Uuid
  name : String
  description : Option String

def applyCreateScenario (scenario : NewScenario) (vault : AssumptionVault) :
    Except DbError AssumptionVault := do
  let name ← cleanName scenario.name
  ensure (vault.scenarios.find scenario.id = none)
    (.rejected .stateConflict "that scenario id is already in use")
  let scenarios ← insertRow vault.scenarios
    { id := scenario.id, name, description := scenario.description, status := .draft
      expiresOn := none, appliedAt := none, appliedOpId := none, deletedAt := none }
  return { vault with scenarios }

/-- Set fields of a scenario. -/
def ScenarioRow.set (fields : ScenarioRow → ScenarioRow) (row : ScenarioRow) : ScenarioRow :=
  { fields row with id := row.id }

theorem ScenarioRow.set_id (fields : ScenarioRow → ScenarioRow) (row : ScenarioRow) :
    (row.set fields).id = row.id := rfl

def setScenario (scenarios : ScenarioTable) (id : Uuid) (fields : ScenarioRow → ScenarioRow) :
    ScenarioTable :=
  scenarios.update (·.id = id) (·.set fields) fun row => row.set_id fields

def applySetScenarioStatus (id : Uuid) (status : ScenarioStatus) (vault : AssumptionVault) :
    Except DbError AssumptionVault := do
  requireLive vault.scenarios id
  return { vault with scenarios := setScenario vault.scenarios id fun row => { row with status } }

def applyRenameScenario (id : Uuid) (name : String) (vault : AssumptionVault) :
    Except DbError AssumptionVault := do
  let name ← cleanName name
  requireLive vault.scenarios id
  return { vault with scenarios := setScenario vault.scenarios id fun row => { row with name } }

/-- Set the expiry of a scenario, in a year from 1900 to 9999. -/
def applySetScenarioExpiry (id : Uuid) (expiresOn : Option NaiveDate) (vault : AssumptionVault) :
    Except DbError AssumptionVault := do
  ensure (expiresOn.all fun date => 1900 ≤ date.year ∧ date.year ≤ 9999)
    (.rejected .payloadInvalid "a scenario expiry year must be from 1900 to 9999")
  requireLive vault.scenarios id
  return { vault with scenarios := setScenario vault.scenarios id fun row => { row with expiresOn } }

/-- The copy of an event in a clone: a fresh active event with the source's creation time. -/
def EventRow.cloned (row : EventRow) (id scenario : Uuid) : EventRow :=
  { row with
    id, scenarioId := some scenario, status := .active, supersededBy := none
    promotedFrom := none }

/-- Copy the listed events of the source, with one ordinal for each. -/
def cloneEvents (source clone : Uuid) : Nat → List Uuid → EventTable → Except DbError EventTable
  | _, [], events => .ok events
  | ordinal, id :: rest, events =>
    match (events.find id).filter (·.scenarioId = some source) with
    | none => .error (.rejected .referenceMissing
        "that event is not part of the scenario being cloned")
    | some row => do
      let events ← insertRow events (row.cloned (libraries.ordinalId request ordinal) clone)
      cloneEvents source clone (ordinal + 1) rest events

/-- Create a draft scenario with a copy of exactly the events that are named. -/
def applyCloneScenario (source clone : Uuid) (name : String) (eventIds : List Uuid)
    (vault : AssumptionVault) : Except DbError AssumptionVault := do
  let name ← cleanName name
  ensure (strictlyAscending eventIds) (.rejected .payloadInvalid
    "the events to clone must be listed once each, in ascending order")
  ensure (eventIds.length ≤ maxOrdinals)
    (.rejected .payloadInvalid "too many events to clone in one command")
  requireLive vault.scenarios source
  ensure (vault.scenarios.find clone = none)
    (.rejected .stateConflict "that scenario id is already in use")
  let scenarios ← insertRow vault.scenarios
    { id := clone, name, description := (vault.scenarios.find source).bind (·.description)
      status := .draft, expiresOn := none, appliedAt := none, appliedOpId := none
      deletedAt := none }
  let events ← cloneEvents libraries request source clone 0 eventIds vault.events
  return { events, scenarios }

/-- Delete a scenario with a tombstone; its events stay. -/
def applyDeleteScenario (id : Uuid) (vault : AssumptionVault) :
    Except DbError AssumptionVault := do
  ensure (vault.scenarios.find id ≠ none)
    (.rejected .referenceMissing "scenario does not exist")
  let deletedAt := issuedAtText libraries request
  return { vault with scenarios := setScenario vault.scenarios id fun row =>
    { row with deletedAt := row.deletedAt.or (some deletedAt) } }

def applyReinstateScenario (id : Uuid) (vault : AssumptionVault) :
    Except DbError AssumptionVault := do
  ensure (vault.scenarios.find id ≠ none)
    (.rejected .referenceMissing "scenario does not exist")
  return { vault with scenarios := setScenario vault.scenarios id fun row => { row with deletedAt := none } }

end

end Dohflow.DbWorker
