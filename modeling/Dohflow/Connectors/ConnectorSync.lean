/-
This file models the sync of a connection beside everything that may happen to its links
meanwhile.

A sync reads the links of its connection under the vault's lock, walks the provider with
the lock released, and takes the lock again to save the accounts it was answered for, to
hand their transactions to staging under the mapping it read, and to advance the
watermarks. Each of these is a step of its own, and a sync may fail, or the process die,
before each of them and within the staging. While a sync holds the lock, nothing else
touches the tables. One sync of a connection runs at a time.

Beside what the tables hold, a link carries how often it was mapped and which sync was its
first since, and the world carries what was handed to staging. No step of the code reads
these.
-/

import Dohflow.Connectors.DateWalk

namespace Dohflow.Connectors

open SyncCore Fallible KeyedTable

/-! ### The tables -/

/-- A link of a connection with its watermark. -/
structure Link where
  connectionId : Uuid
  externalId : String
  externalName : Option String
  /-- The account that the link is mapped to. -/
  accountId : Option Uuid
  currency : Option String
  /-- The watermark. -/
  lastSyncedOn : Option Int
  /-- How often it was mapped, remapped or unmapped. -/
  mappings : Nat
  /-- The day of the first sync to advance it, of those that began after it was last mapped. -/
  firstSync : Option Int
  deriving DecidableEq

def Link.key (link : Link) : Uuid × String := (link.connectionId, link.externalId)

/-- The row without its watermark, which is a date of its own here. -/
def Link.row (link : Link) : ConnectorLinkRow where
  externalId := link.externalId
  externalName := link.externalName
  accountId := link.accountId
  lastSyncedOn := none
  currency := link.currency

structure ConnectorStore where
  /-- The connections that are not deleted. -/
  live : List Uuid
  deleted : List Uuid
  links : Table Link.key

inductive ConnectorDbError
  | replicatedKeyTooLong (table : String)
  | invalidCommand (message : String)

namespace ConnectorStore

def connectorConnectionExists (store : ConnectorStore) (connection : Uuid) : Bool :=
  connection ∈ store.live

/-- A connection that is known already, deleted or not, stays as it is. -/
def createConnectorConnection (store : ConnectorStore) (connection : Uuid) : ConnectorStore :=
  if connection ∈ store.live ∨ connection ∈ store.deleted then store
  else { store with live := store.live ++ [connection] }

/-- The links of a connection that is not deleted. -/
def connectorLinks (store : ConnectorStore) (connection : Uuid) : List Link :=
  if connection ∈ store.live then
    store.links.rows.filter fun link => link.connectionId = connection
  else []

/-- The longest external id of a link, in bytes. -/
def maxLinkExternalIdBytes : Nat := 234

def isCurrencyCode (currency : String) : Bool :=
  currency.toList.length = 3 && currency.toList.all fun char => 'A' ≤ char ∧ char ≤ 'Z'

/-- Save an account that the provider listed: its name, and its currency where one is stated. -/
def upsertConnectorLink (store : ConnectorStore) (connection : Uuid) (externalId : String)
    (externalName currency : Option String) : Except ConnectorDbError ConnectorStore := do
  ensure (externalId.utf8ByteSize ≤ maxLinkExternalIdBytes)
    (.replicatedKeyTooLong "connector_account_links")
  if connection ∉ store.live then return store
  match store.links.find (connection, externalId) with
  | some existing =>
    if existing.externalName = externalName ∧
        (currency = none ∨ existing.currency = currency) then return store
    ensure (currency.all isCurrencyCode)
      (.invalidCommand "a connector account currency is an uppercase three-letter code")
    return { store with
      links := store.links.update (fun link => link.key = (connection, externalId))
        (fun link => { link with externalName, currency := currency.or link.currency })
        (fun _ => rfl) }
  | none =>
    ensure (currency.all isCurrencyCode)
      (.invalidCommand "a connector account currency is an uppercase three-letter code")
    match store.links.insert ⟨connection, externalId, externalName, none, currency, none, 0, none⟩
      with
    | some links => return { store with links }
    | none => return store

/-- Map a link to an account, or unmap it. Either clears its watermark. -/
def setConnectorLinkAccount (store : ConnectorStore) (connection : Uuid) (externalId : String)
    (account : Option Uuid) : Except ConnectorDbError ConnectorStore := do
  ensure (connection ∈ store.live) (.invalidCommand "that connection was deleted")
  ensure (store.links.find (connection, externalId) ≠ none)
    (.invalidCommand "unknown connector account link")
  return { store with
    links := store.links.update (fun link => link.key = (connection, externalId))
      (fun link => { link with
        accountId := account
        lastSyncedOn := none
        mappings := link.mappings + 1
        firstSync := none })
      (fun _ => rfl) }

/-- Forget a connection. Its links stay, without their watermarks. -/
def deleteConnectorConnection (store : ConnectorStore) (connection : Uuid) : ConnectorStore :=
  if connection ∉ store.live then store
  else
    { live := store.live.filter (· ≠ connection)
      deleted := store.deleted ++ [connection]
      links := store.links.update (fun link => link.connectionId = connection)
        (fun link => { link with lastSyncedOn := none, firstSync := none }) (fun _ => rfl) }

/-- The links that an advance reaches: listed, mapped, and of a connection that is not deleted. -/
def advances (store : ConnectorStore) (connection : Uuid) (externalIds : List String)
    (link : Link) : Bool :=
  connection ∈ store.live && link.connectionId = connection && link.externalId ∈ externalIds &&
    link.accountId.isSome

def advanceConnectorWatermarks (store : ConnectorStore) (connection : Uuid) (syncedOn : Int)
    (externalIds : List String) : ConnectorStore :=
  { store with
    links := store.links.update (store.advances connection externalIds)
      (fun link => { link with lastSyncedOn := some syncedOn }) (fun _ => rfl) }

/-- Note the first sync of the links that it advances and that were last mapped before it began. -/
def noteFirstSync (store : ConnectorStore) (connection : Uuid) (today : Int)
    (externalIds : List String) (began : List Link) : ConnectorStore :=
  { store with
    links := store.links.update (store.advances connection externalIds)
      (fun link => { link with
        firstSync := link.firstSync.or
          (if began.any fun old => old.key = link.key && old.mappings = link.mappings
          then some today else none) })
      (fun _ => rfl) }

end ConnectorStore

/-! ### The sync -/

/-- The oldest watermark of the mapped links, if each of them has one. -/
def oldestWatermark (links : List Link) : Option Int :=
  let mapped := links.filter fun link => link.accountId.isSome
  if mapped.all fun link => link.lastSyncedOn.isSome then
    (mapped.filterMap (·.lastSyncedOn)).foldl
      (fun since date => some ((since.map fun since => min since date).getD date)) none
  else none

/-- What a walk brings back. -/
structure Walked where
  /-- The links as they were read before the walk. -/
  links : List Link
  /-- The day on which the walk began. -/
  today : Int
  batch : SyncBatch
  records : List Posting

/-- Where a sync is. -/
inductive Sync
  | claimed
  | discovering
  | walking (links : List Link) (since : Option Int)
  | answered (accounts : List ParsedAccount) (walk : Option Walked)
  /-- The lock is held from here on. -/
  | saving (accounts : List ParsedAccount) (walk : Option Walked)
  | ingesting (walk : Walked)
  | advancing (walk : Walked) (externalIds : List String)
  | recording

/-- The rows to stage: the transactions of mapped accounts, each for its account. -/
def mappedRecords (accounts : List (String × Uuid)) (records : List Posting) :
    List (Uuid × Posting) :=
  records.filterMap fun posting =>
    (accounts.find? fun entry => entry.1 = posting.account).map fun entry => (entry.2, posting)

structure SyncWorld where
  store : ConnectorStore
  clock : Int
  baseCurrency : String
  /-- The sync of each connection, if one runs. -/
  syncs : Uuid → Option Sync
  /-- The sync that holds the vault's lock. -/
  lock : Option Uuid
  /-- What was handed to staging: of which connection, and for which account. -/
  handed : List (Uuid × Uuid × Posting)

inductive SyncStep
  | claim (connection : Uuid)
  | read (connection : Uuid)
  | discovered (connection : Uuid) (accounts : List ParsedAccount)
  | walked (connection : Uuid) (answer : Except ConnectorError (List AccountSet))
  | lock (connection : Uuid)
  | save (connection : Uuid)
  | ingest (connection : Uuid)
  /-- The staging stops after so many rows. -/
  | ingestPart (connection : Uuid) (count : Nat)
  | advance (connection : Uuid)
  | record (connection : Uuid)
  /-- The sync fails, or is cancelled. -/
  | fail (connection : Uuid)
  /-- The process dies. -/
  | crash
  | connect (connection : Uuid)
  | discover (connection : Uuid) (externalId : String) (externalName currency : Option String)
  | setAccount (connection : Uuid) (externalId : String) (account : Option Uuid)
  | forget (connection : Uuid)
  | pass (day : Int)

namespace SyncWorld

/-- A vault without connections. -/
def opening (clock : Int) (baseCurrency : String) : SyncWorld :=
  ⟨⟨[], [], .empty⟩, clock, baseCurrency, fun _ => none, none, []⟩

def enter (world : SyncWorld) (connection : Uuid) (sync : Sync) : SyncWorld :=
  { world with syncs := Function.update world.syncs connection (some sync) }

/-- The sync ends, and releases what it holds. -/
def leave (world : SyncWorld) (connection : Uuid) : SyncWorld :=
  { world with
    syncs := Function.update world.syncs connection none
    lock := if world.lock = some connection then none else world.lock }

/-- What a command made of the tables, or the tables as they are if it was refused. -/
def committed (world : SyncWorld) (outcome : Except ConnectorDbError ConnectorStore) : SyncWorld :=
  match outcome with
  | .ok store => { world with store }
  | .error _ => world

/-- The existence check and the links, in one hold of the lock. -/
def readLinks (world : SyncWorld) (connection : Uuid) : SyncWorld :=
  if world.store.connectorConnectionExists connection then
    let links := world.store.connectorLinks connection
    if accountMap (links.map Link.row) = [] then world.enter connection .discovering
    else world.enter connection (.walking links (oldestWatermark links))
  else world.leave connection

/-- The provider is asked for the windows of the walk, and answers them or fails. -/
def walk (provider : Provider) (world : SyncWorld) (connection : Uuid) (links : List Link)
    (since : Option Int) (answer : Except ConnectorError (List AccountSet)) : Option SyncWorld :=
  match answer with
  | .error _ => some (world.leave connection)
  | .ok sets =>
    let ranges := chunkRanges since world.clock
    if Complete ranges sets then
      match sync sets with
      | .error _ => some (world.leave connection)
      | .ok batch => some (world.enter connection (.answered batch.accounts
          (some ⟨links, world.clock, batch, records provider ranges sets⟩)))
    else none

/-- Save the next account, or go on when none is left. -/
def saveNext (world : SyncWorld) (connection : Uuid) :
    List ParsedAccount → Option Walked → SyncWorld
  | account :: rest, walk =>
    match account.externalId with
    | none => world.enter connection (.saving rest walk)
    | some externalId =>
      match world.store.upsertConnectorLink connection externalId account.externalName
        account.currency with
      | .ok store => { world with store }.enter connection (.saving rest walk)
      | .error _ => world.leave connection
  | [], none => world.leave connection
  | [], some walk => world.enter connection (.ingesting walk)

/-- The rows that are staged, under the mapping that was read before the walk. -/
def stagedRows (world : SyncWorld) (connection : Uuid) (walk : Walked) :
    List (Uuid × Uuid × Posting) :=
  (mappedRecords (effectiveMap (walk.links.map Link.row)
    ((world.store.connectorLinks connection).map Link.row) world.baseCurrency) walk.records).map
    fun row => (connection, row)

def ingest (world : SyncWorld) (connection : Uuid) (walk : Walked) : SyncWorld :=
  { world with handed := world.handed ++ world.stagedRows connection walk }.enter connection
    (.advancing walk (advanceOf walk.batch (walk.links.map Link.row)
      ((world.store.connectorLinks connection).map Link.row) world.baseCurrency))

def advance (world : SyncWorld) (connection : Uuid) (walk : Walked) (externalIds : List String) :
    SyncWorld :=
  { world with
    store := (world.store.advanceConnectorWatermarks connection world.clock
      externalIds).noteFirstSync connection walk.today externalIds walk.links }.enter
    connection .recording

/-- One step, if it can be taken. -/
def step (providers : Uuid → Provider) (world : SyncWorld) : SyncStep → Option SyncWorld
  | .claim connection =>
    match world.syncs connection with
    | none => some (world.enter connection .claimed)
    | some _ => none
  | .read connection =>
    match world.syncs connection, world.lock with
    | some .claimed, none => some (world.readLinks connection)
    | _, _ => none
  | .discovered connection accounts =>
    match world.syncs connection with
    | some .discovering => some (world.enter connection (.answered accounts none))
    | _ => none
  | .walked connection answer =>
    match world.syncs connection with
    | some (.walking links since) => world.walk (providers connection) connection links since answer
    | _ => none
  | .lock connection =>
    match world.syncs connection, world.lock with
    | some (.answered accounts walk), none =>
      if world.store.connectorConnectionExists connection then
        some ({ world with lock := some connection }.enter connection (.saving accounts walk))
      else some (world.leave connection)
    | _, _ => none
  | .save connection =>
    match world.syncs connection with
    | some (.saving accounts walk) => some (world.saveNext connection accounts walk)
    | _ => none
  | .ingest connection =>
    match world.syncs connection with
    | some (.ingesting walk) => some (world.ingest connection walk)
    | _ => none
  | .ingestPart connection count =>
    match world.syncs connection with
    | some (.ingesting walk) =>
      some ({ world with
        handed := world.handed ++ (world.stagedRows connection walk).take count }.leave connection)
    | _ => none
  | .advance connection =>
    match world.syncs connection with
    | some (.advancing walk externalIds) => some (world.advance connection walk externalIds)
    | _ => none
  | .record connection =>
    match world.syncs connection with
    | some .recording => some (world.leave connection)
    | _ => none
  | .fail connection =>
    match world.syncs connection with
    | some _ => some (world.leave connection)
    | none => none
  | .crash => some { world with syncs := fun _ => none, lock := none }
  | .connect connection =>
    if world.lock = none then
      some { world with store := world.store.createConnectorConnection connection }
    else none
  | .discover connection externalId externalName currency =>
    if world.lock = none then
      some (world.committed
        (world.store.upsertConnectorLink connection externalId externalName currency))
    else none
  | .setAccount connection externalId account =>
    if world.lock = none then
      some (world.committed (world.store.setConnectorLinkAccount connection externalId account))
    else none
  | .forget connection =>
    if world.lock = none then
      some { world with store := world.store.deleteConnectorConnection connection }
    else none
  | .pass day => if world.clock ≤ day then some { world with clock := day } else none

/-- Several steps, if each passes the test and can be taken. -/
def run (providers : Uuid → Provider) (test : SyncWorld → SyncStep → Bool) (world : SyncWorld)
    (steps : List SyncStep) : Option SyncWorld :=
  steps.foldlM (fun world taken => if test world taken then world.step providers taken else none)
    world

end SyncWorld

/-! ### Runs -/

/-- One world follows another by a step that meets the condition. -/
def SyncFollows (providers : Uuid → Provider) (condition : SyncWorld → SyncStep → Prop)
    (before after : SyncWorld) : Prop :=
  ∃ taken, condition before taken ∧ before.step providers taken = some after

/-- The worlds that runs reach from a vault without connections, if their steps meet the
condition. -/
def SyncReaches (providers : Uuid → Provider) (condition : SyncWorld → SyncStep → Prop)
    (clock : Int) (baseCurrency : String) : SyncWorld → Prop :=
  Relation.ReflTransGen (SyncFollows providers condition) (.opening clock baseCurrency)

theorem syncReaches_of_run {providers : Uuid → Provider} {test : SyncWorld → SyncStep → Bool}
    {condition : SyncWorld → SyncStep → Prop} {clock : Int} {baseCurrency : String}
    {before after : SyncWorld} {steps : List SyncStep}
    (finds : ∀ world taken, test world taken = true → condition world taken)
    (reached : SyncReaches providers condition clock baseCurrency before)
    (ran : before.run providers test steps = some after) :
    SyncReaches providers condition clock baseCurrency after := by
  induction steps generalizing before with
  | nil =>
    obtain rfl := Option.some.inj ran
    exact reached
  | cons taken rest inductionHypothesis =>
    obtain ⟨between, passed, ran⟩ := Option.bind_eq_some_iff.mp ran
    dsimp only at passed
    split at passed
    · next found =>
      exact inductionHypothesis (reached.tail ⟨taken, finds before taken found, passed⟩) ran
    · cases passed

end Dohflow.Connectors
