/-
This file models what the SimpleFIN adapter makes of the account sets that one sync
receives, one set for each date chunk.

A set carries a list of errors. An error that concerns the whole access stops the sync; one
that asks for a new sign-in at a bank is kept as a notice; and one that says an account's
window is incomplete is kept as a scope whose watermark must not advance, by the account's
sanitised id, or for all accounts when it names none.

The transactions and balances of a set, and the warnings about them, are left out: no scope
depends on them.
-/

import Dohflow.DbWorker.Assumptions
import Mathlib.Data.List.Dedup
import Mathlib.Data.List.Sort

namespace Dohflow.Connectors

open Fallible DbWorker

/-! ### What the provider sends -/

structure WireError where
  code : String
  msg : String
  connId : Option String
  accountId : Option String

/-- An institution login, the scope that account ids are unique within. -/
structure WireConnection where
  connId : String
  name : Option String
  orgName : Option String

structure WireOrg where
  name : Option String
  domain : Option String

structure WireAccount where
  id : String
  name : String
  currency : String
  org : Option WireOrg
  connId : Option String

/-- The response to one chunk of dates. -/
structure AccountSet where
  errors : List String
  errlist : List WireError
  connections : List WireConnection
  accounts : List WireAccount

inductive ConnectorError
  | needsUserAction (code message : String) (helpUrl : Option String)
  | expired (message : String)
  | rateLimited (message : String)
  | network (message : String)
  | provider (message : String)

/-! ### Texts -/

/-- Control characters, and the format characters that spoof what a text looks like. -/
def forged (char : Char) : Bool :=
  isControl char ||
    (0x200b ≤ char.toNat && char.toNat ≤ 0x200f) ||
    (0x202a ≤ char.toNat && char.toNat ≤ 0x202e) ||
    (0x2066 ≤ char.toNat && char.toNat ≤ 0x2069) || char.toNat = 0xfeff

/-- The longest sanitised text, in characters, without the ellipsis. -/
def maxSanitized : Nat := 200

/-- A text of the provider as it may enter a warning: without forged characters and cut short. -/
def sanitize (raw : String) : String :=
  let cleaned := String.ofList ((raw.toList.filter fun char => !forged char).take maxSanitized)
  if maxSanitized < raw.toList.length then cleaned ++ "…" else cleaned

/-- `trim` -/
def trim (text : String) : String :=
  String.ofList ((text.toList.dropWhile isWhitespace).reverse.dropWhile isWhitespace).reverse

/-- `to_ascii_uppercase` -/
def toAsciiUppercase (text : String) : String :=
  String.ofList (text.toList.map fun char =>
    if 'a' ≤ char ∧ char ≤ 'z' then Char.ofNat (char.toNat - 32) else char)

/-- `ends_with` -/
def endsWith (text ending : String) : Bool := ending.toList.isSuffixOf text.toList

/-- `split('.').next()` -/
def codePrefix (code : String) : String := String.ofList (code.toList.takeWhile (· ≠ '.'))

/-! ### Errors of a set -/

structure SplitOutcome where
  /-- The whole access is refused. -/
  fatal : Option ConnectorError
  /-- The first bank that asks for a new sign-in. -/
  reauth : Option ConnectorError
  /-- The connection of every bank that asks for one. -/
  reauthConns : List (Option String)
  warnings : List String
  /-- The accounts whose windows are incomplete; `none` names no account. -/
  retryRequired : List (Option String)

def SplitOutcome.empty : SplitOutcome := ⟨none, none, [], [], []⟩

def WireError.isAuth (error : WireError) : Bool := endsWith error.code ".auth"

/-- The window of an account is incomplete. -/
def WireError.isRetry (error : WireError) : Bool :=
  error.code = "act.failed" || error.code = "act.missingdata"

def SplitOutcome.add (outcome : SplitOutcome) (error : WireError) : SplitOutcome :=
  let code := sanitize error.code
  let message := sanitize error.msg
  let action := ConnectorError.needsUserAction code message none
  let start := codePrefix error.code
  let outcome :=
    if start = "con" && error.isAuth then
      { outcome with reauthConns := outcome.reauthConns ++ [error.connId] }
    else outcome
  if start = "gen" && error.isAuth && outcome.fatal.isNone then
    { outcome with fatal := some action }
  else if start = "con" && error.isAuth && outcome.reauth.isNone then
    { outcome with reauth := some action }
  else if error.isRetry then
    { outcome with
      retryRequired := outcome.retryRequired ++ [error.accountId.map sanitize]
      warnings := outcome.warnings ++ ["retry required (" ++ code ++ "): " ++ message ++
        " — account " ++ (error.accountId.map sanitize).getD ""] }
  else
    { outcome with
      warnings := outcome.warnings ++ ["provider reported (" ++ code ++ "): " ++ message] }

/-- Split the errors of a set by what they ask for. -/
def splitErrors (set : AccountSet) : SplitOutcome :=
  let outcome := set.errlist.foldl SplitOutcome.add .empty
  { outcome with
    warnings := outcome.warnings ++ set.errors.map fun message =>
      "provider reported: " ++ sanitize message }

/-! ### Accounts of a set -/

/-- Account ids are unique only within a connection. -/
def accountKeyOf (connId : Option String) (id : String) : String :=
  match connId with
  | some conn => conn ++ "/" ++ id
  | none => id

def accountKey (account : WireAccount) : String := accountKeyOf account.connId account.id

structure ParsedAccount where
  externalId : Option String
  externalName : Option String
  currency : Option String

/-- An upper-case code of three letters, or nothing. -/
def isoCurrency (raw : String) : Option String :=
  let code := toAsciiUppercase (trim raw)
  if code.toList.length = 3 ∧ code.toList.all fun char => 'A' ≤ char ∧ char ≤ 'Z' then some code
  else none

def mapAccount (account : WireAccount) (set : AccountSet) : ParsedAccount :=
  let ofConnection := account.connId.bind fun connId =>
    (set.connections.find? (·.connId = connId)).bind fun connection =>
      connection.name.or connection.orgName
  let institution := ofConnection.or (account.org.bind fun org => org.name.or org.domain)
  { externalId := some (accountKey account)
    externalName := some (match institution with
      | some institution => sanitize institution ++ " " ++ sanitize account.name
      | none => sanitize account.name)
    currency := isoCurrency account.currency }

/-- The name of a connection that a set lists, the first of the two that is not blank. -/
def institutionName (set : AccountSet) (connId : String) : Option String :=
  (set.connections.find? (·.connId = connId)).bind fun connection =>
    ([connection.name, connection.orgName].filterMap id).findSome? fun raw =>
      let name := trim (sanitize raw)
      if name = "" then none else some name

/-! ### The walk over the chunks -/

structure Walk where
  accounts : List ParsedAccount
  accountKeys : List String
  warnings : List String
  heldAccountIds : List String
  holdAllWatermarks : Bool
  /-- The banks that ask for a new sign-in, by connection, with their name where one is known. -/
  reauth : List (String × Option String)

def Walk.empty : Walk := ⟨[], [], [], [], false, []⟩

/-- Keep one entry a connection, with the first name found for it. -/
def noteReauth (set : AccountSet) (reauth : List (String × Option String))
    (connId : Option String) : List (String × Option String) :=
  let name := connId.bind (institutionName set)
  let key := connId.getD ""
  if reauth.any (·.1 = key) then
    reauth.map fun entry => if entry.1 = key then (entry.1, entry.2.or name) else entry
  else reauth ++ [(key, name)]

def Walk.addAccount (set : AccountSet) (walk : Walk) (account : WireAccount) : Walk :=
  if accountKey account ∈ walk.accountKeys then walk
  else { walk with
    accountKeys := walk.accountKeys ++ [accountKey account]
    accounts := walk.accounts ++ [mapAccount account set] }

/-- Take what the errors of a set ask for. -/
def Walk.addErrors (set : AccountSet) (walk : Walk) (outcome : SplitOutcome) : Walk :=
  { walk with
    reauth := outcome.reauthConns.foldl (noteReauth set) walk.reauth
    heldAccountIds := walk.heldAccountIds ++ outcome.retryRequired.filterMap id
    holdAllWatermarks := walk.holdAllWatermarks || outcome.retryRequired.any (·.isNone)
    warnings := walk.warnings ++ outcome.warnings ++ (match outcome.reauth with
      | some (.needsUserAction code message _) =>
        ["an institution requires reauthorization at the Bridge (" ++ code ++ "): " ++ message]
      | _ => []) }

/-- Take the set of one chunk, unless the access is refused. -/
def Walk.take (walk : Walk) (set : AccountSet) : Except ConnectorError Walk :=
  let outcome := splitErrors set
  match outcome.fatal with
  | some fatal => .error fatal
  | none => .ok (set.accounts.foldl (Walk.addAccount set) (walk.addErrors set outcome))

/-- What one sync returns. -/
structure SyncBatch where
  heldAccountIds : List String
  holdAllWatermarks : Bool
  reauthRequired : List (Option String)
  accounts : List ParsedAccount
  warnings : List String

/-- `sort` and `dedup` -/
def sortDedup (ids : List String) : List String :=
  (ids.insertionSort fun first second => ¬ second < first).dedup

def Walk.batch (walk : Walk) : SyncBatch where
  heldAccountIds := sortDedup walk.heldAccountIds
  holdAllWatermarks := walk.holdAllWatermarks
  reauthRequired :=
    (walk.reauth.insertionSort fun first second => ¬ second.1 < first.1).map Prod.snd
  accounts := walk.accounts
  warnings := walk.warnings

/-- The sync over the sets that the chunks receive. -/
def sync (sets : List AccountSet) : Except ConnectorError SyncBatch := do
  let walk ← sets.foldlM Walk.take Walk.empty
  return walk.batch

end Dohflow.Connectors
