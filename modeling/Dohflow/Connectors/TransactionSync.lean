/-
This file models the records that a sync makes of the accounts it receives.

Every account of a response carries its balance and the transactions of the window. A transaction
becomes a record unless it is pending, has no date, is in an unsupported currency, or has an amount
that is zero or cannot be read; what becomes no record becomes a warning. The first transaction of
an account and an id counts, and so does the last balance of an account. A record is hashed
together with its place among the records of its kind.

The dates are those of the library, which end, and its way to write them, the fingerprint of a text
and the way a text is quoted are parameters.
-/

import Dohflow.Connectors.ChunkWindows
import Dohflow.CoreLedger.Transactions
import Dohflow.Foundation.Spelling
import Dohflow.Importers.Amounts

namespace Dohflow.CoreLedger

/-- The digits behind the point. -/
def Currency.exponent : Currency → Nat
  | .usd => 2
  | .eur => 2

end Dohflow.CoreLedger

namespace Dohflow.Connectors

open CoreLedger Fallible

/-! ### What the provider lists -/

structure WireTransaction where
  /-- Never reused within an account. -/
  id : String
  /-- In seconds since the epoch. -/
  posted : Int
  amount : String
  description : String
  pending : Bool
  transactedAt : Option Int
  deriving DecidableEq

/-- An account with all that the provider says of it. -/
structure FullAccount extends WireAccount where
  balance : String
  balanceDate : Int
  transactions : List WireTransaction

/-- The response to one window. -/
structure FullSet where
  errors : List String
  errlist : List WireError
  connections : List WireConnection
  accounts : List FullAccount

/-- The response without the balances and the transactions. -/
def FullSet.accountSet (set : FullSet) : AccountSet where
  errors := set.errors
  errlist := set.errlist
  connections := set.connections
  accounts := set.accounts.map FullAccount.toWireAccount

/-! ### Strict fields -/

def currencyFromCode (code : String) : Option Currency :=
  let code := toAsciiUppercase (trim code)
  if code = "USD" then some .usd
  else if code = "EUR" then some .eur
  else none

/-- Whether a minus stands in front of an amount, and what follows it. -/
def leadingMinus : List Char → Bool × List Char
  | '-' :: rest => (true, rest)
  | body => (false, body)

/-- An amount in minor units. More digits behind the point than the currency has are refused. -/
def parseAmountMinor (raw : String) (exponent : Nat) : Option Int64 :=
  let (negative, body) := leadingMinus raw.toList
  let (integer, fraction) := (Importers.splitOnce '.' body).getD (body, [])
  if integer = [] ∧ fraction = [] then none
  else if integer.all Char.isDigit = false ∨ fraction.all Char.isDigit = false then none
  else if exponent < fraction.length then none
  else (Importers.magnitudeOf exponent integer fraction).map fun magnitude =>
    Int64.ofInt (Importers.signed negative magnitude)

variable {limits : DateLimits}

variable (limits) in
/-- A day, where it is a date. -/
def dateOfDay (day : Int) : Option (ChronoDate limits) :=
  if inside : limits.first ≤ day ∧ day ≤ limits.last then some ⟨day, inside⟩ else none

variable (limits) in
/-- The date of a moment. The epoch itself stands for no date. -/
def usableDate (seconds : Int) : Option (ChronoDate limits) :=
  if seconds ≤ 0 then none else dateOfDay limits (epochToDate seconds)

/-! ### Records -/

structure ParsedTransaction (limits : DateLimits) where
  postedDate : ChronoDate limits
  transactionDate : Option (ChronoDate limits)
  rawDate : String
  dateConfidenceBps : Nat
  amount : Money
  description : Option String
  category : Option String
  normalizedMerchant : Option String
  externalAccount : Option String
  txnFingerprint : String

structure ParsedBalance (limits : DateLimits) where
  observedAt : ChronoDate limits
  amount : Money
  externalAccount : Option String
  deriving DecidableEq

structure ParsedRecord (limits : DateLimits) where
  externalId : Option String
  sourceHash : String
  normalizedJson : String
  parseConfidenceBps : Option Nat
  transaction : Option (ParsedTransaction limits)
  balance : Option (ParsedBalance limits)

/-- What a sync takes from libraries. -/
structure SyncLibraries (limits : DateLimits) where
  /-- A date in writing. -/
  dayText : ChronoDate limits → String
  /-- A text in quotes. -/
  jsonString : String → String
  contentFingerprint : String → String

/-- What the fingerprint of a record is made of. -/
def sourceText (index : Nat) (json : String) : String := toString index ++ ":" ++ json

variable (libraries : SyncLibraries limits)

/-- `NormalizedTxn` in writing -/
def transactionJson (key : String) (transaction : WireTransaction) : String :=
  "\x7b\"account_key\":" ++ libraries.jsonString key ++
  ",\"txn_id\":" ++ libraries.jsonString transaction.id ++
  ",\"posted\":" ++ toString transaction.posted ++
  ",\"amount\":" ++ libraries.jsonString transaction.amount ++
  ",\"description\":" ++ libraries.jsonString transaction.description ++
  ",\"transacted_at\":" ++ (match transaction.transactedAt with
    | some seconds => toString seconds
    | none => "null") ++ "\x7d"

def moneyJson (money : Money) : String :=
  "\x7b\"minor_units\":" ++ toString money.minorUnits.toInt ++
  ",\"currency\":\"" ++ money.currency.code ++
  "\",\"currency_exponent\":" ++ toString money.currency.exponent ++ "\x7d"

def balanceJson (balance : ParsedBalance limits) : String :=
  "\x7b\"observed_at\":\"" ++ libraries.dayText balance.observedAt ++
  "\",\"amount\":" ++ moneyJson balance.amount ++
  ",\"external_account\":" ++ (match balance.externalAccount with
    | some key => libraries.jsonString key
    | none => "null") ++ "\x7d"

/-- The record of a transaction with so many before it. -/
def mapTransaction (account : WireAccount) (transaction : WireTransaction) (index : Nat) :
    Except String (ParsedRecord limits) := do
  let key := accountKey account
  ensure (transaction.pending = false) ("pending transaction " ++ sanitize transaction.id ++
    " not staged (posted-only v1 scope)")
  let postedDate ← orFail ("transaction " ++ sanitize transaction.id ++
    " has no usable posted date") (usableDate limits transaction.posted)
  let currency ← orFail ("account " ++ sanitize account.id ++ " uses unsupported currency " ++
    sanitize account.currency) (currencyFromCode account.currency)
  let minor ← orFail ("transaction " ++ sanitize transaction.id ++ " has unparseable amount")
    (parseAmountMinor transaction.amount currency.exponent)
  ensure (minor ≠ 0) ("zero-amount transaction " ++ sanitize transaction.id ++ " not staged")
  let normalizedJson := transactionJson libraries key transaction
  return {
    externalId := some transaction.id
    sourceHash := libraries.contentFingerprint (sourceText index normalizedJson)
    normalizedJson
    parseConfidenceBps := some 10000
    transaction := some {
      postedDate
      transactionDate := transaction.transactedAt.bind (usableDate limits)
      rawDate := toString transaction.posted
      dateConfidenceBps := 10000
      amount := ⟨minor, currency⟩
      description := some transaction.description
      category := none
      normalizedMerchant := none
      externalAccount := some key
      txnFingerprint := libraries.dayText postedDate ++ "|" ++ toString minor.toInt ++ "|sfin:" ++
        transaction.id }
    balance := none }

variable (limits) in
def mapBalance (account : FullAccount) : Except String (ParsedBalance limits) := do
  let observedAt ← orFail ("account " ++ sanitize account.id ++ " has no usable balance date")
    (usableDate limits account.balanceDate)
  let currency ← orFail ("account " ++ sanitize account.id ++ " uses unsupported currency " ++
    sanitize account.currency) (currencyFromCode account.currency)
  let minor ← orFail ("account " ++ sanitize account.id ++ " has unparseable balance")
    (parseAmountMinor account.balance currency.exponent)
  return ⟨observedAt, ⟨minor, currency⟩, some (accountKey account.toWireAccount)⟩

def balanceRecord (index : Nat) (balance : ParsedBalance limits) : ParsedRecord limits where
  externalId := none
  sourceHash := libraries.contentFingerprint (sourceText index (balanceJson libraries balance))
  normalizedJson := balanceJson libraries balance
  parseConfidenceBps := some 10000
  transaction := none
  balance := some balance

/-! ### The walk over the windows -/

/-- A walk with the records it collects. -/
structure FullWalk (limits : DateLimits) where
  walk : Walk
  records : List (ParsedRecord limits)
  /-- The transactions that were met, by account and id. -/
  seen : List (String × String)
  txnIndex : Nat
  /-- The last balance of each account. -/
  latestBalance : List (String × ParsedBalance limits)

namespace FullWalk

def empty : FullWalk limits := ⟨Walk.empty, [], [], 0, []⟩

def warn (state : FullWalk limits) (reason : String) : FullWalk limits :=
  { state with walk := { state.walk with warnings := state.walk.warnings ++ [reason] } }

/-- `BTreeMap::insert` -/
def insertBalance (latest : List (String × ParsedBalance limits)) (key : String)
    (balance : ParsedBalance limits) : List (String × ParsedBalance limits) :=
  if key ∈ latest.map Prod.fst then
    latest.map fun entry => if entry.1 = key then (key, balance) else entry
  else latest ++ [(key, balance)]

def addBalance (state : FullWalk limits) (account : FullAccount) : FullWalk limits :=
  match mapBalance limits account with
  | .ok balance =>
    let key := accountKey account.toWireAccount
    { state with latestBalance := insertBalance state.latestBalance key balance }
  | .error reason => state.warn reason

def addTransaction (account : WireAccount) (state : FullWalk limits)
    (transaction : WireTransaction) : FullWalk limits :=
  let key := (accountKey account, transaction.id)
  if key ∈ state.seen then state
  else
    let state := { state with seen := state.seen ++ [key] }
    match mapTransaction libraries account transaction state.txnIndex with
    | .ok record =>
      { state with records := state.records ++ [record], txnIndex := state.txnIndex + 1 }
    | .error reason => state.warn reason

def addAccount (set : AccountSet) (state : FullWalk limits) (account : FullAccount) :
    FullWalk limits :=
  let state := { state with walk := state.walk.addAccount set account.toWireAccount }
  account.transactions.foldl (addTransaction libraries account.toWireAccount)
    (state.addBalance account)

/-- Take the response to one window, unless the access is refused. -/
def take (state : FullWalk limits) (set : FullSet) : Except ConnectorError (FullWalk limits) :=
  let outcome := splitErrors set.accountSet
  match outcome.fatal with
  | some fatal => .error fatal
  | none =>
    let state := { state with walk := state.walk.addErrors set.accountSet outcome }
    .ok (set.accounts.foldl (addAccount libraries set.accountSet) state)

/-- The balances in the order of their accounts. -/
def balances (state : FullWalk limits) : List (ParsedBalance limits) :=
  (state.latestBalance.insertionSort fun first second => ¬ second.1 < first.1).map Prod.snd

end FullWalk

/-- What one sync returns. -/
structure FullBatch (limits : DateLimits) extends SyncBatch where
  since : Option (ChronoDate limits)
  records : List (ParsedRecord limits)

/-- The response to one window joins the walk. -/
def walkWindow (fetch : Int × Int → Except ConnectorError FullSet) (state : FullWalk limits)
    (window : Int × Int) : Except ConnectorError (FullWalk limits) := do
  let set ← fetch window
  state.take libraries set

/-- `SimpleFinAdapter::sync`, by what the provider answers to a window. -/
def fullSync (fetch : Int × Int → Except ConnectorError FullSet)
    (since : Option (ChronoDate limits)) (today : ChronoDate limits) :
    Except ConnectorError (FullBatch limits) := do
  let state ← (chunkWindows since today).foldlM (walkWindow libraries fetch) FullWalk.empty
  let balanceRecords := state.balances.zipIdx.map fun placed =>
    balanceRecord libraries placed.2 placed.1
  return { state.walk.batch with since, records := state.records ++ balanceRecords }

/-! ### What a record is made of -/

variable {libraries} {account : WireAccount} {transaction : WireTransaction} {index : Nat}
  {record : ParsedRecord limits}

theorem mapTransaction_eq_ok :
    mapTransaction libraries account transaction index = .ok record ↔
      transaction.pending = false ∧
        ∃ postedDate, usableDate limits transaction.posted = some postedDate ∧
        ∃ currency, currencyFromCode account.currency = some currency ∧
        ∃ minor, parseAmountMinor transaction.amount currency.exponent = some minor ∧ minor ≠ 0 ∧
          record = {
            externalId := some transaction.id
            sourceHash := libraries.contentFingerprint
              (sourceText index (transactionJson libraries (accountKey account) transaction))
            normalizedJson := transactionJson libraries (accountKey account) transaction
            parseConfidenceBps := some 10000
            transaction := some {
              postedDate
              transactionDate := transaction.transactedAt.bind (usableDate limits)
              rawDate := toString transaction.posted
              dateConfidenceBps := 10000
              amount := ⟨minor, currency⟩
              description := some transaction.description
              category := none
              normalizedMerchant := none
              externalAccount := some (accountKey account)
              txnFingerprint := libraries.dayText postedDate ++ "|" ++ toString minor.toInt ++
                "|sfin:" ++ transaction.id }
            balance := none } := by
  unfold mapTransaction
  simp only [bind_eq_ok, orFail_eq_ok, ensure_eq_ok, exists_const]
  refine and_congr_right fun _ => exists_congr fun postedDate => and_congr_right fun _ =>
    exists_congr fun currency => and_congr_right fun _ => exists_congr fun minor =>
    and_congr_right fun _ => and_congr_right fun _ => ?_
  constructor
  · intro returned
    exact (Except.ok.inj returned).symm
  · rintro rfl
    rfl

theorem exists_mapTransaction
    (mapped : ∃ record, mapTransaction libraries account transaction 0 = .ok record)
    (index : Nat) : ∃ record, mapTransaction libraries account transaction index = .ok record := by
  obtain ⟨record, mapped⟩ := mapped
  obtain ⟨posted, date, dated, currency, known, minor, parsed, nonzero, -⟩ :=
    mapTransaction_eq_ok.mp mapped
  exact ⟨_, mapTransaction_eq_ok.mpr
    ⟨posted, date, dated, currency, known, minor, parsed, nonzero, rfl⟩⟩

theorem hash_of_mapTransaction
    (mapped : mapTransaction libraries account transaction index = .ok record) :
    record.sourceHash = libraries.contentFingerprint
      (sourceText index (transactionJson libraries (accountKey account) transaction)) := by
  obtain ⟨_, _, _, _, _, _, _, _, rfl⟩ := mapTransaction_eq_ok.mp mapped
  rfl

theorem sourceText_inj {first second : Nat} {json other : String}
    (same : sourceText first json = sourceText second other) : first = second ∧ json = other := by
  have spelled (number : Nat) (json : String) :
      (sourceText number json).toList = Nat.toDigits 10 number ++ ':' :: json.toList := by
    have digits : (toString number).toList = Nat.toDigits 10 number := String.toList_ofList
    rw [sourceText, String.toList_append, String.toList_append, digits, List.append_assoc]
    rfl
  have chars := congrArg String.toList same
  rw [spelled, spelled] at chars
  obtain ⟨number, rest⟩ := Spelling.toDigits_append_inj ':' rfl chars
  exact ⟨number, String.toList_injective rest⟩

theorem transactionJson_ne_balanceJson {key : String} {balance : ParsedBalance limits} :
    transactionJson libraries key transaction ≠ balanceJson libraries balance := by
  have third : (transactionJson libraries key transaction).toList[2]? = some 'a' := by
    unfold transactionJson
    simp only [String.append_assoc]
    rw [String.toList_append, List.getElem?_append_left (by decide)]
    decide
  have otherThird : (balanceJson libraries balance).toList[2]? = some 'o' := by
    unfold balanceJson
    simp only [String.append_assoc]
    rw [String.toList_append, List.getElem?_append_left (by decide)]
    decide
  intro same
  rw [same, otherThird] at third
  exact absurd third (by decide)

end Dohflow.Connectors
