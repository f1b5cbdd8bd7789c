/-
This file models the spend by category of a range of days, and what the same range leaves out.

A leg is a posting on an account of the person's. The spend of a category comes from two
queries: the legs of its transactions that have no split lines, and the split lines that name
it. Neither counts a transaction with legs on two accounts, a transfer. A third query sums the
outflows that are in transfers, and those of transactions that have no category.

The own spend of each category is added to every category above it, found by following
parents one by one from each category, in the order of a hash map. A level of the tree is
then read off (`rollUp_eq`).
-/

import Dohflow.DbWorker.BalanceAnchors
import Dohflow.DbWorker.Categories
import Dohflow.Foundation.Lineage

namespace Dohflow.DbWorker

open SyncCore CoreLedger Fallible KeyedTable CanonicalOrder MachineIntegers Forests

/-! ### The tables -/

/-- The id of a split line, by the command that derives it and its turn there. -/
structure SplitLineId where
  commandId : Uuid
  turn : Nat
  deriving DecidableEq

/-- A row of `split_lines`. -/
structure SplitLine where
  id : SplitLineId
  transactionId : TransactionId
  amountMinor : Int64
  currency : String
  categoryId : Option Uuid
  note : Option String
  sortOrder : Nat

/-- The tables that the spend is read from, with whole rows of the ledger's categories. -/
structure SpendTables where
  book : LedgerBook
  taxonomy : Taxonomy
  splitLines : Table SplitLine.id
  splitLineTags : List (SplitLineId × Uuid)
  tags : List Uuid
  transactionTags : List (TransactionId × Uuid)
  /-- Names of accounts. -/
  names : List (Uuid × String)
  /-- Notes on transactions. -/
  notes : List (TransactionId × String)
  reviews : List (TransactionId × Bool)

/-- What the code takes from outside besides: the `LIKE` of the database, with an escape
character. -/
structure SpendLibraries extends BookLibraries where
  like : String → String → Bool

/-- The order in which a hash map yields its entries. -/
structure HashOrder (Entry : Type) where
  order : List Entry → List Entry
  perm : ∀ entries, (order entries).Perm entries

/-! ### Filters -/

structure SpendFilters where
  query : Option String
  accountIds : List Uuid
  tagId : Option Uuid
  unreviewedOnly : Bool

def SpendFilters.none : SpendFilters := ⟨.none, [], .none, false⟩

/-- The text that is searched for. -/
def SpendFilters.needle (filters : SpendFilters) : Option String :=
  (filters.query.map trimmed).filter fun needle => needle ≠ ""

def SpendFilters.isEmpty (filters : SpendFilters) : Bool :=
  filters.needle.isNone && filters.accountIds.isEmpty && filters.tagId.isNone &&
    !filters.unreviewedOnly

def escapeLike (raw : String) : String :=
  String.ofList (raw.toList.flatMap fun char =>
    if char = '\\' ∨ char = '%' ∨ char = '_' then ['\\', char] else [char])

namespace SpendTables

variable (libraries : SpendLibraries) (tables : SpendTables)

/-- The postings of a transaction on accounts of the person's, with the accounts. -/
def legs (row : TransactionRow) : List (PostingRow × AccountRow) :=
  row.postings.flatMap fun posting =>
    (tables.book.store.accounts.rows.filter fun account =>
      posting.ledgerAccountId ∈ tables.book.ledgerAccounts.rows ∧
        account.ledgerAccountId = posting.ledgerAccountId).map fun account => (posting, account)

/-- `COALESCE(reviewed, provenance IS NULL)` -/
def reviewed (id : TransactionId) : Bool :=
  match tables.reviews.find? fun review => review.1 = id with
  | some review => review.2
  | none => (tables.book.store.provenance.find id).isNone

/-- A leg of a transaction passes the filters of the list. -/
def legMatches (filters : SpendFilters) (row : TransactionRow) (account : AccountRow) : Bool :=
  let detail := tables.book.store.details.find? fun detail => detail.transactionId = row.id
  let texts := [detail.bind DetailRow.memo, detail.bind DetailRow.counterparty,
    (tables.notes.find? fun note => note.1 = row.id).map Prod.snd,
    (tables.names.find? fun name => name.1 = account.id).map Prod.snd]
  (match filters.needle with
    | some needle => texts.any fun text =>
        text.any (libraries.like ("%" ++ escapeLike needle ++ "%"))
    | none => true) &&
  (filters.accountIds.isEmpty || account.id ∈ filters.accountIds) &&
  (!filters.unreviewedOnly || !tables.reviewed row.id)

/-- The transactions that the list would show, or nothing when nothing is filtered. -/
def matchingTransactions (filters : SpendFilters) : Option (TransactionRow → Bool) :=
  if filters.isEmpty then none
  else some fun row =>
    row.voidedAt.isNone &&
    (match filters.tagId with
      | some tag => (row.id, tag) ∈ tables.transactionTags
      | none => true) &&
    (tables.legs row).any fun leg => tables.legMatches libraries filters row leg.2

/-! ### Own spend -/

/-- What a read asks for besides the level. -/
structure SpendRange where
  first : NaiveDate
  last : NaiveDate
  currency : String
  filters : SpendFilters

variable (range : SpendRange)

/-- A transaction that is not voided, on a day of the range, and passes the filters. -/
def inRange (row : TransactionRow) : Bool :=
  row.voidedAt.isNone &&
    libraries.dayText range.first ≤ libraries.dateText row.occurredAt &&
    libraries.dateText row.occurredAt ≤ libraries.dayText range.last &&
    (tables.matchingTransactions libraries range.filters).all fun shown => shown row

/-- The transactions of the range that post in its currency. -/
def ranged : List TransactionRow :=
  tables.book.store.transactions.rows.filter fun row =>
    tables.inRange libraries range row ∧ row.currency.code = range.currency

def linesOf (id : TransactionId) : List SplitLine :=
  tables.splitLines.rows.filter fun line => line.transactionId = id

def categoryOf (id : TransactionId) : Option Uuid :=
  (tables.book.store.categorizations.find id).map CategorizationRow.categoryId

/-- The transaction has a leg on another account. -/
def hasOther (row : TransactionRow) (account : Uuid) : Bool :=
  (tables.legs row).any fun leg => leg.2.id ≠ account

/-- The transaction has legs on two accounts. -/
def isTransfer (row : TransactionRow) : Bool :=
  (tables.legs row).any fun leg => tables.hasOther row leg.2.id

/-- The amounts of a transaction that has the category and no split lines. -/
def unsplitOf (row : TransactionRow) (category : Category) : List Int :=
  if tables.categoryOf row.id = some category.id ∧ category.categoryType = "expense" ∧
      tables.linesOf row.id = [] then
    ((tables.legs row).filter fun leg => !tables.hasOther row leg.2.id).map
      fun leg => leg.1.minorUnits.toInt
  else []

def unsplitAmounts (category : Category) : List Int :=
  (tables.ranged libraries range).flatMap fun row => tables.unsplitOf row category

/-- A split line that has the category, in the currency of the range. -/
def lineHas (range : SpendRange) (category : Category) (line : SplitLine) : Bool :=
  line.categoryId = some category.id ∧ category.categoryType = "expense" ∧
    line.currency = range.currency

/-- The transaction of a split line is in range and no transfer. -/
def lineCounts (line : SplitLine) : Bool :=
  (tables.book.store.transactions.find line.transactionId).any fun row =>
    tables.inRange libraries range row && !tables.isTransfer row

/-- The amounts of the split lines that have the category. -/
def splitAmounts (category : Category) : List Int :=
  (tables.splitLines.rows.filter fun line =>
    lineHas range category line && tables.lineCounts libraries range line).map
      fun line => line.amountMinor.toInt

/-- `SUM(...)` -/
def sumOf (amounts : List Int) : Except ImportError Int :=
  orMissing .sqlite (checkedSum 0 amounts)

/-- `-SUM(...)`, which is no integer when it leaves 64 bits. -/
def negatedSum (amounts : List Int) : Except ImportError Int := do
  let sum ← sumOf amounts
  orMissing .sqlite (checkedI64 (-sum))

/-- `-SUM(...) ... GROUP BY`: no row for a group without amounts. -/
def groupMinor (amounts : List Int) : Except ImportError (List Int) :=
  if amounts = [] then .ok []
  else do
    let minor ← negatedSum amounts
    return [minor]

/-- `COALESCE(SUM(spend.minor), 0)` -/
def ownSpend (category : Category) : Except ImportError Int := do
  let unsplit ← groupMinor (tables.unsplitAmounts libraries range category)
  let split ← groupMinor (tables.splitAmounts libraries range category)
  sumOf (unsplit ++ split)

/-! ### The roll-up -/

/-- A category with its own spend. -/
structure SpendNode where
  id : Uuid
  name : String
  parentId : Option Uuid
  own : Int
  deriving DecidableEq

def nodes : Except ImportError (List SpendNode) :=
  tables.taxonomy.rows.mapM fun category => do
    let own ← tables.ownSpend libraries range category
    return ⟨category.id, category.name, category.parentId, own⟩

/-- `HashMap<Uuid, i64>` -/
abbrev Totals := Uuid → Option Int

/-- `*totals.entry(id).or_insert(0) += amount`, which stops the read when it overflows. -/
def addTo (amount : Int) (totals : Totals) (id : Uuid) : Except ImportError Totals := do
  let sum ← orMissing (.money .overflow) (checkedI64 ((totals id).getD 0 + amount))
  return Function.update totals id (some sum)

/-- The ids that the walk over ancestors passes, each once. -/
def ancestorIds (nodes : List SpendNode) (seen : List Uuid) : Option Uuid → List Uuid
  | none => []
  | some ancestor =>
    if _fresh : ancestor ∈ seen then []
    else
      match _found : nodes.find? fun node => node.id = ancestor with
      | none => [ancestor]
      | some node => ancestor :: ancestorIds nodes (ancestor :: seen) node.parentId
termination_by Lineage.unseen nodes SpendNode.id seen
decreasing_by
  obtain ⟨member, rfl⟩ := Lineage.find_key _found
  exact Lineage.unseen_cons_lt member _fresh

/-- Add the own spend of one category to it and to every category above it. -/
def rollUpNode (nodes : List SpendNode) (totals : Totals) (node : SpendNode) :
    Except ImportError Totals :=
  if node.own = 0 then .ok (Function.update totals node.id (some ((totals node.id).getD 0)))
  else do
    let totals ← addTo node.own totals node.id
    (ancestorIds nodes [node.id] node.parentId).foldlM (addTo node.own) totals

def rollUp (nodes : List SpendNode) : Except ImportError Totals :=
  nodes.foldlM (rollUpNode nodes) fun _ => none

structure CategorySpend where
  categoryId : Uuid
  name : String
  parentId : Option Uuid
  totalMinor : Int
  ownMinor : Int
  hasChildren : Bool

/-- The biggest spend first, then by name, then by id. -/
def CategorySpend.rank (spend : CategorySpend) : ℤᵒᵈ ×ₗ String ×ₗ List ℕ :=
  toLex (OrderDual.toDual spend.totalMinor, toLex (spend.name, byteKey spend.categoryId.toList))

/-- One level of the tree. -/
def levelRows (nodes : List SpendNode) (totals : Totals) (parent : Option Uuid) :
    List CategorySpend :=
  sortBy CategorySpend.rank ((nodes.filter fun node => node.parentId = parent).map fun node =>
    { categoryId := node.id
      name := node.name
      parentId := node.parentId
      totalMinor := (totals node.id).getD 0
      ownMinor := node.own
      hasChildren := nodes.any fun child => child.parentId = some node.id })

/-! ### What is left out -/

/-- The outflow of a transaction from one account. -/
structure Outflow where
  owed : Int
  isTransfer : Bool
  category : Option Uuid

/-- The accounts that a transaction takes money from, and how much. -/
def outflowsOf (row : TransactionRow) : Except ImportError (List Outflow) :=
  let spent := (tables.legs row).filter fun leg => leg.1.minorUnits < 0
  (spent.map fun leg => leg.2.id).dedup.mapM fun account => do
    let owed ← negatedSum ((spent.filter fun leg => leg.2.id = account).map
      fun leg => leg.1.minorUnits.toInt)
    return ⟨owed, tables.hasOther row account, tables.categoryOf row.id⟩

/-- `(uncategorized, transfers)` -/
def excludedOutflows : Except ImportError (Int × Int) := do
  let outflows ← (tables.ranged libraries range).mapM tables.outflowsOf
  let uncategorized ← sumOf ((outflows.flatten.filter fun outflow =>
    !outflow.isTransfer && outflow.category.isNone).map Outflow.owed)
  let transfers ← sumOf ((outflows.flatten.filter Outflow.isTransfer).map Outflow.owed)
  return (uncategorized, transfers)

structure SpendBreakdown where
  rows : List CategorySpend
  uncategorizedMinor : Int
  transfersMinor : Int

def spendByCategory (hash : HashOrder SpendNode) (parent : Option Uuid) :
    Except ImportError SpendBreakdown := do
  let nodes ← tables.nodes libraries range
  let totals ← rollUp (hash.order nodes)
  let (uncategorizedMinor, transfersMinor) ← tables.excludedOutflows libraries range
  return ⟨levelRows (hash.order nodes) totals parent, uncategorizedMinor, transfersMinor⟩

/-! ### What the roll-up computes -/

section Totals

variable {nodes : List SpendNode} {totals after : Totals} {amount : Int} {ids : List Uuid}
  {node : SpendNode} {chain : List Uuid}

/-- The total of an id, which is zero before anything is added. -/
def totalOf (totals : Totals) (id : Uuid) : Int := (totals id).getD 0

theorem totalOf_addTo {id : Uuid} (added : addTo amount totals id = .ok after) (other : Uuid) :
    totalOf after other = totalOf totals other + if other = id then amount else 0 := by
  obtain ⟨sum, inside, same⟩ := bind_eq_ok.mp added
  obtain ⟨-, rfl⟩ := checkedI64_eq_some.mp (orMissing_eq_ok.mp inside)
  obtain rfl := Except.ok.inj same
  unfold totalOf
  by_cases here : other = id
  · rw [here, Function.update_self, if_pos rfl]
    rfl
  · rw [Function.update_of_ne here, if_neg here, Int.add_zero]

theorem totalOf_foldlM_addTo (distinct : ids.Nodup)
    (added : ids.foldlM (addTo amount) totals = .ok after) (other : Uuid) :
    totalOf after other = totalOf totals other + if other ∈ ids then amount else 0 := by
  induction ids generalizing totals with
  | nil =>
    obtain rfl := Except.ok.inj added
    simp
  | cons id rest inductionHypothesis =>
    obtain ⟨fresh, distinct⟩ := List.nodup_cons.mp distinct
    rw [List.foldlM_cons] at added
    obtain ⟨middle, first, later⟩ := bind_eq_ok.mp added
    rw [inductionHypothesis distinct later, totalOf_addTo first]
    by_cases here : other = id
    · subst here
      simp [fresh]
    · simp [here]

/-- The parent that a node of a list names. -/
def parentIn (nodes : List SpendNode) (id : Uuid) : Option Uuid :=
  (nodes.find? fun node => node.id = id).bind SpendNode.parentId

theorem ancestorIds_none (seen : List Uuid) : ancestorIds nodes seen none = [] := by
  rw [ancestorIds]

theorem rollUpNode_root (root : node.parentId = none) (own : node.own ≠ 0) :
    rollUpNode nodes totals node = addTo node.own totals node.id := by
  rw [rollUpNode, if_neg own, root, ancestorIds_none]
  cases addTo node.own totals node.id <;> rfl

theorem ancestorIds_eq {seen : List Uuid} {start : Uuid} (chained : Chain (parentIn nodes) start chain)
    (apart : ∀ id ∈ chain, id ∉ seen) : ancestorIds nodes seen (some start) = chain := by
  induction chained generalizing seen with
  | @root start top =>
    have fresh := apart start List.mem_cons_self
    rw [ancestorIds, dif_neg fresh]
    split
    · rfl
    · next node found =>
      rw [parentIn, found, Option.bind_some] at top
      rw [top, ancestorIds]
  | @child start up rest link above inductionHypothesis =>
    have fresh := apart start List.mem_cons_self
    obtain ⟨node, found, linked⟩ := Option.bind_eq_some_iff.mp link
    rw [ancestorIds, dif_neg fresh]
    split
    · next missing => cases missing.symm.trans found
    · next other foundToo =>
      obtain rfl := Option.some.inj (foundToo.symm.trans found)
      rw [linked, inductionHypothesis]
      intro id member
      rw [List.mem_cons, not_or]
      refine ⟨fun same => ?_, apart id (List.mem_cons_of_mem _ member)⟩
      have distinct := (Chain.child link above).nodup
      exact (List.nodup_cons.mp distinct).1 (same ▸ member)

theorem totalOf_rollUpNode (chained : Chain (parentIn nodes) node.id chain)
    (member : nodes.find? (fun other => other.id = node.id) = some node)
    (rolled : rollUpNode nodes totals node = .ok after) (other : Uuid) :
    totalOf after other = totalOf totals other + if other ∈ chain then node.own else 0 := by
  have link : parentIn nodes node.id = node.parentId := by
    rw [parentIn, member, Option.bind_some]
  unfold rollUpNode at rolled
  split_ifs at rolled with zero
  · obtain rfl := Except.ok.inj rolled
    rw [zero, ite_self, Int.add_zero]
    unfold totalOf
    by_cases here : other = node.id
    · rw [here, Function.update_self]
      rfl
    · rw [Function.update_of_ne here]
  · obtain ⟨middle, first, later⟩ := bind_eq_ok.mp rolled
    have walked : node.id :: ancestorIds nodes [node.id] node.parentId = chain := by
      rw [← link]
      cases chained with
      | root top => rw [top, ancestorIds]
      | child up above =>
        rw [up, ancestorIds_eq above]
        intro id inside
        rw [List.mem_singleton]
        rintro rfl
        exact (List.nodup_cons.mp (Chain.child up above).nodup).1 inside
    have distinct := chained.nodup
    rw [← walked] at distinct
    rw [totalOf_foldlM_addTo (List.nodup_cons.mp distinct).2 later, totalOf_addTo first, ← walked]
    have fresh := (List.nodup_cons.mp distinct).1
    by_cases here : other = node.id
    · subst here
      simp [fresh]
    · simp [here]

end Totals

end SpendTables

end Dohflow.DbWorker
