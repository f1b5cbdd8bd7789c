/-
This file proves which outflows the spend by category and its footnote account for.

Each transaction of the range has a share in the rows, one in what is uncategorized and one
in the transfers, and the read is the sums of these shares (`shares_of_spendByCategory`). A
transfer is in the transfers alone, with its outflow, and a transaction without split lines is
in the rows or uncategorized, with its outflow.

A transaction with split lines is different: the rows take its lines that have a category, and
the uncategorized outflow takes the transaction whole when it has no category of its own and
not at all when it has one. So it is counted once exactly when the lines that are
counted twice, or not at all, add up to nothing (`counted_iff`).
-/

import Dohflow.DbWorker.CategoryDrillDown
import Dohflow.DbWorker.SplitCommands

namespace Dohflow.DbWorker

open SyncCore CoreLedger Fallible KeyedTable MachineIntegers Forests PrefixFree ListSums

namespace SpendTables

variable (tables : SpendTables) (range : SpendRange)

/-! ### Shares of a transaction -/

def legAmounts (row : TransactionRow) : List Int :=
  (tables.legs row).map fun leg => leg.1.minorUnits.toInt

/-- What a transaction takes from the person's accounts. -/
def outflow (row : TransactionRow) : Int :=
  -(((tables.legs row).filter fun leg => leg.1.minorUnits < 0).map
    fun leg => leg.1.minorUnits.toInt).sum

/-- The amounts of the lines of a transaction that have the category. -/
def splitOf (row : TransactionRow) (category : Category) : List Int :=
  if tables.isTransfer row then []
  else ((tables.linesOf row.id).filter fun line => lineHas range category line).map
    fun line => line.amountMinor.toInt

/-- What the rows take of a transaction. -/
def placed (row : TransactionRow) : Int :=
  (tables.taxonomy.rows.map fun category =>
    -(tables.unsplitOf row category).sum - (tables.splitOf range row category).sum).sum

/-- The outflows of a transaction, from each account. -/
def outflowShares (row : TransactionRow) : List Outflow :=
  let spent := (tables.legs row).filter fun leg => leg.1.minorUnits < 0
  (spent.map fun leg => leg.2.id).dedup.map fun account =>
    ⟨-((spent.filter fun leg => leg.2.id = account).map fun leg => leg.1.minorUnits.toInt).sum,
      tables.hasOther row account, tables.categoryOf row.id⟩

/-- What the uncategorized outflow takes of a transaction. -/
def uncategorized (row : TransactionRow) : Int :=
  (((tables.outflowShares row).filter fun share =>
    !share.isTransfer && share.category.isNone).map Outflow.owed).sum

/-- What the transfers take of a transaction. -/
def transferred (row : TransactionRow) : Int :=
  (((tables.outflowShares row).filter Outflow.isTransfer).map Outflow.owed).sum

/-! ### The read is the sums of the shares -/

variable {libraries : SpendLibraries} {tables : SpendTables} {range : SpendRange}
  {hash : HashOrder SpendNode} {read : SpendBreakdown} {row : TransactionRow}

theorem eq_of_sumOf {amounts : List Int} {sum : Int} (summed : sumOf amounts = .ok sum) :
    sum = amounts.sum := by
  rw [eq_of_checkedSum (orMissing_eq_ok.mp summed), Int.zero_add]

theorem eq_of_negatedSum {amounts : List Int} {minor : Int}
    (negated : negatedSum amounts = .ok minor) : minor = -amounts.sum := by
  obtain ⟨sum, summed, inside⟩ := bind_eq_ok.mp negated
  rw [← (checkedI64_eq_some.mp (orMissing_eq_ok.mp inside)).2, eq_of_sumOf summed]

theorem sum_of_groupMinor {amounts minors : List Int} (grouped : groupMinor amounts = .ok minors) :
    minors.sum = -amounts.sum := by
  unfold groupMinor at grouped
  split_ifs at grouped with empty
  · obtain rfl := Except.ok.inj grouped
    rw [empty]
    rfl
  · obtain ⟨minor, negated, same⟩ := bind_eq_ok.mp grouped
    obtain rfl := Except.ok.inj same
    rw [List.sum_singleton, eq_of_negatedSum negated]

theorem eq_of_ownSpend {category : Category} {own : Int}
    (computed : tables.ownSpend libraries range category = .ok own) :
    own = -(tables.unsplitAmounts libraries range category).sum -
      (tables.splitAmounts libraries range category).sum := by
  obtain ⟨unsplit, first, computed⟩ := bind_eq_ok.mp computed
  obtain ⟨split, second, summed⟩ := bind_eq_ok.mp computed
  rw [eq_of_sumOf summed, List.sum_append, sum_of_groupMinor first, sum_of_groupMinor second,
    Int.sub_eq_add_neg]

theorem ranged_distinct : ((tables.ranged libraries range).map TransactionRow.id).Nodup :=
  tables.book.store.transactions.unique.sublist (List.filter_sublist.map _)

theorem lineCounts_iff (sound : tables.Sound libraries) {line : SplitLine}
    (member : line ∈ tables.splitLines.rows) (currency : line.currency = range.currency) :
    tables.lineCounts libraries range line ↔ ∃ row ∈ tables.ranged libraries range,
      tables.isTransfer row = false ∧ row.id = line.transactionId := by
  unfold lineCounts
  rw [Option.any_eq_true]
  constructor
  · rintro ⟨row, found, counts⟩
    obtain ⟨held, id⟩ := Table.find_eq_some_iff.mp found
    obtain ⟨inside, apart⟩ := Bool.and_eq_true_iff.mp counts
    have own : line ∈ tables.linesOf row.id :=
      List.mem_filter.mpr ⟨member, decide_eq_true id.symm⟩
    have same := (sound.adds row held (List.ne_nil_of_mem own)).2 line own
    refine ⟨row, List.mem_filter.mpr ⟨held, decide_eq_true ⟨inside, ?_⟩⟩, ?_, id⟩
    · rw [← same, currency]
    · exact Bool.not_eq_true' _ ▸ apart
  · rintro ⟨row, ranged, apart, id⟩
    obtain ⟨held, inside⟩ := List.mem_filter.mp ranged
    refine ⟨row, Table.find_eq_some_iff.mpr ⟨held, id⟩, ?_⟩
    rw [(of_decide_eq_true inside).1, apart]
    rfl

theorem sum_splitAmounts (sound : tables.Sound libraries) (category : Category) :
    (tables.splitAmounts libraries range category).sum =
      ((tables.ranged libraries range).map fun row =>
        (tables.splitOf range row category).sum).sum := by
  let having := tables.splitLines.rows.filter fun line => lineHas range category line
  let counted := (tables.ranged libraries range).filter fun row => tables.isTransfer row = false
  have distinct : (counted.map TransactionRow.id).Nodup :=
    ranged_distinct.sublist (List.filter_sublist.map _)
  have left : tables.splitAmounts libraries range category = (having.filter fun line =>
      ∃ id ∈ counted.map TransactionRow.id, some line.transactionId = some id).map
        fun line => line.amountMinor.toInt := by
    rw [List.filter_filter]
    refine congrArg (List.map _) (List.filter_congr fun line member => ?_)
    by_cases has : lineHas range category line
    · have counts := lineCounts_iff sound member (of_decide_eq_true has).2.2
      rw [has, Bool.true_and, Bool.and_true, Bool.eq_iff_iff, counts, decide_eq_true_eq]
      constructor
      · rintro ⟨row, ranged, apart, id⟩
        refine ⟨row.id, List.mem_map_of_mem (List.mem_filter.mpr ⟨ranged, ?_⟩), by rw [id]⟩
        exact decide_eq_true apart
      · rintro ⟨id, inside, same⟩
        obtain ⟨row, among, rfl⟩ := List.mem_map.mp inside
        obtain ⟨ranged, apart⟩ := List.mem_filter.mp among
        exact ⟨row, ranged, of_decide_eq_true apart, (Option.some.inj same).symm⟩
    · simp [has]
  have right (row : TransactionRow) : (tables.splitOf range row category).sum =
      if tables.isTransfer row = false then
        ((having.filter fun line => some line.transactionId = some row.id).map
          fun line => line.amountMinor.toInt).sum
      else 0 := by
    unfold splitOf
    cases tables.isTransfer row with
    | true => rfl
    | false =>
      refine congrArg List.sum (congrArg (List.map _) ?_)
      rw [linesOf, List.filter_filter, List.filter_filter]
      refine List.filter_congr fun line _ => ?_
      rw [Bool.and_comm]
      simp only [Option.some_inj]
  rw [left, ← sum_fibers distinct]
  simp only [right]
  rw [← sum_map_filter, List.map_map]
  rfl

theorem sum_unsplitAmounts (category : Category) :
    (tables.unsplitAmounts libraries range category).sum =
      ((tables.ranged libraries range).map fun row => (tables.unsplitOf row category).sum).sum :=
  sum_flatMap _ _

theorem sum_ownOf (sound : tables.Sound libraries)
    (computed : ∀ category ∈ tables.taxonomy.rows, ∃ own,
      tables.ownSpend libraries range category = .ok own) :
    (tables.taxonomy.rows.map (ownOf libraries tables range)).sum =
      ((tables.ranged libraries range).map (tables.placed range)).sum := by
  have each : ∀ category ∈ tables.taxonomy.rows, ownOf libraries tables range category =
      ((tables.ranged libraries range).map fun row =>
        -(tables.unsplitOf row category).sum - (tables.splitOf range row category).sum).sum := by
    intro category member
    obtain ⟨own, found⟩ := computed category member
    rw [ownOf, found]
    show own = _
    rw [eq_of_ownSpend found, sum_unsplitAmounts, sum_splitAmounts sound]
    simp only [Int.sub_eq_add_neg, List.sum_map_add, sum_map_neg]
  rw [List.map_congr_left each, sum_comm]
  rfl

theorem outflowShares_of_ok {outflows : List Outflow}
    (found : tables.outflowsOf row = .ok outflows) : outflows = tables.outflowShares row := by
  refine (List.map_id outflows).symm.trans (map_view_of_mapM (fun account share made => ?_) found)
  obtain ⟨owed, negated, same⟩ := bind_eq_ok.mp made
  obtain rfl := Except.ok.inj same
  rw [eq_of_negatedSum negated]
  rfl

theorem excludedOutflows_eq {left : Int × Int}
    (done : tables.excludedOutflows libraries range = .ok left) :
    left.1 = ((tables.ranged libraries range).map tables.uncategorized).sum ∧
      left.2 = ((tables.ranged libraries range).map tables.transferred).sum := by
  obtain ⟨outflows, found, done⟩ := bind_eq_ok.mp done
  obtain ⟨uncategorized, first, done⟩ := bind_eq_ok.mp done
  obtain ⟨transfers, second, done⟩ := bind_eq_ok.mp done
  obtain rfl := Except.ok.inj done
  have shares : outflows = (tables.ranged libraries range).map tables.outflowShares :=
    (List.map_id outflows).symm.trans
      (map_view_of_mapM (fun row shares made => outflowShares_of_ok made) found)
  have owed (selects : Outflow → Bool) : ((outflows.flatten.filter selects).map Outflow.owed).sum =
      ((tables.ranged libraries range).map fun row =>
        (((tables.outflowShares row).filter selects).map Outflow.owed).sum).sum := by
    rw [shares, ← List.flatMap_def, List.filter_flatMap, List.map_flatMap, sum_flatMap]
  exact ⟨(eq_of_sumOf first).trans (owed _), (eq_of_sumOf second).trans (owed _)⟩

theorem shares_of_spendByCategory (sound : tables.Sound libraries)
    (done : tables.spendByCategory libraries range hash none = .ok read) :
    (read.rows.map CategorySpend.totalMinor).sum =
        ((tables.ranged libraries range).map (tables.placed range)).sum ∧
      read.uncategorizedMinor = ((tables.ranged libraries range).map tables.uncategorized).sum ∧
      read.transfersMinor = ((tables.ranged libraries range).map tables.transferred).sum := by
  obtain ⟨list, totals, -, -, -, excluded, computed⟩ := rows_of_spendByCategory done
  exact ⟨(sum_rootRows sound.forest done).trans (sum_ownOf sound computed),
    excludedOutflows_eq excluded⟩

/-! ### The shares of one transaction -/

theorem hasOther_of_isTransfer (transfer : tables.isTransfer row = true) (account : Uuid) :
    tables.hasOther row account = true := by
  obtain ⟨first, firstIn, others⟩ := List.any_eq_true.mp transfer
  obtain ⟨second, secondIn, different⟩ := List.any_eq_true.mp others
  by_cases same : first.2.id = account
  · refine List.any_eq_true.mpr ⟨second, secondIn, decide_eq_true ?_⟩
    rw [← same]
    exact of_decide_eq_true different
  · exact List.any_eq_true.mpr ⟨first, firstIn, decide_eq_true same⟩

theorem hasOther_of_not_isTransfer (single : tables.isTransfer row = false)
    {leg : PostingRow × AccountRow} (member : leg ∈ tables.legs row) :
    tables.hasOther row leg.2.id = false := by
  have none := List.any_eq_false.mp single leg member
  exact Bool.not_eq_true _ ▸ none

theorem owed_outflowShares (row : TransactionRow) :
    ((tables.outflowShares row).map Outflow.owed).sum = tables.outflow row := by
  let spent := (tables.legs row).filter fun leg => leg.1.minorUnits < 0
  let accounts := (spent.map fun leg => leg.2.id).dedup
  have fibers := @sum_fibers _ _ _ _ _ (fun leg : PostingRow × AccountRow => some leg.2.id) accounts
    (List.nodup_dedup _) (fun leg => leg.1.minorUnits.toInt) spent
  have all :
      (spent.filter fun leg => ∃ account ∈ accounts, some leg.2.id = some account) = spent :=
    List.filter_eq_self.mpr fun leg member =>
      decide_eq_true ⟨leg.2.id, List.mem_dedup.mpr (List.mem_map_of_mem member), rfl⟩
  rw [all] at fibers
  rw [outflow, ← fibers, ← sum_map_neg, outflowShares, List.map_map]
  simp only [Option.some_inj]
  rfl

theorem shares_of_transfer (range : SpendRange) (transfer : tables.isTransfer row = true) :
    tables.placed range row = 0 ∧ tables.uncategorized row = 0 ∧
      tables.transferred row = tables.outflow row := by
  have transfers : ∀ share ∈ tables.outflowShares row, share.isTransfer = true := by
    intro share member
    obtain ⟨account, -, rfl⟩ := List.mem_map.mp member
    exact hasOther_of_isTransfer transfer account
  refine ⟨?_, ?_, ?_⟩
  · have nothing (category : Category) : -(tables.unsplitOf row category).sum -
        (tables.splitOf range row category).sum = 0 := by
      have none : ((tables.legs row).filter fun leg => !tables.hasOther row leg.2.id) = [] :=
        List.filter_eq_nil_iff.mpr fun leg _ => by
          rw [hasOther_of_isTransfer transfer]
          exact Bool.false_ne_true
      rw [unsplitOf, splitOf, if_pos transfer, none]
      split <;> rfl
    unfold placed
    simp only [nothing]
    simp
  · have none : ((tables.outflowShares row).filter fun share =>
        !share.isTransfer && share.category.isNone) = [] :=
      List.filter_eq_nil_iff.mpr fun share member => by
        rw [transfers share member]
        exact Bool.false_ne_true
    rw [uncategorized, none]
    rfl
  · rw [transferred, List.filter_eq_self.mpr transfers, owed_outflowShares]

/-- Every category that a transaction or a line has is one of expenses. -/
def UsesOnlyExpenses (tables : SpendTables) : Prop :=
  ∀ category ∈ tables.taxonomy.rows,
    (∃ row ∈ tables.book.store.categorizations.rows, row.categoryId = category.id) ∨
      (∃ line ∈ tables.splitLines.rows, line.categoryId = some category.id) →
    category.categoryType = "expense"

/-- Money comes in only in transfers. -/
def OnlySpends (tables : SpendTables) : Prop :=
  ∀ row ∈ tables.book.store.transactions.rows, row.voidedAt = none →
    tables.isTransfer row = false → ∀ leg ∈ tables.legs row, leg.1.minorUnits ≤ 0

/-- The lines of a transaction that have a category, and those that have none. -/
def categorizedLines (tables : SpendTables) (row : TransactionRow) : Int :=
  (((tables.linesOf row.id).filter fun line => line.categoryId.isSome).map
    fun line => line.amountMinor.toInt).sum

def uncategorizedLines (tables : SpendTables) (row : TransactionRow) : Int :=
  (((tables.linesOf row.id).filter fun line => line.categoryId.isNone).map
    fun line => line.amountMinor.toInt).sum

theorem of_mem_ranged (member : row ∈ tables.ranged libraries range) :
    row ∈ tables.book.store.transactions.rows ∧ row.voidedAt = none ∧
      row.currency.code = range.currency := by
  obtain ⟨held, inside⟩ := List.mem_filter.mp member
  obtain ⟨ranged, currency⟩ := of_decide_eq_true inside
  simp only [inRange, Bool.and_eq_true, Option.isNone_iff_eq_none] at ranged
  exact ⟨held, ranged.1.1.1, currency⟩

theorem sum_legAmounts (spends : tables.OnlySpends) (member : row ∈ tables.ranged libraries range)
    (single : tables.isTransfer row = false) :
    (tables.legAmounts row).sum = -tables.outflow row := by
  obtain ⟨held, visible, -⟩ := of_mem_ranged member
  rw [outflow, Int.neg_neg, sum_map_filter, legAmounts]
  refine congrArg List.sum (List.map_congr_left fun leg inside => ?_)
  have spent := Int64.le_iff_toInt_le.mp (spends row held visible single leg inside)
  rw [Int64.toInt_zero] at spent
  split_ifs with less
  · rfl
  · rw [Int64.lt_iff_toInt_lt, Int64.toInt_zero] at less
    omega

theorem expense_of_categoryOf (sound : tables.Sound libraries) (expenses : tables.UsesOnlyExpenses)
    {id : Uuid} (has : tables.categoryOf row.id = some id) :
    (tables.taxonomy.find id).isSome ∧
      ∀ category ∈ tables.taxonomy.rows,
        category.id = id → category.categoryType = "expense" := by
  obtain ⟨assigned, found, rfl⟩ := Option.map_eq_some_iff.mp has
  have held := (Table.find_eq_some_iff.mp found).1
  exact ⟨sound.categorized assigned held, fun category member same =>
    expenses category member (.inl ⟨assigned, held, same.symm⟩)⟩

theorem placed_unsplit (sound : tables.Sound libraries) (expenses : tables.UsesOnlyExpenses)
    (single : tables.isTransfer row = false) (unsplit : tables.linesOf row.id = []) :
    tables.placed range row =
      if (tables.categoryOf row.id).isSome then -(tables.legAmounts row).sum else 0 := by
  have whole : ((tables.legs row).filter fun leg => !tables.hasOther row leg.2.id) =
      tables.legs row :=
    List.filter_eq_self.mpr fun leg member => by
      rw [hasOther_of_not_isTransfer single member]
      rfl
  have each : ∀ category ∈ tables.taxonomy.rows, -(tables.unsplitOf row category).sum -
      (tables.splitOf range row category).sum =
        (([row].filter fun row => tables.categoryOf row.id = some category.id).map
          fun row => -(tables.legAmounts row).sum).sum := by
    intro category member
    have noLines : tables.splitOf range row category = [] := by
      rw [splitOf, unsplit, single]
      rfl
    rw [unsplitOf, unsplit, whole, noLines, List.filter_cons]
    by_cases has : tables.categoryOf row.id = some category.id
    · have expense := (expense_of_categoryOf sound expenses has).2 category member rfl
      rw [if_pos ⟨has, expense, rfl⟩, if_pos (decide_eq_true has)]
      show -(tables.legAmounts row).sum - 0 = -(tables.legAmounts row).sum + 0
      rw [Int.sub_zero, Int.add_zero]
    · rw [if_neg fun all => has all.1, if_neg (by simpa using has)]
      rfl
  rw [placed, List.map_congr_left each]
  have fibers := @sum_fibers _ _ _ _ _ (fun row => tables.categoryOf row.id)
    (tables.taxonomy.rows.map Category.id) tables.taxonomy.unique
    (fun row => -(tables.legAmounts row).sum) [row]
  rw [List.map_map] at fibers
  refine fibers.trans ?_
  rw [List.filter_cons]
  cases has : tables.categoryOf row.id with
  | none => simp
  | some id =>
    have held := mem_categoryIds.mpr (expense_of_categoryOf sound expenses has).1
    rw [categoryIds, List.mem_toFinset] at held
    rw [if_pos (decide_eq_true ⟨id, held, rfl⟩)]
    simp

theorem placed_split (sound : tables.Sound libraries) (expenses : tables.UsesOnlyExpenses)
    (member : row ∈ tables.ranged libraries range) (single : tables.isTransfer row = false)
    (split : tables.linesOf row.id ≠ []) :
    tables.placed range row = -tables.categorizedLines row := by
  obtain ⟨held, -, currency⟩ := of_mem_ranged member
  have stored {line : SplitLine} (inside : line ∈ tables.linesOf row.id) :
      line ∈ tables.splitLines.rows := (List.mem_filter.mp inside).1
  have each : ∀ category ∈ tables.taxonomy.rows, -(tables.unsplitOf row category).sum -
      (tables.splitOf range row category).sum =
        -(((tables.linesOf row.id).filter fun line => line.categoryId = some category.id).map
          fun line => line.amountMinor.toInt).sum := by
    intro category inTree
    rw [unsplitOf, if_neg fun all => split all.2.2, splitOf, if_neg (by rw [single]; decide)]
    have has : ((tables.linesOf row.id).filter fun line => lineHas range category line) =
        (tables.linesOf row.id).filter fun line => line.categoryId = some category.id := by
      refine List.filter_congr fun line inside => ?_
      have same := (sound.adds row held split).2 line inside
      rw [Bool.eq_iff_iff, lineHas, decide_eq_true_eq, decide_eq_true_eq]
      refine ⟨fun all => all.1, fun has => ⟨has, ?_, same.trans currency⟩⟩
      exact expenses category inTree (.inr ⟨line, stored inside, has⟩)
    rw [has, List.sum_nil, Int.neg_zero, Int.zero_sub]
  rw [placed, List.map_congr_left each, sum_map_neg, categorizedLines]
  have fibers := @sum_fibers _ _ _ _ _ SplitLine.categoryId
    (tables.taxonomy.rows.map Category.id) tables.taxonomy.unique
    (fun line => line.amountMinor.toInt) (tables.linesOf row.id)
  rw [List.map_map] at fibers
  refine congrArg Neg.neg (fibers.trans (congrArg List.sum (congrArg (List.map _) ?_)))
  refine List.filter_congr fun line inside => ?_
  cases has : line.categoryId with
  | none => simp
  | some id =>
    have inTree := mem_categoryIds.mpr (sound.lined line (stored inside) id has)
    rw [categoryIds, List.mem_toFinset] at inTree
    exact decide_eq_true ⟨id, inTree, rfl⟩

theorem leftOut_single (single : tables.isTransfer row = false) :
    tables.uncategorized row =
        (if (tables.categoryOf row.id).isNone then tables.outflow row else 0) ∧
      tables.transferred row = 0 := by
  have shares : ∀ share ∈ tables.outflowShares row, share.isTransfer = false ∧
      share.category = tables.categoryOf row.id := by
    intro share member
    obtain ⟨account, inside, rfl⟩ := List.mem_map.mp member
    obtain ⟨leg, spent, rfl⟩ := List.mem_map.mp (List.mem_dedup.mp inside)
    exact ⟨hasOther_of_not_isTransfer single (List.mem_filter.mp spent).1, rfl⟩
  constructor
  · rw [uncategorized, ← owed_outflowShares]
    split_ifs with without
    · refine congrArg List.sum
        (congrArg (List.map _) (List.filter_eq_self.mpr fun share member => ?_))
      rw [(shares share member).1, (shares share member).2, without]
      rfl
    · have nothing : ((tables.outflowShares row).filter fun share =>
          !share.isTransfer && share.category.isNone) = [] :=
        List.filter_eq_nil_iff.mpr fun share member => by
          rw [(shares share member).2, Bool.and_eq_true]
          exact fun both => without both.2
      rw [nothing]
      rfl
  · have nothing : (tables.outflowShares row).filter Outflow.isTransfer = [] :=
      List.filter_eq_nil_iff.mpr fun share member => by
        rw [(shares share member).1]
        exact Bool.false_ne_true
    rw [transferred, nothing]
    rfl

/-! ### Counting once -/

/-- A transaction is counted once: a transfer in the transfers alone, and any other in the rows
and the uncategorized outflow together. -/
def CountedOnce (tables : SpendTables) (range : SpendRange) (row : TransactionRow) : Prop :=
  if tables.isTransfer row then
    tables.placed range row = 0 ∧ tables.uncategorized row = 0 ∧
      tables.transferred row = tables.outflow row
  else
    tables.placed range row + tables.uncategorized row = tables.outflow row ∧
      tables.transferred row = 0

/-- The rows and the footnote account for the outflow of the range, and for each transaction. -/
structure CountsOnce (libraries : SpendLibraries) (tables : SpendTables) (range : SpendRange)
    (read : SpendBreakdown) : Prop where
  total : ((tables.ranged libraries range).map tables.outflow).sum =
    (read.rows.map CategorySpend.totalMinor).sum + read.uncategorizedMinor + read.transfersMinor
  each : ∀ row ∈ tables.ranged libraries range, tables.CountedOnce range row

/-- The lines of a split that the read would leave out, or count a second time, add up to
nothing: those without a category where the transaction has one of its own, and those with a
category where it has none. -/
def SplitsPlaced (tables : SpendTables) (row : TransactionRow) : Prop :=
  tables.isTransfer row = false → tables.linesOf row.id ≠ [] →
    if (tables.categoryOf row.id).isSome then tables.uncategorizedLines row = 0
    else tables.categorizedLines row = 0

theorem sum_lines (row : TransactionRow) :
    ((tables.linesOf row.id).map fun line => line.amountMinor.toInt).sum =
      tables.categorizedLines row + tables.uncategorizedLines row := by
  unfold categorizedLines uncategorizedLines
  induction tables.linesOf row.id with
  | nil => rfl
  | cons line rest inductionHypothesis =>
    rw [List.map_cons, List.sum_cons, inductionHypothesis, List.filter_cons, List.filter_cons]
    cases line.categoryId with
    | none =>
      rw [if_neg (by decide), if_pos (by decide), List.map_cons, List.sum_cons]
      omega
    | some id =>
      rw [if_pos (by rfl), if_neg (by simp), List.map_cons, List.sum_cons]
      omega

theorem counted_iff (sound : tables.Sound libraries) (expenses : tables.UsesOnlyExpenses)
    (spends : tables.OnlySpends) (member : row ∈ tables.ranged libraries range) :
    tables.CountedOnce range row ↔ tables.SplitsPlaced row := by
  unfold CountedOnce SplitsPlaced
  cases single : tables.isTransfer row with
  | true =>
    rw [if_pos rfl]
    exact iff_of_true (shares_of_transfer range single) fun same => by cases same
  | false =>
    obtain ⟨left, none⟩ := leftOut_single single
    have legs := sum_legAmounts spends member single
    rw [if_neg Bool.false_ne_true, left, none, and_iff_left rfl]
    by_cases split : tables.linesOf row.id = []
    · rw [placed_unsplit sound expenses single split]
      refine iff_of_true ?_ fun _ lines => absurd split lines
      cases tables.categoryOf row.id with
      | none => exact Int.zero_add _
      | some id =>
        show -(tables.legAmounts row).sum + 0 = _
        rw [legs, Int.neg_neg, Int.add_zero]
    · have added := (sound.adds row (of_mem_ranged member).1 split).1
      rw [sum_lines] at added
      change _ = (tables.legAmounts row).sum at added
      rw [placed_split sound expenses member single split]
      cases tables.categoryOf row.id with
      | none =>
        show -tables.categorizedLines row + tables.outflow row = _ ↔
          (_ → _ → tables.categorizedLines row = 0)
        constructor
        · intro counted _ _
          omega
        · intro placed
          have := placed rfl split
          omega
      | some id =>
        show -tables.categorizedLines row + 0 = _ ↔ (_ → _ → tables.uncategorizedLines row = 0)
        constructor
        · intro counted _ _
          omega
        · intro placed
          have := placed rfl split
          omega

/-- The read counts every transaction once exactly when the split lines of all are placed. -/
theorem countsOnce_iff {start : SpendTables} (sound : start.Sound libraries)
    (reached : Relation.ReflTransGen (Step libraries) start tables)
    (expenses : tables.UsesOnlyExpenses) (spends : tables.OnlySpends)
    (done : tables.spendByCategory libraries range hash none = .ok read) :
    ((read.rows.map CategorySpend.totalMinor).sum =
        ((tables.ranged libraries range).map (tables.placed range)).sum ∧
      read.uncategorizedMinor = ((tables.ranged libraries range).map tables.uncategorized).sum ∧
      read.transfersMinor = ((tables.ranged libraries range).map tables.transferred).sum) ∧
    (tables.CountsOnce libraries range read ↔
      ∀ row ∈ tables.ranged libraries range, tables.SplitsPlaced row) := by
  have ordered := sound.reaches reached
  have shares := shares_of_spendByCategory ordered done
  refine ⟨shares, fun counts row member =>
    (counted_iff ordered expenses spends member).mp (counts.each row member), fun placed => ?_⟩
  have each : ∀ row ∈ tables.ranged libraries range, tables.CountedOnce range row :=
    fun row member => (counted_iff ordered expenses spends member).mpr (placed row member)
  refine ⟨?_, each⟩
  rw [shares.1, shares.2.1, shares.2.2, ← List.sum_map_add, ← List.sum_map_add]
  refine congrArg List.sum (List.map_congr_left fun row member => ?_)
  have counted := each row member
  unfold CountedOnce at counted
  split_ifs at counted
  · omega
  · omega

/-! ### A split of a transaction without a category -/

def spendLibraries : SpendLibraries := { bookLibraries with like := fun _ _ => false }

/-- One account, one category, and nothing posted yet. -/
def spendStart : SpendTables where
  book :=
    { store :=
        { accounts := ⟨[⟨.replicate 16 1, .replicate 16 2, "USD"⟩], nodup_observedAccounts⟩
          categories := .empty
          systemAccounts := [⟨"unmatched_expense", .usd, .replicate 16 5⟩]
          batches := .empty
          records := .empty
          staged := .empty
          transactions := .empty
          provenance := .empty
          details := []
          categorizations := .empty
          decisions := .empty
          operations := [] }
      ledgerAccounts := ⟨[.replicate 16 2, .replicate 16 5], nodup_observedLedgerAccounts⟩
      observations := .empty }
  taxonomy := ⟨[⟨.replicate 16 8, none, "Groceries", "expense", none, none, false,
    "variable_regular", none, "", ""⟩], List.nodup_singleton _⟩
  splitLines := .empty
  splitLineTags := []
  tags := []
  transactionTags := []
  names := []
  notes := []
  reviews := []

/-- Two hundred are spent. -/
def spentTransaction : LedgerTransaction where
  id := .given (.replicate 16 7)
  operationId := .replicate 16 7
  occurredAt := 86400
  currency := .usd
  postings := [⟨.replicate 16 2, ⟨-200, .usd⟩⟩, ⟨.replicate 16 5, ⟨200, .usd⟩⟩]
  twoOrMore := by decide
  balances := by decide

def spentTables : SpendTables :=
  { spendStart with
    book := (spendStart.book.post spendLibraries.toBookLibraries spentTransaction).toOption.getD
      spendStart.book }

/-- All of them are a line of groceries. -/
def itemizedTables : SpendTables :=
  (spentTables.applySetSplits ⟨.replicate 16 9, "", ""⟩ spentTransaction.id
    [⟨⟨-200, .usd⟩, some (.replicate 16 8), none, []⟩]).toOption.getD spentTables

def spendDay : SpendRange := ⟨⟨1970, 1, 2⟩, ⟨1970, 1, 2⟩, "USD", .none⟩

def keepOrder : HashOrder SpendNode := ⟨id, fun _ => .refl _⟩

theorem spendStart_sound : spendStart.Sound spendLibraries := by
  refine ⟨⟨?_, ?_, ?_, ?_, List.forall_mem_nil _, List.forall_mem_nil _⟩, ?_,
    List.forall_mem_nil _,
    List.forall_mem_nil _, List.forall_mem_nil _, List.forall_mem_nil _⟩
  · exact List.forall_mem_singleton.mpr (by decide)
  · exact List.forall_mem_singleton.mpr (by decide)
  · intro first firstIn second secondIn _
    exact (List.mem_singleton.mp firstIn).trans (List.mem_singleton.mp secondIn).symm
  · exact List.forall_mem_singleton.mpr (List.forall_mem_singleton.mpr (by decide))
  · refine ⟨List.forall_mem_singleton.mpr (.root rfl), List.forall_mem_singleton.mpr ?_⟩
    exact fun parent none => absurd none (Option.not_mem_none parent)

theorem reaches_itemized :
    Relation.ReflTransGen (Step spendLibraries) spendStart itemizedTables := by
  refine .tail (.single (@Step.post _ spendStart spentTables.book spentTransaction ?_)) (.split
    ⟨.replicate 16 9, "", ""⟩ spentTransaction.id
      [⟨⟨-200, .usd⟩, some (.replicate 16 8), none, []⟩] ?_)
  · rfl
  · rfl

theorem itemized_usesOnlyExpenses : itemizedTables.UsesOnlyExpenses :=
  List.forall_mem_singleton.mpr fun _ => rfl

theorem itemized_onlySpends : itemizedTables.OnlySpends :=
  List.forall_mem_singleton.mpr fun _ _ => List.forall_mem_singleton.mpr (by decide)

theorem exists_itemized_read : ∃ read,
    itemizedTables.spendByCategory spendLibraries spendDay keepOrder none = .ok read := by
  have nodes : itemizedTables.nodes spendLibraries spendDay =
      .ok [⟨.replicate 16 8, "Groceries", none, 200⟩] := by decide +kernel
  have excluded : itemizedTables.excludedOutflows spendLibraries spendDay = .ok (200, 0) := by
    decide +kernel
  have rolled : ∃ totals, rollUp [⟨.replicate 16 8, "Groceries", none, 200⟩] = .ok totals := by
    rw [rollUp, List.foldlM_cons, rollUpNode_root rfl (by decide)]
    exact ⟨_, rfl⟩
  obtain ⟨totals, rolled⟩ := rolled
  exact ⟨_, bind_eq_ok.mpr ⟨_, nodes, bind_eq_ok.mpr ⟨totals, rolled, bind_eq_ok.mpr
    ⟨_, excluded, rfl⟩⟩⟩⟩

/-- The two hundred are in the rows and uncategorized. -/
theorem itemized_counts_twice :
    ¬ ∀ (libraries : SpendLibraries) (start tables : SpendTables) (range : SpendRange)
      (hash : HashOrder SpendNode) (read : SpendBreakdown), start.Sound libraries →
      Relation.ReflTransGen (Step libraries) start tables → tables.UsesOnlyExpenses →
      tables.OnlySpends → range.filters = .none →
      tables.spendByCategory libraries range hash none = .ok read →
      tables.CountsOnce libraries range read := by
  intro claimed
  obtain ⟨read, done⟩ := exists_itemized_read
  have counts := claimed _ _ _ _ _ _ spendStart_sound reaches_itemized itemized_usesOnlyExpenses
    itemized_onlySpends rfl done
  have twice : ¬ itemizedTables.CountedOnce spendDay
      (LedgerBook.postedRow spendLibraries.toBookLibraries spentTransaction) := by
    unfold CountedOnce
    decide +kernel
  exact twice (counts.each _ (by decide +kernel))

/-- The same read, by its shares. -/
theorem itemized_shares : ∃ read,
    itemizedTables.spendByCategory spendLibraries spendDay keepOrder none = .ok read ∧
    ((read.rows.map CategorySpend.totalMinor).sum =
        ((itemizedTables.ranged spendLibraries spendDay).map (itemizedTables.placed spendDay)).sum ∧
      read.uncategorizedMinor = ((itemizedTables.ranged spendLibraries spendDay).map
        itemizedTables.uncategorized).sum ∧
      read.transfersMinor = ((itemizedTables.ranged spendLibraries spendDay).map
        itemizedTables.transferred).sum) ∧
    (itemizedTables.CountsOnce spendLibraries spendDay read ↔
      ∀ row ∈ itemizedTables.ranged spendLibraries spendDay, itemizedTables.SplitsPlaced row) := by
  obtain ⟨read, done⟩ := exists_itemized_read
  exact ⟨read, done, countsOnce_iff spendStart_sound reaches_itemized itemized_usesOnlyExpenses
    itemized_onlySpends done⟩

end SpendTables

end Dohflow.DbWorker
