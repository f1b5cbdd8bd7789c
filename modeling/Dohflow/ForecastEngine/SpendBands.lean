/-
This file proves that the statistical overlay keeps bands ordered and widening.

A category's share of a day is at least nothing, and it grows with the percentile and
with what is planned: the division rounds toward zero, but it never turns two amounts
around. So the spend so far is ordered and its width only grows, a balance lowered by
it is ordered the other way, and lower plans leave every balance at least as high.
Lumps add to both sides alike, and more of them have come the later the day.
-/

import Dohflow.ForecastEngine.SpendOverlay

namespace Dohflow.ForecastEngine

open Calendar CanonicalOrder CoreLedger PayDates MachineIntegers

variable {lowered adjustments : List SpendAdjustment} {model : SpendModel} {cum next : SpendBand}
  {Item Other : Type} {related : Item → Other → Prop} {others : List Other} {items : List Item}
  {category : String} {date : NaiveDate}

/-! ### Series -/

/-- An amount as an integer. -/
def centsOf (money : Money) : Int := money.minorUnits.toInt

def Band.Ordered (band : Band) : Prop :=
  centsOf band.p10 ≤ centsOf band.p50 ∧ centsOf band.p50 ≤ centsOf band.p90

def Band.width (band : Band) : Int := centsOf band.p90 - centsOf band.p10

/-- A series of the first layer: the days follow one another, in one currency, with collapsed
bands. -/
structure Layer1Series (series : List DailyBalance) : Prop where
  ascends : (series.map DailyBalance.date).Pairwise (· < ·)
  collapsed : ∀ day ∈ series, ∃ value : Money, day.closing = .point value
  oneCurrency : ∃ currency, ∀ day ∈ series, day.closing.p50.currency = currency

theorem exists_of_mem_forall₂ (pairs : List.Forall₂ related items others) {other : Other}
    (member : other ∈ others) : ∃ item ∈ items, related item other := by
  induction pairs with
  | nil => exact nomatch member
  | @cons item first items others pair pairs inductionHypothesis =>
    rcases List.mem_cons.mp member with rfl | behind
    · exact ⟨item, List.mem_cons_self, pair⟩
    · obtain ⟨second, secondIn, secondPair⟩ := inductionHypothesis behind
      exact ⟨second, List.mem_cons_of_mem _ secondIn, secondPair⟩

theorem pairwise_of_forall₂ {before : Item → Item → Prop} {after : Other → Other → Prop}
    (pairs : List.Forall₂ related items others)
    (carries : ∀ first second other another, related first other → related second another →
      before first second → after other another) (ordered : items.Pairwise before) :
    others.Pairwise after := by
  induction pairs with
  | nil => exact .nil
  | @cons item other items others pair pairs inductionHypothesis =>
    obtain ⟨first, later⟩ := List.pairwise_cons.mp ordered
    refine List.pairwise_cons.mpr ⟨fun another member => ?_, inductionHypothesis later⟩
    obtain ⟨second, secondIn, secondPair⟩ := exists_of_mem_forall₂ pairs member
    exact carries _ _ _ _ pair secondPair (first second secondIn)

/-! ### A category's share of a day -/

/-- The day's share of a category at a percentile, in integers. -/
def shareOf (model : SpendModel) (adjustments : List SpendAdjustment) (date : NaiveDate)
    (percentile : SpendBand → Int) (category : String) : Int :=
  match model.band category date.val.monthOfYear with
  | none => 0
  | some band =>
    let days := max (daysInMonthOf date) 1
    max ((percentile band).tdiv days +
      (plannedDeltas adjustments category date).sum.tdiv days) 0

/-- What a day takes at a percentile. -/
def drawOn (model : SpendModel) (adjustments : List SpendAdjustment) (date : NaiveDate)
    (percentile : SpendBand → Int) : Int :=
  (model.categories.map (shareOf model adjustments date percentile)).sum

def SpendBand.Ordered (band : SpendBand) : Prop :=
  band.p10Cents ≤ band.p50Cents ∧ band.p50Cents ≤ band.p90Cents

/-- All bands of a model are ordered. -/
def SpendModel.Ordered (model : SpendModel) : Prop :=
  (∀ entry ∈ model.seasonal, entry.2.Ordered) ∧ ∀ entry ∈ model.overall, entry.2.Ordered

theorem mem_of_lookup {Key Value : Type} [BEq Key] [LawfulBEq Key] {entries : List (Key × Value)} {key : Key}
    {value : Value} (found : entries.lookup key = some value) : (key, value) ∈ entries := by
  obtain ⟨front, back, rfl, -⟩ := List.lookup_eq_some_iff.mp found
  exact List.mem_append_right _ List.mem_cons_self

theorem SpendModel.ordered_of_band (ordered : model.Ordered) {month : Nat} {band : SpendBand}
    (found : model.band category month = some band) : band.Ordered := by
  unfold SpendModel.band at found
  rcases Option.or_eq_some_iff.mp found with seasonal | ⟨-, overall⟩
  · exact ordered.1 _ (mem_of_lookup seasonal)
  · exact ordered.2 _ (mem_of_lookup overall)

theorem shareOf_nonneg (model : SpendModel) (adjustments : List SpendAdjustment)
    (date : NaiveDate) (percentile : SpendBand → Int) (category : String) :
    0 ≤ shareOf model adjustments date percentile category := by
  unfold shareOf
  split
  · exact le_rfl
  · exact le_max_right _ _

theorem shareOf_le_shareOf (ordered : model.Ordered) {low high : SpendBand → Int}
    (below : ∀ band : SpendBand, band.Ordered → low band ≤ high band)
    (adjustments : List SpendAdjustment) (date : NaiveDate) (category : String) :
    shareOf model adjustments date low category ≤ shareOf model adjustments date high category := by
  unfold shareOf
  split
  · exact le_rfl
  · next band found =>
    have positive : 0 < max (daysInMonthOf date) 1 := lt_max_of_lt_right Int.one_pos
    have shares := Int.tdiv_le_tdiv positive (below band (model.ordered_of_band ordered found))
    exact max_le_max (Int.add_le_add_right shares _) le_rfl

/-- One list of plans is another with lower deltas. -/
def Lowered (lowered adjustments : List SpendAdjustment) : Prop :=
  List.Forall₂ (fun low high => low.category = high.category ∧ low.start = high.start ∧
    low.stop = high.stop ∧ low.deltaCentsPerMonth ≤ high.deltaCentsPerMonth) lowered adjustments

theorem plannedDeltas_sum_le (lower : Lowered lowered adjustments) (category : String)
    (date : NaiveDate) :
    (plannedDeltas lowered category date).sum ≤ (plannedDeltas adjustments category date).sum := by
  unfold plannedDeltas
  induction lower with
  | nil => exact le_rfl
  | @cons low high lowered adjustments pair lower inductionHypothesis =>
    obtain ⟨sameCategory, sameStart, sameStop, delta⟩ := pair
    have covers : low.covers date = high.covers date := by
      unfold SpendAdjustment.covers
      rw [sameStart, sameStop]
    rw [List.filter_cons, List.filter_cons, sameCategory, covers]
    split
    · rw [List.map_cons, List.map_cons, List.sum_cons, List.sum_cons]
      exact Int.add_le_add delta inductionHypothesis
    · exact inductionHypothesis

theorem shareOf_le_of_lowered (lower : Lowered lowered adjustments) (model : SpendModel)
    (date : NaiveDate) (percentile : SpendBand → Int) (category : String) :
    shareOf model lowered date percentile category ≤
      shareOf model adjustments date percentile category := by
  unfold shareOf
  split
  · exact le_rfl
  · next band _ =>
    have positive : 0 < max (daysInMonthOf date) 1 := lt_max_of_lt_right Int.one_pos
    have shares := Int.tdiv_le_tdiv positive (plannedDeltas_sum_le lower category date)
    exact max_le_max (Int.add_le_add_left shares _) le_rfl

/-! ### What a day takes -/

theorem drawOn_nonneg (model : SpendModel) (adjustments : List SpendAdjustment)
    (date : NaiveDate) (percentile : SpendBand → Int) :
    0 ≤ drawOn model adjustments date percentile := by
  refine List.sum_nonneg fun share member => ?_
  obtain ⟨category, -, rfl⟩ := List.mem_map.mp member
  exact shareOf_nonneg _ _ _ _ _

theorem drawOn_le_drawOn {model : SpendModel} (ordered : model.Ordered)
    {low high : SpendBand → Int} (below : ∀ band : SpendBand, band.Ordered → low band ≤ high band)
    (adjustments : List SpendAdjustment) (date : NaiveDate) :
    drawOn model adjustments date low ≤ drawOn model adjustments date high :=
  List.sum_le_sum fun category _ => shareOf_le_shareOf ordered below adjustments date category

theorem drawOn_le_of_lowered (lower : Lowered lowered adjustments) (model : SpendModel)
    (date : NaiveDate) (percentile : SpendBand → Int) :
    drawOn model lowered date percentile ≤ drawOn model adjustments date percentile :=
  List.sum_le_sum fun category _ => shareOf_le_of_lowered lower model date percentile category

theorem eq_of_accumulate {days delta cum cents found : Int}
    (added : accumulate days delta cum cents = some found) :
    found = cum + max (cents.tdiv days + delta) 0 := by
  obtain ⟨shifted, inside, summed⟩ := Option.bind_eq_some_iff.mp added
  obtain ⟨-, rfl⟩ := checkedI64_eq_some.mp inside
  exact (checkedI64_eq_some.mp summed).2.symm

theorem eq_of_addCategory {adjustments : List SpendAdjustment}
    (added : addCategory model adjustments date cum category = some next) :
    next = ⟨cum.p10Cents + shareOf model adjustments date SpendBand.p10Cents category,
      cum.p50Cents + shareOf model adjustments date SpendBand.p50Cents category,
      cum.p90Cents + shareOf model adjustments date SpendBand.p90Cents category⟩ := by
  unfold addCategory at added
  unfold shareOf
  cases found : model.band category date.val.monthOfYear with
  | none =>
    rw [found] at added
    obtain rfl := Option.some.inj added
    simp only [Int.add_zero]
  | some band =>
    rw [found] at added
    obtain ⟨planned, summed, added⟩ := Option.bind_eq_some_iff.mp added
    obtain ⟨p10, low, added⟩ := Option.bind_eq_some_iff.mp added
    obtain ⟨p50, middle, added⟩ := Option.bind_eq_some_iff.mp added
    obtain ⟨p90, high, added⟩ := Option.bind_eq_some_iff.mp added
    obtain rfl := Option.some.inj added
    have plan := eq_of_checkedSum summed
    rw [Int.zero_add] at plan
    rw [eq_of_accumulate low, eq_of_accumulate middle, eq_of_accumulate high, plan]

/-- The spend so far with what a day takes. -/
def SpendBand.withDay (cum : SpendBand) (model : SpendModel) (adjustments : List SpendAdjustment)
    (date : NaiveDate) : SpendBand :=
  ⟨cum.p10Cents + drawOn model adjustments date SpendBand.p10Cents,
    cum.p50Cents + drawOn model adjustments date SpendBand.p50Cents,
    cum.p90Cents + drawOn model adjustments date SpendBand.p90Cents⟩

theorem eq_of_addCategories {adjustments : List SpendAdjustment}
    (added : model.categories.foldlM (addCategory model adjustments date) cum = some next) :
    next = cum.withDay model adjustments date := by
  unfold SpendBand.withDay drawOn
  generalize model.categories = categories at added
  induction categories generalizing cum with
  | nil =>
    obtain rfl := Option.some.inj added
    simp only [List.map_nil, List.sum_nil, Int.add_zero]
  | cons category rest inductionHypothesis =>
    rw [List.foldlM_cons] at added
    obtain ⟨reached, first, later⟩ := Option.bind_eq_some_iff.mp added
    rw [inductionHypothesis later, eq_of_addCategory first]
    simp only [List.map_cons, List.sum_cons, Int.add_assoc]

/-! ### The rows -/

/-- What is spent at a percentile is at least nothing, and grows with the percentile. -/
structure SpendBand.Spent (cum : SpendBand) : Prop where
  nonnegative : 0 ≤ cum.p10Cents
  ordered : cum.Ordered

def SpendBand.width (cum : SpendBand) : Int := cum.p90Cents - cum.p10Cents

section Ordered

variable {model : SpendModel} (ordered : model.Ordered) {adjustments : List SpendAdjustment}
  {currency : Currency} {cum : SpendBand} {series out : List DailyBalance}

include ordered

/-- A day leaves what is spent ordered. -/
theorem SpendBand.Spent.withDay (spent : cum.Spent) (adjustments : List SpendAdjustment)
    (date : NaiveDate) : (cum.withDay model adjustments date).Spent := by
  have low := drawOn_nonneg model adjustments date SpendBand.p10Cents
  have middle := @drawOn_le_drawOn model ordered SpendBand.p10Cents SpendBand.p50Cents
    (fun _ band => band.1) adjustments date
  have high := @drawOn_le_drawOn model ordered SpendBand.p50Cents SpendBand.p90Cents
    (fun _ band => band.2) adjustments date
  exact ⟨Int.add_nonneg spent.nonnegative low, Int.add_le_add spent.ordered.1 middle,
    Int.add_le_add spent.ordered.2 high⟩

theorem width_le_withDay (adjustments : List SpendAdjustment) (date : NaiveDate) :
    cum.width ≤ (cum.withDay model adjustments date).width := by
  have low := @drawOn_le_drawOn model ordered SpendBand.p10Cents SpendBand.p90Cents
    (fun _ band => band.1.trans band.2) adjustments date
  unfold SpendBand.width SpendBand.withDay
  dsimp only
  omega

end Ordered

section Rows

variable {model : SpendModel} {adjustments : List SpendAdjustment} {currency : Currency}
  {cum : SpendBand} {series out : List DailyBalance}
variable {day row : DailyBalance}

/-- A row is its day, lowered by what is spent up to it. -/
structure LoweredBy (cum : SpendBand) (day row : DailyBalance) : Prop where
  date : row.date = day.date
  events : row.events = day.events
  p10 : centsOf row.closing.p10 = centsOf day.closing.p50 - cum.p90Cents
  p50 : centsOf row.closing.p50 = centsOf day.closing.p50 - cum.p50Cents
  p90 : centsOf row.closing.p90 = centsOf day.closing.p50 - cum.p10Cents

theorem loweredBy_of_lowerDay (lowered : lowerDay currency day cum = some row) :
    LoweredBy cum day row := by
  obtain ⟨p10, low, lowered⟩ := Option.bind_eq_some_iff.mp lowered
  obtain ⟨p50, middle, lowered⟩ := Option.bind_eq_some_iff.mp lowered
  obtain ⟨p90, high, lowered⟩ := Option.bind_eq_some_iff.mp lowered
  obtain rfl := Option.some.inj lowered
  obtain ⟨lowInside, rfl⟩ := checkedI64_eq_some.mp low
  obtain ⟨middleInside, rfl⟩ := checkedI64_eq_some.mp middle
  obtain ⟨highInside, rfl⟩ := checkedI64_eq_some.mp high
  exact ⟨rfl, rfl, toInt_ofInt lowInside, toInt_ofInt middleInside, toInt_ofInt highInside⟩

theorem lowerDays_cons {day : DailyBalance} {rest : List DailyBalance}
    (lowered : lowerDays model adjustments currency cum (day :: rest) = some out) :
    ∃ row later, out = row :: later ∧
      LoweredBy (cum.withDay model adjustments day.date) day row ∧
      lowerDays model adjustments currency (cum.withDay model adjustments day.date) rest =
        some later := by
  rw [lowerDays] at lowered
  simp only [Option.bind_eq_bind, Option.bind_eq_some_iff] at lowered
  obtain ⟨next, added, row, first, later, others, same⟩ := lowered
  obtain rfl := eq_of_addCategories added
  exact ⟨row, later, (Option.some.inj same).symm, loweredBy_of_lowerDay first, others⟩

/-- A row keeps its day's date and events, is ordered, and is not above the line of its day. -/
structure UnderLine (day row : DailyBalance) : Prop where
  date : row.date = day.date
  events : row.events = day.events
  ordered : row.closing.Ordered
  p50 : centsOf row.closing.p50 ≤ centsOf day.closing.p50
  p90 : centsOf row.closing.p90 ≤ centsOf day.closing.p50

theorem LoweredBy.underLine (lowered : LoweredBy cum day row) (spent : cum.Spent) :
    UnderLine day row := by
  obtain ⟨nonnegative, low, high⟩ := spent
  have p10 := lowered.p10
  have p50 := lowered.p50
  have p90 := lowered.p90
  exact ⟨lowered.date, lowered.events, ⟨by omega, by omega⟩, by omega, by omega⟩

theorem LoweredBy.width (lowered : LoweredBy cum day row) : row.closing.width = cum.width := by
  have p10 := lowered.p10
  have p90 := lowered.p90
  unfold Band.width SpendBand.width
  omega

theorem underLine_of_lowerDays (ordered : model.Ordered) (spent : cum.Spent)
    (lowered : lowerDays model adjustments currency cum series = some out) :
    List.Forall₂ UnderLine series out := by
  induction series generalizing cum out with
  | nil =>
    obtain rfl := Option.some.inj lowered
    exact .nil
  | cons day rest inductionHypothesis =>
    obtain ⟨row, later, rfl, first, others⟩ := lowerDays_cons lowered
    have next := spent.withDay ordered adjustments day.date
    exact .cons (first.underLine next) (inductionHypothesis next others)

theorem widths_of_lowerDays (ordered : model.Ordered)
    (lowered : lowerDays model adjustments currency cum series = some out) :
    (∀ row ∈ out, cum.width ≤ row.closing.width) ∧
      out.Pairwise fun first second => first.closing.width ≤ second.closing.width := by
  induction series generalizing cum out with
  | nil =>
    obtain rfl := Option.some.inj lowered
    exact ⟨fun _ member => (nomatch member), .nil⟩
  | cons day rest inductionHypothesis =>
    obtain ⟨row, later, rfl, first, others⟩ := lowerDays_cons lowered
    obtain ⟨wider, ascends⟩ := inductionHypothesis others
    have grown := @width_le_withDay model ordered cum adjustments day.date
    refine ⟨fun other member => ?_, List.pairwise_cons.mpr ⟨fun other member => ?_, ascends⟩⟩
    · rcases List.mem_cons.mp member with rfl | behind
      · exact grown.trans first.width.ge
      · exact grown.trans (wider other behind)
    · exact first.width.le.trans (wider other member)

/-- A row is at least as high as another at every percentile. -/
def AtLeast (row better : DailyBalance) : Prop :=
  centsOf row.closing.p10 ≤ centsOf better.closing.p10 ∧
    centsOf row.closing.p50 ≤ centsOf better.closing.p50 ∧
    centsOf row.closing.p90 ≤ centsOf better.closing.p90

theorem atLeast_of_lowered {lowered : List SpendAdjustment} {less : SpendBand}
    {better : List DailyBalance} (lower : Lowered lowered adjustments)
    (low : less.p10Cents ≤ cum.p10Cents) (middle : less.p50Cents ≤ cum.p50Cents)
    (high : less.p90Cents ≤ cum.p90Cents)
    (computed : lowerDays model adjustments currency cum series = some out)
    (recomputed : lowerDays model lowered currency less series = some better) :
    List.Forall₂ AtLeast out better := by
  induction series generalizing cum less out better with
  | nil =>
    obtain rfl := Option.some.inj computed
    obtain rfl := Option.some.inj recomputed
    exact .nil
  | cons day rest inductionHypothesis =>
    obtain ⟨row, later, rfl, first, others⟩ := lowerDays_cons computed
    obtain ⟨betterRow, betterLater, rfl, betterFirst, betterOthers⟩ := lowerDays_cons recomputed
    have draws := drawOn_le_of_lowered lower model day.date
    have nextLow := Int.add_le_add low (draws SpendBand.p10Cents)
    have nextMiddle := Int.add_le_add middle (draws SpendBand.p50Cents)
    have nextHigh := Int.add_le_add high (draws SpendBand.p90Cents)
    refine .cons ⟨?_, ?_, ?_⟩ (inductionHypothesis nextLow nextMiddle nextHigh others betterOthers)
    · rw [first.p10, betterFirst.p10]
      exact Int.sub_le_sub_left nextHigh _
    · rw [first.p50, betterFirst.p50]
      exact Int.sub_le_sub_left nextMiddle _
    · rw [first.p90, betterFirst.p90]
      exact Int.sub_le_sub_left nextLow _

end Rows

/-! ### Lumps -/

section Lumps

variable {lumps : List LumpInjection} {series wide : List DailyBalance}

/-- What the lumps up to a date come to. -/
def spreadOn (lumps : List LumpInjection) (date : NaiveDate) : Int :=
  ((lumps.filter fun lump => lump.date ≤ date).map LumpInjection.halfWidthCents).sum

theorem spreadOn_mono (nonnegative : ∀ lump ∈ lumps, 0 ≤ lump.halfWidthCents)
    {earlier later : NaiveDate} (ordered : earlier ≤ later) :
    spreadOn lumps earlier ≤ spreadOn lumps later := by
  unfold spreadOn
  induction lumps with
  | nil => exact le_rfl
  | cons lump rest inductionHypothesis =>
    have others := inductionHypothesis fun other member =>
      nonnegative other (List.mem_cons_of_mem _ member)
    have own := nonnegative lump List.mem_cons_self
    by_cases early : lump.date ≤ earlier
    · have late := early.trans ordered
      rw [List.filter_cons_of_pos (by simpa using early), List.filter_cons_of_pos (by simpa using late)]
      exact Int.add_le_add_left others _
    · rw [List.filter_cons_of_neg (by simpa using early), List.filter_cons]
      split
      · exact others.trans (le_add_of_nonneg_left own)
      · exact others

theorem spreadOn_nonneg (nonnegative : ∀ lump ∈ lumps, 0 ≤ lump.halfWidthCents) (date : NaiveDate) :
    0 ≤ spreadOn lumps date := by
  refine List.sum_nonneg fun width member => ?_
  obtain ⟨lump, kept, rfl⟩ := List.mem_map.mp member
  exact nonnegative lump (List.mem_of_mem_filter kept)

/-- A row is its day, wider by so much on both sides. -/
structure WidenedBy (spread : Int) (day row : DailyBalance) : Prop where
  date : row.date = day.date
  events : row.events = day.events
  p10 : centsOf row.closing.p10 = centsOf day.closing.p10 - spread
  p50 : row.closing.p50 = day.closing.p50
  p90 : centsOf row.closing.p90 = centsOf day.closing.p90 + spread

theorem widenedBy_zero (day : DailyBalance) : WidenedBy 0 day day :=
  ⟨rfl, rfl, (Int.sub_zero _).symm, rfl, (Int.add_zero _).symm⟩

theorem widenedBy_of_widenDay {day row : DailyBalance} (widened : widenDay lumps day = some row) :
    WidenedBy (spreadOn lumps day.date) day row := by
  unfold widenDay at widened
  simp only [Option.bind_eq_bind, Option.bind_eq_some_iff] at widened
  obtain ⟨cum, summed, widened⟩ := widened
  have spread : spreadOn lumps day.date = cum := by
    rw [eq_of_checkedSum summed, Int.zero_add]
    rfl
  rw [spread]
  by_cases nothing : cum = 0
  · rw [if_pos nothing] at widened
    obtain rfl := Option.some.inj widened
    rw [nothing]
    exact widenedBy_zero day
  · rw [if_neg nothing] at widened
    simp only [Option.bind_eq_some_iff] at widened
    obtain ⟨p10, low, p90, high, same⟩ := widened
    obtain rfl := Option.some.inj same
    obtain ⟨lowInside, rfl⟩ := checkedI64_eq_some.mp low
    obtain ⟨highInside, rfl⟩ := checkedI64_eq_some.mp high
    exact ⟨rfl, rfl, toInt_ofInt lowInside, rfl, toInt_ofInt highInside⟩

theorem widenedBy_of_widenWithLumps (widened : widenWithLumps series lumps = some wide) :
    List.Forall₂ (fun day row => WidenedBy (spreadOn lumps day.date) day row) series wide := by
  unfold widenWithLumps at widened
  split_ifs at widened with nothing
  · obtain rfl := Option.some.inj widened
    refine List.forall₂_same.mpr fun day _ => ?_
    have spread : spreadOn lumps day.date = 0 := by
      refine List.sum_eq_zero fun width member => ?_
      obtain ⟨lump, kept, rfl⟩ := List.mem_map.mp member
      simpa using List.all_eq_true.mp nothing lump (List.mem_of_mem_filter kept)
    rw [spread]
    exact widenedBy_zero day
  · induction series generalizing wide with
    | nil =>
      obtain rfl := Option.some.inj widened
      exact .nil
    | cons day rest inductionHypothesis =>
      simp only [List.mapM_cons, Option.bind_eq_bind, Option.bind_eq_some_iff] at widened
      obtain ⟨row, first, later, others, same⟩ := widened
      obtain rfl := Option.some.inj same
      exact .cons (widenedBy_of_widenDay first) (inductionHypothesis others)

/-- A row keeps the date, the events and the middle of its day, and is ordered. -/
structure AroundMiddle (day row : DailyBalance) : Prop where
  date : row.date = day.date
  events : row.events = day.events
  p50 : row.closing.p50 = day.closing.p50
  ordered : row.closing.Ordered

theorem WidenedBy.aroundMiddle {spread : Int} {day row : DailyBalance}
    (widened : WidenedBy spread day row) (nonnegative : 0 ≤ spread)
    (ordered : day.closing.Ordered) : AroundMiddle day row := by
  obtain ⟨low, high⟩ := ordered
  have p10 := widened.p10
  have p50 := congrArg centsOf widened.p50
  have p90 := widened.p90
  exact ⟨widened.date, widened.events, widened.p50, by omega, by omega⟩

theorem widths_of_widenWithLumps (nonnegative : ∀ lump ∈ lumps, 0 ≤ lump.halfWidthCents)
    (ascends : series.Pairwise fun first second => first.date < second.date)
    (widths : series.Pairwise fun first second => first.closing.width ≤ second.closing.width)
    (widened : widenWithLumps series lumps = some wide) :
    wide.Pairwise fun first second => first.closing.width ≤ second.closing.width := by
  refine pairwise_of_forall₂ (widenedBy_of_widenWithLumps widened)
    (fun first second row another pair otherPair ordered => ?_) (ascends.and widths)
  have spread := spreadOn_mono nonnegative ordered.1.le
  have width := ordered.2
  have low := pair.p10
  have high := pair.p90
  have otherLow := otherPair.p10
  have otherHigh := otherPair.p90
  unfold Band.width at width ⊢
  omega

end Lumps

/-! ### The overlay as a whole -/

/-- Over a series of the first layer and a model of ordered bands, the overlay keeps dates and
events, every band is ordered and lies under its day's line, and the bands never narrow; lower plans
never lower a balance; and lumps on top keep the middle, the order and the widening. -/
theorem overlay_keeps_bands_ordered_and_widening {model : SpendModel}
    {adjustments : List SpendAdjustment} {series out : List DailyBalance}
    (layer1 : Layer1Series series) (ordered : model.Ordered)
    (computed : widenWithSpendAdjusted series model adjustments = some out) :
    List.Forall₂ UnderLine series out ∧
      (out.Pairwise fun first second => first.closing.width ≤ second.closing.width) ∧
      (∀ lowered better, Lowered lowered adjustments →
        widenWithSpendAdjusted series model lowered = some better →
        List.Forall₂ AtLeast out better) ∧
      ∀ lumps wide, (∀ lump ∈ lumps, 0 ≤ lump.halfWidthCents) →
        widenWithLumps out lumps = some wide →
        List.Forall₂ AroundMiddle out wide ∧
          wide.Pairwise fun first second => first.closing.width ≤ second.closing.width := by
  cases series with
  | nil =>
    obtain rfl := Option.some.inj computed
    refine ⟨.nil, .nil, fun lowered better _ recomputed => ?_, fun lumps wide _ widened => ?_⟩
    · obtain rfl := Option.some.inj recomputed
      exact .nil
    · have rows := widenedBy_of_widenWithLumps widened
      cases rows
      exact ⟨.nil, .nil⟩
  | cons first rest =>
    have spent : (⟨0, 0, 0⟩ : SpendBand).Spent := ⟨le_rfl, le_rfl, le_rfl⟩
    have rows := underLine_of_lowerDays ordered spent computed
    have widths := (widths_of_lowerDays ordered computed).2
    have ascends : out.Pairwise fun first second => first.date < second.date := by
      refine pairwise_of_forall₂ rows (fun earlier later row another pair otherPair before => ?_)
        (List.pairwise_map.mp layer1.ascends)
      rw [pair.date, otherPair.date]
      exact before
    refine ⟨rows, widths, fun lowered better lower recomputed => ?_,
      fun lumps wide nonnegative widened => ⟨?_, ?_⟩⟩
    · exact atLeast_of_lowered lower le_rfl le_rfl le_rfl computed recomputed
    · have bands (row : DailyBalance) (member : row ∈ out) : row.closing.Ordered := by
        obtain ⟨day, -, pair⟩ := exists_of_mem_forall₂ rows member
        exact pair.ordered
      have pairs := (List.forall₂_and_left _ _).mpr ⟨bands, widenedBy_of_widenWithLumps widened⟩
      exact pairs.imp fun row wider both =>
        both.2.aroundMiddle (spreadOn_nonneg nonnegative row.date) both.1
    · exact widths_of_widenWithLumps nonnegative ascends widths widened

/-- Two days across the end of a month, one category and a plan to spend more than all of it less. -/
theorem overlay_keeps_bands_ordered_and_widening_of_a_plan :
    ∃ (model : SpendModel) (adjustments : List SpendAdjustment) (series out : List DailyBalance),
      List.Forall₂ UnderLine series out ∧
      (out.Pairwise fun first second => first.closing.width ≤ second.closing.width) ∧
      (∀ lowered better, Lowered lowered adjustments →
        widenWithSpendAdjusted series model lowered = some better →
        List.Forall₂ AtLeast out better) ∧
      ∀ lumps wide, (∀ lump ∈ lumps, 0 ≤ lump.halfWidthCents) →
        widenWithLumps out lumps = some wide →
        List.Forall₂ AroundMiddle out wide ∧
          wide.Pairwise fun first second => first.closing.width ≤ second.closing.width := by
  let first : NaiveDate := ⟨⟨12 * 2026 + 1, 28, by decide⟩, by decide⟩
  let second : NaiveDate := ⟨⟨12 * 2026 + 2, 1, by decide⟩, by decide⟩
  let series : List DailyBalance :=
    [⟨first, .point ⟨100000, .usd⟩, []⟩, ⟨second, .point ⟨100000, .usd⟩, []⟩]
  let model : SpendModel :=
    ⟨[(("dining", 2), ⟨-10, 200, 999⟩)], [("dining", ⟨100, 300, 800⟩)], by decide, by decide⟩
  let adjustments : List SpendAdjustment := [⟨"dining", -400, some second, none⟩]
  let out := (widenWithSpendAdjusted series model adjustments).getD []
  have layer1 : Layer1Series series := by
    refine ⟨by decide +kernel, fun day member => ?_, .usd, fun day member => ?_⟩
    · rcases List.mem_pair.mp member with rfl | rfl
      · exact ⟨_, rfl⟩
      · exact ⟨_, rfl⟩
    · rcases List.mem_pair.mp member with rfl | rfl
      · rfl
      · rfl
  have ordered : model.Ordered := by
    refine ⟨fun entry member => ?_, fun entry member => ?_⟩
    · obtain rfl := List.mem_singleton.mp member
      exact ⟨by decide, by decide⟩
    · obtain rfl := List.mem_singleton.mp member
      exact ⟨by decide, by decide⟩
  exact ⟨model, adjustments, series, out,
    overlay_keeps_bands_ordered_and_widening layer1 ordered (by decide +kernel)⟩

end Dohflow.ForecastEngine
