/-
This file models the statistical overlay of the forecast.

A spend model has a band of monthly spend for every category it has learned, by the
month of the year or overall. The overlay takes a share of it from the balance every
day, shifted by what is planned for the category, and never less than nothing; high
spend makes for low cash, so the percentiles change places. Lumps widen the band by
so much on both sides from a date on. A sum that leaves the range is no result.
-/

import Dohflow.ForecastEngine.RunningSum

namespace Dohflow.ForecastEngine

open Calendar CoreLedger PayDates MachineIntegers

/-! ### The spend model -/

/-- A band of spend, in cents. -/
structure SpendBand where
  p10Cents : Int
  p50Cents : Int
  p90Cents : Int

/-- The monthly bands of the categories, for a month of the year and overall; a category has one of
each. -/
structure SpendModel where
  seasonal : List ((String × Nat) × SpendBand)
  overall : List (String × SpendBand)
  seasonalKeys : (seasonal.map Prod.fst).Nodup
  overallKeys : (overall.map Prod.fst).Nodup

namespace SpendModel

/-- The band of a category in a month, or else its overall band. -/
def band (model : SpendModel) (category : String) (calendarMonth : Nat) : Option SpendBand :=
  (model.seasonal.lookup (category, calendarMonth)).or (model.overall.lookup category)

def categories (model : SpendModel) : List String := model.overall.map Prod.fst

/-- What is spent on a category in a typical month. -/
def expectedMonthly (model : SpendModel) (category : String) : Option Int :=
  (model.overall.lookup category).map SpendBand.p50Cents

end SpendModel

/-- A planned change to the monthly spend of a category, between two dates if it has them. -/
structure SpendAdjustment where
  category : String
  deltaCentsPerMonth : Int
  start : Option NaiveDate
  stop : Option NaiveDate

def SpendAdjustment.covers (adjustment : SpendAdjustment) (date : NaiveDate) : Bool :=
  adjustment.start.all (fun start => start ≤ date) && adjustment.stop.all fun stop => date ≤ stop

/-! ### The overlay -/

/-- The number of days of a date's month; the one after the last month there is has no first. -/
def daysInMonthOf (date : NaiveDate) : Int :=
  let year := date.val.year
  let month := date.val.monthOfYear
  let first := fromYmd year month 1
  let next := if month = 12 then fromYmd (year + 1) 1 1 else fromYmd year (month + 1) 1
  match first, next with
  | some start, some stop => stop.val.dayNumber - start.val.dayNumber
  | _, _ => 30

/-- What is planned for a category on a day. -/
def plannedDeltas (adjustments : List SpendAdjustment) (category : String) (date : NaiveDate) :
    List Int :=
  (adjustments.filter fun adjustment =>
    adjustment.category = category ∧ adjustment.covers date).map
      SpendAdjustment.deltaCentsPerMonth

/-- The day's share of a month's spend, shifted and floored at nothing, on top of what there is. -/
def accumulate (days delta cum cents : Int) : Option Int := do
  let shifted ← checkedI64 (cents.tdiv days + delta)
  checkedI64 (cum + max shifted 0)

/-- The spend so far with a category's share of the day. -/
def addCategory (model : SpendModel) (adjustments : List SpendAdjustment) (date : NaiveDate)
    (cum : SpendBand) (category : String) : Option SpendBand :=
  match model.band category date.val.monthOfYear with
  | none => some cum
  | some band => do
    let days := max (daysInMonthOf date) 1
    let planned ← checkedSum 0 (plannedDeltas adjustments category date)
    let delta := planned.tdiv days
    let p10 ← accumulate days delta cum.p10Cents band.p10Cents
    let p50 ← accumulate days delta cum.p50Cents band.p50Cents
    let p90 ← accumulate days delta cum.p90Cents band.p90Cents
    return ⟨p10, p50, p90⟩

/-- The row of a day, when so much has been spent up to it. -/
def lowerDay (currency : Currency) (day : DailyBalance) (cum : SpendBand) : Option DailyBalance := do
  let base := day.closing.p50.minorUnits.toInt
  let p10 ← checkedI64 (base - cum.p90Cents)
  let p50 ← checkedI64 (base - cum.p50Cents)
  let p90 ← checkedI64 (base - cum.p10Cents)
  return ⟨day.date, ⟨⟨.ofInt p10, currency⟩, ⟨.ofInt p50, currency⟩, ⟨.ofInt p90, currency⟩⟩,
    day.events⟩

/-- Lower the rows one after another, from a spend so far on. -/
def lowerDays (model : SpendModel) (adjustments : List SpendAdjustment) (currency : Currency) :
    SpendBand → List DailyBalance → Option (List DailyBalance)
  | _, [] => some []
  | cum, day :: rest => do
    let cum ← model.categories.foldlM (addCategory model adjustments day.date) cum
    let row ← lowerDay currency day cum
    let later ← lowerDays model adjustments currency cum rest
    return row :: later

/-- Widen a series into bands by the spend that a model projects. -/
def widenWithSpendAdjusted (layer1 : List DailyBalance) (model : SpendModel)
    (adjustments : List SpendAdjustment) : Option (List DailyBalance) :=
  match layer1 with
  | [] => some []
  | first :: _ => lowerDays model adjustments first.closing.p50.currency ⟨0, 0, 0⟩ layer1

/-! ### Lumps -/

/-- A discrete uncertainty at a date, by its one-sided spread. -/
structure LumpInjection where
  date : NaiveDate
  halfWidthCents : Int

/-- The row of a day, wider by the lumps up to it. -/
def widenDay (lumps : List LumpInjection) (day : DailyBalance) : Option DailyBalance := do
  let cum ← checkedSum 0
    ((lumps.filter fun lump => lump.date ≤ day.date).map LumpInjection.halfWidthCents)
  if cum = 0 then return day
  let currency := day.closing.p50.currency
  let p10 ← checkedI64 (day.closing.p10.minorUnits.toInt - cum)
  let p90 ← checkedI64 (day.closing.p90.minorUnits.toInt + cum)
  return ⟨day.date, ⟨⟨.ofInt p10, currency⟩, day.closing.p50, ⟨.ofInt p90, currency⟩⟩, day.events⟩

/-- Widen a series by lumps. -/
def widenWithLumps (series : List DailyBalance) (lumps : List LumpInjection) :
    Option (List DailyBalance) :=
  if lumps.all fun lump => lump.halfWidthCents = 0 then some series
  else series.mapM (widenDay lumps)

end Dohflow.ForecastEngine
