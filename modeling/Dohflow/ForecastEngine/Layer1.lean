/-
This file models the first layer of the cash forecast.

Dated, signed events are folded over a starting balance into one row for every day
of a window: the closing balance, as a band of three equal values, and the events
that moved it. The events in the window are put into one order first, and a cursor
goes through them as the days pass. Which day an instant is in a time zone is not
the engine's to say, so it is a parameter here.
-/

import Dohflow.CoreLedger.Transactions
import Dohflow.Foundation.CanonicalOrder
import Dohflow.PaySchedule.Schedule

namespace Dohflow.ForecastEngine

open Calendar CanonicalOrder CoreLedger PayDates
open SyncCore (Uuid)

/-! ### Events -/

/-- What kind of cash event this is. -/
inductive EventKind
  | income
  | recurringBill
  | loanPayment
  | transfer
  | manualOneOff
  deriving DecidableEq

/-- The rank among the events of one day; the lower applies first. -/
def EventKind.priority : EventKind → Nat
  | .income => 0
  | .recurringBill | .loanPayment => 1
  | .transfer => 2
  | .manualOneOff => 3

/-- Why an event is in the forecast. -/
inductive AssumptionBasis
  | recurringSchedule (frequency : Frequency)
  | manualOneOff
  deriving DecidableEq

/-- A dated cash event to fold into the forecast; an outflow is negative. -/
structure ForecastEvent where
  occursOn : NaiveDate
  kind : EventKind
  amount : Money
  sourceEventId : Uuid
  assumptionBasis : AssumptionBasis
  deriving DecidableEq

/-- An event as a row records it. -/
structure DayEvent where
  sourceEventId : Uuid
  kind : EventKind
  amount : Money
  assumptionBasis : AssumptionBasis
  deriving DecidableEq

def ForecastEvent.toDayEvent (event : ForecastEvent) : DayEvent where
  sourceEventId := event.sourceEventId
  kind := event.kind
  amount := event.amount
  assumptionBasis := event.assumptionBasis

/-- What the canonical order compares: the day, the rank in it, the source and the amount. -/
def ForecastEvent.canonicalKey (event : ForecastEvent) : NaiveDate ×ₗ ℕ ×ₗ List ℕ ×ₗ Int :=
  toLex (event.occursOn, toLex (event.kind.priority,
    toLex (byteKey event.sourceEventId.val, event.amount.minorUnits.toInt)))

/-! ### The window -/

/-- The instant a forecast is computed as of, and how many days it runs. -/
structure Horizon (Instant : Type) where
  asOf : Instant
  days : Nat

/-- The last date the date type holds. -/
def maxDate : NaiveDate := ⟨⟨12 * maxYear + 11, 31, by decide⟩, by decide⟩

variable {Instant Tz : Type} (dateNaive : Tz → Instant → NaiveDate)

/-- The first and the last local date of a horizon. -/
def Horizon.window (horizon : Horizon Instant) (tz : Tz) : Option (NaiveDate × NaiveDate) :=
  if horizon.days = 0 then none
  else
    let start := dateNaive tz horizon.asOf
    some (start, (checkedAddDays start (horizon.days - 1)).getD maxDate)

/-! ### Rows -/

/-- A projected balance in three percentiles. -/
structure Band where
  p10 : Money
  p50 : Money
  p90 : Money
  deriving DecidableEq

/-- A band of three equal values. -/
def Band.point (value : Money) : Band := ⟨value, value, value⟩

/-- One day of the forecast. -/
structure DailyBalance where
  date : NaiveDate
  closing : Band
  events : List DayEvent
  deriving DecidableEq

/-- Why a forecast could not be computed. -/
inductive ForecastError
  | currencyMismatch (expected found : Currency)
  | overflow

def ForecastError.ofMoneyError : MoneyError → ForecastError
  | .currencyMismatch left right => .currencyMismatch left right
  | _ => .overflow

/-! ### The fold -/

def ForecastEvent.InWindow (start stop : NaiveDate) (event : ForecastEvent) : Prop :=
  start ≤ event.occursOn ∧ event.occursOn ≤ stop

instance (start stop : NaiveDate) (event : ForecastEvent) : Decidable (event.InWindow start stop) :=
  inferInstanceAs (Decidable (_ ∧ _))

/-- The events inside the window, all of them in the currency of the forecast. -/
def scheduled (start stop : NaiveDate) (currency : Currency) :
    List ForecastEvent → Except ForecastError (List ForecastEvent)
  | [] => .ok []
  | event :: rest =>
    if event.occursOn < start ∨ stop < event.occursOn then scheduled start stop currency rest
    else if event.amount.currency ≠ currency then
      .error (.currencyMismatch currency event.amount.currency)
    else do
      let later ← scheduled start stop currency rest
      return event :: later

/-- Apply the events at the cursor that land on a day. -/
def drainDay (day : NaiveDate) (running : Money) :
    List ForecastEvent → Except ForecastError (Money × List DayEvent × List ForecastEvent)
  | [] => .ok (running, [], [])
  | event :: rest =>
    if event.occursOn ≠ day then .ok (running, [], event :: rest)
    else do
      let running ← (running.checkedAdd event.amount).mapError .ofMoneyError
      let (running, applied, next) ← drainDay day running rest
      return (running, event.toDayEvent :: applied, next)

/-- Walk a number of days from a day on, one row for each. -/
def walkDays : Nat → NaiveDate → Money → List ForecastEvent →
    Except ForecastError (List DailyBalance)
  | 0, _, _, _ => .ok []
  | days + 1, day, running, next => do
    let (running, applied, next) ← drainDay day running next
    let row : DailyBalance := ⟨day, .point running, applied⟩
    match checkedAddDays day 1 with
    | some tomorrow => do
      let later ← walkDays days tomorrow running next
      return row :: later
    | none => return [row]

/-- Project the balance of every day of the horizon. -/
def forecastLayer1 (events : List ForecastEvent) (startingBalance : Money)
    (horizon : Horizon Instant) (tz : Tz) : Except ForecastError (List DailyBalance) :=
  match horizon.window dateNaive tz with
  | none => .ok []
  | some (start, stop) => do
    let inWindow ← scheduled start stop startingBalance.currency events
    walkDays horizon.days start startingBalance (sortBy ForecastEvent.canonicalKey inWindow)

end Dohflow.ForecastEngine
