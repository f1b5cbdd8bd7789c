/-
This file models how assumption events override a bill or an income in a forecast, and
proves which event decides.

The active events with a target that are of the base or of a selected scenario are read
in the order in which they were made, put in the order of the selection with the base in
front, and folded into one entry for each target. An amount is kept with its window, and
the last window that covers a date gives the amount there; of the anchor and of the
exclusion the last one stands. So what decides is always the greatest event that says
anything, and the order in which the rows come does not.
-/

import Dohflow.DbWorker.Assumptions
import Dohflow.Foundation.CanonicalOrder
import Dohflow.Foundation.LastWins
import Dohflow.PaySchedule.Schedule

namespace Dohflow.DbWorker

open SyncCore CanonicalOrder LastWins

/-! ### Overrides -/

/-- From which point an entity is excluded. -/
inductive ExcludeFrom
  | all
  | date (start : PayDates.NaiveDate)
  deriving DecidableEq

/-- An amount for the dates of a window, either end of which may be open. -/
structure AmountSegment where
  start : Option PayDates.NaiveDate
  stop : Option PayDates.NaiveDate
  amountMinor : Int
  /-- The place of its event among all. -/
  seq : Nat

/-- Whether a window, either end of which may be open, has a date in it. -/
def coversDate (start stop : Option PayDates.NaiveDate) (date : PayDates.NaiveDate) : Bool :=
  start.all (fun start => start ≤ date) && stop.all fun stop => date ≤ stop

def AmountSegment.covers (segment : AmountSegment) (date : PayDates.NaiveDate) : Bool :=
  coversDate segment.start segment.stop date

/-- What the events of one entity override. -/
structure EntityOverride where
  amountSegments : List AmountSegment
  newAnchor : Option PayDates.NaiveDate
  exclude : Option ExcludeFrom

namespace EntityOverride

/-- `EntityOverride::default` -/
def unset : EntityOverride := ⟨[], none, none⟩

def anchorOr (entry : EntityOverride) (base : PayDates.NaiveDate) : PayDates.NaiveDate :=
  entry.newAnchor.getD base

def fullyExcluded (entry : EntityOverride) : Bool := entry.exclude = some .all

/-- `max_by_key` on the place: the last of the segments with the greatest one. -/
def latest (segments : List AmountSegment) : Option AmountSegment :=
  segments.foldl (fun held segment =>
    if held.all fun best => best.seq ≤ segment.seq then some segment else held) none

/-- The amount of the latest segment that covers a date, whether the date is excluded or not. -/
def amountOn (entry : EntityOverride) (date : PayDates.NaiveDate) : Option Int :=
  (latest (entry.amountSegments.filter fun segment => segment.covers date)).map
    AmountSegment.amountMinor

/-- The amount for an occurrence on a date; none when the occurrence is excluded. -/
def amountFor (entry : EntityOverride) (date : PayDates.NaiveDate) (baseMinor : Int) : Option Int :=
  match entry.exclude with
  | some (.date start) => if start ≤ date then none else some ((entry.amountOn date).getD baseMinor)
  | some .all => none
  | none => some ((entry.amountOn date).getD baseMinor)

end EntityOverride

/-! ### Reading the parameters of an event -/

/-- A JSON value as it is looked into: the integer and the string under a key, if there is one. -/
structure ParamsValue where
  asI64 : String → Option Int
  asStr : String → Option String

/-- The JSON parser and the parser of a `%Y-%m-%d` date, each with its own error text. -/
structure OverrideLibraries where
  fromStr : String → Except String ParamsValue
  parseFromStr : String → Except String PayDates.NaiveDate

/-- Why the overrides cannot be read. -/
inductive OverrideError
  /-- `bad override params: {e}` -/
  | badParams (error : String)
  /-- `bad override {key} {raw:?}: {e}` -/
  | badDate (key raw error : String)

variable (libraries : OverrideLibraries)

def readParams (paramsJson : String) : Except OverrideError ParamsValue :=
  (libraries.fromStr paramsJson).mapError .badParams

/-- A date under a key; none when there is no text, and an error when it is no date. -/
def parseOptDate (value : ParamsValue) (key : String) :
    Except OverrideError (Option PayDates.NaiveDate) :=
  match value.asStr key with
  | some raw => ((libraries.parseFromStr raw).map some).mapError (.badDate key raw)
  | none => .ok none

/-- The entry of an entity after an event in some place. -/
def overrideWith (entry : EntityOverride) (row : EventRow) (seq : Nat) :
    Except OverrideError EntityOverride := do
  let value ← readParams libraries row.paramsJson
  match row.key.kind with
  | .billAmount | .incomeAmount =>
    match value.asI64 "new_amount_minor" with
    | some amount => do
      let start ← parseOptDate libraries value "effective_date"
      let stop ← parseOptDate libraries value "end_date"
      return { entry with amountSegments := entry.amountSegments ++ [⟨start, stop, amount, seq⟩] }
    | none => return entry
  | .billDate | .incomeDate => do
    match ← parseOptDate libraries value "new_anchor_date" with
    | some anchor => return { entry with newAnchor := some anchor }
    | none => return entry
  | .exclusion => do
    match ← parseOptDate libraries value "effective_date" with
    | some date => return { entry with exclude := some (.date date) }
    | none => return { entry with exclude := some .all }
  | _ => return entry

/-! ### Composing the events -/

/-- A map from entities to their overrides. -/
abbrev OverrideMap := Uuid → Option EntityOverride

/-- The rank of a row's scenario: the base below the selected scenarios, in their order. -/
def rankOf (scenarios : List Uuid) : Option Uuid → Option Nat
  | none => some 0
  | some scenario => (scenarios.idxOf? scenario).map (· + 1)

/-- The rows that the query reads. -/
def Selected (scenarios : List Uuid) (row : EventRow) : Prop :=
  row.status = .active ∧ row.key.targetEntityId.isSome = true ∧
    row.scenarioId.all (fun scenario => scenario ∈ scenarios) = true

instance decidableSelected (scenarios : List Uuid) : DecidablePred (Selected scenarios) :=
  fun _ => inferInstanceAs (Decidable (_ ∧ _))

/-- `ORDER BY created_at, id` -/
def createdKey (row : EventRow) : List ℕ ×ₗ List ℕ :=
  toLex (byteKey (utf8 row.createdAt), byteKey row.id.toList)

def queried (rows : List EventRow) (scenarios : List Uuid) : List EventRow :=
  sortBy createdKey (rows.filter fun row => Selected scenarios row)

/-- The rows that were read, each with its rank and its arrival, in the order of both. -/
def pending (rows : List EventRow) (scenarios : List Uuid) : List (ℕ × ℕ × EventRow) :=
  sortBy (fun entry => toLex (entry.1, entry.2.1))
    (((queried rows scenarios).filterMap fun row =>
      (rankOf scenarios row.scenarioId).map fun rank => (rank, row)).zipIdx.map
        fun found => (found.1.1, found.2, found.1.2))

/-- Fold an event into the entry of its target. -/
def composeRow (map : OverrideMap) (step : EventRow × Nat) : Except OverrideError OverrideMap :=
  match step.1.key.targetEntityId with
  | none => .ok map
  | some target => do
    let entry ← overrideWith libraries ((map target).getD .unset) step.1 step.2
    return Function.update map target (some entry)

/-- The overrides of all entities, from the active events of the base and of the selection. -/
def entityOverrides (rows : List EventRow) (scenarios : List Uuid) :
    Except OverrideError OverrideMap :=
  ((pending rows scenarios).map fun entry => entry.2.2).zipIdx.foldlM (composeRow libraries)
    fun _ => none

/-! ### What an event says -/

/-- The parameters of an event, where they can be read. -/
def paramsOf (row : EventRow) : Option ParamsValue := (libraries.fromStr row.paramsJson).toOption

/-- The date under a key, where there is one. -/
def dateUnder (value : ParamsValue) (key : String) : Option PayDates.NaiveDate :=
  (value.asStr key).bind fun raw => (libraries.parseFromStr raw).toOption

/-- The anchor that an event gives an entity. -/
def anchorValue (entity : Uuid) (row : EventRow) : Option PayDates.NaiveDate :=
  if row.key.targetEntityId = some entity ∧ (row.key.kind = .billDate ∨ row.key.kind = .incomeDate)
  then (paramsOf libraries row).bind fun value => dateUnder libraries value "new_anchor_date"
  else none

/-- The exclusion that an event gives an entity. -/
def exclusionValue (entity : Uuid) (row : EventRow) : Option ExcludeFrom :=
  if row.key.targetEntityId = some entity ∧ row.key.kind = .exclusion then
    (paramsOf libraries row).map fun value =>
      ((dateUnder libraries value "effective_date").map ExcludeFrom.date).getD .all
  else none

/-- The amount that an event gives an entity on a date. -/
def amountValue (entity : Uuid) (date : PayDates.NaiveDate) (row : EventRow) : Option Int :=
  if row.key.targetEntityId = some entity ∧
      (row.key.kind = .billAmount ∨ row.key.kind = .incomeAmount) then
    (paramsOf libraries row).bind fun value =>
      (value.asI64 "new_amount_minor").filter fun _ =>
        coversDate (dateUnder libraries value "effective_date")
          (dateUnder libraries value "end_date") date
  else none

/-- The rank of an event: its scenario's place in the selection, then when it was made, and its
id. -/
def precedence (scenarios : List Uuid) (row : EventRow) : ℕ ×ₗ List ℕ ×ₗ List ℕ :=
  toLex ((rankOf scenarios row.scenarioId).getD 0, createdKey row)

/-! ### The order of the fold -/

theorem rankOf_selected {scenarios : List Uuid} {row : EventRow}
    (selected : Selected scenarios row) :
    rankOf scenarios row.scenarioId = some ((rankOf scenarios row.scenarioId).getD 0) := by
  have inside := selected.2.2
  cases found : row.scenarioId with
  | none => rfl
  | some scenario =>
    rw [found, Option.all_some, decide_eq_true_eq] at inside
    have held : (scenarios.idxOf? scenario).isSome = true := List.isSome_idxOf?.mpr inside
    obtain ⟨index, place⟩ := Option.isSome_iff_exists.mp held
    show (scenarios.idxOf? scenario).map (· + 1) =
      some (((scenarios.idxOf? scenario).map (· + 1)).getD 0)
    rw [place]
    rfl

/-- The events in the order in which they are folded. -/
def ordered (rows : List EventRow) (scenarios : List Uuid) : List EventRow :=
  (pending rows scenarios).map fun entry => entry.2.2

variable {rows : List EventRow} {scenarios : List Uuid}
variable {row : EventRow} {entity : Uuid} {entry : EntityOverride} {table : EventTable}
  {map : OverrideMap}

theorem mem_queried : row ∈ queried rows scenarios ↔ row ∈ rows ∧ Selected scenarios row := by
  unfold queried
  rw [mem_sortBy, List.mem_filter, decide_eq_true_eq]

theorem ranked_queried :
    (queried rows scenarios).filterMap (fun row =>
      (rankOf scenarios row.scenarioId).map fun rank => (rank, row)) =
      (queried rows scenarios).map fun row =>
        ((rankOf scenarios row.scenarioId).getD 0, row) := by
  rw [← List.filterMap_eq_map]
  refine List.filterMap_congr fun row member => ?_
  rw [rankOf_selected (mem_queried.mp member).2]
  rfl

theorem ordered_perm :
    (ordered rows scenarios).Perm (rows.filter fun row => Selected scenarios row) := by
  have arrived : (((queried rows scenarios).map fun row =>
      ((rankOf scenarios row.scenarioId).getD 0, row)).zipIdx.map
        fun found => (found.1.1, found.2, found.1.2)).map (fun entry => entry.2.2) =
      queried rows scenarios := by
    rw [List.map_map]
    refine (List.map_map (g := Prod.snd) (f := Prod.fst)).symm.trans ?_
    rw [List.zipIdx_map_fst, List.map_map]
    exact List.map_id _
  have sorted (entries : List (ℕ × ℕ × EventRow)) :
      (sortBy (fun entry => toLex (entry.1, entry.2.1)) entries).Perm entries := sortBy_perm entries
  have read := (sorted (((queried rows scenarios).map fun row =>
      ((rankOf scenarios row.scenarioId).getD 0, row)).zipIdx.map
        fun found => (found.1.1, found.2, found.1.2))).map fun entry => entry.2.2
  rw [arrived] at read
  unfold ordered pending
  rw [ranked_queried]
  exact read.trans (sortBy_perm _)

/-- The events are folded in the order of their precedence. -/
theorem ordered_ascends : (ordered rows scenarios).Pairwise fun first second =>
    precedence scenarios first ≤ precedence scenarios second := by
  have entries : ∀ entry ∈ pending rows scenarios,
      entry.1 = (rankOf scenarios entry.2.2.scenarioId).getD 0 ∧
        (queried rows scenarios)[entry.2.1]? = some entry.2.2 := by
    intro entry member
    unfold pending at member
    rw [ranked_queried, mem_sortBy] at member
    obtain ⟨found, arrived, rfl⟩ := List.mem_map.mp member
    have place := List.mem_zipIdx_iff_getElem?.mp arrived
    rw [List.getElem?_map] at place
    obtain ⟨row, held, same⟩ := Option.map_eq_some_iff.mp place
    rw [← same]
    exact ⟨rfl, held⟩
  have created : (queried rows scenarios).Pairwise fun first second =>
      createdKey first ≤ createdKey second := sortBy_ascends _
  have sorted : (pending rows scenarios).Pairwise fun first second =>
      toLex (first.1, first.2.1) ≤ toLex (second.1, second.2.1) := sortBy_ascends _
  unfold ordered
  rw [List.pairwise_map]
  refine sorted.imp_of_mem fun {first second} firstIn secondIn before => ?_
  obtain ⟨firstRank, firstPlace⟩ := entries first firstIn
  obtain ⟨secondRank, secondPlace⟩ := entries second secondIn
  unfold precedence
  rw [← firstRank, ← secondRank, Prod.Lex.toLex_le_toLex]
  rcases Prod.Lex.toLex_le_toLex.mp before with lower | ⟨same, arrived⟩
  · exact .inl lower
  · refine .inr ⟨same, ?_⟩
    obtain ⟨firstBound, firstAt⟩ := List.getElem?_eq_some_iff.mp firstPlace
    obtain ⟨secondBound, secondAt⟩ := List.getElem?_eq_some_iff.mp secondPlace
    dsimp only at arrived ⊢
    rcases Nat.lt_or_eq_of_le arrived with earlier | equal
    · rw [← firstAt, ← secondAt]
      exact List.pairwise_iff_getElem.mp created _ _ firstBound secondBound earlier
    · have one : first.2.2 = second.2.2 := by
        rw [← firstAt, ← secondAt]
        simp only [equal]
      rw [one]

/-! ### The fold -/

theorem toOption_eq_some {Failure Value : Type} {attempt : Except Failure Value} {value : Value}
    (passed : attempt = .ok value) : attempt.toOption = some value := by
  rw [passed]
  rfl

theorem dateUnder_of_parse {value : ParamsValue} {key : String}
    {date : Option PayDates.NaiveDate} (parsed : parseOptDate libraries value key = .ok date) :
    dateUnder libraries value key = date := by
  unfold parseOptDate at parsed
  unfold dateUnder
  cases text : value.asStr key with
  | none =>
    rw [text] at parsed
    exact Except.ok.inj parsed
  | some raw =>
    rw [text] at parsed
    dsimp only at parsed
    cases read : libraries.parseFromStr raw with
    | error failure =>
      rw [read] at parsed
      cases parsed
    | ok found =>
      rw [read] at parsed
      rw [Option.bind_some, read]
      exact Except.ok.inj parsed

/-- What an event adds to the entry of its entity: its anchor and its exclusion in place of those
there are, and its amount behind the others. -/
structure Overridden (row : EventRow) (seq : Nat) (entity : Uuid)
    (before after : EntityOverride) : Prop where
  anchor : after.newAnchor = (anchorValue libraries entity row).or before.newAnchor
  exclusion : after.exclude = (exclusionValue libraries entity row).or before.exclude
  amounts : ∃ added, after.amountSegments = before.amountSegments ++ added ∧
    (∀ segment ∈ added, segment.seq = seq) ∧
    ∀ date, ((added.filter fun segment => segment.covers date).map AmountSegment.amountMinor) =
      (amountValue libraries entity date row).toList

theorem overridden_of_overrideWith {entry after : EntityOverride} {seq : Nat}
    (target : row.key.targetEntityId = some entity)
    (read : overrideWith libraries entry row seq = .ok after) :
    Overridden libraries row seq entity entry after := by
  obtain ⟨value, parsed, rest⟩ := Fallible.bind_eq_ok.mp read
  have params : paramsOf libraries row = some value :=
    toOption_eq_some (Fallible.mapError_eq_ok.mp parsed)
  have unchanged (other : after = entry) (noAnchor : anchorValue libraries entity row = none)
      (noExclusion : exclusionValue libraries entity row = none)
      (noAmount : ∀ date, amountValue libraries entity date row = none) :
      Overridden libraries row seq entity entry after := by
    subst other
    refine ⟨by rw [noAnchor]; rfl, by rw [noExclusion]; rfl, [], (List.append_nil _).symm,
      List.forall_mem_nil _, fun date => ?_⟩
    rw [noAmount]
    rfl
  cases kind : row.key.kind with
  | billAmount | incomeAmount =>
    have noAnchor : anchorValue libraries entity row = none := by
      unfold anchorValue
      rw [kind]
      exact if_neg (by simp)
    have noExclusion : exclusionValue libraries entity row = none := by
      unfold exclusionValue
      rw [kind]
      exact if_neg (by simp)
    have amounts (date : PayDates.NaiveDate) : amountValue libraries entity date row =
        (value.asI64 "new_amount_minor").filter fun _ =>
          coversDate (dateUnder libraries value "effective_date")
            (dateUnder libraries value "end_date") date := by
      unfold amountValue
      rw [kind, params]
      exact if_pos ⟨target, by simp⟩
    rw [kind] at rest
    dsimp only at rest
    cases amount : value.asI64 "new_amount_minor" with
    | none =>
      rw [amount] at rest
      refine unchanged (Except.ok.inj rest).symm noAnchor noExclusion fun date => ?_
      rw [amounts, amount]
      rfl
    | some minor =>
      rw [amount] at rest
      obtain ⟨start, first, rest⟩ := Fallible.bind_eq_ok.mp rest
      obtain ⟨stop, second, rest⟩ := Fallible.bind_eq_ok.mp rest
      obtain rfl := Except.ok.inj rest
      refine ⟨by rw [noAnchor]; rfl, by rw [noExclusion]; rfl, [⟨start, stop, minor, seq⟩], rfl,
        List.forall_mem_singleton.mpr rfl, fun date => ?_⟩
      rw [amounts, amount, dateUnder_of_parse libraries first, dateUnder_of_parse libraries second]
      have covers : AmountSegment.covers ⟨start, stop, minor, seq⟩ date =
          coversDate start stop date := rfl
      cases covered : coversDate start stop date with
      | true | false =>
        rw [List.filter_cons, covers, covered]
        rfl
  | billDate | incomeDate =>
    have noExclusion : exclusionValue libraries entity row = none := by
      unfold exclusionValue
      rw [kind]
      exact if_neg (by simp)
    have noAmount (date : PayDates.NaiveDate) : amountValue libraries entity date row = none := by
      unfold amountValue
      rw [kind]
      exact if_neg (by simp)
    have anchors : anchorValue libraries entity row =
        dateUnder libraries value "new_anchor_date" := by
      unfold anchorValue
      rw [kind, params]
      exact if_pos ⟨target, by simp⟩
    rw [kind] at rest
    obtain ⟨anchor, first, rest⟩ := Fallible.bind_eq_ok.mp rest
    rw [dateUnder_of_parse libraries first] at anchors
    cases anchor with
    | none => exact unchanged (Except.ok.inj rest).symm anchors noExclusion noAmount
    | some date =>
      obtain rfl := Except.ok.inj rest
      refine ⟨by rw [anchors]; rfl, by rw [noExclusion]; rfl, [], (List.append_nil _).symm,
        List.forall_mem_nil _, fun date => ?_⟩
      rw [noAmount]
      rfl
  | exclusion =>
    have noAnchor : anchorValue libraries entity row = none := by
      unfold anchorValue
      rw [kind]
      exact if_neg (by simp)
    have noAmount (date : PayDates.NaiveDate) : amountValue libraries entity date row = none := by
      unfold amountValue
      rw [kind]
      exact if_neg (by simp)
    have exclusions : exclusionValue libraries entity row =
        some (((dateUnder libraries value "effective_date").map ExcludeFrom.date).getD .all) := by
      unfold exclusionValue
      rw [kind, params]
      exact if_pos ⟨target, rfl⟩
    rw [kind] at rest
    obtain ⟨start, first, rest⟩ := Fallible.bind_eq_ok.mp rest
    rw [dateUnder_of_parse libraries first] at exclusions
    cases start with
    | none | some date =>
      obtain rfl := Except.ok.inj rest
      refine ⟨by rw [noAnchor]; rfl, by rw [exclusions]; rfl, [], (List.append_nil _).symm,
        List.forall_mem_nil _, fun date => ?_⟩
      rw [noAmount]
      rfl
  | cardPaymentBehavior | minimumCashFloor | variableSpendOverride | oneTimeEvent | inflationRate |
      scenarioToggle | recurringDebtPayment =>
    rw [kind] at rest
    refine unchanged (Except.ok.inj rest).symm ?_ ?_ fun date => ?_
    · unfold anchorValue
      rw [kind]
      exact if_neg (by simp)
    · unfold exclusionValue
      rw [kind]
      exact if_neg (by simp)
    · unfold amountValue
      rw [kind]
      exact if_neg (by simp)

theorem latest_concat {segments : List AmountSegment} {last : AmountSegment}
    (behind : ∀ segment ∈ segments, segment.seq ≤ last.seq) :
    EntityOverride.latest (segments ++ [last]) = some last := by
  have member : ∀ best, EntityOverride.latest segments = some best → best ∈ segments := by
    intro best
    induction segments using List.reverseRecOn with
    | nil =>
      intro none
      cases none
    | append_singleton segments final inductionHypothesis =>
      unfold EntityOverride.latest
      rw [List.foldl_append]
      intro found
      dsimp only [List.foldl_cons, List.foldl_nil] at found
      split_ifs at found
      · exact List.mem_append_right _ (List.mem_singleton.mpr (Option.some.inj found).symm)
      · refine List.mem_append_left _ (inductionHypothesis (fun segment inside =>
          behind segment (List.mem_append_left _ inside)) found)
  have above : (EntityOverride.latest segments).all (fun best => best.seq ≤ last.seq) = true := by
    cases found : EntityOverride.latest segments with
    | none => rfl
    | some best => exact decide_eq_true (behind best (member best found))
  unfold EntityOverride.latest at above ⊢
  rw [List.foldl_append]
  exact if_pos above

/-- An entry is what the events say last: of the anchor, of the exclusion, and of the amount on
every date. -/
structure Composed (rows : List EventRow) (entity : Uuid) (entry : EntityOverride) : Prop where
  anchor : entry.newAnchor = lastValue (anchorValue libraries entity) rows
  exclusion : entry.exclude = lastValue (exclusionValue libraries entity) rows
  amounts : ∀ date, entry.amountOn date = lastValue (amountValue libraries entity date) rows
  places : ∀ segment ∈ entry.amountSegments, segment.seq < rows.length

theorem Composed.concat {before after : EntityOverride}
    (composed : Composed libraries rows entity before)
    (overridden : Overridden libraries row rows.length entity before after) :
    Composed libraries (rows ++ [row]) entity after := by
  obtain ⟨added, segments, placed, covered⟩ := overridden.amounts
  refine ⟨?_, ?_, fun date => ?_, fun segment member => ?_⟩
  · rw [overridden.anchor, composed.anchor, lastValue_concat]
  · rw [overridden.exclusion, composed.exclusion, lastValue_concat]
  · have own := covered date
    rw [lastValue_concat, ← composed.amounts date]
    unfold EntityOverride.amountOn
    rw [segments, List.filter_append]
    cases said : amountValue libraries entity date row with
    | none =>
      rw [said, Option.toList_none, List.map_eq_nil_iff] at own
      rw [own, List.append_nil, Option.none_or]
    | some amount =>
      rw [said, Option.toList_some, List.map_eq_singleton_iff] at own
      obtain ⟨segment, single, minor⟩ := own
      have inside : segment ∈ added.filter fun segment => segment.covers date := by
        rw [single]
        exact List.mem_singleton_self segment
      rw [single, latest_concat, Option.map_some, minor, Option.some_or]
      intro other member
      rw [placed segment (List.mem_filter.mp inside).1]
      exact (composed.places other (List.mem_filter.mp member).1).le
  · rw [List.length_append, List.length_singleton]
    rw [segments] at member
    rcases List.mem_append.mp member with old | new
    · have place := composed.places segment old
      omega
    · rw [placed segment new]
      omega

/-- An event of another entity says nothing. -/
theorem Composed.skip (composed : Composed libraries rows entity entry)
    (other : row.key.targetEntityId ≠ some entity) :
    Composed libraries (rows ++ [row]) entity entry := by
  have noAnchor : anchorValue libraries entity row = none := if_neg fun both => other both.1
  have noExclusion : exclusionValue libraries entity row = none := if_neg fun both => other both.1
  have noAmount (date : PayDates.NaiveDate) : amountValue libraries entity date row = none :=
    if_neg fun both => other both.1
  refine ⟨?_, ?_, fun date => ?_, fun segment member => ?_⟩
  · rw [lastValue_concat, noAnchor, Option.none_or, composed.anchor]
  · rw [lastValue_concat, noExclusion, Option.none_or, composed.exclusion]
  · rw [lastValue_concat, noAmount, Option.none_or, composed.amounts]
  · rw [List.length_append, List.length_singleton]
    have place := composed.places segment member
    omega

theorem composed_of_fold
    (folded : rows.zipIdx.foldlM (composeRow libraries) (fun _ => none) = .ok map) (entity : Uuid) :
    Composed libraries rows entity ((map entity).getD .unset) := by
  induction rows using List.reverseRecOn generalizing map with
  | nil =>
    obtain rfl := Except.ok.inj folded
    exact ⟨rfl, rfl, fun _ => rfl, List.forall_mem_nil _⟩
  | append_singleton rows row inductionHypothesis =>
    rw [List.zipIdx_append, List.foldlM_append] at folded
    obtain ⟨before, first, last⟩ := Fallible.bind_eq_ok.mp folded
    rw [Nat.zero_add, List.zipIdx_singleton, List.foldlM_cons] at last
    obtain ⟨after, step, done⟩ := Fallible.bind_eq_ok.mp last
    obtain rfl := Except.ok.inj done
    have composed := inductionHypothesis first
    unfold composeRow at step
    dsimp only at step
    cases target : row.key.targetEntityId with
    | none =>
      rw [target] at step
      obtain rfl := Except.ok.inj step
      refine composed.skip libraries ?_
      rw [target]
      exact (Option.some_ne_none entity).symm
    | some holder =>
      rw [target] at step
      obtain ⟨entry, overridden, step⟩ := Fallible.bind_eq_ok.mp step
      obtain rfl := Except.ok.inj step
      by_cases same : entity = holder
      · subst same
        rw [Function.update_self, Option.getD_some]
        exact composed.concat libraries (overridden_of_overrideWith libraries target overridden)
      · rw [Function.update_of_ne same]
        refine composed.skip libraries ?_
        rw [target]
        exact fun held => same (Option.some.inj held).symm

/-! ### What decides -/

/-- Whether an exclusion has a date in it. -/
def ExcludedOn (date : PayDates.NaiveDate) : Option ExcludeFrom → Prop
  | none => False
  | some .all => True
  | some (.date start) => start ≤ date

instance decidableExcludedOn (date : PayDates.NaiveDate) :
    (exclude : Option ExcludeFrom) → Decidable (ExcludedOn date exclude)
  | none => inferInstanceAs (Decidable False)
  | some .all => inferInstanceAs (Decidable True)
  | some (.date start) => inferInstanceAs (Decidable (start ≤ date))

/-- An entry has the anchor and the exclusion of the greatest events that give one, and an amount
on a date is that of the greatest event that gives one there, if the date is not excluded. -/
structure Answers (rows : List EventRow) (scenarios : List Uuid) (entity : Uuid)
    (entry : EntityOverride) : Prop where
  anchor : Greatest (precedence scenarios) (anchorValue libraries entity)
    (rows.filter fun row => Selected scenarios row) entry.newAnchor
  exclusion : Greatest (precedence scenarios) (exclusionValue libraries entity)
    (rows.filter fun row => Selected scenarios row) entry.exclude
  amount : ∀ date, ∃ said, Greatest (precedence scenarios) (amountValue libraries entity date)
      (rows.filter fun row => Selected scenarios row) said ∧
    ∀ baseMinor, entry.amountFor date baseMinor =
      if ExcludedOn date entry.exclude then none else some (said.getD baseMinor)

theorem amountFor_eq (entry : EntityOverride) (date : PayDates.NaiveDate) (baseMinor : Int) :
    entry.amountFor date baseMinor = if ExcludedOn date entry.exclude then none
      else some ((entry.amountOn date).getD baseMinor) := by
  unfold EntityOverride.amountFor
  cases entry.exclude with
  | none => rfl
  | some exclude => cases exclude <;> rfl

theorem greatest_perm {Value : Type} {value : EventRow → Option Value} {rows others : List EventRow}
    {found : Option Value} (perm : rows.Perm others)
    (greatest : Greatest (precedence scenarios) value rows found) :
    Greatest (precedence scenarios) value others found := by
  cases found with
  | none => exact fun row member => greatest row (perm.mem_iff.mpr member)
  | some answer =>
    obtain ⟨row, member, has, most⟩ := greatest
    exact ⟨row, perm.mem_iff.mp member, has, fun other inside =>
      most other (perm.mem_iff.mpr inside)⟩

theorem composed_of_entityOverrides (read : entityOverrides libraries rows scenarios = .ok map)
    (entity : Uuid) :
    Composed libraries (ordered rows scenarios) entity ((map entity).getD .unset) :=
  composed_of_fold libraries read entity

theorem Composed.answers (composed : Composed libraries (ordered rows scenarios) entity entry) :
    Answers libraries rows scenarios entity entry where
  anchor := by
    rw [composed.anchor]
    exact greatest_perm ordered_perm (greatest_lastValue ordered_ascends)
  exclusion := by
    rw [composed.exclusion]
    exact greatest_perm ordered_perm (greatest_lastValue ordered_ascends)
  amount := by
    intro date
    refine ⟨entry.amountOn date, ?_, amountFor_eq entry date⟩
    rw [composed.amounts]
    exact greatest_perm ordered_perm (greatest_lastValue ordered_ascends)

theorem eq_of_createdKey {first second : EventRow} (firstIn : first ∈ table.rows)
    (secondIn : second ∈ table.rows) (same : createdKey first = createdKey second) :
    first = second := by
  have ids : byteKey first.id.toList = byteKey second.id.toList :=
    (Prod.mk.inj (toLex.injective same)).2
  have bytes : first.id = second.id := List.Vector.toList_injective (byteKey_injective ids)
  exact List.inj_on_of_nodup_map table.unique firstIn secondIn bytes

theorem entityOverrides_of_queried {others : List EventRow}
    (same : queried others scenarios = queried rows scenarios) :
    entityOverrides libraries others scenarios = entityOverrides libraries rows scenarios := by
  unfold entityOverrides pending
  rw [same]

theorem entityOverrides_perm {table other : EventTable} (perm : other.rows.Perm table.rows) :
    entityOverrides libraries other.rows scenarios =
      entityOverrides libraries table.rows scenarios := by
  refine entityOverrides_of_queried libraries ((sortBy_eq_iff_perm ?_).mpr (perm.filter _))
  intro first firstIn second secondIn same
  exact eq_of_createdKey (perm.mem_iff.mp (List.mem_filter.mp firstIn).1)
    (List.mem_filter.mp secondIn).1 same

theorem entityOverrides_filter :
    entityOverrides libraries
        (rows.filter fun row => (rankOf scenarios row.scenarioId).isSome) scenarios =
      entityOverrides libraries rows scenarios := by
  refine entityOverrides_of_queried libraries ?_
  unfold queried
  rw [List.filter_filter]
  congr 1
  refine List.filter_congr fun row _ => ?_
  by_cases selected : Selected scenarios row
  · rw [decide_eq_true selected, rankOf_selected selected]
    rfl
  · rw [decide_eq_false selected, Bool.false_and]

theorem precedence_base {base row : EventRow} (none : base.scenarioId = none)
    (some : row.scenarioId ≠ Option.none) (selected : Selected scenarios row) :
    precedence scenarios base < precedence scenarios row := by
  obtain ⟨scenario, own⟩ := Option.ne_none_iff_exists'.mp some
  have ranked := rankOf_selected selected
  unfold precedence
  rw [Prod.Lex.toLex_lt_toLex]
  refine .inl ?_
  rw [none, own] at *
  cases place : scenarios.idxOf? scenario with
  | none =>
    dsimp only [rankOf] at ranked
    rw [place] at ranked
    cases ranked
  | some index =>
    show 0 < ((scenarios.idxOf? scenario).map (· + 1)).getD 0
    rw [place]
    exact Nat.succ_pos index

/-! ### One more scenario -/

/-- An event of a scenario of the selection. -/
def OfSelection (scenarios : List Uuid) (row : EventRow) : Prop :=
  ∃ scenario ∈ scenarios, row.scenarioId = some scenario

theorem rankOf_cons {extra scenario : Uuid} (apart : extra ∉ scenarios)
    (inside : scenario ∈ scenarios) :
    ∃ rank, rankOf scenarios (some scenario) = some rank ∧ 0 < rank ∧
      rankOf (extra :: scenarios) (some scenario) = some (rank + 1) := by
  have held : (scenarios.idxOf? scenario).isSome = true := List.isSome_idxOf?.mpr inside
  obtain ⟨index, place⟩ := Option.isSome_iff_exists.mp held
  have other : (extra == scenario) = false := by
    rw [beq_eq_false_iff_ne]
    rintro rfl
    exact apart inside
  refine ⟨index + 1, ?_, Nat.succ_pos index, ?_⟩
  · show (scenarios.idxOf? scenario).map (· + 1) = _
    rw [place]
    rfl
  · show ((extra :: scenarios).idxOf? scenario).map (· + 1) = _
    rw [List.idxOf?_cons, other, place]
    rfl

theorem rankOf_low {extra : Uuid} {row : EventRow} (low : ¬ OfSelection scenarios row) :
    (rankOf scenarios row.scenarioId).getD 0 = 0 ∧
      (rankOf (extra :: scenarios) row.scenarioId).getD 0 ≤ 1 := by
  cases found : row.scenarioId with
  | none => exact ⟨rfl, Nat.zero_le _⟩
  | some scenario =>
    have absent : scenario ∉ scenarios := fun inside => low ⟨scenario, inside, found⟩
    have nowhere : scenarios.idxOf? scenario = none := List.idxOf?_eq_none_iff.mpr absent
    refine ⟨?_, ?_⟩
    · show ((scenarios.idxOf? scenario).map (· + 1)).getD 0 = 0
      rw [nowhere]
      rfl
    · show (((extra :: scenarios).idxOf? scenario).map (· + 1)).getD 0 ≤ 1
      rw [List.idxOf?_cons, nowhere]
      cases extra == scenario <;> decide

/-- What a selected scenario has decided stays when one more scenario is put below the selection. -/
theorem greatest_cons {Value : Type} {value : EventRow → Option Value} {extra : Uuid}
    {found found' : Option Value} (apart : extra ∉ scenarios)
    (greatest : Greatest (precedence scenarios) value
      (table.rows.filter fun row => Selected scenarios row) found)
    (greatest' : Greatest (precedence (extra :: scenarios)) value
      (table.rows.filter fun row => Selected (extra :: scenarios) row) found')
    (decided : ∃ row ∈ table.rows, Selected scenarios row ∧ OfSelection scenarios row ∧
      (value row).isSome = true) : found' = found := by
  have ranks (row : EventRow) (upper : OfSelection scenarios row) :
      0 < (rankOf scenarios row.scenarioId).getD 0 ∧
        (rankOf (extra :: scenarios) row.scenarioId).getD 0 =
          (rankOf scenarios row.scenarioId).getD 0 + 1 := by
    obtain ⟨scenario, inside, own⟩ := upper
    obtain ⟨rank, one, positive, more⟩ := rankOf_cons apart inside
    rw [own, one, more]
    exact ⟨positive, rfl⟩
  refine (greatest.eq_of_upper (OfSelection scenarios) greatest' ?_ ?_ ?_ ?_).symm
  · rintro row ⟨scenario, inside, own⟩
    rw [List.mem_filter, List.mem_filter, decide_eq_true_eq, decide_eq_true_eq]
    refine and_congr_right fun _ => ?_
    unfold Selected
    rw [own, Option.all_some, Option.all_some]
    simp [inside]
  · intro first firstIn second secondIn firstUpper secondUpper below above
    refine eq_of_createdKey (List.mem_filter.mp firstIn).1 (List.mem_filter.mp secondIn).1 ?_
    unfold precedence at below above
    rw [(ranks first firstUpper).2, (ranks second secondUpper).2] at above
    rcases Prod.Lex.toLex_le_toLex.mp below with lower | ⟨same, created⟩
    · rcases Prod.Lex.toLex_le_toLex.mp above with higher | ⟨same, -⟩
      · dsimp only at lower higher
        omega
      · dsimp only at lower same
        omega
    · rcases Prod.Lex.toLex_le_toLex.mp above with higher | ⟨-, back⟩
      · dsimp only at same higher
        omega
      · exact le_antisymm created back
  · intro low high lowRow highRow
    have lowRanks := @rankOf_low scenarios extra low lowRow
    have highRanks := ranks high highRow
    unfold precedence
    rw [Prod.Lex.toLex_lt_toLex, Prod.Lex.toLex_lt_toLex]
    exact ⟨.inl (by dsimp only; omega), .inl (by dsimp only; omega)⟩
  · obtain ⟨row, member, selected, upper, some⟩ := decided
    exact ⟨row, List.mem_filter.mpr ⟨member, decide_eq_true selected⟩, upper, some⟩

/-- An event of a selected scenario says something of a setting. -/
def Decided {Value : Type} (table : EventTable) (scenarios : List Uuid)
    (value : EventRow → Option Value) : Prop :=
  ∃ row ∈ table.rows, Selected scenarios row ∧ OfSelection scenarios row ∧
    (value row).isSome = true

/-- What decides of an entity is the greatest event by the place of its scenario, when it was made
and its id, in whatever order the rows come; the base is below every scenario; events of other
scenarios are not read; and one more scenario below the selection changes nothing that the
selection has decided. -/
theorem override_precedence (table : EventTable) (scenarios : List Uuid) :
    (∀ map, entityOverrides libraries table.rows scenarios = .ok map → ∀ entity,
      Answers libraries table.rows scenarios entity ((map entity).getD .unset)) ∧
    (∀ other : EventTable, other.rows.Perm table.rows →
      entityOverrides libraries other.rows scenarios =
        entityOverrides libraries table.rows scenarios) ∧
    (∀ base row : EventRow, base.scenarioId = none → row.scenarioId ≠ none →
      Selected scenarios row → precedence scenarios base < precedence scenarios row) ∧
    entityOverrides libraries
        (table.rows.filter fun row => (rankOf scenarios row.scenarioId).isSome) scenarios =
      entityOverrides libraries table.rows scenarios ∧
    ∀ extra ∉ scenarios, ∀ map map',
      entityOverrides libraries table.rows scenarios = .ok map →
      entityOverrides libraries table.rows (extra :: scenarios) = .ok map' → ∀ entity,
      (Decided table scenarios (anchorValue libraries entity) →
        ((map' entity).getD .unset).newAnchor = ((map entity).getD .unset).newAnchor) ∧
      (Decided table scenarios (exclusionValue libraries entity) →
        ((map' entity).getD .unset).exclude = ((map entity).getD .unset).exclude) ∧
      ∀ date, Decided table scenarios (amountValue libraries entity date) →
        ((map' entity).getD .unset).amountOn date = ((map entity).getD .unset).amountOn date := by
  refine ⟨fun map read entity => ?_, fun other perm => entityOverrides_perm libraries perm,
    fun base row none some selected => precedence_base none some selected,
    entityOverrides_filter libraries, ?_⟩
  · exact (composed_of_entityOverrides libraries read entity).answers
  · intro extra apart map map' read read' entity
    have composed := composed_of_entityOverrides libraries read entity
    have composed' := composed_of_entityOverrides libraries read' entity
    refine ⟨fun decided => ?_, fun decided => ?_, fun date decided => ?_⟩
    · exact greatest_cons apart composed.answers.anchor composed'.answers.anchor decided
    · exact greatest_cons apart composed.answers.exclusion composed'.answers.exclusion decided
    · rw [composed.amounts, composed'.amounts]
      exact greatest_cons apart (greatest_perm ordered_perm (greatest_lastValue ordered_ascends))
        (greatest_perm ordered_perm (greatest_lastValue ordered_ascends)) decided

end Dohflow.DbWorker
