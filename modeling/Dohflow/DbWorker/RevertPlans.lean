/-
This file says what the plan of an undo finds, without the walks that find it.

The lineage of a scenario is what its promoted events lead to along the links. The plan
is blocked by a row of another scenario in the lineage, or by an applied one behind a row
that holds the key of a retired event (`planRevert_blocked`); otherwise it lists the
active rows of the lineage and restores the retired events whose key nobody holds
(`planRevert_open`).
-/

import Dohflow.DbWorker.ScenarioCommands

namespace Dohflow.DbWorker

open SyncCore KeyedTable Lineage

/-- An event was promoted from the scenario. -/
def PromotedBy (events : EventTable) (scenario id : Uuid) : Prop :=
  ∃ row, events.find id = some row ∧ row.promotedFrom = some scenario

/-- Links lead from one event to the other. -/
def Leads (events : EventTable) : Uuid → Uuid → Prop :=
  Reaches events.rows EventRow.id EventRow.supersededBy

/-- An event that the scenario's promoted events lead to. -/
def InLineage (events : EventTable) (scenario id : Uuid) : Prop :=
  ∃ head, PromotedBy events scenario head ∧ Leads events head id

/-- A row that holds the key of a retired one, and that the undo of the scenario leaves active. -/
structure Holder (events : EventTable) (scenario : Uuid) (old row : EventRow) : Prop where
  collides : old.collides scenario = true
  found : events.find row.id = some row
  holds : row.holds old.key = true
  other : row.promotedFrom ≠ some scenario
  apart : ¬ InLineage events scenario row.id

variable {events : EventTable} {vault : AssumptionVault} {scenario owner id : Uuid}
  {row old : EventRow}
variable {descendants after : List Uuid} {ids : List Uuid} {later : Uuid} {heads : List EventRow}
  {rows : List EventRow} {head : EventRow}

theorem mem_rows_iff : row ∈ events.rows ↔ events.find row.id = some row := by
  rw [Table.find_eq_some_iff, and_iff_left rfl]

theorem mem_selectOrdered {selects : EventRow → Bool} : row ∈ selectOrdered events selects ↔
    events.find row.id = some row ∧ selects row = true := by
  rw [selectOrdered, List.mem_insertionSort, List.mem_filter, mem_rows_iff]

theorem find_id (found : events.find id = some row) : row.id = id :=
  (Table.find_eq_some_iff.mp found).2

theorem linked_iff {one other : Uuid} :
    Linked events.rows EventRow.id EventRow.supersededBy one other ↔
      ∃ row, events.find one = some row ∧ row.supersededBy = some other := by
  simp only [Linked, Table.find_eq_some_iff, and_assoc]

theorem holds_iff {key : EventKey} :
    row.holds key = true ↔ row.scenarioId = none ∧ row.status = .active ∧ row.key = key := by
  simp [EventRow.holds, and_assoc]

theorem collides_iff : old.collides scenario = true ↔
    old.promotedFrom ≠ some scenario ∧ old.key.kind.supersedesOnPromotion = true := by
  simp [EventRow.collides]

theorem retiredBy_iff : row.retiredBy events scenario = true ↔
    row.status = .superseded ∧ ∃ next, row.supersededBy = some next ∧
      PromotedBy events scenario next := by
  unfold EventRow.retiredBy PromotedBy
  cases row.supersededBy with
  | none => simp
  | some next => cases found : events.find next <;> simp [found]

theorem laterOwner_eq_some {scenarios : ScenarioTable} :
    laterOwner scenarios scenario row = some later ↔
      row.promotedFrom = some later ∧ later ≠ scenario ∧ stillApplied scenarios later = true := by
  unfold laterOwner
  rw [Option.filter_eq_some_iff]
  simp

/-! ### Ascending ids -/

theorem idBelow_of_not {first second : Uuid} (below : idBelow first second = false)
    (different : first ≠ second) : idBelow second first = true := by
  unfold idBelow at *
  rw [decide_eq_false_iff_not, List.not_lt, List.le_iff_lt_or_eq] at below
  rw [decide_eq_true_eq]
  refine below.resolve_right fun same => different ?_
  exact Subtype.ext same.symm

theorem mem_insertId {other : Uuid} : other ∈ insertId id ids ↔ other = id ∨ other ∈ ids := by
  induction ids with
  | nil => simp [insertId]
  | cons first rest inductionHypothesis =>
    rw [insertId]
    split
    · exact List.mem_cons
    · split
      · next same => simp [same]
      · rw [List.mem_cons, inductionHypothesis, List.mem_cons, or_left_comm]

theorem strictlyAscending_cons {first : Uuid} :
    strictlyAscending (first :: ids) = true ↔
      (∀ next ∈ ids.head?, idBelow first next = true) ∧ strictlyAscending ids = true := by
  cases ids with
  | nil => simp [strictlyAscending]
  | cons second rest => simp [strictlyAscending]

theorem strictlyAscending_insertId (ascending : strictlyAscending ids = true) :
    strictlyAscending (insertId id ids) = true := by
  induction ids with
  | nil => rfl
  | cons first rest inductionHypothesis =>
    rw [insertId]
    split
    · next below =>
      rw [strictlyAscending_cons]
      refine ⟨fun next inside => ?_, ascending⟩
      rwa [← Option.some.inj inside]
    · next above =>
      split
      · exact ascending
      · next different =>
        obtain ⟨least, later⟩ := strictlyAscending_cons.mp ascending
        refine strictlyAscending_cons.mpr ⟨fun next inside => ?_, inductionHypothesis later⟩
        have follows : idBelow first id = true :=
          idBelow_of_not (Bool.eq_false_iff.mpr above) different
        cases rest with
        | nil =>
          rw [← Option.some.inj inside]
          exact follows
        | cons second rest =>
          rw [insertId] at inside
          split at inside
          · rw [← Option.some.inj inside]
            exact follows
          · split at inside
            · next same =>
              rw [← Option.some.inj inside, ← same]
              exact follows
            · rw [← Option.some.inj inside]
              exact least second rfl

/-! ### The chains of the promoted rows -/

/-- A chain that is walked to its end has no row of another scenario, and its active rows that are
not promoted are descendants. -/
theorem walkChain_ok {edited ends : Bool} {head tip : EventRow}
    (ascending : strictlyAscending descendants = true)
    (walked : walkChain scenario rows descendants edited head = .ok (after, ends, tip)) :
    (∀ row ∈ rows, row.promotedFrom = none ∨ row.promotedFrom = some scenario) ∧
      strictlyAscending after = true ∧
      ∀ id, id ∈ after ↔ id ∈ descendants ∨
        ∃ row ∈ rows, row.id = id ∧ row.promotedFrom = none ∧ row.status = .active := by
  induction rows generalizing descendants edited head with
  | nil =>
    obtain rfl : descendants = after := congrArg Prod.fst (Except.ok.inj walked)
    exact ⟨by simp, ascending, by simp⟩
  | cons row rest inductionHypothesis =>
    rw [walkChain] at walked
    cases from_ : row.promotedFrom with
    | some owner =>
      simp only [from_] at walked
      split at walked
      · next same =>
        obtain ⟨clean, ordered, members⟩ := inductionHypothesis ascending walked
        refine ⟨fun other inside => ?_, ordered, fun id => ?_⟩
        · rcases List.mem_cons.mp inside with rfl | inside
          · exact .inr (from_.trans (congrArg some same))
          · exact clean other inside
        · rw [members]
          simp [from_]
      · cases walked
    | none =>
      simp only [from_] at walked
      by_cases active : row.status = .active
      · rw [if_pos active] at walked
        obtain ⟨clean, ordered, members⟩ :=
          inductionHypothesis (strictlyAscending_insertId ascending) walked
        refine ⟨fun other inside => ?_, ordered, fun id => ?_⟩
        · rcases List.mem_cons.mp inside with rfl | inside
          · exact .inl from_
          · exact clean other inside
        · rw [members, mem_insertId]
          simp only [List.mem_cons, exists_eq_or_imp, from_, active, and_self, and_true]
          tauto
      · rw [if_neg active] at walked
        obtain ⟨clean, ordered, members⟩ := inductionHypothesis ascending walked
        refine ⟨fun other inside => ?_, ordered, fun id => ?_⟩
        · rcases List.mem_cons.mp inside with rfl | inside
          · exact .inl from_
          · exact clean other inside
        · rw [members]
          simp [active]

theorem walkChain_error {edited : Bool}
    (walked : walkChain scenario rows descendants edited head = .error (after, owner)) :
    owner ≠ scenario ∧ ∃ row ∈ rows, row.promotedFrom = some owner := by
  induction rows generalizing descendants edited head with
  | nil => cases walked
  | cons row rest inductionHypothesis =>
    rw [walkChain] at walked
    cases from_ : row.promotedFrom with
    | some other =>
      simp only [from_] at walked
      split at walked
      · obtain ⟨different, later, inside, promoted⟩ := inductionHypothesis walked
        exact ⟨different, later, List.mem_cons_of_mem _ inside, promoted⟩
      · next different =>
        obtain rfl : other = owner := congrArg Prod.snd (Except.error.inj walked)
        exact ⟨different, row, List.mem_cons_self, from_⟩
    | none =>
      simp only [from_] at walked
      obtain ⟨different, later, inside, promoted⟩ := inductionHypothesis walked
      exact ⟨different, later, List.mem_cons_of_mem _ inside, promoted⟩

theorem mem_chainOf_iff (start : head ∈ events.rows) (member : row ∈ events.rows) :
    row = head ∨ row ∈ chainOf events head ↔ Leads events head.id row.id :=
  mem_follow_iff events.unique start member

theorem walkChains_ok {before lines : List (Uuid × RevertLine)}
    (ascending : strictlyAscending descendants = true)
    (walked : walkChains scenario events heads descendants before = .ok (after, lines)) :
    (∀ head ∈ heads, ∀ row ∈ chainOf events head,
        row.promotedFrom = none ∨ row.promotedFrom = some scenario) ∧
      strictlyAscending after = true ∧
      ∀ id, id ∈ after ↔ id ∈ descendants ∨ ∃ head ∈ heads, ∃ row ∈ chainOf events head,
        row.id = id ∧ row.promotedFrom = none ∧ row.status = .active := by
  induction heads generalizing descendants before with
  | nil =>
    obtain rfl : descendants = after := congrArg Prod.fst (Except.ok.inj walked)
    exact ⟨by simp, ascending, by simp⟩
  | cons head rest inductionHypothesis =>
    rw [walkChains] at walked
    cases chain : walkChain scenario (chainOf events head) descendants false head with
    | error blocked => simp [chain] at walked
    | ok ended =>
      obtain ⟨between, edited, tip⟩ := ended
      simp only [chain] at walked
      obtain ⟨cleanFirst, orderedFirst, membersFirst⟩ := walkChain_ok ascending chain
      obtain ⟨clean, ordered, members⟩ := inductionHypothesis orderedFirst walked
      refine ⟨fun other inside => ?_, ordered, fun id => ?_⟩
      · rcases List.mem_cons.mp inside with rfl | inside
        · exact cleanFirst
        · exact clean other inside
      · rw [members, membersFirst, List.exists_mem_cons_iff, or_assoc]

theorem walkChains_error {before : List (Uuid × RevertLine)}
    (walked : walkChains scenario events heads descendants before = .error (after, owner)) :
    owner ≠ scenario ∧ ∃ head ∈ heads, ∃ row ∈ chainOf events head,
      row.promotedFrom = some owner := by
  induction heads generalizing descendants before with
  | nil => cases walked
  | cons head rest inductionHypothesis =>
    rw [walkChains] at walked
    cases chain : walkChain scenario (chainOf events head) descendants false head with
    | error blocked =>
      simp only [chain, Except.error.injEq] at walked
      subst walked
      obtain ⟨different, row, inside, promoted⟩ := walkChain_error chain
      exact ⟨different, head, List.mem_cons_self, row, inside, promoted⟩
    | ok ended =>
      simp only [chain] at walked
      obtain ⟨different, other, inside, row, walkedRow, promoted⟩ := inductionHypothesis walked
      exact ⟨different, other, List.mem_cons_of_mem _ inside, row, walkedRow, promoted⟩

/-! ### What lies behind a row -/

theorem laterApplyBehind_some (found : vault.events.find row.id = some row)
    (behind : laterApplyBehind vault scenario row = some later) :
    later ≠ scenario ∧ stillApplied vault.scenarios later = true ∧
      InLineage vault.events later row.id := by
  unfold laterApplyBehind at behind
  split at behind
  · obtain ⟨promoted, different, applied⟩ := laterOwner_eq_some.mp behind
    exact ⟨different, applied, row.id, ⟨row, found, promoted⟩, .refl⟩
  · obtain ⟨parent, member, reached, answers⟩ :=
      searchBack_some vault.events.unique (searching_start row.id) behind
    obtain ⟨promoted, different, applied⟩ := laterOwner_eq_some.mp answers
    exact ⟨different, applied, parent.id, ⟨parent, mem_rows_iff.mp member, promoted⟩, reached⟩

theorem laterApplyBehind_none (found : vault.events.find row.id = some row)
    (behind : laterApplyBehind vault scenario row = none)
    (ownerApplied : ∀ owner, row.promotedFrom = some owner →
      owner ≠ scenario ∧ stillApplied vault.scenarios owner = true) (different : later ≠ scenario)
    (applied : stillApplied vault.scenarios later = true) :
    ¬ InLineage vault.events later row.id := by
  rintro ⟨head, ⟨first, foundFirst, promoted⟩, reached⟩
  cases from_ : row.promotedFrom with
  | some owner =>
    rw [laterApplyBehind, if_pos (by rw [from_]; rfl)] at behind
    rw [laterOwner_eq_some.mpr ⟨from_, ownerApplied owner from_⟩] at behind
    cases behind
  | none =>
    rw [laterApplyBehind, if_neg (by rw [from_]; exact nofun)] at behind
    obtain rfl := find_id foundFirst
    rcases searchBack_none vault.events.unique (searching_start row.id) behind
      (mem_rows_iff.mpr foundFirst) reached with same | silent
    · rw [same] at foundFirst
      obtain rfl := Option.some.inj (foundFirst.symm.trans found)
      rw [promoted] at from_
      cases from_
    · rw [laterOwner_eq_some.mpr ⟨promoted, different, applied⟩] at silent
      cases silent

/-! ### The plan -/

theorem planRestores_cases {retired : List EventRow} {plan : RevertPlan}
    (unblocked : plan.blocker = none) :
    (planRestores scenario vault retired plan).descendants = plan.descendants ∧
      ((∃ later, (planRestores scenario vault retired plan).blocker = some later ∧
          ∃ old ∈ retired, ∃ row ∈ holdersOf scenario vault.events plan.descendants old,
            laterApplyBehind vault scenario row = some later) ∨
        (planRestores scenario vault retired plan).blocker = none ∧
          (∀ old ∈ retired, ∀ row ∈ holdersOf scenario vault.events plan.descendants old,
            laterApplyBehind vault scenario row = none) ∧
          ∀ id, id ∈ (planRestores scenario vault retired plan).restore ↔ id ∈ plan.restore ∨
            ∃ old ∈ retired, old.id = id ∧
              holdersOf scenario vault.events plan.descendants old = []) := by
  induction retired generalizing plan with
  | nil => exact ⟨rfl, .inr ⟨unblocked, by simp, by simp [planRestores]⟩⟩
  | cons old rest inductionHypothesis =>
    rw [planRestores]
    cases behind : (holdersOf scenario vault.events plan.descendants old).findSome?
        (laterApplyBehind vault scenario) with
    | some later =>
      obtain ⟨row, inside, answers⟩ := List.exists_of_findSome?_eq_some behind
      exact ⟨rfl, .inl ⟨later, rfl, old, List.mem_cons_self, row, inside, answers⟩⟩
    | none =>
      have silent := List.findSome?_eq_none_iff.mp behind
      cases holders : holdersOf scenario vault.events plan.descendants old with
      | cons newer others =>
        simp only
        obtain ⟨same, cases_⟩ := @inductionHypothesis { plan with
          lines := plan.lines ++ [⟨.keptNewer, old.key, old.paramsJson, some newer.paramsJson⟩] }
          unblocked
        refine ⟨same, cases_.imp (fun blocked => ?_) fun open_ => ?_⟩
        · obtain ⟨later, blocked, other, inside, found⟩ := blocked
          exact ⟨later, blocked, other, List.mem_cons_of_mem _ inside, found⟩
        · obtain ⟨open_, quiet, restored⟩ := open_
          refine ⟨open_, fun other inside => ?_, fun id => ?_⟩
          · rcases List.mem_cons.mp inside with rfl | inside
            · exact silent
            · exact quiet other inside
          · rw [restored, List.exists_mem_cons_iff, holders]
            simp
      | nil =>
        simp only
        obtain ⟨same, cases_⟩ := @inductionHypothesis
          { plan with restore := plan.restore ++ [old.id] } unblocked
        refine ⟨same, cases_.imp (fun blocked => ?_) fun open_ => ?_⟩
        · obtain ⟨later, blocked, other, inside, found⟩ := blocked
          exact ⟨later, blocked, other, List.mem_cons_of_mem _ inside, found⟩
        · obtain ⟨open_, quiet, restored⟩ := open_
          refine ⟨open_, fun other inside => ?_, fun id => ?_⟩
          · rcases List.mem_cons.mp inside with rfl | inside
            · exact silent
            · exact quiet other inside
          · rw [restored, List.exists_mem_cons_iff, holders]
            simp only [List.mem_append, List.mem_singleton, and_true, or_assoc, @eq_comm _ id]

theorem mem_holdersOf {descendants : List Uuid} : row ∈ holdersOf scenario events descendants old ↔
    old.collides scenario = true ∧ events.find row.id = some row ∧ row.holds old.key = true ∧
      row.id ∉ descendants ∧ row.promotedFrom ≠ some scenario := by
  unfold holdersOf
  split
  · next collides =>
    simp only [List.mem_filter, mem_selectOrdered, Bool.and_eq_true, decide_eq_true_eq, collides,
      true_and, and_assoc]
  · next apart =>
    exact iff_of_false List.not_mem_nil fun found => apart found.1

/-- What lies in the lineage of a scenario is its own or was not promoted. -/
def Alone (events : EventTable) (scenario : Uuid) : Prop :=
  ∀ id row, InLineage events scenario id → events.find id = some row →
    row.promotedFrom = none ∨ row.promotedFrom = some scenario

/-- A plan that nothing blocks. -/
structure OpenPlan (vault : AssumptionVault) (scenario : Uuid) (plan : RevertPlan) : Prop where
  unblocked : plan.blocker = none
  alone : Alone vault.events scenario
  ascending : strictlyAscending plan.descendants = true
  descendants : ∀ id, id ∈ plan.descendants ↔ InLineage vault.events scenario id ∧
    ∃ row, vault.events.find id = some row ∧ row.promotedFrom = none ∧ row.status = .active
  quiet : ∀ old row, vault.events.find old.id = some old →
    old.retiredBy vault.events scenario = true → Holder vault.events scenario old row →
    laterApplyBehind vault scenario row = none
  restore : ∀ id, id ∈ plan.restore ↔ ∃ old, vault.events.find id = some old ∧
    old.retiredBy vault.events scenario = true ∧ ¬ ∃ row, Holder vault.events scenario old row

/-- A plan is blocked by a row of another scenario in the lineage, or by a later apply behind a row
that holds the key of a retired one; or nothing blocks it. -/
theorem planRevert_cases (vault : AssumptionVault) (scenario : Uuid) :
    (∃ later, (planRevert scenario vault).blocker = some later ∧ later ≠ scenario ∧
        ∃ id, InLineage vault.events scenario id ∧ PromotedBy vault.events later id) ∨
      (Alone vault.events scenario ∧
        ∃ later, (planRevert scenario vault).blocker = some later ∧
          ∃ old row, vault.events.find old.id = some old ∧
            old.retiredBy vault.events scenario = true ∧ Holder vault.events scenario old row ∧
            laterApplyBehind vault scenario row = some later) ∨
      OpenPlan vault scenario (planRevert scenario vault) := by
  generalize promoted : selectOrdered vault.events (·.promotedFrom = some scenario) = heads
  have mem_heads : ∀ head, head ∈ heads ↔
      vault.events.find head.id = some head ∧ head.promotedFrom = some scenario := by
    intro head
    rw [← promoted, mem_selectOrdered, decide_eq_true_eq]
  have inLineage : ∀ head ∈ heads, ∀ row ∈ chainOf vault.events head,
      InLineage vault.events scenario row.id ∧ vault.events.find row.id = some row := by
    intro head inside row walked
    obtain ⟨found, own⟩ := (mem_heads head).mp inside
    obtain ⟨member, -⟩ := reaches_of_mem_follow walked
    exact ⟨⟨head.id, ⟨head, found, own⟩,
      (mem_chainOf_iff (mem_rows_iff.mpr found) member).mp (.inr walked)⟩, mem_rows_iff.mp member⟩
  have ofLineage : ∀ id row, InLineage vault.events scenario id →
      vault.events.find id = some row → row.promotedFrom = some scenario ∨
        ∃ head ∈ heads, row ∈ chainOf vault.events head := by
    rintro id row ⟨first, ⟨head, found, own⟩, reached⟩ foundRow
    obtain rfl := find_id found
    obtain rfl := find_id foundRow
    rcases (mem_chainOf_iff (mem_rows_iff.mpr found) (mem_rows_iff.mpr foundRow)).mpr reached with
      rfl | walked
    · exact .inl own
    · exact .inr ⟨head, (mem_heads head).mpr ⟨found, own⟩, walked⟩
  cases walked : walkChains scenario vault.events heads [] [] with
  | error blocked =>
    obtain ⟨descendants, later⟩ := blocked
    refine .inl ⟨later, ?_, ?_⟩
    · rw [planRevert]
      simp only [promoted, walked]
    · obtain ⟨different, head, inside, row, among, own⟩ := walkChains_error walked
      obtain ⟨lineage, found⟩ := inLineage head inside row among
      exact ⟨different, row.id, lineage, row, found, own⟩
  | ok ended =>
    obtain ⟨descendants, lines⟩ := ended
    obtain ⟨clean, ascending, members⟩ := walkChains_ok rfl walked
    have alone : Alone vault.events scenario := by
      intro id row lineage found
      rcases ofLineage id row lineage found with own | ⟨head, inside, among⟩
      · exact .inr own
      · exact clean head inside row among
    have listed : ∀ id, id ∈ descendants ↔ InLineage vault.events scenario id ∧
        ∃ row, vault.events.find id = some row ∧ row.promotedFrom = none ∧
          row.status = .active := by
      intro id
      rw [members]
      constructor
      · rintro (inside | ⟨head, inside, row, among, rfl, plain, active⟩)
        · exact absurd inside List.not_mem_nil
        · obtain ⟨lineage, found⟩ := inLineage head inside row among
          exact ⟨lineage, row, found, plain, active⟩
      · rintro ⟨lineage, row, found, plain, active⟩
        rcases ofLineage id row lineage found with own | ⟨head, inside, among⟩
        · rw [plain] at own
          cases own
        · exact .inr ⟨head, inside, row, among, find_id found, plain, active⟩
    have holder_iff : ∀ old row, row ∈ holdersOf scenario vault.events descendants old ↔
        Holder vault.events scenario old row := by
      intro old row
      rw [mem_holdersOf, listed]
      constructor
      · rintro ⟨collides, found, holds, apart, other⟩
        refine ⟨collides, found, holds, other, fun lineage => apart ⟨lineage, row, found, ?_⟩⟩
        exact ⟨(alone _ _ lineage found).resolve_right other, (holds_iff.mp holds).2.1⟩
      · rintro ⟨collides, found, holds, other, apart⟩
        exact ⟨collides, found, holds, fun inside => apart inside.1, other⟩
    have holdersNone_iff : ∀ old, holdersOf scenario vault.events descendants old = [] ↔
        ¬ ∃ row, Holder vault.events scenario old row := by
      intro old
      simp only [List.eq_nil_iff_forall_not_mem, holder_iff, not_exists]
    have mem_retired : ∀ old,
        old ∈ selectOrdered vault.events (·.retiredBy vault.events scenario) ↔
          vault.events.find old.id = some old ∧ old.retiredBy vault.events scenario = true :=
      fun old => mem_selectOrdered
    have planned : planRevert scenario vault = planRestores scenario vault
        (selectOrdered vault.events (·.retiredBy vault.events scenario))
        ⟨descendants, none, lines.map Prod.snd, []⟩ := by
      rw [planRevert]
      simp only [promoted, walked]
    rw [planned]
    obtain ⟨same, ⟨later, blocked, old, inside, row, among, behind⟩ | ⟨unblocked, quiet, restored⟩⟩ :=
      @planRestores_cases vault scenario
        (selectOrdered vault.events (·.retiredBy vault.events scenario))
        ⟨descendants, none, lines.map Prod.snd, []⟩ rfl
    · obtain ⟨found, isRetired⟩ := (mem_retired old).mp inside
      exact .inr (.inl ⟨alone, later, blocked, old, row, found, isRetired,
        (holder_iff old row).mp among, behind⟩)
    · refine .inr (.inr ⟨unblocked, alone, ?_, ?_, fun old row found isRetired holder => ?_,
        fun id => ?_⟩)
      · rwa [same]
      · rwa [same]
      · exact quiet old ((mem_retired old).mpr ⟨found, isRetired⟩) row
          ((holder_iff old row).mpr holder)
      · rw [restored]
        constructor
        · rintro (inside | ⟨old, inside, rfl, none⟩)
          · exact absurd inside List.not_mem_nil
          · obtain ⟨found, isRetired⟩ := (mem_retired old).mp inside
            exact ⟨old, found, isRetired, (holdersNone_iff old).mp none⟩
        · rintro ⟨old, found, isRetired, none⟩
          obtain rfl := find_id found
          exact .inr ⟨old, (mem_retired old).mpr ⟨found, isRetired⟩, rfl,
            (holdersNone_iff old).mpr none⟩

end Dohflow.DbWorker
