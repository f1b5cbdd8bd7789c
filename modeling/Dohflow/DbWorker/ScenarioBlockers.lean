/-
This file is about the scenario that an undo has to wait for.

It was applied after the one that is undone, as long as no command puts what an applied
scenario made below or in the place of what a later apply replaced (`KeepsOrder`). Then
the last applied scenario is never blocked, blockers lead to no circle, and all applies
can be undone, the last one first (`blockers_are_later`).
-/

import Dohflow.DbWorker.ScenarioUndo

namespace Dohflow.DbWorker

open SyncCore Fallible KeyedTable Lineage

variable {libraries : Libraries} {request : CommandMeta} {vault vault' : AssumptionVault}
  {before after : EventTable} {scenario owner id : Uuid} {row old new : EventRow}
  {applied below : List Uuid}
variable {replaces : EventRow → Bool} {promoting : Option Uuid} {later earlier : Uuid}

/-! ### The order of the applies -/

/-- One scenario was applied after the other; the last applied one is listed first. -/
def AppliedAfter (applied : List Uuid) (later earlier : Uuid) : Prop :=
  ∃ front rest, applied = front ++ earlier :: rest ∧ later ∈ front

theorem AppliedAfter.mem (after : AppliedAfter applied later earlier) :
    later ∈ applied ∧ earlier ∈ applied := by
  obtain ⟨front, rest, rfl, inside⟩ := after
  exact ⟨List.mem_append_left _ inside, List.mem_append_right _ List.mem_cons_self⟩

theorem AppliedAfter.cons {later earlier : Uuid} (after : AppliedAfter applied later earlier)
    (newest : Uuid) : AppliedAfter (newest :: applied) later earlier := by
  obtain ⟨front, rest, rfl, inside⟩ := after
  exact ⟨newest :: front, rest, rfl, List.mem_cons_of_mem _ inside⟩

theorem appliedAfter_newest {newest earlier : Uuid} (inside : earlier ∈ applied) :
    AppliedAfter (newest :: applied) newest earlier := by
  obtain ⟨front, rest, rfl⟩ := List.append_of_mem inside
  exact ⟨newest :: front, rest, rfl, List.mem_cons_self⟩

theorem AppliedAfter.filter (after : AppliedAfter applied later earlier)
    (keepsLater : later ≠ scenario) (keepsEarlier : earlier ≠ scenario) :
    AppliedAfter (applied.filter (· ≠ scenario)) later earlier := by
  obtain ⟨front, rest, rfl, inside⟩ := after
  refine ⟨front.filter (· ≠ scenario), rest.filter (· ≠ scenario), ?_,
    List.mem_filter.mpr ⟨inside, decide_eq_true keepsLater⟩⟩
  rw [List.filter_append, List.filter_cons, if_pos (decide_eq_true keepsEarlier)]

theorem AppliedAfter.idxOf_lt (after : AppliedAfter applied later earlier) (once : applied.Nodup) :
    applied.idxOf later < applied.idxOf earlier := by
  obtain ⟨front, rest, rfl, inside⟩ := after
  have outside : earlier ∉ front := fun within =>
    (List.nodup_append.mp once).2.2 _ within _ List.mem_cons_self rfl
  rw [List.idxOf_append_of_mem inside, List.idxOf_append_of_notMem outside, List.idxOf_cons_self,
    Nat.add_zero]
  exact List.idxOf_lt_length_of_mem inside

/-! ### What keeps the order -/

/-- An event that the scenario's apply superseded has the key. -/
def RetiredAt (events : EventTable) (scenario : Uuid) (key : EventKey) : Prop :=
  ∃ old, events.find old.id = some old ∧ old.retiredBy events scenario = true ∧
    old.promotedFrom ≠ some scenario ∧ old.key = key

/-- The applied scenarios that made an event were applied after this one, unless it made the event
itself. -/
def Fits (events : EventTable) (applied : List Uuid) (scenario id : Uuid) : Prop :=
  ¬ InLineage events scenario id → ∀ owner ∈ applied, InLineage events owner id →
    AppliedAfter applied owner scenario

/-- The undo of a scenario keeps no newer event over one that another applied scenario made, and
restores an event only at a key where it fits the others. -/
def UndoKeepsOrder (events : EventTable) (applied : List Uuid) (scenario : Uuid) : Prop :=
  ∀ old, events.find old.id = some old → old.retiredBy events scenario = true →
    old.promotedFrom ≠ some scenario → ∀ other ∈ applied, other ≠ scenario →
      ((∃ holder, Holder events scenario old holder) → ¬ InLineage events other old.id) ∧
      ((¬ ∃ holder, Holder events scenario old holder) → RetiredAt events other old.key →
        Fits events applied other old.id)

/-- The retired undo does what the confirmed one would with nothing to confirm. -/
def UndoesPlainly (events : EventTable) (scenario : Uuid) : Prop :=
  Alone events scenario ∧
  (∀ id row, InLineage events scenario id → events.find id = some row → row.promotedFrom = none →
    row.status ≠ .active) ∧
  ∀ old row, events.find old.id = some old → old.retiredBy events scenario = true →
    ¬ Holder events scenario old row

/-- A command puts nothing that an applied scenario made below or in the place of what a later apply
replaced. -/
def KeepsOrder (vault : AssumptionVault) (applied : List Uuid) : ScenarioCommand → Prop
  | .supersedeAssumptionEvent id replacement =>
    ∀ old, vault.events.find id = some old → old.key ≠ replacement.key →
      ∀ scenario ∈ applied, RetiredAt vault.events scenario replacement.key →
        Fits vault.events applied scenario id
  | .applyScenario scenario =>
    ∀ key, RetiredAt vault.events scenario key →
      (∀ event, vault.events.find event.id = some event → event.scenarioId = some scenario →
        event.status = .active → event.key ≠ key) →
      ∀ row, vault.events.find row.id = some row → row.holds key = true →
        ∀ owner ∈ applied, ¬ InLineage vault.events owner row.id
  | .revertScenarioApply scenario =>
    UndoesPlainly vault.events scenario ∧ UndoKeepsOrder vault.events applied scenario
  | .revertScenarioApplyConfirmed scenario _ => UndoKeepsOrder vault.events applied scenario
  | _ => True

/-! ### The invariant -/

/-- For each of these scenarios, the other scenarios' events that its own lead to were promoted by
later applies, and the events that hold the key of one it superseded fit. -/
structure Stacked (events : EventTable) (applied below : List Uuid) : Prop where
  chains : ∀ scenario ∈ below, ∀ owner id, owner ≠ scenario → InLineage events scenario id →
    PromotedBy events owner id → AppliedAfter applied owner scenario
  holders : ∀ scenario ∈ below, ∀ key, RetiredAt events scenario key →
    ∀ row, events.find row.id = some row → row.holds key = true →
      Fits events applied scenario row.id

theorem stacked_empty : Stacked .empty [] [] where
  chains _ inside := absurd inside List.not_mem_nil
  holders _ inside := absurd inside List.not_mem_nil

/-- A blocked undo waits for a scenario that is applied and was applied later. -/
theorem Stacked.blocker (stacked : Stacked vault.events applied applied)
    (sound : VaultSound vault applied) (inside : scenario ∈ applied) {later : Uuid}
    (blocked : (planRevert scenario vault).blocker = some later) :
    AppliedAfter applied later scenario := by
  obtain ⟨blocking, same, different, id, lineage, promoted⟩ |
    ⟨-, blocking, same, old, row, found, retired, holder, behind⟩ | plan :=
    planRevert_cases vault scenario
  · obtain rfl := Option.some.inj (blocked.symm.trans same)
    exact stacked.chains scenario inside later id different lineage promoted
  · obtain rfl := Option.some.inj (blocked.symm.trans same)
    obtain ⟨-, isApplied, lineage⟩ := laterApplyBehind_some holder.found behind
    exact stacked.holders scenario inside old.key
      ⟨old, found, retired, (collides_iff.mp holder.collides).1, rfl⟩ row holder.found holder.holds
      holder.apart later ((sound.marked later).mp isApplied) lineage
  · rw [plan.unblocked] at blocked
    cases blocked

/-! ### New events -/

theorem Extends.inLineage_new (extended : Extends before after new replaces)
    (sound : EventsSound before applied promoting) (found : before.find id = some row)
    (replaced : replaces row = true) (lineage : InLineage before scenario id) :
    InLineage after scenario new.id := by
  obtain ⟨head, promoted, reached⟩ := extended.inLineage_of_before sound lineage
  refine ⟨head, promoted, reached.tail (linked_iff.mpr ⟨row.supersede new.id, ?_, rfl⟩)⟩
  rw [extended.found_old found, if_pos replaced]

theorem Extends.retiredAt {key : EventKey} (extended : Extends before after new replaces)
    (other : new.promotedFrom ≠ some scenario) (retired : RetiredAt after scenario key) :
    RetiredAt before scenario key := by
  obtain ⟨old, found, isRetired, otherOld, same⟩ := retired
  obtain ⟨superseded, next, link, promoted⟩ := retiredBy_iff.mp isRetired
  have promoted := (extended.promotedBy_iff.mp promoted).resolve_right fun isNew => other isNew.2
  obtain ⟨-, rfl⟩ | ⟨-, first, foundFirst, ⟨-, rfl⟩ | ⟨-, rfl⟩⟩ := extended.found_cases found
  · rw [extended.unlinked] at link
    cases link
  · exact ⟨old, foundFirst, retiredBy_iff.mpr ⟨superseded, next, link, promoted⟩, otherOld, same⟩
  · obtain rfl := Option.some.inj link
    obtain ⟨row, foundRow, -⟩ := promoted
    rw [extended.fresh] at foundRow
    cases foundRow

/-- A new event keeps the scenarios stacked if it was promoted by a later one, and if what it
replaces fits at its key. -/
theorem Stacked.extended {sounds : List Uuid} (stacked : Stacked before applied below)
    (sound : EventsSound before sounds promoting) (extended : Extends before after new replaces)
    (later : ∀ owner, new.promotedFrom = some owner →
      ∀ scenario ∈ below, owner ≠ scenario ∧ AppliedAfter applied owner scenario)
    (fits : ∀ scenario ∈ below, RetiredAt before scenario new.key → new.scenarioId = none →
      ∀ id row, before.find id = some row → replaces row = true → Fits before applied scenario id) :
    Stacked after applied below where
  chains scenario inside owner id different lineage promoted := by
    rcases extended.promotedBy_iff.mp promoted with promoted | ⟨-, made⟩
    · refine stacked.chains scenario inside owner id different
        ((extended.inLineage_cases lineage).resolve_right ?_) promoted
      rintro ⟨rfl, -⟩
      obtain ⟨row, found, -⟩ := promoted
      rw [extended.fresh] at found
      cases found
    · exact (later owner made scenario inside).2
  holders scenario inside key retired row found holds outside owner isApplied lineage := by
    have other : new.promotedFrom ≠ some scenario := fun own =>
      (later scenario own scenario inside).1 rfl
    have retired := extended.retiredAt other retired
    obtain ⟨-, rfl⟩ | ⟨old_, old, foundOld, ⟨-, rfl⟩ | ⟨-, rfl⟩⟩ := extended.found_cases found
    · obtain ⟨isBase, -, rfl⟩ := holds_iff.mp holds
      rcases extended.inLineage_cases lineage with earlier | ⟨-, made | ⟨last, first, foundLast,
        replaced, earlier⟩⟩
      · obtain ⟨first, foundFirst, -⟩ := sound.found_of_lineage earlier
        rw [extended.fresh] at foundFirst
        cases foundFirst
      · exact (later owner made scenario inside).2
      · exact fits scenario inside retired isBase last first foundLast replaced
          (fun own => outside (extended.inLineage_new sound foundLast replaced own)) owner isApplied
          earlier
    · refine stacked.holders scenario inside key retired row foundOld holds
        (fun own => outside (extended.inLineage_of_before sound own)) owner isApplied ?_
      exact (extended.inLineage_cases lineage).resolve_right fun isNew => old_ isNew.1
    · cases (holds_iff.mp holds).2.1

theorem Stacked.grown (stacked : Stacked before applied below)
    (sound : EventsSound before applied none)
    (grown : Relation.ReflTransGen Grows before after) : Stacked after applied below := by
  induction grown with
  | refl => exact stacked
  | @tail between last earlier grows inductionHypothesis =>
    obtain ⟨new, extended, plain⟩ := grows
    refine inductionHypothesis.extended (sound.grown earlier) extended (fun owner made => ?_)
      fun _ _ _ _ _ _ _ replaced => absurd replaced Bool.false_ne_true
    rw [plain] at made
    cases made

theorem Stacked.cleared {clears : EventRow → Bool} (stacked : Stacked before applied below)
    (cleared : Clears before after clears) : Stacked after applied below where
  chains scenario inside owner id different lineage promoted :=
    stacked.chains scenario inside owner id different (cleared.inLineage_iff.mp lineage)
      (cleared.promotedBy_iff.mp promoted)
  holders scenario inside key retired row found holds outside owner isApplied lineage := by
    rw [cleared.inLineage_iff] at outside lineage
    obtain ⟨old, foundOld, isRetired, other, same⟩ := retired
    obtain ⟨superseded, next, link, promoted⟩ := retiredBy_iff.mp isRetired
    have earlier : RetiredAt before scenario key := by
      obtain ⟨first, foundFirst, rfl | ⟨-, rfl⟩⟩ := cleared.found_cases foundOld
      · exact ⟨old, foundFirst, retiredBy_iff.mpr ⟨superseded, next, link,
          cleared.promotedBy_iff.mp promoted⟩, other, same⟩
      · cases superseded
    obtain ⟨first, foundFirst, rfl | ⟨-, rfl⟩⟩ := cleared.found_cases found
    · exact stacked.holders scenario inside key earlier row foundFirst holds outside owner isApplied
        lineage
    · cases (holds_iff.mp holds).2.1

/-- An edit keeps the scenarios stacked if it does not bring an event to a key where it does not
fit. -/
theorem Stacked.edited {replacement : NewAssumptionEvent} {createdAt : String}
    (stacked : Stacked vault.events applied applied) (sound : VaultSound vault applied)
    (found : vault.events.find id = some old)
    (extended : Extends vault.events after (replacement.row createdAt) (·.id = id))
    (keeps : KeepsOrder vault applied (.supersedeAssumptionEvent id replacement)) :
    Stacked after applied applied := by
  refine stacked.extended sound.events extended (fun owner made => by cases made) ?_
  intro scenario inside retired isBase other row foundRow replaced
  obtain rfl := find_id foundRow
  rw [of_decide_eq_true replaced] at foundRow ⊢
  obtain rfl := Option.some.inj (found.symm.trans foundRow)
  by_cases same : old.key = replacement.key
  · obtain ⟨active, scope, -⟩ := extended.replaced id old foundRow replaced
    rw [← of_decide_eq_true replaced] at foundRow ⊢
    exact stacked.holders scenario inside _ retired old foundRow
      (holds_iff.mpr ⟨scope.trans isBase, active, same⟩)
  · exact keeps old foundRow same scenario inside retired

/-! ### An apply -/

theorem Stacked.cons (stacked : Stacked before applied below) (within : below ⊆ applied)
    (newest : Uuid) : Stacked before (newest :: applied) below where
  chains scenario inside owner id different lineage promoted :=
    (stacked.chains scenario inside owner id different lineage promoted).cons newest
  holders scenario inside key retired row found holds outside owner isApplied lineage := by
    rcases List.mem_cons.mp isApplied with rfl | isApplied
    · exact appliedAfter_newest (within inside)
    · exact (stacked.holders scenario inside key retired row found holds outside owner isApplied
        lineage).cons newest

/-- Promoting events of the newest scenario keeps the others stacked. -/
theorem Stacked.promoted {k : Nat} {promotes : List EventRow}
    (stacked : Stacked before (scenario :: applied) applied)
    (sound : EventsSound before applied (some scenario)) (outside : scenario ∉ applied)
    (promoted : promoteAll libraries request scenario k promotes before = .ok after) :
    Stacked after (scenario :: applied) applied := by
  induction promotes generalizing k before with
  | nil =>
    obtain rfl := Except.ok.inj promoted
    exact stacked
  | cons event rest inductionHypothesis =>
    rw [promoteAll, bind_eq_ok] at promoted
    obtain ⟨between, first, others⟩ := promoted
    obtain ⟨newId, createdAt, extended⟩ := extends_promote first
    refine inductionHypothesis (stacked.extended sound extended ?_ ?_)
      (sound.extended extended rfl (fun _ => rfl) ?_) others
    · intro owner made other inside
      obtain rfl := Option.some.inj made
      exact ⟨fun same => outside (same ▸ inside), appliedAfter_newest inside⟩
    · intro other inside retired _ id row found replaced
      obtain rfl := find_id found
      exact stacked.holders other inside _ retired row found (Bool.and_eq_true_iff.mp replaced).2
    · intro owner same
      rwa [← Option.some.inj same]

/-- After its apply the newest scenario is stacked, too. -/
theorem Stacked.newest (stacked : Stacked vault'.events (scenario :: applied) applied)
    (just : JustApplied vault vault' scenario applied)
    (keeps : KeepsOrder vault applied (.applyScenario scenario)) :
    Stacked vault'.events (scenario :: applied) (scenario :: applied) where
  chains other inside owner id different lineage promoted := by
    rcases List.mem_cons.mp inside with rfl | inside
    · obtain ⟨row, found, made⟩ := promoted
      rcases just.alone id row lineage found with plain | own
      · rw [plain] at made
        cases made
      · exact absurd (Option.some.inj (made.symm.trans own)) different
    · exact stacked.chains other inside owner id different lineage promoted
  holders other inside key retired row found holds := by
    rcases List.mem_cons.mp inside with rfl | inside
    · intro outside owner isApplied lineage
      obtain ⟨old, foundOld, isRetired, otherOld, rfl⟩ := retired
      have otherRow : row.promotedFrom ≠ some other := fun own =>
        outside ⟨row.id, ⟨row, found, own⟩, .refl⟩
      obtain ⟨foundRow, free⟩ := just.found_before found (holds_iff.mp holds).2.1 otherRow
      have vacant : old.key ∉ collisionKeys (promotable vault.events other) := fun among =>
        Bool.false_ne_true ((free old.key among).symm.trans holds)
      obtain ⟨foundStale, stale⟩ | ⟨-, -, -, -, -, -, among⟩ :=
        just.retired_cases foundOld isRetired otherOld
      · have collision := (just.collides_of_retired foundStale stale otherOld).1
        have unpromoted : ∀ event, vault.events.find event.id = some event →
            event.scenarioId = some other → event.status = .active → event.key ≠ old.key :=
          fun event foundEvent scope active same => vacant (mem_collisionKeys_promotable.mpr
            ⟨(collides_iff.mp collision).2, event, foundEvent, scope, active, same⟩)
        have unmade := keeps old.key ⟨old, foundStale, stale, otherOld, rfl⟩ unpromoted row foundRow
          holds
        rcases List.mem_cons.mp isApplied with rfl | isApplied
        · exact absurd lineage outside
        · rcases just.promotion.lineage owner row.id lineage with earlier | absent
          · exact absurd earlier (unmade owner isApplied)
          · rw [foundRow] at absent
            cases absent
      · exact absurd among vacant
    · exact stacked.holders other inside key retired row found holds

/-! ### An undo -/

theorem Undone.held_of_link {now : EventRow} {next : Uuid} (undone : Undone before scenario row now)
    (sound : EventsSound before applied promoting) (found : before.find row.id = some row)
    (link : now.supersededBy = some next) (promoted : PromotedBy before scenario next) :
    row.retiredBy before scenario = true ∧ row.promotedFrom ≠ some scenario ∧
      ∃ holder, Holder before scenario row holder := by
  have earlier := undone.link link
  have superseded : row.status = .superseded := by
    rw [sound.linked row.id row found, earlier]
    exact nofun
  have retired := retiredBy_iff.mpr ⟨superseded, next, earlier, promoted⟩
  cases undone with
  | restored => cases link
  | ownRetired => cases link
  | descendant _ _ active =>
    rw [superseded] at active
    cases active
  | ownActive _ active =>
    rw [superseded] at active
    cases active
  | kept _ unrestored => exact ⟨retired, unrestored retired⟩

theorem Undoes.inLineage_of_before (undoes : Undoes before after scenario)
    (lineage : InLineage before owner id) :
    InLineage after owner id ∨ InLineage before scenario id := by
  obtain ⟨head, promoted, reached⟩ := lineage
  induction reached with
  | refl => exact .inl ⟨head, undoes.promotedBy_iff.mpr promoted, .refl⟩
  | @tail middle last _ linked inductionHypothesis =>
    rcases inductionHypothesis with kept | own
    · obtain ⟨row, found, link⟩ := linked_iff.mp linked
      obtain ⟨now, foundNow, undone⟩ := undoes.found_old middle row found
      have continued : now.supersededBy = some last → InLineage after owner last := by
        intro link
        obtain ⟨first, made, earlier⟩ := kept
        exact ⟨first, made, earlier.tail (linked_iff.mpr ⟨now, foundNow, link⟩)⟩
      have restarted : row.retiredBy before scenario = true → InLineage before scenario last := by
        intro retired
        obtain ⟨-, next, same, made⟩ := retiredBy_iff.mp retired
        obtain rfl := Option.some.inj (link.symm.trans same)
        exact ⟨last, made, .refl⟩
      cases undone with
      | restored retired => exact .inr (restarted retired)
      | ownRetired _ retired => exact .inr (restarted retired)
      | descendant => exact .inl (continued link)
      | ownActive => exact .inl (continued link)
      | kept => exact .inl (continued link)
    · obtain ⟨first, made, earlier⟩ := own
      exact .inr ⟨first, made, earlier.tail linked⟩

theorem Undoes.not_promotedBy (undoes : Undoes before after scenario)
    (sound : EventsSound before applied none) (keeps : UndoKeepsOrder before applied scenario)
    (isApplied : owner ∈ applied) (different : owner ≠ scenario)
    (lineage : InLineage after owner id) : ¬ PromotedBy after scenario id := by
  obtain ⟨head, ⟨first, foundFirst, promoted⟩, reached⟩ := lineage
  induction reached with
  | refl =>
    rintro ⟨row, found, made⟩
    obtain rfl := Option.some.inj (foundFirst.symm.trans found)
    exact different (Option.some.inj (promoted.symm.trans made))
  | @tail middle last earlier linked _ =>
    intro made
    obtain ⟨now, foundNow, link⟩ := linked_iff.mp linked
    obtain ⟨row, found, undone⟩ := undoes.found_cases middle now foundNow
    obtain rfl := find_id found
    obtain ⟨retired, other, held⟩ :=
      undone.held_of_link sound found link (undoes.promotedBy_iff.mp made)
    exact (keeps row found retired other owner isApplied different).1 held
      (undoes.inLineage ⟨head, ⟨first, foundFirst, promoted⟩, earlier⟩)

/-- An undo that keeps the order keeps the other scenarios stacked. -/
theorem Stacked.undone (stacked : Stacked before applied applied)
    (sound : EventsSound before applied none) (undoes : Undoes before after scenario)
    (keeps : UndoKeepsOrder before applied scenario) :
    Stacked after (applied.filter (· ≠ scenario)) (applied.filter (· ≠ scenario)) where
  chains other inside owner id different lineage promoted := by
    obtain ⟨isApplied, isOther⟩ := List.mem_filter.mp inside
    have isOther : other ≠ scenario := of_decide_eq_true isOther
    have ownerOther : owner ≠ scenario := by
      rintro rfl
      exact undoes.not_promotedBy sound keeps isApplied isOther lineage promoted
    exact (stacked.chains other isApplied owner id different (undoes.inLineage lineage)
      (undoes.promotedBy_iff.mp promoted)).filter ownerOther isOther
  holders other inside key retired now foundNow holds outside owner ownerInside lineage := by
    obtain ⟨isApplied, isOther⟩ := List.mem_filter.mp inside
    obtain ⟨ownerApplied, ownerOther⟩ := List.mem_filter.mp ownerInside
    have isOther : other ≠ scenario := of_decide_eq_true isOther
    have retired : RetiredAt before other key := by
      obtain ⟨nowOld, foundOld, isRetired, otherOld, rfl⟩ := retired
      obtain ⟨-, next, link, made⟩ := retiredBy_iff.mp isRetired
      obtain ⟨old, found, undone⟩ := undoes.found_cases nowOld.id nowOld foundOld
      obtain ⟨sameId, sameKey, -, -, sameFrom⟩ := undone.same
      have superseded : old.status = .superseded := by
        rw [sound.linked _ old found, undone.link link]
        exact nofun
      refine ⟨old, by rwa [← sameId], retiredBy_iff.mpr
        ⟨superseded, next, undone.link link, undoes.promotedBy_iff.mp made⟩, ?_, sameKey.symm⟩
      rwa [← sameFrom]
    obtain ⟨row, found, undone⟩ := undoes.found_cases now.id now foundNow
    obtain ⟨sameId, sameKey, -, sameScope, -⟩ := undone.same
    obtain ⟨isBase, active, same⟩ := holds_iff.mp holds
    rw [sameId] at found outside lineage
    rw [sameKey] at same
    rw [sameScope] at isBase
    have earlier := undoes.inLineage lineage
    suffices fits : Fits before applied other row.id ∧ ¬ InLineage before scenario row.id by
      refine (fits.1 (fun own => outside ?_) owner ownerApplied earlier).filter
        (of_decide_eq_true ownerOther) isOther
      exact (undoes.inLineage_of_before own).resolve_right fits.2
    obtain ⟨wasActive, otherRow, apart⟩ | ⟨isRetired, otherRow, free⟩ := undone.active_iff.mp active
    · refine ⟨stacked.holders other isApplied key retired row found
        (holds_iff.mpr ⟨isBase, wasActive, same⟩), fun made => apart ⟨made, ?_⟩⟩
      exact (undoes.alone row.id row made found).resolve_right otherRow
    · obtain ⟨-, next, link, made⟩ := retiredBy_iff.mp isRetired
      subst same
      exact ⟨(keeps row found isRetired otherRow other isApplied isOther).2 free retired,
        sound.apart scenario row.id row next found link made otherRow⟩

theorem undoes_retired (plainly : UndoesPlainly before scenario)
    (found : ∀ id, after.find id = (before.find id).map fun row =>
      clearOwn scenario (if row.retiredBy before scenario then row.restore else row)) :
    Undoes before after scenario := by
  obtain ⟨alone, undescended, unheld⟩ := plainly
  refine undoes_of_find alone found fun id row foundRow => ?_
  obtain rfl := find_id foundRow
  by_cases retired : row.retiredBy before scenario = true
  · rw [if_pos retired]
    by_cases own : row.promotedFrom = some scenario
    · have cleared : clearOwn scenario row.restore = row.restore.clear := clearOwn_of_active own rfl
      rw [cleared]
      exact .ownRetired own retired
    · have same : clearOwn scenario row.restore = row.restore := clearOwn_of_other own
      rw [same]
      exact .restored retired own fun ⟨holder, holds⟩ => unheld row holder foundRow retired holds
  · rw [if_neg retired]
    by_cases own : row.promotedFrom = some scenario ∧ row.status = .active
    · rw [clearOwn_of_active own.1 own.2]
      exact .ownActive own.1 own.2
    · have same : clearOwn scenario row = row := by
        by_cases isOwn : row.promotedFrom = some scenario
        · exact clearOwn_of_inactive fun active => own ⟨isOwn, active⟩
        · exact clearOwn_of_other isOwn
      rw [same]
      exact .kept (fun lineage plain => undescended row.id row lineage foundRow plain)
        (fun isRetired => absurd isRetired retired) fun isOwn active => own ⟨isOwn, active⟩

/-! ### Runs -/

/-- An accepted command that keeps the order keeps the vault sound and the scenarios stacked. -/
theorem Stacked.dispatch {command : ScenarioCommand}
    (stacked : Stacked vault.events applied applied) (sound : VaultSound vault applied)
    (keeps : KeepsOrder vault applied command)
    (accepted : DbWorker.dispatch libraries request vault command = .ok vault') :
    VaultSound vault' (appliedAfter command applied) ∧
      Stacked vault'.events (appliedAfter command applied) (appliedAfter command applied) := by
  have effect := effect_of_dispatch accepted
  refine ⟨sound.dispatch accepted fun scenario same => ?_, ?_⟩
  · subst same
    cases effect with
    | grown _ _ order => exact absurd (order [scenario]) (by simp [appliedAfter])
    | retired _ found _ => exact undoes_retired keeps.1 found
  · cases effect with
    | grown grown _ order =>
      rw [order]
      exact stacked.grown sound.events grown
    | edited found _ extended _ => exact stacked.edited sound found extended keeps
    | cleared cleared _ => exact stacked.cleared cleared
    | @applied scenario unapplied promotes promoted marked =>
      have just := justApplied_of_dispatch sound accepted
      refine Stacked.newest ?_ just keeps
      exact (stacked.cons (List.Subset.refl _) scenario).promoted
        (sound.events.promoting scenario) just.outside promoted
    | retired _ found _ => exact stacked.undone sound.events (undoes_retired keeps.1 found) keeps.2
    | undone _ _ undoes _ => exact stacked.undone sound.events undoes keeps

theorem stacked_of_reached (reached : Reached libraries KeepsOrder vault applied) :
    VaultSound vault applied ∧ Stacked vault.events applied applied := by
  induction reached with
  | start => exact ⟨vaultSound_empty, stacked_empty⟩
  | step _ keeps accepted inductionHypothesis =>
    exact inductionHypothesis.2.dispatch inductionHypothesis.1 keeps accepted

/-- The undo of an applied scenario waits for another one. -/
def Blocks (vault : AssumptionVault) (scenario later : Uuid) : Prop :=
  stillApplied vault.scenarios scenario = true ∧ (planRevert scenario vault).blocker = some later

/-- Undo scenarios one after the other, each with the ids that its plan lists. -/
def undoAll : List Uuid → AssumptionVault → Except DbError AssumptionVault
  | [], vault => .ok vault
  | scenario :: rest, vault => do
    let vault ← revertScenarioApplyConfirmed scenario (planRevert scenario vault).descendants vault
    undoAll rest vault

/-- Each of these undos keeps the order. -/
def UndosKeepOrder : List Uuid → AssumptionVault → Prop
  | [], _ => True
  | scenario :: rest, vault => UndoKeepsOrder vault.events (scenario :: rest) scenario ∧
    ∀ vault', revertScenarioApplyConfirmed scenario (planRevert scenario vault).descendants vault =
      .ok vault' → UndosKeepOrder rest vault'

/-- A later scenario comes before every scenario whose undo waits for it. -/
theorem Stacked.blocks (stacked : Stacked vault.events applied applied)
    (sound : VaultSound vault applied) {later : Uuid} (blocks : Blocks vault scenario later) :
    AppliedAfter applied later scenario :=
  stacked.blocker sound ((sound.marked scenario).mp blocks.1) blocks.2

theorem Stacked.newest_unblocked (stacked : Stacked vault.events (scenario :: below)
    (scenario :: below)) (sound : VaultSound vault (scenario :: below)) :
    (planRevert scenario vault).blocker = none := by
  cases blocked : (planRevert scenario vault).blocker with
  | none => rfl
  | some later =>
    have order := (stacked.blocker sound List.mem_cons_self blocked).idxOf_lt sound.once
    rw [List.idxOf_cons_self] at order
    exact absurd order (Nat.not_lt_zero _)

theorem Stacked.acyclic (stacked : Stacked vault.events applied applied)
    (sound : VaultSound vault applied) {later : Uuid}
    (blocks : Relation.TransGen (Blocks vault) scenario later) :
    applied.idxOf later < applied.idxOf scenario := by
  induction blocks with
  | single blocks => exact (stacked.blocks sound blocks).idxOf_lt sound.once
  | tail _ blocks inductionHypothesis =>
    exact ((stacked.blocks sound blocks).idxOf_lt sound.once).trans inductionHypothesis

/-- All applies are undone, the last one first. -/
theorem Stacked.undoAll (stacked : Stacked vault.events applied applied)
    (sound : VaultSound vault applied) (keeps : UndosKeepOrder applied vault) :
    ∃ last, DbWorker.undoAll applied vault = .ok last ∧
      ∀ scenario, stillApplied last.scenarios scenario = false := by
  induction applied generalizing vault with
  | nil =>
    refine ⟨vault, rfl, fun scenario => Bool.eq_false_iff.mpr fun isApplied => ?_⟩
    exact absurd ((sound.marked scenario).mp isApplied) List.not_mem_nil
  | cons scenario rest inductionHypothesis =>
    obtain ⟨keepsFirst, keepsRest⟩ := keeps
    have plan : OpenPlan vault scenario (planRevert scenario vault) := by
      have unblocked := stacked.newest_unblocked sound
      obtain ⟨later, blocked, -⟩ | ⟨-, later, blocked, -⟩ | plan := planRevert_cases vault scenario
      · rw [unblocked] at blocked
        cases blocked
      · rw [unblocked] at blocked
        cases blocked
      · exact plan
    obtain ⟨between, accepted⟩ :=
      revert_accepted plan ((sound.marked scenario).mpr List.mem_cons_self)
    obtain ⟨-, unmarked, -, -, undoes⟩ := undoes_confirmed accepted
    have others : (scenario :: rest).filter (· ≠ scenario) = rest := by
      rw [List.filter_cons_of_neg (by simp), List.filter_eq_self]
      exact fun other inside => decide_eq_true fun same =>
        (List.nodup_cons.mp sound.once).1 (same ▸ inside)
    have stackedRest := stacked.undone sound.events undoes keepsFirst
    have soundRest : VaultSound between ((scenario :: rest).filter (· ≠ scenario)) := by
      have dispatched : DbWorker.dispatch ⟨fun _ => true, fun _ => "", fun _ _ id => id,
          fun _ _ => scenario⟩ ⟨scenario, 0⟩ vault (.revertScenarioApplyConfirmed scenario
            (planRevert scenario vault).descendants) = .ok between := accepted
      exact sound.dispatch dispatched (fun _ same => by cases same)
    rw [others] at stackedRest soundRest
    obtain ⟨last, ended, none_⟩ :=
      inductionHypothesis stackedRest soundRest (keepsRest between accepted)
    refine ⟨last, ?_, none_⟩
    rw [DbWorker.undoAll, accepted]
    exact ended

/-- Two scenarios set the same rate. -/
def pairCommands : List ScenarioCommand :=
  [.createScenario ⟨sampleEventId 1, "First", none⟩,
    .createScenario ⟨sampleEventId 2, "Second", none⟩,
    .recordAssumptionEvent (sampleEvent 10 (some 1)),
    .recordAssumptionEvent (sampleEvent 11 (some 2))]

def pairVault : AssumptionVault := (runSample 1 pairCommands .empty).getD .empty

/-- The first one is applied. -/
def oneApplied : AssumptionVault :=
  (runSample 5 [.applyScenario (sampleEventId 1)] pairVault).getD .empty

/-- And then the second one. -/
def bothApplied : AssumptionVault :=
  (runSample 6 [.applyScenario (sampleEventId 2)] oneApplied).getD .empty

theorem keepsOrder_first
    (first : ∀ row ∈ vault.events.rows, row.retiredBy vault.events scenario = false) :
    KeepsOrder vault applied (.applyScenario scenario) := by
  rintro key ⟨old, found, retired, -⟩
  rw [first old (mem_rows_iff.mpr found)] at retired
  cases retired

theorem bothApplied_reached : Reached sampleLibraries KeepsOrder bothApplied
    [sampleEventId 2, sampleEventId 1] := by
  have pair : Reached sampleLibraries KeepsOrder pairVault [] :=
    reached_of_runSample .start (by simp [pairCommands, KeepsOrder])
      (show runSample 1 pairCommands .empty = some pairVault by decide +kernel)
  have one : Reached sampleLibraries KeepsOrder oneApplied [sampleEventId 1] :=
    pair.step (keepsOrder_first (by decide +kernel))
      (show dispatch sampleLibraries ⟨sampleEventId 5, 5⟩ pairVault
        (.applyScenario (sampleEventId 1)) = .ok oneApplied by decide +kernel)
  exact one.step (keepsOrder_first (by decide +kernel))
    (show dispatch sampleLibraries ⟨sampleEventId 6, 6⟩ oneApplied
      (.applyScenario (sampleEventId 2)) = .ok bothApplied by decide +kernel)

/-- The person clears the rate of the second scenario and records a newer one, which the undo of the
second scenario keeps. -/
def keptCommands : List ScenarioCommand :=
  [.clearAssumptionEvent (sampleEventId 106), .recordAssumptionEvent (sampleEvent 30 none),
    .revertScenarioApplyConfirmed (sampleEventId 2) []]

def keptVault : AssumptionVault := (runSample 7 keptCommands bothApplied).getD .empty

end Dohflow.DbWorker
