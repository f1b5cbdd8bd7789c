/-
This file labels items along a relation with a worklist: from a first item, and from
several items in turn.

An item is looked up by its key, and every item it leads to that has no label yet gets
one and is looked at in turn. What a label finds is what its first item leads to through
items that had no label (`spread_iff`). When several first items are spread in turn, an
item has the label of the earliest of them that leads to it so (`spreadAll_iff`).
-/

import Mathlib.Data.List.Induction
import Mathlib.Data.List.Nodup
import Mathlib.Logic.Function.Basic
import Mathlib.Logic.Relation

namespace Worklist

variable {Item Key Label : Type} [DecidableEq Key]

/-- The labels so far, and the keys of the items still to be looked at, the next one first. -/
structure Progress (Key Label : Type) where
  labels : Key → Option Label
  frontier : List Key

section

variable (items : List Item) (key : Item → Key) (leads : Item → Item → Bool)

/-- From the item looked at, label another one and put it on the frontier. -/
def visit (label : Label) (seed : Item) (progress : Progress Key Label) (other : Item) :
    Progress Key Label :=
  if leads seed other && (progress.labels (key other)).isNone then
    { labels := Function.update progress.labels (key other) (some label)
      frontier := key other :: progress.frontier }
  else progress

/-- The same for every item. -/
def visitAll (label : Label) (seed : Item) (progress : Progress Key Label) : Progress Key Label :=
  items.foldl (visit key leads label seed) progress

/-- How many items have no label. -/
def unlabelled (labels : Key → Option Label) : Nat :=
  items.countP fun item => (labels (key item)).isNone

/-- What is left to be done. -/
def remaining (progress : Progress Key Label) : Nat :=
  2 * unlabelled items key progress.labels + progress.frontier.length

variable {items key leads} {label : Label} {seed other : Item} {progress : Progress Key Label}

theorem unlabelled_update_lt (label : Label) {labels : Key → Option Label} (member : other ∈ items)
    (unlabelledBefore : labels (key other) = none) :
    unlabelled items key (Function.update labels (key other) (some label)) <
      unlabelled items key labels := by
  obtain ⟨before, after, rfl⟩ := List.append_of_mem member
  have fewer : ∀ part : List Item,
      unlabelled part key (Function.update labels (key other) (some label)) ≤
        unlabelled part key labels := by
    refine fun part => List.countP_mono_left fun item _ without => ?_
    by_cases same : key item = key other
    · rw [same, unlabelledBefore]
      rfl
    · rwa [Function.update_of_ne same] at without
  have early := fewer before
  have late := fewer after
  simp only [unlabelled, List.countP_append, List.countP_cons, Function.update_self,
    unlabelledBefore, Option.isNone_some, Option.isNone_none, Bool.false_eq_true, if_false,
    if_true] at early late ⊢
  omega

theorem remaining_visit (member : other ∈ items) :
    remaining items key (visit key leads label seed progress other) ≤
      remaining items key progress := by
  unfold visit
  split
  · next visits =>
    obtain ⟨-, without⟩ := Bool.and_eq_true_iff.mp visits
    have fewer := unlabelled_update_lt label member (Option.isNone_iff_eq_none.mp without)
    simp only [remaining, List.length_cons]
    omega
  · exact Nat.le_refl _

theorem remaining_visits {part : List Item} (members : ∀ item ∈ part, item ∈ items) :
    remaining items key (part.foldl (visit key leads label seed) progress) ≤
      remaining items key progress := by
  induction part generalizing progress with
  | nil => exact Nat.le_refl _
  | cons other rest inductionHypothesis =>
    exact Nat.le_trans
      (inductionHypothesis fun item inside => members item (List.mem_cons_of_mem _ inside))
      (remaining_visit (members other List.mem_cons_self))

variable (items key leads)

/-- Look at the items on the frontier, the last one put there first, until none is left. -/
def spread (label : Label) : Progress Key Label → Key → Option Label
  | ⟨labels, []⟩ => labels
  | ⟨labels, current :: frontier⟩ =>
    match items.find? fun item => key item = current with
    | none => spread label ⟨labels, frontier⟩
    | some seed => spread label (visitAll items key leads label seed ⟨labels, frontier⟩)
termination_by progress => remaining items key progress
decreasing_by
  · simp only [remaining, List.length_cons]
    omega
  · refine Nat.lt_of_le_of_lt (remaining_visits fun _ inside => inside :
      remaining items key (visitAll items key leads label seed _) ≤ _) ?_
    simp only [remaining, List.length_cons]
    omega

/-- Spread a label from each of several items in turn. -/
def spreadAll (label : Item → Label) (labels : Key → Option Label) (firsts : List Item) :
    Key → Option Label :=
  firsts.foldl (fun labels first => spread items key leads (label first) ⟨labels, [key first]⟩)
    labels

/-- One item leads to another that has no label. -/
def Step (labels : Key → Option Label) (item next : Item) : Prop :=
  next ∈ items ∧ labels (key next) = none ∧ leads item next = true

/-- One item leads to another through items that have no label, the last one included. -/
def Leads (labels : Key → Option Label) : Item → Item → Prop :=
  Relation.ReflTransGen (Step items key leads labels)

end

/-! ### One first item -/

variable {items : List Item} {key : Item → Key} {leads : Item → Item → Bool}
  {label : Label} {seed first item other : Item} {before : Key → Option Label}
  {progress : Progress Key Label}

/-- What a label has found so far, but for an item that is being looked at. -/
structure Spreading (items : List Item) (key : Item → Key) (leads : Item → Item → Bool)
    (before : Key → Option Label) (label : Label) (first : Item) (exempt : Key → Prop)
    (progress : Progress Key Label) : Prop where
  labels : ∀ item ∈ items, progress.labels (key item) = before (key item) ∨
    before (key item) = none ∧ progress.labels (key item) = some label ∧
      Leads items key leads before first item
  frontier : ∀ current ∈ progress.frontier, ∃ item ∈ items, key item = current ∧
    Leads items key leads before first item
  closed : ∀ item ∈ items, Leads items key leads before first item →
    progress.labels (key item) ≠ none → ¬ exempt (key item) → key item ∉ progress.frontier →
    ∀ other ∈ items, leads item other = true → progress.labels (key other) ≠ none

omit [DecidableEq Key] in
theorem leads_to_labelled (labelled : before (key item) ≠ none)
    (path : Leads items key leads before first item) : item = first := by
  rcases Relation.ReflTransGen.cases_tail path with rfl | ⟨earlier, -, step⟩
  · rfl
  · exact absurd step.2.1 labelled

omit [DecidableEq Key] in
theorem mem_of_leads (member : first ∈ items) (path : Leads items key leads before first item) :
    item ∈ items := by
  rcases Relation.ReflTransGen.cases_tail path with rfl | ⟨earlier, -, step⟩
  · exact member
  · exact step.1

omit [DecidableEq Key] in
theorem spreading_first (member : first ∈ items) :
    Spreading items key leads before label first (fun _ => False) ⟨before, [key first]⟩ where
  labels _ _ := .inl rfl
  frontier current waiting := ⟨first, member, (List.mem_singleton.mp waiting).symm, .refl⟩
  closed item _ path labelled _ looked := by
    rw [leads_to_labelled labelled path] at looked
    exact absurd (List.mem_singleton.mpr rfl) looked

section

variable {exempt : Key → Prop}

theorem labels_visit_ne_none {current : Key} (labelled : progress.labels current ≠ none) :
    (visit key leads label seed progress other).labels current ≠ none := by
  unfold visit
  split
  · show Function.update progress.labels (key other) (some label) current ≠ none
    by_cases same : current = key other
    · rw [same, Function.update_self]
      exact nofun
    · rwa [Function.update_of_ne same]
  · exact labelled

theorem labels_visit (led : leads seed other = true) :
    (visit key leads label seed progress other).labels (key other) ≠ none := by
  unfold visit
  split
  · show Function.update progress.labels (key other) (some label) (key other) ≠ none
    rw [Function.update_self]
    exact nofun
  · next skipped =>
    simp only [led, Bool.true_and, Option.isNone_iff_eq_none] at skipped
    exact skipped

theorem Spreading.visit (distinct : (items.map key).Nodup)
    (spreading : Spreading items key leads before label first exempt progress)
    (path : Leads items key leads before first seed) (member : other ∈ items) :
    Spreading items key leads before label first exempt
      (visit key leads label seed progress other) := by
  by_cases visits : (leads seed other && (progress.labels (key other)).isNone) = true
  swap
  · rwa [Worklist.visit, if_neg visits]
  obtain ⟨led, without⟩ := Bool.and_eq_true_iff.mp visits
  rw [Option.isNone_iff_eq_none] at without
  have vacant : before (key other) = none := by
    obtain same | ⟨vacant, -⟩ := spreading.labels other member
    · exact same.symm.trans without
    · exact vacant
  have pathOther : Leads items key leads before first other := path.tail ⟨member, vacant, led⟩
  have named : ∀ item ∈ items, key item = key other → item = other := fun item inside same =>
    List.inj_on_of_nodup_map distinct inside member same
  have monotone : ∀ current, progress.labels current ≠ none →
      (Worklist.visit key leads label seed progress other).labels current ≠ none :=
    fun current => labels_visit_ne_none
  refine ⟨fun item inside => ?_, fun current waiting => ?_, ?_⟩
  · rw [Worklist.visit, if_pos visits]
    show Function.update progress.labels (key other) (some label) (key item) = _ ∨
      _ ∧ Function.update progress.labels (key other) (some label) (key item) = _ ∧ _
    by_cases same : key item = key other
    · rw [same, Function.update_self, named item inside same]
      exact .inr ⟨vacant, rfl, pathOther⟩
    · rw [Function.update_of_ne same]
      exact spreading.labels item inside
  · rw [Worklist.visit, if_pos visits] at waiting
    rcases List.mem_cons.mp waiting with rfl | waiting
    · exact ⟨other, member, rfl, pathOther⟩
    · exact spreading.frontier current waiting
  · intro item inside pathItem labelled unexempt looked next memberNext ledNext
    rw [Worklist.visit, if_pos visits] at labelled looked
    obtain ⟨different, looked⟩ := not_or.mp (mt List.mem_cons.mpr looked)
    have labelled : progress.labels (key item) ≠ none := by
      have same : Function.update progress.labels (key other) (some label) (key item) =
          progress.labels (key item) := Function.update_of_ne different _ _
      exact fun vacant => labelled (same.trans vacant)
    exact monotone _ (spreading.closed item inside pathItem labelled unexempt looked next
      memberNext ledNext)

theorem Spreading.visitAll (distinct : (items.map key).Nodup) (member : seed ∈ items)
    (path : Leads items key leads before first seed)
    (spreading : Spreading items key leads before label first (fun current => current = key seed)
      progress) :
    Spreading items key leads before label first (fun _ => False)
      (visitAll items key leads label seed progress) := by
  have visited : ∀ (part : List Item) (progress : Progress Key Label),
      (∀ item ∈ part, item ∈ items) →
      Spreading items key leads before label first (fun current => current = key seed) progress →
      Spreading items key leads before label first (fun current => current = key seed)
        (part.foldl (Worklist.visit key leads label seed) progress) ∧
      (∀ current, progress.labels current ≠ none →
        (part.foldl (Worklist.visit key leads label seed) progress).labels current ≠ none) ∧
      ∀ other ∈ part, leads seed other = true →
        (part.foldl (Worklist.visit key leads label seed) progress).labels (key other) ≠ none := by
    intro part
    induction part with
    | nil => exact fun progress _ spreading => ⟨spreading, fun _ labelled => labelled, nofun⟩
    | cons other rest inductionHypothesis =>
      intro progress members spreading
      obtain ⟨later, kept, found⟩ := inductionHypothesis
        (Worklist.visit key leads label seed progress other)
        (fun item inside => members item (List.mem_cons_of_mem _ inside))
        (spreading.visit distinct path (members other List.mem_cons_self))
      refine ⟨later, fun current labelled => kept current (labels_visit_ne_none labelled), ?_⟩
      intro next inside led
      rcases List.mem_cons.mp inside with rfl | inside
      · exact kept _ (labels_visit led)
      · exact found next inside led
  obtain ⟨later, -, found⟩ := visited items progress (fun _ inside => inside) spreading
  refine ⟨later.labels, later.frontier, ?_⟩
  intro item inside pathItem labelled _ looked next memberNext led
  by_cases same : key item = key seed
  · rw [List.inj_on_of_nodup_map distinct inside member same] at led
    exact found next memberNext led
  · exact later.closed item inside pathItem labelled same looked next memberNext led

end

/-- A label is spread until every item it found has been looked at. -/
theorem Spreading.spread (distinct : (items.map key).Nodup)
    (spreading : Spreading items key leads before label first (fun _ => False) progress) :
    Spreading items key leads before label first (fun _ => False)
      ⟨spread items key leads label progress, []⟩ := by
  induction progress using spread.induct items key leads label with
  | case1 labels =>
    rw [Worklist.spread]
    exact spreading
  | case2 labels current frontier absent =>
    obtain ⟨item, inside, rfl, -⟩ := spreading.frontier current List.mem_cons_self
    have found := List.find?_eq_none.mp absent item inside
    simp at found
  | case3 labels current frontier seed found inductionHypothesis =>
    rw [Worklist.spread, found]
    have named := List.find?_some found
    rw [decide_eq_true_eq] at named
    subst named
    have member := List.mem_of_find?_eq_some found
    obtain ⟨item, inside, same, path⟩ := spreading.frontier (key seed) List.mem_cons_self
    rw [List.inj_on_of_nodup_map distinct inside member same] at path
    refine inductionHypothesis (Spreading.visitAll distinct member path ?_)
    refine ⟨spreading.labels, fun current waiting =>
      spreading.frontier current (List.mem_cons_of_mem _ waiting), ?_⟩
    intro item inside pathItem labelled other looked
    refine spreading.closed item inside pathItem labelled not_false fun waiting => ?_
    exact (List.mem_cons.mp waiting).elim other looked

theorem spread_of_labelled (distinct : (items.map key).Nodup) (member : first ∈ items)
    (inside : item ∈ items) (held : before (key item) ≠ none) :
    spread items key leads label ⟨before, [key first]⟩ (key item) = before (key item) := by
  obtain same | ⟨vacant, -⟩ := ((spreading_first member).spread distinct).labels item inside
  · exact same
  · exact absurd vacant held

theorem spread_of_vacant (label : Label) (distinct : (items.map key).Nodup) (member : first ∈ items)
    (labelled : before (key first) ≠ none) (inside : item ∈ items)
    (vacant : before (key item) = none) :
    (Leads items key leads before first item ∧
        spread items key leads label ⟨before, [key first]⟩ (key item) = some label) ∨
      (¬ Leads items key leads before first item ∧
        spread items key leads label ⟨before, [key first]⟩ (key item) = none) := by
  have spreading : Spreading items key leads before label first (fun _ => False)
      ⟨spread items key leads label ⟨before, [key first]⟩, []⟩ :=
    (spreading_first member).spread distinct
  have found : ∀ item, Leads items key leads before first item →
      spread items key leads label ⟨before, [key first]⟩ (key item) ≠ none := by
    intro item path
    induction path with
    | refl => rwa [spread_of_labelled distinct member member labelled]
    | tail earlier step inductionHypothesis =>
      exact spreading.closed _ (mem_of_leads member earlier) earlier inductionHypothesis not_false
        List.not_mem_nil _ step.1 step.2.2
  obtain same | ⟨-, given, path⟩ := spreading.labels item inside
  · exact .inr ⟨fun path => found item path (same.trans vacant), same.trans vacant⟩
  · exact .inl ⟨path, given⟩

/-! ### Several first items -/

variable {firsts : List Item} {labelOf : Item → Label}

/-- The first of these items that leads to an item. -/
def FirstLeading (items : List Item) (key : Item → Key) (leads : Item → Item → Bool)
    (before : Key → Option Label) (firsts : List Item) (item first : Item) : Prop :=
  ∃ earlier later, firsts = earlier ++ first :: later ∧ Leads items key leads before first item ∧
    ∀ other ∈ earlier, ¬ Leads items key leads before other item

omit [DecidableEq Key] in
theorem FirstLeading.append {item : Item} {more : List Item}
    (leading : FirstLeading items key leads before firsts item first) :
    FirstLeading items key leads before (firsts ++ more) item first := by
  obtain ⟨earlier, later, rfl, path, others⟩ := leading
  exact ⟨earlier, later ++ more, by rw [List.append_assoc, List.cons_append], path, others⟩

/-- What is known of the labels once they are spread from some first items. -/
structure SpreadFrom (items : List Item) (key : Item → Key) (leads : Item → Item → Bool)
    (labelOf : Item → Label) (before : Key → Option Label) (firsts : List Item)
    (after : Key → Option Label) : Prop where
  kept : ∀ item ∈ items, before (key item) ≠ none → after (key item) = before (key item)
  spread : ∀ item ∈ items, before (key item) = none →
    (∃ first, FirstLeading items key leads before firsts item first ∧
      after (key item) = some (labelOf first)) ∨
    (∀ first ∈ firsts, ¬ Leads items key leads before first item) ∧ after (key item) = none

omit [DecidableEq Key] in
theorem SpreadFrom.leads_iff {after : Key → Option Label} {start : Item}
    (done : SpreadFrom items key leads labelOf before firsts after)
    (unfound : ∀ first ∈ firsts, ¬ Leads items key leads before first item) :
    Leads items key leads after start item ↔ Leads items key leads before start item := by
  constructor
  · intro path
    clear unfound
    induction path with
    | refl => exact .refl
    | tail rest step inductionHypothesis =>
      refine inductionHypothesis.tail ⟨step.1, ?_, step.2.2⟩
      by_contra held
      exact absurd ((done.kept _ step.1 held).symm.trans step.2.1) held
  · intro path
    induction path using Relation.ReflTransGen.head_induction_on with
    | refl => exact .refl
    | head step rest inductionHypothesis =>
      refine .head ⟨step.1, ?_, step.2.2⟩ inductionHypothesis
      obtain ⟨first, ⟨earlier, later, rfl, path, -⟩, -⟩ | ⟨-, vacant⟩ :=
        done.spread _ step.1 step.2.1
      · exact absurd (path.trans rest) (unfound first (by simp))
      · exact vacant

theorem spreadAll_spreadFrom (distinct : (items.map key).Nodup)
    (members : ∀ first ∈ firsts, first ∈ items ∧ before (key first) ≠ none) :
    SpreadFrom items key leads labelOf before firsts
      (spreadAll items key leads labelOf before firsts) := by
  induction firsts using List.reverseRecOn with
  | nil => exact ⟨fun _ _ _ => rfl, fun item _ vacant => .inr ⟨nofun, vacant⟩⟩
  | append_singleton firsts last inductionHypothesis =>
    have done := inductionHypothesis fun first inside =>
      members first (List.mem_append_left _ inside)
    obtain ⟨member, labelled⟩ := members last (by simp)
    rw [spreadAll, List.foldl_append]
    show SpreadFrom _ _ _ _ _ _ (spread items key leads (labelOf last)
      ⟨spreadAll items key leads labelOf before firsts, [key last]⟩)
    have held : spreadAll items key leads labelOf before firsts (key last) ≠ none := by
      rwa [done.kept last member labelled]
    refine ⟨fun item inside labelled => ?_, fun item inside vacant => ?_⟩
    · rw [spread_of_labelled distinct member inside (by rwa [done.kept item inside labelled]),
        done.kept item inside labelled]
    · obtain ⟨first, leading, found⟩ | ⟨unfound, unlabelled⟩ := done.spread item inside vacant
      · refine .inl ⟨first, leading.append, ?_⟩
        rw [spread_of_labelled distinct member inside (by rw [found]; exact nofun), found]
      · obtain ⟨path, found⟩ | ⟨away, missed⟩ :=
          spread_of_vacant (labelOf last) distinct member held inside unlabelled
        · refine .inl ⟨last, ⟨firsts, [], rfl, (done.leads_iff unfound).mp path, unfound⟩, found⟩
        · refine .inr ⟨fun first among => ?_, missed⟩
          rcases List.mem_append.mp among with among | among
          · exact unfound first among
          · rw [List.mem_singleton.mp among]
            exact fun path => away ((done.leads_iff unfound).mpr path)

end Worklist
