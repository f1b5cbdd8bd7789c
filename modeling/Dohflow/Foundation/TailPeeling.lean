/-
This file is a small theory of peeling known tails off a list.

First whole units are peeled off the end, one after another, each the first of a list
of units that the rest ends in; then single items. Something is always left. Where at
most one unit ends at every place, what is peeled off is the longest tail that consists
of single items with units behind them.
-/

import Mathlib.Data.List.Infix

namespace TailPeeling

variable {Item : Type} [DecidableEq Item]

/-! ### Peeling units -/

/-- The list without the first unit that it ends in and that leaves something of it. -/
def peelUnit (units : List (List Item)) (items : List Item) : Option (List Item) :=
  (units.find? fun unit => unit.length < items.length ∧ unit <:+ items).map fun unit =>
    items.take (items.length - unit.length)

/-- Peel units off, as many as the fuel allows. -/
def peelUnits (units : List (List Item)) : Nat → List Item → List Item
  | 0, items => items
  | fuel + 1, items =>
    match peelUnit units items with
    | some rest => peelUnits units fuel rest
    | none => items

variable {units : List (List Item)} {items : List Item}

theorem peelUnit_eq_some {rest : List Item} (peeled : peelUnit units items = some rest) :
    ∃ unit ∈ units, items = rest ++ unit ∧ rest ≠ [] := by
  obtain ⟨unit, found, rfl⟩ := Option.map_eq_some_iff.mp peeled
  have fits := List.find?_some found
  rw [decide_eq_true_eq] at fits
  obtain ⟨shorter, rest, rfl⟩ := fits
  rw [List.length_append, Nat.add_sub_cancel, List.take_left]
  refine ⟨unit, List.mem_of_find?_eq_some found, rfl, ?_⟩
  rintro rfl
  exact absurd shorter (Nat.lt_irrefl _)

theorem peelUnit_eq_none (kept : peelUnit units items = none) :
    ∀ unit ∈ units, unit.length < items.length → ¬ unit <:+ items := by
  intro unit member shorter ends
  have none := List.find?_eq_none.mp (Option.map_eq_none_iff.mp kept) unit member
  exact none (decide_eq_true ⟨shorter, ends⟩)

theorem exists_peelUnits (fuel : Nat) (items : List Item) :
    ∃ chosen : List (List Item), (∀ unit ∈ chosen, unit ∈ units) ∧
      items = peelUnits units fuel items ++ chosen.flatten ∧
      (items ≠ [] → peelUnits units fuel items ≠ []) := by
  induction fuel generalizing items with
  | zero => exact ⟨[], List.forall_mem_nil _, (List.append_nil _).symm, id⟩
  | succ fuel inductionHypothesis =>
    unfold peelUnits
    cases peeled : peelUnit units items with
    | none => exact ⟨[], List.forall_mem_nil _, (List.append_nil _).symm, id⟩
    | some rest =>
      obtain ⟨unit, member, same, left⟩ := peelUnit_eq_some peeled
      obtain ⟨chosen, known, before, some⟩ := inductionHypothesis rest
      refine ⟨chosen ++ [unit], ?_, ?_, fun _ => some left⟩
      · intro other inside
        rcases List.mem_append.mp inside with earlier | single
        · exact known other earlier
        · exact List.mem_singleton.mp single ▸ member
      · rw [List.flatten_append, List.flatten_singleton, ← List.append_assoc]
        dsimp only
        rw [← before]
        exact same

theorem not_suffix_peelUnits (solid : ∀ unit ∈ units, unit ≠ []) {fuel : Nat}
    (enough : items.length ≤ fuel) :
    ∀ unit ∈ units, unit.length < (peelUnits units fuel items).length →
      ¬ unit <:+ peelUnits units fuel items := by
  induction fuel generalizing items with
  | zero =>
    rw [List.length_eq_zero_iff.mp (Nat.le_zero.mp enough)]
    intro unit _ shorter
    exact absurd shorter (Nat.not_lt_zero _)
  | succ fuel inductionHypothesis =>
    unfold peelUnits
    cases peeled : peelUnit units items with
    | none => exact peelUnit_eq_none peeled
    | some rest =>
      obtain ⟨unit, member, same, -⟩ := peelUnit_eq_some peeled
      refine inductionHypothesis ?_
      have positive := List.length_pos_iff.mpr (solid unit member)
      have lengths := congrArg List.length same
      rw [List.length_append] at lengths
      omega

/-- At every place of a list at most one unit ends. -/
def Apart (units : List (List Item)) (items : List Item) : Prop :=
  ∀ front, front <+: items → ∀ first ∈ units, ∀ second ∈ units,
    first <:+ front → second <:+ front → first = second

omit [DecidableEq Item] in
theorem Apart.front {front back : List Item} (apart : Apart units (front ++ back)) :
    Apart units front := fun part ahead =>
  apart part (ahead.trans (List.prefix_append front back))

theorem exists_more_of_apart {fuel : Nat} (solid : ∀ unit ∈ units, unit ≠ [])
    (enough : items.length ≤ fuel) (apart : Apart units items) {front : List Item} (left : front ≠ [])
    {run : List (List Item)} (known : ∀ unit ∈ run, unit ∈ units) (same : items = front ++ run.flatten) :
    ∃ more : List (List Item), (∀ unit ∈ more, unit ∈ units) ∧
      front = peelUnits units fuel items ++ more.flatten := by
  induction fuel generalizing items run with
  | zero =>
    rw [List.length_eq_zero_iff.mp (Nat.le_zero.mp enough)] at same
    exact absurd (List.append_eq_nil_iff.mp same.symm).1 left
  | succ fuel inductionHypothesis =>
    rcases List.eq_nil_or_concat run with rfl | ⟨before, last, rfl⟩
    · rw [List.flatten_nil, List.append_nil] at same
      obtain ⟨more, members, whole, -⟩ := @exists_peelUnits _ _ units (fuel + 1) items
      exact ⟨more, members, same ▸ whole⟩
    · rw [List.concat_eq_append] at known same
      rw [List.flatten_append, List.flatten_singleton, ← List.append_assoc] at same
      have ends : last <:+ items := ⟨_, same.symm⟩
      have lastIn := known last (List.mem_append_right _ (List.mem_singleton_self _))
      have lengths := congrArg List.length same
      have positive := List.length_pos_iff.mpr left
      rw [List.length_append, List.length_append] at lengths
      unfold peelUnits
      cases peeled : peelUnit units items with
      | none => exact absurd ends (peelUnit_eq_none peeled last lastIn (by omega))
      | some rest =>
        obtain ⟨unit, member, cut, -⟩ := peelUnit_eq_some peeled
        obtain rfl := apart items List.prefix_rfl unit member last lastIn ⟨_, cut.symm⟩ ends
        have shorter := List.length_pos_iff.mpr (solid unit member)
        have rests : rest = front ++ before.flatten := List.append_cancel_right (cut.symm.trans same)
        refine inductionHypothesis ?_ (cut ▸ apart).front (fun other inside => ?_) rests
        · have cuts := congrArg List.length cut
          rw [List.length_append] at cuts
          omega
        · exact known other (List.mem_append_left _ inside)

/-! ### Peeling single items -/

/-- Pop items off the front of a reversed list, never its last one. -/
def popFront (peels : Item → Bool) : List Item → List Item
  | first :: second :: rest =>
    if peels first then popFront peels (second :: rest) else first :: second :: rest
  | [only] => [only]
  | [] => []

/-- Peel single items off the end, never the last one. -/
def peelItems (peels : Item → Bool) (items : List Item) : List Item :=
  (popFront peels items.reverse).reverse

variable {peels : Item → Bool}

omit [DecidableEq Item] in
theorem exists_popFront (items : List Item) :
    ∃ popped, items = popped ++ popFront peels items ∧ (∀ item ∈ popped, peels item = true) ∧
      (items ≠ [] → popFront peels items ≠ []) ∧
      ∀ front back, items = back ++ front → front ≠ [] → (∀ item ∈ back, peels item = true) →
        back.length ≤ popped.length := by
  induction items using popFront.induct peels with
  | case1 first second rest peeled inductionHypothesis =>
    obtain ⟨popped, same, known, some, longest⟩ := inductionHypothesis
    rw [popFront, if_pos peeled]
    refine ⟨first :: popped, ?_, List.forall_mem_cons.mpr ⟨peeled, known⟩,
      fun _ => some (List.cons_ne_nil _ _), ?_⟩
    · rw [List.cons_append, ← same]
    · intro front back whole left all
      cases back with
      | nil => exact Nat.zero_le _
      | cons item others =>
        rw [List.cons_append] at whole
        have shorter := longest front others (List.cons.inj whole).2 left
          (List.forall_mem_cons.mp all).2
        exact Nat.succ_le_succ shorter
  | case2 first second rest kept =>
    rw [popFront, if_neg kept]
    refine ⟨[], rfl, List.forall_mem_nil _, id, fun front back whole left all => ?_⟩
    cases back with
    | nil => exact le_rfl
    | cons item others =>
      rw [List.cons_append] at whole
      rw [← (List.cons.inj whole).1] at all
      exact absurd (List.forall_mem_cons.mp all).1 kept
  | case3 only =>
    refine ⟨[], rfl, List.forall_mem_nil _, id, fun front back whole left _ => ?_⟩
    have lengths := congrArg List.length whole
    have positive := List.length_pos_iff.mpr left
    rw [List.length_singleton, List.length_append] at lengths
    exact Nat.le_of_lt_succ (by omega)
  | case4 =>
    refine ⟨[], rfl, List.forall_mem_nil _, id, fun front back whole left _ => ?_⟩
    exact absurd (List.append_eq_nil_iff.mp whole.symm).2 left

omit [DecidableEq Item] in
theorem exists_peelItems (items : List Item) :
    ∃ tail, items = peelItems peels items ++ tail ∧ (∀ item ∈ tail, peels item = true) ∧
      (items ≠ [] → peelItems peels items ≠ []) ∧
      ∀ front back, items = front ++ back → front ≠ [] → (∀ item ∈ back, peels item = true) →
        back.length ≤ tail.length := by
  obtain ⟨popped, same, known, some, longest⟩ := @exists_popFront _ peels items.reverse
  refine ⟨popped.reverse, ?_, fun item member => known item (List.mem_reverse.mp member), ?_, ?_⟩
  · rw [peelItems, ← List.reverse_append, ← same, List.reverse_reverse]
  · intro left
    rw [peelItems, List.reverse_ne_nil_iff]
    exact some (List.reverse_ne_nil_iff.mpr left)
  · intro front back whole left all
    rw [List.length_reverse, ← @List.length_reverse _ back]
    refine longest front.reverse back.reverse ?_ (List.reverse_ne_nil_iff.mpr left) ?_
    · rw [whole, List.reverse_append]
    · exact fun item member => all item (List.mem_reverse.mp member)

/-! ### Peeling a tail -/

/-- Single items with units behind them. -/
def KnownTail (peels : Item → Bool) (units : List (List Item)) (tail : List Item) : Prop :=
  ∃ singles run, (∀ item ∈ singles, peels item = true) ∧ (∀ unit ∈ run, unit ∈ units) ∧
    tail = singles ++ List.flatten run

/-- Peel units off the end and then single items. -/
def peelTail (peels : Item → Bool) (units : List (List Item)) (items : List Item) : List Item :=
  peelItems peels (peelUnits units items.length items)

theorem exists_peelTail (peels : Item → Bool) (units : List (List Item)) (some : items ≠ []) :
    ∃ tail, KnownTail peels units tail ∧ items = peelTail peels units items ++ tail ∧
      peelTail peels units items ≠ [] := by
  obtain ⟨chosen, known, whole, kept⟩ := @exists_peelUnits _ _ units items.length items
  obtain ⟨singles, same, all, left, -⟩ :=
    @exists_peelItems _ peels (peelUnits units items.length items)
  refine ⟨singles ++ chosen.flatten, ⟨singles, chosen, all, known, rfl⟩, ?_, left (kept some)⟩
  rw [← List.append_assoc, peelTail, ← same, ← whole]

theorem length_peelTail_le (solid : ∀ unit ∈ units, unit ≠ []) (apart : Apart units items)
    {front back : List Item} (whole : items = front ++ back) (left : front ≠ [])
    (known : KnownTail peels units back) : (peelTail peels units items).length ≤ front.length := by
  obtain ⟨singles, run, all, members, rfl⟩ := known
  rw [← List.append_assoc] at whole
  have some : front ++ singles ≠ [] := List.append_ne_nil_of_left_ne_nil left singles
  obtain ⟨more, -, cut⟩ := exists_more_of_apart solid le_rfl apart some members whole
  obtain ⟨tail, same, -, -, longest⟩ := @exists_peelItems _ peels (peelUnits units items.length items)
  have lengths := congrArg List.length same
  rw [List.length_append] at lengths
  unfold peelTail
  rcases Nat.le_total (peelUnits units items.length items).length front.length with short | long
  · omega
  · obtain ⟨rest, cutFront⟩ := List.prefix_of_prefix_length_le (List.prefix_append front singles)
      (cut ▸ List.prefix_append _ more.flatten) long
    rw [← cutFront, List.append_assoc, List.append_cancel_left_eq] at cut
    have inside : ∀ item ∈ rest, peels item = true := by
      intro item member
      refine all item ?_
      rw [cut]
      exact List.mem_append_left _ member
    have shorter := longest front rest cutFront.symm left inside
    have cutLengths := congrArg List.length cutFront
    rw [List.length_append] at cutLengths
    omega

theorem peelUnits_eq_self (fuel : Nat)
    (kept : ∀ unit ∈ units, unit.length < items.length → ¬ unit <:+ items) :
    peelUnits units fuel items = items := by
  have none : peelUnit units items = none := by
    refine Option.map_eq_none_iff.mpr (List.find?_eq_none.mpr fun unit member fits => ?_)
    obtain ⟨shorter, ends⟩ := of_decide_eq_true fits
    exact kept unit member shorter ends
  cases fuel with
  | zero => rfl
  | succ fuel =>
    unfold peelUnits
    rw [none]

omit [DecidableEq Item] in
theorem popFront_popFront (items : List Item) :
    popFront peels (popFront peels items) = popFront peels items := by
  induction items using popFront.induct peels with
  | case1 first second rest peeled inductionHypothesis =>
    rw [popFront, if_pos peeled]
    exact inductionHypothesis
  | case2 first second rest kept => rw [popFront, if_neg kept, popFront, if_neg kept]
  | case3 only => rfl
  | case4 => rfl

theorem peelTail_peelTail_iff (solid : ∀ unit ∈ units, unit ≠ []) :
    peelTail peels units (peelTail peels units items) = peelTail peels units items ↔
      ∀ unit ∈ units, unit.length < (peelTail peels units items).length →
        ¬ unit <:+ peelTail peels units items := by
  constructor
  · intro same
    generalize peelTail peels units items = left at same
    obtain ⟨chosen, -, whole, -⟩ := @exists_peelUnits _ _ units left.length left
    obtain ⟨singles, cut, -⟩ := @exists_peelItems _ peels (peelUnits units left.length left)
    have lengths := congrArg List.length whole
    have cutLengths := congrArg List.length cut
    rw [← peelTail, same, List.length_append] at cutLengths
    rw [List.length_append] at lengths
    have none : chosen.flatten = [] := List.length_eq_zero_iff.mp (by omega)
    rw [none, List.append_nil] at whole
    have kept := @not_suffix_peelUnits _ _ units left solid _ le_rfl
    rw [← whole] at kept
    exact kept
  · intro kept
    unfold peelTail at kept ⊢
    rw [peelUnits_eq_self _ kept, peelItems, peelItems, List.reverse_reverse, popFront_popFront]

end TailPeeling
