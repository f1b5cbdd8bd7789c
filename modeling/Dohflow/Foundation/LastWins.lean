/-
This file is a small theory of settings that later items overwrite.

Items with a key may each have a value for a setting, and the last item of an ascending
list that has one decides it. So the setting is that of the greatest such item, in
whatever order the items came, and no lower items can change it.
-/

import Mathlib.Order.Lattice
import Mathlib.Data.List.Induction

namespace LastWins

variable {Item Key Value : Type} [LinearOrder Key]

/-- The value of the greatest item that has one, if any has. -/
def Greatest (key : Item → Key) (value : Item → Option Value) (items : List Item) :
    Option Value → Prop
  | none => ∀ item ∈ items, value item = none
  | some found => ∃ item ∈ items, value item = some found ∧
      ∀ other ∈ items, (value other).isSome = true → key other ≤ key item

/-- The last value that a list of items has. -/
def lastValue (value : Item → Option Value) (items : List Item) : Option Value :=
  items.foldl (fun held item => (value item).or held) none

variable {key : Item → Key} {value : Item → Option Value} {items : List Item}

@[simp] theorem lastValue_concat (items : List Item) (last : Item) :
    lastValue value (items ++ [last]) = (value last).or (lastValue value items) := by
  unfold lastValue
  rw [List.foldl_append]
  rfl

/-- The last value of an ascending list is that of its greatest item. -/
theorem greatest_lastValue (ascending : items.Pairwise fun first second => key first ≤ key second) :
    Greatest key value items (lastValue value items) := by
  induction items using List.reverseRecOn with
  | nil => exact List.forall_mem_nil _
  | append_singleton items last inductionHypothesis =>
    obtain ⟨before, -, above⟩ := List.pairwise_append.mp ascending
    have below : ∀ item ∈ items, key item ≤ key last := fun item member =>
      above item member last (List.mem_singleton_self last)
    have earlier := inductionHypothesis before
    rw [lastValue_concat]
    cases own : value last with
    | some found =>
      refine ⟨last, List.mem_append_right _ (List.mem_singleton_self last), own, ?_⟩
      intro other member _
      rcases List.mem_append.mp member with inside | single
      · exact below other inside
      · rw [List.mem_singleton.mp single]
    | none =>
      show Greatest key value (items ++ [last]) (lastValue value items)
      cases found : lastValue value items with
      | none =>
        rw [found] at earlier
        intro item member
        rcases List.mem_append.mp member with inside | single
        · exact earlier item inside
        · rw [List.mem_singleton.mp single]
          exact own
      | some answer =>
        rw [found] at earlier
        obtain ⟨item, member, held, greatest⟩ := earlier
        refine ⟨item, List.mem_append_left _ member, held, fun other inside some => ?_⟩
        rcases List.mem_append.mp inside with old | single
        · exact greatest other old some
        · rw [List.mem_singleton.mp single, own] at some
          cases some

theorem Greatest.eq_of_upper {key' : Item → Key} {items' : List Item} {found found' : Option Value}
    (greatest : Greatest key value items found) (Upper : Item → Prop)
    (greatest' : Greatest key' value items' found')
    (kept : ∀ item, Upper item → (item ∈ items ↔ item ∈ items'))
    (tells : ∀ first ∈ items', ∀ second ∈ items, Upper first → Upper second →
      key first ≤ key second → key' second ≤ key' first → first = second)
    (above : ∀ low high, ¬ Upper low → Upper high → key low < key high ∧ key' low < key' high)
    (decided : ∃ item ∈ items, Upper item ∧ (value item).isSome = true) : found = found' := by
  obtain ⟨decider, member, upper, some⟩ := decided
  have member' := (kept decider upper).mp member
  cases found with
  | none =>
    rw [greatest decider member] at some
    cases some
  | some answer =>
    cases found' with
    | none =>
      rw [greatest' decider member'] at some
      cases some
    | some answer' =>
      obtain ⟨top, topIn, topHas, most⟩ := greatest
      obtain ⟨top', topIn', topHas', most'⟩ := greatest'
      have topUpper : Upper top := by
        by_contra low
        exact absurd (most decider member some) (not_le.mpr (above top decider low upper).1)
      have topUpper' : Upper top' := by
        by_contra low
        exact absurd (most' decider member' some) (not_le.mpr (above top' decider low upper).2)
      have below := most' top ((kept top topUpper).mp topIn) (by rw [topHas]; rfl)
      have below' := most top' ((kept top' topUpper').mpr topIn') (by rw [topHas']; rfl)
      have same := tells top' topIn' top topIn topUpper' topUpper below' below
      rw [← same, topHas'] at topHas
      exact topHas.symm

end LastWins
