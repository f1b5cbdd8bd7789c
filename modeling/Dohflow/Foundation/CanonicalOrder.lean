/-
This file is a small theory of lists put into one order before they are written.

A list is sorted by a key. Where no two neighbours then share a key, all keys
differ, and two lists come out with the same views of their items just if they have
the same views before, in whatever order. Where items repeat, but those of one key
are the same, two lists come out alike just if one permutes the other.
-/

import Mathlib.Data.List.Lex
import Mathlib.Data.List.Sort
import Mathlib.Data.List.Perm.Basic
import Mathlib.Data.Multiset.MapFold
import Mathlib.Order.Lex

namespace CanonicalOrder

variable {Item Key View : Type} [LinearOrder Key] {key : Item → Key}

variable (key) in
/-- The items, ascending by their keys. -/
def sortBy (items : List Item) : List Item :=
  items.insertionSort fun first second => key first ≤ key second

instance total_le : Std.Total fun first second : Item => key first ≤ key second :=
  ⟨fun first second => le_total (key first) (key second)⟩

instance isTrans_le : IsTrans Item fun first second : Item => key first ≤ key second :=
  ⟨fun _ _ _ => le_trans⟩

theorem sortBy_perm (items : List Item) : (sortBy key items).Perm items :=
  List.perm_insertionSort _ _

@[simp] theorem mem_sortBy {items : List Item} {item : Item} :
    item ∈ sortBy key items ↔ item ∈ items := (sortBy_perm items).mem_iff

@[simp] theorem length_sortBy (items : List Item) : (sortBy key items).length = items.length :=
  (sortBy_perm items).length_eq

theorem sortBy_ascends (items : List Item) :
    (sortBy key items).Pairwise fun first second => key first ≤ key second :=
  List.pairwise_insertionSort _ _

theorem getLast?_sortBy {items : List Item} {item : Item}
    (single : ∀ first ∈ items, ∀ second ∈ items, key first = key second → first = second) :
    (sortBy key items).getLast? = some item ↔ item ∈ items ∧ ∀ other ∈ items, key other ≤ key item := by
  have upper {greatest : Item} (last : (sortBy key items).getLast? = some greatest) :
      greatest ∈ items ∧ ∀ other ∈ items, key other ≤ key greatest := by
    refine ⟨mem_sortBy.mp (List.mem_of_getLast? last), fun other member => ?_⟩
    obtain ⟨front, split⟩ := List.getLast?_eq_some_iff.mp last
    have ascends := @sortBy_ascends Item Key _ key items
    have inside := (@mem_sortBy Item Key _ key items other).mpr member
    rw [split] at ascends inside
    rcases List.mem_append.mp inside with earlier | single
    · exact (List.pairwise_append.mp ascends).2.2 other earlier greatest List.mem_cons_self
    · rw [List.mem_singleton.mp single]
  refine ⟨upper, fun ⟨member, above⟩ => ?_⟩
  cases last : (sortBy key items).getLast? with
  | none =>
    rw [List.getLast?_eq_none_iff, ← List.length_eq_zero_iff, length_sortBy,
      List.length_eq_zero_iff] at last
    rw [last] at member
    exact absurd member List.not_mem_nil
  | some greatest =>
    obtain ⟨inside, greater⟩ := upper last
    rw [single greatest inside item member (le_antisymm (above greatest inside) (greater item member))]

theorem sortBy_concat {items : List Item} {last : Item} (upper : ∀ item ∈ items, key item ≤ key last) :
    sortBy key (items ++ [last]) = sortBy key items ++ [last] := by
  have inserted {item : Item} (below : key item ≤ key last) (sorted : List Item) :
      (sorted ++ [last]).orderedInsert (fun first second => key first ≤ key second) item =
        sorted.orderedInsert (fun first second => key first ≤ key second) item ++ [last] := by
    induction sorted with
    | nil => exact if_pos below
    | cons first rest inductionHypothesis =>
      rw [List.cons_append, List.orderedInsert_cons, List.orderedInsert_cons, inductionHypothesis]
      split_ifs <;> rfl
  induction items with
  | nil => rfl
  | cons item rest inductionHypothesis =>
    obtain ⟨below, others⟩ := List.forall_mem_cons.mp upper
    unfold sortBy at inductionHypothesis ⊢
    rw [List.cons_append, List.insertionSort_cons, inductionHypothesis others, inserted below,
      List.insertionSort_cons]

theorem map_sortBy_perm {items others : List Item} (perm : items.Perm others) :
    (sortBy key items).map key = (sortBy key others).map key := by
  have ascends (list : List Item) : ((sortBy key list).map key).Pairwise (· ≤ ·) :=
    List.pairwise_map.mpr (sortBy_ascends list)
  refine List.Perm.eq_of_pairwise (fun first second _ _ => le_antisymm) (ascends items)
    (ascends others) (List.Perm.map key ?_)
  exact (sortBy_perm items).trans (perm.trans (sortBy_perm others).symm)

theorem eq_filter_append_filter {Wanted : Item → Prop} [DecidablePred Wanted] {items : List Item}
    (front : items.Pairwise fun first second => Wanted second → Wanted first) :
    items = items.filter (fun item => Wanted item) ++ items.filter fun item => ¬Wanted item := by
  induction items with
  | nil => rfl
  | cons item rest inductionHypothesis =>
    obtain ⟨first, later⟩ := List.pairwise_cons.mp front
    by_cases wanted : Wanted item
    · rw [List.filter_cons_of_pos (by simpa using wanted),
        List.filter_cons_of_neg (by simpa using wanted), List.cons_append]
      exact congrArg _ (inductionHypothesis later)
    · have none : ∀ other ∈ item :: rest, ¬Wanted other := by
        intro other member
        rcases List.mem_cons.mp member with rfl | behind
        · exact wanted
        · exact mt (first other behind) wanted
      rw [List.filter_eq_nil_iff.mpr fun other member => by simpa using none other member,
        List.filter_eq_self.mpr fun other member => by simpa using none other member,
        List.nil_append]

theorem strict_of_apart {items : List Item}
    (ascends : items.Pairwise fun first second => key first ≤ key second)
    (apart : items.IsChain fun first second => key first ≠ key second) :
    items.Pairwise fun first second => key first < key second := by
  induction items with
  | nil => exact .nil
  | cons first rest inductionHypothesis =>
    obtain ⟨before, later⟩ := List.pairwise_cons.mp ascends
    refine List.pairwise_cons.mpr ⟨fun item member => ?_, inductionHypothesis later apart.of_cons⟩
    cases rest with
    | nil => exact absurd member List.not_mem_nil
    | cons second rest =>
      have less : key first < key second :=
        lt_of_le_of_ne (before second List.mem_cons_self) (List.isChain_cons_cons.mp apart).1
      rcases List.mem_cons.mp member with rfl | behind
      · exact less
      · exact less.trans_le ((List.pairwise_cons.mp later).1 item behind)

theorem sortBy_strict {items : List Item}
    (apart : (sortBy key items).IsChain fun first second => key first ≠ key second) :
    (sortBy key items).Pairwise fun first second => key first < key second :=
  strict_of_apart (sortBy_ascends items) apart

theorem map_sortBy_eq_iff {view : Item → View}
    (tells : ∀ first second, view first = view second → key first = key second)
    {items others : List Item}
    (apart : (sortBy key items).IsChain fun first second => key first ≠ key second)
    (otherApart : (sortBy key others).IsChain fun first second => key first ≠ key second) :
    (sortBy key items).map view = (sortBy key others).map view ↔
      ∀ shown, (∃ item ∈ items, view item = shown) ↔ ∃ item ∈ others, view item = shown := by
  constructor
  · intro same shown
    have members := congrArg (shown ∈ ·) same
    simpa only [List.mem_map, mem_sortBy, eq_iff_iff] using members
  · intro same
    -- Two views stand in the order of their keys, in whichever list.
    have ascends {list : List Item} (strict : list.Pairwise fun first second =>
        key first < key second) : (list.map view).Pairwise fun first second =>
          ∃ item other, view item = first ∧ view other = second ∧ key item < key other :=
      List.pairwise_map.mpr (strict.imp fun less => ⟨_, _, rfl, rfl, less⟩)
    have differ {list : List View} (strict : list.Pairwise fun first second =>
        ∃ item other, view item = first ∧ view other = second ∧ key item < key other) :
        list.Nodup := by
      refine strict.imp ?_
      rintro first second ⟨item, other, rfl, rfl, less⟩ same
      exact less.ne (tells item other same)
    have here := ascends (sortBy_strict apart)
    have there := ascends (sortBy_strict otherApart)
    refine List.Perm.eq_of_pairwise ?_ here there
      ((List.perm_ext_iff_of_nodup (differ here) (differ there)).mpr fun shown => ?_)
    · rintro first second - - ⟨item, other, rfl, rfl, less⟩ ⟨another, last, same, other', later⟩
      rw [tells _ _ same, tells _ _ other'] at later
      exact absurd later less.asymm
    · simpa only [List.mem_map, mem_sortBy] using same shown

/-- Lists whose items of one key are the same come out alike just if one permutes the other. -/
theorem sortBy_eq_iff_perm {items others : List Item}
    (tells : ∀ first ∈ items, ∀ second ∈ others, key first = key second → first = second) :
    sortBy key items = sortBy key others ↔ items.Perm others := by
  constructor
  · intro same
    exact (sortBy_perm items).symm.trans (same ▸ sortBy_perm others)
  · intro perm
    refine List.Perm.eq_of_pairwise (fun first second firstIn secondIn before after => ?_)
      (sortBy_ascends items) (sortBy_ascends others)
      ((sortBy_perm items).trans (perm.trans (sortBy_perm others).symm))
    exact tells first (mem_sortBy.mp firstIn) second (mem_sortBy.mp secondIn)
      (le_antisymm before after)

theorem map_eq_map_iff_of_agree {Other : Type} {view : Item → View} {other : Item → Other}
    {items others : Multiset Item}
    (agree : ∀ first ∈ items, ∀ second ∈ others, view first = view second ↔ other first = other second) :
    items.map view = others.map view ↔ items.map other = others.map other := by
  rw [← Multiset.rel_eq, ← Multiset.rel_eq, Multiset.rel_map, Multiset.rel_map]
  constructor
  · intro related
    exact related.mono fun first firstIn second secondIn => (agree first firstIn second secondIn).mp
  · intro related
    exact related.mono fun first firstIn second secondIn => (agree first firstIn second secondIn).mpr

/-! ### The order of bytes -/

/-- Byte strings, to be compared byte by byte. -/
def byteKey (bytes : List UInt8) : List Nat := bytes.map UInt8.toNat

theorem byteKey_injective : Function.Injective byteKey :=
  List.map_injective_iff.mpr fun _ _ => UInt8.toNat.inj

end CanonicalOrder
