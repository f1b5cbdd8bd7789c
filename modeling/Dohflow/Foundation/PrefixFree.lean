/-
This file is a small theory of prefix-free codes.

A code is a set of words. It is prefix-free when no word of it begins another, so a
stream that starts with a word starts with one word only and the rest of it is known
too. Words of one length, words that state their length and words under a tag of
their own make such codes; so do words of one such code after words of another, and
a known number of words in a row.
-/

import Dohflow.Foundation.ByteReader
import Dohflow.Foundation.CanonicalOrder
import Dohflow.Foundation.Fallible
import Mathlib.Data.List.Forall2
import Mathlib.Data.Set.Basic

namespace PrefixFree

variable {Symbol : Type}
variable {words : Set (List Symbol)} {first second : List (List Symbol)}

/-- A stream that starts with a word of the code starts with no other. -/
def Code (words : Set (List Symbol)) : Prop :=
  ∀ ⦃first⦄, first ∈ words → ∀ ⦃second⦄, second ∈ words → ∀ rest otherRest : List Symbol,
    first ++ rest = second ++ otherRest → first = second

/-- What comes after the word is the same too. -/
theorem Code.split {words : Set (List Symbol)} (code : Code words) {first second : List Symbol}
    (firstIn : first ∈ words) (secondIn : second ∈ words) {rest otherRest : List Symbol}
    (same : first ++ rest = second ++ otherRest) : first = second ∧ rest = otherRest := by
  obtain rfl := code firstIn secondIn rest otherRest same
  exact ⟨rfl, List.append_cancel_left same⟩

theorem Code.mono {words others : Set (List Symbol)} (code : Code others)
    (sub : words ⊆ others) : Code words :=
  fun _ firstIn _ secondIn => code (sub firstIn) (sub secondIn)

theorem code_of_length {length : Nat} (long : ∀ word ∈ words, word.length = length) :
    Code words := by
  intro first firstIn second secondIn rest otherRest same
  exact (List.append_inj same ((long first firstIn).trans (long second secondIn).symm)).1

/-- Words of one code after words of another. -/
theorem Code.append {words others : Set (List Symbol)} (code : Code words) (other : Code others) :
    Code {word | ∃ front ∈ words, ∃ back ∈ others, word = front ++ back} := by
  rintro _ ⟨front, frontIn, back, backIn, rfl⟩ _ ⟨otherFront, otherIn, otherBack, otherBackIn, rfl⟩
    rest otherRest same
  rw [List.append_assoc, List.append_assoc] at same
  obtain ⟨rfl, later⟩ := code.split frontIn otherIn same
  obtain ⟨rfl, -⟩ := other.split backIn otherBackIn later
  rfl

theorem code_tagged {under : Symbol → Set (List Symbol)} (codes : ∀ tag, Code (under tag)) :
    Code {word | ∃ tag, ∃ rest ∈ under tag, word = tag :: rest} := by
  rintro _ ⟨tag, word, wordIn, rfl⟩ _ ⟨otherTag, otherWord, otherIn, rfl⟩ rest otherRest same
  obtain ⟨rfl, later⟩ := List.cons.inj same
  obtain ⟨rfl, -⟩ := (codes tag).split wordIn otherIn later
  rfl

/-- As many words in a row. -/
theorem Code.flatten (code : Code words) (firstIn : ∀ word ∈ first, word ∈ words)
    (secondIn : ∀ word ∈ second, word ∈ words) (count : first.length = second.length)
    {rest otherRest : List Symbol} (same : first.flatten ++ rest = second.flatten ++ otherRest) :
    first = second ∧ rest = otherRest := by
  induction first generalizing second with
  | nil =>
    obtain rfl := List.length_eq_zero_iff.mp count.symm
    exact ⟨rfl, same⟩
  | cons word later inductionHypothesis =>
    obtain ⟨otherWord, otherLater, rfl⟩ := List.exists_cons_of_length_eq_add_one count.symm
    rw [List.flatten_cons, List.flatten_cons, List.append_assoc, List.append_assoc] at same
    obtain ⟨rfl, remaining⟩ := code.split (firstIn word List.mem_cons_self)
      (secondIn otherWord List.mem_cons_self) same
    obtain ⟨rfl, ends⟩ := inductionHypothesis
      (fun other member => firstIn other (List.mem_cons_of_mem _ member))
      (fun other member => secondIn other (List.mem_cons_of_mem _ member))
      (Nat.succ.inj count) remaining
    exact ⟨rfl, ends⟩

theorem Code.flatten_injective (code : Code words) (some : [] ∉ words)
    (firstIn : ∀ word ∈ first, word ∈ words) (secondIn : ∀ word ∈ second, word ∈ words)
    (same : first.flatten = second.flatten) : first = second := by
  have nothing {row : List (List Symbol)} (rowIn : ∀ word ∈ row, word ∈ words)
      (empty : row.flatten = []) : row = [] := by
    cases row with
    | nil => rfl
    | cons word later =>
      have none := List.flatten_eq_nil_iff.mp empty word List.mem_cons_self
      exact absurd (none ▸ rowIn word List.mem_cons_self) some
  induction first generalizing second with
  | nil => exact (nothing secondIn same.symm).symm
  | cons word later inductionHypothesis =>
    cases second with
    | nil => exact nothing firstIn same
    | cons otherWord otherLater =>
      rw [List.flatten_cons, List.flatten_cons] at same
      obtain ⟨rfl, remaining⟩ := code.split (firstIn word List.mem_cons_self)
        (secondIn otherWord List.mem_cons_self) same
      rw [inductionHypothesis (fun other member => firstIn other (List.mem_cons_of_mem _ member))
        (fun other member => secondIn other (List.mem_cons_of_mem _ member)) remaining]

/-! ### Numbers and lengths -/

open ByteReader

theorem bigEndian_split {width first second : Nat} (firstFits : first < 256 ^ width)
    (secondFits : second < 256 ^ width) {rest otherRest : List UInt8}
    (same : bigEndian width first ++ rest = bigEndian width second ++ otherRest) :
    first = second ∧ rest = otherRest := by
  obtain ⟨numbers, later⟩ := List.append_inj same
    ((bigEndian_length width first).trans (bigEndian_length width second).symm)
  exact ⟨bigEndian_injective firstFits secondFits numbers, later⟩

/-- A byte string after its length. -/
def measured (width : Nat) (bytes : List UInt8) : List UInt8 :=
  bigEndian width bytes.length ++ bytes

theorem measured_split {width : Nat} {first second rest otherRest : List UInt8}
    (firstFits : first.length < 256 ^ width) (secondFits : second.length < 256 ^ width)
    (same : measured width first ++ rest = measured width second ++ otherRest) :
    first = second ∧ rest = otherRest := by
  rw [measured, measured, List.append_assoc, List.append_assoc] at same
  obtain ⟨lengths, later⟩ := bigEndian_split firstFits secondFits same
  exact List.append_inj later lengths

theorem measuredAll_split {width : Nat} {first second : List (List UInt8)}
    (firstFits : ∀ bytes ∈ first, bytes.length < 256 ^ width)
    (secondFits : ∀ bytes ∈ second, bytes.length < 256 ^ width)
    (count : first.length = second.length) {rest otherRest : List UInt8}
    (same : first.flatMap (measured width) ++ rest = second.flatMap (measured width) ++ otherRest) :
    first = second ∧ rest = otherRest := by
  induction first generalizing second with
  | nil =>
    obtain rfl := List.length_eq_zero_iff.mp count.symm
    exact ⟨rfl, same⟩
  | cons bytes later inductionHypothesis =>
    obtain ⟨otherBytes, otherLater, rfl⟩ := List.exists_cons_of_length_eq_add_one count.symm
    rw [List.flatMap_cons, List.flatMap_cons, List.append_assoc, List.append_assoc] at same
    obtain ⟨rfl, remaining⟩ := measured_split (firstFits bytes List.mem_cons_self)
      (secondFits otherBytes List.mem_cons_self) same
    obtain ⟨rfl, ends⟩ := inductionHypothesis
      (fun other member => firstFits other (List.mem_cons_of_mem _ member))
      (fun other member => secondFits other (List.mem_cons_of_mem _ member))
      (Nat.succ.inj count) remaining
    exact ⟨rfl, ends⟩

theorem code_measured (width : Nat) :
    Code {word | ∃ bytes : List UInt8, bytes.length < 256 ^ width ∧ word = measured width bytes} := by
  rintro _ ⟨bytes, fits, rfl⟩ _ ⟨otherBytes, otherFits, rfl⟩ rest otherRest same
  rw [(measured_split fits otherFits same).1]

/-! ### Writing every item of a list -/

variable {Item Other View Failure : Type}
variable {write : Item → Except Failure Other} {items : List Item}

theorem mapM_eq_ok {words : List Other} :
    items.mapM write = .ok words ↔ List.Forall₂ (fun item word => write item = .ok word) items words := by
  induction items generalizing words with
  | nil =>
    rw [List.mapM_nil, List.forall₂_nil_left_iff]
    exact ⟨fun same => (Except.ok.inj same).symm, fun same => congrArg Except.ok same.symm⟩
  | cons item rest inductionHypothesis =>
    rw [List.mapM_cons, List.forall₂_cons_left_iff]
    constructor
    · intro written
      obtain ⟨word, wrote, written⟩ := Fallible.bind_eq_ok.mp written
      obtain ⟨later, wroteLater, written⟩ := Fallible.bind_eq_ok.mp written
      exact ⟨word, later, wrote, inductionHypothesis.mp wroteLater, (Except.ok.inj written).symm⟩
    · rintro ⟨word, later, wrote, wroteLater, rfl⟩
      rw [wrote, inductionHypothesis.mpr wroteLater]
      rfl

theorem exists_of_mem_mapM {words : List Other} (written : items.mapM write = .ok words)
    {word : Other} (member : word ∈ words) : ∃ item ∈ items, write item = .ok word := by
  have pairs := mapM_eq_ok.mp written
  clear written
  induction pairs with
  | nil => cases member
  | cons wrote _ inductionHypothesis =>
    rcases List.mem_cons.mp member with rfl | later
    · exact ⟨_, List.mem_cons_self, wrote⟩
    · obtain ⟨item, inside, made⟩ := inductionHypothesis later
      exact ⟨item, List.mem_cons_of_mem _ inside, made⟩

theorem mapM_eq_ok_iff {write : Item → Except Failure Other} {holds : Item → Prop} {word : Item → Other}
    (each : ∀ item found, write item = .ok found ↔ holds item ∧ word item = found)
    {items : List Item} {words : List Other} :
    items.mapM write = .ok words ↔ (∀ item ∈ items, holds item) ∧ items.map word = words := by
  rw [mapM_eq_ok]
  constructor
  · intro pairs
    induction pairs with
    | nil => exact ⟨fun _ member => absurd member List.not_mem_nil, rfl⟩
    | cons wrote _ inductionHypothesis =>
      obtain ⟨held, rfl⟩ := (each _ _).mp wrote
      exact ⟨List.forall_mem_cons.mpr ⟨held, inductionHypothesis.1⟩,
        congrArg _ inductionHypothesis.2⟩
  · rintro ⟨held, rfl⟩
    refine List.forall₂_map_right_iff.mpr (List.forall₂_same.mpr fun item member => ?_)
    exact (each item _).mpr ⟨held item member, rfl⟩

theorem map_eq_of_mapM {words : List Other} (written : items.mapM write = .ok words) :
    items.map write = words.map .ok := by
  have pairs := mapM_eq_ok.mp written
  clear written
  induction pairs with
  | nil => rfl
  | cons wrote _ inductionHypothesis =>
    rw [List.map_cons, List.map_cons, wrote, inductionHypothesis]

theorem exists_of_mem_words {words : List Other} (written : items.mapM write = .ok words)
    {word : Other} (member : word ∈ words) : ∃ item ∈ items, write item = .ok word := by
  have shown : Except.ok word ∈ items.map write :=
    map_eq_of_mapM written ▸ List.mem_map_of_mem member
  exact List.mem_map.mp shown

theorem exists_word_of_mem {words : List Other} (written : items.mapM write = .ok words)
    {item : Item} (member : item ∈ items) : ∃ word ∈ words, write item = .ok word := by
  have shown : write item ∈ words.map (Except.ok : Other → Except Failure Other) :=
    map_eq_of_mapM written ▸ List.mem_map_of_mem member
  obtain ⟨word, wordIn, same⟩ := List.mem_map.mp shown
  exact ⟨word, wordIn, same.symm⟩

theorem map_view_of_mapM {write : Item → Except Failure Other} {view : Other → View}
    {shown : Item → View} (keeps : ∀ item word, write item = .ok word → view word = shown item)
    {items : List Item} {words : List Other} (written : items.mapM write = .ok words) :
    words.map view = items.map shown := by
  have pairs := mapM_eq_ok.mp written
  clear written
  induction pairs with
  | nil => rfl
  | cons wrote _ inductionHypothesis =>
    rw [List.map_cons, List.map_cons, keeps _ _ wrote, inductionHypothesis]

theorem words_eq_iff {view : Item → View}
    (agree : ∀ {first second word otherWord}, write first = .ok word → write second = .ok otherWord →
      (word = otherWord ↔ view first = view second)) {items others : List Item}
    {words otherWords : List Other} (written : items.mapM write = .ok words)
    (otherWritten : others.mapM write = .ok otherWords) :
    words = otherWords ↔ items.map view = others.map view := by
  have pairs := mapM_eq_ok.mp written
  have otherPairs := mapM_eq_ok.mp otherWritten
  clear written otherWritten
  induction pairs generalizing others otherWords with
  | nil =>
    cases otherPairs with
    | nil => exact iff_of_true rfl rfl
    | cons _ _ => simp
  | cons wrote _ inductionHypothesis =>
    cases otherPairs with
    | nil => simp
    | cons otherWrote later =>
      rw [List.cons_eq_cons, List.map_cons, List.map_cons, List.cons_eq_cons]
      exact and_congr (agree wrote otherWrote) (inductionHypothesis later)

/-! ### A sorted list after its count -/

open CanonicalOrder

/-- A word that gives a count and then the items, ascending by keys that differ. -/
structure Listing {Key : Type} [LinearOrder Key] (width : Nat) (key : Item → Key)
    (write : Item → Except Failure (List UInt8)) (items : List Item) (word : List UInt8) : Prop where
  few : items.length < 256 ^ width
  apart : (sortBy key items).IsChain fun first second => key first ≠ key second
  written : ∃ words, (sortBy key items).mapM write = .ok words ∧
    word = bigEndian width items.length ++ words.flatten

variable {Key : Type} [LinearOrder Key] {width : Nat} {key : Item → Key} {view : Item → View}
  {write : Item → Except Failure (List UInt8)} {items others : List Item} {word otherWord : List UInt8}

/-- A listing is known from a stream that starts with it, up to the order of its items. -/
theorem Listing.split (code : Code {word | ∃ item, write item = .ok word})
    (agree : ∀ {first second word otherWord}, write first = .ok word → write second = .ok otherWord →
      (word = otherWord ↔ view first = view second))
    (tells : ∀ first second, view first = view second → key first = key second)
    (first : Listing width key write items word) (second : Listing width key write others otherWord)
    {rest otherRest : List UInt8} (same : word ++ rest = otherWord ++ otherRest) :
    (∀ shown, (∃ item ∈ items, view item = shown) ↔ ∃ item ∈ others, view item = shown) ∧
      rest = otherRest := by
  obtain ⟨words, wrote, rfl⟩ := first.written
  obtain ⟨otherWords, otherWrote, rfl⟩ := second.written
  rw [List.append_assoc, List.append_assoc] at same
  obtain ⟨counts, later⟩ := bigEndian_split first.few second.few same
  have numbers : words.length = otherWords.length := by
    have count := (mapM_eq_ok.mp wrote).length_eq
    have otherCount := (mapM_eq_ok.mp otherWrote).length_eq
    rw [length_sortBy] at count otherCount
    omega
  obtain ⟨sameWords, ends⟩ := code.flatten
    (fun _ member => (exists_of_mem_words wrote member).imp fun _ found => found.2)
    (fun _ member => (exists_of_mem_words otherWrote member).imp fun _ found => found.2)
    numbers later
  refine ⟨(map_sortBy_eq_iff tells first.apart second.apart).mp ?_, ends⟩
  exact (words_eq_iff agree wrote otherWrote).mp sameWords

theorem Listing.eq_iff (code : Code {word | ∃ item, write item = .ok word})
    (agree : ∀ {first second word otherWord}, write first = .ok word → write second = .ok otherWord →
      (word = otherWord ↔ view first = view second))
    (tells : ∀ first second, view first = view second → key first = key second)
    (first : Listing width key write items word)
    (second : Listing width key write others otherWord) :
    word = otherWord ↔
      ∀ shown, (∃ item ∈ items, view item = shown) ↔ ∃ item ∈ others, view item = shown := by
  constructor
  · rintro rfl
    exact (@split _ _ _ _ _ _ _ _ _ _ _ _ _ code agree tells first second [] [] rfl).1
  · intro same
    obtain ⟨words, wrote, rfl⟩ := first.written
    obtain ⟨otherWords, otherWrote, rfl⟩ := second.written
    have sorted := (map_sortBy_eq_iff tells first.apart second.apart).mpr same
    have counts := congrArg List.length sorted
    rw [List.length_map, List.length_map, length_sortBy, length_sortBy] at counts
    rw [(words_eq_iff agree wrote otherWrote).mpr sorted, counts]

end PrefixFree
