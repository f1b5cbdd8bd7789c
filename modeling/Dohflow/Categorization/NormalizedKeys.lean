/-
This file is about what a merchant key is, and about the keys that are their own keys.

The key of a description is made of the words that the description leaves, without the punctuation
before the first and behind the last (`normalizeMerchant_eq`). Each step of the normalization that
finds something makes its text shorter, so a key is its own key just where no step finds anything
in it (`normalizeMerchant_words_iff`).
-/

import Dohflow.Categorization.MerchantNormalization

namespace Dohflow.Categorization

open JobRuntime LeftmostFirst

/-! ### Trimming -/

section Trimming

variable {Item : Type} {holds : Item → Bool} {text front back : List Item} {item : Item}

theorem rdropWhile_append (some : back.rdropWhile holds ≠ []) :
    (front ++ back).rdropWhile holds = front ++ back.rdropWhile holds := by
  unfold List.rdropWhile at some ⊢
  rw [List.reverse_append, List.dropWhile_append, if_neg (by
    rw [List.isEmpty_iff]
    rintro empty
    exact some (by rw [empty, List.reverse_nil])), List.reverse_append, List.reverse_reverse]

theorem rdropWhile_cons (kept : holds item = false) :
    (item :: text).rdropWhile holds = item :: text.rdropWhile holds := by
  by_cases some : text.rdropWhile holds = []
  · have all := List.rdropWhile_eq_nil_iff.mp some
    rw [some]
    clear some
    induction text using List.reverseRecOn with
    | nil => exact List.rdropWhile_singleton _ _ |>.trans (if_neg (by rw [kept]; decide))
    | append_singleton text last inductionHypothesis =>
      have lastHolds := all last (List.mem_append_right _ (List.mem_singleton_self _))
      rw [← List.cons_append, List.rdropWhile_concat_pos _ _ _ lastHolds]
      exact inductionHypothesis fun other member => all other (List.mem_append_left _ member)
  · exact @rdropWhile_append _ _ [item] _ some

theorem length_trimMatches_le (holds : Item → Bool) (text : List Item) :
    ((text.dropWhile holds).rdropWhile holds).length ≤ text.length :=
  (List.rdropWhile_prefix _ _).length_le.trans (List.dropWhile_suffix _).length_le

theorem dropWhile_trimmed (holds : Item → Bool) (text : List Item) :
    ((text.dropWhile holds).rdropWhile holds).dropWhile holds =
      (text.dropWhile holds).rdropWhile holds := by
  have starts := List.rdropWhile_prefix holds (text.dropWhile holds)
  have head := List.head?_dropWhile_not holds text
  generalize (text.dropWhile holds).rdropWhile holds = trimmed at starts
  cases trimmed with
  | nil => rfl
  | cons first rest =>
    obtain ⟨later, same⟩ := starts
    rw [← same] at head
    exact List.dropWhile_cons_of_neg (Bool.not_eq_true _ ▸ head)

theorem trimMatches_trimMatches (holds : Char → Bool) (text : List Char) :
    trimMatches holds (trimMatches holds text) = trimMatches holds text := by
  unfold trimMatches
  rw [dropWhile_trimmed, List.rdropWhile_idempotent]

end Trimming

/-! ### Words and whitespace -/

/-- Words that are not empty and without whitespace. -/
def Solid (words : List (List Char)) : Prop :=
  ∀ word ∈ words, word ≠ [] ∧ ∀ char ∈ word, isWhitespace char = false

theorem solid_words (text : List Char) : Solid (wordsFrom [] text) :=
  solid_wordsFrom (List.forall_mem_nil _) text

theorem wordsFrom_dropWhile (text : List Char) :
    wordsFrom [] (text.dropWhile isWhitespace) = wordsFrom [] text := by
  induction text with
  | nil => rfl
  | cons char rest inductionHypothesis =>
    by_cases space : isWhitespace char = true
    · rw [List.dropWhile_cons_of_pos space, wordsFrom, if_pos space, inductionHypothesis]
      rfl
    · rw [List.dropWhile_cons_of_neg space]

/-- A text whose whitespace is single spaces. -/
def Single : List Char → Prop
  | [] => True
  | char :: rest => (isWhitespace char = true →
      char = ' ' ∧ ∀ next ∈ rest.head?, isWhitespace next = false) ∧ Single rest

section Collapse

variable {fuel : Nat} {text before rest : List Char} {char : Char}

theorem collapse_space (space : isWhitespace char = true) :
    ∃ stopBefore, collapseWs.replaceAllFrom [' '] (fuel + 1) before (char :: rest) =
      ' ' :: collapseWs.replaceAllFrom [' '] fuel stopBefore (rest.dropWhile isWhitespace) := by
  obtain ⟨stopBefore, found⟩ := (Pattern.firstEnd_plus before char rest).1 space
  refine ⟨stopBefore, ?_⟩
  rw [Pattern.replaceAllFrom, collapseWs, whitespace, found]
  rfl

theorem collapse_solid (solid : isWhitespace char = false) :
    collapseWs.replaceAllFrom [' '] (fuel + 1) before (char :: rest) =
      char :: collapseWs.replaceAllFrom [' '] fuel (char :: before) rest := by
  rw [Pattern.replaceAllFrom, collapseWs, whitespace,
    (Pattern.firstEnd_plus before char rest).2 solid]

theorem length_dropWhile_le (enough : (char :: rest).length ≤ fuel + 1) :
    (rest.dropWhile isWhitespace).length ≤ fuel :=
  (List.dropWhile_suffix _).length_le.trans (Nat.le_of_succ_le_succ enough)

theorem wordsFrom_collapse (enough : text.length ≤ fuel) (word before : List Char) :
    wordsFrom word (collapseWs.replaceAllFrom [' '] fuel before text) = wordsFrom word text := by
  induction fuel generalizing text word before with
  | zero => rw [Pattern.replaceAllFrom]
  | succ fuel inductionHypothesis =>
    cases text with
    | nil => rw [Pattern.replaceAllFrom]
    | cons char rest =>
      cases space : isWhitespace char with
      | true =>
        obtain ⟨stopBefore, collapsed⟩ := @collapse_space fuel before rest char space
        have blank : isWhitespace ' ' = true := rfl
        rw [collapsed, wordsFrom, wordsFrom, if_pos blank, if_pos space,
          inductionHypothesis (length_dropWhile_le enough), wordsFrom_dropWhile]
      | false =>
        have solid : ¬ isWhitespace char = true := Bool.not_eq_true _ ▸ space
        rw [collapse_solid space, wordsFrom, wordsFrom, if_neg solid, if_neg solid,
          inductionHypothesis (Nat.le_of_succ_le_succ enough)]

theorem single_collapse (enough : text.length ≤ fuel) (before : List Char) :
    Single (collapseWs.replaceAllFrom [' '] fuel before text) ∧
      ((∀ char ∈ text.head?, isWhitespace char = false) →
        ∀ char ∈ (collapseWs.replaceAllFrom [' '] fuel before text).head?,
          isWhitespace char = false) := by
  induction fuel generalizing text before with
  | zero =>
    obtain rfl := List.length_eq_zero_iff.mp (Nat.le_zero.mp enough)
    rw [Pattern.replaceAllFrom]
    exact ⟨trivial, id⟩
  | succ fuel inductionHypothesis =>
    cases text with
    | nil =>
      rw [Pattern.replaceAllFrom]
      exact ⟨trivial, id⟩
    | cons char rest =>
      cases space : isWhitespace char with
      | true =>
        obtain ⟨stopBefore, collapsed⟩ := @collapse_space fuel before rest char space
        obtain ⟨single, starts⟩ := inductionHypothesis (length_dropWhile_le enough) stopBefore
        rw [collapsed]
        refine ⟨⟨fun _ => ⟨rfl, starts fun next member => ?_⟩, single⟩, fun solid => ?_⟩
        · have stops := List.head?_dropWhile_not isWhitespace rest
          rw [Option.mem_def.mp member] at stops
          exact stops
        · rw [solid char rfl] at space
          cases space
      | false =>
        rw [collapse_solid space]
        have solid : ¬ isWhitespace char = true := Bool.not_eq_true _ ▸ space
        exact ⟨⟨fun spaced => absurd spaced solid,
          (inductionHypothesis (Nat.le_of_succ_le_succ enough) _).1⟩, id⟩

end Collapse

variable {words : List (List Char)}

theorem intercalate_cons (word : List Char) (some : words ≠ []) :
    [' '].intercalate (word :: words) = word ++ [' '] ++ [' '].intercalate words := by
  cases words with
  | nil => exact absurd rfl some
  | cons second rest => exact List.intercalate_cons_cons ..

/-- Words in a text of single spaces, without the space behind them. -/
theorem rdropWhile_single {text word : List Char}
    (clean : ∀ char ∈ word, isWhitespace char = false) (single : Single text)
    (start : word ≠ [] ∨ ∀ char ∈ text.head?, isWhitespace char = false) :
    (word ++ text).rdropWhile isWhitespace = [' '].intercalate (wordsFrom word text) := by
  have solid (word : List Char) (clean : ∀ char ∈ word, isWhitespace char = false) :
      word.rdropWhile isWhitespace = word :=
    List.rdropWhile_eq_self_iff.mpr fun some => by
      rw [clean _ (List.getLast_mem some)]
      decide
  induction text generalizing word with
  | nil =>
    rw [List.append_nil, solid word clean, wordsFrom]
    split_ifs with empty
    · exact empty
    · exact (List.intercalate_singleton ..).symm
  | cons char rest inductionHypothesis =>
    obtain ⟨spaced, later⟩ := single
    rw [wordsFrom]
    by_cases space : isWhitespace char = true
    · obtain ⟨rfl, stops⟩ := spaced space
      have some : word ≠ [] := start.resolve_right fun none => by
        rw [none ' ' rfl] at space
        cases space
      have behind := inductionHypothesis (List.forall_mem_nil _) later (.inr stops)
      rw [if_pos space, if_neg some, List.singleton_append]
      rw [List.nil_append] at behind
      cases rest with
      | nil =>
        rw [List.rdropWhile_concat_pos _ _ _ space, solid word clean]
        exact (List.intercalate_singleton ..).symm
      | cons next rest =>
        have kept : (next :: rest).rdropWhile isWhitespace ≠ [] := fun empty => by
          have all := List.rdropWhile_eq_nil_iff.mp empty next List.mem_cons_self
          rw [stops next rfl] at all
          cases all
        have split : word ++ ' ' :: next :: rest = (word ++ [' ']) ++ (next :: rest) := by
          rw [List.append_assoc]
          rfl
        rw [split, rdropWhile_append kept, behind]
        rw [behind] at kept
        exact (intercalate_cons word fun none => kept (by rw [none]; rfl)).symm
    · rw [if_neg space, ← inductionHypothesis (fun other member => ?_) later
        (.inl (List.append_ne_nil_of_right_ne_nil _ (List.cons_ne_nil _ _))), List.append_assoc]
      · rfl
      · rcases List.mem_append.mp member with old | new
        · exact clean other old
        · rw [List.mem_singleton.mp new]
          exact Bool.eq_false_of_not_eq_true space

theorem trim_of_single {text : List Char} (single : Single text) :
    trim text = [' '].intercalate (wordsFrom [] text) := by
  unfold trim trimMatches
  cases text with
  | nil => rfl
  | cons char rest =>
    by_cases space : isWhitespace char = true
    · obtain ⟨rfl, stops⟩ := single.1 space
      have kept : rest.dropWhile isWhitespace = rest := by
        cases rest with
        | nil => rfl
        | cons next rest => exact List.dropWhile_cons_of_neg (by rw [stops next rfl]; decide)
      have words := rdropWhile_single (List.forall_mem_nil _) single.2 (.inr stops)
      rw [List.dropWhile_cons_of_pos space, kept, wordsFrom, if_pos space]
      exact words
    · rw [List.dropWhile_cons_of_neg space]
      refine rdropWhile_single (List.forall_mem_nil _) single (.inr fun first head => ?_)
      obtain rfl := Option.some.inj head
      exact Bool.eq_false_of_not_eq_true space

theorem trim_collapse (text : List Char) :
    trim (collapseWs.replaceAll [' '] text) = [' '].intercalate (wordsFrom [] text) := by
  rw [Pattern.replaceAll, trim_of_single (single_collapse (le_refl _) []).1,
    wordsFrom_collapse (le_refl _)]

theorem trim_intercalate (solid : Solid words) :
    trim ([' '].intercalate words) = [' '].intercalate words := by
  have collapsed := trim_collapse ([' '].intercalate words)
  rw [wordsFrom_intercalate solid] at collapsed
  rw [← collapsed]
  exact trimMatches_trimMatches isWhitespace _

/-! ### Punctuation at the ends -/

/-- The words without the punctuation before the first. -/
def stripFront : List (List Char) → List (List Char)
  | [] => []
  | first :: rest =>
    if first.dropWhile isEdge = [] then rest else first.dropWhile isEdge :: rest

/-- The words without the punctuation behind the last. -/
def stripBack : List (List Char) → List (List Char)
  | [] => []
  | [last] => if last.rdropWhile isEdge = [] then [] else [last.rdropWhile isEdge]
  | first :: second :: rest => first :: stripBack (second :: rest)

/-- The words without the punctuation at their ends. -/
def bareWords (words : List (List Char)) : List (List Char) := stripBack (stripFront words)

/-- Either nothing or one space. -/
def AtMostSpace (text : List Char) : Prop := text = [] ∨ text = [' ']

theorem dropWhile_edges (words : List (List Char)) :
    ∃ lead, AtMostSpace lead ∧ ([' '].intercalate words).dropWhile isEdge =
      lead ++ [' '].intercalate (stripFront words) := by
  cases words with
  | nil => exact ⟨[], .inl rfl, rfl⟩
  | cons first rest =>
    have space : isEdge ' ' = false := rfl
    rw [stripFront]
    by_cases last : rest = []
    · subst last
      refine ⟨[], .inl rfl, ?_⟩
      rw [List.intercalate_singleton]
      split_ifs with gone
      · rw [gone]
        rfl
      · rw [List.intercalate_singleton]
        rfl
    · rw [intercalate_cons first last, List.append_assoc, List.dropWhile_append]
      split_ifs with gone empty empty
      · exact ⟨[' '], .inr rfl, List.dropWhile_cons_of_neg (by rw [space]; decide)⟩
      · exact absurd (List.isEmpty_iff.mp gone) empty
      · exact absurd (List.isEmpty_iff.mpr empty) gone
      · refine ⟨[], .inl rfl, ?_⟩
        rw [intercalate_cons _ last, List.append_assoc]
        rfl

theorem rdropWhile_edges (words : List (List Char)) :
    ∃ trail, AtMostSpace trail ∧ (stripBack words = [] → trail = []) ∧
      ([' '].intercalate words).rdropWhile isEdge =
        [' '].intercalate (stripBack words) ++ trail := by
  induction words with
  | nil => exact ⟨[], .inl rfl, fun _ => rfl, rfl⟩
  | cons first rest inductionHypothesis =>
    cases rest with
    | nil =>
      refine ⟨[], .inl rfl, fun _ => rfl, ?_⟩
      rw [List.intercalate_singleton, stripBack, List.append_nil]
      split_ifs with gone
      · exact gone
      · exact List.intercalate_singleton.symm
    | cons second rest =>
      obtain ⟨trail, atMost, none, stripped⟩ := inductionHypothesis
      have split : [' '].intercalate (first :: second :: rest) =
          first ++ ' ' :: [' '].intercalate (second :: rest) := by
        rw [intercalate_cons first (List.cons_ne_nil _ _), List.append_assoc]
        rfl
      have behind := @rdropWhile_cons _ isEdge ([' '].intercalate (second :: rest)) ' ' rfl
      rw [stripped] at behind
      rw [split, rdropWhile_append (by rw [behind]; exact List.cons_ne_nil _ _), behind, stripBack]
      by_cases last : stripBack (second :: rest) = []
      · refine ⟨[' '], .inr rfl, fun impossible => absurd impossible (List.cons_ne_nil _ _), ?_⟩
        rw [last, none last, List.intercalate_singleton]
        rfl
      · refine ⟨trail, atMost, fun impossible => absurd impossible (List.cons_ne_nil _ _), ?_⟩
        rw [intercalate_cons first last, List.append_assoc, List.append_assoc]
        rfl

theorem solid_stripFront (solid : Solid words) : Solid (stripFront words) := by
  cases words with
  | nil => exact solid
  | cons first rest =>
    obtain ⟨here, later⟩ := List.forall_mem_cons.mp solid
    rw [stripFront]
    split_ifs with gone
    · exact later
    · exact List.forall_mem_cons.mpr ⟨⟨gone, fun char member =>
        here.2 char ((List.dropWhile_suffix _).mem member)⟩, later⟩

theorem solid_stripBack (solid : Solid words) : Solid (stripBack words) := by
  induction words with
  | nil => exact solid
  | cons first rest inductionHypothesis =>
    obtain ⟨here, later⟩ := List.forall_mem_cons.mp solid
    cases rest with
    | nil =>
      rw [stripBack]
      split_ifs with gone
      · exact List.forall_mem_nil _
      · exact List.forall_mem_singleton.mpr ⟨gone, fun char member =>
          here.2 char ((List.rdropWhile_prefix _ _).mem member)⟩
    | cons second rest => exact List.forall_mem_cons.mpr ⟨here, inductionHypothesis later⟩

theorem solid_bareWords (solid : Solid words) :
    Solid (bareWords words) := solid_stripBack (solid_stripFront solid)

theorem trim_padded (solid : Solid words) {lead trail : List Char} (leadSpace : AtMostSpace lead)
    (trailSpace : AtMostSpace trail) :
    trim (lead ++ [' '].intercalate words ++ trail) = [' '].intercalate words := by
  by_cases none : words = []
  · subst none
    rcases leadSpace with rfl | rfl <;> rcases trailSpace with rfl | rfl <;> rfl
  · have trimmed := trim_intercalate solid
    have front := dropWhile_trimmed isWhitespace ([' '].intercalate words)
    have back := List.rdropWhile_idempotent isWhitespace
      (([' '].intercalate words).dropWhile isWhitespace)
    rw [show (List.dropWhile isWhitespace _).rdropWhile isWhitespace = _ from trimmed] at front back
    have some : ([' '].intercalate words).isEmpty = false := by
      have found := wordsFrom_intercalate solid
      cases joined : [' '].intercalate words with
      | nil =>
        rw [joined] at found
        exact absurd found.symm none
      | cons char rest => rfl
    have dropped : (lead ++ [' '].intercalate words ++ trail).dropWhile isWhitespace =
        [' '].intercalate words ++ trail := by
      have inner : ([' '].intercalate words ++ trail).dropWhile isWhitespace =
          [' '].intercalate words ++ trail := by
        rw [List.dropWhile_append, front, some]
        rfl
      rcases leadSpace with rfl | rfl
      · exact inner
      · exact (List.dropWhile_cons_of_pos rfl).trans inner
    rw [trim, trimMatches, dropped]
    rcases trailSpace with rfl | rfl
    · rw [List.append_nil, back]
    · exact (List.rdropWhile_concat_pos _ _ _ rfl).trans back

theorem normalizeMerchant_eq (tables : CharacterTables) (raw : List Char) :
    normalizeMerchant tables raw =
      [' '].intercalate (bareWords (wordsFrom [] (remainder tables raw))) := by
  rw [normalizeMerchant, trim_collapse]
  have solid := solid_words (remainder tables raw)
  generalize wordsFrom [] (remainder tables raw) = words at solid
  obtain ⟨lead, leadSpace, dropped⟩ := dropWhile_edges words
  obtain ⟨trail, trailSpace, -, stripped⟩ := rdropWhile_edges (stripFront words)
  have kept : (lead ++ [' '].intercalate (stripFront words)).rdropWhile isEdge =
      lead ++ ([' '].intercalate (bareWords words) ++ trail) := by
    rcases leadSpace with rfl | rfl
    · exact stripped
    · exact (rdropWhile_cons rfl).trans (congrArg (' ' :: ·) stripped)
  rw [trimMatches, dropped, kept, ← List.append_assoc]
  exact trim_padded (solid_bareWords solid) leadSpace trailSpace

end Dohflow.Categorization
