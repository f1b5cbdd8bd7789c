/-
This file is about the descriptions whose keys are their own keys.

A key is normalized again when it is looked up. What a description leaves behind its prefixes,
between its codes and before one state may be a prefix, a code or a state again, or end in
punctuation that stood behind other punctuation. Just where none of this is so, normalizing the key
leaves it as it is (`normalizeMerchant_idempotent_iff`).
-/

import Dohflow.Categorization.NormalizedKeys

namespace Dohflow.Categorization

open JobRuntime LeftmostFirst

variable {words : List (List Char)} {state : List Char}

/-! ### States -/

/-- Two letters of a state. -/
def isState : List Char → Bool
  | [first, second] => stateLetters.any fun entry => first = entry.1 && second ∈ entry.2
  | _ => false

theorem isState_iff {first second : Char} : isState [first, second] = true ↔
    ∃ entry ∈ stateLetters, first = entry.1 ∧ second ∈ entry.2 := by
  simp only [isState, List.any_eq_true, Bool.and_eq_true, decide_eq_true_eq]

theorem clean_stateLetters : ∀ entry ∈ stateLetters, isWhitespace entry.1 = false ∧
    ∀ second ∈ entry.2, isWhitespace second = false := by decide

theorem exists_of_isState (found : isState state = true) :
    ∃ first second, state = [first, second] := by
  unfold isState at found
  split at found
  · exact ⟨_, _, rfl⟩
  · cases found

theorem clean_of_isState (found : isState state = true) :
    ∀ char ∈ state, isWhitespace char = false := by
  obtain ⟨first, second, rfl⟩ := exists_of_isState found
  obtain ⟨entry, member, rfl, among⟩ := isState_iff.mp found
  obtain ⟨clean, cleanSecond⟩ := clean_stateLetters entry member
  exact List.forall_mem_cons.mpr ⟨clean, List.forall_mem_singleton.mpr (cleanSecond second among)⟩

theorem exists_of_ends_state {before rest : List Char}
    (found : trailingState.ends ⟨before, rest⟩ ≠ []) :
    ∃ char run state, rest = char :: run ++ state ∧ isWhitespace char = true ∧
      (∀ other ∈ run, isWhitespace other = true) ∧ isState state = true := by
  obtain ⟨stop, member⟩ := List.exists_mem_of_ne_nil _ found
  obtain ⟨spaced, blank, member⟩ := Pattern.mem_ends_seq.mp member
  obtain ⟨next, single, more⟩ := Pattern.mem_ends_seq.mp blank
  obtain ⟨lettered, letters, member⟩ := Pattern.mem_ends_seq.mp member
  obtain ⟨finished, atEnd, -⟩ := Pattern.mem_ends_seq.mp member
  obtain ⟨char, after, split, space, rfl⟩ := Pattern.mem_ends_symbol.mp single
  obtain ⟨run, runSplit, spaces⟩ := Pattern.exists_run_of_star more
  obtain ⟨pattern, among, matched⟩ := Pattern.mem_ends_anyOf.mp letters
  obtain ⟨entry, entryIn, rfl⟩ := List.mem_map.mp among
  obtain ⟨middle, firstTaken, secondTaken⟩ := Pattern.mem_ends_seq.mp matched
  obtain ⟨first, afterFirst, firstSplit, isFirst, rfl⟩ := Pattern.mem_ends_symbol.mp firstTaken
  obtain ⟨second, afterSecond, secondSplit, isSecond, rfl⟩ := Pattern.mem_ends_symbol.mp secondTaken
  have nothing := (Pattern.mem_ends_finish.mp atEnd).1
  refine ⟨char, run, [first, second], ?_, space, spaces, isState_iff.mpr ⟨entry, entryIn,
    of_decide_eq_true isFirst, of_decide_eq_true isSecond⟩⟩
  have letters : after = run ++ [first, second] := by
    rw [show after = _ from runSplit, firstSplit,
      show afterFirst = second :: afterSecond from secondSplit,
      show afterSecond = [] from nothing]
  rw [show rest = char :: after from split, letters]
  rfl

theorem ends_state {before state : List Char} (found : isState state = true) :
    trailingState.ends ⟨before, ' ' :: state⟩ ≠ [] := by
  obtain ⟨first, second, rfl⟩ := exists_of_isState found
  obtain ⟨entry, member, isFirst, isSecond⟩ := isState_iff.mp found
  refine @List.ne_nil_of_mem _ ⟨second :: first :: ' ' :: before, []⟩ _ ?_
  refine Pattern.mem_ends_seq.mpr ⟨⟨' ' :: before, [first, second]⟩, ?_, ?_⟩
  · exact Pattern.mem_ends_seq.mpr ⟨⟨' ' :: before, [first, second]⟩,
      Pattern.mem_ends_symbol.mpr ⟨' ', _, rfl, rfl, rfl⟩, Pattern.self_mem_ends_star _ _⟩
  · refine Pattern.mem_ends_seq.mpr ⟨⟨second :: first :: ' ' :: before, []⟩, ?_, ?_⟩
    · refine Pattern.mem_ends_anyOf.mpr ⟨_, List.mem_map_of_mem member, ?_⟩
      exact Pattern.mem_ends_seq.mpr ⟨⟨first :: ' ' :: before, [second]⟩,
        Pattern.mem_ends_symbol.mpr ⟨first, _, rfl, decide_eq_true isFirst, rfl⟩,
        Pattern.mem_ends_symbol.mpr ⟨second, _, rfl, decide_eq_true isSecond, rfl⟩⟩
    · exact Pattern.mem_ends_seq.mpr ⟨_, Pattern.mem_ends_finish.mpr ⟨rfl, rfl⟩,
        List.mem_singleton_self _⟩

theorem wordsFrom_append_space {char : Char} (space : isWhitespace char = true)
    (word text rest : List Char) :
    wordsFrom word (text ++ char :: rest) = wordsFrom word text ++ wordsFrom [] rest := by
  induction text generalizing word with
  | nil =>
    rw [List.nil_append, wordsFrom, wordsFrom, if_pos space]
  | cons first text inductionHypothesis =>
    rw [List.cons_append, wordsFrom, wordsFrom, inductionHypothesis, inductionHypothesis]
    split_ifs <;> simp only [List.append_assoc, List.nil_append]

theorem wordsFrom_run {run : List Char} (spaces : ∀ char ∈ run, isWhitespace char = true)
    (rest : List Char) : wordsFrom [] (run ++ rest) = wordsFrom [] rest := by
  induction run with
  | nil => rfl
  | cons char run inductionHypothesis =>
    obtain ⟨space, later⟩ := List.forall_mem_cons.mp spaces
    rw [List.cons_append, wordsFrom, if_pos space, inductionHypothesis later]
    rfl

theorem wordsFrom_word {word : List Char} (some : word ≠ [])
    (clean : ∀ char ∈ word, isWhitespace char = false) : wordsFrom [] word = [word] := by
  have whole := wordsFrom_append clean [] []
  rwa [List.append_nil, List.nil_append, wordsFrom, if_neg some] at whole

theorem intercalate_concat {front : List (List Char)} (some : front ≠ []) (last : List Char) :
    [' '].intercalate (front ++ [last]) = [' '].intercalate front ++ ' ' :: last := by
  induction front with
  | nil => exact absurd rfl some
  | cons first rest inductionHypothesis =>
    rw [List.cons_append, intercalate_cons first (List.append_ne_nil_of_right_ne_nil _
      (List.cons_ne_nil _ _))]
    by_cases none : rest = []
    · subst none
      rw [List.nil_append, List.intercalate_singleton, List.intercalate_singleton,
        List.append_assoc]
      rfl
    · rw [inductionHypothesis none, intercalate_cons first none, List.append_assoc,
        List.append_assoc, List.append_assoc]

theorem occurs_trailingState_iff (solid : Solid words) :
    trailingState.occurs ([' '].intercalate words) = true ↔
      ∃ front last, words = front ++ [last] ∧ front ≠ [] ∧ isState last = true := by
  rw [Pattern.occurs, Pattern.occursFrom_iff]
  constructor
  · rintro ⟨taken, rest, split, found⟩
    obtain ⟨char, run, state, rfl, space, spaces, isStateFound⟩ := exists_of_ends_state found
    obtain ⟨first, second, rfl⟩ := exists_of_isState isStateFound
    have words' := wordsFrom_intercalate solid
    rw [← split, List.cons_append, wordsFrom_append_space space, wordsFrom_run spaces,
      wordsFrom_word (List.cons_ne_nil _ _) (clean_of_isState isStateFound)] at words'
    refine ⟨_, _, words'.symm, fun none => ?_, isStateFound⟩
    rw [none, List.nil_append] at words'
    rw [← words', List.intercalate_singleton] at split
    have lengths := congrArg List.length split
    simp only [List.length_append, List.length_cons, List.length_nil] at lengths
    omega
  · rintro ⟨front, last, rfl, some, isStateLast⟩
    exact ⟨[' '].intercalate front, ' ' :: last, (intercalate_concat some last).symm,
      ends_state isStateLast⟩

/-! ### Punctuation at the ends -/

/-- The characters of some words. -/
def size (words : List (List Char)) : Nat := words.flatten.length

theorem size_cons (first : List Char) (rest : List (List Char)) :
    size (first :: rest) = first.length + size rest := by
  rw [size, List.flatten_cons, List.length_append]
  rfl

theorem size_stripBack_le (words : List (List Char)) : size (stripBack words) ≤ size words := by
  induction words with
  | nil => exact le_refl _
  | cons first rest inductionHypothesis =>
    cases rest with
    | nil =>
      have shorter := (List.rdropWhile_prefix isEdge first).length_le
      rw [stripBack]
      split_ifs
      · exact Nat.zero_le _
      · rw [size_cons, size_cons]
        omega
    | cons second rest =>
      rw [stripBack, size_cons, size_cons first]
      omega

/-- No punctuation stands before the first word. -/
def CleanFront (words : List (List Char)) : Prop :=
  ∀ first ∈ words.head?, ∀ char ∈ first.head?, isEdge char = false

/-- No punctuation stands behind the last word. -/
def CleanBack (words : List (List Char)) : Prop :=
  ∀ last ∈ words.getLast?, ∀ char ∈ last.getLast?, isEdge char = false

theorem stripFront_of_clean (solid : Solid words) (clean : CleanFront words) :
    stripFront words = words := by
  cases words with
  | nil => rfl
  | cons first rest =>
    have some := (solid first List.mem_cons_self).1
    cases first with
    | nil => exact absurd rfl some
    | cons char others =>
      have kept : (char :: others).dropWhile isEdge = char :: others :=
        List.dropWhile_cons_of_neg (by rw [clean _ rfl char rfl]; decide)
      rw [stripFront, kept, if_neg (List.cons_ne_nil _ _)]

theorem size_stripFront_lt (unclean : ¬ CleanFront words) :
    size (stripFront words) < size words := by
  cases words with
  | nil => exact absurd (fun _ impossible => by cases impossible) unclean
  | cons first rest =>
    cases first with
    | nil =>
      refine absurd (fun found head char member => ?_) unclean
      obtain rfl := Option.some.inj head
      cases member
    | cons char others =>
      have edge : isEdge char = true := by
        by_contra clean
        refine unclean fun found head other member => ?_
        obtain rfl := Option.some.inj head
        obtain rfl := Option.some.inj member
        exact Bool.eq_false_of_not_eq_true clean
      have shorter := List.length_dropWhile_le isEdge others
      rw [stripFront, List.dropWhile_cons_of_pos edge]
      split_ifs
      · rw [size_cons, List.length_cons]
        omega
      · rw [size_cons, size_cons, List.length_cons]
        omega

theorem cleanBack_cons {first second : List Char} {rest : List (List Char)} :
    CleanBack (first :: second :: rest) ↔ CleanBack (second :: rest) := by
  unfold CleanBack
  rw [List.getLast?_cons_cons]

theorem stripBack_of_clean (solid : Solid words) (clean : CleanBack words) :
    stripBack words = words := by
  induction words with
  | nil => rfl
  | cons first rest inductionHypothesis =>
    obtain ⟨⟨some, -⟩, later⟩ := List.forall_mem_cons.mp solid
    cases rest with
    | nil =>
      have kept : first.rdropWhile isEdge = first := by
        refine List.rdropWhile_eq_self_iff.mpr fun nonempty => ?_
        rw [clean first rfl _ (List.getLast?_eq_some_getLast nonempty)]
        decide
      rw [stripBack, kept, if_neg some]
    | cons second rest =>
      rw [stripBack, inductionHypothesis later (cleanBack_cons.mp clean)]

theorem size_stripBack_lt (unclean : ¬ CleanBack words) : size (stripBack words) < size words := by
  induction words with
  | nil => exact absurd (fun _ impossible => by cases impossible) unclean
  | cons first rest inductionHypothesis =>
    cases rest with
    | nil =>
      have shorter : (first.rdropWhile isEdge).length < first.length := by
        refine lt_of_le_of_ne (List.rdropWhile_prefix _ _).length_le fun same => unclean ?_
        have kept := (List.rdropWhile_prefix isEdge first).eq_of_length same
        intro last found char member
        obtain rfl := Option.some.inj found
        have nonempty : first ≠ [] := by
          rintro rfl
          cases member
        obtain rfl := Option.some.inj ((List.getLast?_eq_some_getLast nonempty).symm.trans member)
        exact Bool.eq_false_of_not_eq_true (List.rdropWhile_eq_self_iff.mp kept nonempty)
      rw [stripBack]
      split_ifs
      · rw [size_cons]
        exact Nat.lt_of_lt_of_le (Nat.lt_of_le_of_lt (Nat.zero_le _) shorter) (Nat.le_add_right _ _)
      · rw [size_cons, size_cons]
        omega
    | cons second rest =>
      have later := inductionHypothesis fun clean => unclean (cleanBack_cons.mpr clean)
      rw [stripBack, size_cons, size_cons first]
      omega

theorem bareWords_eq_iff (solid : Solid words) :
    bareWords words = words ↔ CleanFront words ∧ CleanBack words := by
  constructor
  · intro same
    have total := congrArg size same
    have front : CleanFront words := by
      by_contra unclean
      have shorter := size_stripFront_lt unclean
      have atMost := size_stripBack_le (stripFront words)
      rw [bareWords] at total
      omega
    refine ⟨front, ?_⟩
    by_contra unclean
    rw [bareWords, stripFront_of_clean solid front] at total
    exact absurd total (size_stripBack_lt unclean).ne
  · rintro ⟨front, back⟩
    rw [bareWords, stripFront_of_clean solid front, stripBack_of_clean solid back]

/-! ### Upper case -/

section Uppercase

variable {tables : CharacterTables} {text : List Char}

/-- A text in upper case. -/
def IsUpper (tables : CharacterTables) (text : List Char) : Prop :=
  ∀ char ∈ text, tables.toUppercase char = [char]

theorem uppercase_of_isUpper (upper : IsUpper tables text) : uppercase tables text = text := by
  induction text with
  | nil => rfl
  | cons char rest inductionHypothesis =>
    obtain ⟨here, later⟩ := List.forall_mem_cons.mp upper
    rw [uppercase, List.flatMap_cons, here]
    exact congrArg (char :: ·) (inductionHypothesis later)

theorem isUpper_uppercase (text : List Char) : IsUpper tables (uppercase tables text) := by
  intro char member
  obtain ⟨lower, -, among⟩ := List.mem_flatMap.mp member
  exact tables.toUppercase_upper lower char among

theorem isUpper_remainder (raw : List Char) : IsUpper tables (remainder tables raw) := by
  intro char member
  rcases Pattern.mem_replaceFrom member with impossible | member
  · cases impossible
  rcases Pattern.mem_replaceAllFrom member with blank | member
  · rw [List.mem_singleton.mp blank]
    exact tables.toUppercase_space
  rcases Pattern.mem_replaceFrom member with impossible | member
  · cases impossible
  exact isUpper_uppercase _ char member

theorem mem_of_mem_wordsFrom {word : List Char} {found : List Char}
    (member : found ∈ wordsFrom word text) {char : Char} (inside : char ∈ found) :
    char ∈ word ∨ char ∈ text := by
  induction text generalizing word with
  | nil =>
    rw [wordsFrom] at member
    split_ifs at member
    · cases member
    · rw [List.mem_singleton.mp member] at inside
      exact .inl inside
  | cons first rest inductionHypothesis =>
    rw [wordsFrom] at member
    by_cases space : isWhitespace first = true
    · rw [if_pos space] at member
      rcases List.mem_append.mp member with flushed | later
      · split_ifs at flushed
        · cases flushed
        · rw [List.mem_singleton.mp flushed] at inside
          exact .inl inside
      · rcases inductionHypothesis later with impossible | among
        · cases impossible
        · exact .inr (List.mem_cons_of_mem _ among)
    · rw [if_neg space] at member
      rcases inductionHypothesis member with among | among
      · rcases List.mem_append.mp among with old | new
        · exact .inl old
        · rw [List.mem_singleton.mp new]
          exact .inr List.mem_cons_self
      · exact .inr (List.mem_cons_of_mem _ among)

theorem mem_of_mem_stripFront {char : Char} (member : char ∈ (stripFront words).flatten) :
    char ∈ words.flatten := by
  cases words with
  | nil => exact member
  | cons first rest =>
    rw [List.flatten_cons]
    rw [stripFront] at member
    split_ifs at member
    · exact List.mem_append_right _ member
    · rw [List.flatten_cons] at member
      exact List.mem_append.mpr
        ((List.mem_append.mp member).imp_left ((List.dropWhile_suffix _).mem))

theorem mem_of_mem_stripBack {char : Char} (member : char ∈ (stripBack words).flatten) :
    char ∈ words.flatten := by
  induction words with
  | nil => exact member
  | cons first rest inductionHypothesis =>
    cases rest with
    | nil =>
      rw [stripBack] at member
      split_ifs at member
      · cases member
      · rw [List.flatten_singleton] at member ⊢
        exact (List.rdropWhile_prefix _ _).mem member
    | cons second rest =>
      rw [stripBack, List.flatten_cons] at member
      rw [List.flatten_cons]
      exact List.mem_append.mpr ((List.mem_append.mp member).imp_right inductionHypothesis)

theorem isUpper_intercalate (upper : IsUpper tables words.flatten) :
    IsUpper tables ([' '].intercalate words) := by
  induction words with
  | nil => exact upper
  | cons first rest inductionHypothesis =>
    rw [List.flatten_cons] at upper
    by_cases none : rest = []
    · subst none
      rw [List.intercalate_singleton]
      exact fun char member => upper char (List.mem_append_left _ member)
    · rw [intercalate_cons first none]
      intro char member
      rcases List.mem_append.mp member with front | later
      · rcases List.mem_append.mp front with here | blank
        · exact upper char (List.mem_append_left _ here)
        · rw [List.mem_singleton.mp blank]
          exact tables.toUppercase_space
      · exact inductionHypothesis (fun other among => upper other (List.mem_append_right _ among))
          char later

end Uppercase

/-! ### Keys that are their own keys -/

/-- Nothing is found in some words, joined by spaces: no processor at their front, no reference code
among them, no state behind another word at their end, and no punctuation at their ends. -/
structure Settled (tables : CharacterTables) (words : List (List Char)) : Prop where
  processor : processorPrefix.occurs ([' '].intercalate words) = false
  code : (referenceCode tables).occurs ([' '].intercalate words) = false
  state : ∀ front last, words = front ++ [last] → front ≠ [] → isState last = false
  front : CleanFront words
  back : CleanBack words

variable {tables : CharacterTables}

theorem length_normalizeMerchant_le (raw : List Char) :
    (normalizeMerchant tables raw).length ≤ (remainder tables raw).length :=
  calc (normalizeMerchant tables raw).length
      ≤ (trimMatches isEdge (trim (collapseWs.replaceAll [' '] (remainder tables raw)))).length :=
        length_trimMatches_le _ _
    _ ≤ (trim (collapseWs.replaceAll [' '] (remainder tables raw))).length :=
        length_trimMatches_le _ _
    _ ≤ (collapseWs.replaceAll [' '] (remainder tables raw)).length := length_trimMatches_le _ _
    _ ≤ (remainder tables raw).length :=
        Pattern.length_replaceAllFrom_le (le_refl 1) _ _ _

theorem steps_of_absent {text : List Char} (processor : processorPrefix.occurs text = false)
    (code : (referenceCode tables).occurs text = false)
    (state : trailingState.occurs text = false) :
    trailingState.replace [] ((referenceCode tables).replaceAll [' ']
      (processorPrefix.replace [] text)) = text := by
  rw [Pattern.replace, Pattern.replace, Pattern.replaceFrom_of_not_occurs processor,
    Pattern.replaceAll, Pattern.replaceAllFrom_of_not_occurs code,
    Pattern.replaceFrom_of_not_occurs state]

theorem absent_of_length_le {text : List Char}
    (kept : text.length ≤ (trailingState.replace [] ((referenceCode tables).replaceAll [' ']
      (processorPrefix.replace [] text))).length) :
    processorPrefix.occurs text = false ∧ (referenceCode tables).occurs text = false ∧
      trailingState.occurs text = false := by
  have processorShort : ([] : List Char).length < processorPrefix.minLength := by decide
  have codeShort : [' '].length < (referenceCode tables).minLength := by
    have least : (referenceCode tables).minLength = 2 := rfl
    rw [least]
    decide
  have stateShort : ([] : List Char).length < trailingState.minLength := by decide
  unfold Pattern.replace Pattern.replaceAll Pattern.occurs at *
  have afterCode (text : List Char) :=
    Pattern.length_replaceAllFrom_le codeShort.le text.length [] text
  have afterState := Pattern.length_replaceFrom_le stateShort []
  cases processor : processorPrefix.occursFrom [] text with
  | true =>
    have shorter := Pattern.length_replaceFrom_lt processorShort processor
    exact absurd ((kept.trans (afterState _)).trans (afterCode _)) (Nat.not_le_of_lt shorter)
  | false =>
    rw [Pattern.replaceFrom_of_not_occurs processor] at kept
    cases code : (referenceCode tables).occursFrom [] text with
    | true =>
      have shorter := Pattern.length_replaceAllFrom_lt codeShort (le_refl _) code
      exact absurd (kept.trans (afterState _)) (Nat.not_le_of_lt shorter)
    | false =>
      rw [Pattern.replaceAllFrom_of_not_occurs code] at kept
      refine ⟨rfl, rfl, ?_⟩
      by_contra found
      have shorter := Pattern.length_replaceFrom_lt stateShort (Bool.eq_true_of_not_eq_false found)
      exact absurd kept (Nat.not_le_of_lt shorter)

theorem normalizeMerchant_words_iff (solid : Solid words) (upper : IsUpper tables words.flatten) :
    normalizeMerchant tables ([' '].intercalate words) = [' '].intercalate words ↔
      Settled tables words := by
  have start : uppercase tables (trim ([' '].intercalate words)) = [' '].intercalate words := by
    rw [trim_intercalate solid]
    exact uppercase_of_isUpper (isUpper_intercalate upper)
  have state : trailingState.occurs ([' '].intercalate words) = false ↔
      ∀ front last, words = front ++ [last] → front ≠ [] → isState last = false := by
    rw [← Bool.not_eq_true, occurs_trailingState_iff solid]
    simp only [not_exists, not_and, Bool.not_eq_true]
  have ends : remainder tables ([' '].intercalate words) = [' '].intercalate words →
      (normalizeMerchant tables ([' '].intercalate words) = [' '].intercalate words ↔
        CleanFront words ∧ CleanBack words) := by
    intro kept
    rw [normalizeMerchant_eq, kept, wordsFrom_intercalate solid, ← bareWords_eq_iff solid]
    constructor
    · intro same
      have found := congrArg (wordsFrom []) same
      rwa [wordsFrom_intercalate (solid_bareWords solid), wordsFrom_intercalate solid] at found
    · intro same
      rw [same]
  constructor
  · intro same
    have whole := @length_normalizeMerchant_le tables ([' '].intercalate words)
    rw [same, remainder, start] at whole
    obtain ⟨processor, code, noState⟩ := absent_of_length_le whole
    have kept : remainder tables ([' '].intercalate words) = [' '].intercalate words := by
      rw [remainder, start, steps_of_absent processor code noState]
    obtain ⟨front, back⟩ := (ends kept).mp same
    exact ⟨processor, code, state.mp noState, front, back⟩
  · rintro ⟨processor, code, noState, front, back⟩
    refine (ends ?_).mpr ⟨front, back⟩
    rw [remainder, start, steps_of_absent processor code (state.mpr noState)]

theorem toUpper_of_not_lower {char : Char} (other : ¬ ('a'.val ≤ char.val ∧ char.val ≤ 'z'.val)) :
    char.toUpper = char := dif_neg other

theorem toUpper_toUpper (char : Char) : char.toUpper.toUpper = char.toUpper := by
  by_cases lower : 'a'.val ≤ char.val ∧ char.val ≤ 'z'.val
  · refine toUpper_of_not_lower ?_
    have value : char.toUpper.val = char.val + ('A'.val - 'a'.val) := by
      unfold Char.toUpper
      rw [dif_pos lower]
    rw [value]
    rintro ⟨above, -⟩
    have low := UInt32.le_iff_toNat_le.mp lower.1
    have high := UInt32.le_iff_toNat_le.mp lower.2
    have bound := UInt32.le_iff_toNat_le.mp above
    have a : 'a'.val.toNat = 97 := rfl
    have z : 'z'.val.toNat = 122 := rfl
    have shift : ('A'.val - 'a'.val).toNat = 4294967264 := rfl
    rw [UInt32.toNat_add, shift] at bound
    omega
  · rw [toUpper_of_not_lower lower, toUpper_of_not_lower lower]

/-- The tables as they are on ASCII. -/
def asciiTables : CharacterTables where
  toUppercase char := [char.toUpper]
  isDecimal := Char.isDigit
  isWord char := char.isAlphanum || char = '_'
  toUppercase_upper char upper member := by rw [List.mem_singleton.mp member, toUpper_toUpper]
  toUppercase_space := rfl

end Dohflow.Categorization
