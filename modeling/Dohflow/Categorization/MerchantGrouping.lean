/-
This file models how normalized merchant keys are grouped by brand, and proves what the
anchor of a key is.

Off the tokens of a key first cities of several tokens are peeled, then single tokens
that are locations, and what is left is the brand, if it is distinctive. Where no city
ends in another one, what is peeled off is the longest tail of single locations with
cities behind them. Two keys that are not the same are of one merchant just when they
have one anchor.
-/

import Dohflow.Categorization.Lexicon
import Dohflow.Foundation.TailPeeling
import Dohflow.JobRuntime.Jobs

namespace Dohflow.Categorization

open JobRuntime TailPeeling

variable {tokens : List String} {key anchor : String} {first second : String}

/-! ### Tokens -/

/-- The words of a text, read on from the beginning of one. -/
def wordsFrom (word : List Char) : List Char → List (List Char)
  | [] => if word = [] then [] else [word]
  | char :: rest =>
    if isWhitespace char then (if word = [] then [] else [word]) ++ wordsFrom [] rest
    else wordsFrom (word ++ [char]) rest

/-- Rust's `str::split_whitespace`. -/
def splitWhitespace (text : String) : List String := (wordsFrom [] text.toList).map String.ofList

/-- Tokens joined by single spaces. -/
def joinTokens (tokens : List String) : String := " ".intercalate tokens

/-! ### Peeling the brand -/

def minSingleTokenBrandLen : Nat := 6

/-- A single token that is a location. -/
def isLocationToken (token : String) : Bool :=
  token ∈ usCitiesSingle || token ∈ usStates || token ∈ metroAbbrevs || token ∈ areaTokens

/-- A store number of one to three digits. -/
def isStoreResidue (token : String) : Bool :=
  token ≠ "" && token.utf8ByteSize ≤ 3 && token.toList.all Char.isDigit

/-- The brand of some tokens: without the cities of several tokens, and then the single locations
and store numbers, that it ends in. -/
def peel (tokens : List String) : List String :=
  peelTail (fun token => isLocationToken token || isStoreResidue token) usCitiesMulti tokens

/-- A brand that is distinctive enough to group on. -/
def distinctive : List String → Bool
  | [only] => minSingleTokenBrandLen ≤ only.utf8ByteSize && only ∉ genericHeads &&
    only ∉ genericIndustry
  | brand => !brand.all (· ∈ genericHeads)

def brandAnchor (normalizedKey : String) : Option String :=
  let tokens := splitWhitespace normalizedKey
  if tokens = [] then none
  else
    let brand := peel tokens
    if brand = [] then none
    else if distinctive brand then some (joinTokens brand)
    else none

def sameMerchant (first second : String) : Bool :=
  match brandAnchor first, brandAnchor second with
  | some anchor, some other => anchor = other && (anchor ≠ first || other ≠ second)
  | _, _ => false

/-! ### Joining and splitting -/

/-- A token: not empty, and without whitespace. -/
def IsToken (token : String) : Prop :=
  token.toList ≠ [] ∧ ∀ char ∈ token.toList, isWhitespace char = false

theorem wordsFrom_append {solid : List Char} (clean : ∀ char ∈ solid, isWhitespace char = false)
    (word rest : List Char) : wordsFrom word (solid ++ rest) = wordsFrom (word ++ solid) rest := by
  induction solid generalizing word with
  | nil => rw [List.nil_append, List.append_nil]
  | cons char others inductionHypothesis =>
    obtain ⟨here, later⟩ := List.forall_mem_cons.mp clean
    rw [List.cons_append, wordsFrom, here, if_neg Bool.false_ne_true, inductionHypothesis later,
      List.append_assoc, List.singleton_append]

theorem solid_wordsFrom {word : List Char} (clean : ∀ char ∈ word, isWhitespace char = false)
    (text : List Char) :
    ∀ found ∈ wordsFrom word text, found ≠ [] ∧ ∀ char ∈ found, isWhitespace char = false := by
  have flushed {word : List Char} (clean : ∀ char ∈ word, isWhitespace char = false) :
      ∀ found ∈ (if word = [] then [] else [word]),
        found ≠ [] ∧ ∀ char ∈ found, isWhitespace char = false := by
    intro found member
    split_ifs at member with empty
    · cases member
    · rw [List.mem_singleton.mp member]
      exact ⟨empty, clean⟩
  induction text generalizing word with
  | nil => exact flushed clean
  | cons char rest inductionHypothesis =>
    intro found member
    rw [wordsFrom] at member
    by_cases space : isWhitespace char = true
    · rw [if_pos space] at member
      rcases List.mem_append.mp member with before | later
      · exact flushed clean found before
      · exact inductionHypothesis (List.forall_mem_nil _) found later
    · rw [if_neg space] at member
      refine inductionHypothesis (fun other inside => ?_) found member
      rcases List.mem_append.mp inside with old | new
      · exact clean other old
      · rw [List.mem_singleton.mp new]
        exact Bool.eq_false_of_not_eq_true space

theorem isToken_of_mem_splitWhitespace {text token : String} (member : token ∈ splitWhitespace text) :
    IsToken token := by
  obtain ⟨word, found, rfl⟩ := List.mem_map.mp member
  have solid := solid_wordsFrom (List.forall_mem_nil _) text.toList word found
  rw [IsToken, String.toList_ofList]
  exact solid

theorem wordsFrom_intercalate {words : List (List Char)}
    (solid : ∀ word ∈ words, word ≠ [] ∧ ∀ char ∈ word, isWhitespace char = false) :
    wordsFrom [] ([' '].intercalate words) = words := by
  induction words with
  | nil => rfl
  | cons word rest inductionHypothesis =>
    obtain ⟨⟨some, clean⟩, others⟩ := List.forall_mem_cons.mp solid
    cases rest with
    | nil =>
      have whole := wordsFrom_append clean [] []
      rw [List.append_nil, List.nil_append, wordsFrom, if_neg some] at whole
      rw [List.intercalate_singleton, whole]
    | cons second rest =>
      have behind := inductionHypothesis others
      have space : isWhitespace ' ' = true := rfl
      rw [List.intercalate_cons_cons, List.append_assoc, wordsFrom_append clean, List.nil_append,
        List.singleton_append, wordsFrom, space, if_pos rfl, if_neg some, behind,
        List.singleton_append]

theorem splitWhitespace_joinTokens (solid : ∀ token ∈ tokens, IsToken token) :
    splitWhitespace (joinTokens tokens) = tokens := by
  have words := wordsFrom_intercalate (List.forall_mem_map.mpr solid)
  unfold splitWhitespace joinTokens
  rw [String.toList_intercalate, show " ".toList = [' '] from rfl, words, List.map_map]
  conv_rhs => rw [← List.map_id tokens]
  exact List.map_congr_left fun token _ => String.ofList_toList

/-! ### What is peeled off -/

/-- Single locations and store numbers, with cities of several tokens behind them. -/
def LocationTail (tail : List String) : Prop :=
  KnownTail (fun token => isLocationToken token || isStoreResidue token) usCitiesMulti tail

/-- The one city of the list that ends in another one. -/
def southSanFrancisco : List String := ["SOUTH", "SAN", "FRANCISCO"]

theorem usCitiesMulti_solid : ∀ city ∈ usCitiesMulti, city ≠ [] := by decide

theorem eq_of_suffix_city : ∀ city ∈ usCitiesMulti, ∀ other ∈ usCitiesMulti,
    city <:+ other → city = other ∨ other = southSanFrancisco := by decide +kernel

theorem apart_of_free (free : ¬ southSanFrancisco <:+: tokens) : Apart usCitiesMulti tokens := by
  intro front ahead first firstIn second secondIn firstEnds secondEnds
  have held {city : List String} (ends : city <:+ front) : city ≠ southSanFrancisco := by
    rintro rfl
    exact free (ends.isInfix.trans ahead.isInfix)
  rcases Nat.le_total first.length second.length with shorter | longer
  · have inside := List.suffix_of_suffix_length_le firstEnds secondEnds shorter
    exact (eq_of_suffix_city first firstIn second secondIn inside).resolve_right (held secondEnds)
  · have inside := List.suffix_of_suffix_length_le secondEnds firstEnds longer
    exact ((eq_of_suffix_city second secondIn first firstIn inside).resolve_right
      (held firstEnds)).symm

/-- A brand is what is left without the longest location tail. -/
def LeavesBrand (tokens brand : List String) : Prop :=
  ∃ tail, LocationTail tail ∧ tokens = brand ++ tail ∧ brand ≠ [] ∧
    ∀ front back, tokens = front ++ back → front ≠ [] → LocationTail back →
      back.length ≤ tail.length

theorem leavesBrand_peel (some : tokens ≠ []) (free : ¬ southSanFrancisco <:+: tokens) :
    LeavesBrand tokens (peel tokens) := by
  obtain ⟨tail, known, same, left⟩ := exists_peelTail
    (fun token => isLocationToken token || isStoreResidue token) usCitiesMulti some
  refine ⟨tail, known, same, left, fun front back whole kept knownBack => ?_⟩
  have longest := length_peelTail_le usCitiesMulti_solid (apart_of_free free) whole kept knownBack
  have lengths := congrArg List.length same
  have wholeLengths := congrArg List.length whole
  rw [List.length_append] at lengths wholeLengths
  omega

/-! ### Anchors -/

theorem brandAnchor_eq_some :
    brandAnchor key = some anchor ↔
      splitWhitespace key ≠ [] ∧ distinctive (peel (splitWhitespace key)) = true ∧
        anchor = joinTokens (peel (splitWhitespace key)) := by
  unfold brandAnchor
  dsimp only
  by_cases empty : splitWhitespace key = []
  · rw [if_pos empty]
    exact iff_of_false (Option.some_ne_none anchor).symm fun some => some.1 empty
  obtain ⟨-, -, -, left⟩ := exists_peelTail
    (fun token => isLocationToken token || isStoreResidue token) usCitiesMulti empty
  rw [if_neg empty, if_neg (show peel (splitWhitespace key) ≠ [] from left)]
  split_ifs with brand
  · rw [Option.some_inj]
    exact ⟨fun same => ⟨empty, brand, same.symm⟩, fun all => all.2.2.symm⟩
  · exact iff_of_false not_false fun some => brand some.2.1

theorem isToken_of_mem_peel (solid : ∀ token ∈ tokens, IsToken token) :
    ∀ token ∈ peel tokens, IsToken token := by
  rcases eq_or_ne tokens [] with rfl | some
  · exact List.forall_mem_nil _
  · obtain ⟨tail, -, same, -⟩ := exists_peelTail
      (fun token => isLocationToken token || isStoreResidue token) usCitiesMulti some
    intro token member
    refine solid token ?_
    rw [same]
    exact List.mem_append_left tail member

theorem splitWhitespace_anchor (anchored : brandAnchor key = some anchor) :
    splitWhitespace anchor = peel (splitWhitespace key) := by
  obtain ⟨-, -, rfl⟩ := brandAnchor_eq_some.mp anchored
  exact splitWhitespace_joinTokens
    (isToken_of_mem_peel fun token => isToken_of_mem_splitWhitespace)

theorem brandAnchor_anchor_iff (anchored : brandAnchor key = some anchor) :
    brandAnchor anchor = some anchor ↔
      ∀ city ∈ usCitiesMulti, city.length < (splitWhitespace anchor).length →
        ¬ city <:+ splitWhitespace anchor := by
  have tokens := splitWhitespace_anchor anchored
  obtain ⟨some, brand, same⟩ := brandAnchor_eq_some.mp anchored
  obtain ⟨-, -, -, left⟩ := exists_peelTail
    (fun token => isLocationToken token || isStoreResidue token) usCitiesMulti some
  have further := @peelTail_peelTail_iff _ _ usCitiesMulti (splitWhitespace key)
    (fun token => isLocationToken token || isStoreResidue token) usCitiesMulti_solid
  rw [tokens, brandAnchor_eq_some, tokens]
  refine Iff.trans ⟨?_, ?_⟩ further
  · rintro ⟨-, -, joined⟩
    have solid := isToken_of_mem_peel fun token => @isToken_of_mem_splitWhitespace key token
    have split := congrArg splitWhitespace (same.symm.trans joined)
    rw [splitWhitespace_joinTokens solid, splitWhitespace_joinTokens (isToken_of_mem_peel solid)]
      at split
    exact split.symm
  · intro kept
    have again : peel (peel (splitWhitespace key)) = peel (splitWhitespace key) := kept
    rw [again]
    exact ⟨left, brand, same⟩

theorem sameMerchant_iff :
    sameMerchant first second = true ↔
      ∃ anchor, brandAnchor first = some anchor ∧ brandAnchor second = some anchor ∧
        (anchor ≠ first ∨ anchor ≠ second) := by
  unfold sameMerchant
  cases here : brandAnchor first with
  | none =>
    refine iff_of_false Bool.false_ne_true ?_
    rintro ⟨anchor, none, -⟩
    cases none
  | some anchor =>
    cases there : brandAnchor second with
    | none =>
      refine iff_of_false Bool.false_ne_true ?_
      rintro ⟨other, -, none, -⟩
      cases none
    | some other =>
      dsimp only
      rw [Bool.and_eq_true, Bool.or_eq_true, decide_eq_true_eq, decide_eq_true_eq,
        decide_eq_true_eq]
      constructor
      · rintro ⟨rfl, differs⟩
        exact ⟨anchor, rfl, rfl, differs⟩
      · rintro ⟨shared, same, same', differs⟩
        obtain rfl := Option.some.inj same
        obtain rfl := Option.some.inj same'
        exact ⟨rfl, differs⟩

theorem sameMerchant_comm (first second : String) :
    sameMerchant first second = sameMerchant second first := by
  rw [Bool.eq_iff_iff, sameMerchant_iff, sameMerchant_iff]
  refine exists_congr fun anchor => ?_
  rw [and_left_comm, or_comm]

theorem sameMerchant_iff_of_ne (apart : first ≠ second) :
    sameMerchant first second = true ↔
      ∃ anchor, brandAnchor first = some anchor ∧ brandAnchor second = some anchor := by
  rw [sameMerchant_iff]
  refine exists_congr fun anchor => and_congr_right fun _ => and_iff_left_of_imp fun _ => ?_
  by_cases same : anchor = first
  · exact .inr fun other => apart (same.symm.trans other)
  · exact .inl same

/-- The brand of a key without South San Francisco is what its longest location tail leaves; an
anchor is its own anchor where no city of several tokens ends it; and one merchant's distinct keys
are those of one anchor. -/
theorem brand_anchors_peeled :
    (∀ key, splitWhitespace key ≠ [] → ¬ southSanFrancisco <:+: splitWhitespace key →
      LeavesBrand (splitWhitespace key) (peel (splitWhitespace key))) ∧
    (∀ key anchor, brandAnchor key = some anchor →
      anchor = joinTokens (peel (splitWhitespace key)) ∧
      (brandAnchor anchor = some anchor ↔ ∀ city ∈ usCitiesMulti,
        city.length < (splitWhitespace anchor).length → ¬ city <:+ splitWhitespace anchor)) ∧
    (∀ first second, sameMerchant first second = sameMerchant second first) ∧
    ∀ first second third, first ≠ second → second ≠ third → first ≠ third →
      sameMerchant first second = true → sameMerchant second third = true →
      sameMerchant first third = true := by
  refine ⟨fun key some free => leavesBrand_peel some free, fun key anchor anchored => ?_,
    sameMerchant_comm, fun first second third here there apart same same' => ?_⟩
  · exact ⟨(brandAnchor_eq_some.mp anchored).2.2, brandAnchor_anchor_iff anchored⟩
  · obtain ⟨anchor, anchored, shared⟩ := (sameMerchant_iff_of_ne here).mp same
    obtain ⟨other, shared', anchored'⟩ := (sameMerchant_iff_of_ne there).mp same'
    obtain rfl := Option.some.inj (shared.symm.trans shared')
    exact (sameMerchant_iff_of_ne apart).mpr ⟨anchor, anchored, anchored'⟩

theorem brand_anchors_peeled_in_boulder :
    LeavesBrand ["CHIPOTLE", "7", "BOULDER", "SAN", "JOSE"] ["CHIPOTLE"] ∧
      sameMerchant "CHIPOTLE DENVER" "CHIPOTLE 7 BOULDER" = true := by
  have tokens : splitWhitespace "CHIPOTLE 7 BOULDER SAN JOSE" =
      ["CHIPOTLE", "7", "BOULDER", "SAN", "JOSE"] := by decide +kernel
  have brand : peel ["CHIPOTLE", "7", "BOULDER", "SAN", "JOSE"] = ["CHIPOTLE"] := by
    decide +kernel
  have peeled := brand_anchors_peeled.1 "CHIPOTLE 7 BOULDER SAN JOSE"
  rw [tokens, brand] at peeled
  exact ⟨peeled (by decide) (by decide +kernel),
    brand_anchors_peeled.2.2.2 "CHIPOTLE DENVER" "CHIPOTLE" "CHIPOTLE 7 BOULDER" (by decide)
      (by decide) (by decide) (by decide +kernel) (by decide +kernel)⟩

/-- A tail of locations in any order. -/
def Located (tail : List String) : Prop :=
  ∃ runs : List (List String), (∀ run ∈ runs, run ∈ usCitiesMulti ∨ ∃ token, run = [token] ∧
    (isLocationToken token || isStoreResidue token) = true) ∧ tail = runs.flatten

/-- A store number behind San Jose keeps the city in the brand, until the anchor is peeled again. -/
theorem san_jose_kept :
    (∃ tail, Located tail ∧ splitWhitespace "CHIPOTLE SAN JOSE 12" = ["CHIPOTLE"] ++ tail) ∧
      peel (splitWhitespace "CHIPOTLE SAN JOSE 12") ≠ ["CHIPOTLE"] ∧
      brandAnchor "CHIPOTLE SAN JOSE 12" = some "CHIPOTLE SAN JOSE" ∧
      brandAnchor "CHIPOTLE SAN JOSE" ≠ some "CHIPOTLE SAN JOSE" := by
  refine ⟨⟨["SAN", "JOSE", "12"], ⟨[["SAN", "JOSE"], ["12"]], ?_, rfl⟩, by decide +kernel⟩,
    by decide +kernel, by decide +kernel, by decide +kernel⟩
  exact List.forall_mem_cons.mpr ⟨.inl (by decide +kernel),
    List.forall_mem_singleton.mpr (.inr ⟨"12", rfl, by decide +kernel⟩)⟩

end Dohflow.Categorization
