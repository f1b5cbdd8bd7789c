/-
This file is a small theory of patterns that are matched leftmost first.

A pattern takes symbols from a place in a text and ends at one of some places, the preferred one
first: the first alternative before the second, more repetitions before fewer. A match starts at the
first place from which the pattern ends anywhere, and ends at the first of these ends. What matches
is replaced, once or everywhere.

A text in which nothing matches stays as it is, and a text in which something matches gets shorter
where the replacement is shorter than any match.
-/

import Mathlib.Data.List.Basic
import Mathlib.Order.Nat

namespace LeftmostFirst

variable {Symbol : Type}

/-- A place in a text: what stands before it, in reverse, and what stands after it. -/
structure Place (Symbol : Type) where
  before : List Symbol
  after : List Symbol

inductive Pattern (Symbol : Type)
  /-- One symbol of a class. -/
  | symbol (holds : Symbol → Bool)
  | nothing
  /-- `^` -/
  | start
  /-- `$` -/
  | finish
  /-- `\b`, by the symbols of words -/
  | boundary (isWord : Symbol → Bool)
  | seq (first second : Pattern Symbol)
  | alt (first second : Pattern Symbol)
  /-- As often as it goes. -/
  | star (inner : Pattern Symbol)

/-- The ends of a repetition, more rounds before fewer. A round takes something. -/
def rounds (inner : Place Symbol → List (Place Symbol)) : Nat → Place Symbol → List (Place Symbol)
  | 0, place => [place]
  | fuel + 1, place =>
    ((inner place).flatMap fun next =>
      if next.after.length < place.after.length then rounds inner fuel next else []) ++ [place]

namespace Pattern

/-- The places that a pattern ends at from a place, the preferred one first. -/
def ends : Pattern Symbol → Place Symbol → List (Place Symbol)
  | symbol holds, ⟨before, after⟩ =>
    match after with
    | [] => []
    | first :: rest => if holds first then [⟨first :: before, rest⟩] else []
  | nothing, place => [place]
  | start, place => if place.before.isEmpty then [place] else []
  | finish, place => if place.after.isEmpty then [place] else []
  | boundary isWord, place =>
    if place.before.head?.any isWord = place.after.head?.any isWord then [] else [place]
  | seq first second, place => (first.ends place).flatMap second.ends
  | alt first second, place => first.ends place ++ second.ends place
  | star inner, place => rounds inner.ends place.after.length place

/-- `?` -/
def optional (inner : Pattern Symbol) : Pattern Symbol := alt inner nothing

/-- `+` -/
def plus (inner : Pattern Symbol) : Pattern Symbol := seq inner (star inner)

/-- `{count,}` -/
def atLeast (inner : Pattern Symbol) : Nat → Pattern Symbol
  | 0 => star inner
  | count + 1 => seq inner (atLeast inner count)

/-- One pattern after another. -/
def inTurn (patterns : List (Pattern Symbol)) : Pattern Symbol := patterns.foldr seq nothing

/-- The first of the patterns that matches. -/
def anyOf : List (Pattern Symbol) → Pattern Symbol
  | [] => symbol fun _ => false
  | [only] => only
  | first :: second :: rest => alt first (anyOf (second :: rest))

/-- These very symbols. -/
def literal [DecidableEq Symbol] (symbols : List Symbol) : Pattern Symbol :=
  inTurn (symbols.map fun expected => symbol fun found => found = expected)

/-- No match is shorter. -/
def minLength : Pattern Symbol → Nat
  | symbol _ => 1
  | nothing => 0
  | start => 0
  | finish => 0
  | boundary _ => 0
  | seq first second => first.minLength + second.minLength
  | alt first second => min first.minLength second.minLength
  | star _ => 0

/-! ### Replacing -/

/-- The end of the match that starts at a place. -/
def firstEnd (pattern : Pattern Symbol) (before after : List Symbol) : Option (Place Symbol) :=
  (pattern.ends ⟨before, after⟩).head?

/-- Whether the pattern matches from some place on. -/
def occursFrom (pattern : Pattern Symbol) (before : List Symbol) : List Symbol → Bool
  | [] => (pattern.firstEnd before []).isSome
  | first :: rest =>
    (pattern.firstEnd before (first :: rest)).isSome || pattern.occursFrom (first :: before) rest

def occurs (pattern : Pattern Symbol) (text : List Symbol) : Bool := pattern.occursFrom [] text

/-- Replace the leftmost match from a place on. -/
def replaceFrom (pattern : Pattern Symbol) (replacement before : List Symbol) :
    List Symbol → List Symbol
  | [] =>
    match pattern.firstEnd before [] with
    | some stop => replacement ++ stop.after
    | none => []
  | first :: rest =>
    match pattern.firstEnd before (first :: rest) with
    | some stop => replacement ++ stop.after
    | none => first :: pattern.replaceFrom replacement (first :: before) rest

/-- Replace the leftmost match. -/
def replace (pattern : Pattern Symbol) (replacement text : List Symbol) : List Symbol :=
  pattern.replaceFrom replacement [] text

/-- Replace every match from a place on, each starting where the one before ends or later. This is
for patterns that take something. -/
def replaceAllFrom (pattern : Pattern Symbol) (replacement : List Symbol) :
    Nat → List Symbol → List Symbol → List Symbol
  | 0, _, after => after
  | _ + 1, _, [] => []
  | fuel + 1, before, first :: rest =>
    match pattern.firstEnd before (first :: rest) with
    | some stop => replacement ++ pattern.replaceAllFrom replacement fuel stop.before stop.after
    | none => first :: pattern.replaceAllFrom replacement fuel (first :: before) rest

/-- Replace every match. -/
def replaceAll (pattern : Pattern Symbol) (replacement text : List Symbol) : List Symbol :=
  pattern.replaceAllFrom replacement text.length [] text

/-! ### Where a match ends -/

variable {pattern : Pattern Symbol} {replacement : List Symbol}
variable {place stop : Place Symbol} {before after : List Symbol} {holds : Symbol → Bool}
  {inner : Place Symbol → List (Place Symbol)} {fuel : Nat} {found : Symbol}

theorem mem_rounds (member : stop ∈ rounds inner (fuel + 1) place) :
    stop = place ∨ ∃ next ∈ inner place, stop ∈ rounds inner fuel next := by
  rw [rounds, List.mem_append, List.mem_singleton, List.mem_flatMap] at member
  rcases member with ⟨next, among, later⟩ | same
  · split_ifs at later
    · exact .inr ⟨next, among, later⟩
    · cases later
  · exact .inl same

theorem suffix_rounds
    (takes : ∀ {place next : Place Symbol}, next ∈ inner place → next.after <:+ place.after)
    (member : stop ∈ rounds inner fuel place) : stop.after <:+ place.after := by
  induction fuel generalizing place with
  | zero =>
    obtain rfl := List.mem_singleton.mp member
    exact List.suffix_refl _
  | succ fuel inductionHypothesis =>
    rcases mem_rounds member with rfl | ⟨next, taken, later⟩
    · exact List.suffix_refl _
    · exact (inductionHypothesis later).trans (takes taken)

theorem ends_symbol_cons {before rest : List Symbol} {first : Symbol} :
    (symbol holds).ends ⟨before, first :: rest⟩ =
      if holds first then [⟨first :: before, rest⟩] else [] := rfl

theorem mem_ends_symbol :
    stop ∈ (symbol holds).ends place ↔ ∃ first rest, place.after = first :: rest ∧
      holds first = true ∧ stop = ⟨first :: place.before, rest⟩ := by
  obtain ⟨before, after⟩ := place
  cases after with
  | nil =>
    refine iff_of_false List.not_mem_nil ?_
    rintro ⟨_, _, same, -⟩
    cases same
  | cons first rest =>
    simp only [ends]
    constructor
    · intro member
      split_ifs at member with taken
      · exact ⟨first, rest, rfl, taken, List.mem_singleton.mp member⟩
      · cases member
    · rintro ⟨_, _, same, taken, rfl⟩
      obtain ⟨rfl, rfl⟩ := List.cons.inj same
      rw [if_pos taken]
      exact List.mem_singleton_self _

theorem eq_of_mem_stay {condition : Prop} [Decidable condition]
    (member : stop ∈ if condition then [place] else []) : condition ∧ stop = place := by
  split_ifs at member with holds
  · exact ⟨holds, List.mem_singleton.mp member⟩
  · cases member

theorem taken_of_mem_ends (member : stop ∈ pattern.ends place) :
    stop.after <:+ place.after ∧ stop.after.length + pattern.minLength ≤ place.after.length := by
  induction pattern generalizing place stop with
  | symbol holds =>
    obtain ⟨first, rest, after, -, rfl⟩ := mem_ends_symbol.mp member
    rw [after]
    exact ⟨List.suffix_cons _ _, le_refl _⟩
  | nothing =>
    rw [List.mem_singleton.mp member]
    exact ⟨List.suffix_refl _, le_refl _⟩
  | start =>
    rw [(eq_of_mem_stay member).2]
    exact ⟨List.suffix_refl _, le_refl _⟩
  | finish =>
    rw [(eq_of_mem_stay member).2]
    exact ⟨List.suffix_refl _, le_refl _⟩
  | boundary isWord =>
    rw [ends, ← ite_not] at member
    rw [(eq_of_mem_stay member).2]
    exact ⟨List.suffix_refl _, le_refl _⟩
  | seq first second firstHypothesis secondHypothesis =>
    obtain ⟨middle, taken, later⟩ := List.mem_flatMap.mp member
    obtain ⟨firstSuffix, firstFits⟩ := firstHypothesis taken
    obtain ⟨secondSuffix, secondFits⟩ := secondHypothesis later
    rw [minLength]
    exact ⟨secondSuffix.trans firstSuffix, by omega⟩
  | alt first second firstHypothesis secondHypothesis =>
    rw [minLength]
    rcases List.mem_append.mp member with taken | taken
    · obtain ⟨suffix, fits⟩ := firstHypothesis taken
      exact ⟨suffix, by omega⟩
    · obtain ⟨suffix, fits⟩ := secondHypothesis taken
      exact ⟨suffix, by omega⟩
  | star inner inductionHypothesis =>
    have suffix := suffix_rounds (fun taken => (inductionHypothesis taken).1) member
    exact ⟨suffix, suffix.length_le⟩

theorem taken_of_firstEnd {stop : Place Symbol} (found : pattern.firstEnd before after = some stop) :
    stop.after <:+ after ∧ stop.after.length + pattern.minLength ≤ after.length :=
  taken_of_mem_ends (List.mem_of_head? found)

theorem mem_ends_seq {first second : Pattern Symbol} :
    stop ∈ (seq first second).ends place ↔
      ∃ middle ∈ first.ends place, stop ∈ second.ends middle := List.mem_flatMap

theorem mem_ends_anyOf {patterns : List (Pattern Symbol)} :
    stop ∈ (anyOf patterns).ends place ↔ ∃ pattern ∈ patterns, stop ∈ pattern.ends place := by
  induction patterns with
  | nil =>
    refine iff_of_false (fun member => ?_) (fun ⟨_, among, _⟩ => List.not_mem_nil among)
    obtain ⟨_, _, -, impossible, -⟩ := mem_ends_symbol.mp member
    cases impossible
  | cons first rest inductionHypothesis =>
    rw [List.exists_mem_cons_iff]
    cases rest with
    | nil =>
      rw [anyOf]
      exact ⟨.inl, fun found => found.resolve_right fun ⟨_, among, _⟩ => List.not_mem_nil among⟩
    | cons second rest =>
      rw [← inductionHypothesis]
      exact List.mem_append

theorem mem_ends_finish : stop ∈ finish.ends place ↔ place.after = [] ∧ stop = place := by
  constructor
  · intro member
    obtain ⟨empty, same⟩ := eq_of_mem_stay member
    exact ⟨List.isEmpty_iff.mp empty, same⟩
  · rintro ⟨empty, rfl⟩
    rw [ends, if_pos (List.isEmpty_iff.mpr empty)]
    exact List.mem_singleton_self _

theorem self_mem_ends_star (inner : Pattern Symbol) (place : Place Symbol) :
    place ∈ (star inner).ends place := by
  rw [ends]
  cases place.after.length with
  | zero => exact List.mem_singleton_self _
  | succ fuel => exact List.mem_append_right _ (List.mem_singleton_self _)

theorem exists_run_of_star (member : stop ∈ (star (symbol holds)).ends place) :
    ∃ run, place.after = run ++ stop.after ∧ ∀ taken ∈ run, holds taken = true := by
  rw [ends] at member
  generalize place.after.length = fuel at member
  induction fuel generalizing place with
  | zero =>
    rw [List.mem_singleton.mp member]
    exact ⟨[], rfl, List.forall_mem_nil _⟩
  | succ fuel inductionHypothesis =>
    rcases mem_rounds member with rfl | ⟨next, taken, later⟩
    · exact ⟨[], rfl, List.forall_mem_nil _⟩
    · obtain ⟨first, rest, after, holdsFirst, rfl⟩ := mem_ends_symbol.mp taken
      obtain ⟨run, split, holdsRun⟩ := inductionHypothesis later
      exact ⟨first :: run, after.trans (congrArg (first :: ·) split),
        List.forall_mem_cons.mpr ⟨holdsFirst, holdsRun⟩⟩

theorem head_rounds_symbol {holds : Symbol → Bool} {fuel : Nat} {before after : List Symbol}
    (enough : after.length ≤ fuel) :
    ∃ stopBefore, (rounds (symbol holds).ends fuel ⟨before, after⟩).head? =
      some ⟨stopBefore, after.dropWhile holds⟩ := by
  induction after generalizing fuel before with
  | nil =>
    cases fuel with
    | zero => exact ⟨before, rfl⟩
    | succ fuel => exact ⟨before, rfl⟩
  | cons first rest inductionHypothesis =>
    cases fuel with
    | zero => exact absurd enough (Nat.not_succ_le_zero _)
    | succ fuel =>
      rw [rounds, ends_symbol_cons]
      by_cases holdsFirst : holds first = true
      · obtain ⟨stopBefore, head⟩ :=
          @inductionHypothesis fuel (first :: before) (Nat.le_of_succ_le_succ enough)
        have shorter : rest.length < (first :: rest).length := Nat.lt_succ_self _
        rw [if_pos holdsFirst, List.flatMap_singleton, if_pos shorter, List.head?_append, head,
          List.dropWhile_cons_of_pos holdsFirst]
        exact ⟨stopBefore, rfl⟩
      · rw [if_neg holdsFirst, List.dropWhile_cons_of_neg holdsFirst]
        exact ⟨before, rfl⟩

theorem firstEnd_plus (before : List Symbol) (first : Symbol) (rest : List Symbol) :
    (holds first = true → ∃ stopBefore,
      (plus (symbol holds)).firstEnd before (first :: rest) =
        some ⟨stopBefore, rest.dropWhile holds⟩) ∧
    (holds first = false → (plus (symbol holds)).firstEnd before (first :: rest) = none) := by
  rw [firstEnd, plus, ends, ends_symbol_cons]
  constructor
  · intro holdsFirst
    rw [if_pos holdsFirst, List.flatMap_singleton]
    exact head_rounds_symbol (le_refl _)
  · intro fails
    rw [fails]
    rfl

theorem occursFrom_iff :
    pattern.occursFrom before after = true ↔
      ∃ taken rest, taken ++ rest = after ∧ pattern.ends ⟨taken.reverse ++ before, rest⟩ ≠ [] := by
  have ended (before after : List Symbol) :
      (pattern.firstEnd before after).isSome = true ↔ pattern.ends ⟨before, after⟩ ≠ [] := by
    rw [firstEnd, List.isSome_head?]
  induction after generalizing before with
  | nil =>
    rw [occursFrom, ended]
    constructor
    · intro here
      exact ⟨[], [], rfl, here⟩
    · rintro ⟨taken, rest, split, found⟩
      obtain ⟨rfl, rfl⟩ := List.append_eq_nil_iff.mp split
      exact found
  | cons first later inductionHypothesis =>
    rw [occursFrom, Bool.or_eq_true, ended]
    refine (or_congr Iff.rfl inductionHypothesis).trans ?_
    constructor
    · rintro (here | ⟨taken, rest, rfl, found⟩)
      · exact ⟨[], first :: later, rfl, here⟩
      · refine ⟨first :: taken, rest, rfl, ?_⟩
        rw [List.reverse_cons, List.append_assoc]
        exact found
    · rintro ⟨taken, rest, split, found⟩
      cases taken with
      | nil =>
        obtain rfl : rest = first :: later := split
        exact .inl found
      | cons other taken =>
        obtain ⟨rfl, rfl⟩ := List.cons.inj split
        rw [List.reverse_cons, List.append_assoc] at found
        exact .inr ⟨taken, rest, rfl, found⟩

/-! ### Texts in which nothing matches -/

theorem firstEnd_of_not_occurs (absent : pattern.occursFrom before after = false) :
    pattern.firstEnd before after = none := by
  cases after with
  | nil => exact Option.isSome_eq_false_iff.mp absent |> Option.isNone_iff_eq_none.mp
  | cons first rest =>
    rw [occursFrom, Bool.or_eq_false_iff] at absent
    exact Option.isSome_eq_false_iff.mp absent.1 |> Option.isNone_iff_eq_none.mp

theorem replaceFrom_of_not_occurs (absent : pattern.occursFrom before after = false) :
    pattern.replaceFrom replacement before after = after := by
  induction after generalizing before with
  | nil => rw [replaceFrom, firstEnd_of_not_occurs absent]
  | cons first rest inductionHypothesis =>
    rw [replaceFrom, firstEnd_of_not_occurs absent]
    rw [occursFrom, Bool.or_eq_false_iff] at absent
    exact congrArg _ (inductionHypothesis absent.2)

theorem replaceAllFrom_of_not_occurs (absent : pattern.occursFrom before after = false) :
    pattern.replaceAllFrom replacement fuel before after = after := by
  induction fuel generalizing before after with
  | zero => rw [replaceAllFrom]
  | succ fuel inductionHypothesis =>
    cases after with
    | nil => rw [replaceAllFrom]
    | cons first rest =>
      rw [replaceAllFrom, firstEnd_of_not_occurs absent]
      rw [occursFrom, Bool.or_eq_false_iff] at absent
      exact congrArg _ (inductionHypothesis absent.2)

/-! ### What a replaced text consists of -/

theorem mem_replaceFrom (member : found ∈ pattern.replaceFrom replacement before after) :
    found ∈ replacement ∨ found ∈ after := by
  induction after generalizing before with
  | nil =>
    rw [replaceFrom] at member
    split at member
    · next stop ended =>
      exact (List.mem_append.mp member).imp_right ((taken_of_firstEnd ended).1.mem)
    · cases member
  | cons first rest inductionHypothesis =>
    rw [replaceFrom] at member
    split at member
    · next stop ended =>
      exact (List.mem_append.mp member).imp_right ((taken_of_firstEnd ended).1.mem)
    · rcases List.mem_cons.mp member with rfl | later
      · exact .inr List.mem_cons_self
      · exact (inductionHypothesis later).imp_right (List.mem_cons_of_mem _)

theorem mem_replaceAllFrom (member : found ∈ pattern.replaceAllFrom replacement fuel before after) :
    found ∈ replacement ∨ found ∈ after := by
  induction fuel generalizing before after with
  | zero =>
    rw [replaceAllFrom] at member
    exact .inr member
  | succ fuel inductionHypothesis =>
    cases after with
    | nil =>
      rw [replaceAllFrom] at member
      cases member
    | cons first rest =>
      rw [replaceAllFrom] at member
      split at member
      · next stop ended =>
        rcases List.mem_append.mp member with new | later
        · exact .inl new
        · exact (inductionHypothesis later).imp_right ((taken_of_firstEnd ended).1.mem)
      · rcases List.mem_cons.mp member with rfl | later
        · exact .inr List.mem_cons_self
        · exact (inductionHypothesis later).imp_right (List.mem_cons_of_mem _)

/-! ### Texts in which something matches -/

theorem length_replaceFrom_lt (short : replacement.length < pattern.minLength)
    (occurs : pattern.occursFrom before after = true) :
    (pattern.replaceFrom replacement before after).length < after.length := by
  induction after generalizing before with
  | nil =>
    obtain ⟨stop, found⟩ := Option.isSome_iff_exists.mp occurs
    have fits := (taken_of_firstEnd found).2
    rw [List.length_nil] at fits
    omega
  | cons first rest inductionHypothesis =>
    rw [replaceFrom]
    rw [occursFrom] at occurs
    cases found : pattern.firstEnd before (first :: rest) with
    | some stop =>
      have fits := (taken_of_firstEnd found).2
      rw [List.length_append]
      omega
    | none =>
      rw [found] at occurs
      exact Nat.succ_lt_succ (inductionHypothesis occurs)

theorem length_replaceFrom_le (short : replacement.length < pattern.minLength)
    (before after : List Symbol) :
    (pattern.replaceFrom replacement before after).length ≤ after.length := by
  cases occurs : pattern.occursFrom before after with
  | false => rw [replaceFrom_of_not_occurs occurs]
  | true => exact (length_replaceFrom_lt short occurs).le

theorem length_replaceAllFrom_le (short : replacement.length ≤ pattern.minLength) (fuel : Nat)
    (before after : List Symbol) :
    (pattern.replaceAllFrom replacement fuel before after).length ≤ after.length := by
  induction fuel generalizing before after with
  | zero => rw [replaceAllFrom]
  | succ fuel inductionHypothesis =>
    cases after with
    | nil => rw [replaceAllFrom]
    | cons first rest =>
      rw [replaceAllFrom]
      cases found : pattern.firstEnd before (first :: rest) with
      | some stop =>
        have fits := (taken_of_firstEnd found).2
        have later := inductionHypothesis stop.before stop.after
        rw [List.length_append]
        omega
      | none => exact Nat.succ_le_succ (inductionHypothesis _ rest)

theorem length_replaceAllFrom_lt (short : replacement.length < pattern.minLength) {fuel : Nat}
    {before after : List Symbol} (enough : after.length ≤ fuel)
    (occurs : pattern.occursFrom before after = true) :
    (pattern.replaceAllFrom replacement fuel before after).length < after.length := by
  cases after with
  | nil =>
    obtain ⟨stop, found⟩ := Option.isSome_iff_exists.mp occurs
    have fits := (taken_of_firstEnd found).2
    rw [List.length_nil] at fits
    omega
  | cons first rest =>
    cases fuel with
    | zero => exact absurd enough (Nat.not_succ_le_zero _)
    | succ fuel =>
      rw [replaceAllFrom]
      rw [occursFrom] at occurs
      cases found : pattern.firstEnd before (first :: rest) with
      | some stop =>
        have fits := (taken_of_firstEnd found).2
        have later := length_replaceAllFrom_le short.le fuel stop.before stop.after
        rw [List.length_append]
        omega
      | none =>
        rw [found] at occurs
        exact Nat.succ_lt_succ
          (length_replaceAllFrom_lt short (Nat.le_of_succ_le_succ enough) occurs)

end Pattern

end LeftmostFirst
