/-
This file is a small theory of readers that judge an object by its front.

Such a reader is given the symbols in hand and the length of the whole object. It
answers, or it names how many symbols it needs. `Foretells` says that on a part it
gives the answer of the whole or asks for more than is in hand and no more than
there is; the rules carry that along a chain of checks. A reader that foretells is
driven by `fetch`, which always fetches what is asked for, and reaches the answer
of the whole object.

The lengths such a reader adds and subtracts are numbers of a fixed range. `plus`
and `minus` stop where a sum or a difference would leave it, and `inRange` states
that an attempt written with them is the attempt written without.
-/

import Dohflow.Foundation.Fallible

namespace PrefixReader

open Fallible

variable {Failure Verdict Value : Type}

/-! ### An answer from a part -/

/-- From a part of an object, the attempt gives the final answer, or it needs more symbols than
are in hand and at most as many as there are. -/
def Foretells (needs : Failure → Option Nat) (inHand whole : Nat)
    (attempt final : Except Failure Verdict) : Prop :=
  attempt = final ∨ ∃ failure needed, attempt = .error failure ∧ needs failure = some needed ∧
    inHand < needed ∧ needed ≤ whole

variable {needs : Failure → Option Nat} {inHand whole : Nat}
variable {next final : Unit → Except Failure Verdict} {partHolds wholeHolds : Prop}
  {failure : Failure}

theorem foretells_refl (attempt : Except Failure Verdict) :
    Foretells needs inHand whole attempt attempt := .inl rfl

theorem foretells_needs {needed : Nat} (asks : needs failure = some needed) (more : inHand < needed)
    (atMost : needed ≤ whole) (final : Except Failure Verdict) :
    Foretells needs inHand whole (.error failure) final :=
  .inr ⟨failure, needed, rfl, asks, more, atMost⟩

/-- A check on which the part and the whole agree. -/
theorem foretells_ensure_bind [Decidable partHolds] [Decidable wholeHolds]
    (agree : partHolds ↔ wholeHolds)
    (rest : partHolds → wholeHolds → Foretells needs inHand whole (next ()) (final ())) :
    Foretells needs inHand whole (ensure partHolds failure >>= next)
      (ensure wholeHolds failure >>= final) := by
  by_cases holds : partHolds
  · rw [ensure_of holds, ensure_of (agree.mp holds)]
    exact rest holds (agree.mp holds)
  · rw [ensure_of_not holds, ensure_of_not fun claimed => holds (agree.mpr claimed)]
    exact foretells_refl _

theorem foretells_lack_bind [Decidable partHolds] [Decidable wholeHolds] {short truncated : Failure}
    {needed : Nat} (asks : needs short = some needed) (monotone : partHolds → wholeHolds)
    (least : ¬ partHolds → inHand < needed ∧ needed ≤ whole)
    (rest : partHolds → wholeHolds → Foretells needs inHand whole (next ()) (final ())) :
    Foretells needs inHand whole (ensure partHolds short >>= next)
      (ensure wholeHolds truncated >>= final) := by
  by_cases holds : partHolds
  · rw [ensure_of holds, ensure_of (monotone holds)]
    exact rest holds (monotone holds)
  · rw [ensure_of_not holds]
    exact foretells_needs asks (least holds).1 (least holds).2 _

theorem foretells_bind {attempt : Except Failure Value}
    {next final : Value → Except Failure Verdict}
    (rest : ∀ value, Foretells needs inHand whole (next value) (final value)) :
    Foretells needs inHand whole (attempt >>= next) (attempt >>= final) := by
  cases attempt with
  | error failure => exact foretells_refl _
  | ok value => exact rest value

theorem Foretells.map {Other : Type} {attempt final : Except Failure Verdict}
    (foretells : Foretells needs inHand whole attempt final) (view : Verdict → Other) :
    Foretells needs inHand whole (attempt.map view) (final.map view) := by
  obtain rfl | ⟨failure, needed, rfl, asks, more, atMost⟩ := foretells
  · exact foretells_refl _
  · exact foretells_needs asks more atMost _

/-! ### Fetching what is asked for -/

variable {Symbol : Type}
variable {read : List Symbol → Nat → Except Failure Verdict} {limit first second : Nat}
  {condition : Prop}

/-- On every part of every object the reader foretells what it says of the whole, where it asks for
nothing. -/
structure Sound (needs : Failure → Option Nat)
    (read : List Symbol → Nat → Except Failure Verdict) : Prop where
  foretells : ∀ object part : List Symbol, part <+: object →
    Foretells needs part.length object.length (read part object.length)
      (read object object.length)
  answers : ∀ (object : List Symbol) (failure : Failure),
    read object object.length = .error failure → needs failure = none

/-- Read the front of an object, each time fetching as much as was asked for, for so many rounds at
most. -/
def fetch (needs : Failure → Option Nat) (read : List Symbol → Nat → Except Failure Verdict)
    (object : List Symbol) : Nat → Nat → Option (Except Failure Verdict)
  | 0, _ => none
  | rounds + 1, inHand =>
    match read (object.take inHand) object.length with
    | .ok verdict => some (.ok verdict)
    | .error failure =>
      match needs failure with
      | none => some (.error failure)
      | some needed => fetch needs read object rounds needed

theorem Sound.fetch_eq (sound : Sound needs read) (object : List Symbol) {rounds inHand : Nat}
    (enough : object.length - inHand < rounds) :
    fetch needs read object rounds inHand = some (read object object.length) := by
  induction rounds generalizing inHand with
  | zero => omega
  | succ rounds inductionHypothesis =>
    have foretells := sound.foretells object (object.take inHand) (List.take_prefix _ _)
    rw [List.length_take] at foretells
    rw [fetch]
    obtain same | ⟨failure, needed, asked, asks, more, atMost⟩ := foretells
    · rw [same]
      cases final : read object object.length with
      | ok verdict => rfl
      | error failure =>
        dsimp only
        rw [sound.answers object failure final]
    · rw [asked]
      dsimp only
      rw [asks]
      exact inductionHypothesis (by omega)

/-- A peek agrees with a judgement of whole objects: on every part of an object it gives the
verdict or asks, it asks for more than is in hand and no more than there is, and a reader that
always fetches what it asks for gets the verdict. -/
structure Agrees (needs : Failure → Option Nat) (short : Nat → Failure)
    (peek : List Symbol → Nat → Except Failure Verdict)
    (verdict : List Symbol → Except Failure Verdict) : Prop where
  answers : ∀ object part : List Symbol, part <+: object →
    (∃ needed, peek part object.length = .error (short needed)) ∨
      peek part object.length = verdict object
  asks : ∀ (object part : List Symbol) (needed : Nat), part <+: object →
    peek part object.length = .error (short needed) →
    part.length < needed ∧ needed ≤ object.length
  reaches : ∀ (object : List Symbol) (inHand : Nat),
    fetch needs peek object (object.length + 1) inHand = some (verdict object)

/-- A sound reader agrees with what it says of whole objects. -/
theorem Sound.agrees {short : Nat → Failure} {verdict : List Symbol → Except Failure Verdict}
    (sound : Sound needs read)
    (asking : ∀ failure needed, needs failure = some needed ↔ failure = short needed)
    (whole : ∀ object, read object object.length = verdict object) :
    Agrees needs short read verdict where
  answers object part front := by
    obtain same | ⟨failure, needed, asked, asks, -, -⟩ := sound.foretells object part front
    · exact .inr (same.trans (whole object))
    · rw [(asking failure needed).mp asks] at asked
      exact .inl ⟨needed, asked⟩
  asks object part needed front asked := by
    obtain same | ⟨failure, other, again, asks, more, atMost⟩ := sound.foretells object part front
    · have asking := (asking (short needed) needed).mpr rfl
      rw [sound.answers object _ (same.symm.trans asked)] at asking
      cases asking
    · obtain rfl := Except.error.inj (asked.symm.trans again)
      obtain rfl := Option.some.inj (((asking _ needed).mpr rfl).symm.trans asks)
      exact ⟨more, atMost⟩
  reaches object inHand := by
    rw [sound.fetch_eq object (by omega), whole]

/-! ### Lengths of a fixed range -/

/-- Why an attempt on numbers of a fixed range ended without a value. -/
inductive Stop (Failure : Type)
  | outOfRange
  | refused (failure : Failure)

/-- A sum below the limit. -/
def plus (limit first second : Nat) : Except (Stop Failure) Nat :=
  if first + second < limit then .ok (first + second) else .error .outOfRange

/-- A difference that is not negative. -/
def minus (first second : Nat) : Except (Stop Failure) Nat :=
  if second ≤ first then .ok (first - second) else .error .outOfRange

/-- Carry on when the condition holds, otherwise stop with the failure that names a sum; the sum is
taken only then. -/
def ensureOrSum (condition : Prop) [Decidable condition] (limit first second : Nat)
    (failure : Nat → Failure) : Except (Stop Failure) Unit :=
  if condition then .ok ()
  else plus limit first second >>= fun sum => .error (.refused (failure sum))

/-- The attempt as one that never leaves the range. -/
def inRange (attempt : Except Failure Value) : Except (Stop Failure) Value :=
  attempt.mapError .refused

theorem plus_bind (fits : first + second < limit) (next : Nat → Except (Stop Failure) Value) :
    (plus limit first second >>= next) = next (first + second) := by
  rw [plus, if_pos fits]
  rfl

theorem minus_bind {first second : Nat} (atMost : second ≤ first)
    (next : Nat → Except (Stop Failure) Value) :
    (minus first second >>= next) = next (first - second) := by
  rw [minus, if_pos atMost]
  rfl

variable {checked : Unit → Except (Stop Failure) Value}

theorem ensure_bind_eq_inRange [Decidable condition] {next : Unit → Except Failure Value}
    (rest : condition → checked () = inRange (next ())) :
    (ensure condition (.refused failure) >>= checked) =
      inRange (ensure condition failure >>= next) := by
  by_cases holds : condition
  · rw [ensure_of holds, ensure_of holds]
    exact rest holds
  · rw [ensure_of_not holds, ensure_of_not holds]
    rfl

theorem ensureOrSum_bind_eq_inRange [Decidable condition] {failure : Nat → Failure}
    {next : Unit → Except Failure Value} (fits : ¬ condition → first + second < limit)
    (rest : condition → checked () = inRange (next ())) :
    (ensureOrSum condition limit first second failure >>= checked) =
      inRange (ensure condition (failure (first + second)) >>= next) := by
  unfold ensureOrSum
  by_cases holds : condition
  · rw [if_pos holds, ensure_of holds]
    exact rest holds
  · rw [if_neg holds, ensure_of_not holds, plus_bind (fits holds)]
    rfl

theorem bind_eq_inRange {Taken : Type} {attempt : Except Failure Taken}
    {next : Taken → Except Failure Value} {checked : Taken → Except (Stop Failure) Value}
    (rest : ∀ value, checked value = inRange (next value)) :
    (inRange attempt >>= checked) = inRange (attempt >>= next) := by
  cases attempt with
  | error failure => rfl
  | ok value => exact rest value

end PrefixReader
