/-
This file proves what honoring voids guarantees over every run of offers.

Coverage is never checked when a range is recorded; it follows from the checks on
the context and the order of the inert rules. `honoring_safe` states it for every
run from an empty ledger, whatever the voids and the contexts: the ranges ascend
and are disjoint, a range is recorded only for the void at the stop, no void is
honored twice, and the context after an honored void is accepted again.
-/

import Dohflow.SyncCore.Void

namespace Dohflow.SyncCore

open Fallible FirstChange

namespace VoidLedger

/-! ### One void -/

/-- Everything that must hold for a void to be honored against a stop. -/
structure Honorable (ledger : VoidLedger) (void : VerifiedVoid) (context : HonorContext)
    (stop : InvalidEnvelope) : Prop where
  stopped : context.status = .envelopeInvalid stop
  position : stop.seq = void.body.seq.toNat
  digest : stop.envelopeDigest = void.body.envelopeDigest
  command : stop.commandId = void.body.commandId
  frontier : context.nextToApply = void.body.seq.toNat
  aboveRoot : ∀ root ∈ context.snapshotRoot, root < void.body.seq.toNat
  afterTarget : void.body.seq < void.position
  uncovered : ledger.skips void.body.seq.toNat = false
  fresh : ∀ honored ∈ ledger.honored, honored.voidId ≠ void.id

/-- What offering a void can do: nothing is recorded, or the void is honorable and its range goes
to the end of the ledger. -/
inductive OfferOutcome (ledger : VoidLedger) (void : VerifiedVoid) (context : HonorContext) :
    VoidLedger × Honor → Prop
  | keeps {outcome : Honor} (notHonored : ∀ range, outcome ≠ .honored range) :
      OfferOutcome ledger void context (ledger, outcome)
  | honors {stop : InvalidEnvelope} (honorable : Honorable ledger void context stop) :
      OfferOutcome ledger void context
        (⟨ledger.honored ++ [void.range]⟩, .honored void.range)

variable {ledger : VoidLedger} {void : VerifiedVoid} {context : HonorContext}

theorem OfferOutcome.inert (why : Inert) :
    OfferOutcome ledger void context (ledger, .inert why) :=
  .keeps fun range same => by cases same

theorem OfferOutcome.fork (fork : ForkSuspected) :
    OfferOutcome ledger void context (ledger, .forkSuspected fork) :=
  .keeps fun range same => by cases same

theorem judge_outcome
    (fresh : ∀ honored ∈ ledger.honored, honored.voidId ≠ void.id)
    (afterTarget : void.body.seq < void.position)
    (uncovered : ledger.skips void.body.seq.toNat = false)
    (aboveRoot : ∀ root ∈ context.snapshotRoot, root < void.body.seq.toNat)
    (frontier : context.nextToApply = void.body.seq.toNat) :
    OfferOutcome ledger void context (ledger.judge void context) := by
  unfold judge
  cases stopped : context.status with
  | healthy => exact .inert _
  | halted evidence => exact .inert _
  | updateRequired update => exact .inert _
  | envelopeInvalid stop =>
    dsimp only
    by_cases position : stop.seq = void.body.seq.toNat
    · rw [if_neg (not_not.mpr position)]
      by_cases digest : stop.envelopeDigest = void.body.envelopeDigest
      · rw [if_neg (not_not.mpr digest)]
        by_cases command : stop.commandId = void.body.commandId
        · rw [if_neg (not_not.mpr command)]
          exact .honors ⟨stopped, position, digest, command, frontier, aboveRoot, afterTarget,
            uncovered, fresh⟩
        · rw [if_pos command]
          exact .inert _
      · rw [if_pos digest]
        exact .fork _
    · rw [if_pos position]
      exact .inert _

theorem offerOne_outcome (context : HonorContext) (ledger : VoidLedger) (void : VerifiedVoid) :
    OfferOutcome ledger void context (offerOne context ledger void) := by
  unfold offerOne
  cases found : ledger.honored.find? fun honored => honored.voidId = void.id with
  | some existing =>
    dsimp only
    split
    · exact .keeps fun range same => by cases same
    · exact .fork _
  | none =>
    dsimp only
    have fresh : ∀ honored ∈ ledger.honored, honored.voidId ≠ void.id := fun honored member =>
      of_decide_eq_false (Bool.eq_false_iff.mpr (List.find?_eq_none.mp found honored member))
    split
    · exact .inert _
    next afterTarget =>
    split
    · exact .inert _
    next uncovered =>
    split
    · exact .inert _
    next aboveRoot =>
    split
    · exact .inert _
    next notBefore =>
    split
    · exact .inert _
    next notAfter =>
    refine judge_outcome fresh (UInt64.not_le.mp afterTarget) (Bool.eq_false_iff.mpr uncovered) ?_
      (Nat.le_antisymm (Nat.le_of_not_lt notBefore) (Nat.le_of_not_lt notAfter))
    intro root member
    rw [Option.mem_def.mp member, Option.any_some, decide_eq_true_iff] at aboveRoot
    exact Nat.lt_of_not_le aboveRoot

theorem inertSteps_offerOne (context : HonorContext) :
    InertSteps (offerOne context) Honor.changes := by
  intro ledger void unchanged
  have outcome := offerOne_outcome context ledger void
  generalize offerOne context ledger void = result at outcome unchanged
  cases outcome with
  | keeps => rfl
  | honors => cases unchanged

theorem offerOne_honored (context : HonorContext) (ledger : VoidLedger) (void : VerifiedVoid) :
    (offerOne context ledger void).1.honored =
      ledger.honored ++ (offerOne context ledger void).2.honoredRange.toList := by
  have outcome := offerOne_outcome context ledger void
  generalize offerOne context ledger void = result at outcome
  cases outcome with
  | @keeps outcome notHonored =>
    cases outcome with
    | honored range => exact absurd rfl (notHonored range)
    | alreadyHonored => exact (List.append_nil _).symm
    | inert => exact (List.append_nil _).symm
    | forkSuspected => exact (List.append_nil _).symm
  | honors => rfl

/-! ### One call -/

/-- The context passes every check. -/
structure Accepts (ledger : VoidLedger) (context : HonorContext) : Prop where
  stop : ∀ stop ∈ context.status.voidStop, context.nextToApply ≤ stop
  root : ∀ root ∈ context.snapshotRoot, root < context.nextToApply
  ranges : ∀ honored ∈ ledger.honored, honored.last < context.nextToApply

theorem offerInOrder_eq_ok {voids : List VerifiedVoid} {result : VoidLedger × List Honor} :
    ledger.offerInOrder voids context = .ok result ↔
      Accepts ledger context ∧ Ascending voids ∧
        untilChange (offerOne context) Honor.changes ledger voids = result := by
  simp only [offerInOrder, checkContext, bind_assoc, ensure_bind_eq_ok]
  constructor
  · rintro ⟨stop, root, ranges, ascending, final⟩
    exact ⟨⟨stop, root, ranges⟩, ascending, Except.ok.inj final⟩
  · rintro ⟨accepts, ascending, rfl⟩
    exact ⟨accepts.stop, accepts.root, accepts.ranges, ascending, rfl⟩

/-- A call keeps the ledger, or records the range of one honorable void of the call. -/
inductive Adds (ledger : VoidLedger) (voids : List VerifiedVoid) (context : HonorContext) :
    VoidLedger → Prop
  | nothing : Adds ledger voids context ledger
  | range {void : VerifiedVoid} {stop : InvalidEnvelope} (offered : void ∈ voids)
      (honorable : Honorable ledger void context stop) :
      Adds ledger voids context ⟨ledger.honored ++ [void.range]⟩

theorem untilChange_adds (ledger : VoidLedger) (voids : List VerifiedVoid)
    (context : HonorContext) :
    Adds ledger voids context (untilChange (offerOne context) Honor.changes ledger voids).1 := by
  rw [untilChange_fst (inertSteps_offerOne context)]
  cases first : firstChange (offerOne context) Honor.changes ledger voids with
  | none => exact .nothing
  | some change =>
    obtain ⟨void, offered, rfl⟩ := List.mem_map.mp (List.mem_of_find?_eq_some first)
    show Adds ledger voids context (offerOne context ledger void).1
    have outcome := offerOne_outcome context ledger void
    generalize offerOne context ledger void = result at outcome
    cases outcome with
    | keeps => exact .nothing
    | honors honorable => exact .range offered honorable

theorem untilChange_honored (ledger : VoidLedger) (voids : List VerifiedVoid)
    (context : HonorContext) :
    (untilChange (offerOne context) Honor.changes ledger voids).1.honored =
      ledger.honored ++
        (untilChange (offerOne context) Honor.changes ledger voids).2.filterMap
          Honor.honoredRange := by
  refine untilChange_relates (fun before after outcomes =>
    after.honored = before.honored ++ outcomes.filterMap Honor.honoredRange) ?_ ?_ ledger voids
  · intro before
    exact (List.append_nil _).symm
  · intro before void after outcomes grown
    rw [grown, offerOne_honored, List.append_assoc, List.filterMap_cons]
    cases (offerOne context before void).2.honoredRange <;> rfl

/-! ### Every run -/

/-- The ranges are not empty, ascend, are disjoint, and belong to different voids. -/
structure WellFormed (ledger : VoidLedger) : Prop where
  nonempty : ∀ honored ∈ ledger.honored, honored.first ≤ honored.last
  ascending : ledger.honored.Pairwise fun first second => first.last < second.first
  distinct : (ledger.honored.map HonoredVoid.voidId).Nodup

theorem wellFormed_empty : WellFormed empty where
  nonempty := fun _ member => absurd member List.not_mem_nil
  ascending := List.Pairwise.nil
  distinct := List.nodup_nil

theorem Adds.wellFormed {voids : List VerifiedVoid} {next : VoidLedger}
    (adds : Adds ledger voids context next) (accepts : Accepts ledger context)
    (wellFormed : WellFormed ledger) : WellFormed next := by
  cases adds with
  | nothing => exact wellFormed
  | @range void stop offered honorable =>
    have afterTarget : void.body.seq.toNat < void.position.toNat :=
      UInt64.lt_iff_toNat_lt.mp honorable.afterTarget
    refine ⟨?_, ?_, ?_⟩
    · intro honored member
      rcases List.mem_append.mp member with old | new
      · exact wellFormed.nonempty honored old
      · obtain rfl := List.mem_singleton.mp new
        exact Nat.le_sub_one_of_lt afterTarget
    · refine List.pairwise_append.mpr ⟨wellFormed.ascending, List.pairwise_singleton _ _, ?_⟩
      intro old member new isNew
      obtain rfl := List.mem_singleton.mp isNew
      show old.last < void.body.seq.toNat
      rw [← honorable.frontier]
      exact accepts.ranges old member
    · rw [List.map_append, List.nodup_append]
      refine ⟨wellFormed.distinct, List.nodup_singleton _, ?_⟩
      intro id member other isNew same
      obtain ⟨old, oldMember, rfl⟩ := List.mem_map.mp member
      obtain rfl := List.mem_singleton.mp isNew
      exact honorable.fresh old oldMember same

/-- One call of the run. -/
structure Offer where
  voids : List VerifiedVoid
  context : HonorContext

/-- The ledger and the outcomes after a call; a refused call changes nothing. -/
def offer (ledger : VoidLedger) (offer : Offer) : VoidLedger × List Honor :=
  match ledger.offerInOrder offer.voids offer.context with
  | .ok result => result
  | .error _ => (ledger, [])

/-- The ledger and all the outcomes after a sequence of calls. -/
def offerAll (ledger : VoidLedger) : List Offer → VoidLedger × List Honor
  | [] => (ledger, [])
  | first :: rest =>
    let one := ledger.offer first
    let final := one.1.offerAll rest
    (final.1, one.2 ++ final.2)

theorem offer_cases (ledger : VoidLedger) (call : Offer) :
    ledger.offer call = (ledger, []) ∨
      Accepts ledger call.context ∧
        ledger.offer call =
          untilChange (offerOne call.context) Honor.changes ledger call.voids := by
  unfold offer
  cases processed : ledger.offerInOrder call.voids call.context with
  | error refusal => exact .inl rfl
  | ok result =>
    obtain ⟨accepts, -, final⟩ := offerInOrder_eq_ok.mp processed
    exact .inr ⟨accepts, final.symm⟩

theorem offer_adds (ledger : VoidLedger) (call : Offer) :
    Adds ledger call.voids call.context (ledger.offer call).1 := by
  rcases offer_cases ledger call with refused | ⟨-, processed⟩
  · rw [refused]
    exact .nothing
  · rw [processed]
    exact untilChange_adds ledger call.voids call.context

theorem WellFormed.offer (wellFormed : WellFormed ledger) (call : Offer) :
    WellFormed (ledger.offer call).1 := by
  rcases offer_cases ledger call with refused | ⟨accepts, processed⟩
  · rw [refused]
    exact wellFormed
  · exact (offer_adds ledger call).wellFormed accepts wellFormed

theorem offer_honored (ledger : VoidLedger) (call : Offer) :
    (ledger.offer call).1.honored =
      ledger.honored ++ (ledger.offer call).2.filterMap Honor.honoredRange := by
  rcases offer_cases ledger call with refused | ⟨-, processed⟩
  · rw [refused]
    exact (List.append_nil _).symm
  · rw [processed]
    exact untilChange_honored ledger call.voids call.context

theorem WellFormed.offerAll (wellFormed : WellFormed ledger) (calls : List Offer) :
    WellFormed (ledger.offerAll calls).1 := by
  induction calls generalizing ledger with
  | nil => exact wellFormed
  | cons call rest inductionHypothesis => exact inductionHypothesis (wellFormed.offer call)

theorem offerAll_honored (ledger : VoidLedger) (calls : List Offer) :
    (ledger.offerAll calls).1.honored =
      ledger.honored ++ (ledger.offerAll calls).2.filterMap Honor.honoredRange := by
  induction calls generalizing ledger with
  | nil => exact (List.append_nil _).symm
  | cons call rest inductionHypothesis =>
    show ((ledger.offer call).1.offerAll rest).1.honored = _
    rw [inductionHypothesis, offer_honored, List.append_assoc, ← List.filterMap_append]
    rfl

/-- The context of an engine that resumed after a honored range. -/
def resumed (context : HonorContext) (range : HonoredVoid) (undeterminable : Bool) :
    HonorContext :=
  { status := (context.status.observeHonored range).1, nextToApply := range.last + 1
    snapshotRoot := context.snapshotRoot, targetNotDeterminable := undeterminable }

theorem Accepts.after_honored {stop : InvalidEnvelope} (accepts : Accepts ledger context)
    (honorable : Honorable ledger void context stop) (undeterminable : Bool) :
    Accepts ⟨ledger.honored ++ [void.range]⟩ (resumed context void.range undeterminable) := by
  have afterTarget : void.body.seq.toNat < void.position.toNat :=
    UInt64.lt_iff_toNat_lt.mp honorable.afterTarget
  have nonempty : void.body.seq.toNat ≤ void.position.toNat - 1 := Nat.le_sub_one_of_lt afterTarget
  have healthy : (context.status.observeHonored void.range).1 = .healthy := by
    rw [honorable.stopped]
    exact congrArg Prod.fst (if_pos honorable.position)
  refine ⟨?_, ?_, ?_⟩
  · intro place stopped
    rw [resumed, healthy] at stopped
    cases stopped
  · intro root member
    have below := honorable.aboveRoot root member
    show root < void.position.toNat - 1 + 1
    omega
  · intro honored member
    show honored.last < void.position.toNat - 1 + 1
    rcases List.mem_append.mp member with old | new
    · have below := accepts.ranges honored old
      rw [honorable.frontier] at below
      omega
    · obtain rfl := List.mem_singleton.mp new
      exact Nat.lt_succ_self _

theorem offer_resumed {call : Offer} {range : HonoredVoid}
    (honored : .honored range ∈ (ledger.offer call).2) (undeterminable : Bool) :
    Accepts (ledger.offer call).1 (resumed call.context range undeterminable) := by
  have grown := offer_honored ledger call
  have recorded : range ∈ (ledger.offer call).2.filterMap Honor.honoredRange :=
    List.mem_filterMap.mpr ⟨_, honored, rfl⟩
  rcases offer_cases ledger call with refused | ⟨accepts, processed⟩
  · rw [refused] at honored
    cases honored
  · have adds := offer_adds ledger call
    generalize (ledger.offer call).2.filterMap Honor.honoredRange = ranges at grown recorded
    generalize (ledger.offer call).1 = next at adds grown
    cases adds with
    | nothing =>
      have none : ranges = [] := List.self_eq_append_right.mp grown
      rw [none] at recorded
      cases recorded
    | range offered honorable =>
      have one : [_] = ranges := List.append_cancel_left grown
      rw [← one] at recorded
      obtain rfl := List.mem_singleton.mp recorded
      exact accepts.after_honored honorable undeterminable

/-- Honoring is safe over every run from an empty ledger: the ledger is well formed; no void id is
honored twice; every call adds nothing or the range of an honorable void it was given; and after a
void is honored, the resumed context is accepted with any voids in order. -/
theorem honoring_safe (calls : List Offer) :
    WellFormed (empty.offerAll calls).1 ∧
    (((empty.offerAll calls).2.filterMap Honor.honoredRange).map HonoredVoid.voidId).Nodup ∧
    ∀ before call, before ++ [call] <+: calls →
      Adds (empty.offerAll before).1 call.voids call.context
        ((empty.offerAll before).1.offer call).1 ∧
      ∀ range, .honored range ∈ ((empty.offerAll before).1.offer call).2 →
        ∀ voids undeterminable, Ascending voids →
          ∃ result, ((empty.offerAll before).1.offer call).1.offerInOrder voids
            (resumed call.context range undeterminable) = .ok result := by
  have wellFormed := wellFormed_empty.offerAll calls
  refine ⟨wellFormed, ?_, ?_⟩
  · have grown : (empty.offerAll calls).1.honored = _ := offerAll_honored empty calls
    have distinct := wellFormed.distinct
    rw [grown] at distinct
    exact distinct
  · intro before call isPrefix
    refine ⟨offer_adds _ call, ?_⟩
    intro range honored voids undeterminable ascending
    exact ⟨_, offerInOrder_eq_ok.mpr ⟨offer_resumed honored undeterminable, ascending, rfl⟩⟩

end VoidLedger

end Dohflow.SyncCore
