/-
This file proves that the way voids arrive does not change which of them wins.

A replica that pulls in batches offers every void it knows again from the start
each time. `pulls_agree` states that such a sequence of offers ends where one offer
of all the voids ends, and that two replicas stopped at the same position end alike
even if they differ in what the honor rule does not look at: the reason of the
stop, the snapshot root and whether the position can be judged yet.
-/

import Mathlib.Data.List.Chain
import Dohflow.SyncCore.VoidRuns

namespace Dohflow.SyncCore

open Fallible FirstChange

/-- What the honor rule reads of a stop. -/
def HonorContext.judged (context : HonorContext) : Option (Nat × Digest × Uuid) :=
  match context.status with
  | .envelopeInvalid stop => some (stop.seq, stop.envelopeDigest, stop.commandId)
  | _ => none

/-- Two replicas stopped at the same position of one log. -/
structure HonorContext.SameStop (first second : HonorContext) : Prop where
  nextToApply : first.nextToApply = second.nextToApply
  judged : first.judged = second.judged

/-- The same replica, which perhaps has learned a key since. -/
structure HonorContext.Unchanged (first second : HonorContext) : Prop where
  status : first.status = second.status
  nextToApply : first.nextToApply = second.nextToApply
  snapshotRoot : first.snapshotRoot = second.snapshotRoot

theorem HonorContext.SameStop.symm {context other : HonorContext}
    (same : context.SameStop other) : other.SameStop context :=
  ⟨same.nextToApply.symm, same.judged.symm⟩

theorem HonorContext.Unchanged.sameStop {context other : HonorContext}
    (unchanged : context.Unchanged other) : context.SameStop other := by
  refine ⟨unchanged.nextToApply, ?_⟩
  rw [HonorContext.judged, unchanged.status]
  rfl

namespace VoidLedger

/-- Offer one batch after another until an outcome changes the replica. -/
def offerPulls (ledger : VoidLedger) : List Offer → Except OfferError (VoidLedger × Option Honor)
  | [] => .ok (ledger, none)
  | pull :: rest => do
    let result ← ledger.offerInOrder pull.voids pull.context
    match result.2.find? Honor.changes with
    | some outcome => return (result.1, some outcome)
    | none => result.1.offerPulls rest

variable {ledger : VoidLedger} {context other : HonorContext}
variable {voids : List VerifiedVoid} {void : VerifiedVoid} {pulls : List Offer}

/-! ### What a change depends on -/

theorem judge_of_changes (judged : context.judged = other.judged)
    (changes : (ledger.judge void context).2.changes = true) :
    ledger.judge void other = ledger.judge void context := by
  unfold HonorContext.judged at judged
  unfold judge at changes ⊢
  cases status : context.status with
  | healthy => simp [status, Honor.changes] at changes
  | halted => simp [status, Honor.changes] at changes
  | updateRequired => simp [status, Honor.changes] at changes
  | envelopeInvalid stop =>
    rw [status] at judged changes
    cases statusOther : other.status with
    | healthy => simp [statusOther] at judged
    | halted => simp [statusOther] at judged
    | updateRequired => simp [statusOther] at judged
    | envelopeInvalid stopOther =>
      rw [statusOther] at judged
      obtain ⟨seq, digest, command⟩ :
          stop.seq = stopOther.seq ∧ stop.envelopeDigest = stopOther.envelopeDigest ∧
            stop.commandId = stopOther.commandId := by
        simpa using judged
      dsimp only at changes ⊢
      rw [← seq, ← digest, ← command]
      by_cases here : stop.seq = void.body.seq.toNat
      · rw [if_neg (not_not.mpr here), if_neg (not_not.mpr here)]
      · rw [if_pos here] at changes
        cases changes

/-- Whether a void changes the replica depends only on the frontier and the stop. -/
theorem offerOne_of_changes (same : context.SameStop other)
    (root : ∀ root ∈ other.snapshotRoot, root < other.nextToApply)
    (changes : (offerOne context ledger void).2.changes = true) :
    offerOne other ledger void = offerOne context ledger void := by
  unfold offerOne at changes ⊢
  cases found : ledger.honored.find? fun honored => honored.voidId = void.id with
  | some existing => rfl
  | none =>
    rw [found] at changes
    dsimp only at changes ⊢
    by_cases early : void.position ≤ void.body.seq
    · rw [if_pos early, if_pos early]
    rw [if_neg early] at changes
    rw [if_neg early, if_neg early]
    by_cases covered : ledger.skips void.body.seq.toNat = true
    · rw [if_pos covered, if_pos covered]
    rw [if_neg covered] at changes
    rw [if_neg covered, if_neg covered]
    -- Below or above the frontier every outcome is inert, so the void is at the frontier.
    by_cases belowRoot : (context.snapshotRoot.any fun root => void.body.seq.toNat ≤ root) = true
    · rw [if_pos belowRoot] at changes
      cases changes
    rw [if_neg belowRoot] at changes
    by_cases before : void.body.seq.toNat < context.nextToApply
    · rw [if_pos before] at changes
      cases changes
    rw [if_neg before] at changes
    by_cases after : context.nextToApply < void.body.seq.toNat
    · rw [if_pos after] at changes
      cases changes
    rw [if_neg after] at changes
    have aboveRoot :
        ¬ (other.snapshotRoot.any fun root => void.body.seq.toNat ≤ root) = true := by
      intro below
      obtain ⟨place, isRoot, reaches⟩ := (Option.any_eq_true _ _).mp below
      have below := root place isRoot
      rw [← same.nextToApply] at below
      exact before (lt_of_le_of_lt (of_decide_eq_true reaches) below)
    rw [if_neg belowRoot, if_neg before, if_neg after, if_neg aboveRoot,
      if_neg (same.nextToApply ▸ before), if_neg (same.nextToApply ▸ after)]
    exact judge_of_changes same.judged changes

theorem Accepts.of_unchanged (accepts : Accepts ledger context)
    (unchanged : other.Unchanged context) : Accepts ledger other := by
  refine ⟨?_, ?_, ?_⟩
  · rw [unchanged.status, unchanged.nextToApply]
    exact accepts.stop
  · rw [unchanged.snapshotRoot, unchanged.nextToApply]
    exact accepts.root
  · rw [unchanged.nextToApply]
    exact accepts.ranges

theorem firstChange_of_sameStop (same : context.SameStop other) (accepts : Accepts ledger context)
    (acceptsOther : Accepts ledger other) (voids : List VerifiedVoid) :
    firstChange (offerOne context) Honor.changes ledger voids =
      firstChange (offerOne other) Honor.changes ledger voids := by
  refine firstChange_congr ?_ voids
  rintro void (changes | changes)
  · exact (offerOne_of_changes same acceptsOther.root changes).symm
  · exact offerOne_of_changes same.symm accepts.root changes

/-! ### Sequences of pulls -/

/-- What one offer comes to: the ledger and the first outcome that changes the replica. -/
def summary (ledger : VoidLedger) : Option (VoidLedger × Honor) → VoidLedger × Option Honor
  | none => (ledger, none)
  | some change => (change.1, some change.2)

theorem summary_firstChange (context : HonorContext) (ledger : VoidLedger)
    (voids : List VerifiedVoid) :
    ledger.summary (firstChange (offerOne context) Honor.changes ledger voids) =
      ((untilChange (offerOne context) Honor.changes ledger voids).1,
        (untilChange (offerOne context) Honor.changes ledger voids).2.find? Honor.changes) := by
  rw [untilChange_fst (inertSteps_offerOne context),
    find?_untilChange_snd (inertSteps_offerOne context)]
  cases firstChange (offerOne context) Honor.changes ledger voids <;> rfl

/-- Every pull offers the first voids of a list in order, in a context the ledger accepts that has
the same stop. -/
def Batches (ledger : VoidLedger) (voids : List VerifiedVoid) (context : HonorContext)
    (pulls : List Offer) : Prop :=
  ∀ pull ∈ pulls, pull.voids <+: voids ∧ pull.context.SameStop context ∧
    Accepts ledger pull.context

/-- The pulls went on until the replica changed or every void was offered. -/
def Finished (ledger : VoidLedger) (voids : List VerifiedVoid) (pulls : List Offer) : Prop :=
  (∃ final change, ledger.offerPulls pulls = .ok (final, some change)) ∨
    ∃ pull ∈ pulls, pull.voids = voids

/-- Every sequence of pulls ends without a refusal, either with no change at all, when no pull held
one, or with the first change of all the voids. -/
theorem offerPulls_of_batches (accepts : Accepts ledger context) (ascending : Ascending voids)
    (batches : Batches ledger voids context pulls) :
    (ledger.offerPulls pulls = .ok (ledger, none) ∧
      ∀ pull ∈ pulls, firstChange (offerOne context) Honor.changes ledger pull.voids = none) ∨
    ∃ change, firstChange (offerOne context) Honor.changes ledger voids = some change ∧
      ledger.offerPulls pulls = .ok (change.1, some change.2) := by
  induction pulls with
  | nil => exact .inl ⟨rfl, fun _ member => absurd member List.not_mem_nil⟩
  | cons pull rest inductionHypothesis =>
    obtain ⟨isPrefix, same, acceptsPull⟩ := batches pull List.mem_cons_self
    have processed := offerInOrder_eq_ok.mpr
      ⟨acceptsPull, ascending.prefix isPrefix, rfl⟩
    have ends := summary_firstChange pull.context ledger pull.voids
    rw [firstChange_of_sameStop same acceptsPull accepts] at ends
    obtain ⟨final, change⟩ := Prod.mk.inj ends
    have step : ledger.offerPulls (pull :: rest) =
        match (untilChange (offerOne pull.context) Honor.changes ledger pull.voids).2.find?
            Honor.changes with
        | some outcome =>
          .ok ((untilChange (offerOne pull.context) Honor.changes ledger pull.voids).1,
            some outcome)
        | none => (untilChange (offerOne pull.context) Honor.changes ledger pull.voids).1.offerPulls
            rest := by
      rw [offerPulls, processed]
      rfl
    cases first : firstChange (offerOne context) Honor.changes ledger pull.voids with
    | some found =>
      rw [first] at final change
      rw [step, ← change, ← final]
      exact .inr ⟨found, firstChange_of_prefix isPrefix first, rfl⟩
    | none =>
      rw [first] at final change
      rw [step, ← change, ← final]
      have others : Batches ledger voids context rest := fun other member =>
        batches other (List.mem_cons_of_mem _ member)
      rcases inductionHypothesis others with ⟨unchanged, none⟩ | changed
      · refine .inl ⟨unchanged, fun other member => ?_⟩
        rcases List.mem_cons.mp member with rfl | later
        · exact first
        · exact none other later
      · exact .inr changed

theorem offerPulls_of_finished (accepts : Accepts ledger context) (ascending : Ascending voids)
    (batches : Batches ledger voids context pulls) (finished : Finished ledger voids pulls) :
    ledger.offerPulls pulls =
      .ok (ledger.summary (firstChange (offerOne context) Honor.changes ledger voids)) := by
  rcases offerPulls_of_batches accepts ascending batches with
    ⟨unchanged, none⟩ | ⟨change, first, ends⟩
  · rcases finished with ⟨final, change, changed⟩ | ⟨pull, member, rfl⟩
    · rw [unchanged] at changed
      cases changed
    · rw [none pull member]
      exact unchanged
  · rw [first]
    exact ends

/-- Batching does not change which void wins. However the voids are cut into batches that begin
with the first, offering them ends as one offer of all of them; batches in which nothing changes
leave the ledger as it was; and two replicas stopped at the same position that know the same voids
end with the same ledger. -/
theorem pulls_agree {final : VoidLedger} {voids : List VerifiedVoid} {outcomes : List Honor}
    (once : ledger.offerInOrder voids context = .ok (final, outcomes)) :
    (∀ pulls : List Offer,
      (∀ pull ∈ pulls, pull.voids <+: voids ∧ pull.context.Unchanged context) →
      (∃ reached change, ledger.offerPulls pulls = .ok (reached, change) ∧
        (change = none → reached = ledger)) ∧
      (Finished ledger voids pulls →
        ledger.offerPulls pulls = .ok (final, outcomes.find? Honor.changes))) ∧
    ∀ pulls : List Offer, Batches ledger voids context pulls → Finished ledger voids pulls →
      ledger.offerPulls pulls = .ok (final, outcomes.find? Honor.changes) := by
  obtain ⟨accepts, ascending, processed⟩ := offerInOrder_eq_ok.mp once
  have ends := summary_firstChange context ledger voids
  rw [processed] at ends
  have finish : ∀ pulls : List Offer, Batches ledger voids context pulls →
      Finished ledger voids pulls →
      ledger.offerPulls pulls = .ok (final, outcomes.find? Honor.changes) := by
    intro pulls batches finished
    rw [offerPulls_of_finished accepts ascending batches finished, ends]
  refine ⟨?_, finish⟩
  intro pulls same
  have batches : Batches ledger voids context pulls := by
    intro pull member
    obtain ⟨isPrefix, unchanged⟩ := same pull member
    exact ⟨isPrefix, unchanged.sameStop, accepts.of_unchanged unchanged⟩
  refine ⟨?_, finish pulls batches⟩
  rcases offerPulls_of_batches accepts ascending batches with ⟨kept, -⟩ | ⟨change, -, changed⟩
  · exact ⟨ledger, none, kept, fun _ => rfl⟩
  · exact ⟨change.1, some change.2, changed, fun none => by cases none⟩

/-! ### An example -/

/-- A void over an envelope with a fixed digest and command id. -/
def sampleVoid (position seq : UInt64) (name : UInt8) : VerifiedVoid where
  id := .replicate 32 name
  position := position
  body :=
    { suiteId, vaultId := .replicate 16 0, seq, commandId := .replicate 16 2
      envelopeDigest := .replicate 32 1, reason := .receiverCheck
      signerFingerprint := ⟨.replicate 32 0⟩, issuedAt := 0 }

/-- A replica stopped at position 5. -/
def sampleContext : HonorContext where
  status := .envelopeInvalid
    { seq := 5, envelopeDigest := .replicate 32 1, commandId := .replicate 16 2
      deviceId := .replicate 16 3, deviceKeyFingerprint := ⟨.replicate 32 4⟩
      reason := .receiverCheck .tagMismatch }
  nextToApply := 5
  snapshotRoot := some 2
  targetNotDeterminable := false

/-- The first void names a position already applied; the second wins over the third. -/
def sampleVoids : List VerifiedVoid := [sampleVoid 7 3 10, sampleVoid 9 5 11, sampleVoid 12 5 12]

theorem offerInOrder_sample :
    empty.offerInOrder sampleVoids sampleContext =
      .ok (⟨[(sampleVoid 9 5 11).range]⟩,
        [.inert .foundValid, .honored (sampleVoid 9 5 11).range]) := by
  rfl

theorem pulls_agree_sample :
    empty.offerPulls [⟨sampleVoids.take 1, sampleContext⟩, ⟨sampleVoids, sampleContext⟩] =
      .ok (⟨[(sampleVoid 9 5 11).range]⟩, some (.honored (sampleVoid 9 5 11).range)) := by
  refine ((pulls_agree offerInOrder_sample).1 _ ?_).2 (.inr ⟨⟨sampleVoids, sampleContext⟩, ?_, rfl⟩)
  · intro pull member
    simp only [List.mem_cons, List.not_mem_nil, or_false] at member
    rcases member with rfl | rfl
    · exact ⟨List.take_prefix 1 sampleVoids, rfl, rfl, rfl⟩
    · exact ⟨List.prefix_rfl, rfl, rfl, rfl⟩
  · exact List.mem_cons_of_mem _ List.mem_cons_self

end VoidLedger

end Dohflow.SyncCore
