/-
This file proves that a chain pulled in pieces is the chain pulled at once.

In one call every membership record is applied before the first epoch record is
judged, so an early epoch record meets the members of a later state: devices
added after it, and its own sealer perhaps revoked. `EpochStep.underGrowth` says
that it is judged the same. A membership record, for its part, never looks at the
epochs (`MembershipStep.withEpochsOf`), so the two kinds of record commute and the
two ways of cutting the chain meet.
-/

import Dohflow.SyncCore.FoundingChain

namespace Dohflow.SyncCore

open Fallible

variable {crypto : Crypto} {state next middle final later other : VerifiedState}
variable {record : SignedRecord} {memberships : List (List UInt8)} {epochs : List (List UInt8)}
  {body : MembershipBody} {position : Nat}

/-! ### Membership records beside other epochs -/

/-- The membership of one state beside the epochs of another. -/
def VerifiedState.withEpochsOf (state other : VerifiedState) : VerifiedState :=
  { state with epochs := other.epochs, keyCommitmentS := other.keyCommitmentS }

/-- Two states agree on everything but the epochs. -/
structure SameMembership (state other : VerifiedState) : Prop where
  vaultId : other.vaultId = state.vaultId
  steps : other.steps = state.steps
  members : other.members = state.members

theorem SameMembership.trans (first : SameMembership state next)
    (second : SameMembership next other) : SameMembership state other :=
  ⟨second.vaultId.trans first.vaultId, second.steps.trans first.steps,
    second.members.trans first.members⟩

theorem SameMembership.withEpochsOf (same : SameMembership state other) :
    state.withEpochsOf other = other := by
  obtain ⟨vaultId, steps, members⟩ := same
  rw [VerifiedState.withEpochsOf, ← vaultId, ← steps, ← members]

theorem EpochStep.sameMembership {body : EpochBody} (step : EpochStep crypto state record body next) :
    SameMembership state next :=
  ⟨step.grown.vaultId, step.frame.1, step.frame.2⟩

theorem sameMembership_of_epochs
    (accepted : applyFrom (applyEpoch crypto) position state epochs = .ok next) :
    SameMembership state next := by
  refine applyFrom_relates (fun _ => ⟨rfl, rfl, rfl⟩) (fun _ _ _ => .trans) ?_ accepted
  intro _ _ _ _ accepted
  obtain ⟨_, _, _, _, step⟩ := applyEpoch_eq_ok.mp accepted
  exact step.sameMembership

/-- Two states agree on the epochs. -/
structure SameEpochs (state other : VerifiedState) : Prop where
  epochs : other.epochs = state.epochs
  keyCommitmentS : other.keyCommitmentS = state.keyCommitmentS

theorem SameEpochs.trans (first : SameEpochs state next) (second : SameEpochs next other) :
    SameEpochs state other :=
  ⟨second.epochs.trans first.epochs, second.keyCommitmentS.trans first.keyCommitmentS⟩

theorem SameEpochs.withEpochsOf (same : SameEpochs state other) :
    other.withEpochsOf state = other := by
  rw [VerifiedState.withEpochsOf, ← same.epochs, ← same.keyCommitmentS]

theorem MembershipStep.sameEpochs (step : MembershipStep crypto state record body next) :
    SameEpochs state next :=
  ⟨step.frame.1, step.frame.2⟩

theorem sameEpochs_of_memberships
    (accepted : applyFrom (applyMembership crypto) position state memberships = .ok next) :
    SameEpochs state next := by
  refine applyFrom_relates (fun _ => ⟨rfl, rfl⟩) (fun _ _ _ => .trans) ?_ accepted
  intro _ _ _ _ accepted
  obtain ⟨_, _, _, _, step⟩ := applyMembership_eq_ok.mp accepted
  exact step.sameEpochs

/-- A membership record never looks at the epochs. -/
theorem MembershipStep.withEpochsOf (step : MembershipStep crypto state record body next)
    (other : VerifiedState) :
    MembershipStep crypto (state.withEpochsOf other) record body (next.withEpochsOf other) := by
  cases step with
  | repeated found same => exact .repeated found same
  | genesis first genesis acceptable signed => exact .genesis first genesis acceptable signed
  | add continues action acceptable unused room =>
    exact .add ⟨continues.version, continues.linked, continues.signed⟩ action acceptable
      ⟨unused.fingerprint, unused.deviceId, unused.ed25519Pk, unused.kemPublicKey⟩ room
  | revoke continues action found repeats active others =>
    exact .revoke ⟨continues.version, continues.linked, continues.signed⟩ action found repeats
      active others

theorem memberships_withEpochsOf {first : Nat} (second : Nat)
    (accepted : applyFrom (applyMembership crypto) first state memberships = .ok next)
    (other : VerifiedState) :
    applyFrom (applyMembership crypto) second (state.withEpochsOf other) memberships =
      .ok (next.withEpochsOf other) := by
  have each : ∀ before moved first second bytes after, moved = before.withEpochsOf other →
      applyMembership crypto before first bytes = .ok after →
      ∃ movedAfter, applyMembership crypto moved second bytes = .ok movedAfter ∧
        movedAfter = after.withEpochsOf other := by
    rintro before _ first second bytes after rfl accepted
    obtain ⟨room, record, body, opens, step⟩ := applyMembership_eq_ok.mp accepted
    refine ⟨_, applyMembership_eq_ok.mpr ⟨room, record, body, ?_, step.withEpochsOf other⟩, rfl⟩
    exact opens
  obtain ⟨_, moved, rfl⟩ :=
    applyFrom_simulates each second (rfl : state.withEpochsOf other = _) accepted
  exact moved

/-! ### Epoch records beside a later membership -/

theorem EpochFollows.congr {raise : Nat → Nat} {steps others : List StepRef}
    {previous newest : EpochRef} (same : others[newest.headIndex]? = steps[newest.headIndex]?)
    (follows : EpochFollows raise steps previous newest) :
    EpochFollows raise others previous newest := by
  cases follows with
  | cutover reason linked head action keyEpoch =>
    exact .cutover reason linked head (same ▸ action) keyEpoch
  | grant reason linked head action keyEpoch sameKey =>
    exact .grant reason linked head (same ▸ action) keyEpoch sameKey
  | rotation reason linked head keyEpoch => exact .rotation reason linked head keyEpoch

theorem names_of_asAdded {first second : List Member}
    (same : first.map Member.asAdded = second.map Member.asAdded) :
    first.map Member.name = second.map Member.name := by
  have names : ∀ members : List Member,
      members.map Member.name = (members.map Member.asAdded).map Member.name := by
    intro members
    rw [List.map_map]
    rfl
  rw [names first, names second, same]

/-- The recipients an epoch record must name do not depend on what followed its head. -/
theorem Grown.expectedRecipients (grown : Grown state later) (reason : Reason) {version : Nat}
    (past : version ≤ state.headVersion) :
    (expectedRecipients later reason version).map Member.name =
      (expectedRecipients state reason version).map Member.name := by
  refine names_of_asAdded ?_
  cases reason with
  | grant => exact grown.addedAt past
  | genesis | cutover | rotation => exact grown.authorizedAt past

theorem EpochStep.underGrowth {body : EpochBody} (grown : Grown state (later.withEpochsOf state))
    (step : EpochStep crypto state record body next) :
    EpochStep crypto (later.withEpochsOf state) record body (later.withEpochsOf next) := by
  cases step with
  | repeated found same => exact .repeated found same
  | @accepted headIndex unseen head signed sequenced addressed =>
    have past : headIndex + 1 ≤ state.headVersion := headIndexOf_lt head
    refine .accepted unseen (grown.headIndexOf head) ((grown.signedBy past).mpr signed) ?_ ?_
    · cases sequenced with
      | first nothing reason keyEpoch linked start =>
        exact .first nothing reason keyEpoch linked start
      | later last sameS follows fresh =>
        exact .later last sameS (follows.congr (grown.getElem?_steps past)) fresh
    · rw [grown.expectedRecipients body.reason past]
      exact addressed

theorem epochs_underGrowth {first : Nat} (second : Nat)
    (grown : Grown state (later.withEpochsOf state))
    (accepted : applyFrom (applyEpoch crypto) first state epochs = .ok next) :
    applyFrom (applyEpoch crypto) second (later.withEpochsOf state) epochs =
      .ok (later.withEpochsOf next) := by
  have each : ∀ before moved first second bytes after,
      moved = later.withEpochsOf before ∧ Grown before moved →
      applyEpoch crypto before first bytes = .ok after →
      ∃ movedAfter, applyEpoch crypto moved second bytes = .ok movedAfter ∧
        movedAfter = later.withEpochsOf after ∧ Grown after movedAfter := by
    rintro before _ first second bytes after ⟨rfl, grown⟩ accepted
    obtain ⟨room, record, body, opens, step⟩ := applyEpoch_eq_ok.mp accepted
    have sameVault : later.vaultId = before.vaultId := grown.vaultId
    refine ⟨later.withEpochsOf after, applyEpoch_eq_ok.mpr
      ⟨room, record, body, ?_, step.underGrowth grown⟩, rfl, ?_⟩
    · exact sameVault ▸ opens
    · have same := step.sameMembership
      refine ⟨sameVault.trans same.vaultId.symm, ?_, List.prefix_rfl, ?_⟩
      · exact same.steps ▸ grown.steps
      · rw [VerifiedState.headVersion, same.steps, same.members]
        exact grown.members
  obtain ⟨_, moved, rfl, _⟩ :=
    applyFrom_simulates each second ⟨rfl, grown⟩ accepted
  exact moved

/-! ### Pulling in pieces -/

/-- A chain pulled batch by batch: each batch extends what the one before it left. -/
def pulled (crypto : Crypto) (state : VerifiedState)
    (batches : List (List (List UInt8) × List (List UInt8))) : Except ChainError VerifiedState :=
  batches.foldlM (fun state batch => extend crypto state batch.1 batch.2) state

/-- Both ways of verifying two batches pass through the same states: the memberships of the second
batch may be applied before or after the epoch records of the first. -/
theorem extend_append_iff {memberships moreMemberships epochs moreEpochs : List (List UInt8)}
    (first : extend crypto state memberships epochs = .ok middle) :
    extend crypto middle moreMemberships moreEpochs = .ok final ↔
      extend crypto state (memberships ++ moreMemberships) (epochs ++ moreEpochs) = .ok final := by
  obtain ⟨joined, firstMemberships, firstEpochs, _⟩ := extend_eq_ok.mp first
  have joinedMiddle : joined.withEpochsOf middle = middle :=
    (sameMembership_of_epochs firstEpochs).withEpochsOf
  have middleJoined : middle.withEpochsOf joined = joined :=
    SameMembership.withEpochsOf ⟨(sameMembership_of_epochs firstEpochs).vaultId.symm,
      (sameMembership_of_epochs firstEpochs).steps.symm,
      (sameMembership_of_epochs firstEpochs).members.symm⟩
  simp only [extend_eq_ok, applyFrom_append, bind_eq_ok]
  constructor
  · rintro ⟨grownMiddle, moreAccepted, epochsAccepted, coupled⟩
    -- Take the later memberships to the state before the first epoch record.
    have early := memberships_withEpochsOf (0 + memberships.length) moreAccepted joined
    rw [middleJoined] at early
    have sameEpochs := (sameEpochs_of_memberships early).withEpochsOf
    have grown : Grown joined ((grownMiddle.withEpochsOf joined).withEpochsOf joined) :=
      sameEpochs.symm ▸ (run_of_memberships early).grown
    have late := epochs_underGrowth 0 grown firstEpochs
    rw [sameEpochs] at late
    refine ⟨_, ⟨joined, firstMemberships, early⟩, ⟨_, late, ?_⟩, coupled⟩
    have back : (grownMiddle.withEpochsOf joined).withEpochsOf middle = grownMiddle :=
      (sameEpochs_of_memberships moreAccepted).withEpochsOf
    rw [back]
    exact applyFrom_reposition positionless_applyEpoch _ epochsAccepted
  · rintro ⟨grownJoined, ⟨_, again, early⟩, ⟨reached, firstAgain, epochsAccepted⟩, coupled⟩
    obtain rfl := Except.ok.inj (firstMemberships.symm.trans again)
    have sameEpochs := (sameEpochs_of_memberships early).withEpochsOf
    have grown : Grown joined (grownJoined.withEpochsOf joined) :=
      sameEpochs.symm ▸ (run_of_memberships early).grown
    have late := epochs_underGrowth 0 grown firstEpochs
    rw [sameEpochs] at late
    obtain rfl := Except.ok.inj (firstAgain.symm.trans late)
    have moved := memberships_withEpochsOf 0 early middle
    rw [joinedMiddle] at moved
    exact ⟨_, moved, applyFrom_reposition positionless_applyEpoch _ epochsAccepted, coupled⟩

/-- Incremental verification is whole-chain verification: after a successful call, another call
succeeds exactly when one call over both lists would have, with the same state, and a chain pulled
in any number of successful batches is the chain verified at once. -/
theorem extend_append {memberships epochs : List (List UInt8)}
    (first : extend crypto state memberships epochs = .ok middle) :
    (∀ moreMemberships moreEpochs final,
      extend crypto middle moreMemberships moreEpochs = .ok final ↔
        extend crypto state (memberships ++ moreMemberships) (epochs ++ moreEpochs) = .ok final) ∧
    ∀ batches final, pulled crypto middle batches = .ok final →
      extend crypto state (memberships ++ batches.flatMap Prod.fst)
        (epochs ++ batches.flatMap Prod.snd) = .ok final := by
  refine ⟨fun _ _ _ => extend_append_iff first, fun batches => ?_⟩
  induction batches generalizing middle memberships epochs with
  | nil =>
    rintro final accepted
    obtain rfl := Except.ok.inj accepted
    simpa using first
  | cons batch rest inductionHypothesis =>
    rintro final accepted
    obtain ⟨reached, stepped, continued⟩ := bind_eq_ok.mp accepted
    have joined := inductionHypothesis ((extend_append_iff first).mp stepped) final continued
    rw [List.append_assoc, List.append_assoc] at joined
    exact joined

/-- The founder's first two epoch records, in one call or in two. -/
theorem extend_append_founder :
    extend sampleCrypto (sampleFounder.chain 1) [] [sampleFounder.epochBytes 1] =
        .ok (sampleFounder.chain 2) ↔
      extend sampleCrypto (.empty sampleFounder.vaultId) ([sampleFounder.genesisBytes] ++ [])
        ((List.range 1).map sampleFounder.epochBytes ++ [sampleFounder.epochBytes 1]) =
          .ok (sampleFounder.chain 2) :=
  (extend_append (verifyChain_sample (by decide) (by decide))).1 _ _ _

end Dohflow.SyncCore
