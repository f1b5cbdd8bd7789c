/-
This file settles when a record delivered again changes nothing.

A record the chain holds is found at its position and left alone
(`applyMembership_again`, `applyEpoch_again`). But both functions refuse a full
list before they look at the record, so a chain at the length bound refuses its
own records. `extend_redelivered_iff` says that this is the only exception.
-/

import Dohflow.SyncCore.Batching

namespace Dohflow.SyncCore

open Fallible

variable {crypto : Crypto} {state next reached : VerifiedState} {vaultId : Uuid}
variable {memberships epochs redelivered : List (List UInt8)} {bytes : List UInt8}
  {record : SignedRecord}

/-! ### A record the chain holds -/

/-- An accepted membership record is held at its version afterwards. -/
theorem MembershipStep.held {body : MembershipBody}
    (step : MembershipStep crypto state record body next) :
    ∃ accepted, next.stepAt body.version.toNat = some accepted ∧
      accepted.id = record.id crypto := by
  cases step with
  | repeated found same => exact ⟨_, found, same⟩
  | genesis first genesis =>
    refine ⟨⟨record.id crypto, .add⟩, ?_, rfl⟩
    rw [genesis.1, VerifiedState.stepAt, first]
    rfl
  | add continues =>
    refine ⟨⟨record.id crypto, .add⟩, ?_, rfl⟩
    rw [continues.version, VerifiedState.stepAt]
    exact List.getElem?_concat_length
  | revoke continues =>
    refine ⟨⟨record.id crypto, .revoke⟩, ?_, rfl⟩
    rw [continues.version, VerifiedState.stepAt]
    exact List.getElem?_concat_length

/-- An accepted epoch record is found afterwards by the record it follows. -/
theorem EpochStep.held {body : EpochBody} (step : EpochStep crypto state record body next) :
    ∃ existing, (next.epochs.find? fun epoch => epoch.prevEpochId = body.prevEpochId) =
      some existing ∧ existing.id = record.id crypto := by
  cases step with
  | repeated found same => exact ⟨_, found, same⟩
  | @accepted headIndex unseen =>
    refine ⟨epochRefOf crypto record body headIndex, ?_, rfl⟩
    rw [List.find?_append, unseen, Option.none_or]
    exact List.find?_cons_of_pos (by simp [epochRefOf])

theorem applyMembership_again {first : Nat} (second : Nat)
    (accepted : applyMembership crypto reached first bytes = .ok next) (grown : Grown next state)
    (room : state.steps.length < maxChainLen) :
    applyMembership crypto state second bytes = .ok state := by
  obtain ⟨_, record, body, opens, step⟩ := applyMembership_eq_ok.mp accepted
  have vault : state.vaultId = reached.vaultId := grown.vaultId.trans step.grown.vaultId
  obtain ⟨held, found, same⟩ := step.held
  refine applyMembership_eq_ok.mpr ⟨room, record, body, vault ▸ opens, .repeated ?_ same⟩
  rw [grown.stepAt (le_headVersion_of_stepAt found), found]

theorem applyEpoch_again {first : Nat} (second : Nat)
    (accepted : applyEpoch crypto reached first bytes = .ok next) (grown : Grown next state)
    (room : state.epochs.length < maxChainLen) :
    applyEpoch crypto state second bytes = .ok state := by
  obtain ⟨_, record, body, opens, step⟩ := applyEpoch_eq_ok.mp accepted
  have vault : state.vaultId = reached.vaultId := grown.vaultId.trans step.grown.vaultId
  obtain ⟨existing, found, same⟩ := step.held
  refine applyEpoch_eq_ok.mpr ⟨room, record, body, vault ▸ opens, .repeated ?_ same⟩
  rw [grown.find?_epochs (List.mem_of_find?_eq_some found) (List.find?_some found), found]

/-! ### Records of a verified chain -/

theorem memberships_again (verified : verifyChain crypto vaultId memberships epochs = .ok state)
    (known : ∀ bytes ∈ redelivered, bytes ∈ memberships) (room : state.steps.length < maxChainLen)
    (position : Nat) :
    applyFrom (applyMembership crypto) position state redelivered = .ok state := by
  obtain ⟨middle, accepted, acceptedEpochs, _⟩ := extend_eq_ok.mp verified
  refine applyFrom_fixed (fun bytes inside position => ?_) position
  obtain ⟨_, _, reached, next, _, _, step, continued⟩ := applyFrom_mem (known bytes inside) accepted
  have run : Run crypto next state :=
    (run_of_memberships continued).trans (run_of_epochs acceptedEpochs)
  exact applyMembership_again position step run.grown room

theorem epochs_again (verified : verifyChain crypto vaultId memberships epochs = .ok state)
    (known : ∀ bytes ∈ redelivered, bytes ∈ epochs) (room : state.epochs.length < maxChainLen)
    (position : Nat) : applyFrom (applyEpoch crypto) position state redelivered = .ok state := by
  obtain ⟨middle, _, accepted, _⟩ := extend_eq_ok.mp verified
  refine applyFrom_fixed (fun bytes inside position => ?_) position
  obtain ⟨_, _, reached, next, _, _, step, continued⟩ := applyFrom_mem (known bytes inside) accepted
  exact applyEpoch_again position step (run_of_epochs continued).grown room

theorem extend_full {rest : List (List UInt8)} (full : maxChainLen ≤ state.epochs.length) :
    extend crypto state [] (bytes :: rest) = .error .tooLong := by
  rw [extend, applyFrom_nil, ok_bind, applyFrom_cons, applyEpoch,
    ensure_of_not (Nat.not_lt_of_le full)]
  rfl

/-- Records of a verified chain, delivered again in any order and number, leave the state as it is
exactly when each list they are delivered for is still below the length bound. -/
theorem extend_redelivered_iff {memberships epochs againMemberships againEpochs : List (List UInt8)}
    (verified : verifyChain crypto vaultId memberships epochs = .ok state)
    (known : ∀ bytes ∈ againMemberships, bytes ∈ memberships)
    (knownEpochs : ∀ bytes ∈ againEpochs, bytes ∈ epochs) :
    extend crypto state againMemberships againEpochs = .ok state ↔
      (againMemberships = [] ∨ state.steps.length < maxChainLen) ∧
        (againEpochs = [] ∨ state.epochs.length < maxChainLen) := by
  obtain ⟨_, _, _, coupled⟩ := extend_eq_ok.mp verified
  constructor
  · intro accepted
    obtain ⟨middle, membershipsAccepted, epochsAccepted, _⟩ := extend_eq_ok.mp accepted
    constructor
    · cases againMemberships with
      | nil => exact .inl rfl
      | cons bytes rest =>
        obtain ⟨_, step, _⟩ := bind_eq_ok.mp membershipsAccepted
        exact .inr (applyMembership_eq_ok.mp step).1
    · cases againEpochs with
      | nil => exact .inl rfl
      | cons bytes rest =>
        obtain ⟨_, step, _⟩ := bind_eq_ok.mp epochsAccepted
        rw [← (sameEpochs_of_memberships membershipsAccepted).epochs]
        exact .inr (applyEpoch_eq_ok.mp step).1
  · rintro ⟨room, roomEpochs⟩
    refine extend_eq_ok.mpr ⟨state, ?_, ?_, coupled⟩
    · obtain rfl | room := room
      · rfl
      · exact memberships_again verified known room 0
    · obtain rfl | room := roomEpochs
      · rfl
      · exact epochs_again verified knownEpochs room 0

/-- The founder's chain of two epoch records, with its first epoch record delivered again twice. -/
theorem extend_redelivered_two :
    extend sampleCrypto (sampleFounder.chain 2) [sampleFounder.genesisBytes]
        [sampleFounder.epochBytes 0, sampleFounder.epochBytes 0] = .ok (sampleFounder.chain 2) ↔
      ([sampleFounder.genesisBytes] = [] ∨ (sampleFounder.chain 2).steps.length < maxChainLen) ∧
        ([sampleFounder.epochBytes 0, sampleFounder.epochBytes 0] = [] ∨
          (sampleFounder.chain 2).epochs.length < maxChainLen) :=
  extend_redelivered_iff (verifyChain_sample (by decide) (by decide))
    (fun _ member => member) (by simp [List.range_succ])

/-- A chain whose epoch records reached the length bound refuses one of its own. -/
theorem exists_redelivery_refused :
    ¬ ∀ (crypto : Crypto) (vaultId : Uuid) (state : VerifiedState)
        (memberships epochs againMemberships againEpochs : List (List UInt8)),
        verifyChain crypto vaultId memberships epochs = .ok state →
        (∀ bytes ∈ againMemberships, bytes ∈ memberships) →
        (∀ bytes ∈ againEpochs, bytes ∈ epochs) →
        extend crypto state againMemberships againEpochs = .ok state := by
  intro idempotent
  have verified := verifyChain_sample (show 1 ≤ maxChainLen by decide) le_rfl
  have held : sampleFounder.epochBytes 0 ∈ (List.range maxChainLen).map sampleFounder.epochBytes :=
    List.mem_map.mpr ⟨0, List.mem_range.mpr (by decide), rfl⟩
  have accepted := idempotent sampleCrypto _ _ _ _ [] [sampleFounder.epochBytes 0] verified
    (by simp) (by simpa using held)
  rw [extend_full (by rw [Founder.chain_epochs_length])] at accepted
  cases accepted

end Dohflow.SyncCore
