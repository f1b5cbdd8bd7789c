/-
This file proves that a verdict at a log position never changes as the chain
grows.

Two replicas at different catch-up points ask the same questions of two states,
one of which extends the other. At a fixed version growth alone answers
(`Grown`). For a whole key epoch the answer lies at the last head the epoch
names, and a later grant moves that head; but inside one key epoch devices are
only added (`EpochPrecedes`), so whoever was authorized at an earlier head of the
epoch is authorized at its last one.
-/

import Dohflow.SyncCore.ChainInvariant

namespace Dohflow.SyncCore

variable {crypto : Crypto} {state next : VerifiedState} {vaultId : Uuid}
variable {keyEpoch : Nat} {deviceId : Uuid} {member : Member}

/-! ### Asking for a device -/

theorem authorizedMemberAtVersion_eq_some (distinct : DistinctDevices state.members) {version : Nat} :
    state.authorizedMemberAtVersion deviceId version = some member ↔
      member ∈ state.members ∧ member.deviceId = deviceId ∧ member.authorizedAt version = true := by
  constructor
  · intro found
    have holds := List.find?_some found
    rw [Bool.and_eq_true, decide_eq_true_eq] at holds
    exact ⟨List.mem_of_find?_eq_some found, holds⟩
  · rintro ⟨inside, rfl, authorized⟩
    cases found : state.authorizedMemberAtVersion member.deviceId version with
    | none =>
      have refused := List.find?_eq_none.mp found member inside
      simp [authorized] at refused
    | some other =>
      have holds := List.find?_some found
      rw [Bool.and_eq_true, decide_eq_true_eq] at holds
      rw [List.inj_on_of_nodup_map distinct.deviceIds (List.mem_of_find?_eq_some found) inside
        holds.1]

theorem authorizedAt_of_precedes {earlier later : EpochRef} (stamped : Stamped state member)
    (precedes : EpochPrecedes state.steps earlier later)
    (sameEpoch : earlier.keyEpoch = later.keyEpoch)
    (authorized : member.authorizedAt (earlier.headIndex + 1) = true) :
    member.authorizedAt (later.headIndex + 1) = true := by
  have ordered := precedes.head
  simp only [Member.authorizedAt, Bool.and_eq_true, decide_eq_true_eq, Option.all_eq_true] at *
  refine ⟨by omega, fun version revoked => ?_⟩
  have after := authorized.2 version revoked
  by_contra within
  obtain ⟨index, rfl⟩ : ∃ index, version = index + 1 := ⟨version - 1, by omega⟩
  have added := precedes.adds sameEpoch index (by omega) (by omega)
  have removed := (stamped.revoked _ revoked).2
  rw [VerifiedState.stepAt, added] at removed
  cases removed

theorem precedes_of_find?_reverse {epoch last : EpochRef} (invariant : EpochsInvariant state)
    (found : (state.epochs.reverse.find? fun epoch => epoch.keyEpoch = keyEpoch) = some last)
    (member : epoch ∈ state.epochs) (same : epoch.keyEpoch = keyEpoch) :
    EpochPrecedes state.steps epoch last := by
  obtain ⟨_, newer, older, split, newerOther⟩ := List.find?_eq_some_iff_append.mp found
  have ordered := List.pairwise_reverse.mpr invariant.precedes
  rw [split, List.pairwise_append, List.pairwise_cons] at ordered
  have member : epoch ∈ newer ++ last :: older := split ▸ List.mem_reverse.mpr member
  obtain isNewer | here := List.mem_append.mp member
  · have other := newerOther epoch isNewer
    simp [same] at other
  · obtain rfl | isOlder := List.mem_cons.mp here
    · exact .refl epoch
    · exact ordered.2.1.1 epoch isOlder

theorem authorizedMemberInEpoch_of_find? {last : EpochRef}
    (found : (state.epochs.reverse.find? fun epoch => epoch.keyEpoch = keyEpoch) = some last) :
    state.authorizedMemberInEpoch deviceId keyEpoch =
      state.authorizedMemberAtVersion deviceId (last.headIndex + 1) := by
  rw [VerifiedState.authorizedMemberInEpoch, found]
  rfl

theorem authorizedMemberInEpoch_of_unknown
    (unknown : (state.epochs.reverse.find? fun epoch => epoch.keyEpoch = keyEpoch) = none) :
    state.authorizedMemberInEpoch deviceId keyEpoch = none := by
  rw [VerifiedState.authorizedMemberInEpoch, unknown]
  rfl

theorem exists_head_of_authorizedMemberInEpoch
    (found : state.authorizedMemberInEpoch deviceId keyEpoch = some member) :
    ∃ epoch ∈ state.epochs, epoch.keyEpoch = keyEpoch ∧
      state.authorizedMemberAtVersion deviceId (epoch.headIndex + 1) = some member := by
  cases answer : state.epochs.reverse.find? fun epoch => epoch.keyEpoch = keyEpoch with
  | none =>
    rw [authorizedMemberInEpoch_of_unknown answer] at found
    cases found
  | some last =>
    rw [authorizedMemberInEpoch_of_find? answer] at found
    exact ⟨last, List.mem_reverse.mp (List.mem_of_find?_eq_some answer),
      by simpa using List.find?_some answer, found⟩

theorem authorizedMemberInEpoch_of_mem (members : MembershipInvariant state)
    (invariant : EpochsInvariant state) {epoch : EpochRef} (inside : epoch ∈ state.epochs)
    (found : state.authorizedMemberAtVersion deviceId (epoch.headIndex + 1) = some member) :
    state.authorizedMemberInEpoch deviceId epoch.keyEpoch = some member := by
  obtain ⟨listed, named, authorized⟩ :=
    (authorizedMemberAtVersion_eq_some members.distinct).mp found
  cases answer : state.epochs.reverse.find? fun other => other.keyEpoch = epoch.keyEpoch with
  | none =>
    have refused := List.find?_eq_none.mp answer epoch (List.mem_reverse.mpr inside)
    simp at refused
  | some last =>
    have sameEpoch : last.keyEpoch = epoch.keyEpoch := by simpa using List.find?_some answer
    rw [authorizedMemberInEpoch_of_find? answer]
    refine (authorizedMemberAtVersion_eq_some members.distinct).mpr ⟨listed, named, ?_⟩
    exact authorizedAt_of_precedes (members.stamped member listed)
      (precedes_of_find?_reverse invariant answer inside rfl) sameEpoch.symm authorized

/-! ### Growth between two states -/

theorem find?_reverse_of_lt (grown : Grown state next) (invariant : EpochsInvariant next)
    (older : keyEpoch < state.keyEpoch) :
    (next.epochs.reverse.find? fun epoch => epoch.keyEpoch = keyEpoch) =
      state.epochs.reverse.find? fun epoch => epoch.keyEpoch = keyEpoch := by
  have ordered := invariant.precedes
  obtain ⟨added, same⟩ := grown.epochs
  cases ends : state.epochs.getLast? with
  | none =>
    rw [VerifiedState.keyEpoch, ends] at older
    cases older
  | some last =>
    have current : state.keyEpoch = last.keyEpoch := by
      rw [VerifiedState.keyEpoch, ends]
      rfl
    rw [← same, List.pairwise_append] at ordered
    have skipped : (added.reverse.find? fun epoch => epoch.keyEpoch = keyEpoch) = none := by
      refine List.find?_eq_none.mpr fun epoch member => ?_
      have above := (ordered.2.2 last (List.mem_of_getLast? ends) epoch
        (List.mem_reverse.mp member)).keyEpoch
      simp only [decide_eq_true_eq]
      omega
    rw [← same, List.reverse_append, List.find?_append, skipped]
    rfl

theorem exists_of_map_asAdded {earlier later : Option Member}
    (same : later.map Member.asAdded = earlier.map Member.asAdded) (found : earlier = some member) :
    ∃ other, later = some other ∧ other.asAdded = member.asAdded := by
  rw [found, Option.map_some] at same
  exact Option.map_eq_some_iff.mp same

/-! ### The verdicts -/

theorem Grown.authorizedMemberInEpoch_of_lt (grown : Grown state next)
    (invariant : EpochsInvariant state) (invariantLater : EpochsInvariant next)
    (older : keyEpoch < state.keyEpoch) (deviceId : Uuid) :
    (next.authorizedMemberInEpoch deviceId keyEpoch).map Member.asAdded =
      (state.authorizedMemberInEpoch deviceId keyEpoch).map Member.asAdded := by
  have answers := find?_reverse_of_lt grown invariantLater older
  cases found : state.epochs.reverse.find? fun epoch => epoch.keyEpoch = keyEpoch with
  | none =>
    rw [found] at answers
    rw [authorizedMemberInEpoch_of_unknown answers, authorizedMemberInEpoch_of_unknown found]
  | some last =>
    rw [found] at answers
    rw [authorizedMemberInEpoch_of_find? answers, authorizedMemberInEpoch_of_find? found]
    have inside := List.mem_reverse.mp (List.mem_of_find?_eq_some found)
    exact grown.authorizedMemberAtVersion deviceId (invariant.known last inside)

/-- A device found in any key epoch of the earlier state is still found there. -/
theorem Grown.authorizedMemberInEpoch (grown : Grown state next) (invariant : EpochsInvariant state)
    (members : MembershipInvariant next) (invariantLater : EpochsInvariant next)
    (found : state.authorizedMemberInEpoch deviceId keyEpoch = some member) :
    ∃ later, next.authorizedMemberInEpoch deviceId keyEpoch = some later ∧
      later.asAdded = member.asAdded := by
  obtain ⟨epoch, inside, rfl, foundAt⟩ := exists_head_of_authorizedMemberInEpoch found
  obtain ⟨later, foundLater, same⟩ := exists_of_map_asAdded
    (grown.authorizedMemberAtVersion deviceId (invariant.known epoch inside)) foundAt
  exact ⟨later, authorizedMemberInEpoch_of_mem members invariantLater
    (grown.epochs.subset inside) foundLater, same⟩

theorem isSome_authorizedMemberInEpoch_iff (members : MembershipInvariant state)
    (invariant : EpochsInvariant state) :
    (state.authorizedMemberInEpoch deviceId keyEpoch).isSome ↔
      ∃ epoch ∈ state.epochs, epoch.keyEpoch = keyEpoch ∧
        (state.authorizedMemberAtVersion deviceId (epoch.headIndex + 1)).isSome := by
  simp only [Option.isSome_iff_exists]
  constructor
  · rintro ⟨member, found⟩
    obtain ⟨epoch, inside, same, foundAt⟩ := exists_head_of_authorizedMemberInEpoch found
    exact ⟨epoch, inside, same, member, foundAt⟩
  · rintro ⟨epoch, inside, rfl, member, foundAt⟩
    exact ⟨member, authorizedMemberInEpoch_of_mem members invariant inside foundAt⟩

/-- Verdicts at a log position never change as the chain grows. Up to the head of the earlier state
the same devices are found, by id and by fingerprint, with the same keys; every epoch record the
earlier state has puts an envelope in the same place; every key epoch it has keeps its commitment;
a key epoch before the current one keeps its members and the current one only gains some. And a
device is found in a key epoch exactly when some epoch record of it names a head at which the
device is authorized. -/
theorem verdicts_stable {memberships epochs : List (List UInt8)}
    (reachable : Reachable crypto vaultId state)
    (extended : extend crypto state memberships epochs = .ok next) :
    (∀ version, version ≤ state.headVersion →
      (∀ deviceId, (next.authorizedMemberAtVersion deviceId version).map Member.asAdded =
        (state.authorizedMemberAtVersion deviceId version).map Member.asAdded) ∧
      ∀ fingerprint,
        (next.authorizedMemberByFingerprintAtVersion fingerprint version).map Member.asAdded =
          (state.authorizedMemberByFingerprintAtVersion fingerprint version).map Member.asAdded) ∧
    (∀ epoch ∈ state.epochs,
      EpochAtPosition.afterEpochRecord next epoch.id =
        EpochAtPosition.afterEpochRecord state epoch.id ∧
      next.epochKeyCommitment epoch.keyEpoch = state.epochKeyCommitment epoch.keyEpoch) ∧
    (∀ keyEpoch, keyEpoch < state.keyEpoch → ∀ deviceId,
      (next.authorizedMemberInEpoch deviceId keyEpoch).map Member.asAdded =
        (state.authorizedMemberInEpoch deviceId keyEpoch).map Member.asAdded) ∧
    (∀ deviceId member, state.authorizedMemberInEpoch deviceId state.keyEpoch = some member →
      ∃ later, next.authorizedMemberInEpoch deviceId state.keyEpoch = some later ∧
        later.asAdded = member.asAdded) ∧
    ∀ deviceId keyEpoch, (state.authorizedMemberInEpoch deviceId keyEpoch).isSome ↔
      ∃ epoch ∈ state.epochs, epoch.keyEpoch = keyEpoch ∧
        (state.authorizedMemberAtVersion deviceId (epoch.headIndex + 1)).isSome := by
  have grown := (run_of_extend extended).grown
  have members := reachable.run.membershipInvariant
  have invariant := reachable.run.epochsInvariant
  have laterRun : Run crypto (.empty vaultId) next := reachable.run.trans (run_of_extend extended)
  refine ⟨fun version past => ⟨fun deviceId => grown.authorizedMemberAtVersion deviceId past,
    fun fingerprint => grown.authorizedMember fingerprint past⟩, fun epoch inside => ⟨?_, ?_⟩,
    fun keyEpoch older => grown.authorizedMemberInEpoch_of_lt invariant laterRun.epochsInvariant
      older,
    fun deviceId member => grown.authorizedMemberInEpoch invariant laterRun.membershipInvariant
      laterRun.epochsInvariant,
    fun deviceId keyEpoch => isSome_authorizedMemberInEpoch_iff members invariant⟩
  · rw [EpochAtPosition.afterEpochRecord, EpochAtPosition.afterEpochRecord,
      grown.find?_epochs inside (decide_eq_true rfl)]
  · rw [VerifiedState.epochKeyCommitment, VerifiedState.epochKeyCommitment,
      grown.find?_epochs inside (decide_eq_true rfl)]

/-- The founder is found in the first key epoch after a rotation has ended it. -/
theorem verdicts_stable_founder :
    ∃ later, (sampleFounder.chain 2).authorizedMemberInEpoch sampleFounder.deviceId 1 =
      some later ∧ later.asAdded = sampleFounder.member.asAdded :=
  (verdicts_stable (.of_verifyChain (verifyChain_sample (le_refl 1) (by decide)))
    (Founder.extend_next (sampleCrypto_collisionFree _) (by decide))).2.2.2.1 _ _ rfl

end Dohflow.SyncCore
