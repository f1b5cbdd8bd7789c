/-
This file ties every epoch a chain state keeps to the record it was fed as.

The state keeps only a summary of an epoch record, so whom the record lists can be read
from its bytes alone. `Held` says that the fed records and the kept epochs are each
other's, and every call of `extend` carries it on (`Held.extend`), a record fed again
included. The last section says whom the records list: the devices the reason names at
the record's own head, so every device authorized at a head is listed by some record of
that head's key epoch (`exists_listing`).
-/

import Mathlib.Data.List.Perm.Subperm
import Dohflow.SyncCore.ChainInvariant

namespace Dohflow.SyncCore

open Fallible

variable {crypto : Crypto} {state next : VerifiedState} {fed : List (List UInt8)}
variable {record : SignedRecord} {body : EpochBody} {bytes : List UInt8} {epoch : EpochRef}
  {member : Member} {position : Nat}

/-! ### The record an epoch was fed as -/

/-- The bytes are the record the state keeps as an epoch. -/
structure KeptAs (crypto : Crypto) (state : VerifiedState) (bytes : List UInt8)
    (record : SignedRecord) (body : EpochBody) (epoch : EpochRef) : Prop where
  opens : OpensEpoch state.vaultId bytes record body
  summary : epoch = epochRefOf crypto record body epoch.headIndex
  head : state.headIndexOf body.membershipHead = some epoch.headIndex
  addressed : Addressed
    ((expectedRecipients state body.reason (epoch.headIndex + 1)).map Member.name) body.recipients
  sameS : state.keyCommitmentS = some body.keyCommitmentS

/-- A record stays the one kept as the chain grows. -/
theorem KeptAs.grown (kept : KeptAs crypto state bytes record body epoch) (grown : Grown state next)
    (sameS : next.keyCommitmentS = state.keyCommitmentS) :
    KeptAs crypto next bytes record body epoch := by
  refine ⟨?_, kept.summary, grown.headIndexOf kept.head, ?_, sameS.trans kept.sameS⟩
  · rw [grown.vaultId]
    exact kept.opens
  · rw [grown.expectedRecipients body.reason (headIndexOf_lt kept.head)]
    exact kept.addressed

/-- The digest tells the bodies of the fed records apart. -/
def TellsApart (crypto : Crypto) (fed : List (List UInt8)) : Prop :=
  ∀ first ∈ fed, ∀ second ∈ fed, ∀ one other,
    SignedRecord.parse first maxEpochBody = .ok one →
    SignedRecord.parse second maxEpochBody = .ok other →
    one.id crypto = other.id crypto → one.body = other.body

theorem TellsApart.mono {more : List (List UInt8)} (apart : TellsApart crypto more)
    (within : fed ⊆ more) : TellsApart crypto fed :=
  fun _ first _ second => apart _ (within first) _ (within second)

/-- The fed epoch records are those the state keeps, and it keeps no others. -/
structure Held (crypto : Crypto) (state : VerifiedState) (fed : List (List UInt8)) : Prop where
  everyEpoch : ∀ epoch ∈ state.epochs, ∃ bytes ∈ fed, ∃ record body,
    KeptAs crypto state bytes record body epoch
  everyRecord : ∀ bytes ∈ fed, ∃ epoch ∈ state.epochs, ∃ record body,
    KeptAs crypto state bytes record body epoch

theorem held_empty (crypto : Crypto) (vaultId : Uuid) : Held crypto (.empty vaultId) [] :=
  ⟨fun _ inside => (nomatch inside), fun _ inside => (nomatch inside)⟩

/-- What a step keeps of the epochs it found. -/
theorem Held.grown (held : Held crypto state fed) (grown : Grown state next)
    (sameEpochs : next.epochs = state.epochs)
    (sameS : next.keyCommitmentS = state.keyCommitmentS) : Held crypto next fed := by
  constructor
  · intro epoch inside
    rw [sameEpochs] at inside
    obtain ⟨bytes, member, record, body, kept⟩ := held.everyEpoch epoch inside
    exact ⟨bytes, member, record, body, kept.grown grown sameS⟩
  · intro bytes member
    obtain ⟨epoch, inside, record, body, kept⟩ := held.everyRecord bytes member
    exact ⟨epoch, sameEpochs ▸ inside, record, body, kept.grown grown sameS⟩

theorem Held.memberships {memberships : List (List UInt8)} (held : Held crypto state fed)
    (accepted : applyFrom (applyMembership crypto) position state memberships = .ok next) :
    Held crypto next fed := by
  have same := sameEpochs_of_memberships accepted
  exact held.grown (run_of_memberships accepted).grown same.epochs same.keyCommitmentS

/-- The commitment to the tag secret that an accepted record leaves is its own. -/
theorem Sequenced.keyCommitmentS {headIndex : Nat}
    (sequenced : Sequenced state body.keyCommitmentS (epochRefOf crypto record body headIndex)) :
    (if body.reason = .genesis then some body.keyCommitmentS else state.keyCommitmentS) =
        some body.keyCommitmentS ∧
      (state.epochs ≠ [] → state.keyCommitmentS = some body.keyCommitmentS) := by
  cases sequenced with
  | first nothing reason =>
    have reason : body.reason = .genesis := reason
    exact ⟨if_pos reason, fun some => absurd nothing some⟩
  | later _ sameS =>
    refine ⟨?_, fun _ => sameS⟩
    rw [sameS, ite_self]

/-- A record fed again changes nothing. -/
theorem Held.again {existing : EpochRef} (held : Held crypto state fed)
    (inside : existing ∈ state.epochs) (kept : KeptAs crypto state bytes record body existing) :
    Held crypto state (fed ++ [bytes]) := by
  constructor
  · intro epoch other
    obtain ⟨source, member, rest⟩ := held.everyEpoch epoch other
    exact ⟨source, List.mem_append_left _ member, rest⟩
  · intro source member
    obtain before | last := List.mem_append.mp member
    · exact held.everyRecord source before
    · rw [List.mem_singleton.mp last]
      exact ⟨existing, inside, record, body, kept⟩

/-- A new record is kept behind those before it. -/
theorem Held.append {newest : EpochRef} (held : Held crypto state fed) (grown : Grown state next)
    (epochs : next.epochs = state.epochs ++ [newest])
    (sameS : state.epochs ≠ [] → next.keyCommitmentS = state.keyCommitmentS)
    (added : KeptAs crypto next bytes record body newest) : Held crypto next (fed ++ [bytes]) := by
  constructor
  · intro epoch inside
    rw [epochs] at inside
    obtain before | last := List.mem_append.mp inside
    · obtain ⟨source, member, other, otherBody, kept⟩ := held.everyEpoch epoch before
      exact ⟨source, List.mem_append_left _ member, other, otherBody,
        kept.grown grown (sameS (List.ne_nil_of_mem before))⟩
    · rw [List.mem_singleton.mp last]
      exact ⟨bytes, List.mem_append_right _ List.mem_cons_self, record, body, added⟩
  · intro source member
    rw [epochs]
    obtain before | last := List.mem_append.mp member
    · obtain ⟨epoch, inside, other, otherBody, kept⟩ := held.everyRecord source before
      exact ⟨epoch, List.mem_append_left _ inside, other, otherBody,
        kept.grown grown (sameS (List.ne_nil_of_mem inside))⟩
    · rw [List.mem_singleton.mp last]
      exact ⟨newest, List.mem_append_right _ List.mem_cons_self, record, body, added⟩

/-- One more epoch record, new or fed again. -/
theorem Held.step (held : Held crypto state fed) (apart : TellsApart crypto (fed ++ [bytes]))
    (opens : OpensEpoch state.vaultId bytes record body)
    (step : EpochStep crypto state record body next) : Held crypto next (fed ++ [bytes]) := by
  have grown := step.grown
  cases step with
  | @repeated existing found same =>
    -- The record fed again has the id, so the body, of the record kept in its place.
    have inside : existing ∈ state.epochs := List.mem_of_find?_eq_some found
    obtain ⟨first, member, firstRecord, firstBody, kept⟩ := held.everyEpoch existing inside
    have sameId : firstRecord.id crypto = record.id crypto := by
      rw [← same, kept.summary]
      rfl
    have sameBody := apart first (List.mem_append_left _ member) bytes
      (List.mem_append_right _ List.mem_cons_self) _ _ kept.opens.parsed opens.parsed sameId
    obtain rfl : firstBody = body := by
      have decoded := kept.opens.decoded
      rw [sameBody] at decoded
      exact Except.ok.inj (decoded.symm.trans opens.decoded)
    refine held.again inside ⟨opens, ?_, kept.head, kept.addressed, kept.sameS⟩
    rw [epochRefOf, ← sameId]
    exact kept.summary
  | accepted unseen head signed sequenced addressed =>
    obtain ⟨newS, oldS⟩ := sequenced.keyCommitmentS
    refine held.append grown rfl (fun some => newS.trans (oldS some).symm)
      (show KeptAs crypto _ bytes record body _ from ?_)
    exact ⟨opens, rfl, head, addressed, newS⟩

theorem Held.epochs {epochs : List (List UInt8)} (held : Held crypto state fed)
    (apart : TellsApart crypto (fed ++ epochs))
    (accepted : applyFrom (applyEpoch crypto) position state epochs = .ok next) :
    Held crypto next (fed ++ epochs) := by
  induction epochs generalizing state fed position with
  | nil =>
    obtain rfl := Except.ok.inj accepted
    rw [List.append_nil]
    exact held
  | cons bytes rest inductionHypothesis =>
    rw [applyFrom_cons, bind_eq_ok] at accepted
    obtain ⟨middle, first, later⟩ := accepted
    obtain ⟨_, record, body, opens, step⟩ := applyEpoch_eq_ok.mp first
    have split : fed ++ bytes :: rest = fed ++ [bytes] ++ rest := by simp
    rw [split] at apart ⊢
    have one := held.step (apart.mono (List.subset_append_left _ _)) opens step
    exact inductionHypothesis one apart later

/-- A call of `extend` keeps what it was fed, and all it had. -/
theorem Held.extend {memberships epochs : List (List UInt8)} (held : Held crypto state fed)
    (apart : TellsApart crypto (fed ++ epochs))
    (extended : extend crypto state memberships epochs = .ok next) :
    Held crypto next (fed ++ epochs) := by
  obtain ⟨middle, first, second, _⟩ := extend_eq_ok.mp extended
  exact (held.memberships first).epochs apart second

/-! ### Whom a record lists -/

/-- The recipients are exactly the named devices. -/
theorem Addressed.perm {names : List (Uuid × Fingerprint)} {recipients : List Recipient}
    (addressed : Addressed names recipients) :
    (recipients.map fun recipient => (recipient.deviceId, recipient.fingerprint)).Perm names := by
  have once : (recipients.map fun recipient =>
      (recipient.deviceId, recipient.fingerprint)).Nodup := by
    refine List.Nodup.of_map Prod.snd ?_
    rw [List.map_map]
    exact addressed.nodup
  have named : (recipients.map fun recipient =>
      (recipient.deviceId, recipient.fingerprint)) ⊆ names := by
    intro name inside
    obtain ⟨recipient, member, rfl⟩ := List.mem_map.mp inside
    exact addressed.expected recipient member
  refine (List.subperm_of_subset once named).perm_of_length_le ?_
  rw [List.length_map, addressed.length]

theorem KeptAs.lists_iff (kept : KeptAs crypto state bytes record body epoch)
    (fingerprint : Fingerprint) :
    (∃ recipient ∈ body.recipients, recipient.fingerprint = fingerprint) ↔
      ∃ member ∈ expectedRecipients state body.reason (epoch.headIndex + 1),
        member.fingerprint = fingerprint := by
  have perm : fingerprint ∈ _ ↔ fingerprint ∈ _ := (kept.addressed.perm.map Prod.snd).mem_iff
  simpa only [List.map_map, List.mem_map, Function.comp_apply, Member.name] using perm

theorem mem_expectedRecipients (invariant : MembershipInvariant state) {reason : Reason}
    {version : Nat} :
    member ∈ expectedRecipients state reason version ↔
      member ∈ state.members ∧ member.authorizedAt version = true ∧
        (reason = .grant → member.addedAtVersion = version) := by
  cases reason with
  | grant =>
    simp only [expectedRecipients, List.mem_filter, decide_eq_true_eq, forall_const]
    refine and_congr_right fun inside => ⟨fun added => ⟨?_, added⟩, And.right⟩
    -- A member is revoked after it was added, so it was authorized where it was added.
    subst added
    simp only [Member.authorizedAt, le_refl, decide_true, Bool.true_and, Option.all_eq_true,
      decide_eq_true_eq]
    exact fun revoked stamp => ((invariant.stamped member inside).revoked revoked stamp).1
  | genesis | cutover | rotation =>
    simp [expectedRecipients, VerifiedState.authorizedAt]

theorem isSome_authorizedMember {fingerprint : Fingerprint} {version : Nat} :
    (state.authorizedMember fingerprint version).isSome = true ↔
      ∃ member ∈ state.members, member.fingerprint = fingerprint ∧
        member.authorizedAt version = true := by
  simp [VerifiedState.authorizedMember, List.find?_isSome]

/-- Every member authorized at a record's head is listed by a record of that key epoch: a record
that is not a grant lists it itself, and a grant that does not add it follows a record whose head
is one version earlier. -/
theorem exists_listing (members : MembershipInvariant state) (epochs : EpochsInvariant state)
    (inside : epoch ∈ state.epochs) (present : member ∈ state.members)
    (authorized : member.authorizedAt (epoch.headIndex + 1) = true) :
    ∃ listing ∈ state.epochs, listing.keyEpoch = epoch.keyEpoch ∧
      member ∈ expectedRecipients state listing.reason (listing.headIndex + 1) := by
  obtain ⟨index, bound, rfl⟩ := List.getElem_of_mem inside
  induction index with
  | zero =>
    have first : state.epochs[0] ∈ state.epochs.head? := by
      rw [List.head?_eq_getElem?, List.getElem?_eq_getElem bound]
      rfl
    refine ⟨_, inside, rfl, (mem_expectedRecipients members).mpr ⟨present, authorized, ?_⟩⟩
    intro grant
    rw [(epochs.starts _ first).reason] at grant
    cases grant
  | succ index inductionHypothesis =>
    have follows := List.isChain_iff_getElem.mp epochs.follows index bound
    have listed : (state.epochs[index + 1].reason = .grant →
        member.addedAtVersion = state.epochs[index + 1].headIndex + 1) →
        ∃ listing ∈ state.epochs, listing.keyEpoch = state.epochs[index + 1].keyEpoch ∧
          member ∈ expectedRecipients state listing.reason (listing.headIndex + 1) :=
      fun added => ⟨_, inside, rfl,
        (mem_expectedRecipients members).mpr ⟨present, authorized, added⟩⟩
    by_cases added : member.addedAtVersion = state.epochs[index + 1].headIndex + 1
    · exact listed fun _ => added
    · cases follows with
      | cutover reason => exact listed fun grant => absurd (reason.symm.trans grant) (by simp)
      | rotation reason => exact listed fun grant => absurd (reason.symm.trans grant) (by simp)
      | grant _ _ head _ keyEpoch =>
        have earlier : member.authorizedAt (state.epochs[index].headIndex + 1) = true := by
          simp only [Member.authorizedAt, Bool.and_eq_true, decide_eq_true_eq, head] at *
          refine ⟨by omega, ?_⟩
          cases revoked : member.revokedAtVersion with
          | none => rfl
          | some version =>
            rw [revoked, Option.all_some, decide_eq_true_eq] at authorized
            rw [Option.all_some, decide_eq_true_eq]
            omega
        rw [keyEpoch]
        exact inductionHypothesis (Nat.lt_of_succ_lt bound) (List.getElem_mem _) earlier

end Dohflow.SyncCore
