/-
This file proves what holds of every state the chain verifier reaches.

`MembershipInvariant` is about the members and the membership records, and
`EpochsInvariant` about the epoch records; each record of either kind keeps both,
so they hold all along a run, between the two halves of a call too. The last
section reads them at the states a call returns, where the newest epoch record
also names the newest membership record: `WellFormedChain`.
-/

import Dohflow.Foundation.Tally
import Dohflow.SyncCore.Batching

namespace Dohflow.SyncCore

open Fallible

variable {crypto : Crypto} {state next : VerifiedState} {vaultId : Uuid}
variable {member : Member} {fingerprint : Fingerprint} {members : List Member} {version : Nat}
  {body : MembershipBody}

/-! ### The members -/

/-- No device shares an identifier or a key with another. -/
structure DistinctDevices (members : List Member) : Prop where
  fingerprints : (members.map Member.fingerprint).Nodup
  deviceIds : (members.map Member.deviceId).Nodup
  ed25519Keys : (members.map Member.ed25519Pk).Nodup
  kemKeys : (members.map Member.kemPublicKey).Nodup

/-- A member's versions are those of records the chain holds. -/
structure Stamped (state : VerifiedState) (member : Member) : Prop where
  added : 1 ≤ member.addedAtVersion ∧ member.addedAtVersion ≤ state.headVersion
  revoked : ∀ version, member.revokedAtVersion = some version →
    member.addedAtVersion < version ∧ (state.stepAt version).map StepRef.action = some .revoke

theorem Stamped.le_headVersion (stamped : Stamped state member)
    (revoked : member.revokedAtVersion = some version) : version ≤ state.headVersion := by
  obtain ⟨step, held, _⟩ := Option.map_eq_some_iff.mp (stamped.revoked version revoked).2
  exact le_headVersion_of_stepAt held

/-- Someone is authorized, and no more members than a chain may hold. -/
def Populated (state : VerifiedState) (version : Nat) : Prop :=
  1 ≤ (state.authorizedAt version).length ∧ (state.authorizedAt version).length ≤ maxMembers

structure MembershipInvariant (state : VerifiedState) : Prop where
  distinct : DistinctDevices state.members
  stamped : ∀ member ∈ state.members, Stamped state member
  populated : ∀ version, 1 ≤ version → version ≤ state.headVersion → Populated state version
  founder : ∀ founder ∈ state.members.head?, founder.addedAtVersion = 1

theorem Stamped.authorizedAt_succ (stamped : Stamped state member) :
    member.authorizedAt (state.headVersion + 1) = member.authorizedAt state.headVersion := by
  have added := stamped.added.2
  rw [Member.authorizedAt, Member.authorizedAt, decide_eq_true added,
    decide_eq_true (added.trans (Nat.le_succ _))]
  cases revoked : member.revokedAtVersion with
  | none => rfl
  | some version =>
    have past := stamped.le_headVersion revoked
    simp only [Option.all_some, decide_eq_false (Nat.not_lt_of_le past),
      decide_eq_false (Nat.not_lt_of_le (past.trans (Nat.le_succ _)))]

theorem Stamped.grown (stamped : Stamped state member) (grown : Grown state next) :
    Stamped next member := by
  refine ⟨⟨stamped.added.1, stamped.added.2.trans grown.headVersion⟩, fun version revoked => ?_⟩
  obtain ⟨after, action⟩ := stamped.revoked version revoked
  exact ⟨after, grown.stepAt (stamped.le_headVersion revoked) ▸ action⟩

theorem populated_of_newest (grown : Grown state next)
    (one : next.headVersion = state.headVersion + 1)
    (before : ∀ version, 1 ≤ version → version ≤ state.headVersion → Populated state version)
    (newest : Populated next (state.headVersion + 1)) :
    ∀ version, 1 ≤ version → version ≤ next.headVersion → Populated next version := by
  intro version positive past
  by_cases last : version = state.headVersion + 1
  · exact last ▸ newest
  · have old : version ≤ state.headVersion := by omega
    have same : (next.authorizedAt version).length = (state.authorizedAt version).length := by
      simpa using congrArg List.length (grown.authorizedAt old)
    rw [Populated, same]
    exact before version positive old

/-! ### Adding a device -/

theorem DistinctDevices.append (distinct : DistinctDevices members)
    (fingerprint : ∀ other ∈ members, other.fingerprint ≠ member.fingerprint)
    (deviceId : ∀ other ∈ members, other.deviceId ≠ member.deviceId)
    (ed25519Pk : ∀ other ∈ members, other.ed25519Pk ≠ member.ed25519Pk)
    (kemPublicKey : ∀ other ∈ members, other.kemPublicKey ≠ member.kemPublicKey) :
    DistinctDevices (members ++ [member]) := by
  have snoc : ∀ {Key : Type} (key : Member → Key), (members.map key).Nodup →
      (∀ other ∈ members, key other ≠ key member) → ((members ++ [member]).map key).Nodup := by
    intro Key key nodup apart
    rw [List.map_append, List.map_singleton]
    refine nodup.append (List.nodup_singleton _) ?_
    rw [List.disjoint_singleton]
    rintro repeated
    obtain ⟨other, inside, same⟩ := List.mem_map.mp repeated
    exact apart other inside same
  exact ⟨snoc _ distinct.fingerprints fingerprint, snoc _ distinct.deviceIds deviceId,
    snoc _ distinct.ed25519Keys ed25519Pk, snoc _ distinct.kemKeys kemPublicKey⟩

theorem MembershipInvariant.appendMember {step : StepRef} (invariant : MembershipInvariant state)
    (version : body.version.toNat = state.headVersion + 1) (unused : NewDevice crypto state body)
    (room : state.authorized.length < maxMembers) (grown : Grown state { state with
      members := state.members ++ [body.newMember crypto], steps := state.steps ++ [step] }) :
    MembershipInvariant { state with
      members := state.members ++ [body.newMember crypto], steps := state.steps ++ [step] } := by
  have oneMore : (state.steps ++ [step]).length = state.headVersion + 1 := by
    rw [List.length_append, List.length_singleton, VerifiedState.headVersion]
  have newest : Stamped { state with
      members := state.members ++ [body.newMember crypto], steps := state.steps ++ [step] }
      (body.newMember crypto) := by
    refine ⟨⟨?_, ?_⟩, ?_⟩
    · show 1 ≤ body.version.toNat
      omega
    · show body.version.toNat ≤ (state.steps ++ [step]).length
      omega
    · intro version revoked
      cases revoked
  refine ⟨invariant.distinct.append unused.fingerprint unused.deviceId unused.ed25519Pk
    unused.kemPublicKey, ?_, populated_of_newest grown oneMore invariant.populated ?_, ?_⟩
  · intro member inside
    obtain old | new := List.mem_append.mp inside
    · exact (invariant.stamped member old).grown grown
    · exact List.mem_singleton.mp new ▸ newest
  · have active : (body.newMember crypto).authorizedAt (state.headVersion + 1) = true := by
      simp [Member.authorizedAt, MembershipBody.newMember, version]
    have others : state.members.filter (fun member => member.authorizedAt (state.headVersion + 1)) =
        state.authorized :=
      List.filter_congr fun member inside => (invariant.stamped member inside).authorizedAt_succ
    rw [Populated, VerifiedState.authorizedAt, List.filter_append, List.filter_cons, if_pos active,
      others]
    simp only [List.filter_nil, List.length_append, List.length_singleton]
    omega
  · intro founder first
    cases members : state.members with
    | nil =>
      have start : state.headVersion = 0 := by
        by_contra nonempty
        have someone := (invariant.populated 1 le_rfl (by omega)).1
        rw [VerifiedState.authorizedAt, members] at someone
        exact absurd someone (by simp)
      obtain rfl : body.newMember crypto = founder := by simpa [members] using first
      show body.version.toNat = 1
      omega
    | cons oldest rest =>
      refine invariant.founder founder ?_
      simpa [members] using first

/-! ### Revoking a device -/

theorem revokeFirst_map {Key : Type} {key : Member → Key}
    (kept : ∀ member : Member, key { member with revokedAtVersion := some version } = key member)
    (members : List Member) :
    (revokeFirst fingerprint version members).map key = members.map key := by
  induction members with
  | nil => rfl
  | cons member rest inductionHypothesis =>
    rw [revokeFirst]
    by_cases same : member.fingerprint = fingerprint
    · rw [if_pos same, List.map_cons, List.map_cons, kept]
    · rw [if_neg same, List.map_cons, List.map_cons, inductionHypothesis]

theorem mem_revokeFirst (inside : member ∈ revokeFirst fingerprint version members) :
    member ∈ members ∨
      ∃ target, (members.find? fun other => other.fingerprint = fingerprint) = some target ∧
        member = { target with revokedAtVersion := some version } := by
  induction members with
  | nil => cases inside
  | cons first rest inductionHypothesis =>
    rw [revokeFirst] at inside
    by_cases same : first.fingerprint = fingerprint
    · rw [if_pos same] at inside
      rw [List.find?_cons_of_pos (by simpa using same)]
      obtain rfl | old := List.mem_cons.mp inside
      · exact .inr ⟨first, rfl, rfl⟩
      · exact .inl (List.mem_cons_of_mem _ old)
    · rw [if_neg same] at inside
      rw [List.find?_cons_of_neg (by simpa using same)]
      obtain rfl | later := List.mem_cons.mp inside
      · exact .inl List.mem_cons_self
      · exact (inductionHypothesis later).imp_left (List.mem_cons_of_mem _)

theorem length_authorizedAt_revokeFirst {target : Member}
    (stamped : ∀ member ∈ members, Stamped state member)
    (found : (members.find? fun member => member.fingerprint = fingerprint) = some target)
    (active : target.revokedAtVersion = none) :
    ((revokeFirst fingerprint (state.headVersion + 1) members).filter fun member =>
        member.authorizedAt (state.headVersion + 1)).length + 1 =
      (members.filter fun member => member.authorizedAt state.headVersion).length := by
  induction members with
  | nil => cases found
  | cons member rest inductionHypothesis =>
    obtain ⟨here, others⟩ := List.forall_mem_cons.mp stamped
    rw [revokeFirst]
    by_cases same : member.fingerprint = fingerprint
    · rw [List.find?_cons_of_pos (by simpa using same)] at found
      obtain rfl := Option.some.inj found
      have out : Member.authorizedAt
          { member with revokedAtVersion := some (state.headVersion + 1) }
          (state.headVersion + 1) = false := by
        simp [Member.authorizedAt]
      have authorized : member.authorizedAt state.headVersion = true := by
        simp [Member.authorizedAt, active, here.added.2]
      rw [if_pos same, List.filter_cons_of_neg (by simp [out]), List.filter_cons, if_pos authorized,
        List.filter_congr fun other inside => (others other inside).authorizedAt_succ,
        List.length_cons]
    · rw [List.find?_cons_of_neg (by simpa using same)] at found
      have counted := inductionHypothesis others found
      rw [if_neg same, List.filter_cons, List.filter_cons, here.authorizedAt_succ]
      cases member.authorizedAt state.headVersion with
      | true => simpa using counted
      | false => simpa using counted

theorem MembershipStep.invariant {record : SignedRecord}
    (step : MembershipStep crypto state record body next) (invariant : MembershipInvariant state) :
    MembershipInvariant next := by
  have grown := step.grown
  cases step with
  | repeated => exact invariant
  | genesis first genesis =>
    have start : state.headVersion = 0 := List.length_eq_zero_iff.mpr first
    have nobody : state.members = [] := by
      refine List.eq_nil_iff_forall_not_mem.mpr fun member inside => ?_
      have added := (invariant.stamped member inside).added
      omega
    refine invariant.appendMember ?_ ?_ ?_ grown
    · rw [start]
      exact genesis.1
    · constructor <;> simp [nobody]
    · simp [VerifiedState.authorized, VerifiedState.authorizedAt, nobody, maxMembers,
        maxRecipients]
  | add continues _ _ unused room =>
    exact invariant.appendMember continues.version unused room grown
  | @revoke target continues _ found _ active others =>
    have version := continues.version
    have oneMore : (state.steps ++ [(⟨record.id crypto, .revoke⟩ : StepRef)]).length =
        state.headVersion + 1 := by
      rw [List.length_append, List.length_singleton, VerifiedState.headVersion]
    refine ⟨⟨?_, ?_, ?_, ?_⟩, ?_, populated_of_newest grown oneMore invariant.populated ?_, ?_⟩
    · rw [revokeFirst_map fun _ => rfl]
      exact invariant.distinct.fingerprints
    · rw [revokeFirst_map fun _ => rfl]
      exact invariant.distinct.deviceIds
    · rw [revokeFirst_map fun _ => rfl]
      exact invariant.distinct.ed25519Keys
    · rw [revokeFirst_map fun _ => rfl]
      exact invariant.distinct.kemKeys
    · intro member inside
      obtain old | ⟨other, same, rfl⟩ := mem_revokeFirst inside
      · exact (invariant.stamped member old).grown grown
      · obtain rfl := Option.some.inj (found.symm.trans same)
        have stamped := invariant.stamped target (List.mem_of_find?_eq_some found)
        refine ⟨(stamped.grown grown).added, fun stamp revoked => ?_⟩
        obtain rfl : body.version.toNat = stamp := Option.some.inj revoked
        rw [version]
        refine ⟨Nat.lt_succ_of_le stamped.added.2, ?_⟩
        simp [VerifiedState.stepAt, VerifiedState.headVersion]
    · have counted := length_authorizedAt_revokeFirst invariant.stamped found active
      have bounds := invariant.populated state.headVersion ?_ le_rfl
      · rw [Populated, VerifiedState.authorizedAt] at bounds
        rw [VerifiedState.authorized, VerifiedState.authorizedAt] at others
        simp only [Populated, VerifiedState.authorizedAt, version]
        omega
      · have stamped := invariant.stamped target (List.mem_of_find?_eq_some found)
        exact stamped.added.1.trans stamped.added.2
    · intro founder first
      have heads :
          (revokeFirst (body.fingerprint crypto) body.version.toNat state.members).head?.map
            Member.addedAtVersion = state.members.head?.map Member.addedAtVersion := by
        rw [← List.head?_map, ← List.head?_map, revokeFirst_map fun _ => rfl]
      rw [Option.mem_def.mp first] at heads
      obtain ⟨oldest, earliest, same⟩ := Option.map_eq_some_iff.mp heads.symm
      exact same ▸ invariant.founder oldest earliest

theorem MembershipInvariant.congr (same : SameMembership state next)
    (invariant : MembershipInvariant state) : MembershipInvariant next := by
  have moved : state.withEpochsOf next = next := same.withEpochsOf
  rw [← moved]
  exact ⟨invariant.distinct,
    fun member inside => ⟨(invariant.stamped member inside).added,
      (invariant.stamped member inside).revoked⟩,
    invariant.populated, invariant.founder⟩

theorem membershipInvariant_empty (vaultId : Uuid) : MembershipInvariant (.empty vaultId) := by
  refine ⟨⟨.nil, .nil, .nil, .nil⟩, fun _ inside => (nomatch inside), ?_,
    fun _ first => (nomatch first)⟩
  intro version positive past
  exact absurd (positive.trans past) (by simp [VerifiedState.headVersion, VerifiedState.empty])

theorem Run.membershipInvariant (run : Run crypto (.empty vaultId) state) :
    MembershipInvariant state := by
  refine run.preserves (fun before after accepts invariant => ?_)
    (membershipInvariant_empty vaultId)
  cases accepts with
  | membership _ _ step => exact step.invariant invariant
  | epoch _ _ step => exact invariant.congr step.sameMembership

/-! ### The epochs -/

/-- The record that opens the epochs of a chain. -/
structure StartsEpochs (first : EpochRef) : Prop where
  reason : first.reason = .genesis
  keyEpoch : first.keyEpoch = 1
  linked : first.prevEpochId = none
  head : first.headIndex = 0

structure EpochsInvariant (state : VerifiedState) : Prop where
  starts : ∀ first ∈ state.epochs.head?, StartsEpochs first
  follows : state.epochs.IsChain (EpochFollows (· + 1) state.steps)
  known : ∀ epoch ∈ state.epochs, epoch.headIndex < state.headVersion
  counted : ∀ last ∈ state.epochs.getLast?, last.keyEpoch ≤ state.epochs.length
  commitments : ∀ first ∈ state.epochs, ∀ second ∈ state.epochs,
    first.keyCommitmentKe = second.keyCommitmentKe ↔ first.keyEpoch = second.keyEpoch
  short : state.epochs.length ≤ maxChainLen

/-- What lies between two epoch records, the second somewhere after the first. -/
structure EpochPrecedes (steps : List StepRef) (earlier later : EpochRef) : Prop where
  keyEpoch : earlier.keyEpoch ≤ later.keyEpoch
  head : earlier.headIndex ≤ later.headIndex
  /-- Inside one key epoch devices are only added. -/
  adds : earlier.keyEpoch = later.keyEpoch → ∀ index, earlier.headIndex < index →
    index ≤ later.headIndex → steps[index]?.map StepRef.action = some .add

namespace EpochPrecedes

variable {steps : List StepRef}

theorem refl (epoch : EpochRef) : EpochPrecedes steps epoch epoch :=
  ⟨le_rfl, le_rfl, fun _ _ above below => absurd below (Nat.not_le_of_lt above)⟩

theorem trans {first second third : EpochRef} (early : EpochPrecedes steps first second)
    (late : EpochPrecedes steps second third) : EpochPrecedes steps first third := by
  refine ⟨early.keyEpoch.trans late.keyEpoch, early.head.trans late.head, ?_⟩
  intro same index above below
  have firstSame : first.keyEpoch = second.keyEpoch :=
    le_antisymm early.keyEpoch (same ▸ late.keyEpoch)
  by_cases middle : index ≤ second.headIndex
  · exact early.adds firstSame index above middle
  · exact late.adds (firstSame.symm.trans same) index (Nat.lt_of_not_le middle) below

instance : Trans (EpochPrecedes steps) (EpochPrecedes steps) (EpochPrecedes steps) := ⟨trans⟩

end EpochPrecedes

variable {previous newest : EpochRef} {steps : List StepRef}

theorem EpochFollows.precedes (follows : EpochFollows (· + 1) steps previous newest) :
    EpochPrecedes steps previous newest := by
  cases follows with
  | cutover _ _ head _ keyEpoch =>
    exact ⟨by omega, by omega, fun same => by omega⟩
  | grant _ _ head action keyEpoch =>
    refine ⟨keyEpoch.ge, by omega, fun _ index above below => ?_⟩
    obtain rfl : index = newest.headIndex := by omega
    exact action
  | rotation _ _ head keyEpoch =>
    exact ⟨by omega, by omega, fun same => by omega⟩

theorem EpochFollows.linked {raise : Nat → Nat} (follows : EpochFollows raise steps previous newest) :
    newest.prevEpochId = some previous.id := by
  cases follows <;> assumption

namespace EpochsInvariant

theorem precedes (invariant : EpochsInvariant state) :
    state.epochs.Pairwise (EpochPrecedes state.steps) :=
  List.isChain_iff_pairwise.mp (invariant.follows.imp fun _ _ => EpochFollows.precedes)

theorem precedes_last (invariant : EpochsInvariant state) {epoch last : EpochRef}
    (ends : state.epochs.getLast? = some last) (member : epoch ∈ state.epochs) :
    EpochPrecedes state.steps epoch last := by
  have ordered := invariant.precedes
  obtain ⟨initial, split⟩ := List.getLast?_eq_some_iff.mp ends
  rw [split, List.pairwise_append] at ordered
  rw [split] at member
  obtain before | same := List.mem_append.mp member
  · exact ordered.2.2 epoch before last List.mem_cons_self
  · rw [List.mem_singleton.mp same]
    exact .refl last

theorem nextKeyEpoch_last (invariant : EpochsInvariant state) {last : EpochRef}
    (ends : state.epochs.getLast? = some last) :
    nextKeyEpoch last.keyEpoch = last.keyEpoch + 1 := by
  have counted := invariant.counted last ends
  have short : state.epochs.length ≤ 4096 := invariant.short
  exact Nat.mod_eq_of_lt (by omega)

theorem follows_of_sequenced (invariant : EpochsInvariant state) {last newest : EpochRef}
    (ends : state.epochs.getLast? = some last)
    (follows : EpochFollows nextKeyEpoch state.steps last newest) :
    EpochFollows (· + 1) state.steps last newest := by
  have raised := invariant.nextKeyEpoch_last ends
  cases follows with
  | cutover reason linked head action keyEpoch =>
    exact .cutover reason linked head action (keyEpoch.trans raised)
  | grant reason linked head action keyEpoch sameKey =>
    exact .grant reason linked head action keyEpoch sameKey
  | rotation reason linked head keyEpoch =>
    exact .rotation reason linked head (keyEpoch.trans raised)

theorem commitments_newest (invariant : EpochsInvariant state) {last newest : EpochRef}
    (ends : state.epochs.getLast? = some last)
    (follows : EpochFollows (· + 1) state.steps last newest)
    (fresh : newest.reason ≠ .grant →
      ∀ epoch ∈ state.epochs, epoch.keyCommitmentKe ≠ newest.keyCommitmentKe) :
    ∀ epoch ∈ state.epochs,
      epoch.keyCommitmentKe = newest.keyCommitmentKe ↔ epoch.keyEpoch = newest.keyEpoch := by
  intro epoch member
  have before := (invariant.precedes_last ends member).keyEpoch
  have lastMember : last ∈ state.epochs := List.mem_of_getLast? ends
  cases follows with
  | cutover reason _ _ _ keyEpoch =>
    have apart := fresh (by simp [reason]) epoch member
    exact ⟨fun same => absurd same apart, fun same => by omega⟩
  | grant _ _ _ _ keyEpoch sameKey =>
    rw [sameKey, keyEpoch]
    exact invariant.commitments epoch member last lastMember
  | rotation reason _ _ keyEpoch =>
    have apart := fresh (by simp [reason]) epoch member
    exact ⟨fun same => absurd same apart, fun same => by omega⟩

/-- Appending a record that continues the chain of epochs. -/
theorem append {newest : EpochRef} {keyCommitmentS : Option Digest}
    (invariant : EpochsInvariant state) (room : state.epochs.length < maxChainLen)
    (known : newest.headIndex < state.headVersion)
    (starts : state.epochs = [] → StartsEpochs newest)
    (follows : ∀ last, state.epochs.getLast? = some last →
      EpochFollows (· + 1) state.steps last newest ∧ (newest.reason ≠ .grant →
        ∀ epoch ∈ state.epochs, epoch.keyCommitmentKe ≠ newest.keyCommitmentKe)) :
    EpochsInvariant { state with epochs := state.epochs ++ [newest], keyCommitmentS } := by
  have commitments : ∀ epoch ∈ state.epochs,
      epoch.keyCommitmentKe = newest.keyCommitmentKe ↔ epoch.keyEpoch = newest.keyEpoch := by
    intro epoch member
    cases ends : state.epochs.getLast? with
    | none =>
      rw [List.getLast?_eq_none_iff.mp ends] at member
      cases member
    | some last =>
      obtain ⟨follows, fresh⟩ := follows last ends
      exact invariant.commitments_newest ends follows fresh epoch member
  refine ⟨?_, ?_, ?_, ?_, ?_, ?_⟩
  · intro first heads
    cases epochs : state.epochs with
    | nil =>
      obtain rfl : newest = first := by simpa [epochs] using heads
      exact starts epochs
    | cons oldest rest =>
      refine invariant.starts first ?_
      simpa [epochs] using heads
  · refine List.isChain_append.mpr ⟨invariant.follows, .singleton newest, ?_⟩
    intro last ends other same
    obtain rfl : newest = other := by simpa using same
    exact (follows last ends).1
  · intro epoch member
    obtain old | new := List.mem_append.mp member
    · exact invariant.known epoch old
    · exact List.mem_singleton.mp new ▸ known
  · intro last ends
    obtain rfl : newest = last := by simpa using ends
    rw [List.length_append, List.length_singleton]
    cases ends : state.epochs.getLast? with
    | none =>
      rw [(starts (List.getLast?_eq_none_iff.mp ends)).keyEpoch]
      exact Nat.le_add_left 1 _
    | some last =>
      have counted := invariant.counted last ends
      cases (follows last ends).1 <;> omega
  · intro first firstMember second secondMember
    obtain old | new := List.mem_append.mp firstMember <;>
      obtain oldToo | newToo := List.mem_append.mp secondMember
    · exact invariant.commitments first old second oldToo
    · rw [List.mem_singleton.mp newToo]
      exact commitments first old
    · rw [List.mem_singleton.mp new, eq_comm, commitments second oldToo, eq_comm]
    · rw [List.mem_singleton.mp new, List.mem_singleton.mp newToo]
      simp
  · rw [List.length_append, List.length_singleton]
    exact room

/-- More membership records leave the epochs in order. -/
theorem grown (invariant : EpochsInvariant state) (grown : Grown state next)
    (same : SameEpochs state next) : EpochsInvariant next := by
  refine ⟨?_, ?_, ?_, ?_, ?_, ?_⟩ <;> rw [same.epochs]
  · exact invariant.starts
  · refine List.IsChain.imp_of_mem_imp (fun previous newest _ member follows => ?_)
      invariant.follows
    exact follows.congr (grown.getElem?_steps (invariant.known newest member))
  · exact fun epoch member => (invariant.known epoch member).trans_le grown.headVersion
  · exact invariant.counted
  · exact invariant.commitments
  · exact invariant.short

end EpochsInvariant

theorem EpochStep.invariant {record : SignedRecord} {body : EpochBody}
    (step : EpochStep crypto state record body next) (room : state.epochs.length < maxChainLen)
    (invariant : EpochsInvariant state) : EpochsInvariant next := by
  cases step with
  | repeated => exact invariant
  | accepted _ head _ sequenced =>
    refine invariant.append room (headIndexOf_lt head) (fun nothing => ?_) fun last ends => ?_
    · cases sequenced with
      | first _ reason keyEpoch linked start => exact ⟨reason, keyEpoch, linked, start⟩
      | later ends => rw [nothing] at ends; cases ends
    · cases sequenced with
      | first nothing => rw [nothing] at ends; cases ends
      | later ends' _ follows fresh =>
        obtain rfl := Option.some.inj (ends.symm.trans ends')
        exact ⟨invariant.follows_of_sequenced ends follows, fresh⟩

theorem epochsInvariant_empty (vaultId : Uuid) : EpochsInvariant (.empty vaultId) :=
  ⟨fun _ first => (nomatch first), .nil, fun _ member => (nomatch member),
    fun _ last => (nomatch last), fun _ member => (nomatch member), Nat.zero_le _⟩

theorem Run.epochsInvariant (run : Run crypto (.empty vaultId) state) : EpochsInvariant state := by
  refine run.preserves (fun before after accepts invariant => ?_) (epochsInvariant_empty vaultId)
  cases accepts with
  | membership _ _ step => exact invariant.grown step.grown step.sameEpochs
  | epoch room _ step => exact step.invariant room invariant

/-! ### The states a call returns -/

/-- The reason of the epoch record that installs a membership record. -/
def Action.installedBy : Action → Reason
  | .add => .grant
  | .revoke => .cutover

/-- Whether an epoch record installs a membership record: a cutover or a grant does. -/
def Reason.installs : Reason → Bool
  | .cutover => true
  | .grant => true
  | _ => false

/-- What holds of a chain that is not empty, whoever signed what and in whatever batches its
records came. -/
structure WellFormedChain (state : VerifiedState) : Prop where
  distinct : DistinctDevices state.members
  /-- At every version someone is authorized, and at most `maxMembers` are. -/
  populated : ∀ version, 1 ≤ version → version ≤ state.headVersion → Populated state version
  /-- There is one genesis epoch record and it names version 1. -/
  genesis : (state.epochs.filter fun epoch => epoch.reason = .genesis).map EpochRef.headIndex = [0]
  /-- Every later version is named by exactly one cutover or grant, the one its action wants. -/
  installed : ∀ version step, 2 ≤ version → state.stepAt version = some step →
    (state.epochs.filter fun epoch =>
      epoch.reason.installs && epoch.headIndex + 1 = version).map EpochRef.reason =
        [step.action.installedBy]
  newest : ∃ last, state.epochs.getLast? = some last ∧ last.headIndex + 1 = state.headVersion
  firstEpoch : ∃ first, state.epochs.head? = some first ∧ first.keyEpoch = 1 ∧
    first.prevEpochId = none
  /-- Each epoch record names the one before it; a grant keeps the key epoch, a cutover and a
  rotation raise it by one. -/
  chained : state.epochs.IsChain fun previous next => next.prevEpochId = some previous.id ∧
    (next.reason = .grant ∧ next.keyEpoch = previous.keyEpoch ∨
      (next.reason = .cutover ∨ next.reason = .rotation) ∧
        next.keyEpoch = previous.keyEpoch + 1)
  /-- Commitments to the epoch key are equal exactly inside one key epoch. -/
  commitments : ∀ first ∈ state.epochs, ∀ second ∈ state.epochs,
    first.keyCommitmentKe = second.keyCommitmentKe ↔ first.keyEpoch = second.keyEpoch

theorem EpochFollows.raises (follows : EpochFollows (· + 1) steps previous newest) :
    Tally.Raises EpochRef.headIndex (fun epoch => epoch.reason.installs) previous newest := by
  cases follows with
  | cutover reason _ head => simp [Tally.Raises, reason, Reason.installs, head]
  | grant reason _ head => simp [Tally.Raises, reason, Reason.installs, head]
  | rotation reason _ head => simp [Tally.Raises, reason, Reason.installs, head]

theorem EpochFollows.reason_ne_genesis (follows : EpochFollows (· + 1) steps previous newest) :
    newest.reason ≠ .genesis := by
  cases follows <;> simp [*]

theorem EpochFollows.reason_of_installs (follows : EpochFollows (· + 1) steps previous newest)
    (installs : newest.reason.installs = true) {step : StepRef}
    (held : steps[newest.headIndex]? = some step) : newest.reason = step.action.installedBy := by
  cases follows with
  | cutover reason _ _ action =>
    rw [held, Option.map_some] at action
    rw [reason, Option.some.inj action]
    rfl
  | grant reason _ _ action =>
    rw [held, Option.map_some] at action
    rw [reason, Option.some.inj action]
    rfl
  | rotation reason => simp [reason, Reason.installs] at installs

theorem EpochsInvariant.cons (invariant : EpochsInvariant state) {first : EpochRef}
    {rest : List EpochRef} (epochs : state.epochs = first :: rest) :
    StartsEpochs first ∧ (first :: rest).IsChain (EpochFollows (· + 1) state.steps) :=
  ⟨invariant.starts first (by simp [epochs]), epochs ▸ invariant.follows⟩

theorem exists_follows {Entry : Type} {Follows : Entry → Entry → Prop} {first : Entry}
    {rest : List Entry} (chain : (first :: rest).IsChain Follows) :
    ∀ entry ∈ rest, ∃ previous, Follows previous entry := by
  induction rest generalizing first with
  | nil => exact fun _ member => (nomatch member)
  | cons second rest inductionHypothesis =>
    obtain ⟨follows, chain⟩ := List.isChain_cons_cons.mp chain
    intro entry member
    obtain rfl | later := List.mem_cons.mp member
    · exact ⟨first, follows⟩
    · exact inductionHypothesis chain entry later

theorem Reachable.headIndex_newest (reachable : Reachable crypto vaultId state) {last : EpochRef}
    (newest : state.epochs.getLast? = some last) : last.headIndex + 1 = state.headVersion := by
  have known := reachable.run.epochsInvariant.known last (List.mem_of_getLast? newest)
  have nonempty : state.steps ≠ [] := List.ne_nil_of_length_pos (Nat.zero_lt_of_lt known)
  obtain ⟨covering, ends, covered⟩ := reachable.coupled nonempty
  obtain rfl := Option.some.inj (newest.symm.trans ends)
  exact le_antisymm known covered

/-- Every chain a vault reaches, unless it is empty, is well formed. -/
theorem reachable_wellFormedChain (reachable : Reachable crypto vaultId state)
    (nonempty : state.steps ≠ []) : WellFormedChain state := by
  have members := reachable.run.membershipInvariant
  have invariant := reachable.run.epochsInvariant
  obtain ⟨last, ends, -⟩ := reachable.coupled nonempty
  have reached : last.headIndex + 1 = state.headVersion := reachable.headIndex_newest ends
  obtain ⟨first, rest, epochs⟩ : ∃ first rest, state.epochs = first :: rest := by
    refine List.exists_cons_of_ne_nil fun nothing => ?_
    rw [nothing] at ends
    cases ends
  obtain ⟨starts, chain⟩ := invariant.cons epochs
  have laterReason : ∀ epoch ∈ rest, epoch.reason ≠ .genesis := by
    intro epoch member
    obtain ⟨previous, follows⟩ := exists_follows chain epoch member
    exact follows.reason_ne_genesis
  refine ⟨members.distinct, members.populated, ?_, ?_, ⟨last, ends, reached⟩,
    ⟨first, by simp [epochs], starts.keyEpoch, starts.linked⟩, ?_, invariant.commitments⟩
  · rw [epochs, List.filter_cons_of_pos (by simpa using starts.reason),
      List.filter_eq_nil_iff.mpr fun epoch member => by simpa using laterReason epoch member]
    simp [starts.head]
  · intro version step late held
    obtain ⟨index, rfl⟩ : ∃ index, version = index + 1 := ⟨version - 1, by omega⟩
    have inside : index < state.headVersion := (List.getElem?_eq_some_iff.mp held).1
    obtain ⟨entry, only⟩ := Tally.filter_eq_singleton (chain.imp fun _ _ => EpochFollows.raises)
      (epochs ▸ ends) (show first.headIndex < index by rw [starts.head]; omega)
      (show index ≤ last.headIndex by omega)
    have found : entry ∈ rest ∧ entry.reason.installs = true ∧ entry.headIndex = index := by
      have member : entry ∈ [entry] := List.mem_singleton_self entry
      rw [← only] at member
      simpa using member
    obtain ⟨member, installs, rfl⟩ := found
    obtain ⟨previous, follows⟩ := exists_follows chain entry member
    have skipped :
        ¬ (first.reason.installs && first.headIndex + 1 = entry.headIndex + 1) = true := by
      simp [starts.reason, Reason.installs]
    rw [epochs, List.filter_cons, if_neg skipped]
    simp only [Nat.add_right_cancel_iff, only, List.map_singleton]
    rw [follows.reason_of_installs installs held]
  · refine invariant.follows.imp fun previous newest follows => ⟨follows.linked, ?_⟩
    cases follows with
    | cutover reason _ _ _ keyEpoch => exact .inr ⟨.inl reason, keyEpoch⟩
    | grant reason _ _ _ keyEpoch => exact .inl ⟨reason, keyEpoch⟩
    | rotation reason _ _ keyEpoch => exact .inr ⟨.inr reason, keyEpoch⟩

theorem wellFormedChain_founder : WellFormedChain (sampleFounder.chain 2) :=
  reachable_wellFormedChain (.of_verifyChain (verifyChain_sample (by decide) (by decide)))
    (List.cons_ne_nil _ _)

end Dohflow.SyncCore
