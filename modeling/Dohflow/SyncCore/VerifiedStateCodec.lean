/-
This file models how a verified state is persisted, and proves the encodings of the
membership chain canonical.

The parser of a persisted state holds each list to a least item size and the whole
to a consistency predicate. Every state the chain verifier reaches passes both. An
epoch record without a predecessor is one byte shorter than the least size its list
is held to; the tag secret's commitment behind the list makes up for it.
-/

import Dohflow.SyncCore.ChainInvariant

namespace Dohflow.SyncCore

open ByteReader Fallible

def stateLabel : String := "dohflow/sync-verified-state/v1"

/-- The parser refuses an item that is not within its chain. -/
def VerifiedState.Consistent (state : VerifiedState) : Prop :=
  (∀ member ∈ state.members,
    (1 ≤ member.addedAtVersion ∧ member.addedAtVersion ≤ state.steps.length) ∧
    ∀ version ∈ member.revokedAtVersion,
      member.addedAtVersion < version ∧ version ≤ state.steps.length) ∧
  (∀ epoch ∈ state.epochs, epoch.headIndex < state.steps.length) ∧
  (state.keyCommitmentS.isSome = !state.epochs.isEmpty)

instance (state : VerifiedState) : Decidable state.Consistent :=
  inferInstanceAs (Decidable (_ ∧ _ ∧ _))

def StepRef.write (step : StepRef) : List UInt8 :=
  Writer.fixed step.id ++ Writer.u8 step.action.byte

def StepRef.reader : Reader StepRef := do
  let id ← Reader.fixed 32
  let action ← Action.ofByte (← Reader.u8)
  return { id, action }

/-- A version or an index as the `u64` it is. -/
def writeCount (count : Nat) : List UInt8 := bigEndian 8 count

def readCount : Reader Nat := do
  let field ← Reader.u64
  return field.toNat

def Member.write (member : Member) : List UInt8 :=
  Writer.fixed member.deviceId ++ (Writer.fixed member.fingerprint.bytes ++
    (Writer.fixed member.ed25519Pk ++ (Writer.fixed member.kemPublicKey ++
    (writeCount member.addedAtVersion ++ Writer.opt writeCount member.revokedAtVersion))))

def Member.reader : Reader Member := do
  let deviceId ← Reader.fixed 16
  let fingerprint ← Reader.fixed 32
  let ed25519Pk ← Reader.fixed 32
  let kemPublicKey ← Reader.fixed 32
  let addedAtVersion ← readCount
  let revokedAtVersion ← Reader.opt readCount
  return { deviceId, fingerprint := ⟨fingerprint⟩, ed25519Pk, kemPublicKey, addedAtVersion
           revokedAtVersion }

def EpochRef.write (epoch : EpochRef) : List UInt8 :=
  Writer.fixed epoch.id ++ (Writer.opt Writer.fixed epoch.prevEpochId ++
    (writeCount epoch.keyEpoch ++ (Writer.u8 epoch.reason.byte ++
    (writeCount epoch.headIndex ++ Writer.fixed epoch.keyCommitmentKe))))

def EpochRef.reader : Reader EpochRef := do
  let id ← Reader.fixed 32
  let prevEpochId ← Reader.opt (Reader.fixed 32)
  let keyEpoch ← readCount
  let reason ← Reason.ofByte (← Reader.u8)
  let headIndex ← readCount
  let keyCommitmentKe ← Reader.fixed 32
  return { id, prevEpochId, keyEpoch, reason, headIndex, keyCommitmentKe }

namespace VerifiedState

/-- The state's canonical bytes, for persistence. -/
def encode (state : VerifiedState) : Except WireError (List UInt8) := do
  let steps ← Writer.list maxChainLen state.steps StepRef.write
  let members ← Writer.list maxChainLen state.members Member.write
  let epochs ← Writer.list maxChainLen state.epochs EpochRef.write
  return Writer.withLabel stateLabel ++ (Writer.fixed state.vaultId ++ (steps ++ (members ++
    (epochs ++ Writer.opt Writer.fixed state.keyCommitmentS))))

def reader : Reader VerifiedState := do
  Reader.label stateLabel
  let vaultId ← Reader.fixed 16
  let steps ← Reader.list maxChainLen 33 StepRef.reader
  let members ← Reader.list maxChainLen 105 Member.reader
  let epochs ← Reader.list maxChainLen 83 EpochRef.reader
  let keyCommitmentS ← Reader.opt (Reader.fixed 32)
  Reader.finish
  let state : VerifiedState := { vaultId, steps, members, epochs, keyCommitmentS }
  require state.Consistent .objectFieldsMismatch
  return state

/-- Parse a persisted state. -/
def decode (bytes : List UInt8) : Except WireError VerifiedState := Reader.decode reader bytes

end VerifiedState

/-! ### What the parser takes is what the encoder gives -/

theorem reads_count {count : Nat} (small : count < 2 ^ 64) :
    Reads readCount (writeCount count) count := by
  have number : (UInt64.ofNat count).toNat = count := UInt64.toNat_ofNat_of_lt' small
  have field := reads_u64 (UInt64.ofNat count)
  rw [Writer.u64, number] at field
  refine field.bind_nil ?_
  rw [number]
  exact reads_pure count

theorem readsOnly_count : ReadsOnly readCount writeCount := by
  intro input rest count read
  obtain ⟨field, middle, taken, made⟩ := run_bind_eq_ok.mp read
  obtain ⟨rfl, rfl⟩ := run_pure_eq_ok.mp made
  exact readsOnly_u64 taken

theorem reads_step (step : StepRef) : Reads StepRef.reader step.write step := by
  refine (reads_fixed _).bind ((reads_u8 _).bind_nil ?_)
  exact Reads.ok_bind (ofByte_action _) (reads_pure step)

theorem readsOnly_step : ReadsOnly StepRef.reader StepRef.write := by
  intro input rest step read
  obtain ⟨id, _, atId, read⟩ := ReadsOnly.of_bind (readsOnly_fixed 32) read
  obtain ⟨byte, _, atAction, read⟩ := ReadsOnly.of_bind readsOnly_u8 read
  obtain ⟨action, known, read⟩ := run_liftM_bind_eq_ok.mp read
  obtain ⟨rfl, rfl⟩ := run_pure_eq_ok.mp read
  rw [atId, atAction, ← byte_of_action known, StepRef.write, List.append_assoc]

/-- The member's versions are numbers of 64 bits. -/
structure Member.Small (member : Member) : Prop where
  added : member.addedAtVersion < 2 ^ 64
  revoked : ∀ version ∈ member.revokedAtVersion, version < 2 ^ 64

theorem reads_member {member : Member} (small : member.Small) :
    Reads Member.reader member.write member := by
  refine (reads_fixed _).bind ((reads_fixed _).bind ?_)
  refine (reads_fixed _).bind ((reads_fixed _).bind ?_)
  refine (reads_count small.added).bind ?_
  exact (reads_opt _ fun version member => reads_count (small.revoked version member)).bind_nil
    (reads_pure member)

theorem readsOnly_member : ReadsOnly Member.reader Member.write := by
  intro input rest member read
  obtain ⟨deviceId, _, atDevice, read⟩ := ReadsOnly.of_bind (readsOnly_fixed 16) read
  obtain ⟨fingerprint, _, atFingerprint, read⟩ := ReadsOnly.of_bind (readsOnly_fixed 32) read
  obtain ⟨ed25519Pk, _, atKey, read⟩ := ReadsOnly.of_bind (readsOnly_fixed 32) read
  obtain ⟨kemPublicKey, _, atKemKey, read⟩ := ReadsOnly.of_bind (readsOnly_fixed 32) read
  obtain ⟨added, _, atAdded, read⟩ := ReadsOnly.of_bind readsOnly_count read
  obtain ⟨revoked, _, atRevoked, read⟩ :=
    ReadsOnly.of_bind (readsOnly_opt readsOnly_count) read
  obtain ⟨rfl, rfl⟩ := run_pure_eq_ok.mp read
  rw [atDevice, atFingerprint, atKey, atKemKey, atAdded, atRevoked, Member.write]
  simp only [List.append_assoc]

theorem member_write_length (member : Member) : 105 ≤ member.write.length := by
  simp only [Member.write, writeCount, List.length_append, length_fixed, bigEndian_length]
  omega

theorem reads_epoch {epoch : EpochRef} (keyEpoch : epoch.keyEpoch < 2 ^ 64)
    (headIndex : epoch.headIndex < 2 ^ 64) : Reads EpochRef.reader epoch.write epoch := by
  refine (reads_fixed _).bind ((reads_opt _ fun _ _ => reads_fixed _).bind ?_)
  refine (reads_count keyEpoch).bind ((reads_u8 _).bind ?_)
  refine Reads.ok_bind (ofByte_reason _) ((reads_count headIndex).bind ?_)
  exact (reads_fixed _).bind_nil (reads_pure epoch)

theorem readsOnly_epoch : ReadsOnly EpochRef.reader EpochRef.write := by
  intro input rest epoch read
  obtain ⟨id, _, atId, read⟩ := ReadsOnly.of_bind (readsOnly_fixed 32) read
  obtain ⟨prevId, _, atPrev, read⟩ :=
    ReadsOnly.of_bind (readsOnly_opt (readsOnly_fixed 32)) read
  obtain ⟨keyEpoch, _, atEpoch, read⟩ := ReadsOnly.of_bind readsOnly_count read
  obtain ⟨byte, _, atReason, read⟩ := ReadsOnly.of_bind readsOnly_u8 read
  obtain ⟨reason, known, read⟩ := run_liftM_bind_eq_ok.mp read
  obtain ⟨headIndex, _, atHead, read⟩ := ReadsOnly.of_bind readsOnly_count read
  obtain ⟨keyCommitmentKe, _, atKey, read⟩ := ReadsOnly.of_bind (readsOnly_fixed 32) read
  obtain ⟨rfl, rfl⟩ := run_pure_eq_ok.mp read
  rw [atId, atPrev, atEpoch, atReason, ← byte_of_reason known, atHead, atKey, EpochRef.write]
  simp only [List.append_assoc]

theorem epoch_write_length (epoch : EpochRef) : epoch.write.length =
    if epoch.prevEpochId.isSome then 114 else 82 := by
  simp only [EpochRef.write, writeCount, Writer.u8, List.length_append, length_fixed,
    bigEndian_length, List.length_singleton]
  cases epoch.prevEpochId with
  | none => rfl
  | some id =>
    show 32 + ((Writer.fixed id).length + 1 + _) = _
    rw [length_fixed]
    rfl

theorem reads_label_state : Reads (Reader.label stateLabel) (Writer.withLabel stateLabel) () :=
  reads_label (by decide) (by decide)

namespace VerifiedState

variable {state : VerifiedState} {bytes : List UInt8}

/-- The state's fields in order. -/
def spelled (state : VerifiedState) : List UInt8 :=
  Writer.withLabel stateLabel ++ (Writer.fixed state.vaultId ++
    ((bigEndian 4 state.steps.length ++ state.steps.flatMap StepRef.write) ++
    ((bigEndian 4 state.members.length ++ state.members.flatMap Member.write) ++
    ((bigEndian 4 state.epochs.length ++ state.epochs.flatMap EpochRef.write) ++
    Writer.opt Writer.fixed state.keyCommitmentS))))

/-- No list is over its bound. -/
structure Short (state : VerifiedState) : Prop where
  steps : state.steps.length ≤ maxChainLen
  members : state.members.length ≤ maxChainLen
  epochs : state.epochs.length ≤ maxChainLen

theorem encode_eq_ok : state.encode = .ok bytes ↔ state.Short ∧ bytes = state.spelled := by
  have bound : maxChainLen = 4096 := rfl
  simp only [encode, Writer.list, bind_assoc, pure_bind, ensure_bind_eq_ok]
  constructor
  · rintro ⟨steps, -, members, -, epochs, -, written⟩
    exact ⟨⟨steps, members, epochs⟩, (Except.ok.inj written).symm⟩
  · rintro ⟨short, rfl⟩
    have steps := short.steps
    have members := short.members
    have epochs := short.epochs
    exact ⟨steps, by omega, members, by omega, epochs, by omega, rfl⟩

theorem encode_of_decode (decoded : decode bytes = .ok state) : state.encode = .ok bytes := by
  obtain ⟨rest, read⟩ := decode_eq_ok decoded
  obtain ⟨_, _, atLabel, read⟩ := ReadsOnly.of_bind (readsOnly_label _) read
  obtain ⟨vaultId, _, atVault, read⟩ := ReadsOnly.of_bind (readsOnly_fixed 16) read
  obtain ⟨steps, _, stepsRead, read⟩ := run_bind_eq_ok.mp read
  obtain ⟨fewSteps, -, atSteps⟩ := run_list_eq_ok readsOnly_step stepsRead
  obtain ⟨members, _, membersRead, read⟩ := run_bind_eq_ok.mp read
  obtain ⟨fewMembers, -, atMembers⟩ := run_list_eq_ok readsOnly_member membersRead
  obtain ⟨epochs, _, epochsRead, read⟩ := run_bind_eq_ok.mp read
  obtain ⟨fewEpochs, -, atEpochs⟩ := run_list_eq_ok readsOnly_epoch epochsRead
  obtain ⟨keyCommitmentS, _, atTag, read⟩ :=
    ReadsOnly.of_bind (readsOnly_opt (readsOnly_fixed 32)) read
  obtain ⟨_, _, finished, read⟩ := run_bind_eq_ok.mp read
  obtain ⟨atEnd, rfl⟩ := run_finish_eq_ok.mp finished
  obtain ⟨-, read⟩ := run_require_bind_eq_ok.mp read
  obtain ⟨rfl, -⟩ := run_pure_eq_ok.mp read
  refine encode_eq_ok.mpr ⟨⟨fewSteps, fewMembers, fewEpochs⟩, ?_⟩
  rw [atLabel, atVault, atSteps, atMembers, atEpochs, atTag, atEnd, spelled]
  simp only [List.append_assoc, List.append_nil]

/-- What a state has to be for the parser to take it back. -/
structure Persistable (state : VerifiedState) : Prop where
  short : state.Short
  consistent : state.Consistent
  /-- Every epoch record but the first names the one before it. -/
  linked : ∀ epoch ∈ state.epochs.tail, epoch.prevEpochId.isSome
  keyEpochs : ∀ epoch ∈ state.epochs, epoch.keyEpoch < 2 ^ 64

theorem Persistable.epochs_wide (persistable : state.Persistable) :
    state.epochs.length * 83 ≤ (state.epochs.flatMap EpochRef.write).length +
      (Writer.opt Writer.fixed state.keyCommitmentS).length := by
  cases epochs : state.epochs with
  | nil => exact Nat.zero_le _
  | cons first rest =>
    have linked := persistable.linked
    have held := persistable.consistent.2.2
    rw [epochs] at linked held
    obtain ⟨commitment, present⟩ := Option.isSome_iff_exists.mp held
    have later : rest.length * 114 ≤ (rest.flatMap EpochRef.write).length := by
      refine length_flatMap_ge rest fun epoch member => ?_
      rw [epoch_write_length, if_pos (linked epoch member)]
    have atLeast : 82 ≤ first.write.length := by
      rw [epoch_write_length]
      split <;> omega
    have commitmentLength : (Writer.opt Writer.fixed state.keyCommitmentS).length = 33 := by
      rw [present, Writer.opt, List.length_cons, length_fixed]
    rw [List.length_cons, List.flatMap_cons, List.length_append, commitmentLength]
    omega

theorem Persistable.decode_spelled (persistable : state.Persistable) :
    decode state.spelled = .ok state := by
  have bound : maxChainLen = 4096 := rfl
  have fewSteps := persistable.short.steps
  have fewMembers := persistable.short.members
  have fewEpochs := persistable.short.epochs
  have memberSmall : ∀ member ∈ state.members, member.Small := by
    intro member inside
    obtain ⟨added, revoked⟩ := persistable.consistent.1 member inside
    refine ⟨by omega, fun version stamp => ?_⟩
    have within := revoked version stamp
    omega
  have epochReads : ∀ epoch ∈ state.epochs, Reads EpochRef.reader epoch.write epoch := by
    intro epoch member
    have head := persistable.consistent.2.1 epoch member
    exact reads_epoch (persistable.keyEpochs epoch member) (by omega)
  refine decode_of_readsAll (reads_label_state.bind_readsAll ((reads_fixed _).bind_readsAll ?_))
  refine (reads_list _ fewSteps (by omega) (fun step _ => ?_)
    fun step _ => reads_step step).bind_readsAll ?_
  · rw [StepRef.write, List.length_append, length_fixed]
    rfl
  refine (reads_list _ fewMembers (by omega) (fun member _ => member_write_length member)
    fun member inside => reads_member (memberSmall member inside)).bind_readsAll ?_
  refine readsAll_list_bind _ fewEpochs (by omega) persistable.epochs_wide epochReads ?_
  rw [← List.append_nil (Writer.opt _ _)]
  refine (reads_opt _ fun _ _ => reads_fixed _).bind_readsAll ?_
  exact readsAll_finish_bind
    (ReadsAll.require_bind persistable.consistent (reads_pure state).readsAll)

end VerifiedState

/-! ### Every state the verifier reaches may be persisted -/

variable {crypto : Crypto} {state next : VerifiedState} {vaultId : Uuid}

/-- How many records and members a chain holds, and when it has a tag secret. -/
structure CountsInvariant (state : VerifiedState) : Prop where
  steps : state.steps.length ≤ maxChainLen
  members : state.members.length ≤ state.steps.length
  commitment : state.keyCommitmentS.isSome = !state.epochs.isEmpty

theorem countsInvariant_empty (vaultId : Uuid) : CountsInvariant (.empty vaultId) :=
  ⟨Nat.zero_le _, le_rfl, rfl⟩

theorem MembershipStep.counts {record : SignedRecord} {body : MembershipBody}
    (step : MembershipStep crypto state record body next)
    (room : state.steps.length < maxChainLen) (invariant : CountsInvariant state) :
    CountsInvariant next := by
  have members := invariant.members
  have grow (added : StepRef) : (state.steps ++ [added]).length = state.steps.length + 1 :=
    List.length_append
  have join (member : Member) : (state.members ++ [member]).length = state.members.length + 1 :=
    List.length_append
  cases step with
  | repeated => exact invariant
  | genesis =>
    refine ⟨?_, ?_, invariant.commitment⟩
    · rw [grow]
      exact room
    · rw [grow, join]
      exact Nat.succ_le_succ members
  | add =>
    refine ⟨?_, ?_, invariant.commitment⟩
    · rw [grow]
      exact room
    · rw [grow, join]
      exact Nat.succ_le_succ members
  | revoke =>
    have devices : (revokeFirst (body.fingerprint crypto) body.version.toNat state.members).map
        Member.deviceId = state.members.map Member.deviceId := revokeFirst_map (fun _ => rfl) _
    have same := congrArg List.length devices
    rw [List.length_map, List.length_map] at same
    refine ⟨?_, ?_, invariant.commitment⟩
    · rw [grow]
      exact room
    · rw [grow, same]
      exact members.trans (Nat.le_succ _)

theorem EpochStep.counts {record : SignedRecord} {body : EpochBody}
    (step : EpochStep crypto state record body next) (invariant : CountsInvariant state) :
    CountsInvariant next := by
  cases step with
  | repeated => exact invariant
  | accepted _ _ _ sequenced =>
    refine ⟨invariant.steps, invariant.members, ?_⟩
    have filled (newest : EpochRef) : (!(state.epochs ++ [newest]).isEmpty) = true := by simp
    rw [filled]
    show (if body.reason = .genesis then some body.keyCommitmentS
      else state.keyCommitmentS).isSome = true
    by_cases genesis : body.reason = .genesis
    · rw [if_pos genesis]
      rfl
    · rw [if_neg genesis]
      cases sequenced with
      | first _ reason => exact absurd reason genesis
      | later _ sameS =>
        rw [sameS]
        rfl

theorem Run.countsInvariant (run : Run crypto (.empty vaultId) state) : CountsInvariant state := by
  refine run.preserves (fun before after accepts invariant => ?_) (countsInvariant_empty vaultId)
  cases accepts with
  | membership room _ step => exact step.counts room invariant
  | epoch _ _ step => exact step.counts invariant

theorem Reachable.persistable (reachable : Reachable crypto vaultId state) :
    state.Persistable := by
  have counts := reachable.run.countsInvariant
  have membership := reachable.run.membershipInvariant
  have epochs := reachable.run.epochsInvariant
  refine ⟨⟨counts.steps, counts.members.trans counts.steps, epochs.short⟩, ⟨?_, ?_, ?_⟩, ?_, ?_⟩
  · intro member inside
    have stamped := membership.stamped member inside
    exact ⟨stamped.added, fun version revoked =>
      ⟨(stamped.revoked version revoked).1, stamped.le_headVersion revoked⟩⟩
  · exact epochs.known
  · exact counts.commitment
  · intro epoch member
    cases held : state.epochs with
    | nil =>
      rw [held] at member
      cases member
    | cons first rest =>
      rw [held] at member
      obtain ⟨previous, follows⟩ := exists_follows (epochs.cons held).2 epoch member
      rw [follows.linked]
      rfl
  · intro epoch member
    obtain ⟨last, ends⟩ := Option.isSome_iff_exists.mp
      (List.getLast?_isSome.mpr (List.ne_nil_of_mem member))
    have before := (epochs.precedes_last ends member).keyEpoch
    have counted := epochs.counted last ends
    have short : state.epochs.length ≤ 4096 := epochs.short
    omega

/-- The encodings of the membership chain are canonical: records and bodies have one spelling, and
every state the verifier reaches is read back from the one it is persisted as. -/
theorem chain_encodings_canonical (crypto : Crypto) :
    ((∀ body : MembershipBody, MembershipBody.decode body.encode = .ok body) ∧
      ∀ bytes body, MembershipBody.decode bytes = .ok body → body.encode = bytes) ∧
    ((∀ (body : EpochBody) bytes, body.encode = .ok bytes → EpochBody.decode bytes = .ok body) ∧
      ∀ bytes body, EpochBody.decode bytes = .ok body → body.encode = .ok bytes) ∧
    ((∀ (record : SignedRecord) (maxBody : Nat) bytes, record.body.length ≤ maxBody →
        record.encode = .ok bytes → SignedRecord.parse bytes maxBody = .ok record) ∧
      (∀ record : SignedRecord,
        (∃ bytes, record.encode = .ok bytes) ↔ record.body.length < 2 ^ 32) ∧
      ∀ bytes maxBody record, SignedRecord.parse bytes maxBody = .ok record →
        record.encode = .ok bytes) ∧
    ((∀ vaultId state, Reachable crypto vaultId state → ∃ bytes, state.encode = .ok bytes ∧
        VerifiedState.decode bytes = .ok state) ∧
      ∀ bytes state, VerifiedState.decode bytes = .ok state → state.encode = .ok bytes) := by
  refine ⟨⟨MembershipBody.decode_encode, fun _ _ => MembershipBody.encode_of_decode⟩,
    ⟨fun body bytes => body.decode_encode, fun _ _ => EpochBody.encode_of_decode⟩,
    ⟨fun record maxBody bytes fits => record.parse_encode fits, fun record =>
      SignedRecord.exists_encode_iff, fun _ _ _ parsed => (SignedRecord.encode_of_parse parsed).2⟩,
    ?_, fun _ _ => VerifiedState.encode_of_decode⟩
  · intro vaultId state reachable
    have persistable := reachable.persistable
    exact ⟨state.spelled, VerifiedState.encode_eq_ok.mpr ⟨persistable.short, rfl⟩,
      persistable.decode_spelled⟩

end Dohflow.SyncCore
