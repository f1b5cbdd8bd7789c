/-
This file says once what an accepted record can do to the verified state.

`MembershipStep` and `EpochStep` list the ways a record is accepted, each with
the checks it passed and the state it leaves. `applyMembership_eq_ok` and
`applyEpoch_eq_ok` say that the verifier accepts a record exactly when one of
them applies, so everything later is proved by cases on these relations and
never by unfolding the verifier. Neither relation mentions the index a record is
presented at: an index only names a refusal.
-/

import Dohflow.SyncCore.Membership

namespace Dohflow.SyncCore

open Fallible

variable {crypto : Crypto} {state next : VerifiedState}
variable {record : SignedRecord} {body : MembershipBody} {index : Nat} {bytes : List UInt8}
  {expected : List Member} {first second : SignedRecord} {recipients : List Recipient}
  {members : List Member} {vaultId other : Uuid}

/-! ### Opening a record -/

/-- The bytes are a membership record of this suite and this vault. -/
structure OpensMembership (vaultId : Uuid) (bytes : List UInt8) (record : SignedRecord)
    (body : MembershipBody) : Prop where
  parsed : SignedRecord.parse bytes maxMembershipBody = .ok record
  decoded : MembershipBody.decode record.body = .ok body
  suite : body.suiteId = suiteId ∧ body.kemId = kemId
  vault : body.vaultId = vaultId

/-- The bytes are an epoch record of this suite and this vault. -/
structure OpensEpoch (vaultId : Uuid) (bytes : List UInt8) (record : SignedRecord)
    (body : EpochBody) : Prop where
  parsed : SignedRecord.parse bytes maxEpochBody = .ok record
  decoded : EpochBody.decode record.body = .ok body
  suite : body.suiteId = suiteId ∧ body.kemId = kemId
  vault : body.vaultId = vaultId

theorem openMembership_eq_ok :
    openMembership state index bytes = .ok (record, body) ↔
      OpensMembership state.vaultId bytes record body := by
  simp only [openMembership, checkSuite, bind_eq_ok, ensure_eq_ok, mapError_eq_ok, pure,
    Except.pure, Except.ok.injEq, Prod.mk.injEq, exists_const]
  constructor
  · rintro ⟨_, parsed, _, decoded, suite, vault, rfl, rfl⟩
    exact ⟨parsed, decoded, suite, vault⟩
  · rintro ⟨parsed, decoded, suite, vault⟩
    exact ⟨record, parsed, body, decoded, suite, vault, rfl, rfl⟩

theorem openEpoch_eq_ok {body : EpochBody} :
    openEpoch state index bytes = .ok (record, body) ↔
      OpensEpoch state.vaultId bytes record body := by
  simp only [openEpoch, checkSuite, bind_eq_ok, ensure_eq_ok, mapError_eq_ok, pure,
    Except.pure, Except.ok.injEq, Prod.mk.injEq, exists_const]
  constructor
  · rintro ⟨_, parsed, _, decoded, suite, vault, rfl, rfl⟩
    exact ⟨parsed, decoded, suite, vault⟩
  · rintro ⟨parsed, decoded, suite, vault⟩
    exact ⟨record, parsed, body, decoded, suite, vault, rfl, rfl⟩

/-- Bytes open as at most one record. -/
theorem OpensMembership.unique {firstBody secondBody : MembershipBody}
    (opens : OpensMembership vaultId bytes first firstBody)
    (again : OpensMembership other bytes second secondBody) :
    first = second ∧ firstBody = secondBody := by
  obtain rfl := Except.ok.inj (opens.parsed.symm.trans again.parsed)
  exact ⟨rfl, Except.ok.inj (opens.decoded.symm.trans again.decoded)⟩

theorem OpensEpoch.unique {firstBody secondBody : EpochBody}
    (opens : OpensEpoch vaultId bytes first firstBody)
    (again : OpensEpoch other bytes second secondBody) :
    first = second ∧ firstBody = secondBody := by
  obtain rfl := Except.ok.inj (opens.parsed.symm.trans again.parsed)
  exact ⟨rfl, Except.ok.inj (opens.decoded.symm.trans again.decoded)⟩

/-! ### Membership records -/

/-- The signer is authorized at a version and its key, as the chain holds it, signed the record. -/
def SignedBy (crypto : Crypto) (state : VerifiedState) (fingerprint : Fingerprint) (version : Nat)
    (record : SignedRecord) : Prop :=
  ∃ signer, state.authorizedMember fingerprint version = some signer ∧
    ed25519VerifyStrict crypto signer.ed25519Pk record.body record.signature = true

/-- Nothing of the new device is in the chain yet. -/
structure NewDevice (crypto : Crypto) (state : VerifiedState) (body : MembershipBody) : Prop where
  fingerprint : ∀ member ∈ state.members, member.fingerprint ≠ body.fingerprint crypto
  deviceId : ∀ member ∈ state.members, member.deviceId ≠ body.deviceId
  ed25519Pk : ∀ member ∈ state.members, member.ed25519Pk ≠ body.ed25519Pk
  kemPublicKey : ∀ member ∈ state.members, member.kemPublicKey ≠ body.kemPublicKey

/-- A record after the first continues the chain from its newest record. -/
structure Continues (crypto : Crypto) (state : VerifiedState) (record : SignedRecord)
    (body : MembershipBody) : Prop where
  version : body.version.toNat = state.headVersion + 1
  linked : ∃ previous, state.steps.getLast? = some previous ∧ body.prevId = some previous.id
  signed : SignedBy crypto state body.signerFingerprint state.headVersion record

/-- The ways a membership record is accepted, and the state each leaves. -/
inductive MembershipStep (crypto : Crypto) (state : VerifiedState) (record : SignedRecord)
    (body : MembershipBody) : VerifiedState → Prop
  | repeated {accepted : StepRef} (found : state.stepAt body.version.toNat = some accepted)
      (same : accepted.id = record.id crypto) : MembershipStep crypto state record body state
  | genesis (first : state.steps = []) (genesis : body.isGenesis crypto)
      (acceptable : body.keysAcceptable crypto = true)
      (signed : ed25519VerifyStrict crypto body.ed25519Pk record.body record.signature = true) :
      MembershipStep crypto state record body { state with
        members := state.members ++ [body.newMember crypto]
        steps := state.steps ++ [⟨record.id crypto, .add⟩] }
  | add (continues : Continues crypto state record body) (action : body.action = .add)
      (acceptable : body.keysAcceptable crypto = true) (unused : NewDevice crypto state body)
      (room : state.authorized.length < maxMembers) :
      MembershipStep crypto state record body { state with
        members := state.members ++ [body.newMember crypto]
        steps := state.steps ++ [⟨record.id crypto, .add⟩] }
  | revoke {target : Member} (continues : Continues crypto state record body)
      (action : body.action = .revoke)
      (found : (state.members.find? fun member =>
        member.fingerprint = body.fingerprint crypto) = some target)
      (repeats : target.deviceId = body.deviceId ∧ target.ed25519Pk = body.ed25519Pk ∧
        target.kemPublicKey = body.kemPublicKey)
      (active : target.revokedAtVersion = none) (others : 1 < state.authorized.length) :
      MembershipStep crypto state record body { state with
        members := revokeFirst (body.fingerprint crypto) body.version.toNat state.members
        steps := state.steps ++ [⟨record.id crypto, .revoke⟩] }

theorem not_any_eq {Entry Key : Type} [DecidableEq Key] {entries : List Entry} {key : Entry → Key}
    {value : Key} :
    (¬ (entries.any fun entry => decide (key entry = value)) = true) ↔
      ∀ entry ∈ entries, key entry ≠ value := by
  simp

theorem addMember_eq_ok :
    addMember crypto state index body = .ok members ↔
      body.keysAcceptable crypto = true ∧ NewDevice crypto state body ∧
        state.authorized.length < maxMembers ∧
        members = state.members ++ [body.newMember crypto] := by
  simp only [addMember, ensure_bind_eq_ok, not_any_eq, pure, Except.pure, Except.ok.injEq]
  constructor
  · rintro ⟨acceptable, fingerprint, deviceId, keys, room, rfl⟩
    simp only [List.any_eq_true, Bool.or_eq_true, decide_eq_true_eq, not_exists, not_and,
      not_or] at keys
    exact ⟨acceptable, ⟨fingerprint, deviceId, fun member inside => (keys member inside).1,
      fun member inside => (keys member inside).2⟩, room, rfl⟩
  · rintro ⟨acceptable, unused, room, rfl⟩
    refine ⟨acceptable, unused.fingerprint, unused.deviceId, ?_, room, rfl⟩
    simp only [List.any_eq_true, Bool.or_eq_true, decide_eq_true_eq, not_exists, not_and, not_or]
    exact fun member inside => ⟨unused.ed25519Pk member inside, unused.kemPublicKey member inside⟩

theorem revokeMember_eq_ok :
    revokeMember crypto state index body = .ok members ↔
      ∃ target, (state.members.find? fun member =>
          member.fingerprint = body.fingerprint crypto) = some target ∧
        (target.deviceId = body.deviceId ∧ target.ed25519Pk = body.ed25519Pk ∧
          target.kemPublicKey = body.kemPublicKey) ∧
        target.revokedAtVersion = none ∧ 1 < state.authorized.length ∧
        members = revokeFirst (body.fingerprint crypto) body.version.toNat state.members := by
  rw [revokeMember]
  cases state.members.find? fun member => member.fingerprint = body.fingerprint crypto with
  | none => simp
  | some target =>
    simp only [ensure_bind_eq_ok, pure, Except.pure, Except.ok.injEq, Option.some.injEq,
      exists_eq_left']
    constructor
    · rintro ⟨repeats, active, others, rfl⟩
      exact ⟨repeats, active, others, rfl⟩
    · rintro ⟨repeats, active, others, rfl⟩
      exact ⟨repeats, active, others, rfl⟩

theorem stepAt_head : state.stepAt state.headVersion = state.steps.getLast? := by
  rw [List.getLast?_eq_getElem?, VerifiedState.headVersion]
  cases steps : state.steps with
  | nil => rfl
  | cons first rest => rw [List.length_cons, VerifiedState.stepAt, steps, Nat.add_sub_cancel]

theorem stepAt_head_succ : state.stepAt (state.headVersion + 1) = none :=
  List.getElem?_eq_none (Nat.le_refl _)

/-- A record that continues the chain has no accepted record in its place. -/
theorem Continues.unfound (continues : Continues crypto state record body) :
    state.stepAt body.version.toNat = none := by
  rw [continues.version, stepAt_head_succ]

theorem stepAt_of_empty (empty : state.steps = []) (version : Nat) :
    state.stepAt version = none := by
  cases version with
  | zero => rfl
  | succ index => rw [VerifiedState.stepAt, empty, List.getElem?_nil]

/-- A record accepted where another stands repeats it, and changes nothing. -/
theorem MembershipStep.repeats {accepted : StepRef}
    (step : MembershipStep crypto state record body next)
    (found : state.stepAt body.version.toNat = some accepted) :
    next = state ∧ accepted.id = record.id crypto := by
  cases step with
  | repeated held same =>
    obtain rfl := Option.some.inj (found.symm.trans held)
    exact ⟨rfl, same⟩
  | genesis first => rw [stepAt_of_empty first] at found; cases found
  | add continues => rw [continues.unfound] at found; cases found
  | revoke continues => rw [continues.unfound] at found; cases found

theorem acceptSuccessor_eq_ok {previous : StepRef} (last : state.steps.getLast? = some previous) :
    acceptSuccessor crypto state index record body previous = .ok next ↔
      Continues crypto state record body ∧ MembershipStep crypto state record body next := by
  simp only [acceptSuccessor, ensure_bind_eq_ok]
  constructor
  · rintro ⟨version, linked, accepted⟩
    cases authorized : state.authorizedMember body.signerFingerprint state.headVersion with
    | none => simp [authorized] at accepted
    | some signer =>
      simp only [authorized, ensure_bind_eq_ok] at accepted
      obtain ⟨signed, accepted⟩ := accepted
      have continues : Continues crypto state record body :=
        ⟨version, ⟨previous, last, linked⟩, signer, authorized, signed⟩
      refine ⟨continues, ?_⟩
      cases action : body.action with
      | add =>
        simp only [action, bind_eq_ok] at accepted
        obtain ⟨_, changed, left⟩ := accepted
        obtain ⟨acceptable, unused, room, rfl⟩ := addMember_eq_ok.mp changed
        obtain rfl := Except.ok.inj left
        exact .add continues action acceptable unused room
      | revoke =>
        simp only [action, bind_eq_ok] at accepted
        obtain ⟨_, changed, left⟩ := accepted
        obtain ⟨target, found, repeats, active, others, rfl⟩ := revokeMember_eq_ok.mp changed
        obtain rfl := Except.ok.inj left
        exact .revoke continues action found repeats active others
  · rintro ⟨continues, step⟩
    obtain ⟨version, ⟨_, last', linked⟩, signer, authorized, signed⟩ := continues
    obtain rfl := Option.some.inj (last.symm.trans last')
    refine ⟨version, linked, ?_⟩
    simp only [authorized, ensure_bind_eq_ok]
    refine ⟨signed, ?_⟩
    cases step with
    | repeated found _ => rw [version, stepAt_head_succ] at found; cases found
    | genesis first => rw [first] at last; cases last
    | add _ action acceptable unused room =>
      simp only [action, bind_eq_ok]
      exact ⟨_, addMember_eq_ok.mpr ⟨acceptable, unused, room, rfl⟩, rfl⟩
    | revoke _ action found repeats active others =>
      simp only [action, bind_eq_ok]
      exact ⟨_, revokeMember_eq_ok.mpr ⟨_, found, repeats, active, others, rfl⟩, rfl⟩

theorem acceptGenesis_eq_ok :
    acceptGenesis crypto state index record body = .ok next ↔
      body.isGenesis crypto ∧ body.keysAcceptable crypto = true ∧
        ed25519VerifyStrict crypto body.ed25519Pk record.body record.signature = true ∧
        next = { state with
          members := state.members ++ [body.newMember crypto]
          steps := state.steps ++ [⟨record.id crypto, .add⟩] } := by
  simp only [acceptGenesis, ensure_bind_eq_ok, pure, Except.pure, Except.ok.injEq]
  constructor
  · rintro ⟨genesis, acceptable, signed, rfl⟩
    exact ⟨genesis, acceptable, signed, rfl⟩
  · rintro ⟨genesis, acceptable, signed, rfl⟩
    exact ⟨genesis, acceptable, signed, rfl⟩

/-- The verifier accepts a membership record exactly when there is room for one, it opens, and one
of the ways to accept it applies. -/
theorem applyMembership_eq_ok :
    applyMembership crypto state index bytes = .ok next ↔
      state.steps.length < maxChainLen ∧ ∃ record body,
        OpensMembership state.vaultId bytes record body ∧
        MembershipStep crypto state record body next := by
  rw [applyMembership, ensure_bind_eq_ok]
  simp only [bind_eq_ok, Prod.exists, openMembership_eq_ok]
  refine and_congr_right fun _ => exists_congr fun record => exists_congr fun body =>
    and_congr_right fun _ => ?_
  cases found : state.stepAt body.version.toNat with
  | some accepted =>
    by_cases same : accepted.id = record.id crypto
    · simp only [if_pos same, pure, Except.pure, Except.ok.injEq]
      constructor
      · rintro rfl
        exact .repeated found same
      · exact fun step => (step.repeats found).1.symm
    · simp only [if_neg same, reduceCtorEq, false_iff]
      exact fun step => same (step.repeats found).2
  | none =>
    cases last : state.steps.getLast? with
    | none =>
      have first : state.steps = [] := List.getLast?_eq_none_iff.mp last
      simp only [acceptGenesis_eq_ok]
      constructor
      · rintro ⟨genesis, acceptable, signed, rfl⟩
        exact .genesis first genesis acceptable signed
      · intro step
        cases step with
        | repeated found' => rw [found] at found'; cases found'
        | genesis _ genesis acceptable signed => exact ⟨genesis, acceptable, signed, rfl⟩
        | add continues => obtain ⟨_, last', _⟩ := continues.linked; rw [last] at last'; cases last'
        | revoke continues =>
          obtain ⟨_, last', _⟩ := continues.linked; rw [last] at last'; cases last'
    | some previous =>
      simp only [acceptSuccessor_eq_ok last]
      constructor
      · exact And.right
      · intro step
        refine ⟨?_, step⟩
        cases step with
        | repeated found' => rw [found] at found'; cases found'
        | genesis first => rw [first] at last; cases last
        | add continues => exact continues
        | revoke continues => exact continues

/-! ### Epoch records -/

/-- How an epoch record follows the one before it, as far as the two of them decide it, where a
fresh key raises the key epoch by `raise`. -/
inductive EpochFollows (raise : Nat → Nat) (steps : List StepRef) (previous next : EpochRef) : Prop
  | cutover (reason : next.reason = .cutover) (linked : next.prevEpochId = some previous.id)
      (head : next.headIndex = previous.headIndex + 1)
      (action : steps[next.headIndex]?.map StepRef.action = some .revoke)
      (keyEpoch : next.keyEpoch = raise previous.keyEpoch)
  | grant (reason : next.reason = .grant) (linked : next.prevEpochId = some previous.id)
      (head : next.headIndex = previous.headIndex + 1)
      (action : steps[next.headIndex]?.map StepRef.action = some .add)
      (keyEpoch : next.keyEpoch = previous.keyEpoch)
      (sameKey : next.keyCommitmentKe = previous.keyCommitmentKe)
  | rotation (reason : next.reason = .rotation) (linked : next.prevEpochId = some previous.id)
      (head : next.headIndex = previous.headIndex)
      (keyEpoch : next.keyEpoch = raise previous.keyEpoch)

/-- The sequence and the reason table, over the record the state would keep. -/
inductive Sequenced (state : VerifiedState) (keyCommitmentS : Digest) (next : EpochRef) : Prop
  | first (nothing : state.epochs = []) (reason : next.reason = .genesis)
      (keyEpoch : next.keyEpoch = 1) (linked : next.prevEpochId = none) (head : next.headIndex = 0)
  | later {previous : EpochRef} (last : state.epochs.getLast? = some previous)
      (sameS : state.keyCommitmentS = some keyCommitmentS)
      (follows : EpochFollows nextKeyEpoch state.steps previous next)
      (fresh : next.reason ≠ .grant →
        ∀ epoch ∈ state.epochs, epoch.keyCommitmentKe ≠ next.keyCommitmentKe)

/-- How an epoch record names a member. -/
def Member.name (member : Member) : Uuid × Fingerprint := (member.deviceId, member.fingerprint)

/-- The recipients are the named devices, each once, with the one suite. -/
structure Addressed (names : List (Uuid × Fingerprint)) (recipients : List Recipient) : Prop where
  suite : ∀ recipient ∈ recipients, recipient.suiteId = suiteId ∧ recipient.kemId = kemId
  expected : ∀ recipient ∈ recipients, (recipient.deviceId, recipient.fingerprint) ∈ names
  nodup : (recipients.map Recipient.fingerprint).Nodup
  length : recipients.length = names.length

/-- The ways an epoch record is accepted, and the state each leaves. -/
inductive EpochStep (crypto : Crypto) (state : VerifiedState) (record : SignedRecord)
    (body : EpochBody) : VerifiedState → Prop
  | repeated {existing : EpochRef}
      (found : (state.epochs.find? fun epoch => epoch.prevEpochId = body.prevEpochId) =
        some existing)
      (same : existing.id = record.id crypto) : EpochStep crypto state record body state
  | accepted {headIndex : Nat}
      (unseen : (state.epochs.find? fun epoch => epoch.prevEpochId = body.prevEpochId) = none)
      (head : state.headIndexOf body.membershipHead = some headIndex)
      (signed : SignedBy crypto state body.sealerFingerprint (headIndex + 1) record)
      (sequenced : Sequenced state body.keyCommitmentS (epochRefOf crypto record body headIndex))
      (addressed : Addressed
        ((expectedRecipients state body.reason (headIndex + 1)).map Member.name) body.recipients) :
      EpochStep crypto state record body { state with
        epochs := state.epochs ++ [epochRefOf crypto record body headIndex]
        keyCommitmentS :=
          if body.reason = .genesis then some body.keyCommitmentS else state.keyCommitmentS }

/-- An epoch record accepted where another stands repeats it, and changes nothing. -/
theorem EpochStep.repeats {body : EpochBody} {existing : EpochRef}
    (step : EpochStep crypto state record body next)
    (found : (state.epochs.find? fun epoch => epoch.prevEpochId = body.prevEpochId) =
      some existing) : next = state ∧ existing.id = record.id crypto := by
  cases step with
  | repeated held same =>
    obtain rfl := Option.some.inj (found.symm.trans held)
    exact ⟨rfl, same⟩
  | accepted unseen => rw [found] at unseen; cases unseen

theorem checkCoupledHead_eq_ok {index headIndex : Nat} {previous : EpochRef} {wanted : Action}
    {otherwise : ChainError} {passed : Unit} :
    checkCoupledHead state index previous headIndex wanted otherwise = .ok passed ↔
      headIndex = previous.headIndex + 1 ∧
        state.steps[headIndex]?.map StepRef.action = some wanted := by
  simp only [checkCoupledHead, ensure_bind_eq_ok, ensure_eq_ok]
  constructor
  · rintro ⟨_, head, action⟩
    exact ⟨head, action⟩
  · rintro ⟨head, action⟩
    exact ⟨head.le, head, action⟩

theorem freshKey_iff {body : EpochBody} :
    freshKey state body = true ↔
      ∀ epoch ∈ state.epochs, epoch.keyCommitmentKe ≠ body.keyCommitmentKe := by
  simp [freshKey]

theorem checkReason_eq_ok {index headIndex : Nat} {record : SignedRecord} {body : EpochBody}
    {passed : Unit} : checkReason state index body headIndex = .ok passed ↔
      Sequenced state body.keyCommitmentS (epochRefOf crypto record body headIndex) := by
  unfold checkReason
  cases last : state.epochs.getLast? with
  | none =>
    have nothing : state.epochs = [] := List.getLast?_eq_none_iff.mp last
    constructor
    · intro passed
      cases reason : body.reason with
      | genesis =>
        simp only [reason, ensure_eq_ok] at passed
        exact .first nothing reason passed.1 passed.2.1 passed.2.2
      | cutover | grant | rotation => simp [reason] at passed
    · intro sequenced
      cases sequenced with
      | first _ reason keyEpoch linked head =>
        have reason : body.reason = .genesis := reason
        simp only [reason, ensure_eq_ok]
        exact ⟨keyEpoch, linked, head⟩
      | later last' => rw [last] at last'; cases last'
  | some previous =>
    constructor
    · intro passed
      cases reason : body.reason with
      | genesis => simp [reason] at passed
      | cutover =>
        simp only [reason, bind_eq_ok, checkCoupledHead_eq_ok, exists_const, ensure_eq_ok,
          freshKey_iff] at passed
        obtain ⟨⟨linked, sameS⟩, ⟨head, action⟩, keyEpoch, fresh⟩ := passed
        exact .later last sameS (.cutover reason linked head action keyEpoch) fun _ => fresh
      | grant =>
        simp only [reason, bind_eq_ok, checkCoupledHead_eq_ok, exists_const, ensure_eq_ok] at passed
        obtain ⟨⟨linked, sameS⟩, ⟨head, action⟩, keyEpoch, sameKey⟩ := passed
        exact .later last sameS (.grant reason linked head action keyEpoch sameKey)
          fun notGrant => absurd reason notGrant
      | rotation =>
        simp only [reason, ensure_bind_eq_ok, ensure_eq_ok, freshKey_iff] at passed
        obtain ⟨⟨linked, sameS⟩, head, keyEpoch, fresh⟩ := passed
        exact .later last sameS (.rotation reason linked head keyEpoch) fun _ => fresh
    · intro sequenced
      cases sequenced with
      | first nothing => rw [nothing] at last; cases last
      | later last' sameS follows fresh =>
        obtain rfl := Option.some.inj (last.symm.trans last')
        cases follows with
        | cutover reason linked head action keyEpoch =>
          have reason : body.reason = .cutover := reason
          simp only [reason, bind_eq_ok, checkCoupledHead_eq_ok, exists_const, ensure_eq_ok,
            freshKey_iff]
          exact ⟨⟨linked, sameS⟩, ⟨head, action⟩, keyEpoch, fresh (by simp [epochRefOf, reason])⟩
        | grant reason linked head action keyEpoch sameKey =>
          have reason : body.reason = .grant := reason
          simp only [reason, bind_eq_ok, checkCoupledHead_eq_ok, exists_const, ensure_eq_ok]
          exact ⟨⟨linked, sameS⟩, ⟨head, action⟩, keyEpoch, sameKey⟩
        | rotation reason linked head keyEpoch =>
          have reason : body.reason = .rotation := reason
          simp only [reason, ensure_bind_eq_ok, ensure_eq_ok, freshKey_iff]
          exact ⟨⟨linked, sameS⟩, head, keyEpoch, fresh (by simp [epochRefOf, reason])⟩

theorem any_named {recipient : Recipient} :
    (expected.any fun member => member.deviceId = recipient.deviceId &&
        member.fingerprint = recipient.fingerprint) = true ↔
      (recipient.deviceId, recipient.fingerprint) ∈ expected.map Member.name := by
  simp [Member.name]

theorem checkRecipients_eq_ok {listed result : List Fingerprint} :
    checkRecipients index expected recipients listed = .ok result ↔
      (∀ recipient ∈ recipients, recipient.suiteId = suiteId ∧ recipient.kemId = kemId) ∧
      (∀ recipient ∈ recipients,
        (recipient.deviceId, recipient.fingerprint) ∈ expected.map Member.name) ∧
      (recipients.map Recipient.fingerprint).Nodup ∧
      (∀ recipient ∈ recipients, recipient.fingerprint ∉ listed) ∧
      result = (recipients.map Recipient.fingerprint).reverse ++ listed := by
  induction recipients generalizing listed with
  | nil => simp [checkRecipients, eq_comm]
  | cons recipient rest inductionHypothesis =>
    simp only [checkRecipients, ensure_bind_eq_ok, inductionHypothesis, any_named,
      List.forall_mem_cons, List.map_cons, List.nodup_cons, List.reverse_cons,
      List.append_assoc, List.singleton_append]
    constructor
    · rintro ⟨⟨suite, kem, expected, unlisted⟩, suites, others, nodup, apart, rfl⟩
      refine ⟨⟨⟨suite, kem⟩, suites⟩, ⟨expected, others⟩, ⟨?_, nodup⟩, ⟨unlisted, ?_⟩, rfl⟩
      · intro repeated
        obtain ⟨other, inside, same⟩ := List.mem_map.mp repeated
        exact apart other inside (same ▸ List.mem_cons_self)
      · exact fun other inside => (apart other inside ∘ List.mem_cons_of_mem _)
    · rintro ⟨⟨⟨suite, kem⟩, suites⟩, ⟨expected, others⟩, ⟨once, nodup⟩, ⟨unlisted, apart⟩, rfl⟩
      refine ⟨⟨suite, kem, expected, unlisted⟩, suites, others, nodup, ?_, rfl⟩
      intro other inside repeated
      obtain same | before := List.mem_cons.mp repeated
      · exact once (List.mem_map.mpr ⟨other, inside, same⟩)
      · exact apart other inside before

theorem recipients_eq_ok :
    (∃ listed, checkRecipients index expected recipients [] = .ok listed ∧
        listed.length = expected.length) ↔
      Addressed (expected.map Member.name) recipients := by
  simp only [checkRecipients_eq_ok, List.append_nil]
  constructor
  · rintro ⟨_, ⟨suite, names, nodup, _, rfl⟩, length⟩
    exact ⟨suite, names, nodup, by simpa using length⟩
  · intro addressed
    exact ⟨_, ⟨addressed.suite, addressed.expected, addressed.nodup,
      fun _ _ => List.not_mem_nil, rfl⟩, by simpa using addressed.length⟩

theorem acceptEpoch_eq_ok {body : EpochBody}
    (unseen : (state.epochs.find? fun epoch => epoch.prevEpochId = body.prevEpochId) = none) :
    acceptEpoch crypto state index record body = .ok next ↔
      EpochStep crypto state record body next := by
  unfold acceptEpoch
  constructor
  · intro accepted
    cases head : state.headIndexOf body.membershipHead with
    | none => simp [head] at accepted
    | some headIndex =>
      cases authorized : state.authorizedMember body.sealerFingerprint (headIndex + 1) with
      | none => simp [head, authorized] at accepted
      | some sealer =>
        simp only [head, authorized, bind_eq_ok, ensure_eq_ok, exists_const,
          @checkReason_eq_ok crypto _ _ _ record] at accepted
        obtain ⟨signed, sequenced, listed, walked, length, left⟩ := accepted
        obtain rfl := Except.ok.inj left
        exact .accepted unseen head ⟨sealer, authorized, signed⟩ sequenced
          (recipients_eq_ok.mp ⟨listed, walked, length⟩)
  · intro step
    cases step with
    | repeated found => rw [unseen] at found; cases found
    | accepted _ head signed sequenced addressed =>
      obtain ⟨sealer, authorized, verified⟩ := signed
      obtain ⟨listed, walked, length⟩ := recipients_eq_ok.mpr addressed
      simp only [head, authorized, bind_eq_ok, ensure_eq_ok, exists_const,
        @checkReason_eq_ok crypto _ _ _ record]
      exact ⟨verified, sequenced, listed, walked, length, rfl⟩

theorem applyEpoch_eq_ok :
    applyEpoch crypto state index bytes = .ok next ↔
      state.epochs.length < maxChainLen ∧ ∃ record body,
        OpensEpoch state.vaultId bytes record body ∧ EpochStep crypto state record body next := by
  rw [applyEpoch, ensure_bind_eq_ok]
  simp only [bind_eq_ok, Prod.exists, openEpoch_eq_ok]
  refine and_congr_right fun _ => exists_congr fun record => exists_congr fun body =>
    and_congr_right fun _ => ?_
  cases found : state.epochs.find? fun epoch => epoch.prevEpochId = body.prevEpochId with
  | none => exact acceptEpoch_eq_ok found
  | some existing =>
    by_cases same : existing.id = record.id crypto
    · simp only [if_pos same, pure, Except.pure, Except.ok.injEq]
      constructor
      · rintro rfl
        exact .repeated found same
      · exact fun step => (step.repeats found).1.symm
    · simp only [if_neg same, reduceCtorEq, false_iff]
      exact fun step => same (step.repeats found).2

/-! ### Positions only name refusals -/

theorem positionless_applyEpoch : Positionless (applyEpoch crypto) := by
  intro state bytes next first second accepted
  exact applyEpoch_eq_ok.mpr (applyEpoch_eq_ok.mp accepted)

end Dohflow.SyncCore
