/-
This file proves that a device gets exactly the keys it is a member for.

Whom a record lists is checked twice: by the chain's verifier against the devices the
record's reason names, and by the recipient, which refuses a record that does not list it
though it must. `mustList_iff` says that the two rules are one, so once the chain is
verified only an entry that does not open can fail a call (`exists_acceptRecords_iff`).
The last section follows a device through all its calls, the failed ones among them, and
reads off which keys it was given (`walk_delivers_the_member_keys`).
-/

import Dohflow.SyncCore.HeldRecords
import Dohflow.VaultCrypto.EnvelopeVerdicts
import Dohflow.VaultCrypto.SyncEnablingRuns

namespace Dohflow.VaultCrypto

open Fallible SyncCore

variable {crypto : Crypto} {device : DeviceCrypto} {keys : DeviceKeys} {state : VerifiedState}
  {fed : List (List UInt8)}

/-! ### Whom a record must list -/

theorem mustList_iff (invariant : MembershipInvariant state) {body : EpochBody}
    {fingerprint : Fingerprint} {version : Nat} :
    mustList state body fingerprint version = true ↔
      ∃ member ∈ expectedRecipients state body.reason version,
        member.fingerprint = fingerprint := by
  have only : ∀ {first second : Member}, first ∈ state.members → second ∈ state.members →
      first.fingerprint = fingerprint → second.fingerprint = fingerprint → first = second := by
    intro first second one other named same
    exact List.inj_on_of_nodup_map invariant.distinct.fingerprints one other
      (named.trans same.symm)
  have found : ∀ member, state.authorizedMemberByFingerprintAtVersion fingerprint version =
      some member ↔ member ∈ state.members ∧ member.fingerprint = fingerprint ∧
        member.authorizedAt version = true := by
    intro member
    constructor
    · intro answer
      have chosen := List.find?_some answer
      rw [Bool.and_eq_true, decide_eq_true_eq] at chosen
      exact ⟨List.mem_of_find?_eq_some answer, chosen⟩
    · rintro ⟨inside, named, authorized⟩
      obtain ⟨other, answer⟩ := Option.isSome_iff_exists.mp
        (isSome_authorizedMember.mpr ⟨member, inside, named, authorized⟩)
      have chosen := List.find?_some answer
      rw [Bool.and_eq_true, decide_eq_true_eq] at chosen
      rw [only inside (List.mem_of_find?_eq_some answer) named chosen.1]
      exact answer
  have rule : mustList state body fingerprint version = true ↔
      ∃ member, state.authorizedMemberByFingerprintAtVersion fingerprint version = some member ∧
        (body.reason = .grant → member.addedAtVersion = version) := by
    rw [mustList]
    cases body.reason with
    | grant => simp [Option.any_eq_true]
    | genesis | cutover | rotation => simp [Option.isSome_iff_exists]
  rw [rule]
  constructor
  · rintro ⟨member, answer, added⟩
    obtain ⟨inside, named, authorized⟩ := (found member).mp answer
    exact ⟨member, (mem_expectedRecipients invariant).mpr ⟨inside, authorized, added⟩, named⟩
  · rintro ⟨member, expected, named⟩
    obtain ⟨inside, authorized, added⟩ := (mem_expectedRecipients invariant).mp expected
    exact ⟨member, (found member).mpr ⟨inside, named, authorized⟩, added⟩

/-! ### What one record gives -/

/-- An entry opens to keys that match both of the record's commitments. -/
structure OpensTo (crypto : Crypto) (device : DeviceCrypto) (keys : DeviceKeys) (body : EpochBody)
    (entry : Recipient) (unsealed : UnsealedKeySet) : Prop where
  unseals : unsealKeySet device keys { enc := entry.enc, ciphertext := entry.ciphertext }
    (body.hpkeInfo crypto entry.deviceId entry.fingerprint)
    (body.hpkeAad crypto entry.fingerprint) = .ok unsealed
  epochRoot : epochKeyCommitment crypto unsealed.epochRoot = body.keyCommitmentKe
  tagSecret : tagKeyCommitment crypto unsealed.tagSecret = body.keyCommitmentS

/-- The key a record installs once its entry is open. -/
def installOf (crypto : Crypto) (record : SignedRecord) (body : EpochBody)
    (unsealed : UnsealedKeySet) : EpochInstall :=
  { recordId := crypto.sha256 record.body
    epochKey := { vaultId := body.vaultId, keyEpoch := body.keyEpoch
                  bytes := unsealed.epochRoot } }

theorem unsealEntry_eq_ok {position : Nat} {record : SignedRecord} {body : EpochBody}
    {entry : Recipient} {install : EpochInstall} {tagSecret : TagSecret} :
    unsealEntry crypto device keys position record body entry = .ok (install, tagSecret) ↔
      ∃ unsealed, OpensTo crypto device keys body entry unsealed ∧
        install = installOf crypto record body unsealed ∧
        tagSecret = { bytes := unsealed.tagSecret } := by
  constructor
  · intro opened
    simp only [unsealEntry, EpochKey.fromVerified, TagSecret.fromVerified, bind_eq_ok,
      mapError_eq_ok, ensure_eq_ok, pure, Except.pure, Except.ok.injEq, Prod.mk.injEq,
      exists_const] at opened
    obtain ⟨unsealed, unseals, _, ⟨epochRoot, rfl⟩, _, ⟨tag, rfl⟩, rfl, rfl⟩ := opened
    exact ⟨unsealed, ⟨unseals, epochRoot, tag⟩, rfl, rfl⟩
  · rintro ⟨unsealed, opens, rfl, rfl⟩
    exact unsealEntry_committed opens.unseals opens.epochRoot opens.tagSecret

/-- The entries of a record that name the device. -/
def NamesDevice (crypto : Crypto) (device : DeviceCrypto) (keys : DeviceKeys) (body : EpochBody)
    (entry : Recipient) : Prop :=
  entry ∈ body.recipients ∧ entry.fingerprint = (keys.publicKeys crypto device).fingerprint

/-- Every entry that names the device opens to keys that match the record's commitments. -/
def OwnEntriesOpen (crypto : Crypto) (device : DeviceCrypto) (keys : DeviceKeys)
    (bytes : List UInt8) : Prop :=
  ∀ record body entry, Framed bytes record body → NamesDevice crypto device keys body entry →
    ∃ unsealed, OpensTo crypto device keys body entry unsealed

/-- What a record gives a device it names: a key to install and the tag secret. -/
inductive Gives (crypto : Crypto) (device : DeviceCrypto) (keys : DeviceKeys)
    (bytes : List UInt8) : EpochInstall → TagSecret → Prop
  | entry {record : SignedRecord} {body : EpochBody} {entry : Recipient}
      {unsealed : UnsealedKeySet} (framed : Framed bytes record body)
      (named : NamesDevice crypto device keys body entry)
      (opens : OpensTo crypto device keys body entry unsealed) :
      Gives crypto device keys bytes (installOf crypto record body unsealed)
        { bytes := unsealed.tagSecret }

theorem Framed.unique {bytes : List UInt8} {record other : SignedRecord}
    {body otherBody : EpochBody} (framed : Framed bytes record body)
    (again : Framed bytes other otherBody) : record = other ∧ body = otherBody := by
  obtain rfl := Except.ok.inj (framed.parsed.symm.trans again.parsed)
  exact ⟨rfl, Except.ok.inj (framed.decoded.symm.trans again.decoded)⟩

section

variable {bytes : List UInt8} {record : SignedRecord} {body : EpochBody} {epoch : EpochRef}
variable {install : EpochInstall} {tagSecret : TagSecret} {entry : Recipient}

theorem framed_of_keptAs (kept : KeptAs crypto state bytes record body epoch) :
    Framed bytes record body := ⟨kept.opens.parsed, kept.opens.decoded⟩

theorem namesDevice_unique (kept : KeptAs crypto state bytes record body epoch)
    {first second : Recipient} (one : NamesDevice crypto device keys body first)
    (other : NamesDevice crypto device keys body second) : first = second :=
  List.inj_on_of_nodup_map kept.addressed.nodup one.1 other.1 (one.2.trans other.2.symm)

theorem gives_iff (kept : KeptAs crypto state bytes record body epoch)
    (named : NamesDevice crypto device keys body entry) :
    Gives crypto device keys bytes install tagSecret ↔
      ∃ unsealed, OpensTo crypto device keys body entry unsealed ∧
        install = installOf crypto record body unsealed ∧
        tagSecret = { bytes := unsealed.tagSecret } := by
  constructor
  · rintro ⟨framed, other, opens⟩
    obtain ⟨rfl, rfl⟩ := (framed_of_keptAs kept).unique framed
    obtain rfl := namesDevice_unique kept named other
    exact ⟨_, opens, rfl, rfl⟩
  · rintro ⟨unsealed, opens, rfl, rfl⟩
    exact .entry (framed_of_keptAs kept) named opens

theorem ownEntriesOpen_iff (kept : KeptAs crypto state bytes record body epoch)
    (named : NamesDevice crypto device keys body entry) :
    OwnEntriesOpen crypto device keys bytes ↔
      ∃ unsealed, OpensTo crypto device keys body entry unsealed := by
  constructor
  · exact fun opens => opens record body entry (framed_of_keptAs kept) named
  · rintro opens other otherBody otherEntry framed otherNamed
    obtain ⟨rfl, rfl⟩ := (framed_of_keptAs kept).unique framed
    obtain rfl := namesDevice_unique kept named otherNamed
    exact opens

theorem not_gives (kept : KeptAs crypto state bytes record body epoch)
    (unnamed : ∀ entry, ¬ NamesDevice crypto device keys body entry) :
    ¬ Gives crypto device keys bytes install tagSecret := by
  rintro ⟨framed, named, _⟩
  obtain ⟨rfl, rfl⟩ := (framed_of_keptAs kept).unique framed
  exact unnamed _ named

theorem ownEntriesOpen_of_unnamed (kept : KeptAs crypto state bytes record body epoch)
    (unnamed : ∀ entry, ¬ NamesDevice crypto device keys body entry) :
    OwnEntriesOpen crypto device keys bytes := by
  rintro other otherBody entry framed named
  obtain ⟨rfl, rfl⟩ := (framed_of_keptAs kept).unique framed
  exact absurd named (unnamed entry)

theorem version_of_keptAs (kept : KeptAs crypto state bytes record body epoch) :
    membershipVersionOf state body.membershipHead = some (epoch.headIndex + 1) := by
  rw [membershipVersionOf, kept.head]
  rfl

theorem mustList_iff_named (invariant : MembershipInvariant state)
    (kept : KeptAs crypto state bytes record body epoch) :
    mustList state body (keys.publicKeys crypto device).fingerprint (epoch.headIndex + 1) = true ↔
      ∃ entry, NamesDevice crypto device keys body entry :=
  (mustList_iff invariant).trans (kept.lists_iff _).symm

theorem unsealFrom_kept (invariant : MembershipInvariant state)
    (kept : KeptAs crypto state bytes record body epoch) (position : Nat)
    (installs : List EpochInstall) (tagSecret : Option TagSecret) (rest : List (List UInt8)) :
    ((∀ entry, ¬ NamesDevice crypto device keys body entry) ∧
      unsealFrom crypto device state keys position installs tagSecret (bytes :: rest) =
        unsealFrom crypto device state keys (position + 1) installs tagSecret rest) ∨
    ∃ entry, NamesDevice crypto device keys body entry ∧
      unsealFrom crypto device state keys position installs tagSecret (bytes :: rest) =
        unsealEntry crypto device keys position record body entry >>= fun opened =>
        unsealFrom crypto device state keys (position + 1) (installs ++ [opened.1])
          (some opened.2) rest := by
  cases found : body.recipients.find? (fun recipient =>
      recipient.fingerprint = (keys.publicKeys crypto device).fingerprint) with
  | none =>
    have unnamed : ∀ entry, ¬ NamesDevice crypto device keys body entry := by
      rintro entry ⟨inside, own⟩
      exact List.find?_eq_none.mp found entry inside (decide_eq_true own)
    have free : ¬ mustList state body (keys.publicKeys crypto device).fingerprint
        (epoch.headIndex + 1) = true := by
      rw [mustList_iff_named invariant kept]
      rintro ⟨entry, named⟩
      exact unnamed entry named
    refine .inl ⟨unnamed, ?_⟩
    rw [unsealFrom]
    dsimp only
    rw [mapError_eq_ok.mpr kept.opens.parsed, ok_bind, mapError_eq_ok.mpr kept.opens.decoded,
      ok_bind, version_of_keptAs kept, orFail, ok_bind, found]
    dsimp only
    rw [ensure_of free, ok_bind]
  | some entry =>
    have own := List.find?_some found
    refine .inr ⟨entry, ⟨List.mem_of_find?_eq_some found, ?_⟩, ?_⟩
    · exact of_decide_eq_true own
    · rw [unsealFrom_listed (framed_of_keptAs kept) found, version_of_keptAs kept, orFail, ok_bind]

end

variable {epochs : List (List UInt8)} {tagSecret : Option TagSecret} {position : Nat}

/-! ### What one call gives -/

/-- What a walk over kept records leaves: the chain state, the keys it found and those of the
records, and the tag secret one of them gave. -/
theorem unsealFrom_gives (invariant : MembershipInvariant state)
    (kept : ∀ bytes ∈ epochs, ∃ epoch ∈ state.epochs, ∃ record body,
      KeptAs crypto state bytes record body epoch) {installs : List EpochInstall}
    {accepted : Accepted}
    (walked : unsealFrom crypto device state keys position installs tagSecret epochs =
      .ok accepted) :
    accepted.state = state ∧
    (∀ bytes ∈ epochs, OwnEntriesOpen crypto device keys bytes) ∧
    (∀ install, install ∈ accepted.installs ↔
      install ∈ installs ∨ ∃ bytes ∈ epochs, ∃ tag, Gives crypto device keys bytes install tag) ∧
    ∀ tag, accepted.tagSecret = some tag →
      tagSecret = some tag ∨ ∃ bytes ∈ epochs, ∃ install,
        Gives crypto device keys bytes install tag := by
  induction epochs generalizing position installs tagSecret with
  | nil =>
    obtain rfl := Except.ok.inj walked
    simp
  | cons bytes rest inductionHypothesis =>
    obtain ⟨⟨epoch, _, record, body, first⟩, others⟩ := List.forall_mem_cons.mp kept
    obtain ⟨unnamed, passed⟩ | ⟨entry, named, opened⟩ :=
      unsealFrom_kept invariant first position installs tagSecret rest
    · rw [passed] at walked
      obtain ⟨same, opens, gave, tags⟩ := inductionHypothesis others walked
      have nothing : ∀ install tag, ¬ Gives crypto device keys bytes install tag :=
        fun _ _ => not_gives first unnamed
      refine ⟨same, List.forall_mem_cons.mpr ⟨ownEntriesOpen_of_unnamed first unnamed, opens⟩,
        fun install => ?_, fun tag returned => ?_⟩
      · simp only [gave install, List.exists_mem_cons_iff, nothing, exists_false, false_or]
      · simp only [List.exists_mem_cons_iff, nothing, exists_false, false_or]
        exact tags tag returned
    · rw [opened, bind_eq_ok] at walked
      obtain ⟨⟨install, tag⟩, unsealed, walked⟩ := walked
      obtain ⟨set, opens, rfl, rfl⟩ := unsealEntry_eq_ok.mp unsealed
      obtain ⟨same, otherOpens, gave, tags⟩ := inductionHypothesis others walked
      have given : ∀ other otherTag, Gives crypto device keys bytes other otherTag ↔
          other = installOf crypto record body set ∧ otherTag = { bytes := set.tagSecret } := by
        intro other otherTag
        rw [gives_iff first named]
        constructor
        · rintro ⟨again, openedAgain, rfl, rfl⟩
          obtain rfl := Except.ok.inj (opens.unseals.symm.trans openedAgain.unseals)
          exact ⟨rfl, rfl⟩
        · rintro ⟨rfl, rfl⟩
          exact ⟨set, opens, rfl, rfl⟩
      refine ⟨same, List.forall_mem_cons.mpr
        ⟨(ownEntriesOpen_iff first named).mpr ⟨set, opens⟩, otherOpens⟩,
        fun install => ?_, fun tag returned => ?_⟩
      · simp only [gave install, List.exists_mem_cons_iff, given, List.mem_append,
          List.mem_singleton, exists_and_left, exists_eq, and_true, or_assoc]
      · simp only [List.exists_mem_cons_iff, given, exists_and_right, exists_eq, true_and]
        obtain last | later := tags tag returned
        · exact .inr (.inl (Option.some.inj last).symm)
        · exact .inr (.inr later)

theorem exists_unsealFrom (invariant : MembershipInvariant state)
    (kept : ∀ bytes ∈ epochs, ∃ epoch ∈ state.epochs, ∃ record body,
      KeptAs crypto state bytes record body epoch)
    (opens : ∀ bytes ∈ epochs, OwnEntriesOpen crypto device keys bytes) (position : Nat)
    (installs : List EpochInstall) (tagSecret : Option TagSecret) :
    ∃ accepted, unsealFrom crypto device state keys position installs tagSecret epochs =
      .ok accepted := by
  induction epochs generalizing position installs tagSecret with
  | nil => exact ⟨_, rfl⟩
  | cons bytes rest inductionHypothesis =>
    obtain ⟨⟨epoch, _, record, body, first⟩, others⟩ := List.forall_mem_cons.mp kept
    obtain ⟨here, later⟩ := List.forall_mem_cons.mp opens
    obtain ⟨_, passed⟩ | ⟨entry, named, opened⟩ :=
      unsealFrom_kept invariant first position installs tagSecret rest
    · rw [passed]
      exact inductionHypothesis others later _ _ _
    · obtain ⟨unsealed, fits⟩ := (ownEntriesOpen_iff first named).mp here
      rw [opened, unsealEntry_eq_ok.mpr ⟨unsealed, fits, rfl, rfl⟩, ok_bind]
      exact inductionHypothesis others later _ _ _

theorem unsealFrom_refuses (invariant : MembershipInvariant state)
    (kept : ∀ bytes ∈ epochs, ∃ epoch ∈ state.epochs, ∃ record body,
      KeptAs crypto state bytes record body epoch) {installs : List EpochInstall}
    {failure : AcceptError}
    (refused : unsealFrom crypto device state keys position installs tagSecret epochs =
      .error failure) :
    ∃ index, ∃ bytes ∈ epochs, ∃ record body entry, Framed bytes record body ∧
      NamesDevice crypto device keys body entry ∧
      unsealEntry crypto device keys index record body entry = .error failure := by
  induction epochs generalizing position installs tagSecret with
  | nil => cases refused
  | cons bytes rest inductionHypothesis =>
    obtain ⟨⟨epoch, _, record, body, first⟩, others⟩ := List.forall_mem_cons.mp kept
    have later : ∀ {position installs tagSecret},
        unsealFrom crypto device state keys position installs tagSecret rest = .error failure →
        ∃ index, ∃ source ∈ bytes :: rest, ∃ record body entry, Framed source record body ∧
          NamesDevice crypto device keys body entry ∧
          unsealEntry crypto device keys index record body entry = .error failure := by
      intro position installs tagSecret refused
      obtain ⟨index, source, member, refusal⟩ := inductionHypothesis others refused
      exact ⟨index, source, List.mem_cons_of_mem _ member, refusal⟩
    obtain ⟨_, passed⟩ | ⟨entry, named, opened⟩ :=
      unsealFrom_kept invariant first position installs tagSecret rest
    · rw [passed] at refused
      exact later refused
    · rw [opened, bind_eq_error] at refused
      obtain here | ⟨_, _, refused⟩ := refused
      · exact ⟨position, bytes, List.mem_cons_self, record, body, entry, framed_of_keptAs first,
          named, here⟩
      · exact later refused

section

variable {vaultId : Uuid} {memberships epochs : List (List UInt8)}

theorem kept_of_extend {next : VerifiedState} (run : Run crypto (.empty vaultId) state)
    (held : Held crypto state fed) (apart : TellsApart crypto (fed ++ epochs))
    (extended : extend crypto state memberships epochs = .ok next) :
    MembershipInvariant next ∧ ∀ bytes ∈ epochs, ∃ epoch ∈ next.epochs, ∃ record body,
      KeptAs crypto next bytes record body epoch := by
  refine ⟨Run.membershipInvariant (run.trans (run_of_extend extended)), fun bytes member => ?_⟩
  exact (held.extend apart extended).everyRecord bytes (List.mem_append_right _ member)

theorem exists_acceptRecords_iff (run : Run crypto (.empty vaultId) state)
    (held : Held crypto state fed) (apart : TellsApart crypto (fed ++ epochs)) :
    (∃ accepted, acceptRecords crypto device state memberships epochs keys = .ok accepted) ↔
      (∃ next, extend crypto state memberships epochs = .ok next) ∧
        ∀ bytes ∈ epochs, OwnEntriesOpen crypto device keys bytes := by
  simp only [acceptRecords, bind_eq_ok, mapError_eq_ok]
  constructor
  · rintro ⟨accepted, next, extended, walked⟩
    obtain ⟨invariant, kept⟩ := kept_of_extend run held apart extended
    exact ⟨⟨next, extended⟩, (unsealFrom_gives invariant kept walked).2.1⟩
  · rintro ⟨⟨next, extended⟩, opens⟩
    obtain ⟨invariant, kept⟩ := kept_of_extend run held apart extended
    obtain ⟨accepted, walked⟩ := exists_unsealFrom invariant kept opens 0 [] none
    exact ⟨accepted, next, extended, walked⟩

end

/-! ### Every call of a device -/

/-- What a device hands to one call. -/
structure Call where
  memberships : List (List UInt8)
  epochs : List (List UInt8)

/-- A device after some calls: its chain state and what the calls that succeeded returned. -/
structure Walked where
  state : VerifiedState
  returned : List Accepted

/-- The keys the calls returned. -/
def Walked.installs (walked : Walked) : List EpochInstall :=
  walked.returned.flatMap Accepted.installs

section

variable (crypto : Crypto) (device : DeviceCrypto) (keys : DeviceKeys)

/-- One more call; one that fails returns nothing to keep. -/
def Walked.feed (walked : Walked) (call : Call) : Walked :=
  match acceptRecords crypto device walked.state call.memberships call.epochs keys with
  | .ok accepted => { state := accepted.state, returned := walked.returned ++ [accepted] }
  | .error _ => walked

/-- A device that starts with no state and makes these calls. -/
def walk (vaultId : Uuid) (calls : List Call) : Walked :=
  calls.foldl (Walked.feed crypto device keys) { state := .empty vaultId, returned := [] }

/-- Every epoch record the calls are given. -/
def fedBy (calls : List Call) : List (List UInt8) := calls.flatMap Call.epochs

/-- The digest does not collide on what the records hold: their bodies, and the tag secrets the
device opens in them. -/
structure CollisionFree (fed : List (List UInt8)) : Prop where
  records : TellsApart crypto fed
  tagSecrets : ∀ first ∈ fed, ∀ second ∈ fed, ∀ one other install otherInstall,
    Gives crypto device keys first install one →
    Gives crypto device keys second otherInstall other →
    tagKeyCommitment crypto one.bytes = tagKeyCommitment crypto other.bytes → one = other

end

/-- What holds of a device between calls, where `fed` are the records of the calls that
succeeded. -/
structure Walked.Sound (crypto : Crypto) (device : DeviceCrypto) (keys : DeviceKeys) (vaultId : Uuid)
    (fed : List (List UInt8)) (walked : Walked) : Prop where
  run : Run crypto (.empty vaultId) walked.state
  held : Held crypto walked.state fed
  opens : ∀ bytes ∈ fed, OwnEntriesOpen crypto device keys bytes
  installs : ∀ install, install ∈ walked.installs ↔
    ∃ bytes ∈ fed, ∃ tag, Gives crypto device keys bytes install tag
  tagSecrets : ∀ accepted ∈ walked.returned, ∀ tag, accepted.tagSecret = some tag →
    ∃ bytes ∈ fed, ∃ install, Gives crypto device keys bytes install tag

theorem sound_start (vaultId : Uuid) :
    Walked.Sound crypto device keys vaultId [] { state := .empty vaultId, returned := [] } := by
  refine ⟨.refl, held_empty crypto vaultId, ?_, ?_, ?_⟩ <;> simp [Walked.installs]

/-- A call that succeeds adds its records, one that fails adds none. -/
theorem Walked.Sound.feed {vaultId : Uuid} {walked : Walked} {call : Call}
    (sound : Walked.Sound crypto device keys vaultId fed walked)
    (apart : TellsApart crypto (fed ++ call.epochs)) :
    ∃ more, more ⊆ call.epochs ∧
      Walked.Sound crypto device keys vaultId (fed ++ more) (walked.feed crypto device keys call) := by
  rw [Walked.feed]
  cases result : acceptRecords crypto device walked.state call.memberships call.epochs keys with
  | error =>
    refine ⟨[], List.nil_subset _, ?_⟩
    rw [List.append_nil]
    exact sound
  | ok accepted =>
    refine ⟨call.epochs, List.Subset.refl _, ?_⟩
    simp only [acceptRecords, bind_eq_ok, mapError_eq_ok] at result
    obtain ⟨next, extended, opened⟩ := result
    obtain ⟨invariant, kept⟩ := kept_of_extend sound.run sound.held apart extended
    obtain ⟨rfl, opens, gave, tags⟩ := unsealFrom_gives invariant kept opened
    refine ⟨sound.run.trans (run_of_extend extended), sound.held.extend apart extended,
      List.forall_mem_append.mpr ⟨sound.opens, opens⟩, fun install => ?_, ?_⟩
    · have new := gave install
      simp only [List.not_mem_nil, false_or] at new
      have before := sound.installs install
      rw [Walked.installs] at before
      rw [Walked.installs, List.flatMap_append, List.flatMap_singleton, List.mem_append, before,
        new]
      simp only [List.mem_append, or_and_right, exists_or]
    · intro other inside tag returned
      simp only [List.mem_append, or_and_right, exists_or]
      obtain before | last := List.mem_append.mp inside
      · exact .inl (sound.tagSecrets other before tag returned)
      · obtain rfl := List.mem_singleton.mp last
        have new := tags tag returned
        simp only [reduceCtorEq, false_or] at new
        exact .inr new

theorem walk_append (vaultId : Uuid) (calls : List Call) (call : Call) :
    walk crypto device keys vaultId (calls ++ [call]) =
      (walk crypto device keys vaultId calls).feed crypto device keys call := by
  rw [walk, walk, List.foldl_append]
  rfl

theorem fedBy_append (calls more : List Call) : fedBy (calls ++ more) = fedBy calls ++ fedBy more :=
  List.flatMap_append

theorem sound_walk (vaultId : Uuid) {calls : List Call} (apart : TellsApart crypto (fedBy calls)) :
    ∃ fed, fed ⊆ fedBy calls ∧
      Walked.Sound crypto device keys vaultId fed (walk crypto device keys vaultId calls) := by
  induction calls using List.reverseRecOn with
  | nil => exact ⟨[], List.nil_subset _, sound_start vaultId⟩
  | append_singleton calls call inductionHypothesis =>
    rw [fedBy_append] at apart ⊢
    have only : fedBy [call] = call.epochs := List.flatMap_singleton _ _
    rw [only] at apart ⊢
    obtain ⟨fed, within, sound⟩ :=
      inductionHypothesis (apart.mono (List.subset_append_left _ _))
    have older : fed ⊆ fedBy calls ++ call.epochs :=
      List.Subset.trans within (List.subset_append_left _ _)
    have inside : fed ++ call.epochs ⊆ fedBy calls ++ call.epochs :=
      List.append_subset.mpr ⟨older, List.subset_append_right _ _⟩
    obtain ⟨more, inCall, next⟩ := sound.feed (apart.mono inside)
    refine ⟨fed ++ more, ?_, walk_append vaultId calls call ▸ next⟩
    exact List.append_subset.mpr ⟨older, List.Subset.trans inCall (List.subset_append_right _ _)⟩

/-! ### The keys of the whole walk -/

theorem epochKeyCommitment_of_mem (invariant : EpochsInvariant state) {epoch : EpochRef}
    (inside : epoch ∈ state.epochs) :
    state.epochKeyCommitment epoch.keyEpoch = some epoch.keyCommitmentKe := by
  rw [VerifiedState.epochKeyCommitment]
  cases found : state.epochs.find? fun other => other.keyEpoch = epoch.keyEpoch with
  | none => exact absurd (decide_eq_true rfl) (List.find?_eq_none.mp found epoch inside)
  | some first =>
    have same := List.find?_some found
    rw [decide_eq_true_eq] at same
    rw [Option.map_some]
    exact congrArg some ((invariant.commitments first (List.mem_of_find?_eq_some found) epoch
      inside).mpr same)

namespace Walked.Sound

variable {vaultId : Uuid} {walked : Walked}

theorem kept_of_install (sound : Sound crypto device keys vaultId fed walked)
    {bytes : List UInt8} (member : bytes ∈ fed) {install : EpochInstall} {tag : TagSecret}
    (gives : Gives crypto device keys bytes install tag) :
    ∃ epoch ∈ walked.state.epochs, ∃ record body entry unsealed,
      KeptAs crypto walked.state bytes record body epoch ∧
      NamesDevice crypto device keys body entry ∧ OpensTo crypto device keys body entry unsealed ∧
      install = installOf crypto record body unsealed ∧ tag = { bytes := unsealed.tagSecret } := by
  obtain ⟨epoch, inside, record, body, kept⟩ := sound.held.everyRecord bytes member
  obtain ⟨framed, named, opens⟩ := gives
  obtain ⟨rfl, rfl⟩ := (framed_of_keptAs kept).unique framed
  exact ⟨epoch, inside, record, body, _, _, kept, named, opens, rfl, rfl⟩

theorem keyEpochs (sound : Sound crypto device keys vaultId fed walked) (keyEpoch : Nat) :
    (∃ install ∈ walked.installs, install.epochKey.keyEpoch.toNat = keyEpoch) ↔
      ∃ epoch ∈ walked.state.epochs, epoch.keyEpoch = keyEpoch ∧
        (walked.state.authorizedMemberByFingerprintAtVersion
          (keys.publicKeys crypto device).fingerprint (epoch.headIndex + 1)).isSome = true := by
  have members := Run.membershipInvariant sound.run
  have epochs := Run.epochsInvariant sound.run
  constructor
  · rintro ⟨install, returned, rfl⟩
    obtain ⟨bytes, member, tag, gives⟩ := (sound.installs install).mp returned
    obtain ⟨epoch, inside, record, body, entry, unsealed, kept, named, _, rfl, _⟩ :=
      sound.kept_of_install member gives
    obtain ⟨listed, expected, own⟩ := (kept.lists_iff _).mp ⟨entry, named⟩
    obtain ⟨present, authorized, _⟩ := (mem_expectedRecipients members).mp expected
    exact ⟨epoch, inside, congrArg EpochRef.keyEpoch kept.summary,
      isSome_authorizedMember.mpr ⟨listed, present, own, authorized⟩⟩
  · rintro ⟨epoch, inside, rfl, somebody⟩
    obtain ⟨member, present, own, authorized⟩ := isSome_authorizedMember.mp somebody
    obtain ⟨listing, inEpochs, sameEpoch, expected⟩ :=
      exists_listing members epochs inside present authorized
    obtain ⟨bytes, fedHere, record, body, kept⟩ := sound.held.everyEpoch listing inEpochs
    have reason : listing.reason = body.reason := congrArg EpochRef.reason kept.summary
    have number : listing.keyEpoch = body.keyEpoch.toNat :=
      congrArg EpochRef.keyEpoch kept.summary
    rw [reason] at expected
    obtain ⟨entry, named⟩ := (kept.lists_iff _).mpr ⟨member, expected, own⟩
    obtain ⟨unsealed, opens⟩ := (ownEntriesOpen_iff kept named).mp (sound.opens bytes fedHere)
    refine ⟨installOf crypto record body unsealed, (sound.installs _).mpr
      ⟨bytes, fedHere, _, .entry (framed_of_keptAs kept) named opens⟩, ?_⟩
    exact number.symm.trans sameEpoch

theorem verifiedKey (sound : Sound crypto device keys vaultId fed walked) {install : EpochInstall}
    (returned : install ∈ walked.installs) :
    VerifiedKey crypto walked.state install.epochKey := by
  obtain ⟨bytes, member, tag, gives⟩ := (sound.installs install).mp returned
  obtain ⟨epoch, inside, record, body, entry, unsealed, kept, _, opens, rfl, _⟩ :=
    sound.kept_of_install member gives
  refine ⟨kept.opens.vault, ?_⟩
  have number : epoch.keyEpoch = body.keyEpoch.toNat := congrArg EpochRef.keyEpoch kept.summary
  have commitment : epoch.keyCommitmentKe = body.keyCommitmentKe :=
    congrArg EpochRef.keyCommitmentKe kept.summary
  show walked.state.epochKeyCommitment body.keyEpoch.toNat = _
  rw [← number, epochKeyCommitment_of_mem (Run.epochsInvariant sound.run) inside, commitment]
  exact congrArg some opens.epochRoot.symm

theorem tagSecret_committed (sound : Sound crypto device keys vaultId fed walked)
    {accepted : Accepted} (returned : accepted ∈ walked.returned) {tag : TagSecret}
    (held : accepted.tagSecret = some tag) :
    (∃ bytes ∈ fed, ∃ install, Gives crypto device keys bytes install tag) ∧
      walked.state.keyCommitmentS = some (tagKeyCommitment crypto tag.bytes) := by
  obtain ⟨bytes, member, install, gives⟩ := sound.tagSecrets accepted returned tag held
  obtain ⟨epoch, _, record, body, entry, unsealed, kept, _, opens, _, rfl⟩ :=
    sound.kept_of_install member gives
  exact ⟨⟨bytes, member, install, gives⟩, kept.sameS.trans (congrArg some opens.tagSecret.symm)⟩

end Walked.Sound

/-- What a call does, from what the calls before it left. -/
structure CallLaw (crypto : Crypto) (device : DeviceCrypto) (keys : DeviceKeys) (walked : Walked)
    (call : Call) : Prop where
  /-- It succeeds exactly when the chain is verified and every own entry opens. -/
  succeeds_iff :
    (∃ accepted, acceptRecords crypto device walked.state call.memberships call.epochs keys =
      .ok accepted) ↔
    (∃ next, extend crypto walked.state call.memberships call.epochs = .ok next) ∧
      ∀ bytes ∈ call.epochs, OwnEntriesOpen crypto device keys bytes
  /-- Once the chain is verified, a record without an entry for the device need not list it. -/
  neverUnlisted : ∀ next, extend crypto walked.state call.memberships call.epochs = .ok next →
    ∀ bytes ∈ call.epochs, ∃ record body version, Framed bytes record body ∧
      membershipVersionOf next body.membershipHead = some version ∧
      ((∀ entry, ¬ NamesDevice crypto device keys body entry) →
        mustList next body (keys.publicKeys crypto device).fingerprint version = false)
  /-- So the reason of a refusal is an entry that does not open. -/
  refusal : ∀ next failure,
    extend crypto walked.state call.memberships call.epochs = .ok next →
    acceptRecords crypto device walked.state call.memberships call.epochs keys = .error failure →
    ∃ position, ∃ bytes ∈ call.epochs, ∃ record body entry, Framed bytes record body ∧
      NamesDevice crypto device keys body entry ∧
      unsealEntry crypto device keys position record body entry = .error failure
  /-- A call that fails leaves the device no key and no state. -/
  failing : ∀ failure,
    acceptRecords crypto device walked.state call.memberships call.epochs keys = .error failure →
    walked.feed crypto device keys call = walked

theorem callLaw_of_sound {vaultId : Uuid} {walked : Walked} {call : Call}
    (sound : Walked.Sound crypto device keys vaultId fed walked)
    (apart : TellsApart crypto (fed ++ call.epochs)) :
    CallLaw crypto device keys walked call := by
  refine ⟨exists_acceptRecords_iff sound.run sound.held apart, ?_, ?_, ?_⟩
  · intro next extended bytes member
    obtain ⟨invariant, kept⟩ := kept_of_extend sound.run sound.held apart extended
    obtain ⟨epoch, _, record, body, kept⟩ := kept bytes member
    refine ⟨record, body, _, framed_of_keptAs kept, version_of_keptAs kept, fun unnamed => ?_⟩
    rw [← Bool.not_eq_true, mustList_iff_named invariant kept]
    rintro ⟨entry, named⟩
    exact unnamed entry named
  · intro next failure extended refused
    obtain ⟨invariant, kept⟩ := kept_of_extend sound.run sound.held apart extended
    rw [acceptRecords, mapError_eq_ok.mpr extended, ok_bind] at refused
    exact unsealFrom_refuses invariant kept refused
  · intro failure refused
    rw [Walked.feed, refused]

/-- A device gets exactly the keys it is a member for, however it is fed: each of its calls obeys
`CallLaw`, the epochs of the keys it was returned are exactly those it is authorized in at some
head an epoch record names, every key is the chain's of its epoch, and it was returned one tag
secret only. -/
theorem walk_delivers_the_member_keys (vaultId : Uuid) (calls : List Call)
    (collisionFree : CollisionFree crypto device keys (fedBy calls)) :
    (∀ before call after, calls = before ++ call :: after →
      CallLaw crypto device keys (walk crypto device keys vaultId before) call) ∧
    (∀ keyEpoch,
      (∃ install ∈ (walk crypto device keys vaultId calls).installs,
        install.epochKey.keyEpoch.toNat = keyEpoch) ↔
      ∃ epoch ∈ (walk crypto device keys vaultId calls).state.epochs, epoch.keyEpoch = keyEpoch ∧
        ((walk crypto device keys vaultId calls).state.authorizedMemberByFingerprintAtVersion
          (keys.publicKeys crypto device).fingerprint (epoch.headIndex + 1)).isSome = true) ∧
    (∀ install ∈ (walk crypto device keys vaultId calls).installs,
      VerifiedKey crypto (walk crypto device keys vaultId calls).state install.epochKey) ∧
    ∀ first ∈ (walk crypto device keys vaultId calls).returned,
      ∀ second ∈ (walk crypto device keys vaultId calls).returned, ∀ one other,
        first.tagSecret = some one → second.tagSecret = some other → one = other := by
  obtain ⟨fed, within, sound⟩ := sound_walk vaultId collisionFree.records
  refine ⟨?_, sound.keyEpochs, fun install => sound.verifiedKey, ?_⟩
  · rintro before call after rfl
    have earlier : fedBy before ++ call.epochs ⊆ fedBy (before ++ call :: after) := by
      rw [fedBy_append]
      refine List.append_subset.mpr ⟨List.subset_append_left _ _, ?_⟩
      exact List.subset_append_of_subset_right _ (List.subset_append_left _ _)
    obtain ⟨fed, within, sound⟩ := sound_walk vaultId
      (collisionFree.records.mono (List.append_subset.mp earlier).1)
    refine callLaw_of_sound sound (collisionFree.records.mono (List.Subset.trans ?_ earlier))
    exact List.append_subset.mpr ⟨List.Subset.trans within (List.subset_append_left _ _),
      List.subset_append_right _ _⟩
  · intro first inFirst second inSecond one other oneHeld otherHeld
    obtain ⟨⟨source, member, install, gives⟩, committed⟩ :=
      sound.tagSecret_committed inFirst oneHeld
    obtain ⟨⟨otherSource, otherMember, otherInstall, otherGives⟩, otherCommitted⟩ :=
      sound.tagSecret_committed inSecond otherHeld
    exact collisionFree.tagSecrets source (within member) otherSource (within otherMember) one
      other install otherInstall gives otherGives
      (Option.some.inj (committed.symm.trans otherCommitted))

theorem tellsApart_single (bytes : List UInt8) : TellsApart crypto [bytes] := by
  intro first one second other record otherRecord parsed again _
  obtain rfl := List.mem_singleton.mp one
  obtain rfl := List.mem_singleton.mp other
  exact congrArg SignedRecord.body (Except.ok.inj (parsed.symm.trans again))

theorem collisionFree_single {vaultId : Uuid} {memberships : List (List UInt8)}
    {bytes : List UInt8}
    (verified : verifyChain crypto vaultId memberships [bytes] = .ok state) :
    CollisionFree crypto device keys [bytes] := by
  refine ⟨tellsApart_single bytes, ?_⟩
  have held : Held crypto state ([] ++ [bytes]) :=
    (held_empty crypto vaultId).extend (tellsApart_single bytes) verified
  obtain ⟨epoch, _, record, body, kept⟩ := held.everyRecord bytes List.mem_cons_self
  intro first one second other tag otherTag install otherInstall gives givesAgain _
  obtain rfl := List.mem_singleton.mp one
  obtain rfl := List.mem_singleton.mp other
  obtain ⟨framed, named, opens⟩ := gives
  obtain ⟨rfl, rfl⟩ := (framed_of_keptAs kept).unique framed
  obtain ⟨unsealed, again, _, rfl⟩ := (gives_iff kept named).mp givesAgain
  rw [Except.ok.inj (opens.unseals.symm.trans again.unseals)]

/-- A founding device that is fed its own genesis holds the key of the first epoch, which it is
authorized in. -/
theorem walk_delivers_the_member_keys_of_a_founder : ∃ call,
    (∃ install ∈ (walk sampleCrypto sampleDevice ⟨.replicate 32 7, .replicate 32 9⟩
        sampleFounder.vaultId [call]).installs,
      install.epochKey.keyEpoch.toNat = 1 ∧
        VerifiedKey sampleCrypto (walk sampleCrypto sampleDevice
          ⟨.replicate 32 7, .replicate 32 9⟩ sampleFounder.vaultId [call]).state
          install.epochKey) ∧
    ∃ epoch ∈ (walk sampleCrypto sampleDevice ⟨.replicate 32 7, .replicate 32 9⟩
        sampleFounder.vaultId [call]).state.epochs, epoch.keyEpoch = 1 := by
  let keys : DeviceKeys := ⟨.replicate 32 7, .replicate 32 9⟩
  obtain ⟨records, created⟩ := exists_createGenesisWith sampleDevice_lawful keys
    sampleFounder.vaultId sampleFounder.deviceId 0 (.replicate 32 1) (.replicate 32 2)
    (.replicate 32 3)
  obtain ⟨carried, _, _, state, verified, accepts⟩ := createGenesisWith_carries created
  let call : Call := { memberships := [records.membership], epochs := [records.epoch] }
  have walked : walk sampleCrypto sampleDevice keys sampleFounder.vaultId [call] =
      { state, returned := [carried.accepted sampleFounder.vaultId state] } := by
    show Walked.feed sampleCrypto sampleDevice keys
      { state := .empty sampleFounder.vaultId, returned := [] } call = _
    rw [Walked.feed]
    show (match acceptRecords sampleCrypto sampleDevice (.empty sampleFounder.vaultId)
      [records.membership] [records.epoch] keys with | .ok _ => _ | .error _ => _) = _
    rw [accepts]
    rfl
  obtain ⟨_, epochs, verifiedKeys, _⟩ := walk_delivers_the_member_keys sampleFounder.vaultId [call]
    (collisionFree_single verified : CollisionFree sampleCrypto sampleDevice keys _)
  have returned : ∃ install ∈ (walk sampleCrypto sampleDevice keys sampleFounder.vaultId
      [call]).installs, install.epochKey.keyEpoch.toNat = 1 := by
    rw [walked]
    exact ⟨_, List.mem_cons_self, rfl⟩
  obtain ⟨epoch, inside, first, _⟩ := (epochs 1).mp returned
  obtain ⟨install, member, number⟩ := returned
  exact ⟨call, ⟨install, member, number, verifiedKeys install member⟩, epoch, inside, first⟩

end Dohflow.VaultCrypto
