/-
This file proves that enabling Sync on a device founds at most one genesis.

Attempts run one at a time, each cut off anywhere, with faults of the store and the vault,
and the publisher moves the genesis on in between. What carries the proof is that every
attempt ends as `runs_enable` says, wherever it ends: so every state of a run is one that
holds no key without its genesis, and every item an attempt changed was a lone half, or one
that the attempt itself had written and then it fails.
-/

import Dohflow.VaultCrypto.SyncInstalling

namespace Dohflow.VaultCrypto

open Fallible SyncCore PlatformTraits DbWorker Program SyncKeyCustody

section

variable {crypto : Crypto} {device : DeviceCrypto} {vaultId : Uuid} {faults : Prop}
  {custody : Custody} {item : Item}
variable {after : Custody} {stored : StoredItem} {Value : Type}
  {program : Program CustodyRequest CustodyRequest.Response Value} {outcome : Option Value}

/-! ### Runs -/

/-- An attempt starts with no history. -/
def Custody.begin (custody : Custody) : Custody := { custody with written := [], losses := [] }

/-- An attempt may start for any device id at any time. -/
def Starts (crypto : Crypto) (device : DeviceCrypto) (vaultId : Uuid) (custody : Custody)
    (program : Program CustodyRequest CustodyRequest.Response (Except EnableError GenesisState))
    (begun : Custody) : Prop :=
  ∃ deviceId issuedAt, program = enable crypto device vaultId deviceId issuedAt ∧
    begun = custody.begin

/-- What the publisher does between attempts: it records an export mark, or moves the genesis on. -/
def Publishes (before after : Custody) : Prop :=
  (∃ highWater row, recordExportMark highWater before.genesis = .ok ((), row) ∧
    after = { before with genesis := row }) ∨
  ∃ next state row, next ≠ .installed ∧ advance next before.genesis = .ok (state, row) ∧
    after = { before with genesis := row }

/-- A device and the attempt running on it. -/
abbrev Enabling : Type :=
  Session CustodyRequest CustodyRequest.Response (Except EnableError GenesisState) Custody

/-- One step of a run. -/
def Enabling.Step (crypto : Crypto) (device : DeviceCrypto) (vaultId : Uuid) :
    Enabling → Enabling → Prop :=
  Session.Step (Custody.Serves crypto vaultId True) (Starts crypto device vaultId) Publishes

def Enabling.Reaches (crypto : Crypto) (device : DeviceCrypto) (vaultId : Uuid) :
    Enabling → Enabling → Prop :=
  Session.Reaches (Custody.Serves crypto vaultId True) (Starts crypto device vaultId) Publishes

/-- What holds wherever an attempt of a run ends. -/
def AttemptEnds (crypto : Crypto) (device : DeviceCrypto) (vaultId : Uuid) :
    Option (Except EnableError GenesisState) → Custody → Prop :=
  Ends True (Attempting crypto device vaultId)
    fun state after => state = .installed ∧ Enabled crypto device vaultId after

/-- A session at every point of every run. -/
def Enabling.Sound (crypto : Crypto) (device : DeviceCrypto) (vaultId : Uuid) : Enabling → Prop :=
  Session.Sound (Custody.Serves crypto vaultId True) (VaultCrypto.Sound crypto device vaultId)
    (AttemptEnds crypto device vaultId)

theorem sound_publishes (sound : Sound crypto device vaultId custody)
    (published : Publishes custody after) : Sound crypto device vaultId after := by
  obtain unfounded | ⟨keys, carried, genesis, founded⟩ := sound
  · obtain ⟨_, _, marked, _⟩ | ⟨_, _, _, _, moved, _⟩ := published
    · rw [unfounded.genesis] at marked
      cases marked
    · rw [unfounded.genesis] at moved
      cases moved
  · refine .inr ⟨keys, carried, ?_⟩
    obtain ⟨highWater, row, marked, rfl⟩ | ⟨next, state, row, notInstalled, moved, rfl⟩ := published
    · rw [founded.persisted] at marked
      simp only [recordExportMark, ensure_bind_eq_ok] at marked
      obtain ⟨_, _, written⟩ := marked
      cases written
      exact ⟨_, rfl, founded.vault, founded.carries, founded.complete, founded.halves,
        founded.held⟩
    · rw [founded.persisted] at moved
      simp only [advance, ensure_bind_eq_ok] at moved
      obtain ⟨allowed, written⟩ := moved
      cases written
      split
      · refine ⟨_, rfl, founded.vault, founded.carries, ?_, founded.halves, founded.held⟩
        -- Only an installed genesis is published.
        rintro (rfl | rfl)
        · exact absurd rfl notInstalled
        · refine founded.complete ?_
          cases held : genesis.state with
          | installed => exact .inl rfl
          | published => exact .inr rfl
          | persisted => rw [held] at allowed; cases allowed
          | vaultKnown => rw [held] at allowed; cases allowed
          | genesisResumeLost => rw [held] at allowed; cases allowed
      · exact ⟨genesis, rfl, founded.vault, founded.carries, founded.complete, founded.halves,
          founded.held⟩

theorem sound_begin (sound : Sound crypto device vaultId custody) :
    Sound crypto device vaultId custody.begin := by
  obtain unfounded | ⟨keys, carried, genesis, founded⟩ := sound
  · exact .inl ⟨unfounded.genesis, unfounded.halves⟩
  · exact .inr ⟨keys, carried, genesis, founded.persisted, founded.vault, founded.carries,
      founded.complete, founded.halves, founded.held⟩

theorem sound_reaches {session : Enabling}
    (reached : Enabling.Reaches crypto device vaultId ⟨.fresh, none⟩ session) :
    session.Sound crypto device vaultId := by
  have fresh : Sound crypto device vaultId .fresh :=
    .inl ⟨rfl, fun item stored held => by cases held⟩
  have start : Enabling.Sound crypto device vaultId ⟨.fresh, none⟩ :=
    ⟨fresh, fun program running => by cases running⟩
  refine Session.sound_of_reaches start ?_ ?_ ?_ reached
  · exact fun world attempting => attempting.sound
  · rintro world program begun sound ⟨deviceId, issuedAt, rfl, rfl⟩
    exact runs_enable deviceId issuedAt (sound_begin sound) rfl (fun _ => trivial)
      (fun _ => trivial) fun _ _ _ => trivial
  · exact fun world after sound published => sound_publishes sound published

/-! ### What a step keeps -/

theorem keeps_transacts {call : GenesisRow → Except GenesisStoreError (Value × GenesisRow)}
    {response : Except GenesisStoreError Value}
    (calls : ∀ value row, call custody.genesis = .ok (value, row) → custody.genesis.Keeps row)
    (transacts : Custody.Transacts faults call custody response after) :
    custody.genesis.Keeps after.genesis := by
  have committed : custody.genesis.Keeps (custody.commit call).genesis := by
    rw [Custody.commit]
    cases answer : call custody.genesis with
    | error error => exact .refl _
    | ok answered => exact calls answered.1 answered.2 answer
  obtain ⟨_, rfl⟩ | ⟨_, _, rfl | rfl⟩ := transacts
  · exact committed
  · exact .refl _
  · exact committed

theorem keeps_serves {request : CustodyRequest} {response : request.Response}
    (served : Custody.Serves crypto vaultId faults request custody response after) :
    custody.genesis.Keeps after.genesis := by
  cases request with
  | publicTag item => rw [served.1]; exact .refl _
  | loadSecret item => rw [served.1]; exact .refl _
  | storeSecretTagged item value tag =>
    obtain ⟨now, _, rfl⟩ := served
    exact .refl _
  | deleteSecret item =>
    obtain ⟨now, _, rfl⟩ := served
    exact .refl _
  | generateSecret => rw [served.1]; exact .refl _
  | load => rw [served.1]; exact .refl _
  | persist records => exact keeps_transacts (fun _ _ persisted => keeps_persist persisted) served
  | advance next => exact keeps_transacts (fun _ _ moved => keeps_advance moved) served

theorem keeps_publishes (published : Publishes custody after) :
    custody.genesis.Keeps after.genesis := by
  obtain ⟨_, _, marked, rfl⟩ | ⟨_, _, _, _, moved, rfl⟩ := published
  · exact keeps_recordExportMark marked
  · exact keeps_advance moved

variable {session later : Enabling}
variable {request : CustodyRequest} {response : request.Response}

theorem keeps_step (step : Enabling.Step crypto device vaultId session later) :
    session.world.genesis.Keeps later.world.genesis := by
  cases step with
  | start started =>
    obtain ⟨_, _, _, rfl⟩ := started
    exact .refl _
  | serve served => exact keeps_serves served
  | finish => exact .refl _
  | crash => exact .refl _
  | move moved => exact keeps_publishes moved

theorem keeps_reaches (reaches : Enabling.Reaches crypto device vaultId session later) :
    session.world.genesis.Keeps later.world.genesis := by
  induction reaches with
  | refl => exact .refl _
  | tail _ step inductionHypothesis => exact inductionHypothesis.trans (keeps_step step)

theorem serves_cases (served : Custody.Serves crypto vaultId faults request custody response after) :
    (after.store = custody.store ∧ after.losses = custody.losses) ∨
      ∃ other now, after = custody.change other now := by
  have transacted {Value : Type}
      {call : GenesisRow → Except GenesisStoreError (Value × GenesisRow)}
      {answer : Except GenesisStoreError Value}
      (transacts : Custody.Transacts faults call custody answer after) :
      after.store = custody.store ∧ after.losses = custody.losses := by
    have committed : (custody.commit call).store = custody.store ∧
        (custody.commit call).losses = custody.losses := by
      rw [Custody.commit]
      split
      · exact ⟨rfl, rfl⟩
      · exact ⟨rfl, rfl⟩
    obtain ⟨_, rfl⟩ | ⟨_, _, rfl | rfl⟩ := transacts
    · exact committed
    · exact ⟨rfl, rfl⟩
    · exact committed
  cases request with
  | publicTag other => rw [served.1]; exact .inl ⟨rfl, rfl⟩
  | loadSecret other => rw [served.1]; exact .inl ⟨rfl, rfl⟩
  | storeSecretTagged other value tag =>
    obtain ⟨now, _, became⟩ := served
    exact .inr ⟨other, now, became⟩
  | deleteSecret other =>
    obtain ⟨now, _, became⟩ := served
    exact .inr ⟨other, now, became⟩
  | generateSecret => rw [served.1]; exact .inl ⟨rfl, rfl⟩
  | load => rw [served.1]; exact .inl ⟨rfl, rfl⟩
  | persist records => exact .inl (transacted served)
  | advance next => exact .inl (transacted served)

theorem losses_serves (served : Custody.Serves crypto vaultId faults request custody response after)
    {loss : Loss} (lost : loss ∈ custody.losses) : loss ∈ after.losses := by
  obtain ⟨_, same⟩ | ⟨other, now, rfl⟩ := serves_cases served
  · rw [same]
    exact lost
  · exact List.mem_append_left _ lost

theorem losses_execution
    (execution : Execution (Custody.Serves crypto vaultId faults) program custody outcome after)
    {loss : Loss} (lost : loss ∈ custody.losses) : loss ∈ after.losses := by
  induction execution with
  | done => exact lost
  | cut => exact lost
  | ask served _ inductionHypothesis => exact inductionHypothesis (losses_serves served lost)

theorem lost_serves (served : Custody.Serves crypto vaultId faults request custody response after)
    (held : custody.store item = some stored) (changed : after.store item ≠ some stored) :
    { item, lone := custody.lone item, own := decide (item ∈ custody.written)
      founded := custody.genesis.isSome } ∈ after.losses := by
  obtain ⟨same, _⟩ | ⟨other, now, rfl⟩ := serves_cases served
  · rw [same] at changed
    exact absurd held changed
  by_cases same : item = other
  · subst same
    rw [Custody.change_store] at changed
    have differs : ¬ (custody.store item = none ∨ custody.store item = now) := by
      rw [held]
      rintro (absent | same)
      · cases absent
      · exact changed same.symm
    refine List.mem_append_right _ ?_
    rw [Custody.loss, if_neg differs]
    exact List.mem_singleton_self _
  · rw [Custody.change_store_ne same] at changed
    exact absurd held changed

/-- No end of the running attempt is a success. -/
def Enabling.Fails (vaultId : Uuid) (crypto : Crypto) (session : Enabling) : Prop :=
  ∀ program, session.running = some program →
    Leads (Custody.Serves crypto vaultId True) program session.world
      fun outcome _ => ∀ state, outcome ≠ some (.ok state)

theorem lost_step (sound : session.Sound crypto device vaultId)
    (step : Enabling.Step crypto device vaultId session later)
    (held : session.world.store item = some stored) (changed : later.world.store item ≠ some stored) :
    session.world.genesis = none ∧ (session.world.lone item = true ∨
      (item ∈ session.world.written ∧ later.Fails vaultId crypto)) := by
  cases step with
  | start started =>
    obtain ⟨_, _, _, rfl⟩ := started
    exact absurd held changed
  | finish => exact absurd held changed
  | crash => exact absurd held changed
  | move moved =>
    obtain ⟨_, _, _, rfl⟩ | ⟨_, _, _, _, _, rfl⟩ := moved
    · exact absurd held changed
    · exact absurd held changed
  | @serve custody after request response next served =>
    have lost := lost_serves served held changed
    have leads : Leads (Custody.Serves crypto vaultId True) (next response) after
        (AttemptEnds crypto device vaultId) := fun outcome final execution =>
      sound.program _ rfl outcome final (.ask served execution)
    obtain ⟨unfounded, excused⟩ := (leads none after (.cut _ _)).excusable _ lost
    refine ⟨by simpa using unfounded, ?_⟩
    by_cases lone : custody.lone item = true
    · exact .inl lone
    · refine .inr ⟨by simpa using excused.resolve_left lone, ?_⟩
      intro program running outcome final execution state succeeded
      rw [← Option.some.inj running] at execution
      obtain ⟨_, _, enabled⟩ := succeeded ▸ leads outcome final execution
      exact lone (enabled.blameless _ (losses_execution execution lost)).2

theorem stays_reaches (reached : Enabling.Reaches crypto device vaultId ⟨.fresh, none⟩ session)
    (reaches : Enabling.Reaches crypto device vaultId session later) {genesis : PersistedGenesis}
    (persisted : session.world.genesis = some genesis)
    (held : session.world.store item = some stored) : later.world.store item = some stored := by
  induction reaches with
  | refl => exact held
  | @tail between after reaches step inductionHypothesis =>
    by_contra changed
    obtain ⟨_, still, _⟩ := keeps_reaches reaches genesis persisted
    have unfounded := (lost_step (sound_reaches (reached.trans reaches)) step inductionHypothesis
      changed).1
    rw [unfounded] at still
    cases still

/-! ### An attempt without a fault -/

/-- What a device and a vault without a fault do with a request. -/
def Custody.answer (crypto : Crypto) (vaultId : Uuid) :
    (request : CustodyRequest) → Custody → request.Response × Custody
  | .publicTag item, custody => (Secrets.reading StoredItem.tag (custody.store item), custody)
  | .loadSecret item, custody => (Secrets.reading StoredItem.value (custody.store item), custody)
  | .storeSecretTagged item value tag, custody =>
    (.ok (), custody.change item (some { value, tag := some tag }))
  | .deleteSecret item, custody => (.ok (), custody.change item none)
  | .generateSecret, custody => (some (List.Vector.replicate 32 0), custody)
  | .load, custody => (.ok custody.genesis, custody)
  | .persist records, custody =>
    ((DbWorker.persist crypto vaultId records.membership records.epoch custody.genesis).map
      Prod.fst, custody.commit (DbWorker.persist crypto vaultId records.membership records.epoch))
  | .advance next, custody =>
    ((DbWorker.advance next custody.genesis).map Prod.fst, custody.commit (DbWorker.advance next))

theorem answer_serves (request : CustodyRequest) (custody : Custody) :
    Custody.Serves crypto vaultId faults request custody
      (custody.answer crypto vaultId request).1 (custody.answer crypto vaultId request).2 := by
  cases request with
  | publicTag item => exact ⟨rfl, .inl rfl⟩
  | loadSecret item => exact ⟨rfl, .inl rfl⟩
  | storeSecretTagged item value tag => exact ⟨_, .inl ⟨rfl, rfl⟩, rfl⟩
  | deleteSecret item => exact ⟨_, .inl ⟨rfl, rfl⟩, rfl⟩
  | generateSecret => exact ⟨rfl, .inr (Option.some_ne_none _)⟩
  | load => exact ⟨rfl, .inl rfl⟩
  | persist records => exact .inl ⟨rfl, rfl⟩
  | advance next => exact .inl ⟨rfl, rfl⟩

theorem keeps_execution
    (execution : Execution (Custody.Serves crypto vaultId faults) program custody outcome after) :
    custody.genesis.Keeps after.genesis := by
  induction execution with
  | done => exact .refl _
  | cut => exact .refl _
  | ask served _ inductionHypothesis => exact (keeps_serves served).trans inductionHypothesis

/-- An attempt without a fault runs to an end, and it ends with the genesis installed: the one that
was persisted, if one was. -/
def Completes (crypto : Crypto) (device : DeviceCrypto) (vaultId : Uuid) (custody : Custody) :
    Prop :=
  ∀ deviceId issuedAt,
    (∃ result after, Execution (Custody.Serves crypto vaultId False)
      (enable crypto device vaultId deviceId issuedAt) custody.begin (some result) after) ∧
    ∀ result after, Execution (Custody.Serves crypto vaultId False)
      (enable crypto device vaultId deviceId issuedAt) custody.begin (some result) after →
        result = .ok .installed ∧ Enabled crypto device vaultId after ∧
          custody.genesis.Keeps after.genesis

theorem completes (lawful : device.Lawful crypto) (sound : Sound crypto device vaultId custody)
    (unsettled : ∀ genesis, custody.genesis = some genesis →
      genesis.state = .persisted ∨ genesis.state = .installed) :
    Completes crypto device vaultId custody := by
  intro deviceId issuedAt
  refine ⟨⟨_, _, execution_runWith answer_serves _ _⟩, fun result after execution => ?_⟩
  have runs : Runs (Custody.Serves crypto vaultId False) False
      (enable crypto device vaultId deviceId issuedAt) custody.begin _ _ :=
    runs_enable deviceId issuedAt (sound_begin sound) rfl id (fun unlawful => unlawful lawful)
      fun genesis persisted settled => settled (unsettled genesis persisted)
  have ends := runs (some result) after execution
  cases result with
  | error error => exact ends.2.elim
  | ok state =>
    obtain ⟨_, rfl, enabled⟩ := ends
    have keeps : custody.begin.genesis.Keeps after.genesis := keeps_execution execution
    exact ⟨rfl, enabled, keeps⟩

/-- Enabling Sync founds at most one genesis. At every point of every run: a marker, `K_1` or `S` in
the store is what a persisted genesis carries; its records never change, and from the persist on
both halves of the keys they name stay as they are; a step replaces or removes nothing but a lone
half, or what the running attempt wrote, and then it fails; and unless the genesis is in a terminal
refusal, it is published with everything installed, or an attempt without a fault installs it. -/
theorem enabling_founds_one_genesis {session : Enabling}
    (reached : Enabling.Reaches crypto device vaultId ⟨.fresh, none⟩ session) :
    ((session.world.store .genesisMarker ≠ none ∨ session.world.store (.epochKey 1) ≠ none ∨
        session.world.store .tagSecret ≠ none) →
      ∃ keys carried genesis,
        Founded crypto device vaultId keys carried genesis session.world) ∧
    (∀ later, Enabling.Reaches crypto device vaultId session later →
      ∀ genesis, session.world.genesis = some genesis →
        session.world.genesis.Keeps later.world.genesis ∧ ∃ keys carried,
          Carries crypto device vaultId keys (records genesis) carried ∧
          Halves device keys session.world.store ∧ Halves device keys later.world.store) ∧
    (∀ later, Enabling.Step crypto device vaultId session later →
      ∀ item stored, session.world.store item = some stored →
        later.world.store item ≠ some stored →
          session.world.lone item = true ∨
            (item ∈ session.world.written ∧ later.Fails vaultId crypto)) ∧
    (device.Lawful crypto →
      (∀ genesis, session.world.genesis = some genesis →
        genesis.state ≠ .vaultKnown ∧ genesis.state ≠ .genesisResumeLost) →
      (∃ genesis, session.world.genesis = some genesis ∧ genesis.state = .published ∧
        Installed session.world.store) ∨
      Completes crypto device vaultId session.world) := by
  have sound := sound_reaches reached
  refine ⟨fun present => ?_, fun later reaches genesis persisted => ?_,
    fun later step item stored held changed => (lost_step sound step held changed).2,
    fun lawful notRefused => ?_⟩
  · obtain unfounded | founded := sound.world
    · have absent (item : Item) (other : ∀ stored, ¬ IsHalf device item stored) :
          session.world.store item = none := unfounded.absent other
      obtain marker | epochKey | tagSecret := present
      · exact absurd (absent .genesisMarker fun _ half => half) marker
      · exact absurd (absent (.epochKey 1) fun _ half => half) epochKey
      · exact absurd (absent .tagSecret fun _ half => half) tagSecret
    · exact founded
  · refine ⟨keeps_reaches reaches, ?_⟩
    obtain unfounded | ⟨keys, carried, held, founded⟩ := sound.world
    · rw [unfounded.genesis] at persisted
      cases persisted
    · obtain rfl := Option.some.inj (founded.persisted.symm.trans persisted)
      exact ⟨keys, carried, founded.carries, founded.halves,
        stays_reaches reached reaches persisted founded.halves.signing,
        stays_reaches reached reaches persisted founded.halves.agreement⟩
  · obtain unfounded | ⟨keys, carried, genesis, founded⟩ := sound.world
    · refine .inr (completes lawful sound.world fun genesis persisted => ?_)
      rw [unfounded.genesis] at persisted
      cases persisted
    · have unique : ∀ other, session.world.genesis = some other → other = genesis :=
        fun other same => Option.some.inj (same.symm.trans founded.persisted)
      have refused := notRefused genesis founded.persisted
      cases state : genesis.state with
      | published => exact .inl ⟨genesis, founded.persisted, state, founded.complete (.inr state)⟩
      | persisted =>
        exact .inr (completes lawful sound.world fun other same => .inl (unique other same ▸ state))
      | installed =>
        exact .inr (completes lawful sound.world fun other same => .inr (unique other same ▸ state))
      | vaultKnown => exact absurd state refused.1
      | genesisResumeLost => exact absurd state refused.2

end

/-! ### A device -/

/-- An agreement key whose top byte is 1, so that it is none of the low-order values. -/
def sampleAgreement (secret : SecretBytes) : PublicKey :=
  ⟨secret.toList.take 31 ++ [1], by simp⟩

theorem sampleAgreement_acceptable (secret : SecretBytes) :
    x25519PublicKeyAcceptable (sampleAgreement secret) = true := by
  have value : littleEndian (sampleAgreement secret).toList =
      2 ^ 248 + ByteReader.ofBigEndian (secret.toList.take 31).reverse := by
    show ByteReader.ofBigEndian (secret.toList.take 31 ++ [1]).reverse = _
    rw [List.reverse_append, List.reverse_singleton, List.singleton_append,
      ByteReader.ofBigEndian_cons]
    simp
  have low := ByteReader.ofBigEndian_lt (secret.toList.take 31).reverse
  have length : (secret.toList.take 31).reverse.length = 31 := by simp
  rw [length] at low
  have bound : littleEndian (sampleAgreement secret).toList < 2 ^ 249 := by
    rw [value]
    omega
  have unmasked : littleEndian (sampleAgreement secret).toList % 2 ^ 255 =
      littleEndian (sampleAgreement secret).toList := Nat.mod_eq_of_lt (by omega)
  have reduced : ¬ fieldPrime ≤ littleEndian (sampleAgreement secret).toList := by
    rw [fieldPrime]
    omega
  rw [x25519PublicKeyAcceptable, unmasked, if_neg reduced, Bool.not_eq_true', List.any_eq_false]
  intro point member same
  have equal := beq_iff_eq.mp same
  have outside : littleEndian point < 2 ^ 248 ∨ 2 ^ 249 ≤ littleEndian point := by
    revert member
    exact (by decide : ∀ point ∈ lowOrderUValues,
      littleEndian point < 2 ^ 248 ∨ 2 ^ 249 ≤ littleEndian point) point
  omega

/-- Key libraries to run the model with: a seed is its own verifying key, and a sealed text is the
text with a tag. -/
def sampleDevice : DeviceCrypto where
  signingPublic := id
  sign seed _ := ⟨seed.toList ++ List.replicate 32 0, by simp⟩
  agreementPublic := sampleAgreement
  sealTo _ _ _ plaintext seed := some (seed, plaintext ++ List.replicate 16 0)
  openWith _ _ _ _ ciphertext := some (ciphertext.take (ciphertext.length - 16))

theorem sampleDevice_lawful : sampleDevice.Lawful sampleCrypto where
  signingAcceptable seed := sampleCrypto_acceptable seed
  agreementAcceptable := sampleAgreement_acceptable
  verifies seed message := by
    have scalar : scalarBelowOrder ((seed.toList ++ List.replicate 32 0).drop 32) = true := by
      rw [List.drop_left' seed.toList_length]
      decide
    have point : signaturePoint (sampleDevice.sign seed message) = seed := by
      refine List.Vector.eq _ _ ?_
      show (seed.toList ++ List.replicate 32 0).take 32 = seed.toList
      exact List.take_left' seed.toList_length
    have canonical : scalarBelowOrder ((sampleDevice.sign seed message).toList.drop 32) = true :=
      scalar
    rw [ed25519VerifyStrict, sampleCrypto_acceptable, point, sampleCrypto_acceptable, canonical]
    show (signaturePoint (sampleDevice.sign seed message) == seed) = true
    rw [point]
    exact beq_self_eq_true seed
  opens secret info aad plaintext seed := by
    refine ⟨seed, plaintext ++ List.replicate 16 0, rfl, by simp, ?_⟩
    simp [sampleDevice]

theorem enabling_founds_one_genesis_fresh :
    Completes sampleCrypto sampleDevice sampleFounder.vaultId .fresh := by
  have refusedNone : ∀ genesis : PersistedGenesis, Custody.fresh.genesis = some genesis →
      genesis.state ≠ .vaultKnown ∧ genesis.state ≠ .genesisResumeLost :=
    fun genesis held => by cases held
  have start : Enabling.Reaches sampleCrypto sampleDevice sampleFounder.vaultId ⟨.fresh, none⟩
      ⟨.fresh, none⟩ := .refl
  obtain ⟨genesis, held, _⟩ | completes :=
    (enabling_founds_one_genesis start).2.2.2 sampleDevice_lawful refusedNone
  · cases held
  · exact completes

end Dohflow.VaultCrypto
