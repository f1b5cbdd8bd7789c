/-
This file proves what an enabling attempt does once its genesis is persisted, and from its
first request to its last.

From the persist on the device holds both halves of the keys the genesis names, and
nothing that its records do not carry (`Founded`). Installing writes absent items only, so
it loses nothing (`Installing.change`), and an attempt without a fault ends with the genesis
installed (`runs_enable`).
-/

import Dohflow.VaultCrypto.SyncEnabling

namespace Dohflow.VaultCrypto

open Fallible SyncCore PlatformTraits DbWorker Program SyncKeyCustody

section

variable {crypto : Crypto} {device : DeviceCrypto} {vaultId : Uuid} {faults excuse : Prop}
  {custody : Custody} {kept : Custody → Prop} {item : Item} {keys : DeviceKeys} {carried : Carried}
  {genesis : PersistedGenesis}
variable {Value : Type} {call : GenesisRow → Except GenesisStoreError (Value × GenesisRow)}
  {request : CustodyRequest} {read : request.Response → Except EnableError Value}
  {stored : StoredItem} {row : GenesisRow}

/-! ### After a genesis -/

/-- What an item holds once a genesis is persisted. -/
def IsCarried (crypto : Crypto) (device : DeviceCrypto) (keys : DeviceKeys) (carried : Carried) :
    Item → StoredItem → Prop
  | .signingKey, stored => stored = signingItem device keys.signing
  | .agreementKey, stored => stored = agreementItem device keys.agreement
  | .epochKey keyEpoch, stored => keyEpoch = 1 ∧
      stored = itemOf carried.epochKey (epochKeyCommitment crypto carried.epochKey)
  | .tagSecret, stored =>
      stored = itemOf carried.tagSecret (tagKeyCommitment crypto carried.tagSecret)
  | .genesisMarker, stored => stored = itemOf carried.recordId carried.recordId

/-- The marker, `K_1` and `S` are all there. -/
structure Installed (store : Secrets Item) : Prop where
  marker : store .genesisMarker ≠ none
  epochKey : store (.epochKey 1) ≠ none
  tagSecret : store .tagSecret ≠ none

/-- A genesis is persisted for these keys, and the store holds nothing that it does not carry. -/
structure Founded (crypto : Crypto) (device : DeviceCrypto) (vaultId : Uuid) (keys : DeviceKeys)
    (carried : Carried) (genesis : PersistedGenesis) (custody : Custody) : Prop where
  persisted : custody.genesis = some genesis
  vault : genesis.vaultId = vaultId
  carries : Carries crypto device vaultId keys (records genesis) carried
  complete : genesis.state = .installed ∨ genesis.state = .published → Installed custody.store
  halves : Halves device keys custody.store
  held : ∀ item stored, custody.store item = some stored → IsCarried crypto device keys carried
    item stored

/-- What holds wherever an installation stops. -/
structure Installing (crypto : Crypto) (device : DeviceCrypto) (vaultId : Uuid) (keys : DeviceKeys)
    (carried : Carried) (genesis : PersistedGenesis) (custody : Custody) : Prop where
  founded : Founded crypto device vaultId keys carried genesis custody
  blameless : Blameless custody

theorem present_change {other : Item} (absent : custody.store item = none)
    (present : custody.store other ≠ none) :
    (custody.change item (some stored)).store other ≠ none := by
  have different : other ≠ item := fun same => present (same ▸ absent)
  rw [Custody.change_store_ne different]
  exact present

theorem Installing.change
    (installing : Installing crypto device vaultId keys carried genesis custody)
    (absent : custody.store item = none)
    (carries : IsCarried crypto device keys carried item stored) :
    Installing crypto device vaultId keys carried genesis (custody.change item (some stored)) := by
  obtain ⟨⟨persisted, vault, carried, complete, halves, held⟩, blameless⟩ := installing
  refine ⟨⟨persisted, vault, carried, fun state => ?_, ?_, ?_⟩, ?_⟩
  · have installed := complete state
    exact ⟨present_change absent installed.marker, present_change absent installed.epochKey,
      present_change absent installed.tagSecret⟩
  · have different (half : Item) {other : StoredItem} (there : custody.store half = some other) :
        (custody.change item (some stored)).store half = some other := by
      have different : half ≠ item := by
        rintro rfl
        rw [absent] at there
        cases there
      rw [Custody.change_store_ne different, there]
    exact ⟨different _ halves.signing, different _ halves.agreement⟩
  · intro other found present
    by_cases same : other = item
    · subst same
      rw [Custody.change_store] at present
      rw [← Option.some.inj present]
      exact carries
    · rw [Custody.change_store_ne same] at present
      exact held other found present
  · intro loss lost
    rw [Custody.change_losses absent] at lost
    exact blameless loss lost

/-! ### Installing -/

theorem runs_installMarker (installing : Installing crypto device vaultId keys carried genesis custody)
    (excused : faults → excuse) :
    Runs (Custody.Serves crypto vaultId faults) excuse (installMarker carried.recordId) custody
      (Installing crypto device vaultId keys carried genesis)
      fun _ after => after.store .genesisMarker ≠ none := by
  refine (runs_publicTag installing excused).bind ?_
  rintro _ after installing ⟨rfl, rfl⟩
  cases marked : after.store .genesisMarker with
  | none =>
    refine (runs_write marked installing (installing.change marked rfl) excused).weaken
      (fun _ keeps => keeps) ?_
    rintro _ _ _ rfl
    simp
  | some stored =>
    obtain rfl := installing.founded.held _ _ marked
    refine runs_computed_bind installing (by simp [orFail, itemOf]) fun tag found => ?_
    obtain rfl := Except.ok.inj found
    refine runs_computed installing (by simp [ensure]) fun _ _ => ?_
    rw [marked]
    simp

theorem runs_missingItem {secret : SecretBytes} {commit : SecretBytes → Digest}
    (held : ∀ stored, custody.store item = some stored → stored = itemOf secret (commit secret))
    (keeps : kept custody) (excused : faults → excuse) :
    Runs (Custody.Serves crypto vaultId faults) excuse (missingItem item secret commit) custody kept
      fun pending after => after = custody ∧
        pending = if custody.store item = none then [⟨item, secret, commit secret⟩] else [] := by
  have holds : Runs (Custody.Serves crypto vaultId faults) excuse
      (alreadyHolds item (commit secret) commit) custody kept
      fun there after => after = custody ∧ there = (custody.store item).isSome := by
    cases stored : custody.store item with
    | none =>
      refine (runs_read_absent stored keeps excused).bind ?_
      rintro _ _ keeps ⟨rfl, rfl⟩
      exact runs_pure keeps ⟨rfl, rfl⟩
    | some found =>
      obtain rfl := held found stored
      refine (runs_read_held stored keeps excused).bind ?_
      rintro _ _ keeps ⟨rfl, rfl⟩
      refine runs_computed_bind keeps (by simp [ensure]) fun _ _ => ?_
      refine runs_computed_bind keeps (by simp [ensure]) fun _ _ => ?_
      exact runs_pure keeps ⟨rfl, rfl⟩
  refine holds.bind ?_
  rintro _ after keeps ⟨rfl, rfl⟩
  cases stored : after.store item with
  | none => exact runs_pure keeps ⟨rfl, by simp⟩
  | some found => exact runs_pure keeps ⟨rfl, by simp⟩

theorem runs_writePending {pending : List Pending}
    (installing : Installing crypto device vaultId keys carried genesis custody)
    (absent : ∀ entry ∈ pending, custody.store entry.item = none)
    (distinct : (pending.map Pending.item).Nodup)
    (carries : ∀ entry ∈ pending, IsCarried crypto device keys carried entry.item
      (itemOf entry.secret entry.commitment)) (excused : faults → excuse) :
    Runs (Custody.Serves crypto vaultId faults) excuse (writePending pending) custody
      (Installing crypto device vaultId keys carried genesis)
      fun _ after => ∀ item, custody.store item ≠ none ∨ item ∈ pending.map Pending.item →
        after.store item ≠ none := by
  induction pending generalizing custody with
  | nil =>
    refine runs_pure installing fun item there => ?_
    exact there.resolve_right List.not_mem_nil
  | cons entry rest inductionHypothesis =>
    have first := absent entry List.mem_cons_self
    have carriesFirst := carries entry List.mem_cons_self
    rw [List.map_cons, List.nodup_cons] at distinct
    refine (runs_write first installing (installing.change first carriesFirst) excused).bind ?_
    rintro _ _ installing rfl
    have later : ∀ other ∈ rest, (custody.change entry.item
        (some (itemOf entry.secret entry.commitment))).store other.item = none := by
      intro other member
      have different : other.item ≠ entry.item := fun same =>
        distinct.1 (same ▸ List.mem_map_of_mem member)
      rw [Custody.change_store_ne different]
      exact absent other (List.mem_cons_of_mem _ member)
    refine (inductionHypothesis installing later distinct.2 fun other member =>
      carries other (List.mem_cons_of_mem _ member)).weaken (fun _ keeps => keeps) ?_
    intro _ after _ ends item there
    obtain present | member := there
    · exact ends item (.inl (present_change first present))
    · obtain rfl | member := List.mem_cons.mp member
      · exact ends _ (.inl (by simp))
      · exact ends item (.inr member)

theorem runs_install {state : VerifiedState}
    (installing : Installing crypto device vaultId keys carried genesis custody)
    (marked : custody.store .genesisMarker ≠ none) (excused : faults → excuse) :
    Runs (Custody.Serves crypto vaultId faults) excuse
      (install crypto (carried.accepted vaultId state)) custody
      (Installing crypto device vaultId keys carried genesis) fun _ after => Installed after.store := by
  have epochKey : Runs (Custody.Serves crypto vaultId faults) excuse
      (missingKeys crypto (carried.accepted vaultId state).installs) custody
      (Installing crypto device vaultId keys carried genesis) fun pending after => after = custody ∧
        pending = if custody.store (.epochKey 1) = none then
          [⟨.epochKey 1, carried.epochKey, epochKeyCommitment crypto carried.epochKey⟩] else [] := by
    have held : ∀ stored, custody.store (.epochKey 1) = some stored → stored =
        itemOf carried.epochKey (epochKeyCommitment crypto carried.epochKey) :=
      fun stored there => (installing.founded.held (.epochKey 1) stored there).2
    refine (runs_missingItem held installing excused).bind ?_
    rintro _ _ installing ⟨rfl, rfl⟩
    exact runs_pure installing ⟨rfl, List.append_nil _⟩
  refine epochKey.bind ?_
  rintro _ custody _ ⟨rfl, rfl⟩
  have held : ∀ stored, custody.store .tagSecret = some stored → stored =
      itemOf carried.tagSecret (tagKeyCommitment crypto carried.tagSecret) :=
    installing.founded.held .tagSecret
  refine (runs_missingItem held installing excused).bind ?_
  rintro _ custody _ ⟨rfl, rfl⟩
  refine (runs_writePending installing ?_ ?_ ?_ excused).weaken (fun _ keeps => keeps) ?_
  · intro entry member
    rcases List.mem_append.mp member with member | member
    · split at member
      · rw [List.mem_singleton.mp member]
        assumption
      · cases member
    · split at member
      · rw [List.mem_singleton.mp member]
        assumption
      · cases member
  · split <;> split <;> simp
  · intro entry member
    rcases List.mem_append.mp member with member | member
    · split at member
      · rw [List.mem_singleton.mp member]
        exact ⟨rfl, rfl⟩
      · cases member
    · split at member
      · rw [List.mem_singleton.mp member]
        rfl
      · cases member
  · intro _ after _ ends
    refine ⟨ends _ (.inl marked), ends _ ?_, ends _ ?_⟩
    · by_cases absent : custody.store (.epochKey 1) = none
      · exact .inr (by simp [absent])
      · exact .inl absent
    · by_cases absent : custody.store .tagSecret = none
      · exact .inr (by simp [absent])
      · exact .inl absent

theorem runs_installGenesis
    (installing : Installing crypto device vaultId keys carried genesis custody)
    (excused : faults → excuse) (unlawful : ¬ device.Lawful crypto → excuse) :
    Runs (Custody.Serves crypto vaultId faults) excuse
      (installGenesis crypto device vaultId (records genesis)) custody
      (Installing crypto device vaultId keys carried genesis) fun _ after => Installed after.store := by
  obtain ⟨state, _, accepts⟩ := installing.founded.carries.accepts
  refine Runs.bind (Runs.adapt (runs_loadDeviceKeys installing.founded.halves installing excused
    unlawful)) ?_
  rintro _ custody installing ⟨rfl, rfl⟩
  refine runs_computed_bind installing (by simp [accepts, Except.mapError]) fun accepted same => ?_
  obtain rfl := Except.ok.inj ((mapError_eq_ok.mp same).symm.trans accepts)
  refine runs_computed_bind installing (by simp [orFail, Carried.accepted]) fun first found => ?_
  obtain rfl := Except.ok.inj found
  refine Runs.bind (Runs.adapt (runs_installMarker installing excused)) ?_
  rintro _ custody installing marked
  exact Runs.adapt (runs_install installing marked excused)

/-! ### The vault's transactions -/

theorem commit_ok {value : Value} (ok : call custody.genesis = .ok (value, row)) :
    custody.commit call = { custody with genesis := row } := by
  rw [Custody.commit, ok]

theorem runs_transaction
    (transacts : ∀ response after, Custody.Serves crypto vaultId faults request custody response
      after → ∃ answer : Except GenesisStoreError Value,
        Custody.Transacts faults call custody answer after ∧
          read response = answer.mapError .genesis) {value : Value}
    (ok : call custody.genesis = .ok (value, row)) (keeps : kept custody)
    (applied : kept { custody with genesis := row }) (excused : faults → excuse) :
    Runs (Custody.Serves crypto vaultId faults) excuse
      (attempt request read : EnableCall Value) custody kept
      fun answer after => answer = value ∧ after = { custody with genesis := row } := by
  refine runs_attempt keeps fun response after served => ?_
  obtain ⟨answer, transacts, reads⟩ := transacts response after served
  rw [reads]
  obtain ⟨rfl, rfl⟩ | ⟨fault, rfl, rfl | rfl⟩ := transacts
  · rw [commit_ok ok, ok]
    exact ⟨applied, rfl, rfl⟩
  · exact ⟨keeps, excused fault⟩
  · rw [commit_ok ok]
    exact ⟨applied, excused fault⟩

theorem runs_refused {done : Value → Custody → Prop}
    (transacts : ∀ response after, Custody.Serves crypto vaultId faults request custody response
      after → ∃ answer : Except GenesisStoreError Value,
        Custody.Transacts faults call custody answer after ∧
          read response = answer.mapError .genesis) {error : GenesisStoreError}
    (refused : call custody.genesis = .error error) (keeps : kept custody) (excused : excuse) :
    Runs (Custody.Serves crypto vaultId faults) excuse
      (attempt request read : EnableCall Value) custody kept done := by
  have unchanged : custody.commit call = custody := by
    rw [Custody.commit, refused]
  refine runs_attempt keeps fun response after served => ?_
  obtain ⟨answer, transacts, reads⟩ := transacts response after served
  rw [reads]
  rw [Custody.Transacts, unchanged, refused] at transacts
  obtain ⟨rfl, rfl⟩ | ⟨fault, rfl, rfl | rfl⟩ := transacts
  · exact ⟨keeps, excused⟩
  · exact ⟨keeps, excused⟩
  · exact ⟨keeps, excused⟩

/-! ### An attempt -/

/-- What holds of a device at every point of every run. -/
def Sound (crypto : Crypto) (device : DeviceCrypto) (vaultId : Uuid) (custody : Custody) : Prop :=
  Unfounded device custody ∨
    ∃ keys carried genesis, Founded crypto device vaultId keys carried genesis custody

/-- What holds wherever an attempt stops. -/
structure Attempting (crypto : Crypto) (device : DeviceCrypto) (vaultId : Uuid)
    (custody : Custody) : Prop where
  sound : Sound crypto device vaultId custody
  excusable : Excusable custody

/-- What an attempt that succeeds leaves. -/
structure Enabled (crypto : Crypto) (device : DeviceCrypto) (vaultId : Uuid) (custody : Custody) :
    Prop where
  founded : ∃ keys carried genesis, Founded crypto device vaultId keys carried genesis custody ∧
    genesis.state = .installed
  installed : Installed custody.store
  blameless : Blameless custody

theorem Installing.attempting
    (installing : Installing crypto device vaultId keys carried genesis custody) :
    Attempting crypto device vaultId custody :=
  ⟨.inr ⟨keys, carried, genesis, installing.founded⟩, installing.blameless.excusable⟩

theorem Prepared.founds {prepared : GenesisRecords}
    (ready : Prepared crypto device vaultId prepared custody) :
    ∃ keys carried genesis, persist crypto vaultId prepared.membership prepared.epoch custody.genesis =
        .ok (.persisted, some genesis) ∧ genesis.state = .persisted ∧ records genesis = prepared ∧
      Installing crypto device vaultId keys carried genesis
        { custody with genesis := some genesis } := by
  obtain ⟨⟨unfounded, blameless⟩, keys, carried, halves, carries⟩ := ready
  obtain ⟨state, verified, _⟩ := carries.accepts
  let genesis : PersistedGenesis :=
    { vaultId, membershipRecord := prepared.membership, epochRecord := prepared.epoch
      state := .persisted, exportHighWater := none }
  refine ⟨keys, carried, genesis, ?_, rfl, rfl, ⟨rfl, rfl, carries, ?_, halves, ?_⟩, blameless⟩
  · rw [unfounded.genesis]
    exact persist_first verified
  · rintro (state | state) <;> cases state
  · intro item stored held
    have half := unfounded.halves item stored held
    cases item with
    | signingKey => exact Option.some.inj (held.symm.trans halves.signing)
    | agreementKey => exact Option.some.inj (held.symm.trans halves.agreement)
    | epochKey => exact half.elim
    | tagSecret => exact half.elim
    | genesisMarker => exact half.elim

theorem runs_installed
    (installing : Installing crypto device vaultId keys carried genesis custody)
    (excused : faults → excuse) (unlawful : ¬ device.Lawful crypto → excuse)
    (settled : ¬ (genesis.state = .persisted ∨ genesis.state = .installed) → excuse) :
    Runs (Custody.Serves crypto vaultId faults) excuse
      (do
        installGenesis crypto device vaultId (records genesis)
        attempt (.advance .installed) (Except.mapError .genesis) : EnableCall GenesisState) custody
      (Attempting crypto device vaultId) fun state after =>
        state = .installed ∧ Enabled crypto device vaultId after := by
  refine Runs.bind ((runs_installGenesis installing excused unlawful).weaken
    (fun _ keeps => keeps.attempting) fun _ _ installing installed =>
      And.intro installing installed) ?_
  rintro _ custody attempting ⟨installing, installed⟩
  have transacts : ∀ response after, Custody.Serves crypto vaultId faults (.advance .installed)
      custody response after → ∃ answer : Except GenesisStoreError GenesisState,
        Custody.Transacts faults (advance .installed) custody answer after ∧
          Except.mapError EnableError.genesis response = answer.mapError .genesis :=
    fun response after served => ⟨response, served, rfl⟩
  by_cases installable : genesis.state = .persisted ∨ genesis.state = .installed
  · have moved : advance .installed custody.genesis =
        .ok (.installed, some { genesis with state := .installed }) := by
      rw [installing.founded.persisted, advance_installed installable]
    have founded : Founded crypto device vaultId keys carried
        { genesis with state := .installed }
        { custody with genesis := some { genesis with state := .installed } } :=
      ⟨rfl, installing.founded.vault, installing.founded.carries, fun _ => installed,
        installing.founded.halves, installing.founded.held⟩
    refine (runs_transaction transacts moved attempting ⟨.inr ⟨_, _, _, founded⟩, attempting.excusable⟩ excused).weaken
      (fun _ keeps => keeps) ?_
    rintro _ _ _ ⟨rfl, rfl⟩
    exact ⟨rfl, ⟨_, _, _, founded, rfl⟩, installed, installing.blameless⟩
  · have refused : advance .installed custody.genesis =
        .error (.badTransition genesis.state .installed) := by
      rw [installing.founded.persisted, advance_settled installable]
    exact runs_refused transacts refused attempting (settled installable)

theorem runs_enable (deviceId : Uuid) (issuedAt : Int64)
    (sound : Sound crypto device vaultId custody) (nothingLost : custody.losses = [])
    (excused : faults → excuse) (unlawful : ¬ device.Lawful crypto → excuse)
    (settled : ∀ genesis, custody.genesis = some genesis →
      ¬ (genesis.state = .persisted ∨ genesis.state = .installed) → excuse) :
    Runs (Custody.Serves crypto vaultId faults) excuse
      (enable crypto device vaultId deviceId issuedAt) custody (Attempting crypto device vaultId)
      fun state after => state = .installed ∧ Enabled crypto device vaultId after := by
  have blameless : Blameless custody := by
    intro loss lost
    rw [nothingLost] at lost
    cases lost
  have attempting : Attempting crypto device vaultId custody := ⟨sound, blameless.excusable⟩
  have loads : Runs (Custody.Serves crypto vaultId faults) excuse
      (attempt .load (Except.mapError .genesis) : EnableCall GenesisRow) custody
      (Attempting crypto device vaultId)
      fun row after => after = custody ∧ row = custody.genesis := by
    refine runs_attempt attempting fun response after served => ?_
    obtain ⟨rfl, rfl | ⟨fault, rfl⟩⟩ := served
    · exact ⟨attempting, rfl, rfl⟩
    · exact ⟨attempting, excused fault⟩
  refine loads.bind ?_
  rintro row custody _ ⟨rfl, rfl⟩
  obtain unfounded | ⟨keys, carried, genesis, founded⟩ := sound
  · rw [unfounded.genesis]
    have prepares : Runs (Custody.Serves crypto vaultId faults) excuse
        (prepareGenesis crypto device vaultId deviceId issuedAt) custody
        (Attempting crypto device vaultId)
        fun records after => Prepared crypto device vaultId records after :=
      (runs_prepareGenesis deviceId issuedAt ⟨unfounded, blameless⟩ excused unlawful).weaken
        (fun _ preparing => ⟨.inl preparing.unfounded, preparing.excusable⟩)
        fun _ _ _ prepared => prepared
    refine prepares.bind ?_
    intro prepared custody _ ready
    obtain ⟨keys, carried, genesis, persists, first, same, installing⟩ := ready.founds
    have transacts : ∀ response after, Custody.Serves crypto vaultId faults (.persist prepared)
        custody response after → ∃ answer : Except GenesisStoreError GenesisState,
          Custody.Transacts faults (persist crypto vaultId prepared.membership prepared.epoch)
            custody answer after ∧
          Except.mapError EnableError.genesis response = answer.mapError .genesis :=
      fun response after served => ⟨response, served, rfl⟩
    have before : Attempting crypto device vaultId custody :=
      ⟨.inl ready.clean.unfounded, ready.clean.blameless.excusable⟩
    refine (runs_transaction transacts persists before installing.attempting excused).bind ?_
    rintro _ _ _ ⟨rfl, rfl⟩
    rw [← same]
    exact runs_installed installing excused unlawful fun settled => absurd (.inl first) settled
  · rw [founded.persisted]
    exact runs_installed ⟨founded, blameless⟩ excused unlawful (settled genesis founded.persisted)

end

end Dohflow.VaultCrypto
