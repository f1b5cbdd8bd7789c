/-
This file proves what each call of enabling Sync does to what the device holds.

`Custody` is the device's secret store and the vault's genesis row, with the history the
statements need: what the running attempt wrote, and every item it lost. Before a genesis
is persisted a device holds nothing but halves of its keys (`Unfounded`); afterwards it
holds both, and nothing that the persisted records do not carry (`Founded`). Faults are a
parameter, so one specification says both what every run keeps and that a run without a
fault succeeds.
-/

import Dohflow.Foundation.Sessions
import Dohflow.VaultCrypto.SyncCustody

namespace Dohflow.VaultCrypto

open Fallible SyncCore PlatformTraits DbWorker Program SyncKeyCustody

/-! ### What the device holds -/

/-- An item that was there and is no longer, or is another. -/
structure Loss where
  item : Item
  /-- It was one half of the device keys, with no other half. -/
  lone : Bool
  /-- The running attempt had written it. -/
  own : Bool
  /-- A genesis was persisted. -/
  founded : Bool

/-- What a device holds for a vault. -/
structure Custody where
  store : Secrets Item
  genesis : GenesisRow
  /-- The items the running attempt has written. -/
  written : List Item
  /-- The items lost since it started. -/
  losses : List Loss

namespace Custody

/-- A device that never enabled Sync. -/
def fresh : Custody := { store := fun _ => none, genesis := none, written := [], losses := [] }

/-- Whether the item is a half of the device keys whose other half is absent. -/
def lone (custody : Custody) : Item → Bool
  | .signingKey => (custody.store .agreementKey).isNone
  | .agreementKey => (custody.store .signingKey).isNone
  | _ => false

/-- What is lost where an item becomes another. -/
def loss (custody : Custody) (item : Item) (now : Option StoredItem) : List Loss :=
  if custody.store item = none ∨ custody.store item = now then []
  else [{ item, lone := custody.lone item, own := item ∈ custody.written
          founded := custody.genesis.isSome }]

/-- The item after a write or a delete. -/
def change (custody : Custody) (item : Item) (now : Option StoredItem) : Custody :=
  { custody with
    store := Function.update custody.store item now
    written := if now ≠ none ∧ custody.store item ≠ now then item :: custody.written
      else custody.written
    losses := custody.losses ++ custody.loss item now }

/-- The row after a transaction: what the call leaves, or what it was. -/
def commit {Value : Type} (custody : Custody)
    (call : GenesisRow → Except GenesisStoreError (Value × GenesisRow)) : Custody :=
  match call custody.genesis with
  | .ok (_, row) => { custody with genesis := row }
  | .error _ => custody

/-- What a vault transaction does: it is applied and answers, or it fails, applied or not. -/
def Transacts {Value : Type} (faults : Prop)
    (call : GenesisRow → Except GenesisStoreError (Value × GenesisRow)) (custody : Custody)
    (response : Except GenesisStoreError Value) (after : Custody) : Prop :=
  (response = (call custody.genesis).map Prod.fst ∧ after = custody.commit call) ∨
    (faults ∧ response = .error .unavailable ∧ (after = custody ∨ after = custody.commit call))

/-- What the device and the vault can do with a request. -/
def Serves (crypto : Crypto) (vaultId : Uuid) (faults : Prop) :
    Program.Serves CustodyRequest CustodyRequest.Response Custody
  | .publicTag item, before, response, after =>
    after = before ∧ Secrets.Reads faults StoredItem.tag (before.store item) response
  | .loadSecret item, before, response, after =>
    after = before ∧ Secrets.Reads faults StoredItem.value (before.store item) response
  | .storeSecretTagged item value tag, before, response, after =>
    ∃ now, Secrets.Writes faults { value, tag := some tag } (before.store item) response now ∧
      after = before.change item now
  | .deleteSecret item, before, response, after =>
    ∃ now, Secrets.Deletes faults (before.store item) response now ∧
      after = before.change item now
  | .generateSecret, before, response, after => after = before ∧ (faults ∨ response ≠ none)
  | .load, before, response, after =>
    after = before ∧ (response = .ok before.genesis ∨ (faults ∧ response = .error .unavailable))
  | .persist records, before, response, after =>
    Transacts faults (DbWorker.persist crypto vaultId records.membership records.epoch) before
      response after
  | .advance next, before, response, after =>
    Transacts faults (DbWorker.advance next) before response after

variable {custody : Custody} {item other : Item} {now : Option StoredItem}

@[simp] theorem change_store : (custody.change item now).store item = now :=
  Function.update_self _ _ _

@[simp] theorem change_store_ne (different : other ≠ item) :
    (custody.change item now).store other = custody.store other :=
  Function.update_of_ne different _ _

theorem change_self : custody.change item (custody.store item) = custody := by
  simp [change, loss]

theorem change_losses (absent : custody.store item = none) :
    (custody.change item now).losses = custody.losses := by
  simp [change, loss, absent]

theorem mem_loss {loss : Loss} (lost : loss ∈ custody.loss item now) :
    loss.item = item ∧ loss.lone = custody.lone item ∧
      loss.own = decide (item ∈ custody.written) ∧ loss.founded = custody.genesis.isSome := by
  unfold Custody.loss at lost
  split at lost
  · cases lost
  · rw [List.mem_singleton.mp lost]
    exact ⟨rfl, rfl, rfl, rfl⟩

theorem change_written (absent : custody.store item = none) (present : now ≠ none) :
    item ∈ (custody.change item now).written := by
  simp [change, absent, present, present.symm]

theorem written_change (wrote : other ∈ custody.written) :
    other ∈ (custody.change item now).written := by
  unfold Custody.change
  dsimp only
  split
  · exact List.mem_cons_of_mem _ wrote
  · exact wrote

end Custody

section

variable {crypto : Crypto} {device : DeviceCrypto} {vaultId : Uuid} {faults excuse : Prop}
  {custody : Custody} {kept : Custody → Prop} {item : Item}
variable {now : Option StoredItem} {secret tag : Fixed 32} {keys : DeviceKeys}

/-! ### Reading and writing items -/

theorem runs_publicTag (keeps : kept custody) (excused : faults → excuse) :
    Runs (Custody.Serves crypto vaultId faults) excuse (publicTag item) custody kept
      fun tag after => after = custody ∧ tag = (custody.store item).map StoredItem.tag := by
  refine runs_attempt keeps fun response after served => ?_
  obtain ⟨rfl, rfl | ⟨fault, error, known, rfl⟩⟩ := served
  · cases held : after.store item with
    | none => exact ⟨keeps, rfl, rfl⟩
    | some stored => exact ⟨keeps, rfl, rfl⟩
  · cases error with
    | notFound => exact absurd rfl known
    | _ => exact ⟨keeps, excused fault⟩

theorem runs_holds (keeps : kept custody) (excused : faults → excuse) :
    Runs (Custody.Serves crypto vaultId faults) excuse (holds item) custody kept
      fun held after => after = custody ∧ held = (custody.store item).isSome := by
  refine (runs_publicTag keeps excused).bind ?_
  rintro tag after keeps ⟨rfl, rfl⟩
  exact runs_pure keeps ⟨rfl, by simp⟩

/-- A secret with its tag, as custody writes it. -/
def itemOf (secret tag : Fixed 32) : StoredItem := { value := secret.toList, tag := some tag.toList }

theorem runs_loadSecret (keeps : kept custody) (excused : faults → excuse) :
    Runs (Custody.Serves crypto vaultId faults) excuse
      (attempt (.loadSecret item) found : CustodyCall (Option (List UInt8))) custody kept
      fun value after => after = custody ∧ value = (custody.store item).map StoredItem.value := by
  refine runs_attempt keeps fun response after served => ?_
  obtain ⟨rfl, rfl | ⟨fault, error, known, rfl⟩⟩ := served
  · cases held : after.store item with
    | none => exact ⟨keeps, rfl, rfl⟩
    | some stored => exact ⟨keeps, rfl, rfl⟩
  · cases error with
    | notFound => exact absurd rfl known
    | _ => exact ⟨keeps, excused fault⟩

theorem runs_read_absent (absent : custody.store item = none) (keeps : kept custody)
    (excused : faults → excuse) :
    Runs (Custody.Serves crypto vaultId faults) excuse (read item) custody kept
      fun result after => after = custody ∧ result = none := by
  refine (runs_publicTag keeps excused).bind ?_
  rintro tag after keeps ⟨rfl, rfl⟩
  rw [absent]
  exact runs_pure keeps ⟨rfl, rfl⟩

theorem runs_read_held (held : custody.store item = some (itemOf secret tag)) (keeps : kept custody)
    (excused : faults → excuse) :
    Runs (Custody.Serves crypto vaultId faults) excuse (read item) custody kept
      fun result after => after = custody ∧ result = some (secret, tag.toList) := by
  refine (runs_publicTag keeps excused).bind ?_
  rintro found after keeps ⟨rfl, rfl⟩
  rw [held]
  refine (runs_loadSecret keeps excused).bind ?_
  rintro value after keeps ⟨rfl, rfl⟩
  rw [held]
  simp only [Option.map_some, itemOf, fromSlice_toList]
  exact runs_pure keeps ⟨rfl, rfl⟩

theorem runs_write (absent : custody.store item = none) (keeps : kept custody)
    (written : kept (custody.change item (some (itemOf secret tag)))) (excused : faults → excuse) :
    Runs (Custody.Serves crypto vaultId faults) excuse (write item secret tag) custody kept
      fun _ after => after = custody.change item (some (itemOf secret tag)) := by
  refine runs_attempt keeps fun response after served => ?_
  obtain ⟨now, ⟨rfl, rfl⟩ | ⟨fault, ⟨error, rfl⟩, became⟩, rfl⟩ := served
  · exact ⟨written, rfl⟩
  · have unchanged : custody.change item none = custody := by
      rw [← absent, Custody.change_self]
    obtain rfl | rfl | rfl := became
    · rw [Custody.change_self]
      exact ⟨keeps, excused fault⟩
    · rw [unchanged]
      exact ⟨keeps, excused fault⟩
    · exact ⟨written, excused fault⟩

theorem runs_delete (keeps : kept custody) (deleted : kept (custody.change item none))
    (excused : faults → excuse) :
    Runs (Custody.Serves crypto vaultId faults) excuse (delete item) custody kept
      fun _ after => after = custody.change item none := by
  refine runs_attempt keeps fun response after served => ?_
  obtain ⟨now, ⟨rfl, rfl⟩ | ⟨fault, ⟨error, rfl⟩, rfl | rfl⟩, rfl⟩ := served
  · exact ⟨deleted, rfl⟩
  · rw [Custody.change_self]
    exact ⟨keeps, excused fault⟩
  · exact ⟨deleted, excused fault⟩

theorem runs_generateSecret (keeps : kept custody) (excused : faults → excuse) :
    Runs (Custody.Serves crypto vaultId faults) excuse generateSecret custody kept
      fun _ after => after = custody := by
  refine runs_attempt keeps fun response after served => ?_
  obtain ⟨rfl, fault | given⟩ := served
  · cases response with
    | none => exact ⟨keeps, excused fault⟩
    | some secret => exact ⟨keeps, rfl⟩
  · cases response with
    | none => exact absurd rfl given
    | some secret => exact ⟨keeps, rfl⟩

/-! ### The device keys -/

def signingItem (device : DeviceCrypto) (secret : SecretBytes) : StoredItem :=
  itemOf secret (device.signingPublic secret)

def agreementItem (device : DeviceCrypto) (secret : SecretBytes) : StoredItem :=
  itemOf secret (device.agreementPublic secret)

/-- The store holds both halves of these keys. -/
structure Halves (device : DeviceCrypto) (keys : DeviceKeys) (store : Secrets Item) : Prop where
  signing : store .signingKey = some (signingItem device keys.signing)
  agreement : store .agreementKey = some (agreementItem device keys.agreement)

theorem runs_hasDeviceKeys (keeps : kept custody) (excused : faults → excuse) :
    Runs (Custody.Serves crypto vaultId faults) excuse hasDeviceKeys custody kept
      fun both after => after = custody ∧
        (both = true ↔ custody.store .signingKey ≠ none ∧ custody.store .agreementKey ≠ none) := by
  refine (runs_holds keeps excused).bind ?_
  rintro signing after keeps ⟨rfl, rfl⟩
  cases held : after.store .signingKey with
  | none => exact runs_pure keeps ⟨rfl, by simp⟩
  | some stored =>
    refine (runs_holds keeps excused).weaken (fun _ keeps => keeps) ?_
    rintro both later _ ⟨rfl, rfl⟩
    exact ⟨rfl, by simp [Option.isSome_iff_ne_none]⟩

theorem runs_loadDeviceKeys (halves : Halves device keys custody.store) (keeps : kept custody)
    (excused : faults → excuse) (unlawful : ¬ device.Lawful crypto → excuse) :
    Runs (Custody.Serves crypto vaultId faults) excuse (loadDeviceKeys crypto device) custody kept
      fun loaded after => after = custody ∧ loaded = keys := by
  refine (runs_read_held halves.signing keeps excused).bind ?_
  rintro _ after keeps ⟨rfl, rfl⟩
  refine runs_computed_bind keeps (by simp [orFail]) fun found same => ?_
  obtain rfl := Except.ok.inj same
  refine (runs_read_held halves.agreement keeps excused).bind ?_
  rintro _ after keeps ⟨rfl, rfl⟩
  refine runs_computed_bind keeps (by simp [orFail]) fun found same => ?_
  obtain rfl := Except.ok.inj same
  refine runs_computed_bind keeps (fun failure failed => unlawful fun lawful => ?_) fun found same => ?_
  · rw [lawful.fromSecrets] at failed
    cases failed
  simp only [mapError_eq_ok, DeviceKeys.fromSecrets, ensure_bind_eq_ok, pure, Except.pure,
    Except.ok.injEq] at same
  obtain ⟨_, _, rfl⟩ := same
  refine runs_computed_bind keeps (by simp [DeviceKeys.publicKeys, ensure]) fun _ _ => ?_
  refine runs_computed_bind keeps (by simp [DeviceKeys.publicKeys, ensure]) fun _ _ => ?_
  exact runs_pure keeps ⟨rfl, rfl⟩

/-! ### Before a genesis -/

/-- The item is a half of the device keys, under its own tag. -/
def IsHalf (device : DeviceCrypto) : Item → StoredItem → Prop
  | .signingKey, stored => ∃ secret, stored = signingItem device secret
  | .agreementKey, stored => ∃ secret, stored = agreementItem device secret
  | _, _ => False

/-- No genesis is persisted, and nothing but halves of the device keys is stored. -/
structure Unfounded (device : DeviceCrypto) (custody : Custody) : Prop where
  genesis : custody.genesis = none
  halves : ∀ item stored, custody.store item = some stored → IsHalf device item stored

/-- Every item lost was a lone half or the attempt's own, and no genesis was persisted. -/
def Excusable (custody : Custody) : Prop :=
  ∀ loss ∈ custody.losses, loss.founded = false ∧ (loss.lone = true ∨ loss.own = true)

/-- Every item lost was a lone half, and no genesis was persisted. -/
def Blameless (custody : Custody) : Prop :=
  ∀ loss ∈ custody.losses, loss.founded = false ∧ loss.lone = true

theorem Blameless.excusable (blameless : Blameless custody) : Excusable custody :=
  fun loss lost => ⟨(blameless loss lost).1, .inl (blameless loss lost).2⟩

/-- What holds wherever the preparation of a genesis stops. -/
structure Preparing (device : DeviceCrypto) (custody : Custody) : Prop where
  unfounded : Unfounded device custody
  excusable : Excusable custody

/-- What holds while it has lost only lone halves. -/
structure Clean (device : DeviceCrypto) (custody : Custody) : Prop where
  unfounded : Unfounded device custody
  blameless : Blameless custody

theorem Clean.preparing (clean : Clean device custody) : Preparing device custody :=
  ⟨clean.unfounded, clean.blameless.excusable⟩

theorem Unfounded.absent (unfounded : Unfounded device custody)
    (other : ∀ stored, ¬ IsHalf device item stored) : custody.store item = none := by
  cases held : custody.store item with
  | none => rfl
  | some stored => exact absurd (unfounded.halves item stored held) (other stored)

theorem Unfounded.change (unfounded : Unfounded device custody)
    (half : ∀ stored, now = some stored → IsHalf device item stored) :
    Unfounded device (custody.change item now) := by
  refine ⟨unfounded.genesis, fun other stored held => ?_⟩
  by_cases same : other = item
  · subst same
    rw [Custody.change_store] at held
    exact half stored held
  · rw [Custody.change_store_ne same] at held
    exact unfounded.halves other stored held

/-- Changing a half before a genesis loses a lone half, or one the attempt wrote. -/
theorem Preparing.change (preparing : Preparing device custody)
    (half : ∀ stored, now = some stored → IsHalf device item stored)
    (excused : custody.lone item = true ∨ item ∈ custody.written) :
    Preparing device (custody.change item now) := by
  refine ⟨preparing.unfounded.change half, fun loss lost => ?_⟩
  obtain earlier | lost := List.mem_append.mp lost
  · exact preparing.excusable loss earlier
  · obtain ⟨_, lone, own, founded⟩ := Custody.mem_loss lost
    refine ⟨by rw [founded, preparing.unfounded.genesis]; rfl, ?_⟩
    rw [lone, own, decide_eq_true_eq]
    exact excused

theorem Clean.change (clean : Clean device custody)
    (half : ∀ stored, now = some stored → IsHalf device item stored)
    (excused : custody.store item = none ∨ custody.lone item = true) :
    Clean device (custody.change item now) := by
  refine ⟨clean.unfounded.change half, fun loss lost => ?_⟩
  obtain absent | lone := excused
  · rw [Custody.change_losses absent] at lost
    exact clean.blameless loss lost
  · obtain earlier | lost := List.mem_append.mp lost
    · exact clean.blameless loss earlier
    · obtain ⟨_, isLone, _, founded⟩ := Custody.mem_loss lost
      exact ⟨by rw [founded, clean.unfounded.genesis]; rfl, by rw [isLone, lone]⟩

theorem runs_deleteHeld (clean : Clean device custody)
    (lone : custody.store item = none ∨ custody.lone item = true) (excused : faults → excuse) :
    Runs (Custody.Serves crypto vaultId faults) excuse (deleteHeld item) custody (Clean device)
      fun _ after => after = custody.change item none := by
  have gone : Clean device (custody.change item none) :=
    clean.change (fun stored held => by cases held) lone
  refine (runs_holds clean excused).bind ?_
  rintro held after clean ⟨rfl, rfl⟩
  cases stored : after.store item with
  | none =>
    refine runs_pure clean ?_
    rw [← stored, Custody.change_self]
  | some half => exact runs_delete clean gone excused

theorem runs_writeDeviceKeys (clean : Clean device custody)
    (noSigning : custody.store .signingKey = none)
    (noAgreement : custody.store .agreementKey = none) (excused : faults → excuse) :
    Runs (Custody.Serves crypto vaultId faults) excuse (writeDeviceKeys crypto device keys) custody
      (Preparing device) fun _ after => Clean device after ∧ Halves device keys after.store := by
  have halfSigning : ∀ stored, some (signingItem device keys.signing) = some stored →
      IsHalf device .signingKey stored :=
    fun stored same => ⟨keys.signing, (Option.some.inj same).symm⟩
  have halfAgreement : ∀ stored, some (agreementItem device keys.agreement) = some stored →
      IsHalf device .agreementKey stored :=
    fun stored same => ⟨keys.agreement, (Option.some.inj same).symm⟩
  have signed := clean.change halfSigning (.inl noSigning)
  have lacks : (custody.change .signingKey
      (some (signingItem device keys.signing))).store .agreementKey = none := by
    rw [Custody.change_store_ne (by decide), noAgreement]
  have both := signed.change halfAgreement (.inl lacks)
  refine (runs_write noSigning clean.preparing signed.preparing excused).bind ?_
  rintro _ after _ rfl
  have wrote : .signingKey ∈ (custody.change .signingKey
      (some (signingItem device keys.signing))).written :=
    Custody.change_written noSigning (by simp)
  let partway : Custody → Prop := fun after => Clean device after ∧ .signingKey ∈ after.written
  have second : Runs (Custody.Serves crypto vaultId faults) excuse
      (write .agreementKey keys.agreement (device.agreementPublic keys.agreement)) _ partway _ :=
    runs_write lacks ⟨signed, wrote⟩ ⟨both, Custody.written_change wrote⟩ excused
  refine Runs.weaken (second.cleanUp (fun after keeps => keeps.1.preparing) ?_)
    (fun _ keeps => keeps) ?_
  · -- The first half goes again: the attempt wrote it, and it fails.
    rintro after response cleaned ⟨clean, wrote⟩ ⟨now, removal, rfl⟩
    have removed := clean.preparing.change (fun stored (held : none = some stored) =>
      by cases held) (.inr wrote)
    obtain ⟨_, rfl⟩ | ⟨_, _, rfl | rfl⟩ := removal
    · exact removed
    · rw [Custody.change_self]
      exact clean.preparing
    · exact removed
  · rintro _ after _ rfl
    refine ⟨both, ?_, Custody.change_store⟩
    rw [Custody.change_store_ne (by decide)]
    exact Custody.change_store

/-- A device with a half missing makes new keys, and only a lone half is replaced. -/
theorem runs_makeDeviceKeys (clean : Clean device custody)
    (missing : custody.store .signingKey = none ∨ custody.store .agreementKey = none)
    (excused : faults → excuse) (unlawful : ¬ device.Lawful crypto → excuse) :
    Runs (Custody.Serves crypto vaultId faults) excuse (makeDeviceKeys crypto device) custody
      (Preparing device)
      fun keys after => Clean device after ∧ Halves device keys after.store := by
  have generates : Runs (Custody.Serves crypto vaultId faults) excuse
      (generateDeviceKeys crypto device) custody (Preparing device)
      fun _ after => after = custody := by
    refine (runs_generateSecret clean.preparing excused).bind ?_
    rintro signing _ _ rfl
    refine (runs_generateSecret clean.preparing excused).bind ?_
    rintro agreement _ _ rfl
    refine runs_computed clean.preparing (fun failure failed => unlawful fun lawful => ?_)
      fun _ _ => rfl
    rw [lawful.fromSecrets] at failed
    cases failed
  refine generates.bind ?_
  rintro keys custody _ rfl
  -- Each half still there is the only one.
  have lone : custody.store .signingKey = none ∨ custody.lone .signingKey = true :=
    missing.imp_right fun absent => by rw [Custody.lone, absent]; rfl
  refine Runs.bind (Runs.adapt ((runs_deleteHeld clean lone excused).weaken
    (fun _ clean => clean.preparing) fun _ _ clean same => And.intro clean same)) ?_
  rintro _ _ _ ⟨clean, rfl⟩
  have lone : (custody.change .signingKey none).lone .agreementKey = true := by
    rw [Custody.lone, Custody.change_store]
    rfl
  refine Runs.bind (Runs.adapt ((runs_deleteHeld clean (.inr lone) excused).weaken
    (fun _ clean => clean.preparing) fun _ _ clean same => And.intro clean same)) ?_
  rintro _ _ _ ⟨clean, rfl⟩
  have noSigning : ((custody.change .signingKey none).change .agreementKey none).store .signingKey =
      none := by
    rw [Custody.change_store_ne (by decide), Custody.change_store]
  refine Runs.bind (Runs.adapt (runs_writeDeviceKeys clean noSigning Custody.change_store
    excused)) ?_
  rintro _ after preparing ⟨clean, halves⟩
  exact runs_pure preparing ⟨clean, halves⟩

/-- What a device is when its genesis is prepared: both halves are there, and the records carry a
genesis for them. -/
structure Prepared (crypto : Crypto) (device : DeviceCrypto) (vaultId : Uuid)
    (records : GenesisRecords) (custody : Custody) : Prop where
  clean : Clean device custody
  carries : ∃ keys carried, Halves device keys custody.store ∧
    Carries crypto device vaultId keys records carried

theorem runs_deviceKeys (clean : Clean device custody) (excused : faults → excuse)
    (unlawful : ¬ device.Lawful crypto → excuse) :
    Runs (Custody.Serves crypto vaultId faults) excuse (deviceKeys crypto device) custody
      (Preparing device)
      fun keys after => Clean device after ∧ Halves device keys after.store := by
  refine Runs.bind (Runs.adapt (runs_hasDeviceKeys clean.preparing excused)) ?_
  rintro both custody _ ⟨rfl, present⟩
  cases both with
  | false =>
    have missing : custody.store .signingKey = none ∨ custody.store .agreementKey = none := by
      by_contra neither
      rw [not_or] at neither
      exact absurd (present.mpr neither) (by simp)
    exact runs_makeDeviceKeys clean missing excused unlawful
  | true =>
    obtain ⟨signing, agreement⟩ := present.mp rfl
    obtain ⟨signing, heldSigning⟩ := Option.ne_none_iff_exists'.mp signing
    obtain ⟨agreement, heldAgreement⟩ := Option.ne_none_iff_exists'.mp agreement
    obtain ⟨signing, rfl⟩ := clean.unfounded.halves _ _ heldSigning
    obtain ⟨agreement, rfl⟩ := clean.unfounded.halves _ _ heldAgreement
    have halves : Halves device { signing, agreement } custody.store :=
      ⟨heldSigning, heldAgreement⟩
    refine Runs.adapt ((runs_loadDeviceKeys halves clean.preparing excused unlawful).weaken
      (fun _ keeps => keeps) ?_)
    rintro _ _ _ ⟨rfl, rfl⟩
    exact ⟨clean, halves⟩

theorem runs_notHeld {Value : Type} {next : EnableCall Value} {done : Value → Custody → Prop}
    (absent : custody.store item = none) (keeps : kept custody) (excused : faults → excuse)
    (rest : Runs (Custody.Serves crypto vaultId faults) excuse next custody kept done) :
    Runs (Custody.Serves crypto vaultId faults) excuse
      (do
        if ← (holds item : EnableCall Bool) then throw .alreadyEnabled
        next) custody kept done := by
  refine Runs.bind (Runs.adapt (runs_holds keeps excused)) ?_
  rintro _ _ _ ⟨rfl, rfl⟩
  rw [absent]
  exact rest

theorem runs_prepareGenesis (deviceId : Uuid) (issuedAt : Int64) (clean : Clean device custody)
    (excused : faults → excuse) (unlawful : ¬ device.Lawful crypto → excuse) :
    Runs (Custody.Serves crypto vaultId faults) excuse
      (prepareGenesis crypto device vaultId deviceId issuedAt) custody (Preparing device)
      fun records after => Prepared crypto device vaultId records after := by
  have absent (item : Item) (other : ∀ stored, ¬ IsHalf device item stored) :
      custody.store item = none := clean.unfounded.absent other
  unfold prepareGenesis
  refine runs_notHeld (absent _ fun _ half => half) clean.preparing excused ?_
  refine runs_notHeld (absent _ fun _ half => half) clean.preparing excused ?_
  refine runs_notHeld (absent _ fun _ half => half) clean.preparing excused ?_
  refine (runs_deviceKeys clean excused unlawful).bind ?_
  rintro keys custody preparing ⟨clean, halves⟩
  refine (runs_generateSecret preparing excused).bind ?_
  rintro epochRoot custody _ rfl
  refine runs_computed_bind preparing (by simp [EpochKey.fromVerified, ensure, Except.mapError]) ?_
  intro epochKey built
  refine (runs_generateSecret preparing excused).bind ?_
  rintro tagRoot custody _ rfl
  refine runs_computed_bind preparing (by simp [TagSecret.fromVerified, ensure, Except.mapError]) ?_
  intro tagSecret builtTag
  simp only [mapError_eq_ok, EpochKey.fromVerified, TagSecret.fromVerified, ensure_bind_eq_ok, pure,
    Except.pure, Except.ok.injEq, true_and] at built builtTag
  subst built builtTag
  have draws : Runs (Custody.Serves crypto vaultId faults) excuse
      (attempt .generateSecret Except.ok : EnableCall (Option SecretBytes)) custody
      (Preparing device) fun seed after => after = custody ∧ (seed = none → faults) := by
    refine runs_attempt preparing fun response after served => ?_
    obtain ⟨rfl, given⟩ := served
    exact ⟨preparing, rfl, fun nothing => given.resolve_right fun some => some nothing⟩
  refine draws.bind ?_
  rintro seed _ _ ⟨rfl, given⟩
  refine runs_computed preparing (fun failure failed => ?_) fun records created => ?_
  · -- The sealer fails without a seed, or with libraries that do not do what they document.
    cases seed with
    | none => exact excused (given rfl)
    | some seed =>
      refine unlawful fun lawful => ?_
      obtain ⟨records, created⟩ := exists_createGenesisWith lawful keys vaultId deviceId issuedAt
        epochRoot tagRoot seed
      rw [created] at failed
      cases failed
  · obtain ⟨carried, carries⟩ := createGenesisWith_carries (mapError_eq_ok.mp created)
    exact ⟨clean, keys, carried, halves, carries⟩

end

end Dohflow.VaultCrypto
