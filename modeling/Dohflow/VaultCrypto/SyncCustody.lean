/-
This file models where a device keeps its Sync keys: the items of the platform's secret
store, and the calls that enable Sync on the founding device.

Every call is a program over the store, the system random source and the vault's genesis
row. There is one item for each secret, nothing rewrites an item in place, and the genesis
marker goes in before any key that a genesis carries.
-/

import Dohflow.DbWorker.SyncGenesis
import Dohflow.Foundation.Program
import Dohflow.PlatformTraits.SecretStore
import Dohflow.VaultCrypto.GenesisRecords

namespace Dohflow.VaultCrypto

open Fallible SyncCore PlatformTraits DbWorker Program

/-- Which item an error is about. -/
inductive Item
  | signingKey
  | agreementKey
  | epochKey (keyEpoch : UInt64)
  | tagSecret
  | genesisMarker
  deriving DecidableEq

/-- Why custody did not read or write. -/
inductive CustodyError
  | missing (item : Item)
  | conflict (item : Item)
  | corrupt (item : Item)
  | store (error : SecretError)

/-- Why enabling Sync on this device did not complete. -/
inductive EnableError
  | alreadyEnabled
  | custody (error : CustodyError)
  | build (error : BuildError)
  | accept (error : AcceptError)
  | genesis (error : GenesisStoreError)

/-- What enabling asks of the platform's secret store and random source, and of the vault. -/
inductive CustodyRequest
  | publicTag (item : Item)
  | loadSecret (item : Item)
  | storeSecretTagged (item : Item) (value tag : List UInt8)
  | deleteSecret (item : Item)
  | generateSecret
  | load
  | persist (records : GenesisRecords)
  | advance (next : GenesisState)

abbrev CustodyRequest.Response : CustodyRequest → Type
  | .publicTag _ => Except SecretError (Option (List UInt8))
  | .loadSecret _ => Except SecretError (List UInt8)
  | .storeSecretTagged _ _ _ => Except SecretError Unit
  | .deleteSecret _ => Except SecretError Unit
  | .generateSecret => Option SecretBytes
  | .load => Except GenesisStoreError GenesisRow
  | .persist _ => Except GenesisStoreError GenesisState
  | .advance _ => Except GenesisStoreError GenesisState

/-- A call of custody. -/
abbrev CustodyCall (Value : Type) : Type :=
  Attempt CustodyRequest CustodyRequest.Response CustodyError Value

/-- A call that enables Sync. -/
abbrev EnableCall (Value : Type) : Type :=
  Attempt CustodyRequest CustodyRequest.Response EnableError Value

instance : MonadLift (Attempt CustodyRequest CustodyRequest.Response CustodyError)
    (Attempt CustodyRequest CustodyRequest.Response EnableError) where
  monadLift call := ExceptT.adapt .custody call

namespace SyncKeyCustody

/-- How a read response counts: an item that is not found is absent. -/
def found {Value : Type} : Except SecretError Value → Except CustodyError (Option Value)
  | .ok value => .ok (some value)
  | .error .notFound => .ok none
  | .error error => .error (.store error)

section

variable (crypto : Crypto) (device : DeviceCrypto)

def publicTag (item : Item) : CustodyCall (Option (Option (List UInt8))) :=
  attempt (.publicTag item) found

/-- The item's secret and its public tag, or none if it is absent. -/
def read (item : Item) : CustodyCall (Option (SecretBytes × List UInt8)) := do
  match ← publicTag item with
  | none => return none
  | some tag =>
    match ← attempt (.loadSecret item) found with
    | none => return none
    | some value =>
      let secret ← computed (orFail (.corrupt item) (fromSlice 32 value))
      let tag ← computed (orFail (.corrupt item) tag)
      return some (secret, tag)

def write (item : Item) (secret tag : Fixed 32) : CustodyCall Unit :=
  attempt (.storeSecretTagged item secret.toList tag.toList) (Except.mapError .store)

def delete (item : Item) : CustodyCall Unit :=
  attempt (.deleteSecret item) (Except.mapError .store)

def holds (item : Item) : CustodyCall Bool := do
  return (← publicTag item).isSome

/-- Whether both private halves are present. -/
def hasDeviceKeys : CustodyCall Bool := do
  if ← holds .signingKey then holds .agreementKey else return false

/-- Write both halves; if the second write fails, remove the first. -/
def writeDeviceKeys (keys : DeviceKeys) : CustodyCall Unit := do
  let publicKeys := keys.publicKeys crypto device
  write .signingKey keys.signing publicKeys.ed25519Pk
  cleanUp (write .agreementKey keys.agreement publicKeys.kemPublicKey) (.deleteSecret .signingKey)

/-- Which item a refused pair of halves names. -/
def damagedHalf : DeviceKeyError → CustodyError
  | .unacceptableAgreementKey => .corrupt .agreementKey
  | _ => .corrupt .signingKey

/-- Load the device's keys, each held to its tag. -/
def loadDeviceKeys : CustodyCall DeviceKeys := do
  let (signing, signingTag) ← computed (orFail (.missing .signingKey) (← read .signingKey))
  let (agreement, agreementTag) ← computed (orFail (.missing .agreementKey) (← read .agreementKey))
  let keys ← computed
    ((DeviceKeys.fromSecrets crypto device signing agreement).mapError damagedHalf)
  let publicKeys := keys.publicKeys crypto device
  computed (ensure (signingTag = publicKeys.ed25519Pk.toList) (.corrupt .signingKey))
  computed (ensure (agreementTag = publicKeys.kemPublicKey.toList) (.corrupt .agreementKey))
  return keys

/-- A fresh secret of the system random source. -/
def generateSecret : EnableCall SecretBytes :=
  attempt .generateSecret (orFail (.build .rng))

/-- `DeviceKeys::generate`, whose every failure reads as one of the random source. -/
def generateDeviceKeys : EnableCall DeviceKeys := do
  let signing ← generateSecret
  let agreement ← generateSecret
  computed ((DeviceKeys.fromSecrets crypto device signing agreement).mapError fun _ => .build .rng)

/-- Remove a half that is there. -/
def deleteHeld (item : Item) : CustodyCall Unit := do
  if ← holds item then delete item else return ()

/-- Make the device's keys, replacing a lone half. -/
def makeDeviceKeys : EnableCall DeviceKeys := do
  let keys ← generateDeviceKeys crypto device
  deleteHeld .signingKey
  deleteHeld .agreementKey
  writeDeviceKeys crypto device keys
  return keys

/-- The device's keys, made if it has none. -/
def deviceKeys : EnableCall DeviceKeys := do
  if ← (hasDeviceKeys : EnableCall Bool) then loadDeviceKeys crypto device
  else makeDeviceKeys crypto device

/-- The first half of enabling: make the device's keys if it has none, and build and self-accept a
genesis. It writes neither `K_1` nor `S`. -/
def prepareGenesis (vaultId deviceId : Uuid) (issuedAt : Int64) : EnableCall GenesisRecords := do
  if ← holds .genesisMarker then throw .alreadyEnabled
  if ← holds (.epochKey 1) then throw .alreadyEnabled
  if ← holds .tagSecret then throw .alreadyEnabled
  let keys ← deviceKeys crypto device
  let epochRoot ← generateSecret
  let epochKey ← computed ((EpochKey.fromVerified crypto vaultId 1 epochRoot
    (epochKeyCommitment crypto epochRoot)).mapError fun _ => .build .keyMismatch)
  let tagRoot ← generateSecret
  let tagSecret ← computed ((TagSecret.fromVerified crypto tagRoot
    (tagKeyCommitment crypto tagRoot)).mapError fun _ => .build .keyMismatch)
  -- The one recipient draws the one seed; without it the sealer fails.
  let seed ← attempt .generateSecret Except.ok
  computed ((createGenesisWith crypto device vaultId deviceId keys issuedAt epochKey tagSecret
    fun _ => seed).mapError .build)

/-! ### Installing -/

/-- Whether an item is present with a value whose commitment is the expected one. -/
def alreadyHolds (item : Item) (expected : Digest) (commit : SecretBytes → Digest) :
    CustodyCall Bool := do
  match ← read item with
  | none => return false
  | some (existing, tag) =>
    computed (ensure (tag = (commit existing).toList) (.corrupt item))
    computed (ensure (commit existing = expected) (.conflict item))
    return true

/-- An item to write: its secret and its commitment. -/
structure Pending where
  item : Item
  secret : SecretBytes
  commitment : Digest

/-- What an item is to hold, if it does not. -/
def missingItem (item : Item) (secret : SecretBytes) (commit : SecretBytes → Digest) :
    CustodyCall (List Pending) := do
  if ← alreadyHolds item (commit secret) commit then return []
  else return [{ item, secret, commitment := commit secret }]

/-- The epoch keys of a walk that the store does not hold. -/
def missingKeys : List EpochInstall → CustodyCall (List Pending)
  | [] => return []
  | install :: rest => do
    let first ← missingItem (.epochKey install.epochKey.keyEpoch) install.epochKey.bytes
      (epochKeyCommitment crypto)
    return first ++ (← missingKeys rest)

def writePending : List Pending → CustodyCall Unit
  | [] => return ()
  | pending :: rest => do
    write pending.item pending.secret pending.commitment
    writePending rest

/-- Install every key of a verified walk: check every item first, then write what is absent. -/
def install (accepted : Accepted) : CustodyCall Unit := do
  let keys ← missingKeys crypto accepted.installs
  let secrets ←
    match accepted.tagSecret with
    | none => pure []
    | some tagSecret => missingItem .tagSecret tagSecret.bytes (tagKeyCommitment crypto)
  writePending (keys ++ secrets)

/-- Hold the marker to the genesis, or write it. -/
def installMarker (genesisId : Digest) : CustodyCall Unit := do
  match ← publicTag .genesisMarker with
  | none => write .genesisMarker genesisId genesisId
  | some tag =>
    let tag ← computed (orFail (.corrupt .genesisMarker) tag)
    computed (ensure (tag = genesisId.toList) (.conflict .genesisMarker))

/-- The second half of enabling: accept the persisted records with this device's own keys and
install `K_1` and `S` from them, the marker first. -/
def installGenesis (vaultId : Uuid) (genesis : GenesisRecords) : EnableCall Unit := do
  let keys ← loadDeviceKeys crypto device
  let accepted ← computed ((acceptRecords crypto device (.empty vaultId) [genesis.membership]
    [genesis.epoch] keys).mapError .accept)
  let first ← computed (orFail (.custody (.corrupt .genesisMarker)) accepted.installs.head?)
  installMarker first.recordId
  install crypto accepted

/-! ### An attempt -/

/-- The records of a persisted genesis. -/
def records (genesis : PersistedGenesis) : GenesisRecords :=
  { membership := genesis.membershipRecord, epoch := genesis.epochRecord }

/-- An enabling attempt in the documented order: load the persisted genesis; if there is none,
prepare one and persist it; install the persisted records; advance to installed. -/
def enable (vaultId deviceId : Uuid) (issuedAt : Int64) : EnableCall GenesisState := do
  let genesis ←
    match ← attempt .load (Except.mapError .genesis) with
    | some held => pure (records held)
    | none => do
      let prepared ← prepareGenesis crypto device vaultId deviceId issuedAt
      let _ ← attempt (.persist prepared) (Except.mapError .genesis)
      pure prepared
  installGenesis crypto device vaultId genesis
  attempt (.advance .installed) (Except.mapError .genesis)

end

end SyncKeyCustody

end Dohflow.VaultCrypto
