/-
This file models the persisted genesis: the one row that holds a vault's genesis records
and how far enabling got.

A call refuses and changes nothing, or returns the row it leaves. The row is written
once: what every later call preserves is `GenesisRow.Keeps`.
-/

import Dohflow.SyncCore.Membership

namespace Dohflow.DbWorker

open Fallible SyncCore

/-- How far enabling got. -/
inductive GenesisState
  | persisted
  | installed
  | published
  | vaultKnown
  | genesisResumeLost
  deriving DecidableEq

/-- Whether a state may move to another, or already is it. -/
def GenesisState.mayBecome : GenesisState → GenesisState → Bool
  | .persisted, .persisted | .persisted, .installed => true
  | .installed, .installed | .installed, .published => true
  | .published, .published => true
  | .vaultKnown, .vaultKnown => true
  | .genesisResumeLost, .genesisResumeLost => true
  | .persisted, .vaultKnown | .persisted, .genesisResumeLost => true
  | .installed, .vaultKnown | .installed, .genesisResumeLost => true
  | _, _ => false

/-- The genesis a vault persisted. -/
structure PersistedGenesis where
  vaultId : Uuid
  membershipRecord : List UInt8
  epochRecord : List UInt8
  state : GenesisState
  exportHighWater : Option Nat

/-- Why the genesis could not be read or changed. -/
inductive GenesisStoreError
  | unavailable
  | conflict
  | notPersisted
  | badTransition (held next : GenesisState)
  | invalid
  | corrupt

/-- The row of the genesis table, if there is one. -/
abbrev GenesisRow : Type := Option PersistedGenesis

/-- Persist the records before any key is installed from them. The same records again change
nothing; the first write verifies them as a genesis. -/
def persist (crypto : Crypto) (vaultId : Uuid) (membershipRecord epochRecord : List UInt8)
    (row : GenesisRow) : Except GenesisStoreError (GenesisState × GenesisRow) :=
  match row with
  | some held =>
    if held.vaultId = vaultId ∧ held.membershipRecord = membershipRecord ∧
        held.epochRecord = epochRecord then .ok (held.state, row)
    else .error .conflict
  | none => do
    let _ ← (verifyChain crypto vaultId [membershipRecord] [epochRecord]).mapError fun _ => .invalid
    return (.persisted, some { vaultId, membershipRecord, epochRecord, state := .persisted
                               exportHighWater := none })

/-- Record the high-water mark of the transaction that exported the genesis snapshot. -/
def recordExportMark (highWater : Nat) (row : GenesisRow) :
    Except GenesisStoreError (Unit × GenesisRow) := do
  match row with
  | none => throw .notPersisted
  | some held =>
    ensure (held.state = .persisted ∨ held.state = .installed) (.badTransition held.state held.state)
    ensure (highWater < 2 ^ 63) .corrupt
    return ((), some { held with exportHighWater := some highWater })

/-- Move the persisted genesis forward. -/
def advance (next : GenesisState) (row : GenesisRow) :
    Except GenesisStoreError (GenesisState × GenesisRow) := do
  match row with
  | none => throw .notPersisted
  | some held =>
    ensure (held.state.mayBecome next) (.badTransition held.state next)
    return (next, if held.state ≠ next then some { held with state := next } else row)

/-! ### What a call keeps -/

/-- Where a genesis is, the same records are later. -/
def GenesisRow.Keeps (before after : GenesisRow) : Prop :=
  ∀ genesis, before = some genesis → ∃ later, after = some later ∧
    later.vaultId = genesis.vaultId ∧ later.membershipRecord = genesis.membershipRecord ∧
    later.epochRecord = genesis.epochRecord

theorem GenesisRow.Keeps.refl (row : GenesisRow) : row.Keeps row :=
  fun genesis held => ⟨genesis, held, rfl, rfl, rfl⟩

theorem GenesisRow.Keeps.trans {first second third : GenesisRow} (keeps : first.Keeps second)
    (still : second.Keeps third) : first.Keeps third := by
  intro genesis held
  obtain ⟨between, there, vault, membership, epoch⟩ := keeps genesis held
  obtain ⟨later, last, sameVault, sameMembership, sameEpoch⟩ := still between there
  exact ⟨later, last, sameVault.trans vault, sameMembership.trans membership,
    sameEpoch.trans epoch⟩

variable {crypto : Crypto} {vaultId : Uuid} {membershipRecord epochRecord : List UInt8}
  {row after : GenesisRow}

theorem persist_first {verified : VerifiedState}
    (verifies : verifyChain crypto vaultId [membershipRecord] [epochRecord] = .ok verified) :
    persist crypto vaultId membershipRecord epochRecord none =
      .ok (.persisted, some { vaultId, membershipRecord, epochRecord, state := .persisted
                              exportHighWater := none }) := by
  rw [persist, mapError_eq_ok.mpr verifies]
  rfl

theorem keeps_persist {state : GenesisState}
    (persisted : persist crypto vaultId membershipRecord epochRecord row = .ok (state, after)) :
    row.Keeps after := by
  cases row with
  | none => exact fun genesis held => by cases held
  | some held =>
    rw [persist] at persisted
    split at persisted
    · cases persisted
      exact .refl _
    · cases persisted

theorem keeps_recordExportMark {highWater : Nat} {done : Unit}
    (recorded : recordExportMark highWater row = .ok (done, after)) : row.Keeps after := by
  cases row with
  | none => cases recorded
  | some held =>
    simp only [recordExportMark, ensure_bind_eq_ok] at recorded
    obtain ⟨_, _, written⟩ := recorded
    cases written
    intro genesis same
    obtain rfl := Option.some.inj same
    exact ⟨_, rfl, rfl, rfl, rfl⟩

theorem keeps_advance {next state : GenesisState}
    (moved : advance next row = .ok (state, after)) : row.Keeps after := by
  cases row with
  | none => cases moved
  | some held =>
    simp only [advance, ensure_bind_eq_ok] at moved
    obtain ⟨_, written⟩ := moved
    cases written
    split
    · intro genesis same
      obtain rfl := Option.some.inj same
      exact ⟨_, rfl, rfl, rfl, rfl⟩
    · exact .refl _

theorem advance_installed {genesis : PersistedGenesis}
    (installable : genesis.state = .persisted ∨ genesis.state = .installed) :
    advance .installed (some genesis) =
      .ok (.installed, some { genesis with state := .installed }) := by
  obtain ⟨vaultId, membershipRecord, epochRecord, state, exportHighWater⟩ := genesis
  obtain rfl | rfl := installable
  · rfl
  · rfl

theorem advance_settled {genesis : PersistedGenesis}
    (settled : ¬ (genesis.state = .persisted ∨ genesis.state = .installed)) :
    advance .installed (some genesis) = .error (.badTransition genesis.state .installed) := by
  obtain ⟨vaultId, membershipRecord, epochRecord, state, exportHighWater⟩ := genesis
  cases state with
  | persisted => exact absurd (.inl rfl) settled
  | installed => exact absurd (.inr rfl) settled
  | published => rfl
  | vaultKnown => rfl
  | genesisResumeLost => rfl

end Dohflow.DbWorker
