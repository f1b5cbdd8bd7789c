/-
This file models the counter register and the calls that guard it with the witness.

The register holds the next counter of every context, and a call reads it, compares it with what
the witness has recorded, and commits an advance by comparing and setting. Register and witness are
durable, but either may be out of reach, before or after it has done what it was asked to; calls of
several handles go on request by request, and any of them may be cut off.
-/

import Dohflow.Foundation.Interleaving
import Dohflow.PlatformTraits.Witness

namespace Dohflow.VaultCrypto

open SyncCore PlatformTraits Program Interleaving

inductive RegisterStoreError
  | unavailable
  /-- The persisted value is not the one that the advance was computed from. -/
  | conflict
  /-- The advance does not move forward. -/
  | badAdvance

/-- Why the register is not trusted. -/
inductive LostReason
  | registerBehindWitness
  | witnessMissing
  | savedAheadOfRegister
  | registerMissing

/-- Why no counter was handed out. -/
inductive NonceError
  | nonceStateLost (reason : LostReason)
  | rotationRequired
  | register (error : RegisterStoreError)
  | witness (error : WitnessError)

/-- A counter that its register has advanced past and its witness has recorded. -/
structure CounterReservation where
  context : CounterContext
  counter : Nat

/-- The next counter of every context that has an entry. -/
abbrev CounterTable : Type := CounterContext → Option Nat

/-- Persist an advance, if the entry is the one it was computed from. -/
def CounterTable.commitAdvance (table : CounterTable) (context : CounterContext)
    (held : Option Nat) (next : Nat) : Except RegisterStoreError CounterTable :=
  if next = 0 ∨ (held.any fun value => next ≤ value) then .error .badAdvance
  else if table context ≠ held then .error .conflict
  else .ok (Witness.insert table context next)

/-! ### The calls -/

inductive CounterRequest
  | nextCounter (context : CounterContext)
  | commitAdvance (context : CounterContext) (held : Option Nat) (next : Nat)
  | witness (request : WitnessRequest)

abbrev CounterRequest.Response : CounterRequest → Type
  | .nextCounter _ => Except RegisterStoreError (Option Nat)
  | .commitAdvance _ _ _ => Except RegisterStoreError Unit
  | .witness request => request.Response

abbrev RegisterCall (Value : Type) : Type :=
  Attempt CounterRequest CounterRequest.Response NonceError Value

namespace CounterRegister

variable (context : CounterContext)

def nextCounter : RegisterCall (Option Nat) :=
  attempt (.nextCounter context) (Except.mapError .register)

def commitAdvance (held : Option Nat) (next : Nat) : RegisterCall Unit :=
  attempt (.commitAdvance context held next) (Except.mapError .register)

def witnessed : RegisterCall (Option Nat) :=
  attempt (.witness (.counter context)) (Except.mapError .witness)

def advanceCounter (next : Nat) : RegisterCall Unit :=
  attempt (.witness (.advanceCounter context next)) (Except.mapError .witness)

/-- The register's entry, compared with the witness's. -/
def compared : Option Nat → Option Nat → Except NonceError (Option Nat)
  | none, none => .ok none
  | none, some 0 => .ok none
  | some next, some recorded =>
    if recorded ≤ next then .ok (some next)
    else .error (.nonceStateLost .registerBehindWitness)
  | some _, none => .error (.nonceStateLost .witnessMissing)
  | none, some (_ + 1) => .error (.nonceStateLost .registerMissing)

/-- The persisted value, after comparing it with the witness. It changes nothing. -/
def check : RegisterCall (Option Nat) := do
  let register ← nextCounter context
  let recorded ← witnessed context
  computed (compared register recorded)

/-- Check, and raise the witness to the register. -/
def reconcile : RegisterCall (Option Nat) := do
  let register ← check context
  match register with
  | some next => do
    advanceCounter context next
    return register
  | none => return register

/-- A new context is born in the witness, where nothing is held of it. -/
def bear (held : Option Nat) : RegisterCall Unit :=
  if held.isNone then advanceCounter context 0 else return ()

/-- Reserve the next counter: compare, commit the advance, advance the witness, and only then
return it. -/
def reserve : RegisterCall CounterReservation := do
  let held ← check context
  let counter := held.getD 0
  if maxInvocationCounter < counter then throw .rotationRequired
  else do
    bear context held
    commitAdvance context held (counter + 1)
    advanceCounter context (counter + 1)
    return ⟨context, counter⟩

end CounterRegister

inductive CounterCall
  | check (context : CounterContext)
  | reconcile (context : CounterContext)
  | reserve (context : CounterContext)

/-- What a call returns. -/
inductive CounterValue
  | held (register : Option Nat)
  | reserved (reservation : CounterReservation)

def CounterCall.program : CounterCall → RegisterCall CounterValue
  | .check context => do return .held (← CounterRegister.check context)
  | .reconcile context => do return .held (← CounterRegister.reconcile context)
  | .reserve context => do return .reserved (← CounterRegister.reserve context)

/-! ### Register and witness -/

/-- How a request goes: it is answered, or it fails before or after it has taken effect. -/
inductive CounterChoice
  | answered
  | unreached
  | unanswered

/-- The register and the witness, with what calls have returned. -/
structure CounterWorld where
  register : CounterTable
  witness : Witness
  /-- The call that last committed the advance past a counter. -/
  takenBy : CounterContext → Nat → Option Nat
  issued : List CounterReservation
  failed : List NonceError

namespace CounterWorld

variable (owner : Nat)

def answer : (request : CounterRequest) → CounterWorld → request.Response × CounterWorld
  | .nextCounter context, world => (.ok (world.register context), world)
  | .commitAdvance context held next, world =>
    match world.register.commitAdvance context held next with
    | .ok register =>
      (.ok (), { world with
        register
        takenBy := fun other counter =>
          if other = context ∧ counter = held.getD 0 then some owner
          else world.takenBy other counter })
    | .error error => (.error error, world)
  | .witness request, world =>
    let answered := Witness.answer request world.witness
    (answered.1, { world with witness := answered.2 })

def refusal : (request : CounterRequest) → request.Response
  | .nextCounter _ => .error .unavailable
  | .commitAdvance _ _ _ => .error .unavailable
  | .witness request => Witness.refusal request

def serve (request : CounterRequest) (world : CounterWorld) :
    CounterChoice → request.Response × CounterWorld
  | .answered => answer owner request world
  | .unreached => (refusal request, world)
  | .unanswered => (refusal request, (answer owner request world).2)

/-- A call returns. -/
def finish (world : CounterWorld) : Except NonceError CounterValue → CounterWorld
  | .ok (.held _) => world
  | .ok (.reserved reservation) => { world with issued := reservation :: world.issued }
  | .error error => { world with failed := error :: world.failed }

/-- A register and a witness, with no call yet. -/
def opened (register : CounterTable) (witness : Witness) : CounterWorld where
  register
  witness
  takenBy _ _ := none
  issued := []
  failed := []

end CounterWorld

/-- Any number of calls on one register and its witness. The vault, and the register with it, may
be restored to another state of its entries. -/
def counting : Setting CounterRequest CounterRequest.Response (Except NonceError CounterValue) where
  World := CounterWorld
  Call := CounterCall
  Choice := CounterChoice
  Move := CounterTable
  program := CounterCall.program
  serve owner choice request world := some (world.serve owner request choice)
  finish _ value world := world.finish value
  cut _ world := world
  move register world := some { world with register }

end Dohflow.VaultCrypto
