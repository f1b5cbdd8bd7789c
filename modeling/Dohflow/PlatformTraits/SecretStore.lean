/-
This file states what a platform secret store promises.

A read tells the truth or fails; only an absent item is not found. A write that fails
leaves the item as it was, absent or complete, and a delete that fails leaves it there or
not. A store that never fails is the one where no fault may happen.
-/

import Mathlib.Logic.Function.Basic

namespace Dohflow.PlatformTraits

/-- Why a secret store did not do what it was asked. -/
inductive SecretError
  | notFound
  | invalidKey
  | invalidPrompt
  | tooLarge
  | empty
  | authCancelled
  | authFailed
  | biometryNotEnrolled
  | biometryLockedOut
  | unavailable
  | platform (code : Int)

/-- A stored secret with the public tag beside it. -/
structure StoredItem where
  value : List UInt8
  tag : Option (List UInt8)
  deriving DecidableEq

/-- The items of a store. -/
abbrev Secrets (Key : Type) : Type := Key → Option StoredItem

namespace Secrets

variable {Key Value : Type}

/-- What a read of one part of an item finds. -/
def reading (part : StoredItem → Value) : Option StoredItem → Except SecretError Value
  | some item => .ok (part item)
  | none => .error .notFound

/-- A read tells the truth, or fails where faults may happen. -/
def Reads (faults : Prop) (part : StoredItem → Value) (held : Option StoredItem)
    (response : Except SecretError Value) : Prop :=
  response = reading part held ∨ (faults ∧ ∃ error, error ≠ .notFound ∧ response = .error error)

/-- What becomes of an item that is written. -/
def Writes (faults : Prop) (item : StoredItem) (held : Option StoredItem)
    (response : Except SecretError Unit) (after : Option StoredItem) : Prop :=
  (response = .ok () ∧ after = some item) ∨
    (faults ∧ (∃ error, response = .error error) ∧
      (after = held ∨ after = none ∨ after = some item))

/-- What becomes of an item that is deleted. -/
def Deletes (faults : Prop) (held : Option StoredItem) (response : Except SecretError Unit)
    (after : Option StoredItem) : Prop :=
  (response = .ok () ∧ after = none) ∨
    (faults ∧ (∃ error, response = .error error) ∧ (after = held ∨ after = none))

end Secrets

end Dohflow.PlatformTraits
