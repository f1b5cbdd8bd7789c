/-
This file models the identifiers that a command derives for the rows it writes.

An ordinal id packs the time of the command, the ordinal of the id within it, and bits
of a keyed hash. An id of a natural key packs bits of a keyed hash alone, of a message
under a label of its own. The keyed hash and the packing of a timestamp come from
outside.
-/

import Dohflow.SyncCore.Cbe

namespace Dohflow.CoreIds

open ByteReader SyncCore

/-! ### Labels and bounds -/

/-- The domain label of an id of a natural key. -/
def contentIdLabel : List UInt8 := utf8 "dohflow/content-id/v1"

/-- The domain label of an id of a natural key under a command. -/
def keyedIdLabel : List UInt8 := utf8 "dohflow/keyed-id/v1"

/-- The domain label of the id of a singleton row. -/
def singletonIdLabel : List UInt8 := utf8 "dohflow/singleton-id/v1"

/-- How many ids one command may mint. -/
def maxOrdinals : Nat := 4096

/-- The longest entity tag, in bytes. -/
def maxTagLen : Nat := 255

/-- The largest count of milliseconds that 48 bits hold. -/
def maxUnixMillis : Int := 2 ^ 48 - 1

/-- Why an identifier could not be derived. -/
inductive DerivedIdError
  | emptyTag
  | tagTooLong (len : Nat)
  | tagNotPrintableAscii
  | ordinalOverflow (commandId : Uuid) (attempted : Nat)
  | issuedAtOutOfRange

/-- Microseconds since the Unix epoch. -/
structure IssuedAt where
  micros : Int64

namespace IssuedAt

def minSupportedMicros : Int := 0

def maxSupportedMicros : Int := 253402300799999999

def isSupported (issuedAt : IssuedAt) : Bool :=
  minSupportedMicros ≤ issuedAt.micros.toInt ∧ issuedAt.micros.toInt ≤ maxSupportedMicros

/-- Whole milliseconds, rounded towards negative infinity. -/
def asUnixMillis (issuedAt : IssuedAt) : Int := issuedAt.micros.toInt / 1000

end IssuedAt

/-- The identifier key of a vault. -/
structure DerivedIdKey where
  bytes : Digest

/-- What comes from outside: the keyed hash, and the packing of milliseconds with ten bytes. -/
structure IdPrimitives where
  hmacSha256 : List UInt8 → List UInt8 → Digest
  fromUnixTimestampMillis : Nat → Fixed 10 → Uuid

def validateTag (tag : List UInt8) : Except DerivedIdError Unit :=
  if tag = [] then .error .emptyTag
  else if maxTagLen < tag.length then .error (.tagTooLong tag.length)
  else if tag.all fun byte => 0x21 ≤ byte ∧ byte ≤ 0x7e then .ok ()
  else .error .tagNotPrintableAscii

/-! ### Ids of natural keys -/

/-- A part of a natural key, after its length. -/
def lengthPrefixed (part : List UInt8) : Except DerivedIdError (List UInt8) :=
  if part.length < 2 ^ 32 then .ok (bigEndian 4 part.length ++ part)
  else .error (.tagTooLong part.length)

/-- A tag after its length, and the parts of a natural key. -/
def taggedParts (tag : String) (naturalKey : List (List UInt8)) :
    Except DerivedIdError (List UInt8) := do
  validateTag (utf8 tag)
  let parts ← naturalKey.mapM lengthPrefixed
  return UInt8.ofNat (utf8 tag).length :: utf8 tag ++ parts.flatten

/-- What is hashed for a keyed id. -/
def keyedMessage (commandId : Uuid) (tag : String) (naturalKey : List (List UInt8)) :
    Except DerivedIdError (List UInt8) := do
  return keyedIdLabel ++ commandId.toList ++ (← taggedParts tag naturalKey)

/-- What is hashed for a content id. -/
def contentMessage (tag : String) (naturalKey : List (List UInt8)) :
    Except DerivedIdError (List UInt8) := do
  return contentIdLabel ++ (← taggedParts tag naturalKey)

/-- Set the bits of the variant and of version eight. -/
def asVersion8 (bytes : List UInt8) : List UInt8 :=
  (bytes.modify 6 fun byte => byte &&& 0x0f ||| 0x80).modify 8 fun byte => byte &&& 0x3f ||| 0x80

/-- The first sixteen bytes of a hash, as an id. -/
def uuidOfMac (mac : Digest) : Uuid :=
  ⟨asVersion8 (mac.toList.take 16), by
    unfold asVersion8
    rw [List.length_modify, List.length_modify, List.length_take, List.Vector.toList_length]
    rfl⟩

namespace DerivedIdKey

variable (primitives : IdPrimitives)

/-- The id of a row under a command's branch: of the command, a tag and the row's natural key. -/
def keyedId (key : DerivedIdKey) (commandId : Uuid) (tag : String)
    (naturalKey : List (List UInt8)) : Except DerivedIdError Uuid := do
  let message ← keyedMessage commandId tag naturalKey
  return uuidOfMac (primitives.hmacSha256 key.bytes.toList message)

/-- The id of a row that is its natural key, whatever the command. -/
def contentId (key : DerivedIdKey) (tag : String) (naturalKey : List (List UInt8)) :
    Except DerivedIdError Uuid := do
  let message ← contentMessage tag naturalKey
  return uuidOfMac (primitives.hmacSha256 key.bytes.toList message)

/-- The id of a row that a vault has one of. -/
def singletonId (key : DerivedIdKey) (label : String) : Except DerivedIdError Uuid := do
  validateTag (utf8 label)
  return uuidOfMac (primitives.hmacSha256 key.bytes.toList
    (singletonIdLabel ++ UInt8.ofNat (utf8 label).length :: utf8 label))

end DerivedIdKey

/-! ### Ordinal ids -/

/-- Everything derived for an ordinal id. -/
structure DerivationTrace where
  message : List UInt8
  hmac : Digest
  counterRandomBytes : Fixed 10
  uuid : Uuid

/-- The ordinal's twelve bits in two bytes, and the high 62 bits of the hash in eight. -/
def counterRandomBytes (ordinal : Nat) (hmac : Digest) : Fixed 10 :=
  let high := ofBigEndian (hmac.toList.take 8)
  ⟨UInt8.ofNat ((ordinal >>> 8) &&& 0x0f) :: UInt8.ofNat (ordinal &&& 0xff) ::
    bigEndian 8 (high >>> 2), by rw [List.length_cons, List.length_cons, bigEndian_length]⟩

def deriveIdTraced (primitives : IdPrimitives) (key : DerivedIdKey) (issuedAt : IssuedAt)
    (commandId : Uuid) (tag : String) (ordinal : Nat) : Except DerivedIdError DerivationTrace := do
  validateTag (utf8 tag)
  if maxOrdinals ≤ ordinal then throw (.ordinalOverflow commandId ordinal)
  let unixMs := issuedAt.asUnixMillis
  if ¬ issuedAt.isSupported ∨ ¬ (0 ≤ unixMs ∧ unixMs ≤ maxUnixMillis) then
    throw .issuedAtOutOfRange
  let message :=
    commandId.toList ++ UInt8.ofNat (utf8 tag).length :: utf8 tag ++ bigEndian 2 ordinal
  let hmac := primitives.hmacSha256 key.bytes.toList message
  let bytes := counterRandomBytes ordinal hmac
  return ⟨message, hmac, bytes, primitives.fromUnixTimestampMillis unixMs.toNat bytes⟩

def deriveId (primitives : IdPrimitives) (key : DerivedIdKey) (issuedAt : IssuedAt)
    (commandId : Uuid) (tag : String) (ordinal : Nat) : Except DerivedIdError Uuid :=
  (deriveIdTraced primitives key issuedAt commandId tag ordinal).map DerivationTrace.uuid

/-! ### The allocator of a command -/

/-- The id allocator that one command carries. -/
structure DerivedIds where
  key : DerivedIdKey
  issuedAt : IssuedAt
  commandId : Uuid
  nextOrdinal : Nat

namespace DerivedIds

variable (primitives : IdPrimitives)

def new (key : DerivedIdKey) (issuedAt : IssuedAt) (commandId : Uuid) : DerivedIds :=
  ⟨key, issuedAt, commandId, 0⟩

/-- Mint the next identifier; only a success takes the ordinal. -/
def next (ids : DerivedIds) (tag : String) : Except DerivedIdError Uuid × DerivedIds :=
  match deriveId primitives ids.key ids.issuedAt ids.commandId tag ids.nextOrdinal with
  | .error failure => (.error failure, ids)
  | .ok id => (.ok id, { ids with nextOrdinal := ids.nextOrdinal + 1 })

def keyed (ids : DerivedIds) (tag : String) (naturalKey : List (List UInt8)) :
    Except DerivedIdError Uuid :=
  ids.key.keyedId primitives ids.commandId tag naturalKey

def content (ids : DerivedIds) (tag : String) (naturalKey : List (List UInt8)) :
    Except DerivedIdError Uuid :=
  ids.key.contentId primitives tag naturalKey

end DerivedIds

end Dohflow.CoreIds
