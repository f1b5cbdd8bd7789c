/-
This file models the acceptance rules for keys and signatures.

The curve arithmetic and the hash are not this repository's: they enter as the
operations of `Crypto`, one per call the source makes into its libraries. What
the source decides itself is here: which encoded points are acceptable, that a
signature's `R` is one and its `S` is below the group order, and which X25519
public keys are refused for their low order.
-/

import Dohflow.SyncCore.Cbe

namespace Dohflow.SyncCore

open ByteReader

/-- A 64-byte Ed25519 signature. -/
abbrev Signature := Fixed 64

/-- A 32-byte Ed25519 or X25519 public key. -/
abbrev PublicKey := Fixed 32

/-- What the source asks of its cryptographic libraries. -/
structure Crypto where
  /-- `Sha256::digest`. -/
  sha256 : List UInt8 → Digest
  /-- A decompressed Ed25519 point. -/
  Point : Type
  /-- `VerifyingKey::from_bytes`. -/
  fromBytes : PublicKey → Option Point
  /-- `to_edwards().compress().to_bytes()`. -/
  compress : Point → PublicKey
  isWeak : Point → Bool
  isTorsionFree : Point → Bool
  /-- `VerifyingKey::verify_strict`. -/
  verifyStrict : Point → List UInt8 → Signature → Bool

/-- The Ed25519 group order, little-endian. -/
def groupOrderLe : List UInt8 :=
  [0xed, 0xd3, 0xf5, 0x5c, 0x1a, 0x63, 0x12, 0x58, 0xd6, 0x9c, 0xf7, 0xa2, 0xde, 0xf9, 0xde, 0x14,
   0x00, 0x00, 0x00, 0x00, 0x00, 0x00, 0x00, 0x00, 0x00, 0x00, 0x00, 0x00, 0x00, 0x00, 0x00, 0x10]

/-- The first byte at which two numbers, most significant byte first, differ decides; equal
numbers are not below each other. -/
def belowFromTop : List UInt8 → List UInt8 → Bool
  | first :: firsts, second :: seconds =>
    if first ≠ second then first < second else belowFromTop firsts seconds
  | _, _ => false

/-- Whether the second half of a signature is a canonical scalar. -/
def scalarBelowOrder (scalar : List UInt8) : Bool :=
  belowFromTop scalar.reverse groupOrderLe.reverse

section

variable (crypto : Crypto)

/-- A valid point in its one canonical encoding, of order exactly the group order. -/
def ed25519PointAcceptable (encoded : PublicKey) : Bool :=
  match crypto.fromBytes encoded with
  | none => false
  | some point =>
    crypto.compress point == encoded && !crypto.isWeak point && crypto.isTorsionFree point

/-- Whether a public key may enter a chain as an Ed25519 key. -/
def ed25519PublicKeyAcceptable (publicKey : PublicKey) : Bool :=
  ed25519PointAcceptable crypto publicKey

/-- The first half of a signature, its point `R`. -/
def signaturePoint (signature : Signature) : PublicKey :=
  ⟨signature.toList.take 32, by simp⟩

def ed25519VerifyStrict (publicKey : PublicKey) (message : List UInt8) (signature : Signature) :
    Bool :=
  if !ed25519PointAcceptable crypto publicKey then false
  else if !ed25519PointAcceptable crypto (signaturePoint signature) ||
      !scalarBelowOrder (signature.toList.drop 32) then false
  else
    match crypto.fromBytes publicKey with
    | none => false
    | some key => crypto.verifyStrict key message signature

end

/-- A 32-byte little-endian number; the source holds it in four 64-bit limbs. -/
def littleEndian (bytes : List UInt8) : Nat := ofBigEndian bytes.reverse

/-- The field prime `2^255 - 19`. -/
def fieldPrime : Nat := 2 ^ 255 - 19

/-- The five reduced low-order u-coordinates, little-endian. -/
def lowOrderUValues : List (List UInt8) :=
  [List.replicate 32 0,
   1 :: List.replicate 31 0,
   0xec :: List.replicate 30 0xff ++ [0x7f],
   [0xe0, 0xeb, 0x7a, 0x7c, 0x3b, 0x41, 0xb8, 0xae, 0x16, 0x56, 0xe3, 0xfa, 0xf1, 0x9f, 0xc4, 0x6a,
    0xda, 0x09, 0x8d, 0xeb, 0x9c, 0x32, 0xb1, 0xfd, 0x86, 0x62, 0x05, 0x16, 0x5f, 0x49, 0xb8, 0x00],
   [0x5f, 0x9c, 0x95, 0xbc, 0xa3, 0x50, 0x8c, 0x24, 0xb1, 0xd0, 0xb1, 0x55, 0x9c, 0x83, 0xef, 0x5b,
    0x04, 0x44, 0x5c, 0xc4, 0x58, 0x1c, 0x8e, 0x86, 0xd8, 0x22, 0x4e, 0xdd, 0xd0, 0x9f, 0x11, 0x57]]

/-- Whether 32 bytes are an acceptable KEM public key: the unused top bit is dropped, the value is
reduced once, and what is left is none of the low-order values. -/
def x25519PublicKeyAcceptable (publicKey : PublicKey) : Bool :=
  let masked := littleEndian publicKey.toList % 2 ^ 255
  let reduced := if fieldPrime ≤ masked then masked - fieldPrime else masked
  !lowOrderUValues.any fun low => littleEndian low == reduced

end Dohflow.SyncCore
