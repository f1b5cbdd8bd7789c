/-
This file models the envelope digest: the identity of a sealed command envelope,
computed from its exact header bytes and ciphertext.

What is hashed spells both lengths, so it determines both parts.
-/

import Dohflow.SyncCore.Keys

namespace Dohflow.SyncCore

open ByteReader Fallible

def envelopeDigestLabel : String := "dohflow/sync-envelope-digest/v1"

/-- What the envelope digest hashes. -/
def envelopeDigestInput (headerBytes ciphertext : List UInt8) : List UInt8 :=
  Writer.withLabel envelopeDigestLabel ++ (bigEndian 4 headerBytes.length ++
    (headerBytes ++ (bigEndian 8 ciphertext.length ++ ciphertext)))

/-- `label ‖ u32 len ‖ header bytes ‖ u64 len ‖ ciphertext`, hashed. -/
def canonicalEnvelopeDigest (crypto : Crypto) (headerBytes ciphertext : List UInt8) :
    Except WireError Digest := do
  ensure (headerBytes.length < 2 ^ 32) .tooLong
  ensure (ciphertext.length < 2 ^ 64) .tooLong
  return crypto.sha256 (envelopeDigestInput headerBytes ciphertext)

theorem canonicalEnvelopeDigest_eq_ok {crypto : Crypto} {headerBytes ciphertext : List UInt8}
    {digest : Digest} :
    canonicalEnvelopeDigest crypto headerBytes ciphertext = .ok digest ↔
      headerBytes.length < 2 ^ 32 ∧ ciphertext.length < 2 ^ 64 ∧
        crypto.sha256 (envelopeDigestInput headerBytes ciphertext) = digest := by
  simp only [canonicalEnvelopeDigest, ensure_bind_eq_ok]
  constructor
  · rintro ⟨header, sealed, hashed⟩
    exact ⟨header, sealed, Except.ok.inj hashed⟩
  · rintro ⟨header, sealed, rfl⟩
    exact ⟨header, sealed, rfl⟩

theorem envelopeDigestInput_injective {header otherHeader ciphertext otherCiphertext : List UInt8}
    (small : header.length < 2 ^ 32) (otherSmall : otherHeader.length < 2 ^ 32)
    (same : envelopeDigestInput header ciphertext =
      envelopeDigestInput otherHeader otherCiphertext) :
    header = otherHeader ∧ ciphertext = otherCiphertext := by
  have fields := List.append_cancel_left same
  obtain ⟨lengths, rest⟩ := List.append_inj fields (by simp)
  obtain ⟨headers, rest⟩ := List.append_inj rest (bigEndian_injective small otherSmall lengths)
  obtain ⟨-, ciphertexts⟩ := List.append_inj rest (by simp)
  exact ⟨headers, ciphertexts⟩

end Dohflow.SyncCore
