/-
This file models the container of a sealed artifact and reading it from its first
bytes.

The frame is fixed: the magic, the version and the ciphertext's length. As with
the container of an envelope there is one frame reader, which the parser runs over
the whole object and a peek over a part of it, and no difference of lengths it
takes is negative.
-/

import Dohflow.SyncCore.ContainerPeek

namespace Dohflow.SyncCore.Artifact

open ByteReader Fallible PrefixReader

variable {avail : List UInt8} (object : List UInt8) (maxLen : Nat) {totalLen : Nat}

/-- Why an artifact object was refused, as far as its container goes. -/
inductive ArtifactError
  | wire (error : WireError)
  | containerTooLarge

def containerMagic : List UInt8 := utf8 "DFSA"

/-- The one container version this build speaks. -/
def containerVersion : UInt16 := 1

/-- The AES-256-GCM tag length: the least a sealed object's ciphertext can be. -/
def minCiphertextLen : Nat := 16

/-- `magic ‖ u16 container_version ‖ u64 ciphertext_len`. -/
def containerFrameLen : Nat := 14

def encodeContainer (ciphertext : List UInt8) : List UInt8 :=
  containerMagic ++ (Writer.u16 containerVersion ++ (bigEndian 8 ciphertext.length ++ ciphertext))

/-- Why a prefix of a container gives no answer. -/
inductive PeekError
  | prefixTooShort (needed : Nat)
  | refused (error : ArtifactError)

/-- The one reader of a container's frame, over the bytes in hand and the container's length. It
returns the ciphertext's length. -/
def readFrame (avail : List UInt8) (totalLen : Nat) : Except PeekError Nat := do
  let refuse (error : WireError) : PeekError := .refused (.wire error)
  ensure (avail.length ≤ totalLen) (refuse .lengthExceedsInput)
  let lack (needed : Nat) : PeekError :=
    if avail.length = totalLen then refuse .truncated else .prefixTooShort (min needed totalLen)
  -- Fewer bytes than the magic are judged by the bytes there are.
  ensure (containerMagic.length ≤ avail.length ∨ avail = containerMagic.take avail.length)
    (refuse .badMagic)
  ensure (containerMagic.length ≤ avail.length) (lack containerFrameLen)
  ensure (avail.take containerMagic.length = containerMagic) (refuse .badMagic)
  ensure (containerMagic.length + 2 ≤ avail.length) (lack containerFrameLen)
  ensure (ofBigEndian ((avail.drop 4).take 2) = containerVersion.toNat)
    (refuse .unsupportedContainer)
  -- A container shorter than its own frame is never well formed.
  ensure (containerFrameLen ≤ totalLen) (refuse .truncated)
  ensure (containerFrameLen ≤ avail.length) (lack containerFrameLen)
  let ciphertextLen := ofBigEndian ((avail.drop 6).take 8)
  let remaining := totalLen - containerFrameLen
  ensure (ciphertextLen ≤ remaining) (refuse .lengthExceedsInput)
  ensure (remaining ≤ ciphertextLen) (refuse .trailingBytes)
  ensure (minCiphertextLen ≤ ciphertextLen) (refuse .ciphertextTooShort)
  return ciphertextLen

/-- The ciphertext of a container held whole. -/
def parseContainer (bytes : List UInt8) (maxLen : Nat) : Except ArtifactError (List UInt8) :=
  if maxLen < bytes.length then .error .containerTooLarge
  else match readFrame bytes bytes.length with
    | .ok _ => .ok (bytes.drop containerFrameLen)
    | .error (.refused error) => .error error
    | .error (.prefixTooShort _) => .error (.wire .truncated)

/-- What a peek reads from the front of a container. -/
structure ContainerPeek where
  ciphertextLen : Nat

/-- Read a container's frame from its first bytes, given the container's length and the largest
container the service stores. -/
def peekContainer (avail : List UInt8) (totalLen maxLen : Nat) : Except PeekError ContainerPeek :=
  if maxLen < totalLen then .error (.refused .containerTooLarge)
  else (readFrame avail totalLen).map ContainerPeek.mk

/-- How many bytes a reader that has no answer asks for. -/
def PeekError.needed : PeekError → Option Nat
  | .prefixTooShort needed => some needed
  | .refused _ => none

/-- What a peek says of the ciphertext of a container that is parsed whole. -/
def peekOf (ciphertext : List UInt8) : ContainerPeek := ⟨ciphertext.length⟩

theorem length_encodeContainer (ciphertext : List UInt8) :
    (encodeContainer ciphertext).length = containerFrameLen + ciphertext.length := by
  have magicLength : containerMagic.length = 4 := by decide
  have versionLength : (Writer.u16 containerVersion).length = 2 := rfl
  have frameLength : containerFrameLen = 14 := rfl
  simp only [encodeContainer, List.length_append, magicLength, versionLength, bigEndian_length]
  omega

theorem parseContainer_encodeContainer {ciphertext : List UInt8} {maxLen : Nat}
    (tagged : minCiphertextLen ≤ ciphertext.length) (small : ciphertext.length < 2 ^ 64)
    (fits : containerFrameLen + ciphertext.length ≤ maxLen) :
    parseContainer (encodeContainer ciphertext) maxLen = .ok ciphertext := by
  have magicLength : containerMagic.length = 4 := by decide
  have versionLength : (Writer.u16 containerVersion).length = 2 := rfl
  have frameLength : containerFrameLen = 14 := rfl
  have length := length_encodeContainer ciphertext
  have magic : (encodeContainer ciphertext).take 4 = containerMagic := List.take_left' magicLength
  have afterMagic : (encodeContainer ciphertext).drop 4 = Writer.u16 containerVersion ++
      (bigEndian 8 ciphertext.length ++ ciphertext) := List.drop_left' magicLength
  have afterVersion : (encodeContainer ciphertext).drop 6 =
      bigEndian 8 ciphertext.length ++ ciphertext := by
    rw [show 6 = 4 + 2 from rfl, ← List.drop_drop, afterMagic, List.drop_left' versionLength]
  have version : ofBigEndian (((encodeContainer ciphertext).drop 4).take 2) =
      containerVersion.toNat := by
    rw [afterMagic, List.take_left' versionLength]
    rfl
  have ciphertextLen : ofBigEndian (((encodeContainer ciphertext).drop 6).take 8) =
      ciphertext.length := by
    rw [afterVersion, List.take_left' (bigEndian_length _ _), ofBigEndian_bigEndian]
    exact Nat.mod_eq_of_lt small
  have read : readFrame (encodeContainer ciphertext) (encodeContainer ciphertext).length =
      .ok ciphertext.length := by
    simp only [readFrame, bind_eq_ok, ensure_eq_ok, exists_const]
    rw [ciphertextLen, magicLength, frameLength]
    exact ⟨le_rfl, .inl (by omega), by omega, magic, by omega, version, by omega, by omega,
      by omega, by omega, tagged, rfl⟩
  unfold parseContainer
  rw [if_neg (by omega), read]
  refine congrArg Except.ok ?_
  rw [show containerFrameLen = 6 + 8 from rfl, ← List.drop_drop, afterVersion,
    List.drop_left' (bigEndian_length _ _)]

/-! ### The reader on a part of a container -/

theorem readFrame_badMagic (bounded : avail.length ≤ totalLen)
    (differs : avail.take 4 ≠ containerMagic.take avail.length) :
    readFrame avail totalLen = .error (.refused (.wire .badMagic)) := by
  have magicLength : containerMagic.length = 4 := by decide
  unfold readFrame
  dsimp only
  rw [ensure_of bounded, ok_bind]
  by_cases short : avail.length < 4
  · rw [ensure_of_not]
    · rfl
    · rw [magicLength]
      rintro (long | same)
      · omega
      · exact differs ((List.take_of_length_le (by omega)).trans same)
  · have different : avail.take containerMagic.length ≠ containerMagic := by
      rw [magicLength]
      intro same
      exact differs (same.trans (List.take_of_length_le (by omega)).symm)
    rw [ensure_of (.inl (by omega)), ok_bind, ensure_of (by omega), ok_bind,
      ensure_of_not different]
    rfl

theorem readFrame_insideMagic (bounded : avail.length < totalLen) (short : avail.length < 4)
    (same : avail.take 4 = containerMagic.take avail.length) :
    readFrame avail totalLen = .error (.prefixTooShort (min containerFrameLen totalLen)) := by
  have magicLength : containerMagic.length = 4 := by decide
  rw [List.take_of_length_le (by omega)] at same
  unfold readFrame
  dsimp only
  rw [ensure_of (by omega), ok_bind, ensure_of (.inr same), ok_bind, ensure_of_not (by omega),
    error_bind, if_neg (by omega)]

theorem readFrame_foretells {object part : List UInt8} (front : part <+: object) :
    Foretells PeekError.needed part.length object.length (readFrame part object.length)
      (readFrame object object.length) := by
  obtain ⟨rest, rfl⟩ := front
  have magicLength : containerMagic.length = 4 := by decide
  have frameLength : containerFrameLen = 14 := rfl
  have total : (part ++ rest).length = part.length + rest.length := List.length_append
  by_cases whole : part.length = (part ++ rest).length
  · obtain rfl : rest = [] := List.eq_nil_of_length_eq_zero (by omega)
    rw [List.append_nil]
    exact foretells_refl _
  by_cases magic : part.take 4 = containerMagic.take part.length
  swap
  · -- The bytes in hand are not the magic's, and they stay so.
    rw [readFrame_badMagic (by omega) magic,
      readFrame_badMagic le_rfl (front_differs magic)]
    exact foretells_refl _
  by_cases short : part.length < 4
  · rw [readFrame_insideMagic (by omega) short magic]
    have asks : PeekError.needed (.prefixTooShort (min containerFrameLen (part ++ rest).length)) =
        some (min containerFrameLen (part ++ rest).length) := rfl
    exact foretells_needs asks (by omega) (Nat.min_le_right _ _) _
  unfold readFrame
  simp only [if_neg whole]
  refine foretells_ensure_bind (iff_of_true (by omega) le_rfl) fun _ _ => ?_
  refine foretells_ensure_bind (iff_of_true (.inl (by omega)) (.inl (by omega))) fun _ _ => ?_
  refine foretells_lack_bind rfl (by omega) (by omega) fun _ _ => ?_
  rw [List.take_append_of_le_length (by omega)]
  refine foretells_ensure_bind Iff.rfl fun _ _ => ?_
  refine foretells_lack_bind rfl (by omega) (by omega) fun versioned _ => ?_
  rw [take_drop_append (by omega)]
  refine foretells_ensure_bind Iff.rfl fun _ _ => ?_
  refine foretells_ensure_bind Iff.rfl fun _ _ => ?_
  refine foretells_lack_bind rfl (by omega) (by omega) fun framed _ => ?_
  rw [take_drop_append (by omega)]
  exact foretells_refl _

theorem readFrame_answers :
    FailsOnly (fun failure => failure.needed = none) (readFrame object object.length) := by
  unfold readFrame
  simp only [if_true]
  refine failsOnly_ensure_bind rfl fun _ => failsOnly_ensure_bind rfl fun _ => ?_
  refine failsOnly_ensure_bind rfl fun _ => failsOnly_ensure_bind rfl fun _ => ?_
  refine failsOnly_ensure_bind rfl fun _ => failsOnly_ensure_bind rfl fun _ => ?_
  refine failsOnly_ensure_bind rfl fun _ => failsOnly_ensure_bind rfl fun _ => ?_
  refine failsOnly_ensure_bind rfl fun _ => failsOnly_ensure_bind rfl fun _ => ?_
  exact failsOnly_ensure_bind rfl fun _ => failsOnly_ok _

theorem readFrame_eq_ok {totalLen ciphertextLen : Nat}
    (read : readFrame avail totalLen = .ok ciphertextLen) :
    totalLen = containerFrameLen + ciphertextLen := by
  simp only [readFrame, bind_eq_ok, ensure_eq_ok, exists_const] at read
  obtain ⟨-, -, -, -, -, -, framed, -, fits, exact, -, rest⟩ := read
  obtain rfl := Except.ok.inj rest
  omega

theorem peekContainer_whole :
    peekContainer object object.length maxLen =
      ((parseContainer object maxLen).map peekOf).mapError .refused := by
  unfold peekContainer parseContainer
  by_cases large : maxLen < object.length
  · rw [if_pos large, if_pos large]
    rfl
  · rw [if_neg large, if_neg large]
    cases read : readFrame object object.length with
    | error failure =>
      cases failure with
      | refused error => rfl
      | prefixTooShort needed => cases readFrame_answers object _ read
    | ok ciphertextLen =>
      have total := readFrame_eq_ok read
      refine congrArg Except.ok ?_
      rw [peekOf, ContainerPeek.mk.injEq, List.length_drop]
      omega

theorem peekContainer_sound :
    PrefixReader.Sound PeekError.needed fun avail totalLen =>
      peekContainer avail totalLen maxLen where
  foretells object part front := by
    unfold peekContainer
    by_cases large : maxLen < object.length
    · rw [if_pos large, if_pos large]
      exact foretells_refl _
    · rw [if_neg large, if_neg large]
      exact (readFrame_foretells front).map _
  answers object failure failed := by
    rw [peekContainer_whole] at failed
    cases parsed : parseContainer object maxLen with
    | ok ciphertext =>
      rw [parsed] at failed
      cases failed
    | error error =>
      rw [parsed] at failed
      cases failed
      rfl

theorem PeekError.needed_eq_some (failure : PeekError) (needed : Nat) :
    failure.needed = some needed ↔ failure = .prefixTooShort needed := by
  cases failure <;> simp [PeekError.needed]

theorem peekContainer_agrees :
    Agrees PeekError.needed .prefixTooShort
      (fun avail totalLen => peekContainer avail totalLen maxLen) fun object =>
      ((parseContainer object maxLen).map peekOf).mapError .refused :=
  (peekContainer_sound maxLen).agrees PeekError.needed_eq_some fun object =>
    peekContainer_whole object maxLen

/-! ### No length wraps -/

/-- `readFrame` with every difference of lengths checked. -/
def readFrameChecked (avail : List UInt8) (totalLen : Nat) : Except (Stop PeekError) Nat := do
  let refuse (error : WireError) : PeekError := .refused (.wire error)
  ensure (avail.length ≤ totalLen) (.refused (refuse .lengthExceedsInput))
  let lack (needed : Nat) : PeekError :=
    if avail.length = totalLen then refuse .truncated else .prefixTooShort (min needed totalLen)
  ensure (containerMagic.length ≤ avail.length ∨ avail = containerMagic.take avail.length)
    (.refused (refuse .badMagic))
  ensure (containerMagic.length ≤ avail.length) (.refused (lack containerFrameLen))
  ensure (avail.take containerMagic.length = containerMagic) (.refused (refuse .badMagic))
  ensure (containerMagic.length + 2 ≤ avail.length) (.refused (lack containerFrameLen))
  ensure (ofBigEndian ((avail.drop 4).take 2) = containerVersion.toNat)
    (.refused (refuse .unsupportedContainer))
  ensure (containerFrameLen ≤ totalLen) (.refused (refuse .truncated))
  ensure (containerFrameLen ≤ avail.length) (.refused (lack containerFrameLen))
  let ciphertextLen := ofBigEndian ((avail.drop 6).take 8)
  let remaining ← minus totalLen containerFrameLen
  ensure (ciphertextLen ≤ remaining) (.refused (refuse .lengthExceedsInput))
  ensure (remaining ≤ ciphertextLen) (.refused (refuse .trailingBytes))
  ensure (minCiphertextLen ≤ ciphertextLen) (.refused (refuse .ciphertextTooShort))
  return ciphertextLen

theorem readFrameChecked_eq (avail : List UInt8) (totalLen : Nat) :
    readFrameChecked avail totalLen = inRange (readFrame avail totalLen) := by
  unfold readFrameChecked readFrame
  refine ensure_bind_eq_inRange fun _ => ensure_bind_eq_inRange fun _ => ?_
  refine ensure_bind_eq_inRange fun _ => ensure_bind_eq_inRange fun _ => ?_
  refine ensure_bind_eq_inRange fun _ => ensure_bind_eq_inRange fun _ => ?_
  refine ensure_bind_eq_inRange fun framed => ensure_bind_eq_inRange fun _ => ?_
  rw [minus_bind framed]
  refine ensure_bind_eq_inRange fun _ => ensure_bind_eq_inRange fun _ => ?_
  exact ensure_bind_eq_inRange fun _ => rfl

end Dohflow.SyncCore.Artifact

namespace Dohflow.SyncCore

open PrefixReader

/-- Peeking agrees with parsing, for both containers: every part of an object gets the parser's
verdict or a request for bytes that are there, a reader that fetches what is asked for gets the
verdict, and no sum or difference of lengths leaves the 64 bits. -/
theorem peek_agrees_with_parse :
    (Agrees PeekError.needed .prefixTooShort peekContainer (fun object =>
        ((parseContainer object).map ParsedContainer.peek).mapError .wire) ∧
      ∀ avail totalLen, readFrameChecked avail totalLen = inRange (readFrame avail totalLen)) ∧
    ((∀ maxLen, Agrees Artifact.PeekError.needed .prefixTooShort
        (fun avail totalLen => Artifact.peekContainer avail totalLen maxLen) (fun object =>
        ((Artifact.parseContainer object maxLen).map Artifact.peekOf).mapError .refused)) ∧
      ∀ avail totalLen, Artifact.readFrameChecked avail totalLen =
        inRange (Artifact.readFrame avail totalLen)) :=
  ⟨⟨peekContainer_agrees, readFrameChecked_eq⟩,
    Artifact.peekContainer_agrees, Artifact.readFrameChecked_eq⟩

end Dohflow.SyncCore
