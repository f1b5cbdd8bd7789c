/-
This file models reading a container's header from its first bytes, and relates it
to parsing the container whole.

There is one frame reader, so a peek is that reader over a part of the bytes. On
every part it gives the parser's verdict or asks for bytes that are there. The
reader's sums and differences of lengths are numbers of 64 bits in the source;
`readFrameChecked` takes each of them under a check, and no check ever fails.
-/

import Dohflow.Foundation.PrefixReader
import Dohflow.SyncCore.Header

namespace Dohflow.SyncCore

open ByteReader Fallible PrefixReader

variable (object : List UInt8) {avail : List UInt8} {totalLen : Nat}

/-- What a peek reads from the front of a container. -/
structure ContainerPeek where
  header : ClearHeader
  headerLen : Nat
  ciphertextLen : Nat

/-- Read the header of a container from its first bytes, given the container's length. -/
def peekContainer (avail : List UInt8) (totalLen : Nat) : Except PeekError ContainerPeek :=
  (readFrame avail totalLen).map fun frame =>
    { header := frame.header, headerLen := frame.headerLen, ciphertextLen := frame.ciphertextLen }

/-- How many bytes a reader that has no answer asks for. -/
def PeekError.needed : PeekError → Option Nat
  | .prefixTooShort needed => some needed
  | .wire _ => none

/-- What a peek says of a container that is parsed whole. -/
def ParsedContainer.peek (container : ParsedContainer) : ContainerPeek :=
  { header := container.header, headerLen := container.headerBytes.length
    ciphertextLen := container.ciphertext.length }

/-! ### The reader on a part of a container -/

theorem take_drop_append {start width : Nat} {part rest : List UInt8}
    (inside : start + width ≤ part.length) :
    ((part ++ rest).drop start).take width = (part.drop start).take width := by
  rw [List.drop_append_of_le_length (by omega), List.take_append_of_le_length]
  rw [List.length_drop]
  omega

theorem front_differs {magic part rest : List UInt8}
    (differs : part.take 4 ≠ magic.take part.length) :
    (part ++ rest).take 4 ≠ magic.take (part ++ rest).length := by
  intro same
  refine differs ?_
  have shorter := congrArg (List.take part.length) same
  have total : part.length ≤ (part ++ rest).length := by simp
  rwa [List.take_take, Nat.min_comm, ← List.take_take, List.take_left' rfl, List.take_take,
    Nat.min_eq_left total] at shorter

theorem readFrame_badMagic (bounded : avail.length ≤ totalLen)
    (differs : avail.take 4 ≠ containerMagic.take avail.length) :
    readFrame avail totalLen = .error (.wire .badMagic) := by
  have magicLength : containerMagic.length = 4 := by decide
  unfold readFrame
  rw [ensure_of bounded, ok_bind]
  by_cases short : avail.length < 4
  · rw [ensure_of_not]
    · rfl
    · rw [magicLength]
      rintro (long | same)
      · omega
      · exact differs ((List.take_of_length_le (by omega)).trans same)
  · have different : avail.take containerMagic.length ≠ containerMagic := by
      rw [magicLength]
      intro same
      exact differs (same.trans (List.take_of_length_le (by omega)).symm)
    rw [ensure_of (.inl (by omega)), ok_bind, ensure_of (by omega), ok_bind,
      ensure_of_not different]
    rfl

theorem readFrame_insideMagic (bounded : avail.length < totalLen) (short : avail.length < 4)
    (same : avail.take 4 = containerMagic.take avail.length) :
    readFrame avail totalLen = .error (.prefixTooShort (min frameHeadLen totalLen)) := by
  have magicLength : containerMagic.length = 4 := by decide
  rw [List.take_of_length_le (by omega)] at same
  unfold readFrame
  rw [ensure_of (by omega), ok_bind, ensure_of (.inr same), ok_bind, ensure_of_not (by omega),
    error_bind]
  refine congrArg Except.error ?_
  show (if avail.length = totalLen then PeekError.wire .truncated
    else .prefixTooShort (min frameHeadLen totalLen)) = _
  rw [if_neg (by omega)]

theorem readFrame_foretells {object part : List UInt8} (front : part <+: object) :
    Foretells PeekError.needed part.length object.length (readFrame part object.length)
      (readFrame object object.length) := by
  obtain ⟨rest, rfl⟩ := front
  have magicLength : containerMagic.length = 4 := by decide
  have headLength : frameHeadLen = 10 := rfl
  have fieldLength : ciphertextLenField = 8 := rfl
  have total : (part ++ rest).length = part.length + rest.length := List.length_append
  by_cases whole : part.length = (part ++ rest).length
  · obtain rfl : rest = [] := List.eq_nil_of_length_eq_zero (by omega)
    rw [List.append_nil]
    exact foretells_refl _
  by_cases magic : part.take 4 = containerMagic.take part.length
  swap
  · -- The bytes in hand are not the magic's, and they stay so.
    rw [readFrame_badMagic (by omega) magic,
      readFrame_badMagic le_rfl (front_differs magic)]
    exact foretells_refl _
  by_cases short : part.length < 4
  · rw [readFrame_insideMagic (by omega) short magic]
    have asks : PeekError.needed (.prefixTooShort (min frameHeadLen (part ++ rest).length)) =
        some (min frameHeadLen (part ++ rest).length) := rfl
    exact foretells_needs asks (by omega) (Nat.min_le_right _ _) _
  unfold readFrame
  simp only [if_neg whole]
  refine foretells_ensure_bind (iff_of_true (by omega) le_rfl) fun _ _ => ?_
  refine foretells_ensure_bind (iff_of_true (.inl (by omega)) (.inl (by omega))) fun _ _ => ?_
  refine foretells_lack_bind rfl (by omega) (by omega) fun _ _ => ?_
  rw [List.take_append_of_le_length (by omega)]
  refine foretells_ensure_bind Iff.rfl fun _ _ => ?_
  refine foretells_lack_bind rfl (by omega) (by omega) fun versioned _ => ?_
  rw [take_drop_append (by omega)]
  refine foretells_ensure_bind Iff.rfl fun _ _ => ?_
  refine foretells_lack_bind rfl (by omega) (by omega) fun headed _ => ?_
  rw [take_drop_append (by omega)]
  refine foretells_ensure_bind Iff.rfl fun fits _ => ?_
  refine foretells_lack_bind rfl (by omega) (by omega) fun held _ => ?_
  rw [take_drop_append (by omega)]
  refine foretells_bind fun header => ?_
  refine foretells_ensure_bind Iff.rfl fun _ _ => ?_
  refine foretells_lack_bind rfl (by omega) (by omega) fun measured _ => ?_
  rw [take_drop_append (by omega)]
  exact foretells_refl _

theorem readFrame_answers :
    FailsOnly (fun failure => failure.needed = none) (readFrame object object.length) := by
  unfold readFrame
  simp only [if_true]
  refine failsOnly_ensure_bind rfl fun _ => failsOnly_ensure_bind rfl fun _ => ?_
  refine failsOnly_ensure_bind rfl fun _ => failsOnly_ensure_bind rfl fun _ => ?_
  refine failsOnly_ensure_bind rfl fun _ => failsOnly_ensure_bind rfl fun _ => ?_
  refine failsOnly_ensure_bind rfl fun _ => failsOnly_ensure_bind rfl fun _ => ?_
  refine failsOnly_ensure_bind rfl fun _ => ?_
  have decoding (bytes : List UInt8) : FailsOnly (fun failure => failure.needed = none)
      ((ClearHeader.decode bytes).mapError PeekError.wire) := failsOnly_mapError _ fun _ => rfl
  refine (decoding _).bind fun header _ => ?_
  refine failsOnly_ensure_bind rfl fun _ => failsOnly_ensure_bind rfl fun _ => ?_
  refine failsOnly_ensure_bind rfl fun _ => failsOnly_ensure_bind rfl fun _ => ?_
  exact failsOnly_ensure_bind rfl fun _ => failsOnly_ok _

theorem peekContainer_whole :
    peekContainer object object.length =
      ((parseContainer object).map ParsedContainer.peek).mapError .wire := by
  unfold peekContainer parseContainer
  cases read : readFrame object object.length with
  | error failure =>
    cases failure with
    | wire error => rfl
    | prefixTooShort needed => cases readFrame_answers object _ read
  | ok frame =>
    have spells := readFrame_spells read
    have long := spells.long
    have total := spells.total
    have headLength : frameHeadLen = 10 := rfl
    have fieldLength : ciphertextLenField = 8 := rfl
    refine congrArg Except.ok ?_
    rw [ParsedContainer.peek, ContainerPeek.mk.injEq, List.length_take, List.length_drop,
      List.length_drop]
    exact ⟨rfl, by omega, by omega⟩

theorem peekContainer_sound : PrefixReader.Sound PeekError.needed peekContainer where
  foretells _ _ front := (readFrame_foretells front).map _
  answers object failure failed := by
    rw [peekContainer_whole] at failed
    cases parsed : parseContainer object with
    | ok container =>
      rw [parsed] at failed
      cases failed
    | error error =>
      rw [parsed] at failed
      cases failed
      rfl

theorem PeekError.needed_eq_some (failure : PeekError) (needed : Nat) :
    failure.needed = some needed ↔ failure = .prefixTooShort needed := by
  cases failure <;> simp [PeekError.needed]

theorem peekContainer_agrees :
    Agrees PeekError.needed .prefixTooShort peekContainer fun object =>
      ((parseContainer object).map ParsedContainer.peek).mapError .wire :=
  peekContainer_sound.agrees PeekError.needed_eq_some peekContainer_whole

/-! ### No length wraps -/

/-- The lengths are numbers of 64 bits. -/
def lengthLimit : Nat := 2 ^ 64

/-- `readFrame` with every sum and difference of lengths checked. -/
def readFrameChecked (avail : List UInt8) (totalLen : Nat) : Except (Stop PeekError) Frame := do
  ensure (avail.length ≤ totalLen) (.refused (.wire .lengthExceedsInput))
  let lack (needed : Nat) : PeekError :=
    if avail.length = totalLen then .wire .truncated else .prefixTooShort (min needed totalLen)
  ensure (containerMagic.length ≤ avail.length ∨ avail = containerMagic.take avail.length)
    (.refused (.wire .badMagic))
  ensure (containerMagic.length ≤ avail.length) (.refused (lack frameHeadLen))
  ensure (avail.take containerMagic.length = containerMagic) (.refused (.wire .badMagic))
  ensure (containerMagic.length + 2 ≤ avail.length) (.refused (lack frameHeadLen))
  ensure (ofBigEndian ((avail.drop 4).take 2) = containerVersion.toNat)
    (.refused (.wire .unsupportedContainer))
  ensure (frameHeadLen ≤ avail.length) (.refused (lack frameHeadLen))
  let headerLen := ofBigEndian ((avail.drop 6).take 4)
  let afterHead ← minus totalLen frameHeadLen
  ensure (headerLen ≤ afterHead) (.refused (.wire .lengthExceedsInput))
  let headerEnd ← plus lengthLimit frameHeadLen headerLen
  ensureOrSum (headerEnd ≤ avail.length) lengthLimit headerEnd ciphertextLenField lack
  let header ← inRange
    ((ClearHeader.decode ((avail.drop frameHeadLen).take headerLen)).mapError .wire)
  let lengthEnd ← plus lengthLimit headerEnd ciphertextLenField
  ensure (lengthEnd ≤ totalLen) (.refused (.wire .truncated))
  ensure (lengthEnd ≤ avail.length) (.refused (lack lengthEnd))
  let ciphertextLen := ofBigEndian ((avail.drop headerEnd).take ciphertextLenField)
  let remaining ← minus totalLen lengthEnd
  ensure (ciphertextLen ≤ remaining) (.refused (.wire .lengthExceedsInput))
  ensure (minCiphertextLen ≤ ciphertextLen) (.refused (.wire .ciphertextTooShort))
  ensure (remaining ≤ ciphertextLen) (.refused (.wire .trailingBytes))
  return { header, headerLen, ciphertextLen }

theorem ofBigEndian_take_lt (bytes : List UInt8) (width : Nat) :
    ofBigEndian (bytes.take width) < 256 ^ width :=
  (ofBigEndian_lt _).trans_le (Nat.pow_le_pow_right (by decide) (List.length_take_le _ _))

theorem readFrameChecked_eq (avail : List UInt8) (totalLen : Nat) :
    readFrameChecked avail totalLen = inRange (readFrame avail totalLen) := by
  have headLength : frameHeadLen = 10 := rfl
  have fieldLength : ciphertextLenField = 8 := rfl
  have limit : lengthLimit = 2 ^ 64 := rfl
  have headerSmall : ofBigEndian ((avail.drop 6).take 4) < 2 ^ 32 :=
    ofBigEndian_take_lt (avail.drop 6) 4
  have fits : frameHeadLen + ofBigEndian ((avail.drop 6).take 4) + ciphertextLenField <
      lengthLimit := by omega
  unfold readFrameChecked readFrame
  refine ensure_bind_eq_inRange fun held => ?_
  refine ensure_bind_eq_inRange fun _ => ensure_bind_eq_inRange fun _ => ?_
  refine ensure_bind_eq_inRange fun _ => ensure_bind_eq_inRange fun _ => ?_
  refine ensure_bind_eq_inRange fun _ => ensure_bind_eq_inRange fun headed => ?_
  rw [minus_bind (by omega)]
  refine ensure_bind_eq_inRange fun _ => ?_
  rw [plus_bind (by omega)]
  refine ensureOrSum_bind_eq_inRange (fun _ => fits) fun _ => ?_
  refine bind_eq_inRange fun header => ?_
  rw [plus_bind fits]
  refine ensure_bind_eq_inRange fun inside => ensure_bind_eq_inRange fun _ => ?_
  rw [minus_bind inside]
  refine ensure_bind_eq_inRange fun _ => ensure_bind_eq_inRange fun _ => ?_
  exact ensure_bind_eq_inRange fun _ => rfl

end Dohflow.SyncCore
