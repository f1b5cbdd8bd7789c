/-
This file proves that the metadata a part is given names the part.

The metadata is written by hand: a uuid and two decimal numbers between quotes. None
of their characters is escaped in canonical text, so the bytes are those of an object
of the three members, and the binding that is read from them is the part's.
-/

import Dohflow.SyncCore.ArtifactClosure

namespace Dohflow.SyncCore.ArtifactClosure

open CanonicalOrder Fallible Node SourceParts SourceRows Spelling

variable {toVec : Canonicalizer}
variable (batchId : Uuid) (index count : Nat)

/-! ### Texts without escapes -/

/-- A character that canonical text holds as it is. -/
def IsPlain (char : Char) : Prop := char ≠ '"' ∧ char ≠ '\\' ∧ 0x20 ≤ char.toNat

instance (char : Char) : Decidable (IsPlain char) := inferInstanceAs (Decidable (_ ∧ _ ∧ _))

theorem escapedChar_of_isPlain {char : Char} (plain : IsPlain char) : escapedChar char = [char] := by
  obtain ⟨notQuote, notBackslash, printable⟩ := plain
  unfold escapedChar
  split
  · exact absurd rfl notQuote
  · exact absurd rfl notBackslash
  · exact absurd printable (by decide)
  · exact absurd printable (by decide)
  · exact absurd printable (by decide)
  · exact absurd printable (by decide)
  · exact absurd printable (by decide)
  · exact if_neg (by omega)

theorem flatMap_escapedChar {chars : List Char} (plain : ∀ char ∈ chars, IsPlain char) :
    chars.flatMap escapedChar = chars := by
  rw [List.flatMap_congr fun char member => escapedChar_of_isPlain (plain char member)]
  exact List.flatMap_singleton' chars

theorem bytes_string {text : String} (plain : ∀ char ∈ text.toList, IsPlain char) :
    bytes (.string text) = utf8 "\"" ++ utf8 text ++ utf8 "\"" := by
  have quote : utf8 (String.ofList ['"']) = utf8 "\"" := by decide +kernel
  rw [bytes, emit, quoted, flatMap_escapedChar plain, utf8_ofList_cons, utf8_ofList_append, quote,
    String.ofList_toList, List.append_assoc]

theorem isPlain_digitChar : ∀ digit < 16, IsPlain (Nat.digitChar digit) := by decide

theorem isPlain_hyphenatedFrom (index : Nat) (bytes : List UInt8) :
    ∀ char ∈ hyphenatedFrom index bytes, IsPlain char := by
  induction bytes generalizing index with
  | nil => exact fun _ member => absurd member List.not_mem_nil
  | cons byte rest inductionHypothesis =>
    intro char member
    rw [hyphenatedFrom, List.mem_append, List.mem_append] at member
    rcases member with hyphen | digit | later
    · split at hyphen
      · rw [List.mem_singleton.mp hyphen]
        decide
      · exact absurd hyphen List.not_mem_nil
    · have below := byte.toNat_lt
      rcases List.mem_cons.mp digit with rfl | low
      · exact isPlain_digitChar _ (by omega)
      · rw [List.mem_singleton.mp low]
        exact isPlain_digitChar _ (by omega)
    · exact inductionHypothesis _ char later

theorem isPlain_hyphenated (id : Uuid) : ∀ char ∈ (hyphenated id).toList, IsPlain char := by
  rw [hyphenated, String.toList_ofList]
  exact isPlain_hyphenatedFrom 0 _

theorem isPlain_toString (value : Nat) : ∀ char ∈ (toString value).toList, IsPlain char := by
  have digits : (toString value).toList = Nat.toDigits 10 value := String.toList_ofList
  rw [digits]
  intro char member
  have digit := List.all_eq_true.mp (all_isDigit_toDigits value) char member
  obtain ⟨low, high⟩ := Char.isDigit_iff_toNat.mp digit
  have low : 48 ≤ char.toNat := low
  have high : char.toNat ≤ 57 := high
  refine ⟨?_, ?_, by omega⟩
  · rintro rfl
    exact absurd low (by decide)
  · rintro rfl
    exact absurd high (by decide)

/-! ### The metadata of a part -/

/-- The object that a part's metadata is the text of. -/
def metadataNode (batchId : Uuid) (index count : Nat) : Node :=
  .object [("batch_id", uuid batchId), ("part_count", .string (toString count)),
    ("part_index", .string (toString index))]

theorem bytes_metadataNode :
    bytes (metadataNode batchId index count) = metadata batchId index count := by
  have first : utf8 (String.ofList ('\x7b' :: (quoted "batch_id" ++ [':']))) ++ utf8 "\"" =
      utf8 "\x7b\"batch_id\":\"" := by decide +kernel
  have second : utf8 "\"" ++ utf8 (String.ofList (',' :: (quoted "part_count" ++ [':']))) ++ utf8 "\"" =
      utf8 "\",\"part_count\":\"" := by decide +kernel
  have third : utf8 "\"" ++ utf8 (String.ofList (',' :: (quoted "part_index" ++ [':']))) ++ utf8 "\"" =
      utf8 "\",\"part_index\":\"" := by decide +kernel
  have ends : utf8 "\"" ++ utf8 (String.ofList (emitMembers [])) = utf8 "\"\x7d" := by decide +kernel
  rw [metadataNode, bytes_object, utf8_emitMembers, utf8_emitMembers, uuid,
    bytes_string (isPlain_hyphenated batchId), bytes_string (isPlain_toString count),
    bytes_string (isPlain_toString index), metadata, ← first, ← second, ← third, ← ends]
  simp only [List.append_assoc]

theorem ordered_metadataNode : (metadataNode batchId index count).Ordered := by
  have first : utf8 "batch_id" < utf8 "part_count" := by decide +kernel
  have second : utf8 "batch_id" < utf8 "part_index" := by decide +kernel
  have third : utf8 "part_count" < utf8 "part_index" := by decide +kernel
  refine ⟨?_, trivial, trivial, trivial, trivial⟩
  simp [NamesAscend, first, second, third]

theorem validate_string {text : String} (plain : ∀ char ∈ text.toList, IsPlain char)
    (containers : Nat) : (Node.string text).validateAt containers = .ok () := by
  have absent : '\x00' ∉ text.toList := fun zero => absurd (plain _ zero).2.2 (by decide)
  exact ensure_of absent _

theorem validate_metadataNode : (metadataNode batchId index count).validate = .ok () := by
  rw [metadataNode, validate, validateAt, ensure_bind_eq_ok, validateMembers_eq_ok]
  refine ⟨by decide, ?_⟩
  simp only [List.forall_mem_cons, uuid, validate_string (isPlain_hyphenated batchId),
    validate_string (isPlain_toString count), validate_string (isPlain_toString index), and_true,
    List.not_mem_nil, false_implies, implies_true]
  decide +kernel

theorem parse_metadata (emits : EmitsRfc8785 toVec) (batchId : Uuid) (index count : Nat) :
    parseCanonicalNode toVec (metadata batchId index count) =
      .ok (metadataNode batchId index count) := by
  have ordered := ordered_metadataNode batchId index count
  have valid := validate_metadataNode batchId index count
  rw [← bytes_metadataNode]
  exact parseCanonicalNode_eq_ok.mpr ⟨parseNodeLenient_emit ⟨ordered, valid⟩,
    (nodeToCanonicalVec_eq_ok emits ordered).mpr ⟨valid, rfl⟩⟩

end Dohflow.SyncCore.ArtifactClosure
