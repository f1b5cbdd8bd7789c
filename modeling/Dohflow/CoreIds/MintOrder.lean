/-
This file proves that derived ids keep the order in which they are minted.

An ordinal id reads as one number: the time, the version, the ordinal, the variant and
random bits, so under one time it grows with the ordinal. Only an ordinal id that is
minted takes an ordinal, so whatever else is asked in between changes no later id. The
ids of natural keys are of another version, and what is hashed for them tells the
command, the tag and the parts apart.
-/

import Dohflow.CoreIds.DerivedIds
import Dohflow.Foundation.PrefixFree
import Dohflow.SyncCore.CanonicalJsonForms

namespace Dohflow.CoreIds

open ByteReader Fallible PrefixFree SyncCore

/-! ### Packed numbers -/

/-- In this order: 48 bits of time, version seven, twelve bits of a counter, the variant, and 62
random bits. -/
def PacksVersion7 (pack : Nat → Fixed 10 → Uuid) : Prop :=
  ∀ millis random, ofBigEndian (pack millis random).toList =
    millis % 2 ^ 48 * 2 ^ 80 + 7 * 2 ^ 76 + ofBigEndian (random.toList.take 2) % 2 ^ 12 * 2 ^ 64 +
      2 * 2 ^ 62 + ofBigEndian (random.toList.drop 2) % 2 ^ 62

/-- A packing that does. -/
def packVersion7 (millis : Nat) (random : Fixed 10) : Uuid :=
  ⟨bigEndian 16 (millis % 2 ^ 48 * 2 ^ 80 + 7 * 2 ^ 76 +
    ofBigEndian (random.toList.take 2) % 2 ^ 12 * 2 ^ 64 + 2 * 2 ^ 62 +
    ofBigEndian (random.toList.drop 2) % 2 ^ 62), bigEndian_length _ _⟩

theorem packsVersion7_packVersion7 : PacksVersion7 packVersion7 := by
  intro millis random
  show ofBigEndian (bigEndian 16 _) = _
  rw [ofBigEndian_bigEndian]
  refine Nat.mod_eq_of_lt ?_
  omega

theorem lt_of_ofBigEndian_lt {first second : List UInt8} (same : first.length = second.length)
    (less : ofBigEndian first < ofBigEndian second) : first < second := by
  rw [← bigEndian_ofBigEndian first, ← bigEndian_ofBigEndian second, same]
  exact bigEndian_lt less (ofBigEndian_lt second)

/-- The version of an id: the high half of its seventh byte. -/
def version (id : Uuid) : Nat := (id.toList.getD 6 0).toNat / 16

theorem version_eq (id : Uuid) : version id = ofBigEndian id.toList / 2 ^ 72 % 256 / 16 := by
  have spelt : id.toList = bigEndian 16 (ofBigEndian id.toList) := by
    have same := bigEndian_ofBigEndian id.toList
    rw [id.toList_length] at same
    exact same.symm
  have digit : (bigEndian 16 (ofBigEndian id.toList)).getD 6 0 =
      UInt8.ofNat (ofBigEndian id.toList / 256 ^ 9) := rfl
  unfold version
  rw [spelt, digit, ← spelt, UInt8.toNat_ofNat']
  rfl

theorem version_uuidOfMac (mac : Digest) : version (uuidOfMac mac) = 8 := by
  have stamped (byte : UInt8) : (byte &&& 0x0f ||| 0x80).toNat / 16 = 8 := by
    obtain ⟨⟨value⟩⟩ := byte
    revert value
    decide +kernel
  have length : (mac.toList.take 16).length = 16 := by
    rw [List.length_take, List.Vector.toList_length]
    rfl
  have seventh : (uuidOfMac mac).toList.getD 6 0 = (mac.toList.take 16)[6] &&& 0x0f ||| 0x80 := by
    show (asVersion8 (mac.toList.take 16)).getD 6 0 = _
    unfold asVersion8
    rw [List.getD_eq_getElem?_getD, List.getElem?_modify, List.getElem?_modify,
      List.getElem?_eq_getElem (by omega)]
    rfl
  unfold version
  rw [seventh, stamped]

/-! ### One ordinal id -/

section Ordinal

variable {primitives : IdPrimitives} {key : DerivedIdKey} {issuedAt : IssuedAt} {commandId : Uuid}
  {tag : String} {ordinal : Nat}

/-- The ordinal id of a valid tag. -/
def ordinalId (primitives : IdPrimitives) (key : DerivedIdKey) (issuedAt : IssuedAt)
    (commandId : Uuid) (tag : String) (ordinal : Nat) : Uuid :=
  primitives.fromUnixTimestampMillis issuedAt.asUnixMillis.toNat
    (counterRandomBytes ordinal (primitives.hmacSha256 key.bytes.toList
      (commandId.toList ++ UInt8.ofNat (utf8 tag).length :: utf8 tag ++ bigEndian 2 ordinal)))

theorem deriveId_of_invalid {failure : DerivedIdError}
    (invalid : validateTag (utf8 tag) = .error failure) :
    deriveId primitives key issuedAt commandId tag ordinal = .error failure := by
  unfold deriveId deriveIdTraced
  rw [invalid]
  rfl

theorem deriveId_of_overflow (valid : validateTag (utf8 tag) = .ok ())
    (overflow : maxOrdinals ≤ ordinal) :
    deriveId primitives key issuedAt commandId tag ordinal =
      .error (.ordinalOverflow commandId ordinal) := by
  unfold deriveId deriveIdTraced
  rw [valid]
  simp only [bind, Except.bind, if_pos overflow]
  rfl

theorem millis_inside (supported : issuedAt.isSupported = true) :
    0 ≤ issuedAt.asUnixMillis ∧ issuedAt.asUnixMillis ≤ maxUnixMillis := by
  unfold IssuedAt.isSupported IssuedAt.minSupportedMicros IssuedAt.maxSupportedMicros at supported
  obtain ⟨low, high⟩ := of_decide_eq_true supported
  unfold IssuedAt.asUnixMillis maxUnixMillis
  omega

theorem deriveId_of_valid (supported : issuedAt.isSupported = true)
    (valid : validateTag (utf8 tag) = .ok ()) (inside : ordinal < maxOrdinals) :
    deriveId primitives key issuedAt commandId tag ordinal =
      .ok (ordinalId primitives key issuedAt commandId tag ordinal) := by
  have range : ¬ (¬ issuedAt.isSupported ∨
      ¬ (0 ≤ issuedAt.asUnixMillis ∧ issuedAt.asUnixMillis ≤ maxUnixMillis)) :=
    fun outside => outside.elim (fun refused => refused supported)
      fun refused => refused (millis_inside supported)
  unfold deriveId deriveIdTraced
  rw [valid]
  simp only [bind, Except.bind, if_neg (not_le.mpr inside), if_neg range]
  rfl

theorem ofBigEndian_ordinalId (packs : PacksVersion7 primitives.fromUnixTimestampMillis)
    (inside : ordinal < maxOrdinals) :
    ∃ random < 2 ^ 62, ofBigEndian (ordinalId primitives key issuedAt commandId tag ordinal).toList =
      issuedAt.asUnixMillis.toNat % 2 ^ 48 * 2 ^ 80 + 7 * 2 ^ 76 + ordinal * 2 ^ 64 + 2 * 2 ^ 62 +
        random := by
  unfold ordinalId
  rw [packs]
  generalize primitives.hmacSha256 key.bytes.toList
    (commandId.toList ++ UInt8.ofNat (utf8 tag).length :: utf8 tag ++ bigEndian 2 ordinal) = hmac
  have counter : ofBigEndian ((counterRandomBytes ordinal hmac).toList.take 2) % 2 ^ 12 = ordinal := by
    show ofBigEndian [UInt8.ofNat ((ordinal >>> 8) &&& 0x0f), UInt8.ofNat (ordinal &&& 0xff)] %
      2 ^ 12 = ordinal
    have high : (ordinal >>> 8) &&& 0x0f = ordinal / 2 ^ 8 % 2 ^ 4 := by
      rw [Nat.shiftRight_eq_div_pow]
      exact Nat.and_two_pow_sub_one_eq_mod _ 4
    have low : ordinal &&& 0xff = ordinal % 2 ^ 8 := Nat.and_two_pow_sub_one_eq_mod _ 8
    rw [high, low, ofBigEndian_cons, ofBigEndian_cons, UInt8.toNat_ofNat', UInt8.toNat_ofNat']
    have nothing : ofBigEndian [] = 0 := rfl
    rw [nothing]
    unfold maxOrdinals at inside
    simp only [List.length_cons, List.length_nil]
    omega
  refine ⟨ofBigEndian ((counterRandomBytes ordinal hmac).toList.drop 2) % 2 ^ 62,
    Nat.mod_lt _ (by decide), ?_⟩
  rw [counter]

theorem ordinalId_lt (packs : PacksVersion7 primitives.fromUnixTimestampMillis) {later : Nat}
    {laterTag : String} (less : ordinal < later) (inside : later < maxOrdinals) :
    (ordinalId primitives key issuedAt commandId tag ordinal).toList <
      (ordinalId primitives key issuedAt commandId laterTag later).toList := by
  obtain ⟨random, small, own⟩ := @ofBigEndian_ordinalId primitives key issuedAt commandId tag ordinal
    packs (less.trans inside)
  obtain ⟨otherRandom, -, other⟩ := @ofBigEndian_ordinalId primitives key issuedAt commandId laterTag
    later packs inside
  refine lt_of_ofBigEndian_lt ?_ ?_
  · rw [List.Vector.toList_length, List.Vector.toList_length]
  · rw [own, other]
    omega

theorem version_ordinalId (packs : PacksVersion7 primitives.fromUnixTimestampMillis)
    (inside : ordinal < maxOrdinals) :
    version (ordinalId primitives key issuedAt commandId tag ordinal) = 7 := by
  obtain ⟨random, small, spelt⟩ := @ofBigEndian_ordinalId primitives key issuedAt commandId tag
    ordinal packs inside
  rw [version_eq, spelt]
  unfold maxOrdinals at inside
  omega

end Ordinal

/-! ### Calls of one command -/

/-- A call of an allocator. -/
inductive Call
  | next (tag : String)
  | keyed (tag : String) (naturalKey : List (List UInt8))
  | content (tag : String) (naturalKey : List (List UInt8))

/-- What a call returns, and the allocator after it. -/
def Call.run (primitives : IdPrimitives) (ids : DerivedIds) :
    Call → Except DerivedIdError Uuid × DerivedIds
  | .next tag => ids.next primitives tag
  | .keyed tag naturalKey => (ids.keyed primitives tag naturalKey, ids)
  | .content tag naturalKey => (ids.content primitives tag naturalKey, ids)

/-- The allocator after some calls. -/
def afterCalls (primitives : IdPrimitives) (ids : DerivedIds) (calls : List Call) : DerivedIds :=
  calls.foldl (fun ids call => (call.run primitives ids).2) ids

/-- What the calls return, one after another. -/
def outcomes (primitives : IdPrimitives) :
    DerivedIds → List Call → List (Call × Except DerivedIdError Uuid)
  | _, [] => []
  | ids, call :: later =>
    (call, (call.run primitives ids).1) :: outcomes primitives (call.run primitives ids).2 later

/-- The id that a call minted, if it was one for the next id and it succeeded. -/
def minted : Call × Except DerivedIdError Uuid → Option Uuid
  | (.next _, .ok id) => some id
  | _ => none

/-- The ids that the calls for the next id return. -/
def mintedIds (primitives : IdPrimitives) (ids : DerivedIds) (calls : List Call) : List Uuid :=
  (outcomes primitives ids calls).filterMap minted

section Calls

variable {primitives : IdPrimitives} {ids : DerivedIds} {call : Call} {calls : List Call}

theorem run_of_not_minted (none : minted (call, (call.run primitives ids).1) = none) :
    (call.run primitives ids).2 = ids := by
  cases call with
  | keyed tag naturalKey => rfl
  | content tag naturalKey => rfl
  | next tag =>
    simp only [Call.run, DerivedIds.next] at none ⊢
    cases derived : deriveId primitives ids.key ids.issuedAt ids.commandId tag ids.nextOrdinal with
    | error failure => rfl
    | ok id =>
      rw [derived] at none
      exact nomatch none

theorem run_of_minted (supported : ids.issuedAt.isSupported = true) {id : Uuid}
    (some : minted (call, (call.run primitives ids).1) = some id) :
    ids.nextOrdinal < maxOrdinals ∧
      (∃ tag, id = ordinalId primitives ids.key ids.issuedAt ids.commandId tag ids.nextOrdinal) ∧
      (call.run primitives ids).2 = { ids with nextOrdinal := ids.nextOrdinal + 1 } := by
  cases call with
  | keyed tag naturalKey => exact nomatch some
  | content tag naturalKey => exact nomatch some
  | next tag =>
    simp only [Call.run, DerivedIds.next] at some ⊢
    cases checked : validateTag (utf8 tag) with
    | error failure =>
      rw [deriveId_of_invalid checked] at some
      exact nomatch some
    | ok valid =>
      by_cases inside : ids.nextOrdinal < maxOrdinals
      · rw [deriveId_of_valid supported checked inside] at some ⊢
        exact ⟨inside, ⟨tag, (Option.some.inj some).symm⟩, rfl⟩
      · rw [deriveId_of_overflow checked (not_lt.mp inside)] at some
        exact nomatch some

theorem next_of_valid (supported : ids.issuedAt.isSupported = true) {tag : String}
    (valid : validateTag (utf8 tag) = .ok ()) :
    (ids.nextOrdinal < maxOrdinals → ∃ id, (ids.next primitives tag).1 = .ok id) ∧
      (maxOrdinals ≤ ids.nextOrdinal →
        (ids.next primitives tag).1 = .error (.ordinalOverflow ids.commandId ids.nextOrdinal)) := by
  constructor
  · intro inside
    unfold DerivedIds.next
    rw [deriveId_of_valid supported valid inside]
    exact ⟨_, rfl⟩
  · intro overflow
    unfold DerivedIds.next
    rw [deriveId_of_overflow valid overflow]

theorem mintedIds_sorted (packs : PacksVersion7 primitives.fromUnixTimestampMillis)
    (supported : ids.issuedAt.isSupported = true) :
    (mintedIds primitives ids calls).Pairwise (fun first second => first.toList < second.toList) ∧
      ∀ id ∈ mintedIds primitives ids calls, ∃ ordinal tag, ids.nextOrdinal ≤ ordinal ∧
        ordinal < maxOrdinals ∧
        id = ordinalId primitives ids.key ids.issuedAt ids.commandId tag ordinal := by
  induction calls generalizing ids with
  | nil => exact ⟨.nil, fun id member => absurd member List.not_mem_nil⟩
  | cons call later inductionHypothesis =>
    unfold mintedIds outcomes
    cases some : minted (call, (call.run primitives ids).1) with
    | none =>
      rw [List.filterMap_cons_none some, run_of_not_minted some]
      exact inductionHypothesis supported
    | some id =>
      obtain ⟨inside, ⟨tag, rfl⟩, after⟩ := run_of_minted supported some
      rw [List.filterMap_cons_some some, after]
      obtain ⟨sorted, listed⟩ :=
        @inductionHypothesis { ids with nextOrdinal := ids.nextOrdinal + 1 } supported
      refine ⟨List.pairwise_cons.mpr ⟨fun id member => ?_, sorted⟩, fun id member => ?_⟩
      · obtain ⟨ordinal, otherTag, behind, within, rfl⟩ := listed id member
        exact ordinalId_lt packs behind within
      · rcases List.mem_cons.mp member with rfl | member
        · exact ⟨ids.nextOrdinal, tag, le_rfl, inside, rfl⟩
        · obtain ⟨ordinal, otherTag, behind, within, rfl⟩ := listed id member
          exact ⟨ordinal, otherTag, Nat.le_of_succ_le behind, within, rfl⟩

theorem afterCalls_eq (supported : ids.issuedAt.isSupported = true)
    (inside : ids.nextOrdinal ≤ maxOrdinals) :
    afterCalls primitives ids calls =
        { ids with nextOrdinal := ids.nextOrdinal + (mintedIds primitives ids calls).length } ∧
      ids.nextOrdinal + (mintedIds primitives ids calls).length ≤ maxOrdinals := by
  induction calls generalizing ids with
  | nil => exact ⟨rfl, inside⟩
  | cons call later inductionHypothesis =>
    unfold mintedIds outcomes afterCalls
    rw [List.foldl_cons]
    cases some : minted (call, (call.run primitives ids).1) with
    | none =>
      rw [List.filterMap_cons_none some, run_of_not_minted some]
      exact inductionHypothesis supported inside
    | some id =>
      obtain ⟨room, -, after⟩ := run_of_minted supported some
      rw [List.filterMap_cons_some some, after, List.length_cons]
      obtain ⟨counted, within⟩ :=
        @inductionHypothesis { ids with nextOrdinal := ids.nextOrdinal + 1 } supported room
      unfold mintedIds at counted within
      unfold afterCalls at counted
      dsimp only at counted within
      refine ⟨counted.trans ?_, ?_⟩
      · rw [DerivedIds.mk.injEq]
        exact ⟨rfl, rfl, rfl, by omega⟩
      · omega

theorem outcomes_append (before later : List Call) :
    outcomes primitives ids (before ++ later) =
      outcomes primitives ids before ++ outcomes primitives (afterCalls primitives ids before) later := by
  induction before generalizing ids with
  | nil => rfl
  | cons call rest inductionHypothesis => exact congrArg _ inductionHypothesis

theorem length_outcomes : (outcomes primitives ids calls).length = calls.length := by
  induction calls generalizing ids with
  | nil => rfl
  | cons call later inductionHypothesis => exact congrArg Nat.succ inductionHypothesis

theorem outcomes_of_not_minted {before later : List Call}
    (none : minted (call, (call.run primitives (afterCalls primitives ids before)).1) = none) :
    (outcomes primitives ids (before ++ call :: later)).drop (before.length + 1) =
      (outcomes primitives ids (before ++ later)).drop before.length := by
  have front := @length_outcomes primitives ids before
  rw [outcomes_append, outcomes_append, outcomes, run_of_not_minted none, ← front,
    List.drop_left]
  exact List.drop_length_add_append 1

end Calls

/-! ### What is hashed -/

section Messages

variable {tag otherTag : String} {parts otherParts : List (List UInt8)} {bytes : List UInt8}

theorem length_le_of_valid (valid : validateTag bytes = .ok ()) : bytes.length ≤ maxTagLen := by
  unfold validateTag at valid
  split_ifs at valid with empty long printable
  exact not_lt.mp long

theorem lengthPrefixed_eq_ok {part word : List UInt8} :
    lengthPrefixed part = .ok word ↔ part.length < 2 ^ 32 ∧ measured 4 part = word := by
  unfold lengthPrefixed measured
  split_ifs with inside
  · exact ⟨fun same => ⟨inside, Except.ok.inj same⟩, fun both => congrArg _ both.2⟩
  · exact iff_of_false (fun same => nomatch same) fun both => inside both.1

theorem taggedParts_eq_ok {written : List UInt8}
    (wrote : taggedParts tag parts = .ok written) :
    (utf8 tag).length ≤ maxTagLen ∧ (∀ part ∈ parts, part.length < 2 ^ 32) ∧
      written = UInt8.ofNat (utf8 tag).length :: utf8 tag ++ (parts.map (measured 4)).flatten := by
  unfold taggedParts at wrote
  obtain ⟨valid, checked, wrote⟩ := bind_eq_ok.mp wrote
  obtain ⟨words, lengths, wrote⟩ := bind_eq_ok.mp wrote
  obtain ⟨short, rfl⟩ := (mapM_eq_ok_iff fun part word => lengthPrefixed_eq_ok).mp lengths
  exact ⟨length_le_of_valid checked, short, (Except.ok.inj wrote).symm⟩

theorem taggedParts_injective {written : List UInt8} (first : taggedParts tag parts = .ok written)
    (second : taggedParts otherTag otherParts = .ok written) :
    tag = otherTag ∧ parts = otherParts := by
  obtain ⟨short, partsShort, rfl⟩ := taggedParts_eq_ok first
  obtain ⟨otherShort, otherPartsShort, same⟩ := taggedParts_eq_ok second
  obtain ⟨lengthByte, same⟩ := List.cons.inj same
  have lengths : (utf8 tag).length = (utf8 otherTag).length := by
    have read := congrArg UInt8.toNat lengthByte
    unfold maxTagLen at short otherShort
    rw [UInt8.toNat_ofNat', UInt8.toNat_ofNat', Nat.mod_eq_of_lt (by omega),
      Nat.mod_eq_of_lt (by omega)] at read
    exact read
  obtain ⟨tags, words⟩ := List.append_inj same lengths
  refine ⟨Parser.utf8_injective tags, ?_⟩
  have codeWords (row : List (List UInt8)) (rowShort : ∀ part ∈ row, part.length < 2 ^ 32) :
      ∀ word ∈ row.map (measured 4), word ∈
        {word | ∃ bytes : List UInt8, bytes.length < 256 ^ 4 ∧ word = measured 4 bytes} := by
    intro word member
    obtain ⟨part, listed, rfl⟩ := List.mem_map.mp member
    exact ⟨part, rowShort part listed, rfl⟩
  have some : [] ∉ {word | ∃ bytes : List UInt8, bytes.length < 256 ^ 4 ∧ word = measured 4 bytes} := by
    rintro ⟨part, -, none⟩
    have length := congrArg List.length none
    unfold measured at length
    rw [List.length_append, bigEndian_length, List.length_nil] at length
    omega
  have rows := (code_measured 4).flatten_injective some (codeWords parts partsShort)
    (codeWords otherParts otherPartsShort) words
  have count : parts.length = otherParts.length := by
    have same := congrArg List.length rows
    rwa [List.length_map, List.length_map] at same
  refine (@measuredAll_split 4 parts otherParts partsShort otherPartsShort count [] [] ?_).1
  rw [List.flatMap_def, List.flatMap_def, rows]

theorem keyedMessage_injective {commandId otherId : Uuid} {message : List UInt8}
    (first : keyedMessage commandId tag parts = .ok message)
    (second : keyedMessage otherId otherTag otherParts = .ok message) :
    commandId = otherId ∧ tag = otherTag ∧ parts = otherParts := by
  obtain ⟨written, wrote, own⟩ := bind_eq_ok.mp first
  obtain ⟨otherWritten, otherWrote, other⟩ := bind_eq_ok.mp second
  have same := Except.ok.inj (own.trans other.symm)
  rw [List.append_assoc, List.append_assoc] at same
  obtain ⟨ids, rest⟩ := List.append_inj (List.append_cancel_left same)
    (commandId.toList_length.trans otherId.toList_length.symm)
  subst rest
  exact ⟨List.Vector.eq _ _ ids, taggedParts_injective wrote otherWrote⟩

theorem contentMessage_injective {message : List UInt8}
    (first : contentMessage tag parts = .ok message)
    (second : contentMessage otherTag otherParts = .ok message) :
    tag = otherTag ∧ parts = otherParts := by
  obtain ⟨written, wrote, own⟩ := bind_eq_ok.mp first
  obtain ⟨otherWritten, otherWrote, other⟩ := bind_eq_ok.mp second
  obtain rfl := List.append_cancel_left (Except.ok.inj (own.trans other.symm))
  exact taggedParts_injective wrote otherWrote

end Messages

/-! ### The ids of a command -/

/-- An id of a natural key or of a singleton row, under any key. -/
def NaturalId (primitives : IdPrimitives) (id : Uuid) : Prop :=
  (∃ (key : DerivedIdKey) (commandId : Uuid) (tag : String) (naturalKey : List (List UInt8)),
    key.keyedId primitives commandId tag naturalKey = .ok id) ∨
  (∃ (key : DerivedIdKey) (tag : String) (naturalKey : List (List UInt8)),
    key.contentId primitives tag naturalKey = .ok id) ∨
  ∃ (key : DerivedIdKey) (label : String), key.singletonId primitives label = .ok id

theorem version_of_naturalId {primitives : IdPrimitives} {id : Uuid}
    (natural : NaturalId primitives id) : version id = 8 := by
  rcases natural with ⟨key, commandId, tag, naturalKey, made⟩ | ⟨key, tag, naturalKey, made⟩ |
    ⟨key, label, made⟩
  all_goals
    obtain ⟨_, _, shaped⟩ := bind_eq_ok.mp made
    rw [← Except.ok.inj shaped]
    exact version_uuidOfMac _

/-- The ids of a command's calls keep the order in which they are minted, and never collide. -/
structure KeepsMintOrder (primitives : IdPrimitives) (ids : DerivedIds) (calls : List Call) :
    Prop where
  ascend : (mintedIds primitives ids calls).Pairwise
    fun first second => first.toList < second.toList
  atMost : (mintedIds primitives ids calls).length ≤ maxOrdinals
  room : ∀ tag, validateTag (utf8 tag) = .ok () →
    (mintedIds primitives ids calls).length < maxOrdinals →
    ∃ id, ((afterCalls primitives ids calls).next primitives tag).1 = .ok id
  overflow : ∀ tag, validateTag (utf8 tag) = .ok () →
    (mintedIds primitives ids calls).length = maxOrdinals →
    ((afterCalls primitives ids calls).next primitives tag).1 =
      .error (.ordinalOverflow ids.commandId 4096)
  -- A call that minted nothing, left out, changes no later outcome.
  unchanged : ∀ before call later, calls = before ++ call :: later →
    minted (call, (call.run primitives (afterCalls primitives ids before)).1) = none →
    (outcomes primitives ids calls).drop (before.length + 1) =
      (outcomes primitives ids (before ++ later)).drop before.length
  apart : ∀ id ∈ mintedIds primitives ids calls, ¬ NaturalId primitives id

/-- Derived ids keep the order in which a command mints them, and never collide, whatever calls the
command makes; and what is hashed for an id of a natural key tells the command, the tag and the parts
apart. -/
theorem derived_ids_keep_mint_order (primitives : IdPrimitives)
    (packs : PacksVersion7 primitives.fromUnixTimestampMillis) (key : DerivedIdKey)
    (issuedAt : IssuedAt) (supported : issuedAt.isSupported = true) (commandId : Uuid)
    (calls : List Call) :
    KeepsMintOrder primitives (.new key issuedAt commandId) calls ∧
    (∀ firstId firstTag firstParts secondId secondTag secondParts message,
      keyedMessage firstId firstTag firstParts = .ok message →
      keyedMessage secondId secondTag secondParts = .ok message →
      firstId = secondId ∧ firstTag = secondTag ∧ firstParts = secondParts) ∧
    ∀ firstTag firstParts secondTag secondParts message,
      contentMessage firstTag firstParts = .ok message →
      contentMessage secondTag secondParts = .ok message →
      firstTag = secondTag ∧ firstParts = secondParts := by
  obtain ⟨sorted, listed⟩ := @mintedIds_sorted primitives (.new key issuedAt commandId) calls packs
    supported
  obtain ⟨after, atMost⟩ := @afterCalls_eq primitives (.new key issuedAt commandId) calls supported
    (Nat.zero_le _)
  have counted : (afterCalls primitives (.new key issuedAt commandId) calls).nextOrdinal =
      (mintedIds primitives (.new key issuedAt commandId) calls).length := by
    rw [after]
    exact Nat.zero_add _
  have next (tag : String) (valid : validateTag (utf8 tag) = .ok ()) :=
    @next_of_valid primitives (afterCalls primitives (.new key issuedAt commandId) calls)
      (by rw [after]; exact supported) tag valid
  rw [counted] at next
  refine ⟨⟨sorted, (Nat.zero_add _).symm.trans_le atMost, fun tag valid => (next tag valid).1,
    fun tag valid full => ?_, fun before call later split none => ?_, fun id member natural => ?_⟩,
    fun _ _ _ _ _ _ _ first second => keyedMessage_injective first second,
    fun _ _ _ _ _ first second => contentMessage_injective first second⟩
  · rw [(next tag valid).2 full.ge, full, after]
    rfl
  · rw [split]
    exact outcomes_of_not_minted none
  · obtain ⟨ordinal, tag, -, inside, rfl⟩ := listed id member
    have other := version_of_naturalId natural
    rw [version_ordinalId packs inside] at other
    exact absurd other (by decide)

/-- A command that mints two ids, with a refused tag and a keyed id between them. -/
theorem derived_ids_keep_mint_order_of_a_transfer :
    KeepsMintOrder ⟨fun _ _ => List.Vector.replicate 32 0xa5, packVersion7⟩
      (.new ⟨List.Vector.replicate 32 7⟩ ⟨1700000000000000⟩ (List.Vector.replicate 16 9))
      [.next "transaction", .next "", .keyed "reversal" [[1], [2, 3]], .next "posting"] :=
  (derived_ids_keep_mint_order _ packsVersion7_packVersion7 _ _ (by decide) _ _).1

end Dohflow.CoreIds
