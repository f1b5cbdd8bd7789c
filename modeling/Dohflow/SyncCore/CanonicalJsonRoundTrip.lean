/-
This file proves that the parser takes back the canonical text of a tree.

`emit` is the RFC 8785 text of a number-free tree. The parser takes back every text
`emit` gives (`run_value_emit`, by induction on the levels of nesting left and, within
a level, along the items), whatever follows it.
-/

import Dohflow.SyncCore.CanonicalJson

namespace Dohflow.SyncCore

open Fallible

/-! ### The canonical text -/

/-- The digits of a control character's escape. -/
def lowerHexDigit (digit : Nat) : Char :=
  if digit < 10 then Char.ofNat ('0'.toNat + digit) else Char.ofNat ('a'.toNat + (digit - 10))

/-- How a string holds a character. -/
def escapedChar (char : Char) : List Char :=
  match char with
  | '"' => ['\\', '"']
  | '\\' => ['\\', '\\']
  | '\x08' => ['\\', 'b']
  | '\t' => ['\\', 't']
  | '\n' => ['\\', 'n']
  | '\x0c' => ['\\', 'f']
  | '\r' => ['\\', 'r']
  | other =>
    if other.toNat < 0x20 then
      ['\\', 'u', '0', '0', lowerHexDigit (other.toNat / 16), lowerHexDigit (other.toNat % 16)]
    else [other]

/-- A string between its quotes. -/
def quoted (text : String) : List Char := '"' :: (text.toList.flatMap escapedChar ++ ['"'])

namespace Node

mutual

/-- The canonical text of a tree: no whitespace, members in the order they stand. -/
def emit : Node → List Char
  | .null => "null".toList
  | .bool true => "true".toList
  | .bool false => "false".toList
  | .string text => quoted text
  | .array [] => ['[', ']']
  | .array (item :: rest) => '[' :: (emit item ++ emitItems rest)
  | .object [] => ['\x7b', '\x7d']
  | .object ((name, value) :: rest) =>
    '\x7b' :: (quoted name ++ ':' :: (emit value ++ emitMembers rest))

/-- The items after the first, up to the end of the array. -/
def emitItems : List Node → List Char
  | [] => [']']
  | item :: rest => ',' :: (emit item ++ emitItems rest)

/-- The members after the first, up to the end of the object. -/
def emitMembers : List (String × Node) → List Char
  | [] => ['\x7d']
  | (name, value) :: rest => ',' :: (quoted name ++ ':' :: (emit value ++ emitMembers rest))

end

/-- The members stand in the order of their names' bytes. -/
def NamesAscend (members : List (String × Node)) : Prop :=
  members.Pairwise fun first second => utf8 first.1 < utf8 second.1

mutual

/-- Every object of the tree is a map: its names ascend. -/
def Ordered : Node → Prop
  | .null => True
  | .bool _ => True
  | .string _ => True
  | .array items => OrderedItems items
  | .object members => NamesAscend members ∧ OrderedMembers members

def OrderedItems : List Node → Prop
  | [] => True
  | item :: rest => Ordered item ∧ OrderedItems rest

def OrderedMembers : List (String × Node) → Prop
  | [] => True
  | (_, value) :: rest => Ordered value ∧ OrderedMembers rest

end

variable {members : List (String × Node)} {items : List Node}

theorem orderedItems_iff : OrderedItems items ↔ ∀ item ∈ items, item.Ordered := by
  induction items with
  | nil => simp [OrderedItems]
  | cons item rest inductionHypothesis => simp [OrderedItems, inductionHypothesis]

theorem orderedMembers_iff : OrderedMembers members ↔ ∀ member ∈ members, member.2.Ordered := by
  induction members with
  | nil => simp [OrderedMembers]
  | cons member rest inductionHypothesis => simp [OrderedMembers, inductionHypothesis]

theorem validateItems_eq_ok {containers : Nat} :
    validateItems containers items = .ok () ↔
      ∀ item ∈ items, item.validateAt containers = .ok () := by
  induction items with
  | nil => simp [validateItems]
  | cons item rest inductionHypothesis =>
    simp only [validateItems, check_bind_eq_ok, inductionHypothesis, List.forall_mem_cons]

theorem validateMembers_eq_ok {containers : Nat} :
    validateMembers containers members = .ok () ↔
      ∀ member ∈ members, isMemberName member.1 = true ∧
        member.2.validateAt containers = .ok () := by
  induction members with
  | nil => simp [validateMembers]
  | cons member rest inductionHypothesis =>
    simp only [validateMembers, check_bind_eq_ok, ensure_eq_ok, inductionHypothesis,
      List.forall_mem_cons, and_assoc]

end Node

/-- The canonicalizer gives the bytes of the RFC 8785 text of every tree it is handed: a map's tree
that passed the rules, whose names are ASCII. -/
def EmitsRfc8785 (toVec : Canonicalizer) : Prop :=
  ∀ node : Node, node.Ordered → node.validate = .ok () →
    toVec node = .ok (utf8 (String.ofList node.emit))

/-! ### Reading back a string -/

namespace Parser

variable {total : Nat}
variable {char : Char} {members : List (String × Node)} {name : String} {parse : Parser Node}
  {read : List (String × Node)} {fuel : Nat}

theorem run_peek (rest : List Char) : peek.run rest = .ok (rest.head?, rest) := rfl

theorem run_advance (rest : List Char) : advance.run rest = .ok ((), rest.tail) := rfl

theorem run_skipWhitespace (rest : List Char) :
    skipWhitespace.run rest = .ok ((), rest.dropWhile isWhitespace) := rfl

theorem run_skipWhitespace_cons (solid : isWhitespace char = false) (rest : List Char) :
    skipWhitespace.run (char :: rest) = .ok ((), char :: rest) := by
  rw [run_skipWhitespace, List.dropWhile_cons_of_neg (by simp [solid])]

theorem run_expect_cons (char : Char) (reason : String) (rest : List Char) :
    (expect total char reason).run (char :: rest) = .ok ((), rest) := by
  rw [expect, StateT.run_bind, run_peek, ok_bind, List.head?_cons, if_pos rfl, run_advance,
    List.tail_cons]

theorem hexDigit_lowerHexDigit : ∀ digit < 16, hexDigit (lowerHexDigit digit) = some digit := by
  decide

theorem run_hexDigits_cons {digit : Nat} (isDigit : hexDigit char = some digit) (count unit : Nat)
    (rest : List Char) :
    (hexDigits total (count + 1) unit).run (char :: rest) =
      (hexDigits total count (unit * 16 + digit)).run rest := by
  rw [hexDigits, StateT.run_bind, run_peek, ok_bind]
  simp only [List.head?_cons, Option.bind_some, isDigit]
  rfl

theorem run_hex4 {high low : Nat} (highSmall : high < 16) (lowSmall : low < 16)
    (rest : List Char) :
    (hex4 total).run ('0' :: '0' :: lowerHexDigit high :: lowerHexDigit low :: rest) =
      .ok (high * 16 + low, rest) := by
  have zero : hexDigit '0' = some 0 := by decide
  rw [hex4, run_hexDigits_cons zero, run_hexDigits_cons zero,
    run_hexDigits_cons (hexDigit_lowerHexDigit high highSmall),
    run_hexDigits_cons (hexDigit_lowerHexDigit low lowSmall), hexDigits, StateT.run_pure]
  simp only [Nat.zero_mul, Nat.zero_add, Nat.add_zero]
  rfl

theorem run_escape_short {letter char : Char} (isEscape : shortEscape letter = some char)
    (notUnicode : letter ≠ 'u') (rest : List Char) :
    (escape total).run (letter :: rest) = .ok (char, rest) := by
  rw [escape, StateT.run_bind, run_peek, ok_bind]
  simp only [List.head?_cons, if_neg notUnicode, isEscape]
  rfl

theorem run_escape_control (control : char.toNat < 0x20) (notNull : char ≠ '\x00')
    (rest : List Char) :
    (escape total).run ('u' :: '0' :: '0' :: lowerHexDigit (char.toNat / 16) ::
      lowerHexDigit (char.toNat % 16) :: rest) = .ok (char, rest) := by
  have high : char.toNat / 16 < 16 := by omega
  have low : char.toNat % 16 < 16 := Nat.mod_lt _ (by decide)
  have unit : char.toNat / 16 * 16 + char.toNat % 16 = char.toNat := Nat.div_add_mod' _ 16
  have nonzero : char.toNat ≠ 0 := by
    intro zero
    refine notNull ?_
    rw [← Char.ofNat_toNat char, zero]
  have valid : char.toNat.isValidChar := char.valid
  have isChar : charFromU32 char.toNat = some char := by
    rw [charFromU32, if_pos valid, Char.ofNat_toNat]
  rw [escape, StateT.run_bind, run_peek, ok_bind]
  simp only [List.head?_cons, if_true]
  rw [StateT.run_bind, run_advance, ok_bind, List.tail_cons, unicodeEscape, StateT.run_bind,
    run_hex4 high low, ok_bind]
  simp only [unit]
  rw [if_neg (by omega), if_neg (by omega), if_neg nonzero, charOf, isChar]
  rfl

theorem escapedChar_of_not_ordinary {char : Char} (special : isOrdinary char = false)
    (notNull : char ≠ '\x00') :
    ∃ tail, escapedChar char = '\\' :: tail ∧
      ∀ rest, (escape total).run (tail ++ rest) = .ok (char, rest) := by
  have short {letter : Char} (isEscape : shortEscape letter = some char)
      (notUnicode : letter ≠ 'u') (rest : List Char) :
      (escape total).run ([letter] ++ rest) = .ok (char, rest) :=
    run_escape_short isEscape notUnicode rest
  unfold escapedChar
  split
  · exact ⟨_, rfl, short rfl (by decide)⟩
  · exact ⟨_, rfl, short rfl (by decide)⟩
  · exact ⟨_, rfl, short rfl (by decide)⟩
  · exact ⟨_, rfl, short rfl (by decide)⟩
  · exact ⟨_, rfl, short rfl (by decide)⟩
  · exact ⟨_, rfl, short rfl (by decide)⟩
  · exact ⟨_, rfl, short rfl (by decide)⟩
  · next notQuote notBackslash _ _ _ _ _ =>
    have control : char.toNat < 0x20 := by
      by_contra large
      have large : 0x20 ≤ char.toNat := Nat.le_of_not_lt large
      have ordinary : isOrdinary char = true := by
        simp only [isOrdinary, Bool.and_eq_true, decide_eq_true_eq]
        exact ⟨⟨notQuote, notBackslash⟩, large⟩
      rw [ordinary] at special
      cases special
    rw [if_pos control]
    exact ⟨_, rfl, run_escape_control control notNull⟩

theorem escapedChar_of_ordinary (ordinary : isOrdinary char = true) :
    escapedChar char = [char] := by
  simp only [isOrdinary, Bool.and_eq_true, decide_eq_true_eq] at ordinary
  obtain ⟨⟨notQuote, notBackslash⟩, large⟩ := ordinary
  unfold escapedChar
  split
  · exact absurd rfl notQuote
  · exact absurd rfl notBackslash
  · exact absurd large (by decide)
  · exact absurd large (by decide)
  · exact absurd large (by decide)
  · exact absurd large (by decide)
  · exact absurd large (by decide)
  · exact if_neg (Nat.not_lt.mpr large)

theorem run_stringFrom_ordinary (ordinary : isOrdinary char = true) (fuel : Nat)
    (out rest : List Char) :
    (stringFrom total (fuel + 1) out).run (char :: rest) =
      (stringFrom total (fuel + 1) (out ++ [char])).run rest := by
  have run : ordinaryRun.run (char :: rest) =
      .ok (char :: rest.takeWhile isOrdinary, rest.dropWhile isOrdinary) := by
    show Except.ok ((char :: rest).takeWhile isOrdinary, (char :: rest).dropWhile isOrdinary) = _
    rw [List.takeWhile_cons_of_pos ordinary, List.dropWhile_cons_of_pos ordinary]
  have after : ordinaryRun.run rest =
      .ok (rest.takeWhile isOrdinary, rest.dropWhile isOrdinary) := rfl
  rw [stringFrom, stringFrom, StateT.run_bind, StateT.run_bind, run, after, ok_bind, ok_bind]
  simp only [List.append_assoc, List.singleton_append]

theorem run_ordinaryRun_nil (special : isOrdinary char = false) (rest : List Char) :
    ordinaryRun.run (char :: rest) = .ok ([], char :: rest) := by
  show Except.ok ((char :: rest).takeWhile isOrdinary, (char :: rest).dropWhile isOrdinary) = _
  rw [List.takeWhile_cons_of_neg (by simp [special]), List.dropWhile_cons_of_neg (by simp [special])]

theorem run_stringFrom_quote (fuel : Nat) (out rest : List Char) :
    (stringFrom total (fuel + 1) out).run ('"' :: rest) = .ok (String.ofList out, rest) := by
  rw [stringFrom, StateT.run_bind, run_ordinaryRun_nil (by decide), ok_bind]
  simp only [StateT.run_bind, run_peek, ok_bind, List.head?_cons, List.append_nil]
  rfl

theorem run_stringFrom_escaped {text : List Char} (noNull : '\x00' ∉ text)
    (enough : text.length < fuel) (out rest : List Char) :
    (stringFrom total fuel out).run (text.flatMap escapedChar ++ '"' :: rest) =
      .ok (String.ofList (out ++ text), rest) := by
  obtain ⟨fuel, rfl⟩ : ∃ less, fuel = less + 1 := ⟨fuel - 1, by omega⟩
  induction text generalizing fuel out with
  | nil =>
    rw [List.flatMap_nil, List.nil_append, run_stringFrom_quote, List.append_nil]
  | cons char text inductionHypothesis =>
    rw [List.mem_cons, not_or] at noNull
    have short : text.length < fuel := by
      rw [List.length_cons] at enough
      omega
    have grown : out ++ char :: text = out ++ [char] ++ text := List.append_cons _ _ _
    rw [List.flatMap_cons, List.append_assoc, grown]
    cases ordinary : isOrdinary char with
    | true =>
      rw [escapedChar_of_ordinary ordinary, List.singleton_append,
        run_stringFrom_ordinary ordinary]
      exact inductionHypothesis noNull.2 _ fuel (by omega)
    | false =>
      obtain ⟨tail, spelled, read⟩ :=
        @escapedChar_of_not_ordinary total char ordinary (Ne.symm noNull.1)
      obtain ⟨fuel, rfl⟩ : ∃ less, fuel = less + 1 := ⟨fuel - 1, by omega⟩
      rw [spelled, List.cons_append, stringFrom, StateT.run_bind,
        run_ordinaryRun_nil (by decide), ok_bind]
      simp only [StateT.run_bind, run_peek, ok_bind, List.head?_cons, run_advance,
        List.tail_cons, read, List.append_nil]
      exact inductionHypothesis noNull.2 _ fuel short

theorem escapedChar_ne_nil (char : Char) : escapedChar char ≠ [] := by
  unfold escapedChar
  split
  any_goals exact List.cons_ne_nil _ _
  split
  · exact List.cons_ne_nil _ _
  · exact List.cons_ne_nil _ _

theorem length_le_flatMap_escapedChar (text : List Char) :
    text.length ≤ (text.flatMap escapedChar).length := by
  induction text with
  | nil => exact Nat.le_refl 0
  | cons char text inductionHypothesis =>
    have positive := List.length_pos_iff.mpr (escapedChar_ne_nil char)
    rw [List.length_cons, List.flatMap_cons, List.length_append]
    omega

theorem run_string_quoted {text : String} (noNull : '\x00' ∉ text.toList) (rest : List Char) :
    (string total).run (quoted text ++ rest) = .ok (text, rest) := by
  have enough := length_le_flatMap_escapedChar text.toList
  have content : (quoted text ++ rest).tail = text.toList.flatMap escapedChar ++ '"' :: rest := by
    rw [quoted, List.cons_append, List.tail_cons, List.append_assoc, List.singleton_append]
  rw [string, StateT.run_bind, run_advance, ok_bind, content, StateT.run_bind, StateT.run_get]
  show (stringFrom total _ []).run _ = _
  rw [run_stringFrom_escaped noNull ?_, List.nil_append, String.ofList_toList]
  rw [List.length_append, List.length_cons]
  omega

/-! ### Reading back a tree -/

theorem run_stepOver (word : String) (rest : List Char) :
    (stepOver word).run (word.toList ++ rest) = .ok (true, rest) := by
  have steps : (if word.toList <+: word.toList ++ rest then
      Except.ok (true, (word.toList ++ rest).drop word.toList.length)
      else Except.ok (false, word.toList ++ rest)) =
        (Except.ok (true, rest) : Except CanonicalJsonError _) := by
    rw [if_pos (List.prefix_append _ _), List.drop_left' rfl]
  exact steps

theorem run_literal (word : String) (node : Node) (rest : List Char) :
    (literal total word node).run (word.toList ++ rest) = .ok (node, rest) := by
  rw [literal, StateT.run_bind, run_stepOver, ok_bind]
  rfl

theorem emit_head (node : Node) : ∃ first tail, node.emit = first :: tail ∧
    isWhitespace first = false ∧ first ≠ ']' := by
  cases node with
  | null => exact ⟨_, _, rfl, rfl, by decide⟩
  | bool value => cases value <;> exact ⟨_, _, rfl, rfl, by decide⟩
  | string text => exact ⟨_, _, rfl, rfl, by decide⟩
  | array items => cases items <;> exact ⟨_, _, rfl, rfl, by decide⟩
  | object members => cases members <;> exact ⟨_, _, rfl, rfl, by decide⟩

theorem run_skipWhitespace_emit (node : Node) (rest : List Char) :
    skipWhitespace.run (node.emit ++ rest) = .ok ((), node.emit ++ rest) := by
  obtain ⟨first, tail, spelled, solid, -⟩ := emit_head node
  rw [spelled, List.cons_append, run_skipWhitespace_cons solid]

theorem run_skipWhitespace_quoted (text : String) (rest : List Char) :
    skipWhitespace.run (quoted text ++ rest) = .ok ((), quoted text ++ rest) := by
  rw [quoted, List.cons_append, run_skipWhitespace_cons rfl]

theorem length_lt_emitItems (items : List Node) : items.length < (Node.emitItems items).length := by
  induction items with
  | nil => exact Nat.one_pos
  | cons item rest inductionHypothesis =>
    rw [Node.emitItems, List.length_cons, List.length_cons, List.length_append]
    omega

theorem length_lt_emitMembers (members : List (String × Node)) :
    members.length < (Node.emitMembers members).length := by
  induction members with
  | nil => exact Nat.one_pos
  | cons member rest inductionHypothesis =>
    rw [Node.emitMembers, List.length_cons, List.length_cons, List.length_append,
      List.length_cons, List.length_append]
    omega

/-- The parser takes back the text of this tree, whatever follows it. -/
def TakesBack (parse : Parser Node) (node : Node) : Prop :=
  ∀ rest, parse.run (node.emit ++ rest) = .ok (node, rest)

theorem run_arrayFrom_emit {first : Node} {items : List Node}
    (takesBack : ∀ item ∈ first :: items, TakesBack parse item) (enough : items.length < fuel)
    (read : List Node) (rest : List Char) :
    (arrayFrom total parse fuel read).run (first.emit ++ (Node.emitItems items ++ rest)) =
      .ok (.array (read ++ first :: items), rest) := by
  induction items generalizing first fuel read with
  | nil =>
    obtain ⟨fuel, rfl⟩ : ∃ less, fuel = less + 1 := ⟨fuel - 1, by omega⟩
    rw [arrayFrom, StateT.run_bind, run_skipWhitespace_emit, ok_bind, StateT.run_bind,
      takesBack first List.mem_cons_self, ok_bind, Node.emitItems, List.singleton_append,
      StateT.run_bind, run_skipWhitespace_cons rfl, ok_bind]
    rfl
  | cons next items inductionHypothesis =>
    obtain ⟨fuel, rfl⟩ : ∃ less, fuel = less + 1 := ⟨fuel - 1, by omega⟩
    have short : items.length < fuel := by
      rw [List.length_cons] at enough
      omega
    have later : ∀ item ∈ next :: items, TakesBack parse item := fun item member =>
      takesBack item (List.mem_cons_of_mem _ member)
    have grown : read ++ first :: next :: items = read ++ [first] ++ next :: items :=
      List.append_cons _ _ _
    rw [arrayFrom, StateT.run_bind, run_skipWhitespace_emit, ok_bind, StateT.run_bind,
      takesBack first List.mem_cons_self, ok_bind, Node.emitItems, List.cons_append,
      StateT.run_bind, run_skipWhitespace_cons rfl, ok_bind, grown, List.append_assoc]
    exact inductionHypothesis later short _

theorem insertSorted_above {value : Node} (above : ∀ held ∈ members, utf8 held.1 < utf8 name) :
    Node.insertSorted name value members = members ++ [(name, value)] := by
  induction members with
  | nil => rfl
  | cons held rest inductionHypothesis =>
    obtain ⟨below, others⟩ := List.forall_mem_cons.mp above
    rw [Node.insertSorted, if_neg (List.lt_asymm below), inductionHypothesis others]
    rfl

theorem insertMember_above {value : Node} (legal : isMemberName name = true)
    (above : ∀ held ∈ members, utf8 held.1 < utf8 name) :
    Node.insertMember members name value = .ok (members ++ [(name, value)]) := by
  have fresh : ∀ held ∈ members, held.1 ≠ name := by
    intro held member same
    have below := above held member
    rw [same] at below
    exact List.lt_irrefl _ below
  refine ensure_bind_eq_ok.mpr ⟨legal, ensure_bind_eq_ok.mpr ⟨fresh, ?_⟩⟩
  rw [insertSorted_above above]
  rfl

theorem utf8_ofList (chars : List Char) :
    utf8 (String.ofList chars) = chars.flatMap String.utf8EncodeChar :=
  List.toList_data_toByteArray

theorem not_null_of_isMemberName (legal : isMemberName name = true) : '\x00' ∉ name.toList := by
  intro held
  have spelled : utf8 name = name.toList.flatMap String.utf8EncodeChar := by
    rw [← utf8_ofList, String.ofList_toList]
  have byte : (0 : UInt8) ∈ utf8 name := by
    rw [spelled]
    exact List.mem_flatMap.mpr ⟨_, held, by decide⟩
  rw [isMemberName, Bool.and_eq_true, List.all_eq_true] at legal
  exact absurd (legal.2 0 byte) (by decide)

theorem run_member_emit {value : Node} (takesBack : TakesBack parse value)
    (legal : isMemberName name = true) (above : ∀ held ∈ read, utf8 held.1 < utf8 name)
    (rest : List Char) :
    (member total parse read).run (quoted name ++ ':' :: (value.emit ++ rest)) =
      .ok (read ++ [(name, value)], rest) := by
  have named := @run_string_quoted total name (not_null_of_isMemberName legal)
    (':' :: (value.emit ++ rest))
  rw [member, StateT.run_bind, run_peek, ok_bind, quoted, List.cons_append, List.head?_cons,
    if_pos rfl, ← List.cons_append, ← quoted, StateT.run_bind, named, ok_bind, StateT.run_bind,
    run_skipWhitespace_cons rfl, ok_bind, StateT.run_bind, run_expect_cons, ok_bind,
    StateT.run_bind, run_skipWhitespace_emit, ok_bind, StateT.run_bind,
    takesBack, ok_bind, insertMember_above legal above]
  rfl

theorem run_objectFrom_emit {value : Node}
    (takesBack : ∀ held ∈ (name, value) :: members, TakesBack parse held.2)
    (legal : ∀ held ∈ (name, value) :: members, isMemberName held.1 = true)
    (enough : members.length < fuel) (ascend : Node.NamesAscend (read ++ (name, value) :: members))
    (rest : List Char) :
    (objectFrom total parse fuel read).run
        (quoted name ++ ':' :: (value.emit ++ (Node.emitMembers members ++ rest))) =
      .ok (.object (read ++ (name, value) :: members), rest) := by
  induction members generalizing name value fuel read with
  | nil =>
    obtain ⟨fuel, rfl⟩ : ∃ less, fuel = less + 1 := ⟨fuel - 1, by omega⟩
    have above : ∀ held ∈ read, utf8 held.1 < utf8 name := fun held member =>
      (List.pairwise_append.mp ascend).2.2 held member _ List.mem_cons_self
    rw [objectFrom, StateT.run_bind, run_skipWhitespace_quoted, ok_bind, StateT.run_bind,
      run_member_emit (takesBack _ List.mem_cons_self) (legal _ List.mem_cons_self) above, ok_bind, Node.emitMembers,
      List.singleton_append, StateT.run_bind, run_skipWhitespace_cons rfl, ok_bind]
    rfl
  | cons next members inductionHypothesis =>
    obtain ⟨fuel, rfl⟩ : ∃ less, fuel = less + 1 := ⟨fuel - 1, by omega⟩
    have short : members.length < fuel := by
      rw [List.length_cons] at enough
      omega
    have above : ∀ held ∈ read, utf8 held.1 < utf8 name := fun held member =>
      (List.pairwise_append.mp ascend).2.2 held member _ List.mem_cons_self
    have later : ∀ held ∈ (next.1, next.2) :: members, TakesBack parse held.2 :=
      fun held member => takesBack held (List.mem_cons_of_mem _ member)
    have legalLater : ∀ held ∈ (next.1, next.2) :: members, isMemberName held.1 = true :=
      fun held member => legal held (List.mem_cons_of_mem _ member)
    have grown : read ++ (name, value) :: next :: members =
        read ++ [(name, value)] ++ (next.1, next.2) :: members := List.append_cons _ _ _
    rw [grown] at ascend
    rw [objectFrom, StateT.run_bind, run_skipWhitespace_quoted, ok_bind, StateT.run_bind,
      run_member_emit (takesBack _ List.mem_cons_self) (legal _ List.mem_cons_self) above, ok_bind, Node.emitMembers,
      List.cons_append, StateT.run_bind, run_skipWhitespace_cons rfl, ok_bind, grown,
      List.append_assoc, List.cons_append, List.append_assoc]
    exact inductionHypothesis later legalLater short ascend

theorem run_array_emit {parse : Parser Node} {items : List Node}
    (takesBack : ∀ item ∈ items, TakesBack parse item) (rest : List Char) :
    (array total parse).run ((Node.array items).emit ++ rest) = .ok (.array items, rest) := by
  cases items with
  | nil => rfl
  | cons first items =>
    obtain ⟨char, tail, spelled, solid, notClosing⟩ := emit_head first
    have enough := length_lt_emitItems items
    have text : (Node.array (first :: items)).emit ++ rest =
        '[' :: (first.emit ++ (Node.emitItems items ++ rest)) := by
      rw [Node.emit, List.cons_append, List.append_assoc]
    have open_ : ∀ after, (peek.run (first.emit ++ after) : Except CanonicalJsonError _) =
        .ok (some char, first.emit ++ after) := by
      intro after
      rw [spelled]
      rfl
    rw [text, array, StateT.run_bind, run_advance, ok_bind, List.tail_cons, StateT.run_bind,
      run_skipWhitespace_emit, ok_bind, StateT.run_bind, open_, ok_bind,
      if_neg (by simpa using notClosing), StateT.run_bind, StateT.run_get]
    show (arrayFrom total parse _ []).run _ = _
    rw [run_arrayFrom_emit takesBack]
    · rfl
    · rw [List.length_append, List.length_append]
      omega

theorem run_object_emit {parse : Parser Node} {members : List (String × Node)}
    (takesBack : ∀ held ∈ members, TakesBack parse held.2)
    (legal : ∀ held ∈ members, isMemberName held.1 = true)
    (ascend : Node.NamesAscend members) (rest : List Char) :
    (object total parse).run ((Node.object members).emit ++ rest) =
      .ok (.object members, rest) := by
  cases members with
  | nil => rfl
  | cons member members =>
    obtain ⟨name, value⟩ := member
    have enough := length_lt_emitMembers members
    have text : (Node.object ((name, value) :: members)).emit ++ rest =
        '\x7b' :: (quoted name ++ ':' :: (value.emit ++ (Node.emitMembers members ++ rest))) := by
      rw [Node.emit, List.cons_append, List.append_assoc, List.cons_append, List.append_assoc]
    have open_ : ∀ after, (peek.run (quoted name ++ after) : Except CanonicalJsonError _) =
        .ok (some '"', quoted name ++ after) := fun _ => rfl
    rw [text, object, StateT.run_bind, run_advance, ok_bind, List.tail_cons, StateT.run_bind,
      run_skipWhitespace_quoted, ok_bind, StateT.run_bind, open_, ok_bind,
      if_neg (by simp), StateT.run_bind, StateT.run_get]
    show (objectFrom total parse _ []).run _ = _
    rw [run_objectFrom_emit takesBack legal ?_ ascend]
    · rfl
    · rw [List.length_append, List.length_cons, List.length_append, List.length_append]
      omega

/-- A value's parser takes back a tree, if the parser one level down takes back its children. -/
theorem run_valueWith_emit {nested : Option (Parser Node)} {node : Node} {containers : Nat}
    (ordered : node.Ordered) (valid : node.validateAt containers = .ok ())
    (opens : containers < maxDepth → ∃ parse, nested = some parse ∧ ∀ child : Node,
      child.Ordered → child.validateAt (containers + 1) = .ok () → TakesBack parse child)
    (rest : List Char) :
    (valueWith total nested).run (node.emit ++ rest) = .ok (node, rest) := by
  cases node with
  | null => exact @run_literal total "null" .null rest
  | bool value =>
    cases value with
    | false => exact @run_literal total "false" (.bool false) rest
    | true => exact @run_literal total "true" (.bool true) rest
  | string text =>
    have noNull : '\x00' ∉ text.toList := by
      rw [Node.validateAt, ensure_eq_ok] at valid
      exact valid
    have read := @run_string_quoted total text noNull rest
    rw [Node.emit]
    show ((string total).run (quoted text ++ rest) >>= _) = _
    rw [read]
    rfl
  | array items =>
    rw [Node.validateAt, ensure_bind_eq_ok, Node.validateItems_eq_ok] at valid
    obtain ⟨shallow, valid⟩ := valid
    obtain ⟨parse, rfl, takesBack⟩ := opens shallow
    rw [Node.Ordered, Node.orderedItems_iff] at ordered
    have takenBack : ∀ item ∈ items, TakesBack parse item := fun item member =>
      takesBack item (ordered item member) (valid item member)
    have read := @run_array_emit total parse items takenBack rest
    cases items <;> exact read
  | object members =>
    rw [Node.validateAt, ensure_bind_eq_ok, Node.validateMembers_eq_ok] at valid
    obtain ⟨shallow, valid⟩ := valid
    obtain ⟨parse, rfl, takesBack⟩ := opens shallow
    rw [Node.Ordered, Node.orderedMembers_iff] at ordered
    obtain ⟨ascend, ordered⟩ := ordered
    have legal : ∀ held ∈ members, isMemberName held.1 = true := fun held member =>
      (valid held member).1
    have takenBack : ∀ held ∈ members, TakesBack parse held.2 := fun held member =>
      takesBack held.2 (ordered held member) (valid held member).2
    have read := @run_object_emit total parse members takenBack legal ascend rest
    cases members <;> exact read

theorem run_value_emit {containers levels : Nat} (limit : containers + levels = maxDepth)
    {node : Node} (ordered : node.Ordered) (valid : node.validateAt containers = .ok ()) :
    TakesBack (value total levels) node := by
  intro rest
  induction levels generalizing containers node rest with
  | zero =>
    refine run_valueWith_emit ordered valid (fun shallow => ?_) rest
    omega
  | succ levels inductionHypothesis =>
    have deeper : containers + 1 + levels = maxDepth := by
      rw [← limit]
      ring
    exact run_valueWith_emit ordered valid (fun _ => ⟨_, rfl, fun _ childOrdered childValid =>
      inductionHypothesis deeper childOrdered childValid⟩) rest

end Parser

end Dohflow.SyncCore
