/-
This file proves that canonical JSON is a bijection between trees and documents.

Every tree the parser returns obeys the rules for a tree about to be encoded
(`yields_document`): a container is met only with a level left, a string holds no
U+0000, and a member goes into the map under a legal name that is not there yet. With
the round trip of the canonical text, the entry points follow.
-/

import Dohflow.SyncCore.CanonicalJsonRoundTrip

namespace Dohflow.SyncCore

open Fallible

namespace Parser

variable {total : Nat}
variable {containers : Nat} {members : List (String × Node)} {name : String}

/-! ### The trees the parser returns -/

theorem yields_malformed {Value : Type} (reason : String) {holds : Value → Prop} :
    Yields (malformed total reason : Parser Value) holds :=
  yields_refusal fun _ => ⟨_, rfl⟩

theorem yields_charOf {code : Nat} (positive : code ≠ 0) (reason : String) :
    Yields (charOf total code reason) fun char => char ≠ '\x00' := by
  rw [charOf, charFromU32]
  by_cases valid : code.isValidChar
  · rw [if_pos valid]
    refine yields_pure ?_
    intro null
    rw [Char.ofNat, dif_pos valid] at null
    exact positive (congrArg Char.toNat null)
  · rw [if_neg valid]
    exact yields_malformed reason

theorem yields_unicodeEscape : Yields (unicodeEscape total) fun char => char ≠ '\x00' := by
  refine yields_bind fun unit => ?_
  split
  · refine yields_bind fun escaped => ?_
    split
    · refine yields_bind fun low => ?_
      split
      · exact yields_charOf (by omega) _
      · exact yields_malformed _
    · exact yields_malformed _
  · split
    · exact yields_malformed _
    · split
      · exact yields_malformed _
      · exact yields_charOf (by assumption) _

theorem shortEscape_ne_null {letter char : Char} (isEscape : shortEscape letter = some char) :
    char ≠ '\x00' := by
  unfold shortEscape at isEscape
  split at isEscape
  all_goals cases isEscape
  all_goals decide

theorem yields_escape : Yields (escape total) fun char => char ≠ '\x00' := by
  refine yields_bind fun next => ?_
  split
  · exact yields_malformed _
  · next letter =>
    split
    · exact yields_bind fun _ => yields_unicodeEscape
    · split
      · next char isEscape =>
        exact yields_bind fun _ => yields_pure (shortEscape_ne_null isEscape)
      · exact yields_refusal fun _ => ⟨_, rfl⟩

theorem yields_ordinaryRun : Yields ordinaryRun fun run => '\x00' ∉ run := by
  intro rest run after returned
  obtain ⟨rfl, _⟩ := Prod.mk.inj (Except.ok.inj returned)
  intro held
  exact absurd (List.all_eq_true.mp List.all_takeWhile _ held) (by decide)

theorem yields_stringFrom (fuel : Nat) {out : List Char} (noNull : '\x00' ∉ out) :
    Yields (stringFrom total fuel out) fun text => '\x00' ∉ text.toList := by
  induction fuel generalizing out with
  | zero => exact yields_malformed _
  | succ fuel inductionHypothesis =>
    refine yields_ordinaryRun.bind fun run ordinary => yields_bind fun next => ?_
    have grown : '\x00' ∉ out ++ run := by
      rw [List.mem_append, not_or]
      exact ⟨noNull, ordinary⟩
    split
    · refine yields_bind fun _ => yields_pure ?_
      rw [String.toList_ofList]
      exact grown
    · refine yields_bind fun _ => yields_escape.bind fun char notNull => inductionHypothesis ?_
      rw [List.mem_append, not_or, List.mem_singleton]
      exact ⟨grown, Ne.symm notNull⟩
    · exact yields_malformed _
    · exact yields_malformed _

theorem yields_string : Yields (string total) fun text => '\x00' ∉ text.toList :=
  yields_bind fun _ => yields_bind fun _ => yields_stringFrom _ List.not_mem_nil

/-- A map's tree that passes the rules inside so many containers. -/
def Legal (containers : Nat) (node : Node) : Prop :=
  node.Ordered ∧ node.validateAt containers = .ok ()

theorem legal_string {text : String} (noNull : '\x00' ∉ text.toList) :
    Legal containers (.string text) :=
  ⟨trivial, ensure_of noNull _⟩

theorem legal_array (shallow : containers < maxDepth) {items : List Node}
    (legal : ∀ item ∈ items, Legal (containers + 1) item) : Legal containers (.array items) := by
  refine ⟨Node.orderedItems_iff.mpr fun item member => (legal item member).1, ?_⟩
  rw [Node.validateAt, ensure_bind_eq_ok, Node.validateItems_eq_ok]
  exact ⟨shallow, fun item member => (legal item member).2⟩

/-- The members of an object inside so many containers. -/
structure LegalMembers (containers : Nat) (members : List (String × Node)) : Prop where
  ascend : Node.NamesAscend members
  names : ∀ held ∈ members, isMemberName held.1 = true
  values : ∀ held ∈ members, Legal containers held.2

theorem legalMembers_nil : LegalMembers containers [] where
  ascend := List.Pairwise.nil
  names _ member := absurd member List.not_mem_nil
  values _ member := absurd member List.not_mem_nil

theorem legal_object (shallow : containers < maxDepth)
    (legal : LegalMembers (containers + 1) members) : Legal containers (.object members) := by
  refine ⟨⟨legal.ascend, Node.orderedMembers_iff.mpr fun held member =>
    (legal.values held member).1⟩, ?_⟩
  rw [Node.validateAt, ensure_bind_eq_ok, Node.validateMembers_eq_ok]
  exact ⟨shallow, fun held member => ⟨legal.names held member, (legal.values held member).2⟩⟩

theorem mem_insertSorted {value : Node} {held : String × Node}
    (member : held ∈ Node.insertSorted name value members) :
    held = (name, value) ∨ held ∈ members := by
  induction members with
  | nil => exact Or.inl (List.mem_singleton.mp member)
  | cons first rest inductionHypothesis =>
    unfold Node.insertSorted at member
    split at member
    · exact List.mem_cons.mp member
    · obtain same | later := List.mem_cons.mp member
      · exact Or.inr (List.mem_cons.mpr (Or.inl same))
      · obtain same | later := inductionHypothesis later
        · exact Or.inl same
        · exact Or.inr (List.mem_cons_of_mem _ later)

theorem utf8_injective {first second : String} (same : utf8 first = utf8 second) :
    first = second := by
  have bytes : first.toByteArray = second.toByteArray :=
    ByteArray.ext (Array.toList_inj.mp same)
  exact String.toByteArray_inj.mp bytes

theorem namesAscend_insertSorted {value : Node} (ascend : Node.NamesAscend members)
    (fresh : ∀ held ∈ members, held.1 ≠ name) :
    Node.NamesAscend (Node.insertSorted name value members) := by
  induction members with
  | nil => exact List.pairwise_singleton _ _
  | cons first rest inductionHypothesis =>
    obtain ⟨others, later⟩ := List.forall_mem_cons.mp fresh
    obtain ⟨least, ascendRest⟩ := List.pairwise_cons.mp ascend
    unfold Node.insertSorted
    split
    · next below =>
      refine List.pairwise_cons.mpr ⟨?_, ascend⟩
      refine List.forall_mem_cons.mpr ⟨below, fun held member => ?_⟩
      exact List.lt_trans below (least held member)
    · next notBelow =>
      have above : utf8 first.1 < utf8 name := by
        rcases List.le_iff_lt_or_eq.mp (List.not_lt.mp notBelow) with above | same
        · exact above
        · exact absurd (utf8_injective same) others
      refine List.pairwise_cons.mpr ⟨fun held member => ?_, inductionHypothesis ascendRest later⟩
      obtain rfl | member := mem_insertSorted member
      · exact above
      · exact least held member

theorem legalMembers_insert {node : Node} {members grown : List (String × Node)}
    (legal : LegalMembers containers members) (legalNode : Legal containers node)
    (inserted : Node.insertMember members name node = .ok grown) :
    LegalMembers containers grown := by
  obtain ⟨legalName, inserted⟩ := ensure_bind_eq_ok.mp inserted
  obtain ⟨fresh, inserted⟩ := ensure_bind_eq_ok.mp inserted
  obtain rfl := Except.ok.inj inserted
  refine ⟨namesAscend_insertSorted legal.ascend fresh, fun held member => ?_,
    fun held member => ?_⟩
  · obtain rfl | member := mem_insertSorted member
    · exact legalName
    · exact legal.names held member
  · obtain rfl | member := mem_insertSorted member
    · exact legalNode
    · exact legal.values held member

variable {containers : Nat} {parse : Parser Node}

theorem yields_arrayFrom (shallow : containers < maxDepth)
    (each : Yields parse (Legal (containers + 1))) (fuel : Nat) {items : List Node}
    (legal : ∀ item ∈ items, Legal (containers + 1) item) :
    Yields (arrayFrom total parse fuel items) (Legal containers) := by
  induction fuel generalizing items with
  | zero => exact yields_malformed _
  | succ fuel inductionHypothesis =>
    refine yields_bind fun _ => each.bind fun item legalItem => yields_bind fun _ =>
      yields_bind fun next => ?_
    have grown : ∀ other ∈ items ++ [item], Legal (containers + 1) other :=
      List.forall_mem_append.mpr ⟨legal, List.forall_mem_singleton.mpr legalItem⟩
    split
    · exact yields_bind fun _ => inductionHypothesis grown
    · exact yields_bind fun _ => yields_pure (legal_array shallow grown)
    · exact yields_malformed _

theorem yields_array (shallow : containers < maxDepth)
    (each : Yields parse (Legal (containers + 1))) :
    Yields (array total parse) (Legal containers) := by
  have none : ∀ item ∈ ([] : List Node), Legal (containers + 1) item :=
    fun _ member => absurd member List.not_mem_nil
  refine yields_bind fun _ => yields_bind fun _ => yields_bind fun next => ?_
  split
  · exact yields_bind fun _ => yields_pure (legal_array shallow none)
  · exact yields_bind fun _ => yields_arrayFrom shallow each _ none

theorem yields_member (each : Yields parse (Legal containers))
    (legal : LegalMembers containers members) :
    Yields (member total parse members) (LegalMembers containers) := by
  refine yields_bind fun next => ?_
  split
  · refine yields_bind fun name => yields_bind fun _ => yields_bind fun _ => yields_bind fun _ =>
      each.bind fun node legalNode => yields_liftM fun grown inserted => ?_
    exact legalMembers_insert legal legalNode inserted
  · exact yields_malformed _

theorem yields_objectFrom (shallow : containers < maxDepth)
    (each : Yields parse (Legal (containers + 1))) (fuel : Nat)
    (legal : LegalMembers (containers + 1) members) :
    Yields (objectFrom total parse fuel members) (Legal containers) := by
  induction fuel generalizing members with
  | zero => exact yields_malformed _
  | succ fuel inductionHypothesis =>
    refine yields_bind fun _ => (yields_member each legal).bind fun grown legalGrown =>
      yields_bind fun _ => yields_bind fun next => ?_
    split
    · exact yields_bind fun _ => inductionHypothesis legalGrown
    · exact yields_bind fun _ => yields_pure (legal_object shallow legalGrown)
    · exact yields_malformed _

theorem yields_object (shallow : containers < maxDepth)
    (each : Yields parse (Legal (containers + 1))) :
    Yields (object total parse) (Legal containers) := by
  refine yields_bind fun _ => yields_bind fun _ => yields_bind fun next => ?_
  split
  · exact yields_bind fun _ => yields_pure (legal_object shallow legalMembers_nil)
  · exact yields_bind fun _ => yields_objectFrom shallow each _ legalMembers_nil

theorem yields_literal (word : String) {node : Node} (legal : Legal containers node) :
    Yields (literal total word node) (Legal containers) := by
  refine yields_bind fun found => ?_
  split
  · exact yields_pure legal
  · exact yields_malformed _

theorem yields_valueWith {nested : Option (Parser Node)}
    (opens : ∀ parse, nested = some parse →
      containers < maxDepth ∧ Yields parse (Legal (containers + 1))) :
    Yields (valueWith total nested) (Legal containers) := by
  refine yields_bind fun next => ?_
  split
  · split
    · next parse =>
      obtain ⟨shallow, each⟩ := opens parse rfl
      exact yields_object shallow each
    · exact yields_refusal fun _ => ⟨_, rfl⟩
  · split
    · next parse =>
      obtain ⟨shallow, each⟩ := opens parse rfl
      exact yields_array shallow each
    · exact yields_refusal fun _ => ⟨_, rfl⟩
  · exact yields_string.bind fun text noNull => yields_pure (legal_string noNull)
  · exact yields_literal _ ⟨trivial, rfl⟩
  · exact yields_literal _ ⟨trivial, rfl⟩
  · exact yields_literal _ ⟨trivial, rfl⟩
  · split
    · exact yields_refusal fun _ => ⟨_, rfl⟩
    · exact yields_malformed _
  · exact yields_malformed _

theorem yields_value {levels : Nat} (limit : containers + levels = maxDepth) :
    Yields (value total levels) (Legal containers) := by
  induction levels generalizing containers with
  | zero => exact yields_valueWith fun _ none => nomatch none
  | succ levels inductionHypothesis =>
    refine yields_valueWith fun parse same => ?_
    obtain rfl := Option.some.inj same
    refine ⟨by omega, inductionHypothesis ?_⟩
    rw [← limit]
    ring

theorem yields_document : Yields (document total) (Legal 0) := by
  refine yields_bind fun _ => (yields_value (Nat.zero_add _)).bind fun node legal =>
    yields_bind fun _ => yields_bind fun _ => ?_
  split
  · exact yields_pure legal
  · exact yields_malformed _

theorem run_document_emit {node : Node} (legal : Legal 0 node) :
    (document total).run node.emit = .ok (node, []) := by
  have skipped := run_skipWhitespace_emit node []
  have read := @run_value_emit total 0 maxDepth (Nat.zero_add _) node legal.1 legal.2 []
  rw [List.append_nil] at skipped read
  rw [document, StateT.run_bind, skipped, ok_bind, StateT.run_bind, read]
  rfl

end Parser

/-! ### The entry points -/

theorem fromUTF8?_utf8 (text : String) :
    String.fromUTF8? ⟨(utf8 text).toArray⟩ = some text := by
  have spelled : (⟨(utf8 text).toArray⟩ : ByteArray) = text.toByteArray := by
    rw [utf8, Array.toArray_toList]
    rfl
  rw [spelled, String.fromUTF8?, dif_pos text.isValidUTF8]
  rfl

theorem parseNodeLenient_emit {node : Node} (legal : Parser.Legal 0 node) :
    parseNodeLenient (utf8 (String.ofList node.emit)) = .ok node := by
  rw [parseNodeLenient, fromUTF8?_utf8]
  show ((Parser.document _).run (String.ofList node.emit).toList).map Prod.fst = _
  rw [String.toList_ofList, Parser.run_document_emit legal]
  rfl

theorem legal_of_parseNodeLenient {bytes : List UInt8} {node : Node}
    (parsed : parseNodeLenient bytes = .ok node) : Parser.Legal 0 node := by
  rw [parseNodeLenient] at parsed
  split at parsed
  · cases parsed
  · next text _ =>
    cases run : (Parser.document text.utf8ByteSize).run text.toList with
    | error failure =>
      rw [run] at parsed
      cases parsed
    | ok returned =>
      rw [run] at parsed
      obtain rfl := Except.ok.inj parsed
      exact Parser.yields_document _ _ _ run

variable {toVec : Canonicalizer}

theorem nodeToCanonicalVec_eq_ok (emits : EmitsRfc8785 toVec) {node : Node}
    (ordered : node.Ordered) {bytes : List UInt8} :
    nodeToCanonicalVec toVec node = .ok bytes ↔
      node.validate = .ok () ∧ utf8 (String.ofList node.emit) = bytes := by
  rw [nodeToCanonicalVec, check_bind_eq_ok]
  refine and_congr_right fun valid => ?_
  rw [emits node ordered valid, mapError_eq_ok, Except.ok.injEq]

theorem parseCanonicalNode_eq_ok {bytes : List UInt8} {node : Node} :
    parseCanonicalNode toVec bytes = .ok node ↔
      parseNodeLenient bytes = .ok node ∧ nodeToCanonicalVec toVec node = .ok bytes := by
  simp only [parseCanonicalNode, bind_eq_ok, ensure_eq_ok]
  constructor
  · rintro ⟨parsed, parse, encoded, encode, _, rfl, returned⟩
    obtain rfl := Except.ok.inj returned
    exact ⟨parse, encode⟩
  · rintro ⟨parse, encode⟩
    exact ⟨node, parse, bytes, encode, (), rfl, rfl⟩

/-- Canonical JSON is a bijection between the trees that may be encoded and the documents that are
accepted, and what the lenient parser returns has a normal form. -/
theorem canonicalJson_bijection (emits : EmitsRfc8785 toVec) :
    (∀ (node : Node) (bytes : List UInt8), node.Ordered →
      nodeToCanonicalVec toVec node = .ok bytes → parseCanonicalNode toVec bytes = .ok node) ∧
    (∀ (bytes : List UInt8) (node : Node), parseCanonicalNode toVec bytes = .ok node →
      node.Ordered ∧ nodeToCanonicalVec toVec node = .ok bytes) ∧
    (∀ (bytes : List UInt8) (node : Node), parseNodeLenient bytes = .ok node →
      node.Ordered ∧ ∃ encoded, nodeToCanonicalVec toVec node = .ok encoded ∧
        parseNodeLenient encoded = .ok node ∧ parseCanonicalNode toVec encoded = .ok node) := by
  have takenBack : ∀ (node : Node) (bytes : List UInt8), node.Ordered →
      nodeToCanonicalVec toVec node = .ok bytes → parseNodeLenient bytes = .ok node := by
    intro node bytes ordered encoded
    obtain ⟨valid, rfl⟩ := (nodeToCanonicalVec_eq_ok emits ordered).mp encoded
    exact parseNodeLenient_emit ⟨ordered, valid⟩
  refine ⟨?_, ?_, ?_⟩
  · intro node bytes ordered encoded
    exact parseCanonicalNode_eq_ok.mpr ⟨takenBack node bytes ordered encoded, encoded⟩
  · intro bytes node accepted
    obtain ⟨parsed, encoded⟩ := parseCanonicalNode_eq_ok.mp accepted
    exact ⟨(legal_of_parseNodeLenient parsed).1, encoded⟩
  · intro bytes node parsed
    obtain ⟨ordered, valid⟩ := legal_of_parseNodeLenient parsed
    have encoded := (nodeToCanonicalVec_eq_ok emits ordered).mpr ⟨valid, rfl⟩
    have again := takenBack node _ ordered encoded
    exact ⟨ordered, _, encoded, again, parseCanonicalNode_eq_ok.mpr ⟨again, encoded⟩⟩

/-- The canonicalizer that gives the RFC 8785 text. -/
def rfc8785 : Canonicalizer := fun node => .ok (utf8 (String.ofList node.emit))

theorem emitsRfc8785_rfc8785 : EmitsRfc8785 rfc8785 := fun _ _ _ => rfl

/-- `{"a":[true,"\u0001"]}`. -/
def sampleNode : Node := .object [("a", .array [.bool true, .string "\x01"])]

theorem canonicalJson_bijection_sample :
    EmitsRfc8785 rfc8785 ∧
      parseCanonicalNode rfc8785 (utf8 (String.ofList sampleNode.emit)) = .ok sampleNode := by
  have ordered : sampleNode.Ordered :=
    ⟨List.pairwise_singleton _ _, ⟨trivial, trivial, trivial⟩, trivial⟩
  have encoded : nodeToCanonicalVec rfc8785 sampleNode =
      .ok (utf8 (String.ofList sampleNode.emit)) := by rfl
  exact ⟨emitsRfc8785_rfc8785,
    (canonicalJson_bijection emitsRfc8785_rfc8785).1 sampleNode _ ordered encoded⟩

end Dohflow.SyncCore
