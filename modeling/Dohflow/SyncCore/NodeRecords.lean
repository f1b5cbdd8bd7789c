/-
This file treats trees that stand for records: objects collected from named members.

Collecting puts members of distinct names in the order of their names, and reading a
name back gives the member's tree. An object of scalars is legal at any depth where
it is legal at one. The text of an array is the texts of its items between commas.
-/

import Dohflow.Foundation.CanonicalOrder
import Dohflow.SyncCore.CanonicalJsonForms

namespace Dohflow.SyncCore.Node

open CanonicalOrder Fallible

variable {members : List (String × Node)} {node : Node} (name : String) (value : Node)
  (rest : List (String × Node)) {first second : Nat} (items : List Node)

/-! ### Collecting and reading members -/

/-- Named members collected into a map. -/
def collect (members : List (String × Node)) : List (String × Node) :=
  members.foldl (fun held member => insertSorted member.1 member.2 held) []

/-- The tree of a record. -/
def ofMembers (members : List (String × Node)) : Node := .object (collect members)

/-- The member of a name. -/
def get (members : List (String × Node)) (name : String) : Option Node :=
  (members.find? fun held => held.1 = name).map Prod.snd

/-- Names in the order of their bytes. -/
def sortedNames (names : List String) : List String := sortBy (fun name => byteKey (utf8 name)) names

theorem sortedNames_eq_iff {names others : List String} :
    sortedNames names = sortedNames others ↔ names.Perm others :=
  sortBy_eq_iff_perm fun _ _ _ _ same => Parser.utf8_injective (byteKey_injective same)

theorem insertSorted_perm (members : List (String × Node)) :
    (insertSorted name value members).Perm ((name, value) :: members) := by
  induction members with
  | nil => exact .refl _
  | cons held rest inductionHypothesis =>
    unfold insertSorted
    split
    · exact .refl _
    · exact (inductionHypothesis.cons held).trans (.swap _ _ _)

theorem foldl_insertSorted_perm (members held : List (String × Node)) :
    (members.foldl (fun held member => insertSorted member.1 member.2 held) held).Perm
      (members ++ held) := by
  induction members generalizing held with
  | nil => exact .refl _
  | cons member rest inductionHypothesis =>
    refine (inductionHypothesis _).trans ?_
    refine ((insertSorted_perm member.1 member.2 held).append_left rest).trans ?_
    exact List.perm_middle

theorem collect_perm (members : List (String × Node)) : (collect members).Perm members := by
  have perm := foldl_insertSorted_perm members []
  rwa [List.append_nil] at perm

theorem namesAscend_foldl {members held : List (String × Node)} (ascend : NamesAscend held)
    (distinct : ((members ++ held).map Prod.fst).Nodup) :
    NamesAscend (members.foldl (fun held member => insertSorted member.1 member.2 held) held) := by
  induction members generalizing held with
  | nil => exact ascend
  | cons member rest inductionHypothesis =>
    rw [List.cons_append, List.map_cons, List.nodup_cons] at distinct
    obtain ⟨fresh, others⟩ := distinct
    refine inductionHypothesis (Parser.namesAscend_insertSorted ascend fun other inside same => ?_) ?_
    · exact fresh (List.mem_map.mpr ⟨other, List.mem_append_right _ inside, same⟩)
    · have perm := ((insertSorted_perm member.1 member.2 held).append_left rest).trans
        List.perm_middle
      refine ((perm.map Prod.fst).nodup_iff).mpr (List.nodup_cons.mpr ⟨fresh, others⟩)

theorem namesAscend_collect (distinct : (members.map Prod.fst).Nodup) :
    NamesAscend (collect members) :=
  namesAscend_foldl .nil (by rwa [List.append_nil])

theorem get_eq_some_iff (distinct : (members.map Prod.fst).Nodup) {name : String} :
    get members name = some node ↔ (name, node) ∈ members := by
  constructor
  · intro found
    obtain ⟨held, search, rfl⟩ := Option.map_eq_some_iff.mp found
    have same := List.find?_some search
    rw [← of_decide_eq_true same]
    exact List.mem_of_find?_eq_some search
  · intro member
    cases search : members.find? fun held => held.1 = name with
    | none =>
      have other := List.find?_eq_none.mp search (name, node) member
      exact absurd (decide_eq_true rfl) other
    | some held =>
      have same := List.find?_some search
      have inside := List.mem_of_find?_eq_some search
      have whole : held = (name, node) :=
        List.inj_on_of_nodup_map distinct inside member (of_decide_eq_true same)
      rw [get, search, whole]
      rfl

theorem get_collect (distinct : (members.map Prod.fst).Nodup) {name : String}
    (member : (name, node) ∈ members) : get (collect members) name = some node := by
  have perm := collect_perm members
  refine (get_eq_some_iff ((perm.map Prod.fst).nodup_iff.mpr distinct)).mpr ?_
  exact perm.mem_iff.mpr member

/-! ### Scalars -/

def IsScalar : Node → Prop
  | .null | .bool _ | .string _ => True
  | .array _ | .object _ => False

theorem ordered_of_isScalar (scalar : node.IsScalar) : node.Ordered := by
  cases node with
  | array items => exact scalar.elim
  | object members => exact scalar.elim
  | _ => trivial

theorem validateAt_of_isScalar (scalar : node.IsScalar) (first second : Nat) :
    node.validateAt first = node.validateAt second := by
  cases node with
  | array items => exact scalar.elim
  | object members => exact scalar.elim
  | _ => rfl

theorem validateAt_object_of_scalars (scalars : ∀ held ∈ members, held.2.IsScalar)
    (valid : (Node.object members).validateAt first = .ok ()) (shallow : second < maxDepth) :
    (Node.object members).validateAt second = .ok () := by
  rw [validateAt, ensure_bind_eq_ok, validateMembers_eq_ok] at valid ⊢
  refine ⟨shallow, fun held member => ?_⟩
  obtain ⟨legalName, legalValue⟩ := valid.2 held member
  exact ⟨legalName, validateAt_of_isScalar (scalars held member) (first + 1) (second + 1) ▸ legalValue⟩

/-- The tree of a record: an object collected from scalars of distinct names. -/
def IsRecord (node : Node) : Prop :=
  ∃ members : List (String × Node), (members.map Prod.fst).Nodup ∧
    (∀ held ∈ members, held.2.IsScalar) ∧ node = ofMembers members

theorem IsRecord.ordered (record : node.IsRecord) : node.Ordered := by
  obtain ⟨members, distinct, scalars, rfl⟩ := record
  refine ⟨namesAscend_collect distinct, orderedMembers_iff.mpr fun held member => ?_⟩
  exact ordered_of_isScalar (scalars held ((collect_perm members).mem_iff.mp member))

/-- A record that may be encoded by itself may be encoded inside a document. -/
theorem IsRecord.validateAt (record : node.IsRecord) (valid : node.validateAt first = .ok ())
    (shallow : second < maxDepth) : node.validateAt second = .ok () := by
  obtain ⟨members, distinct, scalars, rfl⟩ := record
  refine validateAt_object_of_scalars (fun held member => ?_) valid shallow
  exact scalars held ((collect_perm members).mem_iff.mp member)

/-! ### Texts -/

/-- The bytes of a tree's canonical text. -/
def bytes (node : Node) : List UInt8 := utf8 (String.ofList node.emit)

/-- Byte strings with a comma before each but the first. -/
def commaJoined : List (List UInt8) → List UInt8
  | [] => []
  | first :: rest => first ++ rest.flatMap fun word => utf8 "," ++ word

theorem utf8_ofList_append (first second : List Char) :
    utf8 (String.ofList (first ++ second)) = utf8 (String.ofList first) ++ utf8 (String.ofList second) := by
  simp only [Parser.utf8_ofList, List.flatMap_append]

theorem utf8_ofList_cons (first : Char) (rest : List Char) :
    utf8 (String.ofList (first :: rest)) = utf8 (String.ofList [first]) ++ utf8 (String.ofList rest) :=
  utf8_ofList_append [first] rest

theorem utf8_emitItems :
    utf8 (String.ofList (emitItems items)) =
      ((items.map bytes).flatMap fun word => utf8 "," ++ word) ++ utf8 "]" := by
  induction items with
  | nil => decide +kernel
  | cons item rest inductionHypothesis =>
    have comma : utf8 (String.ofList [',']) = utf8 "," := by decide +kernel
    rw [emitItems, utf8_ofList_cons, utf8_ofList_append, inductionHypothesis, comma, List.map_cons,
      List.flatMap_cons, bytes, List.append_assoc, List.append_assoc]

theorem bytes_array :
    bytes (.array items) = utf8 "[" ++ commaJoined (items.map bytes) ++ utf8 "]" := by
  cases items with
  | nil => decide +kernel
  | cons item rest =>
    have bracket : utf8 (String.ofList ['[']) = utf8 "[" := by decide +kernel
    rw [bytes, emit, utf8_ofList_cons, utf8_ofList_append, utf8_emitItems, bracket, List.map_cons,
      commaJoined, bytes, List.append_assoc, List.append_assoc]

theorem bytes_object :
    bytes (.object ((name, value) :: rest)) =
      utf8 (String.ofList ('\x7b' :: (quoted name ++ [':']))) ++
        (bytes value ++ utf8 (String.ofList (emitMembers rest))) := by
  rw [bytes, emit, List.append_cons, ← List.append_assoc, ← List.append_assoc, ← List.cons_append,
    ← List.cons_append, utf8_ofList_append, utf8_ofList_append, bytes, List.append_assoc]

theorem utf8_emitMembers :
    utf8 (String.ofList (emitMembers ((name, value) :: rest))) =
      utf8 (String.ofList (',' :: (quoted name ++ [':']))) ++
        (bytes value ++ utf8 (String.ofList (emitMembers rest))) := by
  rw [emitMembers, List.append_cons, ← List.append_assoc, ← List.append_assoc, ← List.cons_append,
    ← List.cons_append, utf8_ofList_append, utf8_ofList_append, bytes, List.append_assoc]

end Dohflow.SyncCore.Node
