/-
This file models canonical JSON: the restricted value tree, the rules a tree is held
to before it is encoded, the strict parser, and the canonical entry points.

The parser works on the rest of the text. A loop of the source runs on fuel, the
number of characters left when it starts: every turn takes at least one, and with
none left the answer is the one the source's loop gives at the end of the input.
The byte-for-byte output comes from a canonicalizer that is not this repository's;
it enters as a function from trees to bytes.
-/

import Mathlib.Data.Nat.Find
import Dohflow.SyncCore.Cbe

namespace Dohflow.SyncCore

open Fallible

/-- Why a document could not be encoded or decoded. -/
inductive CanonicalJsonError
  | numberNotAllowed
  | unsupported (kind : String)
  | duplicateMember
  | badMemberName
  | malformed (offset : Nat) (reason : String)
  | tooDeep (limit : Nat)
  | notCanonical
  /-- A message of the canonicalizer, never printed. -/
  | decode (message : String)

/-! ### The value tree -/

/-- A value of the restricted JSON model. An object's members stand in the order of their names'
bytes, as its map iterates over them. -/
inductive Node
  | null
  | bool (value : Bool)
  | string (text : String)
  | array (items : List Node)
  | object (members : List (String × Node))

/-- Whether a name is a legal member name: non-empty ASCII `[a-z0-9_]`. -/
def isMemberName (name : String) : Bool :=
  !name.isEmpty && (utf8 name).all fun byte =>
    (97 ≤ byte && byte ≤ 122) || (48 ≤ byte && byte ≤ 57) || byte = 95

/-- The deepest nesting accepted. -/
def maxDepth : Nat := 128

namespace Node

mutual

/-- The rules for a value about to be encoded, inside this many arrays and objects. -/
def validateAt (containers : Nat) : Node → Except CanonicalJsonError Unit
  | .null => .ok ()
  | .bool _ => .ok ()
  | .string text => ensure ('\x00' ∉ text.toList) (.unsupported "U+0000 in a string")
  | .array items => do
    ensure (containers < maxDepth) (.tooDeep maxDepth)
    validateItems (containers + 1) items
  | .object members => do
    ensure (containers < maxDepth) (.tooDeep maxDepth)
    validateMembers (containers + 1) members

def validateItems (containers : Nat) : List Node → Except CanonicalJsonError Unit
  | [] => .ok ()
  | item :: rest => do
    validateAt containers item
    validateItems containers rest

def validateMembers (containers : Nat) : List (String × Node) → Except CanonicalJsonError Unit
  | [] => .ok ()
  | (name, value) :: rest => do
    ensure (isMemberName name) .badMemberName
    validateAt containers value
    validateMembers containers rest

end

def validate (node : Node) : Except CanonicalJsonError Unit := node.validateAt 0

/-- A map's insert: the member stands before the first one with a name above its own. -/
def insertSorted (name : String) (value : Node) : List (String × Node) → List (String × Node)
  | [] => [(name, value)]
  | held :: rest =>
    if utf8 name < utf8 held.1 then (name, value) :: held :: rest
    else held :: insertSorted name value rest

/-- Insert a member, enforcing the name rule and rejecting a duplicate. -/
def insertMember (members : List (String × Node)) (name : String) (value : Node) :
    Except CanonicalJsonError (List (String × Node)) := do
  ensure (isMemberName name) .badMemberName
  ensure (∀ held ∈ members, held.1 ≠ name) .duplicateMember
  return insertSorted name value members

end Node

/-! ### The parser -/

/-- A parser over the rest of the text. -/
abbrev Parser (Value : Type) := StateT (List Char) (Except CanonicalJsonError) Value

def isWhitespace (char : Char) : Bool :=
  char = ' ' || char = '\t' || char = '\n' || char = '\r'

/-- A character that a string holds as itself. -/
def isOrdinary (char : Char) : Bool := char ≠ '"' && char ≠ '\\' && 0x20 ≤ char.toNat

/-- The value of a hexadecimal digit. -/
def hexDigit (char : Char) : Option Nat :=
  if '0' ≤ char ∧ char ≤ '9' then some (char.toNat - '0'.toNat)
  else if 'a' ≤ char ∧ char ≤ 'f' then some (char.toNat - 'a'.toNat + 10)
  else if 'A' ≤ char ∧ char ≤ 'F' then some (char.toNat - 'A'.toNat + 10)
  else none

/-- The character of a code point, unless it is a surrogate or above the last one. -/
def charFromU32 (code : Nat) : Option Char :=
  if code.isValidChar then some (Char.ofNat code) else none

namespace Parser

section

-- The document's length in bytes.
variable (total : Nat)

/-- Where the parser stands, in bytes from the start. -/
def position (rest : List Char) : Nat := total - (String.ofList rest).utf8ByteSize

def malformed {Value : Type} (reason : String) : Parser Value := fun rest =>
  .error (.malformed (position total rest) reason)

def peek : Parser (Option Char) := fun rest => .ok (rest.head?, rest)

def advance : Parser Unit := fun rest => .ok ((), rest.tail)

def skipWhitespace : Parser Unit := fun rest => .ok ((), rest.dropWhile isWhitespace)

def expect (char : Char) (reason : String) : Parser Unit := do
  if (← peek) = some char then advance else malformed total reason

/-- Step over a word the text goes on with. -/
def stepOver (word : String) : Parser Bool := fun rest =>
  if word.toList <+: rest then .ok (true, rest.drop word.toList.length) else .ok (false, rest)

def literal (word : String) (node : Node) : Parser Node := do
  if ← stepOver word then return node else malformed total "invalid literal"

/-- So many hexadecimal digits, after those that gave the unit so far. -/
def hexDigits : Nat → Nat → Parser Nat
  | 0, unit => return unit
  | count + 1, unit => do
    match (← peek).bind hexDigit with
    | some digit => do
      advance
      hexDigits count (unit * 16 + digit)
    | none => malformed total "invalid \\u escape"

def hex4 : Parser Nat := hexDigits total 4 0

def charOf (code : Nat) (reason : String) : Parser Char :=
  match charFromU32 code with
  | some char => return char
  | none => malformed total reason

def unicodeEscape : Parser Char := do
  let unit ← hex4 total
  if 0xD800 ≤ unit ∧ unit ≤ 0xDBFF then
    -- A high surrogate must be followed by an escaped low surrogate.
    if ← stepOver "\\u" then
      let low ← hex4 total
      if 0xDC00 ≤ low ∧ low ≤ 0xDFFF then
        charOf total (0x10000 + (unit - 0xD800) * 2 ^ 10 + (low - 0xDC00)) "invalid surrogate pair"
      else malformed total "lone surrogate escape"
    else malformed total "lone surrogate escape"
  else if 0xDC00 ≤ unit ∧ unit ≤ 0xDFFF then malformed total "lone surrogate escape"
  else if unit = 0 then malformed total "U+0000 is not allowed in a string"
  else charOf total unit "invalid \\u escape"

/-- The character a one-letter escape stands for. -/
def shortEscape (letter : Char) : Option Char :=
  match letter with
  | '"' => some '"'
  | '\\' => some '\\'
  | '/' => some '/'
  | 'b' => some '\x08'
  | 'f' => some '\x0c'
  | 'n' => some '\n'
  | 'r' => some '\r'
  | 't' => some '\t'
  | _ => none

def escape : Parser Char := do
  match ← peek with
  | none => malformed total "unterminated escape"
  | some letter =>
    if letter = 'u' then do
      advance
      unicodeEscape total
    else match shortEscape letter with
      | some char => do
        advance
        return char
      -- The source has stepped over one byte of the letter.
      | none => fun rest => .error (.malformed (position total rest + 1) "invalid escape")

/-- The run of ordinary characters up to the next quote, backslash or control character. -/
def ordinaryRun : Parser (List Char) := fun rest =>
  .ok (rest.takeWhile isOrdinary, rest.dropWhile isOrdinary)

/-- A string's loop, after the characters read so far. -/
def stringFrom : Nat → List Char → Parser String
  | 0, _ => malformed total "unterminated string"
  | fuel + 1, out => do
    let run ← ordinaryRun
    match ← peek with
    | some '"' => do
      advance
      return String.ofList (out ++ run)
    | some '\\' => do
      advance
      let char ← escape total
      stringFrom fuel (out ++ run ++ [char])
    | some _ => malformed total "control character in a string"
    | none => malformed total "unterminated string"

def string : Parser String := do
  advance
  stringFrom total (← get).length []

/-- An array's loop, after the items read so far; `value` parses a value one level down. -/
def arrayFrom (value : Parser Node) : Nat → List Node → Parser Node
  | 0, _ => malformed total "unexpected end of input"
  | fuel + 1, items => do
    skipWhitespace
    let item ← value
    skipWhitespace
    match ← peek with
    | some ',' => do
      advance
      arrayFrom value fuel (items ++ [item])
    | some ']' => do
      advance
      return .array (items ++ [item])
    | _ => malformed total "expected ',' or ']'"

def array (value : Parser Node) : Parser Node := do
  advance
  skipWhitespace
  if (← peek) = some ']' then do
    advance
    return .array []
  else arrayFrom total value (← get).length []

/-- One turn of an object's loop up to the insert. -/
def member (value : Parser Node) (members : List (String × Node)) :
    Parser (List (String × Node)) := do
  if (← peek) = some '"' then do
    let name ← string total
    skipWhitespace
    expect total ':' "expected ':'"
    skipWhitespace
    let node ← value
    liftM (Node.insertMember members name node)
  else malformed total "expected a member name"

/-- An object's loop, after the members read so far. -/
def objectFrom (value : Parser Node) : Nat → List (String × Node) → Parser Node
  | 0, _ => malformed total "expected a member name"
  | fuel + 1, members => do
    skipWhitespace
    let members ← member total value members
    skipWhitespace
    match ← peek with
    | some ',' => do
      advance
      objectFrom value fuel members
    | some '}' => do
      advance
      return .object members
    | _ => malformed total "expected ',' or '\x7d'"

def object (value : Parser Node) : Parser Node := do
  advance
  skipWhitespace
  if (← peek) = some '}' then do
    advance
    return .object []
  else objectFrom total value (← get).length []

/-- A value, with the parser of values one level down if another level is allowed. -/
def valueWith (nested : Option (Parser Node)) : Parser Node := do
  match ← peek with
  | some '{' =>
    match nested with
    | some value => object total value
    | none => throw (.tooDeep maxDepth)
  | some '[' =>
    match nested with
    | some value => array total value
    | none => throw (.tooDeep maxDepth)
  | some '"' => do
    let text ← string total
    return .string text
  | some 't' => literal total "true" (.bool true)
  | some 'f' => literal total "false" (.bool false)
  | some 'n' => literal total "null" .null
  | some char =>
    if char = '-' ∨ char.isDigit then throw .numberNotAllowed
    else malformed total "unexpected character"
  | none => malformed total "unexpected end of input"

/-- A value that may hold this many arrays and objects inside one another. -/
def value : Nat → Parser Node
  | 0 => valueWith total none
  | levels + 1 => valueWith total (some (value levels))

/-- A value with nothing but whitespace around it. -/
def document : Parser Node := do
  skipWhitespace
  let node ← value total maxDepth
  skipWhitespace
  if (← get).isEmpty then return node else malformed total "characters after the document"

end

end Parser

/-! ### The entry points -/

/-- The longest prefix that is valid UTF-8. -/
def validUpTo (bytes : List UInt8) : Nat :=
  Nat.findGreatest (fun length => validUtf8 (bytes.take length) = true) bytes.length

/-- Parse a document, accepting any whitespace and any escape spelling. -/
def parseNodeLenient (bytes : List UInt8) : Except CanonicalJsonError Node :=
  match String.fromUTF8? ⟨bytes.toArray⟩ with
  | none => .error (.malformed (validUpTo bytes) "invalid UTF-8")
  | some text => ((Parser.document text.utf8ByteSize).run text.toList).map Prod.fst

/-- The canonicalizer's `to_vec`: the bytes of a tree, or its message. -/
abbrev Canonicalizer := Node → Except String (List UInt8)

section

variable (toVec : Canonicalizer)

/-- Encode a node as canonical JSON bytes. -/
def nodeToCanonicalVec (node : Node) : Except CanonicalJsonError (List UInt8) := do
  node.validate
  (toVec node).mapError .decode

/-- Parse a document that must be in canonical form. -/
def parseCanonicalNode (bytes : List UInt8) : Except CanonicalJsonError Node := do
  let node ← parseNodeLenient bytes
  ensure ((← nodeToCanonicalVec toVec node) = bytes) .notCanonical
  return node

end

end Dohflow.SyncCore
