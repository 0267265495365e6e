/-! # Lexical rules of XML

Characters, names and references, and the smallest steps of reading: each takes the input and gives
what it read and the input behind it.
-/

namespace RosInterface.Xml

/-- Why a text is not a document. -/
inductive SyntaxError where
  | character
  | name
  | reference
  | comment
  | characterData
  | malformedAttribute
  | duplicateAttribute
  | unknownQualifier
  | namespaceDeclaration
  | documentType
  | unexpected
  | closingTag
  | unclosed
  | noRoot
deriving DecidableEq, Repr

/-- The wording of an error. -/
def SyntaxError.message : SyntaxError → String
  | character => "a character that is not allowed"
  | name => "an invalid name"
  | reference => "an unknown or malformed reference"
  | comment => "an invalid comment"
  | characterData => "']]>' in character data"
  | malformedAttribute => "a malformed attribute"
  | duplicateAttribute => "an attribute given twice"
  | unknownQualifier => "an undeclared namespace prefix"
  | namespaceDeclaration => "an invalid namespace declaration"
  | documentType => "a document type declaration"
  | unexpected => "an unexpected token"
  | closingTag => "a closing tag without its opening tag"
  | unclosed => "the root element is not closed"
  | noRoot => "the document has no root element"

/-- A step of reading. -/
abbrev Read (α : Type) :=
  List Char → Except SyntaxError (α × List Char)

/-- Whether a code point lies in one of some ranges, ends included. -/
def inRanges (ranges : List (Nat × Nat)) (c : Char) : Bool :=
  ranges.any fun (low, high) => low ≤ c.toNat && c.toNat ≤ high

/-- The four characters between tokens. -/
def isSpace (c : Char) : Bool :=
  c == ' ' || c == '\t' || c == '\n' || c == '\r'

/-- The characters that a document may contain. -/
def isCharacter (c : Char) : Bool :=
  if c.toNat < 0x20 then isSpace c else c.toNat != 0xFFFE && c.toNat != 0xFFFF

/-- The first characters of names, the colon apart. -/
def startRanges : List (Nat × Nat) := [
  (0x41, 0x5A), (0x5F, 0x5F), (0x61, 0x7A), (0xC0, 0xD6), (0xD8, 0xF6), (0xF8, 0x2FF),
  (0x370, 0x37D), (0x37F, 0x1FFF), (0x200C, 0x200D), (0x2070, 0x218F), (0x2C00, 0x2FEF),
  (0x3001, 0xD7FF), (0xF900, 0xFDCF), (0xFDF0, 0xFFFD), (0x10000, 0xEFFFF)]

/-- The further characters of names. -/
def innerRanges : List (Nat × Nat) := [
  (0x2D, 0x2E), (0x30, 0x39), (0xB7, 0xB7), (0x300, 0x36F), (0x203F, 0x2040)]

/-- Whether a name may start with a character. -/
def isNameStart (c : Char) : Bool :=
  inRanges startRanges c

/-- Whether a name may contain a character behind its first one. -/
def isNameInner (c : Char) : Bool :=
  isNameStart c || inRanges innerRanges c

/-! ## Steps -/

/-- The input behind any spaces. -/
def skipSpaces (input : List Char) : List Char :=
  input.dropWhile isSpace

/-- The input behind a given text, which has to come first. -/
def expect (text : String) (error : SyntaxError) (input : List Char) :
    Except SyntaxError (List Char) :=
  match text.toList.isPrefixOf? input with
  | some rest => .ok rest
  | none => .error error

/-- Whether the input starts with a given text. -/
def startsWith (text : String) (input : List Char) : Bool :=
  text.toList.isPrefixOf input

/-- Reads up to where `stop` holds of the input, or to its end. All characters on the way have to be
allowed in documents. -/
def readUntil (stop : List Char → Bool) : Read (List Char)
  | [] => .ok ([], [])
  | c :: rest =>
    if !isCharacter c then .error .character
    else if stop (c :: rest) then .ok ([], c :: rest)
    else (readUntil stop rest).map fun (read, rest) => (c :: read, rest)

/-- A name with the qualifier in front of its colon, which is empty if there is none. -/
structure QualifiedName where
  qualifier : String
  name : String
deriving DecidableEq, Repr

/-- Whether a text is a name. -/
def isName : List Char → Bool
  | [] => false
  | first :: rest => isNameStart first && rest.all isNameInner

/-- Reads a name that may have a qualifier. -/
def readQualifiedName : Read QualifiedName := fun input =>
  let (first, rest) := input.span isNameInner
  match rest with
  | ':' :: rest =>
    let (second, rest) := rest.span isNameInner
    if rest.head? == some ':' then .error .name
    else if (first.isEmpty || isName first) && isName second then
      .ok (⟨String.ofList first, String.ofList second⟩, rest)
    else .error .name
  | _ =>
    if isName first then .ok (⟨"", String.ofList first⟩, rest) else .error .name

/-- Reads a name in which colons have no meaning. -/
def readName : Read (List Char) := fun input =>
  match input with
  | [] => .error .name
  | first :: rest =>
    if isNameStart first || first == ':' then
      let (inner, rest) := rest.span fun c => isNameInner c || c == ':'
      .ok (first :: inner, rest)
    else .error .name

/-! ## References -/

/-- The value of a hexadecimal digit. -/
def hexValue (c : Char) : Nat :=
  if c.isDigit then c.toNat - '0'.toNat else c.toLower.toNat - 'a'.toNat + 10

/-- The hexadecimal digits. -/
def isHexDigit (c : Char) : Bool :=
  c.isDigit || ('a' ≤ c && c ≤ 'f') || ('A' ≤ c && c ≤ 'F')

/-- The character of a numeric reference. Numbers that no character has stand for U+FFFD. -/
def characterOf (number : Nat) : Except SyntaxError Char :=
  if UInt32.size ≤ number then .error .reference
  else
    let c := if h : number.isValidChar then Char.ofNatAux number h else '\uFFFD'
    if isCharacter c then .ok c else .error .reference

/-- Reads the digits of a numeric reference. -/
def readNumber : Read Nat := fun input =>
  match input with
  | 'x' :: input =>
    let (digits, rest) := input.span isHexDigit
    if digits.isEmpty then .error .reference
    else .ok (digits.foldl (fun n c => 16 * n + hexValue c) 0, rest)
  | _ =>
    let (digits, rest) := input.span Char.isDigit
    if digits.isEmpty then .error .reference else .ok (Nat.ofDigitChars 10 digits 0, rest)

/-- The character that a named reference stands for. -/
def namedCharacter : String → Except SyntaxError Char
  | "quot" => .ok '\x22'
  | "amp" => .ok '&'
  | "apos" => .ok '\x27'
  | "lt" => .ok '<'
  | "gt" => .ok '>'
  | _ => .error .reference

/-- Reads a reference behind its ampersand. -/
def readReference : Read Char := fun input => do
  let (c, rest) ←
    match input with
    | '#' :: input => do
      let (number, rest) ← readNumber input
      pure (← characterOf number, rest)
    | _ => do
      let (name, rest) ← readName input
      pure (← namedCharacter (String.ofList name), rest)
  let rest ← expect ";" .reference rest
  pure (c, rest)

/-- Decodes a text, where `plain` tells what a character outside references stands for when another
text follows it. Every round takes a character, so the length of the text is limit enough. -/
def decode (plain : Char → List Char → List Char) : Nat → List Char →
    Except SyntaxError (List Char)
  | _, [] => .ok []
  | 0, _ => .ok []
  | limit + 1, '&' :: rest => do
    let (c, rest) ← readReference rest
    let decoded ← decode plain limit rest
    pure (c :: decoded)
  | limit + 1, c :: rest => do
    let decoded ← decode plain limit rest
    pure (plain c rest ++ decoded)

/-- Line breaks inside texts are line feeds, however they are written. -/
def plainText (c : Char) (rest : List Char) : List Char :=
  if c = '\r' then (if rest.head? = some '\n' then [] else ['\n']) else [c]

/-- Line breaks and tabs inside attribute values are spaces. -/
def plainValue (c : Char) (rest : List Char) : List Char :=
  if c = '\r' then (if rest.head? = some '\n' then [] else [' '])
  else if c = '\n' || c = '\t' then [' ']
  else [c]

/-- The meaning of a text between tags. -/
def decodeText (text : List Char) : Except SyntaxError String :=
  (decode plainText text.length text).map String.ofList

/-- The meaning of a text between the quotes of an attribute. -/
def decodeValue (text : List Char) : Except SyntaxError String :=
  (decode plainValue text.length text).map String.ofList

end RosInterface.Xml
