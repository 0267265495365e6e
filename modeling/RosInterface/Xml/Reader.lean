import RosInterface.Xml.Lexical
import RosInterface.Xml.Node

/-! # Reading XML

A document is read in one pass with a stack of open elements. Namespaces are resolved where a tag
ends, document type declarations are refused, and only the predefined entities are known.
-/

namespace RosInterface.Xml

/-! ## Tags -/

/-- An attribute as it is written. -/
structure RawAttribute where
  name : QualifiedName
  value : List Char

/-- Reads an attribute. -/
def readAttribute : Read RawAttribute := fun input => do
  let (name, rest) ← readQualifiedName input
  let rest := skipSpaces (← expect "=" .malformedAttribute (skipSpaces rest))
  match rest with
  | [] => throw .malformedAttribute
  | quote :: rest =>
    if quote != '\x22' && quote != '\x27' then throw .malformedAttribute
    let (value, rest) ← readUntil (fun input => input.head? == some quote || input.head? == some '<')
      rest
    let rest ← expect (String.singleton quote) .malformedAttribute rest
    pure (⟨name, value⟩, rest)

/-- An opening tag. -/
structure OpeningTag where
  name : QualifiedName
  attributes : List RawAttribute
  /-- Whether the tag is a closing tag as well. -/
  isEmpty : Bool

/-- Reads the rest of an opening tag behind its name. A space has to stand in front of each
attribute. -/
def readTagEnd : Nat → Read (List RawAttribute × Bool)
  | 0, _ => .error .unexpected
  | limit + 1, input => do
    match skipSpaces input with
    | [] => throw .unclosed
    | '/' :: rest => pure (([], true), ← expect ">" .unexpected rest)
    | '>' :: rest => pure (([], false), rest)
    | first :: rest =>
      if (skipSpaces input).length = input.length then throw .unexpected
      let (next, rest) ← readAttribute (first :: rest)
      let ((attributes, isEmpty), rest) ← readTagEnd limit rest
      pure ((next :: attributes, isEmpty), rest)

/-- Reads an opening tag behind its bracket. -/
def readOpeningTag : Read OpeningTag := fun input => do
  let (name, rest) ← readQualifiedName input
  let ((attributes, isEmpty), rest) ← readTagEnd (rest.length + 1) rest
  pure (⟨name, attributes, isEmpty⟩, rest)

/-- Reads a closing tag behind its bracket and slash. -/
def readClosingTag : Read QualifiedName := fun input => do
  let (name, rest) ← readQualifiedName input
  let rest ← expect ">" .unexpected (skipSpaces rest)
  pure (name, rest)

/-! ## Comments, instructions and texts -/

/-- Whether a text contains two characters in a row, or ends in the first of them. -/
def hasDashes : List Char → Bool
  | [] => false
  | '-' :: [] => true
  | '-' :: '-' :: _ => true
  | _ :: rest => hasDashes rest

/-- Skips a comment behind its opening dashes. -/
def skipComment (input : List Char) : Except SyntaxError (List Char) := do
  let (text, rest) ← readUntil (startsWith "-->") input
  let rest ← expect "-->" .comment rest
  if hasDashes text then throw .comment
  pure rest

/-- Skips a processing instruction. An XML declaration is none. -/
def skipInstruction (input : List Char) : Except SyntaxError (List Char) := do
  if startsWith "<?xml " input then throw .unexpected
  let rest ← expect "<?" .unexpected input
  let (_, rest) ← readName rest
  let (_, rest) ← readUntil (startsWith "?>") (skipSpaces rest)
  expect "?>" .unexpected rest

/-- Reads a text that no reference is replaced in, behind its opening bracket. -/
def readVerbatim : Read String := fun input => do
  let (text, rest) ← readUntil (startsWith "]]>") input
  let rest ← expect "]]>" .unexpected rest
  pure (String.ofList text, rest)

/-- Whether the end of a verbatim text stands in a text. -/
def hasVerbatimEnd : List Char → Bool
  | [] => false
  | c :: rest => startsWith "]]>" (c :: rest) || hasVerbatimEnd rest

/-- Reads the text up to the next tag. -/
def readCharacterData : Read String := fun input => do
  let (text, rest) ← readUntil (fun input => input.head? == some '<') input
  if hasVerbatimEnd text then throw .characterData
  pure (← decodeText text, rest)

/-! ## Namespaces -/

/-- The names that qualifiers stand for, the innermost declaration first. The absent qualifier is
that of unqualified elements. -/
abbrev Scope :=
  List (Option String × String)

/-- A namespace that is named by an address. -/
def namespaceName (address : String) : String :=
  "http:" ++ "//" ++ address

/-- The namespace of the qualifier `xml`. -/
def xmlNamespace : String :=
  namespaceName "www.w3.org/XML/1998/namespace"

/-- The namespace of namespace declarations. -/
def declarationNamespace : String :=
  namespaceName "www.w3.org/2000/xmlns/"

/-- The declaration that an attribute makes, given the earlier ones of its tag. The qualifier `xml`
may be declared, and nothing is gained by it. -/
def declare (earlier : Scope) (qualifier value : String) : Except SyntaxError Scope :=
  if value = declarationNamespace then .error .namespaceDeclaration
  else if (qualifier == "xml") != (value == xmlNamespace) then .error .namespaceDeclaration
  else if earlier.any (·.1 == some qualifier) then .error .namespaceDeclaration
  else if qualifier = "xml" then .ok earlier
  else .ok (earlier ++ [(some qualifier, value)])

/-- The declaration that an attribute makes for unqualified elements. -/
def declareDefault (earlier : Scope) (value : String) : Except SyntaxError Scope :=
  if value = declarationNamespace || value = xmlNamespace then .error .namespaceDeclaration
  else .ok (earlier ++ [(none, value)])

/-- Sorts the attributes of a tag into declarations and others, whose values are decoded. -/
def splitAttributes : List RawAttribute → Scope →
    Except SyntaxError (Scope × List (QualifiedName × String))
  | [], scope => .ok (scope, [])
  | raw :: others, scope => do
    let value ← decodeValue raw.value
    if raw.name.qualifier = "xmlns" then
      splitAttributes others (← declare scope raw.name.name value)
    else if raw.name.name = "xmlns" then
      splitAttributes others (← declareDefault scope value)
    else
      let (scope, rest) ← splitAttributes others scope
      pure (scope, (raw.name, value) :: rest)

/-- The namespace that a qualifier stands for. Only the empty one may stand for none. -/
def namespaceOf (scope : Scope) (qualifier : String) : Except SyntaxError (Option String) :=
  match scope.lookup (if qualifier = "" then none else some qualifier) with
  | some name => .ok (some name)
  | none => if qualifier = "" then .ok none else .error .unknownQualifier

/-- An attribute with its namespace; unqualified attributes have none. -/
def resolveAttribute (scope : Scope) (entry : QualifiedName × String) :
    Except SyntaxError Attribute := do
  let (name, value) := entry
  if name.qualifier = "" then pure ⟨none, name.name, value⟩
  else if name.qualifier = "xml" then pure ⟨some xmlNamespace, name.name, value⟩
  else pure ⟨← namespaceOf scope name.qualifier, name.name, value⟩

/-- Whether two attributes of a list have one name. -/
def hasDuplicate : List Attribute → Bool
  | [] => false
  | first :: others =>
    others.any (fun a => a.uri == first.uri && a.name == first.name) ||
      hasDuplicate others

/-! ## Elements -/

/-- An element whose closing tag has not come yet. -/
structure OpenElement where
  name : QualifiedName
  attributes : List Attribute
  scope : Scope
  /-- What was read inside it, the last first. -/
  children : List Node

/-- Opens an element inside a scope. -/
def openElement (scope : Scope) (tag : OpeningTag) : Except SyntaxError OpenElement := do
  if tag.name.qualifier = "xmlns" then throw .name
  let (declared, raw) ← splitAttributes tag.attributes []
  let scope := declared ++ scope
  let attributes ← raw.mapM (resolveAttribute scope)
  if hasDuplicate attributes then throw .duplicateAttribute
  let _ ← namespaceOf scope tag.name.qualifier
  pure ⟨tag.name, attributes, scope, []⟩

/-- The node of an element. -/
def OpenElement.node (element : OpenElement) : Node :=
  .element element.name.name element.attributes element.children.reverse

/-- Adds a node to an open element. -/
def OpenElement.push (element : OpenElement) (node : Node) : OpenElement :=
  { element with children := node :: element.children }

/-- Reads what is inside the open elements `top` and `below`, the innermost first, up to the closing
tag of the outermost. Every round takes a character, so the length of the input bounds them. -/
def readContent : Nat → OpenElement → List OpenElement → Read Node
  | 0, _, _, _ => .error .unclosed
  | _, _, _, [] => .error .unclosed
  | limit + 1, top, below, '<' :: '/' :: rest => do
    let (name, rest) ← readClosingTag rest
    if name != top.name then throw .closingTag
    match below with
    | [] => pure (top.node, rest)
    | next :: below => readContent limit (next.push top.node) below rest
  | limit + 1, top, below, '<' :: '!' :: rest => do
    if startsWith "--" rest then
      readContent limit top below (← skipComment (rest.drop 2))
    else if startsWith "[CDATA[" rest then
      let (text, rest) ← readVerbatim (rest.drop 7)
      readContent limit (top.push (.text text)) below rest
    else throw .unexpected
  | limit + 1, top, below, '<' :: '?' :: rest => do
    readContent limit top below (← skipInstruction ('<' :: '?' :: rest))
  | limit + 1, top, below, '<' :: rest => do
    let (tag, rest) ← readOpeningTag rest
    let element ← openElement top.scope tag
    if tag.isEmpty then readContent limit (top.push element.node) below rest
    else readContent limit element (top :: below) rest
  | limit + 1, top, below, input => do
    let (text, rest) ← readCharacterData input
    readContent limit (top.push (.text text)) below rest

/-- Reads the root element behind its bracket. -/
def readRoot : Read Node := fun input => do
  let (tag, rest) ← readOpeningTag input
  let element ← openElement [] tag
  if tag.isEmpty then pure (element.node, rest)
  else readContent (rest.length + 1) element [] rest

/-! ## Documents -/

/-- Skips spaces, comments and instructions. -/
def skipMisc : Nat → List Char → Except SyntaxError (List Char)
  | 0, input => .ok input
  | limit + 1, input => do
    let input := skipSpaces input
    if startsWith "<!--" input then skipMisc limit (← skipComment (input.drop 4))
    else if startsWith "<?" input then skipMisc limit (← skipInstruction input)
    else pure input

/-- Requires a space unless the declaration ends. -/
def declarationSpace (input : List Char) : Except SyntaxError (List Char) :=
  if (input.head?.map isSpace).getD false then .ok (skipSpaces input)
  else if input.isEmpty || startsWith "?>" input then .ok input
  else .error .unexpected

/-- Skips one entry of the XML declaration, if it comes next. -/
def skipEntry (name : String) (input : List Char) : Except SyntaxError (List Char) :=
  if startsWith name input then (readAttribute input).map (·.2) else .ok input

/-- Skips the XML declaration, whose entries have a fixed order and of which the version is
required. -/
def skipDeclaration (input : List Char) : Except SyntaxError (List Char) := do
  let rest ← declarationSpace (← expect "<?xml" .unexpected input)
  if !startsWith "version" rest then throw .unexpected
  let rest ← declarationSpace (← skipEntry "version" rest)
  let rest ←
    if startsWith "encoding" rest then declarationSpace (← skipEntry "encoding" rest)
    else pure rest
  let rest ← skipEntry "standalone" rest
  expect "?>" .unexpected (skipSpaces rest)

/-- Reads a document. -/
def read (text : String) : Except SyntaxError Node := do
  let input :=
    match text.toList with
    | '\uFEFF' :: rest => rest
    | input => input
  let input ← if startsWith "<?xml " input then skipDeclaration input else pure input
  let input ← skipMisc (input.length + 1) input
  if startsWith "<!DOCTYPE" input then throw .documentType
  match input with
  | [] => throw .noRoot
  | '<' :: rest =>
    let (root, rest) ← readRoot rest
    let rest ← skipMisc (rest.length + 1) rest
    if rest.isEmpty then pure root else throw .unexpected
  | _ => throw .unexpected

end RosInterface.Xml
