import RosInterface.Toml.Word

/-! # Reading TOML

A document is a list of statements, each on lines of its own. A text that is no document has no
meaning.
-/

namespace RosInterface.Toml

/-! ## Spaces and comments -/

/-- Whether a character may stand in comments and texts as it is. -/
def isPrintable (c : Char) : Bool :=
  c == '\t' || (0x20 ≤ c.toNat && c.toNat != 0x7F)

/-- The input behind any spaces. -/
def skipSpaces (input : List Char) : List Char :=
  input.dropWhile isSpace

/-- The input behind a line ending, if one comes next. -/
def newline? : List Char → Option (List Char)
  | '\n' :: rest => some rest
  | '\r' :: '\n' :: rest => some rest
  | _ => none

/-- The input behind a comment, if one comes next. -/
def skipComment : List Char → List Char
  | '#' :: rest => rest.dropWhile isPrintable
  | input => input

/-- The input behind spaces, comments and line endings, the first of which may end a comment. -/
def skipBlankFrom : Bool → List Char → List Char
  | _, [] => []
  | inComment, c :: rest =>
    if (newline? (c :: rest)).isSome then skipBlankFrom false rest
    else if inComment then if isPrintable c then skipBlankFrom true rest else c :: rest
    else if c == '#' then skipBlankFrom true rest
    else if isSpace c then skipBlankFrom false rest
    else c :: rest

/-- The input behind everything that has no meaning between values. -/
def skipBlank : List Char → List Char :=
  skipBlankFrom false

/-- Ends a statement: only a comment may follow on its line. -/
def endLine (input : List Char) : Option (List Char) :=
  match skipComment (skipSpaces input) with
  | [] => some []
  | rest => newline? rest

/-! ## Texts -/

/-- Reads a code point in a given number of hexadecimal digits. -/
def readCodePoint : Nat → Nat → Read Char
  | 0, number, input =>
    if h : number.isValidChar then some (Char.ofNatAux number h, input) else none
  | count + 1, number, c :: rest =>
    (hexValue? c).bind fun digit => readCodePoint count (16 * number + digit) rest
  | _ + 1, _, [] => none

/-- Reads an escape behind its backslash. -/
def readEscape : Read Char
  | 'b' :: rest => some ('\x08', rest)
  | 't' :: rest => some ('\t', rest)
  | 'n' :: rest => some ('\n', rest)
  | 'f' :: rest => some ('\x0c', rest)
  | 'r' :: rest => some ('\r', rest)
  | 'e' :: rest => some ('\x1b', rest)
  | '\x22' :: rest => some ('\x22', rest)
  | '\\' :: rest => some ('\\', rest)
  | 'x' :: rest => readCodePoint 2 0 rest
  | 'u' :: rest => readCodePoint 4 0 rest
  | 'U' :: rest => readCodePoint 8 0 rest
  | _ => none

/-- Puts a character in front of a text that was read. -/
def consRead (c : Char) (read : List Char × List Char) : List Char × List Char :=
  (c :: read.1, read.2)

/-- Reads a text with escapes on one line, behind its quote. -/
def readBasic : Nat → Read (List Char)
  | 0, _ => none
  | _, [] => none
  | _ + 1, '\x22' :: rest => some ([], rest)
  | limit + 1, '\\' :: rest =>
    (readEscape rest).bind fun (c, rest) => (readBasic limit rest).map (consRead c)
  | limit + 1, c :: rest =>
    if isPrintable c then (readBasic limit rest).map (consRead c) else none

/-- Reads a text without escapes on one line, behind its quote. -/
def readLiteral : Read (List Char)
  | [] => none
  | '\x27' :: rest => some ([], rest)
  | c :: rest => if isPrintable c then (readLiteral rest).map (consRead c) else none

/-- The number of quotes that come next. -/
def countQuotes (quote : Char) (input : List Char) : Nat :=
  (input.takeWhile (· == quote)).length

/-- Whether a backslash stands at the end of a line, spaces apart. -/
def endsLine (input : List Char) : Bool :=
  (newline? (skipSpaces input)).isSome

/-- The input behind spaces and line endings. -/
def skipBreaks : List Char → List Char
  | [] => []
  | c :: rest =>
    if isSpace c || (newline? (c :: rest)).isSome then skipBreaks rest else c :: rest

/-- Whether a character of a text over several lines stands for itself, given what follows it. Line
endings are kept as they are. -/
def isLongPrintable (c : Char) (rest : List Char) : Bool :=
  isPrintable c || (newline? (c :: rest)).isSome

/-- Reads a text over several lines, behind its quotes. Up to two quotes may stand right before the
closing ones. -/
def readLong (quote : Char) (escapes : Bool) : Nat → Read (List Char)
  | 0, _ => none
  | _, [] => none
  | limit + 1, c :: rest =>
    if c = quote then
      let count := countQuotes quote (c :: rest)
      if 6 ≤ count then none
      else if 3 ≤ count then some (List.replicate (count - 3) quote, (c :: rest).drop count)
      else (readLong quote escapes limit rest).map (consRead c)
    else if c = '\\' && escapes then
      if endsLine rest then readLong quote escapes limit (skipBreaks rest)
      else (readEscape rest).bind fun (c, rest) =>
        (readLong quote escapes limit rest).map (consRead c)
    else if isLongPrintable c rest then (readLong quote escapes limit rest).map (consRead c)
    else none

/-- The input behind a line ending, which may be missing. -/
def skipNewline (input : List Char) : List Char :=
  (newline? input).getD input

/-- Reads a text on one line. -/
def readShortText : Read String
  | '\x22' :: rest => (readBasic (rest.length + 1) rest).map fun (t, r) => (String.ofList t, r)
  | '\x27' :: rest => (readLiteral rest).map fun (t, r) => (String.ofList t, r)
  | _ => none

/-- Reads a text. -/
def readText : Read String
  | '\x22' :: '\x22' :: '\x22' :: rest =>
    (readLong '\x22' true (rest.length + 1) (skipNewline rest)).map fun (t, r) =>
      (String.ofList t, r)
  | '\x27' :: '\x27' :: '\x27' :: rest =>
    (readLong '\x27' false (rest.length + 1) (skipNewline rest)).map fun (t, r) =>
      (String.ofList t, r)
  | input => readShortText input

/-! ## Keys -/

/-- Whether a key may contain a character without being quoted. -/
def isKeyChar (c : Char) : Bool :=
  c.isAlphanum || c == '_' || c == '-'

/-- Reads one key. -/
def readSimpleKey : Read String := fun input =>
  match input.takeWhile isKeyChar with
  | [] => readShortText input
  | key => some (String.ofList key, input.dropWhile isKeyChar)

/-- Reads at most so many keys with dots between them. -/
def readKeys : Nat → Read (List String)
  | 0, _ => none
  | limit + 1, input => do
    let (key, rest) ← readSimpleKey (skipSpaces input)
    match skipSpaces rest with
    | '.' :: rest =>
      let (path, rest) ← readKeys limit rest
      pure (key :: path, rest)
    | rest => pure ([key], rest)

/-- The number of keys that a dotted key may have, and of brackets that may be open at once. -/
def depthLimit : Nat :=
  80

/-- Reads a key with its dots. -/
def readKey : Read (List String) :=
  readKeys depthLimit

/-! ## Values -/

mutual

/-- Reads a value in which at most `depth` brackets are open at once. Every nested value needs a
step of the limit. -/
def readValue : Nat → Nat → Read Value
  | 0, _, _ => none
  | limit + 1, depth, '[' :: rest =>
    match depth with
    | 0 => none
    | depth + 1 =>
      (readMembers limit depth rest).map fun (members, rest) => (.array members, rest)
  | limit + 1, depth, '\x7b' :: rest =>
    match depth with
    | 0 => none
    | depth + 1 =>
      (readEntries limit depth [] rest).map fun (entries, rest) => (.table .inline entries, rest)
  | _ + 1, _, input =>
    if input.head?.any isQuote then (readText input).map fun (text, rest) => (.text text, rest)
    else readWord input

/-- Reads the members of an array up to its closing bracket. -/
def readMembers : Nat → Nat → Read (List Value)
  | 0, _, _ => none
  | limit + 1, depth, input => do
    match skipBlank input with
    | ']' :: rest => pure ([], rest)
    | input =>
      let (member, rest) ← readValue limit depth input
      match skipBlank rest with
      | ']' :: rest => pure ([member], rest)
      | ',' :: rest =>
        let (members, rest) ← readMembers limit depth rest
        pure (member :: members, rest)
      | _ => none

/-- Reads the entries of a table up to its closing brace, in addition to earlier ones. Unlike those
of a document, the entries may take several lines each. -/
def readEntries : Nat → Nat → Entries → Read Entries
  | 0, _, _, _ => none
  | limit + 1, depth, entries, input => do
    match skipBlank input with
    | '\x7d' :: rest => pure (entries, rest)
    | input =>
      let (key, rest) ← readKey input
      match skipBlank rest with
      | '=' :: rest =>
        let (value, rest) ← readValue limit depth (skipBlank rest)
        let entries ← assign value key entries
        match skipBlank rest with
        | '\x7d' :: rest => pure (entries, rest)
        | ',' :: rest => readEntries limit depth entries rest
        | _ => none
      | _ => none

end

/-! ## Documents -/

/-- Reads a statement. -/
def readStatement : Read Statement := fun input =>
  match input with
  | '[' :: '[' :: rest => do
    let (path, rest) ← readKey rest
    match rest with
    | ']' :: ']' :: rest => pure (.memberHeader path, rest)
    | _ => none
  | '[' :: rest => do
    let (path, rest) ← readKey rest
    match rest with
    | ']' :: rest => pure (.header path, rest)
    | _ => none
  | _ => do
    let (key, rest) ← readKey input
    match rest with
    | '=' :: rest =>
      let (value, rest) ← readValue (input.length + 1) depthLimit (skipSpaces rest)
      pure (.assignment key value, rest)
    | _ => none

/-- Reads the statements of a document. -/
def readStatements : Nat → List Char → Option (List Statement)
  | 0, _ => none
  | limit + 1, input =>
    match skipBlank input with
    | [] => some []
    | input => do
      let (statement, rest) ← readStatement input
      let rest ← endLine rest
      let statements ← readStatements limit rest
      pure (statement :: statements)

/-- Reads a document. -/
def read (text : String) : Option Entries := do
  let input :=
    match text.toList with
    | '\uFEFF' :: rest => rest
    | input => input
  let statements ← readStatements (input.length + 1) input
  collect statements [] []

end RosInterface.Toml
