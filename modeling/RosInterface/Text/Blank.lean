/-! # Blank characters

Which characters separate words and are dropped at the ends of a text, with the two operations
that are built on them: `trim` and `words`. Texts are handled as lists of characters, so that each
operation is a recursion on its input.
-/

namespace RosInterface.Text

/-- The Unicode property White_Space. Zero-width characters such as U+200B and U+FEFF are outside
it. -/
def isBlank (c : Char) : Bool :=
  let n := c.toNat
  (9 ≤ n && n ≤ 13) || n == 0x20 || n == 0x85 || n == 0xA0 || n == 0x1680 ||
    (0x2000 ≤ n && n ≤ 0x200A) || n == 0x2028 || n == 0x2029 || n == 0x202F || n == 0x205F ||
    n == 0x3000

/-- The text from its first character outside the class `p` on. -/
def dropStart (p : Char → Bool) (text : List Char) : List Char :=
  text.dropWhile p

/-- The text up to its last character outside the class `p`. -/
def dropEnd (p : Char → Bool) : List Char → List Char
  | [] => []
  | c :: rest =>
    match dropEnd p rest with
    | [] => if p c then [] else [c]
    | kept => c :: kept

/-- The text without its leading blanks. -/
def trimStart (text : List Char) : List Char :=
  dropStart isBlank text

/-- The text without its trailing blanks. -/
def trimEnd (text : List Char) : List Char :=
  dropEnd isBlank text

/-- The text without the blanks at either end. -/
def trim (text : List Char) : List Char :=
  trimEnd (trimStart text)

/-- The pieces of a text between characters of the class `p`, empty pieces included. There is
always at least one piece. -/
def pieces (p : Char → Bool) : List Char → List (List Char)
  | [] => [[]]
  | c :: rest =>
    if p c then [] :: pieces p rest
    else
      match pieces p rest with
      | [] => [[c]]
      | first :: others => (c :: first) :: others

/-- The longest runs of characters that are not blank. -/
def words (text : List Char) : List (List Char) :=
  (pieces isBlank text).filter (fun piece => !piece.isEmpty)

/-- The words of a text with one space between neighbours; this is the normal form of running
text. -/
def normalize (text : List Char) : List Char :=
  [' '].intercalate (words text)

/-- Cuts a text at the first character of the class `p`, which belongs to neither half. -/
def cutAt (p : Char → Bool) : List Char → Option (List Char × List Char)
  | [] => none
  | c :: rest =>
    if p c then some ([], rest)
    else (cutAt p rest).map fun (before, after) => (c :: before, after)

end RosInterface.Text

namespace String

/-- The text without the Unicode blanks at either end. -/
def trimBlanks (text : String) : String :=
  ofList (RosInterface.Text.trim text.toList)

end String
