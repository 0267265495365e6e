import RosInterface.Text.Lines

/-! # Sections of definition files

Lines that hold nothing but `---` cut a definition file into sections. Each section knows the
number of its first line, so that errors can point into the file.
-/

namespace RosInterface

/-- A run of lines between separators. -/
structure Section where
  /-- The number of the first line within the file, counted from one. -/
  firstLine : Nat
  lines : List String
deriving DecidableEq, Repr, Inhabited

namespace Section

/-- The text of a separator line. -/
def separator : String :=
  "---"

/-- Whether a line separates two sections; blanks around the dashes do not matter. -/
def isSeparator (line : String) : Bool :=
  line.trimBlanks == separator

/-- The lines of a section as one text without blanks at its end. -/
def text (part : Section) : String :=
  String.ofList (Text.trimEnd ("\n".intercalate part.lines).toList)

/-- The lines with their numbers in the file. -/
def numberedLines (part : Section) : List (String × Nat) :=
  part.lines.zipIdx part.firstLine

/-- Puts a line in front of the first section of a list. -/
def consLine (line : String) : List Section → List Section
  | [] => []
  | first :: others => { first with lines := line :: first.lines } :: others

/-- The sections of lines the first of which has the number `next`, where the first section starts
at line `first`. -/
def ofLines (first next : Nat) : List String → List Section
  | [] => [⟨first, []⟩]
  | line :: rest =>
    if isSeparator line then ⟨first, []⟩ :: ofLines (next + 1) (next + 1) rest
    else consLine line (ofLines first (next + 1) rest)

/-- The sections of a file; there is one more of them than there are separators. -/
def ofText (text : String) : List Section :=
  ofLines 1 1 ((Text.lines text.toList).map String.ofList)

end Section

end RosInterface
