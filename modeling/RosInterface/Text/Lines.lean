import RosInterface.Text.Blank

/-! # Lines of a text

A line ends at a line feed, and one carriage return directly before that line feed belongs to the
ending. A carriage return elsewhere is an ordinary character, also at the very end of the text, and
a final line feed opens no further line.
-/

namespace RosInterface.Text

/-- A line without the one carriage return that may stand before its line feed. -/
def dropReturn : List Char → List Char
  | [] => []
  | ['\r'] => []
  | c :: rest => c :: dropReturn rest

/-- Ends every piece but the last as a line. The last one has no line feed behind it: it keeps its
carriage return, and is no line at all when it is empty. -/
def closeLines : List (List Char) → List (List Char)
  | [] => []
  | [last] => if last.isEmpty then [] else [last]
  | piece :: others => dropReturn piece :: closeLines others

/-- The lines of a text in order. -/
def lines (text : List Char) : List (List Char) :=
  closeLines (pieces (· == '\n') text)

end RosInterface.Text
