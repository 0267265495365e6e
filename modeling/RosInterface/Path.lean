import RosInterface.Text.Blank

/-! # Paths

A path keeps the text it was written with, which is what messages show. Its meaning is the list of
its parts: repeated slashes, a final slash and inner `.` parts carry none.
-/

namespace RosInterface

/-- One step of a path. -/
inductive PathPart where
  /-- The leading slash of an absolute path. -/
  | root
  /-- A leading `.`. -/
  | here
  /-- The directory above. -/
  | parent
  /-- An entry of the directory reached so far. -/
  | name (text : String)
deriving DecidableEq, Repr

/-- A place in a file tree, as it is written. -/
structure Path where
  text : String
deriving DecidableEq, Repr, Inhabited

namespace PathPart

/-- The part that a piece between slashes stands for, if it stands for any. -/
def ofPiece (piece : List Char) : Option PathPart :=
  match piece with
  | [] => none
  | ['.'] => none
  | ['.', '.'] => some parent
  | _ => some (name (String.ofList piece))

/-- The place of the kinds of part in their order. -/
def rank : PathPart → Nat
  | root => 0
  | here => 1
  | parent => 2
  | name _ => 3

/-- Kinds of part are ordered as they are declared, names by code point. -/
def compare : PathPart → PathPart → Ordering
  | name a, name b => Ord.compare a b
  | a, b => Ord.compare a.rank b.rank

end PathPart

namespace Path

/-- Whether a path starts at the root. -/
def isAbsolute (path : Path) : Bool :=
  path.text.toList.head? == some '/'

/-- The parts of a path in order. -/
def parts (path : Path) : List PathPart :=
  let pieces := Text.pieces (· == '/') path.text.toList
  if path.isAbsolute then .root :: pieces.filterMap PathPart.ofPiece
  else
    match pieces with
    | ['.'] :: rest => .here :: rest.filterMap PathPart.ofPiece
    | _ => pieces.filterMap PathPart.ofPiece

/-- The path of `path` as seen from `base`. An absolute path stays as it is. -/
def join (base : Path) (path : String) : Path :=
  if (Path.mk path).isAbsolute then ⟨path⟩
  else if base.text = "" || base.text.toList.getLast? = some '/' then ⟨base.text ++ path⟩
  else ⟨base.text ++ "/" ++ path⟩

/-- The name in the last part; a path that ends in the root or above has none. -/
def fileName? (path : Path) : Option String :=
  match path.parts.getLast? with
  | some (.name text) => some text
  | _ => none

/-- Splits a file name at its last dot. A name whose only dot comes first has no extension. -/
def splitName (name : List Char) : List Char × Option (List Char) :=
  match Text.cutAt (· == '.') name.reverse with
  | none => (name, none)
  | some (_, []) => (name, none)
  | some (extension, stem) => (stem.reverse, some extension.reverse)

/-- The file name without its extension. -/
def stem? (path : Path) : Option String :=
  path.fileName?.map fun name => String.ofList (splitName name.toList).1

/-- The part of the file name behind its last dot. -/
def extension? (path : Path) : Option String :=
  path.fileName?.bind fun name => (splitName name.toList).2.map String.ofList

/-- Compares two lists of parts, the first difference deciding. -/
def compareParts : List PathPart → List PathPart → Ordering
  | [], [] => .eq
  | [], _ => .lt
  | _, [] => .gt
  | a :: as, b :: bs => (a.compare b).then (compareParts as bs)

/-- Paths are ordered part by part, so that a directory comes right before what is in it. -/
def le (a b : Path) : Bool :=
  (compareParts a.parts b.parts).isLE

end Path

/-! ## Search paths -/

/-- The paths of a colon-separated list, without blank entries. -/
def splitSearchPath (value : String) : List Path :=
  ((Text.pieces (· == ':') value.toList).map Text.trim).filterMap fun piece =>
    if piece.isEmpty then none else some ⟨String.ofList piece⟩

end RosInterface
