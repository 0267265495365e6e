import RosInterface.FileTree.Basic

/-! # From paths to locations

A path is followed step by step. Every step but the last has to arrive at a directory, links are
replaced by what they point to, and only so many links are followed for one path.
-/

namespace RosInterface.FileTree

/-- A step of a path, as the tree is walked. -/
inductive Segment where
  | stay
  | up
  | enter (name : String)
  /-- No step, but a slash that asks for a directory in front of it. -/
  | slash
deriving DecidableEq, Repr

/-- The step that a piece between slashes stands for. -/
def Segment.ofPiece (piece : List Char) : Segment :=
  match piece with
  | [] => slash
  | ['.'] => stay
  | ['.', '.'] => up
  | _ => enter (String.ofList piece)

/-- The steps of a text. -/
def segments (text : String) : List Segment :=
  (Text.pieces (· == '/') text.toList).map Segment.ofPiece

/-- The number of bytes that a name may have. -/
def nameLimit : Nat :=
  255

/-- The number of bytes that the text of a path stays below. -/
def pathLimit : Nat :=
  4096

/-- The number of links that are followed for one path. -/
def linkLimit : Nat :=
  40

/-- How far a walk gets without following a link. -/
inductive Walk where
  /-- At an entry. -/
  | arrived (location : Location)
  /-- In front of a name that the last directory of the path does not have. -/
  | missing (location : Location)
  /-- At a link in a directory, with steps left to take behind it. -/
  | linked (directory : Location) (target : String) (rest : List Segment)
  | failed (error : FileError)

/-- What a path is followed for. -/
inductive Aim where
  /-- For what has its name, be it a link. -/
  | itself
  /-- For what is there when every link is followed. -/
  | target
  /-- For a file to be written, which may have to be created. -/
  | writing
deriving DecidableEq, Repr

/-- Whether nothing but slashes follows a name. -/
def isSlashed (rest : List Segment) : Bool :=
  !rest.isEmpty && rest.all (· == .slash)

/-- Walks from a location. A name with a slash behind it is no name for a file to be written, whether
there is anything of that name or not. -/
def walk (tree : FileTree) (aim : Aim) (location : Location) : List Segment → Walk
  | [] => .arrived location
  | segment :: rest =>
    match tree.get? location with
    | some (.directory entries) =>
      match segment with
      | .stay | .slash => walk tree aim location rest
      | .up => walk tree aim location.dropLast rest
      | .enter name =>
        if aim = .writing && isSlashed rest then .failed .isDirectory
        else if nameLimit < name.utf8ByteSize then .failed .nameTooLong
        else
          match entries.lookup name with
          | none => if rest.isEmpty then .missing (location ++ [name]) else .failed .notFound
          | some (.link target) =>
            if rest.isEmpty && aim = .itself then .arrived (location ++ [name])
            else .linked location target rest
          | some _ => walk tree aim (location ++ [name]) rest
    | _ => .failed .notDirectory

/-- Where a text starts to be followed, seen from a directory. -/
def origin (directory : Location) (text : String) : Location :=
  if (Path.mk text).isAbsolute then [] else directory

/-- The end of a path: a location, and the entry there if there is one. -/
structure Place where
  location : Location
  entry : Option Entry

/-- Walks on behind links until the limit is reached. -/
def walkLinks (tree : FileTree) (aim : Aim) :
    Nat → Location → List Segment → Except FileError Place
  | limit, location, steps =>
    match walk tree aim location steps with
    | .arrived place => .ok ⟨place, tree.get? place⟩
    | .missing place => .ok ⟨place, none⟩
    | .failed error => .error error
    | .linked directory target rest =>
      match limit with
      | 0 => .error .tooManyLinks
      | limit + 1 =>
        walkLinks tree aim limit (origin directory target) (segments target ++ rest)

/-- Accepts the texts that can be followed at all. -/
def checkText (text : String) : Except FileError Unit :=
  if text.toList.contains '\x00' then .error .nulInPath
  else if text = "" then .error .notFound
  else if pathLimit ≤ text.utf8ByteSize then .error .nameTooLong
  else .ok ()

/-- Follows a text that is read as a path from the working directory. -/
def locate (tree : FileTree) (aim : Aim) (text : String) : Except FileError Place := do
  checkText text
  walkLinks tree aim linkLimit (origin tree.workingDirectory text) (segments text)

/-- Follows a path to its end. -/
def resolve (tree : FileTree) (path : Path) : Except FileError Place :=
  tree.locate .target path.text

/-- The entry that a path leads to. -/
def entry? (tree : FileTree) (path : Path) : Option Entry :=
  match tree.resolve path with
  | .ok place => place.entry
  | .error _ => none

/-- Whether a path leads to a file. -/
def isFile (tree : FileTree) (path : Path) : Bool :=
  match tree.entry? path with
  | some (.file _) => true
  | _ => false

/-- Whether a path leads to a directory. -/
def isDirectory (tree : FileTree) (path : Path) : Bool :=
  match tree.entry? path with
  | some (.directory _) => true
  | _ => false

/-- The path of a location. -/
def pathOf (location : Location) : Path :=
  ⟨"/" ++ "/".intercalate location⟩

end RosInterface.FileTree
