import RosInterface.Path

/-! # File trees

A tree of directories, files and symbolic links, with a working directory. A *location* is the list
of names that leads from the root to an entry without passing through a link; paths are turned into
locations elsewhere.
-/

namespace RosInterface

/-- What a name in a directory stands for. -/
inductive Entry where
  | file (content : ByteArray)
  | link (target : String)
  | directory (entries : List (String × Entry))

/-- The names from the root to an entry. -/
abbrev Location :=
  List String

namespace Entry

instance : Inhabited Entry :=
  ⟨directory []⟩

/-- The entries of a directory; anything else has none. -/
def entries : Entry → List (String × Entry)
  | directory entries => entries
  | _ => []

/-- Whether an entry is a directory itself, and not a link to one. -/
def isDirectory : Entry → Bool
  | directory _ => true
  | _ => false

/-- Replaces the entry of a name, or adds one at the end. -/
def putName (name : String) (entry : Entry) : List (String × Entry) → List (String × Entry)
  | [] => [(name, entry)]
  | (other, old) :: rest =>
    if other = name then (name, entry) :: rest else (other, old) :: putName name entry rest

/-- The entry at a location below this one. -/
def get? (entry : Entry) : Location → Option Entry
  | [] => some entry
  | name :: rest => (entry.entries.lookup name).bind (get? · rest)

/-- Puts an entry at a location below this one. The directories on the way are expected to exist. -/
def put (new : Entry) (entry : Entry) : Location → Entry
  | [] => new
  | name :: rest =>
    let old := (entry.entries.lookup name).getD (directory [])
    directory (putName name (put new old rest) entry.entries)

/-- Removes the entry at a location below this one. -/
def erase (entry : Entry) : Location → Entry
  | [] => entry
  | [name] => directory (entry.entries.filter (·.1 != name))
  | name :: rest =>
    match entry.entries.lookup name with
    | some old => directory (putName name (erase old rest) entry.entries)
    | none => entry

end Entry

/-- Everything that can be reached by a path. -/
structure FileTree where
  root : Entry := .directory []
  workingDirectory : Location := []
deriving Inhabited

namespace FileTree

/-- The entry at a location. -/
def get? (tree : FileTree) (location : Location) : Option Entry :=
  tree.root.get? location

/-- Puts an entry at a location. -/
def put (tree : FileTree) (location : Location) (entry : Entry) : FileTree :=
  { tree with root := Entry.put entry tree.root location }

/-- Removes the entry at a location with everything below it. -/
def erase (tree : FileTree) (location : Location) : FileTree :=
  { tree with root := tree.root.erase location }

end FileTree

/-! ## Failures -/

/-- Why an operation on files failed. -/
inductive FileError where
  | notFound
  | alreadyExists
  | notDirectory
  | isDirectory
  | invalidArgument
  | nameTooLong
  | notEmpty
  | tooManyLinks
  /-- A path contains the character that ends texts in system calls. -/
  | nulInPath
  /-- The content of a file is not UTF-8. -/
  | notText
  /-- Any other failure, in the words of whoever reports it. -/
  | other (reason : String)
deriving DecidableEq, Repr

/-- The wording of a failure, which is the operating system's where it reports the failure. -/
def FileError.reason : FileError → String
  | notFound => "No such file or directory (os error 2)"
  | alreadyExists => "File exists (os error 17)"
  | notDirectory => "Not a directory (os error 20)"
  | isDirectory => "Is a directory (os error 21)"
  | invalidArgument => "Invalid argument (os error 22)"
  | nameTooLong => "File name too long (os error 36)"
  | notEmpty => "Directory not empty (os error 39)"
  | tooManyLinks => "Too many levels of symbolic links (os error 40)"
  | nulInPath => "file name contained an unexpected NUL byte"
  | notText => "stream did not contain valid UTF-8"
  | other reason => reason

/-- How a failure is worded inside other errors. -/
def FileError.message (error : FileError) : String :=
  "I/O error: " ++ error.reason

end RosInterface
