import RosInterface.FileTree.Resolve

/-! # Reading and changing file trees

Reading is a function of the tree. A change is an action that may fail; what it did before it
failed stays done.
-/

namespace RosInterface.FileTree

/-! ## Reading -/

/-- The entries of the directory that a path leads to. -/
def list (tree : FileTree) (path : Path) : Except FileError (List (String × Entry)) := do
  match (← tree.resolve path).entry with
  | some (.directory entries) => pure entries
  | some _ => throw .notDirectory
  | none => throw .notFound

/-- The bytes of the file that a path leads to. -/
def readBytes (tree : FileTree) (path : Path) : Except FileError ByteArray := do
  match (← tree.resolve path).entry with
  | some (.file content) => pure content
  | some _ => throw .isDirectory
  | none => throw .notFound

/-- The text of the file that a path leads to. -/
def readText (tree : FileTree) (path : Path) : Except FileError String := do
  match String.fromUTF8? (← tree.readBytes path) with
  | some text => pure text
  | none => throw .notText

/-- The path of the same place without links, dots and repeated slashes, which links can make too
long to be followed. -/
def canonical (tree : FileTree) (path : Path) : Except FileError Path := do
  let place ← tree.resolve path
  let path := pathOf place.location
  match place.entry with
  | some _ => if path.text.utf8ByteSize < pathLimit then pure path else throw .nameTooLong
  | none => throw .notFound

/-! ## Changing -/

/-- A change of a file tree that may fail. -/
abbrev Action :=
  ExceptT FileError (StateM FileTree)

/-- Reads from the current tree. -/
def reading {α : Type} (read : FileTree → Except FileError α) : Action α := do
  ExceptT.mk (pure (read (← get)))

/-- A text without the slashes at its end, which matter for no new directory. -/
def dropSlashes (text : String) : String :=
  match Text.dropEnd (· == '/') text.toList with
  | [] => text
  | kept => String.ofList kept

/-- Creates one directory in a directory that exists. -/
def makeDirectory (path : Path) : Action Unit := do
  reading fun _ => checkText path.text
  let place ← reading fun tree => tree.locate .itself (dropSlashes path.text)
  match place.entry with
  | some _ => throw .alreadyExists
  | none => modify (·.put place.location (.directory []))

/-- The text of a path by its parts. -/
def textOfParts (parts : List PathPart) : String :=
  let pieces := parts.filterMap fun
    | .root => none
    | .here => some "."
    | .parent => some ".."
    | .name text => some text
  let relative := "/".intercalate pieces
  if parts.head? = some .root then "/" ++ relative else relative

/-- Accepts the failure to create a directory if there is one already. -/
def unlessDirectory (path : Path) (error : FileError) : Action Unit := do
  if (← get).isDirectory path then pure () else throw error

/-- Runs an action and hands its failure on as a value. -/
def attempt {α : Type} (action : Action α) : Action (Except FileError α) :=
  ExceptT.mk (Except.ok <$> action.run)

/-- Creates the directory of a path with `depth` parts and, where it cannot be created for lack of
its parent, the parents before it. -/
def makeDirectoriesWithin : Nat → Path → Action Unit
  | 0, _ => pure ()
  | depth + 1, path => do
    match ← attempt (makeDirectory path) with
    | .ok () => pure ()
    | .error .notFound =>
      makeDirectoriesWithin depth ⟨textOfParts (path.parts.take depth)⟩
      tryCatch (makeDirectory path) (unlessDirectory path)
    | .error error => unlessDirectory path error

/-- Creates a directory and its missing parents. The empty path stands for the working directory,
which exists. -/
def makeDirectories (path : Path) : Action Unit :=
  makeDirectoriesWithin path.parts.length path

/-- Writes a file, which is created or replaced. -/
def writeBytes (path : Path) (content : ByteArray) : Action Unit := do
  let place ← reading (·.locate .writing path.text)
  match place.entry with
  | some (.directory _) => throw .isDirectory
  | _ => modify (·.put place.location (.file content))

/-- Writes a text to a file. -/
def writeText (path : Path) (text : String) : Action Unit :=
  writeBytes path text.toUTF8

/-- Copies the content of a file. The target is emptied before the content is taken, so a file that
is copied to itself ends up empty. -/
def copyFile (source target : Path) : Action Unit := do
  let _ ← reading (·.readBytes source)
  writeBytes target .empty
  writeBytes target (← reading (·.readBytes source))

/-- Creates a link. -/
def makeLink (path : Path) (target : String) : Action Unit := do
  reading fun _ => checkText target
  let place ← reading fun tree => tree.locate .itself path.text
  match place.entry with
  | some _ => throw .alreadyExists
  | none => modify (·.put place.location (.link target))

/-- Removes an empty directory, which has to be named itself: not by dots, and not by a link to
it. -/
def removeDirectory (path : Path) : Action Unit := do
  let text := dropSlashes path.text
  let place ← reading fun tree => tree.locate .itself text
  match (segments text).getLast?, place.entry with
  | some (.enter _), some (.directory []) => modify (·.erase place.location)
  | some (.enter _), some (.directory _) => throw .notEmpty
  | some (.enter _), some _ => throw .notDirectory
  | some .up, some _ => throw .notEmpty
  | _, some _ => throw .invalidArgument
  | _, none => throw .notFound

/-- Removes an entry with everything below it. A link is removed itself. A directory that cannot be
removed under its name is left empty; it is no failure if emptying it made the name meaningless. -/
def remove (path : Path) : Action Unit := do
  let place ← reading fun tree => tree.locate .itself path.text
  match place.entry with
  | some (.directory _) =>
    modify (·.put place.location (.directory []))
    tryCatch (removeDirectory path) fun error =>
      if error = .notFound then pure () else throw error
  | some _ => modify (·.erase place.location)
  | none => throw .notFound

end RosInterface.FileTree
