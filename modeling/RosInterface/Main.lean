import RosInterface.CommandLine.Program

/-! # Command line

Takes the part of the disk that a run looks at into a file tree, runs the program there, and writes
back what has changed.
-/

namespace RosInterface.Disk

/-! ## Reading -/

/-- A file tree that is being read from disk. -/
abbrev Reading :=
  StateT FileTree IO

/-- The location of an absolute path without links. -/
def location (path : String) : Location :=
  (path.splitOn "/").filter (· != "")

/-- Where a path leads without passing through links, if there is anything. -/
def real? (path : String) : IO (Option String) :=
  tryCatch (return some (← IO.FS.realPath path).toString) fun _ => pure none

/-- Whether a run may ask for the content of a file of this name. -/
def isRead (name : String) : Bool :=
  name == Manifest.fileName || (MessageKind.ofPath? ⟨name⟩).isSome

/-- The content of a file, which stays empty if nobody asks for it. -/
def content (isNeeded : Bool) (path : String) : IO Entry := do
  if isNeeded then return .file (← IO.FS.readBinFile path) else return .file .empty

/-- Makes sure that there is a directory at a location. -/
def keepDirectory (place : Location) : Reading Unit := do
  if ((← get).get? place).isNone then modify (·.put place (.directory []))

/-- Reads the entry at a path without links: below a directory everything if `isDeep` is set, and
files alone otherwise. -/
partial def read (isDeep isNeeded : Bool) (path : String) : Reading Unit := do
  let place := location path
  let file ← IO.FS.realPath path
  match (← file.metadata).type with
  | .file =>
    let entry ← content isNeeded path
    modify (·.put place entry)
  | .dir =>
    keepDirectory place
    for child in ← file.readDir do
      let name := child.fileName
      let inner := path ++ "/" ++ name
      match (← child.path.symlinkMetadata).type with
      | .file =>
        let entry ← content (isRead name) inner
        modify (·.put (place ++ [name]) entry)
      | .dir => if isDeep then read true false inner else keepDirectory (place ++ [name])
      | .symlink =>
        let target ← real? inner
        modify (·.put (place ++ [name]) (.link (target.getD "/dev/null/missing")))
        if isDeep then target.forM (read false (isRead name))
      | .other => pure ()
  | _ => pure ()

/-- Reads the directories and links that a path passes through. -/
partial def readWay (done : String) : List String → Reading Unit
  | [] => pure ()
  | name :: rest => do
    let next := done ++ "/" ++ name
    let some directory ← real? (if done = "" then "/" else done) | return
    let some target ← real? next | return
    let place := location directory ++ [name]
    let isStep := name != "" && name != "." && name != ".."
    if isStep && location target != place then modify (·.put place (.link target))
    if ← (do return (← (← IO.FS.realPath target).metadata).type == .dir) then
      keepDirectory (location target)
    readWay next rest

/-- Reads what is at a path, as far as there is anything. -/
def readPath (path : Path) : Reading Unit := do
  let workingDirectory ← IO.currentDir
  let full := (Path.mk workingDirectory.toString).join path.text
  readWay "" ((full.text.splitOn "/").drop 1)
  match ← real? full.text with
  | some target => read true true target
  | none => pure ()

/-! ## Writing -/

/-- Removes an entry from disk. -/
def remove (path : String) : Entry → IO Unit
  | .directory _ => IO.FS.removeDirAll path
  | _ => IO.FS.removeFile path

/-- Writes an entry that was `old` before, if anything. Links are never changed. -/
partial def write (path : String) (old : Option Entry) : Entry → IO Unit
  | .link _ => pure ()
  | .file content =>
    match old with
    | some (.file before) => if before == content then pure () else IO.FS.writeBinFile path content
    | _ => IO.FS.writeBinFile path content
  | .directory entries => do
    let before := (old.map (·.entries)).getD []
    if old.isNone then IO.FS.createDir path
    for (name, entry) in before do
      if (entries.lookup name).isNone then remove (path ++ "/" ++ name) entry
    for (name, entry) in entries do
      write (path ++ "/" ++ name) (before.lookup name) entry

/-! ## Running -/

/-- Takes what the program looks at into a tree. -/
def load (environment : Option String) (arguments : List String) (tree : FileTree) :
    IO FileTree := do
  let paths := Program.paths tree environment arguments
  return (← (paths.forM readPath).run tree).2

/-- A tree with nothing but the way to the working directory. -/
def workingTree : IO FileTree := do
  let place := location (← IO.currentDir).toString
  return (← (readWay "" place).run ⟨.directory [], place⟩).2

/-- Prints what the program printed. -/
def print (outcome : Program.Outcome) (elapsed : String) : IO Unit := do
  let output ← IO.getStdout
  output.putStr (outcome.stdout elapsed)
  match outcome.diagnostic with
  | some text => IO.eprintln ("error: " ++ text)
  | none => pure ()

/-- Runs the program on the files of the disk. A configuration file has to be read before it is known
which other paths count. -/
def run (arguments : List String) : IO UInt32 := do
  let started ← IO.monoMsNow
  let environment ← IO.getEnv Program.searchPathVariable
  let configured ← load environment arguments (← workingTree)
  let tree ← load environment arguments configured
  let outcome := Program.run tree environment arguments
  write "" (some tree.root) outcome.tree.root
  let elapsed := toString ((← IO.monoMsNow) - started) ++ "ms"
  print outcome elapsed
  return outcome.exitCode.toUInt32

end RosInterface.Disk

/-- The program as a command. -/
def main (arguments : List String) : IO UInt32 :=
  RosInterface.Disk.run arguments
