import RosInterface.Package.Info

/-! # Discovery of packages

Package folders are looked for below search roots. A folder with a manifest is a package, and
nothing is looked for inside it; links to directories are not followed.
-/

namespace RosInterface

namespace PackageFolder

/-- Whether a directory has a manifest. -/
def isPackage (tree : FileTree) (path : Path) : Bool :=
  tree.isFile (path.join Manifest.fileName)

/-- The canonical path of a directory. -/
def canonicalDirectory (tree : FileTree) (path : Path) : Except PackageError Path :=
  if tree.isDirectory path then (tree.canonical path).mapError .file
  else .error (.directoryNotFound path.text)

/-- The folder at a path, which has to be a package folder itself. -/
def ofPath (tree : FileTree) (path : Path) (strategy : BuildStrategy) :
    Except PackageError PackageFolder := do
  let path ← canonicalDirectory tree path
  if isPackage tree path then pure ⟨path, strategy⟩ else throw (.notAPackageFolder path.text)

/-- The order of groups of results by the directories that they come from. -/
def groupLe (a b : Path × List Path) : Bool :=
  a.1.le b.1

/-- The results of all groups, directory by directory in the order of paths. -/
def inPathOrder (groups : List (Path × List Path)) : List Path :=
  (groups.mergeSort groupLe).flatMap (·.2)

mutual

/-- The package folders at and below a path, given the entry there. A directory without a manifest
has to be listed, which fails where its path has become too long. -/
def pathsAt (tree : FileTree) (path : Path) : Entry → Except FileError (List Path)
  | .directory entries =>
    if isPackage tree path then .ok [path]
    else do
      let _ ← tree.list path
      inPathOrder <$> groupsIn tree path entries
  | _ => .ok []

/-- The package folders at and below each of the entries of a directory. -/
def groupsIn (tree : FileTree) (path : Path) :
    List (String × Entry) → Except FileError (List (Path × List Path))
  | [] => .ok []
  | (name, entry) :: others => do
    let found ← pathsAt tree (path.join name) entry
    let groups ← groupsIn tree path others
    pure ((path.join name, found) :: groups)

end

/-- The package folders at and below a search root. -/
def find (tree : FileTree) (root : Path) (strategy : BuildStrategy) :
    Except PackageError (List PackageFolder) := do
  let root ← canonicalDirectory tree root
  match tree.entry? root with
  | some entry =>
    let paths ← (pathsAt tree root entry).mapError .file
    pure (paths.map (⟨·, strategy⟩))
  | none => pure []

end PackageFolder

/-! ## Reading many folders -/

namespace PackageInfo

/-- The packages in some folders. What cannot be read is an error in a mandatory folder and left out
in an optional one; of several packages with one name the first counts. `seen` holds the names of
the packages read before. -/
def ofFoldersAfter (tree : FileTree) (seen : List String) :
    List PackageFolder → Except PackageError (List PackageInfo)
  | [] => .ok []
  | folder :: others =>
    match ofFolder tree folder with
    | .error error =>
      if folder.strategy = .optional then ofFoldersAfter tree seen others else .error error
    | .ok package =>
      if seen.contains package.name then ofFoldersAfter tree seen others
      else (ofFoldersAfter tree (package.name :: seen) others).map (package :: ·)

/-- The packages in some folders. -/
def ofFolders (tree : FileTree) (folders : List PackageFolder) :
    Except PackageError (List PackageInfo) :=
  ofFoldersAfter tree [] folders

end PackageInfo

/-! ## Search paths -/

/-- Where packages are looked for: the packages to build, and roots that other packages may come
from. -/
structure SearchPaths where
  packagePath : Path
  dependencyPaths : List Path := []
  /-- The roots that the environment names. -/
  environmentPaths : List Path := []
  ignoreEnvironment : Bool := false
deriving DecidableEq, Repr, Inhabited

namespace SearchPaths

/-- The roots of optional packages in order of precedence. -/
def optionalRoots (paths : SearchPaths) : List Path :=
  paths.dependencyPaths ++ if paths.ignoreEnvironment then [] else paths.environmentPaths

/-- The folders below an optional root, of which there are none where the root cannot be searched. -/
def optionalFolders (tree : FileTree) (root : Path) : List PackageFolder :=
  match PackageFolder.find tree root .optional with
  | .ok folders => folders
  | .error _ => []

/-- All package folders, those of the packages to build first. -/
def folders (paths : SearchPaths) (tree : FileTree) :
    Except PackageError (List PackageFolder) := do
  let mandatory ← PackageFolder.find tree paths.packagePath .mandatory
  pure (mandatory ++ paths.optionalRoots.flatMap (optionalFolders tree))

end SearchPaths

end RosInterface
