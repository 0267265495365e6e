import RosInterface.Proofs.FileTree.Joined
import RosInterface.Proofs.Generation.Containment

namespace RosInterface

/-! # Staged files

The hidden directory of a run is new, and no link ever gets into it. So where the files of a package
are staged is told by the texts alone, unless its name and version lead out of the hidden directory:

* `RunDirectories.IsAt` says where the hidden directory is, and holds of every tree that has grown
  since the directory was created;
* `IsAt.location_own` and `IsAt.location_file` give the locations of a package's staging directory
  and of the files in it;
* `IsAt.apart` says that other files of a run are not at the location of a flattened definition,
  unless they are flattened definitions of types with the same name, staged in the same place.
-/

namespace FileTree

/-- Whether the path is that of a link. -/
def isLink (tree : FileTree) (path : Path) : Bool :=
  match tree.locate .itself path.text with
  | .ok ⟨_, some (.link _)⟩ => true
  | _ => false

/-- The path is that of a link, and leads to what is in the directory at the location. -/
def LinksInto (tree : FileTree) (path : Path) (location : Location) : Prop :=
  tree.isLink path = true ∧ ∃ place, tree.resolve path = .ok place ∧ location <+: place.location

theorem Grows.linkFree {tree after : FileTree} (h : Grows tree after) {base : Location}
    (hfree : tree.LinkFree base) : after.LinkFree base :=
  fun below target hlink => hfree below target (h.links _ target hlink)

/-- Nothing is below an empty directory. -/
theorem linkFree_of_empty {tree : FileTree} {base : Location}
    (hempty : tree.get? base = some (.directory [])) : tree.LinkFree base := by
  intro below target hlink
  cases below with
  | nil =>
    rw [List.append_nil] at hlink
    cases hempty.symm.trans hlink
  | cons name rest =>
    rcases exists_directory_of_get?_cons hlink with ⟨entries, child, hbase, hlookup, -⟩
    cases hempty.symm.trans hbase
    cases hlookup

/-- A path that ends with a name leads somewhere. -/
theorem EndsWithName.moves_ne_nil {path : Path} (h : EndsWithName path) : path.moves ≠ [] := by
  rcases h.last with ⟨name, hlast⟩
  rw [segments, List.getLast?_map, Option.map_eq_some_iff] at hlast
  rcases hlast with ⟨piece, hpiece, hentered⟩
  rcases ofPiece_cases piece with ⟨hstep, -⟩ | ⟨hstep, -⟩ | ⟨other, -, hpart⟩
  · rw [hentered] at hstep
    simp at hstep
  · rw [hentered] at hstep
    cases hstep
  · have hmem : .name other ∈ (Text.pieces (· == '/') path.text.toList).filterMap
        PathPart.ofPiece := List.mem_filterMap.mpr ⟨piece, List.mem_of_getLast? hpiece, hpart⟩
    rw [Path.moves_eq]
    exact List.ne_nil_of_mem (List.mem_append_right _ hmem)

end FileTree

open FileTree

namespace RunDirectories

/-! ## Places in the hidden directory -/

/-- The way from the hidden directory of a run to where a package is generated. -/
def placeOf (package : PackageInfo) : List PathPart :=
  (Path.mk (packageName package)).resolved

/-- The name and the version of a package do not lead out of the hidden directory. -/
def StaysInside (package : PackageInfo) : Prop :=
  ∃ depth, Path.depthFrom 0 (packageName package) = some depth

/-- The names on the way to a package are those that its text comes to. -/
theorem StaysInside.exists_names {package : PackageInfo} (h : StaysInside package) :
    ∃ names : List String, placeOf package = names.map .name := by
  rcases h with ⟨depth, hdepth⟩
  rcases @Path.foldl_advance_of_descend _ _ _ hdepth [] [] rfl with ⟨names, -, hnames⟩
  exact ⟨names, hnames⟩

/-- Without slashes, the name and the version make up a single name. -/
theorem placeOf_of_slashless {package : PackageInfo} (hname : '/' ∉ package.name.toList)
    (hversion : '/' ∉ package.version.toList) :
    StaysInside package ∧ placeOf package = [.name (packageName package)] := by
  have hplain := isPlain_packageName hname hversion
  have hresolved := @Path.resolved_join "" _ [] hplain rfl
  have hjoin : (Path.mk "").join (packageName package) = ⟨packageName package⟩ := by
    rw [Path.join_eq (Path.isAbsolute_of_slashless hplain.1)]
    exact congrArg Path.mk String.empty_append
  rw [hjoin] at hresolved
  exact ⟨⟨1, hplain.depthFrom 0⟩, hresolved⟩

theorem packageName_ne_empty (package : PackageInfo) : packageName package ≠ "" := by
  intro hnone
  have hnil := congrArg String.toList hnone
  simp [packageName] at hnil

/-! ## The hidden directory -/

/-- The hidden directory of a run is at the location, and no link is below it. -/
structure IsAt (directories : RunDirectories) (tree : FileTree) (hidden : Location) : Prop where
  named : EndsWithName directories.staging
  resolved : ∃ entries, tree.resolve directories.staging = .ok ⟨hidden, some (.directory entries)⟩
  free : tree.LinkFree hidden

variable {directories : RunDirectories} {tree after : FileTree} {hidden : Location}

theorem exists_isAt_of_create {output : Path}
    (hcreate : (create output).run tree = (.ok directories, after)) :
    ∃ hidden, directories.IsAt after hidden := by
  have hnamed := staging_endsWithName hcreate
  unfold create at hcreate
  rcases run_bind_eq_ok hcreate with ⟨-, _, -, hcreate⟩
  rcases run_bind_eq_ok hcreate with ⟨entries, _, -, hcreate⟩
  rcases run_bind_eq_ok hcreate with ⟨_, _, hmade, hcreate⟩
  cases hcreate
  rcases resolve_of_makeDirectory hmade with ⟨hidden, -, -, hresolve⟩
  exact ⟨hidden, hnamed, ⟨[], hresolve⟩, linkFree_of_empty (get?_of_locate hresolve)⟩

theorem IsAt.grows (h : directories.IsAt tree hidden) (hgrows : Grows tree after) :
    directories.IsAt after hidden := by
  rcases h.resolved with ⟨entries, hresolve⟩
  exact ⟨h.named, hgrows.within.resolve_directory hresolve, hgrows.linkFree h.free⟩

variable {package : PackageInfo} {names : List String}

/-- The staging directory of a package is at its place in the hidden directory. -/
theorem IsAt.location_own (h : directories.IsAt tree hidden) (hstays : StaysInside package)
    (hnames : placeOf package = names.map .name) {place : Place}
    (hends : tree.resolve (directories.own package).staging = .ok place) :
    place.location = hidden ++ names := by
  rcases h.resolved with ⟨entries, hresolve⟩
  rcases hstays with ⟨depth, hdepth⟩
  exact resolve_join h.named hresolve h.free hdepth hends hnames

/-- The files of a package are right in its staging directory. -/
theorem IsAt.location_file (h : directories.IsAt tree hidden) (hstays : StaysInside package)
    (hnames : placeOf package = names.map .name) {file : String} (hfile : Path.IsPlain file)
    {place : Place} (hends : tree.resolve ((directories.own package).staging.join file) = .ok place) :
    place.location = hidden ++ (names ++ [file]) := by
  rcases h.resolved with ⟨entries, hresolve⟩
  rcases hstays with ⟨depth, hdepth⟩
  have hrelative := Path.isAbsolute_eq_false_of_depthFrom hdepth
  have hslashless := Path.isAbsolute_of_slashless hfile.1
  have hjoined : Path.depthFrom 0 ((Path.mk (packageName package)).join file).text =
      some (depth + 1) := by
    have hmoves := Path.moves_join hslashless ⟨packageName package⟩
    rw [Path.depthFrom, hmoves, Path.descend_append]
    rw [Path.depthFrom] at hdepth
    rw [hdepth]
    exact hfile.depthFrom depth
  rw [own, Path.join_join hrelative hslashless (packageName_ne_empty package)] at hends
  exact resolve_join h.named hresolve h.free hjoined hends (Path.resolved_join hfile hnames)

/-- A staging directory that was created is there. -/
theorem isDirectory_own {made : PackageDirectories} (hnamed : EndsWithName directories.staging)
    (hstays : StaysInside package)
    (hmade : (directories.forPackage package).run tree = (.ok made, after)) :
    after.isDirectory (directories.own package).staging = true := by
  rcases hstays with ⟨depth, hdepth⟩
  rcases run_bind_eq_ok hmade with ⟨_, between, hcreated, hlast⟩
  cases hlast
  refine isDirectory_of_makeDirectories ?_ hcreated
  intro hnone
  have hmoves := Path.moves_join (Path.isAbsolute_eq_false_of_depthFrom hdepth) directories.staging
  have hparts : (directories.staging.join (packageName package)).parts = [] := hnone
  rw [Path.moves, hparts] at hmoves
  exact hnamed.moves_ne_nil (List.append_eq_nil_iff.mp hmoves.symm).1

end RunDirectories

/-! ## Files of a package -/

namespace DescriptorFile

variable {layout : Json.Layout} {document : PackageDocument} {own : PackageDirectories}
  {tree after : FileTree}

/-- The path of the descriptor is what writing the files of a package gives. -/
theorem artifact_of_write {artifact : Path}
    (hwrite : (write layout document own).run tree = (.ok artifact, after)) :
    artifact = target document own := by
  rw [write_eq] at hwrite
  rcases run_bind_eq_ok hwrite with ⟨-, _, -, hfinish⟩
  unfold finish at hfinish
  rcases run_bind_eq_ok hfinish with ⟨-, _, -, hfinish⟩
  rcases run_bind_eq_ok hfinish with ⟨-, _, -, hfinish⟩
  rcases run_bind_eq_ok hfinish with ⟨-, _, -, hfinish⟩
  cases hfinish
  rfl

/-- Each flattened definition is written, and after it the remaining files are. -/
theorem exists_writeDefinition_of_write {artifact : Path} {front back : List MessageData}
    {message : MessageData} (hsplit : document.messages = front ++ message :: back)
    (hwrite : (write layout document own).run tree = (.ok artifact, after)) :
    ∃ before written, (writeDefinition own message).run before = (.ok (), written) ∧
      Relation.ReflTransGen (Change (createdDirectories document own)
        (back.map (fun later => own.staging.join (definitionName later)) ++
          [own.staging.join (fileName document), target document own])) written after := by
  rw [write_eq, hsplit, List.forM_eq_forM, List.forM_append, List.forM_cons, bind_assoc,
    bind_assoc] at hwrite
  rcases run_bind_eq_ok hwrite with ⟨-, before, -, hwrite⟩
  rcases run_bind_eq_ok hwrite with ⟨_, written, hmessage, hrest⟩
  have hchanges := writeDefinitions_confined layout document own back written
  rw [List.forM_eq_forM, hrest] at hchanges
  exact ⟨before, written, hmessage, hchanges⟩

/-- Descriptors and flattened definitions have different extensions. -/
theorem fileName_ne_definition (type : String) : fileName document ≠ type ++ ".msgdef" := by
  intro hsame
  have hlast := congrArg (fun name => name.toList.getLast?) hsame
  simp [fileName] at hlast

theorem rosTypeName_of_definitionName {message : MessageData} {type : String}
    (hname : definitionName message = type ++ ".msgdef") : message.rosTypeName = type := by
  have hlists := congrArg String.toList hname
  rw [definitionName, String.toList_append, String.toList_append] at hlists
  exact String.toList_inj.mp (List.append_cancel_right hlists)

end DescriptorFile

namespace RunDirectories

open DescriptorFile

variable {directories : RunDirectories} {last : FileTree} {hidden : Location}
  {package : PackageInfo} {names : List String}

/-- A flattened definition that was written is at its place, and its path leads there for good. -/
theorem IsAt.resolve_written (h : directories.IsAt last hidden) (hstays : StaysInside package)
    (hnames : placeOf package = names.map .name) {message : MessageData}
    (hplain : Path.IsPlain (definitionName message)) {before written : FileTree}
    (hwrite : (writeDefinition (directories.own package) message).run before = (.ok (), written))
    (hlast : Within written last) :
    written.get? (hidden ++ (names ++ [definitionName message])) =
        some (.file message.definition.toUTF8) ∧
      ∃ content, last.resolve ((directories.own package).staging.join (definitionName message)) =
        .ok ⟨hidden ++ (names ++ [definitionName message]), some (.file content)⟩ := by
  rcases exists_location_of_writeBytes hwrite with ⟨location, found, hplace, haccepts, rfl⟩
  rcases Within.resolve_written hplace haccepts hlast with ⟨content, hresolve⟩
  obtain rfl := h.location_file hstays hnames hplain hresolve
  exact ⟨Entry.get?_put _ _ _, content, hresolve⟩

/-- Unless they are definitions of types with the same name in the same place, the files of a
package are elsewhere. -/
theorem IsAt.apart (h : directories.IsAt last hidden) {document : PackageDocument}
    (hname : document.package.rosName = package.name) (hslash : '/' ∉ package.name.toList)
    (hstays : StaysInside package)
    (hlinks : ¬ last.LinksInto (target document (directories.own package)) hidden)
    {messages : List MessageData} (hslashless : ∀ member ∈ messages, '/' ∉ member.rosTypeName.toList)
    {type : String}
    (hother : placeOf package = names.map .name → ∀ member ∈ messages, member.rosTypeName ≠ type) :
    ∀ path ∈ messages.map
        (fun member => (directories.own package).staging.join (definitionName member)) ++
      [(directories.own package).staging.join (fileName document),
        target document (directories.own package)],
    ∀ place, last.resolve path = .ok place →
      place.location ≠ hidden ++ (names ++ [type ++ ".msgdef"]) := by
  rcases hstays.exists_names with ⟨others, hothers⟩
  have hletter : 'j' ∈ ".json".toList := by decide
  have hfile : Path.IsPlain (fileName document) := by
    rw [fileName, hname]
    exact Path.isPlain_append hslash (by decide) hletter (by decide)
  -- In the hidden directory, both the place and the name of the file would be the same.
  have hinside : ∀ {file : String} {place : Place}, Path.IsPlain file →
      last.resolve ((directories.own package).staging.join file) = .ok place →
      place.location = hidden ++ (names ++ [type ++ ".msgdef"]) →
        others = names ∧ file = type ++ ".msgdef" := by
    intro file place hplain hends hsame
    rw [h.location_file hstays hothers hplain hends] at hsame
    exact List.append_singleton_inj.mp (List.append_cancel_left hsame)
  intro path hpath place hends hsame
  rw [List.mem_append, List.mem_pair] at hpath
  rcases hpath with hdefinition | rfl | rfl
  · rcases List.mem_map.mp hdefinition with ⟨member, hmember, rfl⟩
    have hplain := isPlain_definitionName_of_slashless (hslashless member hmember)
    obtain ⟨rfl, hdefinition⟩ := hinside hplain hends hsame
    exact hother hothers member hmember (rosTypeName_of_definitionName hdefinition)
  · exact fileName_ne_definition type (hinside hfile hends hsame).2
  · rcases resolve_last (isName_of_isPlain hfile) hends with hlast | ⟨linked, linkTarget, hlink⟩
    · rw [hsame, ← List.append_assoc, List.getLast?_concat] at hlast
      exact fileName_ne_definition type (Option.some.inj hlast).symm
    · have hitself : last.isLink (target document (directories.own package)) = true := by
        rw [isLink, target, hlink]
      exact hlinks ⟨hitself, place, hends, hsame ▸ List.prefix_append _ _⟩

end RunDirectories

end RosInterface
