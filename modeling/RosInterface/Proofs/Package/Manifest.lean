import RosInterface.Package.Manifest
import RosInterface.Proofs.FirstOccurrences
import RosInterface.Proofs.Text.Words

namespace RosInterface

/-! # Manifests as they are written

A manifest states what the children of the root say, and a child says its words. There are several
ways to take one text of many. The first child of a name speaks for all of them where a manifest has
one name, version or description, and does so also if it is blank. Of addresses, blank ones are
passed over. Dependencies and people are all listed, each where it is first named.

`States` says for a manifest as a whole what is taken from where. The main statement,
`ofDocument_exact`, says which documents have a manifest, and that it is the one that states what
they say.
-/

namespace Xml.Node

variable {parent child : Node}

/-! ## What a node says -/

/-- Nothing but blanks stands inside a node, at any depth. -/
def Blank (node : Node) : Prop :=
  Text.AllBlank node.content

instance : DecidablePred Blank :=
  fun node => List.decidableBAll (Text.isBlank · = true) node.content

/-- The words inside a node with one space between neighbours. -/
def normalText (node : Node) : String :=
  String.ofList (Text.normalize node.content)

theorem words?_eq (node : Node) :
    node.words? = if node.Blank then none else some node.normalText := by
  have hblank : node.Blank ↔ Text.normalize node.content = [] := Text.normalize_eq_nil_iff.symm
  rw [words?, normalText]
  cases hwords : Text.normalize node.content with
  | nil => rw [if_pos (hblank.mpr hwords)]
  | cons c rest =>
    rw [if_neg]
    rw [hblank, hwords]
    exact List.cons_ne_nil c rest

theorem words?_eq_some_iff {node : Node} {text : String} :
    node.words? = some text ↔ ¬ node.Blank ∧ node.normalText = text := by
  rw [words?_eq]
  split
  case isTrue hblank => simp [hblank]
  case isFalse hblank => simp [hblank]

/-! ## The first child of a class -/

/-- A node is the first child with a property. -/
def FirstChild (parent : Node) (p : Node → Prop) (child : Node) : Prop :=
  ∃ before after, parent.children = before ++ child :: after ∧ p child ∧ ∀ other ∈ before, ¬ p other

theorem find?_children_eq_some_iff {p : Node → Prop} {test : Node → Bool}
    (htest : ∀ node, test node = true ↔ p node) :
    parent.children.find? test = some child ↔ parent.FirstChild p child := by
  rw [List.find?_eq_some_iff_append, FirstChild]
  simp only [Bool.not_eq_true', ← Bool.not_eq_true, htest]
  constructor
  · rintro ⟨hchild, before, after, hsplit, hbefore⟩
    exact ⟨before, after, hsplit, hchild, hbefore⟩
  · rintro ⟨before, after, hsplit, hchild, hbefore⟩
    exact ⟨hchild, before, after, hsplit, hbefore⟩

/-- The first words that some nodes say are those of the first node that is not blank. -/
theorem findSome?_words? (nodes : List Node) :
    nodes.findSome? words? = (nodes.find? fun node => ¬ node.Blank).map normalText := by
  induction nodes with
  | nil => rfl
  | cons node rest ih =>
    rw [List.findSome?_cons, List.find?_cons, words?_eq]
    by_cases hblank : node.Blank
    · rw [if_pos hblank, decide_eq_false (not_not_intro hblank)]
      exact ih
    · rw [if_neg hblank, decide_eq_true hblank]
      rfl

/-- What is said by some nodes of a class, blank ones left out. -/
theorem filterMap_words? {β : Type} (p : Node → Prop) [DecidablePred p] {test : Node → Bool}
    (htest : ∀ node, test node = true ↔ p node) (f : Node → String → β) (nodes : List Node) :
    (nodes.filter test).filterMap (fun node => node.words?.map (f node)) =
      (nodes.filter fun node => p node ∧ ¬ node.Blank).map fun node => f node node.normalText := by
  induction nodes with
  | nil => rfl
  | cons node rest ih =>
    by_cases hp : p node
    · by_cases hblank : node.Blank
      · simpa [htest, hp, hblank, words?_eq] using ih
      · simpa [htest, hp, hblank, words?_eq] using ih
    · simpa [htest, hp] using ih

end Xml.Node

namespace Manifest

variable {root : Xml.Node} {origin : String} {manifest : Manifest}

/-! ## What a manifest states -/

/-- A text is that of the first child of a name, which is not blank. -/
def Opens (root : Xml.Node) (tag text : String) : Prop :=
  ∃ child, root.FirstChild (·.name? = some tag) child ∧ ¬ child.Blank ∧ child.normalText = text

/-- A node is an address of a kind; addresses that do not tell are those of websites. -/
def IsUrl (kind : String) (node : Xml.Node) : Prop :=
  node.name? = some "url" ∧ (node.attribute? "type" = some kind ∨
    node.attribute? "type" = none ∧ kind = "website")

instance (kind : String) : DecidablePred (IsUrl kind) :=
  fun _ => inferInstanceAs (Decidable (_ ∧ _))

/-- A text is that of the first address of a kind, where blank ones do not count. -/
def Addresses (root : Xml.Node) (kind text : String) : Prop :=
  ∃ child, root.FirstChild (fun node => IsUrl kind node ∧ ¬ node.Blank) child ∧
    child.normalText = text

/-- The children of a name that are not blank, each with its address, stand for people. -/
def peopleIn (root : Xml.Node) (tag : String) : List Person :=
  (root.children.filter fun node => node.name? = some tag ∧ ¬ node.Blank).map fun node =>
    ⟨node.normalText, node.attribute? "email"⟩

/-- The texts of the children that name dependencies, blank ones left out. -/
def dependenciesIn (root : Xml.Node) : List String :=
  (root.children.filter fun node =>
    (∃ tag ∈ dependencyTags, node.name? = some tag) ∧ ¬ node.Blank).map Xml.Node.normalText

/-- The texts of a manifest that stand inside elements. Addresses of people stand in attributes. -/
def elementTexts (manifest : Manifest) : List String :=
  [manifest.name, manifest.version] ++ manifest.description.toList ++
    (manifest.maintainers ++ manifest.authors).map (·.name) ++ manifest.websiteUrl.toList ++
    manifest.repositoryUrl.toList ++ manifest.dependencies

/-- A manifest states what a document says. -/
structure States (root : Xml.Node) (manifest : Manifest) : Prop where
  name : Opens root "name" manifest.name
  version : Opens root "version" manifest.version
  description : ∀ text, manifest.description = some text ↔ Opens root "description" text
  maintainers : manifest.maintainers = peopleIn root "maintainer"
  authors : manifest.authors = peopleIn root "author"
  websiteUrl : ∀ text, manifest.websiteUrl = some text ↔ Addresses root "website" text
  repositoryUrl : ∀ text, manifest.repositoryUrl = some text ↔ Addresses root "repository" text
  dependencies : FirstOccurrences (dependenciesIn root) manifest.dependencies
  /-- Maintainers come before authors. -/
  contributors : FirstOccurrences ((manifest.maintainers ++ manifest.authors).map Person.text)
    manifest.contributors
  isMetaPackage : manifest.isMetaPackage = true ↔ ∃ child ∈ root.children,
    child.name? = some "export" ∧ ∃ node ∈ child.children, node.name? = some "metapackage"
  /-- Words that were put together once stay as they are. -/
  normal : ∀ text ∈ manifest.elementTexts, Text.normalize text.toList = text.toList

/-! ## What is taken from a document -/

theorem childText?_eq_some_iff {tag text : String} :
    childText? root tag = some text ↔ Opens root tag text := by
  rw [childText?, Xml.Node.childrenNamed, List.head?_filter, Option.bind_eq_some_iff]
  refine exists_congr fun child => and_congr ?_ Xml.Node.words?_eq_some_iff
  exact Xml.Node.find?_children_eq_some_iff fun node => beq_iff_eq

/-- An address is of a kind if it says so, or is one of a website and says nothing. -/
theorem isUrl_iff {kind : String} {node : Xml.Node} :
    IsUrl kind node ↔ node.name? = some "url" ∧ urlKind node = kind := by
  refine and_congr_right fun _ => ?_
  rw [urlKind]
  cases node.attribute? "type" with
  | some own => simp
  | none => simp [eq_comm]

theorem url?_eq_some_iff {kind text : String} :
    url? root kind = some text ↔ Addresses root kind text := by
  have hfind : url? root kind =
      (root.children.find? fun node => IsUrl kind node ∧ ¬ node.Blank).map Xml.Node.normalText := by
    rw [url?, Xml.Node.childrenNamed, Xml.Node.findSome?_words?, List.find?_filter,
      List.find?_filter]
    congr 2
    funext node
    simp [isUrl_iff, and_assoc]
  rw [hfind, Option.map_eq_some_iff]
  refine exists_congr fun child => and_congr_left fun _ => ?_
  exact Xml.Node.find?_children_eq_some_iff fun node => decide_eq_true_iff

theorem people_eq (root : Xml.Node) (tag : String) : people root tag = peopleIn root tag :=
  Xml.Node.filterMap_words? (·.name? = some tag) (fun _ => beq_iff_eq)
    (fun node name => Person.mk name (node.attribute? "email")) root.children

theorem isDependency_iff {node : Xml.Node} :
    isDependency node = true ↔ ∃ tag ∈ dependencyTags, node.name? = some tag := by
  rw [isDependency]
  cases node.name? with
  | some name => simp
  | none => simp

theorem firstOccurrences_dependenciesOf (root : Xml.Node) :
    FirstOccurrences (dependenciesIn root) (dependenciesOf root) := by
  have hall := Xml.Node.filterMap_words? (fun node => ∃ tag ∈ dependencyTags, node.name? = some tag)
    (fun _ => isDependency_iff) (fun _ text => text) root.children
  simp only [Option.map_id'] at hall
  rw [dependenciesOf, hall]
  exact firstOccurrences_eraseDups (dependenciesIn root)

theorem isMeta_iff : isMeta root = true ↔ ∃ child ∈ root.children, child.name? = some "export" ∧
    ∃ node ∈ child.children, node.name? = some "metapackage" := by
  simp only [isMeta, Xml.Node.childrenNamed, List.any_filter, List.any_eq_true, Bool.and_eq_true,
    beq_iff_eq, Bool.not_eq_true', List.isEmpty_eq_false_iff_exists_mem, List.mem_filter]

/-- The manifest of a document with a name and a version. -/
def taken (root : Xml.Node) (name version : String) : Manifest where
  name := name
  version := version
  description := childText? root "description"
  maintainers := people root "maintainer"
  authors := people root "author"
  websiteUrl := url? root "website"
  repositoryUrl := url? root "repository"
  dependencies := dependenciesOf root
  isMetaPackage := isMeta root

theorem ofDocument_eq_ok_iff : ofDocument origin root = .ok manifest ↔
    root.name? = some "package" ∧ ∃ name version, childText? root "name" = some name ∧
      childText? root "version" = some version ∧ manifest = taken root name version := by
  unfold ofDocument
  by_cases hroot : root.name? = some "package"
  · have hproper : (root.name? != some "package") = false := by simpa using hroot
    rw [hproper]
    cases childText? root "name" with
    | none =>
      constructor
      · rintro ⟨⟩
      · rintro ⟨-, _, _, ⟨⟩, -⟩
    | some name =>
      cases childText? root "version" with
      | none =>
        constructor
        · rintro ⟨⟩
        · rintro ⟨-, _, _, -, ⟨⟩, -⟩
      | some version =>
        constructor
        · rintro ⟨⟩
          exact ⟨hroot, name, version, rfl, rfl, rfl⟩
        · rintro ⟨-, _, _, ⟨⟩, ⟨⟩, rfl⟩
          rfl
  · have hother : (root.name? != some "package") = true := by simpa using hroot
    rw [hother]
    constructor
    · rintro ⟨⟩
    · rintro ⟨hpackage, -⟩
      exact absurd hpackage hroot

/-- What a node says is in normal form. -/
theorem normalize_normalText (node : Xml.Node) :
    Text.normalize node.normalText.toList = node.normalText.toList := by
  rw [Xml.Node.normalText, String.toList_ofList, Text.normalize_normalize]

theorem Opens.normal {tag text : String} (h : Opens root tag text) :
    Text.normalize text.toList = text.toList := by
  rcases h with ⟨child, -, -, rfl⟩
  exact normalize_normalText child

theorem Addresses.normal {kind text : String} (h : Addresses root kind text) :
    Text.normalize text.toList = text.toList := by
  rcases h with ⟨child, -, rfl⟩
  exact normalize_normalText child

theorem normal_of_mem_peopleIn {tag : String} {person : Person}
    (hperson : person ∈ peopleIn root tag) :
    Text.normalize person.name.toList = person.name.toList := by
  rcases List.mem_map.mp hperson with ⟨child, -, rfl⟩
  exact normalize_normalText child

theorem normal_of_mem_dependenciesIn {text : String} (htext : text ∈ dependenciesIn root) :
    Text.normalize text.toList = text.toList := by
  rcases List.mem_map.mp htext with ⟨child, -, rfl⟩
  exact normalize_normalText child

theorem states_taken {name version : String} (hname : Opens root "name" name)
    (hversion : Opens root "version" version) : States root (taken root name version) := by
  have hmaintainers := people_eq root "maintainer"
  have hauthors := people_eq root "author"
  have hdependencies := firstOccurrences_dependenciesOf root
  refine ⟨hname, hversion, fun _ => childText?_eq_some_iff, hmaintainers, hauthors,
    fun _ => url?_eq_some_iff, fun _ => url?_eq_some_iff, hdependencies,
    firstOccurrences_eraseDups _, isMeta_iff, ?normal⟩
  case normal =>
    -- Whatever field a text is in, some child says it.
    intro text htext
    simp only [elementTexts, taken, List.mem_append, List.mem_cons, List.not_mem_nil, or_false,
      Option.mem_toList, List.mem_map, childText?_eq_some_iff, url?_eq_some_iff] at htext
    rcases htext with (((((rfl | rfl) | hopens) | ⟨person, hperson, rfl⟩) | hurl) | hurl) | hmem
    · exact hname.normal
    · exact hversion.normal
    · exact hopens.normal
    · rw [hmaintainers, hauthors] at hperson
      exact hperson.elim normal_of_mem_peopleIn normal_of_mem_peopleIn
    · exact hurl.normal
    · exact hurl.normal
    · exact normal_of_mem_dependenciesIn ((hdependencies.mem_iff text).mp hmem)

/-- What a manifest states leaves no choice either. -/
theorem States.eq_taken (h : States root manifest) :
    manifest = taken root manifest.name manifest.version := by
  have hdescription : manifest.description = childText? root "description" :=
    Option.ext fun text => (h.description text).trans childText?_eq_some_iff.symm
  have hmaintainers := h.maintainers.trans (people_eq root "maintainer").symm
  have hauthors := h.authors.trans (people_eq root "author").symm
  have hwebsite : manifest.websiteUrl = url? root "website" :=
    Option.ext fun text => (h.websiteUrl text).trans url?_eq_some_iff.symm
  have hrepository : manifest.repositoryUrl = url? root "repository" :=
    Option.ext fun text => (h.repositoryUrl text).trans url?_eq_some_iff.symm
  have hdependencies := h.dependencies.unique (firstOccurrences_dependenciesOf root)
  have hmeta : manifest.isMetaPackage = isMeta root :=
    Bool.eq_iff_iff.mpr (h.isMetaPackage.trans isMeta_iff.symm)
  rw [taken, ← hdescription, ← hmaintainers, ← hauthors, ← hwebsite, ← hrepository,
    ← hdependencies, ← hmeta]

/-- A document has a manifest if and only if its root is a package whose first name and whose first
version are not blank. The manifest is the only one that states what the document says. A text is
read as the document that it is. -/
theorem ofDocument_exact (origin : String) (root : Xml.Node) :
    (∀ text, Xml.read text = .ok root → parse origin text = ofDocument origin root) ∧
      ((∃ manifest, ofDocument origin root = .ok manifest) ↔
        root.name? = some "package" ∧
          (∃ child, root.FirstChild (·.name? = some "name") child ∧ ¬ child.Blank) ∧
          ∃ child, root.FirstChild (·.name? = some "version") child ∧ ¬ child.Blank) ∧
      ∀ manifest, ofDocument origin root = .ok manifest ↔
        root.name? = some "package" ∧ States root manifest := by
  refine ⟨?read, ⟨?opens, ?succeeds⟩, fun manifest => ⟨?states, ?only⟩⟩
  case read =>
    intro text hread
    rw [parse, hread]
  case opens =>
    rintro ⟨manifest, hread⟩
    rcases ofDocument_eq_ok_iff.mp hread with ⟨hpackage, name, version, hname, hversion, -⟩
    rcases childText?_eq_some_iff.mp hname with ⟨first, hfirst, hfirstText, -⟩
    rcases childText?_eq_some_iff.mp hversion with ⟨second, hsecond, hsecondText, -⟩
    exact ⟨hpackage, ⟨first, hfirst, hfirstText⟩, second, hsecond, hsecondText⟩
  case succeeds =>
    rintro ⟨hpackage, ⟨first, hfirst, hfirstText⟩, second, hsecond, hsecondText⟩
    have hname := childText?_eq_some_iff.mpr ⟨first, hfirst, hfirstText, rfl⟩
    have hversion := childText?_eq_some_iff.mpr ⟨second, hsecond, hsecondText, rfl⟩
    exact ⟨_, ofDocument_eq_ok_iff.mpr ⟨hpackage, _, _, hname, hversion, rfl⟩⟩
  case states =>
    intro hread
    rcases ofDocument_eq_ok_iff.mp hread with ⟨hpackage, name, version, hname, hversion, rfl⟩
    rw [childText?_eq_some_iff] at hname hversion
    exact ⟨hpackage, states_taken hname hversion⟩
  case only =>
    rintro ⟨hpackage, hstates⟩
    have hname := childText?_eq_some_iff.mpr hstates.name
    have hversion := childText?_eq_some_iff.mpr hstates.version
    exact ofDocument_eq_ok_iff.mpr ⟨hpackage, _, _, hname, hversion, hstates.eq_taken⟩

/-- An element without attributes that holds one text. -/
def leaf (tag text : String) : Xml.Node :=
  .element tag [] [.text text]

/-- A package that names most things more than once, some of them blank or too deep. -/
def crowdedPackage : Xml.Node :=
  .element "package" [] [
    .element "name" [] [.text "a ", leaf "i" "b", .text "\n"], leaf "name" "c",
    leaf "version" "1", leaf "depend" "y", leaf "depend" "x", leaf "run_depend" " y ",
    leaf "depend" " ", leaf "test_depend" "z", leaf "url" "", leaf "url" "u",
    .element "url" [⟨none, "type", "website"⟩] [.text "v"],
    .element "author" [⟨none, "email", "e"⟩] [.text "M"], leaf "author" "N",
    .element "maintainer" [⟨none, "email", "e"⟩] [.text "M"],
    .element "export" [] [leaf "depend" "w"]]

/-- Of names the first counts, of addresses the first that is not blank, and of dependencies and
people all. -/
example :
    let read := (ofDocument "" crowdedPackage).toOption
    read = some ⟨"a b", "1", none, [⟨"M", "e"⟩], [⟨"M", "e"⟩, ⟨"N", none⟩], "u", none, ["y", "x"],
        false⟩ ∧
      read.map contributors = some ["M <e>", "N"] := by
  decide +kernel

end Manifest

end RosInterface
