import RosInterface.Proofs.Resolution.Dependencies
import RosInterface.Proofs.Workspace.Parsing

namespace RosInterface

/-! # The types of a workspace

The catalog of a workspace has the types of all packages that could be read, whether they are
selected or not. It exists unless a name is defined twice, and since the name of a type says which
package defines it, that can only happen within one package.
-/

/-! ## Repetitions -/

/-- The first member that was seen before, or that stands for the second time in the list. -/
def firstRepeated {α : Type} [DecidableEq α] (seen : List α) : List α → Option α
  | [] => none
  | first :: rest => if first ∈ seen then some first else firstRepeated (seen ++ [first]) rest

section Repetitions

variable {α : Type} [DecidableEq α]

theorem firstRepeated_append (seen front back : List α) :
    firstRepeated seen (front ++ back) =
      (firstRepeated seen front).or (firstRepeated (seen ++ front) back) := by
  induction front generalizing seen with
  | nil => simp [firstRepeated]
  | cons first rest ih =>
    rw [List.cons_append, firstRepeated, firstRepeated]
    by_cases hseen : first ∈ seen
    · rw [if_pos hseen, if_pos hseen]
      rfl
    · rw [if_neg hseen, if_neg hseen, ih, List.append_assoc, List.singleton_append]

/-- Only those seen members count that are also in the list. -/
theorem firstRepeated_congr {seen other members : List α}
    (hsame : ∀ member ∈ members, member ∈ seen ↔ member ∈ other) :
    firstRepeated seen members = firstRepeated other members := by
  induction members generalizing seen other with
  | nil => rfl
  | cons first rest ih =>
    -- The first member is seen from now on, in both cases.
    have hrest : firstRepeated (seen ++ [first]) rest = firstRepeated (other ++ [first]) rest := by
      refine ih fun member hmember => ?_
      rw [List.mem_append, List.mem_append, hsame member (List.mem_cons_of_mem first hmember)]
    simp only [firstRepeated, hsame first List.mem_cons_self, hrest]

theorem mem_of_firstRepeated {seen members : List α} {member : α}
    (hrepeated : firstRepeated seen members = some member) : member ∈ members := by
  induction members generalizing seen with
  | nil => cases hrepeated
  | cons first rest ih =>
    rw [firstRepeated] at hrepeated
    split at hrepeated
    · cases hrepeated
      exact List.mem_cons_self
    · exact List.mem_cons_of_mem first (ih hrepeated)

theorem firstRepeated_eq_none_iff {seen members : List α} (hseen : seen.Nodup) :
    firstRepeated seen members = none ↔ (seen ++ members).Nodup := by
  induction members generalizing seen with
  | nil => simpa [firstRepeated] using hseen
  | cons first rest ih =>
    rw [firstRepeated]
    by_cases hmem : first ∈ seen
    · rw [if_pos hmem]
      have hnot : ¬ (seen ++ first :: rest).Nodup := by
        intro hnodup
        exact List.disjoint_of_nodup_append hnodup hmem List.mem_cons_self
      simp [hnot]
    · have hgrown : (seen ++ [first]).Nodup :=
        hseen.append (List.nodup_singleton first) (List.disjoint_singleton.mpr hmem)
      rw [if_neg hmem, ih hgrown, List.append_assoc, List.singleton_append]

end Repetitions

namespace Workspace

variable {workspace : Workspace}

/-! ## Building a catalog -/

/-- A message type as a definition of a catalog. -/
def definitionOf (message : ParsedMessage) : TypeReference × Descriptor :=
  (message.type, message.descriptor)

/-- Message types can be added to a catalog unless a name is repeated, the first such name being the
error. -/
theorem addAll_eq (catalog : Catalog) (messages : List ParsedMessage) :
    messages.foldlM (fun catalog message =>
        (catalog.add message.type message.descriptor).mapError WorkspaceError.type) catalog =
      match firstRepeated catalog.names (messages.map (·.identity)) with
      | some identity => .error (.type (.duplicate identity.text))
      | none => .ok ⟨catalog.definitions ++ messages.map definitionOf⟩ := by
  induction messages generalizing catalog with
  | nil =>
    simp only [List.map_nil, firstRepeated, List.append_nil]
    rfl
  | cons message rest ih =>
    rw [List.foldlM_cons, List.map_cons, firstRepeated]
    by_cases hmem : message.identity ∈ catalog.names
    · have hadd : catalog.add message.type message.descriptor =
          .error (.duplicate message.identity.text) := by
        unfold Catalog.add
        cases hfind : catalog.find? message.type.identity with
        | none => exact absurd hmem (Catalog.find?_eq_none_iff.mp hfind)
        | some entry => rfl
      rw [hadd, if_pos hmem]
      rfl
    · -- The names of the catalog are those that were seen.
      have hadd : catalog.add message.type message.descriptor =
          .ok ⟨catalog.definitions ++ [definitionOf message]⟩ :=
        Catalog.add_eq_ok_iff.mpr ⟨hmem, rfl⟩
      have hrest := ih ⟨catalog.definitions ++ [definitionOf message]⟩
      have hnames : Catalog.names ⟨catalog.definitions ++ [definitionOf message]⟩ =
          catalog.names ++ [message.identity] := by
        simp [Catalog.names, definitionOf, ParsedMessage.identity]
      rw [hnames] at hrest
      rw [hadd, if_neg hmem]
      refine hrest.trans ?_
      rw [List.map_cons, List.append_assoc, List.singleton_append]

/-- The message types of all packages that could be read, in the order of the package names. -/
def allMessages (workspace : Workspace) : List ParsedMessage :=
  workspace.sortedContents.flatMap (·.messages)

theorem catalog_eq (hparsed : workspace.stage.hasParsed = true) :
    workspace.catalog =
      match firstRepeated [] (workspace.allMessages.map (·.identity)) with
      | some identity => .error (.type (.duplicate identity.text))
      | none => .ok ⟨workspace.allMessages.map definitionOf⟩ := by
  unfold catalog
  rw [hparsed, if_neg (by decide)]
  exact addAll_eq {} workspace.allMessages

/-- The stored contents in the order of names. -/
def sortedEntries (workspace : Workspace) : List (String × PackageContents) :=
  workspace.contents.mergeSort fun a b => (compare a.1 b.1).isLE

theorem sortedContents_eq (workspace : Workspace) :
    workspace.sortedContents = workspace.sortedEntries.map (·.2) :=
  rfl

/-- The names of all types that some packages define. -/
def typeNames (entries : List (String × PackageContents)) : List TypeIdentity :=
  entries.flatMap fun entry => entry.2.messages.map (·.identity)

theorem map_identity_allMessages (workspace : Workspace) :
    workspace.allMessages.map (·.identity) = typeNames workspace.sortedEntries := by
  rw [allMessages, sortedContents_eq, typeNames, List.flatMap_map, List.map_flatMap]

/-- The catalog is built from the packages in the order of their names. -/
theorem catalog_eq_of_entries (hparsed : workspace.stage.hasParsed = true)
    {entries : List (String × PackageContents)} (hentries : workspace.sortedEntries = entries) :
    workspace.catalog =
      match firstRepeated [] (typeNames entries) with
      | some identity => .error (.type (.duplicate identity.text))
      | none => .ok ⟨(entries.flatMap (·.2.messages)).map definitionOf⟩ := by
  subst hentries
  rw [catalog_eq hparsed, map_identity_allMessages, allMessages, sortedContents_eq,
    List.flatMap_map]

/-- A catalog that could be built has each type of the workspace under its own name. -/
theorem catalog_eq_ok {catalog : Catalog} (hcatalog : workspace.catalog = .ok catalog) :
    workspace.stage.hasParsed = true ∧ catalog.names.Nodup ∧
      catalog.definitions = workspace.allMessages.map definitionOf := by
  cases hparsed : workspace.stage.hasParsed with
  | false =>
    unfold Workspace.catalog at hcatalog
    rw [hparsed] at hcatalog
    cases hcatalog
  | true =>
    rw [catalog_eq hparsed] at hcatalog
    cases hrepeated : firstRepeated [] (workspace.allMessages.map (·.identity)) with
    | some identity =>
      rw [hrepeated] at hcatalog
      cases hcatalog
    | none =>
      rw [hrepeated] at hcatalog
      cases hcatalog
      rw [firstRepeated_eq_none_iff List.nodup_nil, List.nil_append] at hrepeated
      refine ⟨rfl, ?_, rfl⟩
      rwa [Catalog.names, List.map_map]

/-! ## Where types come from -/

/-- Where no name is stored twice, an entry is what is found under its name. -/
theorem mem_contents_iff (hstored : workspace.knownNames.Nodup) {name : String}
    {contents : PackageContents} :
    (name, contents) ∈ workspace.contents ↔ workspace.contents? name = some contents := by
  have hkeys : (workspace.contents.map (·.1)).Nodup := (List.nodup_append.mp hstored).1
  constructor
  · intro hentry
    rcases List.append_of_mem hentry with ⟨before, after, hsplit⟩
    refine List.lookup_eq_some_iff.mpr ⟨before, after, hsplit, ?_⟩
    intro entry hbefore
    rw [hsplit, List.map_append, List.map_cons] at hkeys
    have hother : name ≠ entry.1 := by
      rintro rfl
      exact List.disjoint_of_nodup_append hkeys (List.mem_map.mpr ⟨entry, hbefore, rfl⟩)
        List.mem_cons_self
    simpa using hother
  · intro hlookup
    rcases List.lookup_eq_some_iff.mp hlookup with ⟨before, after, hsplit, -⟩
    rw [hsplit]
    simp

theorem mem_sortedContents (hstored : workspace.knownNames.Nodup) {contents : PackageContents} :
    contents ∈ workspace.sortedContents ↔ ∃ name, workspace.contents? name = some contents := by
  unfold sortedContents
  simp only [List.mem_map, List.mem_mergeSort, Prod.exists, exists_eq_right,
    mem_contents_iff hstored]

/-- What is found in the catalog is a type of the package that its name says. -/
theorem Coherent.exists_of_find? (h : workspace.Coherent) {catalog : Catalog}
    (hcatalog : workspace.catalog = .ok catalog) {identity : TypeIdentity}
    {entry : TypeReference × Descriptor} (hfind : catalog.find? identity = some entry) :
    ∃ package ∈ workspace.available, ∃ contents message,
      workspace.contents? package.name = some contents ∧ message ∈ contents.messages ∧
        identity.package = some package.name ∧ message.identity = identity ∧
          entry = definitionOf message := by
  rcases catalog_eq_ok hcatalog with ⟨-, -, hdefinitions⟩
  have hmem : entry ∈ catalog.definitions := List.mem_of_find?_eq_some hfind
  have hname : entry.1.identity = identity := by simpa using List.find?_some hfind
  rw [hdefinitions, List.mem_map] at hmem
  rcases hmem with ⟨message, hmessage, rfl⟩
  rcases List.mem_flatMap.mp hmessage with ⟨contents, hcontents, hmessage⟩
  rcases (mem_sortedContents h.storedOnce).mp hcontents with ⟨name, hlookup⟩
  obtain ⟨package, hpackage, rfl⟩ :=
    isAvailable_iff.mp (h.stored name (mem_knownNames_of_contents? hlookup))
  have hown := (h.accounts package hpackage contents hlookup).own message hmessage
  refine ⟨package, hpackage, contents, message, hlookup, hmessage, ?_, hname, rfl⟩
  rw [← hname]
  exact congrArg TypeIdentity.package hown

/-- A type that depends on another one comes from a package whose contents account for that: the
other type is of the same package, or of a package among their dependencies. -/
theorem Coherent.of_depends (h : workspace.Coherent) {catalog : Catalog}
    (hcatalog : workspace.catalog = .ok catalog) {user used : TypeIdentity}
    (hdep : catalog.Depends user used) :
    ∃ owner contents, user.package = some owner ∧ workspace.isAvailable owner = true ∧
      workspace.contents? owner = some contents ∧
      ∀ name, used.package = some name → name ≠ owner → name ∈ contents.dependencies := by
  rcases hdep with ⟨reference, descriptor, hfind, hused⟩
  obtain ⟨package, hpackage, contents, message, hcontents, hmessage, howner, -, hentry⟩ :=
    h.exists_of_find? hcatalog hfind
  have hdescriptor : descriptor = message.descriptor := congrArg Prod.snd hentry
  rw [hdescriptor, Descriptor.dependencyTypes, List.mem_eraseDups, List.mem_map] at hused
  rcases hused with ⟨field, hfield, rfl⟩
  have hfields : field ∈ message.descriptor.fields := (List.mem_filter.mp hfield).1
  exact ⟨package.name, contents, howner, isAvailable_iff.mpr ⟨package, hpackage, rfl⟩, hcontents,
    (h.accounts package hpackage contents hcontents).uses message hmessage field hfields⟩

end Workspace

end RosInterface
