import RosInterface.Proofs.Workspace.Reachable
import RosInterface.Proofs.Workspace.Types

namespace RosInterface

/-! # One package more

What a workspace makes of its packages is compared with what it makes of them when there is one more
of them. As long as that package is not needed, a filter has the same outcome and selects the same
packages. `OneMore` is what parsing and filtering keep between both workspaces.
-/

/-! ## Lists with a part in the middle -/

/-- A list is another one with some members inserted at one place. -/
def Inserted {α : Type} (middle more less : List α) : Prop :=
  ∃ front back, more = front ++ middle ++ back ∧ less = front ++ back

namespace Inserted

variable {α β : Type} {middle more less : List α}

theorem nil (members : List α) : Inserted [] members members :=
  ⟨members, [], by simp, by simp⟩

theorem map (h : Inserted middle more less) (f : α → β) :
    Inserted (middle.map f) (more.map f) (less.map f) := by
  rcases h with ⟨front, back, rfl, rfl⟩
  exact ⟨front.map f, back.map f, by simp, by simp⟩

theorem filterMap (h : Inserted middle more less) (f : α → Option β) :
    Inserted (middle.filterMap f) (more.filterMap f) (less.filterMap f) := by
  rcases h with ⟨front, back, rfl, rfl⟩
  exact ⟨front.filterMap f, back.filterMap f, by simp, by simp⟩

theorem flatMap (h : Inserted middle more less) (f : α → List β) :
    Inserted (middle.flatMap f) (more.flatMap f) (less.flatMap f) := by
  rcases h with ⟨front, back, rfl, rfl⟩
  exact ⟨front.flatMap f, back.flatMap f, by simp, by simp⟩

/-- A filter that drops what was inserted leaves no difference. -/
theorem filter_eq (h : Inserted middle more less) {p : α → Bool}
    (hdrop : ∀ member ∈ middle, p member = false) : more.filter p = less.filter p := by
  rcases h with ⟨front, back, rfl, rfl⟩
  have hmiddle : middle.filter p = [] := by
    rw [List.filter_eq_nil_iff]
    intro member hmember
    rw [hdrop member hmember]
    exact Bool.false_ne_true
  rw [List.filter_append, List.filter_append, List.filter_append, hmiddle, List.append_nil]

theorem find?_eq (h : Inserted middle more less) {p : α → Bool}
    (hdrop : ∀ member ∈ middle, p member = false) : more.find? p = less.find? p := by
  rw [← List.head?_filter, ← List.head?_filter, h.filter_eq hdrop]

theorem lookup_eq {middle more less : List (String × α)} (h : Inserted middle more less)
    {name : String} (hother : ∀ entry ∈ middle, entry.1 ≠ name) :
    more.lookup name = less.lookup name := by
  rcases h with ⟨front, back, rfl, rfl⟩
  have hmiddle : middle.lookup name = none := by
    rw [List.lookup_eq_none_iff]
    intro entry hentry
    simpa using (hother entry hentry).symm
  rw [List.lookup_append, List.lookup_append, List.lookup_append, hmiddle, Option.or_none]

theorem mem (h : Inserted middle more less) {member : α} :
    member ∈ more ↔ member ∈ less ∨ member ∈ middle := by
  rcases h with ⟨front, back, rfl, rfl⟩
  simp only [List.mem_append]
  tauto

end Inserted

namespace Workspace

/-! ## New workspaces -/

/-- The contents of a package, if it can be read. -/
def readable? (tree : FileTree) (package : PackageInfo) : Option (String × PackageContents) :=
  (PackageContents.ofPackage tree package).toOption.map (package.name, ·)

/-- Why a package cannot be read, if so. -/
def unreadable? (tree : FileTree) (package : PackageInfo) : Option (String × WorkspaceError) :=
  match PackageContents.ofPackage tree package with
  | .ok _ => none
  | .error error => some (package.name, error)

theorem parsePackage_eq (tree : FileTree) {workspace : Workspace} {package : PackageInfo}
    (hnew : package.name ∉ workspace.knownNames) :
    ∃ registry, workspace.parsePackage tree package =
      { workspace with
        contents := workspace.contents ++ (readable? tree package).toList
        failures := workspace.failures ++ (unreadable? tree package).toList
        registry } := by
  have hcontents : workspace.contents? package.name = none := by
    cases hlookup : workspace.contents? package.name with
    | none => rfl
    | some contents => exact absurd (mem_knownNames_of_contents? hlookup) hnew
  have hfailures : eraseName package.name workspace.failures = workspace.failures := by
    unfold eraseName
    rw [List.filter_eq_self]
    intro entry hentry
    rw [bne_iff_ne]
    intro hname
    exact hnew (List.mem_append_right _ (List.mem_map.mpr ⟨entry, hentry, hname⟩))
  unfold parsePackage readable? unreadable?
  rw [hcontents, hfailures]
  cases PackageContents.ofPackage tree package with
  | ok contents => exact ⟨_, by simp [Except.toOption]; rfl⟩
  | error error => exact ⟨_, by simp [Except.toOption]; rfl⟩

/-- Packages of which nothing is known yet are read one after the other. -/
theorem parsePackages_eq (tree : FileTree) {workspace : Workspace} {packages : List PackageInfo}
    (hdistinct : (packages.map (·.name)).Nodup)
    (hnew : ∀ package ∈ packages, package.name ∉ workspace.knownNames) :
    ∃ registry, packages.foldl (parsePackage tree) workspace =
      { workspace with
        contents := workspace.contents ++ packages.filterMap (readable? tree)
        failures := workspace.failures ++ packages.filterMap (unreadable? tree)
        registry } := by
  induction packages generalizing workspace with
  | nil => exact ⟨workspace.registry, by simp⟩
  | cons package rest ih =>
    rw [List.map_cons, List.nodup_cons] at hdistinct
    -- Reading a package makes no other name known, so the rest is new as well.
    have hrest : ∀ other ∈ rest,
        other.name ∉ (workspace.parsePackage tree package).knownNames := by
      intro other hother hknown
      rcases (mem_knownNames_parsePackage tree).mp hknown with hold | hname
      · exact hnew other (List.mem_cons_of_mem package hother) hold
      · exact hdistinct.1 (List.mem_map.mpr ⟨other, hother, hname⟩)
    rcases parsePackage_eq tree (hnew package List.mem_cons_self) with ⟨first, hfirst⟩
    rcases ih hdistinct.2 hrest with ⟨registry, hall⟩
    have hcontents : (readable? tree package).toList ++ rest.filterMap (readable? tree) =
        (package :: rest).filterMap (readable? tree) := by
      rw [List.filterMap_cons]
      cases readable? tree package <;> rfl
    have hfailures : (unreadable? tree package).toList ++ rest.filterMap (unreadable? tree) =
        (package :: rest).filterMap (unreadable? tree) := by
      rw [List.filterMap_cons]
      cases unreadable? tree package <;> rfl
    refine ⟨registry, ?_⟩
    rw [List.foldl_cons, hall, hfirst, ← hcontents, ← hfailures]
    simp only [List.append_assoc]

/-- Each package of a new workspace is read once. -/
theorem parse_eq (tree : FileTree) {packages : List PackageInfo}
    (hdistinct : (packages.map (·.name)).Nodup) :
    ∃ registry, parse tree { available := packages } =
      { available := packages
        contents := packages.filterMap (readable? tree)
        failures := packages.filterMap (unreadable? tree)
        registry
        stage := .parsed } := by
  obtain ⟨registry, hall⟩ := @parsePackages_eq tree { available := packages } packages hdistinct
    (by simp [knownNames])
  refine ⟨registry, ?_⟩
  unfold parse
  rw [if_neg (fun hparsed => by cases hparsed), hall]
  rfl

/-! ## Filters that name packages -/

/-- A package that a filter names is mandatory once the filter is applied. -/
theorem needed_of_exactName {workspace : Workspace} {packageFilter : PackageFilter} {name : String}
    (hexact : name ∈ packageFilter.exactNames) (havailable : workspace.isAvailable name = true) :
    (workspace.reclassified packageFilter).Needed name := by
  rcases List.mem_filterMap.mp hexact with ⟨term, hterm, hname⟩
  have hmatch : packageFilter.isMatch name = true := by
    cases term with
    | exact other =>
      cases hname
      exact List.any_eq_true.mpr ⟨_, hterm, beq_self_eq_true name⟩
    | startingWith text => cases hname
    | endingWith text => cases hname
  have hterms : ¬ packageFilter.isEmpty = true := by
    intro hempty
    rw [PackageFilter.isEmpty, List.isEmpty_iff] at hempty
    rw [hempty] at hterm
    exact List.not_mem_nil hterm
  rcases isAvailable_iff.mp havailable with ⟨package, hpackage, rfl⟩
  have hmem : ({ package with isOptional := !packageFilter.isMatch package.name } : PackageInfo) ∈
      (workspace.reclassified packageFilter).available := by
    show _ ∈ packageFilter.reclassify workspace.available
    rw [PackageFilter.reclassify, if_neg hterms]
    exact List.mem_map.mpr ⟨package, hpackage, rfl⟩
  have hchosen : (!packageFilter.isMatch package.name) = false := by
    rw [hmatch]
    rfl
  have hneeded := Needed.mandatory hmem hchosen
  exact hneeded

/-! ## The relation -/

/-- The first workspace knows all that the second one does, and one package more, which was read
like the others. Nothing else tells them apart. -/
structure OneMore (tree : FileTree) (extra : PackageInfo) (more less : Workspace) : Prop where
  available : ∃ isOptional,
    Inserted [{ extra with isOptional }] more.available less.available
  contents : Inserted (readable? tree extra).toList more.contents less.contents
  failures : Inserted (unreadable? tree extra).toList more.failures less.failures
  selected : more.selected = less.selected
  orderer : more.orderer = less.orderer
  stage : more.stage = less.stage

theorem fst_of_mem_readable? {tree : FileTree} {extra : PackageInfo}
    {entry : String × PackageContents} (hentry : entry ∈ (readable? tree extra).toList) :
    entry.1 = extra.name := by
  unfold readable? at hentry
  rcases Option.map_eq_some_iff.mp (Option.mem_toList.mp hentry) with ⟨contents, -, rfl⟩
  rfl

theorem fst_of_mem_unreadable? {tree : FileTree} {extra : PackageInfo}
    {entry : String × WorkspaceError} (hentry : entry ∈ (unreadable? tree extra).toList) :
    entry.1 = extra.name := by
  unfold unreadable? at hentry
  cases hread : PackageContents.ofPackage tree extra with
  | ok contents =>
    rw [hread] at hentry
    simp at hentry
  | error error =>
    rw [hread] at hentry
    simp at hentry
    rw [hentry]

/-- New workspaces are read alike. -/
theorem oneMore_parse (tree : FileTree) {before after : List PackageInfo} {extra : PackageInfo}
    (hdistinct : ((before ++ extra :: after).map (·.name)).Nodup)
    (hfewer : ((before ++ after).map (·.name)).Nodup) :
    OneMore tree extra (parse tree { available := before ++ extra :: after })
      (parse tree { available := before ++ after }) := by
  rcases parse_eq tree hdistinct with ⟨registry, hmore⟩
  rcases parse_eq tree hfewer with ⟨fewer, hless⟩
  have hinserted : Inserted [extra] (before ++ extra :: after) (before ++ after) :=
    ⟨before, after, by simp, rfl⟩
  rw [hmore, hless]
  refine ⟨⟨extra.isOptional, hinserted⟩, ?_, ?_, rfl, rfl, rfl⟩
  · have hread := hinserted.filterMap (readable? tree)
    rwa [List.filterMap_cons, List.filterMap_nil] at hread
  · have hread := hinserted.filterMap (unreadable? tree)
    rwa [List.filterMap_cons, List.filterMap_nil] at hread

end Workspace

end RosInterface
