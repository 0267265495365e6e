import Mathlib.Data.List.Nodup
import RosInterface.Proofs.BuildOrder.Orderer
import RosInterface.Proofs.Workspace.Closure
import RosInterface.Proofs.Workspace.Contents

namespace RosInterface.Workspace

/-! # Packages and their contents

`Coherent` says what a workspace may rely on in every stage: no name is taken twice, whatever was
read belongs to an available package, and the contents of a package account for what it uses.
Reading definition files keeps it and leaves no package unknown.
-/

variable {workspace : Workspace}

/-- Names are distinct, nothing is stored twice or for a package that is not there, contents account
for their packages, and the remembered build order is one. -/
structure Coherent (workspace : Workspace) : Prop where
  distinct : (workspace.available.map (·.name)).Nodup
  storedOnce : workspace.knownNames.Nodup
  stored : ∀ name ∈ workspace.knownNames, workspace.isAvailable name = true
  accounts : ∀ package ∈ workspace.available, ∀ contents,
    workspace.contents? package.name = some contents → contents.Accounts package
  remembered : workspace.orderer.Remembers

theorem isAvailable_iff {name : String} :
    workspace.isAvailable name = true ↔ ∃ package ∈ workspace.available, package.name = name := by
  unfold isAvailable
  simp

theorem isAvailable_eq_false_iff {name : String} :
    workspace.isAvailable name = false ↔ name ∉ workspace.available.map (·.name) := by
  rw [← Bool.not_eq_true, isAvailable_iff, List.mem_map]

theorem mem_knownNames_of_contents? {name : String} {contents : PackageContents}
    (hcontents : workspace.contents? name = some contents) : name ∈ workspace.knownNames := by
  rw [← isKnown_iff, isKnown, ← contents?, hcontents]
  rfl

theorem coherent_empty : Coherent {} := by
  refine ⟨List.nodup_nil, List.nodup_nil, ?_, ?_, ?_⟩
  · intro name hmem
    simp [knownNames] at hmem
  · intro package hmem
    simp at hmem
  · intro units hunits
    simp at hunits

/-! ## Adding -/

theorem add_eq_ok_iff {package : PackageInfo} {extended : Workspace} :
    workspace.add package = .ok extended ↔ workspace.isAvailable package.name = false ∧
      extended = { workspace with
        available := workspace.available ++ [package], selected := [], stage := .discovered } := by
  unfold add
  cases workspace.isAvailable package.name with
  | true => simp
  | false => simp [eq_comm]

theorem Coherent.add (h : workspace.Coherent) {package : PackageInfo} {extended : Workspace}
    (hadd : workspace.add package = .ok extended) : extended.Coherent := by
  rcases add_eq_ok_iff.mp hadd with ⟨hnew, rfl⟩
  refine ⟨?_, h.storedOnce, ?_, ?_, h.remembered⟩
  · have hother : package.name ∉ workspace.available.map (·.name) :=
      isAvailable_eq_false_iff.mp hnew
    rw [List.map_append]
    exact h.distinct.append (List.nodup_singleton _) (List.disjoint_singleton.mpr hother)
  · intro name hname
    rcases isAvailable_iff.mp (h.stored name hname) with ⟨other, hmem, rfl⟩
    exact isAvailable_iff.mpr ⟨other, List.mem_append_left _ hmem, rfl⟩
  · intro other hmem contents hcontents
    rcases List.mem_append.mp hmem with hold | hlast
    · exact h.accounts other hold contents hcontents
    · -- Nothing can have been stored for a package that was not available.
      rw [List.mem_singleton] at hlast
      have hstored := h.stored _ (mem_knownNames_of_contents? hcontents)
      have havailable : workspace.isAvailable package.name = true := hlast ▸ hstored
      rw [hnew] at havailable
      cases havailable

/-- Packages make up a workspace exactly if their names are distinct. -/
theorem ofPackages_eq_ok_iff {packages : List PackageInfo} {workspace : Workspace} :
    ofPackages packages = .ok workspace ↔
      (packages.map (·.name)).Nodup ∧ workspace = { available := packages } := by
  -- The packages that were added before have distinct names, and keep their places.
  suffices hfold : ∀ earlier : List PackageInfo, (earlier.map (·.name)).Nodup →
      (packages.foldlM add { available := earlier } = .ok workspace ↔
        ((earlier ++ packages).map (·.name)).Nodup ∧
          workspace = { available := earlier ++ packages }) from
    hfold [] List.nodup_nil
  induction packages with
  | nil =>
    intro earlier hdistinct
    rw [List.append_nil, List.foldlM_nil]
    constructor
    · intro hok
      cases hok
      exact ⟨hdistinct, rfl⟩
    · rintro ⟨-, rfl⟩
      rfl
  | cons package rest ih =>
    intro earlier hdistinct
    have hsplit : earlier ++ package :: rest = (earlier ++ [package]) ++ rest := by simp
    rw [List.foldlM_cons, bind_eq_ok_iff, hsplit]
    by_cases hnew : package.name ∈ earlier.map (·.name)
    · constructor
      · rintro ⟨extended, hadd, -⟩
        have hfree := (add_eq_ok_iff.mp hadd).1
        exact absurd hnew (isAvailable_eq_false_iff.mp hfree)
      · rintro ⟨hall, -⟩
        rw [List.map_append, List.map_append] at hall
        have hfront := (List.nodup_append.mp hall).1
        exact absurd List.mem_cons_self (List.disjoint_of_nodup_append hfront hnew)
    · have hgrown : ((earlier ++ [package]).map (·.name)).Nodup := by
        rw [List.map_append]
        exact hdistinct.append (List.nodup_singleton _) (List.disjoint_singleton.mpr hnew)
      rw [← ih (earlier ++ [package]) hgrown]
      have hadd : add { available := earlier } package =
          .ok { available := earlier ++ [package] } :=
        add_eq_ok_iff.mpr ⟨isAvailable_eq_false_iff.mpr hnew, rfl⟩
      constructor
      · rintro ⟨extended, hextended, hrest⟩
        rw [hadd] at hextended
        cases hextended
        exact hrest
      · intro hrest
        exact ⟨_, hadd, hrest⟩

/-! ## Parsing -/

theorem map_eraseName {α : Type} (name : String) (entries : List (String × α)) :
    (eraseName name entries).map (·.1) = (entries.map (·.1)).filter (· != name) := by
  unfold eraseName
  rw [List.filter_map]
  rfl

/-- A package that has no contents yet is known once more after reading it, and at the end. -/
theorem knownNames_parsePackage (tree : FileTree) {package : PackageInfo}
    (hcontents : workspace.contents? package.name = none) :
    (workspace.parsePackage tree package).knownNames.Perm
      (workspace.knownNames.filter (· != package.name) ++ [package.name]) := by
  -- Only a failure can be stored under the name, and reading replaces it.
  have hkeys : (workspace.contents.map (·.1)).filter (· != package.name) =
      workspace.contents.map (·.1) := by
    rw [List.filter_eq_self]
    intro name hmem
    rcases List.mem_map.mp hmem with ⟨entry, hentry, rfl⟩
    have hnot := List.lookup_eq_none_iff.mp hcontents entry hentry
    rw [bne_iff_ne]
    intro hname
    simp [hname] at hnot
  unfold parsePackage
  rw [hcontents]
  simp only [knownNames, List.filter_append, hkeys]
  cases PackageContents.ofPackage tree package with
  | ok contents =>
    simp only [Option.isSome_none, Bool.false_eq_true, if_false, List.map_append, List.map_cons,
      List.map_nil, map_eraseName, List.append_assoc]
    exact List.Perm.append_left _ List.perm_append_comm
  | error error =>
    simp only [Option.isSome_none, Bool.false_eq_true, if_false, List.map_append, List.map_cons,
      List.map_nil, map_eraseName, List.append_assoc]
    exact List.Perm.refl _

/-- Reading a package only ever adds contents that were read from it. -/
theorem contents?_parsePackage {tree : FileTree} {package : PackageInfo} {name : String}
    {contents : PackageContents}
    (hcontents : (workspace.parsePackage tree package).contents? name = some contents) :
    workspace.contents? name = some contents ∨
      (name = package.name ∧ PackageContents.ofPackage tree package = .ok contents) := by
  unfold parsePackage at hcontents
  split at hcontents
  · exact Or.inl hcontents
  · cases hread : PackageContents.ofPackage tree package with
    | error error =>
      rw [hread] at hcontents
      exact Or.inl hcontents
    | ok read =>
      rw [hread] at hcontents
      simp only [contents?, List.lookup_append, Option.or_eq_some_iff] at hcontents
      rcases hcontents with hold | ⟨-, hnew⟩
      · exact Or.inl hold
      · rcases List.lookup_eq_some_iff.mp hnew with ⟨before, after, hentry, -⟩
        have hmem : (name, contents) ∈ [(package.name, read)] := by simp [hentry]
        rw [List.mem_singleton, Prod.mk.injEq] at hmem
        exact Or.inr ⟨hmem.1, congrArg _ hmem.2.symm⟩

theorem parsePackage_frame (workspace : Workspace) (tree : FileTree) (package : PackageInfo) :
    (workspace.parsePackage tree package).available = workspace.available ∧
      (workspace.parsePackage tree package).orderer = workspace.orderer := by
  unfold parsePackage
  split
  · exact ⟨rfl, rfl⟩
  · split
    · exact ⟨rfl, rfl⟩
    · exact ⟨rfl, rfl⟩

/-- After reading a package the same names are known, and its own. -/
theorem mem_knownNames_parsePackage (tree : FileTree) {package : PackageInfo} {name : String} :
    name ∈ (workspace.parsePackage tree package).knownNames ↔
      name ∈ workspace.knownNames ∨ name = package.name := by
  cases hcontents : workspace.contents? package.name with
  | some contents =>
    have hsame : workspace.parsePackage tree package = workspace := by
      rw [parsePackage, hcontents]
      rfl
    rw [hsame, or_iff_left_of_imp]
    rintro rfl
    exact mem_knownNames_of_contents? hcontents
  | none =>
    rw [(knownNames_parsePackage tree hcontents).mem_iff, List.mem_append, List.mem_filter,
      List.mem_singleton, bne_iff_ne]
    tauto

theorem Coherent.parsePackage (h : workspace.Coherent) (tree : FileTree) {package : PackageInfo}
    (hmem : package ∈ workspace.available) :
    (workspace.parsePackage tree package).Coherent := by
  rcases parsePackage_frame workspace tree package with ⟨havailable, horderer⟩
  refine ⟨havailable ▸ h.distinct, ?_, ?_, ?_, horderer ▸ h.remembered⟩
  · cases hcontents : workspace.contents? package.name with
    | some contents =>
      rw [Workspace.parsePackage, hcontents]
      exact h.storedOnce
    | none =>
      rw [(knownNames_parsePackage tree hcontents).nodup_iff]
      refine (h.storedOnce.filter _).append (List.nodup_singleton _) ?_
      rw [List.disjoint_singleton, List.mem_filter, bne_iff_ne]
      exact fun hkept => hkept.2 rfl
  · intro name hname
    rw [isAvailable_iff, havailable, ← isAvailable_iff]
    rcases (mem_knownNames_parsePackage tree).mp hname with hold | rfl
    · exact h.stored name hold
    · exact isAvailable_iff.mpr ⟨package, hmem, rfl⟩
  · intro other hother contents hcontents
    rw [havailable] at hother
    rcases contents?_parsePackage hcontents with hold | ⟨hname, hread⟩
    · exact h.accounts other hother contents hold
    · have hsame : other = package := List.inj_on_of_nodup_map h.distinct hother hmem hname
      rw [hsame]
      exact PackageContents.accounts_of_ofPackage hread

/-- Reading some available packages one after the other. -/
theorem Coherent.parsePackages (h : workspace.Coherent) (tree : FileTree)
    {packages : List PackageInfo} (hsub : packages ⊆ workspace.available) :
    (packages.foldl (Workspace.parsePackage tree) workspace).Coherent ∧
      (packages.foldl (Workspace.parsePackage tree) workspace).available =
        workspace.available ∧
      ∀ name, name ∈ (packages.foldl (Workspace.parsePackage tree) workspace).knownNames ↔
        name ∈ workspace.knownNames ∨ name ∈ packages.map (·.name) := by
  induction packages generalizing workspace with
  | nil => exact ⟨h, rfl, by simp⟩
  | cons package rest ih =>
    rcases List.cons_subset.mp hsub with ⟨hfirst, hrest⟩
    have havailable := (parsePackage_frame workspace tree package).1
    rcases ih (h.parsePackage tree hfirst) (havailable ▸ hrest) with ⟨hcoherent, hsame, hknown⟩
    refine ⟨hcoherent, hsame.trans havailable, ?_⟩
    intro name
    rw [List.foldl_cons, hknown, mem_knownNames_parsePackage, List.map_cons, List.mem_cons,
      or_assoc]

end RosInterface.Workspace
