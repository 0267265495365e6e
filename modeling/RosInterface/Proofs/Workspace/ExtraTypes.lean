import RosInterface.Proofs.Workspace.Unneeded

namespace RosInterface.Workspace

/-! # The types of one package more

The catalog of a workspace has the types of all packages that could be read, so one package more
adds its types, whether anything needs them or not. This shows if the package defines a type twice:
the catalog cannot be built then, unless it could not be built without the package either because of
one whose name is smaller.
-/

/-! ## Order of packages -/

theorem sortedEntries_increasing {workspace : Workspace} (hstored : workspace.knownNames.Nodup) :
    workspace.sortedEntries.Pairwise fun a b => compare a.1 b.1 = .lt :=
  increasing_mergeSort (List.nodup_append.mp hstored).1

/-- A package more is one entry more, behind the smaller names and in front of the greater ones. -/
theorem OneMore.sortedEntries {tree : FileTree} {extra : PackageInfo} {more less : Workspace}
    (h : OneMore tree extra more less) (hmore : more.knownNames.Nodup)
    (hless : less.knownNames.Nodup) {entry : String × PackageContents}
    (hread : readable? tree extra = some entry) :
    ∃ front back, more.sortedEntries = front ++ entry :: back ∧
      less.sortedEntries = front ++ back ∧
      (∀ other ∈ front, compare other.1 entry.1 = .lt) ∧
      ∀ other ∈ back, compare entry.1 other.1 = .lt := by
  have hcontents := h.contents
  rw [hread, Option.toList_some] at hcontents
  have hincreasing := sortedEntries_increasing hmore
  have hmem : entry ∈ more.sortedEntries := by
    rw [Workspace.sortedEntries, List.mem_mergeSort]
    exact hcontents.mem.mpr (Or.inr (List.mem_singleton.mpr rfl))
  rcases List.append_of_mem hmem with ⟨front, back, hsplit⟩
  rw [hsplit] at hincreasing
  rcases List.pairwise_append.mp hincreasing with ⟨hfront, hback, hacross⟩
  rcases List.pairwise_cons.mp hback with ⟨hafter, hback⟩
  refine ⟨front, back, hsplit, ?_,
    fun other hother => hacross other hother entry List.mem_cons_self, hafter⟩
  -- Both sides are the same entries without the new one, in strictly increasing order.
  have hrest : (front ++ back).Pairwise fun a b => compare a.1 b.1 = .lt :=
    List.pairwise_append.mpr ⟨hfront, hback, fun a ha b hb =>
      hacross a ha b (List.mem_cons_of_mem entry hb)⟩
  have hperm : (front ++ back).Perm less.sortedEntries := by
    rcases hcontents with ⟨before, after, hinserted, hremoved⟩
    have hmoreperm : more.sortedEntries.Perm more.contents := List.mergeSort_perm _ _
    have hlessperm : less.sortedEntries.Perm less.contents := List.mergeSort_perm _ _
    rw [hsplit, hinserted, List.append_assoc, List.singleton_append] at hmoreperm
    rw [hremoved] at hlessperm
    have hcancel := (List.perm_middle.symm.trans hmoreperm).trans List.perm_middle
    exact (hcancel.cons_inv).trans hlessperm.symm
  refine (hperm.eq_of_pairwise ?_ hrest (sortedEntries_increasing hless)).symm
  exact fun a b _ _ hab hba => absurd hba (Std.OrientedCmp.not_lt_of_lt hab)

/-! ## Repeated types -/

/-- The contents define a type twice. -/
def RepeatsType (contents : PackageContents) : Prop :=
  ¬ (contents.messages.map (·.identity)).Nodup

variable {workspace : Workspace} {front : List (String × PackageContents)}

theorem Coherent.accounts_of_mem (h : workspace.Coherent) {entry : String × PackageContents}
    (hentry : entry ∈ workspace.sortedEntries) :
    ∃ package : PackageInfo, package.name = entry.1 ∧ entry.2.Accounts package := by
  rw [sortedEntries, List.mem_mergeSort] at hentry
  have hlookup := (mem_contents_iff h.storedOnce).mp hentry
  have hstored := h.stored _ (mem_knownNames_of_contents? hlookup)
  rcases isAvailable_iff.mp hstored with ⟨package, hpackage, hname⟩
  rw [← hname] at hlookup
  exact ⟨package, hname, h.accounts package hpackage entry.2 hlookup⟩

theorem Coherent.package_of_mem (h : workspace.Coherent) {entry : String × PackageContents}
    (hentry : entry ∈ workspace.sortedEntries) {message : ParsedMessage}
    (hmessage : message ∈ entry.2.messages) : message.identity.package = some entry.1 := by
  rcases h.accounts_of_mem hentry with ⟨package, hname, haccounts⟩
  rw [← hname]
  exact congrArg TypeIdentity.package (haccounts.own message hmessage)

theorem Coherent.package_of_mem_typeNames (h : workspace.Coherent)
    (hsub : front ⊆ workspace.sortedEntries) {identity : TypeIdentity}
    (hidentity : identity ∈ typeNames front) :
    ∃ entry ∈ front, identity.package = some entry.1 := by
  rcases List.mem_flatMap.mp hidentity with ⟨entry, hentry, hmem⟩
  rcases List.mem_map.mp hmem with ⟨message, hmessage, rfl⟩
  exact ⟨entry, hentry, h.package_of_mem (hsub hentry) hmessage⟩

theorem Coherent.slash_not_mem_of_mem_typeNames (h : workspace.Coherent)
    (hsub : front ⊆ workspace.sortedEntries) {identity : TypeIdentity}
    (hidentity : identity ∈ typeNames front) : '/' ∉ identity.name.toList := by
  rcases List.mem_flatMap.mp hidentity with ⟨entry, hentry, hmem⟩
  rcases List.mem_map.mp hmem with ⟨message, hmessage, rfl⟩
  rcases h.accounts_of_mem (hsub hentry) with ⟨package, -, haccounts⟩
  exact haccounts.slashless message hmessage

/-- A type that is defined twice is defined twice by one package. -/
theorem Coherent.firstRepeated_eq_none_iff (h : workspace.Coherent)
    (hsub : front.Sublist workspace.sortedEntries) :
    firstRepeated [] (typeNames front) = none ↔ ∀ entry ∈ front, ¬ RepeatsType entry.2 := by
  rw [RosInterface.firstRepeated_eq_none_iff List.nodup_nil, List.nil_append, typeNames,
    List.nodup_flatMap]
  simp only [RepeatsType, not_not]
  refine and_iff_left ?_
  refine ((sortedEntries_increasing h.storedOnce).sublist hsub).imp_of_mem ?_
  intro a b ha hb hab identity hleft hright
  rcases List.mem_map.mp hleft with ⟨message, hmessage, rfl⟩
  rcases List.mem_map.mp hright with ⟨other, hother, hsame⟩
  have hpackage := h.package_of_mem (hsub.subset ha) hmessage
  have hpackage' := h.package_of_mem (hsub.subset hb) hother
  rw [hsame, hpackage, Option.some.injEq] at hpackage'
  rw [hpackage'] at hab
  simp at hab

/-! ## Both catalogs -/

theorem typeNames_append (front back : List (String × PackageContents)) :
    typeNames (front ++ back) = typeNames front ++ typeNames back :=
  List.flatMap_append

/-- Packages of different names define different types. -/
theorem Coherent.not_mem_typeNames (h : workspace.Coherent)
    {back : List (String × PackageContents)} (hfront : front ⊆ workspace.sortedEntries)
    (hback : back ⊆ workspace.sortedEntries)
    (hother : ∀ a ∈ front, ∀ b ∈ back, compare a.1 b.1 = .lt) {identity : TypeIdentity}
    (hidentity : identity ∈ typeNames back) : identity ∉ typeNames front := by
  intro hmem
  rcases h.package_of_mem_typeNames hfront hmem with ⟨a, ha, hname⟩
  rcases h.package_of_mem_typeNames hback hidentity with ⟨b, hb, hname'⟩
  have hlt := hother a ha b hb
  rw [hname, Option.some.injEq] at hname'
  rw [hname'] at hlt
  simp at hlt

/-- A repetition is found in front of a package, in the package, or behind it, where the package
itself does not count. -/
theorem Coherent.firstRepeated_split (h : workspace.Coherent)
    {back : List (String × PackageContents)} {entry : String × PackageContents}
    (hsplit : workspace.sortedEntries = front ++ entry :: back)
    (hfront : ∀ other ∈ front, compare other.1 entry.1 = .lt)
    (hback : ∀ other ∈ back, compare entry.1 other.1 = .lt) :
    firstRepeated [] (typeNames (front ++ entry :: back)) =
      (firstRepeated [] (typeNames front)).or ((firstRepeated [] (typeNames [entry])).or
        (firstRepeated (typeNames front) (typeNames back))) := by
  have hfrontSub : front ⊆ workspace.sortedEntries := by
    rw [hsplit]
    exact List.subset_append_left front _
  have hentrySub : [entry] ⊆ workspace.sortedEntries := by
    rw [hsplit]
    simp
  have hbackSub : back ⊆ workspace.sortedEntries := by
    rw [hsplit]
    intro other hother
    simp [hother]
  have hmiddle : firstRepeated (typeNames front) (typeNames [entry]) =
      firstRepeated [] (typeNames [entry]) := by
    refine firstRepeated_congr fun identity hidentity => iff_of_false ?_ List.not_mem_nil
    refine h.not_mem_typeNames hfrontSub hentrySub ?_ hidentity
    intro a ha b hb
    rw [List.mem_singleton.mp hb]
    exact hfront a ha
  have hbehind : firstRepeated (typeNames front ++ typeNames [entry]) (typeNames back) =
      firstRepeated (typeNames front) (typeNames back) := by
    refine firstRepeated_congr fun identity hidentity => ?_
    rw [List.mem_append]
    refine or_iff_left (h.not_mem_typeNames hentrySub hbackSub ?_ hidentity)
    intro a ha b hb
    rw [List.mem_singleton.mp ha]
    exact hback b hb
  have hnames : typeNames (front ++ entry :: back) =
      typeNames front ++ (typeNames [entry] ++ typeNames back) := by
    rw [← typeNames_append, ← typeNames_append]
    rfl
  rw [hnames, firstRepeated_append, firstRepeated_append, List.nil_append, hmiddle, hbehind]

/-- Whether repetitions of the extra package come first: it repeats a type, and no package with a
smaller name does. -/
def RepeatsFirst (tree : FileTree) (extra : PackageInfo) (less : Workspace) : Prop :=
  ∃ contents, readable? tree extra = some (extra.name, contents) ∧ RepeatsType contents ∧
    ∀ other ∈ less.contents, compare other.1 extra.name = .lt → ¬ RepeatsType other.2

namespace OneMore

variable {tree : FileTree} {extra : PackageInfo} {more less : Workspace}

/-- Otherwise the catalogs are rejected alike, or differ in types of the extra package only. -/
theorem catalogs_agree (h : OneMore tree extra more less) (hmore : more.Coherent)
    (hless : less.Coherent) (hparsed : less.stage.hasParsed = true)
    (hfirst : ¬ RepeatsFirst tree extra less) :
    (∃ error, more.catalog = .error error ∧ less.catalog = .error error) ∨
      ∃ a b, more.catalog = .ok a ∧ less.catalog = .ok b ∧
        ∃ middle, Inserted middle a.definitions b.definitions ∧
          ∀ entry ∈ middle, entry.1.identity.package = some extra.name := by
  have hparsed' : more.stage.hasParsed = true := by rw [h.stage, hparsed]
  cases hread : readable? tree extra with
  | none =>
    -- A package that could not be read has no types.
    have hcontents : more.contents = less.contents := by
      rcases h.contents with ⟨front, back, hmoreContents, hlessContents⟩
      rw [hmoreContents, hlessContents, hread, Option.toList_none, List.append_nil]
    have hentries : more.sortedEntries = less.sortedEntries := by
      rw [Workspace.sortedEntries, Workspace.sortedEntries, hcontents]
    rw [catalog_eq_of_entries hparsed' hentries, catalog_eq_of_entries hparsed rfl]
    cases firstRepeated [] (typeNames less.sortedEntries) with
    | some identity => exact Or.inl ⟨_, rfl, rfl⟩
    | none => exact Or.inr ⟨_, _, rfl, rfl, [], .nil _, by simp⟩
  | some entry =>
    obtain ⟨front, back, hmoreEntries, hlessEntries, hfront, hback⟩ :=
      h.sortedEntries hmore.storedOnce hless.storedOnce hread
    have hfrontSub : front.Sublist less.sortedEntries := by
      rw [hlessEntries]
      exact List.sublist_append_left front back
    rw [catalog_eq_of_entries hparsed' hmoreEntries, catalog_eq_of_entries hparsed hlessEntries,
      hmore.firstRepeated_split hmoreEntries hfront hback, typeNames_append, firstRepeated_append,
      List.nil_append]
    cases hrepeated : firstRepeated [] (typeNames front) with
    | some identity => exact Or.inl ⟨_, rfl, rfl⟩
    | none =>
      have hsmaller := (hless.firstRepeated_eq_none_iff hfrontSub).mp hrepeated
      have hname : entry.1 = extra.name := fst_of_mem_readable? (by rw [hread]; simp)
      -- No package in front of the extra one repeats a type, so it would be the first to do so.
      have hmiddle : firstRepeated [] (typeNames [entry]) = none := by
        have hentrySub : [entry].Sublist more.sortedEntries := by
          rw [hmoreEntries]
          simp
        refine (hmore.firstRepeated_eq_none_iff hentrySub).mpr fun other hother hrepeats => ?_
        rw [List.mem_singleton.mp hother] at hrepeats
        refine hfirst ⟨entry.2, by rw [hread, ← hname], hrepeats, ?_⟩
        intro smaller hmem hlt
        have hsorted : smaller ∈ less.sortedEntries := List.mem_mergeSort.mpr hmem
        rw [hlessEntries, List.mem_append] at hsorted
        refine hsmaller smaller (hsorted.resolve_right fun hbehind => ?_)
        have hgt := hback smaller hbehind
        rw [hname] at hgt
        exact Std.OrientedCmp.not_lt_of_lt hgt hlt
      rw [hmiddle]
      cases firstRepeated (typeNames front) (typeNames back) with
      | some identity => exact Or.inl ⟨_, rfl, rfl⟩
      | none =>
        have hinserted : Inserted [entry] (front ++ entry :: back) (front ++ back) :=
          ⟨front, back, by simp, rfl⟩
        refine Or.inr ⟨_, _, rfl, rfl, _,
          (hinserted.flatMap (·.2.messages)).map definitionOf, ?_⟩
        intro definition hdefinition
        rcases List.mem_map.mp hdefinition with ⟨message, hmessage, rfl⟩
        rw [List.flatMap_singleton] at hmessage
        rw [← hname]
        exact hmore.package_of_mem (by rw [hmoreEntries]; simp) hmessage

/-- If they do, the catalog can be built no longer, for a reason that has to do with the extra
package only. -/
theorem catalogs_differ (h : OneMore tree extra more less) (hmore : more.Coherent)
    (hless : less.Coherent) (hparsed : less.stage.hasParsed = true)
    (hfirst : RepeatsFirst tree extra less) :
    ∃ identity : TypeIdentity, identity.package = some extra.name ∧
      more.catalog = .error (.type (.duplicate identity.text)) ∧
        less.catalog ≠ .error (.type (.duplicate identity.text)) := by
  rcases hfirst with ⟨contents, hread, hrepeats, hsmaller⟩
  obtain ⟨front, back, hmoreEntries, hlessEntries, hfront, hback⟩ :=
    h.sortedEntries hmore.storedOnce hless.storedOnce hread
  have hparsed' : more.stage.hasParsed = true := by rw [h.stage, hparsed]
  have hfrontSub : front.Sublist less.sortedEntries := by
    rw [hlessEntries]
    exact List.sublist_append_left front back
  have hnone : firstRepeated [] (typeNames front) = none := by
    refine (hless.firstRepeated_eq_none_iff hfrontSub).mpr fun other hother => ?_
    refine hsmaller other ?_ (hfront other hother)
    rw [← List.mem_mergeSort]
    exact hfrontSub.subset hother
  have hmiddleSub : [(extra.name, contents)].Sublist more.sortedEntries := by
    rw [hmoreEntries]
    simp
  obtain ⟨identity, hidentity⟩ : ∃ identity,
      firstRepeated [] (typeNames [(extra.name, contents)]) = some identity := by
    rw [← Option.ne_none_iff_exists']
    intro hmiddle
    exact (hmore.firstRepeated_eq_none_iff hmiddleSub).mp hmiddle _ List.mem_cons_self hrepeats
  have hpackage : identity.package = some extra.name := by
    obtain ⟨entry, hentry, hname⟩ := hmore.package_of_mem_typeNames hmiddleSub.subset
      (mem_of_firstRepeated hidentity)
    rw [List.mem_singleton] at hentry
    rw [hname, hentry]
  refine ⟨identity, hpackage, ?_, ?_⟩
  · rw [catalog_eq_of_entries hparsed' hmoreEntries,
      hmore.firstRepeated_split hmoreEntries hfront hback, hnone, hidentity]
    rfl
  · -- What is repeated without the extra package is a type of another one.
    rw [catalog_eq_of_entries hparsed hlessEntries]
    intro hsame
    cases hother : firstRepeated [] (typeNames (front ++ back)) with
    | none =>
      rw [hother] at hsame
      cases hsame
    | some other =>
      rw [hother] at hsame
      have htext : other.text = identity.text := by simpa using hsame
      have hlessSub : front ++ back ⊆ less.sortedEntries := hlessEntries ▸ List.Subset.refl _
      have hmember := mem_of_firstRepeated hother
      obtain ⟨entry, hentry, hname⟩ := hless.package_of_mem_typeNames hlessSub hmember
      -- The error has the written form only, which tells the package nevertheless.
      obtain rfl := TypeIdentity.eq_of_text_eq hname hpackage
        (hless.slash_not_mem_of_mem_typeNames hlessSub hmember)
        (hmore.slash_not_mem_of_mem_typeNames hmiddleSub.subset (mem_of_firstRepeated hidentity))
        htext
      rw [hpackage, Option.some.injEq] at hname
      rcases List.mem_append.mp hentry with hmem | hmem
      · have hlt := hfront entry hmem
        simp [hname] at hlt
      · have hlt := hback entry hmem
        simp [hname] at hlt

end OneMore

end RosInterface.Workspace
