import Mathlib.Data.List.Find
import RosInterface.Proofs.Workspace.OneMore

namespace RosInterface.Workspace.OneMore

/-! # A package that is not needed

The search for needed packages takes the same course in two workspaces that differ in one package,
if it never gets to that package. So a filter has the same outcome for both.
-/

variable {tree : FileTree} {extra : PackageInfo} {more less : Workspace}

/-! ## What is the same -/

theorem contents?_eq (h : OneMore tree extra more less) {name : String}
    (hother : name ≠ extra.name) : more.contents? name = less.contents? name :=
  h.contents.lookup_eq fun _ hentry hname => hother (hname.symm.trans (fst_of_mem_readable? hentry))

theorem failures_eq (h : OneMore tree extra more less) {name : String}
    (hother : name ≠ extra.name) : more.failures.lookup name = less.failures.lookup name :=
  h.failures.lookup_eq fun _ hentry hname =>
    hother (hname.symm.trans (fst_of_mem_unreadable? hentry))

theorem isKnown_eq (h : OneMore tree extra more less) {name : String}
    (hother : name ≠ extra.name) : more.isKnown name = less.isKnown name := by
  have hcontents : more.contents.lookup name = less.contents.lookup name := h.contents?_eq hother
  rw [isKnown, isKnown, hcontents, h.failures_eq hother]

theorem isAvailable_iff_or (h : OneMore tree extra more less) {name : String} :
    more.isAvailable name = true ↔ less.isAvailable name = true ∨ name = extra.name := by
  rcases h.available with ⟨isOptional, havailable⟩
  rw [isAvailable_iff, isAvailable_iff]
  simp only [havailable.mem, List.mem_singleton, or_and_right, exists_or, exists_eq_left]
  exact or_congr_right eq_comm

theorem isAvailable_eq (h : OneMore tree extra more less) {name : String}
    (hother : name ≠ extra.name) : more.isAvailable name = less.isAvailable name := by
  rw [Bool.eq_iff_iff, h.isAvailable_iff_or, or_iff_left hother]

theorem reclassified (h : OneMore tree extra more less) (packageFilter : PackageFilter) :
    OneMore tree extra (more.reclassified packageFilter) (less.reclassified packageFilter) := by
  rcases h.available with ⟨isOptional, havailable⟩
  refine ⟨?_, h.contents, h.failures, h.selected, h.orderer, h.stage⟩
  show ∃ isOptional, Inserted _ (packageFilter.reclassify more.available)
    (packageFilter.reclassify less.available)
  unfold PackageFilter.reclassify
  split
  · exact ⟨isOptional, havailable⟩
  · exact ⟨!packageFilter.isMatch extra.name, havailable.map _⟩

/-! ## The search -/

/-- Optional packages do not start a search. -/
theorem mandatory_eq (h : OneMore tree extra more less) (hunneeded : ¬ more.Needed extra.name) :
    more.mandatory = less.mandatory := by
  rcases h.available with ⟨isOptional, havailable⟩
  have hoptional : isOptional = true := by
    by_contra hchosen
    rw [Bool.not_eq_true] at hchosen
    have hmem := havailable.mem.mpr (Or.inr (List.mem_singleton.mpr rfl))
    have hneeded := Needed.mandatory hmem hchosen
    exact hunneeded hneeded
  unfold mandatory
  rw [havailable.filter_eq]
  intro package hpackage
  rw [List.mem_singleton.mp hpackage, hoptional]
  rfl

theorem agreeOn (h : OneMore tree extra more less)
    (hknown : ∀ name, more.isKnown name = more.isAvailable name)
    (hunneeded : ¬ more.Needed extra.name) : AgreeOn more less more.Needed := by
  have hother : ∀ name, more.Needed name → name ≠ extra.name := by
    rintro name hneeded rfl
    exact hunneeded hneeded
  refine ⟨fun name hneeded => h.contents?_eq (hother name hneeded),
    fun name hneeded => h.failures_eq (hother name hneeded), ?_⟩
  intro name contents hneeded hcontents used hused
  have hreach : more.isKnown used = true → more.Needed used := by
    intro hused'
    exact .dependency hneeded hcontents hused ((hknown used).symm.trans hused')
  refine ⟨?_, hreach⟩
  by_cases hsame : used = extra.name
  · -- The package is known, so a needed one that depended on it would make it needed.
    have havailable : more.isAvailable used = true := h.isAvailable_iff_or.mpr (Or.inr hsame)
    exact absurd (hsame ▸ hreach ((hknown used).trans havailable)) hunneeded
  · exact h.isKnown_eq hsame

theorem needed_eq (h : OneMore tree extra more less)
    (hknown : ∀ name, more.isKnown name = more.isAvailable name)
    (hunneeded : ¬ more.Needed extra.name) : more.needed = less.needed := by
  refine needed_congr (h.agreeOn hknown hunneeded) (h.mandatory_eq hunneeded) ?_
  intro name hname
  rcases mem_mandatory.mp hname with ⟨package, hpackage, hchosen, rfl⟩
  exact .mandatory hpackage hchosen

/-- The same packages are selected. -/
theorem selecting (h : OneMore tree extra more less) {names : List String}
    (hnames : ∀ name, name ∈ names ↔ more.Needed name) (hunneeded : ¬ more.Needed extra.name) :
    OneMore tree extra (more.selecting names) (less.selecting names) := by
  refine ⟨h.available, h.contents, h.failures, ?_, h.orderer, rfl⟩
  rcases h.available with ⟨isOptional, havailable⟩
  have hnot : extra.name ∉ names := fun hmem => hunneeded ((hnames _).mp hmem)
  have hfilter : more.available.filter (names.contains ·.name) =
      less.available.filter (names.contains ·.name) := by
    refine havailable.filter_eq fun package hpackage => ?_
    rw [List.mem_singleton.mp hpackage]
    simpa using hnot
  show (more.available.filter _).map more.select = (less.available.filter _).map less.select
  rw [hfilter]
  refine List.map_congr_left fun package hpackage => ?_
  have hname : package.name ∈ names := by
    rw [← List.contains_iff_mem]
    exact (List.mem_filter.mp hpackage).2
  have hother : package.name ≠ extra.name := fun hsame => hnot (hsame ▸ hname)
  rw [select, select, h.contents?_eq hother]

/-! ## Filters -/

theorem missing_eq (h : OneMore tree extra more less) {packageFilter : PackageFilter}
    (hunneeded : ¬ (more.reclassified packageFilter).Needed extra.name) :
    packageFilter.exactNames.find? (!more.isAvailable ·) =
      packageFilter.exactNames.find? (!less.isAvailable ·) := by
  have hsame : ∀ name ∈ packageFilter.exactNames,
      more.isAvailable name = less.isAvailable name := by
    intro name hname
    refine h.isAvailable_eq ?_
    rintro rfl
    exact hunneeded (needed_of_exactName hname (h.isAvailable_iff_or.mpr (Or.inr rfl)))
  exact List.find?_congr fun name hname => congrArg not (hsame name hname)

/-- A filter that does not make the extra package needed has the same outcome with it and without
it. -/
theorem filter (h : OneMore tree extra more less)
    (hknown : ∀ name, more.isKnown name = more.isAvailable name) {packageFilter : PackageFilter}
    (hunneeded : ¬ (more.reclassified packageFilter).Needed extra.name) :
    (more.filter packageFilter).1 = (less.filter packageFilter).1 ∧
      (more.filter packageFilter).2.selected = (less.filter packageFilter).2.selected ∧
      ((more.filter packageFilter).1 = .ok () →
        OneMore tree extra (more.filter packageFilter).2 (less.filter packageFilter).2) := by
  have hreclassified := h.reclassified packageFilter
  have hknown' := isKnown_reclassified hknown packageFilter
  have hneeded := hreclassified.needed_eq hknown' hunneeded
  have hspec := needed_spec hknown'
  have hstage : more.stage.hasParsed = less.stage.hasParsed := by rw [h.stage]
  rw [filter_eq, filter_eq, hstage, h.missing_eq hunneeded]
  -- Both filters go the same way, so they are followed together.
  cases less.stage.hasParsed with
  | false => exact ⟨by rw [h.stage]; rfl, h.selected, fun hok => by cases hok⟩
  | true =>
    cases packageFilter.exactNames.find? (!less.isAvailable ·) with
    | some name => exact ⟨rfl, h.selected, fun hok => by cases hok⟩
    | none =>
      simp only [Bool.not_true, Bool.false_eq_true, if_false, ← hneeded]
      cases hresult : (more.reclassified packageFilter).needed with
      | error name =>
        rw [hresult] at hspec
        have hother : name ≠ extra.name := by
          rintro rfl
          exact hunneeded hspec.1
        refine ⟨?_, rfl, fun hok => by cases hok⟩
        simp only [finish, hreclassified.failures_eq hother]
      | ok names =>
        rw [hresult] at hspec
        have hselecting := hreclassified.selecting hspec.1 hunneeded
        exact ⟨rfl, hselecting.selected, fun _ => hselecting⟩

end RosInterface.Workspace.OneMore
