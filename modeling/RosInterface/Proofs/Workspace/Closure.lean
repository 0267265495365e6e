import Mathlib.Data.List.Basic
import RosInterface.Proofs.Order
import RosInterface.Workspace.Basic

namespace RosInterface.Workspace

/-! # What a selection needs

The packages that are needed are the mandatory ones and, again and again, what these depend on. The
worklist of `close` finds all of them:

* `Sweeping` is its invariant: only needed packages are listed, and whatever is listed and no longer
  pending was readable and has its dependencies listed;
* `unsettled` counts what is still to be looked at. Listing a package takes it out of the unlisted
  ones and adds it to the pending ones, so each turn of the loop makes the count smaller.
-/

variable {workspace : Workspace}

/-- A package is needed if it is mandatory, or if a needed one whose contents are there depends on
it. -/
inductive Needed (workspace : Workspace) : String → Prop where
  | mandatory {package : PackageInfo} (available : package ∈ workspace.available)
      (chosen : package.isOptional = false) : Needed workspace package.name
  | dependency {user used : String} {contents : PackageContents} (needed : Needed workspace user)
      (found : workspace.contents? user = some contents) (depends : used ∈ contents.dependencies)
      (available : workspace.isAvailable used = true) : Needed workspace used

theorem mem_mandatory {name : String} : name ∈ workspace.mandatory ↔
    ∃ package ∈ workspace.available, package.isOptional = false ∧ package.name = name := by
  unfold mandatory
  rw [Sorted.mem_names, List.mem_map]
  simp only [List.mem_filter, Bool.not_eq_true', and_assoc]

/-! ## Known packages -/

/-- The names of all packages whose definition files were looked at. -/
def knownNames (workspace : Workspace) : List String :=
  workspace.contents.map (·.1) ++ workspace.failures.map (·.1)

theorem isKnown_iff {name : String} :
    workspace.isKnown name = true ↔ name ∈ workspace.knownNames := by
  unfold isKnown knownNames
  simp only [Bool.or_eq_true, List.lookup_isSome_iff, List.mem_append, List.mem_map, beq_iff_eq,
    @eq_comm _ name]

/-! ## Needs of one package -/

/-- How many packages are pending or could still be. -/
def unsettled (workspace : Workspace) (closure : Closure) : Nat :=
  closure.pending.length + (workspace.knownNames.filter (!closure.names.contains ·)).length

theorem unsettled_cons (workspace : Workspace) (names pending : List String) (name : String) :
    workspace.unsettled ⟨names, name :: pending⟩ = workspace.unsettled ⟨names, pending⟩ + 1 := by
  simp only [unsettled, List.length_cons]
  omega

/-- What a closure becomes when some dependencies are added that are known. -/
structure Extends (workspace : Workspace) (dependencies : List String)
    (before after : Closure) : Prop where
  names : ∀ name, name ∈ after.names ↔
    name ∈ before.names ∨ (name ∈ dependencies ∧ workspace.isKnown name = true)
  pending : ∀ name, name ∈ after.pending ↔
    name ∈ before.pending ∨ (name ∈ after.names ∧ name ∉ before.names)
  settles : workspace.unsettled after ≤ workspace.unsettled before

/-- A package that is listed is taken out of those that could still be. -/
theorem unsettled_list {closure : Closure} {name : String} (hknown : name ∈ workspace.knownNames)
    (hnew : name ∉ closure.names) :
    workspace.unsettled ⟨closure.names ++ [name], name :: closure.pending⟩ ≤
      workspace.unsettled closure := by
  -- The name is pending now, but no longer among those that are not listed.
  have hfewer : (workspace.knownNames.filter (!(closure.names ++ [name]).contains ·)).length <
      (workspace.knownNames.filter (!closure.names.contains ·)).length := by
    have hsplit : ∀ other, (!(closure.names ++ [name]).contains other) =
        ((other != name) && !closure.names.contains other) := by
      intro other
      rw [List.contains_eq_any_beq, List.any_append, ← List.contains_eq_any_beq]
      cases closure.names.contains other <;> simp [bne]
    simp only [hsplit, ← List.filter_filter]
    refine List.length_filter_lt_length_iff_exists.mpr ⟨name, ?_, by simp⟩
    rw [List.mem_filter]
    exact ⟨hknown, by simpa using hnew⟩
  simp only [unsettled, List.length_cons]
  omega

theorem extends_need (closure : Closure) (name : String) :
    workspace.Extends [name] closure (closure.need workspace name) := by
  unfold Closure.need
  by_cases hneed : workspace.isKnown name = true ∧ name ∉ closure.names
  · rcases hneed with ⟨hknown, hnew⟩
    rw [if_pos (by simpa using ⟨hknown, hnew⟩)]
    refine ⟨?_, ?_, unsettled_list (isKnown_iff.mp hknown) hnew⟩
    · intro other
      rw [List.mem_append, List.mem_singleton]
      constructor
      · rintro (hmem | rfl)
        · exact Or.inl hmem
        · exact Or.inr ⟨rfl, hknown⟩
      · rintro (hmem | ⟨rfl, -⟩)
        · exact Or.inl hmem
        · exact Or.inr rfl
    · intro other
      rw [List.mem_cons, List.mem_append, List.mem_singleton]
      constructor
      · rintro (rfl | hmem)
        · exact Or.inr ⟨Or.inr rfl, hnew⟩
        · exact Or.inl hmem
      · rintro (hmem | ⟨hmem | rfl, hnot⟩)
        · exact Or.inr hmem
        · exact absurd hmem hnot
        · exact Or.inl rfl
  · rw [if_neg (by simpa using hneed)]
    refine ⟨?_, by simp, Nat.le_refl _⟩
    intro other
    constructor
    · exact Or.inl
    · rintro (hmem | ⟨hother, hknown⟩)
      · exact hmem
      · rw [List.mem_singleton] at hother
        by_contra hnew
        exact hneed ⟨hother ▸ hknown, hother ▸ hnew⟩

theorem Extends.trans {a b c : Closure} {first rest : List String}
    (hab : workspace.Extends first a b) (hbc : workspace.Extends rest b c) :
    workspace.Extends (first ++ rest) a c := by
  refine ⟨?_, ?_, Nat.le_trans hbc.settles hab.settles⟩
  · intro name
    rw [hbc.names, hab.names, List.mem_append, or_and_right, or_assoc]
  · intro name
    rw [hbc.pending, hab.pending, hbc.names]
    have hmono : name ∈ a.names → name ∈ b.names := fun hmem => (hab.names name).mpr (Or.inl hmem)
    tauto

/-- Adding dependencies one after the other adds all of them. -/
theorem extends_dependencies (workspace : Workspace) (dependencies : List String)
    (closure : Closure) :
    workspace.Extends dependencies closure
      (dependencies.foldl (Closure.need workspace) closure) := by
  induction dependencies generalizing closure with
  | nil => exact ⟨by simp, by simp, Nat.le_refl _⟩
  | cons name rest ih => exact (extends_need closure name).trans (ih _)

/-! ## The worklist -/

/-- What holds of a closure while its pending packages are looked at. -/
structure Sweeping (workspace : Workspace) (closure : Closure) : Prop where
  mandatory : ∀ name ∈ workspace.mandatory, name ∈ closure.names
  needed : ∀ name ∈ closure.names, workspace.Needed name
  pending : ∀ name ∈ closure.pending, name ∈ closure.names
  settled : ∀ name ∈ closure.names, name ∉ closure.pending →
    workspace.failures.lookup name = none ∧
      ∀ contents, workspace.contents? name = some contents →
        ∀ used ∈ contents.dependencies, workspace.isKnown used = true → used ∈ closure.names

/-- Looking at a pending package that was readable keeps the invariant, whether it has contents or
not. -/
theorem Sweeping.advance {names pending dependencies : List String} {name : String}
    {after : Closure} (h : workspace.Sweeping ⟨names, name :: pending⟩)
    (hreadable : workspace.failures.lookup name = none)
    (hall : ∀ contents, workspace.contents? name = some contents →
      contents.dependencies = dependencies)
    (hneeded : ∀ used ∈ dependencies, workspace.isKnown used = true → workspace.Needed used)
    (hextends : workspace.Extends dependencies ⟨names, pending⟩ after) :
    workspace.Sweeping after := by
  have hgrow : ∀ other ∈ names, other ∈ after.names :=
    fun other hmem => (hextends.names other).mpr (Or.inl hmem)
  refine ⟨fun other hmem => hgrow other (h.mandatory other hmem), ?_, ?_, ?_⟩
  · intro other hmem
    rcases (hextends.names other).mp hmem with hold | ⟨hdep, hknown⟩
    · exact h.needed other hold
    · exact hneeded other hdep hknown
  · intro other hmem
    rcases (hextends.pending other).mp hmem with hold | ⟨hnew, -⟩
    · exact hgrow other (h.pending other (List.mem_cons_of_mem name hold))
    · exact hnew
  · intro other hmem hdone
    have hnot : other ∉ pending ∧ other ∈ names := by
      rw [hextends.pending, not_or, not_and_not_right] at hdone
      exact ⟨hdone.1, hdone.2 hmem⟩
    -- The package that was just looked at is settled now, and others stay settled.
    by_cases hname : other = name
    · subst hname
      refine ⟨hreadable, fun contents hcontents used hused hknown => ?_⟩
      rw [hall contents hcontents] at hused
      exact (hextends.names used).mpr (Or.inr ⟨hused, hknown⟩)
    · have hold : other ∉ name :: pending := by
        rw [List.mem_cons, not_or]
        exact ⟨hname, hnot.1⟩
      rcases h.settled other hnot.2 hold with ⟨hfine, hdeps⟩
      exact ⟨hfine, fun contents hcontents used hused hknown =>
        hgrow used (hdeps contents hcontents used hused hknown)⟩

/-- What is to be found: the needed packages if all of them could be read, or else one of them that
could not. -/
def Settles (workspace : Workspace) : Except String (List String) → Prop
  | .ok names =>
    (∀ name, name ∈ names ↔ workspace.Needed name) ∧
      ∀ name ∈ names, workspace.failures.lookup name = none
  | .error name => workspace.Needed name ∧ (workspace.failures.lookup name).isSome = true

/-- Without pending packages everything that is needed is listed. -/
theorem Sweeping.settles {names : List String} (h : workspace.Sweeping ⟨names, []⟩)
    (hknown : ∀ name, workspace.isKnown name = workspace.isAvailable name) :
    workspace.Settles (.ok names) := by
  refine ⟨fun name => ⟨h.needed name, ?_⟩, fun name hmem =>
    (h.settled name hmem List.not_mem_nil).1⟩
  intro hneeded
  induction hneeded with
  | @mandatory package hmem hchosen =>
    exact h.mandatory _ (mem_mandatory.mpr ⟨package, hmem, hchosen, rfl⟩)
  | dependency _ hfound hdep havailable ih =>
    exact (h.settled _ ih List.not_mem_nil).2 _ hfound _ hdep ((hknown _).trans havailable)

theorem close_spec (hknown : ∀ name, workspace.isKnown name = workspace.isAvailable name)
    {limit : Nat} {closure : Closure} (h : workspace.Sweeping closure)
    (hlimit : workspace.unsettled closure ≤ limit) :
    workspace.Settles (workspace.close limit closure) := by
  rcases closure with ⟨names, pending⟩
  induction limit generalizing names pending with
  | zero =>
    cases pending with
    | nil => exact h.settles hknown
    | cons name pending =>
      rw [unsettled_cons] at hlimit
      exact absurd hlimit (Nat.not_succ_le_zero _)
  | succ limit ih =>
    cases pending with
    | nil => exact h.settles hknown
    | cons name pending =>
      rw [unsettled_cons] at hlimit
      have hfewer : workspace.unsettled ⟨names, pending⟩ ≤ limit := Nat.le_of_succ_le_succ hlimit
      rw [close]
      have hname : workspace.Needed name := h.needed name (h.pending name List.mem_cons_self)
      cases hfailure : workspace.failures.lookup name with
      | some error => exact ⟨hname, by simp [hfailure]⟩
      | none =>
        cases hcontents : workspace.contents? name with
        | none =>
          have hsame : workspace.Extends [] ⟨names, pending⟩ ⟨names, pending⟩ :=
            extends_dependencies workspace [] _
          exact ih _ _ (h.advance hfailure (by simp [hcontents]) (by simp) hsame) hfewer
        | some contents =>
          have hextends := extends_dependencies workspace contents.dependencies
            ⟨names, pending⟩
          refine ih _ _ (h.advance hfailure ?_ ?_ hextends)
            (Nat.le_trans hextends.settles hfewer)
          · intro other hother
            rw [hcontents] at hother
            cases hother
            rfl
          · intro used hused havailable
            exact .dependency hname hcontents hused ((hknown used).symm.trans havailable)

theorem unsettled_needed_le (workspace : Workspace) :
    workspace.unsettled ⟨workspace.mandatory, workspace.mandatory.reverse⟩ ≤
      workspace.mandatory.length + workspace.contents.length + workspace.failures.length := by
  have hfilter := List.length_filter_le (!workspace.mandatory.contains ·) workspace.knownNames
  simp only [unsettled, List.length_reverse, knownNames, List.length_append,
    List.length_map] at hfilter ⊢
  omega

/-- The names of the needed packages are found, or one of them that could not be read. -/
theorem needed_spec (hknown : ∀ name, workspace.isKnown name = workspace.isAvailable name) :
    workspace.Settles workspace.needed := by
  refine close_spec hknown ⟨fun _ => id, ?_, fun _ => List.mem_reverse.mp, ?_⟩
    (unsettled_needed_le workspace)
  · intro name hmem
    rcases mem_mandatory.mp hmem with ⟨package, havailable, hchosen, rfl⟩
    exact .mandatory havailable hchosen
  · intro name hmem hdone
    exact absurd (List.mem_reverse.mpr hmem) hdone

/-! ## Two workspaces -/

/-- Two workspaces tell the same about the members of a region, and no member that could be read
depends on a known package outside of it. -/
structure AgreeOn (a b : Workspace) (region : String → Prop) : Prop where
  contents : ∀ name, region name → a.contents? name = b.contents? name
  failures : ∀ name, region name → a.failures.lookup name = b.failures.lookup name
  known : ∀ name contents, region name → a.contents? name = some contents →
    ∀ used ∈ contents.dependencies, a.isKnown used = b.isKnown used ∧
      (a.isKnown used = true → region used)

theorem need_congr {a b : Workspace} {dependencies : List String}
    (hknown : ∀ used ∈ dependencies, a.isKnown used = b.isKnown used) (closure : Closure) :
    dependencies.foldl (Closure.need a) closure = dependencies.foldl (Closure.need b) closure := by
  induction dependencies generalizing closure with
  | nil => rfl
  | cons used rest ih =>
    have hfirst : closure.need a used = closure.need b used := by
      rw [Closure.need, Closure.need, hknown used List.mem_cons_self]
    rw [List.foldl_cons, List.foldl_cons, hfirst]
    exact ih (fun other hother => hknown other (List.mem_cons_of_mem used hother)) _

/-- The same is found in both workspaces, as long as the search starts in the region and neither
limit runs out. -/
theorem close_congr {a b : Workspace} {region : String → Prop} (hagree : AgreeOn a b region)
    {limit other : Nat} {closure : Closure} (hregion : ∀ name ∈ closure.pending, region name)
    (hlimit : a.unsettled closure ≤ limit) (hother : b.unsettled closure ≤ other) :
    a.close limit closure = b.close other closure := by
  rcases closure with ⟨names, pending⟩
  induction limit generalizing other names pending with
  | zero =>
    cases pending with
    | nil => rw [close, close]
    | cons name pending =>
      rw [unsettled_cons] at hlimit
      exact absurd hlimit (Nat.not_succ_le_zero _)
  | succ limit ih =>
    cases pending with
    | nil => rw [close, close]
    | cons name pending =>
      rw [unsettled_cons] at hlimit hother
      obtain ⟨other, rfl⟩ : ∃ below, other = below + 1 := ⟨other - 1, by omega⟩
      have hfewer : a.unsettled ⟨names, pending⟩ ≤ limit := Nat.le_of_succ_le_succ hlimit
      have hfewer' : b.unsettled ⟨names, pending⟩ ≤ other := Nat.le_of_succ_le_succ hother
      have hname : region name := hregion name List.mem_cons_self
      have hrest : ∀ used ∈ pending, region used :=
        fun used hused => hregion used (List.mem_cons_of_mem name hused)
      rw [close, close, ← hagree.failures name hname, ← hagree.contents name hname]
      cases hfailure : a.failures.lookup name with
      | some error => rfl
      | none =>
        cases hcontents : a.contents? name with
        | none => exact ih _ _ hrest hfewer hfewer'
        | some contents =>
          have hknown := hagree.known name contents hname hcontents
          have hextends := extends_dependencies a contents.dependencies
            ⟨names, pending⟩
          have hextends' := extends_dependencies b contents.dependencies
            ⟨names, pending⟩
          have hsame := need_congr (fun used hused => (hknown used hused).1)
            (⟨names, pending⟩ : Closure)
          rw [← hsame] at hextends'
          simp only [← hsame]
          refine ih _ _ ?_ (Nat.le_trans hextends.settles hfewer)
            (Nat.le_trans hextends'.settles hfewer')
          -- What became pending is a known dependency of a member of the region.
          intro used hused
          rcases (hextends.pending used).mp hused with hold | ⟨hlisted, hnew⟩
          · exact hrest used hold
          · rcases (hextends.names used).mp hlisted with hold | ⟨hdep, havailable⟩
            · exact absurd hold hnew
            · exact (hknown used hdep).2 havailable

theorem needed_congr {a b : Workspace} {region : String → Prop} (hagree : AgreeOn a b region)
    (hmandatory : a.mandatory = b.mandatory) (hregion : ∀ name ∈ a.mandatory, region name) :
    a.needed = b.needed := by
  unfold needed
  have ha := unsettled_needed_le a
  have hb := unsettled_needed_le b
  rw [← hmandatory] at hb ⊢
  exact close_congr hagree (fun name hmem => hregion name (List.mem_reverse.mp hmem)) ha hb

end RosInterface.Workspace
