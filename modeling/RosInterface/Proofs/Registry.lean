import Mathlib.Data.List.Nodup
import Mathlib.Tactic.Tauto
import RosInterface.Proofs.Order
import RosInterface.Registry

namespace RosInterface.Registry

/-! # References and flags

The entries of a registry go up by name, so that a package has one entry at most. A reference adds an
entry without a flag unless there is one, and marking packages sets the flags of their entries. No
operation takes an entry or a flag away.
-/

variable {registry : Registry}

/-- The packages that some message refers to. -/
def names (registry : Registry) : List String :=
  registry.entries.map (·.package)

/-- The names of the entries go up strictly. -/
def Increasing (registry : Registry) : Prop :=
  registry.names.Pairwise (· < ·)

theorem mem_names_of_mem_entries {entry : RegistryEntry} (hentry : entry ∈ registry.entries) :
    entry.package ∈ registry.names :=
  List.mem_map.mpr ⟨entry, hentry, rfl⟩

/-- A package has one entry at most. -/
theorem Increasing.unique (h : registry.Increasing) {a b : RegistryEntry}
    (ha : a ∈ registry.entries) (hb : b ∈ registry.entries) (hname : a.package = b.package) :
    a = b := by
  have hnodup : (registry.entries.map (·.package)).Nodup :=
    h.imp fun hlt heq => absurd (heq ▸ hlt) (String.lt_irrefl _)
  exact List.inj_on_of_nodup_map hnodup ha hb hname

/-! ## References -/

/-- What adding a package to sorted entries leads to. -/
theorem insert_entry {package : String} {entries : List RegistryEntry}
    (hsorted : (entries.map (·.package)).Pairwise (· < ·)) :
    let inserted := Sorted.insert (fun a b => compare a.package b.package) ⟨package, false⟩ entries
    (∀ entry, entry ∈ inserted ↔
      entry ∈ entries ∨ (entry = ⟨package, false⟩ ∧ package ∉ entries.map (·.package))) ∧
      (inserted.map (·.package)).Pairwise (· < ·) := by
  induction entries with
  | nil => simp [Sorted.insert]
  | cons first rest ih =>
    rw [List.map_cons, List.pairwise_cons] at hsorted
    rcases hsorted with ⟨hfirst, hrest⟩
    rcases ih hrest with ⟨hmem, hincreasing⟩
    rw [Sorted.insert]
    cases hcompare : compare package first.package with
    | lt =>
      -- The package comes before all others, so none of them is it.
      have hlt : ∀ name ∈ first.package :: rest.map (·.package), package < name := by
        intro name hname
        rcases List.mem_cons.mp hname with rfl | hname
        · exact compare_eq_lt_iff.mp hcompare
        · exact String.lt_trans (compare_eq_lt_iff.mp hcompare) (hfirst name hname)
      have hnew : package ∉ (first :: rest).map (·.package) :=
        fun hold => String.lt_irrefl _ (hlt package hold)
      constructor
      · intro entry
        rw [List.mem_cons, and_iff_left hnew]
        exact or_comm
      · exact List.pairwise_cons.mpr ⟨hlt, List.pairwise_cons.mpr ⟨hfirst, hrest⟩⟩
    | eq =>
      have hsame : package = first.package := Std.LawfulEqCmp.eq_of_compare hcompare
      exact ⟨fun entry => by simp [hsame], List.pairwise_cons.mpr ⟨hfirst, hrest⟩⟩
    | gt =>
      have hlt : first.package < package :=
        compare_eq_lt_iff.mp (Std.OrientedCmp.gt_iff_lt.mp hcompare)
      have hother : package ≠ first.package := fun heq => String.lt_irrefl _ (heq ▸ hlt)
      constructor
      · intro entry
        rw [List.mem_cons, hmem, List.mem_cons, List.map_cons, List.mem_cons, or_assoc]
        simp only [hother, false_or]
      · refine List.pairwise_cons.mpr ⟨?_, hincreasing⟩
        intro name hname
        rcases List.mem_map.mp hname with ⟨entry, hentry, rfl⟩
        rcases (hmem entry).mp hentry with hold | ⟨rfl, -⟩
        · exact hfirst _ (List.mem_map.mpr ⟨entry, hold, rfl⟩)
        · exact hlt

theorem mem_entries_add (h : registry.Increasing) {package : String} {entry : RegistryEntry} :
    entry ∈ (registry.add package).entries ↔
      entry ∈ registry.entries ∨ (entry = ⟨package, false⟩ ∧ package ∉ registry.names) :=
  (insert_entry h).1 entry

theorem Increasing.add (h : registry.Increasing) (package : String) :
    (registry.add package).Increasing :=
  (insert_entry h).2

theorem Increasing.addAll (h : registry.Increasing) (packages : List String) :
    (packages.foldl Registry.add registry).Increasing := by
  induction packages generalizing registry with
  | nil => exact h
  | cons package rest ih => exact ih (h.add package)

/-- References leave known packages as they are, and add the others without a flag. -/
theorem mem_entries_addAll (h : registry.Increasing) {packages : List String}
    {entry : RegistryEntry} :
    entry ∈ (packages.foldl Registry.add registry).entries ↔ entry ∈ registry.entries ∨
      (entry.isBuilt = false ∧ entry.package ∈ packages ∧ entry.package ∉ registry.names) := by
  induction packages generalizing registry with
  | nil => simp
  | cons package rest ih =>
    have hnames : ∀ name, name ∈ (registry.add package).names ↔
        name ∈ registry.names ∨ name = package := by
      intro name
      constructor
      · intro hname
        rcases List.mem_map.mp hname with ⟨other, hother, rfl⟩
        rcases (mem_entries_add h).mp hother with hold | ⟨rfl, -⟩
        · exact Or.inl (mem_names_of_mem_entries hold)
        · exact Or.inr rfl
      · intro hname
        by_cases hold : name ∈ registry.names
        · rcases List.mem_map.mp hold with ⟨other, hother, rfl⟩
          exact mem_names_of_mem_entries ((mem_entries_add h).mpr (Or.inl hother))
        · rcases hname with hname | rfl
          · exact absurd hname hold
          · exact mem_names_of_mem_entries ((mem_entries_add h).mpr (Or.inr ⟨rfl, hold⟩))
    have hentry : entry = ⟨package, false⟩ ↔ entry.isBuilt = false ∧ entry.package = package := by
      rcases entry with ⟨name, isBuilt⟩
      simp [and_comm]
    rw [List.foldl_cons, ih (h.add package), mem_entries_add h, hnames, hentry, List.mem_cons]
    by_cases hname : entry.package = package
    · subst hname
      tauto
    · tauto

theorem mem_names_addAll (h : registry.Increasing) {packages : List String} {name : String} :
    name ∈ (packages.foldl Registry.add registry).names ↔ name ∈ registry.names ∨ name ∈ packages := by
  constructor
  · intro hname
    rcases List.mem_map.mp hname with ⟨entry, hentry, rfl⟩
    rcases (mem_entries_addAll h).mp hentry with hold | ⟨-, hnew, -⟩
    · exact Or.inl (mem_names_of_mem_entries hold)
    · exact Or.inr hnew
  · intro hname
    by_cases hold : name ∈ registry.names
    · rcases List.mem_map.mp hold with ⟨entry, hentry, rfl⟩
      exact mem_names_of_mem_entries ((mem_entries_addAll h).mpr (Or.inl hentry))
    · have hnew : name ∈ packages := hname.resolve_left hold
      have hentry : ⟨name, false⟩ ∈ (packages.foldl Registry.add registry).entries :=
        (mem_entries_addAll h).mpr (Or.inr ⟨rfl, hnew, hold⟩)
      exact mem_names_of_mem_entries hentry

/-! ## Flags -/

/-- An entry as it is once some packages are marked. -/
def marked (packages : List String) (entry : RegistryEntry) : RegistryEntry :=
  { entry with isBuilt := entry.isBuilt || packages.contains entry.package }

/-- Marking packages one after the other sets the flags of their entries. -/
theorem entries_markAll (packages : List String) (registry : Registry) :
    (packages.foldl markBuilt registry).entries = registry.entries.map (marked packages) := by
  induction packages generalizing registry with
  | nil =>
    have hsame : marked [] = id := by
      funext entry
      simp [marked]
    rw [hsame, List.map_id]
    rfl
  | cons package rest ih =>
    rw [List.foldl_cons, ih, markBuilt, List.map_map]
    refine List.map_congr_left fun entry _ => ?_
    by_cases hname : entry.package = package
    · simp [marked, hname]
    · simp [marked, hname]

theorem names_markAll (packages : List String) (registry : Registry) :
    (packages.foldl markBuilt registry).names = registry.names := by
  rw [names, entries_markAll, List.map_map]
  rfl

/-- Packages that are marked already are not marked anew. -/
theorem markAll_markAll (packages : List String) (registry : Registry) :
    packages.foldl markBuilt (packages.foldl markBuilt registry) =
      packages.foldl markBuilt registry := by
  have htwice : marked packages ∘ marked packages = marked packages := by
    funext entry
    simp [marked]
  rw [Registry.mk.injEq, entries_markAll, entries_markAll, List.map_map, htwice]

/-- The packages without a flag are those outside of a list exactly if the flags say which packages
are in the list. -/
theorem external_eq_iff (h : registry.Increasing) {members : List String} :
    registry.external = registry.names.filter (!members.contains ·) ↔
      ∀ entry ∈ registry.entries, (entry.isBuilt = true ↔ entry.package ∈ members) := by
  constructor
  · intro hexternal entry hentry
    have hmem : entry.package ∈ registry.external ↔ entry.isBuilt = false := by
      rw [external, List.mem_map]
      constructor
      · rintro ⟨other, hother, hname⟩
        rw [List.mem_filter, Bool.not_eq_true'] at hother
        -- No other entry has the same name.
        rw [← h.unique hother.1 hentry hname]
        exact hother.2
      · intro hflag
        exact ⟨entry, List.mem_filter.mpr ⟨hentry, by simp [hflag]⟩, rfl⟩
    rw [hexternal, List.mem_filter, and_iff_right (mem_names_of_mem_entries hentry),
      Bool.not_eq_true', ← Bool.not_eq_true, List.contains_iff_mem] at hmem
    rw [← Bool.not_eq_false, ← hmem, not_not]
  · intro hflags
    rw [external, names, List.filter_map]
    congr 1
    refine List.filter_congr fun entry hentry => ?_
    rw [Function.comp_apply, Bool.eq_iff_iff, Bool.not_eq_true', Bool.not_eq_true',
      ← Bool.not_eq_true, hflags entry hentry, ← Bool.not_eq_true, List.contains_iff_mem]

end RosInterface.Registry
