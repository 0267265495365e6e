import Mathlib.Data.List.Chain
import Mathlib.Data.List.Nodup
import Mathlib.Logic.Relation
import RosInterface.MessageType.Catalog

namespace RosInterface.Catalog

/-! # Dependencies between the types of a catalog

The fields of its definitions make a catalog a graph. A resolution walks this graph, and the types
that it is in the middle of form a path. Such a path is no longer than the catalog is large, which
is why the depth of a walk never runs out.
-/

/-! ## Names -/

/-- The names of all definitions, in the order in which they were added. -/
def names (catalog : Catalog) : List TypeIdentity :=
  catalog.definitions.map (·.1.identity)

theorem length_names (catalog : Catalog) : catalog.names.length = catalog.size := by
  simp [names, size]

theorem mem_names_of_find? {catalog : Catalog} {identity : TypeIdentity}
    {entry : TypeReference × Descriptor} (hfind : catalog.find? identity = some entry) :
    identity ∈ catalog.names := by
  have hmem : entry ∈ catalog.definitions := List.mem_of_find?_eq_some hfind
  have hname : entry.1.identity = identity := by simpa using List.find?_some hfind
  exact List.mem_map.mpr ⟨entry, hmem, hname⟩

theorem find?_eq_none_iff {catalog : Catalog} {identity : TypeIdentity} :
    catalog.find? identity = none ↔ identity ∉ catalog.names := by
  unfold find? names
  rw [List.find?_eq_none]
  simp

/-- Where names are distinct, a definition is found under its name. -/
theorem find?_eq_some_of_mem {catalog : Catalog} (hnodup : catalog.names.Nodup)
    {entry : TypeReference × Descriptor} (hmem : entry ∈ catalog.definitions) :
    catalog.find? entry.1.identity = some entry := by
  cases hfind : catalog.find? entry.1.identity with
  | none =>
    have hname : entry.1.identity ∈ catalog.names := List.mem_map.mpr ⟨entry, hmem, rfl⟩
    exact absurd hname (find?_eq_none_iff.mp hfind)
  | some other =>
    have hother : other ∈ catalog.definitions := List.mem_of_find?_eq_some hfind
    have hname : other.1.identity = entry.1.identity := by simpa using List.find?_some hfind
    rw [List.inj_on_of_nodup_map hnodup hother hmem hname]

/-- What is found does not depend on the order of the definitions. -/
theorem find?_eq_of_perm {a b : Catalog} (hnodup : a.names.Nodup)
    (hperm : a.definitions.Perm b.definitions) (identity : TypeIdentity) :
    a.find? identity = b.find? identity := by
  have hnames : a.names.Perm b.names := hperm.map _
  cases hfind : a.find? identity with
  | none =>
    have hnot : identity ∉ b.names := by
      intro hmem
      exact find?_eq_none_iff.mp hfind (hnames.mem_iff.mpr hmem)
    exact (find?_eq_none_iff.mpr hnot).symm
  | some entry =>
    have hname : entry.1.identity = identity := by simpa using List.find?_some hfind
    have hmem : entry ∈ b.definitions := hperm.mem_iff.mp (List.mem_of_find?_eq_some hfind)
    rw [← hname, find?_eq_some_of_mem (hnames.nodup_iff.mp hnodup) hmem]

/-! ## Additions -/

theorem add_eq_ok_iff {catalog extended : Catalog} {reference : TypeReference}
    {descriptor : Descriptor} :
    catalog.add reference descriptor = .ok extended ↔
      reference.identity ∉ catalog.names ∧
        extended = ⟨catalog.definitions ++ [(reference, descriptor)]⟩ := by
  unfold add
  cases hfind : catalog.find? reference.identity with
  | none =>
    have hnot := find?_eq_none_iff.mp hfind
    constructor
    · intro h
      exact ⟨hnot, (Except.ok.inj h).symm⟩
    · rintro ⟨-, rfl⟩
      rfl
  | some entry =>
    have hmem := mem_names_of_find? hfind
    constructor
    · intro h
      cases h
    · rintro ⟨hnot, -⟩
      exact absurd hmem hnot

theorem names_nodup_of_add {catalog extended : Catalog} {reference : TypeReference}
    {descriptor : Descriptor} (hadd : catalog.add reference descriptor = .ok extended)
    (hnodup : catalog.names.Nodup) : extended.names.Nodup := by
  rcases add_eq_ok_iff.mp hadd with ⟨hnew, rfl⟩
  have hsplit : names ⟨catalog.definitions ++ [(reference, descriptor)]⟩ =
      catalog.names ++ [reference.identity] := by simp [names]
  rw [hsplit]
  exact hnodup.append (List.nodup_singleton _) (List.disjoint_singleton.mpr hnew)

/-- An addition changes nothing about the definitions that are there. -/
theorem find?_of_add {catalog extended : Catalog} {reference : TypeReference}
    {descriptor : Descriptor} (hadd : catalog.add reference descriptor = .ok extended)
    {identity : TypeIdentity} {entry : TypeReference × Descriptor}
    (hfind : catalog.find? identity = some entry) : extended.find? identity = some entry := by
  rcases add_eq_ok_iff.mp hadd with ⟨-, rfl⟩
  unfold find? at hfind ⊢
  rw [List.find?_append, hfind]
  rfl

/-! ## The graph -/

/-- The first type has a field of the second one. -/
def Depends (catalog : Catalog) (user used : TypeIdentity) : Prop :=
  ∃ reference descriptor, catalog.find? user = some (reference, descriptor) ∧
    used ∈ descriptor.dependencyTypes

/-- Each member of a path has a field of the next one's type, the last member has one of the type
in question, and no member is met twice. -/
structure LeadsTo (catalog : Catalog) (path : List TypeIdentity) (identity : TypeIdentity) :
    Prop where
  chain : (path ++ [identity]).IsChain catalog.Depends
  nodup : path.Nodup

namespace LeadsTo

variable {catalog : Catalog} {path : List TypeIdentity} {identity dependency : TypeIdentity}

theorem nil (catalog : Catalog) (identity : TypeIdentity) : catalog.LeadsTo [] identity :=
  ⟨List.isChain_singleton identity, List.nodup_nil⟩

/-- A path goes on through a type that is not on it yet. -/
theorem snoc (hpath : catalog.LeadsTo path identity) (hnew : identity ∉ path)
    (hdep : catalog.Depends identity dependency) :
    catalog.LeadsTo (path ++ [identity]) dependency := by
  constructor
  · refine List.isChain_append.mpr ⟨hpath.chain, List.isChain_singleton dependency, ?_⟩
    intro last hlast next hnext
    simp only [List.getLast?_append, List.getLast?_singleton, Option.some_or,
      Option.mem_some_iff, List.head?_cons] at hlast hnext
    subst hlast hnext
    exact hdep
  · exact hpath.nodup.append (List.nodup_singleton identity) (List.disjoint_singleton.mpr hnew)

/-- Every member of a path reaches the type that the path leads to. -/
theorem transGen (hpath : catalog.LeadsTo path identity) {member : TypeIdentity}
    (hmember : member ∈ path) : Relation.TransGen catalog.Depends member identity := by
  -- Only the chain goes on to a shorter path; the path is as well taken from its end.
  have hchain := hpath.chain
  clear hpath
  induction path generalizing member with
  | nil => simp at hmember
  | cons first rest ih =>
    rw [List.cons_append, List.isChain_cons] at hchain
    rcases hchain with ⟨hfirst, hrest⟩
    rcases List.mem_cons.mp hmember with rfl | hmember
    · cases rest with
      | nil => exact .single (hfirst identity (by simp))
      | cons second others =>
        exact .head (hfirst second (by simp)) (ih List.mem_cons_self hrest)
    · exact ih hmember hrest

/-- Only types of the catalog have fields. -/
theorem subset_names (hpath : catalog.LeadsTo path identity) : path ⊆ catalog.names := by
  intro member hmember
  have hreach := hpath.transGen hmember
  obtain ⟨next, ⟨reference, descriptor, hfind, -⟩, -⟩ :=
    Relation.TransGen.head'_iff.mp hreach
  exact mem_names_of_find? hfind

theorem length_le (hpath : catalog.LeadsTo path identity) : path.length ≤ catalog.size := by
  rw [← length_names]
  exact hpath.nodup.length_le_of_subset hpath.subset_names

end LeadsTo

end RosInterface.Catalog
