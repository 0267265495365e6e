import Mathlib.Order.WellFounded
import RosInterface.Proofs.Computation
import RosInterface.Proofs.Resolution.Dependencies

namespace RosInterface.Catalog

/-! # Resolution without a memory

`walk` is the depth-first walk of a resolution that remembers nothing. The main statement says that
the walk with a memory has the same outcomes:

* `Resolves` is the result of a walk as a derivation: a type is linked with what its dependencies
  resolve to. It mentions neither depths nor paths, so it holds for a type wherever it is met;
* `Sound` memories hold nothing but such results. An entry of a sound memory stands for a walk that
  succeeds from every path, since a type that resolves cannot lead back to the path;
* `resolveWithin_computes` puts this together: from a sound memory a resolution has the outcome of
  the plain walk, and leaves a sound memory behind, also where it fails.
-/

/-- The walk of `resolveWithin` that remembers nothing. -/
def walk (catalog : Catalog) :
    Nat → List TypeIdentity → String → TypeIdentity → Except TypeError SignedType
  | 0, path, _, identity => .error (.circular (chainText (path ++ [identity])))
  | depth + 1, path, referencedBy, identity =>
    if path.contains identity then
      .error (.circular (chainText (path.dropWhile (· != identity) ++ [identity])))
    else
      match catalog.find? identity with
      | none => .error (.unknown identity.text referencedBy)
      | some (reference, descriptor) => do
        let dependencies ← descriptor.dependencyTypes.mapM
          (catalog.walk depth (path ++ [identity]) identity.text)
        link reference descriptor dependencies

/-- What `resolve` answers when nothing was resolved before. -/
def outcome (catalog : Catalog) (identity : TypeIdentity) : Except TypeError SignedType :=
  catalog.walk (catalog.size + 1) [] TypeError.rootName identity

/-- A type resolves to the link of its definition with what its dependencies resolve to. -/
inductive Resolves (catalog : Catalog) : TypeIdentity → SignedType → Prop where
  | intro {identity : TypeIdentity} {reference : TypeReference} {descriptor : Descriptor}
      {signed : SignedType} (parts : TypeIdentity → SignedType)
      (found : catalog.find? identity = some (reference, descriptor))
      (below : ∀ dependency ∈ descriptor.dependencyTypes,
        Resolves catalog dependency (parts dependency))
      (linked : link reference descriptor (descriptor.dependencyTypes.map parts) = .ok signed) :
      Resolves catalog identity signed

/-- A memory that holds only what the catalog's types resolve to. -/
def Sound (catalog : Catalog) (memory : ResolvedTypes) : Prop :=
  ∀ identity signed, memory.lookup identity = some signed → catalog.Resolves identity signed

theorem sound_nil (catalog : Catalog) : catalog.Sound [] := by
  intro identity signed hlookup
  simp at hlookup

namespace Resolves

variable {catalog : Catalog} {identity : TypeIdentity} {signed : SignedType}

theorem unique (h : catalog.Resolves identity signed) {other : SignedType}
    (hother : catalog.Resolves identity other) : signed = other := by
  induction h generalizing other with
  | intro parts found _ linked ih =>
    cases hother with
    | intro otherParts otherFound otherBelow otherLinked =>
      rw [found] at otherFound
      cases otherFound
      have hparts : ∀ dependency ∈ _, parts dependency = otherParts dependency :=
        fun dependency hdep => ih dependency hdep (otherBelow dependency hdep)
      rw [List.map_congr_left hparts, otherLinked] at linked
      exact (Except.ok.inj linked).symm

/-- More definitions leave the results that there are alone. -/
theorem mono {larger : Catalog}
    (hfind : ∀ identity entry, catalog.find? identity = some entry →
      larger.find? identity = some entry)
    (h : catalog.Resolves identity signed) : larger.Resolves identity signed := by
  induction h with
  | intro parts found _ linked ih => exact .intro parts (hfind _ _ found) ih linked

/-- There are no endless descents below a type that resolves. -/
theorem acc (h : catalog.Resolves identity signed) :
    Acc (fun used user => catalog.Depends user used) identity := by
  induction h with
  | intro parts found _ _ ih =>
    refine Acc.intro _ ?_
    rintro used ⟨reference, descriptor, hfind, hused⟩
    rw [found] at hfind
    cases hfind
    exact ih used hused

theorem not_circular (h : catalog.Resolves identity signed) :
    ¬ Relation.TransGen catalog.Depends identity identity := by
  intro hcycle
  -- A cycle would be an endless descent from the type.
  have hacc := h.acc.transGen
  clear h
  rw [← Relation.transGen_swap] at hcycle
  induction hacc with
  | intro identity _ ih => exact ih identity hcycle hcycle

/-- A walk that gets to a type that resolves succeeds with it, whatever path it came by. -/
theorem walk_eq (h : catalog.Resolves identity signed) {path : List TypeIdentity} {depth : Nat}
    (hpath : catalog.LeadsTo path identity) (hdepth : catalog.size < depth + path.length)
    (referencedBy : String) :
    catalog.walk depth path referencedBy identity = .ok signed := by
  induction h generalizing path depth referencedBy with
  | @intro identity reference descriptor signed parts found below linked ih =>
    -- The path leads to the type, so it would be part of a cycle if it were on the path.
    have hnew : identity ∉ path := by
      intro hmem
      exact (Resolves.intro parts found below linked).not_circular (hpath.transGen hmem)
    -- Paths are no longer than the catalog is large, so there is depth left.
    have hlength := hpath.length_le
    obtain ⟨depth, rfl⟩ : ∃ below, depth = below + 1 := ⟨depth - 1, by omega⟩
    have hparts : ∀ dependency ∈ descriptor.dependencyTypes,
        catalog.walk depth (path ++ [identity]) identity.text dependency =
          .ok (parts dependency) := by
      intro dependency hdep
      refine ih dependency hdep (hpath.snoc hnew ⟨reference, descriptor, found, hdep⟩) ?_ _
      rw [List.length_append, List.length_singleton]
      omega
    simp only [walk, List.contains_iff_mem, if_neg hnew, found, mapM_eq_ok_map hparts]
    exact linked

end Resolves

/-- Whatever a walk succeeds with is what the type resolves to. -/
theorem resolves_of_walk {catalog : Catalog} {depth : Nat} {path : List TypeIdentity}
    {referencedBy : String} {identity : TypeIdentity} {signed : SignedType}
    (hwalk : catalog.walk depth path referencedBy identity = .ok signed) :
    catalog.Resolves identity signed := by
  induction depth generalizing path referencedBy identity signed with
  | zero => simp [walk] at hwalk
  | succ depth ih =>
    rw [walk] at hwalk
    split at hwalk
    · cases hwalk
    · split at hwalk
      · cases hwalk
      · rename_i reference descriptor hfind
        rcases bind_eq_ok_iff.mp hwalk with ⟨dependencies, hparts, hlink⟩
        rcases exists_of_mapM_eq_ok hparts with ⟨parts, hok, rfl⟩
        exact .intro parts hfind (fun dependency hdep => ih (hok dependency hdep)) hlink

/-- The walk succeeds exactly with what the type resolves to. -/
theorem outcome_eq_ok_iff {catalog : Catalog} {identity : TypeIdentity} {signed : SignedType} :
    catalog.outcome identity = .ok signed ↔ catalog.Resolves identity signed := by
  constructor
  · exact resolves_of_walk
  · intro h
    exact h.walk_eq (.nil catalog identity) (by simp) TypeError.rootName

/-! ## With a memory -/

theorem Sound.cons {catalog : Catalog} {memory : ResolvedTypes} (hsound : catalog.Sound memory)
    {identity : TypeIdentity} {signed : SignedType} (h : catalog.Resolves identity signed) :
    catalog.Sound ((identity, signed) :: memory) := by
  intro other value hlookup
  rw [List.lookup_cons] at hlookup
  split at hlookup
  · rename_i hsame
    rw [eq_of_beq hsame]
    cases hlookup
    exact h
  · exact hsound other value hlookup

/-- A resolution that starts from a sound memory has the outcome of the walk that remembers nothing
and keeps the memory sound. -/
theorem resolveWithin_computes (catalog : Catalog) {depth : Nat} {path : List TypeIdentity}
    {identity : TypeIdentity} (hpath : catalog.LeadsTo path identity)
    (hdepth : catalog.size < depth + path.length) (referencedBy : String) :
    Computes catalog.Sound (catalog.resolveWithin depth path referencedBy identity)
      (catalog.walk depth path referencedBy identity) := by
  induction depth generalizing path identity referencedBy with
  | zero =>
    have hlength := hpath.length_le
    omega
  | succ depth ih =>
    intro memory hsound
    have hget : (get : Resolution ResolvedTypes).run memory = (.ok memory, memory) := rfl
    rw [resolveWithin, run_bind, hget]
    cases hlookup : memory.lookup identity with
    | some signed =>
      -- The memory answers at once, and the walk would have come to the same result.
      simp only [hlookup]
      rw [(hsound identity signed hlookup).walk_eq hpath hdepth referencedBy]
      exact ⟨rfl, hsound⟩
    | none =>
      simp only [hlookup]
      rw [walk]
      by_cases hmem : identity ∈ path
      · rw [if_pos (List.contains_iff_mem.mpr hmem), if_pos (List.contains_iff_mem.mpr hmem)]
        exact ⟨rfl, hsound⟩
      · rw [if_neg (by simpa using hmem), if_neg (by simpa using hmem)]
        cases hfind : catalog.find? identity with
        | none => exact ⟨rfl, hsound⟩
        | some entry =>
          rcases entry with ⟨reference, descriptor⟩
          have hparts := Computes.mapM fun dependency hdep =>
            ih (hpath.snoc hmem ⟨reference, descriptor, hfind, hdep⟩)
              (by rw [List.length_append, List.length_singleton]; omega) identity.text
          refine hparts.bind (fun dependencies hok => ?_) memory hsound
          intro after hafter
          cases hlink : link reference descriptor dependencies with
          | error error => exact ⟨rfl, hafter⟩
          | ok signed =>
            -- Only a type whose dependencies all resolved is ever remembered.
            rcases exists_of_mapM_eq_ok hok with ⟨parts, hall, rfl⟩
            have hbelow : ∀ dependency ∈ descriptor.dependencyTypes,
                catalog.Resolves dependency (parts dependency) :=
              fun dependency hdep => resolves_of_walk (hall dependency hdep)
            exact ⟨rfl, hafter.cons (.intro parts hfind hbelow hlink)⟩

theorem resolve_computes (catalog : Catalog) (identity : TypeIdentity) :
    Computes catalog.Sound (catalog.resolve identity) (catalog.outcome identity) :=
  resolveWithin_computes catalog (.nil catalog identity) (by simp) TypeError.rootName

/-! ## Other catalogs -/

/-- Walks in two catalogs agree where the catalogs do. The types that they agree on need only be
closed under dependencies, so that definitions out of reach play no part; nor do the depths, as long
as both suffice. -/
theorem walk_congr {a b : Catalog} {region : TypeIdentity → Prop}
    (hfind : ∀ identity, region identity → a.find? identity = b.find? identity)
    (hclosed : ∀ user used, region user → a.Depends user used → region used)
    {identity : TypeIdentity} (hregion : region identity) {path : List TypeIdentity}
    (ha : a.LeadsTo path identity) (hb : b.LeadsTo path identity) {depth other : Nat}
    (hdepth : a.size < depth + path.length) (hother : b.size < other + path.length)
    (referencedBy : String) :
    a.walk depth path referencedBy identity = b.walk other path referencedBy identity := by
  -- The induction is on the first depth. The second one may differ, since catalogs of different
  -- sizes start with different depths.
  induction depth generalizing other path referencedBy identity with
  | zero =>
    have hlength := ha.length_le
    omega
  | succ depth ih =>
    have hlength := hb.length_le
    obtain ⟨other, rfl⟩ : ∃ below, other = below + 1 := ⟨other - 1, by omega⟩
    rw [walk, walk, ← hfind identity hregion]
    by_cases hmem : identity ∈ path
    · rw [if_pos (List.contains_iff_mem.mpr hmem), if_pos (List.contains_iff_mem.mpr hmem)]
    · rw [if_neg (by simpa using hmem), if_neg (by simpa using hmem)]
      cases hentry : a.find? identity with
      | none => rfl
      | some entry =>
        rcases entry with ⟨reference, descriptor⟩
        have hparts : descriptor.dependencyTypes.mapM
              (a.walk depth (path ++ [identity]) identity.text) =
            descriptor.dependencyTypes.mapM
              (b.walk other (path ++ [identity]) identity.text) := by
          refine mapM_congr fun dependency hdep => ?_
          -- The definition is that of both catalogs, so both paths go on.
          have hstep : a.Depends identity dependency := ⟨reference, descriptor, hentry, hdep⟩
          have hsame : b.find? identity = some (reference, descriptor) :=
            (hfind identity hregion).symm.trans hentry
          refine ih (hclosed identity dependency hregion hstep) (ha.snoc hmem hstep)
            (hb.snoc hmem ⟨reference, descriptor, hsame, hdep⟩) ?_ ?_ identity.text
          · rw [List.length_append, List.length_singleton]
            omega
          · rw [List.length_append, List.length_singleton]
            omega
        simp only [hparts]

theorem outcome_congr {a b : Catalog} {region : TypeIdentity → Prop}
    (hfind : ∀ identity, region identity → a.find? identity = b.find? identity)
    (hclosed : ∀ user used, region user → a.Depends user used → region used)
    {identity : TypeIdentity} (hregion : region identity) :
    a.outcome identity = b.outcome identity :=
  walk_congr hfind hclosed hregion (.nil a identity) (.nil b identity) (by simp) (by simp)
    TypeError.rootName

end RosInterface.Catalog
