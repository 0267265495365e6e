import RosInterface.Proofs.FirstOccurrences
import RosInterface.Proofs.Resolution.Structural

namespace RosInterface

/-! # Flattened definitions

The walk behind a flattened definition leaves out what it has found before. `expansion` is the same
walk without that: it goes into every dependency, however often it meets it. The main statement,
`definition_flattens`, says that the walk finds the first occurrences of the expansion, which are
the types that can be reached.

Leaving a type out leaves out what is below it. Nothing is lost by that as long as whatever was
found was found with all that is below it, which is `Settled`. A type in the middle of its own walk
is not settled; it is not met again there, since types that resolve do not contain themselves.
-/

namespace LinkedType

/-! ## Expansions -/

mutual

/-- Everything below a type, in a walk that takes a type before its dependencies and goes into all
of them. -/
def expansion : LinkedType → List LinkedType
  | mk _ _ dependencies => expansions dependencies

/-- Some types with everything below them, one type after the other. -/
def expansions : List LinkedType → List LinkedType
  | [] => []
  | type :: others => type :: expansion type ++ expansions others

end

theorem expansion_eq (type : LinkedType) : type.expansion = expansions type.dependencies := by
  cases type
  rfl

theorem expansions_eq_flatMap (types : List LinkedType) :
    expansions types = types.flatMap fun type => type :: type.expansion := by
  induction types with
  | nil => rfl
  | cons type others ih => rw [expansions, ih, List.flatMap_cons]

/-- The names of some types. -/
def namesOf (types : List LinkedType) : List TypeIdentity :=
  types.map identity

theorem namesOf_append (types others : List LinkedType) :
    namesOf (types ++ others) = namesOf types ++ namesOf others :=
  List.map_append

mutual

/-- What is below a member of an expansion is part of it. -/
theorem expansion_subset (type : LinkedType) {member : LinkedType}
    (hmember : member ∈ type.expansion) : member.expansion ⊆ type.expansion := by
  cases type with
  | mk reference descriptor dependencies => exact expansions_subset dependencies hmember

theorem expansions_subset (types : List LinkedType) {member : LinkedType}
    (hmember : member ∈ expansions types) : member.expansion ⊆ expansions types := by
  cases types with
  | nil => cases hmember
  | cons type others =>
    have hbelow := @expansion_subset type member
    have hrest := @expansions_subset others member
    rw [expansions, List.mem_append, List.mem_cons] at hmember
    rw [expansions]
    rcases hmember with (rfl | hmember) | hmember
    · exact fun used hused => List.mem_append_left _ (List.mem_cons_of_mem _ hused)
    · exact fun used hused => List.mem_append_left _ (List.mem_cons_of_mem _ (hbelow hmember hused))
    · exact fun used hused => List.mem_append_right _ (hrest hmember hused)

end

/-! ## What a walk finds -/

/-- Types of which each name stands for one, and that have no type of their own name below them. -/
structure WellNamed (p : LinkedType → Prop) : Prop where
  closed : ∀ type, p type → ∀ dependency ∈ type.dependencies, p dependency
  unique : ∀ a b, p a → p b → a.identity = b.identity → a = b
  acyclic : ∀ type, p type → type.identity ∉ namesOf type.expansion

variable {p : LinkedType → Prop}

mutual

theorem forall_expansion
    (hclosed : ∀ type, p type → ∀ dependency ∈ type.dependencies, p dependency)
    (type : LinkedType) (hbelow : ∀ dependency ∈ type.dependencies, p dependency) :
    ∀ member ∈ type.expansion, p member := by
  cases type with
  | mk reference descriptor dependencies => exact forall_expansions hclosed dependencies hbelow

/-- What passes from types to their dependencies holds in a whole expansion. -/
theorem forall_expansions
    (hclosed : ∀ type, p type → ∀ dependency ∈ type.dependencies, p dependency)
    (types : List LinkedType) (htypes : ∀ type ∈ types, p type) :
    ∀ member ∈ expansions types, p member := by
  cases types with
  | nil =>
    intro member hmember
    cases hmember
  | cons type others =>
    have htype := htypes type List.mem_cons_self
    have hbelow := forall_expansion hclosed type (hclosed type htype)
    have hothers := forall_expansions hclosed others fun other hother =>
      htypes other (List.mem_cons_of_mem type hother)
    intro member hmember
    rw [expansions, List.mem_append, List.mem_cons] at hmember
    rcases hmember with (rfl | hmember) | hmember
    · exact htype
    · exact hbelow member hmember
    · exact hothers member hmember

end

/-- Whichever of some types is found by name, everything below it is found as well. -/
def Settled (found : List TypeIdentity) (types : List LinkedType) : Prop :=
  ∀ type ∈ types, type.identity ∈ found → namesOf type.expansion ⊆ found

/-- Once a type was visited, all types are settled that were before or are below it. -/
theorem Settled.visited {found : List TypeIdentity} {types : List LinkedType} {type : LinkedType}
    (h : WellNamed p) (htype : p type) (htypes : ∀ other ∈ types, p other)
    (hsettled : Settled found types) :
    Settled (found ++ namesOf (type :: type.expansion)).eraseDups types := by
  intro other hother hfound name hname
  rw [List.mem_eraseDups, List.mem_append] at hfound ⊢
  rcases hfound with hold | hnew
  · exact Or.inl (hsettled other hother hold hname)
  · right
    rcases List.mem_map.mp hnew with ⟨member, hmember, hidentity⟩
    have hmembers : ∀ member ∈ type :: type.expansion, p member :=
      List.forall_mem_cons.mpr ⟨htype, forall_expansion h.closed type (h.closed type htype)⟩
    -- The name stands for one type only, so `other` is the type below.
    have hsame : member = other :=
      h.unique member other (hmembers member hmember) (htypes other hother) hidentity
    subst hsame
    refine List.mem_cons_of_mem _ (List.map_subset _ ?_ hname)
    rcases List.mem_cons.mp hmember with rfl | hbelow
    · exact List.Subset.refl _
    · exact expansion_subset type hbelow

mutual

/-- A visit finds what the expansion has, each name where it occurs first. -/
theorem names_visit (h : WellNamed p) (type : LinkedType) (found : List LinkedType)
    (htype : p type) (hdistinct : (namesOf found).Nodup)
    (hsettled : Settled (namesOf found) (type :: type.expansion)) :
    namesOf (visit type found) =
      (namesOf found ++ namesOf (type :: type.expansion)).eraseDups := by
  cases type with
  | mk reference descriptor dependencies =>
    unfold visit
    split
    · rename_i hany
      -- The type was found before, with all that is below it.
      have hmem : reference.identity ∈ namesOf found := by
        simpa [namesOf] using hany
      have hsub : namesOf (mk reference descriptor dependencies ::
          (mk reference descriptor dependencies).expansion) ⊆ namesOf found :=
        List.cons_subset.mpr ⟨hmem, hsettled _ List.mem_cons_self hmem⟩
      rw [eraseDups_append_of_subset hsub, eraseDups_eq_self hdistinct]
    · rename_i hany
      have hnew : reference.identity ∉ namesOf found := by
        simpa [namesOf] using hany
      have hnames : namesOf (found ++ [mk reference descriptor dependencies]) =
          namesOf found ++ [reference.identity] :=
        namesOf_append found _
      have hdistinct' : (namesOf (found ++ [mk reference descriptor dependencies])).Nodup := by
        rw [hnames]
        exact hdistinct.append (List.nodup_singleton _) (List.disjoint_singleton.mpr hnew)
      have hsettled' : Settled (namesOf (found ++ [mk reference descriptor dependencies]))
          (expansions dependencies) := by
        intro member hmember hfound
        rw [hnames, List.mem_append, List.mem_singleton] at hfound
        rcases hfound with hfound | hself
        · intro name hname
          rw [hnames]
          exact List.mem_append_left _
            (hsettled member (List.mem_cons_of_mem _ hmember) hfound hname)
        · -- The type itself is not below itself.
          have hbelow : reference.identity ∈ namesOf (expansions dependencies) :=
            List.mem_map.mpr ⟨member, hmember, hself⟩
          exact absurd hbelow (h.acyclic _ htype)
      rw [names_visitAll h dependencies _ (h.closed _ htype) hdistinct' hsettled', hnames,
        List.append_assoc]
      rfl

theorem names_visitAll (h : WellNamed p) (types found : List LinkedType)
    (htypes : ∀ type ∈ types, p type) (hdistinct : (namesOf found).Nodup)
    (hsettled : Settled (namesOf found) (expansions types)) :
    namesOf (visitAll types found) =
      (namesOf found ++ namesOf (expansions types)).eraseDups := by
  cases types with
  | nil =>
    unfold visitAll
    have hnone : namesOf (expansions []) = [] := rfl
    rw [hnone, List.append_nil, eraseDups_eq_self hdistinct]
  | cons type others =>
    have htype := htypes type List.mem_cons_self
    have hothers : ∀ other ∈ others, p other := fun other hother =>
      htypes other (List.mem_cons_of_mem type hother)
    rw [expansions] at hsettled ⊢
    have hfirst := names_visit h type found htype hdistinct fun member hmember =>
      hsettled member (List.mem_append_left _ hmember)
    have hrest : Settled (namesOf (visit type found)) (expansions others) := by
      rw [hfirst]
      exact Settled.visited h htype (forall_expansions h.closed others hothers)
        fun member hmember => hsettled member (List.mem_append_right _ hmember)
    have hdistinct' : (namesOf (visit type found)).Nodup := by
      rw [hfirst]
      exact nodup_eraseDups _
    rw [visitAll, names_visitAll h others _ hothers hdistinct' hrest, hfirst,
      eraseDups_eraseDups_append, List.append_assoc, namesOf_append]

end

/-- The closure of a type has the names of its expansion, each one where it occurs first. -/
theorem names_closure (h : WellNamed p) {type : LinkedType}
    (hbelow : ∀ dependency ∈ type.dependencies, p dependency) :
    namesOf type.closure = (namesOf type.expansion).eraseDups := by
  have hsettled : Settled (namesOf []) (expansions type.dependencies) := by
    intro member _ hfound
    cases hfound
  have hnames := names_visitAll h type.dependencies [] hbelow List.nodup_nil hsettled
  rw [expansion_eq]
  exact hnames

/-- A flattened definition is the text of the type itself with the blocks of its closure behind
it. -/
theorem definition_eq (type : LinkedType) :
    type.definition = type.descriptor.definition ++ String.join (type.closure.map block) := by
  have hfold : ∀ (types : List LinkedType) (text : String),
      types.foldl (fun text dependency => text ++ dependency.block) text =
        text ++ String.join (types.map block) := by
    intro types
    induction types with
    | nil => simp
    | cons type others ih =>
      intro text
      rw [List.foldl_cons, ih, List.map_cons, String.join_cons, String.append_assoc]
  exact hfold type.closure type.descriptor.definition

end LinkedType

namespace Catalog

variable {catalog : Catalog} {identity : TypeIdentity} {signed : SignedType}

/-! ## Resolved types -/

/-- The text of the definition under a name. -/
def textOf (catalog : Catalog) (name : TypeIdentity) : String :=
  ((catalog.find? name).map (·.2.definition)).getD ""

/-- The part of a flattened definition that a name stands for. -/
def blockOf (catalog : Catalog) (name : TypeIdentity) : String :=
  "\n" ++ LinkedType.separator ++ "\nMSG: " ++ name.text ++ "\n" ++ catalog.textOf name

/-- Everything that a type depends on, in a walk through the definitions that takes a type before
its dependencies, goes into all of them and is at most `depth` definitions deep. -/
def unfolding (catalog : Catalog) : Nat → TypeIdentity → List TypeIdentity
  | 0, _ => []
  | depth + 1, identity =>
    match catalog.find? identity with
    | none => []
    | some (_, descriptor) =>
      descriptor.dependencyTypes.flatMap fun used => used :: unfolding catalog depth used

theorem Resolves.of_mem_expansion (h : catalog.Resolves identity signed) {type : LinkedType}
    (htype : type ∈ signed.type.expansion) : catalog.LiesBelow identity type :=
  LinkedType.forall_expansion (fun _ huser _ hdep => huser.dependency hdep) signed.type
    (fun _ hdep => h.liesBelow hdep) type htype

/-- The names in an expansion, by the declared dependencies of the type. -/
theorem namesOf_expansion {reference : TypeReference} {descriptor : Descriptor}
    {parts : TypeIdentity → SignedType}
    (below : ∀ used ∈ descriptor.dependencyTypes, catalog.Resolves used (parts used))
    (linked : link reference descriptor (descriptor.dependencyTypes.map parts) = .ok signed) :
    LinkedType.namesOf signed.type.expansion = descriptor.dependencyTypes.flatMap fun used =>
      used :: LinkedType.namesOf (parts used).type.expansion := by
  rw [type_of_link linked, LinkedType.expansion, LinkedType.expansions_eq_flatMap,
    LinkedType.namesOf, List.map_flatMap, List.flatMap_map, List.flatMap_map]
  refine List.flatMap_congr fun used hused => ?_
  rw [List.map_cons, (below used hused).identity_eq]
  rfl

/-- The dependency tree of a resolved type has the names that the walk through the definitions
meets. -/
theorem Resolves.unfolding_eq (h : catalog.Resolves identity signed) {depth : Nat}
    (hdepth : catalog.size ≤ depth) :
    catalog.unfolding depth identity = LinkedType.namesOf signed.type.expansion := by
  refine h.within (motive := fun depth identity signed =>
    catalog.unfolding depth identity = LinkedType.namesOf signed.type.expansion) ?_ hdepth
  intro depth identity reference descriptor parts signed found below linked hparts
  rw [unfolding, found, namesOf_expansion below linked]
  exact List.flatMap_congr fun used hused => by rw [hparts used hused]

/-- The names in the expansion of a resolved type are those of the types it depends on. -/
theorem Resolves.mem_expansion_iff (h : catalog.Resolves identity signed) {used : TypeIdentity} :
    used ∈ LinkedType.namesOf signed.type.expansion ↔
      Relation.TransGen catalog.Depends identity used := by
  constructor
  · intro hused
    rcases List.mem_map.mp hused with ⟨type, htype, rfl⟩
    exact (h.of_mem_expansion htype).1
  · intro hreach
    induction h with
    | @intro identity reference descriptor signed parts found below linked ih =>
      rw [namesOf_expansion below linked, List.mem_flatMap]
      obtain ⟨next, ⟨otherReference, otherDescriptor, hfind, hnext⟩, hrest⟩ :=
        Relation.TransGen.head'_iff.mp hreach
      rw [found] at hfind
      cases hfind
      refine ⟨next, hnext, List.mem_cons.mpr ?_⟩
      rcases Relation.reflTransGen_iff_eq_or_transGen.mp hrest with heq | hrest
      · exact Or.inl heq
      · exact Or.inr (ih next hnext hrest)

/-- The types that a catalog resolves to are well named. -/
theorem wellNamed (catalog : Catalog) : LinkedType.WellNamed fun type =>
    ∃ signed, catalog.Resolves type.identity signed ∧ signed.type = type where
  closed := by
    rintro type ⟨signed, hresolves, rfl⟩ dependency hdep
    exact (hresolves.liesBelow hdep).2
  unique := by
    rintro a b ⟨signed, ha, rfl⟩ ⟨other, hb, rfl⟩ hidentity
    rw [← hidentity] at hb
    rw [ha.unique hb]
  acyclic := by
    rintro type ⟨signed, hresolves, rfl⟩ hmem
    exact hresolves.not_circular (hresolves.mem_expansion_iff.mp hmem)

theorem Resolves.find?_eq (h : catalog.Resolves identity signed) :
    catalog.find? identity = some (signed.type.reference, signed.type.descriptor) := by
  cases h with
  | intro parts found below linked =>
    rw [type_of_link linked]
    exact found

theorem Resolves.textOf_eq (h : catalog.Resolves identity signed) :
    catalog.textOf identity = signed.type.descriptor.definition := by
  unfold textOf
  rw [h.find?_eq]
  rfl

/-- A flattened definition is the text under the name of the type, and then a block for each name
that its expansion has, at its first occurrence. -/
theorem Resolves.definition_eq (h : catalog.Resolves identity signed) :
    signed.type.definition = catalog.textOf identity ++ String.join
      ((LinkedType.namesOf signed.type.expansion).eraseDups.map catalog.blockOf) := by
  have hnames : LinkedType.namesOf signed.type.closure =
      (LinkedType.namesOf signed.type.expansion).eraseDups :=
    LinkedType.names_closure catalog.wellNamed fun dependency hdep => (h.liesBelow hdep).2
  have hblocks : signed.type.closure.map LinkedType.block =
      (LinkedType.namesOf signed.type.closure).map catalog.blockOf := by
    rw [LinkedType.namesOf, List.map_map]
    refine List.map_congr_left fun type htype => ?_
    rcases (h.of_mem_closure htype).2 with ⟨below, hresolves, rfl⟩
    show LinkedType.block below.type = catalog.blockOf below.type.identity
    rw [blockOf, hresolves.textOf_eq]
    rfl
  rw [LinkedType.definition_eq, hblocks, hnames, h.textOf_eq]

end Catalog

/-! ## Resolvers -/

namespace Resolver

/-- The flattened definition of a resolved type consists of its own text and a block for every type
that it depends on, each one once and the type itself never. The blocks come in the order in which
the full expansion of the dependency tree has the types first, and this expansion is that of the
registered definitions. -/
theorem definition_flattens {calls : List Call} {identity : TypeIdentity} {signed : SignedType}
    (h : ((performAll {} calls).resolve identity).1 = .ok signed) :
    let catalog := (performAll {} calls).catalog
    let expanded := LinkedType.namesOf signed.type.expansion
    signed.type.definition = catalog.textOf identity ++
        String.join (expanded.eraseDups.map catalog.blockOf) ∧
      (∀ used, used ∈ expanded.eraseDups ↔ Relation.TransGen catalog.Depends identity used) ∧
      expanded.eraseDups.Nodup ∧
      identity ∉ expanded.eraseDups ∧
      ∀ depth, catalog.size ≤ depth → catalog.unfolding depth identity = expanded := by
  intro catalog expanded
  have hresolves : catalog.Resolves identity signed := resolve_eq_ok_iff.mp h
  have hmem : ∀ used, used ∈ expanded.eraseDups ↔
      Relation.TransGen catalog.Depends identity used := by
    intro used
    rw [List.mem_eraseDups]
    exact hresolves.mem_expansion_iff
  refine ⟨hresolves.definition_eq, hmem, nodup_eraseDups expanded, ?_, ?_⟩
  · intro hself
    exact hresolves.not_circular ((hmem identity).mp hself)
  · exact fun depth hdepth => hresolves.unfolding_eq hdepth

/-- Two ways lead from the first type to the last one. -/
def diamondCalls : List Call :=
  [.add (.message "p" "Left") ⟨[.field ⟨.message "p" "Last", "x"⟩], "Last x"⟩,
    .add (.message "p" "Last") ⟨[.field ⟨.builtIn "int8", "y"⟩], "int8 y"⟩,
    .add (.message "p" "First") ⟨[.field ⟨.message "p" "Left", "l"⟩,
      .field ⟨.message "p" "Right", "r"⟩], "Left l\nRight r"⟩,
    .add (.message "p" "Right") ⟨[.field ⟨.message "p" "Last", "x"⟩], "Last x"⟩]

/-- The expansion meets the last type twice; its block stands where it is met first. -/
theorem diamondCalls_flattened :
    ∃ signed, ((performAll {} diamondCalls).resolve ⟨some "p", "First"⟩).1 = .ok signed ∧
      let catalog := (performAll {} diamondCalls).catalog
      catalog.unfolding 4 ⟨some "p", "First"⟩ = [⟨some "p", "Left"⟩, ⟨some "p", "Last"⟩,
        ⟨some "p", "Right"⟩, ⟨some "p", "Last"⟩] ∧
      signed.type.definition = "Left l\nRight r" ++ String.join
        [catalog.blockOf ⟨some "p", "Left"⟩, catalog.blockOf ⟨some "p", "Last"⟩,
          catalog.blockOf ⟨some "p", "Right"⟩] := by
  obtain ⟨signed, hresolve⟩ : ∃ signed,
      ((performAll {} diamondCalls).resolve ⟨some "p", "First"⟩).1 = .ok signed :=
    exists_of_isSome (by decide +kernel)
  rcases definition_flattens hresolve with ⟨hdefinition, -, -, -, hunfolding⟩
  have hexpanded := hunfolding 4 (by decide +kernel)
  rw [← hexpanded] at hdefinition
  exact ⟨signed, hresolve, by decide +kernel, hdefinition⟩

end Resolver

end RosInterface
