import RosInterface.Proofs.Parallel
import RosInterface.Proofs.Resolution.Below
import RosInterface.Proofs.Resolution.History

namespace RosInterface

/-! # Signatures as a recursion over definitions

A resolution signs linked types one after the other and looks the signature of a field's type up
among what it linked. `structuralSum` is what this comes to: a plain recursion over the definitions
of a catalog, which knows of no linked types, no memory and no order of resolution.

The recursion sees the shape of a definition only, which makes signatures independent of everything
else. `SameShape` spells out what a shape is, for two catalogs that may differ in all names and
texts; `signature_structural` is the main statement.
-/

/-! ## Lines -/

/-- The line of a field, where `sum` gives the sums of message types. -/
def Field.sumLine (sum : TypeIdentity → String) (field : Field) : String :=
  if field.type.isBuiltIn then field.text
  else sum field.type.identity ++ " " ++ field.identifier

/-- The lines of a definition: its constants, then its fields. -/
def Descriptor.sumLines (descriptor : Descriptor) (sum : TypeIdentity → String) : List String :=
  descriptor.constants.map Constant.text ++ descriptor.fields.map (Field.sumLine sum)

theorem Descriptor.mem_dependencyTypes {descriptor : Descriptor} {used : TypeIdentity} :
    used ∈ descriptor.dependencyTypes ↔
      ∃ field ∈ descriptor.fields, field.type.isBuiltIn = false ∧ field.type.identity = used := by
  unfold dependencyTypes messageFields
  simp only [List.mem_eraseDups, List.mem_map, List.mem_filter, Bool.not_eq_true', and_assoc]

namespace Signature

section

variable {owner : TypeIdentity} {descriptor : Descriptor} {lookup : Lookup Id}
  (sum : TypeIdentity → String)
  (hlookup : ∀ field ∈ descriptor.fields, field.type.isBuiltIn = false →
    lookup field.type = some (pure (sum field.type.identity)))

include hlookup

/-- Where the sums of all fields of message types can be looked up, the lines are those of the
definition with these sums. -/
theorem lines_eq : lines owner descriptor lookup = pure (descriptor.sumLines sum) := by
  have hfields : descriptor.fields.mapM (fieldLine owner lookup) =
      (pure (descriptor.fields.map (Field.sumLine sum)) : ExceptT TypeError Id (List String)) := by
    rw [← List.mapM_pure]
    refine mapM_congr fun field hfield => ?_
    unfold fieldLine Field.sumLine
    cases hbuiltIn : field.type.isBuiltIn with
    | true => rfl
    | false =>
      rw [hlookup field hfield hbuiltIn]
      rfl
  unfold lines
  rw [hfields]
  rfl

theorem compute_eq :
    (compute owner descriptor lookup).run = ofLines owner (descriptor.sumLines sum) := by
  unfold compute
  rw [lines_eq sum hlookup]
  rfl

end

theorem ofLines_eq_ok_iff {owner : TypeIdentity} {lines : List String} {sum : String} :
    ofLines owner lines = .ok sum ↔
      (∀ line ∈ lines, isAscii line = true) ∧ sum = Md5.hexDigest (inputText lines) := by
  unfold ofLines
  cases hfind : lines.find? (!isAscii ·) with
  | none =>
    have hall : ∀ line ∈ lines, isAscii line = true := by
      simpa [List.find?_eq_none] using hfind
    constructor
    · intro hok
      exact ⟨hall, (Except.ok.inj hok).symm⟩
    · rintro ⟨-, rfl⟩
      rfl
  | some line =>
    constructor
    · intro hok
      cases hok
    · rintro ⟨hall, -⟩
      have hbad := List.find?_some hfind
      rw [hall line (List.mem_of_find?_eq_some hfind)] at hbad
      cases hbad

end Signature

namespace Catalog

variable {catalog : Catalog} {identity : TypeIdentity} {signed : SignedType}

/-! ## Linked types -/

/-- The sum of a linked type is found under its name. -/
theorem firstOf_map {names : List TypeIdentity} {parts : TypeIdentity → SignedType}
    (hparts : ∀ name ∈ names, (parts name).type.identity = name) {type : TypeReference}
    (hmem : type.identity ∈ names) :
    SignedType.firstOf (m := Id) (names.map parts) type =
      some (pure (parts type.identity).signature) := by
  have hfind : (names.map parts).find? (·.type.reference.sameType type) =
      some (parts type.identity) := by
    induction names with
    | nil => simp at hmem
    | cons name rest ih =>
      have hname : (parts name).type.reference.identity = name := hparts name List.mem_cons_self
      rw [List.map_cons, List.find?_cons, TypeReference.sameType, hname]
      by_cases hsame : name = type.identity
      · rw [hsame, beq_self_eq_true]
      · have hother : (name == type.identity) = false := by simpa using hsame
        rw [hother]
        refine ih (fun other hrest => hparts other (List.mem_cons_of_mem name hrest)) ?_
        exact (List.mem_cons.mp hmem).resolve_left fun heq => hsame heq.symm
  unfold SignedType.firstOf
  rw [hfind]
  rfl

/-- A definition is linked with what its dependencies resolve to, and signed with their sums. -/
theorem link_eq {reference : TypeReference} {descriptor : Descriptor}
    {parts : TypeIdentity → SignedType}
    (below : ∀ used ∈ descriptor.dependencyTypes, catalog.Resolves used (parts used)) :
    link reference descriptor (descriptor.dependencyTypes.map parts) =
      (Signature.ofLines reference.identity
        (descriptor.sumLines fun used => (parts used).signature)).map fun sum =>
          ⟨.mk reference descriptor (descriptor.dependencyTypes.map fun used =>
            (parts used).type), sum⟩ := by
  have hlookup : ∀ field ∈ descriptor.fields, field.type.isBuiltIn = false →
      SignedType.firstOf (m := Id) (descriptor.dependencyTypes.map parts) field.type =
        some (pure (parts field.type.identity).signature) := by
    intro field hfield hmessage
    refine firstOf_map (fun used hused => (below used hused).identity_eq) ?_
    exact Descriptor.mem_dependencyTypes.mpr ⟨field, hfield, hmessage, rfl⟩
  unfold link
  rw [Signature.compute_eq (fun used => (parts used).signature) hlookup, List.map_map]
  rfl

/-- The linking succeeds if all lines are ASCII, and the signature is their digest. -/
theorem link_eq_ok_iff {reference : TypeReference} {descriptor : Descriptor}
    {parts : TypeIdentity → SignedType}
    (below : ∀ used ∈ descriptor.dependencyTypes, catalog.Resolves used (parts used)) :
    link reference descriptor (descriptor.dependencyTypes.map parts) = .ok signed ↔
      let lines := descriptor.sumLines fun used => (parts used).signature
      (∀ line ∈ lines, isAscii line = true) ∧
        signed = ⟨.mk reference descriptor (descriptor.dependencyTypes.map fun used =>
          (parts used).type), Md5.hexDigest (Signature.inputText lines)⟩ := by
  rw [link_eq below]
  cases hlines : Signature.ofLines reference.identity
      (descriptor.sumLines fun used => (parts used).signature) with
  | ok sum =>
    rcases Signature.ofLines_eq_ok_iff.mp hlines with ⟨hascii, rfl⟩
    constructor
    · intro hok
      exact ⟨hascii, (Except.ok.inj hok).symm⟩
    · rintro ⟨-, rfl⟩
      rfl
  | error error =>
    constructor
    · intro hok
      cases hok
    · rintro ⟨hascii, -⟩
      rw [Signature.ofLines_eq_ok_iff.mpr ⟨hascii, rfl⟩] at hlines
      cases hlines

/-- The signature of a resolved type is that of the types which are linked to it, however it was
found. -/
theorem Resolves.signature_type (h : catalog.Resolves identity signed) :
    signed.type.signature = .ok signed.signature := by
  induction h with
  | @intro identity reference descriptor signed parts found below linked ih =>
    rcases (link_eq_ok_iff below).mp linked with ⟨hascii, rfl⟩
    have hentries : LinkedType.signatures (descriptor.dependencyTypes.map fun used =>
          (parts used).type) =
        descriptor.dependencyTypes.map fun used => (used, .ok (parts used).signature) := by
      rw [LinkedType.signatures_eq_map, List.map_map]
      refine List.map_congr_left fun used hused => ?_
      show ((parts used).type.identity, (parts used).type.signature) = _
      rw [(below used hused).identity_eq, ih used hused]
    rw [LinkedType.signature, hentries]
    refine (Signature.compute_eq (fun used => (parts used).signature) ?_).trans
      (Signature.ofLines_eq_ok_iff.mpr ⟨hascii, rfl⟩)
    intro field hfield hmessage
    exact List.lookup_graph _ (Descriptor.mem_dependencyTypes.mpr ⟨field, hfield, hmessage, rfl⟩)

/-! ## The recursion -/

/-- The sum of a type as a recursion over the definitions, which goes `depth` definitions deep at
most. It is the digest of a line for each constant and then one for each field; a field of a message
type is represented by the sum of the definition under its name. -/
def structuralSum (catalog : Catalog) : Nat → TypeIdentity → Option String
  | 0, _ => none
  | depth + 1, identity => do
    let (_, descriptor) ← catalog.find? identity
    let constantLines := descriptor.constants.map fun constant =>
      constant.type.text ++ " " ++ constant.identifier ++ "=" ++ constant.value
    let fieldLines ← descriptor.fields.mapM fun field =>
      if field.type.isBuiltIn then some (field.type.text ++ " " ++ field.identifier)
      else (structuralSum catalog depth field.type.identity).map (· ++ " " ++ field.identifier)
    some (Md5.hexDigest ("\n".intercalate (constantLines ++ fieldLines)))

/-- A path to a definition that is not on it is shorter than the catalog. -/
theorem LeadsTo.length_lt {path : List TypeIdentity} (hpath : catalog.LeadsTo path identity)
    (hnew : identity ∉ path) {entry : TypeReference × Descriptor}
    (hfind : catalog.find? identity = some entry) : path.length < catalog.size := by
  have hnodup : (identity :: path).Nodup := List.nodup_cons.mpr ⟨hnew, hpath.nodup⟩
  have hsub : identity :: path ⊆ catalog.names :=
    List.cons_subset.mpr ⟨mem_names_of_find? hfind, hpath.subset_names⟩
  have hlength := hnodup.length_le_of_subset hsub
  rwa [length_names] at hlength

/-- A recursion over definitions may be stopped at the size of the catalog: what holds of a type
with some depth left, as soon as it holds of its dependencies with one less, holds of a resolved
type with any depth that is not smaller than the catalog. -/
theorem Resolves.within {motive : Nat → TypeIdentity → SignedType → Prop}
    (step : ∀ {depth : Nat} {identity : TypeIdentity} {reference : TypeReference}
      {descriptor : Descriptor} {parts : TypeIdentity → SignedType} {signed : SignedType},
      catalog.find? identity = some (reference, descriptor) →
      (∀ used ∈ descriptor.dependencyTypes, catalog.Resolves used (parts used)) →
      link reference descriptor (descriptor.dependencyTypes.map parts) = .ok signed →
      (∀ used ∈ descriptor.dependencyTypes, motive depth used (parts used)) →
      motive (depth + 1) identity signed)
    (h : catalog.Resolves identity signed) {depth : Nat} (hdepth : catalog.size ≤ depth) :
    motive depth identity signed := by
  -- Every path is allowed for, since the depth goes down as the path to a type gets longer.
  suffices hpaths : ∀ path, catalog.LeadsTo path identity →
      ∀ depth, catalog.size ≤ depth + path.length → motive depth identity signed from
    hpaths [] (.nil catalog identity) depth hdepth
  clear hdepth depth
  induction h with
  | @intro identity reference descriptor signed parts found below linked ih =>
    intro path hpath depth hdepth
    have hnew : identity ∉ path := by
      intro hmem
      exact (Resolves.intro parts found below linked).not_circular (hpath.transGen hmem)
    have hlength := hpath.length_lt hnew found
    obtain ⟨depth, rfl⟩ : ∃ rest, depth = rest + 1 := ⟨depth - 1, by omega⟩
    refine step found below linked fun used hused => ?_
    refine ih used hused _ (hpath.snoc hnew ⟨reference, descriptor, found, hused⟩) depth ?_
    rw [List.length_append, List.length_singleton]
    omega

/-- The recursion reaches the sum of a resolved type. -/
theorem Resolves.structuralSum_eq (h : catalog.Resolves identity signed) {depth : Nat}
    (hdepth : catalog.size ≤ depth) :
    catalog.structuralSum depth identity = some signed.signature := by
  refine h.within (motive := fun depth identity signed =>
    catalog.structuralSum depth identity = some signed.signature) ?_ hdepth
  intro depth identity reference descriptor parts signed found below linked hparts
  have hfields : (descriptor.fields.mapM fun field =>
        if field.type.isBuiltIn then some (field.type.text ++ " " ++ field.identifier)
        else (catalog.structuralSum depth field.type.identity).map
          (· ++ " " ++ field.identifier)) =
      some (descriptor.fields.map (Field.sumLine fun used => (parts used).signature)) := by
    show _ = (pure _ : Option (List String))
    rw [← List.mapM_pure]
    refine mapM_congr fun field hfield => ?_
    unfold Field.sumLine
    cases hbuiltIn : field.type.isBuiltIn with
    | true => rfl
    | false =>
      have hused : field.type.identity ∈ descriptor.dependencyTypes :=
        Descriptor.mem_dependencyTypes.mpr ⟨field, hfield, hbuiltIn, rfl⟩
      rw [if_neg Bool.false_ne_true, hparts _ hused]
      rfl
  rcases (link_eq_ok_iff below).mp linked with ⟨-, rfl⟩
  rw [structuralSum, found]
  simp only [Option.bind_eq_bind, Option.bind_some, hfields]
  rfl

/-! ## Shapes -/

/-- Two fields have one name and either the same built-in type, array bound included, or message
types that are related. -/
structure SameField (related : TypeIdentity → TypeIdentity → Prop) (a b : Field) : Prop where
  identifier : a.identifier = b.identifier
  isBuiltIn : a.type.isBuiltIn = b.type.isBuiltIn
  builtIn : a.type.isBuiltIn = true → a.type.text = b.type.text
  message : a.type.isBuiltIn = false → related a.type.identity b.type.identity

/-- Definitions of related types have the same constants and fields of the same shape, in the same
order among themselves. Their texts, their names, the array bounds of message types and whether
constants stand in front of fields or between them are left open. -/
def SameShape (a b : Catalog) (related : TypeIdentity → TypeIdentity → Prop) : Prop :=
  ∀ x y, related x y → ∃ reference descriptor otherReference otherDescriptor,
    a.find? x = some (reference, descriptor) ∧
    b.find? y = some (otherReference, otherDescriptor) ∧
    descriptor.constants.map Constant.text = otherDescriptor.constants.map Constant.text ∧
    List.Forall₂ (SameField related) descriptor.fields otherDescriptor.fields

theorem sumLine_eq {related : TypeIdentity → TypeIdentity → Prop} {x y : Field}
    (h : SameField related x y) {sum otherSum : TypeIdentity → String}
    (hsums : x.type.isBuiltIn = false → sum x.type.identity = otherSum y.type.identity) :
    x.sumLine sum = y.sumLine otherSum := by
  unfold Field.sumLine Field.text
  rw [← h.isBuiltIn, ← h.identifier]
  cases hbuiltIn : x.type.isBuiltIn with
  | true => rw [if_pos rfl, if_pos rfl, h.builtIn hbuiltIn]
  | false => rw [if_neg Bool.false_ne_true, if_neg Bool.false_ne_true, hsums hbuiltIn]

theorem exists_sameField {related : TypeIdentity → TypeIdentity → Prop} {fields others : List Field}
    (h : List.Forall₂ (SameField related) fields others) {y : Field} (hy : y ∈ others) :
    ∃ x ∈ fields, SameField related x y := by
  induction h with
  | nil => simp at hy
  | cons hfirst _ ih =>
    rcases List.mem_cons.mp hy with rfl | hrest
    · exact ⟨_, List.mem_cons_self, hfirst⟩
    · rcases ih hrest with ⟨x, hx, hsame⟩
      exact ⟨x, List.mem_cons_of_mem _ hx, hsame⟩

/-- Definitions of the same shape have the same lines, if the sums of related dependencies agree. -/
theorem sumLines_eq {related : TypeIdentity → TypeIdentity → Prop}
    {descriptor otherDescriptor : Descriptor}
    (hconstants : descriptor.constants.map Constant.text =
      otherDescriptor.constants.map Constant.text)
    (hfields : List.Forall₂ (SameField related) descriptor.fields otherDescriptor.fields)
    {sum otherSum : TypeIdentity → String}
    (hsums : ∀ used ∈ descriptor.dependencyTypes, ∀ other ∈ otherDescriptor.dependencyTypes,
      related used other → sum used = otherSum other) :
    descriptor.sumLines sum = otherDescriptor.sumLines otherSum := by
  have hlines : List.Forall₂ (fun x y => x.sumLine sum = y.sumLine otherSum)
      descriptor.fields otherDescriptor.fields := by
    refine forall₂_imp_of_mem ?_ hfields
    intro x hx y hy hsame
    refine sumLine_eq hsame fun hmessage => ?_
    have hmessage' := hsame.isBuiltIn.symm.trans hmessage
    exact hsums _ (Descriptor.mem_dependencyTypes.mpr ⟨x, hx, hmessage, rfl⟩)
      _ (Descriptor.mem_dependencyTypes.mpr ⟨y, hy, hmessage', rfl⟩) (hsame.message hmessage)
  unfold Descriptor.sumLines
  rw [hconstants, map_eq_map_iff.mpr hlines]

/-- What has the shape of a type that resolves does so as well, with the same signature. -/
theorem Resolves.sameShape {a b : Catalog} {related : TypeIdentity → TypeIdentity → Prop}
    (hshape : SameShape a b related) (h : a.Resolves identity signed) {other : TypeIdentity}
    (hrelated : related identity other) :
    ∃ twin, b.Resolves other twin ∧ twin.signature = signed.signature := by
  induction h generalizing other with
  | @intro identity reference descriptor signed parts found below linked ih =>
    obtain ⟨_, _, otherReference, otherDescriptor, hfound, hother, hconstants, hfields⟩ :=
      hshape identity other hrelated
    rw [found] at hfound
    cases hfound
    -- Each dependency of the twin is related to one of the type, which has a twin by induction.
    have hmatches : ∀ used ∈ otherDescriptor.dependencyTypes, ∃ part, b.Resolves used part := by
      intro used hused
      obtain ⟨y, hy, hmessage, rfl⟩ := Descriptor.mem_dependencyTypes.mp hused
      rcases exists_sameField hfields hy with ⟨x, hx, hsame⟩
      have hbuiltIn : x.type.isBuiltIn = false := hsame.isBuiltIn.trans hmessage
      have hdependency : x.type.identity ∈ descriptor.dependencyTypes :=
        Descriptor.mem_dependencyTypes.mpr ⟨x, hx, hbuiltIn, rfl⟩
      rcases ih _ hdependency (hsame.message hbuiltIn) with ⟨part, hpart, -⟩
      exact ⟨part, hpart⟩
    choose! otherParts hotherParts using hmatches
    have hlines : descriptor.sumLines (fun used => (parts used).signature) =
        otherDescriptor.sumLines (fun used => (otherParts used).signature) := by
      refine sumLines_eq hconstants hfields fun used hused other hother hrelated => ?_
      rcases ih used hused hrelated with ⟨part, hpart, hsum⟩
      rw [(hotherParts other hother).unique hpart, hsum]
    rcases (link_eq_ok_iff below).mp linked with ⟨hascii, rfl⟩
    refine ⟨_, .intro otherParts hother hotherParts
      ((link_eq_ok_iff hotherParts).mpr ⟨hlines ▸ hascii, rfl⟩), ?_⟩
    rw [hlines]

end Catalog

/-! ## Resolvers -/

namespace Resolver

/-- A resolver answers with a type exactly if the type resolves, whatever it was asked before. -/
theorem resolve_eq_ok_iff {calls : List Call} {identity : TypeIdentity} {signed : SignedType} :
    ((performAll {} calls).resolve identity).1 = .ok signed ↔
      (performAll {} calls).catalog.Resolves identity signed := by
  rw [((consistent_empty.performAll calls).resolve identity).1]
  exact Catalog.outcome_eq_ok_iff

/-- The signature of a resolved type is the sum that the recursion over the registered definitions
gives, and that of the linked type. Types that are defined in the same shape, be it in another
resolver and under other names, resolve to the same signature. -/
theorem signature_structural {calls : List Call} {identity : TypeIdentity} {signed : SignedType}
    (h : ((performAll {} calls).resolve identity).1 = .ok signed) :
    let catalog := (performAll {} calls).catalog
    (∀ depth, catalog.size ≤ depth →
      catalog.structuralSum depth identity = some signed.signature) ∧
    signed.type.signature = .ok signed.signature ∧
    ∀ (others : List Call) (related : TypeIdentity → TypeIdentity → Prop),
      catalog.SameShape (performAll {} others).catalog related →
      ∀ other, related identity other →
        ∃ twin, ((performAll {} others).resolve other).1 = .ok twin ∧
          twin.signature = signed.signature := by
  intro catalog
  have hresolves : catalog.Resolves identity signed := resolve_eq_ok_iff.mp h
  refine ⟨fun depth hdepth => hresolves.structuralSum_eq hdepth, hresolves.signature_type, ?_⟩
  intro others related hshape other hrelated
  rcases hresolves.sameShape hshape hrelated with ⟨twin, htwin, hsum⟩
  exact ⟨twin, resolve_eq_ok_iff.mpr htwin, hsum⟩

/-- A type with a constant behind its field, and the type of the field. -/
def plainCalls : List Call :=
  [.add (.message "a" "A") ⟨[.field ⟨.message "b" "B", "x"⟩, .constant ⟨.builtIn "int8", "K", "1"⟩],
      "b/B x\nint8 K=1"⟩,
    .add (.message "b" "B") ⟨[.field ⟨.builtIn "int8", "y"⟩], "int8 y"⟩]

/-- The same under other names: the constant is in front, and the field is an array. -/
def renamedCalls : List Call :=
  [.add (.message "d" "D") ⟨[.field ⟨.builtIn "int8", "y"⟩], "# renamed\nint8 y"⟩,
    .add (.message "c" "C") ⟨[.constant ⟨.builtIn "int8", "K", "1"⟩,
      .field ⟨(TypeReference.message "d" "D").toArray none, "x"⟩], "int8 K=1\nd/D[] x"⟩]

/-- Which names are given up for which others. -/
def renamedTo (old new : TypeIdentity) : Prop :=
  (old, new) ∈ [((⟨some "a", "A"⟩ : TypeIdentity), (⟨some "c", "C"⟩ : TypeIdentity)),
    (⟨some "b", "B"⟩, ⟨some "d", "D"⟩)]

/-- Names, texts, array bounds and the place of the constant make no difference to the signature. -/
theorem renamedCalls_signature :
    ∃ signed, ((performAll {} plainCalls).resolve ⟨some "a", "A"⟩).1 = .ok signed ∧
      (performAll {} plainCalls).catalog.structuralSum 2 ⟨some "a", "A"⟩ =
        some signed.signature ∧
      (performAll {} plainCalls).catalog.SameShape (performAll {} renamedCalls).catalog renamedTo ∧
      ∃ twin, ((performAll {} renamedCalls).resolve ⟨some "c", "C"⟩).1 = .ok twin ∧
        twin.signature = signed.signature := by
  obtain ⟨signed, hresolve⟩ : ∃ signed,
      ((performAll {} plainCalls).resolve ⟨some "a", "A"⟩).1 = .ok signed :=
    exists_of_isSome (by decide +kernel)
  have hshape : (performAll {} plainCalls).catalog.SameShape (performAll {} renamedCalls).catalog
      renamedTo := by
    intro x y hrelated
    simp only [renamedTo, List.mem_cons, Prod.mk.injEq, List.not_mem_nil, or_false] at hrelated
    rcases hrelated with ⟨rfl, rfl⟩ | ⟨rfl, rfl⟩
    · exact ⟨_, _, _, _, rfl, rfl, rfl,
        .cons ⟨rfl, rfl, fun hbuiltIn => (by cases hbuiltIn),
          fun _ => (by unfold renamedTo; decide)⟩ .nil⟩
    · exact ⟨_, _, _, _, rfl, rfl, rfl,
        .cons ⟨rfl, rfl, fun _ => rfl, fun hmessage => (by cases hmessage)⟩ .nil⟩
  rcases signature_structural hresolve with ⟨hsum, -, hindependent⟩
  exact ⟨signed, hresolve, hsum 2 (by decide +kernel), hshape,
    hindependent renamedCalls renamedTo hshape _ (by unfold renamedTo; decide)⟩

end Resolver

end RosInterface
