import RosInterface.Proofs.Resolution.Structural

namespace RosInterface

/-! # Texts of definitions

A definition consists of declarations and of the text that they were read from. Signatures are made
of the declarations alone: resolvers that are told the same types with the same declarations, be it
with other texts, sign the same types, and sign them alike (`signs_iff_of_bare`).
-/

/-- The declarations without their text. -/
def Descriptor.bare (descriptor : Descriptor) : Descriptor :=
  { descriptor with definition := "" }

namespace Catalog

variable {a b : Catalog} {identity : TypeIdentity} {signed : SignedType}

/-- The catalog without the texts of its definitions. -/
def bare (catalog : Catalog) : Catalog :=
  ⟨catalog.definitions.map fun entry => (entry.1, entry.2.bare)⟩

theorem find?_bare (catalog : Catalog) (identity : TypeIdentity) :
    catalog.bare.find? identity =
      (catalog.find? identity).map fun entry => (entry.1, entry.2.bare) := by
  rw [find?, bare, List.find?_map]
  rfl

theorem names_bare (catalog : Catalog) : catalog.bare.names = catalog.names := by
  rw [names, bare, List.map_map]
  rfl

/-- Types resolve whatever the texts of their definitions are, and to the same signatures. -/
theorem Resolves.of_bare (h : a.Resolves identity signed) (hbare : a.bare = b.bare) :
    ∃ twin, b.Resolves identity twin ∧ twin.signature = signed.signature := by
  -- Types that resolve are compared with themselves, as whatever they use resolves too.
  have hshape : a.SameShape b fun x y => x = y ∧ ∃ signed, a.Resolves x signed := by
    rintro identity _ ⟨rfl, signed, hresolves⟩
    cases hresolves with
    | @intro _ reference descriptor _ parts found below linked =>
      have hfind := find?_bare b identity
      rw [← hbare, find?_bare, found, Option.map_some] at hfind
      rcases Option.map_eq_some_iff.mp hfind.symm with ⟨⟨_, other⟩, hother, hsame⟩
      have hitems : other.items = descriptor.items := congrArg (·.2.items) hsame
      refine ⟨_, _, _, _, found, hother, ?_, ?_⟩
      · rw [Descriptor.constants, Descriptor.constants, hitems]
      · rw [Descriptor.fields, Descriptor.fields, hitems, List.forall₂_same]
        intro field hfield
        refine ⟨rfl, rfl, fun _ => rfl, fun hmessage => ⟨rfl, ?_⟩⟩
        exact ⟨_, below _ (Descriptor.mem_dependencyTypes.mpr ⟨field, hfield, hmessage, rfl⟩)⟩
  exact h.sameShape hshape ⟨rfl, signed, h⟩

end Catalog

namespace Resolver

variable {a b : Resolver}

/-- The call without the text of the definition that it adds. -/
def Call.bare : Call → Call
  | .add reference descriptor => .add reference descriptor.bare
  | call => call

/-- An addition is rejected exactly if its name is taken. -/
theorem definitions_perform_add (resolver : Resolver) (reference : TypeReference)
    (descriptor : Descriptor) :
    (resolver.perform (.add reference descriptor)).catalog.definitions =
      if reference.identity ∈ resolver.catalog.names then resolver.catalog.definitions
      else resolver.catalog.definitions ++ [(reference, descriptor)] := by
  rw [perform]
  cases hadd : resolver.add reference descriptor with
  | ok extended =>
    rcases add_eq_ok_iff.mp hadd with ⟨catalog, hcatalog, rfl⟩
    rcases Catalog.add_eq_ok_iff.mp hcatalog with ⟨hnew, rfl⟩
    rw [if_neg hnew]
  | error error =>
    have htaken : reference.identity ∈ resolver.catalog.names := by
      by_contra hnew
      have hok : ∃ extended, resolver.add reference descriptor = .ok extended :=
        ⟨_, add_eq_ok_iff.mpr ⟨_, Catalog.add_eq_ok_iff.mpr ⟨hnew, rfl⟩, rfl⟩⟩
      simp [hadd] at hok
    rw [if_pos htaken]

/-- Calls that differ in texts only leave definitions behind that do. -/
theorem bare_perform (hbare : a.catalog.bare = b.catalog.bare) {call other : Call}
    (hcall : call.bare = other.bare) :
    (a.perform call).catalog.bare = (b.perform other).catalog.bare := by
  cases call with
  | add reference descriptor =>
    cases other with
    | add otherReference otherDescriptor =>
      simp only [Call.bare, Call.add.injEq] at hcall
      obtain ⟨rfl, hdescriptor⟩ := hcall
      have hnames : a.catalog.names = b.catalog.names := by
        rw [← Catalog.names_bare, hbare, Catalog.names_bare]
      have hdefinitions := congrArg Catalog.definitions hbare
      simp only [Catalog.bare] at hdefinitions ⊢
      rw [definitions_perform_add, definitions_perform_add, hnames]
      split
      · rw [hdefinitions]
      · rw [List.map_append, List.map_append, hdefinitions, List.map_singleton,
          List.map_singleton, hdescriptor]
    | resolve | resolveAll => cases hcall
  | resolve | resolveAll =>
    cases other with
    | add otherReference otherDescriptor => cases hcall
    | resolve | resolveAll => exact hbare

theorem bare_performAll (hbare : a.catalog.bare = b.catalog.bare) {calls others : List Call}
    (hcalls : calls.map Call.bare = others.map Call.bare) :
    (a.performAll calls).catalog.bare = (b.performAll others).catalog.bare := by
  induction calls generalizing a b others with
  | nil =>
    rw [List.map_nil, eq_comm, List.map_eq_nil_iff] at hcalls
    rw [hcalls]
    exact hbare
  | cons call calls ih =>
    cases others with
    | nil => cases hcalls
    | cons other others =>
      obtain ⟨hfirst, hrest⟩ := List.cons.inj hcalls
      exact ih (bare_perform hbare hfirst) hrest

/-- The resolver resolves a type to a signature. -/
def Signs (resolver : Resolver) (identity : TypeIdentity) (sum : String) : Prop :=
  ∃ signed, (resolver.resolve identity).1 = .ok signed ∧ signed.signature = sum

/-- Resolvers that are called alike, but for the texts of definitions, sign the same types, and sign
them alike. -/
theorem signs_iff_of_bare {calls others : List Call}
    (hcalls : calls.map Call.bare = others.map Call.bare) (identity : TypeIdentity)
    (sum : String) :
    (performAll {} calls).Signs identity sum ↔ (performAll {} others).Signs identity sum := by
  have hsigns : ∀ {calls others : List Call}, calls.map Call.bare = others.map Call.bare →
      (performAll {} calls).Signs identity sum → (performAll {} others).Signs identity sum := by
    rintro calls others hcalls ⟨signed, hresolve, rfl⟩
    rcases (resolve_eq_ok_iff.mp hresolve).of_bare (bare_performAll rfl hcalls) with
      ⟨twin, htwin, hsum⟩
    exact ⟨twin, resolve_eq_ok_iff.mpr htwin, hsum⟩
  exact ⟨hsigns hcalls, hsigns hcalls.symm⟩

end Resolver

end RosInterface
