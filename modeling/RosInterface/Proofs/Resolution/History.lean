import RosInterface.Proofs.Order
import RosInterface.Proofs.Resolution.Walk

namespace RosInterface

/-! # Histories of a resolver

A resolver answers as if it had never been asked before: `resolve_forgets_history` compares it,
after any sequence of calls, with a resolver that was only told the same definitions, in any order.

The invariant is `Consistent`: names are distinct and the memory is sound. Additions keep it since
they leave earlier definitions alone, and requests keep it whether they succeed or fail.
-/

/-! ## Names in order -/

namespace Catalog

variable {catalog : Catalog}

theorem mem_identities {identity : TypeIdentity} :
    identity ∈ catalog.identities ↔ identity ∈ catalog.names :=
  List.mem_mergeSort

/-- The names of a catalog that has no name twice go up strictly. -/
theorem identities_increasing (hnodup : catalog.names.Nodup) :
    catalog.identities.Pairwise fun a b => a.compare b = .lt :=
  @increasing_mergeSort _ _ TypeIdentity.compare _ _ id catalog.names (by rwa [List.map_id])

end Catalog

namespace Resolver

/-! ## Calls -/

/-- What a resolver can be asked for. -/
inductive Call where
  | add (reference : TypeReference) (descriptor : Descriptor)
  | resolve (identity : TypeIdentity)
  | resolveAll

/-- The resolver after a call. A rejected addition leaves it alone, a failed request may not. -/
def perform (resolver : Resolver) : Call → Resolver
  | .add reference descriptor =>
    match resolver.add reference descriptor with
    | .ok extended => extended
    | .error _ => resolver
  | .resolve identity => (resolver.resolve identity).2
  | .resolveAll => resolver.resolveAll.2

/-- The resolver after calls that were made one after the other. -/
def performAll (resolver : Resolver) (calls : List Call) : Resolver :=
  calls.foldl perform resolver

/-- The definition that a call registers, if it is an addition that succeeds. -/
def registration (resolver : Resolver) : Call → List (TypeReference × Descriptor)
  | .add reference descriptor =>
    match resolver.add reference descriptor with
    | .ok _ => [(reference, descriptor)]
    | .error _ => []
  | _ => []

/-- The definitions that are registered in the course of some calls. -/
def registered (resolver : Resolver) : List Call → List (TypeReference × Descriptor)
  | [] => []
  | call :: calls => resolver.registration call ++ (resolver.perform call).registered calls

/-- A new resolver that is told some definitions. -/
def ofDefinitions (definitions : List (TypeReference × Descriptor)) : Except TypeError Resolver :=
  definitions.foldlM (fun resolver entry => resolver.add entry.1 entry.2) {}

/-! ## The invariant -/

/-- Names are distinct, and what is remembered is what the types resolve to. -/
structure Consistent (resolver : Resolver) : Prop where
  distinct : resolver.catalog.names.Nodup
  sound : resolver.catalog.Sound resolver.resolved

theorem add_eq_ok_iff {resolver extended : Resolver} {reference : TypeReference}
    {descriptor : Descriptor} :
    resolver.add reference descriptor = .ok extended ↔
      ∃ catalog, resolver.catalog.add reference descriptor = .ok catalog ∧
        extended = { resolver with catalog } := by
  unfold add
  cases resolver.catalog.add reference descriptor with
  | error error => simp [Except.map]
  | ok catalog => simp [Except.map, eq_comm]

theorem Consistent.add {resolver extended : Resolver} {reference : TypeReference}
    {descriptor : Descriptor} (h : resolver.Consistent)
    (hadd : resolver.add reference descriptor = .ok extended) : extended.Consistent := by
  rcases add_eq_ok_iff.mp hadd with ⟨catalog, hcatalog, rfl⟩
  constructor
  · exact Catalog.names_nodup_of_add hcatalog h.distinct
  · intro identity signed hlookup
    exact (h.sound identity signed hlookup).mono fun _ _ => Catalog.find?_of_add hcatalog

/-- A request of a consistent resolver has the outcome that needs no memory, and leaves a
consistent resolver behind. -/
theorem Consistent.run {α : Type} {resolver : Resolver} (h : resolver.Consistent)
    {resolution : Resolution α} {outcome : Except TypeError α}
    (hcomputes : Computes resolver.catalog.Sound resolution outcome) :
    (resolver.run resolution).1 = outcome ∧ (resolver.run resolution).2.Consistent := by
  rcases hcomputes resolver.resolved h.sound with ⟨hout, hsound⟩
  exact ⟨hout, h.distinct, hsound⟩

theorem Consistent.resolve {resolver : Resolver} (h : resolver.Consistent)
    (identity : TypeIdentity) :
    (resolver.resolve identity).1 = resolver.catalog.outcome identity ∧
      (resolver.resolve identity).2.Consistent :=
  h.run (Catalog.resolve_computes resolver.catalog identity)

theorem Consistent.resolveAll {resolver : Resolver} (h : resolver.Consistent) :
    resolver.resolveAll.1 = resolver.catalog.identities.mapM resolver.catalog.outcome ∧
      resolver.resolveAll.2.Consistent :=
  h.run (Computes.mapM fun identity _ => Catalog.resolve_computes resolver.catalog identity)

/-- Every call keeps a resolver consistent. -/
theorem Consistent.perform {resolver : Resolver} (h : resolver.Consistent) (call : Call) :
    (resolver.perform call).Consistent := by
  cases call with
  | add reference descriptor =>
    rw [Resolver.perform]
    cases hadd : resolver.add reference descriptor with
    | error error => exact h
    | ok extended => exact h.add hadd
  | resolve identity => exact (h.resolve identity).2
  | resolveAll => exact h.resolveAll.2

theorem Consistent.performAll {resolver : Resolver} (h : resolver.Consistent)
    (calls : List Call) : (resolver.performAll calls).Consistent := by
  induction calls generalizing resolver with
  | nil => exact h
  | cons call calls ih => exact ih (h.perform call)

theorem consistent_empty : Consistent {} :=
  ⟨List.nodup_nil, Catalog.sound_nil _⟩

/-! ## Definitions -/

/-- A call adds to the definitions just what it registers. -/
theorem definitions_perform (resolver : Resolver) (call : Call) :
    (resolver.perform call).catalog.definitions =
      resolver.catalog.definitions ++ resolver.registration call := by
  cases call with
  | add reference descriptor =>
    rw [perform, registration]
    cases hadd : resolver.add reference descriptor with
    | error error => exact (List.append_nil _).symm
    | ok extended =>
      rcases add_eq_ok_iff.mp hadd with ⟨catalog, hcatalog, rfl⟩
      rcases Catalog.add_eq_ok_iff.mp hcatalog with ⟨-, rfl⟩
      rfl
  | resolve identity => exact (List.append_nil _).symm
  | resolveAll => exact (List.append_nil _).symm

theorem definitions_performAll (resolver : Resolver) (calls : List Call) :
    (resolver.performAll calls).catalog.definitions =
      resolver.catalog.definitions ++ resolver.registered calls := by
  induction calls generalizing resolver with
  | nil => exact (List.append_nil _).symm
  | cons call calls ih =>
    have hrest := ih (resolver.perform call)
    rw [definitions_perform, List.append_assoc] at hrest
    exact hrest

/-- Definitions with distinct names can be told to a new resolver in any order. -/
theorem ofDefinitions_eq_ok {definitions : List (TypeReference × Descriptor)}
    (hnodup : (definitions.map (·.1.identity)).Nodup) :
    ofDefinitions definitions = .ok { catalog := ⟨definitions⟩ } := by
  suffices hfold : ∀ (told rest : List (TypeReference × Descriptor)),
      ((told ++ rest).map (·.1.identity)).Nodup →
      rest.foldlM (fun resolver entry => resolver.add entry.1 entry.2)
          ({ catalog := ⟨told⟩ } : Resolver) =
        .ok { catalog := ⟨told ++ rest⟩ } from hfold [] definitions hnodup
  -- Told so far are the first definitions, whose names are not met again.
  intro told rest
  induction rest generalizing told with
  | nil => intro _; rw [List.append_nil]; rfl
  | cons entry rest ih =>
    intro hdistinct
    have hnew : entry.1.identity ∉ Catalog.names ⟨told⟩ := by
      rw [List.map_append, List.map_cons] at hdistinct
      have hdisjoint := List.disjoint_of_nodup_append hdistinct
      intro hmem
      exact hdisjoint hmem List.mem_cons_self
    have hadd : ({ catalog := ⟨told⟩ } : Resolver).add entry.1 entry.2 =
        .ok { catalog := ⟨told ++ [entry]⟩ } :=
      add_eq_ok_iff.mpr ⟨_, Catalog.add_eq_ok_iff.mpr ⟨hnew, rfl⟩, rfl⟩
    rw [List.foldlM_cons, hadd]
    have hrest := ih (told ++ [entry]) (by rwa [List.append_assoc])
    rwa [List.append_assoc] at hrest

/-! ## Independence -/

/-- After any calls, failed ones included, a resolver answers as a new one does that was told the
registered definitions in any order: each request for one type has the same outcome, and a request
for all types has these outcomes in the order of names, or the first error among them. -/
theorem resolve_forgets_history (calls : List Call)
    {definitions : List (TypeReference × Descriptor)}
    (hdefinitions : definitions.Perm (registered {} calls)) :
    ∃ fresh, ofDefinitions definitions = .ok fresh ∧
      (∀ identity, ((performAll {} calls).resolve identity).1 = (fresh.resolve identity).1) ∧
      ∃ names : List TypeIdentity,
        names.Pairwise (fun a b => a.compare b = .lt) ∧
        (∀ identity, identity ∈ names ↔ ∃ entry ∈ definitions, entry.1.identity = identity) ∧
        (performAll {} calls).resolveAll.1 =
          names.mapM fun identity => (fresh.resolve identity).1 := by
  have hold : (performAll {} calls).Consistent := consistent_empty.performAll calls
  have hperm : (performAll {} calls).catalog.definitions.Perm definitions := by
    rw [definitions_performAll]
    exact hdefinitions.symm
  have hnodup : (definitions.map (·.1.identity)).Nodup :=
    (hperm.map _).nodup_iff.mp hold.distinct
  have hfresh : Consistent { catalog := ⟨definitions⟩ } := ⟨hnodup, Catalog.sound_nil _⟩
  -- Both resolvers are consistent, so both answer what their catalogs decide.
  have hsame : ∀ identity, ((performAll {} calls).resolve identity).1 =
      (resolve { catalog := ⟨definitions⟩ } identity).1 := by
    intro identity
    rw [(hold.resolve identity).1, (hfresh.resolve identity).1]
    exact @Catalog.outcome_congr _ _ (fun _ => True)
      (fun identity _ => Catalog.find?_eq_of_perm hold.distinct hperm identity)
      (fun _ _ _ _ => trivial) identity trivial
  refine ⟨_, ofDefinitions_eq_ok hnodup, hsame, (performAll {} calls).catalog.identities,
    Catalog.identities_increasing hold.distinct, ?_, ?_⟩
  · intro identity
    rw [Catalog.mem_identities, ← List.mem_map]
    exact (hperm.map _).mem_iff
  · rw [hold.resolveAll.1]
    exact mapM_congr fun identity _ => by rw [← hsame, (hold.resolve identity).1]

/-- A type with a field of another one. -/
def exampleUser : TypeReference × Descriptor :=
  (.message "a" "A", ⟨[.field ⟨.message "b" "B", "x"⟩], "b/B x"⟩)

/-- A type that needs no other. -/
def exampleUsed : TypeReference × Descriptor :=
  (.message "b" "B", ⟨[.field ⟨.builtIn "int8", "y"⟩], "int8 y"⟩)

/-- A type is asked for before the type of its field is known, and all types are after that one was
added and a second definition of it was rejected. -/
def earlyRequest : List Call :=
  [.add exampleUser.1 exampleUser.2, .resolve exampleUser.1.identity,
    .add exampleUsed.1 exampleUsed.2, .add exampleUsed.1 exampleUser.2, .resolveAll]

/-- The early request, which failed, has no effect on what the type resolves to in the end. -/
theorem early_request_forgotten :
    [exampleUsed, exampleUser].Perm (registered {} earlyRequest) ∧
      ∃ fresh, ofDefinitions [exampleUsed, exampleUser] = .ok fresh ∧
        ∀ identity,
          ((performAll {} earlyRequest).resolve identity).1 = (fresh.resolve identity).1 := by
  have hdefinitions : [exampleUsed, exampleUser].Perm (registered {} earlyRequest) := by
    decide +kernel
  rcases resolve_forgets_history earlyRequest hdefinitions with ⟨fresh, hfresh, hsame, -⟩
  exact ⟨hdefinitions, fresh, hfresh, hsame⟩

end Resolver

end RosInterface
