import RosInterface.Proofs.Resolution.Success

namespace RosInterface

open Relation

/-! # What the errors of a resolution say

The error of a request is one of three, and `resolve_error_true` says that it is true: a type that
is said to be unknown is not registered, and whoever is said to need it has a field of it; a chain
that is said to be circular is a circle of fields; a line that is said not to be ASCII is a line of
the type that is named. All types involved are reached from the one that was asked for.

An error only has the written forms of types, so what it says is said of types that are written so.
For the same reason `<root>` stands for the request alone as long as no type with a field of the
missing one is written like it. `rootCalls_ambiguous` is a case where one is.

A walk knows its path and who asked for the type that it is at. `Asked` ties both to the request,
and every step of the walk keeps it. That nothing else goes wrong is due to what is linked: every
field of a message type finds its type among the dependencies, so that none is ever unresolved.
-/

namespace Catalog

variable {catalog : Catalog} {requested identity : TypeIdentity}

/-- What an error states about a request is the case. -/
inductive Explains (catalog : Catalog) (requested : TypeIdentity) : TypeError → Prop where
  /-- The missing type is asked for by the request itself, or by a type with a field of it. How the
  asker is written tells which, unless such a type is written like the request. -/
  | unknown {missing : TypeIdentity} {referencedBy : String}
      (missed : missing ∉ catalog.names)
      (byRequest : missing = requested → referencedBy = TypeError.rootName)
      (byType : missing ≠ requested → ∃ user, referencedBy = user.text ∧
        catalog.Reaches requested user ∧ catalog.Depends user missing)
      (told : (∀ user, catalog.Reaches requested user → catalog.Depends user missing →
          user.text ≠ TypeError.rootName) →
        (referencedBy = TypeError.rootName ↔ missing = requested)) :
      Explains catalog requested (.unknown missing.text referencedBy)
  /-- Each member of the chain has a field of the next one, and the last one is the first one. -/
  | circular {first : TypeIdentity} {others : List TypeIdentity}
      (distinct : (first :: others).Nodup)
      (reached : ∀ member ∈ first :: others, catalog.Reaches requested member)
      (chain : (first :: others ++ [first]).IsChain catalog.Depends) :
      Explains catalog requested (.circular (chainText (first :: others ++ [first])))
  /-- The line is one that enters the sum of its owner. -/
  | nonAscii {owner : TypeIdentity} {line : String} {reference : TypeReference}
      {descriptor : Descriptor} {sum : TypeIdentity → String}
      (reached : catalog.Reaches requested owner)
      (found : catalog.find? owner = some (reference, descriptor))
      (sums : ∀ used ∈ descriptor.dependencyTypes,
        catalog.structuralSum catalog.size used = some (sum used))
      (listed : line ∈ descriptor.sumLines sum)
      (foreign : isAscii line = false) :
      Explains catalog requested (.nonAscii owner.text line)

/-- How those are written who ask for a type in the course of a request: the request itself, or a
type that was reached and has a field of it. -/
inductive Asked (catalog : Catalog) (requested : TypeIdentity) : String → TypeIdentity → Prop where
  | byRequest : Asked catalog requested TypeError.rootName requested
  | byType {user used : TypeIdentity} (reached : catalog.Reaches requested user)
      (depends : catalog.Depends user used) : Asked catalog requested user.text used

variable {referencedBy : String}

theorem Asked.reaches (h : catalog.Asked requested referencedBy identity) :
    catalog.Reaches requested identity := by
  cases h with
  | byRequest => exact .refl
  | byType reached depends => exact reached.tail depends

/-- Only a type of the catalog has fields, so a request that gets anywhere is for one of them. -/
theorem mem_names_of_reaches {user used : TypeIdentity} (hreached : catalog.Reaches requested user)
    (hdepends : catalog.Depends user used) : requested ∈ catalog.names := by
  have hpath : TransGen catalog.Depends requested used :=
    TransGen.tail'_iff.mpr ⟨user, hreached, hdepends⟩
  obtain ⟨next, ⟨reference, descriptor, hfind, -⟩, -⟩ := TransGen.head'_iff.mp hpath
  exact mem_names_of_find? hfind

theorem Asked.explains_unknown (h : catalog.Asked requested referencedBy identity)
    (hmissing : identity ∉ catalog.names) :
    catalog.Explains requested (.unknown identity.text referencedBy) := by
  cases h with
  | byRequest =>
    exact .unknown hmissing (fun _ => rfl) (absurd rfl) (fun _ => iff_of_true rfl rfl)
  | @byType user _ reached depends =>
    have hother : identity ≠ requested := by
      rintro rfl
      exact hmissing (mem_names_of_reaches reached depends)
    refine .unknown hmissing (absurd · hother) (fun _ => ⟨user, rfl, reached, depends⟩) ?_
    exact fun hunlike => iff_of_false (hunlike user reached depends) hother

/-- The part of a path from a type on is a chain that leads back to it. -/
theorem LeadsTo.explains_circular {path : List TypeIdentity} (hpath : catalog.LeadsTo path identity)
    (hreached : ∀ member ∈ path, catalog.Reaches requested member) (hmem : identity ∈ path) :
    catalog.Explains requested
      (.circular (chainText (path.dropWhile (· != identity) ++ [identity]))) := by
  obtain ⟨before, others, rfl, hnot⟩ := List.eq_append_cons_of_mem hmem
  have hcut : (before ++ identity :: others).dropWhile (· != identity) = identity :: others := by
    rw [List.dropWhile_append_of_pos, List.dropWhile_cons_of_neg (by simp)]
    intro member hmember
    rw [bne_iff_ne]
    exact fun hsame => hnot (hsame ▸ hmember)
  have hchain := hpath.chain
  rw [List.append_assoc] at hchain
  rw [hcut]
  exact .circular hpath.nodup.of_append_right
    (fun member hmember => hreached member (List.mem_append_right before hmember))
    hchain.right_of_append

/-- Where dependencies resolve, the only fault that a linking can have is a line. -/
theorem explains_of_link {reference : TypeReference} {descriptor : Descriptor}
    {parts : TypeIdentity → SignedType} {error : TypeError}
    (hreached : catalog.Reaches requested identity)
    (hfind : catalog.find? identity = some (reference, descriptor))
    (below : ∀ used ∈ descriptor.dependencyTypes, catalog.Resolves used (parts used))
    (hlink : link reference descriptor (descriptor.dependencyTypes.map parts) = .error error) :
    catalog.Explains requested error := by
  have hname : reference.identity = identity := by simpa using List.find?_some hfind
  rw [link_eq below, hname, Signature.ofLines] at hlink
  cases hline : (descriptor.sumLines fun used => (parts used).signature).find? (!isAscii ·) with
  | none =>
    rw [hline] at hlink
    cases hlink
  | some line =>
    rw [hline] at hlink
    cases hlink
    have hforeign : isAscii line = false := by simpa using List.find?_some hline
    exact .nonAscii hreached hfind
      (fun used hused => (below used hused).structuralSum_eq le_rfl)
      (List.mem_of_find?_eq_some hline) hforeign

/-- Whatever a walk fails with is true of the request. -/
theorem explains_of_walk {depth : Nat} {path : List TypeIdentity} {error : TypeError}
    (hpath : catalog.LeadsTo path identity) (hdepth : catalog.size < depth + path.length)
    (hreached : ∀ member ∈ path, catalog.Reaches requested member)
    (hasked : catalog.Asked requested referencedBy identity)
    (hfails : catalog.walk depth path referencedBy identity = .error error) :
    catalog.Explains requested error := by
  induction depth generalizing path referencedBy identity with
  | zero =>
    have hlength := hpath.length_le
    omega
  | succ depth ih =>
    rw [walk] at hfails
    by_cases hmem : identity ∈ path
    · rw [if_pos (List.contains_iff_mem.mpr hmem)] at hfails
      cases hfails
      exact hpath.explains_circular hreached hmem
    · rw [if_neg (by simpa using hmem)] at hfails
      cases hfind : catalog.find? identity with
      | none =>
        rw [hfind] at hfails
        cases hfails
        exact hasked.explains_unknown (find?_eq_none_iff.mp hfind)
      | some entry =>
        rcases entry with ⟨reference, descriptor⟩
        rw [hfind] at hfails
        rcases bind_eq_error_iff.mp hfails with hbelow | ⟨dependencies, hparts, hlink⟩
        · -- A dependency fails, which is asked for by this type.
          rcases exists_of_mapM_eq_error hbelow with ⟨used, hused, hfails⟩
          have hstep : catalog.Depends identity used := ⟨reference, descriptor, hfind, hused⟩
          refine ih (hpath.snoc hmem hstep) ?_ ?_ (.byType hasked.reaches hstep) hfails
          · rw [List.length_append, List.length_singleton]
            omega
          · intro member hmember
            rcases List.mem_append.mp hmember with hold | hlast
            · exact hreached member hold
            · rw [List.mem_singleton] at hlast
              exact hlast ▸ hasked.reaches
        · rcases exists_of_mapM_eq_ok hparts with ⟨parts, hok, rfl⟩
          exact explains_of_link hasked.reaches hfind
            (fun used hused => resolves_of_walk (hok used hused)) hlink

theorem explains_of_outcome {error : TypeError} (hfails : catalog.outcome identity = .error error) :
    catalog.Explains identity error :=
  explains_of_walk (.nil catalog identity) (by simp) nofun .byRequest hfails

end Catalog

namespace Resolver

/-- After any calls, a request that fails does so with an error that is true of it, for types that
are written as the error has them: one is unknown, their fields form a circle, or a line of one is
not ASCII. -/
theorem resolve_error_true {calls : List Call} {identity : TypeIdentity} {error : TypeError}
    (hfails : ((performAll {} calls).resolve identity).1 = .error error) :
    (performAll {} calls).catalog.Explains identity error := by
  rw [((consistent_empty.performAll calls).resolve identity).1] at hfails
  exact Catalog.explains_of_outcome hfails

/-- A type that leads to two others, which have fields of each other. -/
def circleCalls : List Call :=
  [.add (.message "x" "X") ⟨[.field ⟨.message "a" "A", "a"⟩], "a/A a"⟩,
    .add (.message "a" "A") ⟨[.field ⟨.message "b" "B", "b"⟩], "b/B b"⟩,
    .add (.message "b" "B") ⟨[.field ⟨(TypeReference.message "a" "A").toArray none, "a"⟩],
      "a/A[] a"⟩]

/-- The chain leaves out the type that only leads to the circle, though the request was for it. -/
theorem circleCalls_explained :
    let chain := "a/A -> b/B -> a/A"
    ((performAll {} circleCalls).resolve ⟨some "x", "X"⟩).1 = .error (.circular chain) ∧
      (performAll {} circleCalls).catalog.Explains ⟨some "x", "X"⟩ (.circular chain) := by
  intro chain
  have hfails : ((performAll {} circleCalls).resolve ⟨some "x", "X"⟩).1 =
      .error (.circular chain) := eq_error_of_match (by decide +kernel)
  exact ⟨hfails, resolve_error_true hfails⟩

/-- A type that is written like a request, with a field of a type that is not there. -/
def rootCalls : List Call :=
  [.add (.builtIn "<root>") ⟨[.field ⟨.message "x" "Missing", "m"⟩], "x/Missing m"⟩]

/-- A type that is written like a request asks for the missing one, which was not requested. -/
theorem rootCalls_ambiguous :
    let requested : TypeIdentity := ⟨none, "<root>"⟩
    ((performAll {} rootCalls).resolve requested).1 =
        .error (.unknown "x/Missing" TypeError.rootName) ∧
      ∀ missing : TypeIdentity, missing.text = "x/Missing" → missing ≠ requested := by
  intro requested
  refine ⟨eq_error_of_match (by decide +kernel), ?_⟩
  rintro missing hmissing rfl
  exact absurd hmissing (by decide)

end Resolver

end RosInterface
