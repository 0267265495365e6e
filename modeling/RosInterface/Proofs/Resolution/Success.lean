import RosInterface.Proofs.Md5
import RosInterface.Proofs.Resolution.Structural

namespace RosInterface

open Relation

/-! # When types resolve

A type resolves exactly if everything that it reaches through fields of message types is defined,
lies on no cycle and is written in ASCII where its lines are concerned. `resolve_succeeds_iff` says
so for a resolver after any calls.

The way there is `Resolves`, which knows neither memory nor paths. A type that resolves passes the
three conditions on to what it depends on. Conversely the conditions keep every path to a type from
meeting it twice, and such paths cannot get longer than the catalog, so that the dependencies of a
type may be taken to resolve before the type itself.
-/

/-! ## ASCII texts -/

theorem isAscii_append (a b : String) : isAscii (a ++ b) = (isAscii a && isAscii b) := by
  rw [isAscii, String.toList_append, List.all_append]
  rfl

theorem IsHexSum.isAscii {text : String} (h : IsHexSum text) :
    RosInterface.isAscii text = true := by
  rw [RosInterface.isAscii, List.all_eq_true]
  intro c hc
  have hdigit := h.digits c hc
  simp only [isSumDigit, Bool.or_eq_true, Bool.and_eq_true, decide_eq_true_eq, Char.le_def,
    UInt32.le_iff_toNat_le] at hdigit
  refine decide_eq_true ?_
  rcases hdigit with hdigit | hdigit
  · exact lt_of_le_of_lt hdigit.2 (by decide)
  · exact lt_of_le_of_lt hdigit.2 (by decide)

theorem isAscii_hexDigest (text : String) : isAscii (Md5.hexDigest text) = true :=
  (Md5.isHexSum_hexDigest text).isAscii

/-- What a definition contributes to its lines itself is ASCII: all of its constants, the names of
its fields and their built-in types. -/
structure Descriptor.IsAscii (descriptor : Descriptor) : Prop where
  constants : ∀ constant ∈ descriptor.constants, isAscii constant.type.text = true ∧
    isAscii constant.identifier = true ∧ isAscii constant.value = true
  fields : ∀ field ∈ descriptor.fields, isAscii field.identifier = true
  builtIn : ∀ field ∈ descriptor.fields, field.type.isBuiltIn = true →
    isAscii field.type.text = true

theorem Constant.isAscii_text (constant : Constant) :
    isAscii constant.text = true ↔ isAscii constant.type.text = true ∧
      isAscii constant.identifier = true ∧ isAscii constant.value = true := by
  have hspace : isAscii " " = true := by decide
  have hequals : isAscii "=" = true := by decide
  simp only [Constant.text, isAscii_append, hspace, hequals, Bool.and_true, Bool.and_eq_true,
    and_assoc]

theorem Field.isAscii_sumLine {sum : TypeIdentity → String} {field : Field}
    (hsum : field.type.isBuiltIn = false → RosInterface.isAscii (sum field.type.identity) = true) :
    isAscii (field.sumLine sum) = true ↔ isAscii field.identifier = true ∧
      (field.type.isBuiltIn = true → isAscii field.type.text = true) := by
  have hspace : isAscii " " = true := by decide
  unfold Field.sumLine
  cases hbuiltIn : field.type.isBuiltIn with
  | true =>
    simp only [if_pos, Field.text, isAscii_append, hspace, Bool.and_true, Bool.and_eq_true,
      forall_true_left]
    exact and_comm
  | false =>
    simp only [Bool.false_eq_true, if_false, isAscii_append, hsum hbuiltIn, hspace, Bool.true_and,
      false_implies, and_true]

/-- The sums of message types are ASCII, so lines are ASCII if the definition is. -/
theorem Descriptor.isAscii_sumLines {descriptor : Descriptor} {sum : TypeIdentity → String}
    (hsum : ∀ used ∈ descriptor.dependencyTypes, isAscii (sum used) = true) :
    (∀ line ∈ descriptor.sumLines sum, isAscii line = true) ↔ descriptor.IsAscii := by
  have hfield : ∀ field ∈ descriptor.fields, (isAscii (field.sumLine sum) = true ↔
      isAscii field.identifier = true ∧
        (field.type.isBuiltIn = true → isAscii field.type.text = true)) := by
    intro field hfield
    refine Field.isAscii_sumLine fun hmessage => hsum _ ?_
    exact mem_dependencyTypes.mpr ⟨field, hfield, hmessage, rfl⟩
  have hlines : (∀ line ∈ descriptor.sumLines sum, isAscii line = true) ↔
      (∀ constant ∈ descriptor.constants, isAscii constant.text = true) ∧
        ∀ field ∈ descriptor.fields, isAscii (field.sumLine sum) = true := by
    simp only [sumLines, List.forall_mem_append, List.forall_mem_map]
  rw [hlines]
  constructor
  · rintro ⟨hconstants, hfields⟩
    exact ⟨fun constant hmem => constant.isAscii_text.mp (hconstants constant hmem),
      fun field hmem => ((hfield field hmem).mp (hfields field hmem)).1,
      fun field hmem => ((hfield field hmem).mp (hfields field hmem)).2⟩
  · rintro ⟨hconstants, hfields, hbuiltIn⟩
    exact ⟨fun constant hmem => constant.isAscii_text.mpr (hconstants constant hmem),
      fun field hmem => (hfield field hmem).mpr ⟨hfields field hmem, hbuiltIn field hmem⟩⟩

namespace Catalog

variable {catalog : Catalog} {identity : TypeIdentity} {signed : SignedType}

/-- Types are reached through fields, in any number of steps. -/
def Reaches (catalog : Catalog) : TypeIdentity → TypeIdentity → Prop :=
  ReflTransGen catalog.Depends

/-- All types that are reached are defined, in ASCII, and lie on no cycle. -/
structure Resolvable (catalog : Catalog) (identity : TypeIdentity) : Prop where
  defined : ∀ used, catalog.Reaches identity used → used ∈ catalog.names
  acyclic : ∀ used, catalog.Reaches identity used → ¬ TransGen catalog.Depends used used
  ascii : ∀ used reference descriptor, catalog.Reaches identity used →
    catalog.find? used = some (reference, descriptor) → descriptor.IsAscii

theorem Resolvable.of_reaches (h : catalog.Resolvable identity) {used : TypeIdentity}
    (hused : catalog.Reaches identity used) : catalog.Resolvable used :=
  ⟨fun other hother => h.defined other (hused.trans hother),
    fun other hother => h.acyclic other (hused.trans hother),
    fun other reference descriptor hother =>
      h.ascii other reference descriptor (hused.trans hother)⟩

/-! ## What resolves -/

theorem Resolves.isAscii_signature (h : catalog.Resolves identity signed) :
    isAscii signed.signature = true := by
  cases h with
  | intro parts found below linked =>
    rcases (link_eq_ok_iff below).mp linked with ⟨-, rfl⟩
    exact isAscii_hexDigest _

theorem Resolves.isAscii (h : catalog.Resolves identity signed) {reference : TypeReference}
    {descriptor : Descriptor} (hfind : catalog.find? identity = some (reference, descriptor)) :
    descriptor.IsAscii := by
  cases h with
  | intro parts found below linked =>
    rw [found] at hfind
    cases hfind
    rcases (link_eq_ok_iff below).mp linked with ⟨hlines, -⟩
    refine (Descriptor.isAscii_sumLines fun used hused => ?_).mp hlines
    exact (below used hused).isAscii_signature

/-- What a type that resolves depends on resolves too. -/
theorem Resolves.of_reaches (h : catalog.Resolves identity signed) {used : TypeIdentity}
    (hused : catalog.Reaches identity used) : ∃ below, catalog.Resolves used below := by
  induction hused with
  | refl => exact ⟨signed, h⟩
  | tail _ hstep ih =>
    rcases ih with ⟨user, huser⟩
    rcases hstep with ⟨reference, descriptor, hfind, hmem⟩
    cases huser with
    | intro parts found below linked =>
      rw [found] at hfind
      cases hfind
      exact ⟨_, below _ hmem⟩

theorem Resolves.resolvable (h : catalog.Resolves identity signed) :
    catalog.Resolvable identity where
  defined used hused := by
    rcases h.of_reaches hused with ⟨below, hbelow⟩
    rcases hbelow.exists_entry with ⟨entry, hfind⟩
    exact mem_names_of_find? hfind
  acyclic used hused := by
    rcases h.of_reaches hused with ⟨below, hbelow⟩
    exact hbelow.not_circular
  ascii used reference descriptor hused hfind := by
    rcases h.of_reaches hused with ⟨below, hbelow⟩
    exact hbelow.isAscii hfind

theorem Resolvable.exists_resolves (h : catalog.Resolvable identity) :
    ∃ signed, catalog.Resolves identity signed := by
  -- The path gets longer on the way to the dependencies of a type, and the depth is what is left.
  suffices hpaths : ∀ depth path identity, catalog.LeadsTo path identity →
      catalog.size < depth + path.length → catalog.Resolvable identity →
      ∃ signed, catalog.Resolves identity signed from
    hpaths (catalog.size + 1) [] identity (.nil catalog identity) (by simp) h
  clear h
  intro depth
  induction depth with
  | zero =>
    intro path identity hpath hdepth
    have hlength := hpath.length_le
    omega
  | succ depth ih =>
    intro path identity hpath hdepth h
    have hnew : identity ∉ path := fun hmem => h.acyclic identity .refl (hpath.transGen hmem)
    obtain ⟨⟨reference, descriptor⟩, hfind⟩ : ∃ entry, catalog.find? identity = some entry := by
      rw [← Option.ne_none_iff_exists']
      exact fun hnone => find?_eq_none_iff.mp hnone (h.defined identity .refl)
    have hbelow : ∀ used ∈ descriptor.dependencyTypes, ∃ part, catalog.Resolves used part := by
      intro used hused
      have hstep : catalog.Depends identity used := ⟨reference, descriptor, hfind, hused⟩
      refine ih (path ++ [identity]) used (hpath.snoc hnew hstep) ?_ (h.of_reaches (.single hstep))
      rw [List.length_append, List.length_singleton]
      omega
    choose! parts hparts using hbelow
    have hlines : ∀ line ∈ descriptor.sumLines fun used => (parts used).signature,
        RosInterface.isAscii line = true :=
      (Descriptor.isAscii_sumLines fun used hused => (hparts used hused).isAscii_signature).mpr
        (h.ascii identity reference descriptor .refl hfind)
    exact ⟨_, .intro parts hfind hparts ((link_eq_ok_iff hparts).mpr ⟨hlines, rfl⟩)⟩

end Catalog

namespace Resolver

/-- After any calls, a type resolves exactly if it and all types that it reaches are registered,
none of them lies on a cycle of fields, and they are written in ASCII. A type with a field of its
own type is a cycle, and whether a field is an array makes no difference. -/
theorem resolve_succeeds_iff (calls : List Call) (identity : TypeIdentity) :
    let catalog := (performAll {} calls).catalog
    (∃ signed, ((performAll {} calls).resolve identity).1 = .ok signed) ↔
      (∀ used, catalog.Reaches identity used → used ∈ catalog.names) ∧
      (∀ used, catalog.Reaches identity used → ¬ TransGen catalog.Depends used used) ∧
      ∀ used reference descriptor, catalog.Reaches identity used →
        catalog.find? used = some (reference, descriptor) → descriptor.IsAscii := by
  intro catalog
  simp only [resolve_eq_ok_iff]
  constructor
  · rintro ⟨signed, hresolves⟩
    have h := hresolves.resolvable
    exact ⟨h.defined, h.acyclic, h.ascii⟩
  · rintro ⟨hdefined, hacyclic, hascii⟩
    exact Catalog.Resolvable.exists_resolves ⟨hdefined, hacyclic, hascii⟩

end Resolver

end RosInterface
