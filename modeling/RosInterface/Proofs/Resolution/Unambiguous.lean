import RosInterface.Proofs.Resolution.Lines

namespace RosInterface

/-! # Digested texts are unambiguous

The text that is digested for a type depends on the digests of its dependencies. `inputTextBy` is
this text for any digest in place of the usual one, and `SameDeclarations` says when two types mean
the same by their declarations: dependencies count by their sums.

Types that resolve have such a text, and if their declarations were read from files, their texts are
the same only if their declarations are (`digested_text_unambiguous`). What lines can be confused
with what is settled for definitions alone, so that linked types only contribute the sums.
-/

/-! ## Linked types -/

namespace LinkedType

mutual

/-- The text that is digested for a type, if all sums are digests of another kind. Whether lines are
ASCII is left out of account, as those of types that resolve always are. -/
def inputTextBy (digest : String → String) : LinkedType → Except TypeError String
  | mk reference descriptor dependencies =>
    Signature.inputText <$> Signature.lines (m := Id) reference.identity descriptor
      (firstOf (sumsBy digest dependencies))

/-- The sums of some types under their names. -/
def sumsBy (digest : String → String) :
    List LinkedType → List (TypeIdentity × Except TypeError String)
  | [] => []
  | type :: others =>
    (type.identity, (inputTextBy digest type).map digest) :: sumsBy digest others

end

theorem sumsBy_eq_map (digest : String → String) (types : List LinkedType) :
    sumsBy digest types =
      types.map fun type => (type.identity, (type.inputTextBy digest).map digest) := by
  induction types with
  | nil => simp [sumsBy]
  | cons type rest ih => simp [sumsBy, ih]

/-- The sum of the dependency that a field of a type looks up. -/
def sumOf (digest : String → String) (type : LinkedType) (used : TypeReference) :
    Option (Except TypeError String) :=
  firstOf (sumsBy digest type.dependencies) used

/-- A dependency of one type has the sum that a dependency of another one has. -/
def SameSum (digest : String → String) (a b : LinkedType) (used other : TypeReference) : Prop :=
  ∃ sum, a.sumOf digest used = some (.ok sum) ∧ b.sumOf digest other = some (.ok sum)

/-- Two types have the same constants in the same order, and fields that agree one by one, where
those of message types have dependencies of one sum. -/
structure SameDeclarations (digest : String → String) (a b : LinkedType) : Prop where
  constants : a.descriptor.constants = b.descriptor.constants
  fields : List.Forall₂ (SameMember (SameSum digest a b)) a.descriptor.fields b.descriptor.fields

/-- Where the sums of all dependencies can be looked up, the text has the lines with these sums. -/
theorem inputTextBy_mk {digest : String → String} (reference : TypeReference)
    {descriptor : Descriptor} {dependencies : List LinkedType} {sum : TypeIdentity → String}
    (hsums : ∀ used ∈ descriptor.dependencyTypes,
      (sumsBy digest dependencies).lookup used = some (.ok (sum used))) :
    (mk reference descriptor dependencies).inputTextBy digest =
      .ok (Signature.inputText (descriptor.sumLines sum)) := by
  rw [inputTextBy, Signature.lines_eq sum]
  · rfl
  · intro field hfield hmessage
    exact hsums _ (Descriptor.mem_dependencyTypes.mpr ⟨field, hfield, hmessage, rfl⟩)

end LinkedType

namespace Catalog

variable {catalog : Catalog} {identity : TypeIdentity} {signed : SignedType}

/-- The sums of dependencies are found under their names. -/
theorem lookup_sumsBy {digest : String → String} {names : List TypeIdentity}
    {parts : TypeIdentity → SignedType} {text : TypeIdentity → String}
    (hnames : ∀ used ∈ names, (parts used).type.identity = used)
    (htexts : ∀ used ∈ names, (parts used).type.inputTextBy digest = .ok (text used)) :
    ∀ used ∈ names, (LinkedType.sumsBy digest (names.map fun used => (parts used).type)).lookup
      used = some (.ok (digest (text used))) := by
  have hentries : LinkedType.sumsBy digest (names.map fun used => (parts used).type) =
      names.map fun used => (used, .ok (digest (text used))) := by
    rw [LinkedType.sumsBy_eq_map, List.map_map]
    refine List.map_congr_left fun used hused => ?_
    show ((parts used).type.identity, ((parts used).type.inputTextBy digest).map digest) = _
    rw [hnames used hused, htexts used hused]
    rfl
  intro used hused
  rw [hentries]
  exact List.lookup_graph _ hused

/-- A type that resolves has a text to digest, in which digests stand for its dependencies. -/
theorem Resolves.exists_inputText (h : catalog.Resolves identity signed)
    (digest : String → String) : ∃ text : TypeIdentity → String,
      (∀ used ∈ signed.type.descriptor.dependencyTypes,
        (LinkedType.sumsBy digest signed.type.dependencies).lookup used =
          some (.ok (digest (text used)))) ∧
      signed.type.inputTextBy digest =
        .ok (Signature.inputText (signed.type.descriptor.sumLines fun used =>
          digest (text used))) := by
  induction h with
  | @intro identity reference descriptor signed parts found below linked ih =>
    have hparts : ∀ used ∈ descriptor.dependencyTypes,
        ∃ text, (parts used).type.inputTextBy digest = .ok text := by
      intro used hused
      rcases ih used hused with ⟨_, -, htext⟩
      exact ⟨_, htext⟩
    choose! text htext using hparts
    have hsums := lookup_sumsBy (fun used hused => (below used hused).identity_eq) htext
    rcases (link_eq_ok_iff below).mp linked with ⟨-, rfl⟩
    exact ⟨text, hsums, LinkedType.inputTextBy_mk reference hsums⟩

/-- The signature of a type that resolves is the digest of its text. -/
theorem Resolves.exists_signature_eq (h : catalog.Resolves identity signed) :
    ∃ text, signed.type.inputTextBy Md5.hexDigest = .ok text ∧
      signed.signature = Md5.hexDigest text := by
  induction h with
  | @intro identity reference descriptor signed parts found below linked ih =>
    choose! text htext hsignature using ih
    have hsums := lookup_sumsBy (fun used hused => (below used hused).identity_eq) htext
    rcases (link_eq_ok_iff below).mp linked with ⟨-, rfl⟩
    refine ⟨_, LinkedType.inputTextBy_mk reference hsums, ?_⟩
    have hlines : descriptor.sumLines (fun used => (parts used).signature) =
        descriptor.sumLines fun used => Md5.hexDigest (text used) :=
      Descriptor.sumLines_congr hsignature
    rw [hlines]

theorem Resolves.signature_eq (h : catalog.Resolves identity signed) {text : String}
    (htext : signed.type.inputTextBy Md5.hexDigest = .ok text) :
    signed.signature = Md5.hexDigest text := by
  rcases h.exists_signature_eq with ⟨found, hfound, hsignature⟩
  rw [hfound] at htext
  cases htext
  exact hsignature

/-- The texts of two types that resolve are the same only if their declarations are, provided that
these were read from files. -/
theorem Resolves.inputText_eq_iff {other : Catalog} {twinIdentity : TypeIdentity}
    {twin : SignedType} (h : catalog.Resolves identity signed)
    (htwin : other.Resolves twinIdentity twin)
    (hread : Definition.IsRead signed.type.descriptor)
    (hreadTwin : Definition.IsRead twin.type.descriptor) {digest : String → String}
    (hdigest : ∀ text, IsHexSum (digest text)) :
    ∃ text otherText, signed.type.inputTextBy digest = .ok text ∧
      twin.type.inputTextBy digest = .ok otherText ∧
      (text = otherText ↔ LinkedType.SameDeclarations digest signed.type twin.type) := by
  rcases h.exists_inputText digest with ⟨parts, hparts, htext⟩
  rcases htwin.exists_inputText digest with ⟨otherParts, hotherParts, hotherText⟩
  refine ⟨_, _, htext, hotherText, ?_⟩
  rw [Descriptor.inputText_eq_iff hread hreadTwin (fun used _ => hdigest (parts used))
    (fun used _ => hdigest (otherParts used))]
  -- The sums are those that the fields look up.
  have hsums : ∀ x ∈ signed.type.descriptor.fields, ∀ y ∈ twin.type.descriptor.fields,
      x.type.isBuiltIn = false → y.type.isBuiltIn = false →
        (digest (parts x.type.identity) = digest (otherParts y.type.identity) ↔
          LinkedType.SameSum digest signed.type twin.type x.type y.type) := by
    intro x hx y hy hleft hright
    have hsum := hparts _ (Descriptor.mem_dependencyTypes.mpr ⟨x, hx, hleft, rfl⟩)
    have hother := hotherParts _ (Descriptor.mem_dependencyTypes.mpr ⟨y, hy, hright, rfl⟩)
    constructor
    · intro hsame
      exact ⟨_, hsum, hsame ▸ hother⟩
    · rintro ⟨sum, hfound, hfoundOther⟩
      have hhere := hsum.symm.trans hfound
      have hthere := hother.symm.trans hfoundOther
      rw [Option.some.injEq, Except.ok.injEq] at hhere hthere
      rw [hhere, hthere]
  have hfields : List.Forall₂ (SameMember fun used other =>
        digest (parts used.identity) = digest (otherParts other.identity))
          signed.type.descriptor.fields twin.type.descriptor.fields ↔
      List.Forall₂ (SameMember (LinkedType.SameSum digest signed.type twin.type))
        signed.type.descriptor.fields twin.type.descriptor.fields :=
    forall₂_congr fun x hx y hy =>
      ⟨SameMember.imp fun hleft hright => (hsums x hx y hy hleft hright).mp,
        SameMember.imp fun hleft hright => (hsums x hx y hy hleft hright).mpr⟩
  rw [hfields]
  exact ⟨fun ⟨hconstants, hmembers⟩ => ⟨hconstants, hmembers⟩,
    fun ⟨hconstants, hmembers⟩ => ⟨hconstants, hmembers⟩⟩

end Catalog

namespace Resolver

/-- For types that resolve and whose declarations were read from files, the digested texts are the
same exactly if the declarations are, whatever digest of thirty-two hexadecimal digits stands for
the dependencies. Hence types of one signature declare the same, unless their texts collide. -/
theorem digested_text_unambiguous {calls others : List Call} {identity other : TypeIdentity}
    {signed twin : SignedType} (h : ((performAll {} calls).resolve identity).1 = .ok signed)
    (htwin : ((performAll {} others).resolve other).1 = .ok twin)
    (hread : Definition.IsRead signed.type.descriptor)
    (hreadTwin : Definition.IsRead twin.type.descriptor) :
    (∀ digest : String → String, (∀ text, IsHexSum (digest text)) → ∃ text otherText,
      signed.type.inputTextBy digest = .ok text ∧ twin.type.inputTextBy digest = .ok otherText ∧
        (text = otherText ↔ LinkedType.SameDeclarations digest signed.type twin.type)) ∧
    ∃ text otherText, signed.type.inputTextBy Md5.hexDigest = .ok text ∧
      twin.type.inputTextBy Md5.hexDigest = .ok otherText ∧
      signed.signature = Md5.hexDigest text ∧ twin.signature = Md5.hexDigest otherText ∧
      (signed.signature = twin.signature →
        LinkedType.SameDeclarations Md5.hexDigest signed.type twin.type ∨
          Md5.Collide text otherText) := by
  have hresolves := resolve_eq_ok_iff.mp h
  have hresolvesTwin := resolve_eq_ok_iff.mp htwin
  have htexts := fun (digest : String → String) (hdigest : ∀ text, IsHexSum (digest text)) =>
    hresolves.inputText_eq_iff hresolvesTwin hread hreadTwin hdigest
  refine ⟨htexts, ?_⟩
  rcases htexts Md5.hexDigest Md5.isHexSum_hexDigest with
    ⟨text, otherText, htext, hotherText, hiff⟩
  have hsignature := hresolves.signature_eq htext
  have hotherSignature := hresolvesTwin.signature_eq hotherText
  refine ⟨text, otherText, htext, hotherText, hsignature, hotherSignature, fun hsame => ?_⟩
  by_cases hequal : text = otherText
  · exact .inl (hiff.mp hequal)
  · refine .inr ⟨hequal, ?_⟩
    rw [← hsignature, ← hotherSignature, hsame]

/-- What a file declares whose constant looks like much else. -/
def singleDefinition : Descriptor :=
  ⟨[.constant ⟨.builtIn "string", "S", "a = b # c"⟩, .field ⟨.builtIn "int8", "x"⟩],
    "string S = a = b # c\nint8 x"⟩

/-- What a file declares that has an array in place of the single value. -/
def arrayDefinition : Descriptor :=
  ⟨[.field ⟨(TypeReference.builtIn "int8").toArray none, "x"⟩,
    .constant ⟨.builtIn "string", "S", "a = b # c"⟩], "int8[] x\nstring S=a = b # c"⟩

/-- Both definitions are registered. -/
def boundCalls : List Call :=
  [.add (.message "p" "Single") singleDefinition, .add (.message "p" "Array") arrayDefinition]

/-- An array bound alone makes the texts differ. -/
theorem boundCalls_distinguished : ∃ signed twin,
    ((performAll {} boundCalls).resolve ⟨some "p", "Single"⟩).1 = .ok signed ∧
      ((performAll {} boundCalls).resolve ⟨some "p", "Array"⟩).1 = .ok twin ∧
      Definition.IsRead signed.type.descriptor ∧ Definition.IsRead twin.type.descriptor ∧
      ∀ digest : String → String, (∀ text, IsHexSum (digest text)) → ∃ text otherText,
        signed.type.inputTextBy digest = .ok text ∧ twin.type.inputTextBy digest = .ok otherText ∧
          text ≠ otherText := by
  obtain ⟨signed, hresolve⟩ : ∃ signed,
      ((performAll {} boundCalls).resolve ⟨some "p", "Single"⟩).1 = .ok signed :=
    exists_of_isSome (by decide +kernel)
  obtain ⟨twin, htwin⟩ : ∃ twin,
      ((performAll {} boundCalls).resolve ⟨some "p", "Array"⟩).1 = .ok twin :=
    exists_of_isSome (by decide +kernel)
  have hsingle : signed.type.descriptor = singleDefinition := by
    have hfound : ((performAll {} boundCalls).resolve ⟨some "p", "Single"⟩).1.toOption.map
        (·.type.descriptor) = some singleDefinition := by decide +kernel
    rw [hresolve] at hfound
    exact Option.some.inj hfound
  have harray : twin.type.descriptor = arrayDefinition := by
    have hfound : ((performAll {} boundCalls).resolve ⟨some "p", "Array"⟩).1.toOption.map
        (·.type.descriptor) = some arrayDefinition := by decide +kernel
    rw [htwin] at hfound
    exact Option.some.inj hfound
  have hread : Definition.IsRead signed.type.descriptor :=
    hsingle ▸ ⟨"p", ⟨⟨"Single.msg"⟩, .message⟩, singleDefinition.definition, _,
      ⟨.message "p" "Single", .message, none, "Single", singleDefinition⟩, by rfl,
      List.mem_singleton_self _, rfl⟩
  have hreadTwin : Definition.IsRead twin.type.descriptor :=
    harray ▸ ⟨"p", ⟨⟨"Array.msg"⟩, .message⟩, arrayDefinition.definition, _,
      ⟨.message "p" "Array", .message, none, "Array", arrayDefinition⟩, by rfl,
      List.mem_singleton_self _, rfl⟩
  refine ⟨signed, twin, hresolve, htwin, hread, hreadTwin, fun digest hdigest => ?_⟩
  rcases (digested_text_unambiguous hresolve htwin hread hreadTwin).1 digest hdigest with
    ⟨text, otherText, htext, hotherText, hiff⟩
  refine ⟨text, otherText, htext, hotherText, fun heq => ?_⟩
  have hfields := (hiff.mp heq).fields
  rw [hsingle, harray] at hfields
  -- The only fields are built-in types with different bounds.
  rcases hfields with - | ⟨⟨-, -, -, -, hbound⟩ | ⟨-, hmessage, -, -⟩, -⟩
  · exact absurd hbound (by decide)
  · cases hmessage

end Resolver

end RosInterface
