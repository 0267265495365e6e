import RosInterface.Proofs.Definition.Rereading
import RosInterface.Proofs.Resolution.Flattening

namespace RosInterface

/-! # Taking flattened definitions apart

A flattened definition joins texts with separator lines between them. `parts` cuts a text at these
lines, and knows nothing of types. It gives back what was joined as long as no text has a separator
line of its own, which is so for texts that were read from definition files.
-/

namespace LinkedType

/-! ## Parts -/

/-- The text between line feeds, piece by piece. -/
def linesOf (text : String) : List (List Char) :=
  text.toList.splitOn '\n'

/-- The parts of a text in front of, between and behind its separator lines. -/
def parts (text : String) : List String :=
  ((linesOf text).splitOn separator.toList).map fun lines =>
    String.ofList (['\n'].intercalate lines)

theorem linesOf_append (front back : String) :
    linesOf (front ++ "\n" ++ back) = linesOf front ++ linesOf back := by
  have hchars : (front ++ "\n" ++ back).toList = front.toList ++ '\n' :: back.toList := by simp
  unfold linesOf
  rw [hchars, List.splitOn_append_cons_self]

theorem linesOf_separator : linesOf separator = [separator.toList] :=
  List.splitOn_eq_singleton (by decide +kernel)

/-- The lines of texts that are joined with separators, with the separators between theirs. -/
theorem linesOf_join (own : String) (others : List String) :
    linesOf (own ++ String.join (others.map ("\n" ++ separator ++ "\n" ++ ·))) =
      [separator.toList].intercalate ((own :: others).map linesOf) := by
  induction others generalizing own with
  | nil => simp
  | cons next others ih =>
    have hsplit : own ++ String.join ((next :: others).map ("\n" ++ separator ++ "\n" ++ ·)) =
        own ++ "\n" ++ (separator ++ "\n" ++
          (next ++ String.join (others.map ("\n" ++ separator ++ "\n" ++ ·)))) := by
      rw [List.map_cons, String.join_cons]
      simp only [String.append_assoc]
    rw [hsplit, linesOf_append, linesOf_append, linesOf_separator, ih, List.map_cons, List.map_cons,
      List.map_cons, List.intercalate_cons_cons, List.append_assoc]

/-- Texts without separator lines are the parts of what they are joined to. -/
theorem parts_join (own : String) (others : List String)
    (hlines : ∀ text ∈ own :: others, separator.toList ∉ linesOf text) :
    parts (own ++ String.join (others.map ("\n" ++ separator ++ "\n" ++ ·))) = own :: others := by
  have hsplit : (linesOf (own ++ String.join
      (others.map ("\n" ++ separator ++ "\n" ++ ·)))).splitOn separator.toList =
        (own :: others).map linesOf := by
    rw [linesOf_join]
    refine List.splitOn_intercalate _ ?_ (by simp)
    simpa using hlines
  have hjoin : ∀ text, String.ofList (['\n'].intercalate (linesOf text)) = text := by
    intro text
    rw [linesOf, List.intercalate_splitOn, String.ofList_toList]
  unfold parts
  rw [hsplit, List.map_map]
  exact List.map_id'' hjoin _

/-- A heading does not look like a separator. -/
theorem separator_not_mem_heading {heading text : String}
    (hheading : '\n' ∉ ("MSG: " ++ heading).toList) (htext : separator.toList ∉ linesOf text) :
    separator.toList ∉ linesOf ("MSG: " ++ heading ++ "\n" ++ text) := by
  have hline : linesOf ("MSG: " ++ heading) = [("MSG: " ++ heading).toList] :=
    List.splitOn_eq_singleton hheading
  have hother : separator.toList ≠ ("MSG: " ++ heading).toList := by
    intro heq
    have hmem : 'M' ∈ separator.toList := by
      rw [heq]
      simp
    exact absurd hmem (by decide +kernel)
  rw [linesOf_append, hline, List.singleton_append]
  exact List.not_mem_cons_of_ne_of_not_mem hother htext

end LinkedType

namespace Catalog

variable {catalog : Catalog} {identity : TypeIdentity} {signed : SignedType}

/-! ## Definitions from files -/

/-- What stands for a type between two separators. -/
def entryOf (catalog : Catalog) (name : TypeIdentity) : String :=
  "MSG: " ++ name.text ++ "\n" ++ catalog.textOf name

theorem blockOf_eq (catalog : Catalog) (name : TypeIdentity) :
    catalog.blockOf name = "\n" ++ LinkedType.separator ++ "\n" ++ catalog.entryOf name := by
  have hheading : "\nMSG: " = "\n" ++ "MSG: " := by decide +kernel
  unfold blockOf entryOf
  rw [hheading]
  simp only [String.append_assoc]

/-- The definition under a name belongs to a package, which reads its declarations from its text
again. -/
def ReadsAgain (catalog : Catalog) (name : TypeIdentity) : Prop :=
  ∃ package reference descriptor, name.package = some package ∧
    catalog.find? name = some (reference, descriptor) ∧ Definition.Rereads package descriptor

variable (hfiles : ∀ entry ∈ catalog.definitions, Definition.FromFile entry)

include hfiles

/-- What is found in a catalog was read from a section of a file. -/
theorem exists_section {name : TypeIdentity} {reference : TypeReference} {descriptor : Descriptor}
    (hfind : catalog.find? name = some (reference, descriptor)) :
    ∃ package file text, ∃ part ∈ Section.ofText text, name.package = some package ∧
      '\n' ∉ package.toList ∧ Definition.readSection package file part = .ok descriptor := by
  have hmem : (reference, descriptor) ∈ catalog.definitions := List.mem_of_find?_eq_some hfind
  have hname : reference.identity = name := by simpa using List.find?_some hfind
  rcases hfiles _ hmem with ⟨package, file, text, messages, message, hpackage, hread, hmessage, heq⟩
  cases heq
  rcases Definition.exists_section_of_readMessages hread hmessage with ⟨hown, part, hpart, hsection⟩
  refine ⟨package, file.path.text, text, part, hpart, ?_, hpackage, hsection⟩
  rw [← hname]
  exact hown

theorem Resolves.readsAgain (h : catalog.Resolves identity signed) :
    catalog.ReadsAgain identity := by
  rcases exists_section hfiles h.find?_eq with ⟨package, file, text, part, hpart, hown, -, hread⟩
  exact ⟨package, _, _, hown, h.find?_eq, Definition.rereads_of_readSection hpart hread⟩

theorem Resolves.separator_not_mem (h : catalog.Resolves identity signed) :
    LinkedType.separator.toList ∉ LinkedType.linesOf (catalog.textOf identity) := by
  rcases exists_section hfiles h.find?_eq with ⟨package, file, text, part, hpart, -, -, hread⟩
  rw [h.textOf_eq]
  exact Definition.separator_not_mem hpart hread

/-- Types that others depend on have no line feeds in their names. -/
theorem newline_not_mem_of_depends {user used : TypeIdentity}
    (hdepends : catalog.Depends user used) : '\n' ∉ used.text.toList := by
  rcases hdepends with ⟨reference, descriptor, hfind, hused⟩
  rcases exists_section hfiles hfind with ⟨package, file, text, part, -, -, hpackage, hread⟩
  rcases Descriptor.mem_dependencyTypes.mp hused with ⟨field, hfield, -, rfl⟩
  exact Definition.newline_not_mem_of_field hpackage hread hfield

end Catalog

/-! ## Resolvers -/

namespace Resolver

/-- Where all definitions were read from files, a flattened definition can be taken apart at its
separator lines. The parts are the text of the type itself and, for each type it depends on, a line
with its name in front of its text. Each of these texts is one section, in which the package of the
type reads the declarations of the registered definition again. -/
theorem definition_decodes {calls : List Call} {identity : TypeIdentity} {signed : SignedType}
    (hfiles : ∀ entry ∈ registered {} calls, Definition.FromFile entry)
    (h : ((performAll {} calls).resolve identity).1 = .ok signed) :
    let catalog := (performAll {} calls).catalog
    let names := (LinkedType.namesOf signed.type.expansion).eraseDups
    LinkedType.parts signed.type.definition =
        catalog.textOf identity ::
          names.map (fun name => "MSG: " ++ name.text ++ "\n" ++ catalog.textOf name) ∧
      (∀ name ∈ names, '\n' ∉ name.text.toList) ∧
      ∀ name ∈ identity :: names, catalog.ReadsAgain name := by
  intro catalog names
  have hresolves : catalog.Resolves identity signed := resolve_eq_ok_iff.mp h
  have hdefinitions : ∀ entry ∈ catalog.definitions, Definition.FromFile entry := by
    intro entry hentry
    have hsame : catalog.definitions = registered {} calls := definitions_performAll {} calls
    exact hfiles entry (hsame ▸ hentry)
  have hbelow : ∀ name ∈ names, ∃ below, catalog.Resolves name below := by
    intro name hname
    rcases List.mem_map.mp (List.mem_eraseDups.mp hname) with ⟨type, htype, rfl⟩
    rcases (hresolves.of_mem_expansion htype).2 with ⟨below, hbelow, -⟩
    exact ⟨below, hbelow⟩
  have hheadings : ∀ name ∈ names, '\n' ∉ name.text.toList := by
    intro name hname
    -- Some type below has a field of this type, which is where the name was read.
    have hreach := hresolves.mem_expansion_iff.mp (List.mem_eraseDups.mp hname)
    obtain ⟨user, -, hdepends⟩ := Relation.TransGen.tail'_iff.mp hreach
    exact Catalog.newline_not_mem_of_depends hdefinitions hdepends
  refine ⟨?_, hheadings, ?_⟩
  · have hdefinition : signed.type.definition = catalog.textOf identity ++ String.join
        ((names.map catalog.entryOf).map ("\n" ++ LinkedType.separator ++ "\n" ++ ·)) := by
      rw [hresolves.definition_eq, List.map_map]
      exact congrArg _ (congrArg _ (List.map_congr_left fun name _ => catalog.blockOf_eq name))
    rw [hdefinition]
    refine LinkedType.parts_join _ _ (List.forall_mem_cons.mpr ⟨?_, ?_⟩)
    · exact hresolves.separator_not_mem hdefinitions
    · intro text htext
      rcases List.mem_map.mp htext with ⟨name, hname, rfl⟩
      rcases hbelow name hname with ⟨below, hbelow⟩
      refine LinkedType.separator_not_mem_heading ?_ (hbelow.separator_not_mem hdefinitions)
      have hheading := hheadings name hname
      simpa using hheading
  · rw [List.forall_mem_cons]
    refine ⟨hresolves.readsAgain hdefinitions, fun name hname => ?_⟩
    rcases hbelow name hname with ⟨below, hbelow⟩
    exact hbelow.readsAgain hdefinitions

/-- A file with all kinds of line endings and with blanks at the end. -/
def outerText : String :=
  "Inner x # first\r\r\n\nInner y\r\nstring S = a # b \r\n \n"

/-- What the file defines. -/
def outerDefinition : TypeReference × Descriptor :=
  (.message "p" "Outer", ⟨[.field ⟨.message "p" "Inner", "x"⟩, .field ⟨.message "p" "Inner", "y"⟩,
    .constant ⟨.builtIn "string", "S", "a # b"⟩], "Inner x # first\r\n\nInner y\nstring S = a # b"⟩)

/-- What an empty file defines. -/
def innerDefinition : TypeReference × Descriptor :=
  (.message "p" "Inner", ⟨[], ""⟩)

/-- Both definitions are registered. -/
def fileCalls : List Call :=
  [.add outerDefinition.1 outerDefinition.2, .add innerDefinition.1 innerDefinition.2]

/-- The flattened definition is taken apart into the two texts, and the carriage return that is left
in one of them does not matter when the text is read again. -/
theorem fileCalls_decoded :
    (∀ entry ∈ registered {} fileCalls, Definition.FromFile entry) ∧
      ∃ signed, ((performAll {} fileCalls).resolve ⟨some "p", "Outer"⟩).1 = .ok signed ∧
        LinkedType.parts signed.type.definition =
          ["Inner x # first\r\n\nInner y\nstring S = a # b", "MSG: p/Inner\n"] ∧
        (performAll {} fileCalls).catalog.ReadsAgain ⟨some "p", "Outer"⟩ := by
  have hfiles : ∀ entry ∈ registered {} fileCalls, Definition.FromFile entry := by
    have hregistered : registered {} fileCalls = [outerDefinition, innerDefinition] := by
      decide +kernel
    rw [hregistered, List.forall_mem_cons, List.forall_mem_singleton]
    constructor
    · exact ⟨"p", ⟨⟨"Outer.msg"⟩, .message⟩, outerText, _,
        ⟨outerDefinition.1, .message, none, "Outer", outerDefinition.2⟩, by decide +kernel,
        by rfl, List.mem_singleton_self _, rfl⟩
    · exact ⟨"p", ⟨⟨"Inner.msg"⟩, .message⟩, "", _,
        ⟨innerDefinition.1, .message, none, "Inner", innerDefinition.2⟩, by decide +kernel,
        by rfl, List.mem_singleton_self _, rfl⟩
  obtain ⟨signed, hresolve⟩ : ∃ signed,
      ((performAll {} fileCalls).resolve ⟨some "p", "Outer"⟩).1 = .ok signed :=
    exists_of_isSome (by decide +kernel)
  rcases definition_decodes hfiles hresolve with ⟨hparts, -, hagain⟩
  have hexpanded : (performAll {} fileCalls).catalog.unfolding 2 ⟨some "p", "Outer"⟩ =
      LinkedType.namesOf signed.type.expansion :=
    (resolve_eq_ok_iff.mp hresolve).unfolding_eq (by decide +kernel)
  refine ⟨hfiles, signed, hresolve, ?_, hagain _ List.mem_cons_self⟩
  rw [hparts, ← hexpanded]
  decide +kernel

end Resolver

end RosInterface
