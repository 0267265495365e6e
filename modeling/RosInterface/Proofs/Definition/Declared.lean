import RosInterface.Proofs.Definition.Rereading

namespace RosInterface

/-! # What definition files declare

Whatever is read from a definition file has names that are identifiers. Its built-in types are those
of the table, arrays of them included, but constants are of no array type, and their values stay
within a line. `IsRead.proper` says so for every declaration of a file.
-/

/-! ## Proper declarations -/

/-- A field with a proper name. Where its type is built-in, it belongs to the table. -/
structure Field.Proper (field : Field) : Prop where
  identifier : isMemberName field.identifier.toList = true
  package : field.type.isBuiltIn = true → field.type.package = none
  name : field.type.isBuiltIn = true → field.type.name ∈ builtInTypes

/-- A constant with a proper name, of a single built-in type, and with a value on one line. -/
structure Constant.Proper (constant : Constant) : Prop where
  identifier : isMemberName constant.identifier.toList = true
  type : constant.type = .builtIn constant.type.name
  name : constant.type.name ∈ builtInTypes
  value : '\n' ∉ constant.value.toList

/-- A declaration of either kind that is proper. -/
def Item.Proper : Item → Prop
  | .field f => f.Proper
  | .constant c => c.Proper

/-- What a line declares is proper. -/
theorem Declaration.Declares.proper {package : String} {line : List Char} {item : Item}
    (h : Declares package line item) (hline : '\n' ∉ line) : item.Proper := by
  cases h with
  | @intro lead word rest blank type item indented denotes spaced member =>
    have hname : ∀ {name : List Char}, isMemberName name = true →
        isMemberName (String.ofList name).toList = true := by
      intro name proper
      rwa [String.toList_ofList]
    have hvalue : ∀ {constant : Constant}, item = .constant constant →
        '\n' ∉ constant.value.toList := by
      rintro constant rfl hmem
      exact hline (by simp [member.value_subset hmem])
    cases member with
    | field gap proper remark =>
      exact ⟨hname proper, fun hbuiltIn => (denotes.of_isBuiltIn hbuiltIn).1,
        fun hbuiltIn => (denotes.of_isBuiltIn hbuiltIn).2⟩
    | constant other gap proper =>
      exact ⟨hname proper, rfl, (denotes.of_isBuiltIn rfl).2, hvalue rfl⟩
    | text gap proper =>
      exact ⟨hname proper, rfl, (denotes.of_isBuiltIn rfl).2, hvalue rfl⟩

namespace Definition

/-- The declarations of one message type of a definition file. -/
def IsRead (descriptor : Descriptor) : Prop :=
  ∃ package file text messages message, readMessages package file text = .ok messages ∧
    message ∈ messages ∧ message.descriptor = descriptor

theorem IsRead.proper {descriptor : Descriptor} (h : IsRead descriptor) :
    ∀ item ∈ descriptor.items, item.Proper := by
  rcases h with ⟨package, file, text, messages, message, hread, hmessage, rfl⟩
  rcases exists_section_of_readMessages hread hmessage with ⟨-, part, hpart, hsection⟩
  intro item hitem
  rcases exists_declares_of_readSection hsection hitem with ⟨line, hline, hdeclares⟩
  exact hdeclares.proper (Section.of_mem_ofText hpart line hline).1

theorem IsRead.proper_field {descriptor : Descriptor} (h : IsRead descriptor) {field : Field}
    (hfield : field ∈ descriptor.fields) : field.Proper := by
  rcases List.mem_filterMap.mp hfield with ⟨item, hitem, hof⟩
  have hproper := h.proper item hitem
  cases item with
  | field declared =>
    cases hof
    exact hproper
  | constant declared => cases hof

theorem IsRead.proper_constant {descriptor : Descriptor} (h : IsRead descriptor)
    {constant : Constant} (hconstant : constant ∈ descriptor.constants) : constant.Proper := by
  rcases List.mem_filterMap.mp hconstant with ⟨item, hitem, hof⟩
  have hproper := h.proper item hitem
  cases item with
  | field declared => cases hof
  | constant declared =>
    cases hof
    exact hproper

end Definition

end RosInterface
