import Mathlib.Data.List.Sort
import RosInterface.Document.Basic
import RosInterface.Proofs.Computation
import RosInterface.Proofs.Definition.Declared

namespace RosInterface

/-! # Documents keep all declarations

A document lists the fields of a message type apart from its constants. It leaves array bounds out
of the names of types and gives the package of a type beside its name. Nothing is lost by that:

* the places of fields and constants together are those of all declarations (`MessageData.indexed_ofMessage`);
* each type can be put together again from its parts (`FieldData.type_ofField`), and both lists by
  their places (`MessageData.declarations_ofMessage`);
* so the data of every message type that a definition file declares and that resolves gives its
  declarations back (`MessageData.resolve_keeps_declarations`).
-/

/-! ## Types from their parts -/

/-- The name of a type of a package, taken from the written form with the package in front. -/
def TypeIdentity.bareName (package : Option String) (text : String) : String :=
  match package with
  | some package => String.ofList (text.toList.drop (package.length + 1))
  | none => text

theorem TypeIdentity.bareName_text (identity : TypeIdentity) :
    bareName identity.package identity.text = identity.name := by
  rcases identity with ⟨_ | package, name⟩
  · rfl
  · have hdrop : (package ++ "/" ++ name).toList.drop (package.length + 1) = name.toList := by
      rw [String.toList_append]
      apply List.drop_left'
      rw [String.toList_append, List.length_append, String.length_toList]
      rfl
    show String.ofList ((package ++ "/" ++ name).toList.drop (package.length + 1)) = name
    rw [hdrop, String.ofList_toList]

/-- The type that the data of a field speaks of. -/
def FieldData.type (data : FieldData) : TypeReference where
  package := data.package
  name := TypeIdentity.bareName data.package data.rosType
  isArray := data.isArray
  arraySize := data.arraySize
  isBuiltIn := data.isBuiltIn

theorem FieldData.type_ofField (index : Nat) (field : Field) :
    (FieldData.ofField index field).type = field.type := by
  have hname : TypeIdentity.bareName field.type.package field.type.baseName = field.type.name :=
    field.type.identity.bareName_text
  simp only [FieldData.type, FieldData.ofField, hname]

/-- The declaration that the data of a field speaks of, with its place. -/
def FieldData.entry (data : FieldData) : Item × Nat :=
  (.field ⟨data.type, data.rosIdentifier⟩, data.index)

/-- The declaration that the data of a constant speaks of, with its place. Its type is a single
built-in one. -/
def ConstantData.entry (data : ConstantData) : Item × Nat :=
  (.constant ⟨.builtIn data.rosType, data.rosIdentifier, data.value⟩, data.index)

theorem FieldData.entry_ofField (index : Nat) (field : Field) :
    (FieldData.ofField index field).entry = (.field field, index) := by
  show (Item.field ⟨(FieldData.ofField index field).type, field.identifier⟩, index) = _
  rw [FieldData.type_ofField]

theorem ConstantData.entry_ofConstant (index : Nat) {constant : Constant}
    (htype : constant.type = .builtIn constant.type.name) :
    (ConstantData.ofConstant index constant).entry = (.constant constant, index) := by
  have hname : constant.type.baseName = constant.type.name := by
    rw [htype]
    rfl
  show (Item.constant ⟨.builtIn constant.type.baseName, constant.identifier, constant.value⟩,
    index) = _
  rw [hname, ← htype]

/-! ## Declarations by place -/

/-- Whether a declaration is that of a field. -/
def Item.isField (item : Item) : Bool :=
  item.field?.isSome

/-- Whether the first of two entries has no later place. -/
def noLater (a b : Item × Nat) : Bool :=
  a.2 ≤ b.2

namespace Descriptor

variable (descriptor : Descriptor)

theorem places_indexedItems :
    descriptor.indexedItems.map (·.2) = List.range' 1 descriptor.items.length :=
  List.zipIdx_map_snd 1 descriptor.items

/-- Places grow along the declarations. -/
theorem pairwise_indexedItems : descriptor.indexedItems.Pairwise (·.2 < ·.2) := by
  apply List.pairwise_map.mp
  rw [places_indexedItems]
  exact List.pairwise_lt_range'

/-- One place is that of one declaration. -/
theorem eq_of_mem_indexedItems {descriptor : Descriptor} {a b : Item × Nat}
    (ha : a ∈ descriptor.indexedItems) (hb : b ∈ descriptor.indexedItems) (hplace : a.2 = b.2) :
    a = b := by
  have hnodup : (descriptor.indexedItems.map (·.2)).Nodup := by
    rw [places_indexedItems]
    exact List.nodup_range'
  exact List.inj_on_of_nodup_map hnodup ha hb hplace

/-- The declarations that pass a test and those that do not, put together by place, are all of
them. -/
theorem merge_indexedItems (test : Item × Nat → Bool) :
    (descriptor.indexedItems.filter test).merge (descriptor.indexedItems.filter (!test ·)) noLater =
      descriptor.indexedItems := by
  have hsorted : descriptor.indexedItems.Pairwise fun a b => noLater a b = true := by
    refine descriptor.pairwise_indexedItems.imp fun hlt => ?_
    exact decide_eq_true hlt.le
  have hmerged := List.pairwise_merge
    (fun a b c hab hbc => by simp only [noLater, decide_eq_true_eq] at *; omega)
    (fun a b => by simp only [noLater, Bool.or_eq_true, decide_eq_true_eq]; omega)
    _ _ (hsorted.filter test) (hsorted.filter (!test ·))
  have hperm := (List.merge_perm_append noLater).trans
    (List.filter_append_perm test descriptor.indexedItems)
  -- Lists in order with the same entries could differ only among entries of one place.
  refine hperm.eq_of_pairwise ?_ hmerged hsorted
  intro a b ha hb hab hba
  apply eq_of_mem_indexedItems (hperm.mem_iff.mp ha) hb
  simp only [noLater, decide_eq_true_eq] at hab hba
  omega

end Descriptor

namespace MessageData

variable (message : ParsedMessage) (type : LinkedType) (signature : String)

theorem fieldEntries_ofMessage :
    (ofMessage message type signature).fields.map FieldData.entry =
      message.descriptor.indexedItems.filter (·.1.isField) := by
  show (message.descriptor.indexedFields.map fun entry =>
    FieldData.ofField entry.1 entry.2).map FieldData.entry = _
  rw [List.map_map, Descriptor.indexedFields, List.map_filterMap, ← List.filterMap_eq_filter]
  apply List.filterMap_congr
  rintro ⟨_ | _, index⟩ -
  · exact congrArg some (FieldData.entry_ofField index _)
  · rfl

variable {message} in
theorem constantEntries_ofMessage
    (htypes : ∀ constant ∈ message.descriptor.constants,
      constant.type = .builtIn constant.type.name) :
    (ofMessage message type signature).constants.map ConstantData.entry =
      message.descriptor.indexedItems.filter (!·.1.isField) := by
  show (message.descriptor.indexedConstants.map fun entry =>
    ConstantData.ofConstant entry.1 entry.2).map ConstantData.entry = _
  rw [List.map_map, Descriptor.indexedConstants, List.map_filterMap, ← List.filterMap_eq_filter]
  apply List.filterMap_congr
  rintro ⟨_ | constant, index⟩ hmem
  · rfl
  · have hconstant : constant ∈ message.descriptor.constants :=
      List.mem_filterMap.mpr ⟨_, List.fst_mem_of_mem_zipIdx hmem, rfl⟩
    exact congrArg some (ConstantData.entry_ofConstant index (htypes constant hconstant))

/-- The declarations that the data of a message type speaks of, by place. -/
def entries (data : MessageData) : List (Item × Nat) :=
  (data.fields.map FieldData.entry).merge (data.constants.map ConstantData.entry) noLater

/-- The declarations that the data of a message type speaks of. -/
def declarations (data : MessageData) : List Item :=
  data.entries.map (·.1)

/-- The fields and the constants are each in order of place, and each place up to `count` is that of
one of them. -/
structure Indexed (data : MessageData) (count : Nat) : Prop where
  fields : (data.fields.map (·.index)).Pairwise (· < ·)
  constants : (data.constants.map (·.index)).Pairwise (· < ·)
  disjoint : (data.fields.map (·.index)).Disjoint (data.constants.map (·.index))
  cover : ∀ index, index ∈ data.fields.map (·.index) ∨ index ∈ data.constants.map (·.index) ↔
    1 ≤ index ∧ index ≤ count

variable {message} in
theorem indexed_ofMessage
    (htypes : ∀ constant ∈ message.descriptor.constants,
      constant.type = .builtIn constant.type.name) :
    (ofMessage message type signature).Indexed message.descriptor.items.length := by
  have hfields : (ofMessage message type signature).fields.map (·.index) =
      (message.descriptor.indexedItems.filter (·.1.isField)).map (·.2) := by
    rw [← fieldEntries_ofMessage, List.map_map]
    rfl
  have hconstants : (ofMessage message type signature).constants.map (·.index) =
      (message.descriptor.indexedItems.filter (!·.1.isField)).map (·.2) := by
    rw [← constantEntries_ofMessage type signature htypes, List.map_map]
    rfl
  have hsorted (test : Item × Nat → Bool) :
      ((message.descriptor.indexedItems.filter test).map (·.2)).Pairwise (· < ·) :=
    List.pairwise_map.mpr (message.descriptor.pairwise_indexedItems.filter test)
  constructor
  case fields => exact hfields ▸ hsorted _
  case constants => exact hconstants ▸ hsorted _
  case disjoint =>
    rw [hfields, hconstants]
    intro index hfield hconstant
    rcases List.mem_map.mp hfield with ⟨a, ha, rfl⟩
    rcases List.mem_map.mp hconstant with ⟨b, hb, hplace⟩
    rw [List.mem_filter] at ha hb
    have hsame := Descriptor.eq_of_mem_indexedItems hb.1 ha.1 hplace
    rw [hsame, ha.2] at hb
    cases hb.2
  case cover =>
    intro index
    have hall := ((List.filter_append_perm (·.1.isField) message.descriptor.indexedItems).map
      (·.2)).mem_iff (a := index)
    rw [List.map_append, List.mem_append, Descriptor.places_indexedItems, List.mem_range'_1] at hall
    rw [hfields, hconstants, hall]
    omega

variable {message} in
theorem declarations_ofMessage
    (htypes : ∀ constant ∈ message.descriptor.constants,
      constant.type = .builtIn constant.type.name) :
    (ofMessage message type signature).declarations = message.descriptor.items := by
  have hentries : (ofMessage message type signature).entries = message.descriptor.indexedItems := by
    rw [entries, fieldEntries_ofMessage, constantEntries_ofMessage type signature htypes]
    exact message.descriptor.merge_indexedItems (·.1.isField)
  rw [declarations, hentries]
  exact List.zipIdx_map_fst 1 message.descriptor.items

/-- Wherever a message type of a definition file resolves, its document data is there, numbers its
declarations from one, and gives them back in order, with their types and values. -/
theorem resolve_keeps_declarations {package : String} {file : MessageFile} {text : String}
    {messages : List ParsedMessage} {message : ParsedMessage}
    (hread : Definition.readMessages package file text = .ok messages) (hmessage : message ∈ messages)
    {catalog : Catalog} {memory after : ResolvedTypes} {signed : SignedType}
    (hresolve : (catalog.resolve message.identity).run memory = (.ok signed, after)) :
    ∃ data, (resolve catalog message).run memory = (.ok data, after) ∧
      data.Indexed message.descriptor.items.length ∧
      data.declarations = message.descriptor.items := by
  have hproper : Definition.IsRead message.descriptor :=
    ⟨package, file, text, messages, message, hread, hmessage, rfl⟩
  have htypes : ∀ constant ∈ message.descriptor.constants,
      constant.type = .builtIn constant.type.name := by
    intro constant hconstant
    exact (hproper.proper_constant hconstant).type
  refine ⟨ofMessage message signed.type signed.signature, ?_, indexed_ofMessage _ _ htypes,
    declarations_ofMessage _ _ htypes⟩
  rw [resolve, run_bind, hresolve]
  rfl

/-- A message type with a constant between two fields. -/
def mixedMessage : ParsedMessage where
  type := .message "demo" "Mixed"
  kind := .message
  part := none
  fileName := "Mixed"
  descriptor :=
    ⟨[.field ⟨(TypeReference.builtIn "int8").toArray (some 4), "x"⟩,
      .constant ⟨.builtIn "byte", "A", "1"⟩,
      .field ⟨(TypeReference.message "demo" "Other").toArray none, "y"⟩],
      "int8[4] x\nbyte A=1\nOther[] y"⟩

/-- The message type and the one that it uses. -/
def mixedCatalog : Catalog :=
  ⟨[(mixedMessage.type, mixedMessage.descriptor),
    (.message "demo" "Other", ⟨[.field ⟨.builtIn "bool", "z"⟩], "bool z"⟩)]⟩

theorem mixedMessage_keeps_declarations :
    let text := "int8[4] x\nbyte A=1\nOther[] y\n"
    let run := (mixedCatalog.resolve mixedMessage.identity).run []
    Definition.readMessages "demo" ⟨⟨"Mixed.msg"⟩, .message⟩ text = .ok [mixedMessage] ∧
      (∃ signed, run = (.ok signed, run.2)) ∧
      ∃ data, (resolve mixedCatalog mixedMessage).run [] = (.ok data, run.2) ∧ data.Indexed 3 ∧
        data.declarations = mixedMessage.descriptor.items := by
  intro text run
  have hread : Definition.readMessages "demo" ⟨⟨"Mixed.msg"⟩, .message⟩ text =
      .ok [mixedMessage] := by
    decide +kernel
  have hsome : run.1.toOption.isSome = true := by
    decide +kernel
  rcases exists_of_isSome hsome with ⟨signed, hsigned⟩
  have hresolve : run = (.ok signed, run.2) := Prod.ext hsigned rfl
  exact ⟨hread, ⟨signed, hresolve⟩,
    resolve_keeps_declarations hread List.mem_cons_self hresolve⟩

end MessageData

end RosInterface
