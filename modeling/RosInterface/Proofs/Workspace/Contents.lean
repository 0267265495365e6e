import RosInterface.Proofs.Computation
import RosInterface.Proofs.Naming
import RosInterface.Proofs.Order
import RosInterface.Workspace.Basic

namespace RosInterface.PackageContents

/-! # What package contents account for

Reading a package yields the message types of that package and no others, and its dependencies name
every other package that a field of these types refers to.
-/

variable {contents : PackageContents}

/-! ## Uses -/

theorem mem_dependencies_addUse {type : TypeReference} {name : String} :
    name ∈ (contents.addUse type).dependencies ↔
      name ∈ contents.dependencies ∨ (type.package = some name ∧ name ≠ contents.package) := by
  unfold addUse
  cases hpackage : type.package with
  | none => simp
  | some package =>
    by_cases hown : package = contents.package
    · simp only [if_pos hown]
      constructor
      · exact Or.inl
      · rintro (hmem | ⟨hname, hother⟩)
        · exact hmem
        · exact absurd hown (Option.some.inj hname ▸ hother)
    · simp only [if_neg hown, addDependency, Sorted.insertName]
      rw [Sorted.mem_insert, Option.some.injEq]
      constructor
      · rintro (rfl | hmem)
        · exact Or.inr ⟨rfl, hown⟩
        · exact Or.inl hmem
      · rintro (hmem | ⟨rfl, -⟩)
        · exact Or.inr hmem
        · exact Or.inl rfl

theorem addUse_frame (contents : PackageContents) (type : TypeReference) :
    (contents.addUse type).package = contents.package ∧
      (contents.addUse type).messages = contents.messages := by
  unfold addUse
  cases type.package with
  | none => exact ⟨rfl, rfl⟩
  | some package =>
    by_cases hown : package = contents.package
    · simp [hown]
    · simp [hown, addDependency]

theorem addUses_spec (contents : PackageContents) (fields : List Field) :
    let used := fields.foldl (fun c field => c.addUse field.type) contents
    used.package = contents.package ∧ used.messages = contents.messages ∧
      ∀ name, name ∈ used.dependencies ↔ name ∈ contents.dependencies ∨
        ∃ field ∈ fields, field.type.package = some name ∧ name ≠ contents.package := by
  induction fields generalizing contents with
  | nil => simp
  | cons field fields ih =>
    rcases addUse_frame contents field.type with ⟨hpackage, hmessages⟩
    -- Uses leave the name of the package alone, so all of them are compared with the same name.
    rcases ih (contents.addUse field.type) with ⟨hownRest, hmessagesRest, hdeps⟩
    refine ⟨hownRest.trans hpackage, hmessagesRest.trans hmessages, ?_⟩
    intro name
    rw [List.foldl_cons, hdeps, mem_dependencies_addUse, hpackage]
    simp only [List.mem_cons, exists_eq_or_imp, or_assoc]

/-- Message types add themselves, and what their fields refer to outside the package. -/
theorem addMessages_spec (contents : PackageContents) (messages : List ParsedMessage) :
    (contents.addMessages messages).package = contents.package ∧
      (contents.addMessages messages).messages = contents.messages ++ messages ∧
      ∀ name, name ∈ (contents.addMessages messages).dependencies ↔
        name ∈ contents.dependencies ∨
          ∃ message ∈ messages, ∃ field ∈ message.descriptor.fields,
            field.type.package = some name ∧ name ≠ contents.package := by
  induction messages generalizing contents with
  | nil => simp [addMessages]
  | cons message messages ih =>
    rcases addUses_spec contents message.descriptor.fields with ⟨hpackage, hmessages, hdeps⟩
    rcases ih (contents.addMessage message) with ⟨hownRest, hmessagesRest, hdepsRest⟩
    have hown : (contents.addMessage message).package = contents.package := hpackage
    refine ⟨hownRest.trans hown, ?_, ?_⟩
    · rw [addMessages, List.foldl_cons]
      refine hmessagesRest.trans ?_
      show (contents.messages ++ [message]) ++ messages = _
      rw [List.append_assoc, List.singleton_append]
    · intro name
      rw [addMessages, List.foldl_cons]
      refine (hdepsRest name).trans ?_
      have hfirst : name ∈ (contents.addMessage message).dependencies ↔ _ := hdeps name
      rw [hfirst, hown]
      simp only [List.mem_cons, exists_eq_or_imp, or_assoc]

/-! ## Reading -/

/-- The contents hold types of the package only, whose names have no slash, and account for every
other package that these types refer to; those of a mere collection are the packages that its
manifest names. -/
structure Accounts (package : PackageInfo) (contents : PackageContents) : Prop where
  own : ∀ message ∈ contents.messages, message.identity =
    ⟨some package.name, Naming.rosTypeName message.fileName message.part⟩
  slashless : ∀ message ∈ contents.messages, '/' ∉ message.identity.name.toList
  uses : ∀ message ∈ contents.messages, ∀ field ∈ message.descriptor.fields, ∀ name,
    field.type.package = some name → name ≠ package.name → name ∈ contents.dependencies
  collects : package.isMetaPackage = true → contents.messages = [] ∧
    ∀ name ∈ package.dependencies, name ≠ package.name → name ∈ contents.dependencies

theorem accounts_ofMetaPackage {package : PackageInfo} :
    Accounts package (ofMetaPackage package) := by
  have hnone : (ofMetaPackage package).messages = [] := rfl
  refine ⟨by simp [hnone], by simp [hnone], by simp [hnone], fun _ => ⟨hnone, ?_⟩⟩
  intro name hname hother
  show name ∈ (Sorted.names package.dependencies).filter (· != package.name)
  rw [List.mem_filter, Sorted.mem_names, bne_iff_ne]
  exact ⟨hname, hother⟩

/-- A section of a definition file defines a type of the package, under the name that the file and
the section give it. -/
theorem identity_of_readMessage {package : String} {file : MessageFile} {part : Option MessagePart}
    {content : Section} {message : ParsedMessage}
    (hread : Definition.readMessage package file part content = .ok message) :
    message.identity = ⟨some package, Naming.rosTypeName message.fileName message.part⟩ := by
  unfold Definition.readMessage at hread
  rcases bind_eq_ok_iff.mp hread with ⟨descriptor, -, hmessage⟩
  cases hmessage
  rfl

/-- Every message type of a package is read from a section of one of its definition files. -/
theorem exists_section_of_ofPackage {tree : FileTree} {package : PackageInfo}
    {contents : PackageContents} (hread : ofPackage tree package = .ok contents)
    {message : ParsedMessage} (hmessage : message ∈ contents.messages) :
    ∃ file ∈ package.messages, ∃ part content,
      Definition.readMessage package.name file part content = .ok message := by
  unfold ofPackage at hread
  split at hread
  · cases hread
    cases hmessage
  · rcases bind_eq_ok_iff.mp hread with ⟨parsed, hparsed, hcontents⟩
    cases hcontents
    rw [(addMessages_spec { package := package.name } parsed.flatten).2.1] at hmessage
    rcases List.mem_flatten.mp hmessage with ⟨messages, hmem, hmessage⟩
    rcases exists_of_mem_of_mapM_eq_ok hparsed hmem with ⟨file, hfile, hmessages⟩
    rcases bind_eq_ok_iff.mp hmessages with ⟨text, -, hsections⟩
    rw [mapError_eq_ok_iff, Definition.readMessages] at hsections
    split at hsections
    · rcases exists_of_mem_of_mapM_eq_ok hsections hmessage with ⟨⟨part, content⟩, -, hentry⟩
      exact ⟨file, hfile, part, content, hentry⟩
    · cases hsections

/-- No slash is in the name of a message type, since none is in the name of a file. -/
theorem slash_not_mem_of_ofPackage {tree : FileTree} {package : PackageInfo}
    {contents : PackageContents} (hcontents : ofPackage tree package = .ok contents)
    {message : ParsedMessage} (hmessage : message ∈ contents.messages) :
    '/' ∉ (Naming.rosTypeName message.fileName message.part).toList := by
  rcases exists_section_of_ofPackage hcontents hmessage with ⟨file, -, part, content, hsection⟩
  rcases bind_eq_ok_iff.mp hsection with ⟨descriptor, -, hresult⟩
  cases hresult
  exact Naming.slash_not_mem_rosTypeName file.slash_not_mem_typeName part

/-- Reading a package accounts for it. -/
theorem accounts_of_ofPackage {tree : FileTree} {package : PackageInfo} {contents : PackageContents}
    (hread : ofPackage tree package = .ok contents) : Accounts package contents := by
  cases hmeta : package.isMetaPackage with
  | true =>
    rw [ofPackage, if_pos hmeta] at hread
    cases hread
    exact accounts_ofMetaPackage
  | false =>
    have hown : ∀ message ∈ contents.messages, message.identity =
        ⟨some package.name, Naming.rosTypeName message.fileName message.part⟩ := by
      intro message hmessage
      rcases exists_section_of_ofPackage hread hmessage with ⟨file, -, part, content, hsection⟩
      exact identity_of_readMessage hsection
    have hslashless : ∀ message ∈ contents.messages, '/' ∉ message.identity.name.toList := by
      intro message hmessage
      rw [hown message hmessage]
      exact slash_not_mem_of_ofPackage hread hmessage
    rw [ofPackage, hmeta, if_neg Bool.false_ne_true] at hread
    rcases bind_eq_ok_iff.mp hread with ⟨parsed, -, hcontents⟩
    cases hcontents
    rcases addMessages_spec { package := package.name } parsed.flatten with ⟨-, hmessages, hdeps⟩
    have hall : (addMessages { package := package.name } parsed.flatten).messages =
        parsed.flatten := hmessages
    refine ⟨hown, hslashless, ?_, by simp [hmeta]⟩
    rw [hall]
    intro message hmessage field hfield name hname hother
    exact (hdeps name).mpr (Or.inr ⟨message, hmessage, field, hfield, hname, hother⟩)

end RosInterface.PackageContents
