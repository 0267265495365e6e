import RosInterface.Definition.File
import RosInterface.MessageType.Linked
import RosInterface.Proofs.Definition.Grammar

namespace RosInterface

/-! # Reading a definition again

The text of a definition has the lines of the section that it was read from, without the carriage
returns of their endings and without the blanks behind the last one. What a section declares is
decided by its significant lines, so the text declares the same when it is read as a file of its
own.

No line that can be read is the separator of flattened definitions, and no type that a field refers
to has a line feed in its name. Both are needed to take a flattened definition apart again.
-/

/-! ## Lines -/

namespace Declaration

/-- Reads a line that has no blanks at its ends. -/
def ofTrimmed (package : String) (line : List Char) : Except DeclarationFault (Option Item) :=
  if isSilent line then .ok none else (ofWords package line).map some

theorem ofLine_eq (package line : String) :
    ofLine package line = ofTrimmed package (Text.trim line.toList) :=
  rfl

/-- What a line without outer blanks declares, if anything. -/
def declared (package : String) (line : List Char) : Option Item :=
  (ofTrimmed package line).toOption.join

theorem ofTrimmed_eq_ok {package : String} {line : List Char} {item : Option Item}
    (hread : ofTrimmed package line = .ok item) : declared package line = item := by
  unfold declared
  rw [hread]
  rfl

theorem ofTrimmed_eq_ok_of_declared {package : String} {line : List Char} {item : Item}
    (hdeclared : declared package line = some item) :
    ofTrimmed package line = .ok (some item) := by
  unfold declared at hdeclared
  cases hread : ofTrimmed package line with
  | error fault =>
    rw [hread] at hdeclared
    cases hdeclared
  | ok found =>
    rw [hread] at hdeclared
    exact congrArg Except.ok hdeclared

/-- The separator of flattened definitions declares nothing that could be read. -/
theorem ofTrimmed_separator (package : String) :
    ofTrimmed package LinkedType.separator.toList =
      .error (.missingName LinkedType.separator) := by
  have hsilent : isSilent LinkedType.separator.toList = false := by decide +kernel
  have hcut : Text.cutAt Text.isBlank LinkedType.separator.toList = none := by decide +kernel
  unfold ofTrimmed ofWords
  rw [hsilent, hcut, String.ofList_toList]
  rfl

end Declaration

/-! ## Names of types -/

theorem Names.newline_not_mem {package : String} {base : List Char} {type : TypeReference}
    (h : Names package base type) (hpackage : '\n' ∉ package.toList) :
    '\n' ∉ type.identity.text.toList := by
  have hname : ∀ {name : String}, isTypeName name.toList = true → '\n' ∉ name.toList :=
    fun proper => not_mem_of_isMemberName (isMemberName_of_isTypeName proper) (by decide)
  cases h with
  | builtIn known => exact hname (isTypeName_of_mem_builtInTypes known)
  | header => decide +kernel
  | within proper new other =>
    simp [TypeReference.message, TypeReference.identity, TypeIdentity.text, hpackage,
      hname proper]
  | qualified package_proper name_proper =>
    simp [TypeReference.message, TypeReference.identity, TypeIdentity.text, hname package_proper,
      hname name_proper]

/-- No type that is referred to in a package has a line feed in its name, unless the package has. -/
theorem Denotes.newline_not_mem {package : String} {text : List Char} {type : TypeReference}
    (h : Denotes package text type) (hpackage : '\n' ∉ package.toList) :
    '\n' ∉ type.identity.text.toList := by
  cases h with
  | single of | unbounded of | bounded of bound => exact of.newline_not_mem hpackage

/-! ## Sections -/

namespace Section

/-- The lines of a section that are not empty without their outer blanks. -/
def significant (part : Section) : List (List Char) :=
  Text.significant (part.lines.map String.toList)

theorem mem_significant {part : Section} {text : List Char} :
    text ∈ part.significant ↔ (∃ line ∈ part.lines, Text.trim line.toList = text) ∧ text ≠ [] := by
  unfold significant
  rw [Text.mem_significant]
  simp only [List.mem_map, exists_exists_and_eq_and]

/-- Sections have lines that are no separators. -/
theorem of_mem_ofLines {first next : Nat} {lines : List String} {part : Section}
    (hpart : part ∈ ofLines first next lines) :
    ∀ line ∈ part.lines, line ∈ lines ∧ isSeparator line = false := by
  induction lines generalizing first next part with
  | nil =>
    rw [ofLines, List.mem_singleton] at hpart
    simp [hpart]
  | cons line rest ih =>
    rw [ofLines] at hpart
    split at hpart
    · rcases List.mem_cons.mp hpart with rfl | hpart
      · simp
      · intro other hother
        exact ⟨List.mem_cons_of_mem line (ih hpart other hother).1, (ih hpart other hother).2⟩
    · rename_i hseparator
      cases hsections : ofLines first (next + 1) rest with
      | nil =>
        rw [hsections] at hpart
        cases hpart
      | cons head others =>
        rw [hsections, consLine, List.mem_cons] at hpart
        have hrest : ∀ section' ∈ head :: others, ∀ other ∈ section'.lines,
            other ∈ line :: rest ∧ isSeparator other = false := by
          intro section' hmem other hother
          have hold := ih (hsections ▸ hmem) other hother
          exact ⟨List.mem_cons_of_mem line hold.1, hold.2⟩
        intro other hother
        rcases hpart with rfl | hpart
        · rcases List.mem_cons.mp hother with rfl | hother
          · exact ⟨List.mem_cons_self, by simpa using hseparator⟩
          · exact hrest head List.mem_cons_self other hother
        · exact hrest part (List.mem_cons_of_mem head hpart) other hother

/-- Without a separator there is one section. -/
theorem ofLines_eq_singleton {first next : Nat} {lines : List String}
    (hlines : ∀ line ∈ lines, isSeparator line = false) :
    ofLines first next lines = [⟨first, lines⟩] := by
  induction lines generalizing next with
  | nil => rfl
  | cons line rest ih =>
    rw [List.forall_mem_cons] at hlines
    rw [ofLines, hlines.1, if_neg Bool.false_ne_true, ih hlines.2]
    rfl

/-- The lines of a file have no line feeds, and those of its sections are no separators. -/
theorem of_mem_ofText {text : String} {part : Section} (hpart : part ∈ ofText text) :
    ∀ line ∈ part.lines, '\n' ∉ line.toList ∧ isSeparator line = false := by
  intro line hline
  rcases of_mem_ofLines hpart line hline with ⟨hmem, hseparator⟩
  rcases List.mem_map.mp hmem with ⟨chars, hchars, rfl⟩
  rw [String.toList_ofList]
  exact ⟨Text.newline_not_mem_lines hchars, hseparator⟩

/-- No line that can be read is a separator. -/
theorem isSeparator_eq_false {package line : String} {item : Option Item}
    (hread : Declaration.ofLine package line = .ok item) : isSeparator line = false := by
  rw [isSeparator, beq_eq_false_iff_ne]
  intro hseparator
  have hcut : Text.cutAt Text.isBlank separator.toList = none := by decide +kernel
  have hsilent : Declaration.isSilent separator.toList = false := by decide +kernel
  rw [Declaration.ofLine_eq, ← String.toList_ofList (l := Text.trim line.toList)] at hread
  rw [← String.trimBlanks, hseparator, Declaration.ofTrimmed, hsilent, Declaration.ofWords,
    hcut] at hread
  cases hread

/-- The text of a section has its significant lines. -/
theorem significant_text {part : Section} (hlines : ∀ line ∈ part.lines, '\n' ∉ line.toList) :
    Text.significant (part.text.toList.splitOn '\n') = part.significant := by
  have htext : part.text.toList =
      Text.trimEnd (['\n'].intercalate (part.lines.map String.toList)) := by
    rw [text, String.toList_ofList, String.toList_intercalate]
    rfl
  rw [htext, significant]
  refine Text.significant_join ?_
  simpa using hlines

/-- The text of a section is read as one section again, with the same significant lines. -/
theorem ofText_text {part : Section} (hlines : ∀ line ∈ part.lines, '\n' ∉ line.toList)
    (hseparators : ∀ line ∈ part.lines, isSeparator line = false) :
    ∃ again, ofText part.text = [again] ∧ again.significant = part.significant := by
  have hsame : Text.significant (Text.lines part.text.toList) = part.significant := by
    rw [Text.significant_lines, significant_text hlines]
  have hnone : ∀ line ∈ (Text.lines part.text.toList).map String.ofList,
      isSeparator line = false := by
    intro line hline
    rcases List.mem_map.mp hline with ⟨chars, hchars, rfl⟩
    rw [isSeparator, beq_eq_false_iff_ne, String.trimBlanks, String.toList_ofList]
    intro htrim
    -- A separator would be a significant line of the section.
    have hmem : Text.trim chars ∈ Text.significant (Text.lines part.text.toList) := by
      refine Text.mem_significant.mpr ⟨⟨chars, hchars, rfl⟩, ?_⟩
      intro hempty
      rw [hempty] at htrim
      exact absurd htrim (by decide)
    rw [hsame] at hmem
    rcases mem_significant.mp hmem with ⟨⟨old, hold, holdTrim⟩, -⟩
    have hfalse := hseparators old hold
    rw [isSeparator, String.trimBlanks, holdTrim, htrim, beq_self_eq_true] at hfalse
    cases hfalse
  have hagain : significant ⟨1, (Text.lines part.text.toList).map String.ofList⟩ =
      part.significant := by
    rw [significant, List.map_map, ← hsame]
    simp [Function.comp_def]
  exact ⟨_, ofLines_eq_singleton hnone, hagain⟩

end Section

/-! ## Definitions -/

namespace Definition

variable {package file : String} {part : Section} {descriptor : Descriptor}

/-- Only significant lines declare something. -/
theorem filterMap_significant (package : String) (part : Section) :
    part.significant.filterMap (Declaration.declared package) =
      part.lines.filterMap fun line => Declaration.declared package (Text.trim line.toList) := by
  have hempty : (fun line : List Char =>
      if (!line.isEmpty) = true then Declaration.declared package line else none) =
        Declaration.declared package := by
    funext line
    cases line <;> rfl
  unfold Section.significant Text.significant
  rw [List.filterMap_filter, hempty, List.filterMap_map, List.filterMap_map]
  rfl

/-- A section whose lines can all be read has the declarations of its significant lines. -/
theorem readSection_of_readable (file : String)
    (hlines : ∀ line ∈ part.lines, ∃ item, Declaration.ofLine package line = .ok item) :
    readSection package file part =
      .ok ⟨part.significant.filterMap (Declaration.declared package), part.text⟩ := by
  let value (entry : String × Nat) : Option Item :=
    Declaration.declared package (Text.trim entry.1.toList)
  have hentries : ∀ entry ∈ part.numberedLines,
      readLine package file entry = .ok (value entry) := by
    intro entry hentry
    rcases hlines entry.1 (List.fst_mem_of_mem_zipIdx hentry) with ⟨item, hread⟩
    rw [readLine, mapError_eq_ok_iff, hread]
    exact congrArg Except.ok (Declaration.ofTrimmed_eq_ok hread).symm
  have hitems : (part.numberedLines.map value).filterMap id =
      part.significant.filterMap (Declaration.declared package) := by
    rw [filterMap_significant, ← List.zipIdx_map_fst part.firstLine part.lines, List.filterMap_map,
      List.filterMap_map]
    rfl
  unfold readSection
  rw [mapM_eq_ok_map hentries]
  show Except.ok (⟨(part.numberedLines.map value).filterMap id, part.text⟩ : Descriptor) = _
  rw [hitems]

/-- Whether a section can be read and what it declares is decided by its significant lines. -/
theorem readSection_eq_ok_iff :
    readSection package file part = .ok descriptor ↔
      (∀ line ∈ part.significant, ∃ item, Declaration.ofTrimmed package line = .ok item) ∧
        descriptor = ⟨part.significant.filterMap (Declaration.declared package), part.text⟩ := by
  constructor
  · intro hread
    have hlines : ∀ line ∈ part.lines, ∃ item, Declaration.ofLine package line = .ok item := by
      intro line hline
      rcases bind_eq_ok_iff.mp hread with ⟨items, hitems, -⟩
      rcases exists_of_mapM_eq_ok hitems with ⟨value, hvalues, -⟩
      rw [← List.zipIdx_map_fst part.firstLine part.lines] at hline
      rcases List.mem_map.mp hline with ⟨entry, hentry, rfl⟩
      exact ⟨value entry, mapError_eq_ok_iff.mp (hvalues entry hentry)⟩
    constructor
    · intro line hline
      rcases Section.mem_significant.mp hline with ⟨⟨whole, hwhole, rfl⟩, -⟩
      exact hlines whole hwhole
    · rw [readSection_of_readable file hlines] at hread
      exact (Except.ok.inj hread).symm
  · rintro ⟨hlines, rfl⟩
    refine readSection_of_readable file fun line hline => ?_
    rw [Declaration.ofLine_eq]
    by_cases hempty : Text.trim line.toList = []
    · rw [hempty]
      exact ⟨none, rfl⟩
    · exact hlines _ (Section.mem_significant.mpr ⟨⟨line, hline, rfl⟩, hempty⟩)

/-- A text from which the declarations of a definition can be read, in one section. -/
def Rereads (package : String) (descriptor : Descriptor) : Prop :=
  ∃ part, Section.ofText descriptor.definition = [part] ∧
    ∀ file, ∃ again, readSection package file part = .ok again ∧ again.items = descriptor.items

variable {text : String}

theorem rereads_of_readSection (hpart : part ∈ Section.ofText text)
    (hread : readSection package file part = .ok descriptor) : Rereads package descriptor := by
  have hlines := Section.of_mem_ofText hpart
  rcases readSection_eq_ok_iff.mp hread with ⟨hreadable, rfl⟩
  rcases Section.ofText_text (fun line hline => (hlines line hline).1)
    (fun line hline => (hlines line hline).2) with ⟨again, hagain, hsame⟩
  refine ⟨again, hagain, fun file => ⟨_, readSection_eq_ok_iff.mpr ⟨?_, rfl⟩, ?_⟩⟩
  · rw [hsame]
    exact hreadable
  · rw [hsame]

/-- No line of a definition is the separator of flattened definitions. -/
theorem separator_not_mem (hpart : part ∈ Section.ofText text)
    (hread : readSection package file part = .ok descriptor) :
    LinkedType.separator.toList ∉ descriptor.definition.toList.splitOn '\n' := by
  intro hmem
  have hlines := Section.of_mem_ofText hpart
  rcases readSection_eq_ok_iff.mp hread with ⟨hreadable, rfl⟩
  dsimp only at hmem
  -- The separator is a significant line, as it has no blanks, and cannot be read as one.
  have htrim : Text.trim LinkedType.separator.toList = LinkedType.separator.toList := by
    decide +kernel
  have hsome : LinkedType.separator.toList ≠ [] := by decide +kernel
  have hsignificant := Text.mem_significant.mpr ⟨⟨_, hmem, htrim⟩, hsome⟩
  rw [Section.significant_text fun line hline => (hlines line hline).1] at hsignificant
  rcases hreadable _ hsignificant with ⟨item, hitem⟩
  rw [Declaration.ofTrimmed_separator] at hitem
  cases hitem

/-- Each declaration of a section is that of one of its lines. -/
theorem exists_declares_of_readSection (hread : readSection package file part = .ok descriptor)
    {item : Item} (hitem : item ∈ descriptor.items) :
    ∃ line ∈ part.lines, Declaration.Declares package line.toList item := by
  rcases readSection_eq_ok_iff.mp hread with ⟨-, rfl⟩
  rcases List.mem_filterMap.mp hitem with ⟨line, hline, hdeclared⟩
  rcases Section.mem_significant.mp hline with ⟨⟨whole, hwhole, rfl⟩, -⟩
  refine ⟨whole, hwhole, Declaration.ofLine_eq_some_iff.mp ?_⟩
  exact Declaration.ofTrimmed_eq_ok_of_declared hdeclared

/-- The types of fields have no line feeds in their names, unless the package does. -/
theorem newline_not_mem_of_field (hpackage : '\n' ∉ package.toList)
    (hread : readSection package file part = .ok descriptor) {field : Field}
    (hfield : field ∈ descriptor.fields) : '\n' ∉ field.type.identity.text.toList := by
  rcases List.mem_filterMap.mp hfield with ⟨item, hitem, hof⟩
  cases item with
  | constant constant => cases hof
  | field declared =>
    cases hof
    rcases exists_declares_of_readSection hread hitem with ⟨line, -, hdeclares⟩
    rcases hdeclares.exists_denotes with ⟨word, hdenotes⟩
    exact hdenotes.newline_not_mem hpackage

/-- A message type comes from a section of its file, and belongs to the package of the file. -/
theorem exists_section_of_readMessages {file : MessageFile} {messages : List ParsedMessage}
    (hread : readMessages package file text = .ok messages) {message : ParsedMessage}
    (hmessage : message ∈ messages) :
    message.type.package = some package ∧ ∃ part ∈ Section.ofText text,
      readSection package file.path.text part = .ok message.descriptor := by
  simp only [readMessages] at hread
  split at hread
  · rcases exists_of_mem_of_mapM_eq_ok hread hmessage with ⟨⟨role, part⟩, hmem, hentry⟩
    rcases bind_eq_ok_iff.mp hentry with ⟨descriptor, hdescriptor, hresult⟩
    cases hresult
    exact ⟨rfl, part, (List.of_mem_zip hmem).2, hdescriptor⟩
  · cases hread

/-- A type and its definition, as a definition file has them. The name of the package has no line
feed in it. -/
def FromFile (entry : TypeReference × Descriptor) : Prop :=
  ∃ package file text messages message, '\n' ∉ package.toList ∧
    readMessages package file text = .ok messages ∧ message ∈ messages ∧
    entry = (message.type, message.descriptor)

end Definition

end RosInterface
