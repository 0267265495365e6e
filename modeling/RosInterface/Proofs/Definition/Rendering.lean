import RosInterface.Proofs.Definition.Declared

namespace RosInterface

/-! # Definitions written out

Declarations have a written form, with qualified types, with array sizes in their shortest form and
without comments. Written one on each line, the declarations of a section are the declarations of
the section that these lines are, whatever package the lines are read in.

Each written form is a declaration in the sense of the grammar (`Declares.written`). That nothing
else is read from it, such as the comment of a field from the value of a text constant, is what
reading by the grammar means.
-/

namespace Declaration

variable {package : String} {line : List Char} {item : Item}

/-- What a line declares is declared by its written form as well, in any package. The package of the
line has a proper name, since the written form may mention it. -/
theorem Declares.written (h : Declares package line item)
    (hpackage : isTypeName package.toList = true) (other : String) :
    Declares other item.text.toList item := by
  cases h with
  | intro indented denotes spaced member =>
    -- The written form of the type, one space, and a member without any other blanks.
    have hintro : ∀ {rest : List Char}, Member _ rest item →
        Declares other ([] ++ (_ ++ ' ' :: rest)) item :=
      fun hmember => .intro Text.allBlank_nil (denotes.written hpackage other) (by decide) hmember
    have hend : IsRemark [] := .blank Text.allBlank_nil
    cases member with
    | field blank proper remark =>
      have hdeclares := hintro (.field Text.allBlank_nil proper hend)
      simpa [Item.text, Field.text] using hdeclares
    | constant other blank proper spaced unhashed remark =>
      have hvalue := fun hmem => unhashed (Text.mem_of_mem_trim hmem)
      have hmember := Member.constant other Text.allBlank_nil proper Text.allBlank_nil hvalue hend
      rw [Text.trim_trim] at hmember
      simpa [Item.text, Constant.text] using hintro hmember
    | @text _ _ _ value blank proper spaced =>
      have hmember := @Member.text _ _ _ (Text.trim value) Text.allBlank_nil proper
        Text.allBlank_nil
      rw [Text.trim_trim] at hmember
      simpa [Item.text, Constant.text] using hintro hmember

/-- Written forms of what single lines declare are single lines. -/
theorem Declares.newline_not_mem_text (h : Declares package line item)
    (hpackage : isTypeName package.toList = true) (hline : '\n' ∉ line) :
    '\n' ∉ item.text.toList := by
  have hproper := h.proper hline
  cases h with
  | intro indented denotes spaced member =>
    have hword := (denotes.written hpackage package).not_mem (c := '\n') (by decide) (by decide)
    have hname : ∀ {name : List Char}, isMemberName name = true → '\n' ∉ name := fun proper =>
      not_mem_of_isMemberName proper (by decide)
    cases item with
    | field field =>
      have htype : '\n' ∉ field.type.text.toList := by
        cases member with
        | field => exact hword
      simp [Item.text, Field.text, htype, hname hproper.identifier]
    | constant constant =>
      have htype : '\n' ∉ constant.type.text.toList := by
        cases member with
        | constant | text => exact hword
      simp [Item.text, Constant.text, htype, hname hproper.identifier, hproper.value]

end Declaration

/-! ## Definitions -/

namespace Definition

/-- Declarations in their written forms, one on each line. -/
def written (items : List Item) : String :=
  String.join (items.map fun item => item.text ++ "\n")

theorem toList_written (items : List Item) :
    (written items).toList = (items.map (·.text.toList)).flatMap (· ++ ['\n']) := by
  simp [written, String.toList_join, List.flatMap_map]

variable {package file text : String} {part : Section} {descriptor : Descriptor} {items : List Item}

/-- The line of a declaration, as it is found in a text. -/
def writtenLine (item : Item) : String :=
  String.ofList (Text.dropReturn item.text.toList)

theorem ofLine_writtenLine {item : Item} (h : Declaration.Declares package item.text.toList item) :
    Declaration.ofLine package (writtenLine item) = .ok (some item) := by
  rw [← h.ofLine_eq, Declaration.ofLine_eq, Declaration.ofLine_eq, writtenLine,
    String.toList_ofList, Text.trim_dropReturn]

/-- Written declarations make up one section. -/
theorem ofText_written (hlines : ∀ item ∈ items, '\n' ∉ item.text.toList)
    (hitems : ∀ item ∈ items, Declaration.Declares package item.text.toList item) :
    Section.ofText (written items) = [⟨1, items.map writtenLine⟩] := by
  have hsplit : (Text.lines (written items).toList).map String.ofList = items.map writtenLine := by
    rw [toList_written, Text.lines_flatMap (List.forall_mem_map.mpr hlines), List.map_map,
      List.map_map]
    rfl
  rw [Section.ofText, hsplit]
  refine Section.ofLines_eq_singleton (List.forall_mem_map.mpr fun item hitem => ?_)
  exact Section.isSeparator_eq_false (ofLine_writtenLine (hitems item hitem))

/-- Written declarations are read as what they are written forms of. -/
theorem readSection_written
    (hitems : ∀ item ∈ items, Declaration.Declares package item.text.toList item) :
    readSection package file ⟨1, items.map writtenLine⟩ =
      .ok ⟨items, Section.text ⟨1, items.map writtenLine⟩⟩ := by
  have hread := fun item hitem => ofLine_writtenLine (hitems item hitem)
  have hdeclared : (items.map writtenLine).filterMap
      (fun line => Declaration.declared package (Text.trim line.toList)) = items := by
    rw [List.filterMap_map]
    refine (List.filterMap_congr fun item hitem => ?_).trans List.filterMap_some
    rw [Function.comp_apply, Declaration.ofTrimmed_eq_ok]
    exact hread item hitem
  rw [readSection_of_readable file, filterMap_significant, hdeclared]
  exact List.forall_mem_map.mpr fun item hitem => ⟨_, hread item hitem⟩

/-- Writing the declarations of a section one on each line, and reading the lines again in any
package, gives the same declarations in the same order. -/
theorem readSection_inverts_written (hpackage : isTypeName package.toList = true)
    (hpart : part ∈ Section.ofText text)
    (hread : readSection package file part = .ok descriptor) (other otherFile : String) :
    ∃ again, Section.ofText (written descriptor.items) = [again] ∧
      readSection other otherFile again = .ok ⟨descriptor.items, again.text⟩ := by
  have hdeclared : ∀ item ∈ descriptor.items, '\n' ∉ item.text.toList ∧
      Declaration.Declares other item.text.toList item := by
    intro item hitem
    rcases exists_declares_of_readSection hread hitem with ⟨line, hline, hdeclares⟩
    have hnewline := (Section.of_mem_ofText hpart line hline).1
    exact ⟨hdeclares.newline_not_mem_text hpackage hnewline, hdeclares.written hpackage other⟩
  have hitems := fun item hitem => (hdeclared item hitem).2
  exact ⟨_, ofText_written (fun item hitem => (hdeclared item hitem).1) hitems,
    readSection_written hitems⟩

/-- A bare type, a size with a plus sign, a comment and a text constant are written out and read again
in another package. -/
theorem readSection_inverts_written_mixed :
    ∃ part descriptor again,
      part ∈ Section.ofText "Point[+03] at# = 1\r\nstring N = a # = b " ∧
      readSection "demo" "Mixed.msg" part = .ok descriptor ∧
      written descriptor.items = "demo/Point[3] at\nstring N=a # = b\n" ∧
      Section.ofText (written descriptor.items) = [again] ∧
      readSection "other" "Again.msg" again = .ok ⟨descriptor.items, again.text⟩ := by
  have hsections : Section.ofText "Point[+03] at# = 1\r\nstring N = a # = b " =
      [⟨1, ["Point[+03] at# = 1", "string N = a # = b "]⟩] := by decide +kernel
  have hread : readSection "demo" "Mixed.msg" ⟨1, ["Point[+03] at# = 1", "string N = a # = b "]⟩ =
      .ok ⟨[.field ⟨(TypeReference.message "demo" "Point").toArray (some 3), "at"⟩,
        .constant ⟨.builtIn "string", "N", "a # = b"⟩],
        "Point[+03] at# = 1\nstring N = a # = b"⟩ := by decide +kernel
  have hpart := hsections.symm ▸ List.mem_singleton_self _
  rcases readSection_inverts_written (by decide) hpart hread "other" "Again.msg" with
    ⟨again, hsection, hagain⟩
  exact ⟨_, _, again, hpart, hread, by decide +kernel, hsection, hagain⟩

end Definition

end RosInterface
