import RosInterface.Definition.Declaration
import RosInterface.Proofs.Computation
import RosInterface.Proofs.MessageType.References

namespace RosInterface.Declaration

open Text (AllBlank)

/-! # The grammar of declarations

A line of a definition is a remark, a declaration or neither:

* a remark (`IsRemark`) is blank or a comment, and may also stand behind a declaration;
* a declaration (`Declares`) has a reference to a type, a blank and a member: the name of a field, or
  the name and the value of a constant.

Nothing that follows the equals sign of a text constant is a remark. Everywhere else a hash sign
opens one, and what is in front of it decides what is declared, whatever the remark looks like.
`ofLine_eq_some_iff` and `ofLine_eq_none_iff` say that lines are read by this grammar.
-/

/-! ## Lines -/

/-- A text that declares nothing: it is blank, or a comment with blanks in front of it. -/
inductive IsRemark : List Char → Prop where
  | blank {gap : List Char} (blank : AllBlank gap) : IsRemark gap
  | comment {gap : List Char} (blank : AllBlank gap) (words : List Char) :
      IsRemark (gap ++ '#' :: words)

/-- What follows a type and declares something of this type. -/
inductive Member : TypeReference → List Char → Item → Prop where
  | field {type : TypeReference} {gap name tail : List Char} (blank : AllBlank gap)
      (proper : isMemberName name = true) (remark : IsRemark tail) :
      Member type (gap ++ (name ++ tail)) (.field ⟨type, String.ofList name⟩)
  | constant {type : String} {gap name space value tail : List Char} (other : type ≠ "string")
      (blank : AllBlank gap) (proper : isMemberName name = true) (spaced : AllBlank space)
      (unhashed : '#' ∉ value) (remark : IsRemark tail) :
      Member (.builtIn type) (gap ++ (name ++ (space ++ '=' :: (value ++ tail))))
        (.constant ⟨.builtIn type, String.ofList name, String.ofList (Text.trim value)⟩)
  | text {gap name space value : List Char} (blank : AllBlank gap)
      (proper : isMemberName name = true) (spaced : AllBlank space) :
      Member (.builtIn "string") (gap ++ (name ++ (space ++ '=' :: value)))
        (.constant ⟨.builtIn "string", String.ofList name, String.ofList (Text.trim value)⟩)

/-- The lines of a definition of `package` that declare something. -/
inductive Declares (package : String) : List Char → Item → Prop where
  | intro {lead word rest : List Char} {blank : Char} {type : TypeReference} {item : Item}
      (indented : AllBlank lead) (denotes : Denotes package word type)
      (spaced : Text.isBlank blank = true) (member : Member type rest item) :
      Declares package (lead ++ (word ++ blank :: rest)) item

/-! ## Remarks -/

theorem hash_not_mem_beforeComment (text : List Char) : '#' ∉ beforeComment text := by
  intro hmem
  exact absurd (List.all_eq_true.mp List.all_takeWhile _ hmem) (by decide)

/-- A remark adds nothing but blanks to what is in front of it. -/
theorem IsRemark.exists_beforeComment {front tail : List Char} (h : IsRemark tail)
    (hfront : '#' ∉ front) :
    ∃ gap, AllBlank gap ∧ beforeComment (front ++ tail) = front ++ gap := by
  have hkept : ∀ {text : List Char}, '#' ∉ text → ∀ c ∈ text, (c != '#') = true := by
    intro text htext c hc
    rw [bne_iff_ne]
    rintro rfl
    exact htext hc
  have hhash : Text.isBlank '#' = false := by decide
  unfold beforeComment
  cases h with
  | blank blank =>
    refine ⟨tail, blank, ?_⟩
    rw [← List.append_nil (front ++ tail), List.takeWhile_append_of_pos]
    · simp
    · exact List.forall_mem_append.mpr ⟨hkept hfront, hkept (blank.not_mem hhash)⟩
  | @comment gap blank words =>
    refine ⟨gap, blank, ?_⟩
    rw [← List.append_assoc, List.takeWhile_append_of_pos]
    · simp
    · exact List.forall_mem_append.mpr ⟨hkept hfront, hkept (blank.not_mem hhash)⟩

/-- The blanks and the remark around a text are cut off together. -/
theorem trim_beforeComment {gap text tail : List Char} (hgap : AllBlank gap)
    (htext : '#' ∉ text) (htail : IsRemark tail) :
    Text.trim (beforeComment (gap ++ (text ++ tail))) = Text.trim text := by
  have hfront : '#' ∉ gap ++ text := by
    rw [List.mem_append, not_or]
    exact ⟨hgap.not_mem (by decide), htext⟩
  rcases htail.exists_beforeComment hfront with ⟨trail, htrail, hbefore⟩
  rw [← List.append_assoc, hbefore, List.append_assoc, Text.trim_surround hgap htrail]

/-- What is left of a text without its comment and its outer blanks stands behind blanks and in
front of a remark. -/
theorem exists_remark (text : List Char) :
    ∃ gap tail, AllBlank gap ∧ IsRemark tail ∧
      text = gap ++ (Text.trim (beforeComment text) ++ tail) := by
  rcases Text.exists_margins (beforeComment text) with ⟨gap, trail, hgap, htrail, hbefore⟩
  have htext : text = beforeComment text ++ text.dropWhile (· != '#') :=
    (List.takeWhile_append_dropWhile).symm
  refine ⟨gap, trail ++ text.dropWhile (· != '#'), hgap, ?_, ?_⟩
  · cases hcomment : text.dropWhile (· != '#') with
    | nil =>
      rw [List.append_nil]
      exact .blank htrail
    | cons first words =>
      have hfirst : first = '#' := by
        have hstop := List.head?_dropWhile_not (· != '#') text
        rw [hcomment] at hstop
        simpa using hstop
      rw [hfirst]
      exact .comment htrail words
  · -- Three parts, of which the middle one and the blanks around it are in front of the comment.
    conv => lhs; rw [htext, hbefore]
    simp only [List.append_assoc]

theorem IsRemark.append_blank {tail trail : List Char} (h : IsRemark tail)
    (htrail : AllBlank trail) : IsRemark (tail ++ trail) := by
  cases h with
  | blank blank => exact .blank (blank.append htrail)
  | comment blank words =>
    rw [List.append_assoc]
    exact .comment blank (words ++ trail)

/-! ## Members -/

variable {type : TypeReference} {rest lead trail : List Char} {item : Item}

/-- Blanks around a member do not matter. -/
theorem Member.surround (h : Member type rest item) (hlead : AllBlank lead)
    (htrail : AllBlank trail) : Member type (lead ++ (rest ++ trail)) item := by
  cases h with
  | field blank proper remark =>
    have hmember := @Member.field type _ _ _ (hlead.append blank) proper
      (remark.append_blank htrail)
    simpa only [List.append_assoc] using hmember
  | constant other blank proper spaced unhashed remark =>
    have hmember := Member.constant other (hlead.append blank) proper spaced unhashed
      (remark.append_blank htrail)
    simpa only [List.append_assoc, List.cons_append] using hmember
  | @text gap name space value blank proper spaced =>
    have hmember := @Member.text _ _ _ (value ++ trail) (hlead.append blank) proper spaced
    rw [Text.trim_append htrail] at hmember
    simpa only [List.append_assoc, List.cons_append] using hmember

theorem isBlank_of_mem_name {name : List Char} (hname : isMemberName name = true) :
    ∀ c ∈ name, Text.isBlank c = false := fun c hc =>
  Text.isBlank_of_isNameChar (isNameChar_of_isMemberName hname c hc)

/-- Names are read without the blanks around them. -/
theorem trim_name {name : List Char} (hname : isMemberName name = true) (hlead : AllBlank lead)
    (htrail : AllBlank trail) : Text.trim (lead ++ (name ++ trail)) = name := by
  rw [Text.trim_surround hlead htrail, Text.trim_eq_self (isBlank_of_mem_name hname)]

/-- The text of a constant keeps its name in front and its value up to blanks when it is trimmed. -/
theorem exists_trim_constant {name space : List Char} (hname : isMemberName name = true)
    (value : List Char) :
    ∃ kept, Text.trim (name ++ (space ++ '=' :: value)) = name ++ (space ++ '=' :: kept) ∧
      Text.trim kept = Text.trim value := by
  refine ⟨Text.trimEnd value, ?_, Text.trim_trimEnd value⟩
  cases name with
  | nil => cases hname
  | cons first rest =>
    have hfirst := isBlank_of_mem_name hname first List.mem_cons_self
    rw [List.cons_append, Text.trim_cons hfirst, ← List.append_assoc, Text.trimEnd,
      Text.dropEnd_append_cons (by decide), List.append_assoc]
    rfl

/-- A text constant is read where a name stands in front of the first equals sign. -/
theorem textConstant?_eq_some_iff :
    textConstant? type rest = some item ↔ isTextType type = true ∧ ∃ name value,
      Text.cutAt (· == '=') rest = some (name, value) ∧
        isMemberName (Text.trim name) = true ∧ item = constantOf type name value := by
  unfold textConstant?
  constructor
  · intro hsome
    split at hsome
    · rename_i htype
      split at hsome
      · rename_i name value hcut
        split at hsome
        · rename_i hname
          cases hsome
          exact ⟨htype, name, value, hcut, hname, rfl⟩
        · cases hsome
      · cases hsome
    · cases hsome
  · rintro ⟨htype, name, value, hcut, hname, rfl⟩
    rw [if_pos htype, hcut]
    exact if_pos hname

/-- In front of the equals sign of a constant there are only blanks and a name. -/
theorem equals_not_mem_front {name : List Char} (hname : isMemberName name = true)
    (hlead : AllBlank lead) (htrail : AllBlank trail) : '=' ∉ lead ++ (name ++ trail) := by
  have hequals : Text.isBlank '=' = false := by decide
  rw [List.mem_append, List.mem_append, not_or, not_or]
  exact ⟨hlead.not_mem hequals, not_mem_of_isMemberName hname (by decide),
    htrail.not_mem hequals⟩

/-- A text with a comment in front of its first equals sign is no text constant. -/
theorem textConstant?_eq_none
    (hcomment : ∀ front back, rest = front ++ '=' :: back → '=' ∉ front → '#' ∈ front) :
    textConstant? type rest = none := by
  unfold textConstant?
  split
  · split
    · rename_i name value hcut
      rcases Text.cutAt_beq_eq_some_iff.mp hcut with ⟨hfirst, hrest⟩
      have hhash : '#' ∈ Text.trim name := Text.mem_trim (by decide) (hcomment _ _ hrest hfirst)
      split
      · rename_i hproper
        exact absurd hhash (not_mem_of_isMemberName hproper (by decide))
      · rfl
    · rfl
  · rfl

/-- Behind a name, an equals sign can only stand in a comment. -/
theorem IsRemark.hash_mem {name tail front back : List Char} (h : IsRemark tail)
    (hname : '=' ∉ name) (hsplit : name ++ tail = front ++ '=' :: back) (hfront : '=' ∉ front) :
    '#' ∈ front := by
  have hequals : Text.isBlank '=' = false := by decide
  cases h with
  | blank blank =>
    have hmem : '=' ∈ name ++ tail := hsplit ▸ List.mem_append_right _ List.mem_cons_self
    exact absurd hmem (by simp [hname, blank.not_mem hequals])
  | @comment gap blank words =>
    -- The first equals sign is behind the hash sign, as there is none in front of it.
    have hbefore : '=' ∉ name ++ gap := by simp [hname, blank.not_mem hequals]
    rw [← List.append_assoc] at hsplit
    rcases List.append_eq_append_iff.mp hsplit with ⟨between, rfl, hback⟩ | ⟨between, hover, hback⟩
    · cases between with
      | nil => cases hback
      | cons first between =>
        rw [(List.cons.inj hback).1]
        simp
    · cases between with
      | nil => cases hback
      | cons first between =>
        rw [← (List.cons.inj hback).1] at hover
        exact absurd (hover ▸ List.mem_append_right _ List.mem_cons_self) hbefore

/-! ## Reading members -/

theorem afterType_of_some (hsome : textConstant? type rest = some item) :
    afterType type rest = .ok item := by
  simp only [afterType, hsome]

theorem afterType_of_none (hnone : textConstant? type rest = none) :
    afterType type rest = member type (Text.trim (beforeComment rest)) := by
  simp only [afterType, hnone]

section

variable {gap name space : List Char} (hname : isMemberName name = true)

include hname

theorem textConstant?_assignment (htext : isTextType type = true) (hgap : AllBlank gap)
    (hspace : AllBlank space) (value : List Char) :
    textConstant? type (gap ++ (name ++ (space ++ '=' :: value))) =
      some (.constant ⟨type, String.ofList name, String.ofList (Text.trim value)⟩) := by
  have hcut := Text.cutAt_append_cons (equals_not_mem_front hname hgap hspace) value
  have htrim := trim_name hname hgap hspace
  simp only [List.append_assoc] at hcut htrim
  refine textConstant?_eq_some_iff.mpr ⟨htext, _, _, hcut, htrim.symm ▸ hname, ?_⟩
  rw [constantOf, htrim]

theorem member_name : member type name = .ok (.field ⟨type, String.ofList name⟩) := by
  have hcut : Text.cutAt (· == '=') name = none :=
    Text.cutAt_beq_eq_none_iff.mpr (not_mem_of_isMemberName hname (by decide))
  simp only [member, hcut, hname, if_true]

theorem member_assignment (hspace : AllBlank space) (value : List Char) :
    member type (name ++ (space ++ '=' :: value)) =
      .ok (.constant ⟨type, String.ofList name, String.ofList (Text.trim value)⟩) := by
  have hcut := Text.cutAt_append_cons
    (equals_not_mem_front hname Text.allBlank_nil hspace) value
  have htrim := trim_name hname Text.allBlank_nil hspace
  simp only [List.nil_append, List.append_assoc] at hcut htrim
  simp only [member, hcut, htrim, hname, if_true, constantOf]

end

/-- Members are read as what they declare, and may be declared. -/
theorem Member.afterType_eq (h : Member type rest item) :
    afterType type rest = .ok item ∧ item.check = .ok item := by
  have hhash : ∀ {name : List Char}, isMemberName name = true → '#' ∉ name := fun hname =>
    not_mem_of_isMemberName hname (by decide)
  cases h with
  | @field _ gap name tail blank proper remark =>
    have hequals : '=' ∉ gap ++ name := by
      simpa using equals_not_mem_front proper blank Text.allBlank_nil
    have hnone : textConstant? type (gap ++ (name ++ tail)) = none := by
      rw [← List.append_assoc]
      exact textConstant?_eq_none fun front back hsplit => remark.hash_mem hequals hsplit
    refine ⟨?_, rfl⟩
    rw [afterType_of_none hnone, trim_beforeComment blank (hhash proper) remark,
      Text.trim_eq_self (isBlank_of_mem_name proper), member_name proper]
  | @constant builtIn gap name space value tail other blank proper spaced unhashed remark =>
    have hother : isTextType (.builtIn builtIn) = false := by
      simpa [isTextType, TypeReference.builtIn] using other
    have hnone : textConstant? (.builtIn builtIn)
        (gap ++ (name ++ (space ++ '=' :: (value ++ tail)))) = none := by
      rw [textConstant?, hother, if_neg Bool.false_ne_true]
    have hline : '#' ∉ name ++ (space ++ '=' :: value) := by
      simp [hhash proper, spaced.not_mem (by decide : Text.isBlank '#' = false), unhashed]
    have htrim := trim_beforeComment blank hline remark
    simp only [List.append_assoc, List.cons_append] at htrim
    rcases @exists_trim_constant _ space proper value with ⟨kept, hkept, hvalue⟩
    refine ⟨?_, rfl⟩
    rw [afterType_of_none hnone, htrim, hkept, member_assignment proper spaced, hvalue]
  | text blank proper spaced =>
    exact ⟨afterType_of_some (textConstant?_assignment proper rfl blank spaced _), rfl⟩

/-- A constant that may be declared is of a single built-in type. -/
theorem builtIn_of_check {constant : Constant}
    (hcheck : (Item.constant constant).check = .ok (.constant constant)) :
    constant.type.isBuiltIn = true ∧ constant.type.isArray = false := by
  simp only [Item.check] at hcheck
  split at hcheck
  · rename_i hsingle
    simpa using hsingle
  · cases hcheck

/-- A type is not that of texts if a name and an equals sign behind it are no text constant. -/
theorem isTextType_eq_false {gap name back : List Char} (hnone : textConstant? type rest = none)
    (hrest : rest = gap ++ (name ++ '=' :: back)) (hgap : AllBlank gap) (hfirst : '=' ∉ name)
    (hname : isMemberName (Text.trim name) = true) : isTextType type = false := by
  rw [← Bool.not_eq_true]
  intro htext
  have hequals : '=' ∉ gap ++ name := by
    rw [List.mem_append, not_or]
    exact ⟨hgap.not_mem (by decide), hfirst⟩
  have htrim := Text.trim_prepend hgap name
  rw [← List.append_assoc] at hrest
  have hsome := textConstant?_eq_some_iff.mpr ⟨htext, gap ++ name, back,
    hrest ▸ Text.cutAt_append_cons hequals back, htrim.symm ▸ hname, rfl⟩
  rw [hnone] at hsome
  cases hsome

section

variable (htype : type.isBuiltIn = true → type.isArray = false → ∃ name, type = .builtIn name)

include htype

theorem Member.of_textConstant? (hread : textConstant? type rest = some item) :
    Member type rest item := by
  rcases textConstant?_eq_some_iff.mp hread with ⟨hstring, name, value, hcut, hname, rfl⟩
  rcases Text.cutAt_beq_eq_some_iff.mp hcut with ⟨-, rfl⟩
  simp only [isTextType, Bool.and_eq_true, Bool.not_eq_true', beq_iff_eq] at hstring
  rcases htype hstring.1.1 hstring.1.2 with ⟨_, rfl⟩
  obtain rfl : _ = "string" := hstring.2
  rcases Text.exists_margins name with ⟨gap, space, hgap, hspace, hmargins⟩
  have hsplit : name ++ '=' :: value = gap ++ (Text.trim name ++ (space ++ '=' :: value)) := by
    conv => lhs; rw [hmargins]
    simp only [List.append_assoc]
  rw [hsplit]
  exact .text hgap hname hspace

/-- What is read behind a type without its comment is a member, unless it is a text constant, which
would have been read before. -/
theorem Member.of_member (htext : textConstant? type rest = none)
    (hread : member type (Text.trim (beforeComment rest)) = .ok item)
    (hcheck : item.check = .ok item) : Member type rest item := by
  rcases exists_remark rest with ⟨gap, tail, hgap, htail, hrest⟩
  unfold member at hread
  split at hread
  · rename_i name value hcut
    split at hread
    · rename_i hname
      cases hread
      have hsingle := builtIn_of_check hcheck
      rcases htype hsingle.1 hsingle.2 with ⟨builtIn, rfl⟩
      rcases Text.cutAt_beq_eq_some_iff.mp hcut with ⟨hfirst, hbefore⟩
      rw [hbefore, List.append_assoc, List.cons_append] at hrest
      -- The value of a text constant would have been taken with its hash signs.
      have hother : builtIn ≠ "string" := by
        rintro rfl
        have hnoText := isTextType_eq_false htext hrest hgap hfirst hname
        cases hnoText
      have hunhashed : '#' ∉ value := by
        intro hmem
        refine hash_not_mem_beforeComment rest (Text.mem_of_mem_trim ?_)
        rw [hbefore]
        exact List.mem_append_right _ (List.mem_cons_of_mem _ hmem)
      rcases Text.exists_margins name with ⟨lead, space, hlead, hspace, hmargins⟩
      have hsplit : rest =
          gap ++ lead ++ (Text.trim name ++ (space ++ '=' :: (value ++ tail))) := by
        conv => lhs; rw [hrest, hmargins]
        simp only [List.append_assoc]
      rw [hsplit]
      exact .constant hother (hgap.append hlead) hname hspace hunhashed htail
    · cases hread
  · split at hread
    · rename_i hname
      cases hread
      have hfield := @Member.field type _ _ _ hgap hname htail
      rwa [← hrest] at hfield
    · cases hread

/-- Whatever is read behind a type and may be declared is a member. -/
theorem Member.of_afterType (hread : afterType type rest = .ok item)
    (hcheck : item.check = .ok item) : Member type rest item := by
  cases htext : textConstant? type rest with
  | some found =>
    rw [afterType_of_some htext] at hread
    cases hread
    exact .of_textConstant? htype htext
  | none =>
    rw [afterType_of_none htext] at hread
    exact .of_member htype htext hread hcheck

end

/-! ## Blanks around members -/

theorem textConstant?_surround (hlead : AllBlank lead) (htrail : AllBlank trail)
    (type : TypeReference) (text : List Char) :
    textConstant? type (lead ++ (text ++ trail)) = textConstant? type text := by
  have hleadEquals : '=' ∉ lead := hlead.not_mem (by decide)
  have htrailEquals : '=' ∉ trail := htrail.not_mem (by decide)
  unfold textConstant?
  cases hcut : Text.cutAt (· == '=') text with
  | none =>
    rw [Text.cutAt_beq_eq_none_iff] at hcut
    have hnone : Text.cutAt (· == '=') (lead ++ (text ++ trail)) = none := by
      rw [Text.cutAt_beq_eq_none_iff]
      simp [hleadEquals, hcut, htrailEquals]
    rw [hnone]
  | some halves =>
    rcases halves with ⟨name, value⟩
    rcases Text.cutAt_beq_eq_some_iff.mp hcut with ⟨hname, rfl⟩
    have hsome : Text.cutAt (· == '=') (lead ++ (name ++ '=' :: value ++ trail)) =
        some (lead ++ name, value ++ trail) :=
      Text.cutAt_beq_eq_some_iff.mpr ⟨by simp [hleadEquals, hname], by simp⟩
    -- The two halves are trimmed before they are used.
    rw [hsome]
    simp only [constantOf, Text.trim_prepend hlead, Text.trim_append htrail]

theorem trim_beforeComment_surround (hlead : AllBlank lead) (htrail : AllBlank trail)
    (text : List Char) :
    Text.trim (beforeComment (lead ++ (text ++ trail))) = Text.trim (beforeComment text) := by
  rcases exists_remark text with ⟨gap, tail, hgap, htail, hsplit⟩
  have hunhashed : '#' ∉ Text.trim (beforeComment text) := fun hmem =>
    hash_not_mem_beforeComment text (Text.mem_of_mem_trim hmem)
  have htrim := trim_beforeComment (hlead.append hgap) hunhashed (htail.append_blank htrail)
  rw [Text.trim_trim] at htrim
  conv => lhs; rw [hsplit]
  simpa only [List.append_assoc] using htrim

/-- Blanks around what stands behind a type do not matter. -/
theorem afterType_surround (hlead : AllBlank lead) (htrail : AllBlank trail)
    (type : TypeReference) (text : List Char) :
    afterType type (lead ++ (text ++ trail)) = afterType type text := by
  unfold afterType
  rw [textConstant?_surround hlead htrail, trim_beforeComment_surround hlead htrail]

/-! ## Lines -/

variable {package : String} {line : List Char}

/-- A line that declares something, without the blanks around it. -/
theorem trim_declaration {word rest : List Char} {blank : Char} (hlead : AllBlank lead)
    (hword : ∀ c ∈ word, Text.isBlank c = false) (hsome : word ≠ []) (hrest : ¬ AllBlank rest) :
    Text.trim (lead ++ (word ++ blank :: rest)) = word ++ blank :: Text.trimEnd rest := by
  rw [Text.trim_prepend hlead]
  cases word with
  | nil => exact absurd rfl hsome
  | cons first word =>
    have hend := Text.trimEnd_append hrest (word ++ [blank])
    rw [List.append_assoc, List.append_assoc] at hend
    rw [List.cons_append, Text.trim_cons (hword first List.mem_cons_self)]
    exact congrArg (first :: ·) hend

theorem Member.not_allBlank (h : Member type rest item) : ¬ AllBlank rest := by
  have hname : ∀ {front name back : List Char}, isMemberName name = true →
      ¬ AllBlank (front ++ (name ++ back)) := by
    intro front name back proper hblank
    cases name with
    | nil => cases proper
    | cons first name =>
      have hfirst := isBlank_of_mem_name proper first List.mem_cons_self
      exact hblank.not_mem hfirst (by simp)
  cases h with
  | field blank proper remark => exact hname proper
  | constant other blank proper spaced unhashed remark => exact hname proper
  | text blank proper spaced => exact hname proper

/-- The value of a constant is a part of the line that declares it. -/
theorem Member.value_subset {constant : Constant} (h : Member type rest (.constant constant)) :
    constant.value.toList ⊆ rest := by
  intro c hc
  cases h with
  | constant other blank proper spaced unhashed remark =>
    rw [String.toList_ofList] at hc
    simp [Text.mem_of_mem_trim hc]
  | text blank proper spaced =>
    rw [String.toList_ofList] at hc
    simp [Text.mem_of_mem_trim hc]

/-- Lines that declare something are read as that. -/
theorem Declares.ofLine_eq {line : String} (h : Declares package line.toList item) :
    ofLine package line = .ok (some item) := by
  generalize hline : line.toList = text at h
  cases h with
  | @intro lead word rest blank type item indented denotes spaced member =>
    have hword := denotes.isBlank_eq_false
    have htrim : Text.trim (lead ++ (word ++ blank :: rest)) = word ++ blank :: Text.trimEnd rest :=
      trim_declaration indented hword denotes.ne_nil member.not_allBlank
    have hcut : Text.cutAt Text.isBlank (word ++ blank :: Text.trimEnd rest) =
        some (word, Text.trimEnd rest) :=
      Text.cutAt_eq_some_iff.mpr ⟨hword, blank, spaced, rfl⟩
    have hsilent : isSilent (word ++ blank :: Text.trimEnd rest) = false := by
      have hhash : '#' ∉ word := denotes.not_mem (by decide) (by decide)
      cases word with
      | nil => exact absurd rfl denotes.ne_nil
      | cons first word =>
        exact beq_eq_false_iff_ne.mpr fun heq => hhash (heq ▸ List.mem_cons_self)
    have htype : TypeReference.parse package (String.ofList word) = .ok type := by
      rw [TypeReference.parse_eq_ok_iff, String.toList_ofList, Text.trim_eq_self hword]
      exact denotes
    rcases member.afterType_eq with ⟨hread, hcheck⟩
    -- The line is trimmed before it is cut, and what follows the type once more.
    have hafter : afterType type (Text.trimStart (Text.trimEnd rest)) = .ok item := by
      rcases Text.exists_dropEnd Text.isBlank rest with ⟨trail, htrail, hrest⟩
      rcases Text.exists_trimStart (Text.trimEnd rest) with ⟨lead, hlead, hstart⟩
      rw [← hread, ← afterType_surround hlead htrail, ← List.append_assoc, ← hstart]
      exact congrArg _ hrest.symm
    unfold ofLine
    rw [hline, htrim]
    dsimp only
    rw [hsilent, if_neg Bool.false_ne_true, ofWords, hcut]
    dsimp only
    rw [htype]
    show ((afterType type (Text.trimStart (Text.trimEnd rest)) >>= fun item =>
      item.check.mapError DeclarationFault.type).map some) = .ok (some item)
    rw [hafter]
    show ((item.check.mapError DeclarationFault.type).map some) = .ok (some item)
    rw [hcheck]
    rfl

theorem Declares.surround {text : List Char} (h : Declares package text item)
    (hlead : AllBlank lead) (htrail : AllBlank trail) :
    Declares package (lead ++ (text ++ trail)) item := by
  cases h with
  | intro indented denotes spaced member =>
    have hmember := member.surround Text.allBlank_nil htrail
    have hdeclares := Declares.intro (hlead.append indented) denotes spaced hmember
    simpa only [List.append_assoc, List.cons_append, List.nil_append] using hdeclares

/-- An item passes its check as itself. -/
theorem eq_of_check {checked : Item} (hcheck : checked.check = .ok item) :
    item = checked := by
  cases checked with
  | field field => exact (Except.ok.inj hcheck).symm
  | constant constant =>
    simp only [Item.check] at hcheck
    split at hcheck
    · exact (Except.ok.inj hcheck).symm
    · cases hcheck

/-- Whatever is read from words is declared by them. -/
theorem Declares.of_ofWords {words : List Char} (hread : ofWords package words = .ok item) :
    Declares package words item := by
  unfold ofWords at hread
  split at hread
  · cases hread
  · rename_i word rest hcut
    rcases Text.cutAt_eq_some_iff.mp hcut with ⟨hword, blank, hblank, rfl⟩
    rcases bind_eq_ok_iff.mp hread with ⟨type, hparse, hitem⟩
    rcases bind_eq_ok_iff.mp hitem with ⟨checked, hafter, hcheck⟩
    rw [mapError_eq_ok_iff] at hparse hcheck
    obtain rfl := eq_of_check hcheck
    rw [TypeReference.parse_eq_ok_iff, String.toList_ofList, Text.trim_eq_self hword] at hparse
    have htype : type.isBuiltIn = true → type.isArray = false → ∃ name, type = .builtIn name :=
      fun hbuiltIn hsingle => (hparse.eq_builtIn hbuiltIn hsingle).imp fun _ => And.right
    rcases Text.exists_trimStart rest with ⟨lead, hlead, hstart⟩
    have hmember := (Member.of_afterType htype hafter hcheck).surround hlead Text.allBlank_nil
    rw [List.append_nil, ← hstart] at hmember
    exact .intro Text.allBlank_nil hparse hblank hmember

/-- The type of a field is one that its line refers to. -/
theorem Declares.exists_denotes {line : List Char} {field : Field}
    (h : Declares package line (.field field)) : ∃ word, Denotes package word field.type := by
  cases h with
  | intro indented denotes spaced member =>
    cases member with
    | field blank proper remark => exact ⟨_, denotes⟩

/-- The lines that are read as something are those that declare it. -/
theorem ofLine_eq_some_iff {line : String} :
    ofLine package line = .ok (some item) ↔ Declares package line.toList item := by
  refine ⟨fun hread => ?_, Declares.ofLine_eq⟩
  rcases Text.exists_margins line.toList with ⟨lead, trail, hlead, htrail, hline⟩
  rw [hline]
  refine Declares.surround ?_ hlead htrail
  unfold ofLine at hread
  dsimp only at hread
  split at hread
  · cases hread
  · cases hwords : ofWords package (Text.trim line.toList) with
    | error fault =>
      rw [hwords] at hread
      cases hread
    | ok found =>
      rw [hwords] at hread
      cases hread
      exact .of_ofWords hwords

/-- A line is silent once it is trimmed if it is a remark. -/
theorem isSilent_trim_iff {line : List Char} : isSilent (Text.trim line) = true ↔ IsRemark line := by
  constructor
  · intro hsilent
    rcases Text.exists_margins line with ⟨lead, trail, hlead, htrail, hline⟩
    cases htrim : Text.trim line with
    | nil => exact .blank (Text.trim_eq_nil_iff.mp htrim)
    | cons first words =>
      rw [htrim] at hsilent hline
      obtain rfl : first = '#' := eq_of_beq hsilent
      rw [hline]
      exact .comment hlead (words ++ trail)
  · rintro (⟨blank⟩ | ⟨blank, words⟩)
    · rw [Text.trim_eq_nil_iff.mpr blank]
      rfl
    · rw [Text.trim_prepend blank, Text.trim_cons (by decide)]
      rfl

/-- The lines that declare nothing, without being at fault, are remarks. -/
theorem ofLine_eq_none_iff {line : String} :
    ofLine package line = .ok none ↔ IsRemark line.toList := by
  rw [← isSilent_trim_iff, ofLine]
  cases isSilent (Text.trim line.toList) with
  | true => simp
  | false => cases ofWords package (Text.trim line.toList) <;> simp [Except.map]

end RosInterface.Declaration
